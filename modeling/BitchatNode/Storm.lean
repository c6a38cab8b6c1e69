-- How often a node relays one packet. A broadcast message is looked up in
-- `processed_messages` first, so that it is relayed once; the other packets are
-- relayed each time they come with a TTL above one, which is once where only
-- one way leads to the node.
import BitchatNode.Network
import BitchatNode.AtMostOnce
import BitchatNode.PeerLoss

namespace daemon

open python bitchat bitchat.protocol systems

variable [Packages]

/-! ## One packet -/

/-- The same bytes up to the TTL. -/
def SamePacket (raw raw' : Bytes) : Prop := with_ttl raw 0 = with_ttl raw' 0

instance (raw raw' : Bytes) : Decidable (SamePacket raw raw') :=
  inferInstanceAs (Decidable (_ = _))

/-- How many relays of the packet were scheduled. -/
def times_relayed (raw : Bytes) (out : List Action) : Nat :=
  ((relays out).filter fun relay => SamePacket relay raw).length

omit [Packages] in
theorem with_ttl_with_ttl (raw : Bytes) (t t' : UInt8) :
    with_ttl (with_ttl raw t) t' = with_ttl raw t' := by simp [with_ttl]

omit [Packages] in
theorem samePacket_with_ttl (raw raw' : Bytes) (ttl : UInt8) :
    SamePacket (with_ttl raw ttl) raw' ↔ SamePacket raw raw' := by
  simp [SamePacket, with_ttl_with_ttl]

/-- The copies of a packet are read alike. -/
theorem parse_of_samePacket {raw raw' : Bytes} {packet : BitchatPacket} (h : SamePacket raw' raw)
    (hparse : parse_bitchat_packet raw = .ok packet) :
    ∃ ttl, parse_bitchat_packet raw' = .ok { packet with ttl } := by
  have hzero : parse_bitchat_packet (raw'.set 2 0) = parse_bitchat_packet (raw.set 2 0) :=
    congrArg parse_bitchat_packet h
  rw [parse_set_ttl, parse_set_ttl, hparse] at hzero
  obtain ⟨packet', hparse', heq⟩ := map_eq_ok_iff.mp hzero
  refine ⟨packet'.ttl, ?_⟩
  rw [hparse']
  cases packet'
  simp only [BitchatPacket.mk.injEq] at heq
  obtain ⟨rfl, rfl, rfl, rfl, rfl, rfl, -⟩ := heq
  rfl

theorem times_relayed_of_same {raw : Bytes} {w w' : World} (h : SameRelays w w') :
    times_relayed raw w'.out = times_relayed raw w.out := by
  unfold times_relayed
  rw [show relays w'.out = relays w.out from h]

theorem times_relayed_append {raw relay : Bytes} {w w' : World}
    (h : relays w'.out = relays w.out ++ [relay]) :
    times_relayed raw w'.out = times_relayed raw w.out + if SamePacket relay raw then 1 else 0 := by
  unfold times_relayed
  rw [h, List.filter_append, List.length_append]
  congr 1
  by_cases hsame : SamePacket relay raw <;> simp [hsame]

/-! ## What does not change -/

/-- The node keeps its id. -/
def SameId (w w' : World) : Prop := w'.node.my_peer_id = w.node.my_peer_id

instance : IsPreorder World SameId where
  refl _ := rfl
  trans _ _ _ h g := Eq.trans g h

theorem sameId_raw_send (env : Env) (packet : Bytes) : Moves SameId (raw_send env packet) :=
  (calm_of (fun _ h w => (h w.node).my_peer_id) (fun _ _ => rfl) (fun _ _ => rfl) env).raw_send packet

theorem sameId_react (env : Env) (event : Event) : Moves SameId (react env event) :=
  moves_react_of (fun _ h w => (h w.node).my_peer_id) (fun _ _ => rfl) (fun _ _ => rfl) env event

/-- An event that brings no packet schedules no relay. -/
theorem sameRelays_react (env : Env) {event : Event} (h : ∀ conn raw, event ≠ .packet conn raw) :
    Moves SameRelays (react env event) := by
  refine (calm_sameRelays env).react ?_ ?_ ?_ ?_
  · exact fun conn raw heq => absurd heq (h conn raw)
  · exact fun conn _ => sameRelays_of_quiet (quiet_modifyNode fun _ => ⟨rfl, rfl⟩)
  · exact fun conn _ => sameRelays_of_quiet (quiet_on_read_done conn)
  · exact fun addr _ => sameRelays_of_quiet (quiet_disconnect addr)

/-! ## Floods -/

variable {ι : Type} [DecidableEq ι]

/-- A copy of the packet is handed over, and relayed by the node if it does so;
or a node does anything else. -/
inductive Happening (ι : Type)
  | hand (d : Delivery)
  | other (x : ι) (env : Env) (event : Event)

/-- The event brings a copy of the packet. -/
def brings (raw : Bytes) : Event → Bool
  | .packet _ raw' => SamePacket raw' raw
  | _ => false

def happen (topology : Topology ι) (raw : Bytes) (s : Network ι) :
    Happening ι → Option (Network ι)
  | .hand d => deliver_copy topology s d
  | .other x env event =>
    if brings raw event then none
    else some { s with
      world := Function.update s.world x (exec (react env event) (s.world x)).2 }

theorem other_eq_some {topology : Topology ι} {raw : Bytes} {s s' : Network ι} {x : ι} {env : Env}
    {event : Event} (h : happen topology raw s (.other x env event) = some s') :
    brings raw event = false ∧
      s' = { s with
        world := Function.update s.world x (exec (react env event) (s.world x)).2 } := by
  simp only [happen] at h
  split at h
  · cases h
  · rename_i hbrings
    exact ⟨Bool.eq_false_of_not_eq_true hbrings, (Option.some.inj h).symm⟩

/-- The origin has sent the packet, on all of its connections. -/
def sent (topology : Topology ι) (world : ι → World) (o : ι) (env : Env) (raw : Bytes) :
    Network ι where
  world := Function.update world o (exec (raw_send env raw) (world o)).2
  flying := arrivals topology o (new_writes (world o) (exec (raw_send env raw) (world o)).2)

def flood (topology : Topology ι) (raw : Bytes) (start : Network ι) :
    System (Network ι) (Happening ι) where
  start := (· = start)
  step := happen topology raw

/-- The nodes are in states of their runs, and none has relayed the packet. -/
structure NewPacket (world : ι → World) (raw : Bytes) (packet : BitchatPacket) : Prop where
  reachable : ∀ x, Reachable (world x)
  parses : parse_bitchat_packet raw = .ok packet
  unseen : ∀ x, times_relayed raw (world x).out = 0

/-! ## Who passes a packet on -/

/-- The ACK is for the node itself. -/
def ack_for_us (self : MeshNode) (packet : BitchatPacket) : Prop :=
  packet.msg_type = .DELIVERY_ACK ∧ packet.recipient_id_str.getD [] ≠ [] ∧
    packet.recipient_id_str = some self.my_peer_id.str

/-- The node may pass the packet on: it is neither its own nor an ACK for it. -/
def Passes (self : MeshNode) (packet : BitchatPacket) : Prop :=
  packet.sender_id_str ≠ self.my_peer_id.str ∧ ¬ ack_for_us self packet

/-- Two nodes with the same id pass on the same packets. -/
theorem passes_of_sameId {w w' : World} {packet : BitchatPacket} (h : SameId w w') :
    Passes w'.node packet ↔ Passes w.node packet := by
  unfold Passes ack_for_us
  rw [show w'.node.my_peer_id = w.node.my_peer_id from h]

theorem passes_of_relays {env : Env} {conn : PeerConnection} {raw : Bytes} {packet : BitchatPacket}
    {w : World} (hparse : parse_bitchat_packet raw = .ok packet)
    (h : ¬ SameRelays w (exec (on_packet_received env conn raw) w).2) : Passes w.node packet := by
  constructor
  · intro hown
    apply h
    unfold on_packet_received
    simp only [exec_bind, exec_node, hparse, hown, if_true, exec_pure]
    exact refl_of SameRelays w
  · rintro ⟨htype, hus⟩
    apply h
    by_cases hown : packet.sender_id_str = w.node.my_peer_id.str
    · unfold on_packet_received
      simp only [exec_bind, exec_node, hparse, hown, if_true, exec_pure]
      exact refl_of SameRelays w
    · rw [exec_on_packet_received hparse hown, handle_of_delivery_ack htype]
      have hours : packet.recipient_id_str.getD [] ≠ [] ∧ packet.recipient_id_str =
          some (w.heard packet.sender_id_str conn.address).node.my_peer_id.str := hus
      unfold handle_delivery_ack
      rw [exec_bind_ok _ (exec_node _), if_pos hours]
      refine Moves.bind ((calm_sameRelays env).open_ack packet) (fun payload => ?_) _
      split
      · exact (calm_sameRelays env).take_ack _
      · exact Moves.pure ()

/-! ## What holds in a flood -/

/-- What holds at every moment of a flood of the packet. -/
structure InFlood (raw : Bytes) (start s : Network ι) : Prop where
  copies : ∀ c ∈ s.flying, SamePacket c.raw raw
  ids : ∀ x, SameId (start.world x) (s.world x)
  filed : ∀ x, Filed (s.world x).node

/-- One node moves on, and keeps its id and the addresses of its table. -/
theorem InFlood.update {raw : Bytes} {start s s' : Network ι} (h : InFlood raw start s) {x : ι}
    {w : World} (hworld : s'.world = Function.update s.world x w) (hid : SameId (s.world x) w)
    (hfiled : Filed w.node) (hcopies : ∀ c ∈ s'.flying, SamePacket c.raw raw) :
    InFlood raw start s' := by
  refine ⟨hcopies, ?_, ?_⟩
  · intro y
    by_cases hy : y = x
    · rw [hworld, hy, Function.update_self]
      exact trans_of SameId (h.ids x) hid
    · rw [hworld, Function.update_of_ne hy]
      exact h.ids y
  · intro y
    by_cases hy : y = x
    · rw [hworld, hy, Function.update_self]
      exact hfiled
    · rw [hworld, Function.update_of_ne hy]
      exact h.filed y

theorem sameId_send_relays (env : Env) (packets : List Bytes) :
    Moves SameId (send_relays env packets) := by
  induction packets with
  | nil => exact Moves.pure ()
  | cons raw rest ih =>
    unfold send_relays
    exact Moves.bind (Moves.suppress (sameId_raw_send env raw)) fun _ => ih

theorem prunes_send_relays (env : Env) (packets : List Bytes) :
    Moves Prunes (send_relays env packets) := by
  induction packets with
  | nil => exact Moves.pure ()
  | cons raw rest ih =>
    unfold send_relays
    exact Moves.bind (Moves.suppress ((calm_prunes env).raw_send raw)) fun _ => ih

omit [DecidableEq ι] in
theorem sameId_relayed (d : Delivery) (copy : Copy ι) (w : World) : SameId w (relayed d copy w) :=
  trans_of SameId (sameId_react d.env (.packet copy.conn copy.raw) w) (sameId_send_relays _ _ _)

omit [DecidableEq ι] in
theorem filed_relayed (d : Delivery) (copy : Copy ι) {w : World} (h : Filed w.node) :
    Filed (relayed d copy w).node :=
  (prunes_send_relays _ _ _).filed (filed_react d.env (.packet copy.conn copy.raw) w h)

omit [DecidableEq ι] in
theorem samePacket_of_mem_added {topology : Topology ι} {d : Delivery} {copy c : Copy ι} {w : World}
    (h : c ∈ added topology d copy w) : SamePacket c.raw copy.raw := by
  obtain ⟨ttl, hraw, -⟩ := raw_of_mem_added h
  rw [hraw]
  exact (samePacket_with_ttl copy.raw copy.raw ttl).mpr rfl

theorem InFlood.happen {topology : Topology ι} {raw : Bytes} {start s s' : Network ι}
    {e : Happening ι} (h : InFlood raw start s) (hstep : happen topology raw s e = some s') :
    InFlood raw start s' := by
  cases e with
  | hand d =>
    obtain ⟨copy, hcopy, hworld, hflying⟩ := deliver_copy_eq_some hstep
    refine h.update hworld (sameId_relayed d copy _) (filed_relayed d copy (h.filed _)) ?_
    intro c hc
    rw [hflying, List.mem_append] at hc
    rcases hc with hold | hnew
    · exact h.copies c (List.mem_of_mem_eraseIdx hold)
    · exact (samePacket_of_mem_added hnew).trans (h.copies copy (List.mem_of_getElem? hcopy))
  | other x env event =>
    obtain ⟨-, rfl⟩ := other_eq_some hstep
    exact h.update rfl (sameId_react env event _) (filed_react env event _ (h.filed x)) h.copies

omit [Packages] [DecidableEq ι] in
theorem raw_of_mem_spread {topology : Topology ι} {x : ι} {raw : Bytes} {addrs : List Str}
    {c : Copy ι} (h : c ∈ spread topology x raw addrs) : c.raw = raw := by
  obtain ⟨addr, -, hsome⟩ := List.mem_filterMap.mp h
  obtain ⟨end_, -, rfl⟩ := Option.map_eq_some_iff.mp hsome
  rfl

theorem inFlood_sent (topology : Topology ι) {world : ι → World} {o : ι} {raw : Bytes} (env : Env)
    (hreachable : ∀ x, Reachable (world x)) :
    InFlood raw ⟨world, []⟩ (sent topology world o env raw) := by
  have hworld : InFlood raw ⟨world, []⟩ ⟨world, []⟩ := by
    refine ⟨by simp, fun _ => rfl, fun x => (hreachable x).filed⟩
  refine hworld.update rfl (sameId_raw_send env raw _) ?_ ?_
  · exact ((calm_prunes env).raw_send raw _).filed (hworld.filed o)
  · intro c hc
    obtain ⟨addrs, -, harrivals⟩ := arrivals_raw_send topology o env raw (world o)
    unfold sent at hc
    rw [harrivals] at hc
    rw [raw_of_mem_spread hc]
    rfl

/-! ## Ways -/

/-- A way from the origin to a node, as the addresses that a packet goes over;
the nodes in between pass it on. -/
inductive Way (topology : Topology ι) (passes : ι → Prop) (o : ι) : List Str → ι → Prop
  | first {addr : Str} {x : ι} {conn : PeerConnection} (h : topology o addr = some (x, conn)) :
    Way topology passes o [addr] x
  | next {route : List Str} {y : ι} {addr : Str} {x : ι} {conn : PeerConnection}
      (hway : Way topology passes o route y) (hpasses : passes y)
      (h : topology y addr = some (x, conn)) : Way topology passes o (route ++ [addr]) x

/-- At most one way that the TTL allows leads to a node that passes the packet
on itself. -/
def OneWay (topology : Topology ι) (passes : ι → Prop) (o : ι) (ttl : UInt8) : Prop :=
  ∀ x route route', passes x → Way topology passes o route x → Way topology passes o route' x →
    route.length < ttl.toNat → route'.length < ttl.toNat → route = route'

/-- A copy and the way that it took. -/
abbrev Traced (ι : Type) := List Str × Copy ι

/-- The copies that go on from the end of a way. -/
def go_on (topology : Topology ι) (x : ι) (raw : Bytes) (route : List Str) (addrs : List Str) :
    List (Traced ι) :=
  addrs.filterMap fun addr =>
    (topology x addr).map fun end_ => (route ++ [addr], ⟨end_.1, end_.2, raw⟩)

/-- The addresses at which somebody is. -/
def hops (topology : Topology ι) (x : ι) (addrs : List Str) : List Str :=
  addrs.filter fun addr => (topology x addr).isSome

omit [Packages] [DecidableEq ι] in
theorem map_fst_go_on (topology : Topology ι) (x : ι) (raw : Bytes) (route addrs : List Str) :
    (go_on topology x raw route addrs).map Prod.fst =
      (hops topology x addrs).map fun addr => route ++ [addr] := by
  induction addrs with
  | nil => rfl
  | cons addr addrs ih =>
    unfold go_on hops at ih ⊢
    rw [List.filterMap_cons, List.filter_cons]
    cases topology x addr with
    | none => simpa using ih
    | some end_ => simpa using ih

omit [Packages] [DecidableEq ι] in
theorem map_snd_go_on (topology : Topology ι) (x : ι) (raw : Bytes) (route addrs : List Str) :
    (go_on topology x raw route addrs).map Prod.snd = spread topology x raw addrs := by
  unfold go_on spread
  rw [List.map_filterMap]
  congr 1
  funext addr
  rw [Option.map_map]
  rfl

omit [DecidableEq ι] in
/-- The addresses of a table are filed once. -/
theorem hops_nodup {topology : Topology ι} {x : ι} {n : MeshNode} (h : Filed n) {addrs : List Str}
    (hsub : addrs.Sublist (n.connections.entries.map (·.2.address))) :
    (hops topology x addrs).Nodup := by
  have hkeys : n.connections.entries.map (·.2.address) = n.connections.keys := by
    unfold Dict.keys
    exact List.map_congr_left fun e he => (h e he).symm
  rw [hkeys] at hsub
  exact (hsub.nodup n.connections.keys_nodup).filter _

/-! ## Floods in step with ways -/

/-- Every copy under way has come on a way of its own, every copy that was
relayed as well, and a node has relayed no more copies than these. -/
structure InStepWithWays (topology : Topology ι) (raw : Bytes) (passes : ι → Prop) (o : ι)
    (ttl : UInt8) (s : Network ι) (traced : List (Traced ι)) (done : List (List Str))
    (took : List (List Str × ι)) : Prop where
  flying : s.flying = traced.map Prod.snd
  proper : (flooding.Spread.mk (traced.map Prod.fst) done).Proper
  copies : ∀ t ∈ traced, Way topology passes o t.1 t.2.dest ∧
    t.2.ttl.toNat + t.1.length = ttl.toNat + 1
  took_done : (took.map Prod.fst).Sublist done
  took_way : ∀ t ∈ took, passes t.2 ∧ Way topology passes o t.1 t.2 ∧ t.1.length < ttl.toNat
  counts : ∀ x, times_relayed raw (s.world x).out = (took.filter fun t => t.2 = x).length

/-- Where there is one way only, a node has relayed the packet once at most. -/
theorem InStepWithWays.le_one {topology : Topology ι} {raw : Bytes} {passes : ι → Prop} {o : ι}
    {ttl : UInt8} {s : Network ι} {traced : List (Traced ι)} {done : List (List Str)}
    {took : List (List Str × ι)} (h : InStepWithWays topology raw passes o ttl s traced done took)
    (honeway : OneWay topology passes o ttl) (x : ι) :
    times_relayed raw (s.world x).out ≤ 1 := by
  rw [h.counts x]
  have hnodup : (took.filter fun t => t.2 = x).Nodup := by
    have hdone : done.Nodup := (List.nodup_append.mp h.proper.nodup).1
    exact (List.Nodup.of_map Prod.fst (h.took_done.nodup hdone)).filter _
  -- two of them came on the same way
  have hsame : ∀ t ∈ took.filter fun t => t.2 = x, ∀ t' ∈ took.filter fun t => t.2 = x, t = t' := by
    intro t ht t' ht'
    obtain ⟨hmem, hx⟩ := List.mem_filter.mp ht
    obtain ⟨hmem', hx'⟩ := List.mem_filter.mp ht'
    have hx : t.2 = x := by simpa using hx
    have hx' : t'.2 = x := by simpa using hx'
    obtain ⟨hpasses, hway, hshort⟩ := h.took_way t hmem
    obtain ⟨-, hway', hshort'⟩ := h.took_way t' hmem'
    rw [hx] at hpasses hway
    rw [hx'] at hway'
    exact Prod.ext (honeway x _ _ hpasses hway hway' hshort hshort') (hx.trans hx'.symm)
  exact flooding.length_le_one hnodup hsame

theorem inStepWithWays_sent {topology : Topology ι} {world : ι → World} {o : ι} {raw : Bytes}
    {packet : BitchatPacket} (env : Env) (hnew : NewPacket world raw packet) (passes : ι → Prop) :
    ∃ traced, InStepWithWays topology raw passes o packet.ttl (sent topology world o env raw) traced
      [[]] [] := by
  obtain ⟨addrs, haddrs, harrivals⟩ := arrivals_raw_send topology o env raw (world o)
  refine ⟨go_on topology o raw [] addrs, ?_, ?_, ?_, List.nil_sublist _, by simp, ?_⟩
  · rw [map_snd_go_on, ← harrivals]
    rfl
  · rw [map_fst_go_on]
    exact flooding.Spread.proper_start (hops_nodup (hnew.reachable o).filed haddrs)
  · intro t ht
    obtain ⟨addr, -, hsome⟩ := List.mem_filterMap.mp ht
    obtain ⟨end_, hend, rfl⟩ := Option.map_eq_some_iff.mp hsome
    refine ⟨.first hend, ?_⟩
    have httl : packet.ttl = raw.getD 2 0 := (parse_ttl hnew.parses).2
    rw [httl]
    rfl
  · intro x
    show times_relayed raw (Function.update world o _ x).out = 0
    by_cases hx : x = o
    · rw [hx, Function.update_self, ← hnew.unseen o]
      exact times_relayed_of_same ((calm_sameRelays env).raw_send raw (world o))
    · rw [Function.update_of_ne hx]
      exact hnew.unseen x

/-- Nothing but a copy of the packet makes a node relay it. -/
theorem times_relayed_react {env : Env} {event : Event} {raw : Bytes}
    (h : brings raw event = false) (w : World) :
    times_relayed raw (exec (react env event) w).2.out = times_relayed raw w.out := by
  by_cases hpacket : ∃ conn raw', event = .packet conn raw'
  · obtain ⟨conn, raw', rfl⟩ := hpacket
    have hother : ¬ SamePacket raw' raw := by simpa [brings] using h
    rcases mayRelay_on_packet_received env conn raw' w with hsame | ⟨-, hrelay⟩
    · exact times_relayed_of_same hsame
    · show times_relayed raw (exec (on_packet_received env conn raw') w).2.out = _
      rw [times_relayed_append hrelay, if_neg, Nat.add_zero]
      rw [samePacket_with_ttl]
      exact hother
  · exact times_relayed_of_same
      (sameRelays_react env (fun conn raw' heq => hpacket ⟨conn, raw', heq⟩) w)

theorem InStepWithWays.other {topology : Topology ι} {raw : Bytes} {passes : ι → Prop} {o : ι}
    {ttl : UInt8} {s s' : Network ι} {traced : List (Traced ι)} {done : List (List Str)}
    {took : List (List Str × ι)} (h : InStepWithWays topology raw passes o ttl s traced done took)
    {x : ι} {env : Env} {event : Event} (hstep :
      happen topology raw s (.other x env event) = some s') :
    InStepWithWays topology raw passes o ttl s' traced done took := by
  obtain ⟨hbrings, rfl⟩ := other_eq_some hstep
  refine { h with flying := h.flying, counts := ?_ }
  intro y
  rw [← h.counts y]
  show times_relayed raw (Function.update s.world x _ y).out = _
  by_cases hy : y = x
  · rw [hy, Function.update_self]
    exact times_relayed_react hbrings _
  · rw [Function.update_of_ne hy]

/-- A copy is handed over: its way is done, and goes on if the node relays it. -/
theorem InStepWithWays.hand {topology : Topology ι} {raw : Bytes} {start s s' : Network ι}
    {packet : BitchatPacket} {o : ι} {traced : List (Traced ι)} {done : List (List Str)}
    {took : List (List Str × ι)} {d : Delivery} (hparse : parse_bitchat_packet raw = .ok packet)
    (hin : InFlood raw start s)
    (h : InStepWithWays topology raw (fun x => Passes (start.world x).node packet) o packet.ttl s
      traced done took) (hstep : deliver_copy topology s d = some s') :
    ∃ traced' done' took', InStepWithWays topology raw
      (fun x => Passes (start.world x).node packet) o packet.ttl s' traced' done' took' := by
  obtain ⟨copy, hcopy, hworld, hflying⟩ := deliver_copy_eq_some hstep
  have hget := hcopy
  rw [h.flying, List.getElem?_map, Option.map_eq_some_iff] at hget
  obtain ⟨⟨route, copy'⟩, htraced, heq⟩ := hget
  obtain rfl : copy = copy' := heq.symm
  have hroute : (traced.map Prod.fst)[d.index]? = some route := by
    rw [List.getElem?_map, htraced]
    rfl
  obtain ⟨hway, httl⟩ := h.copies _ (List.mem_of_getElem? htraced)
  have httl : copy.ttl.toNat + route.length = packet.ttl.toNat + 1 := httl
  have hcount (y : ι) (n : Nat)
      (hdest : times_relayed raw (relayed d copy (s.world copy.dest)).out =
        times_relayed raw (s.world copy.dest).out + n) :
      times_relayed raw (s'.world y).out =
        times_relayed raw (s.world y).out + if copy.dest = y then n else 0 := by
    rw [hworld]
    by_cases hy : y = copy.dest
    · rw [hy, Function.update_self, hdest, if_pos rfl]
    · rw [Function.update_of_ne hy, if_neg (Ne.symm hy), Nat.add_zero]
  have hflying' : s'.flying = (traced.eraseIdx d.index).map Prod.snd ++
      added topology d copy (s.world copy.dest) := by
    rw [hflying, h.flying, List.eraseIdx_map]
  have hrest : (traced.map Prod.fst).eraseIdx d.index = (traced.eraseIdx d.index).map Prod.fst :=
    List.eraseIdx_map _ _ _
  rcases goes topology d copy (s.world copy.dest) with
    ⟨hrelays, -, hadded⟩ | ⟨hlive, hscheduled, hrelays, -, addrs, haddrs, hadded⟩
  · refine ⟨traced.eraseIdx d.index, done ++ [route], took, ?_, ?_, ?_, ?_, h.took_way, ?_⟩
    · rw [hflying', hadded, List.append_nil]
    · have hproper := h.proper.take hroute (List.nodup_nil (α := Str))
      simpa [flooding.Spread.take, hrest] using hproper
    · exact fun t ht => h.copies t (List.mem_of_mem_eraseIdx ht)
    · exact h.took_done.trans (List.sublist_append_left _ _)
    · intro y
      rw [hcount y 0 (times_relayed_of_same hrelays), ite_self, Nat.add_zero]
      exact h.counts y
  · have hsame : SamePacket copy.raw raw := hin.copies copy (List.mem_of_getElem? hcopy)
    have hlong : 1 < copy.ttl.toNat := UInt8.lt_iff_toNat_lt.mp hlive
    have hpasses : Passes (start.world copy.dest).node packet := by
      obtain ⟨ttl, hparse'⟩ := parse_of_samePacket hsame hparse
      have hmoved : ¬ SameRelays (s.world copy.dest) (handled d copy (s.world copy.dest)) := by
        intro hnone
        have hlength := congrArg List.length (hscheduled.symm.trans hnone)
        simp at hlength
      have hnow : Passes (s.world copy.dest).node { packet with ttl } :=
        passes_of_relays hparse' hmoved
      exact (passes_of_sameId (hin.ids copy.dest)).mp hnow
    refine ⟨traced.eraseIdx d.index ++ go_on topology copy.dest copy.onward route addrs,
      done ++ [route], took ++ [(route, copy.dest)], ?_, ?_, ?_, ?_, ?_, ?_⟩
    · rw [hflying', hadded, List.map_append, map_snd_go_on]
    · have hnodup : (hops topology copy.dest addrs).Nodup :=
        hops_nodup (filed_react d.env (.packet copy.conn copy.raw) _ (hin.filed copy.dest)) haddrs
      have hproper := h.proper.take hroute hnodup
      rw [List.map_append, map_fst_go_on, ← hrest]
      exact hproper
    · intro t ht
      rcases List.mem_append.mp ht with hold | hnew
      · exact h.copies t (List.mem_of_mem_eraseIdx hold)
      · have hmem : t.2 ∈ added topology d copy (s.world copy.dest) := by
          rw [hadded, ← map_snd_go_on topology copy.dest copy.onward route addrs]
          exact List.mem_map_of_mem hnew
        have hlower := ttl_of_mem_added hmem
        obtain ⟨addr, -, hsome⟩ := List.mem_filterMap.mp hnew
        obtain ⟨end_, hend, rfl⟩ := Option.map_eq_some_iff.mp hsome
        refine ⟨.next hway hpasses hend, ?_⟩
        have hlower : (Copy.mk end_.1 end_.2 copy.onward).ttl.toNat + 1 = copy.ttl.toNat := hlower
        show (Copy.mk end_.1 end_.2 copy.onward).ttl.toNat + (route ++ [addr]).length = _
        rw [List.length_append, List.length_singleton]
        omega
    · rw [List.map_append]
      exact h.took_done.append (List.Sublist.refl [route])
    · intro t ht
      rcases List.mem_append.mp ht with hold | hnew
      · exact h.took_way t hold
      · rw [List.mem_singleton.mp hnew]
        refine ⟨hpasses, hway, ?_⟩
        show route.length < packet.ttl.toNat
        omega
    · intro y
      have honce : times_relayed raw (relayed d copy (s.world copy.dest)).out =
          times_relayed raw (s.world copy.dest).out + 1 := by
        have hcopy_onward : SamePacket copy.onward raw := (samePacket_with_ttl _ _ _).mpr hsame
        rw [times_relayed_append hrelays, if_pos hcopy_onward]
      rw [hcount y 1 honce, h.counts y, List.filter_append, List.length_append]
      by_cases hy : copy.dest = y <;> simp [hy]

theorem inFlood_of_reachable {topology : Topology ι} {world : ι → World} {o : ι} {raw : Bytes}
    {env : Env} (hreachable : ∀ x, Reachable (world x)) {s : Network ι}
    (h : (flood topology raw (sent topology world o env raw)).Reachable s) :
    InFlood raw ⟨world, []⟩ s := by
  refine h.invariant ?_ ?_
  · rintro s rfl
    exact inFlood_sent topology env hreachable
  · exact fun s e s' _ hin _ hstep => hin.happen hstep

theorem relayed_once_of_oneWay {topology : Topology ι} {world : ι → World} {o : ι} {raw : Bytes}
    {packet : BitchatPacket} {env : Env} (hnew : NewPacket world raw packet)
    (honeway : OneWay topology (fun x => Passes (world x).node packet) o packet.ttl)
    {s : Network ι} (h : (flood topology raw (sent topology world o env raw)).Reachable s) (x : ι) :
    times_relayed raw (s.world x).out ≤ 1 := by
  have hways : ∃ traced done took, InStepWithWays topology raw
      (fun x => Passes (world x).node packet) o packet.ttl s traced done took := by
    refine h.invariant (I := fun s => ∃ traced done took, InStepWithWays topology raw
      (fun x => Passes (world x).node packet) o packet.ttl s traced done took) ?_ ?_
    · rintro s rfl
      obtain ⟨traced, htraced⟩ := inStepWithWays_sent env hnew _
      exact ⟨traced, _, _, htraced⟩
    · rintro s e s' hreach ⟨traced, done, took, hways⟩ - hstep
      cases e with
      | hand d => exact hways.hand hnew.parses (inFlood_of_reachable hnew.reachable hreach) hstep
      | other x env event => exact ⟨traced, done, took, hways.other hstep⟩
  obtain ⟨traced, done, took, hways⟩ := hways
  exact hways.le_one honeway x

/-! ## Broadcast messages -/

/-- The node has not relayed the packet, or once, and then its message is on
record. -/
def RelayedOnRecord (raw payload : Bytes) (w : World) : Prop :=
  times_relayed raw w.out = 0 ∨
    times_relayed raw w.out = 1 ∧ ∃ message, parse_bitchat_message_payload payload = .ok message ∧
      message.id ∈ w.node.processed_messages

/-- A broadcast message is relayed only if it was new and is on record now. -/
theorem recorded_of_relayed (env : Env) (conn : PeerConnection) (w : World) {raw : Bytes}
    {packet : BitchatPacket} (hparse : parse_bitchat_packet raw = .ok packet)
    (htype : packet.msg_type = .MESSAGE) (hbroadcast : is_broadcast packet = true) :
    SameRelays w (exec (on_packet_received env conn raw) w).2 ∨
      ∃ message, parse_bitchat_message_payload packet.payload = .ok message ∧
        message.id ∉ w.node.processed_messages ∧
        message.id ∈ (exec (on_packet_received env conn raw) w).2.node.processed_messages := by
  rcases hmessage : parse_bitchat_message_payload packet.payload with e | message
  · left
    by_contra hmoved
    have hown := (passes_of_relays hparse hmoved).1
    apply hmoved
    rw [exec_on_packet_received hparse hown, handle_of_message htype]
    unfold handle_message accept_message
    simp only [exec_bind, exec_node, hbroadcast, if_true, hmessage]
    split <;> exact refl_of SameRelays w
  · have hbrought : brought w.node packet = some message := by
      unfold brought
      simp only [htype, hbroadcast, if_true, hmessage]
      rfl
    rcases takenOnce_packet env conn hparse hbrought with ⟨-, hsame⟩ | ⟨hunseen, hseen, -, -⟩
    · exact .inl hsame
    · exact .inr ⟨message, rfl, hunseen, hseen⟩

theorem RelayedOnRecord.of_same {raw payload : Bytes} {w w' : World}
    (h : RelayedOnRecord raw payload w)
    (hsame : times_relayed raw w'.out = times_relayed raw w.out)
    (hkept : w.node.processed_messages ⊆ w'.node.processed_messages) :
    RelayedOnRecord raw payload w' := by
  unfold RelayedOnRecord
  rw [hsame]
  rcases h with hnone | ⟨honce, message, hmessage, hseen⟩
  · exact .inl hnone
  · exact .inr ⟨honce, message, hmessage, hkept hseen⟩

theorem quiet_send_relays (env : Env) (packets : List Bytes) :
    Moves Quiet (send_relays env packets) := by
  induction packets with
  | nil => exact Moves.pure ()
  | cons raw rest ih =>
    unfold send_relays
    exact Moves.bind (Moves.suppress ((calm_quiet env).raw_send raw)) fun _ => ih

omit [DecidableEq ι] in
theorem RelayedOnRecord.hand {raw : Bytes} {packet : BitchatPacket} {w : World}
    (h : RelayedOnRecord raw packet.payload w) (hparse : parse_bitchat_packet raw = .ok packet)
    (htype : packet.msg_type = .MESSAGE) (hbroadcast : is_broadcast packet = true) (d : Delivery)
    {copy : Copy ι} (hsame : SamePacket copy.raw raw) :
    RelayedOnRecord raw packet.payload (relayed d copy w) := by
  have hsent : Quiet (handled d copy w) (relayed d copy w) := quiet_send_relays _ _ _
  suffices hhandled : RelayedOnRecord raw packet.payload (handled d copy w) from
    hhandled.of_same (times_relayed_of_same hsent.relays) hsent.processed.symm.subset
  obtain ⟨ttl, hparse'⟩ := parse_of_samePacket hsame hparse
  rcases recorded_of_relayed d.env copy.conn w hparse' htype hbroadcast with
    hnothing | ⟨message, hmessage, hunseen, hseen⟩
  · exact h.of_same (times_relayed_of_same hnothing)
      (delivers_react d.env (.packet copy.conn copy.raw) w).recorded
  · -- the message was not on record, so the packet was not relayed before
    have hnone : times_relayed raw w.out = 0 := by
      rcases h with hnone | ⟨-, message', hmessage', hseen'⟩
      · exact hnone
      · rw [hmessage, Except.ok.injEq] at hmessage'
        rw [← hmessage'] at hseen'
        exact absurd hseen' hunseen
    have hmay : MayRelay copy.raw (copy.raw.getD 2 0) w (handled d copy w) :=
      mayRelay_on_packet_received d.env copy.conn copy.raw w
    rcases hmay with hnothing | ⟨-, hrelay⟩
    · exact .inl ((times_relayed_of_same hnothing).trans hnone)
    · refine .inr ⟨?_, message, hmessage, hseen⟩
      rw [times_relayed_append hrelay, hnone, if_pos ((samePacket_with_ttl _ _ _).mpr hsame)]

theorem relayed_once_of_broadcast {topology : Topology ι} {world : ι → World} {o : ι} {raw : Bytes}
    {packet : BitchatPacket} {env : Env} (hnew : NewPacket world raw packet)
    (htype : packet.msg_type = .MESSAGE) (hbroadcast : is_broadcast packet = true)
    {s : Network ι} (h : (flood topology raw (sent topology world o env raw)).Reachable s) (x : ι) :
    times_relayed raw (s.world x).out ≤ 1 := by
  have hall : ∀ x, RelayedOnRecord raw packet.payload (s.world x) := by
    refine h.invariant (I := fun s => ∀ x, RelayedOnRecord raw packet.payload (s.world x)) ?_ ?_
    · rintro s rfl x
      left
      show times_relayed raw (Function.update world o _ x).out = 0
      by_cases hx : x = o
      · rw [hx, Function.update_self, ← hnew.unseen o]
        exact times_relayed_of_same ((calm_sameRelays env).raw_send raw (world o))
      · rw [Function.update_of_ne hx]
        exact hnew.unseen x
    · intro s e s' hreach hbefore _ hstep y
      cases e with
      | hand d =>
        obtain ⟨copy, hcopy, hworld, -⟩ := deliver_copy_eq_some hstep
        have hsame := (inFlood_of_reachable hnew.reachable hreach).copies copy
          (List.mem_of_getElem? hcopy)
        rw [hworld]
        by_cases hy : y = copy.dest
        · rw [hy, Function.update_self]
          exact (hbefore copy.dest).hand hnew.parses htype hbroadcast d hsame
        · rw [Function.update_of_ne hy]
          exact hbefore y
      | other x env event =>
        have hother : happen topology raw s (.other x env event) = some s' := hstep
        obtain ⟨hbrings, rfl⟩ := other_eq_some hother
        show RelayedOnRecord raw packet.payload (Function.update s.world x _ y)
        by_cases hy : y = x
        · rw [hy, Function.update_self]
          exact (hbefore x).of_same (times_relayed_react hbrings _)
            (delivers_react env event _).recorded
        · rw [Function.update_of_ne hy]
          exact hbefore y
  rcases hall x with hnone | ⟨honce, -⟩
  · rw [hnone]
    exact Nat.zero_le 1
  · exact honce.le

/-! ## Every packet -/

/-- A packet that is sent once is relayed once at most by every node, in any
order of deliveries and whatever else the nodes do, if it is a broadcast
message, or if no two ways that its TTL allows lead to a node that may pass it
on. -/
theorem a_packet_is_relayed_once_by_a_node {topology : Topology ι} {world : ι → World} {o : ι}
    {raw : Bytes} {packet : BitchatPacket} {env : Env} {s : Network ι}
    (hnew : NewPacket world raw packet)
    (hcondition : (packet.msg_type = .MESSAGE ∧ is_broadcast packet = true) ∨
      OneWay topology (fun x => Passes (world x).node packet) o packet.ttl)
    (h : (flood topology raw (sent topology world o env raw)).Reachable s) (x : ι) :
    times_relayed raw (s.world x).out ≤ 1 := by
  rcases hcondition with ⟨htype, hbroadcast⟩ | honeway
  · exact relayed_once_of_broadcast hnew htype hbroadcast h x
  · exact relayed_once_of_oneWay hnew honeway h x

/-! ## On the stand-in -/

end daemon

namespace daemon.standIn

open python bitchat bitchat.protocol systems

attribute [local instance] bitchat.standIn.packages

/-- Three nodes in a line. -/
def line_id : Fin 3 → PeerId
  | 0 => us
  | 1 => them
  | 2 => third

def neighbours : Fin 3 → List (Fin 3)
  | 0 => [1]
  | 1 => [0, 2]
  | 2 => [1]

/-- The connection to the node `y`. -/
def conn_to (y : Fin 3) : PeerConnection := ⟨[hexDigit y], 1, true⟩

def connect (w : World) (y : Fin 3) : World := (exec (react (env 1) (.connected (conn_to y))) w).2

def line (x : Fin 3) : World := (neighbours x).foldl connect ⟨node (line_id x) 1, []⟩

def line_topology : Topology (Fin 3) := fun x addr =>
  ((neighbours x).find? fun y => (conn_to y).address = addr).map fun y => (y, conn_to x)

/-- The packet with which a node takes its leave. -/
def leave (x : Fin 3) : Bytes :=
  match create_bitchat_packet (line_id x).str .LEAVE (encode ['n']) (bitchat.standIn.draw 1) with
  | .ok packet => packet
  | .error _ => []

def leave_packet (x : Fin 3) : BitchatPacket := received (line_id x) none .LEAVE (encode ['n']) 7

theorem reachable_line (x : Fin 3) : Reachable (line x) := by
  have hconnect : ∀ (ys : List (Fin 3)) (w : World), Reachable w →
    Reachable (ys.foldl connect w) := by
    intro ys
    induction ys with
    | nil => exact fun _ h => h
    | cons y ys ih => exact fun w h => ih _ (.step h (env 1) (.connected (conn_to y)) trivial)
  exact hconnect _ _ (.start (line_id x) (some ['n']) (.init [1]) (bitchat.standIn.key 1))

theorem newPacket_leave (x : Fin 3) : NewPacket line (leave x) (leave_packet x) := by
  refine ⟨reachable_line, ?_, ?_⟩
  · obtain ⟨raw, hraw, his⟩ := create_ok (line_id x) none .LEAVE (encode ['n']) none
      (bitchat.standIn.draw 1) (by decide)
    have hleave : leave x = raw := by
      unfold leave create_bitchat_packet
      rw [show (none : Option Str) = (none : Option PeerId).map PeerId.str from rfl, hraw]
    rw [hleave, ← his.ttl]
    exact his.parse 7
  · intro y
    have hnothing : ∀ y, (line y).out = [] := by decide
    rw [hnothing]
    rfl

/-- Copies are handed over in turn. -/
def hand_over (x : Fin 3) (indices : List Nat) : Option (Network (Fin 3)) :=
  (flood line_topology (leave x) (sent line_topology line x (env 1) (leave x))).replay
    (sent line_topology line x (env 1) (leave x)) (indices.map fun i => .hand ⟨i, env 1, env 1⟩)

theorem line_topology_eq_some {x y : Fin 3} {addr : Str} {conn : PeerConnection}
    (h : line_topology x addr = some (y, conn)) :
      addr = (conn_to y).address ∧ y ∈ neighbours x := by
  obtain ⟨z, hfind, heq⟩ := Option.map_eq_some_iff.mp h
  obtain ⟨rfl, -⟩ := Prod.mk.inj heq
  have haddr : (conn_to z).address = addr := by simpa using List.find?_some hfind
  exact ⟨haddr.symm, List.mem_of_find?_eq_some hfind⟩

/-- One way leads from the middle to each end, and the middle drops what comes
back. -/
theorem oneWay_from_the_middle :
    OneWay line_topology (fun x => Passes (line x).node (leave_packet 1)) 1
      (leave_packet 1).ttl := by
  have hmiddle : ¬ Passes (line 1).node (leave_packet 1) := fun h => h.1 (by decide)
  have hends : ∀ y x : Fin 3, y ≠ 1 → x ∈ neighbours y → x = 1 := by decide
  have hfirst : ∀ {route : List Str} {x : Fin 3}, Passes (line x).node (leave_packet 1) →
      Way line_topology (fun x => Passes (line x).node (leave_packet 1)) 1 route x →
      route = [(conn_to x).address] := by
    intro route x hpasses hway
    cases hway with
    | first h => rw [(line_topology_eq_some h).1]
    | @next _ y _ _ _ _ hbefore h =>
      have hy : y ≠ 1 := fun heq => hmiddle (heq ▸ hbefore)
      have hx : x = 1 := hends y x hy (line_topology_eq_some h).2
      exact absurd (hx ▸ hpasses) hmiddle
  intro x route route' hpasses hway hway' _ _
  rw [hfirst hpasses hway, hfirst hpasses hway']

end daemon.standIn

namespace daemon

open systems

attribute [local instance] bitchat.standIn.packages

/-- The node in the middle leaves: both ends have relayed its packet once. -/
theorem a_leave_from_the_middle_is_relayed_once :
    ∃ s, standIn.hand_over 1 [0, 0] = some s ∧
      ∀ x, times_relayed (standIn.leave 1) (s.world x).out ≤ 1 := by
  obtain ⟨s, hs⟩ : ∃ s, standIn.hand_over 1 [0, 0] = some s :=
    Option.isSome_iff_exists.mp (by decide +kernel)
  refine ⟨s, hs, fun x => ?_⟩
  exact a_packet_is_relayed_once_by_a_node (standIn.newPacket_leave 1)
    (.inr standIn.oneWay_from_the_middle) (System.reachable_replay (.start rfl) hs) x

/-- The node at one end leaves, and the node in the middle relays its packet
again when the copy of the node at the other end comes back. -/
theorem a_leave_from_an_end_is_relayed_twice :
    NewPacket standIn.line (standIn.leave 0) (standIn.leave_packet 0) ∧
      ∃ s, (flood standIn.line_topology (standIn.leave 0) (sent standIn.line_topology standIn.line 0
          (standIn.env 1) (standIn.leave 0))).Reachable s ∧
        ¬ times_relayed (standIn.leave 0) (s.world 1).out ≤ 1 := by
  have htwice : (standIn.hand_over 0 [0, 1, 1]).map
      (fun s => times_relayed (standIn.leave 0) (s.world 1).out) = some 2 := by decide +kernel
  obtain ⟨s, hs, hcount⟩ := Option.map_eq_some_iff.mp htwice
  refine ⟨standIn.newPacket_leave 0, s, System.reachable_replay (.start rfl) hs, ?_⟩
  rw [hcount]
  decide

end daemon
