-- Which nodes a broadcast message reaches. A node passes on the first copy that
-- it gets, with the TTL that this copy has left, and no other one.
import BitchatNode.Storm
import BitchatNode.Link

namespace daemon

open python bitchat bitchat.protocol systems

variable [Packages]

/-! ## Connections that stay -/

def SameConnections (w w' : World) : Prop := w'.node.connections = w.node.connections

instance : IsPreorder World SameConnections where
  refl _ := rfl
  trans _ _ _ h g := Eq.trans g h

theorem sameConnections_remove_peer (peer_id : Str) :
    Moves SameConnections (remove_peer peer_id) := by
  unfold remove_peer
  refine Moves.bind moves_node fun self => ?_
  refine Moves.bind (fun _ => rfl) fun _ => ?_
  exact Moves.ite (fun _ => rfl) (Moves.pure ())

/-- No connection is lost where no write fails. -/
theorem calm_sameConnections {env : Env} (h : Lossless env) : Calm env SameConnections where
  touch _ h w := (h w.node).connections
  service _ _ := rfl
  later _ _ _ := rfl
  on_delivery_ack _ _ := rfl
  saved _ _ := rfl
  send_to_peer := by
    refine moves_send_to_peer (fun conn hfails => ?_) fun _ _ _ => rfl
    rw [h conn.address] at hfails
    cases hfails
  raw_send := by
    refine moves_raw_send (fun conn hfails => ?_) fun _ _ _ => rfl
    rw [h conn.address] at hfails
    cases hfails

theorem sameConnections_on_packet_received {env : Env} (h : Lossless env) (conn : PeerConnection)
    (raw : Bytes) : Moves SameConnections (on_packet_received env conn raw) := by
  apply (calm_sameConnections h).on_packet_received
  · intro message sender_id is_private w _
    unfold deliver
    simp only [exec_bind, exec_node]
    split <;> rfl
  · intro packet _ w
    rw [exec_relay]
    split <;> rfl
  · exact fun _ _ _ => rfl
  · intro peer_id nickname
    unfold announced
    refine Moves.bind moves_node fun self => ?_
    refine Moves.bind (fun _ => rfl) fun _ => ?_
    split
    · exact Moves.pure ()
    · exact fun _ => rfl
  · exact fun packet => Moves.ite (Moves.pure ()) (sameConnections_remove_peer _)

theorem sameConnections_send_relays {env : Env} (h : Lossless env) (packets : List Bytes) :
    Moves SameConnections (send_relays env packets) := by
  induction packets with
  | nil => exact Moves.pure ()
  | cons raw rest ih =>
    unfold send_relays
    exact Moves.bind (Moves.suppress ((calm_sameConnections h).raw_send raw)) fun _ => ih

/-! ## Links -/

variable {ι : Type}

/-- What the first node writes to some address arrives at the second. -/
def Linked (topology : Topology ι) (y x : ι) : Prop := ∃ addr conn, topology y addr = some (x, conn)

/-- The node has a connection for each address at which somebody is. -/
def Wired (topology : Topology ι) (x : ι) (n : MeshNode) : Prop :=
  ∀ addr end_, topology x addr = some end_ → addr ∈ n.connections.entries.map (·.2.address)

/-- A packet that fits arrives everywhere, where no write fails. -/
theorem arrivals_lossless (topology : Topology ι) (x : ι) {env : Env} (h : Lossless env)
    {raw : Bytes} (hfits : raw.length ≤ 65535) (w : World) :
    arrivals topology x (new_writes w (exec (raw_send env raw) w).2) =
      spread topology x raw (w.node.connections.entries.map (·.2.address)) := by
  have hwrites := writes_raw_send env raw w
  rw [if_pos hfits] at hwrites
  have hall : (w.node.connections.entries.filter fun e => !env.write_fails e.2.address) =
      w.node.connections.entries := by
    rw [List.filter_eq_self]
    intro e _
    rw [h]
    rfl
  rw [hall] at hwrites
  rw [new_writes_eq hwrites, ← arrivals_framed, List.map_map]
  rfl

theorem exists_mem_spread {topology : Topology ι} {y x : ι} {n : MeshNode}
    (hwired : Wired topology y n)
    (hlink : Linked topology y x) (raw : Bytes) :
    ∃ c ∈ spread topology y raw (n.connections.entries.map (·.2.address)), c.dest = x := by
  obtain ⟨addr, conn, hend⟩ := hlink
  refine ⟨⟨x, conn, raw⟩, ?_, rfl⟩
  apply List.mem_filterMap.mpr
  refine ⟨addr, hwired addr _ hend, ?_⟩
  rw [hend]
  rfl

/-! ## One copy of a message -/

/-- The nodes are in states of their runs, and the message is new to all. -/
structure NewMessage (world : ι → World) (o : ι) (raw : Bytes) (packet : BitchatPacket)
    (message : BitchatMessage) : Prop where
  reachable : ∀ x, Reachable (world x)
  parses : parse_bitchat_packet raw = .ok packet
  type : packet.msg_type = .MESSAGE
  broadcast : is_broadcast packet = true
  payload : parse_bitchat_message_payload packet.payload = .ok message
  fits : raw.length ≤ 65535
  fresh : ∀ x, message.id ∉ (world x).node.processed_messages
  own : ∀ x, x ≠ o → packet.sender_id_str ≠ (world x).node.my_peer_id.str

/-- The node takes the copy: it does not block the sender, its filter has room,
its writes work, and an ACK that it owes before it relays fits a frame. -/
structure Smooth (packet : BitchatPacket) (message : BitchatMessage) (d : Delivery) (copy : Copy ι)
    (w : World) : Prop where
  unblocked : is_blocked w.node packet.sender_id_str = false
  room : Packages.bloom_count w.node.bloom ≤ Packages.bloom_capacity w.node.bloom
  lossless : Lossless d.env
  relay_lossless : Lossless d.relay_env
  ack : 1 < copy.ttl → AckDue w.node message →
    (ack_payload w.node message.id (d.env.draw 0)).length ≤ 65505

/-- The message was delivered to the node's user. -/
def Delivered (packet : BitchatPacket) (message : BitchatMessage) (w : World) : Prop :=
  (message, packet.sender_id_str, false) ∈ deliveries w.out

section

variable {packet : BitchatPacket} {message : BitchatMessage} {d : Delivery} {copy : Copy ι}
  {w : World}

theorem sameConnections_relayed (h : Smooth packet message d copy w) :
    SameConnections w (relayed d copy w) :=
  trans_of SameConnections (sameConnections_on_packet_received h.lossless copy.conn copy.raw w)
    (sameConnections_send_relays h.relay_lossless _ _)

/-- What was delivered and recorded stays so. -/
theorem delivers_relayed (d : Delivery) (copy : Copy ι) (w : World) :
    Delivers w (relayed d copy w) := by
  have hsent : Quiet (handled d copy w) (relayed d copy w) := quiet_send_relays _ _ _
  exact trans_of Delivers (delivers_react d.env (.packet copy.conn copy.raw) w) hsent.delivers

theorem Delivered.mono {w' : World} (h : Delivered packet message w) (hmore : Delivers w w') :
    Delivered packet message w' := by
  obtain ⟨new, hnew, -⟩ := hmore.new
  unfold Delivered
  rw [hnew]
  exact List.mem_append_left _ h

variable (htype : packet.msg_type = .MESSAGE) (hbroadcast : is_broadcast packet = true)
  (hmessage : parse_bitchat_message_payload packet.payload = .ok message)
  (hown : packet.sender_id_str ≠ w.node.my_peer_id.str) (h : Smooth packet message d copy w)

include htype hbroadcast hmessage hown h in
/-- A copy of a message that the node has not seen. -/
theorem handledOnce_handled [LawfulBloom] {ttl : UInt8}
    (hparse : parse_bitchat_packet copy.raw = .ok { packet with ttl })
    (hnew : message.id ∉ w.node.processed_messages) :
    HandledOnce message { packet with ttl } copy.raw w (handled d copy w) := by
  have httl : ttl = copy.ttl := (parse_ttl hparse).2
  have hhandled : handled d copy w = (exec (handle_message d.env { packet with ttl } copy.raw)
      (w.heard packet.sender_id_str copy.conn.address)).2 := by
    have htyped : { packet with ttl }.msg_type = .MESSAGE := htype
    unfold handled
    rw [exec_on_packet_received hparse hown, handle_of_message htyped]
  have hack : 1 < ttl → AckPasses d.env (w.heard packet.sender_id_str copy.conn.address).node
    message
      packet.sender_id_str := by
    intro hlive hdue
    have hsize : (ack_payload w.node message.id (d.env.draw 0)).length ≤ 65505 :=
      h.ack (httl ▸ hlive) hdue
    refine ⟨Nat.le_trans hsize (by decide), fun conn _ => ⟨?_, h.lossless _⟩⟩
    exact Nat.add_le_add_right hsize 30
  have honce := (handledOnce_iff d.env { packet with ttl } copy.raw
    (w.heard packet.sender_id_str copy.conn.address) message hparse hbroadcast h.unblocked hmessage
    hnew).mpr ⟨h.room, hack⟩
  rw [hhandled]
  exact ⟨honce.delivered, honce.recorded, honce.relayed⟩

include htype hbroadcast hmessage hown h in
/-- It is delivered and recorded, and goes on over all connections if there is
some TTL left. -/
theorem relayed_new [LawfulBloom] (topology : Topology ι) {ttl : UInt8}
    (hparse : parse_bitchat_packet copy.raw = .ok { packet with ttl })
    (hnew : message.id ∉ w.node.processed_messages) (hfits : copy.raw.length ≤ 65535) :
    Delivered packet message (relayed d copy w) ∧
      message.id ∈ (relayed d copy w).node.processed_messages ∧
      (1 < copy.ttl → added topology d copy w = spread topology copy.dest copy.onward
        (w.node.connections.entries.map (·.2.address))) := by
  have honce := handledOnce_handled htype hbroadcast hmessage hown h hparse hnew
  have hsent : Quiet (handled d copy w) (relayed d copy w) := quiet_send_relays _ _ _
  refine ⟨?_, ?_, ?_⟩
  · unfold Delivered
    rw [hsent.deliveries, honce.delivered]
    exact List.mem_append_right _ (List.mem_singleton_self _)
  · rw [hsent.processed]
    exact honce.recorded
  · intro hlive
    obtain rfl : ttl = copy.ttl := (parse_ttl hparse).2
    have hrelays : relays (handled d copy w).out = relays w.out ++ [copy.onward] := by
      have hrelayed := honce.relayed
      rw [if_pos hlive] at hrelayed
      exact hrelayed
    have hsame : (handled d copy w).node.connections = w.node.connections :=
      sameConnections_on_packet_received h.lossless copy.conn copy.raw w
    have honward : copy.onward.length ≤ 65535 := by
      unfold Copy.onward with_ttl
      rw [List.length_set]
      exact hfits
    unfold added relayed
    rw [new_relays_eq hrelays, ← hsame]
    exact arrivals_lossless topology copy.dest h.relay_lossless honward (handled d copy w)

end

/-! ## The flood of a message -/

variable [DecidableEq ι]

/-- The step loses no copy and no connection, and no other packet brings a
message with the same id. -/
def Undisturbed (topology : Topology ι) (packet : BitchatPacket) (message : BitchatMessage)
    (s : Network ι) : Happening ι → Prop
  | .hand d => ∀ copy, s.flying[d.index]? = some copy →
      Smooth packet message d copy (s.world copy.dest)
  | .other x env event =>
      (message.id ∈ (exec (react env event) (s.world x)).2.node.processed_messages →
        message.id ∈ (s.world x).node.processed_messages) ∧
      Wired topology x (exec (react env event) (s.world x)).2.node

/-- The node is nearer to the origin than the TTL reaches. -/
def Near (topology : Topology ι) (o : ι) (packet : BitchatPacket) (x : ι) : Prop :=
  ∃ n < packet.ttl.toNat, flooding.Within (Linked topology) o n x

/-- The first copy that a near node gets has some TTL left. -/
def InTime (topology : Topology ι) (o : ι) (packet : BitchatPacket) (message : BitchatMessage)
    (s : Network ι) : Happening ι → Prop
  | .hand d => ∀ copy, s.flying[d.index]? = some copy → Near topology o packet copy.dest →
      message.id ∉ (s.world copy.dest).node.processed_messages → 1 < copy.ttl
  | .other _ _ _ => True

/-- The node has the message. -/
def Has (message : BitchatMessage) (s : Network ι) (x : ι) : Prop :=
  message.id ∈ (s.world x).node.processed_messages

/-- A copy is under way to the node. -/
def Coming (s : Network ι) (x : ι) : Prop := ∃ c ∈ s.flying, c.dest = x

/-- What holds at every moment: the connections are there, who has the message
has delivered it, and those that pass it on have sent it to their neighbours. -/
structure Wave (topology : Topology ι) (o : ι) (packet : BitchatPacket) (message : BitchatMessage)
    (s : Network ι) : Prop where
  wired : ∀ x, Wired topology x (s.world x).node
  delivered : ∀ x, x ≠ o → Has message s x → Delivered packet message (s.world x)
  spreads : flooding.Spreads (Linked topology) o (Near topology o packet) (Has message s) (Coming s)

omit [DecidableEq ι] in
theorem Wired.of_same {topology : Topology ι} {x : ι} {w w' : World}
    (h : Wired topology x w.node) (hsame : SameConnections w w') : Wired topology x w'.node := by
  unfold Wired
  rw [show w'.node.connections = w.node.connections from hsame]
  exact h

/-- The origin has sent the message to its neighbours. -/
theorem wave_sent {topology : Topology ι} {world : ι → World} {o : ι} {raw : Bytes}
    {packet : BitchatPacket} {message : BitchatMessage} {env : Env}
    (hnew : NewMessage world o raw packet message) (hlossless : Lossless env)
    (hwired : ∀ x, Wired topology x (world x).node) :
    Wave topology o packet message (sent topology world o env raw) := by
  have hsame : SameConnections (world o) (exec (raw_send env raw) (world o)).2 :=
    (calm_sameConnections hlossless).raw_send raw (world o)
  have hfresh : ∀ x, x ≠ o → ¬ Has message (sent topology world o env raw) x := by
    intro x hx
    have hworld : (sent topology world o env raw).world x = world x := Function.update_of_ne hx _ _
    unfold Has
    rw [hworld]
    exact hnew.fresh x
  refine ⟨?_, ?_, ?_⟩
  · apply (Function.forall_update_iff world fun x w => Wired topology x w.node).mpr
    exact ⟨(hwired o).of_same hsame, fun x _ => hwired x⟩
  · exact fun x hx hhas => absurd hhas (hfresh x hx)
  · intro y x hy hlink
    have hy : y = o := by
      by_contra hne
      exact hfresh y hne (hy.resolve_left hne).1
    obtain ⟨c, hc, hdest⟩ := exists_mem_spread (hwired o) (hy ▸ hlink) raw
    rw [← arrivals_lossless topology o hlossless hnew.fits] at hc
    exact .inr (.inr ⟨c, hc, hdest⟩)

/-- Anything else that happens at a node. -/
theorem Wave.other {topology : Topology ι} {o : ι} {raw : Bytes} {packet : BitchatPacket}
    {message : BitchatMessage} {s s' : Network ι} {x : ι} {env : Env} {event : Event}
    (h : Wave topology o packet message s)
    (hundisturbed : Undisturbed topology packet message s (.other x env event))
    (hstep : happen topology raw s (.other x env event) = some s') :
    Wave topology o packet message s' := by
  obtain ⟨hkept, hwired⟩ := hundisturbed
  obtain ⟨-, rfl⟩ := other_eq_some hstep
  have hdelivers := delivers_react env event (s.world x)
  have hhas : ∀ y, Has message { s with
      world := Function.update s.world x (exec (react env event) (s.world x)).2 } y ↔
      Has message s y := by
    apply (Function.forall_update_iff s.world fun y w =>
      message.id ∈ w.node.processed_messages ↔ Has message s y).mpr
    exact ⟨⟨hkept, fun hseen => hdelivers.recorded hseen⟩, fun y _ => Iff.rfl⟩
  refine ⟨?_, ?_, ?_⟩
  · apply (Function.forall_update_iff s.world fun y w => Wired topology y w.node).mpr
    exact ⟨hwired, fun y _ => h.wired y⟩
  · apply (Function.forall_update_iff s.world fun y w => y ≠ o →
      message.id ∈ w.node.processed_messages → Delivered packet message w).mpr
    refine ⟨?_, fun y _ => h.delivered y⟩
    exact fun hx hseen => (h.delivered x hx (hkept hseen)).mono hdelivers
  · intro y z hy hlink
    rw [hhas y] at hy
    rw [hhas z]
    exact h.spreads y z hy hlink

/-- A copy is handed over: whoever had the message or a copy coming still has,
and so have the neighbours of a node that passes it on. -/
theorem Wave.hand [LawfulBloom] {topology : Topology ι} {world : ι → World} {o : ι} {raw : Bytes}
    {packet : BitchatPacket} {message : BitchatMessage} {s s' : Network ι} {d : Delivery}
    (hnew : NewMessage world o raw packet message) (hin : InFlood raw ⟨world, []⟩ s)
    (h : Wave topology o packet message s)
    (hundisturbed : Undisturbed topology packet message s (.hand d))
    (hintime : InTime topology o packet message s (.hand d))
    (hstep : deliver_copy topology s d = some s') : Wave topology o packet message s' := by
  obtain ⟨copy, hcopy, hworld, hflying⟩ := deliver_copy_eq_some hstep
  have hsmooth := hundisturbed copy hcopy
  have hdelivers := delivers_relayed d copy (s.world copy.dest)
  have hsame : SamePacket copy.raw raw := hin.copies copy (List.mem_of_getElem? hcopy)
  obtain ⟨ttl, hparse⟩ := parse_of_samePacket hsame hnew.parses
  have hfits : copy.raw.length ≤ 65535 := by
    have hlength := congrArg List.length hsame
    simp only [with_ttl, List.length_set] at hlength
    rw [hlength]
    exact hnew.fits
  have hown (hdest : copy.dest ≠ o) :
      packet.sender_id_str ≠ (s.world copy.dest).node.my_peer_id.str := by
    have hid : (s.world copy.dest).node.my_peer_id = (world copy.dest).node.my_peer_id :=
      hin.ids copy.dest
    rw [hid]
    exact hnew.own copy.dest hdest
  have hfirst (hdest : copy.dest ≠ o) (hunseen : ¬ Has message s copy.dest) :=
    relayed_new hnew.type hnew.broadcast hnew.payload (hown hdest) hsmooth topology hparse hunseen
      hfits
  -- the message is not lost where it was
  have hkept : ∀ x, Has message s x → Has message s' x := by
    unfold Has
    rw [hworld]
    apply (Function.forall_update_iff s.world fun x w =>
      message.id ∈ (s.world x).node.processed_messages →
        message.id ∈ w.node.processed_messages).mpr
    exact ⟨fun hseen => hdelivers.recorded hseen, fun x _ hseen => hseen⟩
  have hother : ∀ x, x ≠ copy.dest → (Has message s' x ↔ Has message s x) := by
    intro x hx
    unfold Has
    rw [hworld, Function.update_of_ne hx]
  have harrived : copy.dest = o ∨ Has message s' copy.dest := by
    by_cases hdest : copy.dest = o
    · exact .inl hdest
    · right
      by_cases hseen : Has message s copy.dest
      · exact hkept _ hseen
      · unfold Has
        rw [hworld, Function.update_self]
        exact (hfirst hdest hseen).2.1
  have hold : ∀ x, x = o ∨ Has message s x ∨ Coming s x → x = o ∨ Has message s' x ∨
    Coming s' x := by
    rintro x (rfl | hhas | ⟨c, hc, rfl⟩)
    · exact .inl rfl
    · exact .inr (.inl (hkept x hhas))
    · by_cases hdest : c.dest = copy.dest
      · rw [hdest]
        exact harrived.imp_right .inl
      · refine .inr (.inr ⟨c, ?_, rfl⟩)
        rw [hflying]
        apply List.mem_append_left
        apply (List.mem_eraseIdx_iff_getElem?).mpr
        obtain ⟨i, hi⟩ := List.mem_iff_getElem?.mp hc
        refine ⟨i, ?_, hi⟩
        rintro rfl
        rw [hcopy, Option.some.injEq] at hi
        exact hdest (congrArg Copy.dest hi.symm)
  refine ⟨?_, ?_, ?_⟩
  · rw [hworld]
    apply (Function.forall_update_iff s.world fun x w => Wired topology x w.node).mpr
    exact ⟨(h.wired copy.dest).of_same (sameConnections_relayed hsmooth), fun x _ => h.wired x⟩
  · intro x hx hhas
    by_cases hdest : x = copy.dest
    · subst hdest
      rw [hworld, Function.update_self]
      by_cases hseen : Has message s copy.dest
      · exact (h.delivered copy.dest hx hseen).mono hdelivers
      · exact (hfirst hx hseen).1
    · rw [hworld, Function.update_of_ne hdest]
      exact h.delivered x hx ((hother x hdest).mp hhas)
  · intro y x hy hlink
    by_cases hbefore : y = o ∨ Has message s y ∧ Near topology o packet y
    · exact hold x (h.spreads y x hbefore hlink)
    · -- the node that has just got the message passes it on
      have hyo : y ≠ o := fun heq => hbefore (.inl heq)
      obtain ⟨hhas, hnear⟩ := hy.resolve_left hyo
      have hunseen : ¬ Has message s y := fun hseen => hbefore (.inr ⟨hseen, hnear⟩)
      obtain rfl : y = copy.dest := by
        by_contra hdest
        exact hunseen ((hother y hdest).mp hhas)
      have hlive : 1 < copy.ttl := hintime copy hcopy hnear hunseen
      obtain ⟨c, hc, hdest⟩ := exists_mem_spread (h.wired copy.dest) hlink copy.onward
      rw [← (hfirst hyo hunseen).2.2 hlive] at hc
      refine .inr (.inr ⟨c, ?_, hdest⟩)
      rw [hflying]
      exact List.mem_append_right _ hc

/-- When no copy is under way any more, every node within reach of the TTL has
delivered the message, in any order of deliveries in which no node that is
nearer gets, as its first copy, one that has come so far that its TTL is used
up. -/
theorem a_message_reaches_the_ttl_range [LawfulBloom] {topology : Topology ι} {world : ι → World}
    {o : ι} {raw : Bytes} {packet : BitchatPacket} {message : BitchatMessage} {env : Env}
    (hnew : NewMessage world o raw packet message) (hlossless : Lossless env)
    (hwired : ∀ x, Wired topology x (world x).node) {s : Network ι}
    (h : (flood topology raw (sent topology world o env raw)).RunWith (fun s e =>
      Undisturbed topology packet message s e ∧ InTime topology o packet message s e) s)
    (hquiet : s.flying = []) {x : ι} (hother : x ≠ o)
    (hrange : flooding.Within (Linked topology) o packet.ttl.toNat x) :
    Delivered packet message (s.world x) := by
  have hwave : Wave topology o packet message s := by
    refine h.invariant (I := fun s => Wave topology o packet message s) ?_ ?_
    · rintro s rfl
      exact wave_sent hnew hlossless hwired
    · rintro s e s' hrun hwave ⟨hundisturbed, hintime⟩ hstep
      cases e with
      | hand d =>
        exact hwave.hand hnew (inFlood_of_reachable hnew.reachable hrun.reachable) hundisturbed
          hintime hstep
      | other x env event => exact hwave.other hundisturbed hstep
  have hnone : ∀ x, ¬ Coming s x := by
    rintro x ⟨c, hc, -⟩
    rw [hquiet] at hc
    cases hc
  have hhas := hwave.spreads.within hnone le_rfl (fun n hn x hx => ⟨n, hn, hx⟩) hrange
  exact hwave.delivered x hother (hhas.resolve_left hother)

end daemon

/-! ## On the stand-in -/

namespace daemon.standIn

open python bitchat bitchat.protocol systems

attribute [local instance] bitchat.standIn.packages

/-- Eight nodes in a ring, and one more behind the last of them. -/
def ring_id (x : Fin 9) : PeerId :=
  if x = 0 then them else ⟨List.replicate 8 (16 + UInt8.ofNat x), List.length_replicate⟩

def ring_neighbours (x : Fin 9) : List (Fin 9) :=
  if x = 0 then [1, 7] else if x = 7 then [6, 0, 8] else if x = 8 then [7] else [x - 1, x + 1]

def ring_conn (y : Fin 9) : PeerConnection := ⟨[hexDigit y], 1, true⟩

def ring_connect (w : World) (y : Fin 9) : World :=
  (exec (react (env 1) (.connected (ring_conn y))) w).2

def ring (x : Fin 9) : World := (ring_neighbours x).foldl ring_connect ⟨node (ring_id x) 1, []⟩

def ring_topology : Topology (Fin 9) := fun x addr =>
  ((ring_neighbours x).find? fun y => (ring_conn y).address = addr).map fun y => (y, ring_conn x)

theorem reachable_ring (x : Fin 9) : Reachable (ring x) := by
  have hconnect : ∀ (ys : List (Fin 9)) (w : World), Reachable w →
      Reachable (ys.foldl ring_connect w) := by
    intro ys
    induction ys with
    | nil => exact fun _ h => h
    | cons y ys ih => exact fun w h => ih _ (.step h (env 1) (.connected (ring_conn y)) trivial)
  exact hconnect _ _ (.start (ring_id x) (some ['n']) (.init [1]) (bitchat.standIn.key 1))

theorem newMessage_ring : NewMessage ring 0 (raw 0) (packet 0) (message 0) where
  reachable := reachable_ring
  parses := parse_raw 0
  type := rfl
  broadcast := rfl
  payload := parse_payload 0
  fits := by decide
  fresh x := by
    have hnothing : ∀ x, (ring x).node.processed_messages = ∅ := by decide
    rw [hnothing]
    exact Finset.notMem_empty _
  own := by decide

theorem wired_ring (x : Fin 9) : Wired ring_topology x (ring x).node := by
  have hall : ∀ x : Fin 9, ∀ y ∈ ring_neighbours x,
      (ring_conn y).address ∈ (ring x).node.connections.entries.map (·.2.address) := by
    decide
  intro addr end_ hend
  obtain ⟨y, hfind, -⟩ := Option.map_eq_some_iff.mp hend
  have haddr : (ring_conn y).address = addr := by simpa using List.find?_some hfind
  rw [← haddr]
  exact hall x y (List.mem_of_find?_eq_some hfind)

theorem linked_ring (y x : Fin 9) (h : x ∈ ring_neighbours y) : Linked ring_topology y x := by
  have hall : ∀ y : Fin 9, ∀ x ∈ ring_neighbours y,
      (ring_topology y (ring_conn x).address).map Prod.fst = some x := by
    decide
  obtain ⟨⟨x', conn⟩, hend, rfl⟩ := Option.map_eq_some_iff.mp (hall y x h)
  exact ⟨_, conn, hend⟩

/-- No node is more than 7 hops from the first. -/
theorem within_ring (x : Fin 9) : flooding.Within (Linked ring_topology) 0 7 x := by
  have hnext : ∀ k : Fin 7, (k.castSucc.castSucc + 1) ∈ ring_neighbours k.castSucc.castSucc := by
    decide
  have hback : (7 : Fin 9) ∈ ring_neighbours 0 ∧ (8 : Fin 9) ∈ ring_neighbours 7 := by decide
  have hlast : flooding.Within (Linked ring_topology) 0 2 8 :=
    .hop (.hop (.origin 0) (linked_ring 0 7 hback.1)) (linked_ring 7 8 hback.2)
  have hring : ∀ k : ℕ, (hk : k < 8) → flooding.Within (Linked ring_topology) 0 k
    ⟨k, by omega⟩ := by
    intro k
    induction k with
    | zero => exact fun _ => .origin 0
    | succ k ih =>
      intro hk
      have hlink := linked_ring _ _ (hnext ⟨k, by omega⟩)
      have heq : (⟨k, by omega⟩ : Fin 9) + 1 = ⟨k + 1, by omega⟩ := by
        apply Fin.ext
        rw [Fin.val_add]
        exact Nat.mod_eq_of_lt (by show k + 1 < 9; omega)
      exact .hop (ih (by omega)) (heq ▸ hlink)
  rcases Nat.lt_or_ge x.val 8 with hlt | hge
  · exact (hring x hlt).mono (by omega)
  · obtain rfl : x = 8 := Fin.ext (by show x.val = 8; omega)
    exact hlast.mono (by decide)

def ring_sent : Network (Fin 9) := sent ring_topology ring 0 (env 1) (raw 0)

/-- The copy at an index is handed over. -/
def turn (i : Nat) : Happening (Fin 9) := .hand ⟨i, env 1, env 1⟩

/-- The node of the copy neither blocks the sender nor has a full filter. -/
def takes_well (s : Network (Fin 9)) : Happening (Fin 9) → Bool
  | .hand d => (s.flying[d.index]?).all fun copy =>
      !is_blocked (s.world copy.dest).node (packet 0).sender_id_str &&
        Packages.bloom_count (s.world copy.dest).node.bloom ≤
          Packages.bloom_capacity (s.world copy.dest).node.bloom
  | .other _ _ _ => false

/-- Besides, a first copy has some TTL left. -/
def takes_in_time (s : Network (Fin 9)) : Happening (Fin 9) → Bool
  | .hand d => takes_well s (.hand d) && (s.flying[d.index]?).all fun copy =>
      (message 0).id ∈ (s.world copy.dest).node.processed_messages || 1 < copy.ttl
  | .other _ _ _ => false

theorem undisturbed_of_takes_well {s : Network (Fin 9)} {i : Nat}
    (h : takes_well s (turn i) = true) :
    Undisturbed ring_topology (packet 0) (message 0) s (turn i) := by
  intro copy hcopy
  have hcopy : s.flying[i]? = some copy := hcopy
  simp only [takes_well, turn, hcopy, Option.all_some, Bool.and_eq_true, Bool.not_eq_true',
    decide_eq_true_eq] at h
  refine ⟨h.1, h.2, fun _ => rfl, fun _ => rfl, fun _ hdue => ?_⟩
  -- a message without a channel asks for no ACK
  exact absurd hdue.1 Bool.false_ne_true

theorem inTime_of_takes_in_time {s : Network (Fin 9)} {i : Nat}
    (h : takes_in_time s (turn i) = true) :
    InTime ring_topology 0 (packet 0) (message 0) s (turn i) := by
  intro copy hcopy _ hunseen
  have hcopy : s.flying[i]? = some copy := hcopy
  simp only [takes_in_time, turn, hcopy, Option.all_some, Bool.and_eq_true, Bool.or_eq_true,
    decide_eq_true_eq] at h
  exact h.2.resolve_left hunseen

/-- The copies are handed over as they were sent, first come first served. -/
def served : Option (Network (Fin 9)) :=
  (flood ring_topology (raw 0) ring_sent).checked takes_in_time ring_sent
    ((List.replicate 18 0).map turn)

/-- The copy that goes to the last node of the ring at once is overtaken by
the one that goes all the way round. -/
def overtaken : Option (Network (Fin 9)) :=
  (flood ring_topology (raw 0) ring_sent).checked takes_well ring_sent
    ([0, 2, 3, 4, 5, 6, 7, 0, 0, 0, 0, 0, 0, 0].map turn)

end daemon.standIn

namespace daemon

open bitchat systems

attribute [local instance] bitchat.standIn.packages

/-- All nodes of the ring and the one behind it get the message. -/
theorem a_message_goes_round_a_ring :
    ∃ s, standIn.served = some s ∧
      ∀ x ≠ 0, Delivered (standIn.packet 0) (standIn.message 0) (s.world x) := by
  have hlanded : standIn.served.map (fun s => s.flying.length) = some 0 := by decide +kernel
  obtain ⟨s, hs, hquiet⟩ := Option.map_eq_some_iff.mp hlanded
  refine ⟨s, hs, fun x hx => ?_⟩
  have := bitchat.standIn.lawfulBloom
  refine a_message_reaches_the_ttl_range standIn.newMessage_ring (fun _ => rfl) standIn.wired_ring
    (System.runWith_checked (.start rfl) ?_ hs) (List.eq_nil_of_length_eq_zero hquiet) hx
    (standIn.within_ring x)
  intro s e he hpasses
  obtain ⟨i, -, rfl⟩ := List.mem_map.mp he
  have hwell : standIn.takes_well s (standIn.turn i) = true := (Bool.and_eq_true_iff.mp hpasses).1
  exact ⟨standIn.undisturbed_of_takes_well hwell, standIn.inTime_of_takes_in_time hpasses⟩

/-- No copy is lost, and in the end the node behind the ring, two hops from the
origin, has not got the message. -/
theorem a_long_way_round_cuts_off_a_node :
    NewMessage standIn.ring 0 (standIn.raw 0) (standIn.packet 0) (standIn.message 0) ∧
      (∀ x, Wired standIn.ring_topology x (standIn.ring x).node) ∧
      (standIn.packet 0).ttl = 7 ∧
      (∀ x, flooding.Within (Linked standIn.ring_topology) 0 7 x) ∧
      ∃ s, (flood standIn.ring_topology (standIn.raw 0) standIn.ring_sent).RunWith
          (Undisturbed standIn.ring_topology (standIn.packet 0) (standIn.message 0)) s ∧
        s.flying = [] ∧ ¬ Delivered (standIn.packet 0) (standIn.message 0) (s.world 8) := by
  refine ⟨standIn.newMessage_ring, standIn.wired_ring, rfl, standIn.within_ring, ?_⟩
  have hlanded : standIn.overtaken.map
      (fun s => (s.flying.length, (deliveries (s.world 8).out).length)) = some (0, 0) := by
    decide +kernel
  obtain ⟨s, hs, hquiet⟩ := Option.map_eq_some_iff.mp hlanded
  obtain ⟨hflying, hdeliveries⟩ := Prod.mk.inj hquiet
  refine ⟨s, System.runWith_checked (.start rfl) ?_ hs, List.eq_nil_of_length_eq_zero hflying, ?_⟩
  · intro s e he hpasses
    obtain ⟨i, -, rfl⟩ := List.mem_map.mp he
    exact standIn.undisturbed_of_takes_well hpasses
  · unfold Delivered
    rw [List.eq_nil_of_length_eq_zero hdeliveries]
    exact List.not_mem_nil

end daemon
