-- How far the leave of a node gets. A leave is not looked up in
-- `processed_messages`: every copy that comes with a TTL above one goes on, so
-- that no node in range can miss it, in whatever order the copies come.
import BitchatNode.Reaching
import BitchatNode.Strangers

namespace daemon

open python bitchat bitchat.protocol systems

variable [Packages]

/-! ## The leave of a node -/

/-- The id of the node as it is read off its packets. -/
def MeshNode.id_on_air (n : MeshNode) : Str := hex (rstripZero n.my_peer_id.bytes)

/-- The leave looks like that of a channel. -/
def MeshNode.named_like_channel (n : MeshNode) : Prop := (strip n.nickname).head? = some '#'

instance (n : MeshNode) : Decidable n.named_like_channel := inferInstanceAs (Decidable (_ = _))

/-- A packet with which the node can take its leave. -/
structure LeaveOf (n : MeshNode) (env : Env) (raw : Bytes) : Prop where
  created : create_bitchat_packet n.my_peer_id.str .LEAVE (encode n.nickname) (env.draw 0) = .ok raw
  fits : raw.length ≤ 65535

/-- The packet as it is read. -/
def MeshNode.leave_packet (n : MeshNode) : BitchatPacket :=
  received n.my_peer_id none .LEAVE (encode n.nickname) 7

theorem LeaveOf.parses {n : MeshNode} {env : Env} {raw : Bytes} (h : LeaveOf n env raw) :
    parse_bitchat_packet raw = .ok n.leave_packet := by
  have hlength : (encode n.nickname).length < 65536 := by
    by_contra hlong
    have hcreated := h.created
    unfold create_bitchat_packet at hcreated
    rw [create_too_long _ _ _ _ _ _ hlong] at hcreated
    cases hcreated
  obtain ⟨raw', hraw', his⟩ := create_ok n.my_peer_id none .LEAVE (encode n.nickname) none
    (env.draw 0) hlength
  have hcreated := h.created
  unfold create_bitchat_packet at hcreated
  rw [show (none : Option Str) = (none : Option PeerId).map PeerId.str from rfl, hraw',
    Except.ok.injEq] at hcreated
  rw [← hcreated, ← his.ttl]
  exact his.parse 7

theorem leaves_channel_leave_packet (n : MeshNode) :
    leaves_channel n.leave_packet = true ↔ n.named_like_channel := by
  unfold leaves_channel MeshNode.leave_packet received MeshNode.named_like_channel
  rw [decodeIgnore_encode, decide_eq_true_eq]

theorem exec_send_leave {env : Env} {raw : Bytes} {w : World} (h : LeaveOf w.node env raw) :
    (exec (react env .leave) w).2 = (exec (raw_send env raw) w).2 := by
  show (exec (send_leave env) w).2 = _
  unfold send_leave
  rw [exec_bind_ok _ (exec_node w), h.created]
  rfl

/-! ## One copy -/

section

variable {env : Env} {packet : BitchatPacket} {raw : Bytes} {w : World}

theorem exec_handle_leave :
    (exec (handle_leave packet raw) w).2.node =
        (if leaves_channel packet then w.node else w.node.without packet.sender_id_str) ∧
      relays (exec (handle_leave packet raw) w).2.out = relays w.out ++
        if 1 < packet.ttl then [with_ttl raw (packet.ttl - 1)] else [] := by
  have htake : (exec (take_leave packet) w).1 = .ok () ∧
      (exec (take_leave packet) w).2.node =
        (if leaves_channel packet then w.node else w.node.without packet.sender_id_str) ∧
      relays (exec (take_leave packet) w).2.out = relays w.out := by
    unfold take_leave
    rw [exec_ite]
    split
    · exact ⟨rfl, rfl, rfl⟩
    · refine ⟨?_, node_remove_peer _ _, (quiet_remove_peer _ w).relays⟩
      unfold remove_peer
      simp only [exec_bind, exec_node, exec_modifyNode, exec_ite, exec_emit, exec_pure]
      split <;> rfl
  obtain ⟨hok, hnode, hrelays⟩ := htake
  rcases hdone : exec (take_leave packet) w with ⟨result, w'⟩
  rw [hdone] at hok hnode hrelays
  subst hok
  unfold handle_leave
  rw [exec_bind_ok _ hdone, exec_relay]
  split
  · rename_i hlive
    refine ⟨hnode, ?_⟩
    show relays (w'.out ++ _) = _
    unfold relays at hrelays ⊢
    rw [List.filterMap_append, hrelays]
    rfl
  · rw [List.append_nil]
    exact ⟨hnode, hrelays⟩

theorem handle_of_leave (htype : packet.msg_type = .LEAVE) :
    handle env packet raw = handle_leave packet raw :=
  handle_of_handler (by rw [handler, htype])

end

section

variable {ι : Type} {packet : BitchatPacket} {d : Delivery} {copy : Copy ι} {w : World}
  {ttl : UInt8} (hparse : parse_bitchat_packet copy.raw = .ok { packet with ttl })
  (htype : packet.msg_type = .LEAVE) (hown : packet.sender_id_str ≠ w.node.my_peer_id.str)

include hparse htype hown

/-- A node that gets a copy forgets the sender, unless the leave is one of a
channel, and lets the copy go on. -/
theorem handled_leave :
    (handled d copy w).node = (if leaves_channel packet then
        (w.heard packet.sender_id_str copy.conn.address).node
      else (w.heard packet.sender_id_str copy.conn.address).node.without packet.sender_id_str) ∧
      relays (handled d copy w).out =
        relays w.out ++ if 1 < copy.ttl then [copy.onward] else [] := by
  obtain rfl : ttl = copy.ttl := (parse_ttl hparse).2
  have htyped : { packet with ttl := copy.ttl }.msg_type = .LEAVE := htype
  unfold handled
  rw [exec_on_packet_received hparse hown, handle_of_leave htyped]
  exact exec_handle_leave

theorem added_leave (topology : Topology ι) (henv : Lossless d.env)
    (hrelay : Lossless d.relay_env) (hfits : copy.raw.length ≤ 65535) (hlive : 1 < copy.ttl) :
    added topology d copy w = spread topology copy.dest copy.onward
      (w.node.connections.entries.map (·.2.address)) := by
  have hrelays := (handled_leave (d := d) hparse htype hown).2
  rw [if_pos hlive] at hrelays
  have hsame : (handled d copy w).node.connections = w.node.connections :=
    sameConnections_on_packet_received henv copy.conn copy.raw w
  have honward : copy.onward.length ≤ 65535 := by
    unfold Copy.onward with_ttl
    rw [List.length_set]
    exact hfits
  unfold added relayed
  rw [new_relays_eq hrelays, ← hsame]
  exact arrivals_lossless topology copy.dest hrelay honward (handled d copy w)

end

theorem stranger_send_relays (peer_id : Str) (env : Env) (packets : List Bytes) :
    Moves (StaysStranger peer_id) (send_relays env packets) := by
  induction packets with
  | nil => exact Moves.pure ()
  | cons raw rest ih =>
    unfold send_relays
    exact Moves.bind (Moves.suppress ((steady_stranger peer_id env).raw_send raw)) fun _ => ih

/-! ## The flood of a leave -/

variable {ι : Type} [DecidableEq ι]

/-- The node has sent its leave. -/
def goodbye (topology : Topology ι) (world : ι → World) (o : ι) (env : Env) : Network ι where
  world := Function.update world o (exec (react env .leave) (world o)).2
  flying := arrivals topology o (new_writes (world o) (exec (react env .leave) (world o)).2)

theorem goodbye_eq_sent (topology : Topology ι) {world : ι → World} {o : ι} {env : Env}
    {raw : Bytes} (h : LeaveOf (world o).node env raw) :
    goodbye topology world o env = sent topology world o env raw := by
  unfold goodbye sent
  rw [exec_send_leave h]

/-- The nodes are in states of their runs, and one of them leaves. No other one
has its id. -/
structure Leaving (world : ι → World) (o : ι) (env : Env) (raw : Bytes) : Prop where
  reachable : ∀ x, Reachable (world x)
  leave : LeaveOf (world o).node env raw
  lossless : Lossless env
  other_ids : ∀ x, x ≠ o → (world o).node.id_on_air ≠ (world x).node.my_peer_id.str

/-- No write fails while a copy is handed over, and what else happens at a node
does not bring the peer back, and leaves the connections. -/
def Unhindered (topology : Topology ι) (peer_id : Str) (s : Network ι) : Happening ι → Prop
  | .hand d => Lossless d.env ∧ Lossless d.relay_env
  | .other x env event => ¬ Introduces peer_id event ∧ ¬ Resumes peer_id event ∧
      Wired topology x (exec (react env event) (s.world x)).2.node

/-- The hops that a copy has left when it has arrived. -/
def Copy.hops (copy : Copy ι) : ℕ := copy.ttl.toNat - 1

/-- What the copies go over: the origin does not pass them on. -/
def Onward (topology : Topology ι) (o a b : ι) : Prop := a ≠ o ∧ Linked topology a b

/-- What holds at every moment: the connections are there, and the node has
forgotten the peer, or a copy that leads to it is under way. -/
structure Parting (topology : Topology ι) (o : ι) (peer_id : Str) (x : ι) (s : Network ι) :
    Prop where
  wired : ∀ y, Wired topology y (s.world y).node
  told : Unknown peer_id (s.world x).node ∨
    flooding.Heading (Onward topology o) Copy.dest Copy.hops s.flying x

section

variable {topology : Topology ι} {world : ι → World} {o x : ι} {env : Env} {raw : Bytes}
  {s s' : Network ι}

theorem parting_goodbye (h : Leaving world o env raw)
    (hwired : ∀ y, Wired topology y (world y).node) (hne : x ≠ o)
    (hrange : flooding.Within (Linked topology) o 7 x) (peer_id : Str) :
    Parting topology o peer_id x (goodbye topology world o env) := by
  rw [goodbye_eq_sent topology h.leave]
  obtain ⟨k, y, hhops, hlink, hway⟩ := hrange.away hne
  have hsame : SameConnections (world o) (exec (raw_send env raw) (world o)).2 :=
    (calm_sameConnections h.lossless).raw_send raw (world o)
  obtain ⟨c, hc, hdest⟩ := exists_mem_spread (hwired o) hlink raw
  have hraw := raw_of_mem_spread hc
  rw [← arrivals_lossless topology o h.lossless h.leave.fits] at hc
  refine ⟨?_, .inr ⟨c, hc, ?_⟩⟩
  · apply (Function.forall_update_iff world fun y w => Wired topology y w.node).mpr
    exact ⟨(hwired o).of_same hsame, fun y _ => hwired y⟩
  · have httl : c.hops = k := by
      have hseven : (7 : UInt8) = raw.getD 2 0 := (parse_ttl h.leave.parses).2
      unfold Copy.hops Copy.ttl
      rw [hraw, ← hseven]
      show 7 - 1 = k
      omega
    rw [httl, hdest]
    exact hway

/-- A copy is handed over. -/
theorem parting_hand {d : Delivery} (h : Leaving world o env raw)
    (hname : ¬ (world o).node.named_like_channel) (hne : x ≠ o)
    (hin : InFlood raw ⟨world, []⟩ s)
    (hparting : Parting topology o (world o).node.id_on_air x s)
    (hlossless : Lossless d.env ∧ Lossless d.relay_env)
    (hstep : deliver_copy topology s d = some s') :
    Parting topology o (world o).node.id_on_air x s' := by
  obtain ⟨copy, hcopy, hworld, hflying⟩ := deliver_copy_eq_some hstep
  have hsame : SamePacket copy.raw raw := hin.copies copy (List.mem_of_getElem? hcopy)
  obtain ⟨ttl, hparse⟩ := parse_of_samePacket hsame h.leave.parses
  have hfits : copy.raw.length ≤ 65535 := by
    have hlength := congrArg List.length hsame
    simp only [with_ttl, List.length_set] at hlength
    rw [hlength]
    exact h.leave.fits
  have hown (hdest : copy.dest ≠ o) : (world o).node.leave_packet.sender_id_str ≠
      (s.world copy.dest).node.my_peer_id.str := by
    have hid : (s.world copy.dest).node.my_peer_id = (world copy.dest).node.my_peer_id :=
      hin.ids copy.dest
    rw [hid]
    exact h.other_ids copy.dest hdest
  have hpeer : leaves_channel (world o).node.leave_packet = false := by
    rw [Bool.eq_false_iff]
    exact fun hleaves => hname ((leaves_channel_leave_packet _).mp hleaves)
  refine ⟨?_, ?_⟩
  · have hconnections : SameConnections (s.world copy.dest) (relayed d copy (s.world copy.dest)) :=
      trans_of SameConnections
        (sameConnections_on_packet_received hlossless.1 copy.conn copy.raw _)
        (sameConnections_send_relays hlossless.2 _ _)
    rw [hworld]
    apply (Function.forall_update_iff s.world fun y w => Wired topology y w.node).mpr
    exact ⟨(hparting.wired copy.dest).of_same hconnections, fun y _ => hparting.wired y⟩
  · by_cases hdest : copy.dest = x
    · -- the node gets a copy itself
      left
      have hhandled : Unknown (world o).node.id_on_air (handled d copy (s.world x)).node := by
        have hnode := (handled_leave (d := d) hparse rfl (hown (hdest ▸ hne))).1
        rw [hpeer, hdest] at hnode
        rw [hnode]
        exact unknown_without _ _
      have hrelayed := (stranger_send_relays _ d.relay_env
        (new_relays (s.world x) (handled d copy (s.world x))) _ hhandled).1
      rw [hworld, hdest, Function.update_self]
      exact hrelayed
    · rcases hparting.told with hunknown | hheading
      · left
        rw [hworld, Function.update_of_ne (Ne.symm hdest)]
        exact hunknown
      · right
        have hnew : ∀ y k, copy.hops = k + 1 → Onward topology o copy.dest y →
            ∃ c' ∈ added topology d copy (s.world copy.dest), c'.dest = y ∧ c'.hops = k := by
          intro y k hhops hlink
          have hlive : 1 < copy.ttl := by
            unfold Copy.hops at hhops
            exact UInt8.lt_iff_toNat_lt.mpr (by show 1 < copy.ttl.toNat; omega)
          obtain ⟨c, hc, hy⟩ := exists_mem_spread (hparting.wired copy.dest) hlink.2 copy.onward
          rw [← added_leave hparse rfl (hown hlink.1) topology hlossless.1 hlossless.2 hfits
            hlive] at hc
          have httl := ttl_of_mem_added hc
          refine ⟨c, hc, hy, ?_⟩
          unfold Copy.hops at hhops ⊢
          omega
        rw [hflying]
        exact (hheading.take hcopy hnew).resolve_left fun heq => hdest heq.symm

/-- Anything else that happens at a node. -/
theorem parting_other {peer_id : Str} {y : ι} {env : Env} {event : Event}
    (hparting : Parting topology o peer_id x s)
    (hunhindered : Unhindered topology peer_id s (.other y env event))
    (hstep : happen topology raw s (.other y env event) = some s') :
    Parting topology o peer_id x s' := by
  obtain ⟨hintroduces, hresumes, hwired⟩ := hunhindered
  obtain ⟨-, rfl⟩ := other_eq_some hstep
  refine ⟨?_, hparting.told.imp_left fun hunknown => ?_⟩
  · apply (Function.forall_update_iff s.world fun z w => Wired topology z w.node).mpr
    exact ⟨hwired, fun z _ => hparting.wired z⟩
  · show Unknown peer_id (Function.update s.world y _ x).node
    by_cases hx : x = y
    · subst hx
      rw [Function.update_self]
      exact (stranger_react hintroduces hresumes (s.world x) hunknown).1
    · rw [Function.update_of_ne hx]
      exact hunknown

theorem told_of_quiet (h : Leaving world o env raw)
    (hwired : ∀ y, Wired topology y (world y).node)
    (hname : ¬ (world o).node.named_like_channel)
    (hrun : (flood topology raw (goodbye topology world o env)).RunWith
      (Unhindered topology (world o).node.id_on_air) s)
    (hquiet : s.flying = []) (hne : x ≠ o) (hrange : flooding.Within (Linked topology) o 7 x) :
    Unknown (world o).node.id_on_air (s.world x).node := by
  have hparting : Parting topology o (world o).node.id_on_air x s := by
    refine hrun.invariant (I := Parting topology o (world o).node.id_on_air x) ?_ ?_
    · rintro s rfl
      exact parting_goodbye h hwired hne hrange _
    · rintro s e s' hrun hparting hunhindered hstep
      cases e with
      | hand d =>
        have hin : InFlood raw ⟨world, []⟩ s := by
          rw [goodbye_eq_sent topology h.leave] at hrun
          exact inFlood_of_reachable h.reachable hrun.reachable
        exact parting_hand h hname hne hin hparting hunhindered hstep
      | other y env event => exact parting_other hparting hunhindered hstep
  refine hparting.told.resolve_right ?_
  rintro ⟨c, hc, -⟩
  rw [hquiet] at hc
  cases hc

end

/-! ## A nickname that begins like the name of a channel -/

def SameNode (w w' : World) : Prop := w'.node = w.node

instance : IsPreorder World SameNode where
  refl _ := rfl
  trans _ _ _ h g := Eq.trans g h

/-- A send changes nothing at the node, where no write fails. -/
theorem sameNode_raw_send {env : Env} (h : Lossless env) (packet : Bytes) :
    Moves SameNode (raw_send env packet) := by
  refine moves_raw_send (fun conn hfails => ?_) (fun _ _ _ => rfl) packet
  rw [h conn.address] at hfails
  cases hfails

theorem sameNode_send_relays {env : Env} (h : Lossless env) (packets : List Bytes) :
    Moves SameNode (send_relays env packets) := by
  induction packets with
  | nil => exact Moves.pure ()
  | cons raw rest ih =>
    unfold send_relays
    exact Moves.bind (Moves.suppress (sameNode_raw_send h raw)) fun _ => ih

/-- A node that hears from somebody forgets nobody, and recalls nobody. -/
theorem forgotten_heard (w : World) (sender_id address peer_id : Str) :
    Forgotten (w.heard sender_id address).node peer_id ↔ Forgotten w.node peer_id :=
  ⟨fun h => ⟨h.peers, h.pending, h.sessions, h.handshakes⟩,
    fun h => ⟨h.peers, h.pending, h.sessions, h.handshakes⟩⟩

omit [DecidableEq ι] in
/-- A node that gets a copy of such a leave forgets nobody. -/
theorem forgotten_relayed {packet : BitchatPacket} {d : Delivery} {copy : Copy ι} {w : World}
    {ttl : UInt8} (hparse : parse_bitchat_packet copy.raw = .ok { packet with ttl })
    (htype : packet.msg_type = .LEAVE) (hleaves : leaves_channel packet = true)
    (hlossless : Lossless d.relay_env) (peer_id : Str) :
    Forgotten (relayed d copy w).node peer_id ↔ Forgotten w.node peer_id := by
  have hsent : (relayed d copy w).node = (handled d copy w).node :=
    sameNode_send_relays hlossless _ _
  rw [hsent]
  by_cases hown : packet.sender_id_str = w.node.my_peer_id.str
  · -- the node drops what comes from itself
    have hdropped : handled d copy w = w := by
      unfold handled on_packet_received
      simp only [exec_bind, exec_node, hparse, hown, if_true, exec_pure]
    rw [hdropped]
  · rw [(handled_leave hparse htype hown).1, if_pos hleaves]
    exact forgotten_heard w _ _ peer_id

/-- The step hands a copy over, and no write fails. -/
def HandsOver : Happening ι → Prop
  | .hand d => Lossless d.env ∧ Lossless d.relay_env
  | .other _ _ _ => False

omit [DecidableEq ι] in
theorem HandsOver.unhindered {topology : Topology ι} {peer_id : Str} {s : Network ι}
    {e : Happening ι} (h : HandsOver e) : Unhindered topology peer_id s e := by
  cases e with
  | hand d => exact h
  | other => exact h.elim

section

variable {topology : Topology ι} {world : ι → World} {o : ι} {env : Env} {raw : Bytes}
  {s : Network ι}

theorem forgotten_of_named_like_channel (h : Leaving world o env raw)
    (hname : (world o).node.named_like_channel)
    (hrun : (flood topology raw (goodbye topology world o env)).RunWith (fun _ => HandsOver) s)
    (peer_id : Str) (x : ι) :
    Forgotten (s.world x).node peer_id ↔ Forgotten (world x).node peer_id := by
  rw [goodbye_eq_sent topology h.leave] at hrun
  refine hrun.invariant (I := fun s => ∀ x,
    Forgotten (s.world x).node peer_id ↔ Forgotten (world x).node peer_id) ?_ ?_ x
  · rintro s rfl
    refine (Function.forall_update_iff world fun x w =>
      Forgotten w.node peer_id ↔ Forgotten (world x).node peer_id).mpr ⟨?_, fun _ _ => Iff.rfl⟩
    rw [sameNode_raw_send h.lossless raw (world o)]
  · intro s e s' hrun hsame hhands hstep
    cases e with
    | other => exact hhands.elim
    | hand d =>
      obtain ⟨copy, hcopy, hworld, -⟩ := deliver_copy_eq_some hstep
      have hin := inFlood_of_reachable h.reachable hrun.reachable
      obtain ⟨ttl, hparse⟩ := parse_of_samePacket (hin.copies copy (List.mem_of_getElem? hcopy))
        h.leave.parses
      rw [hworld]
      refine (Function.forall_update_iff s.world fun x w =>
        Forgotten w.node peer_id ↔ Forgotten (world x).node peer_id).mpr ⟨?_, fun x _ => hsame x⟩
      refine (forgotten_relayed hparse rfl ?_ hhands.2 peer_id).trans (hsame copy.dest)
      exact (leaves_channel_leave_packet _).mpr hname

/-- When all copies of a leave have been handed over, a node within seven hops
still has on file what it had, if the nickname begins like the name of a
channel, and nothing if it does not. -/
theorem a_leave_is_heeded_iff_it_names_no_channel (h : Leaving world o env raw)
    (hwired : ∀ y, Wired topology y (world y).node)
    (hrun : (flood topology raw (goodbye topology world o env)).RunWith (fun _ => HandsOver) s)
    (hquiet : s.flying = []) {x : ι} (hne : x ≠ o)
    (hrange : flooding.Within (Linked topology) o 7 x) :
    Forgotten (s.world x).node (world o).node.id_on_air ↔
      ((world o).node.named_like_channel →
        Forgotten (world x).node (world o).node.id_on_air) := by
  by_cases hname : (world o).node.named_like_channel
  · rw [forgotten_of_named_like_channel h hname hrun]
    exact ⟨fun hforgotten _ => hforgotten, fun hforgotten => hforgotten hname⟩
  · have hparting := told_of_quiet h hwired hname (hrun.mono fun _ _ => HandsOver.unhindered) hquiet
      hne hrange
    exact ⟨fun _ hnamed => absurd hnamed hname, fun _ => hparting.toForgotten⟩

end

end daemon

/-! ## On the stand-in -/

namespace daemon.standIn

open python bitchat bitchat.protocol systems

attribute [local instance] bitchat.standIn.packages

/-- The line of three, where the others have heard of the first node, and this
one has got a nickname. -/
def friends (nickname : Str) (x : Fin 3) : World :=
  (exec (react (env 1) (if x.val = 0 then .set_name nickname
    else .packet (conn_to ((neighbours x).headD x)) (hello us))) (line x)).2

def farewell (nickname : Str) : Bytes :=
  match create_bitchat_packet us.str .LEAVE (encode nickname) (bitchat.standIn.draw 1) with
  | .ok packet => packet
  | .error _ => []

theorem reachable_friends (nickname : Str) (x : Fin 3) : Reachable (friends nickname x) := by
  apply Reachable.step (reachable_line x)
  split <;> trivial

theorem leaving_friends {nickname : Str} (hshort : (encode nickname).length ≤ 20)
    (hnickname : (friends nickname 0).node.nickname = nickname)
    (hid : ∀ x, (friends nickname x).node.my_peer_id = line_id x) :
    Leaving (friends nickname) 0 (env 1) (farewell nickname) where
  reachable := reachable_friends nickname
  leave := by
    obtain ⟨raw, hraw, his⟩ := create_ok us none .LEAVE (encode nickname) none
      (bitchat.standIn.draw 1) (by omega)
    have hfarewell : farewell nickname = raw := by
      unfold farewell create_bitchat_packet
      rw [show (none : Option Str) = (none : Option PeerId).map PeerId.str from rfl, hraw]
    have hbare : bare_length .LEAVE none (encode nickname) none ≤ 65535 := by
      show 22 + 8 + (encode nickname).length + 0 ≤ 65535
      omega
    refine ⟨?_, ?_⟩
    · rw [hnickname, hid 0, hfarewell]
      exact hraw
    · rw [hfarewell]
      exact his.fits.mpr hbare
  lossless _ := rfl
  other_ids x hx := by
    have hdistinct : ∀ x : Fin 3, x ≠ 0 → hex (rstripZero us.bytes) ≠ (line_id x).str := by decide
    unfold MeshNode.id_on_air
    rw [hid 0, hid x]
    exact hdistinct x hx

theorem wired_friends {nickname : Str}
    (h : ∀ x, (friends nickname x).node.connections.entries.map (·.2.address) =
      (neighbours x).map fun y => (conn_to y).address) (x : Fin 3) :
    Wired line_topology x (friends nickname x).node := by
  intro addr end_ hend
  obtain ⟨y, conn⟩ := end_
  obtain ⟨rfl, hmem⟩ := line_topology_eq_some hend
  rw [h x]
  exact List.mem_map_of_mem hmem

theorem within_line (x : Fin 3) : flooding.Within (Linked line_topology) 0 7 x := by
  have hlink : ∀ y : Fin 3, ∀ z ∈ neighbours y,
      (line_topology y (conn_to z).address).map Prod.fst = some z := by decide
  have hlinked : ∀ y z : Fin 3, z ∈ neighbours y → Linked line_topology y z := by
    intro y z hz
    obtain ⟨⟨z', conn⟩, hend, rfl⟩ := Option.map_eq_some_iff.mp (hlink y z hz)
    exact ⟨_, conn, hend⟩
  have hfirst : flooding.Within (Linked line_topology) 0 1 1 :=
    .hop (.origin 0) (hlinked 0 1 (by decide))
  match x with
  | 0 => exact .origin 7
  | 1 => exact hfirst.mono (by decide)
  | 2 => exact (flooding.Within.hop hfirst (hlinked 1 2 (by decide))).mono (by decide)

/-- The copies are handed over as they were sent. -/
def parted (nickname : Str) (o : Fin 3) : Option (Network (Fin 3)) :=
  (flood line_topology (farewell nickname)
    (goodbye line_topology (friends nickname) o (env 1))).checked (fun _ _ => true)
    (goodbye line_topology (friends nickname) o (env 1))
    ((List.replicate 10 0).map fun i => .hand ⟨i, env 1, env 1⟩)

theorem runWith_parted {nickname : Str} {s : Network (Fin 3)} {o : Fin 3}
    (h : parted nickname o = some s) :
    (flood line_topology (farewell nickname)
      (goodbye line_topology (friends nickname) o (env 1))).RunWith (fun _ => HandsOver) s := by
  refine System.runWith_checked (.start rfl) ?_ h
  intro s e he _
  obtain ⟨i, -, rfl⟩ := List.mem_map.mp he
  exact ⟨fun _ => rfl, fun _ => rfl⟩

end daemon.standIn

namespace daemon

open bitchat systems

attribute [local instance] bitchat.standIn.packages

/-- A node whose nickname is `#` leaves, and both friends still have it on file. -/
theorem a_node_named_like_a_channel_leaves_unnoticed :
    ∃ s, standIn.parted ['#'] 0 = some s ∧
      ∀ x ≠ 0, ¬ Forgotten (s.world x).node (standIn.friends ['#'] 0).node.id_on_air := by
  have hlanded : (standIn.parted ['#'] 0).map (fun s => s.flying.length) = some 0 := by
    decide +kernel
  have hknown : ∀ x ≠ 0, (standIn.friends ['#'] x).node.peers.has
      (standIn.friends ['#'] 0).node.id_on_air = true := by decide +kernel
  obtain ⟨s, hs, hquiet⟩ := Option.map_eq_some_iff.mp hlanded
  refine ⟨s, hs, fun x hx hforgotten => ?_⟩
  have hiff := a_leave_is_heeded_iff_it_names_no_channel (standIn.leaving_friends (by decide)
    (by decide +kernel) (by decide +kernel)) (standIn.wired_friends (by decide +kernel))
    (standIn.runWith_parted hs) (List.eq_nil_of_length_eq_zero hquiet) hx (standIn.within_line x)
  have hbefore := (hiff.mp hforgotten (by decide +kernel)).peers
  have hhas := hknown x hx
  unfold python.Dict.has at hhas
  rw [hbefore] at hhas
  cases hhas

end daemon
