-- The table of connections and what a broadcast makes of it: every connection
-- that is not excluded gets the packet or is dropped, unless the packet is too
-- long for a frame.
import BitchatNode.Sending
import BitchatNode.NewMessages

namespace daemon

open python bitchat bitchat.protocol

variable [Packages]

/-! ## The table -/

/-- Every connection is filed under its own address. -/
def Filed (n : MeshNode) : Prop := ∀ e ∈ n.connections.entries, e.1 = e.2.address

/-- From `w` to `w'` no connection came in. -/
def Prunes (w w' : World) : Prop :=
  ∀ e ∈ w'.node.connections.entries, e ∈ w.node.connections.entries

instance : IsPreorder World Prunes where
  refl _ _ h := h
  trans _ _ _ h g e he := h e (g e he)

theorem Prunes.filed {w w' : World} (h : Prunes w w') :
    Keeps (fun w => Filed w.node) w w' := fun hfiled e he => hfiled e (h e he)

/-- The loss of a peer does not touch the table. -/
theorem connections_on_peer_disconnected (conn : PeerConnection) (w : World) :
    (exec (on_peer_disconnected conn) w).2.node.connections = w.node.connections := by
  unfold on_peer_disconnected remove_peer
  simp only [exec_bind, exec_node]
  split
  · simp only [exec_ite, exec_bind, exec_node, exec_modifyNode, exec_emit, exec_pure]
    split
    · split <;> rfl
    · rfl
  · rfl

theorem connections_on_read_done (conn : PeerConnection) (w : World) :
    (exec (on_read_done conn) w).2.node.connections = w.node.connections.pop conn.address := by
  unfold on_read_done
  rw [exec_bind_ok _ (exec_modifyNode _ w), connections_on_peer_disconnected]

theorem prunes_on_read_done (conn : PeerConnection) : Moves Prunes (on_read_done conn) := by
  intro w e he
  rw [connections_on_read_done] at he
  exact (Dict.mem_entries_pop.mp he).1

theorem prunes_modifyNode {f : MeshNode → MeshNode}
    (h : ∀ n, (f n).connections = n.connections) : Moves Prunes (modifyNode f) := by
  intro w e he
  show e ∈ w.node.connections.entries
  rw [← h w.node]
  exact he

theorem prunes_emit (action : Action) : Moves Prunes (emit action) := fun _ _ h => h

theorem calm_prunes (env : Env) : Calm env Prunes where
  touch _ h := prunes_modifyNode fun n => (h n).connections
  service _ _ _ h := h
  later _ _ := prunes_emit _
  on_delivery_ack _ := prunes_emit _
  saved _ := prunes_emit _
  send_to_peer := moves_send_to_peer (fun conn _ => prunes_on_read_done conn)
    fun _ _ => prunes_emit _
  raw_send := moves_raw_send (fun conn _ => prunes_on_read_done conn) fun _ _ => prunes_emit _

theorem prunes_relay (raw : Bytes) (ttl : UInt8) : Moves Prunes (relay raw ttl) := by
  unfold relay
  exact Moves.ite (Moves.pure ()) (prunes_emit _)

theorem prunes_deliver (message : BitchatMessage) (sender_id : Str) (is_private : Bool) :
    Moves Prunes (deliver message sender_id is_private) := by
  unfold deliver
  refine Moves.bind moves_node fun self => ?_
  split
  · exact Moves.throw _
  · exact Moves.bind (prunes_modifyNode fun _ => rfl) fun _ => prunes_emit _

theorem prunes_remove_peer (peer_id : Str) : Moves Prunes (remove_peer peer_id) := by
  unfold remove_peer
  refine Moves.bind moves_node fun self => ?_
  refine Moves.bind (prunes_modifyNode fun _ => rfl) fun _ => ?_
  exact Moves.ite (prunes_emit _) (Moves.pure ())

theorem prunes_announced (peer_id nickname : Str) : Moves Prunes (announced peer_id nickname) := by
  unfold announced
  refine Moves.bind moves_node fun self => ?_
  refine Moves.bind (prunes_modifyNode fun _ => rfl) fun _ => ?_
  split
  · exact Moves.pure ()
  · exact prunes_emit _

theorem prunes_disconnect (addr : Str) : Moves Prunes (disconnect addr) := by
  unfold disconnect
  refine Moves.bind moves_node fun self => ?_
  split
  · exact Moves.throw _
  · rename_i conn hconn
    refine Moves.bind (fun w e he => (Dict.mem_entries_pop.mp he).1) fun _ => ?_
    intro w e he
    rw [connections_on_peer_disconnected] at he
    exact he

theorem prunes_on_packet_received (env : Env) (conn : PeerConnection) (raw : Bytes) :
    Moves Prunes (on_packet_received env conn raw) := by
  refine (calm_prunes env).on_packet_received ?_ (fun _ _ => prunes_relay _ _) ?_ prunes_announced
    ?_ conn
  · exact fun message sender_id is_private w _ => prunes_deliver message sender_id is_private w
  · exact fun _ _ => prunes_modifyNode fun _ => rfl
  · exact fun packet => Moves.ite (Moves.pure ()) (prunes_remove_peer _)

/-- Only an event that opens a connection adds one. -/
theorem prunes_react (env : Env) {event : Event} (h : ∀ conn, event ≠ .connected conn) :
    Moves Prunes (react env event) := by
  refine (calm_prunes env).react ?_ ?_ ?_ ?_
  · exact fun conn raw _ => prunes_on_packet_received env conn raw
  · exact fun conn heq => absurd heq (h conn)
  · exact fun conn _ => prunes_on_read_done conn
  · exact fun addr _ => prunes_disconnect addr

theorem filed_react (env : Env) (event : Event) :
    Moves (Keeps fun w => Filed w.node) (react env event) := by
  intro w hfiled
  by_cases hopens : ∃ conn, event = .connected conn
  · obtain ⟨conn, rfl⟩ := hopens
    intro e he
    rcases Dict.mem_write he with rfl | hold
    · rfl
    · exact hfiled e hold
  · exact (prunes_react env (fun conn heq => hopens ⟨conn, heq⟩) w).filed hfiled

/-- In every run every connection is filed under its address. -/
theorem Reachable.filed {w : World} (h : Reachable w) : Filed w.node := by
  induction h with
  | start => exact fun e he => absurd he List.not_mem_nil
  | step _ env event _ ih => exact filed_react env event _ ih

/-! ## What a broadcast does -/

/-- The broadcast returned, wrote the whole packet in one frame on every
connection that was meant and takes it, and dropped those that were meant and
do not. -/
structure BroadcastWorks (env : Env) (packet : Bytes) (exclude : List Str) (w : World) : Prop where
  returns : (exec (broadcast_packet env packet exclude) w).1 = .ok ()
  written : new_writes w (exec (broadcast_packet env packet exclude) w).2 =
    (w.node.connections.entries.filter fun e =>
      e.1 ∉ exclude ∧ env.write_fails e.1 = false).map fun e => (e.1, be 2 packet.length ++ packet)
  dropped : ∀ e, e ∈ (exec (broadcast_packet env packet exclude) w).2.node.connections.entries ↔
    e ∈ w.node.connections.entries ∧ ¬ (e.1 ∉ exclude ∧ env.write_fails e.1 = true)

/-- A broadcast of a packet that fits drops the connections that fail. -/
theorem connections_broadcast_each {env : Env} {packet : Bytes} (h : packet.length ≤ 65535)
    (exclude : List Str) (conns : List (Str × PeerConnection)) (w : World)
    (hfiled : ∀ e ∈ conns, e.1 = e.2.address) (e : Str × PeerConnection) :
    e ∈ (exec (broadcast_each env packet exclude conns) w).2.node.connections.entries ↔
      e ∈ w.node.connections.entries ∧
        ¬ ∃ f ∈ conns, f.1 = e.1 ∧ f.1 ∉ exclude ∧ env.write_fails f.1 = true := by
  induction conns generalizing w with
  | nil => simp [broadcast_each]
  | cons f conns ih =>
    obtain ⟨addr, conn⟩ := f
    have haddr : addr = conn.address := hfiled _ List.mem_cons_self
    have htail := fun e he => hfiled e (List.mem_cons_of_mem _ he)
    unfold broadcast_each
    by_cases hexclude : addr ∈ exclude
    · rw [if_pos hexclude, ih w htail]
      simp [hexclude]
    · rw [if_neg hexclude]
      rcases hw : env.write_fails conn.address with _ | _
      · simp only [exec_bind, exec_attempt, exec_send_packet h hw]
        rw [ih _ htail]
        simp [haddr, hw]
      · simp only [exec_bind, exec_attempt, exec_send_packet_fails h hw]
        rw [ih _ htail, connections_on_read_done, Dict.mem_entries_pop]
        rw [haddr] at hexclude
        simp only [haddr, List.exists_mem_cons_iff, hexclude, not_false_eq_true, hw, and_self,
          and_true, not_or, ne_comm]
        tauto

theorem broadcastWorks_of_fits {env : Env} {packet : Bytes} (h : packet.length ≤ 65535)
    (exclude : List Str) {w : World} (hfiled : Filed w.node) :
      BroadcastWorks env packet exclude w := by
  have ⟨hreturns, hwrites⟩ : _ ∧ writes
      (exec (broadcast_each env packet exclude w.node.connections.entries) w).2.out = _ :=
    writes_broadcast_each h exclude w.node.connections.entries w
  have hexec : exec (broadcast_packet env packet exclude) w =
      exec (broadcast_each env packet exclude w.node.connections.entries) w := by
    unfold broadcast_packet
    rw [exec_bind_ok _ (exec_node w)]
  refine ⟨?_, ?_, fun e => ?_⟩
  · rw [hexec, hreturns]
  · rw [hexec, new_writes_eq hwrites]
    have hfilter : (w.node.connections.entries.filter fun e =>
        e.1 ∉ exclude ∧ env.write_fails e.2.address = false) =
        w.node.connections.entries.filter fun e =>
          e.1 ∉ exclude ∧ env.write_fails e.1 = false := by
      refine List.filter_congr fun e he => ?_
      rw [hfiled e he]
    rw [hfilter]
    refine List.map_congr_left fun e he => ?_
    rw [hfiled e (List.mem_filter.mp he).1]
    rfl
  · rw [hexec, connections_broadcast_each h exclude _ w hfiled]
    refine and_congr_right fun he => not_congr ⟨?_, fun hfails => ⟨e, he, rfl, hfails⟩⟩
    rintro ⟨f, -, hsame, hfails⟩
    rw [← hsame]
    exact hfails

theorem broadcastWorks_iff (env : Env) (packet : Bytes) (exclude : List Str) {w : World}
    (hfiled : Filed w.node) :
    BroadcastWorks env packet exclude w ↔
      packet.length ≤ 65535 ∨ ∀ e ∈ w.node.connections.entries, e.1 ∈ exclude := by
  by_cases h : packet.length ≤ 65535
  · exact iff_of_true (broadcastWorks_of_fits h exclude hfiled) (Or.inl h)
  · have ⟨hreturns, hsame⟩ : _ ∧
        (exec (broadcast_each env packet exclude w.node.connections.entries) w).2 = w :=
      exec_broadcast_each_long h exclude w.node.connections.entries w
    have hexec : exec (broadcast_packet env packet exclude) w =
        exec (broadcast_each env packet exclude w.node.connections.entries) w := by
      unfold broadcast_packet
      rw [exec_bind_ok _ (exec_node w)]
    rw [← hexec] at hreturns hsame
    rw [or_iff_right h]
    constructor
    · intro hworks
      exact hreturns.mp hworks.returns
    · intro hall
      refine ⟨hreturns.mpr hall, ?_, fun e => ?_⟩
      · have hnobody : (w.node.connections.entries.filter fun e =>
            e.1 ∉ exclude ∧ env.write_fails e.1 = false) = [] := by
          rw [List.filter_eq_nil_iff]
          intro e he
          simp [hall e he]
        rw [hsame, hnobody, new_writes_eq (List.append_nil _).symm]
        rfl
      · rw [hsame]
        exact ⟨fun he => ⟨he, fun hmeant => hmeant.1 (hall e he)⟩, And.left⟩

/-! ## What the encoder builds -/

omit [Packages] in
theorem padded_fits_iff (packet : Bytes) (entropy : Entropy) :
    (pad_packet packet entropy).length ≤ 65535 ↔ packet.length ≤ 65535 := by
  obtain ⟨padding, hpad, hsize⟩ := pad_packet_eq packet entropy
  rw [hpad, List.length_append]
  rcases hsize with rfl | hsize
  · rw [List.length_nil, Nat.add_zero]
  · omega

/-- A packet that the encoder built fits a frame if its parts do. -/
theorem created_fits_iff {sender : Str} {recipient : Option Str} {msg_type : MessageType}
    {payload : Bytes} {signature : Option Bytes} {draw : Draw} {packet : Bytes}
    (h : create_bitchat_packet_with_recipient sender recipient msg_type payload signature draw =
      .ok packet) :
    packet.length ≤ 65535 ↔
      22 + (if recipient.isSome ∨ msg_type ∉ exclude_recipient_types then 8 else 0) +
        payload.length + (signature.getD []).length ≤ 65535 := by
  unfold create_bitchat_packet_with_recipient at h
  simp only [bind_eq_ok_iff] at h
  obtain ⟨payload_len, hlen, sender_bytes, -, h⟩ := h
  have htwo : payload_len.length = 2 := by
    unfold packH at hlen
    split at hlen
    · rw [← Except.ok.inj hlen, length_be]
    · cases hlen
  have hbroadcast : BROADCAST_RECIPIENT.length = 8 := rfl
  split at h
  · rename_i hrecipient
    rw [if_pos (by simpa using hrecipient)]
    split at h
    · rw [← Except.ok.inj h, padded_fits_iff]
      simp only [List.length_append, List.length_cons, List.length_nil, length_be, length_id8, htwo,
        hbroadcast]
    · rw [← Except.ok.inj h, padded_fits_iff]
      simp only [List.length_append, List.length_cons, List.length_nil, length_be, length_id8, htwo,
        hbroadcast]
    · obtain ⟨field, hfield, h⟩ := bind_eq_ok_iff.mp h
      obtain ⟨recipient_bytes, -, rfl⟩ := map_eq_ok_iff.mp hfield
      rw [← Except.ok.inj h, padded_fits_iff]
      simp only [List.length_append, List.length_cons, List.length_nil, length_be, length_id8, htwo]
  · rename_i hrecipient
    rw [if_neg (by simpa using hrecipient)]
    rw [← Except.ok.inj h, padded_fits_iff]
    simp only [List.length_append, List.length_cons, List.length_nil, length_be, length_id8, htwo]

/-- A broadcast of a packet that the encoder built works exactly if the packet
fits a frame, or there is no connection to broadcast it to. -/
theorem a_built_packet_can_be_broadcast_iff_it_fits_a_frame {sender : Str} {recipient : Option Str}
    {msg_type : MessageType} {payload : Bytes} {signature : Option Bytes} {draw : Draw}
    {packet : Bytes}
    (hbuilt : create_bitchat_packet_with_recipient sender recipient msg_type payload signature
      draw = .ok packet) (env : Env) (exclude : List Str) (w : World) (hfiled : Filed w.node) :
    BroadcastWorks env packet exclude w ↔
      22 + (if recipient.isSome ∨ msg_type ∉ exclude_recipient_types then 8 else 0) +
          payload.length + (signature.getD []).length ≤ 65535 ∨
        ∀ e ∈ w.node.connections.entries, e.1 ∈ exclude := by
  rw [broadcastWorks_iff env packet exclude hfiled, created_fits_iff hbuilt]

/-! ## On the stand-in -/

end daemon

namespace daemon.standIn

open python bitchat bitchat.protocol

attribute [local instance] bitchat.standIn.packages

/-- A node with two connections. -/
def connected_node : World :=
  (exec (react (env 1) (.connected ⟨['c'], 2, true⟩))
    (exec (react (env 1) (.connected conn)) ⟨node us 1, []⟩).2).2

theorem reachable_connected_node : Reachable connected_node := by
  refine .step (.step ?_ (env 1) (.connected conn) trivial) (env 1) (.connected _) trivial
  exact .start us (some ['n']) (.init [1]) (bitchat.standIn.key 1)

/-- Surroundings in which the first connection fails. -/
def failing : Env := ⟨fun _ => bitchat.standIn.draw 1, fun address => address = conn.address⟩

end daemon.standIn

namespace daemon

open python bitchat bitchat.protocol

attribute [local instance] bitchat.standIn.packages

/-- A message of two bytes, while one of two connections fails. -/
theorem a_short_packet_is_broadcast :
    ∃ packet, create_bitchat_packet_with_recipient standIn.us.str none .MESSAGE [7, 7] none
        (bitchat.standIn.draw 1) = .ok packet ∧
      (BroadcastWorks standIn.failing packet [] standIn.connected_node ↔
        22 + (if (none : Option Str).isSome ∨ MessageType.MESSAGE ∉ exclude_recipient_types then 8
            else 0) + List.length [7, 7] + ((none : Option Bytes).getD []).length ≤ 65535 ∨
          ∀ e ∈ standIn.connected_node.node.connections.entries, e.1 ∈ ([] : List Str)) := by
  obtain ⟨packet, hbuilt, -⟩ := create_ok standIn.us none .MESSAGE [7, 7] none
    (bitchat.standIn.draw 1) (by decide)
  exact ⟨packet, hbuilt, a_built_packet_can_be_broadcast_iff_it_fits_a_frame hbuilt standIn.failing
    [] standIn.connected_node standIn.reachable_connected_node.filed⟩

/-- The encoder takes a payload of 65535 bytes, and the broadcast raises. -/
theorem a_long_packet_is_not_broadcast :
    ∃ packet, create_bitchat_packet_with_recipient standIn.us.str none .MESSAGE
        (List.replicate 65535 7) none (bitchat.standIn.draw 1) = .ok packet ∧
      Reachable standIn.connected_node ∧
      ¬ BroadcastWorks (standIn.env 1) packet [] standIn.connected_node := by
  obtain ⟨packet, hbuilt, -⟩ := create_ok standIn.us none .MESSAGE (List.replicate 65535 7) none
    (bitchat.standIn.draw 1) (by rw [List.length_replicate]; decide)
  refine ⟨packet, hbuilt, standIn.reachable_connected_node, fun hworks => ?_⟩
  rcases (broadcastWorks_iff _ _ _ standIn.reachable_connected_node.filed).mp hworks with
    hfits | hnobody
  · rw [created_fits_iff hbuilt, List.length_replicate] at hfits
    omega
  · exact absurd (hnobody (standIn.conn.address, standIn.conn) List.mem_cons_self) List.not_mem_nil

end daemon
