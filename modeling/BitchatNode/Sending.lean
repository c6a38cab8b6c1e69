-- What goes on the wire. A packet of at most 65535 bytes goes out in one frame
-- on every connection that takes it; a longer one raises at the first.
import BitchatNode.Footprint

namespace daemon

open python bitchat bitchat.protocol

variable [Packages]

/-! ## Observations of the actions -/

theorem relays_append (a b : List Action) : relays (a ++ b) = relays a ++ relays b :=
  List.filterMap_append

theorem deliveries_append (a b : List Action) :
    deliveries (a ++ b) = deliveries a ++ deliveries b := List.filterMap_append

theorem writes_append (a b : List Action) : writes (a ++ b) = writes a ++ writes b :=
  List.filterMap_append

/-- The frames written from `w` to `w'`, each with its address. -/
def new_writes (w w' : World) : List (Str × Bytes) := (writes w'.out).drop (writes w.out).length

theorem new_writes_eq {w w' : World} {new : List (Str × Bytes)}
    (h : writes w'.out = writes w.out ++ new) : new_writes w w' = new := by
  unfold new_writes
  rw [h, List.drop_left]

/-! ## One connection -/

omit [Packages] in
/-- The larger bound never bites. -/
theorem not_too_large {packet : Bytes} (h : packet.length ≤ 65535) :
    ¬ MAX_PACKET_SIZE < packet.length := by
  unfold MAX_PACKET_SIZE
  omega

/-- The frame that holds the packet. -/
def framed (packet : Bytes) : Bytes := be 2 packet.length ++ packet

omit [Packages] in
theorem frame_ok {packet : Bytes} (h : packet.length ≤ 65535) :
    frame packet = .ok (framed packet) := by
  have hlt : packet.length < 65536 := by omega
  unfold frame packH
  rw [if_pos hlt]
  rfl

omit [Packages] in
theorem frame_error {packet : Bytes} (h : ¬ packet.length ≤ 65535) :
    frame packet = .error .StructError := by
  have hlt : ¬ packet.length < 65536 := by omega
  unfold frame packH
  rw [if_neg hlt]
  rfl

theorem exec_send_packet {env : Env} {conn : PeerConnection} {packet : Bytes}
    (h : packet.length ≤ 65535) (hw : env.write_fails conn.address = false) (w : World) :
    exec (send_packet env conn packet) w =
      (.ok (), { w with out := w.out ++ [.write conn.address (framed packet)] }) := by
  unfold send_packet
  rw [if_neg (not_too_large h), frame_ok h]
  simp [hw]

theorem remove_peer_returns (peer_id : Str) (w : World) :
    (exec (remove_peer peer_id) w).1 = .ok () := by
  unfold remove_peer
  simp only [exec_bind, exec_node, exec_modifyNode, exec_ite, exec_emit, exec_pure]
  split <;> rfl

theorem on_read_done_returns (conn : PeerConnection) (w : World) :
    (exec (on_read_done conn) w).1 = .ok () := by
  unfold on_read_done on_peer_disconnected
  simp only [exec_bind, exec_node, exec_modifyNode]
  split
  · rw [exec_ite]
    split
    · exact remove_peer_returns _ _
    · rfl
  · rfl

/-- A write that fails takes the connection down and writes nothing. -/
theorem exec_send_packet_fails {env : Env} {conn : PeerConnection} {packet : Bytes}
    (h : packet.length ≤ 65535) (hw : env.write_fails conn.address = true) (w : World) :
    exec (send_packet env conn packet) w =
      (.error .ConnectionError, (exec (on_read_done conn) w).2) := by
  unfold send_packet
  rw [if_neg (not_too_large h), frame_ok h]
  have hdone := on_read_done_returns conn w
  rcases hread : exec (on_read_done conn) w with ⟨result, w'⟩
  rw [hread] at hdone
  subst hdone
  simp only [exec_bind, exec_outcome_ok, hw, if_true, hread, exec_throw]

/-- A packet over 65535 bytes does not fit a frame. -/
theorem exec_send_packet_long (env : Env) (conn : PeerConnection) {packet : Bytes}
    (h : ¬ packet.length ≤ 65535) (w : World) :
    ∃ e, e ≠ .ConnectionError ∧ exec (send_packet env conn packet) w = (.error e, w) := by
  unfold send_packet
  by_cases hmax : MAX_PACKET_SIZE < packet.length
  · rw [if_pos hmax]
    exact ⟨_, by simp, rfl⟩
  · rw [if_neg hmax, frame_error h]
    exact ⟨_, by simp, rfl⟩

/-- What a failed write does is not seen on the wire. -/
theorem writes_on_read_done (conn : PeerConnection) (w : World) :
    writes (exec (on_read_done conn) w).2.out = writes w.out := by
  unfold on_read_done on_peer_disconnected remove_peer
  simp only [exec_bind, exec_node, exec_modifyNode]
  split
  · simp only [exec_ite, exec_bind, exec_node, exec_modifyNode, exec_emit, exec_pure]
    split
    · split
      · rw [writes_append]
        exact List.append_nil _
      · rfl
    · rfl
  · rfl

/-- `_send_to_peer` returns if there is no connection, or if the packet fits
and the write works. -/
theorem send_to_peer_returns_iff (env : Env) (peer_id : Str) (packet : Bytes) (w : World) :
    (exec (send_to_peer env peer_id packet) w).1 = .ok () ↔
      ∀ conn, w.node.get_conn_for_peer peer_id = some conn →
        packet.length ≤ 65535 ∧ env.write_fails conn.address = false := by
  unfold send_to_peer
  simp only [exec_bind, exec_node]
  rcases hconn : w.node.get_conn_for_peer peer_id with _ | conn
  · simp
  · simp only [Option.some.injEq, forall_eq']
    by_cases hlen : packet.length ≤ 65535
    · rcases hw : env.write_fails conn.address with _ | _
      · simp [exec_send_packet hlen hw, hlen]
      · simp [exec_send_packet_fails hlen hw]
    · obtain ⟨e, -, he⟩ := exec_send_packet_long env conn hlen w
      simp [he, hlen]

theorem exec_send_to_peer {env : Env} {peer_id : Str} {packet : Bytes} {conn : PeerConnection}
    {w : World} (hconn : w.node.get_conn_for_peer peer_id = some conn)
    (h : packet.length ≤ 65535) (hw : env.write_fails conn.address = false) :
    exec (send_to_peer env peer_id packet) w =
      (.ok (), { w with out := w.out ++ [.write conn.address (framed packet)] }) := by
  unfold send_to_peer
  simp only [exec_bind, exec_node, hconn]
  exact exec_send_packet h hw w

/-- A send that is not possible writes nothing. -/
theorem writes_send_to_peer_fails {env : Env} {peer_id : Str} {packet : Bytes} {w : World}
    (h : ¬ (packet.length ≤ 65535 ∧
      ∃ conn ∈ w.node.get_conn_for_peer peer_id, env.write_fails conn.address = false)) :
    writes (exec (send_to_peer env peer_id packet) w).2.out = writes w.out := by
  unfold send_to_peer
  simp only [exec_bind, exec_node]
  rcases hconn : w.node.get_conn_for_peer peer_id with _ | conn
  · rfl
  · by_cases hlength : packet.length ≤ 65535
    · have hfails : env.write_fails conn.address = true := by
        rw [← Bool.not_eq_false]
        intro hopen
        exact h ⟨hlength, conn, hconn, hopen⟩
      simp only [exec_send_packet_fails hlength hfails]
      exact writes_on_read_done conn w
    · obtain ⟨e, -, hexec⟩ := exec_send_packet_long env conn hlength w
      simp only [hexec]

/-! ## All connections -/

/-- A packet that fits is written on every connection that is not excluded and
takes it. -/
theorem writes_broadcast_each {env : Env} {packet : Bytes} (h : packet.length ≤ 65535)
    (exclude : List Str) (conns : List (Str × PeerConnection)) (w : World) :
    (exec (broadcast_each env packet exclude conns) w).1 = .ok () ∧
      writes (exec (broadcast_each env packet exclude conns) w).2.out = writes w.out ++
        (conns.filter fun e => e.1 ∉ exclude ∧ env.write_fails e.2.address = false).map fun e =>
          (e.2.address, framed packet) := by
  induction conns generalizing w with
  | nil => exact ⟨rfl, by simp [broadcast_each]⟩
  | cons e conns ih =>
    obtain ⟨addr, conn⟩ := e
    unfold broadcast_each
    by_cases hexclude : addr ∈ exclude
    · rw [if_pos hexclude, List.filter_cons]
      simp only [hexclude, not_true_eq_false, false_and, decide_false, Bool.false_eq_true, if_false]
      exact ih w
    · rw [if_neg hexclude]
      rcases hw : env.write_fails conn.address with _ | _
      · simp only [exec_bind, exec_attempt, exec_send_packet h hw]
        obtain ⟨hok, hwrites⟩ := ih { w with out := w.out ++ [.write conn.address (framed packet)] }
        refine ⟨hok, ?_⟩
        rw [hwrites, writes_append, List.filter_cons]
        simp [hw, hexclude, writes]
      · simp only [exec_bind, exec_attempt, exec_send_packet_fails h hw]
        obtain ⟨hok, hwrites⟩ := ih (exec (on_read_done conn) w).2
        refine ⟨hok, ?_⟩
        rw [hwrites, writes_on_read_done, List.filter_cons]
        simp [hw]

/-- A packet that does not fit raises at the first connection that is not
excluded, and is written nowhere. -/
theorem exec_broadcast_each_long {env : Env} {packet : Bytes} (h : ¬ packet.length ≤ 65535)
    (exclude : List Str) (conns : List (Str × PeerConnection)) (w : World) :
    ((exec (broadcast_each env packet exclude conns) w).1 = .ok () ↔ ∀ e ∈ conns, e.1 ∈ exclude) ∧
      (exec (broadcast_each env packet exclude conns) w).2 = w := by
  induction conns with
  | nil => exact ⟨by simp [broadcast_each], rfl⟩
  | cons e conns ih =>
    obtain ⟨addr, conn⟩ := e
    unfold broadcast_each
    by_cases hexclude : addr ∈ exclude
    · rw [if_pos hexclude]
      simp only [List.mem_cons, forall_eq_or_imp, hexclude, true_and]
      exact ih
    · obtain ⟨e, hne, he⟩ := exec_send_packet_long env conn h w
      rw [if_neg hexclude]
      simp only [exec_bind, exec_attempt, he, List.mem_cons, forall_eq_or_imp, hexclude, false_and,
        iff_false]
      exact ⟨by cases e <;> simp at hne ⊢, rfl⟩

theorem exec_raw_send_long {packet : Bytes} (h : ¬ packet.length ≤ 65535) (env : Env) (w : World) :
    (exec (raw_send env packet) w).2 = w := by
  unfold raw_send broadcast_packet
  simp only [exec_bind, exec_node]
  exact (exec_broadcast_each_long h [] _ w).2

/-- What `_raw_send` writes. -/
theorem writes_raw_send (env : Env) (packet : Bytes) (w : World) :
    writes (exec (raw_send env packet) w).2.out = writes w.out ++
      if packet.length ≤ 65535 then
        (w.node.connections.entries.filter fun e => !env.write_fails e.2.address).map fun e =>
          (e.2.address, framed packet)
      else [] := by
  split
  · rename_i h
    unfold raw_send broadcast_packet
    simp only [exec_bind, exec_node, (writes_broadcast_each h [] _ w).2]
    simp
  · rename_i h
    rw [exec_raw_send_long h, List.append_nil]

end daemon
