-- What the calls of a node leave alone. Most of them keep the tables of peers
-- and connections, schedule no relay and deliver no message; what holds through
-- the few calls that do not holds through all of them.
import BitchatNode.Mesh

namespace daemon

open python bitchat bitchat.protocol bitchat.encryption

variable [Packages]

/-! ## Calm relations -/

/-- What most calls leave alone: the node's own id and these tables. -/
structure SameTables (n n' : MeshNode) : Prop where
  my_peer_id : n'.my_peer_id = n.my_peer_id
  peers : n'.peers = n.peers
  peer_addresses : n'.peer_addresses = n.peer_addresses
  connections : n'.connections = n.connections
  processed : n'.processed_messages = n.processed_messages
  bloom : n'.bloom = n.bloom
  blocked : n'.blocked_peers = n.blocked_peers

/-- The sessions and the queues of private messages are the same. -/
structure SameSessions (n n' : MeshNode) : Prop where
  sessions : n'.encryption_service.sessions = n.encryption_service.sessions
  pending : n'.pending_private_messages = n.pending_private_messages

/-- The handshakes are the same, too. -/
structure SameExchanges (n n' : MeshNode) : Prop extends SameSessions n n' where
  handshakes : n'.encryption_service.handshake_states = n.encryption_service.handshake_states

/-- The relation holds through the parts of the calls that open and close no
session and queue no message. -/
structure Steady (env : Env) (R : World → World → Prop) [IsPreorder World R] : Prop where
  adjust : ∀ f : MeshNode → MeshNode, (∀ n, SameTables n (f n)) → (∀ n, SameExchanges n (f n)) →
    Moves R (modifyNode f)
  encrypt : ∀ data peer_id, Moves R (onService (EncryptionService.encrypt data peer_id))
  decrypt : ∀ peer_id data, Moves R (onService (EncryptionService.decrypt_from_peer peer_id data))
  on_delivery_ack : ∀ ack, Moves R (emit (.on_delivery_ack ack))
  saved : ∀ state, Moves R (emit (.saved state))
  send_to_peer : ∀ peer_id packet, Moves R (send_to_peer env peer_id packet)
  raw_send : ∀ packet, Moves R (raw_send env packet)

/-- The relation holds through the parts that the calls of a node are made of,
except those that relay, deliver, take or lose a peer, or change a connection. -/
structure Calm (env : Env) (R : World → World → Prop) [IsPreorder World R] : Prop
    extends Steady env R where
  touch : ∀ f : MeshNode → MeshNode, (∀ n, SameTables n (f n)) → Moves R (modifyNode f)
  service : ∀ {α : Type} (x : Py PyError EncryptionService α), Moves R (onService x)
  later : ∀ task, (∀ raw ttl, task ≠ .relay raw ttl) → Moves R (emit (.later task))
  adjust f hf _ := touch f hf
  encrypt _ _ := service _
  decrypt _ _ := service _

theorem moves_node {R : World → World → Prop} [IsPreorder World R] : Moves R node := fun w =>
  refl_of R w

/-- A send does not read the draws. -/
theorem broadcast_each_skip (env : Env) (k : Nat) (packet : Bytes)
    (conns : List (Str × PeerConnection)) :
    broadcast_each (env.skip k) packet [] conns = broadcast_each env packet [] conns := by
  induction conns with
  | nil => rfl
  | cons e conns ih =>
    obtain ⟨addr, conn⟩ := e
    unfold broadcast_each
    rw [ih]
    rfl

/-! ## Sends and losses -/

section

variable {env : Env} {R : World → World → Prop} [IsPreorder World R]

theorem moves_on_peer_disconnected (hremove : ∀ peer_id, Moves R (remove_peer peer_id))
    (conn : PeerConnection) : Moves R (on_peer_disconnected conn) := by
  unfold on_peer_disconnected
  refine Moves.bind moves_node fun self => ?_
  split
  · exact Moves.ite (hremove _) (Moves.pure ())
  · exact Moves.pure ()

variable
  (hlost : ∀ conn, env.write_fails conn.address = true → Moves R (on_read_done conn))
  (hwrite : ∀ address frame, Moves R (emit (.write address frame)))

include hlost hwrite in
theorem moves_send_packet (conn : PeerConnection) (packet : Bytes) :
    Moves R (send_packet env conn packet) := by
  unfold send_packet
  split
  · exact Moves.throw _
  · refine Moves.bind (Moves.outcome _) fun frame => ?_
    split
    · rename_i hfails
      exact Moves.bind (hlost conn hfails) fun _ => Moves.throw _
    · exact hwrite _ _

include hlost hwrite in
theorem moves_broadcast_each (packet : Bytes) (exclude : List Str)
    (conns : List (Str × PeerConnection)) : Moves R (broadcast_each env packet exclude conns) := by
  induction conns with
  | nil => exact Moves.pure ()
  | cons e conns ih =>
    obtain ⟨addr, conn⟩ := e
    unfold broadcast_each
    apply Moves.ite
    · exact ih
    · refine Moves.bind (Moves.attempt (moves_send_packet hlost hwrite conn packet))
        fun result => ?_
      split
      · exact ih
      · exact ih
      · exact Moves.throw _

include hlost hwrite in
theorem moves_send_to_peer (peer_id : Str) (packet : Bytes) :
    Moves R (send_to_peer env peer_id packet) := by
  unfold send_to_peer
  refine Moves.bind moves_node fun self => ?_
  split
  · exact Moves.pure ()
  · exact moves_send_packet hlost hwrite _ packet

include hlost hwrite in
theorem moves_raw_send (packet : Bytes) : Moves R (raw_send env packet) := by
  unfold raw_send broadcast_packet
  exact Moves.bind moves_node fun self => moves_broadcast_each hlost hwrite packet [] _

end

namespace Steady

variable {env : Env} {R : World → World → Prop} [IsPreorder World R]

theorem answer_handshake (h : Steady env R) (answer : MessageType) (sender_id : Str)
    (response : Option Bytes) : Moves R (answer_handshake answer env sender_id response) := by
  cases response with
  | none => exact Moves.pure ()
  | some response =>
    unfold daemon.answer_handshake
    refine Moves.bind moves_node fun self => ?_
    exact Moves.bind (Moves.outcome _) fun _ => h.send_to_peer _ _

/-! ## ACKs and channels -/

theorem seal_ack (h : Steady env R) (plain : Bytes) (sender_id : Str) (is_private : Bool) :
    Moves R (seal_ack plain sender_id is_private) := by
  unfold daemon.seal_ack
  apply Moves.ite
  · refine Moves.bind (Moves.attempt (h.encrypt _ _)) fun result => ?_
    cases result with
    | ok encrypted => exact Moves.pure _
    | error e => exact Moves.pure _
  · exact Moves.pure _

theorem send_delivery_ack (h : Steady env R) (message_id sender_id : Str) (is_private : Bool) :
    Moves R (send_delivery_ack env message_id sender_id is_private) := by
  unfold daemon.send_delivery_ack
  refine Moves.bind moves_node fun self => ?_
  split
  · refine Moves.bind (h.adjust _ (fun _ => ⟨rfl, rfl, rfl, rfl, rfl, rfl, rfl⟩)
      fun _ => ⟨⟨rfl, rfl⟩, rfl⟩) fun _ => ?_
    refine Moves.bind (h.seal_ack _ sender_id is_private) fun payload => ?_
    exact Moves.bind (Moves.outcome _) fun _ => h.send_to_peer _ _
  · exact Moves.pure ()

theorem acknowledge (h : Steady env R) (message : BitchatMessage) (sender_id : Str)
    (is_private : Bool) : Moves R (acknowledge env message sender_id is_private) := by
  unfold daemon.acknowledge
  refine Moves.bind moves_node fun self => ?_
  apply Moves.ite
  · exact h.send_delivery_ack _ _ _
  · exact Moves.pure ()

theorem open_ack (h : Steady env R) (packet : BitchatPacket) : Moves R (open_ack packet) := by
  unfold daemon.open_ack
  refine Moves.bind moves_node fun self => ?_
  apply Moves.ite
  · refine Moves.bind (Moves.attempt (h.decrypt _ _)) fun result => ?_
    cases result with
    | ok decrypted => exact Moves.pure _
    | error e => exact Moves.pure _
  · exact Moves.pure _

theorem take_ack (h : Steady env R) (ack : DeliveryAck) : Moves R (take_ack ack) := by
  unfold daemon.take_ack
  refine Moves.bind moves_node fun self => ?_
  split
  · exact Moves.pure ()
  · refine Moves.bind (h.adjust _ (fun _ => ⟨rfl, rfl, rfl, rfl, rfl, rfl, rfl⟩)
      fun _ => ⟨⟨rfl, rfl⟩, rfl⟩) fun _ => ?_
    apply Moves.ite
    · exact h.on_delivery_ack ack
    · exact Moves.pure ()

theorem save_state (h : Steady env R) : Moves R save_state := by
  unfold daemon.save_state
  refine Moves.bind (h.adjust _ (fun _ => ⟨rfl, rfl, rfl, rfl, rfl, rfl, rfl⟩)
    fun _ => ⟨⟨rfl, rfl⟩, rfl⟩) fun _ => ?_
  exact Moves.bind moves_node fun _ => h.saved _

theorem handle_channel_announce (h : Steady env R) (packet : BitchatPacket) :
    Moves R (handle_channel_announce packet) := by
  unfold daemon.handle_channel_announce
  split
  · refine Moves.bind (h.adjust _ (fun _ => ⟨rfl, rfl, rfl, rfl, rfl, rfl, rfl⟩)
      fun _ => ⟨⟨rfl, rfl⟩, rfl⟩) fun _ => ?_
    exact h.save_state
  · exact Moves.pure ()

/-! ## Messages -/

section

variable {packet : BitchatPacket} {raw : Bytes} (hrelay : Moves R (relay raw packet.ttl))
  (hdeliver : ∀ message is_private w, message.id ∉ w.node.processed_messages →
    R w (exec (deliver message packet.sender_id_str is_private) w).2)

include hrelay hdeliver in
theorem accept_message (h : Steady env R) (is_private : Bool) (payload : Bytes) :
    Moves R (accept_message env packet raw is_private payload) := by
  unfold daemon.accept_message
  refine Moves.bind (Moves.outcome _) fun message => ?_
  intro w
  rw [exec_bind_ok _ (exec_node w), exec_ite]
  split
  · exact refl_of R w
  · rename_i hnew
    refine Moves.bind_from (hdeliver _ is_private w hnew) fun _ => ?_
    exact Moves.bind (h.acknowledge message _ is_private) fun _ => hrelay

include hrelay hdeliver in
theorem handle_message (h : Steady env R) :
    Moves R (handle_message env packet raw) := by
  unfold daemon.handle_message
  refine Moves.bind moves_node fun self => ?_
  refine Moves.ite (Moves.pure ()) ?_
  refine Moves.ite (Moves.suppress (h.accept_message hrelay hdeliver false _)) ?_
  refine Moves.ite ?_ hrelay
  refine Moves.bind (Moves.attempt (h.decrypt _ _)) fun result => ?_
  split
  · exact Moves.suppress (h.accept_message hrelay hdeliver true _)
  · exact Moves.pure ()
  · exact Moves.throw _

include hdeliver in
theorem accept_encrypted (h : Steady env R) (decrypted : Bytes) :
    Moves R (accept_encrypted env packet.sender_id_str decrypted) := by
  unfold daemon.accept_encrypted
  apply Moves.ite
  · refine Moves.bind (Moves.outcome _) fun inner_packet => ?_
    apply Moves.ite
    · refine Moves.bind (Moves.outcome _) fun message => ?_
      intro w
      rw [exec_bind_ok _ (exec_node w), exec_ite]
      split
      · exact refl_of R w
      · rename_i hnew
        refine Moves.bind_from (hdeliver _ true w hnew) fun _ => ?_
        exact h.send_delivery_ack _ _ true
    · exact Moves.pure ()
  · exact Moves.pure ()

include hdeliver in
theorem handle_noise_encrypted (h : Steady env R) :
    Moves R (handle_noise_encrypted env packet) := by
  unfold daemon.handle_noise_encrypted
  refine Moves.bind moves_node fun self => ?_
  refine Moves.ite (Moves.pure ()) ?_
  apply Moves.suppress
  refine Moves.bind (h.decrypt _ _) fun decrypted => ?_
  exact h.accept_encrypted hdeliver decrypted

include hrelay in
theorem handle_delivery_ack (h : Steady env R) : Moves R (handle_delivery_ack packet raw) := by
  unfold daemon.handle_delivery_ack
  refine Moves.bind moves_node fun self => ?_
  refine Moves.ite ?_ hrelay
  refine Moves.bind (h.open_ack packet) fun payload => ?_
  split
  · exact h.take_ack _
  · exact Moves.pure ()

include hrelay in
/-- The handlers of the handshakes are left open. -/
theorem handler (h : Steady env R)
    (hdeliver : packet.msg_type = .MESSAGE ∨ packet.msg_type = .NOISE_ENCRYPTED →
      ∀ message is_private w, message.id ∉ w.node.processed_messages →
        R w (exec (deliver message packet.sender_id_str is_private) w).2)
    (hannounce : packet.msg_type = .ANNOUNCE → Moves R (handle_announce packet))
    (hidentity : packet.msg_type = .NOISE_IDENTITY_ANNOUNCE →
      Moves R (daemon.handle_noise_identity_announce env packet))
    (hleave : packet.msg_type = .LEAVE → Moves R (take_leave packet))
    (hhandshake : packet.msg_type = .NOISE_HANDSHAKE_INIT ∨
      packet.msg_type = .NOISE_HANDSHAKE_RESP →
      ∀ answer, Moves R (daemon.handle_noise_handshake answer env packet))
    (hkey : packet.msg_type = .KEY_EXCHANGE → Moves R (daemon.handle_key_exchange env packet)) :
    ∀ task ∈ handler env packet raw, Moves R task := by
  intro task htask
  unfold daemon.handler at htask
  split at htask <;> cases htask
  · rename_i htype
    exact hannounce htype
  · rename_i htype
    exact h.handle_message hrelay (hdeliver (.inl htype))
  · rename_i htype
    exact hidentity htype
  · rename_i htype
    exact hhandshake (.inl htype) _
  · rename_i htype
    exact hhandshake (.inr htype) _
  · rename_i htype
    exact h.handle_noise_encrypted (hdeliver (.inr htype))
  · rename_i htype
    exact Moves.bind (hleave htype) fun _ => hrelay
  · exact h.handle_channel_announce packet
  · rename_i htype
    exact hkey htype
  · exact h.handle_delivery_ack hrelay

end

/-! ## Sending -/

theorem send_announce (h : Steady env R) : Moves R (send_announce env) := by
  unfold daemon.send_announce
  refine Moves.bind moves_node fun self => ?_
  exact Moves.bind (Moves.outcome _) fun packet => h.raw_send packet

theorem send_identity_announce (h : Steady env R) : Moves R (send_identity_announce env) := by
  unfold daemon.send_identity_announce
  refine Moves.bind moves_node fun self => ?_
  refine Moves.bind (Moves.outcome _) fun payload => ?_
  exact Moves.bind (Moves.outcome _) fun packet => h.raw_send packet

theorem send_channel_announce (h : Steady env R) (channel : Str) (is_protected : Bool)
    (key_commitment : Option Str) :
    Moves R (send_channel_announce env channel is_protected key_commitment) := by
  unfold daemon.send_channel_announce
  refine Moves.bind moves_node fun self => ?_
  exact Moves.bind (Moves.outcome _) fun packet => h.raw_send _

theorem send_leave (h : Steady env R) : Moves R (send_leave env) := by
  unfold daemon.send_leave
  refine Moves.bind moves_node fun self => ?_
  exact Moves.bind (Moves.outcome _) fun packet => h.raw_send packet

theorem send_public_message (h : Steady env R) (content : Str) (channel : Option Str) :
    Moves R (send_public_message env content channel) := by
  unfold daemon.send_public_message
  refine Moves.bind moves_node fun self => ?_
  refine Moves.bind (Moves.outcome _) fun built => ?_
  refine Moves.bind (h.adjust _ (fun _ => ⟨rfl, rfl, rfl, rfl, rfl, rfl, rfl⟩)
    fun _ => ⟨⟨rfl, rfl⟩, rfl⟩) fun _ => ?_
  refine Moves.bind (Moves.outcome _) fun packet => ?_
  exact Moves.bind (h.raw_send packet) fun _ => Moves.pure _

theorem encrypt_private_message (h : Steady env R) (content target_peer_id : Str) :
    Moves R (encrypt_private_message env content target_peer_id) := by
  unfold daemon.encrypt_private_message
  refine Moves.bind moves_node fun self => ?_
  refine Moves.bind (Moves.outcome _) fun built => ?_
  refine Moves.bind (h.adjust _ (fun _ => ⟨rfl, rfl, rfl, rfl, rfl, rfl, rfl⟩)
    fun _ => ⟨⟨rfl, rfl⟩, rfl⟩) fun _ => ?_
  refine Moves.bind (Moves.outcome _) fun inner_packet => ?_
  refine Moves.bind (h.encrypt _ _) fun encrypted => ?_
  refine Moves.bind (Moves.outcome _) fun outer_packet => ?_
  exact Moves.bind (h.send_to_peer _ _) fun _ => Moves.pure _

end Steady

namespace Calm

variable {env : Env} {R : World → World → Prop} [IsPreorder World R]

theorem mono {Q : World → World → Prop} [IsPreorder World Q] (h : Calm env R)
    (hsub : ∀ w w', R w w' → Q w w') : Calm env Q where
  touch f hf := (h.touch f hf).mono hsub
  service x := (h.service x).mono hsub
  later task htask := (h.later task htask).mono hsub
  on_delivery_ack ack := (h.on_delivery_ack ack).mono hsub
  saved state := (h.saved state).mono hsub
  send_to_peer peer_id packet := (h.send_to_peer peer_id packet).mono hsub
  raw_send packet := (h.raw_send packet).mono hsub

theorem skip (h : Calm env R) (k : Nat) : Calm (env.skip k) R :=
  { h with
    send_to_peer := fun peer_id packet => h.send_to_peer peer_id packet
    raw_send := fun packet => by
      have hsame : daemon.raw_send (env.skip k) packet = daemon.raw_send env packet := by
        unfold daemon.raw_send broadcast_packet
        simp only [broadcast_each_skip]
      rw [hsame]
      exact h.raw_send packet }

/-! ## Handshakes -/

theorem initiate_handshake (h : Calm env R) (peer_id : Str) :
    Moves R (initiate_handshake env peer_id) := by
  unfold daemon.initiate_handshake
  apply Moves.suppress
  refine Moves.bind (h.service _) fun msg => ?_
  refine Moves.bind moves_node fun self => ?_
  refine Moves.bind (Moves.outcome _) fun packet => ?_
  exact h.send_to_peer peer_id _

theorem handle_noise_identity_announce (h : Calm env R)
    (hannounced : ∀ peer_id nickname, Moves R (announced peer_id nickname))
    (packet : BitchatPacket) : Moves R (handle_noise_identity_announce env packet) := by
  unfold daemon.handle_noise_identity_announce
  refine Moves.bind moves_node fun self => ?_
  split
  · exact Moves.pure ()
  · split
    · exact Moves.pure ()
    · refine Moves.bind (hannounced _ _) fun _ => ?_
      split
      · exact h.initiate_handshake _
      · exact Moves.pure ()

theorem send_pending_private_messages (h : Calm env R) (peer_id : Str) :
    Moves R (send_pending_private_messages peer_id) := by
  unfold daemon.send_pending_private_messages
  refine Moves.bind moves_node fun self => ?_
  refine Moves.bind (h.touch _ fun _ => ⟨rfl, rfl, rfl, rfl, rfl, rfl, rfl⟩) fun _ => ?_
  apply Moves.ite
  · exact Moves.pure ()
  · exact h.later _ (by simp)

theorem process_handshake_message (h : Calm env R) (peer_id : Str) (message : Bytes) :
    Moves R (process_handshake_message env peer_id message) := by
  unfold daemon.process_handshake_message
  refine Moves.bind (h.service _) fun answer => ?_
  obtain ⟨response, authenticated⟩ := answer
  refine Moves.bind ?_ fun _ => Moves.pure _
  rcases authenticated with _ | ⟨peer_id, fingerprint⟩
  · exact Moves.pure ()
  · exact h.later _ (by simp)

theorem session_established (h : Calm env R) (sender_id : Str) :
    Moves R (session_established sender_id) := by
  unfold daemon.session_established
  refine Moves.bind moves_node fun self => ?_
  apply Moves.ite
  · refine Moves.bind (h.touch _ fun _ => ⟨rfl, rfl, rfl, rfl, rfl, rfl, rfl⟩) fun _ => ?_
    exact h.send_pending_private_messages sender_id
  · exact Moves.pure ()

theorem handle_noise_handshake (h : Calm env R) (answer : MessageType) (packet : BitchatPacket) :
    Moves R (handle_noise_handshake answer env packet) := by
  unfold daemon.handle_noise_handshake
  refine Moves.bind moves_node fun self => ?_
  apply Moves.ite
  · exact Moves.pure ()
  · refine Moves.bind (Moves.attempt ?_) fun result => ?_
    · refine Moves.bind (h.process_handshake_message _ _) fun response => ?_
      refine Moves.bind (h.answer_handshake answer _ response) fun _ => ?_
      exact h.session_established _
    · cases result with
      | ok _ => exact Moves.pure ()
      | error e => exact h.touch _ fun _ => ⟨rfl, rfl, rfl, rfl, rfl, rfl, rfl⟩

theorem handle_key_exchange (h : Calm env R) (packet : BitchatPacket) :
    Moves R (handle_key_exchange env packet) := by
  unfold daemon.handle_key_exchange
  apply Moves.suppress
  refine Moves.bind moves_node fun self => ?_
  refine Moves.bind (h.process_handshake_message _ _) fun response => ?_
  cases response with
  | none => exact Moves.pure ()
  | some response =>
    exact Moves.bind (Moves.outcome _) fun _ => h.send_to_peer _ _

/-! ## Private messages -/

theorem attempt_handshake (h : Calm env R) (target_peer_id : Str) (current_time : UInt64) :
    Moves R (attempt_handshake env target_peer_id current_time) := by
  unfold daemon.attempt_handshake
  refine Moves.bind (h.touch _ fun _ => ⟨rfl, rfl, rfl, rfl, rfl, rfl, rfl⟩) fun _ => ?_
  exact h.initiate_handshake target_peer_id

theorem attempt_if_due (h : Calm env R) (target_peer_id : Str) (current_time : UInt64) :
    Moves R (attempt_if_due env target_peer_id current_time) := by
  unfold daemon.attempt_if_due
  refine Moves.bind moves_node fun self => ?_
  split
  · apply Moves.ite
    · exact Moves.pure ()
    · exact h.attempt_handshake _ _
  · exact h.attempt_handshake _ _

theorem send_private_message (h : Calm env R) (content target_peer_id target_nickname : Str)
    (message_id : Option Str) :
    Moves R (send_private_message env content target_peer_id target_nickname message_id) := by
  unfold daemon.send_private_message
  refine Moves.bind moves_node fun self => ?_
  apply Moves.ite
  · exact h.encrypt_private_message content target_peer_id
  · unfold queue_private_message
    refine Moves.bind moves_node fun self => ?_
    refine Moves.bind (h.touch _ fun _ => ⟨rfl, rfl, rfl, rfl, rfl, rfl, rfl⟩) fun _ => ?_
    exact Moves.bind ((h.skip 2).attempt_if_due _ _) fun _ => Moves.pure _

/-- A task that was put off. -/
theorem run_later (h : Calm env R) (task : Later) : Moves R (run_later env task) := by
  cases task with
  | relay raw ttl => exact h.raw_send _
  | send_pending_private_messages peer_id => exact h.send_pending_private_messages peer_id
  | send_each peer_id messages =>
    cases messages with
    | nil => exact Moves.pure ()
    | cons m rest =>
      unfold daemon.run_later
      refine Moves.bind (Moves.suppress (h.send_private_message _ _ _ _)) fun _ => ?_
      unfold sleep_before_next
      apply Moves.ite
      · exact Moves.pure ()
      · exact h.later _ (by simp)

end Calm

/-! ## Quiet calls -/

/-- From `w` to `w'` no relay was scheduled, no message was delivered, and no
message id was recorded or counted. -/
structure Quiet (w w' : World) : Prop where
  relays : relays w'.out = relays w.out
  deliveries : deliveries w'.out = deliveries w.out
  processed : w'.node.processed_messages = w.node.processed_messages
  bloom : w'.node.bloom = w.node.bloom

instance : IsPreorder World Quiet where
  refl _ := ⟨rfl, rfl, rfl, rfl⟩
  trans _ _ _ h g := ⟨g.relays.trans h.relays, g.deliveries.trans h.deliveries,
    g.processed.trans h.processed, g.bloom.trans h.bloom⟩

theorem quiet_emit {action : Action} (hr : relays [action] = []) (hd : deliveries [action] = []) :
    Moves Quiet (emit action) := by
  intro w
  refine ⟨?_, ?_, rfl, rfl⟩
  · show relays (w.out ++ [action]) = _
    unfold relays at hr ⊢
    rw [List.filterMap_append, hr, List.append_nil]
  · show deliveries (w.out ++ [action]) = _
    unfold deliveries at hd ⊢
    rw [List.filterMap_append, hd, List.append_nil]

theorem quiet_modifyNode {f : MeshNode → MeshNode}
    (h : ∀ n, (f n).processed_messages = n.processed_messages ∧ (f n).bloom = n.bloom) :
    Moves Quiet (modifyNode f) := fun w => ⟨rfl, rfl, (h w.node).1, (h w.node).2⟩

theorem quiet_remove_peer (peer_id : Str) : Moves Quiet (remove_peer peer_id) := by
  unfold remove_peer
  refine Moves.bind moves_node fun self => ?_
  refine Moves.bind (quiet_modifyNode fun _ => ⟨rfl, rfl⟩) fun _ => ?_
  apply Moves.ite
  · exact quiet_emit rfl rfl
  · exact Moves.pure ()

theorem quiet_on_peer_disconnected (conn : PeerConnection) :
    Moves Quiet (on_peer_disconnected conn) := moves_on_peer_disconnected quiet_remove_peer conn

theorem quiet_on_read_done (conn : PeerConnection) : Moves Quiet (on_read_done conn) := by
  unfold on_read_done
  refine Moves.bind (quiet_modifyNode fun _ => ⟨rfl, rfl⟩) fun _ => ?_
  exact quiet_on_peer_disconnected conn

theorem quiet_announced (peer_id nickname : Str) : Moves Quiet (announced peer_id nickname) := by
  unfold announced
  refine Moves.bind moves_node fun self => ?_
  refine Moves.bind (quiet_modifyNode fun _ => ⟨rfl, rfl⟩) fun _ => ?_
  split
  · exact Moves.pure ()
  · exact quiet_emit rfl rfl

theorem exec_announced (peer_id nickname : Str) (w : World) :
    (exec (announced peer_id nickname) w).1 = .ok () ∧
      (exec (announced peer_id nickname) w).2.node =
        { w.node with peers := w.node.peers.set peer_id ⟨some nickname⟩ } := by
  unfold announced
  simp only [exec_bind, exec_node, exec_modifyNode]
  split <;> exact ⟨rfl, rfl⟩

/-- Through quiet calls alone no message comes in or goes further. -/
theorem calm_quiet (env : Env) : Calm env Quiet where
  touch _ h := quiet_modifyNode fun n => ⟨(h n).processed, (h n).bloom⟩
  service _ _ := ⟨rfl, rfl, rfl, rfl⟩
  later task htask := by
    cases task with
    | relay raw ttl => exact absurd rfl (htask raw ttl)
    | send_pending_private_messages peer_id => exact quiet_emit rfl rfl
    | send_each peer_id messages => exact quiet_emit rfl rfl
  on_delivery_ack _ := quiet_emit rfl rfl
  saved _ := quiet_emit rfl rfl
  send_to_peer :=
    moves_send_to_peer (fun conn _ => quiet_on_read_done conn) fun _ _ => quiet_emit rfl rfl
  raw_send := moves_raw_send (fun conn _ => quiet_on_read_done conn) fun _ _ => quiet_emit rfl rfl

end daemon
