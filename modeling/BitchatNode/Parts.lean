-- The parts that the events of a node are made of, as far as its sessions, its
-- delivery tracker and its tables of channels go. What holds through each part
-- holds through every event.
import BitchatNode.Runs
import BitchatNode.MessageCodec

namespace daemon

open python bitchat bitchat.protocol bitchat.encryption

variable [Packages]

/-! ## Parts -/

/-- The id of the node, its sessions and its delivery tracker are the same. -/
structure SameDealings (n n' : MeshNode) : Prop where
  my_peer_id : n'.my_peer_id = n.my_peer_id
  sessions : n'.encryption_service.sessions = n.encryption_service.sessions
  tracker : n'.delivery_tracker = n.delivery_tracker

/-- What `_remove_peer` does to the node. -/
def without_peer (peer_id : Str) (self : MeshNode) : MeshNode :=
  { self with
    peers := self.peers.pop peer_id
    peer_addresses := self.peer_addresses.pop peer_id
    pending_private_messages := self.pending_private_messages.pop peer_id
    encryption_service := self.encryption_service.remove_session peer_id }

/-- The id is that of a packet's sender: some bytes in hex. -/
def InHex (peer_id : Str) : Prop := ∃ id, hex id = peer_id

/-- The relation holds through every part. -/
structure Parts (R : World → World → Prop) [IsPreorder World R] : Prop where
  plain : ∀ f : MeshNode → MeshNode, (∀ n, SameDealings n (f n)) → Moves R (modifyNode f)
  emit : ∀ action, (∀ ack, action ≠ .on_delivery_ack ack) → Moves R (emit action)
  lose : ∀ peer_id, Moves R (modifyNode (without_peer peer_id))
  encrypt : ∀ data peer_id, Moves R (onService (EncryptionService.encrypt data peer_id))
  decrypt : ∀ peer_id data, Moves R (onService (EncryptionService.decrypt_from_peer peer_id data))
  initiate : ∀ peer_id generated,
    Moves R (onService (EncryptionService.initiate_handshake peer_id generated))
  process : ∀ peer_id message generated now, InHex peer_id → Moves R (onService
    (EncryptionService.process_handshake_message peer_id message generated now))
  acknowledged : ∀ message_id, Moves R (modifyNode fun self => { self with
    delivery_tracker := (self.delivery_tracker.should_send_ack (ack_id self message_id)).2 })
  track : ∀ message_id content is_private now, Moves R (modifyNode fun self => { self with
    delivery_tracker := self.delivery_tracker.track_message message_id content is_private now })
  take_ack : ∀ ack, Moves R (take_ack ack)

/-- The tables of channels are the same. -/
structure SameChannels (n n' : MeshNode) : Prop where
  creators : n'.channel_creators = n.channel_creators
  protected_channels : n'.password_protected_channels = n.password_protected_channels
  commitments : n'.channel_key_commitments = n.channel_key_commitments
  keys : n'.channel_keys = n.channel_keys
  discovered : n'.discovered_channels = n.discovered_channels

/-- The relation holds through the parts that tables of channels, ACKs that
come in and messages that go out have nothing to do with. -/
structure CommonParts (R : World → World → Prop) [IsPreorder World R] : Prop where
  plain : ∀ f : MeshNode → MeshNode, (∀ n, SameDealings n (f n)) → (∀ n, SameChannels n (f n)) →
    Moves R (modifyNode f)
  emit : ∀ action, (∀ ack, action ≠ .on_delivery_ack ack) → Moves R (emit action)
  lose : ∀ peer_id, Moves R (modifyNode (without_peer peer_id))
  encrypt : ∀ data peer_id, Moves R (onService (EncryptionService.encrypt data peer_id))
  decrypt : ∀ peer_id data, Moves R (onService (EncryptionService.decrypt_from_peer peer_id data))
  initiate : ∀ peer_id generated,
    Moves R (onService (EncryptionService.initiate_handshake peer_id generated))
  process : ∀ peer_id message generated now, InHex peer_id → Moves R (onService
    (EncryptionService.process_handshake_message peer_id message generated now))
  acknowledged : ∀ message_id, Moves R (modifyNode fun self => { self with
    delivery_tracker := (self.delivery_tracker.should_send_ack (ack_id self message_id)).2 })

/-- The relation holds through the tracking of the message. -/
def Tracks (R : World → World → Prop) (message_id : Str) : Prop :=
  ∀ content is_private now, Moves R (modifyNode fun self => { self with
    delivery_tracker := self.delivery_tracker.track_message message_id content is_private now })

/-- The id of the message that the event sends, if it sends one. -/
def message_id_of (env : Env) : Event → Option Str
  | .public_message _ _ => some (env.draw 1).uuid.str
  | .private_message _ _ _ _ | .later (.send_each _ (_ :: _)) => some (env.draw 0).uuid.str
  | _ => none

theorem Parts.common {R : World → World → Prop} [IsPreorder World R] (h : Parts R) :
    CommonParts R :=
  { h with plain := fun f hf _ => h.plain f hf }

namespace CommonParts

variable {R : World → World → Prop} [IsPreorder World R] {env : Env}

/-! ## Sends and losses -/

theorem remove_peer (h : CommonParts R) (peer_id : Str) : Moves R (remove_peer peer_id) := by
  unfold daemon.remove_peer
  refine Moves.bind moves_node fun self => ?_
  refine Moves.bind (h.lose peer_id) fun _ => ?_
  apply Moves.ite
  · exact h.emit _ (by simp)
  · exact Moves.pure ()

theorem on_read_done (h : CommonParts R) (conn : PeerConnection) : Moves R (on_read_done conn) := by
  unfold daemon.on_read_done
  refine Moves.bind (h.plain _ (fun _ => ⟨rfl, rfl, rfl⟩)
    fun _ => ⟨rfl, rfl, rfl, rfl, rfl⟩) fun _ => ?_
  exact moves_on_peer_disconnected h.remove_peer conn

theorem send_to_peer (h : CommonParts R) (peer_id : Str) (packet : Bytes) :
    Moves R (send_to_peer env peer_id packet) :=
  moves_send_to_peer (fun conn _ => h.on_read_done conn) (fun _ _ => h.emit _ (by simp))
    peer_id packet

theorem raw_send (h : CommonParts R) (packet : Bytes) : Moves R (raw_send env packet) :=
  moves_raw_send (fun conn _ => h.on_read_done conn) (fun _ _ => h.emit _ (by simp)) packet

theorem relay (h : CommonParts R) (raw : Bytes) (ttl : UInt8) : Moves R (relay raw ttl) := by
  unfold daemon.relay
  apply Moves.ite
  · exact Moves.pure ()
  · exact h.emit _ (by simp)

/-- A packet that is built from the node and goes to everyone. -/
theorem broadcast (h : CommonParts R) (build : MeshNode → Except PyError Bytes) : Moves R (do
    let self ← node
    let packet ← outcome (build self)
    daemon.raw_send env packet) := by
  refine Moves.bind moves_node fun self => ?_
  exact Moves.bind (Moves.outcome _) fun packet => h.raw_send packet

/-! ## Handshakes -/

theorem initiate_handshake (h : CommonParts R) (peer_id : Str) :
    Moves R (initiate_handshake env peer_id) := by
  unfold daemon.initiate_handshake
  apply Moves.suppress
  refine Moves.bind (h.initiate _ _) fun msg => ?_
  refine Moves.bind moves_node fun self => ?_
  exact Moves.bind (Moves.outcome _) fun packet => h.send_to_peer peer_id _

theorem announced (h : CommonParts R) (peer_id nickname : Str) :
    Moves R (announced peer_id nickname) := by
  unfold daemon.announced
  refine Moves.bind moves_node fun self => ?_
  refine Moves.bind (h.plain _ (fun _ => ⟨rfl, rfl, rfl⟩)
    fun _ => ⟨rfl, rfl, rfl, rfl, rfl⟩) fun _ => ?_
  apply Moves.ite
  · exact Moves.pure ()
  · exact h.emit _ (by simp)

theorem handle_noise_identity_announce (h : CommonParts R) (packet : BitchatPacket) :
    Moves R (handle_noise_identity_announce env packet) := by
  unfold daemon.handle_noise_identity_announce
  refine Moves.bind moves_node fun self => ?_
  apply Moves.ite
  · exact Moves.pure ()
  · split
    · exact Moves.pure ()
    · refine Moves.bind (h.announced _ _) fun _ => ?_
      apply Moves.ite
      · exact h.initiate_handshake _
      · exact Moves.pure ()

theorem send_pending_private_messages (h : CommonParts R) (peer_id : Str) :
    Moves R (send_pending_private_messages peer_id) := by
  unfold daemon.send_pending_private_messages
  refine Moves.bind moves_node fun self => ?_
  refine Moves.bind (h.plain _ (fun _ => ⟨rfl, rfl, rfl⟩)
    fun _ => ⟨rfl, rfl, rfl, rfl, rfl⟩) fun _ => ?_
  apply Moves.ite
  · exact Moves.pure ()
  · exact h.emit _ (by simp)

theorem process_handshake_message (h : CommonParts R) {peer_id : Str} (hid : InHex peer_id)
    (message : Bytes) : Moves R (process_handshake_message env peer_id message) := by
  unfold daemon.process_handshake_message
  refine Moves.bind (h.process _ _ _ _ hid) fun answer => ?_
  obtain ⟨response, authenticated⟩ := answer
  refine Moves.bind ?_ fun _ => Moves.pure _
  rcases authenticated with _ | ⟨peer_id, fingerprint⟩
  · exact Moves.pure ()
  · exact h.emit _ (by simp)

theorem session_established (h : CommonParts R) (sender_id : Str) :
    Moves R (session_established sender_id) := by
  unfold daemon.session_established
  refine Moves.bind moves_node fun self => ?_
  apply Moves.ite
  · refine Moves.bind (h.plain _ (fun _ => ⟨rfl, rfl, rfl⟩)
    fun _ => ⟨rfl, rfl, rfl, rfl, rfl⟩) fun _ => ?_
    exact h.send_pending_private_messages sender_id
  · exact Moves.pure ()

theorem answer_handshake (h : CommonParts R) (answer : MessageType) (sender_id : Str)
    (response : Option Bytes) : Moves R (answer_handshake answer env sender_id response) := by
  cases response with
  | none => exact Moves.pure ()
  | some response =>
    unfold daemon.answer_handshake
    refine Moves.bind moves_node fun self => ?_
    exact Moves.bind (Moves.outcome _) fun _ => h.send_to_peer _ _

theorem handle_noise_handshake (h : CommonParts R) (answer : MessageType) {packet : BitchatPacket}
    (hid : InHex packet.sender_id_str) : Moves R (handle_noise_handshake answer env packet) := by
  unfold daemon.handle_noise_handshake
  refine Moves.bind moves_node fun self => ?_
  apply Moves.ite
  · exact Moves.pure ()
  · refine Moves.bind (Moves.attempt ?_) fun result => ?_
    · unfold take_handshake
      refine Moves.bind (h.process_handshake_message hid _) fun response => ?_
      refine Moves.bind (h.answer_handshake answer _ response) fun _ => ?_
      exact h.session_established _
    · cases result with
      | ok _ => exact Moves.pure ()
      | error e => exact h.plain _ (fun _ => ⟨rfl, rfl, rfl⟩) fun _ => ⟨rfl, rfl, rfl, rfl, rfl⟩

theorem handle_key_exchange (h : CommonParts R) {packet : BitchatPacket}
    (hid : InHex packet.sender_id_str) : Moves R (handle_key_exchange env packet) := by
  unfold daemon.handle_key_exchange
  apply Moves.suppress
  refine Moves.bind moves_node fun self => ?_
  refine Moves.bind (h.process_handshake_message hid _) fun response => ?_
  cases response with
  | none => exact Moves.pure ()
  | some response => exact Moves.bind (Moves.outcome _) fun _ => h.send_to_peer _ _

/-! ## ACKs -/

theorem send_delivery_ack (h : CommonParts R) (message_id sender_id : Str) (is_private : Bool) :
    Moves R (send_delivery_ack env message_id sender_id is_private) := by
  have hseal (plain : Bytes) : Moves R (seal_ack plain sender_id is_private) := by
    unfold seal_ack
    apply Moves.ite
    · refine Moves.bind (Moves.attempt (h.encrypt _ _)) fun result => ?_
      cases result <;> exact Moves.pure _
    · exact Moves.pure _
  unfold daemon.send_delivery_ack
  refine Moves.bind moves_node fun self => ?_
  apply Moves.ite
  · refine Moves.bind (h.acknowledged message_id) fun _ => ?_
    refine Moves.bind (hseal _) fun payload => ?_
    exact Moves.bind (Moves.outcome _) fun _ => h.send_to_peer _ _
  · exact Moves.pure ()

theorem handle_delivery_ack (h : CommonParts R) (htake : ∀ ack, Moves R (take_ack ack))
    (packet : BitchatPacket) (raw : Bytes) : Moves R (handle_delivery_ack packet raw) := by
  have hopen : Moves R (open_ack packet) := by
    unfold open_ack
    refine Moves.bind moves_node fun self => ?_
    apply Moves.ite
    · refine Moves.bind (Moves.attempt (h.decrypt _ _)) fun result => ?_
      cases result <;> exact Moves.pure _
    · exact Moves.pure _
  unfold daemon.handle_delivery_ack
  refine Moves.bind moves_node fun self => ?_
  apply Moves.ite
  · refine Moves.bind hopen fun payload => ?_
    split
    · exact htake _
    · exact Moves.pure ()
  · exact h.relay _ _

/-! ## Messages -/

theorem deliver (h : CommonParts R) (message : BitchatMessage) (sender_id : Str)
    (is_private : Bool) : Moves R (deliver message sender_id is_private) := by
  unfold daemon.deliver
  refine Moves.bind moves_node fun self => ?_
  split
  · exact Moves.throw _
  · refine Moves.bind (h.plain _ (fun _ => ⟨rfl, rfl, rfl⟩)
    fun _ => ⟨rfl, rfl, rfl, rfl, rfl⟩) fun _ => ?_
    exact h.emit _ (by simp)

theorem accept_message (h : CommonParts R) (packet : BitchatPacket) (raw : Bytes)
    (is_private : Bool) (payload : Bytes) :
    Moves R (accept_message env packet raw is_private payload) := by
  unfold daemon.accept_message
  refine Moves.bind (Moves.outcome _) fun message => ?_
  refine Moves.bind moves_node fun self => ?_
  apply Moves.ite
  · exact Moves.pure ()
  · refine Moves.bind (h.deliver _ _ _) fun _ => ?_
    refine Moves.bind ?_ fun _ => h.relay _ _
    unfold acknowledge
    refine Moves.bind moves_node fun self => ?_
    apply Moves.ite
    · exact h.send_delivery_ack _ _ _
    · exact Moves.pure ()

theorem handle_message (h : CommonParts R) (packet : BitchatPacket) (raw : Bytes) :
    Moves R (handle_message env packet raw) := by
  unfold daemon.handle_message
  refine Moves.bind moves_node fun self => ?_
  refine Moves.ite (Moves.pure ()) ?_
  refine Moves.ite (Moves.suppress (h.accept_message _ _ _ _)) ?_
  refine Moves.ite ?_ (h.relay _ _)
  refine Moves.bind (Moves.attempt (h.decrypt _ _)) fun result => ?_
  split
  · exact Moves.suppress (h.accept_message _ _ _ _)
  · exact Moves.pure ()
  · exact Moves.throw _

theorem handle_noise_encrypted (h : CommonParts R) (packet : BitchatPacket) :
    Moves R (handle_noise_encrypted env packet) := by
  unfold daemon.handle_noise_encrypted
  refine Moves.bind moves_node fun self => ?_
  refine Moves.ite (Moves.pure ()) ?_
  apply Moves.suppress
  refine Moves.bind (h.decrypt _ _) fun decrypted => ?_
  unfold accept_encrypted
  refine Moves.ite ?_ (Moves.pure ())
  refine Moves.bind (Moves.outcome _) fun inner_packet => ?_
  refine Moves.ite ?_ (Moves.pure ())
  refine Moves.bind (Moves.outcome _) fun message => ?_
  refine Moves.bind moves_node fun self => ?_
  refine Moves.ite (Moves.pure ()) ?_
  exact Moves.bind (h.deliver _ _ _) fun _ => h.send_delivery_ack _ _ _

/-! ## Packets -/

theorem save_state (h : CommonParts R) : Moves R save_state := by
  unfold daemon.save_state
  refine Moves.bind (h.plain _ (fun _ => ⟨rfl, rfl, rfl⟩)
    fun _ => ⟨rfl, rfl, rfl, rfl, rfl⟩) fun _ => ?_
  exact Moves.bind moves_node fun _ => h.emit _ (by simp)

theorem handle_channel_announce (h : CommonParts R)
    (hannounced : ∀ channel is_protected creator_id key_commitment, Moves R (modifyNode fun self =>
      self.channel_announced channel is_protected creator_id key_commitment))
    (packet : BitchatPacket) : Moves R (handle_channel_announce packet) := by
  unfold daemon.handle_channel_announce
  split
  · exact Moves.bind (hannounced _ _ _ _) fun _ => h.save_state
  · exact Moves.pure ()

theorem handler (h : CommonParts R) {packet : BitchatPacket} (hid : InHex packet.sender_id_str)
    (htake : ∀ ack, Moves R (daemon.take_ack ack))
    (hchannel : packet.msg_type = .CHANNEL_ANNOUNCE →
      Moves R (daemon.handle_channel_announce packet))
    (raw : Bytes) : ∀ task ∈ handler env packet raw, Moves R task := by
  intro task htask
  unfold daemon.handler at htask
  split at htask <;> cases htask
  · exact h.announced _ _
  · exact h.handle_message _ _
  · exact h.handle_noise_identity_announce _
  · exact h.handle_noise_handshake _ hid
  · exact h.handle_noise_handshake _ hid
  · exact h.handle_noise_encrypted _
  · refine Moves.bind ?_ fun _ => h.relay _ _
    exact Moves.ite (Moves.pure ()) (h.remove_peer _)
  · rename_i htype
    exact hchannel htype
  · exact h.handle_key_exchange hid
  · exact h.handle_delivery_ack htake _ _

theorem handle (h : CommonParts R) {packet : BitchatPacket} (hid : InHex packet.sender_id_str)
    (htake : ∀ ack, Moves R (daemon.take_ack ack))
    (hchannel : packet.msg_type = .CHANNEL_ANNOUNCE →
      Moves R (daemon.handle_channel_announce packet))
    (raw : Bytes) : Moves R (handle env packet raw) := by
  have hother : Moves R ((daemon.handler env packet raw).getD (pure ())) := by
    rcases htask : daemon.handler env packet raw with _ | task
    · exact Moves.pure ()
    · exact h.handler hid htake hchannel raw task htask
  unfold daemon.handle
  split
  · exact moves_handle_fragment (h.relay _ _)
  · exact moves_handle_fragment (h.relay _ _)
  · exact moves_handle_fragment (h.relay _ _)
  · exact hother

theorem on_packet_received (h : CommonParts R) (conn : PeerConnection) {raw : Bytes}
    (htake : ∀ ack, Moves R (daemon.take_ack ack))
    (hchannel : ∀ packet, parse_bitchat_packet raw = .ok packet →
      packet.msg_type = .CHANNEL_ANNOUNCE → Moves R (daemon.handle_channel_announce packet)) :
    Moves R (on_packet_received env conn raw) := by
  unfold daemon.on_packet_received
  refine Moves.bind moves_node fun self => ?_
  split
  · exact Moves.pure ()
  · rename_i packet hparse
    refine Moves.ite (Moves.pure ()) ?_
    refine Moves.bind (h.plain _ (fun _ => ⟨rfl, rfl, rfl⟩)
      fun _ => ⟨rfl, rfl, rfl, rfl, rfl⟩) fun _ => ?_
    exact Moves.suppress (h.handle ⟨packet.sender_id, (parse_ids hparse).1.symm⟩ htake
      (hchannel packet hparse) raw)

/-! ## Sending -/

theorem send_public_message (h : CommonParts R) (htrack : Tracks R (env.draw 1).uuid.str)
    (content : Str) (channel : Option Str) : Moves R (send_public_message env content channel) := by
  unfold daemon.send_public_message
  refine Moves.bind moves_node fun self => ?_
  refine Moves.outcome_bind fun built hbuilt => ?_
  obtain ⟨payload, msg_id⟩ := built
  obtain rfl : msg_id = (env.draw 1).uuid.str := by
    unfold public_payload at hbuilt
    split at hbuilt
    · exact create_payload_id _ _ _ _ _ _ _ hbuilt
    · exact create_payload_id _ _ _ _ _ _ _ hbuilt
  refine Moves.bind (htrack _ _ _) fun _ => ?_
  refine Moves.bind (Moves.outcome _) fun packet => ?_
  exact Moves.bind (h.raw_send packet) fun _ => Moves.pure _

theorem attempt_if_due (h : CommonParts R) (target_peer_id : Str) (current_time : UInt64) :
    Moves R (attempt_if_due env target_peer_id current_time) := by
  have hattempt : Moves R (attempt_handshake env target_peer_id current_time) := by
    unfold attempt_handshake
    refine Moves.bind (h.plain _ (fun _ => ⟨rfl, rfl, rfl⟩)
      fun _ => ⟨rfl, rfl, rfl, rfl, rfl⟩) fun _ => ?_
    exact h.initiate_handshake target_peer_id
  unfold daemon.attempt_if_due
  refine Moves.bind moves_node fun self => ?_
  split
  · exact Moves.ite (Moves.pure ()) hattempt
  · exact hattempt

theorem encrypt_private_message (h : CommonParts R) (htrack : Tracks R (env.draw 0).uuid.str)
    (content target_peer_id : Str) :
    Moves R (encrypt_private_message env content target_peer_id) := by
  unfold daemon.encrypt_private_message
  refine Moves.bind moves_node fun self => ?_
  refine Moves.outcome_bind fun built hbuilt => ?_
  obtain ⟨payload, msg_id⟩ := built
  obtain rfl : msg_id = (env.draw 0).uuid.str := create_payload_id _ _ _ _ _ _ _ hbuilt
  refine Moves.bind (htrack _ _ _) fun _ => ?_
  refine Moves.bind (Moves.outcome _) fun inner_packet => ?_
  refine Moves.bind (h.encrypt _ _) fun encrypted => ?_
  refine Moves.bind (Moves.outcome _) fun outer_packet => ?_
  exact Moves.bind (h.send_to_peer _ _) fun _ => Moves.pure _

theorem send_private_message (h : CommonParts R) (htrack : Tracks R (env.draw 0).uuid.str)
    (content target_peer_id target_nickname : Str) (message_id : Option Str) :
    Moves R (send_private_message env content target_peer_id target_nickname message_id) := by
  unfold daemon.send_private_message
  refine Moves.bind moves_node fun self => ?_
  apply Moves.ite
  · exact h.encrypt_private_message htrack content target_peer_id
  · unfold queue_private_message
    refine Moves.bind moves_node fun self => ?_
    refine Moves.bind (h.plain _ (fun _ => ⟨rfl, rfl, rfl⟩)
      fun _ => ⟨rfl, rfl, rfl, rfl, rfl⟩) fun _ => ?_
    exact Moves.bind (h.attempt_if_due _ _) fun _ => Moves.pure _

theorem run_later (h : CommonParts R) (task : Later)
    (htrack : ∀ id ∈ message_id_of env (.later task), Tracks R id) :
    Moves R (run_later env task) := by
  cases task with
  | relay raw ttl => exact h.raw_send _
  | send_pending_private_messages peer_id => exact h.send_pending_private_messages peer_id
  | send_each peer_id messages =>
    cases messages with
    | nil => exact Moves.pure ()
    | cons m rest =>
      unfold daemon.run_later
      refine Moves.bind (Moves.suppress (h.send_private_message (htrack _ rfl) _ _ _ _)) fun _ => ?_
      exact Moves.ite (Moves.pure ()) (h.emit _ (by simp))

/-! ## Events -/

theorem disconnect (h : CommonParts R) (addr : Str) : Moves R (disconnect addr) := by
  unfold daemon.disconnect
  refine Moves.bind moves_node fun self => ?_
  split
  · exact Moves.throw _
  · refine Moves.bind (h.plain _ (fun _ => ⟨rfl, rfl, rfl⟩)
    fun _ => ⟨rfl, rfl, rfl, rfl, rfl⟩) fun _ => ?_
    exact moves_on_peer_disconnected h.remove_peer _

theorem send_identity_announce (h : CommonParts R) : Moves R (send_identity_announce env) := by
  unfold daemon.send_identity_announce
  refine Moves.bind moves_node fun self => ?_
  refine Moves.bind (Moves.outcome _) fun payload => ?_
  exact Moves.bind (Moves.outcome _) fun packet => h.raw_send packet

theorem react (h : CommonParts R) {event : Event}
    (htake : ∀ conn raw, event = .packet conn raw → ∀ ack, Moves R (daemon.take_ack ack))
    (hchannel : ∀ conn raw packet, event = .packet conn raw →
      parse_bitchat_packet raw = .ok packet → packet.msg_type = .CHANNEL_ANNOUNCE →
      Moves R (daemon.handle_channel_announce packet))
    (htrack : ∀ id ∈ message_id_of env event, Tracks R id) : Moves R (react env event) := by
  cases event with
  | packet conn raw =>
    exact h.on_packet_received conn (htake conn raw rfl) fun packet => hchannel conn raw packet rfl
  | later task => exact h.run_later task htrack
  | connected conn =>
    exact h.plain _ (fun _ => ⟨rfl, rfl, rfl⟩) fun _ => ⟨rfl, rfl, rfl, rfl, rfl⟩
  | read_done conn => exact h.on_read_done conn
  | disconnect addr => exact h.disconnect addr
  | announce => exact h.broadcast _
  | identity_announce => exact h.send_identity_announce
  | leave => exact h.broadcast _
  | save => exact h.save_state
  | set_name nickname =>
    apply Moves.ite
    · exact Moves.pure ()
    · refine Moves.bind (h.plain _ (fun _ => ⟨rfl, rfl, rfl⟩)
        fun _ => ⟨rfl, rfl, rfl, rfl, rfl⟩) fun _ => ?_
      exact Moves.bind h.save_state fun _ => h.broadcast _
  | channel_announce channel is_protected key_commitment =>
    unfold daemon.react send_channel_announce
    refine Moves.bind moves_node fun self => ?_
    exact Moves.bind (Moves.outcome _) fun packet => h.raw_send _
  | public_message content channel =>
    exact Moves.map _ (h.send_public_message (htrack _ rfl) content channel)
  | private_message content target_peer_id target_nickname message_id =>
    exact Moves.map _ (h.send_private_message (htrack _ rfl) _ _ _ _)

end CommonParts

theorem Parts.react {R : World → World → Prop} [IsPreorder World R] (h : Parts R) (env : Env)
    (event : Event) : Moves R (react env event) := by
  refine h.common.react (fun _ _ _ => h.take_ack) ?_ fun id _ => h.track id
  intro _ _ packet _ _ _
  apply h.common.handle_channel_announce
  exact fun _ _ _ _ => h.plain _ fun _ => ⟨rfl, rfl, rfl⟩

end daemon
