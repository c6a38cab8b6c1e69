-- What a node does about some of its peers. What holds through the parts that
-- the calls are made of, as far as they are about these peers, holds through
-- every event that is about no other peer.
import BitchatNode.Parts
import BitchatNode.HandshakeTable

namespace bitchat.encryption.EncryptionService

open python Crypto

variable [Crypto]

/-! ## Calls about one peer -/

theorem initiate_confined (peer_id : Str) (generated : PrivateKey) (svc : EncryptionService) :
    Confined peer_id svc (exec (initiate_handshake peer_id generated) svc).2 := by
  obtain ⟨message, h, -, hexec⟩ := exec_initiate peer_id generated svc
  rw [hexec]
  refine ⟨rfl, fun other hother => ?_, fun other hother => ?_⟩
  · exact Dict.get?_pop_ne _ hother.symm
  · exact (Dict.get?_set_ne _ _ hother.symm).trans (Dict.get?_pop_ne _ hother.symm)

/-- Whatever the table holds. -/
theorem process_confined (peer_id : Str) (message : Bytes) (generated : PrivateKey) (now : UInt64)
    (svc : EncryptionService) :
    Confined peer_id svc (exec (process_handshake_message peer_id message generated now) svc).2 := by
  have hset (other : Str) (hother : other ≠ peer_id) (h : NoiseHandshakeState) :
      (svc.handshake_states.set peer_id h).get? other = svc.handshake_states.get? other :=
    Dict.get?_set_ne _ _ hother.symm
  have hpop (other : Str) (hother : other ≠ peer_id) :
      (svc.handshake_states.pop peer_id).get? other = svc.handshake_states.get? other :=
    Dict.get?_pop_ne _ hother.symm
  unfold process_handshake_message
  simp only [exec_bind, exec_get, exec_ite, exec_throw, exec_set, exec_pure]
  split
  · exact ⟨rfl, fun _ _ => rfl, fun _ _ => rfl⟩
  · split
    · exact ⟨rfl, fun _ _ => rfl, fun _ _ => rfl⟩
    · split
      · exact ⟨rfl, fun _ _ => rfl, fun other hother => hset other hother _⟩
      · split
        · exact ⟨rfl, fun _ _ => rfl, hpop⟩
        · split
          · exact ⟨rfl, fun _ hother => Dict.get?_set_ne _ _ hother.symm, hpop⟩
          · exact ⟨rfl, fun _ _ => rfl, fun other hother => hset other hother _⟩

end bitchat.encryption.EncryptionService

namespace daemon

open python bitchat bitchat.protocol bitchat.encryption

variable [Packages]

/-! ## Parts -/

/-- On the other peers the node has the same on file, and it has the same
connections and the same service. -/
structure SameBeyond (those : Str → Prop) (n n' : MeshNode) : Prop where
  my_peer_id : n'.my_peer_id = n.my_peer_id
  connections : n'.connections = n.connections
  encryption_service : n'.encryption_service = n.encryption_service
  peer : ∀ p, ¬ those p → n'.peers.get? p = n.peers.get? p
  address : ∀ p, ¬ those p → n'.peer_addresses.get? p = n.peer_addresses.get? p
  pending : ∀ p, ¬ those p →
    n'.pending_private_messages.get? p = n.pending_private_messages.get? p

/-- The relation holds through the parts that are about these peers. -/
structure About (those : Str → Prop) (env : Env) (R : World → World → Prop) [IsPreorder World R] :
    Prop extends Steady env R where
  touch : ∀ f : MeshNode → MeshNode, (∀ n, SameBeyond those n (f n)) → Moves R (modifyNode f)
  emit : ∀ action, (∀ p messages, ¬ those p → action ≠ .later (.send_each p messages)) →
    Moves R (emit action)
  initiate : ∀ p generated, those p →
    Moves R (onService (EncryptionService.initiate_handshake p generated))
  process : ∀ p message generated now, those p → Moves R (onService
    (EncryptionService.process_handshake_message p message generated now))
  clear : ∀ p, those p → Moves R (modifyNode fun self => { self with
    encryption_service := self.encryption_service.clear_handshake_state p })
  lose : ∀ p, those p → Moves R (modifyNode (without_peer p))

/-- The packet is from one of these peers, and announces no other. -/
structure AboutThem (those : Str → Prop) (packet : BitchatPacket) : Prop where
  sender : those packet.sender_id_str
  announced : packet.msg_type = .NOISE_IDENTITY_ANNOUNCE →
    ∀ p nickname, announcement_of packet = some (p, nickname) → those p

/-- The event is about no peer but these. -/
def Within (those : Str → Prop) : Event → Prop
  | .packet _ raw => ∀ packet, parse_bitchat_packet raw = .ok packet → AboutThem those packet
  | .private_message _ target_peer_id _ _ => those target_peer_id
  | .later (.send_each target_peer_id _) => those target_peer_id
  | .later (.send_pending_private_messages p) => those p
  | _ => True

namespace About

variable {those : Str → Prop} {env : Env} {R : World → World → Prop} [IsPreorder World R]
  {p : Str}

/-! ## Calls -/

/-- Nothing of this reads a draw. -/
theorem skip (h : About those env R) (k : Nat) : About those (env.skip k) R := by
  have hsame (packet : Bytes) : daemon.raw_send (env.skip k) packet = daemon.raw_send env packet := by
    unfold daemon.raw_send broadcast_packet
    simp only [broadcast_each_skip]
  refine { h with send_to_peer := h.send_to_peer, raw_send := fun packet => ?_ }
  rw [hsame]
  exact h.raw_send packet

theorem remove_peer (h : About those env R) (hp : those p) : Moves R (remove_peer p) := by
  unfold daemon.remove_peer
  refine Moves.bind moves_node fun self => ?_
  refine Moves.bind (h.lose p hp) fun _ => ?_
  apply Moves.ite
  · exact h.emit _ (by simp)
  · exact Moves.pure ()

theorem announced (h : About those env R) (hp : those p) (nickname : Str) :
    Moves R (announced p nickname) := by
  unfold daemon.announced
  refine Moves.bind moves_node fun self => ?_
  refine Moves.bind (h.touch _ fun n => ?_) fun _ => ?_
  · refine ⟨rfl, rfl, rfl, fun other hother => ?_, fun _ _ => rfl, fun _ _ => rfl⟩
    apply Dict.get?_set_ne
    rintro rfl
    exact hother hp
  · split
    · exact Moves.pure ()
    · exact h.emit _ (by simp)

theorem initiate_handshake (h : About those env R) (hp : those p) :
    Moves R (initiate_handshake env p) := by
  unfold daemon.initiate_handshake
  apply Moves.suppress
  refine Moves.bind (h.initiate p _ hp) fun msg => ?_
  refine Moves.bind moves_node fun self => ?_
  exact Moves.bind (Moves.outcome _) fun packet => h.send_to_peer _ _

theorem process_handshake_message (h : About those env R) (hp : those p) (message : Bytes) :
    Moves R (process_handshake_message env p message) := by
  unfold daemon.process_handshake_message
  refine Moves.bind (h.process p _ _ _ hp) fun answer => ?_
  obtain ⟨response, authenticated⟩ := answer
  refine Moves.bind ?_ fun _ => Moves.pure _
  rcases authenticated with _ | ⟨other, fingerprint⟩
  · exact Moves.pure ()
  · exact h.emit _ (by simp)

theorem send_pending (h : About those env R) (hp : those p) :
    Moves R (send_pending_private_messages p) := by
  unfold send_pending_private_messages
  refine Moves.bind moves_node fun self => ?_
  refine Moves.bind (h.touch _ fun n => ?_) fun _ => ?_
  · refine ⟨rfl, rfl, rfl, fun _ _ => rfl, fun _ _ => rfl, fun other hother => ?_⟩
    apply Dict.get?_pop_ne
    rintro rfl
    exact hother hp
  · apply Moves.ite
    · exact Moves.pure ()
    · refine h.emit _ fun other messages hother heq => hother ?_
      injection heq with heq
      injection heq with heq
      rw [← heq]
      exact hp

theorem session_established (h : About those env R) (hp : those p) :
    Moves R (session_established p) := by
  unfold daemon.session_established
  refine Moves.bind moves_node fun self => ?_
  apply Moves.ite
  · refine Moves.bind (h.adjust _ (fun _ => ⟨rfl, rfl, rfl, rfl, rfl, rfl, rfl⟩)
      fun _ => ⟨⟨rfl, rfl⟩, rfl⟩) fun _ => ?_
    exact h.send_pending hp
  · exact Moves.pure ()

theorem attempt_if_due (h : About those env R) (hp : those p) (current_time : UInt64) :
    Moves R (attempt_if_due env p current_time) := by
  have hattempt : Moves R (attempt_handshake env p current_time) := by
    unfold attempt_handshake
    refine Moves.bind (h.adjust _ (fun _ => ⟨rfl, rfl, rfl, rfl, rfl, rfl, rfl⟩)
      fun _ => ⟨⟨rfl, rfl⟩, rfl⟩) fun _ => ?_
    exact h.initiate_handshake hp
  unfold daemon.attempt_if_due
  refine Moves.bind moves_node fun self => ?_
  split
  · exact Moves.ite (Moves.pure ()) hattempt
  · exact hattempt

theorem send_private_message (h : About those env R) (hp : those p) (content nickname : Str)
    (message_id : Option Str) : Moves R (send_private_message env content p nickname message_id) := by
  unfold daemon.send_private_message
  refine Moves.bind moves_node fun self => ?_
  apply Moves.ite
  · exact h.encrypt_private_message content p
  · unfold queue_private_message
    refine Moves.bind moves_node fun self => ?_
    refine Moves.bind (h.touch _ fun n => ?_) fun _ => ?_
    · refine ⟨rfl, rfl, rfl, fun _ _ => rfl, fun _ _ => rfl, fun other hother => ?_⟩
      apply Dict.get?_set_ne
      rintro rfl
      exact hother hp
    · exact Moves.bind ((h.skip 2).attempt_if_due hp _) fun _ => Moves.pure _

/-! ## Packets -/

section

variable {packet : BitchatPacket} {raw : Bytes}

theorem handle_noise_identity_announce (h : About those env R) (hpacket : AboutThem those packet)
    (htype : packet.msg_type = .NOISE_IDENTITY_ANNOUNCE) :
    Moves R (handle_noise_identity_announce env packet) := by
  unfold daemon.handle_noise_identity_announce
  refine Moves.bind moves_node fun self => ?_
  apply Moves.ite
  · exact Moves.pure ()
  · split
    · exact Moves.pure ()
    · rename_i other nickname hannounces
      have hother := hpacket.announced htype other nickname hannounces
      refine Moves.bind (h.announced hother nickname) fun _ => ?_
      exact Moves.ite (h.initiate_handshake hother) (Moves.pure ())

theorem handle_noise_handshake (h : About those env R) (hpacket : AboutThem those packet)
    (answer : MessageType) : Moves R (handle_noise_handshake answer env packet) := by
  unfold daemon.handle_noise_handshake
  refine Moves.bind moves_node fun self => ?_
  refine Moves.ite (Moves.pure ()) ?_
  refine Moves.bind (Moves.attempt ?_) fun result => ?_
  · unfold take_handshake
    refine Moves.bind (h.process_handshake_message hpacket.sender _) fun response => ?_
    refine Moves.bind (h.answer_handshake answer _ response) fun _ => ?_
    exact h.session_established hpacket.sender
  · cases result with
    | ok _ => exact Moves.pure ()
    | error e => exact h.clear _ hpacket.sender

theorem handle_key_exchange (h : About those env R) (hpacket : AboutThem those packet) :
    Moves R (handle_key_exchange env packet) := by
  unfold daemon.handle_key_exchange
  apply Moves.suppress
  refine Moves.bind moves_node fun self => ?_
  refine Moves.bind (h.process_handshake_message hpacket.sender _) fun response => ?_
  cases response with
  | none => exact Moves.pure ()
  | some response => exact Moves.bind (Moves.outcome _) fun _ => h.send_to_peer _ _

theorem deliver (h : About those env R) (message : BitchatMessage) (sender_id : Str)
    (is_private : Bool) : Moves R (deliver message sender_id is_private) := by
  unfold daemon.deliver
  refine Moves.bind moves_node fun self => ?_
  split
  · exact Moves.throw _
  · refine Moves.bind (h.touch _ fun _ => ⟨rfl, rfl, rfl, fun _ _ => rfl, fun _ _ => rfl,
      fun _ _ => rfl⟩) fun _ => ?_
    exact h.emit _ (by simp)

theorem relay (h : About those env R) (ttl : UInt8) : Moves R (relay raw ttl) := by
  unfold daemon.relay
  apply Moves.ite
  · exact Moves.pure ()
  · exact h.emit _ (by simp)

theorem handle (h : About those env R) (hpacket : AboutThem those packet) :
    Moves R (handle env packet raw) := by
  refine h.toSteady.handle (h.relay _) ?_ ?_ ?_ ?_ ?_ ?_
  · exact fun _ message is_private w _ => h.deliver message _ is_private w
  · exact fun _ => h.announced hpacket.sender _
  · exact fun htype => h.handle_noise_identity_announce hpacket htype
  · exact fun _ => Moves.ite (Moves.pure ()) (h.remove_peer hpacket.sender)
  · exact fun _ answer => h.handle_noise_handshake hpacket answer
  · exact fun _ => h.handle_key_exchange hpacket

end

theorem on_packet_received (h : About those env R) (conn : PeerConnection) {raw : Bytes}
    (hpacket : ∀ packet, parse_bitchat_packet raw = .ok packet → AboutThem those packet) :
    Moves R (on_packet_received env conn raw) := by
  unfold daemon.on_packet_received
  refine Moves.bind moves_node fun self => ?_
  split
  · exact Moves.pure ()
  · rename_i packet hparse
    have habout := hpacket packet hparse
    refine Moves.ite (Moves.pure ()) ?_
    refine Moves.bind (h.touch _ fun n => ?_) fun _ => ?_
    · refine ⟨rfl, rfl, rfl, fun _ _ => rfl, fun other hother => ?_, fun _ _ => rfl⟩
      apply Dict.get?_set_ne
      rintro rfl
      exact hother habout.sender
    · exact Moves.suppress (h.handle habout)

/-! ## Events -/

theorem send_each (h : About those env R) (hp : those p) (messages : List (Str × Str × Str)) :
    Moves R (run_later env (.send_each p messages)) := by
  cases messages with
  | nil => exact Moves.pure ()
  | cons message rest =>
    obtain ⟨content, nickname, message_id⟩ := message
    unfold run_later
    refine Moves.bind (Moves.suppress (h.send_private_message hp _ _ _)) fun _ => ?_
    unfold sleep_before_next
    apply Moves.ite
    · exact Moves.pure ()
    · refine h.emit _ fun other messages hother heq => hother ?_
      injection heq with heq
      injection heq with heq
      rw [← heq]
      exact hp

/-- What happens to the connections is left open. -/
theorem react (h : About those env R) {event : Event} (hwithin : Within those event)
    (hconnected : ∀ conn, event = .connected conn → Moves R (connected conn))
    (hread_done : ∀ conn, event = .read_done conn → Moves R (on_read_done conn))
    (hdisconnect : ∀ addr, event = .disconnect addr → Moves R (disconnect addr)) :
    Moves R (react env event) := by
  cases event with
  | packet conn raw => exact h.on_packet_received conn hwithin
  | later task =>
    cases task with
    | relay raw ttl => exact h.raw_send _
    | send_pending_private_messages other => exact h.send_pending hwithin
    | send_each other messages => exact h.send_each hwithin messages
  | connected conn => exact hconnected conn rfl
  | read_done conn => exact hread_done conn rfl
  | disconnect addr => exact hdisconnect addr rfl
  | announce => exact h.send_announce
  | identity_announce => exact h.send_identity_announce
  | leave => exact h.send_leave
  | save => exact h.save_state
  | set_name nickname =>
    show Moves R (handle_set_name env nickname)
    unfold handle_set_name
    apply Moves.ite
    · exact Moves.pure ()
    · refine Moves.bind (h.adjust _ (fun _ => ⟨rfl, rfl, rfl, rfl, rfl, rfl, rfl⟩)
        fun _ => ⟨⟨rfl, rfl⟩, rfl⟩) fun _ => ?_
      exact Moves.bind h.save_state fun _ => h.send_announce
  | channel_announce channel is_protected key_commitment =>
    exact h.send_channel_announce channel is_protected key_commitment
  | public_message content channel => exact Moves.map _ (h.send_public_message content channel)
  | private_message content target_peer_id target_nickname message_id =>
    exact Moves.map _ (h.send_private_message hwithin _ _ _)

end About

end daemon
