-- What the calls of a node do to its handshake with the peer at the other end of
-- a connection. Messages and announcements leave it alone; a handshake packet
-- takes it one step further.
import BitchatNode.IdentityCodec
import BitchatNode.HandshakeMessages
import BitchatNode.Queues
import BitchatNode.Link

namespace daemon

open python bitchat bitchat.protocol bitchat.encryption

variable [Packages]

theorem has_session_iff (peer_id : Str) (self : MeshNode) :
    has_session peer_id self ↔ (standing peer_id self.encryption_service).keys ≠ none := by
  unfold standing has_session EncryptionService.is_session_established Dict.has
  cases self.encryption_service.sessions.get? peer_id <;> simp

/-! ## Packets -/

/-- An announcement of the sender's own id, a sealed message or an ACK. -/
inductive Plain (sender : PeerId) (raw : Bytes) : Prop
  | announcement (nickname : Str) {packet : BitchatPacket}
      (hparse : parse_bitchat_packet raw = .ok packet)
      (hsender : packet.sender_id_str = sender.str)
      (htype : packet.msg_type = .NOISE_IDENTITY_ANNOUNCE)
      (hannounces : announcement_of packet = some (sender.str, nickname))
  | sealed {packet : BitchatPacket} (hparse : parse_bitchat_packet raw = .ok packet)
      (hsender : packet.sender_id_str = sender.str)
      (htype : packet.msg_type = .NOISE_ENCRYPTED ∨ packet.msg_type = .DELIVERY_ACK)

/-- A handshake packet with this message for the peer. -/
def IsHandshake (me peer : PeerId) (message raw : Bytes) : Prop :=
  ∃ msg_type ttl, (msg_type = .NOISE_HANDSHAKE_INIT ∨ msg_type = .NOISE_HANDSHAKE_RESP) ∧
    parse_bitchat_packet raw = .ok (received me (some peer) msg_type message ttl)

/-- Packets of which at most one is part of a handshake, and the message that
it carries. -/
inductive Carrying (me peer : PeerId) : Option Bytes → List Bytes → Prop
  | nil : Carrying me peer none []
  | plain {message : Option Bytes} {raw : Bytes} {rest : List Bytes} (hplain : Plain me raw)
    (hrest : Carrying me peer message rest) : Carrying me peer message (raw :: rest)
  | handshake {message raw : Bytes} {rest : List Bytes} (hraw : IsHandshake me peer message raw)
    (hrest : Carrying me peer none rest) : Carrying me peer (some message) (raw :: rest)

variable {me peer : PeerId} {conn : PeerConnection}

theorem Carrying.append {a b : Option Bytes} {xs ys : List Bytes} (h : Carrying me peer a xs)
    (g : Carrying me peer b ys) (hone : a = none ∨ b = none) :
    Carrying me peer (a.or b) (xs ++ ys) := by
  induction h with
  | nil => exact g
  | plain hplain _ ih => exact .plain hplain (ih hone)
  | handshake hraw _ ih =>
    obtain rfl : b = none := hone.resolve_left (by simp)
    exact .handshake hraw (ih (.inl rfl))

/-! ## What a call does to the handshake -/

/-- From `w` to `w'` the node came to this standing with its peer, and wrote
it packets of which one carries the handshake message, if there is one. -/
structure Advances (me peer : PeerId) (conn : PeerConnection) (after : Standing)
    (message : Option Bytes) (w w' : World) : Prop where
  joined : Joined me peer conn w'.node
  standing : standing peer.str w'.node.encryption_service = after
  writes : ∃ packets, Carrying me peer message packets ∧
    daemon.writes w'.out = daemon.writes w.out ++
      packets.map fun packet => (conn.address, framed packet)

theorem Advances.trans {s t : Standing} {a b : Option Bytes} {u v w : World}
    (h : Advances me peer conn s a u v) (g : Advances me peer conn t b v w)
    (hone : a = none ∨ b = none) : Advances me peer conn t (a.or b) u w := by
  obtain ⟨-, -, packets, hpackets, hwrites⟩ := h
  obtain ⟨hjoined, hstanding, packets', hpackets', hwrites'⟩ := g
  refine ⟨hjoined, hstanding, packets ++ packets', hpackets.append hpackets' hone, ?_⟩
  rw [hwrites', hwrites, List.map_append, List.append_assoc]

/-- The call leaves the handshake of a joined node alone. -/
def Untouched (me peer : PeerId) (conn : PeerConnection) (w w' : World) : Prop :=
  Joined me peer conn w.node →
    Advances me peer conn (standing peer.str w.node.encryption_service) none w w'

instance : IsPreorder World (Untouched me peer conn) where
  refl w h := ⟨h, rfl, [], .nil, by simp⟩
  trans u v w := by
    intro huv hvw hjoined
    have hfirst := huv hjoined
    have hthen := hvw hfirst.joined
    rw [hfirst.standing] at hthen
    exact hfirst.trans hthen (.inl rfl)

/-- Nothing is written, and the standing is the same. -/
theorem advances_silent {w w' : World} (hjoined : Joined me peer conn w'.node)
    (hstanding : standing peer.str w'.node.encryption_service =
      standing peer.str w.node.encryption_service)
    (hwrites : writes w'.out = writes w.out) :
    Advances me peer conn (standing peer.str w.node.encryption_service) none w w' := by
  refine ⟨hjoined, hstanding, [], .nil, ?_⟩
  rw [hwrites, List.map_nil, List.append_nil]

theorem untouched_emit {action : Action} (h : writes [action] = []) :
    Moves (Untouched me peer conn) (emit action) := by
  intro w hjoined
  refine advances_silent hjoined rfl ?_
  rw [exec_emit, writes_append, h, List.append_nil]

/-- A change of the node that keeps its sessions and its connections. -/
structure SameLink (n n' : MeshNode) : Prop where
  encryption_service : n'.encryption_service = n.encryption_service
  my_peer_id : n'.my_peer_id = n.my_peer_id
  connections : n'.connections = n.connections
  peer_addresses : n'.peer_addresses = n.peer_addresses

theorem SameLink.joined {n n' : MeshNode} (h : SameLink n n') (hjoined : Joined me peer conn n) :
    Joined me peer conn n' := by
  refine ⟨h.my_peer_id.trans hjoined.me, ?_, ?_⟩
  · rw [h.connections]
    exact hjoined.connections
  · rw [h.peer_addresses]
    exact hjoined.address

theorem untouched_modifyNode {f : MeshNode → MeshNode} (h : ∀ n, SameLink n (f n)) :
    Moves (Untouched me peer conn) (modifyNode f) := by
  intro w hjoined
  have hsame := h w.node
  have hjoined' : Joined me peer conn (f w.node) := hsame.joined hjoined
  exact advances_silent hjoined' (congrArg (standing peer.str) hsame.encryption_service) rfl

/-! ## Ciphers -/

theorem key_encrypt (data ad : Bytes) (cipher : NoiseCipherState) :
    (exec (NoiseCipherState.encrypt data ad) cipher).2.key = cipher.key := by
  unfold NoiseCipherState.encrypt
  simp only [exec_bind, exec_get]
  split
  · rfl
  · simp only [exec_ite]
    split <;> rfl

theorem key_decrypt (data ad : Bytes) (cipher : NoiseCipherState) :
    (exec (NoiseCipherState.decrypt data ad) cipher).2.key = cipher.key := by
  unfold NoiseCipherState.decrypt
  simp only [exec_bind, exec_get]
  split
  · rfl
  · simp only [exec_ite]
    split
    · rfl
    · simp only [exec_bind, exec_set]
      split <;> rfl

/-! ## Parts of the calls -/

/-- What follows may rely on the node as it is. -/
theorem untouched_node_bind {α : Type} {f : MeshNode → Mesh α}
    (h : ∀ self, Joined me peer conn self → Moves (Untouched me peer conn) (f self)) :
    Moves (Untouched me peer conn) (node >>= f) := by
  intro w hjoined
  rw [exec_bind_ok _ (exec_node w)]
  exact h w.node hjoined w hjoined

/-- A call of the service that at most moves the counters of a session. -/
theorem untouched_onService {α : Type} {x : Py PyError EncryptionService α}
    (h : ∀ svc, standing peer.str (exec x svc).2 = standing peer.str svc) :
    Moves (Untouched me peer conn) (onService x) := by
  intro w hjoined
  refine advances_silent ?_ (h w.node.encryption_service) rfl
  exact ⟨hjoined.me, hjoined.connections, hjoined.address⟩

/-- A session is replaced by one under the same keys. -/
theorem standing_set {svc : EncryptionService} {peer_id : Str} {session session' : NoiseSession}
    (hget : svc.sessions.get? peer_id = some session)
    (hkeys : cipher_keys session' = cipher_keys session) (peer_id' : Str) :
    standing peer_id' { svc with sessions := svc.sessions.set peer_id session' } =
      standing peer_id' svc := by
  unfold standing
  rw [Standing.mk.injEq]
  refine ⟨?_, rfl, rfl⟩
  rw [Dict.get?_set]
  split
  · rename_i heq
    rw [← heq, hget, Option.map_some, Option.map_some, hkeys]
  · rfl

theorem untouched_encrypt (data : Bytes) (peer_id : Str) :
    Moves (Untouched me peer conn) (onService (EncryptionService.encrypt data peer_id)) := by
  apply untouched_onService
  intro svc
  unfold EncryptionService.encrypt
  simp only [exec_bind, exec_get]
  cases hsession : svc.sessions.get? peer_id with
  | none => rfl
  | some session =>
    have hkey := key_encrypt data [] session.send_cipher
    simp only [exec_bind, exec_set]
    generalize exec (NoiseCipherState.encrypt data []) session.send_cipher = done at hkey ⊢
    obtain ⟨result, cipher⟩ := done
    have hkeys : cipher_keys { session with send_cipher := cipher } = cipher_keys session :=
      congrArg (·, session.receive_cipher.key) hkey
    have hstanding := standing_set hsession hkeys peer.str
    cases result <;> exact hstanding

theorem untouched_decrypt (peer_id : Str) (data : Bytes) :
    Moves (Untouched me peer conn)
      (onService (EncryptionService.decrypt_from_peer peer_id data)) := by
  apply untouched_onService
  intro svc
  unfold EncryptionService.decrypt_from_peer
  simp only [exec_bind, exec_get]
  cases hsession : svc.sessions.get? peer_id with
  | none => rfl
  | some session =>
    have hkey := key_decrypt data [] session.receive_cipher
    simp only [exec_bind, exec_set]
    generalize exec (NoiseCipherState.decrypt data []) session.receive_cipher = done at hkey ⊢
    obtain ⟨result, cipher⟩ := done
    have hkeys : cipher_keys { session with receive_cipher := cipher } = cipher_keys session :=
      congrArg (session.send_cipher.key, ·) hkey
    have hstanding := standing_set hsession hkeys peer.str
    cases result <;> exact hstanding

/-- A packet that is no part of a handshake goes to the peer. -/
theorem untouched_write {packet : Bytes} (hplain : Plain me packet) {send : Mesh Unit}
    (hfits : packet.length ≤ 65535 → ∀ w, Joined me peer conn w.node →
      exec send w = (.ok (), { w with out := w.out ++ [.write conn.address (framed packet)] }))
    (hlong : ¬ packet.length ≤ 65535 → ∀ w, Joined me peer conn w.node → (exec send w).2 = w) :
    Moves (Untouched me peer conn) send := by
  intro w hjoined
  by_cases hlength : packet.length ≤ 65535
  · rw [hfits hlength w hjoined]
    refine ⟨hjoined, rfl, [packet], .plain hplain .nil, ?_⟩
    rw [writes_append]
    rfl
  · rw [hlong hlength w hjoined]
    exact refl_of (Untouched me peer conn) w hjoined

theorem untouched_send_to_peer {env : Env} (henv : Lossless env) {packet : Bytes}
    (hplain : Plain me packet) :
    Moves (Untouched me peer conn) (send_to_peer env peer.str packet) := by
  apply untouched_write hplain
  · exact fun hfits w hjoined => hjoined.send_to_peer henv hfits
  · intro hlong w hjoined
    obtain ⟨e, he⟩ := hjoined.send_to_peer_long env hlong
    rw [he]

theorem untouched_raw_send {env : Env} (henv : Lossless env) {packet : Bytes}
    (hplain : Plain me packet) : Moves (Untouched me peer conn) (raw_send env packet) := by
  apply untouched_write hplain
  · exact fun hfits w hjoined => hjoined.raw_send henv hfits
  · exact fun hlong w _ => exec_raw_send_long hlong env w

/-- A packet of the sealed kinds, under any TTL. -/
theorem plain_created {msg_type : MessageType} {payload packet : Bytes} {draw : Draw}
    (hme : hex (rstripZero me.bytes) = me.str)
    (htype : msg_type = .NOISE_ENCRYPTED ∨ msg_type = .DELIVERY_ACK)
    (h : create_bitchat_packet_with_recipient me.str (some peer.str) msg_type payload none draw =
      .ok packet) : Plain me packet ∧ ∀ ttl, Plain me (with_ttl packet ttl) := by
  by_cases hp : payload.length < 65536
  · obtain ⟨raw, hraw, his⟩ := create_ok me (some peer) msg_type payload none draw hp
    obtain rfl : raw = packet := Except.ok.inj (hraw.symm.trans h)
    exact ⟨.sealed his.parse_raw hme htype, fun ttl => .sealed (his.parse ttl) hme htype⟩
  · rw [create_too_long _ _ _ _ _ _ hp] at h
    cases h

/-! ## Messages and ACKs -/

section

variable {env : Env}

theorem untouched_seal_ack (plain : Bytes) (sender_id : Str) (is_private : Bool) :
    Moves (Untouched me peer conn) (seal_ack plain sender_id is_private) := by
  unfold seal_ack
  apply Moves.ite
  · refine Moves.bind (Moves.attempt (untouched_encrypt _ _)) fun result => ?_
    cases result with
    | ok encrypted => exact Moves.pure _
    | error e => exact Moves.pure _
  · exact Moves.pure _

theorem untouched_send_delivery_ack (hme : hex (rstripZero me.bytes) = me.str) (henv : Lossless env)
    (message_id : Str) (is_private : Bool) :
    Moves (Untouched me peer conn) (send_delivery_ack env message_id peer.str is_private) := by
  unfold send_delivery_ack
  refine untouched_node_bind fun self hself => ?_
  split
  · refine Moves.bind (untouched_modifyNode fun _ => ⟨rfl, rfl, rfl, rfl⟩) fun _ => ?_
    refine Moves.bind (untouched_seal_ack _ _ _) fun payload => ?_
    refine Moves.outcome_bind fun packet hcreate => ?_
    rw [hself.me] at hcreate
    exact untouched_send_to_peer henv ((plain_created hme (.inr rfl) hcreate).2 3)
  · exact Moves.pure ()

theorem untouched_deliver (message : BitchatMessage) (sender_id : Str) (is_private : Bool) :
    Moves (Untouched me peer conn) (deliver message sender_id is_private) := by
  unfold deliver
  refine Moves.bind moves_node fun self => ?_
  split
  · exact Moves.throw _
  · refine Moves.bind (untouched_modifyNode fun _ => ⟨rfl, rfl, rfl, rfl⟩) fun _ => ?_
    exact untouched_emit rfl

theorem untouched_handle_noise_encrypted (hme : hex (rstripZero me.bytes) = me.str)
    (henv : Lossless env) {packet : BitchatPacket} (hsender : packet.sender_id_str = peer.str) :
    Moves (Untouched me peer conn) (handle_noise_encrypted env packet) := by
  unfold handle_noise_encrypted
  rw [hsender]
  refine Moves.bind moves_node fun self => ?_
  refine Moves.ite (Moves.pure ()) (Moves.suppress ?_)
  refine Moves.bind (untouched_decrypt _ _) fun decrypted => ?_
  unfold accept_encrypted
  refine Moves.ite ?_ (Moves.pure ())
  refine Moves.bind (Moves.outcome _) fun inner_packet => ?_
  refine Moves.ite ?_ (Moves.pure ())
  refine Moves.bind (Moves.outcome _) fun message => ?_
  refine Moves.bind moves_node fun self => ?_
  refine Moves.ite (Moves.pure ()) ?_
  refine Moves.bind (untouched_deliver _ _ _) fun _ => ?_
  exact untouched_send_delivery_ack hme henv _ _

theorem untouched_handle_delivery_ack (packet : BitchatPacket) (raw : Bytes) :
    Moves (Untouched me peer conn) (handle_delivery_ack packet raw) := by
  unfold handle_delivery_ack
  refine Moves.bind moves_node fun self => ?_
  apply Moves.ite
  · refine Moves.bind ?_ fun payload => ?_
    · unfold open_ack
      refine Moves.bind moves_node fun self => ?_
      refine Moves.ite ?_ (Moves.pure _)
      refine Moves.bind (Moves.attempt (untouched_decrypt _ _)) fun result => ?_
      cases result with
      | ok decrypted => exact Moves.pure _
      | error e => exact Moves.pure _
    · split
      · unfold take_ack
        refine Moves.bind moves_node fun self => ?_
        split
        · exact Moves.pure ()
        · refine Moves.bind (untouched_modifyNode fun _ => ⟨rfl, rfl, rfl, rfl⟩) fun _ => ?_
          exact Moves.ite (untouched_emit rfl) (Moves.pure ())
      · exact Moves.pure ()
  · unfold relay
    exact Moves.ite (Moves.pure ()) (untouched_emit rfl)

/-- A private message for a peer with a session. -/
theorem untouched_encrypt_private_message (hme : hex (rstripZero me.bytes) = me.str)
    (henv : Lossless env) (content : Str) :
    Moves (Untouched me peer conn) (encrypt_private_message env content peer.str) := by
  unfold encrypt_private_message
  refine untouched_node_bind fun self hself => ?_
  refine Moves.bind (Moves.outcome _) fun payload => ?_
  refine Moves.bind (untouched_modifyNode fun _ => ⟨rfl, rfl, rfl, rfl⟩) fun _ => ?_
  refine Moves.bind (Moves.outcome _) fun inner_packet => ?_
  refine Moves.bind (untouched_encrypt _ _) fun encrypted => ?_
  refine Moves.outcome_bind fun packet hcreate => ?_
  rw [hself.me] at hcreate
  refine Moves.bind (untouched_send_to_peer henv (plain_created hme (.inl rfl) hcreate).1)
    fun _ => ?_
  exact Moves.pure _

theorem untouched_send_pending (peer_id : Str) :
    Moves (Untouched me peer conn) (send_pending_private_messages peer_id) := by
  unfold send_pending_private_messages
  refine Moves.bind moves_node fun self => ?_
  refine Moves.bind (untouched_modifyNode fun _ => ⟨rfl, rfl, rfl, rfl⟩) fun _ => ?_
  exact Moves.ite (Moves.pure ()) (untouched_emit rfl)

/-! ## Announcements -/

theorem untouched_announced (peer_id nickname : Str) :
    Moves (Untouched me peer conn) (announced peer_id nickname) := by
  unfold announced
  refine Moves.bind moves_node fun self => ?_
  refine Moves.bind (untouched_modifyNode fun _ => ⟨rfl, rfl, rfl, rfl⟩) fun _ => ?_
  split
  · exact Moves.pure ()
  · exact untouched_emit rfl

/-- The announcement that a node writes tells its own id. -/
theorem untouched_send_identity_announce (hme : hex (rstripZero me.bytes) = me.str)
    (henv : Lossless env) : Moves (Untouched me peer conn) (send_identity_announce env) := by
  unfold send_identity_announce
  refine untouched_node_bind fun self hself => ?_
  rw [hself.me]
  refine Moves.outcome_bind fun payload hpayload => ?_
  refine Moves.outcome_bind fun packet hcreate => ?_
  obtain ⟨rfl, hkey, hsigning, hnickname, hsignature⟩ := encode_announcement hpayload
  obtain ⟨raw, hraw, his⟩ := create_ok me none .NOISE_IDENTITY_ANNOUNCE _ _ (env.draw 1)
    (Nat.lt_of_le_of_lt (length_announcement_layout_le me.length_bytes hkey hsigning hnickname
      hsignature) (by decide))
  obtain rfl : raw = packet := Except.ok.inj (hraw.symm.trans hcreate)
  obtain ⟨announcement, hparse, hid, hname⟩ := parse_announcement_layout me
    ((env.draw 0).timestamp_ms * 1000) hkey hsigning hnickname hsignature
  refine untouched_raw_send henv (.announcement self.nickname his.parse_raw hme rfl ?_)
  unfold announcement_of received
  simp only [hparse, Option.map_some, hid, hname]

/-! ## Handshake packets -/

/-- A handshake message goes out in a packet for the peer. -/
theorem advances_answer {answer : MessageType} {w : World} {message : Bytes}
    (h : Joined me peer conn w.node) (henv : Lossless env)
    (htype : answer = .NOISE_HANDSHAKE_INIT ∨ answer = .NOISE_HANDSHAKE_RESP)
    (hlength : message.length ≤ 96) :
    ∃ w', exec (answer_handshake answer env peer.str (some message)) w = (.ok (), w') ∧
      Advances me peer conn (standing peer.str w.node.encryption_service) (some message) w w' := by
  obtain ⟨packet, hcreate, his⟩ := create_ok me (some peer) answer message none (env.draw 1)
    (by omega)
  rw [Option.map_some] at hcreate
  have hframe : (with_ttl packet 3).length ≤ 65535 := by
    rw [with_ttl, List.length_set, his.fits, bare_length_to]
    omega
  refine ⟨{ w with out := w.out ++ [.write conn.address (framed (with_ttl packet 3))] }, ?_, h, rfl,
    [with_ttl packet 3], .handshake ⟨answer, 3, htype, his.parse 3⟩ .nil, ?_⟩
  · unfold answer_handshake
    simp only [exec_bind, exec_node, h.me, hcreate, exec_outcome_ok]
    exact h.send_to_peer henv hframe
  · rw [writes_append]
    rfl

theorem untouched_session_established (peer_id : Str) :
    Moves (Untouched me peer conn) (session_established peer_id) := by
  unfold session_established
  refine Moves.bind moves_node fun self => ?_
  refine Moves.ite ?_ (Moves.pure ())
  refine Moves.bind (untouched_modifyNode fun _ => ⟨rfl, rfl, rfl, rfl⟩) fun _ => ?_
  exact untouched_send_pending peer_id

/-- The service moves on, and a task may be put off. -/
theorem advances_process {message : Bytes} {w : World} {response : Option Bytes}
    {authenticated : Option (Str × Str)} {svc' : EncryptionService} (h : Joined me peer conn w.node)
    (hprocess : exec (EncryptionService.process_handshake_message peer.str message
      (env.draw 0).generate (env.draw 0).time_us) w.node.encryption_service =
        (.ok (response, authenticated), svc'))
    (hlong : ∀ m ∈ response, 32 ≤ m.length) :
    ∃ w₁, exec (process_handshake_message env peer.str message) w = (.ok response, w₁) ∧
      Advances me peer conn (standing peer.str svc') none w w₁ := by
  have hfilter : response.filter (· ≠ []) = response := by
    cases response with
    | none => rfl
    | some m =>
      have hne : m ≠ [] := by
        rintro rfl
        simpa using hlong [] rfl
      simp [hne]
  have hjoined : Joined me peer conn { w.node with encryption_service := svc' } :=
    ⟨h.me, h.connections, h.address⟩
  unfold process_handshake_message
  simp only [exec_bind, exec_onService, hprocess]
  cases authenticated with
  | none =>
    refine ⟨_, congrArg (fun r => (Except.ok r, _)) hfilter, hjoined, rfl, [], .nil, ?_⟩
    rw [List.map_nil, List.append_nil]
  | some peer_id =>
    refine ⟨_, congrArg (fun r => (Except.ok r, _)) hfilter, hjoined, rfl, [], .nil, ?_⟩
    rw [writes_append]
    rfl

/-- The answer is sent, if there is one. -/
theorem advances_response {answer : MessageType} {w : World} {response : Option Bytes}
    (h : Joined me peer conn w.node) (henv : Lossless env)
    (htype : answer = .NOISE_HANDSHAKE_INIT ∨ answer = .NOISE_HANDSHAKE_RESP)
    (hlength : ∀ m ∈ response, m.length ≤ 96) :
    ∃ w', exec (answer_handshake answer env peer.str response) w = (.ok (), w') ∧
      Advances me peer conn (standing peer.str w.node.encryption_service) response w w' := by
  cases response with
  | none => exact ⟨w, rfl, refl_of (Untouched me peer conn) w h⟩
  | some message => exact advances_answer h henv htype (hlength message rfl)

/-- The node takes the message of a handshake packet as its service says, and
sends the answer. -/
theorem advances_handle_noise_handshake {answer : MessageType} {packet : BitchatPacket} {w : World}
    {response : Option Bytes} {authenticated : Option (Str × Str)} {svc' : EncryptionService}
    (h : Joined me peer conn w.node) (henv : Lossless env)
    (htype : answer = .NOISE_HANDSHAKE_INIT ∨ answer = .NOISE_HANDSHAKE_RESP)
    (hsender : packet.sender_id_str = peer.str) (hmine : for_another w.node packet = false)
    (hprocess : exec (EncryptionService.process_handshake_message peer.str packet.payload
      (env.draw 0).generate (env.draw 0).time_us) w.node.encryption_service =
        (.ok (response, authenticated), svc'))
    (hlength : ∀ m ∈ response, 32 ≤ m.length ∧ m.length ≤ 96) :
    Advances me peer conn (standing peer.str svc') response w
      (exec (handle_noise_handshake answer env packet) w).2 := by
  obtain ⟨w₁, hfirst, hmoved⟩ := advances_process h hprocess fun m hm => (hlength m hm).1
  obtain ⟨w₂, hsecond, hsent⟩ := advances_response hmoved.joined henv htype fun m hm =>
    (hlength m hm).2
  have hdone := untouched_session_established peer.str w₂ hsent.joined
  have hreturns := session_established_returns peer.str w₂
  rcases hthird : exec (session_established peer.str) w₂ with ⟨result, w₃⟩
  rw [hthird] at hdone hreturns
  obtain rfl : result = .ok () := hreturns
  rw [hmoved.standing] at hsent
  rw [hsent.standing] at hdone
  unfold handle_noise_handshake take_handshake
  simp only [exec_bind, exec_node, hmine, Bool.false_eq_true, if_false, exec_attempt, hsender,
    hfirst, hsecond, hthird, exec_pure]
  have hall := (hmoved.trans hsent (.inl rfl)).trans hdone (.inr rfl)
  rw [Option.none_or, Option.or_none] at hall
  exact hall

/-! ## What starts a handshake -/

/-- A private message would start a handshake with the peer now. -/
def Attempts (peer_id : Str) (now : UInt64) (self : MeshNode) : Prop :=
  ¬ has_session peer_id self ∧
    ∀ last ∈ self.handshake_attempt_times.get? peer_id, last.toNat + handshake_timeout ≤ now.toNat

/-- What a step that takes no handshake packet does: on the condition it starts
a handshake, and otherwise it leaves the handshake alone. -/
inductive StartsIf (me peer : PeerId) (conn : PeerConnection) (static_r : Crypto.PrivateKey)
    (starts : Prop) (w w' : World) : Prop
  | untouched (hnot : ¬ starts)
    (h : Advances me peer conn (standing peer.str w.node.encryption_service) none w w')
  | started {message : Bytes} {i : NoiseHandshakeState} (hstarts : starts)
    (h : Advances me peer conn ⟨none, some i, w.node.encryption_service.static_identity_key⟩
      (some message) w w')
    (hsent : FirstSent w.node.encryption_service.static_identity_key static_r message i)

section

variable [LawfulCrypto] {static_r : Crypto.PrivateKey} {starts : Prop} {w : World}

theorem startsIf_initiate_handshake (h : Joined me peer conn w.node) (henv : Lossless env)
    (hstarts : starts) :
    StartsIf me peer conn static_r starts w (exec (initiate_handshake env peer.str) w).2 := by
  obtain ⟨message, i, svc', hinitiate, hstanding, hlength, hsent⟩ :=
    EncryptionService.initiate_sends_first w.node.encryption_service peer.str
      (env.draw 0).generate static_r
  generalize hw₁ : World.mk { w.node with encryption_service := svc' } w.out = w₁
  have hjoined : Joined me peer conn w₁.node := by
    rw [← hw₁]
    exact ⟨h.me, h.connections, h.address⟩
  obtain ⟨w', hanswer, hadvances⟩ := advances_answer hjoined henv (.inl rfl) hlength
  have hexec : (exec (initiate_handshake env peer.str) w).2 =
      (exec (answer_handshake .NOISE_HANDSHAKE_INIT env peer.str (some message)) w₁).2 := by
    unfold initiate_handshake answer_handshake
    simp only [exec_suppress, exec_bind, exec_onService, hinitiate, hw₁]
  rw [hexec, hanswer]
  obtain ⟨hjoined', hstanding', hwrites⟩ := hadvances
  refine .started hstarts ⟨hjoined', ?_, ?_⟩ hsent
  · rw [hstanding', ← hw₁]
    exact hstanding
  · rw [← hw₁] at hwrites
    exact hwrites

omit [LawfulCrypto] in
/-- What comes before leaves the handshake alone. -/
theorem StartsIf.after {v w' : World} (h : Joined me peer conn w.node)
    (huntouched : Untouched me peer conn w v) (hturn : StartsIf me peer conn static_r starts v w') :
    StartsIf me peer conn static_r starts w w' := by
  have hfirst := huntouched h
  have hidentity := congrArg Standing.identity hfirst.standing
  cases hturn with
  | untouched hnot hthen =>
    rw [hfirst.standing] at hthen
    exact .untouched hnot (hfirst.trans hthen (.inl rfl))
  | started hstarts hthen hsent =>
    rw [show v.node.encryption_service.static_identity_key =
      w.node.encryption_service.static_identity_key from hidentity] at hthen hsent
    exact .started hstarts (hfirst.trans hthen (.inl rfl)) hsent

omit [LawfulCrypto] in
/-- So does what comes then. -/
theorem StartsIf.before {v w' : World} (hturn : StartsIf me peer conn static_r starts w v)
    (huntouched : Untouched me peer conn v w') : StartsIf me peer conn static_r starts w w' := by
  cases hturn with
  | untouched hnot hfirst =>
    have hthen := huntouched hfirst.joined
    rw [hfirst.standing] at hthen
    exact .untouched hnot (hfirst.trans hthen (.inl rfl))
  | started hstarts hfirst hsent =>
    have hthen := huntouched hfirst.joined
    rw [hfirst.standing] at hthen
    exact .started hstarts (hfirst.trans hthen (.inr rfl)) hsent

omit [LawfulCrypto] in
theorem StartsIf.of_iff {starts' : Prop} {w' : World}
    (h : StartsIf me peer conn static_r starts w w')
    (hiff : starts ↔ starts') : StartsIf me peer conn static_r starts' w w' := by
  rw [← hiff]
  exact h

omit [LawfulCrypto] in
theorem untouched_of_sameLink {w' : World} (h : SameLink w.node w'.node) (hout : w'.out = w.out) :
    Untouched me peer conn w w' := fun hjoined =>
  advances_silent (h.joined hjoined) (congrArg (standing peer.str) h.encryption_service)
    (congrArg writes hout)

theorem startsIf_attempt_if_due (h : Joined me peer conn w.node) (henv : Lossless env)
    (hsession : ¬ has_session peer.str w.node) (now : UInt64) :
    StartsIf me peer conn static_r (Attempts peer.str now w.node) w
      (exec (attempt_if_due env peer.str now) w).2 := by
  have hattempt (hdue : Attempts peer.str now w.node) :
      StartsIf me peer conn static_r (Attempts peer.str now w.node) w
        (exec (attempt_handshake env peer.str now) w).2 := by
    unfold attempt_handshake
    simp only [exec_bind, exec_modifyNode]
    generalize hw₁ : World.mk _ _ = w₁
    have hlink : SameLink w.node w₁.node := by
      rw [← hw₁]
      exact ⟨rfl, rfl, rfl, rfl⟩
    refine StartsIf.after h (untouched_of_sameLink hlink (by rw [← hw₁])) ?_
    exact startsIf_initiate_handshake (hlink.joined h) henv hdue
  unfold attempt_if_due
  simp only [exec_bind, exec_node]
  rcases htime : w.node.handshake_attempt_times.get? peer.str with _ | last
  · refine hattempt ⟨hsession, fun last hlast => ?_⟩
    rw [htime] at hlast
    cases hlast
  · simp only [exec_ite, exec_pure]
    split
    · rename_i hrecent
      refine .untouched ?_ (refl_of (Untouched me peer conn) w h)
      exact fun hattempts => Nat.not_le.mpr hrecent (hattempts.2 last htime)
    · rename_i hdue
      refine hattempt ⟨hsession, fun last' hlast => ?_⟩
      rw [htime] at hlast
      obtain rfl : last = last' := Option.some.inj hlast
      exact Nat.le_of_not_lt hdue

theorem startsIf_queue_private_message (h : Joined me peer conn w.node) (henv : Lossless env)
    (hsession : ¬ has_session peer.str w.node) (content nickname : Str) (message_id : Option Str) :
    StartsIf me peer conn static_r (Attempts peer.str (env.draw 1).time_us w.node) w
      (exec (queue_private_message env content peer.str nickname message_id) w).2 := by
  have hskip : Lossless (env.skip 2) := henv
  unfold queue_private_message
  simp only [exec_bind, exec_node, exec_modifyNode, exec_pure]
  generalize hw₁ : World.mk _ _ = w₁
  have hlink : SameLink w.node w₁.node := by
    rw [← hw₁]
    exact ⟨rfl, rfl, rfl, rfl⟩
  have hfirst : Untouched me peer conn w w₁ :=
    untouched_of_sameLink hlink (by rw [← hw₁])
  have hsession' : ¬ has_session peer.str w₁.node := by
    rw [has_session, hlink.encryption_service]
    exact hsession
  have hturn : StartsIf me peer conn static_r _ w₁ _ :=
    startsIf_attempt_if_due (hlink.joined h) hskip hsession' (env.draw 1).time_us
  have htimes : w₁.node.handshake_attempt_times = w.node.handshake_attempt_times := by rw [← hw₁]
  have hall : StartsIf me peer conn static_r (Attempts peer.str (env.draw 1).time_us w.node) w _ :=
    (hturn.after h hfirst).of_iff (by
      unfold Attempts
      rw [htimes, and_iff_right hsession, and_iff_right hsession'])
  rcases hexec : exec (attempt_if_due (env.skip 2) peer.str (env.draw 1).time_us) w₁ with
    ⟨result, w'⟩
  rw [hexec] at hall
  cases result <;> exact hall

theorem startsIf_send_private_message (hme : hex (rstripZero me.bytes) = me.str)
    (h : Joined me peer conn w.node) (henv : Lossless env) (content nickname : Str)
    (message_id : Option Str) :
    StartsIf me peer conn static_r (Attempts peer.str (env.draw 1).time_us w.node) w
      (exec (send_private_message env content peer.str nickname message_id) w).2 := by
  unfold send_private_message
  simp only [exec_bind, exec_node, exec_ite]
  split
  · rename_i hsession
    refine .untouched (fun hattempts => hattempts.1 hsession) ?_
    exact untouched_encrypt_private_message hme henv content w h
  · rename_i hsession
    exact startsIf_queue_private_message h henv hsession content nickname message_id

theorem startsIf_send_each (hme : hex (rstripZero me.bytes) = me.str)
    (h : Joined me peer conn w.node)
    (henv : Lossless env) (content nickname msg_id : Str) (rest : List (Str × Str × Str)) :
    StartsIf me peer conn static_r (Attempts peer.str (env.draw 1).time_us w.node) w
      (exec (run_later env (.send_each peer.str ((content, nickname, msg_id) :: rest))) w).2 := by
  unfold run_later
  simp only [exec_bind, exec_suppress]
  refine (startsIf_send_private_message hme h henv content nickname (some msg_id)).before ?_
  have hsleep : Moves (Untouched me peer conn) (sleep_before_next peer.str rest) := by
    unfold sleep_before_next
    exact Moves.ite (Moves.pure ()) (untouched_emit rfl)
  exact hsleep _

/-- The tie-breaker. -/
def TakesLead (me peer : PeerId) (self : MeshNode) : Prop :=
  me.str < peer.str ∧ ¬ has_session peer.str self

theorem startsIf_identity_announce {packet : BitchatPacket} {nickname : Str}
    (h : Joined me peer conn w.node) (henv : Lossless env) (hother : packet.sender_id_str ≠ me.str)
    (hannounces : announcement_of packet = some (peer.str, nickname)) :
    StartsIf me peer conn static_r (TakesLead me peer w.node) w
      (exec (handle_noise_identity_announce env packet) w).2 := by
  have hannounced : Untouched me peer conn w (exec (announced peer.str nickname) w).2 :=
    untouched_announced peer.str nickname w
  obtain ⟨hok, -⟩ := exec_announced peer.str nickname w
  rcases hexec : exec (announced peer.str nickname) w with ⟨result, w₁⟩
  rw [hexec] at hannounced hok
  obtain rfl : result = .ok () := hok
  unfold handle_noise_identity_announce
  rw [exec_bind_ok _ (exec_node w), h.me, if_neg hother, hannounces]
  simp only
  rw [exec_bind_ok _ hexec, exec_ite]
  split
  · rename_i hleads
    exact StartsIf.after h hannounced
      (startsIf_initiate_handshake (hannounced h).joined henv hleads)
  · rename_i hnot
    exact .untouched hnot (hannounced h)

omit [LawfulCrypto] in
theorem untouched_heard : Untouched me peer conn w (w.heard peer.str conn.address) := fun hjoined =>
  advances_silent ⟨hjoined.me, hjoined.connections, Dict.get?_set_self _ _ _⟩ rfl rfl

/-- The packet is an announcement of the peer on which the node starts a handshake. -/
def CallsFor (me peer : PeerId) (raw : Bytes) (self : MeshNode) : Prop :=
  ∃ packet nickname, parse_bitchat_packet raw = .ok packet ∧
    packet.msg_type = .NOISE_IDENTITY_ANNOUNCE ∧
    announcement_of packet = some (peer.str, nickname) ∧ TakesLead me peer self

/-- What a packet of the peer does that is no part of a handshake. -/
theorem startsIf_receives_plain (hme : hex (rstripZero me.bytes) = me.str) (hne : peer.str ≠ me.str)
    (h : Joined me peer conn w.node) (henv : Lossless env) {raw : Bytes} (hplain : Plain peer raw) :
    StartsIf me peer conn static_r (CallsFor me peer raw w.node) w
      (exec (on_packet_received env conn raw) w).2 := by
  have hheard : Untouched me peer conn w (w.heard peer.str conn.address) := untouched_heard
  have hjoined := (hheard h).joined
  obtain ⟨packet, hparse, hsender, hcases⟩ : ∃ packet, parse_bitchat_packet raw = .ok packet ∧
      packet.sender_id_str = peer.str ∧ StartsIf me peer conn static_r (CallsFor me peer raw w.node)
        (w.heard peer.str conn.address)
        (exec (handle env packet raw) (w.heard peer.str conn.address)).2 := by
    cases hplain with
    | announcement nickname hparse hsender htype hannounces =>
      refine ⟨_, hparse, hsender, ?_⟩
      have hstarts : StartsIf me peer conn static_r _ _ _ :=
        startsIf_identity_announce hjoined henv (ne_of_eq_of_ne hsender hne) hannounces
      unfold handle handler
      rw [htype]
      refine hstarts.of_iff ⟨fun hleads => ⟨_, nickname, hparse, htype, hannounces, hleads⟩, ?_⟩
      rintro ⟨_, _, _, _, _, hleads⟩
      exact hleads
    | sealed hparse hsender htype =>
      refine ⟨_, hparse, hsender, .untouched ?_ ?_⟩
      · rintro ⟨packet, _, hparse', hannouncement, _⟩
        obtain rfl := Except.ok.inj (hparse.symm.trans hparse')
        rw [hannouncement] at htype
        simp at htype
      · unfold handle handler
        rcases htype with htype | htype
        · rw [htype]
          exact untouched_handle_noise_encrypted hme henv hsender _ hjoined
        · rw [htype]
          exact untouched_handle_delivery_ack _ raw _ hjoined
  have hother : packet.sender_id_str ≠ w.node.my_peer_id.str := by
    rw [hsender, h.me]
    exact hne
  rw [exec_on_packet_received hparse hother, hsender]
  exact StartsIf.after h hheard hcases

omit [LawfulCrypto] in
/-- What a handshake packet of the peer does. -/
theorem advances_receives_handshake (hme : hex (rstripZero me.bytes) = me.str)
    (hpeer : hex (rstripZero peer.bytes) = peer.str) (hne : peer.str ≠ me.str)
    (h : Joined me peer conn w.node) (henv : Lossless env) {message raw : Bytes}
    (hraw : IsHandshake peer me message raw) {response : Option Bytes}
    {authenticated : Option (Str × Str)} {svc' : EncryptionService}
    (hprocess : exec (EncryptionService.process_handshake_message peer.str message
      (env.draw 0).generate (env.draw 0).time_us) w.node.encryption_service =
        (.ok (response, authenticated), svc'))
    (hlength : ∀ m ∈ response, 32 ≤ m.length ∧ m.length ≤ 96) :
    Advances me peer conn (standing peer.str svc') response w
      (exec (on_packet_received env conn raw) w).2 := by
  obtain ⟨msg_type, ttl, htype, hparse⟩ := hraw
  have hheard : Untouched me peer conn w (w.heard peer.str conn.address) := untouched_heard
  have hjoined := (hheard h).joined
  have hother : (received peer (some me) msg_type message ttl).sender_id_str ≠
      w.node.my_peer_id.str := by
    rw [h.me]
    exact ne_of_eq_of_ne hpeer hne
  have hmine : for_another (w.heard peer.str conn.address).node
      (received peer (some me) msg_type message ttl) = false := by
    unfold for_another received recipient_read
    rw [hjoined.me]
    simp [hme]
  have hhandle : handle env (received peer (some me) msg_type message ttl) raw =
      handle_noise_handshake (if msg_type = .NOISE_HANDSHAKE_INIT then .NOISE_HANDSHAKE_RESP
        else .NOISE_HANDSHAKE_INIT) env (received peer (some me) msg_type message ttl) := by
    rcases htype with rfl | rfl <;> rfl
  have hanswer : (if msg_type = .NOISE_HANDSHAKE_INIT then MessageType.NOISE_HANDSHAKE_RESP
      else .NOISE_HANDSHAKE_INIT) = .NOISE_HANDSHAKE_INIT ∨
      (if msg_type = .NOISE_HANDSHAKE_INIT then MessageType.NOISE_HANDSHAKE_RESP
        else .NOISE_HANDSHAKE_INIT) = .NOISE_HANDSHAKE_RESP := by
    rcases htype with rfl | rfl
    · exact .inr rfl
    · exact .inl rfl
  rw [exec_on_packet_received hparse hother, hhandle]
  have hall := (hheard h).trans (advances_handle_noise_handshake hjoined henv hanswer hpeer hmine
    hprocess hlength) (.inl rfl)
  rw [Option.none_or] at hall
  rw [show (received peer (some me) msg_type message ttl).sender_id_str = peer.str from hpeer]
  exact hall

end

end

end daemon
