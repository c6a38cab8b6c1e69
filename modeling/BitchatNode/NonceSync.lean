-- The nonces of a session over a link. Every packet sealed by one side is
-- opened by the other under the nonce it was sealed with, as long as no nonce
-- is spent on a packet that never leaves, and no ACK in plain text is opened
-- as if it were sealed.
import BitchatNode.Link
import BitchatNode.NoiseChannel
import BitchatNode.NewMessages

namespace daemon

open python bitchat bitchat.protocol bitchat.encryption

variable [Packages]

/-! ## A session and its two counters -/

/-- The session with these nonces. -/
def counted (s : NoiseSession) (send receive : Nat) : NoiseSession :=
  { s with
    send_cipher := { s.send_cipher with nonce := send }
    receive_cipher := { s.receive_cipher with nonce := receive } }

section

variable {svc : EncryptionService} {peer_id : Str} {s : NoiseSession} {n m : Nat} {key : Bytes}

theorem exec_encrypt (h : svc.sessions.get? peer_id = some (counted s n m))
    (hkey : s.send_cipher.key = some key) (hn : n < NoiseCipherState.NONCES) (data : Bytes) :
    exec (EncryptionService.encrypt data peer_id) svc =
      (.ok (Crypto.chacha_encrypt key (NoiseCipherState.nonce_bytes n) data []),
        { svc with sessions := svc.sessions.set peer_id (counted s (n + 1) m) }) := by
  have hsend := NoiseCipherState.encrypt_ok (c := (counted s n m).send_cipher) data [] hkey hn
  unfold EncryptionService.encrypt
  simp only [exec_bind, exec_get, h, hsend, exec_set, exec_outcome_ok]
  rfl

theorem exec_encrypt_overflow (h : svc.sessions.get? peer_id = some (counted s n m))
    (hkey : s.send_cipher.key = some key) (hn : NoiseCipherState.NONCES ≤ n) (data : Bytes) :
    exec (EncryptionService.encrypt data peer_id) svc =
      (.error .OverflowError,
        { svc with sessions := svc.sessions.set peer_id (counted s n m) }) := by
  have hsend := NoiseCipherState.encrypt_overflow (c := (counted s n m).send_cipher) data [] hkey hn
  unfold EncryptionService.encrypt
  simp only [exec_bind, exec_get, h, hsend, exec_set, exec_outcome_error]

theorem exec_decrypt [LawfulCrypto] (h : svc.sessions.get? peer_id = some (counted s n m))
    (hkey : s.receive_cipher.key = some key) (hm : m < NoiseCipherState.NONCES) (data : Bytes) :
    exec (EncryptionService.decrypt_from_peer peer_id
        (Crypto.chacha_encrypt key (NoiseCipherState.nonce_bytes m) data [])) svc =
      (.ok data, { svc with sessions := svc.sessions.set peer_id (counted s n (m + 1)) }) := by
  have hreceive := NoiseCipherState.decrypt_ok (c := (counted s n m).receive_cipher) data [] hkey hm
  unfold EncryptionService.decrypt_from_peer
  simp only [exec_bind, exec_get, h]
  rw [show (counted s n m).receive_cipher.nonce = m from rfl] at hreceive
  simp only [hreceive, exec_set, exec_outcome_ok]
  rfl

theorem exec_decrypt_overflow (h : svc.sessions.get? peer_id = some (counted s n m))
    (hkey : s.receive_cipher.key = some key) (hm : NoiseCipherState.NONCES ≤ m) (data : Bytes) :
    exec (EncryptionService.decrypt_from_peer peer_id data) svc =
      (.error .OverflowError,
        { svc with sessions := svc.sessions.set peer_id (counted s n m) }) := by
  have hreceive : exec (NoiseCipherState.decrypt data []) (counted s n m).receive_cipher =
      (.error .OverflowError, (counted s n m).receive_cipher) := by
    have hkey' : (counted s n m).receive_cipher.key = some key := hkey
    have hm' : NoiseCipherState.NONCES ≤ (counted s n m).receive_cipher.nonce := hm
    simp [NoiseCipherState.decrypt, hkey', hm']
  unfold EncryptionService.decrypt_from_peer
  simp only [exec_bind, exec_get, h, hreceive, exec_set, exec_outcome_error]

end

/-! ## A node with a session -/

/-- The node is joined to its peer and holds the session with these nonces for
it, under a key that it has not blocked. -/
structure Settled (me peer : PeerId) (conn : PeerConnection) (s : NoiseSession) (n m : Nat)
    (node : MeshNode) : Prop extends Joined me peer conn node where
  session : node.encryption_service.sessions.get? peer.str = some (counted s n m)
  unblocked : ¬ (s.get_fingerprint ≠ [] ∧ s.get_fingerprint ∈ node.blocked_peers)

section

variable {me peer : PeerId} {conn : PeerConnection} {s : NoiseSession} {n m n' m' : Nat}
  {node : MeshNode}

/-- The session moves on. -/
theorem Settled.moves (h : Settled me peer conn s n m node) :
    Settled me peer conn s n' m' { node with
      encryption_service := { node.encryption_service with
        sessions := node.encryption_service.sessions.set peer.str (counted s n' m') } } :=
  ⟨⟨h.me, h.connections, h.address⟩, Dict.get?_set_self _ _ _, h.unblocked⟩

theorem Settled.not_blocked (h : Settled me peer conn s n m node) :
    is_blocked node peer.str = false := by
  have hfingerprint : node.encryption_service.get_peer_fingerprint peer.str =
      some s.get_fingerprint := by
    unfold EncryptionService.get_peer_fingerprint
    rw [h.session]
    rfl
  unfold is_blocked
  rw [hfingerprint]
  exact decide_eq_false h.unblocked

theorem Settled.established (h : Settled me peer conn s n m node) :
    node.encryption_service.is_session_established peer.str = true := by
  unfold EncryptionService.is_session_established Dict.has
  rw [h.session]
  rfl

theorem Settled.send_nonce (h : Settled me peer conn s n m node) :
    send_nonce node peer.str = n := by
  unfold daemon.send_nonce
  rw [h.session]
  rfl

end

/-! ## What is on the wire -/

theorem parse_with_ttl {raw : Bytes} {sender : PeerId} {recipient : Option PeerId}
    {msg_type : MessageType} {payload : Bytes} {signature : Option Bytes}
    (h : IsPacket raw sender recipient msg_type payload signature) (ttl : UInt8) :
    parse_bitchat_packet (with_ttl raw ttl) = .ok
      (received sender recipient msg_type payload ttl) :=
  h.parse ttl

/-- The message inside a private packet has a drawn id. -/
def PrivatePlain (plain : Bytes) : Prop :=
  ∀ inner_packet message, parse_bitchat_packet plain = .ok inner_packet →
    parse_bitchat_message_payload inner_packet.payload = .ok message →
      ∃ uuid : Uuid, message.id = uuid.str

/-- What a packet from `x` to `y` does to the counter of `y`: it is sealed
under the nonce `n` of the key and moves the counter on, or it leaves it. -/
inductive Carries (x y : PeerId) (key : Bytes) : Nat → Frame → Nat → Prop
  /-- A private message. -/
  | sealed {n : Nat} {raw plain : Bytes} (hn : n < NoiseCipherState.NONCES)
    (hraw : IsPacket raw x (some y) .NOISE_ENCRYPTED
      (Crypto.chacha_encrypt key (NoiseCipherState.nonce_bytes n) plain []) none)
    (hplain : PrivatePlain plain) : Carries x y key n ⟨raw, n⟩ (n + 1)
  /-- The ACK of a private message. -/
  | ack {n : Nat} {raw plain : Bytes} (hn : n < NoiseCipherState.NONCES)
    (hraw : IsPacket raw x (some y) .DELIVERY_ACK
      (Crypto.chacha_encrypt key (NoiseCipherState.nonce_bytes n) plain []) none) (nonce : Nat) :
    Carries x y key n ⟨with_ttl raw 3, nonce⟩ (n + 1)
  /-- An ACK in plain text, once the nonces are used up. -/
  | late_ack {n : Nat} {raw plain : Bytes} (hn : NoiseCipherState.NONCES ≤ n)
    (hraw : IsPacket raw x (some y) .DELIVERY_ACK plain none) (nonce : Nat) :
    Carries x y key n ⟨with_ttl raw 3, nonce⟩ n
  /-- A message for everyone. -/
  | message {n : Nat} {raw payload : Bytes} (hraw : IsPacket raw x none .MESSAGE payload none)
    (nonce : Nat) : Carries x y key n ⟨raw, nonce⟩ n
  /-- A message of `y` that `x` relays. -/
  | echo {n : Nat} {raw payload : Bytes} (hraw : IsPacket raw y none .MESSAGE payload none)
    (ttl : UInt8) (nonce : Nat) : Carries x y key n ⟨with_ttl raw ttl, nonce⟩ n

/-- The packets on a wire, which move the counter of the reader from the first
number to the last. -/
inductive Chain (x y : PeerId) (key : Bytes) : Nat → List Frame → Nat → Prop
  | nil (n : Nat) : Chain x y key n [] n
  | cons {n m k : Nat} {f : Frame} {rest : List Frame} (hf : Carries x y key n f m)
    (hrest : Chain x y key m rest k) : Chain x y key n (f :: rest) k

theorem Chain.append {x y : PeerId} {key : Bytes} {n m k : Nat} {a b : List Frame}
    (h : Chain x y key n a m) (g : Chain x y key m b k) : Chain x y key n (a ++ b) k := by
  induction h with
  | nil n => exact g
  | cons hf _ ih => exact .cons hf (ih g)

/-- A message that the peer sent to everyone, under whatever TTL. -/
def IsEcho (peer : PeerId) (raw : Bytes) : Prop :=
  ∃ packet payload ttl, raw = with_ttl packet ttl ∧ IsPacket packet peer none .MESSAGE payload none

/-- What one step of a node may do: it writes packets that move its send nonce
from `n` to `n'`, each tagged with `n`, and relays only what its peer sent to
everyone. -/
structure Does (me peer : PeerId) (conn : PeerConnection) (s : NoiseSession) (key : Bytes)
    (n n' m' : Nat) (w w' : World) : Prop where
  settled : Settled me peer conn s n' m' w'.node
  acts : ∃ packets relayed, Acts conn packets relayed w w' ∧
    Chain me peer key n (packets.map fun packet => ⟨packet, n⟩) n' ∧
    ∀ raw ∈ relayed, IsEcho peer raw

/-! ## How long an ACK is -/

omit [Packages] in
theorem length_json_string_le (s : Str) : (json_string s).length ≤ 2 + 12 * s.length := by
  have hescape : ∀ c, (json_escape c).length ≤ 12 := by
    intro c
    unfold json_escape unicode_escape
    split_ifs <;> simp
  have hbody : (s.flatMap json_escape).length ≤ 12 * s.length := by
    induction s with
    | nil => simp
    | cons c s ih =>
      have hc := hescape c
      rw [List.flatMap_cons, List.length_append, List.length_cons]
      omega
  unfold json_string
  rw [List.length_append, List.length_cons, List.length_singleton]
  omega

omit [Packages] in
theorem length_digits_le {n : Nat} (h : n < 10 ^ 20) : (digits n).length ≤ 20 := by
  unfold digits
  rw [show (toString n).toList = Nat.toDigits 10 n from by simp [toString, Nat.repr]]
  exact (Nat.length_toDigits_le_iff (by decide) (by decide)).mpr h

/-- The JSON text of an ACK, whoever sends it. -/
theorem length_ack_text_le (message_id uuid : Uuid) (me : PeerId) (nickname : Str) (clock : Draw) :
    (encode ("\x7b\"originalMessageID\": ".toList ++ json_string message_id.str ++
      ", \"ackID\": ".toList ++ json_string uuid.str ++
      ", \"recipientID\": ".toList ++ json_string me.str ++
      ", \"recipientNickname\": ".toList ++ json_string nickname ++
      ", \"timestamp\": ".toList ++ digits clock.timestamp_ms ++
      ", \"hopCount\": 1\x7d".toList)).length ≤ 8192 + 48 * nickname.length := by
  have hclock := clock.timestamp_ms_lt
  have hdigits := length_digits_le (n := clock.timestamp_ms) (by omega)
  have hmessage := length_json_string_le message_id.str
  have hid := length_json_string_le uuid.str
  have hpeer := length_json_string_le me.str
  have hnickname := length_json_string_le nickname
  refine (length_encode_le _).trans ?_
  have h1 := message_id.length_str
  have h2 := uuid.length_str
  have h3 := me.length_str
  have htexts : ("\x7b\"originalMessageID\": ".toList.length = 22 ∧ ", \"ackID\": ".toList.length =
    11 ∧
      ", \"recipientID\": ".toList.length = 17 ∧ ", \"recipientNickname\": ".toList.length = 23 ∧
      ", \"timestamp\": ".toList.length = 15 ∧ ", \"hopCount\": 1\x7d".toList.length = 16) := by
    decide
  simp only [List.length_append]
  omega

/-- The ACK of a private message is sent whole. -/
def AckAffordable (env : Env) (node : MeshNode) : Prop :=
  ∀ uuid : Uuid, (ack_payload node uuid.str (env.draw 0)).length ≤ 65489

/-- It is, unless the nickname is very long. -/
theorem ackAffordable_of_nickname {node : MeshNode} (h : node.nickname.length ≤ 1000) (env : Env) :
    AckAffordable env node := fun uuid =>
  (length_ack_text_le uuid (env.draw 0).uuid node.my_peer_id node.nickname (env.draw 0)).trans
    (by omega)

/-! ## Sending -/

/-- A private message with this content is sent whole, or not sealed at all:
its payload is not between 65460 and 65535 bytes long. -/
def Affordable (node : MeshNode) (content : Str) : Prop :=
  (encode node.nickname).length ≤ 255 →
    66 + (encode node.nickname).length + (encode content).length ≤ 65535 →
      66 + (encode node.nickname).length + (encode content).length ≤ 65459

section

variable {me peer : PeerId} {conn : PeerConnection} {s : NoiseSession} {key : Bytes} {n m : Nat}
  {w : World} {env : Env}

/-- What follows actions that are neither a write nor a relay. -/
theorem Does.after {w₁ w' : World} {n' m' : Nat} {actions : List Action}
    (h : Does me peer conn s key n n' m' w₁ w') (hout : w₁.out = w.out ++ actions)
    (hwrites : writes actions = []) (hrelays : relays actions = []) :
    Does me peer conn s key n n' m' w w' := by
  obtain ⟨packets, relayed, hacts, hchain, hrelayed⟩ := h.acts
  exact ⟨h.settled, packets, relayed, (Acts.silent conn hout hwrites hrelays).trans hacts, hchain,
    hrelayed⟩

theorem Settled.does_nothing {w' : World} (h : Settled me peer conn s n m w'.node)
    (hout : w'.out = w.out) : Does me peer conn s key n n m w w' := by
  refine ⟨h, [], [], ⟨?_, ?_⟩, .nil n, by simp⟩
  · rw [hout, List.map_nil, List.append_nil]
  · rw [hout, List.append_nil]

/-- The payload of a private message. -/
theorem private_payload (nickname : Str) (me : PeerId) (content : Str) (draw : Draw)
    (hfits : PayloadFits nickname (payload_bytes content false none) me.str []) :
    ∃ payload message,
      create_bitchat_message_payload_full nickname content none true me.str false none draw =
        .ok (payload, draw.uuid.str) ∧
      payload.length = 66 + (encode nickname).length + (encode content).length ∧
      parse_bitchat_message_payload payload = .ok message ∧ message.id = draw.uuid.str := by
  obtain ⟨payload, hcreate, hparse⟩ := payload_comes_back none true draw hfits
  refine ⟨payload, _, hcreate, ?_, hparse, rfl⟩
  obtain ⟨rfl, -⟩ := Prod.mk.inj
    (Except.ok.inj (hcreate.symm.trans (create_payload_ok none true draw hfits)))
  exact length_plain_payload nickname content [] me draw _

theorem private_plain {inner_packet payload : Bytes} {message : BitchatMessage} {uuid : Uuid}
    (hinner : IsPacket inner_packet me (some peer) .MESSAGE payload none)
    (hmessage : parse_bitchat_message_payload payload = .ok message) (hid : message.id = uuid.str) :
    PrivatePlain inner_packet := by
  intro packet message' hpacket hmessage'
  rw [hinner.parse_raw, Except.ok.injEq] at hpacket
  rw [← hpacket] at hmessage'
  have hsame : message = message' := Except.ok.inj (hmessage.symm.trans hmessage')
  exact ⟨uuid, hsame ▸ hid⟩

theorem does_private_message [LawfulCrypto] (h : Settled me peer conn s n m w.node)
    (henv : Lossless env) (hkey : s.send_cipher.key = some key) (content nickname : Str)
    (message_id : Option Str) (haffordable : Affordable w.node content) :
    ∃ n', Does me peer conn s key n n' m w
      (exec (send_private_message env content peer.str nickname message_id) w).2 := by
  unfold send_private_message
  simp only [exec_bind, exec_node, h.established, if_true]
  unfold encrypt_private_message
  simp only [exec_bind, exec_node]
  by_cases hfits : PayloadFits w.node.nickname (payload_bytes content false none)
    w.node.my_peer_id.str []
  · obtain ⟨payload, message, hcreate, hlength, hmessage, hid⟩ :=
      private_payload w.node.nickname w.node.my_peer_id content (env.draw 0) hfits
    simp only [hcreate, exec_outcome_ok, exec_modifyNode]
    generalize hw₁ : World.mk _ _ = w₁
    have hout : w₁.out = w.out := by rw [← hw₁]
    have hme : w₁.node.my_peer_id = w.node.my_peer_id := by rw [← hw₁]
    have h₁ : Settled me peer conn s n m w₁.node := by
      rw [← hw₁]
      exact ⟨⟨h.me, h.connections, h.address⟩, h.session, h.unblocked⟩
    by_cases hlt : payload.length < 65536
    · obtain ⟨inner_packet, hinner, his⟩ := create_ok me (some peer) .MESSAGE payload none
        (env.draw 2) hlt
      rw [← h₁.me, hme] at hinner
      have hkeep : with_ttl inner_packet 7 = inner_packet := his.ttl
      have hlong : inner_packet.length ≤ 65489 := by
        have haff := haffordable hfits.sender (by omega)
        have hsize := his.size
        rw [bare_length_to] at hsize
        omega
      simp only [Option.map_some] at hinner
      simp only [hinner, exec_outcome_ok, hkeep, EncryptionService.encrypt_for_peer, exec_onService]
      by_cases hn : n < NoiseCipherState.NONCES
      · simp only [exec_encrypt h₁.session hkey hn]
        generalize hciphertext : Crypto.chacha_encrypt key (NoiseCipherState.nonce_bytes n)
          inner_packet [] = ciphertext
        have hsize : ciphertext.length = inner_packet.length + 16 := by
          rw [← hciphertext, LawfulCrypto.length_chacha_encrypt]
        obtain ⟨outer_packet, houter, hisouter⟩ := create_ok me (some peer) .NOISE_ENCRYPTED
          ciphertext none (env.draw 3) (by omega)
        rw [← h₁.me, hme] at houter
        simp only [Option.map_some] at houter
        simp only [houter, exec_outcome_ok]
        have hframe : outer_packet.length ≤ 65535 := by
          rw [hisouter.fits, bare_length_to]
          omega
        rw [h₁.moves.send_to_peer henv hframe]
        refine ⟨n + 1, h₁.moves, [outer_packet], [], acts_write ?_, ?_, by simp⟩
        · rw [← hout]
          rfl
        refine .cons (.sealed hn ?_ (private_plain his hmessage hid)) (.nil _)
        rw [hciphertext]
        exact hisouter
      · simp only [exec_encrypt_overflow h₁.session hkey (Nat.not_lt.mp hn)]
        exact ⟨n, h₁.moves.does_nothing hout⟩
    · rw [create_too_long _ _ _ _ _ _ hlt]
      exact ⟨n, h₁.does_nothing hout⟩
  · obtain ⟨e, he⟩ := create_payload_error none true (env.draw 0) hfits
    simp only [he, exec_outcome_error]
    exact ⟨n, h.does_nothing rfl⟩

/-! ## Answering -/

theorem does_delivery_ack [LawfulCrypto] (h : Settled me peer conn s n m w.node)
    (henv : Lossless env) (hkey : s.send_cipher.key = some key) (uuid : Uuid)
    (haffordable : AckAffordable env w.node) :
    ∃ n', Does me peer conn s key n n' m w
      (exec (send_delivery_ack env uuid.str peer.str true) w).2 := by
  unfold send_delivery_ack
  simp only [exec_bind, exec_node]
  by_cases hsent : ack_id w.node uuid.str ∈ w.node.delivery_tracker.sent_acks
  · simp only [DeliveryTracker.should_send_ack, hsent, if_true, Bool.false_eq_true, if_false,
      exec_pure]
    exact ⟨n, h.does_nothing rfl⟩
  · simp only [DeliveryTracker.should_send_ack, hsent, if_false, if_true, exec_bind,
      exec_modifyNode]
    generalize hw₁ : World.mk _ _ = w₁
    have hout : w₁.out = w.out := by rw [← hw₁]
    have h₁ : Settled me peer conn s n m w₁.node := by
      rw [← hw₁]
      exact ⟨⟨h.me, h.connections, h.address⟩, h.session, h.unblocked⟩
    have hplain := haffordable uuid
    generalize ack_payload w.node uuid.str (env.draw 0) = plain at hplain ⊢
    simp only [seal_ack, if_true, exec_bind, exec_attempt, exec_onService]
    by_cases hn : n < NoiseCipherState.NONCES
    · simp only [exec_encrypt h₁.session hkey hn, exec_pure]
      generalize hciphertext : Crypto.chacha_encrypt key (NoiseCipherState.nonce_bytes n) plain [] =
        ciphertext
      have hsize : ciphertext.length = plain.length + 16 := by
        rw [← hciphertext, LawfulCrypto.length_chacha_encrypt]
      obtain ⟨ack_packet, hcreate, his⟩ := create_ok w.node.my_peer_id (some peer) .DELIVERY_ACK
        ciphertext none (env.draw 1) (by omega)
      simp only [Option.map_some] at hcreate
      have hframe : (with_ttl ack_packet 3).length ≤ 65535 := by
        rw [with_ttl, List.length_set, his.fits, bare_length_to]
        omega
      simp only [hcreate, exec_outcome_ok]
      rw [h₁.moves.send_to_peer henv hframe]
      refine ⟨n + 1, h₁.moves, [with_ttl ack_packet 3], [], acts_write ?_, ?_, by simp⟩
      · rw [← hout]
      · rw [h.me, ← hciphertext] at his
        exact .cons (.ack hn his n) (.nil _)
    · -- the nonces are used up, and the ACK goes out in plain text
      simp only [exec_encrypt_overflow h₁.session hkey (Nat.not_lt.mp hn), exec_pure]
      obtain ⟨ack_packet, hcreate, his⟩ := create_ok w.node.my_peer_id (some peer) .DELIVERY_ACK
        plain none (env.draw 1) (by omega)
      simp only [Option.map_some] at hcreate
      have hframe : (with_ttl ack_packet 3).length ≤ 65535 := by
        rw [with_ttl, List.length_set, his.fits, bare_length_to]
        omega
      simp only [hcreate, exec_outcome_ok]
      rw [h₁.moves.send_to_peer henv hframe]
      refine ⟨n, h₁.moves, [with_ttl ack_packet 3], [], acts_write ?_, ?_, by simp⟩
      · rw [← hout]
      · rw [h.me] at his
        exact .cons (.late_ack (Nat.not_lt.mp hn) his n) (.nil _)

/-- What follows a private message that was opened. -/
theorem does_accept_encrypted [LawfulCrypto] (h : Settled me peer conn s n m w.node)
    (henv : Lossless env) (hkey : s.send_cipher.key = some key) {plain : Bytes}
    (hplain : PrivatePlain plain) (haffordable : AckAffordable env w.node) :
    ∃ n', Does me peer conn s key n n' m w (exec (accept_encrypted env peer.str plain) w).2 := by
  have hnothing : ∃ n', Does me peer conn s key n n' m w w := ⟨n, h.does_nothing rfl⟩
  unfold accept_encrypted
  rw [exec_ite]
  split
  · rcases hinner : parse_bitchat_packet plain with e | inner_packet
    · exact hnothing
    · simp only [exec_bind, exec_outcome_ok, exec_ite]
      split
      · rcases hmessage : parse_bitchat_message_payload inner_packet.payload with e | message
        · exact hnothing
        · obtain ⟨uuid, huuid⟩ := hplain inner_packet message hinner hmessage
          simp only [exec_bind, exec_outcome_ok, exec_node, deliver]
          split
          · exact hnothing
          · rcases hbloom : Packages.bloom_add w.node.bloom message.id with _ | bloom
            · exact hnothing
            · simp only [exec_bind, exec_modifyNode, exec_emit]
              obtain ⟨n', hack⟩ := does_delivery_ack (w := w.delivered bloom message peer.str true)
                ⟨⟨h.me, h.connections, h.address⟩, h.session, h.unblocked⟩ henv hkey uuid
                  haffordable
              rw [← huuid] at hack
              exact ⟨n', hack.after rfl rfl rfl⟩
      · exact hnothing
  · exact hnothing

end

/-! ## What arrives -/

section

variable {me peer : PeerId} {conn : PeerConnection} {s : NoiseSession} {key : Bytes} {n m : Nat}
  {w : World} {env : Env}

theorem Settled.heard (h : Settled me peer conn s n m w.node) :
    Settled me peer conn s n m (w.heard peer.str conn.address).node :=
  ⟨⟨h.me, h.connections, Dict.get?_set_self _ _ _⟩, h.session, h.unblocked⟩

/-- A packet of the peer goes to its handler. -/
theorem Settled.receives (h : Settled me peer conn s n m w.node) (hne : me ≠ peer)
    (hpeer : hex (rstripZero peer.bytes) = peer.str) {raw payload : Bytes}
    {recipient : Option PeerId} {msg_type : MessageType} {ttl : UInt8}
    (hparse : parse_bitchat_packet raw = .ok (received peer recipient msg_type payload ttl)) :
    (exec (on_packet_received env conn raw) w).2 =
      (exec (handle env (received peer recipient msg_type payload ttl) raw)
        (w.heard peer.str conn.address)).2 := by
  have hsender : (received peer recipient msg_type payload ttl).sender_id_str = peer.str := hpeer
  have hother : (received peer recipient msg_type payload ttl).sender_id_str ≠
      w.node.my_peer_id.str := by
    rw [hsender, h.me]
    exact fun heq => hne (PeerId.str_injective heq).symm
  rw [exec_on_packet_received hparse hother, hsender]

theorem does_handle_sealed [LawfulCrypto] (h : Settled me peer conn s n m w.node)
    (hpeer : hex (rstripZero peer.bytes) = peer.str) (henv : Lossless env)
    (hsend : s.send_cipher.key = some key) {their_key : Bytes}
    (hreceive : s.receive_cipher.key = some their_key) (hm : m < NoiseCipherState.NONCES)
    {raw plain : Bytes} (hplain : PrivatePlain plain) (haffordable : AckAffordable env w.node) :
    ∃ n', Does me peer conn s key n n' (m + 1) w
      (exec (handle env (received peer (some me) .NOISE_ENCRYPTED
        (Crypto.chacha_encrypt their_key (NoiseCipherState.nonce_bytes m) plain []) 7) raw)
          w).2 := by
  have hsender : (received peer (some me) .NOISE_ENCRYPTED
      (Crypto.chacha_encrypt their_key (NoiseCipherState.nonce_bytes m) plain [])
      7).sender_id_str = peer.str := hpeer
  show ∃ n', Does me peer conn s key n n' (m + 1) w (exec (handle_noise_encrypted env _) w).2
  unfold handle_noise_encrypted
  rw [hsender]
  simp only [exec_bind, exec_node, h.not_blocked, Bool.false_eq_true, if_false, exec_suppress,
    exec_onService]
  rw [show (received peer (some me) .NOISE_ENCRYPTED (Crypto.chacha_encrypt their_key
    (NoiseCipherState.nonce_bytes m) plain []) 7).payload = Crypto.chacha_encrypt their_key
      (NoiseCipherState.nonce_bytes m) plain [] from rfl]
  simp only [exec_decrypt h.session hreceive hm]
  obtain ⟨n', hdoes⟩ := does_accept_encrypted (w := ⟨_, w.out⟩) h.moves henv hsend hplain
    haffordable
  exact ⟨n', hdoes.after (List.append_nil _).symm rfl rfl⟩

theorem does_take_ack (h : Settled me peer conn s n m w.node) (ack : DeliveryAck) :
    Does me peer conn s key n n m w (exec (take_ack ack) w).2 := by
  unfold take_ack
  simp only [exec_bind, exec_node]
  split
  · exact h.does_nothing rfl
  · simp only [exec_modifyNode, exec_bind, exec_ite, exec_emit, exec_pure]
    split
    · refine Does.after (Settled.does_nothing ?_ rfl) rfl rfl rfl
      exact ⟨⟨h.me, h.connections, h.address⟩, h.session, h.unblocked⟩
    · refine Settled.does_nothing ?_ rfl
      exact ⟨⟨h.me, h.connections, h.address⟩, h.session, h.unblocked⟩

/-- What follows the opening of an ACK. -/
theorem does_read_ack (h : Settled me peer conn s n m w.node) (payload : Bytes) :
    Does me peer conn s key n n m w (exec (match parse_ack payload with
      | some ack => take_ack ack
      | none => pure ()) w).2 := by
  split
  · exact does_take_ack h _
  · exact h.does_nothing rfl

/-- An ACK to the node under a TTL of 3 is opened, with whatever that does to the
receive nonce, and read. -/
theorem does_handle_ack [LawfulCrypto] (h : Settled me peer conn s n m w.node)
    (hpeer : hex (rstripZero peer.bytes) = peer.str) (hme : hex (rstripZero me.bytes) = me.str)
    {m' : Nat} {payload : Bytes} {result : Except PyError Bytes}
    (hopen : exec (EncryptionService.decrypt_from_peer peer.str payload) w.node.encryption_service =
      (result, { w.node.encryption_service with
        sessions := w.node.encryption_service.sessions.set peer.str (counted s n m') }))
    (raw : Bytes) :
    Does me peer conn s key n n m' w
      (exec (handle env (received peer (some me) .DELIVERY_ACK payload 3) raw) w).2 := by
  show Does me peer conn s key n n m' w (exec (handle_delivery_ack _ raw) w).2
  have hrecipient : (received peer (some me) .DELIVERY_ACK payload 3).recipient_id_str =
      some w.node.my_peer_id.str := by
    rw [h.me, ← hme]
    rfl
  have hsender : (received peer (some me) .DELIVERY_ACK payload 3).sender_id_str = peer.str := hpeer
  have hne : (some w.node.my_peer_id.str).getD [] ≠ [] := w.node.my_peer_id.str_ne_nil
  have hthree : (received peer (some me) .DELIVERY_ACK payload 3).ttl = 3 := rfl
  have hpayload : (received peer (some me) .DELIVERY_ACK payload 3).payload = payload := rfl
  unfold handle_delivery_ack open_ack
  simp only [exec_bind, exec_node, hrecipient, hne, hsender, hthree, hpayload, h.established,
    and_self, ne_eq, not_false_eq_true, if_true, exec_attempt, exec_onService, hopen]
  have hmoved : Settled me peer conn s n m' (World.mk { w.node with
      encryption_service := { w.node.encryption_service with
        sessions := w.node.encryption_service.sessions.set peer.str (counted s n m') } }
          w.out).node :=
    h.moves
  cases result with
  | ok decrypted =>
    exact (does_read_ack hmoved decrypted).after (List.append_nil _).symm rfl rfl
  | error e =>
    exact (does_read_ack hmoved payload).after (List.append_nil _).symm rfl rfl

/-- A channel message in plain text whose ACK would go out. -/
def PlainAckDue (env : Env) (self : MeshNode) (payload : Bytes) : Prop :=
  ∃ message bloom, parse_bitchat_message_payload payload = .ok message ∧
    message.id ∉ self.processed_messages ∧
    Packages.bloom_add self.bloom message.id = some bloom ∧ AckDue self message ∧
    (ack_payload self message.id (env.draw 0)).length ≤ 65505

/-- An ACK that is too long for a frame goes nowhere, and raises. -/
theorem does_long_ack (h : Settled me peer conn s n m w.node) {message : BitchatMessage}
    (hdue : AckDue w.node message)
    (hlong : ¬ (ack_payload w.node message.id (env.draw 0)).length ≤ 65505) :
    ∃ e w', exec (acknowledge env message peer.str false) w = (.error e, w') ∧
      Does me peer conn s key n n m w w' := by
  obtain ⟨hasked, hnew⟩ := hdue
  unfold acknowledge send_delivery_ack
  simp only [exec_bind, exec_node, hasked, if_true, DeliveryTracker.should_send_ack, hnew,
    if_false, exec_modifyNode, seal_ack, Bool.false_eq_true, exec_pure]
  generalize hw₁ : World.mk _ _ = w₁
  have hout : w₁.out = w.out := by rw [← hw₁]
  have h₁ : Settled me peer conn s n m w₁.node := by
    rw [← hw₁]
    exact ⟨⟨h.me, h.connections, h.address⟩, h.session, h.unblocked⟩
  generalize ack_payload w.node message.id (env.draw 0) = plain at hlong ⊢
  by_cases hlt : plain.length < 65536
  · obtain ⟨ack_packet, hcreate, his⟩ := create_ok w.node.my_peer_id (some peer) .DELIVERY_ACK
      plain none (env.draw 1) hlt
    have hframe : ¬ (with_ttl ack_packet 3).length ≤ 65535 := by
      rw [with_ttl, List.length_set, his.fits, bare_length_to]
      omega
    obtain ⟨e, he⟩ := h₁.send_to_peer_long env hframe
    simp only [Option.map_some] at hcreate
    simp only [hcreate, exec_outcome_ok, he]
    exact ⟨e, w₁, rfl, h₁.does_nothing hout⟩
  · rw [create_too_long _ _ _ _ _ _ hlt]
    exact ⟨_, w₁, rfl, h₁.does_nothing hout⟩

theorem does_handle_message (h : Settled me peer conn s n m w.node)
    (hpeer : hex (rstripZero peer.bytes) = peer.str) {raw payload : Bytes}
    (hraw : IsPacket raw peer none .MESSAGE payload none)
    (hdue : ¬ PlainAckDue env w.node payload) :
    Does me peer conn s key n n m w
      (exec (handle env (received peer none .MESSAGE payload 7) raw) w).2 := by
  show Does me peer conn s key n n m w (exec (handle_message env _ raw) w).2
  have hsender : (received peer none .MESSAGE payload 7).sender_id_str = peer.str := hpeer
  rw [exec_handle_broadcast (by rw [hsender]; exact h.not_blocked) rfl]
  show Does me peer conn s key n n m w (exec (accept_message env _ raw false payload) w).2
  rcases hmessage : parse_bitchat_message_payload payload with e | message
  · unfold accept_message
    rw [hmessage]
    exact h.does_nothing rfl
  · by_cases hold : message.id ∈ w.node.processed_messages
    · rw [exec_accept_old hmessage hold]
      exact h.does_nothing rfl
    · rcases hbloom : Packages.bloom_add w.node.bloom message.id with _ | bloom
      · rw [exec_accept_full hmessage hold hbloom]
        exact h.does_nothing rfl
      · rw [exec_accept_new hmessage hold hbloom, hsender]
        have h₁ : Settled me peer conn s n m (w.delivered bloom message peer.str false).node :=
          ⟨⟨h.me, h.connections, h.address⟩, h.session, h.unblocked⟩
        have hout : (w.delivered bloom message peer.str false).out =
          w.out ++ [.on_message message peer.str false] := rfl
        by_cases hack : AckDue w.node message
        · have hlong : ¬ (ack_payload w.node message.id (env.draw 0)).length ≤ 65505 :=
            fun hle => hdue ⟨message, bloom, hmessage, hold, hbloom, hack, hle⟩
          obtain ⟨e, w', he, hdoes⟩ : ∃ e w', _ ∧ Does me peer conn s key n n m _ w' :=
            does_long_ack h₁ hack hlong
          rw [exec_bind_error _ he]
          exact hdoes.after hout rfl rfl
        · rw [exec_bind_ok _ (exec_acknowledge_not_due
            (w := w.delivered bloom message peer.str false)
            hack env peer.str), exec_relay]
          refine ⟨h₁, [], [with_ttl raw (7 - 1)], ⟨?_, ?_⟩, .nil n, ?_⟩
          · show writes (_ ++ [_] ++ [_]) = _
            rw [List.append_assoc, writes_append]
            rfl
          · show relays (_ ++ [_] ++ [_]) = _
            rw [List.append_assoc, relays_append]
            rfl
          · intro raw' hmem
            rw [List.mem_singleton] at hmem
            exact ⟨raw, payload, 7 - 1, hmem, hraw⟩

/-- The frame of what goes to everyone, if there is one. -/
theorem does_raw_send (h : Settled me peer conn s n m w.node) (henv : Lossless env) {packet : Bytes}
    (hcarries : Carries me peer key n ⟨packet, n⟩ n) :
    Does me peer conn s key n n m w (exec (raw_send env packet) w).2 := by
  by_cases hfits : packet.length ≤ 65535
  · rw [h.raw_send henv hfits]
    exact ⟨h, [packet], [], acts_write rfl, .cons hcarries (.nil n), by simp⟩
  · rw [exec_raw_send_long hfits]
    exact h.does_nothing rfl

theorem does_public_message (h : Settled me peer conn s n m w.node) (henv : Lossless env)
    (content : Str) (channel : Option Str) :
    Does me peer conn s key n n m w (exec (send_public_message env content channel) w).2 := by
  unfold send_public_message
  simp only [exec_bind, exec_node]
  rcases hpayload : public_payload w.node content channel env with e | ⟨payload, msg_id⟩
  · exact h.does_nothing rfl
  · simp only [exec_outcome_ok, exec_modifyNode]
    generalize hw₁ : World.mk _ _ = w₁
    have hout : w₁.out = w.out ++ [] := by rw [← hw₁, List.append_nil]
    have h₁ : Settled me peer conn s n m w₁.node := by
      rw [← hw₁]
      exact ⟨⟨h.me, h.connections, h.address⟩, h.session, h.unblocked⟩
    unfold create_bitchat_packet
    by_cases hlt : payload.length < 65536
    · obtain ⟨packet, hcreate, his⟩ := create_ok w.node.my_peer_id none .MESSAGE payload none
        (env.draw 3) hlt
      simp only [Option.map_none] at hcreate
      simp only [hcreate, exec_outcome_ok, exec_pure]
      rw [h.me] at his
      have hcarries : Carries me peer key n ⟨packet, n⟩ n := .message his n
      have hsent := does_raw_send h₁ henv hcarries
      rcases hsend : exec (raw_send env packet) w₁ with ⟨result, w₂⟩
      rw [hsend] at hsent
      cases result with
      | ok _ => exact hsent.after hout rfl rfl
      | error e => exact hsent.after hout rfl rfl
    · rw [create_too_long _ _ _ _ _ _ hlt]
      exact (h₁.does_nothing rfl).after hout rfl rfl

/-- A message of the peer that the node relays. -/
theorem does_relay_now (h : Settled me peer conn s n m w.node) (henv : Lossless env) {raw : Bytes}
    {ttl : UInt8} (hecho : IsEcho peer (with_ttl raw (ttl - 1))) :
    Does me peer conn s key n n m w (exec (relay_now env raw ttl) w).2 := by
  obtain ⟨packet, payload, ttl', heq, hpacket⟩ := hecho
  unfold relay_now
  rw [heq]
  exact does_raw_send h henv (Carries.echo hpacket ttl' n)

end

end daemon
