-- A private message from end to end: what `send_private_message` seals on one
-- node is delivered once by `_handle_noise_encrypted` on the other, and the
-- nonces of the two meet again.
import BitchatNode.NonceSync

namespace daemon

open python bitchat bitchat.protocol bitchat.encryption

variable [Packages]

/-! ## What becomes of a session -/

/-- The session with a peer is the same in this view of it, or it is gone
because a write has failed. -/
structure Holds {α : Type} (env : Env) (view : NoiseSession → α) (peer_id : Str) (w w' : World) :
    Prop where
  same : ∀ s, w'.node.encryption_service.sessions.get? peer_id = some s →
    (w.node.encryption_service.sessions.get? peer_id).map view = some (view s)
  stays : (∀ address, env.write_fails address = false) →
    w.node.encryption_service.sessions.has peer_id = true →
      w'.node.encryption_service.sessions.has peer_id = true

section

variable {α : Type} {env : Env} {view : NoiseSession → α} {peer_id : Str}

instance : IsPreorder World (Holds env view peer_id) where
  refl _ := ⟨fun _ hs => by rw [hs, Option.map_some], fun _ h => h⟩
  trans _ _ _ h h' := by
    refine ⟨?_, fun henv hhas => h'.stays henv (h.stays henv hhas)⟩
    intro s hs
    obtain ⟨t, ht, hview⟩ := Option.map_eq_some_iff.mp (h'.same s hs)
    rw [h.same t ht, hview]

theorem Holds.of_same {w w' : World}
    (h : w'.node.encryption_service.sessions = w.node.encryption_service.sessions) :
    Holds env view peer_id w w' := by
  constructor
  · intro s hs
    rw [← h, hs, Option.map_some]
  · intro _ hhas
    rw [h]
    exact hhas

/-- A failed write may take the session away, and changes none. -/
theorem holds_remove_peer {address : Str} (hfails : env.write_fails address = true)
    (lost : Str) : Moves (Holds env view peer_id) (remove_peer lost) := by
  have hpop : Moves (Holds env view peer_id) (modifyNode fun self => { self with
      peers := self.peers.pop lost
      peer_addresses := self.peer_addresses.pop lost
      pending_private_messages := self.pending_private_messages.pop lost
      encryption_service := self.encryption_service.remove_session lost }) := by
    intro w
    constructor
    · intro s hs
      simp only [exec_modifyNode, EncryptionService.remove_session] at hs
      by_cases hid : lost = peer_id
      · subst hid
        rw [Dict.get?_pop_self] at hs
        cases hs
      · rw [Dict.get?_pop_ne _ hid] at hs
        rw [hs, Option.map_some]
    · intro henv
      cases (henv address).symm.trans hfails
  unfold remove_peer
  refine moves_node.bind fun self => hpop.bind fun _ => ?_
  exact Moves.ite (fun w => .of_same rfl) (Moves.pure ())

theorem holds_send_to_peer (target : Str) (packet : Bytes) :
    Moves (Holds env view peer_id) (send_to_peer env target packet) := by
  apply moves_send_to_peer
  · intro conn hfails
    unfold on_read_done
    refine Moves.bind (fun w => .of_same rfl) fun _ => ?_
    exact moves_on_peer_disconnected (holds_remove_peer hfails) conn
  · exact fun address frame w => .of_same rfl

/-- Encrypting moves the other counter. -/
theorem holds_encrypt (data : Bytes) (target : Str) :
    Moves (Holds env (fun s => s.receive_cipher.nonce) peer_id)
      (onService (EncryptionService.encrypt data target)) := by
  intro w
  rw [exec_onService]
  unfold EncryptionService.encrypt
  simp only [exec_bind, exec_get]
  split
  · exact .of_same rfl
  · rename_i session hsession
    simp only [exec_bind, exec_set, exec_outcome]
    constructor
    · intro s hs
      by_cases hid : target = peer_id
      · subst hid
        rw [Dict.get?_set_self, Option.some.injEq] at hs
        rw [hsession, Option.map_some, ← hs]
      · rw [Dict.get?_set_ne _ _ hid] at hs
        rw [hs, Option.map_some]
    · intro _ hhas
      exact Dict.has_set_of_has _ hhas _ _

theorem holds_send_delivery_ack (message_id sender_id : Str) (is_private : Bool) :
    Moves (Holds env (fun s => s.receive_cipher.nonce) peer_id)
      (send_delivery_ack env message_id sender_id is_private) := by
  unfold send_delivery_ack
  refine moves_node.bind fun self => ?_
  split
  · refine Moves.bind (fun w => .of_same rfl) fun _ => ?_
    refine Moves.bind ?_ fun payload => ?_
    · unfold seal_ack
      refine Moves.ite ?_ (Moves.pure _)
      refine Moves.bind (holds_encrypt _ _).attempt fun result => ?_
      cases result with
      | ok encrypted => exact Moves.pure _
      | error e => exact Moves.pure _
    · exact Moves.bind (Moves.outcome _) fun packet => holds_send_to_peer _ _
  · exact Moves.pure ()

end

/-! ## Building the packet -/

/-- The id that the packets of a node parse to. -/
def parsed_id (id : PeerId) : Str := hex (rstripZero id.bytes)

/-- `send_private_message` with a session, up to the outer packet. -/
def build_private_message (env : Env) (content target_peer_id : Str) : Mesh (Str × Bytes) := do
  let self ← node
  let (payload, msg_id) ← outcome (create_bitchat_message_payload_full self.nickname content none
    true self.my_peer_id.str false none (env.draw 0))
  modifyNode fun self => { self with
    delivery_tracker :=
      self.delivery_tracker.track_message msg_id content true (env.draw 1).time_us }
  let inner_packet ← outcome (create_bitchat_packet_with_recipient self.my_peer_id.str
    (some target_peer_id) .MESSAGE payload none (env.draw 2))
  let encrypted ← onService (EncryptionService.encrypt_for_peer target_peer_id
    (with_ttl inner_packet 7))
  let outer_packet ← outcome (create_bitchat_packet_with_recipient self.my_peer_id.str
    (some target_peer_id) .NOISE_ENCRYPTED encrypted none (env.draw 3))
  return (msg_id, outer_packet)

/-- The rest of `send_private_message` sends that packet. -/
theorem encrypt_private_message_eq (env : Env) (content target_peer_id : Str) :
    encrypt_private_message env content target_peer_id = (do
      let (msg_id, outer_packet) ← build_private_message env content target_peer_id
      send_to_peer env target_peer_id outer_packet
      return msg_id) := by
  unfold encrypt_private_message build_private_message
  simp only [bind_assoc, pure_bind]

/-- What the receiver makes of a message that was sent. -/
def message_of (msg_id content : Str) : BitchatMessage where
  id := msg_id
  content
  channel := none
  is_encrypted := false
  encrypted_content := none

/-- A sealed message on its way: what is inside, and under which nonce. -/
structure Enclosed (sender : PeerId) (key : Bytes) (n : Nat) (message : BitchatMessage)
    (outer_packet : Bytes) : Prop where
  nonce : n < NoiseCipherState.NONCES
  outer : ∃ plain recipient, IsPacket outer_packet sender recipient .NOISE_ENCRYPTED
      (Crypto.chacha_encrypt key (NoiseCipherState.nonce_bytes n) plain []) none ∧
    plain.head? = some 1 ∧ ∃ inner_packet, parse_bitchat_packet plain = .ok inner_packet ∧
      inner_packet.msg_type = .MESSAGE ∧
      parse_bitchat_message_payload inner_packet.payload = .ok message

theorem isPacket_of_created {sender : PeerId} {id : Bytes} {msg_type : MessageType}
    {payload packet : Bytes} {draw : Draw} (htype : msg_type ∉ exclude_recipient_types)
    (h : create_bitchat_packet_with_recipient sender.str (some (hex id)) msg_type payload none
      draw = .ok packet) :
    IsPacket packet sender (PeerId.ofRead id) msg_type payload none := by
  rw [create_answer _ _ _ _ _ _ htype] at h
  by_cases hp : payload.length < 65536
  · obtain ⟨raw, hraw, his⟩ := create_ok sender (PeerId.ofRead id) msg_type payload none draw hp
    rw [hraw, Except.ok.injEq] at h
    exact h ▸ his
  · rw [create_too_long _ _ _ _ _ _ hp] at h
    cases h

/-- The payload of a private message that is built comes back as the message. -/
theorem message_of_payload {sender content msg_id : Str} {sender_peer_id : PeerId} {draw : Draw}
    {payload : Bytes} (h : create_bitchat_message_payload_full sender content none true
      sender_peer_id.str false none draw = .ok (payload, msg_id)) :
    parse_bitchat_message_payload payload = .ok (message_of msg_id content) := by
  by_cases hfits : PayloadFits sender (payload_bytes content false none) sender_peer_id.str []
  · obtain ⟨payload', hcreate, hparse⟩ := payload_comes_back none true draw hfits
    obtain ⟨rfl, rfl⟩ := Prod.mk.inj (Except.ok.inj (hcreate.symm.trans h))
    rw [hparse]
    unfold message_of payload_bytes
    simp
  · obtain ⟨e, he⟩ := create_payload_error none true draw hfits
    cases he.symm.trans h

/-- The packet that is built holds the message, and moves the counter on. -/
theorem sealed_build {env : Env} {content : Str} {peer : Bytes} {s : NoiseSession} {key : Bytes}
    {w w' : World} {msg_id : Str} {outer_packet : Bytes}
    (hsession : w.node.encryption_service.sessions.get? (hex peer) = some s)
    (hkey : s.send_cipher.key = some key)
    (hbuild : exec (build_private_message env content (hex peer)) w =
      (.ok (msg_id, outer_packet), w')) :
    Enclosed w.node.my_peer_id key s.send_cipher.nonce (message_of msg_id content) outer_packet ∧
      w'.node.encryption_service.sessions.get? (hex peer) =
        some (counted s (s.send_cipher.nonce + 1) s.receive_cipher.nonce) := by
  unfold build_private_message at hbuild
  rw [exec_bind_ok _ (exec_node w)] at hbuild
  obtain ⟨⟨payload, id⟩, hpayload, hbuild⟩ := exec_outcome_bind_eq_ok hbuild
  obtain ⟨_, w₁, htrack, hbuild⟩ := exec_bind_eq_ok hbuild
  rw [exec_modifyNode, Prod.mk.injEq] at htrack
  obtain ⟨inner_packet, hinner, hbuild⟩ := exec_outcome_bind_eq_ok hbuild
  obtain ⟨encrypted, w₂, hencrypted, hbuild⟩ := exec_bind_eq_ok hbuild
  obtain ⟨outer, houter, hbuild⟩ := exec_outcome_bind_eq_ok hbuild
  cases hbuild
  have hsession₁ : w₁.node.encryption_service.sessions.get? (hex peer) =
      some (counted s s.send_cipher.nonce s.receive_cipher.nonce) := by
    rw [← htrack.2]
    exact hsession
  have hisinner := isPacket_of_created (by decide) hinner
  have hisouter := isPacket_of_created (by decide) houter
  rw [exec_onService, EncryptionService.encrypt_for_peer] at hencrypted
  by_cases hn : s.send_cipher.nonce < NoiseCipherState.NONCES
  · rw [exec_encrypt hsession₁ hkey hn, Prod.mk.injEq] at hencrypted
    obtain ⟨hciphertext, rfl⟩ := hencrypted
    obtain rfl := Except.ok.inj hciphertext
    refine ⟨⟨hn, _, _, hisouter, head_of_parse (hisinner.parse 7), _, hisinner.parse 7, rfl,
      message_of_payload hpayload⟩, Dict.get?_set_self _ _ _⟩
  · rw [exec_encrypt_overflow hsession₁ hkey (Nat.not_lt.mp hn)] at hencrypted
    cases hencrypted

/-! ## Opening the packet -/

/-- The receiver can take the message: it holds the session under the sender's
id and the same key and nonce, it has not blocked the sender, the message is
new, and the Bloom filter has room. A packet under its own id it would drop. -/
structure Accepts (sender : PeerId) (key : Bytes) (n : Nat) (message : BitchatMessage) (w : World) :
    Prop where
  session : ∃ t, w.node.encryption_service.sessions.get? (parsed_id sender) = some t ∧
    t.receive_cipher.key = some key ∧ t.receive_cipher.nonce = n
  other : parsed_id sender ≠ w.node.my_peer_id.str
  unblocked : is_blocked w.node (parsed_id sender) = false
  new : message.id ∉ w.node.processed_messages
  room : (Packages.bloom_add w.node.bloom message.id).isSome = true

/-- The message is delivered, and then acknowledged. -/
theorem exec_sealed_received [LawfulCrypto] {sender : PeerId} {key : Bytes} {n : Nat}
    {message : BitchatMessage} {outer_packet : Bytes} {w : World}
    (hsealed : Enclosed sender key n message outer_packet) (h : Accepts sender key n message w)
    (env : Env) (conn : PeerConnection) :
    ∃ delivered : World,
      (exec (on_packet_received env conn outer_packet) w).2 =
        (exec (send_delivery_ack env message.id (parsed_id sender) true) delivered).2 ∧
      deliveries delivered.out = deliveries w.out ++ [(message, parsed_id sender, true)] ∧
      ∃ t, delivered.node.encryption_service.sessions.get? (parsed_id sender) = some t ∧
        t.receive_cipher.nonce = n + 1 := by
  obtain ⟨hnonce, plain, recipient, hpacket, hversion, inner_packet, hinner, htype, hmessage⟩ :=
    hsealed
  obtain ⟨t, hsession, hkey, rfl⟩ := h.session
  obtain ⟨bloom, hbloom⟩ := Option.isSome_iff_exists.mp h.room
  have hdecrypt := exec_decrypt (n := t.send_cipher.nonce) (m := t.receive_cipher.nonce) hsession
    hkey hnonce plain
  rw [exec_on_packet_received hpacket.parse_raw h.other]
  generalize hheard : w.heard _ conn.address = w₁
  have hservice : w₁.node.encryption_service = w.node.encryption_service := by rw [← hheard]; rfl
  have hunblocked : is_blocked w₁.node (parsed_id sender) = false := by
    rw [← hheard]
    exact h.unblocked
  have hprocessed : message.id ∉ w₁.node.processed_messages := by
    rw [← hheard]
    exact h.new
  have hroom : Packages.bloom_add w₁.node.bloom message.id = some bloom := by
    rw [← hheard]
    exact hbloom
  have hout : w₁.out = w.out := by rw [← hheard]; rfl
  rw [← hservice] at hdecrypt
  generalize hpacket_eq : received sender recipient .NOISE_ENCRYPTED _ 7 = packet
  have hhandle : handle env packet outer_packet = handle_noise_encrypted env packet := by
    rw [← hpacket_eq]
    rfl
  have hsender : packet.sender_id_str = parsed_id sender := by rw [← hpacket_eq]; rfl
  have hpayload : packet.payload = Crypto.chacha_encrypt key
      (NoiseCipherState.nonce_bytes t.receive_cipher.nonce) plain [] := by
    rw [← hpacket_eq]
    rfl
  rw [hhandle]
  unfold handle_noise_encrypted
  rw [exec_bind_ok _ (exec_node w₁), hsender, hunblocked]
  simp only [Bool.false_eq_true, if_false, exec_suppress, exec_bind, exec_onService, hpayload,
    hdecrypt]
  unfold accept_encrypted
  simp only [hversion, if_true, exec_bind, hinner, exec_outcome_ok, htype, hmessage, exec_node,
    hprocessed, if_false, deliver, hroom, exec_modifyNode, exec_emit]
  refine ⟨_, rfl, ?_, _, Dict.get?_set_self _ _ _, rfl⟩
  rw [deliveries_append, hout]
  rfl

/-! ## From end to end -/

/-- A message that `send_private_message` builds for a node which can take it
is delivered there once, under the id that was returned. The two nonces then
are the same again, as far as the two sessions are still there: a failed write
may cost a node its session. -/
theorem private_message_arrives [LawfulCrypto] {a b built : World} {env : Env}
    {content msg_id : Str} {outer_packet key : Bytes} {s : NoiseSession}
    (hsession : a.node.encryption_service.sessions.get? (parsed_id b.node.my_peer_id) = some s)
    (hkey : s.send_cipher.key = some key)
    (hbuild : exec (build_private_message env content (parsed_id b.node.my_peer_id)) a =
      (.ok (msg_id, outer_packet), built))
    (htakes : Accepts a.node.my_peer_id key s.send_cipher.nonce (message_of msg_id content) b)
    (nickname : Str) (message_id : Option Str) (env' : Env) (conn : PeerConnection) :
    let x := send_private_message env content (parsed_id b.node.my_peer_id) nickname message_id
    let a' := (exec x a).2
    let b' := (exec (on_packet_received env' conn outer_packet) b).2
    exec x a = exec (do
        send_to_peer env (parsed_id b.node.my_peer_id) outer_packet
        return msg_id) built ∧
      deliveries b'.out = deliveries b.out ++
        [(message_of msg_id content, parsed_id a.node.my_peer_id, true)] ∧
      (∀ s' t',
        a'.node.encryption_service.sessions.get? (parsed_id b.node.my_peer_id) = some s' →
        b'.node.encryption_service.sessions.get? (parsed_id a.node.my_peer_id) = some t' →
        t'.receive_cipher.nonce = s'.send_cipher.nonce) ∧
      ((∀ address, env.write_fails address = false) →
        a'.node.encryption_service.sessions.has (parsed_id b.node.my_peer_id) = true) ∧
      ((∀ address, env'.write_fails address = false) →
        b'.node.encryption_service.sessions.has (parsed_id a.node.my_peer_id) = true) := by
  intro x a' b'
  obtain ⟨hsealed, hcounted⟩ := sealed_build hsession hkey hbuild
  have hbuilt : built.node.encryption_service.sessions.get? (parsed_id b.node.my_peer_id) = _ :=
    hcounted
  have hsends : exec x a = exec (do
      send_to_peer env (parsed_id b.node.my_peer_id) outer_packet
      return msg_id) built := by
    have hestablished : a.node.encryption_service.is_session_established
        (parsed_id b.node.my_peer_id) = true := by
      unfold EncryptionService.is_session_established Dict.has
      rw [hsession]
      rfl
    show exec (send_private_message _ _ _ _ _) a = _
    unfold send_private_message
    rw [exec_bind_ok _ (exec_node a), if_pos hestablished, encrypt_private_message_eq,
      exec_bind_ok _ hbuild]
  obtain ⟨delivered, hreceived, hdelivered, t, ht, hreceive⟩ :=
    exec_sealed_received hsealed htakes env' conn
  have hacked : Holds env' (fun s => s.receive_cipher.nonce) (parsed_id a.node.my_peer_id)
      delivered (exec (send_delivery_ack env' (message_of msg_id content).id
        (parsed_id a.node.my_peer_id) true) delivered).2 := holds_send_delivery_ack _ _ _ _
  have hsent : Holds env (fun s => s.send_cipher.nonce) (parsed_id b.node.my_peer_id) built a' := by
    show Holds env _ _ built (exec x a).2
    rw [hsends]
    exact (holds_send_to_peer _ _).bind (fun _ => Moves.pure _) built
  rw [← hreceived] at hacked
  refine ⟨hsends, ?_, ?_, ?_, ?_⟩
  · show deliveries (exec (on_packet_received env' conn outer_packet) b).2.out = _
    rw [hreceived, ((calm_quiet env').send_delivery_ack _ _ _ delivered).deliveries, hdelivered]
  · intro s' t' hs' ht'
    have hs := hsent.same s' hs'
    have ht'' := hacked.same t' ht'
    rw [hbuilt, Option.map_some, Option.some.injEq] at hs
    rw [ht, Option.map_some, Option.some.injEq] at ht''
    rw [← hs, ← ht'', hreceive]
    rfl
  · intro henv
    apply hsent.stays henv
    rw [Dict.has, hbuilt]
    rfl
  · intro henv
    apply hacked.stays henv
    rw [Dict.has, ht]
    rfl

end daemon

/-! ## Two nodes -/

namespace daemon.standIn

open python bitchat bitchat.protocol bitchat.encryption

attribute [local instance] bitchat.standIn.packages

/-- An id that comes back shorter. -/
def short_id : PeerId := ⟨[1, 1, 1, 1, 1, 1, 1, 0], rfl⟩

def long_id : PeerId := ⟨[2, 2, 2, 2, 2, 2, 2, 2], PeerId.length_twos⟩

/-- A session with these keys and counters. -/
def talk (send receive : UInt8) (sent opened : Nat) : NoiseSession where
  peer_id := []
  send_cipher := ⟨some [send], sent⟩
  receive_cipher := ⟨some [receive], opened⟩
  remote_static_key := Crypto.public_key (bitchat.standIn.key receive)
  established_time := 0

def sending : World where
  node := { node short_id 1 with
    encryption_service := { EncryptionService.init (bitchat.standIn.key 1) with
      sessions := .set .empty (parsed_id long_id) (talk 7 8 3 5) } }
  out := []

def receiving : World where
  node := { node long_id 2 with
    encryption_service := { EncryptionService.init (bitchat.standIn.key 2) with
      sessions := .set .empty (parsed_id short_id) (talk 8 7 5 3) } }
  out := []

theorem takes_receiving (content : Str) :
    Accepts short_id [7] 3 (message_of (env 1 |>.draw 0).uuid.str content) receiving where
  session := ⟨_, Dict.get?_set_self _ _ _, rfl, rfl⟩
  other := by decide
  unblocked := by decide
  new := by
    intro h
    cases h
  room := rfl

/-- The message comes in, though the sender's id comes back shorter. -/
theorem a_private_message_arrives : ∃ msg_id outer_packet built,
    exec (build_private_message (env 1) ['h', 'i'] (parsed_id long_id)) sending =
      (.ok (msg_id, outer_packet), built) ∧
    deliveries (exec (on_packet_received (env 2) ⟨['a'], 1, true⟩ outer_packet) receiving).2.out =
      [(message_of msg_id ['h', 'i'], parsed_id short_id, true)] := by
  have := bitchat.standIn.lawfulCrypto
  have hbuilds : ((exec (build_private_message (env 1) ['h', 'i'] (parsed_id long_id))
      sending).1.toOption.map Prod.fst) = some (env 1 |>.draw 0).uuid.str := by
    decide +kernel
  rcases hbuild : exec (build_private_message (env 1) ['h', 'i'] (parsed_id long_id)) sending
    with ⟨result, built⟩
  rw [hbuild] at hbuilds
  cases result with
  | error e => cases hbuilds
  | ok result =>
    obtain ⟨msg_id, outer_packet⟩ := result
    obtain rfl : msg_id = (env 1 |>.draw 0).uuid.str := Option.some.inj hbuilds
    obtain ⟨-, hdelivered, -⟩ := private_message_arrives (a := sending) (b := receiving)
      (Dict.get?_set_self _ _ _) rfl hbuild (takes_receiving _) [] none (env 2)
        ⟨['a'], 1, true⟩
    exact ⟨_, _, _, rfl, hdelivered⟩

end daemon.standIn
