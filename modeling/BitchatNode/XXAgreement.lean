-- The XX handshake brings both ends to the same state. The two token
-- interpreters run in step: what one writes the other reads, and the hash, the
-- chaining key and the cipher stay equal token by token.
import BitchatNode.NoiseChannel

namespace bitchat.encryption

open python Crypto

variable [Crypto]

namespace NoiseHandshakeState

/-! ## The relation between the two ends -/

/-- Two handshake states that have processed the same transcript. Each one
knows the other's ephemeral key as soon as the other has one. -/
structure Mirror (a b : NoiseHandshakeState) : Prop where
  chaining_key : a.chaining_key = b.chaining_key
  hash_state : a.hash_state = b.hash_state
  cipher_state : a.cipher_state = b.cipher_state
  current_pattern : a.current_pattern = b.current_pattern
  ephemeral_ab : b.remote_ephemeral_public = a.local_ephemeral_private.map public_key
  ephemeral_ba : a.remote_ephemeral_public = b.local_ephemeral_private.map public_key

theorem Mirror.symm {a b : NoiseHandshakeState} (h : Mirror a b) : Mirror b a :=
  ⟨h.chaining_key.symm, h.hash_state.symm, h.cipher_state.symm, h.current_pattern.symm,
    h.ephemeral_ba, h.ephemeral_ab⟩

theorem mirror_init (s t : PrivateKey) : Mirror (init .INITIATOR s) (init .RESPONDER t) :=
  ⟨rfl, rfl, rfl, rfl, rfl, rfl⟩

/-! ## Encryption and the hash -/

/-- The state after `ciphertext` went into the hash, under the cipher's key
if it has one. -/
def sealed (ciphertext : Bytes) (a : NoiseHandshakeState) : NoiseHandshakeState :=
  mix_hash ciphertext { a with
    cipher_state := if a.cipher_state.has_key then
      { a.cipher_state with nonce := a.cipher_state.nonce + 1 } else a.cipher_state }

theorem Mirror.sealed {a b : NoiseHandshakeState} (h : Mirror a b) (ciphertext : Bytes) :
    Mirror (a.sealed ciphertext) (b.sealed ciphertext) := by
  obtain ⟨h1, h2, h3, h4, h5, h6⟩ := h
  exact ⟨h1, by simp only [NoiseHandshakeState.sealed, mix_hash, h2],
    by simp only [NoiseHandshakeState.sealed, mix_hash, h3], h4, h5, h6⟩

/-- What one end encrypts into the transcript the other end decrypts. -/
theorem encrypt_then_decrypt [LawfulCrypto] {a b : NoiseHandshakeState} (h : Mirror a b)
    (hn : a.cipher_state.nonce < NoiseCipherState.NONCES) (plaintext : Bytes) :
    ∃ ciphertext,
      exec (encrypt_and_hash plaintext) a = (.ok ciphertext, a.sealed ciphertext) ∧
      exec (decrypt_and_hash ciphertext) b = (.ok plaintext, b.sealed ciphertext) ∧
      ciphertext.length = plaintext.length + if a.cipher_state.has_key then 16 else 0 := by
  obtain ⟨-, hhash, hcipher, -, -, -⟩ := h
  rcases hk : a.cipher_state.key with _ | key
  · have ha : a.cipher_state.has_key = false := by simp [NoiseCipherState.has_key, hk]
    have hb : b.cipher_state.has_key = false := by rw [← hcipher]; exact ha
    refine ⟨plaintext, ?_, ?_, by simp [ha]⟩
    · simp [encrypt_and_hash, sealed, ha]
    · simp [decrypt_and_hash, sealed, hb]
  · have ha : a.cipher_state.has_key = true := by simp [NoiseCipherState.has_key, hk]
    have hb : b.cipher_state.has_key = true := by rw [← hcipher]; exact ha
    have henc := NoiseCipherState.encrypt_ok plaintext a.hash_state hk hn
    have hdec := NoiseCipherState.decrypt_ok plaintext a.hash_state hk hn
    rw [hhash, hcipher] at hdec
    refine ⟨chacha_encrypt key (NoiseCipherState.nonce_bytes a.cipher_state.nonce) plaintext
      a.hash_state, ?_, ?_, by simp [ha, LawfulCrypto.length_chacha_encrypt]⟩
    · simp [encrypt_and_hash, onCipher, sealed, ha, henc]
    · simp [decrypt_and_hash, onCipher, sealed, hb, hhash, hcipher, hdec]

/-! ## The exchanges -/

/-- Both ends compute the same secret for the token. -/
def SameSecret (a b : NoiseHandshakeState) (token : Token) : Prop :=
  ∃ shared, exec (mix_dh token) a = (.ok (), mix_key shared a) ∧
    exec (mix_dh token) b = (.ok (), mix_key shared b)

theorem Mirror.mix_key {a b : NoiseHandshakeState} (h : Mirror a b) (shared : Bytes) :
    Mirror (mix_key shared a) (mix_key shared b) := by
  obtain ⟨h1, h2, h3, h4, h5, h6⟩ := h
  exact ⟨by simp only [NoiseHandshakeState.mix_key, h1], h2,
    by simp only [NoiseHandshakeState.mix_key, h1], h4, h5, h6⟩

/-- Two key pairs give both ends the same secret. -/
theorem sameSecret_of_operands [LawfulCrypto] {a b : NoiseHandshakeState} {token : Token}
    (x y : PrivateKey) (ha : a.dh_operands token = .ok (x, public_key y))
    (hb : b.dh_operands token = .ok (y, public_key x)) : SameSecret a b token := by
  obtain ⟨shared, hx, hy⟩ := LawfulCrypto.exchange_comm x y
  exact ⟨shared, by simp [mix_dh, ha, hx], by simp [mix_dh, hb, hy]⟩

/-- The initiator `i` and the responder `r` in their roles, with the keys
that each has by now. -/
structure Ends (i r : NoiseHandshakeState) (ei er : Option PrivateKey)
    (si sr : Option PrivateKey) : Prop where
  role_i : i.role = .INITIATOR
  role_r : r.role = .RESPONDER
  ephemeral_i : i.local_ephemeral_private = ei
  ephemeral_r : r.local_ephemeral_private = er
  static_i : ∀ s ∈ si, s = i.local_static_private ∧ r.remote_static_public = some (public_key s)
  static_r : ∀ s ∈ sr, s = r.local_static_private ∧ i.remote_static_public = some (public_key s)

theorem sameSecret_ee [LawfulCrypto] {i r : NoiseHandshakeState} {ei er : PrivateKey}
    {si sr : Option PrivateKey} (h : Mirror i r) (hk : Ends i r (some ei) (some er) si sr) :
    SameSecret i r .ee := by
  refine sameSecret_of_operands ei er ?_ ?_
  · simp [dh_operands, hk.ephemeral_i, h.ephemeral_ba, hk.ephemeral_r]
  · simp [dh_operands, hk.ephemeral_r, h.ephemeral_ab, hk.ephemeral_i]

theorem sameSecret_es [LawfulCrypto] {i r : NoiseHandshakeState} {ei sr : PrivateKey}
    {er si : Option PrivateKey} (h : Mirror i r) (hk : Ends i r (some ei) er si (some sr)) :
    SameSecret i r .es := by
  obtain ⟨hsr, hknown⟩ := hk.static_r sr rfl
  refine sameSecret_of_operands ei sr ?_ ?_
  · simp [dh_operands, hk.role_i, hk.ephemeral_i, hknown]
  · simp [dh_operands, hk.role_r, h.ephemeral_ab, hk.ephemeral_i, hsr]

theorem sameSecret_se [LawfulCrypto] {i r : NoiseHandshakeState} {er si : PrivateKey}
    {ei sr : Option PrivateKey} (h : Mirror i r) (hk : Ends i r ei (some er) (some si) sr) :
    SameSecret i r .se := by
  obtain ⟨hsi, hknown⟩ := hk.static_i si rfl
  refine sameSecret_of_operands si er ?_ ?_
  · simp [dh_operands, hk.role_i, h.ephemeral_ba, hk.ephemeral_r, hsi]
  · simp [dh_operands, hk.role_r, hk.ephemeral_r, hknown]

/-! ## The tokens that carry a key -/

/-- After writing the ephemeral key `g`. -/
def wroteE (g : PrivateKey) (a : NoiseHandshakeState) : NoiseHandshakeState :=
  mix_hash (public_bytes (public_key g)) { a with local_ephemeral_private := some g }

/-- After reading the ephemeral key of `g`. -/
def readE (g : PrivateKey) (b : NoiseHandshakeState) : NoiseHandshakeState :=
  mix_hash (public_bytes (public_key g)) { b with remote_ephemeral_public := some (public_key g) }

/-- After reading the static key of `t`, sealed as `ciphertext`. -/
def readS (t : PrivateKey) (ciphertext : Bytes) (b : NoiseHandshakeState) : NoiseHandshakeState :=
  { b.sealed ciphertext with remote_static_public := some (public_key t) }

theorem write_e (g : PrivateKey) (a : NoiseHandshakeState) :
    exec (write_token g .e) a = (.ok (public_bytes (public_key g)), a.wroteE g) := by
  simp [write_token, wroteE]

theorem read_e [LawfulCrypto] (g : PrivateKey) (b : NoiseHandshakeState) (rest : Bytes) :
    exec (read_token (public_bytes (public_key g) ++ rest) .e) b = (.ok rest, b.readE g) := by
  have hlen := LawfulCrypto.length_public_bytes (public_key g)
  simp [read_token, readE, hlen, List.take_left' hlen, List.drop_left' hlen,
    LawfulCrypto.from_public_bytes_public_bytes]

theorem Mirror.ephemeral {a b : NoiseHandshakeState} (h : Mirror a b) (g : PrivateKey) :
    Mirror (a.wroteE g) (b.readE g) := by
  obtain ⟨h1, h2, h3, h4, -, h6⟩ := h
  exact ⟨h1, by simp only [wroteE, readE, mix_hash, h2], h3, h4, rfl, h6⟩

theorem write_then_read_s [LawfulCrypto] {a b : NoiseHandshakeState} (h : Mirror a b)
    (hn : a.cipher_state.nonce < NoiseCipherState.NONCES) (g : PrivateKey) :
    ∃ ciphertext,
      exec (write_token g .s) a = (.ok ciphertext, a.sealed ciphertext) ∧
      32 ≤ ciphertext.length ∧ ciphertext.length ≤ 48 ∧
        ∀ rest, exec (read_token (ciphertext ++ rest) .s) b =
        (.ok rest, b.readS a.local_static_private ciphertext) := by
  obtain ⟨ciphertext, henc, hdec, hlen⟩ :=
    encrypt_then_decrypt h hn (public_bytes (public_key a.local_static_private))
  rw [LawfulCrypto.length_public_bytes, h.cipher_state] at hlen
  have hle : ciphertext.length ≤ 48 := by
    rw [hlen]
    split <;> omega
  refine ⟨ciphertext, by simpa [write_token] using henc, by omega, hle, fun rest => ?_⟩
  have hkey : ciphertext.length = if b.cipher_state.has_key then 48 else 32 := by
    rw [hlen]; split <;> rfl
  have hlong : (if b.cipher_state.has_key then 48 else 32) ≤ ciphertext.length + rest.length := by
    rw [← hkey]; omega
  simp [read_token, hlong, List.take_left' hkey, List.drop_left' hkey, hdec, readS,
    LawfulCrypto.from_public_bytes_public_bytes]

theorem Mirror.static {a b : NoiseHandshakeState} (h : Mirror a b) (t : PrivateKey)
    (ciphertext : Bytes) : Mirror (a.sealed ciphertext) (b.readS t ciphertext) := by
  obtain ⟨h1, h2, h3, h4, h5, h6⟩ := h.sealed ciphertext
  exact ⟨h1, h2, h3, h4, h5, h6⟩

/-- A token that carries no key writes nothing. -/
theorem write_dh (token : Token) {a a' : NoiseHandshakeState} (he : token ≠ .e) (hs : token ≠ .s)
    (h : exec (mix_dh token) a = (.ok (), a')) (g : PrivateKey) :
    exec (write_token g token) a = (.ok [], a') := by
  cases token
  case e => exact absurd rfl he
  case s => exact absurd rfl hs
  all_goals simp [write_token, h]

/-- A token that carries no key reads nothing. -/
theorem read_dh (token : Token) {a a' : NoiseHandshakeState} (he : token ≠ .e) (hs : token ≠ .s)
    (h : exec (mix_dh token) a = (.ok (), a')) (buffer : Bytes) :
    exec (read_token buffer token) a = (.ok buffer, a') := by
  cases token
  case e => exact absurd rfl he
  case s => exact absurd rfl hs
  all_goals simp [read_token, h]

/-! ## The three messages -/

/-- Both ends after `n` messages, with the keys that each has by now. -/
structure Stage (n : Nat) (i r : NoiseHandshakeState) (ei er si sr : Option PrivateKey) : Prop
    extends Mirror i r, Ends i r ei er si sr where
  pattern : i.current_pattern = n
  nonce : i.cipher_state.nonce ≤ 1

theorem stage_init (s t : PrivateKey) :
    Stage 0 (init .INITIATOR s) (init .RESPONDER t) none none none none where
  toMirror := mirror_init s t
  role_i := rfl
  role_r := rfl
  ephemeral_i := rfl
  ephemeral_r := rfl
  static_i := by simp
  static_r := by simp
  pattern := rfl
  nonce := by simp [init, NoiseCipherState.init]

/-- After the payload: the pattern index goes up. -/
def next (a : NoiseHandshakeState) : NoiseHandshakeState :=
  { a with current_pattern := a.current_pattern + 1 }

theorem Mirror.next {a b : NoiseHandshakeState} (h : Mirror a b) : Mirror a.next b.next := by
  obtain ⟨h1, h2, h3, h4, h5, h6⟩ := h
  exact ⟨h1, h2, h3, by simp only [NoiseHandshakeState.next, h4], h5, h6⟩

omit [Crypto] in
theorem lt_nonces {n : Nat} (h : n ≤ 1) : n < NoiseCipherState.NONCES := by
  unfold NoiseCipherState.NONCES
  omega

theorem sealed_nonce_le (ciphertext : Bytes) (a : NoiseHandshakeState) :
    (a.sealed ciphertext).cipher_state.nonce ≤ a.cipher_state.nonce + 1 := by
  simp only [sealed, mix_hash]
  split <;> simp

/-- A message ends with the payload, and both ends count it. -/
theorem finish [LawfulCrypto] {a b : NoiseHandshakeState} (h : Mirror a b)
    (hn : a.cipher_state.nonce ≤ 1) (payload : Bytes) :
    ∃ ciphertext,
      exec (encrypt_and_hash payload) a = (.ok ciphertext, a.sealed ciphertext) ∧
      exec (decrypt_and_hash ciphertext) b = (.ok payload, b.sealed ciphertext) ∧
      ciphertext.length ≤ payload.length + 16 ∧
      Mirror (a.sealed ciphertext).next (b.sealed ciphertext).next := by
  obtain ⟨c, henc, hdec, hlength⟩ := encrypt_then_decrypt h (lt_nonces hn) payload
  refine ⟨c, henc, hdec, ?_, (h.sealed c).next⟩
  rw [hlength]
  split <;> omega

/-- The first message, `e`: the initiator writes and the responder reads. -/
theorem message_one [LawfulCrypto] {i r : NoiseHandshakeState}
    (h : Stage 0 i r none none none none) (hkey : i.cipher_state = .init) (payload : Bytes)
    (g : PrivateKey) :
    ∃ message i' r', exec (write_message payload g) i = (.ok message, i') ∧
      exec (read_message message) r = (.ok payload, r') ∧ 32 ≤ message.length ∧
      message.length ≤ payload.length + 96 ∧
      i'.local_static_private = i.local_static_private ∧
      r'.local_static_private = r.local_static_private ∧
      Stage 1 i' r' (some g) none none none := by
  have hm := h.toMirror.ephemeral g
  obtain ⟨c, henc, hdec, hc, hdone⟩ := finish hm h.nonce payload
  have hr : r.current_pattern = 0 := h.current_pattern ▸ h.pattern
  refine ⟨public_bytes (public_key g) ++ c, ((i.wroteE g).sealed c).next,
    ((r.readE g).sealed c).next, ?_, ?_, ?_, ?_, rfl, rfl, ?_⟩
  · simp [write_message, message_patterns, h.pattern, write_tokens, write_e, henc, next]
  · simp [read_message, message_patterns, hr, read_tokens, read_e, hdec, next]
  · simp [LawfulCrypto.length_public_bytes]
  · rw [List.length_append, LawfulCrypto.length_public_bytes]
    omega
  · exact {
      toMirror := hdone
      role_i := h.role_i
      role_r := h.role_r
      ephemeral_i := rfl
      ephemeral_r := h.ephemeral_r
      static_i := by simp
      static_r := by simp
      pattern := by simp [next, sealed, wroteE, mix_hash, h.pattern]
      nonce := by simp [next, sealed, wroteE, mix_hash, hkey, NoiseCipherState.init,
        NoiseCipherState.has_key] }

/-- The second message, `e, ee, s, es`: the responder writes. -/
theorem message_two [LawfulCrypto] {i r : NoiseHandshakeState} {ei : PrivateKey}
    (h : Stage 1 i r (some ei) none none none) (payload : Bytes) (g : PrivateKey) :
    ∃ message i' r', exec (write_message payload g) r = (.ok message, r') ∧
      exec (read_message message) i = (.ok payload, i') ∧ 32 ≤ message.length ∧
      message.length ≤ payload.length + 96 ∧
      i'.local_static_private = i.local_static_private ∧
      r'.local_static_private = r.local_static_private ∧
      Stage 2 i' r' (some ei) (some g) none (some r.local_static_private) := by
  have hr : r.current_pattern = 1 := h.current_pattern ▸ h.pattern
  -- e
  have hm1 := h.toMirror.symm.ephemeral g
  have hk1 : Ends (i.readE g) (r.wroteE g) (some ei) (some g) none none :=
    ⟨h.role_i, h.role_r, h.ephemeral_i, rfl, by simp, by simp⟩
  -- ee
  obtain ⟨s1, hi1, hr1⟩ := sameSecret_ee hm1.symm hk1
  have hm2 := hm1.mix_key s1
  -- s
  obtain ⟨c, hws, -, hc, hrs⟩ := write_then_read_s hm2 (lt_nonces (Nat.zero_le 1)) g
  change ∀ rest, _ = (_, (mix_key s1 (i.readE g)).readS r.local_static_private c) at hrs
  have hm3 := hm2.static r.local_static_private c
  have hk3 : Ends ((mix_key s1 (i.readE g)).readS r.local_static_private c)
      ((mix_key s1 (r.wroteE g)).sealed c) (some ei) (some g) none
      (some r.local_static_private) :=
    ⟨h.role_i, h.role_r, h.ephemeral_i, rfl, by simp, by
      rintro s ⟨⟩
      exact ⟨rfl, rfl⟩⟩
  -- es
  obtain ⟨s2, hi2, hr2⟩ := sameSecret_es hm3.symm hk3
  have hm4 := hm3.mix_key s2
  obtain ⟨p, henc, hdec, hp, hdone⟩ := finish hm4 (Nat.zero_le 1) payload
  have hwrite := write_dh .ee (by simp) (by simp) hr1 g
  have hread := read_dh .ee (by simp) (by simp) hi1 (c ++ p)
  have hwrite' := write_dh .es (by simp) (by simp) hr2 g
  have hread' := read_dh .es (by simp) (by simp) hi2 p
  refine ⟨public_bytes (public_key g) ++ (c ++ p), _, _, ?_, ?_, ?_, ?_, ?_, ?_,
    { toMirror := hdone.symm, toEnds := ?_, pattern := ?_, nonce := ?_ }⟩
  · simp [write_message, message_patterns, hr, write_tokens, write_e, hwrite, hws, hwrite', henc,
      next]
  · simp [read_message, message_patterns, h.pattern, read_tokens, read_e, hread, hrs p, hread',
      hdec, next]
  · simp [LawfulCrypto.length_public_bytes]
  · rw [List.length_append, List.length_append, LawfulCrypto.length_public_bytes]
    omega
  · rfl
  · rfl
  · exact ⟨hk3.role_i, hk3.role_r, hk3.ephemeral_i, hk3.ephemeral_r, hk3.static_i, hk3.static_r⟩
  · show i.current_pattern + 1 = 2
    rw [h.pattern]
  · exact sealed_nonce_le p _

/-- The third message, `s, se`: the initiator writes. -/
theorem message_three [LawfulCrypto] {i r : NoiseHandshakeState} {ei er : PrivateKey}
    {sr : Option PrivateKey} (h : Stage 2 i r (some ei) (some er) none sr) (payload : Bytes)
    (g : PrivateKey) :
    ∃ message i' r', exec (write_message payload g) i = (.ok message, i') ∧
      exec (read_message message) r = (.ok payload, r') ∧ 32 ≤ message.length ∧
      message.length ≤ payload.length + 96 ∧
      i'.local_static_private = i.local_static_private ∧
      r'.local_static_private = r.local_static_private ∧
      Stage 3 i' r' (some ei) (some er) (some i.local_static_private) sr := by
  have hr : r.current_pattern = 2 := h.current_pattern ▸ h.pattern
  -- s
  obtain ⟨c, hws, hlen, hc, hrs⟩ := write_then_read_s h.toMirror (lt_nonces h.nonce) g
  have hm1 := h.toMirror.static i.local_static_private c
  have hk1 : Ends (i.sealed c) (r.readS i.local_static_private c) (some ei) (some er)
      (some i.local_static_private) sr :=
    ⟨h.role_i, h.role_r, h.ephemeral_i, h.ephemeral_r, by
      rintro s ⟨⟩
      exact ⟨rfl, rfl⟩, h.static_r⟩
  -- se
  obtain ⟨s1, hi1, hr1⟩ := sameSecret_se hm1 hk1
  have hm2 := hm1.mix_key s1
  obtain ⟨p, henc, hdec, hp, hdone⟩ := finish hm2 (Nat.zero_le 1) payload
  have hwrite := write_dh .se (by simp) (by simp) hi1 g
  have hread := read_dh .se (by simp) (by simp) hr1 p
  refine ⟨c ++ p, _, _, ?_, ?_, ?_, ?_, ?_, ?_,
    { toMirror := hdone, toEnds := ?_, pattern := ?_, nonce := ?_ }⟩
  · simp [write_message, message_patterns, h.pattern, write_tokens, hws, hwrite, henc, next]
  · simp [read_message, message_patterns, hr, read_tokens, hrs p, hread, hdec, next]
  · rw [List.length_append]; omega
  · rw [List.length_append]; omega
  · rfl
  · rfl
  · exact ⟨hk1.role_i, hk1.role_r, hk1.ephemeral_i, hk1.ephemeral_r, hk1.static_i, hk1.static_r⟩
  · show i.current_pattern + 1 = 3
    rw [h.pattern]
  · exact sealed_nonce_le p _

/-! ## The end of the handshake -/

/-- The keys that the split gives: what the initiator sends under, and what
the responder sends under. -/
theorem Stage.ciphers {i r : NoiseHandshakeState} {ei er si sr : Option PrivateKey}
    (h : Stage 3 i r ei er si sr) : ∃ k1 k2,
    i.get_transport_ciphers = .ok (.initialize_key k1, .initialize_key k2) ∧
      r.get_transport_ciphers = .ok (.initialize_key k2, .initialize_key k1) := by
  have hr : r.current_pattern = 3 := h.current_pattern ▸ h.pattern
  refine ⟨(hkdf i.chaining_key []).1, (hkdf i.chaining_key []).2, ?_, ?_⟩
  · simp [get_transport_ciphers, is_handshake_complete, message_patterns, h.pattern, h.role_i]
  · simp [get_transport_ciphers, is_handshake_complete, message_patterns, hr, h.role_r,
      h.chaining_key]

end NoiseHandshakeState

open NoiseHandshakeState

/-- The three messages, written and read in turn. Returns what was read, and
the two ends. -/
def xx_run (static_i static_r ephemeral_i ephemeral_r unused : PrivateKey)
    (payload0 payload1 payload2 : Bytes) :
    Except PyError (List Bytes × NoiseHandshakeState × NoiseHandshakeState) := do
  let (message, i) := exec (write_message payload0 ephemeral_i) (init .INITIATOR static_i)
  let (read0, r) := exec (read_message (← message)) (init .RESPONDER static_r)
  let read0 ← read0
  let (message, r) := exec (write_message payload1 ephemeral_r) r
  let (read1, i) := exec (read_message (← message)) i
  let read1 ← read1
  let (message, i) := exec (write_message payload2 unused) i
  let (read2, r) := exec (read_message (← message)) r
  let read2 ← read2
  return ([read0, read1, read2], i, r)

/-- What the ends of a handshake agree on. -/
structure Agreed (static_i static_r : PrivateKey) (i r : NoiseHandshakeState) : Prop where
  complete : i.is_handshake_complete = true ∧ r.is_handshake_complete = true
  hash : i.hash_state = r.hash_state
  chaining_key : i.chaining_key = r.chaining_key
  authenticated : i.remote_static_public = some (public_key static_r) ∧
    r.remote_static_public = some (public_key static_i)
  /-- The keys are crossed. From there on, whatever the ends encrypt and
  decrypt in whatever order, every decryption gives the plaintext, and
  encryption works as long as the counter fits its 8 bytes. -/
  transport : ∃ ci cr, i.get_transport_ciphers = .ok ci ∧ r.get_transport_ciphers = .ok cr ∧
    ci.1.key = cr.2.key ∧ ci.2.key = cr.1.key ∧
    ∀ (ops : List DuplexOp) (x : NoiseRole),
      (∀ received ∈ ((Duplex.ofCiphers ci cr).run ops).received x, received.2 = .ok received.1) ∧
      (encryptions x ops < NoiseCipherState.NONCES → ∀ plaintext, ∃ ciphertext,
        (exec (NoiseCipherState.encrypt plaintext [])
          (((Duplex.ofCiphers ci cr).run ops).send x)).1 = .ok ciphertext)

theorem NoiseHandshakeState.Stage.agreed [LawfulCrypto] {i r : NoiseHandshakeState}
    {ei er : Option PrivateKey}
    {si sr : PrivateKey} (h : Stage 3 i r ei er (some si) (some sr)) : Agreed si sr i r := by
  have hr : r.current_pattern = 3 := h.current_pattern ▸ h.pattern
  obtain ⟨k1, k2, hi, hr'⟩ := h.ciphers
  refine ⟨?_, h.hash_state, h.chaining_key, ⟨(h.static_r sr rfl).2, (h.static_i si rfl).2⟩,
    _, _, hi, hr', rfl, rfl, fun ops x => ⟨?_, fun hn plaintext => ?_⟩⟩
  · simp [is_handshake_complete, message_patterns, h.pattern, hr]
  · exact ((Duplex.good_ofCiphers k1 k2).run ops).exact_ x
  · have hgood := (Duplex.good_ofCiphers k1 k2).run ops
    have hle := (Duplex.good_ofCiphers k1 k2).send_nonce_le x ops
    have hzero : ((Duplex.ofCiphers (.initialize_key k1, .initialize_key k2)
        (.initialize_key k2, .initialize_key k1)).send x).nonce = 0 := by cases x <;> rfl
    obtain ⟨ciphertext, he, -⟩ := (hgood.sync x).encrypt plaintext (by omega)
    exact ⟨ciphertext, by rw [he]⟩

/-- The run goes through all three stages. -/
theorem xx_run_stage [LawfulCrypto] (static_i static_r ephemeral_i ephemeral_r unused : PrivateKey)
    (payload0 payload1 payload2 : Bytes) :
    ∃ i r, xx_run static_i static_r ephemeral_i ephemeral_r unused payload0 payload1 payload2 =
        .ok ([payload0, payload1, payload2], i, r) ∧
      Stage 3 i r (some ephemeral_i) (some ephemeral_r) (some static_i) (some static_r) := by
  obtain ⟨m0, i1, r1, hw0, hr0, -, -, hsi1, hsr1, h1⟩ :=
    message_one (stage_init static_i static_r) rfl payload0 ephemeral_i
  obtain ⟨m1, i2, r2, hw1, hr1, -, -, hsi2, hsr2, h2⟩ := message_two h1 payload1 ephemeral_r
  obtain ⟨m2, i3, r3, hw2, hr2, -, -, -, -, h3⟩ := message_three h2 payload2 unused
  have hi : i2.local_static_private = static_i := hsi2.trans hsi1
  have hr : r1.local_static_private = static_r := hsr1
  rw [hi, hr] at h3
  refine ⟨i3, r3, ?_, h3⟩
  simp [xx_run, hw0, hr0, hw1, hr1, hw2, hr2]

/-- The sessions of the two ends: fresh ciphers under crossed keys. -/
theorem NoiseHandshakeState.Stage.sessions {i r : NoiseHandshakeState} {ei er : Option PrivateKey}
    {si sr : PrivateKey} (h : Stage 3 i r ei er (some si) (some sr)) :
    ∃ k1 k2, ∀ (peer_id : Str) (now : UInt64),
      EncryptionService.session_of peer_id now i = some ⟨peer_id, .initialize_key k1,
        .initialize_key k2, public_key sr, now⟩ ∧
      EncryptionService.session_of peer_id now r = some ⟨peer_id, .initialize_key k2,
        .initialize_key k1, public_key si, now⟩ := by
  obtain ⟨k1, k2, hi, hr⟩ := h.ciphers
  refine ⟨k1, k2, fun peer_id now => ⟨?_, ?_⟩⟩
  · unfold EncryptionService.session_of
    rw [hi, (h.static_r sr rfl).2]
  · unfold EncryptionService.session_of
    rw [hr, (h.static_i si rfl).2]

/-- Every handshake between two ends that pass on what the other wrote
completes: no message is refused, every payload arrives, and the ends agree. -/
theorem the_handshake_agrees [LawfulCrypto]
    (static_i static_r ephemeral_i ephemeral_r unused : PrivateKey)
    (payload0 payload1 payload2 : Bytes) :
    ∃ i r, xx_run static_i static_r ephemeral_i ephemeral_r unused payload0 payload1 payload2 =
        .ok ([payload0, payload1, payload2], i, r) ∧ Agreed static_i static_r i r := by
  obtain ⟨i, r, hrun, hstage⟩ := xx_run_stage static_i static_r ephemeral_i ephemeral_r unused
    payload0 payload1 payload2
  exact ⟨i, r, hrun, hstage.agreed⟩

omit [Crypto] in
theorem the_handshake_agrees_on_the_stand_in :
    ∃ i r, @xx_run standIn.packages.toCrypto (standIn.key 1) (standIn.key 2) (standIn.key 3)
        (standIn.key 4) (standIn.key 5) [] [7] [8, 9] = .ok ([[], [7], [8, 9]], i, r) ∧
      @Agreed standIn.packages.toCrypto (standIn.key 1) (standIn.key 2) i r :=
  @the_handshake_agrees standIn.packages.toCrypto standIn.lawfulCrypto (standIn.key 1)
    (standIn.key 2) (standIn.key 3) (standIn.key 4) (standIn.key 5) [] [7] [8, 9]

end bitchat.encryption
