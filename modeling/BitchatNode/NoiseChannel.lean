-- The transport phase of the Noise layer: two cipher states with one key and
-- equal counters stay in step as long as the receiver takes the ciphertexts
-- in the order in which they were made.
import BitchatNode.Encryption

namespace bitchat.encryption

open python Crypto

/-! ## The two ends -/

def NoiseRole.other : NoiseRole → NoiseRole
  | .INITIATOR => .RESPONDER
  | .RESPONDER => .INITIATOR

theorem NoiseRole.other_other (x : NoiseRole) : x.other.other = x := by cases x <;> rfl

theorem NoiseRole.eq_or_eq_other (x y : NoiseRole) : y = x ∨ y = x.other := by
  cases x <;> cases y <;> simp [other]

theorem NoiseRole.other_ne (x : NoiseRole) : x.other ≠ x := by cases x <;> simp [other]

variable [Crypto]

/-! ## One direction -/

theorem NoiseCipherState.encrypt_ok {c : NoiseCipherState} {key : Bytes} (plaintext ad : Bytes)
    (hk : c.key = some key) (hn : c.nonce < NoiseCipherState.NONCES) :
    exec (NoiseCipherState.encrypt plaintext ad) c =
      (.ok (chacha_encrypt key (nonce_bytes c.nonce) plaintext ad),
        { c with nonce := c.nonce + 1 }) := by
  simp [NoiseCipherState.encrypt, hk, Nat.not_le.mpr hn]

theorem NoiseCipherState.encrypt_overflow {c : NoiseCipherState} {key : Bytes}
    (plaintext ad : Bytes) (hk : c.key = some key) (hn : NoiseCipherState.NONCES ≤ c.nonce) :
    exec (NoiseCipherState.encrypt plaintext ad) c = (.error .OverflowError, c) := by
  simp [NoiseCipherState.encrypt, hk, hn]

theorem NoiseCipherState.decrypt_ok [LawfulCrypto] {c : NoiseCipherState} {key : Bytes}
    (plaintext ad : Bytes) (hk : c.key = some key) (hn : c.nonce < NoiseCipherState.NONCES) :
    exec (NoiseCipherState.decrypt (chacha_encrypt key (nonce_bytes c.nonce) plaintext ad) ad) c =
      (.ok plaintext, { c with nonce := c.nonce + 1 }) := by
  simp [NoiseCipherState.decrypt, hk, Nat.not_le.mpr hn,
    LawfulCrypto.chacha_decrypt_encrypt]

/-- The ciphertexts on the wire, oldest first, with the plaintext of each:
they were made under the nonces `n`, `n + 1`, ... of the key. -/
def Numbered (key : Bytes) : Nat → List (Bytes × Bytes) → Prop
  | _, [] => True
  | n, (plaintext, ciphertext) :: wire =>
    ciphertext = chacha_encrypt key (NoiseCipherState.nonce_bytes n) plaintext [] ∧
      Numbered key (n + 1) wire

theorem Numbered.snoc {key : Bytes} {n : Nat} {wire : List (Bytes × Bytes)} (plaintext : Bytes)
    (h : Numbered key n wire) :
    Numbered key n (wire ++ [(plaintext,
      chacha_encrypt key (NoiseCipherState.nonce_bytes (n + wire.length)) plaintext [])]) := by
  induction wire generalizing n with
  | nil => exact ⟨rfl, trivial⟩
  | cons head wire ih =>
    refine ⟨h.1, ?_⟩
    have hn : n + (head :: wire).length = n + 1 + wire.length := by
      simp only [List.length_cons]; omega
    rw [hn]
    exact ih h.2

/-- The sender is ahead of the receiver by what is on the wire. -/
structure InSync (send receive : NoiseCipherState) (wire : List (Bytes × Bytes)) : Prop where
  keyed : ∃ key, send.key = some key ∧ receive.key = some key ∧ Numbered key receive.nonce wire
  nonce : send.nonce = receive.nonce + wire.length
  bound : send.nonce ≤ NoiseCipherState.NONCES

theorem InSync.encrypt {send receive : NoiseCipherState} {wire : List (Bytes × Bytes)}
    (h : InSync send receive wire) (plaintext : Bytes) (hn : send.nonce < NoiseCipherState.NONCES) :
    ∃ ciphertext, exec (NoiseCipherState.encrypt plaintext []) send =
        (.ok ciphertext, { send with nonce := send.nonce + 1 }) ∧
      InSync { send with nonce := send.nonce + 1 } receive (wire ++ [(plaintext, ciphertext)]) := by
  obtain ⟨⟨key, hs, hr, hw⟩, hnonce, -⟩ := h
  refine ⟨_, NoiseCipherState.encrypt_ok plaintext [] hs hn, ⟨key, hs, hr, ?_⟩, ?_, hn⟩
  · rw [hnonce]
    exact hw.snoc plaintext
  · simp only [hnonce, List.length_append, List.length_singleton]
    omega

theorem InSync.decrypt [LawfulCrypto] {send receive : NoiseCipherState}
    {wire : List (Bytes × Bytes)} {plaintext ciphertext : Bytes}
    (h : InSync send receive ((plaintext, ciphertext) :: wire)) :
    exec (NoiseCipherState.decrypt ciphertext []) receive =
        (.ok plaintext, { receive with nonce := receive.nonce + 1 }) ∧
      InSync send { receive with nonce := receive.nonce + 1 } wire := by
  obtain ⟨⟨key, hs, hr, hc, hw⟩, hnonce, hb⟩ := h
  simp only [List.length_cons] at hnonce
  refine ⟨?_, ⟨key, hs, hr, hw⟩, by simp only; omega, hb⟩
  rw [hc]
  exact NoiseCipherState.decrypt_ok plaintext [] hr (by omega)

/-! ## Both directions -/

/-- What the two ends do with their transport ciphers. -/
inductive DuplexOp
  /-- The end encrypts a message, and the ciphertext goes on its wire. -/
  | encrypt (end_ : NoiseRole) (plaintext : Bytes)
  /-- The end decrypts the next ciphertext of the other end. -/
  | decrypt (end_ : NoiseRole)

structure Duplex where
  send : NoiseRole → NoiseCipherState
  receive : NoiseRole → NoiseCipherState
  /-- Per sender, the ciphertexts not yet decrypted, with their plaintexts. -/
  wire : NoiseRole → List (Bytes × Bytes)
  /-- Per receiver, for each decryption so far the plaintext that was
  encrypted and what `decrypt` gave. -/
  received : NoiseRole → List (Bytes × Except PyError Bytes)

/-- The two ends with the send and the receive cipher of each, before any
message. -/
def Duplex.ofCiphers (i r : NoiseCipherState × NoiseCipherState) : Duplex where
  send
    | .INITIATOR => i.1
    | .RESPONDER => r.1
  receive
    | .INITIATOR => i.2
    | .RESPONDER => r.2
  wire _ := []
  received _ := []

def Duplex.step (c : Duplex) : DuplexOp → Duplex
  | .encrypt x plaintext =>
    match exec (NoiseCipherState.encrypt plaintext []) (c.send x) with
    | (.ok ciphertext, send) =>
      { c with
        send := Function.update c.send x send
        wire := Function.update c.wire x (c.wire x ++ [(plaintext, ciphertext)]) }
    | (.error _, send) => { c with send := Function.update c.send x send }
  | .decrypt x =>
    match c.wire x.other with
    | [] => c
    | (plaintext, ciphertext) :: wire =>
      let (result, receive) := exec (NoiseCipherState.decrypt ciphertext []) (c.receive x)
      { c with
        receive := Function.update c.receive x receive
        wire := Function.update c.wire x.other wire
        received := Function.update c.received x (c.received x ++ [(plaintext, result)]) }

def Duplex.run (c : Duplex) (ops : List DuplexOp) : Duplex := ops.foldl Duplex.step c

/-- Both directions are in step and every decryption gave the plaintext. -/
structure Duplex.Good (c : Duplex) : Prop where
  sync : ∀ x : NoiseRole, InSync (c.send x) (c.receive x.other) (c.wire x)
  exact_ : ∀ x, ∀ r ∈ c.received x, r.2 = .ok r.1

/-- Fresh ciphers with crossed keys are in step. -/
theorem Duplex.good_ofCiphers (k1 k2 : Bytes) :
    (Duplex.ofCiphers (.initialize_key k1, .initialize_key k2)
      (.initialize_key k2, .initialize_key k1)).Good := by
  refine ⟨fun x => ?_, fun x r hr => by simp [ofCiphers] at hr⟩
  cases x
  · exact ⟨⟨k1, rfl, rfl, trivial⟩, rfl, Nat.zero_le _⟩
  · exact ⟨⟨k2, rfl, rfl, trivial⟩, rfl, Nat.zero_le _⟩

theorem Duplex.Good.encrypt {c : Duplex} (h : c.Good) (x : NoiseRole) (plaintext : Bytes) :
    (c.step (.encrypt x plaintext)).Good := by
  obtain ⟨⟨key, hs, hr, hw⟩, hnonce, hb⟩ := h.sync x
  rcases Nat.lt_or_ge (c.send x).nonce (NoiseCipherState.NONCES) with hn | hn
  · obtain ⟨ciphertext, he, hsync⟩ := (h.sync x).encrypt plaintext hn
    refine ⟨?_, ?_⟩
    · intro y
      simp only [Duplex.step, he]
      rcases NoiseRole.eq_or_eq_other x y with rfl | rfl
      · simpa using hsync
      · simpa [Function.update_of_ne x.other_ne] using h.sync x.other
    · intro y
      simpa [Duplex.step, he] using h.exact_ y
  · -- The counter is used up: `encrypt` raises and nothing moves.
    have hsame : c.step (.encrypt x plaintext) = c := by
      simp [Duplex.step, NoiseCipherState.encrypt_overflow plaintext [] hs hn]
    rw [hsame]
    exact h

theorem Duplex.Good.decrypt [LawfulCrypto] {c : Duplex} (h : c.Good) (x : NoiseRole) :
    (c.step (.decrypt x)).Good := by
  have hx := h.sync x.other
  rw [NoiseRole.other_other] at hx
  rcases hwire : c.wire x.other with _ | ⟨⟨plaintext, ciphertext⟩, wire⟩
  · simpa [Duplex.step, hwire] using h
  · rw [hwire] at hx
    obtain ⟨hd, hsync⟩ := hx.decrypt
    refine ⟨?_, ?_⟩
    · intro y
      simp only [Duplex.step, hwire, hd]
      rcases NoiseRole.eq_or_eq_other x y with rfl | rfl
      · have hne : y ≠ y.other := y.other_ne.symm
        simpa [Function.update_of_ne hne, Function.update_of_ne hne.symm] using h.sync y
      · simpa [NoiseRole.other_other] using hsync
    · intro y
      simp only [Duplex.step, hwire, hd]
      rcases NoiseRole.eq_or_eq_other x y with rfl | rfl
      · intro r hr
        simp only [Function.update_self, List.mem_append, List.mem_singleton] at hr
        rcases hr with hr | rfl
        · exact h.exact_ y r hr
        · rfl
      · simpa [Function.update_of_ne x.other_ne] using h.exact_ x.other

theorem Duplex.Good.run [LawfulCrypto] {c : Duplex} (h : c.Good) (ops : List DuplexOp) :
    (c.run ops).Good := by
  induction ops generalizing c with
  | nil => exact h
  | cons op ops ih =>
    cases op with
    | encrypt x plaintext => exact ih (h.encrypt x plaintext)
    | decrypt x => exact ih (h.decrypt x)

/-- What end `x` encrypts in a run. -/
def encryptions (x : NoiseRole) (ops : List DuplexOp) : Nat :=
  ops.countP fun op => match op with
    | .encrypt y _ => y = x
    | .decrypt _ => false

theorem Duplex.Good.send_nonce_le [LawfulCrypto] {c : Duplex} (h : c.Good) (x : NoiseRole)
    (ops : List DuplexOp) :
    ((c.run ops).send x).nonce ≤ (c.send x).nonce + encryptions x ops := by
  induction ops generalizing c with
  | nil => exact le_rfl
  | cons op ops ih =>
    cases op with
    | encrypt y plaintext =>
      have hstep := ih (h.encrypt y plaintext)
      have hone : ((c.step (.encrypt y plaintext)).send x).nonce ≤
          (c.send x).nonce + if y = x then 1 else 0 := by
        obtain ⟨⟨key, hs, -, -⟩, -, -⟩ := h.sync y
        by_cases hyx : y = x
        · subst hyx
          rcases Nat.lt_or_ge (c.send y).nonce (NoiseCipherState.NONCES) with hn | hn
          · simp [Duplex.step, NoiseCipherState.encrypt_ok plaintext [] hs hn]
          · simp [Duplex.step, NoiseCipherState.encrypt_overflow plaintext [] hs hn]
        · have hxy : x ≠ y := Ne.symm hyx
          simp only [Duplex.step, hyx, if_false]
          split <;> simp [Function.update_of_ne hxy]
      simp only [encryptions, List.countP_cons, Duplex.run, List.foldl_cons] at hstep ⊢
      by_cases hyx : y = x <;> simp [hyx] at hstep hone ⊢ <;> omega
    | decrypt y =>
      have hstep := ih (h.decrypt y)
      have hsame : (c.step (.decrypt y)).send = c.send := by
        simp only [Duplex.step]
        split <;> rfl
      rw [hsame] at hstep
      simpa [encryptions, Duplex.run] using hstep

end bitchat.encryption
