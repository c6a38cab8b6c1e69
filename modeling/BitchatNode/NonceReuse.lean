-- No key meets a nonce twice. Every key has an origin, a role and the step of
-- the handshake that derived it, and the origin says with which counters the
-- key may encrypt: the two ends of a handshake never share one of them.
import BitchatNode.HandshakeTable
import Mathlib.Logic.Function.Basic
import Mathlib.Data.List.Pairwise

namespace bitchat.encryption

open python Crypto

/-! ## What is done with keys -/

/-- The call that derives a key: `mix_key` for a token, or the split with its
two outputs. -/
inductive Step
  | mix_key (token : Token)
  | split_first
  | split_second
deriving DecidableEq

structure Derivation where
  role : NoiseRole
  step : Step
  key : Bytes
deriving DecidableEq

inductive KeyUse
  | derive (derivation : Derivation)
  /-- An AEAD encryption. -/
  | encrypt (key : Bytes) (nonce : Nat)
deriving DecidableEq

def derivations (uses : List KeyUse) : List Derivation :=
  uses.filterMap fun
    | .derive derivation => some derivation
    | .encrypt _ _ => none

/-- The key and the nonce of each encryption. -/
def encryptions_under (uses : List KeyUse) : List (Bytes × Nat) :=
  uses.filterMap fun
    | .encrypt key nonce => some (key, nonce)
    | .derive _ => none

/-- Two derivations of one key are those of the two ends of a handshake. -/
def Distinct (uses : List KeyUse) : Prop :=
  (derivations uses).Pairwise fun d d' => d.key = d'.key → d.role ≠ d'.role ∧ d.step = d'.step

instance (uses : List KeyUse) : Decidable (Distinct uses) :=
  inferInstanceAs (Decidable (List.Pairwise _ _))

@[simp] theorem derivations_append (uses uses' : List KeyUse) :
    derivations (uses ++ uses') = derivations uses ++ derivations uses' :=
  List.filterMap_append

@[simp] theorem encryptions_under_append (uses uses' : List KeyUse) :
    encryptions_under (uses ++ uses') = encryptions_under uses ++ encryptions_under uses' :=
  List.filterMap_append

/-! ## What an origin permits -/

/-- The counters under which the role encrypts with the key of the step. In a
handshake the initiator has decrypted once before it encrypts, or the key is
not the responder's to encrypt with. -/
def Permits : NoiseRole → Step → Nat → Prop
  | .RESPONDER, .mix_key .ee, n => n = 0
  | .RESPONDER, .mix_key .es, n => n = 0
  | .INITIATOR, .mix_key .es, n => n = 1
  | .INITIATOR, .mix_key .se, n => n = 0
  | .INITIATOR, .split_first, _ => True
  | .RESPONDER, .split_second, _ => True
  | _, _, _ => False

/-- The key of the step is one that the role sends messages under. -/
def Lasting (role : NoiseRole) (step : Step) : Prop := ∀ n, Permits role step n

theorem Permits.role_eq {role role' : NoiseRole} {step : Step} {n : Nat} (h : Permits role step n)
    (h' : Permits role' step n) : role = role' := by
  cases role <;> cases role' <;> first
    | rfl
    | (cases step with
      | mix_key token => cases token <;> simp_all [Permits]
      | split_first => simp [Permits] at h h'
      | split_second => simp [Permits] at h h')

/-- The key was derived, and its origin permits the counter. -/
def Origin (uses : List KeyUse) (key : Bytes) (n : Nat) : Prop :=
  ∃ d ∈ derivations uses, d.key = key ∧ Permits d.role d.step n

theorem Origin.append {uses : List KeyUse} {key : Bytes} {n : Nat} (h : Origin uses key n)
    (uses' : List KeyUse) : Origin (uses ++ uses') key n := by
  obtain ⟨d, hd, hkey, hp⟩ := h
  exact ⟨d, by rw [derivations_append]; exact List.mem_append_left _ hd, hkey, hp⟩

/-- A key that was derived before is not derived again with a common counter. -/
theorem Origin.fresh {uses uses' : List KeyUse} {key : Bytes} {n : Nat}
    (hdistinct : Distinct (uses ++ uses')) (h : Origin uses key n) (h' : Origin uses' key n) :
    False := by
  obtain ⟨d, hd, hkey, hp⟩ := h
  obtain ⟨d', hd', hkey', hp'⟩ := h'
  unfold Distinct at hdistinct
  rw [derivations_append] at hdistinct
  obtain ⟨hrole, hstep⟩ := (List.pairwise_append.mp hdistinct).2.2 d hd d' hd'
    (hkey.trans hkey'.symm)
  exact hrole (hp.role_eq (hstep ▸ hp'))

/-! ## The uses of one handshake message -/

/-- What a cipher state that starts with the given key, at the given counter,
can do: encrypt where the origin permits, decrypt, or go over to a new key. -/
inductive Orderly (role : NoiseRole) : Option (Step × Bytes × Nat) → List KeyUse → Prop
  | nil {cipher} : Orderly role cipher []
  | derive {cipher step key uses} (h : Orderly role (some (step, key, 0)) uses) :
    Orderly role cipher (.derive ⟨role, step, key⟩ :: uses)
  | encrypt {step key n uses} (hp : Permits role step n) (hn : n < NoiseCipherState.NONCES)
    (h : Orderly role (some (step, key, n + 1)) uses) :
    Orderly role (some (step, key, n)) (.encrypt key n :: uses)
  | decrypt {step key n uses} (h : Orderly role (some (step, key, n + 1)) uses) :
    Orderly role (some (step, key, n)) uses

section Orderly

variable {role : NoiseRole} {cipher : Option (Step × Bytes × Nat)} {uses : List KeyUse}

theorem Orderly.role_eq (h : Orderly role cipher uses) : ∀ d ∈ derivations uses, d.role = role := by
  induction h with
  | nil => exact fun d hd => absurd hd List.not_mem_nil
  | derive _ ih =>
    intro d hd
    rcases List.mem_cons.mp hd with rfl | hd
    · rfl
    · exact ih d hd
  | encrypt _ _ _ ih => exact ih
  | decrypt _ ih => exact ih

theorem Orderly.bounded (h : Orderly role cipher uses) :
    ∀ e ∈ encryptions_under uses, e.2 < NoiseCipherState.NONCES := by
  induction h with
  | nil => exact fun e he => absurd he List.not_mem_nil
  | derive _ ih => exact ih
  | encrypt _ hn _ ih =>
    intro e he
    rcases List.mem_cons.mp he with rfl | he
    · exact hn
    · exact ih e he
  | decrypt _ ih => exact ih

/-- What is encrypted has an origin: the key that the cipher starts with, from
its counter on, or a key of its own. -/
theorem Orderly.origin (h : Orderly role cipher uses) {key : Bytes} {n : Nat}
    (hmem : (key, n) ∈ encryptions_under uses) :
    Origin uses key n ∨ ∃ step m, cipher = some (step, key, m) ∧ m ≤ n ∧ Permits role step n := by
  induction h with
  | nil => exact absurd hmem List.not_mem_nil
  | @derive cipher step key' uses _ ih =>
    left
    rcases ih hmem with hold | ⟨step', m, hcipher, -, hp⟩
    · obtain ⟨d, hd, hkey, hp⟩ := hold
      exact ⟨d, List.mem_cons_of_mem _ hd, hkey, hp⟩
    · cases hcipher
      exact ⟨⟨role, step, key⟩, List.mem_cons_self, rfl, hp⟩
  | @encrypt step key' m uses hp _ _ ih =>
    rcases List.mem_cons.mp hmem with heq | hmem
    · cases heq
      exact Or.inr ⟨step, n, rfl, le_rfl, hp⟩
    · rcases ih hmem with hold | ⟨step', m', hcipher, hle, hp'⟩
      · exact Or.inl hold
      · cases hcipher
        exact Or.inr ⟨step, m, rfl, by omega, hp'⟩
  | @decrypt step key' m uses _ ih =>
    rcases ih hmem with hold | ⟨step', m', hcipher, hle, hp'⟩
    · exact Or.inl hold
    · cases hcipher
      exact Or.inr ⟨step, m, rfl, by omega, hp'⟩

/-- The keys of one message are all of one role, and so they are distinct. -/
theorem Orderly.nodup (h : Orderly role cipher uses) (hdistinct : Distinct uses)
    (hold : ∀ step key m, cipher = some (step, key, m) → ∀ d ∈ derivations uses, d.key ≠ key) :
    (encryptions_under uses).Nodup := by
  induction h with
  | nil => exact List.nodup_nil
  | @derive cipher step key uses h ih =>
    refine ih (List.Pairwise.of_cons hdistinct) fun step' key' m hcipher d hd heq => ?_
    cases hcipher
    have hrole := (List.pairwise_cons.mp hdistinct).1 d hd heq.symm
    exact hrole.1 (h.role_eq d hd).symm
  | @encrypt step key n uses hp _ h ih =>
    have hnew : ∀ step' key' m, some (step, key, n + 1) = some (step', key', m) →
        ∀ d ∈ derivations uses, d.key ≠ key' := by
      intro step' key' m hcipher d hd
      cases hcipher
      exact hold step key n rfl d hd
    refine List.nodup_cons.mpr ⟨fun hmem => ?_, ih hdistinct hnew⟩
    rcases h.origin hmem with ⟨d, hd, hkey, -⟩ | ⟨step', m, hcipher, hle, -⟩
    · exact hold step key n rfl d hd hkey
    · cases hcipher
      omega
  | @decrypt step key n uses h ih =>
    refine ih hdistinct fun step' key' m hcipher d hd => ?_
    cases hcipher
    exact hold step key n rfl d hd

theorem Orderly.origin_new (h : Orderly role none uses) {key : Bytes} {n : Nat}
    (hmem : (key, n) ∈ encryptions_under uses) : Origin uses key n := by
  rcases h.origin hmem with horigin | ⟨_, _, hcipher, _⟩
  · exact horigin
  · cases hcipher

theorem Orderly.nodup_new (h : Orderly role none uses) (hdistinct : Distinct uses) :
    (encryptions_under uses).Nodup :=
  h.nodup hdistinct fun _ _ _ hcipher => by cases hcipher

end Orderly

/-! ## Keys that are used for messages -/

/-- Every encryption has an origin and none is done twice; the ciphers that
are in use, each in its place, have keys of their own and are past every
counter that their keys were used with. -/
structure Apart {κ : Type} (uses : List KeyUse) (inUse : κ → Option NoiseCipherState) : Prop where
  origin : ∀ key n, (key, n) ∈ encryptions_under uses → Origin uses key n
  nodup : (encryptions_under uses).Nodup
  bounded : ∀ e ∈ encryptions_under uses, e.2 < NoiseCipherState.NONCES
  keyed : ∀ x c, inUse x = some c → ∃ d ∈ derivations uses, Lasting d.role d.step ∧
    c.key = some d.key ∧ ∀ n, (d.key, n) ∈ encryptions_under uses → n < c.nonce
  separate : ∀ x y c c', inUse x = some c → inUse y = some c' → c.key = c'.key → x = y

section Apart

variable {κ : Type} {uses : List KeyUse} {inUse inUse' : κ → Option NoiseCipherState}

/-- Ciphers may go out of use. -/
theorem Apart.fewer (h : Apart uses inUse) (hsub : ∀ x c, inUse' x = some c → inUse x = some c) :
    Apart uses inUse' where
  origin := h.origin
  nodup := h.nodup
  bounded := h.bounded
  keyed x c hx := h.keyed x c (hsub x c hx)
  separate x y c c' hx hy := h.separate x y c c' (hsub x c hx) (hsub y c' hy)

theorem distinct_left {uses uses' : List KeyUse} (h : Distinct (uses ++ uses')) : Distinct uses := by
  unfold Distinct at h
  rw [derivations_append] at h
  exact (List.pairwise_append.mp h).1

theorem distinct_right {uses uses' : List KeyUse} (h : Distinct (uses ++ uses')) :
    Distinct uses' := by
  unfold Distinct at h
  rw [derivations_append] at h
  exact (List.pairwise_append.mp h).2.1

/-- A handshake message keeps to keys of its own. -/
theorem Apart.handshake {role : NoiseRole} {uses' : List KeyUse} (h : Apart uses inUse)
    (horderly : Orderly role none uses') (hdistinct : Distinct (uses ++ uses')) :
    Apart (uses ++ uses') inUse where
  origin key n hmem := by
    rw [encryptions_under_append] at hmem
    rcases List.mem_append.mp hmem with hmem | hmem
    · exact (h.origin key n hmem).append uses'
    · obtain ⟨d, hd, hkey, hp⟩ := horderly.origin_new hmem
      exact ⟨d, by rw [derivations_append]; exact List.mem_append_right _ hd, hkey, hp⟩
  nodup := by
    rw [encryptions_under_append]
    refine List.nodup_append.mpr ⟨h.nodup, horderly.nodup_new (distinct_right hdistinct), ?_⟩
    rintro ⟨key, n⟩ hold _ hnew rfl
    exact Origin.fresh hdistinct (h.origin key n hold) (horderly.origin_new hnew)
  bounded e he := by
    rw [encryptions_under_append] at he
    rcases List.mem_append.mp he with he | he
    · exact h.bounded e he
    · exact horderly.bounded e he
  keyed x c hx := by
    obtain ⟨d, hd, hlasting, hkey, hbound⟩ := h.keyed x c hx
    refine ⟨d, by rw [derivations_append]; exact List.mem_append_left _ hd, hlasting, hkey, ?_⟩
    intro n hmem
    rw [encryptions_under_append] at hmem
    rcases List.mem_append.mp hmem with hmem | hmem
    · exact hbound n hmem
    · exact absurd (horderly.origin_new hmem) fun horigin =>
        Origin.fresh hdistinct ⟨d, hd, rfl, hlasting n⟩ horigin
  separate := h.separate

variable [DecidableEq κ]

/-- A session comes into use with a key that was just derived. -/
theorem Apart.session {x : κ} {d : Derivation} {uses' : List KeyUse} {cipher : NoiseCipherState}
    (h : Apart uses inUse) (hd : d ∈ derivations uses') (hlasting : Lasting d.role d.step)
    (hnone : encryptions_under uses' = []) (hkey : cipher.key = some d.key)
    (hdistinct : Distinct (uses ++ uses')) :
    Apart (uses ++ uses') (Function.update inUse x (some cipher)) := by
  have hunused : ∀ n, (d.key, n) ∉ encryptions_under uses := fun n hmem =>
    Origin.fresh hdistinct (h.origin _ n hmem) ⟨d, hd, rfl, hlasting n⟩
  have hother : ∀ y c, inUse y = some c → c.key ≠ some d.key := by
    intro y c hy heq
    obtain ⟨d', hd', hlasting', hkey', -⟩ := h.keyed y c hy
    exact Origin.fresh hdistinct ⟨d', hd', Option.some.inj (hkey'.symm.trans heq), hlasting' 0⟩
      ⟨d, hd, rfl, hlasting 0⟩
  have hsame : encryptions_under (uses ++ uses') = encryptions_under uses := by
    rw [encryptions_under_append, hnone, List.append_nil]
  refine ⟨fun key n hmem => (h.origin key n (hsame ▸ hmem)).append uses', hsame ▸ h.nodup,
    hsame ▸ h.bounded, ?_, ?_⟩
  · intro y c hy
    rw [derivations_append, hsame]
    by_cases hxy : y = x
    · subst hxy
      rw [Function.update_self] at hy
      cases hy
      exact ⟨d, List.mem_append_right _ hd, hlasting, hkey, fun n hmem => absurd hmem (hunused n)⟩
    · rw [Function.update_of_ne hxy] at hy
      obtain ⟨d', hd', hrest⟩ := h.keyed y c hy
      exact ⟨d', List.mem_append_left _ hd', hrest⟩
  · intro y z c c' hy hz heq
    by_cases hyx : y = x <;> by_cases hzx : z = x
    · rw [hyx, hzx]
    · subst hyx
      rw [Function.update_self] at hy
      rw [Function.update_of_ne hzx] at hz
      cases hy
      exact absurd (heq.symm.trans hkey) (hother z c' hz)
    · subst hzx
      rw [Function.update_of_ne hyx] at hy
      rw [Function.update_self] at hz
      cases hz
      exact absurd (heq.trans hkey) (hother y c hy)
    · rw [Function.update_of_ne hyx] at hy
      rw [Function.update_of_ne hzx] at hz
      exact h.separate y z c c' hy hz heq

/-- A session encrypts a message. -/
theorem Apart.encrypt {x : κ} {c : NoiseCipherState} {key : Bytes} (h : Apart uses inUse)
    (hx : inUse x = some c) (hkey : c.key = some key) (hn : c.nonce < NoiseCipherState.NONCES) :
    Apart (uses ++ [.encrypt key c.nonce])
      (Function.update inUse x (some { c with nonce := c.nonce + 1 })) := by
  obtain ⟨d, hd, hlasting, hd_key, hbound⟩ := h.keyed x c hx
  obtain rfl := Option.some.inj (hkey.symm.trans hd_key)
  have hder : derivations (uses ++ [.encrypt d.key c.nonce]) = derivations uses := by
    rw [derivations_append]
    exact List.append_nil _
  have henc : encryptions_under (uses ++ [.encrypt d.key c.nonce]) =
      encryptions_under uses ++ [(d.key, c.nonce)] := encryptions_under_append _ _
  refine ⟨fun key n hmem => ?_, ?_, fun e he => ?_, ?_, ?_⟩
  · unfold Origin
    rw [hder]
    rw [henc] at hmem
    rcases List.mem_append.mp hmem with hmem | hmem
    · exact h.origin key n hmem
    · cases List.mem_singleton.mp hmem
      exact ⟨d, hd, rfl, hlasting c.nonce⟩
  · rw [henc]
    refine List.nodup_append.mpr ⟨h.nodup, List.nodup_singleton _, ?_⟩
    rintro e hold _ hnew rfl
    rw [List.mem_singleton.mp hnew] at hold
    exact absurd (hbound c.nonce hold) (lt_irrefl _)
  · rw [henc] at he
    rcases List.mem_append.mp he with he | he
    · exact h.bounded e he
    · rw [List.mem_singleton.mp he]
      exact hn
  · intro y c' hy
    rw [hder, henc]
    by_cases hyx : y = x
    · subst hyx
      rw [Function.update_self] at hy
      cases hy
      refine ⟨d, hd, hlasting, hkey, fun n hmem => ?_⟩
      rcases List.mem_append.mp hmem with hmem | hmem
      · exact Nat.lt_succ_of_lt (hbound n hmem)
      · cases List.mem_singleton.mp hmem
        exact Nat.lt_succ_self _
    · rw [Function.update_of_ne hyx] at hy
      obtain ⟨d', hd', hlasting', hkey', hbound'⟩ := h.keyed y c' hy
      refine ⟨d', hd', hlasting', hkey', fun n hmem => ?_⟩
      rcases List.mem_append.mp hmem with hmem | hmem
      · exact hbound' n hmem
      · have hsame : d'.key = d.key := congrArg Prod.fst (List.mem_singleton.mp hmem)
        exact absurd (h.separate y x c' c hy hx (hkey'.trans (hsame ▸ hkey.symm))) hyx
  · -- The key of a cipher is the one that it had.
    have hkeys : ∀ y c', Function.update inUse x (some { c with nonce := c.nonce + 1 }) y =
        some c' → ∃ c₀, inUse y = some c₀ ∧ c₀.key = c'.key := by
      intro y c' hy
      by_cases hyx : y = x
      · subst hyx
        rw [Function.update_self] at hy
        cases hy
        exact ⟨c, hx, rfl⟩
      · rw [Function.update_of_ne hyx] at hy
        exact ⟨c', hy, rfl⟩
    intro y z c' c'' hy hz heq
    obtain ⟨c₁, hc₁, hkey₁⟩ := hkeys y c' hy
    obtain ⟨c₂, hc₂, hkey₂⟩ := hkeys z c'' hz
    exact h.separate y z c₁ c₂ hc₁ hc₂ (hkey₁.trans (heq.trans hkey₂.symm))

end Apart

variable [Crypto]

/-! ## What each call does with keys -/

/-- What goes on after a call that returns. -/
def followed {σ α : Type} (x : Py PyError σ α) (rest : α → σ → List KeyUse) (s : σ) :
    List KeyUse :=
  match exec x s with
  | (.ok a, s') => rest a s'
  | (.error _, _) => []

/-- `encrypt` comes to the AEAD where there is a key and a counter. -/
def NoiseCipherState.encrypt_uses (self : NoiseCipherState) : List KeyUse :=
  match self.key with
  | none => []
  | some key => if NONCES ≤ self.nonce then [] else [.encrypt key self.nonce]

/-- The AEAD is called where `encrypt` returns, and with that key and nonce. -/
theorem NoiseCipherState.encrypt_returns_iff (c : NoiseCipherState)
    (plaintext ad ciphertext : Bytes) :
    (exec (NoiseCipherState.encrypt plaintext ad) c).1 = .ok ciphertext ↔
      ∃ key, c.encrypt_uses = [.encrypt key c.nonce] ∧
        chacha_encrypt key (nonce_bytes c.nonce) plaintext ad = ciphertext := by
  unfold NoiseCipherState.encrypt encrypt_uses
  rcases hkey : c.key with _ | key
  · simp [hkey]
  · by_cases hn : NONCES ≤ c.nonce <;> simp [hkey, hn]

omit [Crypto] in
/-- Counters below the bound make different nonces. -/
theorem nonce_bytes_injective {n m : Nat} (hn : n < NoiseCipherState.NONCES)
    (hm : m < NoiseCipherState.NONCES)
    (h : NoiseCipherState.nonce_bytes n = NoiseCipherState.nonce_bytes m) : n = m := by
  have hbe : be 8 n = be 8 m := List.reverse_injective (List.append_cancel_left h)
  rw [← fromBE_be 8 n (by simpa [NoiseCipherState.NONCES] using hn),
    ← fromBE_be 8 m (by simpa [NoiseCipherState.NONCES] using hm), hbe]

namespace NoiseHandshakeState

/-- The key that `mix_key` puts in place, if the exchange works. -/
def mix_uses (token : Token) (self : NoiseHandshakeState) : List KeyUse :=
  followed (mix_dh token)
    (fun _ mixed => mixed.cipher_state.key.toList.map fun key =>
      .derive ⟨self.role, .mix_key token, key⟩) self

def write_token_uses (self : NoiseHandshakeState) : Token → List KeyUse
  | .e => []
  | .s => self.cipher_state.encrypt_uses
  | token => mix_uses token self

def write_tokens_uses (generated : PrivateKey) : List Token → NoiseHandshakeState → List KeyUse
  | [], _ => []
  | token :: rest, self => self.write_token_uses token ++
    followed (write_token generated token) (fun _ => write_tokens_uses generated rest) self

def write_message_uses (generated : PrivateKey) (self : NoiseHandshakeState) : List KeyUse :=
  match message_patterns[self.current_pattern]? with
  | none => []
  | some patterns => write_tokens_uses generated patterns self ++
    followed (write_tokens generated patterns) (fun _ h => h.cipher_state.encrypt_uses) self

def read_token_uses (self : NoiseHandshakeState) : Token → List KeyUse
  | .e | .s => []
  | token => mix_uses token self

def read_tokens_uses : List Token → Bytes → NoiseHandshakeState → List KeyUse
  | [], _, _ => []
  | token :: rest, buffer, self => self.read_token_uses token ++
    followed (read_token buffer token) (read_tokens_uses rest) self

def read_message_uses (message : Bytes) (self : NoiseHandshakeState) : List KeyUse :=
  match message_patterns[self.current_pattern]? with
  | none => []
  | some patterns => read_tokens_uses patterns message self

/-- The split, where the handshake is complete. -/
def split_uses (self : NoiseHandshakeState) : List KeyUse :=
  if self.is_handshake_complete then
    [.derive ⟨self.role, .split_first, (hkdf self.chaining_key []).1⟩,
      .derive ⟨self.role, .split_second, (hkdf self.chaining_key []).2⟩]
  else []

end NoiseHandshakeState

namespace EncryptionService

open NoiseHandshakeState

def advance_uses (message : Bytes) (generated : PrivateKey) (h : NoiseHandshakeState) :
    List KeyUse :=
  read_message_uses message h ++ followed (read_message message)
    (fun _ h' => if h'.is_handshake_complete then [] else write_message_uses generated h') h

def process_uses (peer_id : Str) (message : Bytes) (generated : PrivateKey)
    (svc : EncryptionService) : List KeyUse :=
  if message.length < 32 then []
  else
    let handshake :=
      (svc.handshake_states.get? peer_id).getD (.init .RESPONDER svc.static_identity_key)
    if handshake.is_handshake_complete then []
    else advance_uses message generated handshake ++
      followed (advance message generated) (fun _ => split_uses) handshake

/-- What an operation does with keys, in its order. -/
def uses (svc : EncryptionService) : ServiceOp → List KeyUse
  | .initiate_handshake _ generated =>
    write_message_uses generated (.init .INITIATOR svc.static_identity_key)
  | .process_handshake_message peer_id message generated _ =>
    process_uses peer_id message generated svc
  | .encrypt _ peer_id =>
    ((svc.sessions.get? peer_id).map fun session => session.send_cipher.encrypt_uses).getD []
  | .decrypt_from_peer _ _ | .remove_session _ | .clear_handshake_state _
  | .cleanup_old_sessions _ _ => []

end EncryptionService

/-! ## The uses of a call are orderly -/

namespace NoiseHandshakeState

section Yields

variable {α β : Type} {role : NoiseRole} {cipher : Option (Step × Bytes × Nat)}

/-- The uses of the call are orderly, and what goes on where it returns may
rely on `K`. -/
def Yields (role : NoiseRole) (cipher : Option (Step × Bytes × Nat)) (uses : List KeyUse)
    (x : Py PyError NoiseHandshakeState α) (a : NoiseHandshakeState)
    (K : α → NoiseHandshakeState → Option (Step × Bytes × Nat) → Prop) : Prop :=
  ∀ rest : α → NoiseHandshakeState → List KeyUse,
    (∀ v a' cipher', exec x a = (.ok v, a') → K v a' cipher' → Orderly role cipher' (rest v a')) →
    Orderly role cipher (uses ++ followed x rest a)

variable {uses : List KeyUse} {x : Py PyError NoiseHandshakeState α} {a : NoiseHandshakeState}
  {K : α → NoiseHandshakeState → Option (Step × Bytes × Nat) → Prop}

theorem Yields.of (hok : ∀ v a', exec x a = (.ok v, a') → ∃ cipher', K v a' cipher' ∧
      ∀ more, Orderly role cipher' more → Orderly role cipher (uses ++ more))
    (hraises : Orderly role cipher uses) : Yields role cipher uses x a K := by
  intro rest hrest
  unfold followed
  rcases hexec : exec x a with ⟨r, a'⟩
  cases r with
  | error e =>
    rw [List.append_nil]
    exact hraises
  | ok v =>
    obtain ⟨cipher', hk, hmore⟩ := hok v a' hexec
    exact hmore _ (hrest v a' cipher' hexec hk)

theorem followed_nil (x : Py PyError NoiseHandshakeState α) (a : NoiseHandshakeState) :
    followed x (fun _ _ => []) a = [] := by
  unfold followed
  rcases exec x a with ⟨r, a'⟩
  cases r <;> rfl

theorem Yields.orderly (h : Yields role cipher uses x a K) : Orderly role cipher uses := by
  have hnil := h (fun _ _ => []) fun _ _ _ _ _ => .nil
  rwa [followed_nil, List.append_nil] at hnil

theorem Yields.pure {v : α} (h : K v a cipher) : Yields role cipher [] (Pure.pure v) a K :=
  .of (fun _ _ hexec => by
    cases hexec
    exact ⟨cipher, h, fun _ hmore => hmore⟩) .nil

theorem Yields.throw (e : PyError) : Yields role cipher [] (MonadExcept.throw e) a K :=
  .of (fun _ _ hexec => by cases hexec) .nil

theorem Yields.congr {y : Py PyError NoiseHandshakeState α} (h : exec x a = exec y a)
    (hy : Yields role cipher uses y a K) : Yields role cipher uses x a K := by
  unfold Yields followed at *
  simpa only [h] using hy

theorem Yields.bind {f : α → Py PyError NoiseHandshakeState β}
    {more : α → NoiseHandshakeState → List KeyUse}
    {K' : β → NoiseHandshakeState → Option (Step × Bytes × Nat) → Prop}
    (hx : Yields role cipher uses x a K)
    (hf : ∀ v a' cipher', exec x a = (.ok v, a') → K v a' cipher' →
      Yields role cipher' (more v a') (f v) a' K') :
    Yields role cipher (uses ++ followed x more a) (x >>= f) a K' := by
  intro rest hrest
  have hjoin : (uses ++ followed x more a) ++ followed (x >>= f) rest a =
      uses ++ followed x (fun v a' => more v a' ++ followed (f v) rest a') a := by
    unfold followed
    rw [exec_bind, List.append_assoc]
    rcases exec x a with ⟨r, a'⟩
    cases r <;> rfl
  rw [hjoin]
  refine hx _ fun v a' cipher' hexec hk => hf v a' cipher' hexec hk rest ?_
  intro v' a'' cipher'' hexec' hk'
  refine hrest v' a'' cipher'' ?_ hk'
  rw [exec_bind_ok f hexec, hexec']

theorem Yields.then {f : α → Py PyError NoiseHandshakeState β}
    {K' : β → NoiseHandshakeState → Option (Step × Bytes × Nat) → Prop}
    (hx : Yields role cipher uses x a K)
    (hf : ∀ v a' cipher', exec x a = (.ok v, a') → K v a' cipher' →
      Yields role cipher' [] (f v) a' K') : Yields role cipher uses (x >>= f) a K' := by
  have hbind : Yields role cipher (uses ++ followed x (fun _ _ => []) a) (x >>= f) a K' :=
    hx.bind hf
  rwa [followed_nil, List.append_nil] at hbind

/-- What is known from elsewhere of the state that is left. -/
theorem Yields.ensures {Q : α → NoiseHandshakeState → Prop} {E : PyError → Prop}
    (h : Yields role cipher uses x a K) (hensures : Ensures Q E x a) :
    Yields role cipher uses x a (fun v a' cipher' => K v a' cipher' ∧ Q v a') := by
  intro rest hrest
  exact h rest fun v a' cipher' hexec hk => hrest v a' cipher' hexec ⟨hk, hensures.ok hexec⟩

end Yields

/-! ## Tokens -/

/-- Where the cipher is: the step that derived its key and its counter, or
none if no key was derived yet in this call. -/
abbrev Position := Option (Step × Nat)

inductive At (role : NoiseRole) (a : NoiseHandshakeState) :
    Position → Option (Step × Bytes × Nat) → Prop
  | bare (hrole : a.role = role) : At role a none none
  | keyed (step : Step) (key : Bytes) (n : Nat) (hrole : a.role = role)
    (hcipher : a.cipher_state = ⟨some key, n⟩) :
    At role a (some (step, n)) (some (step, key, n))

def Position.used : Position → Position
  | none => none
  | some (step, n) => some (step, n + 1)

def Position.next (p : Position) : Token → Position
  | .e => p
  | .s => p.used
  | token => some (.mix_key token, 0)

/-- Where the cipher is, the role may encrypt. -/
def Position.Permitted (role : NoiseRole) : Position → Prop
  | none => False
  | some (step, n) => Permits role step n

section

variable {role : NoiseRole} {cipher : Option (Step × Bytes × Nat)} {p : Position}
  {a : NoiseHandshakeState}

theorem yields_encrypt (h : At role a p cipher) (hp : p.Permitted role) (plaintext : Bytes) :
    Yields role cipher a.cipher_state.encrypt_uses (encrypt_and_hash plaintext) a
      (fun _ a' cipher' => At role a' p.used cipher') := by
  cases h with
  | bare hrole => exact absurd hp id
  | keyed step key n hrole hcipher =>
    by_cases hn : NoiseCipherState.NONCES ≤ n
    · -- The counter is used up: nothing is encrypted.
      have huses : a.cipher_state.encrypt_uses = [] := by
        simp [NoiseCipherState.encrypt_uses, hcipher, hn]
      have hexec : exec (encrypt_and_hash plaintext) a = (.error .OverflowError, a) := by
        simp [encrypt_and_hash, onCipher, NoiseCipherState.has_key, NoiseCipherState.encrypt,
          hcipher, hn]
        rw [← hcipher]
      rw [huses]
      refine .of (fun v a' hv => ?_) .nil
      cases hexec.symm.trans hv
    · have huses : a.cipher_state.encrypt_uses = [.encrypt key n] := by
        simp [NoiseCipherState.encrypt_uses, hcipher, hn]
      have hexec : ∃ ciphertext a', exec (encrypt_and_hash plaintext) a = (.ok ciphertext, a') ∧
          a'.role = a.role ∧ a'.cipher_state = ⟨some key, n + 1⟩ := by
        simp [encrypt_and_hash, onCipher, NoiseCipherState.has_key, NoiseCipherState.encrypt,
          hcipher, hn, mix_hash]
      obtain ⟨ciphertext, a', hexec, hrole', hcipher'⟩ := hexec
      rw [huses]
      refine .of (fun v a'' hv => ?_) (.encrypt hp (Nat.lt_of_not_le hn) .nil)
      cases hexec.symm.trans hv
      exact ⟨_, .keyed step key (n + 1) (hrole'.trans hrole) hcipher',
        fun _ hmore => .encrypt hp (Nat.lt_of_not_le hn) hmore⟩

theorem yields_decrypt (h : At role a p cipher) (ciphertext : Bytes) :
    Yields role cipher [] (decrypt_and_hash ciphertext) a
      (fun _ a' cipher' => At role a' p.used cipher') := by
  cases h with
  | bare hrole =>
    refine .of (fun v a' hv => ⟨none, .bare ?_, fun _ hmore => hmore⟩) .nil
    exact ((congrArg Phase.role ((decrypt_and_hash_ensures ciphertext a).ok hv))).trans hrole
  | keyed step key n hrole hcipher =>
    have hensures : Ensures (fun _ a' => a'.role = a.role ∧ a'.cipher_state = ⟨some key, n + 1⟩)
        (fun _ => True) (decrypt_and_hash ciphertext) a := by
      unfold Ensures decrypt_and_hash onCipher NoiseCipherState.decrypt
      by_cases hn : NoiseCipherState.NONCES ≤ n
      · simp [NoiseCipherState.has_key, hcipher, hn]
      · rcases hd : chacha_decrypt key (NoiseCipherState.nonce_bytes n) ciphertext a.hash_state
          with _ | plaintext
        · simp [NoiseCipherState.has_key, hcipher, hn, hd]
        · simp [NoiseCipherState.has_key, hcipher, hn, hd, mix_hash]
    refine .of (fun v a' hv => ?_) .nil
    obtain ⟨hrole', hcipher'⟩ := hensures.ok hv
    exact ⟨_, .keyed step key (n + 1) (hrole'.trans hrole) hcipher', fun _ hmore => .decrypt hmore⟩

theorem yields_mix (h : At role a p cipher) (token : Token) :
    Yields role cipher (mix_uses token a) (mix_dh token) a
      (fun _ a' cipher' => At role a' (some (.mix_key token, 0)) cipher') := by
  have hrole : a.role = role := by cases h <;> assumption
  have hensures : Ensures (fun _ a' => a'.role = a.role ∧ ∃ key, a'.cipher_state = ⟨some key, 0⟩)
      (fun _ => True) (mix_dh token) a := by
    unfold Ensures mix_dh
    rcases hoperands : a.dh_operands token with e | ⟨priv, pub⟩
    · simp [hoperands]
    · rcases hshared : exchange priv pub with _ | shared
      · simp [hoperands, hshared]
      · simp [hoperands, hshared, mix_key, NoiseCipherState.initialize_key]
  rcases hexec : exec (mix_dh token) a with ⟨r, a'⟩
  cases r with
  | error e =>
    have huses : mix_uses token a = [] := by simp [mix_uses, followed, hexec]
    rw [huses]
    refine .of (fun v a'' hv => ?_) .nil
    cases hexec.symm.trans hv
  | ok v =>
    obtain ⟨hrole', key, hcipher⟩ := hensures.ok hexec
    have huses : mix_uses token a = [.derive ⟨role, .mix_key token, key⟩] := by
      simp [mix_uses, followed, hexec, hcipher, hrole]
    rw [huses]
    refine .of (fun v a'' hv => ?_) (.derive .nil)
    cases hexec.symm.trans hv
    exact ⟨_, .keyed _ key 0 (hrole'.trans hrole) hcipher, fun _ hmore => .derive hmore⟩

/-- A call that leaves role and cipher alone. -/
theorem yields_silent {α : Type} {x : Py PyError NoiseHandshakeState α} (h : At role a p cipher)
    (hsame : Ensures (fun _ a' => a'.role = a.role ∧ a'.cipher_state = a.cipher_state)
      (fun _ => True) x a) :
    Yields role cipher [] x a (fun _ a' cipher' => At role a' p cipher') := by
  refine .of (fun v a' hv => ⟨cipher, ?_, fun _ hmore => hmore⟩) .nil
  obtain ⟨hrole', hcipher'⟩ := hsame.ok hv
  cases h with
  | bare hrole => exact .bare (hrole'.trans hrole)
  | keyed step key n hrole hcipher =>
    exact .keyed step key n (hrole'.trans hrole) (hcipher'.trans hcipher)

theorem yields_write_token (h : At role a p cipher) {token : Token}
    (hp : token = .s → p.Permitted role) (g : PrivateKey) :
    Yields role cipher (a.write_token_uses token) (write_token g token) a
      (fun _ a' cipher' => At role a' (p.next token) cipher') := by
  cases token with
  | e => exact yields_silent h ⟨rfl, rfl⟩
  | s => exact yields_encrypt h (hp rfl) _
  | ee | es | se =>
    exact (yields_mix h _).then fun v a' cipher' _ hk => .pure hk

theorem yields_read_token (h : At role a p cipher) (token : Token) (buffer : Bytes) :
    Yields role cipher (a.read_token_uses token) (read_token buffer token) a
      (fun _ a' cipher' => At role a' (p.next token) cipher') := by
  cases token with
  | e =>
    refine yields_silent h ?_
    simp only [read_token]
    split
    · trivial
    · split
      · trivial
      · exact ⟨rfl, rfl⟩
  | s =>
    refine .congr (exec_bind_ok _ (exec_get a)) ?_
    by_cases hlen : buffer.length < if a.cipher_state.has_key then 48 else 32
    · rw [if_pos hlen]
      exact .throw _
    · rw [if_neg hlen]
      refine (yields_decrypt h _).then fun decrypted a' cipher' _ hk => ?_
      split
      · exact .throw _
      · exact yields_silent hk ⟨rfl, rfl⟩
  | ee | es | se =>
    exact (yields_mix h _).then fun v a' cipher' _ hk => .pure hk

/-! ## Messages -/

/-- The role may encrypt wherever a token asks it to. -/
def Position.Sends (role : NoiseRole) : Position → List Token → Prop
  | _, [] => True
  | p, token :: rest => (token = .s → p.Permitted role) ∧ Sends role (p.next token) rest

theorem yields_write_tokens {tokens : List Token} (h : At role a p cipher)
    (hp : p.Sends role tokens) (g : PrivateKey) :
    Yields role cipher (write_tokens_uses g tokens a) (write_tokens g tokens) a
      (fun _ a' cipher' => At role a' (tokens.foldl .next p) cipher') := by
  induction tokens generalizing p a cipher with
  | nil => exact .pure h
  | cons token rest ih =>
    refine (yields_write_token h hp.1 g).bind fun head a' cipher' _ hk => ?_
    exact (ih hk hp.2).then fun tail a'' cipher'' _ hk' => .pure hk'

theorem yields_read_tokens (tokens : List Token) (h : At role a p cipher) (buffer : Bytes) :
    Yields role cipher (read_tokens_uses tokens buffer a) (read_tokens buffer tokens) a
      (fun _ a' cipher' => At role a' (tokens.foldl .next p) cipher') := by
  induction tokens generalizing p a cipher buffer with
  | nil => exact .pure h
  | cons token rest ih =>
    exact (yields_read_token h token buffer).bind fun buffer' a' cipher' _ hk => ih hk buffer'

theorem yields_write_message {patterns : List Token}
    (hpatterns : message_patterns[a.current_pattern]? = some patterns) (h : At role a p cipher)
    (hp : p.Sends role patterns) (hpayload : Position.Permitted role (patterns.foldl .next p))
    (g : PrivateKey) :
    Yields role cipher (write_message_uses g a) (write_message [] g) a
      (fun _ a' cipher' => At role a' (Position.used (patterns.foldl .next p)) cipher') := by
  have hexec : exec (write_message [] g) a = exec (do
      let message_buffer ← write_tokens g patterns
      let encrypted_payload ← encrypt_and_hash []
      modify fun self => { self with current_pattern := self.current_pattern + 1 }
      return message_buffer ++ encrypted_payload) a := by
    unfold write_message
    rw [exec_bind_ok _ (exec_get a)]
    simp only [hpatterns]
  have huses : write_message_uses g a = write_tokens_uses g patterns a ++
      followed (write_tokens g patterns) (fun _ h => h.cipher_state.encrypt_uses) a := by
    unfold write_message_uses
    simp only [hpatterns]
  rw [huses]
  refine .congr hexec ((yields_write_tokens h hp g).bind fun buffer a' cipher' _ hk => ?_)
  exact (yields_encrypt hk hpayload []).then fun payload a'' cipher'' _ hk' =>
    yields_silent hk' ⟨rfl, rfl⟩

theorem yields_read_message {patterns : List Token}
    (hpatterns : message_patterns[a.current_pattern]? = some patterns) (h : At role a p cipher)
    (message : Bytes) :
    Yields role cipher (read_message_uses message a) (read_message message) a
      (fun _ a' cipher' => At role a' (Position.used (patterns.foldl .next p)) cipher') := by
  have hexec : exec (read_message message) a = exec (do
      let buffer ← read_tokens message patterns
      let payload ← decrypt_and_hash buffer
      modify fun self => { self with current_pattern := self.current_pattern + 1 }
      return payload) a := by
    unfold read_message
    rw [exec_bind_ok _ (exec_get a)]
    simp only [hpatterns]
  have huses : read_message_uses message a = read_tokens_uses patterns message a := by
    unfold read_message_uses
    simp only [hpatterns]
  rw [huses]
  refine .congr hexec ((yields_read_tokens patterns h message).then fun buffer a' cipher' _ hk => ?_)
  exact (yields_decrypt hk buffer).then fun payload a'' cipher'' _ hk' =>
    yields_silent hk' ⟨rfl, rfl⟩

end

end NoiseHandshakeState

namespace EncryptionService

open NoiseHandshakeState

/-! ## One call of the service -/

section

variable {h : NoiseHandshakeState} {p : Phase} {reads : List Token}

theorem orderly_advance_answers {writes : List Token}
    (hreads : message_patterns[h.phase.pattern]? = some reads)
    (hgoes : h.phase.goes .read reads) (hp : h.phase.next .read reads = p) (hopen : p.pattern < 3)
    (hwrites : message_patterns[p.pattern]? = some writes)
    (hsends : Position.Sends h.role (Position.used (reads.foldl .next none)) writes)
    (hpayload : Position.Permitted h.role
      (writes.foldl .next (Position.used (reads.foldl .next none))))
    (message : Bytes) (g : PrivateKey) : Orderly h.role none (advance_uses message g h) := by
  have hread := (yields_read_message hreads (.bare rfl) message).ensures
    (read_message_ensures hreads hgoes message)
  refine hread _ fun _ h' cipher' _ hk => ?_
  obtain rfl := hk.2.trans hp
  have hincomplete : ¬ h'.is_handshake_complete = true := by
    rw [is_handshake_complete_iff]
    omega
  rw [if_neg hincomplete]
  exact (yields_write_message hwrites hk.1 hsends hpayload g).orderly

theorem orderly_advance_ends (hreads : message_patterns[h.phase.pattern]? = some reads)
    (hgoes : h.phase.goes .read reads) (hp : h.phase.next .read reads = p) (hdone : 3 ≤ p.pattern)
    (message : Bytes) (g : PrivateKey) : Orderly h.role none (advance_uses message g h) := by
  have hread := (yields_read_message hreads (.bare rfl) message).ensures
    (read_message_ensures hreads hgoes message)
  refine hread _ fun _ h' cipher' _ hk => ?_
  obtain rfl := hk.2.trans hp
  rw [if_pos ((is_handshake_complete_iff h').mpr hdone)]
  exact .nil

end

theorem orderly_advance {h : NoiseHandshakeState} (hstate : TakenUp h) (message : Bytes)
    (g : PrivateKey) : Orderly h.role none (advance_uses message g h) := by
  rcases hstate with hphase | hphase | hphase
  · have hrole : h.role = .RESPONDER := congrArg Phase.role hphase
    have hsends : Position.Sends h.role (Position.used ([Token.e].foldl .next none))
        [.e, .ee, .s, .es] := by
      rw [hrole]
      simp [Position.Sends, Position.used, Position.next, Position.Permitted, Permits]
    refine orderly_advance_answers (h := h) (by rw [hphase]; rfl) (by rw [hphase]; rfl) rfl
      (by rw [hphase]; decide) (by rw [hphase]; rfl) hsends ?_ message g
    rw [hrole]
    rfl
  · have hrole : h.role = .INITIATOR := congrArg Phase.role hphase
    have hsends : Position.Sends h.role
        (Position.used ([Token.e, .ee, .s, .es].foldl .next none)) [.s, .se] := by
      rw [hrole]
      simp [Position.Sends, Position.used, Position.next, Position.Permitted, Permits]
    refine orderly_advance_answers (h := h) (by rw [hphase]; rfl) (by rw [hphase]; rfl) rfl
      (by rw [hphase]; decide) (by rw [hphase]; rfl) hsends ?_ message g
    rw [hrole]
    rfl
  · exact orderly_advance_ends (h := h) (by rw [hphase]; rfl) (by rw [hphase]; rfl) rfl
      (by rw [hphase]; decide) message g

end EncryptionService

open NoiseHandshakeState EncryptionService

/-! ## Services side by side -/

section Services

variable {ι : Type} [DecidableEq ι]

/-- One operation on one of the services. -/
def serve (services : ι → EncryptionService) (op : ι × ServiceOp) : ι → EncryptionService :=
  Function.update services op.1 (perform (services op.1) op.2)

/-- What a run does with keys. -/
def run_uses (services : ι → EncryptionService) : List (ι × ServiceOp) → List KeyUse
  | [] => []
  | op :: ops => uses (services op.1) op.2 ++ run_uses (serve services op) ops

def send_cipher_of (svc : EncryptionService) (peer_id : Str) : Option NoiseCipherState :=
  (svc.sessions.get? peer_id).map NoiseSession.send_cipher

/-- The send ciphers of all sessions. -/
def in_use (services : ι → EncryptionService) (x : ι × Str) : Option NoiseCipherState :=
  send_cipher_of (services x.1) x.2

variable {services : ι → EncryptionService} {used : List KeyUse} {i : ι}

/-- An operation that brings no cipher into use. -/
theorem Apart.no_more {op : ServiceOp} (h : Apart used (in_use services))
    (hsub : ∀ peer_id c, send_cipher_of (perform (services i) op) peer_id = some c →
      send_cipher_of (services i) peer_id = some c) :
    Apart used (in_use (serve services (i, op))) := by
  refine h.fewer fun x c hx => ?_
  obtain ⟨j, peer_id⟩ := x
  unfold in_use serve at hx
  by_cases hj : j = i
  · subst hj
    rw [Function.update_self] at hx
    exact hsub peer_id c hx
  · rwa [Function.update_of_ne hj] at hx

theorem in_use_serve {op : ServiceOp} {peer_id : Str} {c : NoiseCipherState}
    (hsessions : ∀ other, send_cipher_of (perform (services i) op) other =
      if other = peer_id then some c else send_cipher_of (services i) other) :
    in_use (serve services (i, op)) =
      Function.update (in_use services) (i, peer_id) (some c) := by
  funext ⟨j, other⟩
  unfold in_use serve
  by_cases hj : j = i
  · subst hj
    rw [Function.update_self, hsessions other]
    by_cases hother : other = peer_id
    · rw [if_pos hother, hother, Function.update_self]
    · rw [if_neg hother, Function.update_of_ne (fun heq => hother (congrArg Prod.snd heq))]
  · rw [Function.update_of_ne hj, Function.update_of_ne (fun heq => hj (congrArg Prod.fst heq))]

theorem send_cipher_of_set (svc : EncryptionService) (peer_id other : Str)
    (session : NoiseSession) (states : Dict Str NoiseHandshakeState) :
    send_cipher_of { svc with
      sessions := svc.sessions.set peer_id session, handshake_states := states } other =
      if other = peer_id then some session.send_cipher else send_cipher_of svc other := by
  unfold send_cipher_of
  rw [Dict.get?_set]
  by_cases h : other = peer_id
  · rw [if_pos h, if_pos h.symm]
    rfl
  · rw [if_neg h, if_neg (Ne.symm h)]

/-- The first message is not encrypted. -/
theorem uses_of_initiate (svc : EncryptionService) (g : PrivateKey) :
    write_message_uses g (.init .INITIATOR svc.static_identity_key) = [] := rfl

omit [Crypto] in
theorem get?_of_pop {K V : Type} [DecidableEq K] {d : Dict K V} {key k : K} {v : V}
    (h : (d.pop key).get? k = some v) : d.get? k = some v := by
  rw [Dict.get?_pop] at h
  split at h
  · cases h
  · exact h

omit [Crypto] in
theorem get?_of_foldl_pop {K V : Type} [DecidableEq K] {keys : List K} {d : Dict K V} {k : K}
    {v : V} (h : (keys.foldl Dict.pop d).get? k = some v) : d.get? k = some v := by
  rw [Dict.get?_foldl_pop] at h
  split at h
  · cases h
  · exact h

/-- An operation that only takes sessions out. -/
theorem apart_remove {op : ServiceOp} {sessions : Dict Str NoiseSession} (h : Apart used (in_use services))
    (hop : (perform (services i) op).sessions = sessions)
    (hsub : ∀ peer_id session, sessions.get? peer_id = some session →
      (services i).sessions.get? peer_id = some session) :
    Apart used (in_use (serve services (i, op))) := by
  refine h.no_more fun other c hother => ?_
  unfold send_cipher_of at hother ⊢
  rw [hop] at hother
  obtain ⟨session, hsession, rfl⟩ := Option.map_eq_some_iff.mp hother
  rw [hsub other session hsession]
  rfl

theorem perform_encrypt {svc : EncryptionService} {peer_id : Str} {session : NoiseSession}
    (hsession : svc.sessions.get? peer_id = some session) (data : Bytes) :
    perform svc (.encrypt data peer_id) = { svc with
      sessions := svc.sessions.set peer_id { session with
        send_cipher := (exec (NoiseCipherState.encrypt data []) session.send_cipher).2 } } := by
  simp only [perform, EncryptionService.encrypt, exec_bind, exec_get, hsession, exec_set]
  cases (exec (NoiseCipherState.encrypt data []) session.send_cipher).1 <;> rfl

theorem perform_decrypt {svc : EncryptionService} {peer_id : Str} {session : NoiseSession}
    (hsession : svc.sessions.get? peer_id = some session) (data : Bytes) :
    perform svc (.decrypt_from_peer peer_id data) = { svc with
      sessions := svc.sessions.set peer_id { session with
        receive_cipher := (exec (NoiseCipherState.decrypt data []) session.receive_cipher).2 } } := by
  simp only [perform, EncryptionService.decrypt_from_peer, exec_bind, exec_get, hsession, exec_set]
  cases (exec (NoiseCipherState.decrypt data []) session.receive_cipher).1 <;> rfl

theorem apart_encrypt (h : Apart used (in_use services)) (data : Bytes) (peer_id : Str) :
    Apart (used ++ (services i).uses (.encrypt data peer_id))
      (in_use (serve services (i, .encrypt data peer_id))) := by
  rcases hsession : (services i).sessions.get? peer_id with _ | session
  · have hsame : perform (services i) (.encrypt data peer_id) = services i := by
      simp [perform, EncryptionService.encrypt, hsession]
    have huses : (services i).uses (.encrypt data peer_id) = [] := by
      simp [EncryptionService.uses, hsession]
    rw [huses, List.append_nil]
    exact apart_remove h (congrArg EncryptionService.sessions hsame) fun _ _ hget => hget
  · have hx : in_use services (i, peer_id) = some session.send_cipher := by
      simp [in_use, send_cipher_of, hsession]
    obtain ⟨d, -, -, hkey, -⟩ := h.keyed _ _ hx
    have huses : (services i).uses (.encrypt data peer_id) = session.send_cipher.encrypt_uses := by
      simp [EncryptionService.uses, hsession]
    have hsessions : ∀ c, (exec (NoiseCipherState.encrypt data []) session.send_cipher).2 = c →
        ∀ other, send_cipher_of (perform (services i) (.encrypt data peer_id)) other =
          if other = peer_id then some c else send_cipher_of (services i) other := by
      intro c hc other
      rw [perform_encrypt hsession, send_cipher_of_set, hc]
    rw [huses]
    by_cases hn : NoiseCipherState.NONCES ≤ session.send_cipher.nonce
    · -- The counter is used up: nothing is encrypted.
      have hc : (exec (NoiseCipherState.encrypt data []) session.send_cipher).2 =
          session.send_cipher := by
        simp [NoiseCipherState.encrypt, hkey, hn]
      have hnil : session.send_cipher.encrypt_uses = [] := by
        simp [NoiseCipherState.encrypt_uses, hkey, hn]
      rw [hnil, List.append_nil, in_use_serve (hsessions _ hc), ← hx, Function.update_eq_self]
      exact h
    · have hc : (exec (NoiseCipherState.encrypt data []) session.send_cipher).2 =
          { session.send_cipher with nonce := session.send_cipher.nonce + 1 } := by
        simp [NoiseCipherState.encrypt, hkey, hn]
      have hone : session.send_cipher.encrypt_uses =
          [.encrypt d.key session.send_cipher.nonce] := by
        simp [NoiseCipherState.encrypt_uses, hkey, hn]
      rw [hone, in_use_serve (hsessions _ hc)]
      exact h.encrypt hx hkey (Nat.lt_of_not_le hn)

theorem apart_decrypt (h : Apart used (in_use services)) (peer_id : Str) (data : Bytes) :
    Apart used (in_use (serve services (i, .decrypt_from_peer peer_id data))) := by
  refine h.no_more fun other c hother => ?_
  rcases hsession : (services i).sessions.get? peer_id with _ | session
  · have hsame : perform (services i) (.decrypt_from_peer peer_id data) = services i := by
      simp [perform, EncryptionService.decrypt_from_peer, hsession]
    rwa [hsame] at hother
  · rw [perform_decrypt hsession, send_cipher_of_set] at hother
    split at hother
    · rename_i heq
      rw [heq, ← hother]
      simp [send_cipher_of, hsession]
    · exact hother

theorem split_uses_complete {handshake : NoiseHandshakeState} {role : NoiseRole}
    (hphase : handshake.phase = .complete role) (peer_id : Str) (now : UInt64) :
    ∃ session d, session_of peer_id now handshake = some session ∧
      d ∈ derivations (split_uses handshake) ∧ Lasting d.role d.step ∧
      session.send_cipher.key = some d.key ∧
      encryptions_under (split_uses handshake) = [] := by
  have hcomplete : handshake.is_handshake_complete = true := by
    rw [is_handshake_complete_iff, hphase]
    exact le_rfl
  have hstatic : handshake.remote_static_public.isSome := congrArg Phase.static hphase
  obtain ⟨remote, hremote⟩ := Option.isSome_iff_exists.mp hstatic
  unfold session_of get_transport_ciphers split_uses
  rw [if_pos hcomplete, if_pos hcomplete, hremote]
  cases hrole : handshake.role with
  | INITIATOR =>
    exact ⟨_, _, rfl, List.mem_cons_self, fun _ => trivial, rfl, rfl⟩
  | RESPONDER =>
    exact ⟨_, _, rfl, List.mem_cons_of_mem _ List.mem_cons_self, fun _ => trivial, rfl, rfl⟩

theorem split_uses_incomplete {handshake : NoiseHandshakeState}
    (hopen : handshake.phase.pattern < 3) : split_uses handshake = [] := by
  have hincomplete : ¬ handshake.is_handshake_complete = true := by
    rw [is_handshake_complete_iff]
    omega
  unfold split_uses
  rw [if_neg hincomplete]

theorem apart_process (htable : Table (services i)) (h : Apart used (in_use services))
    (peer_id : Str) (message : Bytes) (g : PrivateKey) (now : UInt64)
    (hdistinct : Distinct (used ++ process_uses peer_id message g (services i))) :
    Apart (used ++ process_uses peer_id message g (services i))
      (in_use (serve services (i, .process_handshake_message peer_id message g now))) := by
  by_cases hshort : message.length < 32
  · obtain ⟨text, -, hexec⟩ := exec_process_short hshort peer_id g now (services i)
    have hnil : process_uses peer_id message g (services i) = [] := by
      simp [process_uses, hshort]
    rw [hnil, List.append_nil]
    exact apart_remove h (congrArg (fun r => r.2.sessions) hexec) fun _ _ hget => hget
  have hstate := htable.takenUp peer_id
  generalize hh : ((services i).handshake_states.get? peer_id).getD
    (.init .RESPONDER (services i).static_identity_key) = handshake at hstate
  have hlong : 32 ≤ message.length := Nat.le_of_not_lt hshort
  have hincomplete := incomplete_of_takenUp hstate
  have huses : process_uses peer_id message g (services i) = advance_uses message g handshake ++
      followed (advance message g) (fun _ => split_uses) handshake := by
    simp [process_uses, hshort, hh, hincomplete]
  rw [huses, ← List.append_assoc] at hdistinct ⊢
  -- First the message and its answer, then the split.
  have hmessage := h.handshake (orderly_advance hstate message g) (distinct_left hdistinct)
  rcases hadvance : exec (advance message g) handshake with ⟨r, handshake'⟩
  cases r with
  | error e =>
    have hfollowed : followed (advance message g) (fun _ => split_uses) handshake = [] := by
      simp [followed, hadvance]
    have hexec : exec (process_handshake_message peer_id message g now) (services i) = _ :=
      exec_process_fails hlong hh hincomplete hadvance
    rw [hfollowed, List.append_nil]
    exact apart_remove hmessage (congrArg (fun r => r.2.sessions) hexec) fun _ _ hget => hget
  | ok response =>
    have hfollowed : followed (advance message g) (fun _ => split_uses) handshake =
        split_uses handshake' := by
      simp [followed, hadvance]
    have hexec : exec (process_handshake_message peer_id message g now) (services i) = _ :=
      exec_process hlong hh hincomplete hadvance
    rw [hfollowed] at hdistinct ⊢
    rcases (advance_ensures hstate message g).ok hadvance with ⟨hphase, -⟩ | ⟨role, hphase⟩
    · have hopen : handshake'.phase.pattern < 3 := by
        rw [hphase]
        decide
      rw [session_of_incomplete hopen peer_id now] at hexec
      rw [split_uses_incomplete hopen, List.append_nil]
      exact apart_remove hmessage (congrArg (fun r => r.2.sessions) hexec) fun _ _ hget => hget
    · obtain ⟨session, d, hsession, hd, hlasting, hkey, hnone⟩ :=
        split_uses_complete hphase peer_id now
      rw [hsession] at hexec
      have hserved : in_use (serve services (i, .process_handshake_message peer_id message g now)) =
          Function.update (in_use services) (i, peer_id) (some session.send_cipher) := by
        refine in_use_serve fun other => ?_
        simp only [perform, hexec, send_cipher_of_set]
      rw [hserved]
      exact hmessage.session hd hlasting hnone hkey hdistinct

/-- One operation. -/
theorem Apart.step (htables : ∀ i, Table (services i)) (h : Apart used (in_use services))
    (op : ι × ServiceOp) (hdistinct : Distinct (used ++ uses (services op.1) op.2)) :
    Apart (used ++ uses (services op.1) op.2) (in_use (serve services op)) := by
  obtain ⟨i, op⟩ := op
  cases op with
  | encrypt data peer_id => exact apart_encrypt h data peer_id
  | process_handshake_message peer_id message g now =>
    exact apart_process (htables i) h peer_id message g now hdistinct
  | initiate_handshake peer_id g =>
    obtain ⟨message, handshake, -, hexec⟩ := exec_initiate peer_id g (services i)
    simp only [uses, uses_of_initiate, List.append_nil]
    exact apart_remove h (congrArg (fun r => r.2.sessions) hexec) fun _ _ => get?_of_pop
  | decrypt_from_peer peer_id data =>
    simp only [uses, List.append_nil]
    exact apart_decrypt h peer_id data
  | remove_session peer_id =>
    simp only [uses, List.append_nil]
    exact apart_remove h rfl fun _ _ => get?_of_pop
  | clear_handshake_state peer_id =>
    simp only [uses, List.append_nil]
    exact apart_remove h rfl fun _ _ hget => hget
  | cleanup_old_sessions now max_age =>
    simp only [uses, List.append_nil]
    exact apart_remove h rfl fun _ _ => get?_of_foldl_pop

theorem tables_serve (htables : ∀ i, Table (services i)) (op : ι × ServiceOp) (i : ι) :
    Table (serve services op i) := by
  unfold serve
  by_cases hi : i = op.1
  · subst hi
    rw [Function.update_self]
    exact (htables op.1).perform op.2
  · rw [Function.update_of_ne hi]
    exact htables i

theorem apart_run (htables : ∀ i, Table (services i)) (h : Apart used (in_use services))
    (ops : List (ι × ServiceOp)) (hdistinct : Distinct (used ++ run_uses services ops)) :
    ∃ services' : ι → EncryptionService, Apart (used ++ run_uses services ops) (in_use services') := by
  induction ops generalizing services used with
  | nil =>
    rw [run_uses, List.append_nil]
    exact ⟨services, h⟩
  | cons op ops ih =>
    rw [run_uses, ← List.append_assoc] at hdistinct ⊢
    exact ih (tables_serve htables op) (h.step htables op (distinct_left hdistinct)) hdistinct

omit [DecidableEq ι] in
theorem apart_init (identity : ι → PrivateKey) :
    Apart [] (in_use fun i => EncryptionService.init (identity i)) where
  origin _ _ hmem := absurd hmem List.not_mem_nil
  nodup := List.nodup_nil
  bounded _ he := absurd he List.not_mem_nil
  keyed _ _ hx := by cases hx
  separate _ _ _ _ hx _ := by cases hx

/-- Services that handshake with each other or with anyone, in any order and
over any messages, never encrypt twice under one key with one nonce. -/
theorem no_key_meets_a_nonce_twice (identity : ι → PrivateKey) (ops : List (ι × ServiceOp))
    (hdistinct : Distinct (run_uses (fun i => EncryptionService.init (identity i)) ops)) :
    ((encryptions_under (run_uses (fun i => EncryptionService.init (identity i)) ops)).map
      fun e => (e.1, NoiseCipherState.nonce_bytes e.2)).Nodup := by
  obtain ⟨services', h⟩ := apart_run (fun _ _ _ hget => by cases hget) (apart_init identity) ops
    hdistinct
  refine h.nodup.map_on fun e he e' he' heq => ?_
  obtain ⟨hkey, hnonce⟩ := Prod.mk.inj heq
  exact Prod.ext hkey (nonce_bytes_injective (h.bounded e he) (h.bounded e' he') hnonce)

end Services

end bitchat.encryption

/-! ## On the stand-in -/

namespace bitchat.encryption.standIn

open python Crypto EncryptionService

attribute [local instance] bitchat.standIn.packages

def identity (initiator : Bool) : PrivateKey := bitchat.standIn.key (if initiator then 3 else 5)

/-- Two services. -/
def pair (initiator : Bool) : EncryptionService := .init (identity initiator)

/-- What the call returns as the next message. -/
def returned : Except PyError (Option Bytes × Option (Str × Str)) → Bytes
  | .ok (some message, _) => message
  | _ => []

def first_message : Bytes :=
  match (exec (initiate_handshake ['b'] (bitchat.standIn.key 7)) (pair true)).1 with
  | .ok message => message
  | .error _ => []

def asked : ServiceOp := .initiate_handshake ['b'] (bitchat.standIn.key 7)

def answered : ServiceOp :=
  .process_handshake_message ['a'] first_message (bitchat.standIn.key 9) 0

def second_message : Bytes :=
  returned (exec (process_handshake_message ['a'] first_message (bitchat.standIn.key 9) 0)
    (pair false)).1

def finished : ServiceOp :=
  .process_handshake_message ['b'] second_message (bitchat.standIn.key 11) 0

def third_message : Bytes :=
  returned (exec (process_handshake_message ['b'] second_message (bitchat.standIn.key 11) 0)
    (perform (pair true) asked)).1

/-- A handshake, messages both ways under it, and a message after a failed
decryption and a new handshake that broke off. -/
def conversation : List (Bool × ServiceOp) :=
  [(true, asked), (false, answered), (true, finished),
    (false, .process_handshake_message ['a'] third_message (bitchat.standIn.key 13) 0),
    (true, .encrypt [1] ['b']), (false, .encrypt [2] ['a']), (true, .encrypt [3] ['b']),
    (false, .decrypt_from_peer ['a'] [4]), (false, .encrypt [5] ['a']),
    (false, .process_handshake_message ['a'] first_message (bitchat.standIn.key 15) 0)]

/-- The conversation encrypts ten times, six of them in the handshakes. -/
theorem a_conversation_meets_no_nonce_twice :
    (encryptions_under (run_uses (fun i => .init (identity i)) conversation)).length = 10 ∧
      ((encryptions_under (run_uses (fun i => .init (identity i)) conversation)).map
        fun e => (e.1, NoiseCipherState.nonce_bytes e.2)).Nodup :=
  ⟨by decide +kernel, no_key_meets_a_nonce_twice identity conversation (by decide +kernel)⟩

end bitchat.encryption.standIn
