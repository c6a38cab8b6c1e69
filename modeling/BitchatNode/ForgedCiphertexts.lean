-- What a string that fails authentication does to a session. `decrypt` counts
-- it like a ciphertext, so the receiver is ahead of the sender from then on.
import BitchatNode.NoiseChannel

namespace bitchat.encryption

open python Crypto NoiseCipherState

/-! ## What arrives -/

inductive Arrival
  /-- The next ciphertext of the sender, with its plaintext. -/
  | genuine (plaintext ciphertext : Bytes)
  | forged (data : Bytes)
deriving DecidableEq

def Arrival.data : Arrival → Bytes
  | .genuine _ ciphertext => ciphertext
  | .forged data => data

/-- The plaintexts and ciphertexts of the sender, in order. -/
def genuine_ones : List Arrival → List (Bytes × Bytes)
  | [] => []
  | .genuine plaintext ciphertext :: rest => (plaintext, ciphertext) :: genuine_ones rest
  | .forged _ :: rest => genuine_ones rest

/-- No ciphertext of the sender comes after a forged string. -/
def ForgedLast : List Arrival → Prop
  | [] => True
  | .genuine _ _ :: rest => ForgedLast rest
  | .forged _ :: rest => genuine_ones rest = []

/-- A genuine ciphertext gives its plaintext, a forged string raises. -/
def Exact : Arrival × Except PyError Bytes → Prop
  | (.genuine plaintext _, result) => result = .ok plaintext
  | (.forged _, result) => ∃ e, result = .error e

variable [Crypto]

/-- One cipher encrypts the plaintexts, one after the other. -/
def encrypt_each : List Bytes → Py PyError NoiseCipherState (List Bytes)
  | [] => pure []
  | plaintext :: rest => do
    let ciphertext ← encrypt plaintext []
    let ciphertexts ← encrypt_each rest
    return ciphertext :: ciphertexts

/-- Each arrival with what `decrypt` gives for it. -/
def openings (self : NoiseCipherState) : List Arrival → List (Arrival × Except PyError Bytes)
  | [] => []
  | a :: rest =>
    (a, (exec (decrypt a.data []) self).1) :: openings (exec (decrypt a.data []) self).2 rest

/-- What the AEAD accepts under the first counters of the key: a forged string
never, and the `i`-th ciphertext from here on at most under the counter
`n + i` that it was made under. -/
structure Authenticates (key : Bytes) (counters n : Nat) (arrivals : List Arrival) : Prop where
  forged : ∀ data, .forged data ∈ arrivals → ∀ m < counters,
    chacha_decrypt key (nonce_bytes m) data [] = none
  genuine : ∀ i plaintext ciphertext,
    (genuine_ones arrivals)[i]? = some (plaintext, ciphertext) → ∀ m < counters, m ≠ n + i →
      chacha_decrypt key (nonce_bytes m) ciphertext [] = none

/-! ## The sender -/

/-- The ciphertexts are made under counters that follow each other. -/
theorem numbered_of_encrypt_each {key : Bytes} {sent : NoiseCipherState}
    (wire : List (Bytes × Bytes)) : ∀ {n : Nat}, n ≤ NONCES →
      exec (encrypt_each (wire.map Prod.fst)) ⟨some key, n⟩ = (.ok (wire.map Prod.snd), sent) →
      Numbered key n wire ∧ n + wire.length ≤ NONCES := by
  induction wire with
  | nil => exact fun hn _ => ⟨trivial, hn⟩
  | cons head wire ih =>
    intro n hn h
    rcases Nat.lt_or_ge n NONCES with hlt | hge
    · have hencrypt := encrypt_ok (c := ⟨some key, n⟩) head.1 [] rfl hlt
      simp only [List.map_cons, encrypt_each, exec_bind, hencrypt] at h
      rcases hrest : exec (encrypt_each (wire.map Prod.fst)) ⟨some key, n + 1⟩ with
        ⟨_ | ciphertexts, sent'⟩
      · simp [hrest] at h
      · simp only [hrest, exec_pure, Prod.mk.injEq, Except.ok.injEq, List.cons.injEq] at h
        obtain ⟨⟨hhead, rfl⟩, rfl⟩ := h
        obtain ⟨hnumbered, hbound⟩ := ih hlt hrest
        refine ⟨⟨hhead.symm, hnumbered⟩, ?_⟩
        rw [List.length_cons]
        omega
    · have hoverflow := encrypt_overflow (c := ⟨some key, n⟩) head.1 [] rfl hge
      simp [encrypt_each, hoverflow] at h

/-! ## The receiver -/

/-- A string that fails authentication raises and, while counters are left,
uses one up. -/
theorem decrypt_error {key data : Bytes} {m : Nat}
    (h : chacha_decrypt key (nonce_bytes m) data [] = none) :
    ∃ e, exec (decrypt data []) ⟨some key, m⟩ =
      (.error e, ⟨some key, if NONCES ≤ m then m else m + 1⟩) := by
  by_cases hm : NONCES ≤ m
  · exact ⟨.OverflowError, by simp [decrypt, hm]⟩
  · exact ⟨.InvalidTag, by simp [decrypt, hm, h]⟩

theorem Authenticates.of_forged {key data : Bytes} {counters n : Nat} {rest : List Arrival}
    (h : Authenticates key counters n (.forged data :: rest)) :
    Authenticates key counters n rest :=
  ⟨fun data hdata => h.forged data (List.mem_cons_of_mem _ hdata), h.genuine⟩

theorem Authenticates.of_genuine {key plaintext ciphertext : Bytes} {counters n : Nat}
    {rest : List Arrival}
    (h : Authenticates key counters n (.genuine plaintext ciphertext :: rest)) :
    Authenticates key counters (n + 1) rest := by
  refine ⟨fun data hdata => h.forged data (List.mem_cons_of_mem _ hdata), ?_⟩
  intro i plaintext ciphertext hi m hm hne
  exact h.genuine (i + 1) plaintext ciphertext hi m hm (by omega)

/-- Forged strings alone all raise. -/
theorem exact_of_forged {key : Bytes} {counters n : Nat} (rest : List Arrival) :
    ∀ {m : Nat}, m + rest.length ≤ counters → Authenticates key counters n rest →
      genuine_ones rest = [] → ∀ r ∈ openings ⟨some key, m⟩ rest, Exact r := by
  induction rest with
  | nil =>
    intro m _ _ _ r hr
    cases hr
  | cons a rest ih =>
    intro m hcounters hauth hnone r hr
    rw [List.length_cons] at hcounters
    cases a with
    | genuine plaintext ciphertext => cases hnone
    | forged data =>
      obtain ⟨e, hdecrypt⟩ := decrypt_error (hauth.forged data List.mem_cons_self m (by omega))
      simp only [openings, Arrival.data, hdecrypt] at hr
      rcases List.mem_cons.mp hr with rfl | hr
      · exact ⟨e, rfl⟩
      · refine ih ?_ hauth.of_forged hnone r hr
        split <;> omega

/-- A receiver that has counted more than the sender loses the next
ciphertext. -/
theorem not_exact_of_late {key : Bytes} {counters n : Nat} (rest : List Arrival) :
    ∀ {m : Nat}, n < m → m + rest.length ≤ counters → Authenticates key counters n rest →
      genuine_ones rest ≠ [] → ¬ ∀ r ∈ openings ⟨some key, m⟩ rest, Exact r := by
  induction rest with
  | nil => exact fun _ _ _ hsome => absurd rfl hsome
  | cons a rest ih =>
    intro m hlate hcounters hauth hsome hexact
    rw [List.length_cons] at hcounters
    cases a with
    | genuine plaintext ciphertext =>
      obtain ⟨e, hdecrypt⟩ := decrypt_error (hauth.genuine 0 plaintext ciphertext rfl m (by omega)
        (by omega))
      have hhead : Exact (.genuine plaintext ciphertext, _) := hexact _ List.mem_cons_self
      simp [Exact, Arrival.data, hdecrypt] at hhead
    | forged data =>
      obtain ⟨e, hdecrypt⟩ := decrypt_error (hauth.forged data List.mem_cons_self m (by omega))
      simp only [openings, Arrival.data, hdecrypt] at hexact
      refine ih ?_ ?_ hauth.of_forged hsome (fun r hr => hexact r (List.mem_cons_of_mem _ hr))
      · split <;> omega
      · split <;> omega

/-- A receiver in step gets everything right exactly if the forged strings
come last. The induction is on what is still to arrive. -/
theorem exact_iff_forgedLast [LawfulCrypto] {key : Bytes} {counters : Nat} (rest : List Arrival) :
    ∀ {n : Nat}, n + rest.length ≤ counters → Numbered key n (genuine_ones rest) →
      n + (genuine_ones rest).length ≤ NONCES → Authenticates key counters n rest →
      ((∀ r ∈ openings ⟨some key, n⟩ rest, Exact r) ↔ ForgedLast rest) := by
  induction rest with
  | nil =>
    intro n _ _ _ _
    simp [openings, ForgedLast]
  | cons a rest ih =>
    intro n hcounters hnumbered hbound hauth
    rw [List.length_cons] at hcounters
    cases a with
    | genuine plaintext ciphertext =>
      obtain ⟨rfl, hrest⟩ := hnumbered
      simp only [genuine_ones, List.length_cons] at hbound
      have hdecrypt := decrypt_ok (c := ⟨some key, n⟩) plaintext [] rfl (by simp only; omega)
      have hih := ih (n := n + 1) (by omega) hrest (by omega) hauth.of_genuine
      simp only [openings, Arrival.data, hdecrypt, List.forall_mem_cons, hih, ForgedLast]
      simp [Exact]
    | forged data =>
      obtain ⟨e, hdecrypt⟩ := decrypt_error (hauth.forged data List.mem_cons_self n (by omega))
      simp only [openings, Arrival.data, hdecrypt, List.forall_mem_cons, ForgedLast]
      constructor
      · rintro ⟨-, hexact⟩
        by_contra hsome
        have hpos := List.length_pos_iff.mpr hsome
        simp only [genuine_ones] at hbound
        rw [if_neg (by omega)] at hexact
        exact not_exact_of_late rest (Nat.lt_succ_self n) (by omega) hauth.of_forged hsome hexact
      · intro hnone
        refine ⟨⟨e, rfl⟩, exact_of_forged rest ?_ hauth.of_forged hnone⟩
        split <;> omega

/-- A session takes forged strings without harm exactly if no ciphertext of
the sender comes after one. -/
theorem a_session_survives_forgeries_iff [LawfulCrypto] (key : Bytes) (arrivals : List Arrival)
    {sent : NoiseCipherState}
    (hencrypted : exec (encrypt_each ((genuine_ones arrivals).map Prod.fst)) (.initialize_key key) =
      (.ok ((genuine_ones arrivals).map Prod.snd), sent))
    (hauth : Authenticates key arrivals.length 0 arrivals) :
    (∀ r ∈ openings (.initialize_key key) arrivals, Exact r) ↔ ForgedLast arrivals := by
  obtain ⟨hnumbered, hbound⟩ := numbered_of_encrypt_each _ (Nat.zero_le _) hencrypted
  exact exact_iff_forgedLast arrivals (by omega) hnumbered hbound hauth

end bitchat.encryption

namespace bitchat.encryption.standIn

open python Crypto NoiseCipherState

attribute [local instance] bitchat.standIn.packages

/-- The first ciphertext of a session with the key `[9]`. -/
def first_ciphertext : Bytes := bitchat.standIn.encrypt [9] (nonce_bytes 0) [1] []

def a_genuine_arrival : Arrival := .genuine [1] first_ciphertext
def stray_byte : Arrival := .forged [0]

theorem first_ciphertext_encrypted :
    exec (encrypt_each [[1]]) (.initialize_key [9]) = (.ok [first_ciphertext], ⟨some [9], 1⟩) := rfl

theorem authenticates_two {arrivals : List Arrival}
    (hgenuine : genuine_ones arrivals = [([1], first_ciphertext)])
    (hforged : ∀ data, .forged data ∈ arrivals → data = [0]) :
    Authenticates [9] 2 0 arrivals := by
  constructor
  · intro data hdata m hm
    rw [hforged data hdata]
    revert m
    decide
  · intro i plaintext ciphertext hi m hm hne
    rw [hgenuine] at hi
    obtain _ | i := i
    · cases hi
      obtain rfl : m = 1 := by omega
      decide
    · cases hi

/-- The stray byte comes last. -/
theorem a_session_survives_a_last_forgery :
    Authenticates [9] 2 0 [a_genuine_arrival, stray_byte] ∧
    ∀ r ∈ openings (.initialize_key [9]) [a_genuine_arrival, stray_byte], Exact r := by
  have := bitchat.standIn.lawfulCrypto
  have hauth : Authenticates [9] 2 0 [a_genuine_arrival, stray_byte] :=
    authenticates_two rfl (by simp [a_genuine_arrival, stray_byte])
  refine ⟨hauth, ?_⟩
  exact (a_session_survives_forgeries_iff [9] [a_genuine_arrival, stray_byte]
    first_ciphertext_encrypted hauth).mpr rfl

/-- The stray byte comes first, and the message is lost. -/
theorem a_forgery_breaks_the_session :
    exec (encrypt_each [[1]]) (.initialize_key [9]) = (.ok [first_ciphertext], ⟨some [9], 1⟩) ∧
    Authenticates [9] 2 0 [stray_byte, a_genuine_arrival] ∧
    ¬ ∀ r ∈ openings (.initialize_key [9]) [stray_byte, a_genuine_arrival], Exact r := by
  refine ⟨rfl, authenticates_two rfl (by simp [a_genuine_arrival, stray_byte]), ?_⟩
  intro hexact
  have hread : (exec (decrypt first_ciphertext []) ⟨some [9], 1⟩).1 = .ok [1] :=
    hexact (a_genuine_arrival, _) (List.mem_cons_of_mem _ List.mem_cons_self)
  have hlost : exec (decrypt first_ciphertext []) ⟨some [9], 1⟩ =
      (.error .InvalidTag, ⟨some [9], 2⟩) := rfl
  rw [hlost] at hread
  cases hread

end bitchat.encryption.standIn
