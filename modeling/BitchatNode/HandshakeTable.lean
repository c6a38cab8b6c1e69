-- What the table of handshakes holds, whatever bytes a peer sends. Which keys
-- a handshake has by now is its phase, and the two token interpreters change
-- it token by token.
import BitchatNode.HandshakeMessages
import Mathlib.Data.List.Basic

namespace bitchat.encryption

open python Crypto

variable [Crypto]

namespace NoiseHandshakeState

/-! ## Phases -/

/-- The role, how many messages went by, and which of the three keys that a
handshake collects are there: its own ephemeral key, and the ephemeral and
the static key of the peer. -/
@[ext] structure Phase where
  role : NoiseRole
  pattern : Nat
  own : Bool
  ephemeral : Bool
  static : Bool
deriving DecidableEq

def phase (self : NoiseHandshakeState) : Phase where
  role := self.role
  pattern := self.current_pattern
  own := self.local_ephemeral_private.isSome
  ephemeral := self.remote_ephemeral_public.isSome
  static := self.remote_static_public.isSome

namespace Phase

/-- The keys that the token needs are there. -/
def ready (p : Phase) : Token → Bool
  | .e | .s => true
  | .ee => p.own && p.ephemeral
  | .es => match p.role with
    | .INITIATOR => p.own && p.static
    | .RESPONDER => p.ephemeral
  | .se => match p.role with
    | .INITIATOR => p.ephemeral
    | .RESPONDER => p.own && p.static

def write (p : Phase) : Token → Phase
  | .e => { p with own := true }
  | _ => p

def read (p : Phase) : Token → Phase
  | .e => { p with ephemeral := true }
  | .s => { p with static := true }
  | _ => p

/-- Each token finds its keys. -/
def goes (step : Phase → Token → Phase) : Phase → List Token → Bool
  | _, [] => true
  | p, token :: rest => p.ready token && goes step (step p token) rest

/-- The phase after a whole message. -/
def next (step : Phase → Token → Phase) (p : Phase) (patterns : List Token) : Phase :=
  { patterns.foldl step p with pattern := (patterns.foldl step p).pattern + 1 }

end Phase

/-! ## Errors -/

/-- What a handshake says that is complete or lacks a key. -/
def STUCK : List String :=
  ["Handshake complete", "Missing ephemeral keys for ee", "Missing keys for es",
    "Missing keys for se"]

/-- Another error. -/
def Expected (e : PyError) : Prop := e.text ∉ STUCK

instance : DecidablePred Expected := fun e => inferInstanceAs (Decidable (e.text ∉ STUCK))

/-! ## What a token does to the phase -/

theorem encrypt_and_hash_ensures (plaintext : Bytes) (a : NoiseHandshakeState) :
    Ensures (fun _ a' => a'.phase = a.phase) Expected (encrypt_and_hash plaintext) a := by
  unfold encrypt_and_hash
  rw [ensures_bind, ensures_get]
  split
  · rename_i hkey
    obtain ⟨key, hkey⟩ := Option.isSome_iff_exists.mp hkey
    unfold Ensures onCipher NoiseCipherState.encrypt
    by_cases hn : NoiseCipherState.NONCES ≤ a.cipher_state.nonce
    · simp [hkey, hn]
      decide
    · simp [hkey, hn]
      rfl
  · rfl

theorem decrypt_and_hash_ensures (ciphertext : Bytes) (a : NoiseHandshakeState) :
    Ensures (fun _ a' => a'.phase = a.phase) Expected (decrypt_and_hash ciphertext) a := by
  unfold decrypt_and_hash
  rw [ensures_bind, ensures_get]
  split
  · rename_i hkey
    obtain ⟨key, hkey⟩ := Option.isSome_iff_exists.mp hkey
    unfold Ensures onCipher NoiseCipherState.decrypt
    by_cases hn : NoiseCipherState.NONCES ≤ a.cipher_state.nonce
    · simp [hkey, hn]
      decide
    · rcases hd : chacha_decrypt key (NoiseCipherState.nonce_bytes a.cipher_state.nonce) ciphertext
        a.hash_state with _ | plaintext
      · simp [hkey, hn, hd]
        decide
      · simp [hkey, hn, hd]
        rfl
  · rfl

theorem dh_operands_ok {a : NoiseHandshakeState} {token : Token} (hready : a.phase.ready token)
    (he : token ≠ .e) (hs : token ≠ .s) : ∃ operands, a.dh_operands token = .ok operands := by
  cases token with
  | e => exact absurd rfl he
  | s => exact absurd rfl hs
  | ee =>
    simp only [Phase.ready, phase, Bool.and_eq_true, Option.isSome_iff_exists] at hready
    obtain ⟨⟨own, hown⟩, remote, hremote⟩ := hready
    exact ⟨(own, remote), by simp [dh_operands, hown, hremote]⟩
  | es =>
    cases hrole : a.role with
    | INITIATOR =>
      simp only [Phase.ready, phase, hrole, Bool.and_eq_true, Option.isSome_iff_exists] at hready
      obtain ⟨⟨own, hown⟩, remote, hremote⟩ := hready
      exact ⟨(own, remote), by simp [dh_operands, hrole, hown, hremote]⟩
    | RESPONDER =>
      simp only [Phase.ready, phase, hrole, Option.isSome_iff_exists] at hready
      obtain ⟨remote, hremote⟩ := hready
      exact ⟨(a.local_static_private, remote), by simp [dh_operands, hrole, hremote]⟩
  | se =>
    cases hrole : a.role with
    | INITIATOR =>
      simp only [Phase.ready, phase, hrole, Option.isSome_iff_exists] at hready
      obtain ⟨remote, hremote⟩ := hready
      exact ⟨(a.local_static_private, remote), by simp [dh_operands, hrole, hremote]⟩
    | RESPONDER =>
      simp only [Phase.ready, phase, hrole, Bool.and_eq_true, Option.isSome_iff_exists] at hready
      obtain ⟨⟨own, hown⟩, remote, hremote⟩ := hready
      exact ⟨(own, remote), by simp [dh_operands, hrole, hown, hremote]⟩

theorem mix_dh_ensures {a : NoiseHandshakeState} {token : Token} (hready : a.phase.ready token)
    (he : token ≠ .e) (hs : token ≠ .s) :
    Ensures (fun _ a' => a'.phase = a.phase) Expected (mix_dh token) a := by
  obtain ⟨⟨priv, pub⟩, hoperands⟩ := dh_operands_ok hready he hs
  unfold mix_dh Ensures
  rcases hshared : exchange priv pub with _ | shared
  · simp [hoperands, hshared]
    decide
  · simp [hoperands, hshared]
    rfl

theorem write_token_ensures {a : NoiseHandshakeState} {token : Token}
    (hready : a.phase.ready token) (g : PrivateKey) :
    Ensures (fun _ a' => a'.phase = a.phase.write token) Expected (write_token g token) a := by
  cases token with
  | e => rfl
  | s => exact encrypt_and_hash_ensures _ a
  | ee | es | se =>
    unfold write_token
    rw [ensures_bind]
    exact mix_dh_ensures hready (by decide) (by decide)

theorem read_token_ensures {a : NoiseHandshakeState} {token : Token}
    (hready : a.phase.ready token) (buffer : Bytes) :
    Ensures (fun _ a' => a'.phase = a.phase.read token) Expected (read_token buffer token) a := by
  cases token with
  | e =>
    simp only [read_token]
    split
    · rw [ensures_throw]; decide
    · split
      · rw [ensures_throw]; decide
      · rfl
  | s =>
    simp only [read_token, ensures_bind, ensures_get]
    by_cases hlen : buffer.length < if a.cipher_state.has_key then 48 else 32
    · rw [if_pos hlen, ensures_throw]; decide
    · rw [if_neg hlen, ensures_bind]
      refine (decrypt_and_hash_ensures _ a).mono fun decrypted a' h => ?_
      split
      · rw [ensures_throw]; decide
      · simp only [ensures_bind, ensures_modify, ensures_pure]
        rw [Phase.read, ← h]
        rfl
  | ee | es | se =>
    unfold read_token
    rw [ensures_bind]
    exact mix_dh_ensures hready (by decide) (by decide)

/-! ## What a message does to the phase -/

theorem write_tokens_ensures {a : NoiseHandshakeState} {patterns : List Token}
    (hgoes : a.phase.goes .write patterns) (g : PrivateKey) :
    Ensures (fun _ a' => a'.phase = patterns.foldl .write a.phase) Expected
      (write_tokens g patterns) a := by
  induction patterns generalizing a with
  | nil => rfl
  | cons token rest ih =>
    rw [Phase.goes, Bool.and_eq_true] at hgoes
    unfold write_tokens
    rw [ensures_bind]
    refine (write_token_ensures hgoes.1 g).mono fun head a' h => ?_
    rw [ensures_bind]
    refine (ih (h ▸ hgoes.2)).mono fun tail a'' h' => ?_
    rw [ensures_pure, h', h, List.foldl_cons]

theorem read_tokens_ensures {a : NoiseHandshakeState} {patterns : List Token}
    (hgoes : a.phase.goes .read patterns) (buffer : Bytes) :
    Ensures (fun _ a' => a'.phase = patterns.foldl .read a.phase) Expected
      (read_tokens buffer patterns) a := by
  induction patterns generalizing a buffer with
  | nil => rfl
  | cons token rest ih =>
    rw [Phase.goes, Bool.and_eq_true] at hgoes
    unfold read_tokens
    rw [ensures_bind]
    refine (read_token_ensures hgoes.1 buffer).mono fun rest_buffer a' h => ?_
    refine (ih (h ▸ hgoes.2) rest_buffer).mono fun tail a'' h' => ?_
    rw [h', h, List.foldl_cons]

theorem write_message_ensures {a : NoiseHandshakeState} {patterns : List Token}
    (hpatterns : message_patterns[a.phase.pattern]? = some patterns)
    (hgoes : a.phase.goes .write patterns) (payload : Bytes) (g : PrivateKey) :
    Ensures (fun _ a' => a'.phase = a.phase.next .write patterns) Expected
      (write_message payload g) a := by
  have hpatterns' : message_patterns[a.current_pattern]? = some patterns := hpatterns
  unfold write_message
  rw [ensures_bind, ensures_get]
  simp only [hpatterns', ensures_bind]
  refine (write_tokens_ensures hgoes g).mono fun buffer a' h => ?_
  rw [ensures_bind]
  refine (encrypt_and_hash_ensures payload a').mono fun encrypted_payload a'' h' => ?_
  rw [Phase.next, ← h, ← h']
  rfl

theorem read_message_ensures {a : NoiseHandshakeState} {patterns : List Token}
    (hpatterns : message_patterns[a.phase.pattern]? = some patterns)
    (hgoes : a.phase.goes .read patterns) (message : Bytes) :
    Ensures (fun _ a' => a'.phase = a.phase.next .read patterns) Expected
      (read_message message) a := by
  have hpatterns' : message_patterns[a.current_pattern]? = some patterns := hpatterns
  unfold read_message
  rw [ensures_bind, ensures_get]
  simp only [hpatterns', ensures_bind]
  refine (read_tokens_ensures hgoes message).mono fun buffer a' h => ?_
  rw [ensures_bind]
  refine (decrypt_and_hash_ensures buffer a').mono fun payload a'' h' => ?_
  rw [Phase.next, ← h, ← h']
  rfl

/-! ## The phases of a handshake -/

namespace Phase

/-- A responder that has read nothing. -/
def fresh : Phase := ⟨.RESPONDER, 0, false, false, false⟩

/-- An initiator that has written the first message. -/
def asked : Phase := ⟨.INITIATOR, 1, true, false, false⟩

/-- A responder that has written the second message. -/
def answered : Phase := ⟨.RESPONDER, 2, true, true, false⟩

def complete (role : NoiseRole) : Phase := ⟨role, 3, true, true, true⟩

end Phase

theorem is_handshake_complete_iff (h : NoiseHandshakeState) :
    h.is_handshake_complete = true ↔ 3 ≤ h.phase.pattern :=
  decide_eq_true_iff

/-- The first message needs no key of the peer. -/
theorem exec_first_message (static_key g : PrivateKey) :
    ∃ message h, h.phase = .asked ∧
      exec (write_message [] g) (init .INITIATOR static_key) = (.ok message, h) :=
  ⟨_, _, rfl, rfl⟩

end NoiseHandshakeState

namespace EncryptionService

open NoiseHandshakeState

section

variable {h : NoiseHandshakeState} {p : Phase} {reads : List Token}

/-- A message that is not the last one is answered. -/
theorem advance_answers {writes : List Token}
    (hreads : message_patterns[h.phase.pattern]? = some reads)
    (hgoes : h.phase.goes .read reads) (hp : h.phase.next .read reads = p) (hopen : p.pattern < 3)
    (hwrites : message_patterns[p.pattern]? = some writes) (hgoes' : p.goes .write writes)
    (message : Bytes) (g : PrivateKey) :
    Ensures (fun response h' => h'.phase = p.next .write writes ∧ response.isSome) Expected
      (advance message g) h := by
  unfold advance
  rw [ensures_bind]
  refine (read_message_ensures hreads hgoes message).mono fun _ h' hh' => ?_
  obtain rfl := hh'.trans hp
  have hincomplete : ¬ h'.is_handshake_complete = true := by
    rw [is_handshake_complete_iff]
    omega
  rw [ensures_bind, ensures_get, if_neg hincomplete, ensures_bind]
  exact (write_message_ensures hwrites hgoes' [] g).mono fun _ h'' hh'' => ⟨hh'', rfl⟩

/-- The last message is not. -/
theorem advance_ends (hreads : message_patterns[h.phase.pattern]? = some reads)
    (hgoes : h.phase.goes .read reads) (hp : h.phase.next .read reads = p) (hdone : 3 ≤ p.pattern)
    (message : Bytes) (g : PrivateKey) :
    Ensures (fun response h' => h'.phase = p ∧ response = none) Expected (advance message g) h := by
  unfold advance
  rw [ensures_bind]
  refine (read_message_ensures hreads hgoes message).mono fun _ h' hh' => ?_
  obtain rfl := hh'.trans hp
  have hcomplete : h'.is_handshake_complete = true := (is_handshake_complete_iff h').mpr hdone
  rw [ensures_bind, ensures_get, if_pos hcomplete]
  exact ⟨rfl, rfl⟩

end

/-- The handshakes that `process_handshake_message` takes up. -/
def TakenUp (h : NoiseHandshakeState) : Prop :=
  h.phase = .fresh ∨ h.phase = .asked ∨ h.phase = .answered

theorem incomplete_of_takenUp {h : NoiseHandshakeState} (hstate : TakenUp h) :
    h.is_handshake_complete = false := by
  rw [← Bool.not_eq_true, is_handshake_complete_iff]
  rcases hstate with hphase | hphase | hphase <;> rw [hphase] <;> decide

/-- What a handshake is after a message that was read, and its answer: a
responder has answered the first message, or the role is done. -/
def Advanced (response : Option Bytes) (h : NoiseHandshakeState) : Prop :=
  h.phase = .answered ∧ response.isSome ∨ ∃ role, h.phase = .complete role

theorem advance_ensures {h : NoiseHandshakeState} (hphase : TakenUp h) (message : Bytes)
    (g : PrivateKey) : Ensures Advanced Expected (advance message g) h := by
  rcases hphase with hphase | hphase | hphase
  · have hadvance := advance_answers (h := h) (by rw [hphase]; rfl) (by rw [hphase]; rfl) rfl
      (by rw [hphase]; decide) (by rw [hphase]; rfl) (by rw [hphase]; rfl) message g
    refine hadvance.mono fun response h' hh' => Or.inl ⟨?_, hh'.2⟩
    rw [hh'.1, hphase]
    rfl
  · have hadvance := advance_answers (h := h) (by rw [hphase]; rfl) (by rw [hphase]; rfl) rfl
      (by rw [hphase]; decide) (by rw [hphase]; rfl) (by rw [hphase]; rfl) message g
    refine hadvance.mono fun response h' hh' => Or.inr ⟨.INITIATOR, ?_⟩
    rw [hh'.1, hphase]
    rfl
  · have hadvance := advance_ends (h := h) (by rw [hphase]; rfl) (by rw [hphase]; rfl) rfl
      (by rw [hphase]; decide) message g
    refine hadvance.mono fun response h' hh' => Or.inr ⟨.RESPONDER, ?_⟩
    rw [hh'.1, hphase]
    rfl

/-! ## The session of a complete handshake -/

/-- A session with fresh ciphers. -/
structure NewSession (peer_id : Str) (now : UInt64) (session : NoiseSession) : Prop where
  peer_id : session.peer_id = peer_id
  established_time : session.established_time = now
  send_nonce : session.send_cipher.nonce = 0
  receive_nonce : session.receive_cipher.nonce = 0

theorem session_of_complete {h : NoiseHandshakeState} {role : NoiseRole}
    (hphase : h.phase = .complete role) (peer_id : Str) (now : UInt64) :
    ∃ session, session_of peer_id now h = some session ∧ NewSession peer_id now session := by
  have hcomplete : h.is_handshake_complete = true := by
    rw [is_handshake_complete_iff, hphase]
    exact le_rfl
  have hstatic : h.remote_static_public.isSome := congrArg Phase.static hphase
  obtain ⟨remote, hremote⟩ := Option.isSome_iff_exists.mp hstatic
  unfold session_of get_transport_ciphers
  rw [if_pos hcomplete, hremote]
  cases h.role <;> exact ⟨_, rfl, rfl, rfl, rfl, rfl⟩

theorem session_of_incomplete {h : NoiseHandshakeState} (hopen : h.phase.pattern < 3) (peer_id : Str)
    (now : UInt64) : session_of peer_id now h = none := by
  have hincomplete : ¬ h.is_handshake_complete = true := by
    rw [is_handshake_complete_iff]
    omega
  unfold session_of get_transport_ciphers
  rw [if_neg hincomplete]

/-! ## One call of the service -/

/-- What `process_handshake_message` can do. -/
inductive Processes (peer_id : Str) (now : UInt64) (svc : EncryptionService) :
    Except PyError (Option Bytes × Option (Str × Str)) → EncryptionService → Prop
  /-- The message is too short to be one. -/
  | refuses (text : String) (htext : text ∉ STUCK.map ("Handshake failed: " ++ ·)) :
    Processes peer_id now svc (.error (.NoiseError text)) svc
  /-- The handshake broke off. -/
  | fails (e : PyError) (he : Expected e) :
    Processes peer_id now svc (.error (.NoiseError ("Handshake failed: " ++ e.text)))
      (svc.clear_handshake_state peer_id)
  /-- The responder answers the first message. -/
  | answers (response : Bytes) (h : NoiseHandshakeState) (hphase : h.phase = .answered) :
    Processes peer_id now svc (.ok (some response, none))
      { svc with handshake_states := svc.handshake_states.set peer_id h }
  /-- The handshake is complete. -/
  | completes (response : Option Bytes) (session : NoiseSession)
    (hsession : NewSession peer_id now session) :
    Processes peer_id now svc (.ok (response, some (peer_id, session.get_fingerprint)))
      { svc with
        sessions := svc.sessions.set peer_id session
        handshake_states := svc.handshake_states.pop peer_id }

omit [Crypto] in
theorem too_short_ne (s t : String) :
    "Handshake message too short: " ++ s ≠ "Handshake failed: " ++ t := by
  intro h
  have hstart := congrArg (fun text => text.toList.take 11) h
  simp only [String.toList_append] at hstart
  simp at hstart

/-- A message that is too short to be one. -/
theorem exec_process_short {message : Bytes} (hshort : message.length < 32) (peer_id : Str)
    (g : PrivateKey) (now : UInt64) (svc : EncryptionService) :
    ∃ text, text ∉ STUCK.map ("Handshake failed: " ++ ·) ∧
      exec (process_handshake_message peer_id message g now) svc =
        (.error (.NoiseError text), svc) := by
  unfold process_handshake_message
  rw [exec_bind_ok _ (exec_get svc)]
  by_cases hempty : message = []
  · rw [if_pos hempty]
    exact ⟨_, by decide, rfl⟩
  · rw [if_neg hempty, if_pos hshort]
    refine ⟨_, fun hmem => ?_, rfl⟩
    obtain ⟨text, -, htext⟩ := List.mem_map.mp hmem
    rw [String.append_assoc] at htext
    exact too_short_ne _ _ htext.symm

theorem process_cases {svc : EncryptionService} {peer_id : Str}
    (hstate : TakenUp ((svc.handshake_states.get? peer_id).getD
      (.init .RESPONDER svc.static_identity_key)))
    (message : Bytes) (g : PrivateKey) (now : UInt64) :
    Processes peer_id now svc (exec (process_handshake_message peer_id message g now) svc).1
      (exec (process_handshake_message peer_id message g now) svc).2 := by
  by_cases hshort : message.length < 32
  · obtain ⟨text, htext, hexec⟩ := exec_process_short hshort peer_id g now svc
    rw [hexec]
    exact .refuses text htext
  generalize hh : (svc.handshake_states.get? peer_id).getD
    (.init .RESPONDER svc.static_identity_key) = h at hstate
  have hlong : 32 ≤ message.length := Nat.le_of_not_lt hshort
  have hincomplete := incomplete_of_takenUp hstate
  have hadvanced := advance_ensures hstate message g
  rcases hadvance : exec (advance message g) h with ⟨r, h'⟩
  cases r with
  | error e =>
    rw [exec_process_fails hlong hh hincomplete hadvance]
    exact .fails e (hadvanced.error hadvance)
  | ok response =>
    rw [exec_process hlong hh hincomplete hadvance]
    rcases hadvanced.ok hadvance with ⟨hphase, hresponse⟩ | ⟨role, hphase⟩
    · obtain ⟨answer, rfl⟩ := Option.isSome_iff_exists.mp hresponse
      have hnone : session_of peer_id now h' = none :=
        session_of_incomplete (by rw [hphase]; decide) peer_id now
      simp only [hnone]
      exact .answers answer h' hphase
    · obtain ⟨session, hsession, hnew⟩ := session_of_complete hphase peer_id now
      simp only [hsession]
      exact .completes response session hnew

/-! ## Runs of a service -/

inductive ServiceOp
  | initiate_handshake (peer_id : Str) (generated : PrivateKey)
  | process_handshake_message (peer_id : Str) (message : Bytes) (generated : PrivateKey)
    (now : UInt64)
  | encrypt (data : Bytes) (peer_id : Str)
  | decrypt_from_peer (peer_id : Str) (data : Bytes)
  | remove_session (peer_id : Str)
  | clear_handshake_state (peer_id : Str)
  | cleanup_old_sessions (now : UInt64) (max_age : Int)

def perform (svc : EncryptionService) : ServiceOp → EncryptionService
  | .initiate_handshake peer_id generated =>
    (exec (EncryptionService.initiate_handshake peer_id generated) svc).2
  | .process_handshake_message peer_id message generated now =>
    (exec (EncryptionService.process_handshake_message peer_id message generated now) svc).2
  | .encrypt data peer_id => (exec (EncryptionService.encrypt data peer_id) svc).2
  | .decrypt_from_peer peer_id data =>
    (exec (EncryptionService.decrypt_from_peer peer_id data) svc).2
  | .remove_session peer_id => svc.remove_session peer_id
  | .clear_handshake_state peer_id => svc.clear_handshake_state peer_id
  | .cleanup_old_sessions now max_age => svc.cleanup_old_sessions now max_age

/-- A new service after the given operations. -/
def performed (static_key : PrivateKey) (ops : List ServiceOp) : EncryptionService :=
  ops.foldl perform (.init static_key)

/-- An entry of the table: an initiator that waits for the second message, or
a responder that waits for the third. -/
def Open (h : NoiseHandshakeState) : Prop :=
  (h.role = .INITIATOR ∧ h.current_pattern = 1 ∧ h.local_ephemeral_private.isSome ∧
    h.remote_ephemeral_public = none) ∨
  (h.role = .RESPONDER ∧ h.current_pattern = 2 ∧ h.local_ephemeral_private.isSome ∧
    h.remote_ephemeral_public.isSome)

def Table (svc : EncryptionService) : Prop :=
  ∀ peer_id h, svc.handshake_states.get? peer_id = some h → h.phase = .asked ∨ h.phase = .answered

theorem open_of_phase {h : NoiseHandshakeState} (hphase : h.phase = .asked ∨ h.phase = .answered) :
    Open h := by
  rcases hphase with hphase | hphase
  · refine Or.inl ⟨congrArg Phase.role hphase, congrArg Phase.pattern hphase,
      congrArg Phase.own hphase, ?_⟩
    have hnone := Option.isSome_eq_false_iff.mp (congrArg Phase.ephemeral hphase)
    exact Option.isNone_iff_eq_none.mp hnone
  · exact Or.inr ⟨congrArg Phase.role hphase, congrArg Phase.pattern hphase,
      congrArg Phase.own hphase, congrArg Phase.ephemeral hphase⟩

section

variable {svc : EncryptionService}

theorem Table.set (h : Table svc) {peer_id : Str} {handshake : NoiseHandshakeState}
    (hphase : handshake.phase = .asked ∨ handshake.phase = .answered) :
    Table { svc with handshake_states := svc.handshake_states.set peer_id handshake } := by
  intro other h' hget
  simp only [Dict.get?_set] at hget
  split at hget
  · cases hget
    exact hphase
  · exact h other h' hget

theorem Table.pop (h : Table svc) (peer_id : Str) :
    Table { svc with handshake_states := svc.handshake_states.pop peer_id } := by
  intro other h' hget
  simp only [Dict.get?_pop] at hget
  split at hget
  · cases hget
  · exact h other h' hget

theorem Table.takenUp (h : Table svc) (peer_id : Str) :
    TakenUp ((svc.handshake_states.get? peer_id).getD (.init .RESPONDER svc.static_identity_key)) := by
  rcases hget : svc.handshake_states.get? peer_id with _ | handshake
  · exact Or.inl rfl
  · exact Or.inr (h peer_id handshake hget)

theorem Processes.table {svc' : EncryptionService} {peer_id : Str} {now : UInt64}
    {result : Except PyError (Option Bytes × Option (Str × Str))}
    (h : Processes peer_id now svc result svc') (htable : Table svc) : Table svc' := by
  cases h with
  | refuses => exact htable
  | fails => exact htable.pop peer_id
  | answers response handshake hphase => exact htable.set (Or.inr hphase)
  | completes => exact htable.pop peer_id

/-- A handshake starts, and raises nothing. -/
theorem exec_initiate (peer_id : Str) (g : PrivateKey) (svc : EncryptionService) :
    ∃ message h, h.phase = .asked ∧ exec (EncryptionService.initiate_handshake peer_id g) svc =
      (.ok message, { svc.remove_session peer_id with
        handshake_states := (svc.remove_session peer_id).handshake_states.set peer_id h }) := by
  obtain ⟨message, h, hphase, hwrite⟩ := exec_first_message svc.static_identity_key g
  refine ⟨message, h, hphase, ?_⟩
  have hidentity : (remove_session peer_id svc).static_identity_key = svc.static_identity_key := rfl
  unfold EncryptionService.initiate_handshake
  simp only [exec_bind, exec_modify, exec_get, hidentity, hwrite, exec_set, exec_outcome_ok]

theorem encrypt_handshakes (data : Bytes) (peer_id : Str) (svc : EncryptionService) :
    (exec (encrypt data peer_id) svc).2.handshake_states = svc.handshake_states := by
  unfold encrypt
  rw [exec_bind_ok _ (exec_get svc)]
  split
  · rfl
  · rw [exec_bind_ok _ (exec_set _ _)]
    cases (exec (NoiseCipherState.encrypt data []) _).1 <;> rfl

theorem decrypt_handshakes (data : Bytes) (peer_id : Str) (svc : EncryptionService) :
    (exec (decrypt_from_peer peer_id data) svc).2.handshake_states = svc.handshake_states := by
  unfold decrypt_from_peer
  rw [exec_bind_ok _ (exec_get svc)]
  split
  · rfl
  · rw [exec_bind_ok _ (exec_set _ _)]
    cases (exec (NoiseCipherState.decrypt data []) _).1 <;> rfl

theorem Table.perform (h : Table svc) (op : ServiceOp) : Table (perform svc op) := by
  cases op with
  | initiate_handshake peer_id g =>
    obtain ⟨message, handshake, hphase, hexec⟩ := exec_initiate peer_id g svc
    show Table (exec _ svc).2
    rw [hexec]
    exact Table.set (h.pop peer_id) (Or.inl hphase)
  | process_handshake_message peer_id message g now =>
    exact (process_cases (h.takenUp peer_id) message g now).table h
  | encrypt data peer_id =>
    intro other handshake hget
    exact h other handshake ((encrypt_handshakes data peer_id svc) ▸ hget)
  | decrypt_from_peer peer_id data =>
    intro other handshake hget
    exact h other handshake ((decrypt_handshakes data peer_id svc) ▸ hget)
  | remove_session peer_id => exact h.pop peer_id
  | clear_handshake_state peer_id => exact h.pop peer_id
  | cleanup_old_sessions now max_age => exact h

theorem table_performed (static_key : PrivateKey) (ops : List ServiceOp) :
    Table (performed static_key ops) := by
  unfold performed
  have hstart : Table (EncryptionService.init static_key) := by
    intro peer_id h hget
    cases hget
  generalize EncryptionService.init static_key = svc at hstart
  induction ops generalizing svc with
  | nil => exact hstart
  | cons op ops ih => exact ih _ (hstart.perform op)

/-- Only the entries of the given peer change. -/
structure Confined (peer_id : Str) (svc svc' : EncryptionService) : Prop where
  identity : svc'.static_identity_key = svc.static_identity_key
  sessions : ∀ other, other ≠ peer_id → svc'.sessions.get? other = svc.sessions.get? other
  handshakes : ∀ other, other ≠ peer_id →
    svc'.handshake_states.get? other = svc.handshake_states.get? other

end

theorem Processes.confined {svc svc' : EncryptionService} {peer_id : Str} {now : UInt64}
    {result : Except PyError (Option Bytes × Option (Str × Str))}
    (h : Processes peer_id now svc result svc') : Confined peer_id svc svc' := by
  cases h with
  | refuses => exact ⟨rfl, fun _ _ => rfl, fun _ _ => rfl⟩
  | fails => exact ⟨rfl, fun _ _ => rfl, fun _ hne => Dict.get?_pop_ne _ hne.symm⟩
  | answers => exact ⟨rfl, fun _ _ => rfl, fun _ hne => Dict.get?_set_ne _ _ hne.symm⟩
  | completes =>
    exact ⟨rfl, fun _ hne => Dict.get?_set_ne _ _ hne.symm,
      fun _ hne => Dict.get?_pop_ne _ hne.symm⟩

/-- Whatever a service went through, every open handshake waits for an answer,
and so a call never finds a handshake that is complete or lacks a key. A call
keeps to the entries of its peer; where it raises, the sessions stay as they
were; where it returns, there is a new session or an answer of the responder. -/
theorem open_handshakes_await_an_answer (static_key : PrivateKey) (ops : List ServiceOp) :
    (∀ peer_id h, (performed static_key ops).handshake_states.get? peer_id = some h →
      Open h ∧ h.is_handshake_complete = false) ∧
    (∀ peer_id g, ∃ message,
      (exec (EncryptionService.initiate_handshake peer_id g) (performed static_key ops)).1 =
        .ok message) ∧
    ∀ peer_id message g now result svc',
      exec (process_handshake_message peer_id message g now) (performed static_key ops) =
        (result, svc') →
      Confined peer_id (performed static_key ops) svc' ∧
      match result with
      | .error e => svc'.sessions = (performed static_key ops).sessions ∧
        ∃ text, e = .NoiseError text ∧ text ∉ STUCK.map ("Handshake failed: " ++ ·)
      | .ok (response, _) =>
        (∃ session, NewSession peer_id now session ∧
          svc'.sessions.get? peer_id = some session ∧ svc'.handshake_states.get? peer_id = none) ∨
        (∃ h, svc'.sessions = (performed static_key ops).sessions ∧
          svc'.handshake_states.get? peer_id = some h ∧ h.role = .RESPONDER ∧ response.isSome) := by
  have htable := table_performed static_key ops
  generalize performed static_key ops = svc at htable
  refine ⟨fun peer_id h hget => ?_, fun peer_id g => ?_, ?_⟩
  · have hphase := htable peer_id h hget
    exact ⟨open_of_phase hphase, incomplete_of_takenUp (Or.inr hphase)⟩
  · obtain ⟨message, h, -, hexec⟩ := exec_initiate peer_id g svc
    exact ⟨message, by rw [hexec]⟩
  · intro peer_id message g now result svc' hexec
    have hcases := process_cases (htable.takenUp peer_id) message g now
    rw [hexec] at hcases
    refine ⟨hcases.confined, ?_⟩
    cases hcases with
    | refuses text htext => exact ⟨rfl, text, rfl, htext⟩
    | fails e he =>
      refine ⟨rfl, _, rfl, fun hmem => ?_⟩
      obtain ⟨text, htext, heq⟩ := List.mem_map.mp hmem
      exact he ((String.append_right_inj _).mp heq ▸ htext)
    | answers response h hphase =>
      exact Or.inr ⟨h, rfl, Dict.get?_set_self _ _ _, congrArg Phase.role hphase, rfl⟩
    | completes response session hsession =>
      exact Or.inl ⟨session, hsession, Dict.get?_set_self _ _ _, Dict.get?_pop_self _ _⟩

end EncryptionService

end bitchat.encryption
