-- The three messages of a handshake, one call of the service at a time: what
-- each end has when a message is under way, and what the other makes of it.
import BitchatNode.XXAgreement

namespace bitchat.encryption

open python Crypto NoiseHandshakeState

variable [Crypto]

/-! ## The state of a handshake -/

/-- How far a node is with a peer: the keys of the session, the one to send
under first, the handshake that is not complete, and the node's static key. -/
@[ext] structure Standing where
  keys : Option (Option Bytes × Option Bytes)
  half_open : Option NoiseHandshakeState
  identity : PrivateKey

def cipher_keys (session : NoiseSession) : Option Bytes × Option Bytes :=
  (session.send_cipher.key, session.receive_cipher.key)

def standing (peer_id : Str) (svc : EncryptionService) : Standing where
  keys := (svc.sessions.get? peer_id).map cipher_keys
  half_open := svc.handshake_states.get? peer_id
  identity := svc.static_identity_key

/-! ## Messages under way -/

/-- The reader of the message goes from one handshake state to the next. -/
structure Reads (message : Bytes) (before after : NoiseHandshakeState) : Prop where
  read : exec (read_message message) before = (.ok [], after)
  long : 32 ≤ message.length

/-- A complete handshake reads nothing. -/
theorem Reads.incomplete {message : Bytes} {before after : NoiseHandshakeState}
    (h : Reads message before after) : before.is_handshake_complete = false := by
  rw [← Bool.not_eq_true]
  intro hcomplete
  have hpattern : message_patterns[before.current_pattern]? = none :=
    List.getElem?_eq_none (of_decide_eq_true hcomplete)
  have hread := h.read
  unfold read_message at hread
  simp only [exec_bind, exec_get, hpattern, exec_throw] at hread
  cases hread

section

variable (static_i static_r : PrivateKey)

/-- The initiator has written the first message. -/
def FirstSent (message : Bytes) (i : NoiseHandshakeState) : Prop :=
  ∃ r ei, Reads message (.init .RESPONDER static_r) r ∧ i.local_static_private = static_i ∧
    r.local_static_private = static_r ∧ Stage 1 i r (some ei) none none none

/-- The responder has written the second message. -/
def SecondSent (message : Bytes) (i r : NoiseHandshakeState) : Prop :=
  ∃ i' ei er, Reads message i i' ∧ i'.local_static_private = static_i ∧
    Stage 2 i' r (some ei) (some er) none (some static_r)

/-- The initiator has written the third message, and has a session under
these keys. -/
def ThirdSent (message : Bytes) (r : NoiseHandshakeState) (keys : Option Bytes × Option Bytes) :
    Prop :=
  ∃ i r' ei er, Reads message r r' ∧
    Stage 3 i r' (some ei) (some er) (some static_i) (some static_r) ∧
    ∀ peer_id now, ∃ session, EncryptionService.session_of peer_id now i = some session ∧
      cipher_keys session = keys

end

namespace EncryptionService

/-! ## One call of the service -/

section

variable {svc : EncryptionService} {peer_id : Str} {message : Bytes} {generated : PrivateKey}
  {now : UInt64} {h h' : NoiseHandshakeState} {response : Option Bytes}

theorem advance_complete (generated : PrivateKey) (hread : Reads message h h')
    (hcomplete : h'.is_handshake_complete = true) :
    exec (advance message generated) h = (.ok none, h') := by
  unfold advance
  simp [hread.read, hcomplete]

theorem advance_incomplete {written : Bytes} {h'' : NoiseHandshakeState}
    (hread : Reads message h h')
    (hincomplete : h'.is_handshake_complete = false)
    (hwrite : exec (write_message [] generated) h' = (.ok written, h'')) :
    exec (advance message generated) h = (.ok (some written), h'') := by
  unfold advance
  simp [hread.read, hincomplete, hwrite]

/-- A message that is read and answered. -/
theorem exec_process (hlong : 32 ≤ message.length)
    (hstate : (svc.handshake_states.get? peer_id).getD
      (.init .RESPONDER svc.static_identity_key) = h)
    (hincomplete : h.is_handshake_complete = false)
    (hadvance : exec (advance message generated) h = (.ok response, h')) :
    exec (process_handshake_message peer_id message generated now) svc =
      match session_of peer_id now h' with
      | some session => (.ok (response, some (peer_id, session.get_fingerprint)),
        { svc with
          sessions := svc.sessions.set peer_id session
          handshake_states := svc.handshake_states.pop peer_id })
      | none => (.ok (response, none),
        { svc with handshake_states := svc.handshake_states.set peer_id h' }) := by
  have hne : message ≠ [] := by
    rintro rfl
    simp at hlong
  have hshort : ¬ message.length < 32 := by omega
  unfold process_handshake_message
  simp only [exec_bind, exec_get, if_neg hne, if_neg hshort, hstate, hincomplete,
    Bool.false_eq_true, if_false, hadvance]
  cases session_of peer_id now h' <;> rfl

/-- A message that breaks the handshake off. -/
theorem exec_process_fails {e : PyError} (hlong : 32 ≤ message.length)
    (hstate : (svc.handshake_states.get? peer_id).getD
      (.init .RESPONDER svc.static_identity_key) = h)
    (hincomplete : h.is_handshake_complete = false)
    (hadvance : exec (advance message generated) h = (.error e, h')) :
    exec (process_handshake_message peer_id message generated now) svc =
      (.error (.NoiseError ("Handshake failed: " ++ e.text)), svc.clear_handshake_state peer_id) := by
  have hne : message ≠ [] := by
    rintro rfl
    simp at hlong
  have hshort : ¬ message.length < 32 := by omega
  unfold process_handshake_message
  simp only [exec_bind, exec_get, if_neg hne, if_neg hshort, hstate, hincomplete,
    Bool.false_eq_true, if_false, hadvance]
  rfl

/-- The handshake goes on. -/
theorem process_goes_on (hlong : 32 ≤ message.length)
    (hstate : (svc.handshake_states.get? peer_id).getD
      (.init .RESPONDER svc.static_identity_key) = h)
    (hincomplete : h.is_handshake_complete = false)
    (hadvance : exec (advance message generated) h = (.ok response, h'))
    (hopen : h'.is_handshake_complete = false) :
    ∃ svc', exec (process_handshake_message peer_id message generated now) svc =
        (.ok (response, none), svc') ∧
      standing peer_id svc' = { standing peer_id svc with half_open := some h' } := by
  have hnone : session_of peer_id now h' = none := by
    unfold session_of get_transport_ciphers
    simp [hopen]
  rw [exec_process hlong hstate hincomplete hadvance, hnone]
  refine ⟨_, rfl, ?_⟩
  unfold standing
  rw [Dict.get?_set_self]

/-- The handshake is complete. -/
theorem process_completes {session : NoiseSession} (hlong : 32 ≤ message.length)
    (hstate : (svc.handshake_states.get? peer_id).getD
      (.init .RESPONDER svc.static_identity_key) = h)
    (hincomplete : h.is_handshake_complete = false)
    (hadvance : exec (advance message generated) h = (.ok response, h'))
    (hsession : session_of peer_id now h' = some session) :
    ∃ authenticated svc', exec (process_handshake_message peer_id message generated now) svc =
        (.ok (response, authenticated), svc') ∧
      standing peer_id svc' =
        { standing peer_id svc with keys := some (cipher_keys session), half_open := none } := by
  rw [exec_process hlong hstate hincomplete hadvance, hsession]
  refine ⟨_, _, rfl, ?_⟩
  unfold standing
  rw [Dict.get?_set_self, Dict.get?_pop_self]
  rfl

end

/-! ## The calls of a handshake -/

section

variable {svc : EncryptionService} {peer_id : Str}

theorem incomplete_of_pattern {h : NoiseHandshakeState} {n : Nat} (hpattern : h.current_pattern = n)
    (hn : n < 3) : h.is_handshake_complete = false := by
  unfold is_handshake_complete
  rw [hpattern]
  exact decide_eq_false (by simp only [message_patterns, List.length_cons, List.length_nil]; omega)

/-- A handshake starts with the first message, whatever there was before. -/
theorem initiate_sends_first [LawfulCrypto] (svc : EncryptionService) (peer_id : Str)
    (generated static_r : PrivateKey) :
    ∃ message i svc', exec (EncryptionService.initiate_handshake peer_id generated) svc =
        (.ok message, svc') ∧
      standing peer_id svc' = ⟨none, some i, svc.static_identity_key⟩ ∧ message.length ≤ 96 ∧
      FirstSent svc.static_identity_key static_r message i := by
  obtain ⟨message, i, r, hwrite, hread, hlong, hshort, hi, hr, hstage⟩ :=
    message_one (stage_init svc.static_identity_key static_r) rfl [] generated
  refine ⟨message, i, { remove_session peer_id svc with
    handshake_states := (remove_session peer_id svc).handshake_states.set peer_id i }, ?_, ?_,
    hshort, r, generated, ⟨hread, hlong⟩, hi, hr, hstage⟩
  · have hidentity : (remove_session peer_id svc).static_identity_key =
      svc.static_identity_key := rfl
    unfold EncryptionService.initiate_handshake
    simp only [exec_bind, exec_modify, exec_get, hidentity, hwrite, exec_set, exec_outcome_ok]
  · unfold standing remove_session
    simp only [Dict.get?_pop_self, Dict.get?_set_self, Option.map_none]

/-- The responder answers the first message. -/
theorem process_first [LawfulCrypto] {static_i : PrivateKey} {message : Bytes}
    {i : NoiseHandshakeState}
    (hsent : FirstSent static_i svc.static_identity_key message i)
    (hclosed : (standing peer_id svc).half_open = none) (generated : PrivateKey) (now : UInt64) :
    ∃ answer r svc', exec (process_handshake_message peer_id message generated now) svc =
        (.ok (some answer, none), svc') ∧
      standing peer_id svc' = { standing peer_id svc with half_open := some r } ∧
      32 ≤ answer.length ∧ answer.length ≤ 96 ∧
      SecondSent static_i svc.static_identity_key answer i r := by
  obtain ⟨r₁, ei, hreads, hi, hr, hstage⟩ := hsent
  obtain ⟨answer, i', r, hwrite, hread, hlong, hshort, hi', -, hnext⟩ :=
    message_two hstage [] generated
  have hpattern : r₁.current_pattern = 1 := hstage.current_pattern ▸ hstage.pattern
  have hpattern' : r.current_pattern = 2 := hnext.current_pattern ▸ hnext.pattern
  have hstate : (svc.handshake_states.get? peer_id).getD
    (.init .RESPONDER svc.static_identity_key) =
      .init .RESPONDER svc.static_identity_key := by
    rw [show svc.handshake_states.get? peer_id = none from hclosed]
    rfl
  have hadvance := advance_incomplete hreads (incomplete_of_pattern hpattern (by decide)) hwrite
  obtain ⟨svc', hprocess, hstanding⟩ := process_goes_on hreads.long hstate hreads.incomplete
    hadvance
    (incomplete_of_pattern hpattern' (by decide))
  rw [hr] at hnext
  exact ⟨answer, r, svc', hprocess, hstanding, hlong, hshort, i', ei, generated, ⟨hread, hlong⟩,
    hi'.trans hi, hnext⟩

/-- The initiator answers the second message, and has a session. -/
theorem process_second [LawfulCrypto] {static_r : PrivateKey} {message : Bytes}
    {i r : NoiseHandshakeState}
    (hsent : SecondSent svc.static_identity_key static_r message i r)
    (hopen : (standing peer_id svc).half_open = some i) (generated : PrivateKey) (now : UInt64) :
    ∃ answer k1 k2 authenticated svc',
      exec (process_handshake_message peer_id message generated now) svc =
        (.ok (some answer, authenticated), svc') ∧
      standing peer_id svc' =
        { standing peer_id svc with keys := some (some k1, some k2), half_open := none } ∧
      32 ≤ answer.length ∧ answer.length ≤ 96 ∧
      ThirdSent svc.static_identity_key static_r answer r (some k1, some k2) := by
  obtain ⟨i₂, ei, er, hreads, hi, hstage⟩ := hsent
  obtain ⟨answer, i', r', hwrite, hread, hlong, hshort, -, -, hnext⟩ :=
    message_three hstage [] generated
  rw [hi] at hnext
  obtain ⟨k1, k2, hsessions⟩ := hnext.sessions
  have hstate : (svc.handshake_states.get? peer_id).getD
    (.init .RESPONDER svc.static_identity_key) =
      i := by
    rw [show svc.handshake_states.get? peer_id = some i from hopen]
    rfl
  have hadvance := advance_incomplete hreads (incomplete_of_pattern hstage.pattern (by decide))
    hwrite
  obtain ⟨authenticated, svc', hprocess, hstanding⟩ := process_completes hreads.long hstate
    hreads.incomplete hadvance (hsessions peer_id now).1
  exact ⟨answer, k1, k2, authenticated, svc', hprocess, hstanding, hlong, hshort, i', r', ei, er,
    ⟨hread, hlong⟩, hnext, fun peer_id' now' => ⟨_, (hsessions peer_id' now').1, rfl⟩⟩

/-- The responder reads the third message, and has a session under the same
keys the other way round. -/
theorem process_third {static_i : PrivateKey} {message : Bytes} {r : NoiseHandshakeState}
    {keys : Option Bytes × Option Bytes}
    (hsent : ThirdSent static_i svc.static_identity_key message r keys)
    (hopen : (standing peer_id svc).half_open = some r) (generated : PrivateKey) (now : UInt64) :
    ∃ authenticated svc', exec (process_handshake_message peer_id message generated now) svc =
        (.ok (none, authenticated), svc') ∧
      standing peer_id svc' =
        { standing peer_id svc with keys := some keys.swap, half_open := none } := by
  obtain ⟨i, r', ei, er, hreads, hstage, hkeys⟩ := hsent
  obtain ⟨k1, k2, hsessions⟩ := hstage.sessions
  obtain ⟨session, hsession, rfl⟩ := hkeys peer_id now
  obtain rfl := Option.some.inj ((hsessions peer_id now).1.symm.trans hsession)
  have hpattern : r'.current_pattern = 3 := hstage.current_pattern ▸ hstage.pattern
  have hcomplete : r'.is_handshake_complete = true := by
    unfold is_handshake_complete
    rw [hpattern]
    rfl
  have hstate : (svc.handshake_states.get? peer_id).getD
    (.init .RESPONDER svc.static_identity_key) =
      r := by
    rw [show svc.handshake_states.get? peer_id = some r from hopen]
    rfl
  have hadvance := advance_complete generated hreads hcomplete
  exact process_completes hreads.long hstate hreads.incomplete hadvance (hsessions peer_id now).2

end

end EncryptionService

end bitchat.encryption
