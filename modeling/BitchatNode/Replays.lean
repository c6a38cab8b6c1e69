-- What sessions take in, whoever controls the network. What is opened under a
-- key is a part of what was sealed under it, in order and without repetitions:
-- the counters of the two ciphers see to that, if the AEAD accepts nothing that
-- was not sealed.
import BitchatNode.Counters
import BitchatNode.NonceReuse

namespace bitchat.encryption

open python Crypto counters EncryptionService NoiseHandshakeState

/-! ## The two directions of a session -/

inductive Direction
  | send
  | receive
deriving DecidableEq

/-- The output of the split that the role takes for the direction. -/
def Direction.step : Direction → NoiseRole → Step
  | .send, .INITIATOR => .split_first
  | .send, .RESPONDER => .split_second
  | .receive, .INITIATOR => .split_second
  | .receive, .RESPONDER => .split_first

theorem Direction.role_eq (way : Direction) {role role' : NoiseRole}
    (h : way.step role = way.step role') : role = role' := by
  cases way <;> cases role <;> cases role' <;> simp [step] at h ⊢

/-- The key was derived for the direction. -/
def Issued (way : Direction) (uses : List KeyUse) (key : Bytes) : Prop :=
  ∃ d ∈ derivations uses, d.step = way.step d.role ∧ d.key = key

section

variable {way : Direction} {uses uses' : List KeyUse} {key : Bytes}

theorem Issued.append (h : Issued way uses key) (uses' : List KeyUse) :
    Issued way (uses ++ uses') key := by
  obtain ⟨d, hd, hstep, hkey⟩ := h
  refine ⟨d, ?_, hstep, hkey⟩
  rw [derivations_append]
  exact List.mem_append_left _ hd

theorem Issued.after (h : Issued way uses' key) (uses : List KeyUse) :
    Issued way (uses ++ uses') key := by
  obtain ⟨d, hd, hstep, hkey⟩ := h
  refine ⟨d, ?_, hstep, hkey⟩
  rw [derivations_append]
  exact List.mem_append_right _ hd

/-- No key is derived for one direction twice. -/
theorem Issued.fresh (hdistinct : Distinct (uses ++ uses')) (h' : Issued way uses' key) :
    ¬ Issued way uses key := by
  rintro ⟨d, hd, hstep, hkey⟩
  obtain ⟨d', hd', hstep', hkey'⟩ := h'
  unfold Distinct at hdistinct
  rw [derivations_append] at hdistinct
  obtain ⟨hrole, hsame⟩ := (List.pairwise_append.mp hdistinct).2.2 d hd d' hd'
    (hkey.trans hkey'.symm)
  apply hrole
  apply way.role_eq
  rw [← hstep, ← hstep', hsame]

end

/-! ## What a cipher does -/

/-- The key of a cipher and where its counter stands. -/
def NoiseCipherState.position (self : NoiseCipherState) : Option (Bytes × Nat) :=
  self.key.map fun key => (key, self.nonce)

/-- What is recorded of an AEAD call of a session: which end of which session
made it, the counter, the plaintext and the ciphertext. -/
abbrev Entry (ι : Type) := Record Bytes (ι × Str) (Bytes × Bytes)

section Moved

variable {ι : Type} {x : ι × Str} {c c' : NoiseCipherState}

/-- The cipher keeps its key and goes past what is recorded. -/
inductive Moved (x : ι × Str) (c c' : NoiseCipherState) : List (Entry ι) → Prop
  | idle (hkey : c'.key = c.key) (hle : c.nonce ≤ c'.nonce) : Moved x c c' []
  | records (key : Bytes) (value : Bytes × Bytes) (hkey : c.key = some key)
    (hkey' : c'.key = some key) (hlt : c.nonce < c'.nonce) :
    Moved x c c' [⟨key, x, c.nonce, value⟩]

theorem Moved.refl (x : ι × Str) (c : NoiseCipherState) : Moved x c c [] := .idle rfl le_rfl

/-- What is recorded where a call returns. -/
def entry_of (x : ι × Str) (position : Option (Bytes × Nat)) (result : Except PyError Bytes)
    (value : Bytes → Bytes × Bytes) : List (Entry ι) :=
  match position, result with
  | some (key, n), .ok data => [⟨key, x, n, value data⟩]
  | _, _ => []

variable [Crypto]

theorem moved_encrypt (x : ι × Str) (c : NoiseCipherState) (plaintext : Bytes) :
    Moved x c (exec (NoiseCipherState.encrypt plaintext []) c).2
      (entry_of x c.position (exec (NoiseCipherState.encrypt plaintext []) c).1
        fun ciphertext => (plaintext, ciphertext)) := by
  unfold NoiseCipherState.position NoiseCipherState.encrypt
  rcases hkey : c.key with _ | key
  · simpa [entry_of, hkey] using Moved.refl x c
  · by_cases hn : NoiseCipherState.NONCES ≤ c.nonce
    · simpa [entry_of, hkey, hn] using Moved.refl x c
    · simp only [exec_bind, exec_get, hkey, hn, if_false, exec_set, exec_pure]
      exact .records key _ hkey rfl (Nat.lt_succ_self _)

theorem moved_decrypt (x : ι × Str) (c : NoiseCipherState) (ciphertext : Bytes) :
    Moved x c (exec (NoiseCipherState.decrypt ciphertext []) c).2
      (entry_of x c.position (exec (NoiseCipherState.decrypt ciphertext []) c).1
        fun plaintext => (plaintext, ciphertext)) := by
  unfold NoiseCipherState.position NoiseCipherState.decrypt
  rcases hkey : c.key with _ | key
  · simpa [entry_of, hkey] using Moved.refl x c
  · by_cases hn : NoiseCipherState.NONCES ≤ c.nonce
    · simpa [entry_of, hkey, hn] using Moved.refl x c
    · simp only [exec_bind, exec_get, hkey, hn, if_false, exec_set]
      cases chacha_decrypt key (NoiseCipherState.nonce_bytes c.nonce) ciphertext [] with
      | none => exact .idle hkey.symm (Nat.le_succ _)
      | some plaintext => exact .records key _ hkey rfl (Nat.lt_succ_self _)

end Moved

variable [Crypto]

/-! ## Logs of a run -/

def NoiseSession.cipher (self : NoiseSession) : Direction → NoiseCipherState
  | .send => self.send_cipher
  | .receive => self.receive_cipher

section Services

variable {ι : Type} [DecidableEq ι]

/-- Where the ciphers of the direction stand, for each session of each service. -/
def positions (way : Direction) (services : ι → EncryptionService) (x : ι × Str) :
    Option (Bytes × Nat) :=
  ((services x.1).sessions.get? x.2).bind fun session => (session.cipher way).position

/-- What an operation seals, where `encrypt` returns. -/
def sealed (services : ι → EncryptionService) : ι × ServiceOp → List (Entry ι)
  | (i, .encrypt data peer_id) =>
    entry_of (i, peer_id) (positions .send services (i, peer_id))
      (exec (EncryptionService.encrypt data peer_id) (services i)).1
      fun ciphertext => (data, ciphertext)
  | _ => []

/-- What an operation opens, where `decrypt_from_peer` returns. -/
def opened (services : ι → EncryptionService) : ι × ServiceOp → List (Entry ι)
  | (i, .decrypt_from_peer peer_id data) =>
    entry_of (i, peer_id) (positions .receive services (i, peer_id))
      (exec (EncryptionService.decrypt_from_peer peer_id data) (services i)).1
      fun plaintext => (plaintext, data)
  | _ => []

def entries (way : Direction) (services : ι → EncryptionService) (op : ι × ServiceOp) :
    List (Entry ι) :=
  match way with
  | .send => sealed services op
  | .receive => opened services op

/-- All that is sealed, or opened, in a run. -/
def run_entries (way : Direction) (services : ι → EncryptionService) :
    List (ι × ServiceOp) → List (Entry ι)
  | [] => []
  | op :: ops => entries way services op ++ run_entries way (serve services op) ops

variable {way : Direction} {services : ι → EncryptionService} {used : List KeyUse}
  {log : List (Entry ι)} {i : ι} {op : ServiceOp}

/-- The counters of the direction agree with the log. -/
abbrev InOrder (way : Direction) (used : List KeyUse) (services : ι → EncryptionService)
    (log : List (Entry ι)) : Prop := Counted (Issued way used) (positions way services) log

theorem positions_serve {peer_id : Str} {session : NoiseSession}
    (hset : ∀ other, (perform (services i) op).sessions.get? other =
      if other = peer_id then some session else (services i).sessions.get? other) :
    positions way (serve services (i, op)) =
      Function.update (positions way services) (i, peer_id) (session.cipher way).position := by
  funext ⟨j, other⟩
  unfold positions serve
  by_cases hj : j = i
  · subst hj
    rw [Function.update_self, hset other]
    by_cases hother : other = peer_id
    · rw [if_pos hother, hother, Function.update_self]
      rfl
    · rw [if_neg hother, Function.update_of_ne (fun heq => hother (congrArg Prod.snd heq))]
  · rw [Function.update_of_ne hj, Function.update_of_ne (fun heq => hj (congrArg Prod.fst heq))]

/-- An operation that only takes sessions out. -/
theorem InOrder.remove (h : InOrder way used services log)
    (hsub : ∀ peer_id session, (perform (services i) op).sessions.get? peer_id = some session →
      (services i).sessions.get? peer_id = some session) :
    InOrder way used (serve services (i, op)) log := by
  refine h.fewer ?_
  rintro ⟨j, peer_id⟩ key n hp
  unfold positions serve at hp
  unfold positions
  by_cases hj : j = i
  · subst hj
    rw [Function.update_self] at hp
    obtain ⟨session, hsession, hposition⟩ := Option.bind_eq_some_iff.mp hp
    rw [hsub peer_id session hsession]
    exact hposition
  · rwa [Function.update_of_ne hj] at hp

/-- A session goes on. -/
theorem InOrder.goes_on (h : InOrder way used services log) {peer_id : Str}
    {session session' : NoiseSession} {new : List (Entry ι)}
    (hsession : (services i).sessions.get? peer_id = some session)
    (hset : ∀ other, (perform (services i) op).sessions.get? other =
      if other = peer_id then some session' else (services i).sessions.get? other)
    (hmoved : Moved (i, peer_id) (session.cipher way) (session'.cipher way) new) :
    InOrder way used (serve services (i, op)) (log ++ new) := by
  have hposition : positions way services (i, peer_id) = (session.cipher way).position := by
    simp [positions, hsession]
  unfold InOrder
  rw [positions_serve hset]
  unfold NoiseCipherState.position at hposition ⊢
  cases hmoved with
  | idle hkey hle =>
    rw [List.append_nil, hkey]
    cases hkeyed : (session.cipher way).key with
    | none =>
      rw [hkeyed, Option.map_none] at hposition
      rw [Option.map_none, ← hposition, Function.update_eq_self]
      exact h
    | some key =>
      rw [hkeyed] at hposition
      exact h.tick hposition hle
  | records key value hkey hkey' hlt =>
    rw [hkey] at hposition
    rw [hkey']
    exact h.record hposition hlt value

/-- A session is established under a key that was just derived. -/
theorem InOrder.establish (h : InOrder way used services log) {peer_id : Str}
    {session : NoiseSession} {used' : List KeyUse} {key : Bytes}
    (hset : ∀ other, (perform (services i) op).sessions.get? other =
      if other = peer_id then some session else (services i).sessions.get? other)
    (hkey : (session.cipher way).key = some key) (hissued : Issued way used' key)
    (hdistinct : Distinct (used ++ used')) :
    InOrder way (used ++ used') (serve services (i, op)) log := by
  unfold InOrder
  rw [positions_serve hset]
  unfold NoiseCipherState.position
  rw [hkey]
  exact h.issue (hissued.fresh hdistinct) (hissued.after used) (fun _ hold => hold.append used') _ _

/-! ## One operation -/

theorem in_order_encrypt (h : InOrder way used services log) (data : Bytes) (peer_id : Str) :
    InOrder way used (serve services (i, .encrypt data peer_id))
      (log ++ entries way services (i, .encrypt data peer_id)) := by
  rcases hsession : (services i).sessions.get? peer_id with _ | session
  · have hsame : perform (services i) (.encrypt data peer_id) = services i := by
      simp [perform, EncryptionService.encrypt, hsession]
    have hnone : entries way services (i, .encrypt data peer_id) = [] := by
      cases way <;> simp [entries, sealed, opened, entry_of, positions, hsession]
    rw [hnone, List.append_nil]
    apply h.remove
    intro other session hother
    rwa [hsame] at hother
  · have hset : ∀ other, (perform (services i) (.encrypt data peer_id)).sessions.get? other =
        if other = peer_id then some { session with
          send_cipher := (exec (NoiseCipherState.encrypt data []) session.send_cipher).2 }
        else (services i).sessions.get? other := by
      intro other
      rw [perform_encrypt hsession, Dict.get?_set]
      exact if_congr eq_comm rfl rfl
    apply h.goes_on hsession hset
    cases way with
    | receive => exact .refl _ _
    | send =>
      have hcall : (exec (EncryptionService.encrypt data peer_id) (services i)).1 =
          (exec (NoiseCipherState.encrypt data []) session.send_cipher).1 := by
        simp only [EncryptionService.encrypt, exec_bind, exec_get, hsession, exec_set]
        cases (exec (NoiseCipherState.encrypt data []) session.send_cipher).1 <;> rfl
      have hposition : positions .send services (i, peer_id) = session.send_cipher.position := by
        simp [positions, hsession, NoiseSession.cipher]
      simp only [entries, sealed, hcall, hposition]
      exact moved_encrypt _ _ _

theorem in_order_decrypt (h : InOrder way used services log) (peer_id : Str) (data : Bytes) :
    InOrder way used (serve services (i, .decrypt_from_peer peer_id data))
      (log ++ entries way services (i, .decrypt_from_peer peer_id data)) := by
  rcases hsession : (services i).sessions.get? peer_id with _ | session
  · have hsame : perform (services i) (.decrypt_from_peer peer_id data) = services i := by
      simp [perform, EncryptionService.decrypt_from_peer, hsession]
    have hnone : entries way services (i, .decrypt_from_peer peer_id data) = [] := by
      cases way <;> simp [entries, sealed, opened, entry_of, positions, hsession]
    rw [hnone, List.append_nil]
    apply h.remove
    intro other session hother
    rwa [hsame] at hother
  · have hset : ∀ other,
        (perform (services i) (.decrypt_from_peer peer_id data)).sessions.get? other =
        if other = peer_id then some { session with
          receive_cipher := (exec (NoiseCipherState.decrypt data []) session.receive_cipher).2 }
        else (services i).sessions.get? other := by
      intro other
      rw [perform_decrypt hsession, Dict.get?_set]
      exact if_congr eq_comm rfl rfl
    apply h.goes_on hsession hset
    cases way with
    | send => exact .refl _ _
    | receive =>
      have hcall : (exec (EncryptionService.decrypt_from_peer peer_id data) (services i)).1 =
          (exec (NoiseCipherState.decrypt data []) session.receive_cipher).1 := by
        simp only [EncryptionService.decrypt_from_peer, exec_bind, exec_get, hsession, exec_set]
        cases (exec (NoiseCipherState.decrypt data []) session.receive_cipher).1 <;> rfl
      have hposition : positions .receive services (i, peer_id) =
          session.receive_cipher.position := by
        simp [positions, hsession, NoiseSession.cipher]
      simp only [entries, opened, hcall, hposition]
      exact moved_decrypt _ _ _

/-- The split derives the key of either direction. -/
theorem split_issues {handshake : NoiseHandshakeState} {role : NoiseRole}
    (hphase : handshake.phase = .complete role) (peer_id : Str) (now : UInt64) :
    ∃ session, session_of peer_id now handshake = some session ∧ ∀ way : Direction,
      ∃ key, (session.cipher way).key = some key ∧ Issued way (split_uses handshake) key := by
  have hcomplete : handshake.is_handshake_complete = true := by
    rw [is_handshake_complete_iff, hphase]
    exact le_rfl
  have hstatic : handshake.remote_static_public.isSome := congrArg Phase.static hphase
  obtain ⟨remote, hremote⟩ := Option.isSome_iff_exists.mp hstatic
  unfold session_of get_transport_ciphers split_uses
  rw [if_pos hcomplete, if_pos hcomplete, hremote]
  cases hrole : handshake.role with
  | INITIATOR =>
    refine ⟨_, rfl, fun way => ?_⟩
    cases way with
    | send => exact ⟨_, rfl, _, List.mem_cons_self, rfl, rfl⟩
    | receive => exact ⟨_, rfl, _, List.mem_cons_of_mem _ List.mem_cons_self, rfl, rfl⟩
  | RESPONDER =>
    refine ⟨_, rfl, fun way => ?_⟩
    cases way with
    | send => exact ⟨_, rfl, _, List.mem_cons_of_mem _ List.mem_cons_self, rfl, rfl⟩
    | receive => exact ⟨_, rfl, _, List.mem_cons_self, rfl, rfl⟩

theorem in_order_process (htable : Table (services i)) (h : InOrder way used services log)
    (peer_id : Str) (message : Bytes) (g : PrivateKey) (now : UInt64)
    (hdistinct : Distinct (used ++ process_uses peer_id message g (services i))) :
    InOrder way (used ++ process_uses peer_id message g (services i))
      (serve services (i, .process_handshake_message peer_id message g now)) log := by
  have hkept : InOrder way (used ++ process_uses peer_id message g (services i)) services log :=
    h.mono fun _ hold => hold.append _
  have hsame : ∀ svc,
      perform (services i) (.process_handshake_message peer_id message g now) = svc →
      svc.sessions = (services i).sessions →
      InOrder way (used ++ process_uses peer_id message g (services i))
        (serve services (i, .process_handshake_message peer_id message g now)) log := by
    intro svc hsvc hsessions
    apply hkept.remove
    intro other session hother
    rwa [hsvc, hsessions] at hother
  by_cases hshort : message.length < 32
  · obtain ⟨text, -, hexec⟩ := exec_process_short hshort peer_id g now (services i)
    exact hsame _ (congrArg Prod.snd hexec) rfl
  have hstate := htable.takenUp peer_id
  generalize hh : ((services i).handshake_states.get? peer_id).getD
    (.init .RESPONDER (services i).static_identity_key) = handshake at hstate
  have hlong : 32 ≤ message.length := Nat.le_of_not_lt hshort
  have hincomplete := incomplete_of_takenUp hstate
  rcases hadvance : exec (advance message g) handshake with ⟨r, handshake'⟩
  cases r with
  | error e =>
    have hexec : exec (process_handshake_message peer_id message g now) (services i) = _ :=
      exec_process_fails hlong hh hincomplete hadvance
    exact hsame _ (congrArg Prod.snd hexec) rfl
  | ok response =>
    have hexec : exec (process_handshake_message peer_id message g now) (services i) = _ :=
      exec_process hlong hh hincomplete hadvance
    rcases (advance_ensures hstate message g).ok hadvance with ⟨hphase, -⟩ | ⟨role, hphase⟩
    · -- The handshake goes on.
      have hopen : handshake'.phase.pattern < 3 := by
        rw [hphase]
        decide
      rw [session_of_incomplete hopen peer_id now] at hexec
      exact hsame _ (congrArg Prod.snd hexec) rfl
    · -- The handshake is complete, and the keys are those of the split.
      obtain ⟨session, hsession, hkeys⟩ := split_issues hphase peer_id now
      obtain ⟨key, hkey, hissued⟩ := hkeys way
      rw [hsession] at hexec
      have huses : process_uses peer_id message g (services i) =
          advance_uses message g handshake ++ split_uses handshake' := by
        simp [process_uses, hshort, hh, hincomplete, followed, hadvance]
      have hset : ∀ other, (perform (services i)
          (.process_handshake_message peer_id message g now)).sessions.get? other =
            if other = peer_id then some session else (services i).sessions.get? other := by
        intro other
        simp only [perform, hexec, Dict.get?_set]
        exact if_congr eq_comm rfl rfl
      refine h.establish hset hkey ?_ hdistinct
      rw [huses]
      exact hissued.after _

/-- What one operation does. -/
theorem InOrder.step (htable : Table (services i)) (h : InOrder way used services log)
    (op : ServiceOp) (hdistinct : Distinct (used ++ uses (services i) op)) :
    InOrder way (used ++ uses (services i) op) (serve services (i, op))
      (log ++ entries way services (i, op)) := by
  have hnone : ∀ op, (∀ data peer_id, op ≠ .encrypt data peer_id) →
      (∀ peer_id data, op ≠ .decrypt_from_peer peer_id data) →
      log ++ entries way services (i, op) = log := by
    intro op hencrypt hdecrypt
    have hempty : entries way services (i, op) = [] := by
      cases way <;> cases op <;> simp [entries, sealed, opened] at hencrypt hdecrypt ⊢
    rw [hempty, List.append_nil]
  cases op with
  | encrypt data peer_id =>
    apply Counted.mono (in_order_encrypt h data peer_id)
    exact fun _ hold => hold.append _
  | decrypt_from_peer peer_id data =>
    apply Counted.mono (in_order_decrypt h peer_id data)
    exact fun _ hold => hold.append _
  | process_handshake_message peer_id message g now =>
    rw [hnone _ (by simp) (by simp)]
    exact in_order_process htable h peer_id message g now hdistinct
  | initiate_handshake peer_id g =>
    rw [hnone _ (by simp) (by simp)]
    obtain ⟨message, handshake, -, hexec⟩ := exec_initiate peer_id g (services i)
    apply InOrder.remove (h.mono fun _ hold => hold.append _)
    intro other session hother
    simp only [perform, hexec] at hother
    exact get?_of_pop hother
  | remove_session peer_id =>
    rw [hnone _ (by simp) (by simp)]
    apply InOrder.remove (h.mono fun _ hold => hold.append _)
    exact fun _ _ => get?_of_pop
  | clear_handshake_state peer_id =>
    rw [hnone _ (by simp) (by simp)]
    apply InOrder.remove (h.mono fun _ hold => hold.append _)
    exact fun _ _ hget => hget
  | cleanup_old_sessions now max_age =>
    rw [hnone _ (by simp) (by simp)]
    apply InOrder.remove (h.mono fun _ hold => hold.append _)
    exact fun _ _ => get?_of_foldl_pop

/-- A whole run. -/
theorem InOrder.run (htables : ∀ i, Table (services i)) (h : InOrder way used services log)
    (ops : List (ι × ServiceOp)) (hdistinct : Distinct (used ++ run_uses services ops)) :
    (log ++ run_entries way services ops).Pairwise Precedes := by
  induction ops generalizing services used log with
  | nil =>
    rw [run_entries, List.append_nil]
    exact h.ordered
  | cons op ops ih =>
    rw [run_uses, ← List.append_assoc] at hdistinct
    rw [run_entries, ← List.append_assoc]
    exact ih (tables_serve htables op) (h.step (htables op.1) op.2 (distinct_left hdistinct))
      hdistinct

/-- A log of the run of new services is in order, whatever messages come in. -/
theorem run_in_order (way : Direction) (identity : ι → PrivateKey) (ops : List (ι × ServiceOp))
    (hdistinct : Distinct (run_uses (fun i => EncryptionService.init (identity i)) ops)) :
    (run_entries way (fun i => EncryptionService.init (identity i)) ops).Pairwise Precedes := by
  have htables : ∀ i, Table (EncryptionService.init (identity i)) := by
    intro i peer_id h hget
    cases hget
  exact InOrder.run htables (Counted.init (Issued way [])) ops hdistinct

/-! ## What the AEAD has to do with it -/

/-- The AEAD gave what was recorded. -/
def Genuine (way : Direction) (r : Entry ι) : Prop :=
  match way with
  | .send => chacha_encrypt r.key (NoiseCipherState.nonce_bytes r.number) r.value.1 [] = r.value.2
  | .receive =>
    chacha_decrypt r.key (NoiseCipherState.nonce_bytes r.number) r.value.2 [] = some r.value.1

omit [DecidableEq ι] in
theorem genuine_entries (op : ι × ServiceOp) : ∀ r ∈ entries way services op, Genuine way r := by
  obtain ⟨i, op⟩ := op
  cases way with
  | send =>
    cases op with
    | encrypt data peer_id =>
      simp only [entries, sealed, positions]
      rcases hsession : (services i).sessions.get? peer_id with _ | session
      · simp [entry_of]
      · unfold NoiseSession.cipher NoiseCipherState.position
        rcases hkey : session.send_cipher.key with _ | key
        · simp [entry_of, hkey]
        · by_cases hn : NoiseCipherState.NONCES ≤ session.send_cipher.nonce
          · simp [entry_of, EncryptionService.encrypt, NoiseCipherState.encrypt, hsession, hkey, hn]
          · simp [entry_of, EncryptionService.encrypt, NoiseCipherState.encrypt, hsession, hkey, hn,
              Genuine]
    | _ => simp [entries, sealed]
  | receive =>
    cases op with
    | decrypt_from_peer peer_id data =>
      simp only [entries, opened, positions]
      rcases hsession : (services i).sessions.get? peer_id with _ | session
      · simp [entry_of]
      · unfold NoiseSession.cipher NoiseCipherState.position
        rcases hkey : session.receive_cipher.key with _ | key
        · simp [entry_of, hkey]
        · by_cases hn : NoiseCipherState.NONCES ≤ session.receive_cipher.nonce
          · simp [entry_of, EncryptionService.decrypt_from_peer, NoiseCipherState.decrypt, hsession,
              hkey, hn]
          · rcases hplain : chacha_decrypt key
              (NoiseCipherState.nonce_bytes session.receive_cipher.nonce) data [] with _ | plaintext
            · simp [entry_of, EncryptionService.decrypt_from_peer, NoiseCipherState.decrypt,
                hsession, hkey, hn, hplain]
            · simp [entry_of, EncryptionService.decrypt_from_peer, NoiseCipherState.decrypt,
                hsession, hkey, hn, hplain, Genuine]
    | _ => simp [entries, opened]

theorem genuine_run (ops : List (ι × ServiceOp)) :
    ∀ r ∈ run_entries way services ops, Genuine way r := by
  induction ops generalizing services with
  | nil => exact fun r hr => absurd hr List.not_mem_nil
  | cons op ops ih =>
    intro r hr
    rcases List.mem_append.mp hr with hr | hr
    · exact genuine_entries op r hr
    · exact ih r hr

/-- What was opened under a key was sealed under it with the same counter: the
AEAD accepts nothing else. -/
def Unforged (sealings openings : List (Entry ι)) : Prop :=
  ∀ r ∈ openings, ∃ s ∈ sealings, s.key = r.key ∧ s.number = r.number ∧ s.value.2 = r.value.2

instance (sealings openings : List (Entry ι)) : Decidable (Unforged sealings openings) :=
  inferInstanceAs (Decidable (∀ r ∈ openings, ∃ s ∈ sealings, _))

/-- Services handshake, seal and open in any order, and every message may come
from anybody. Then one end of a session opens under a key a part of what one
end sealed under it, in the same order: nothing is taken in twice, and nothing
that is older than what was taken in. -/
theorem what_is_opened_was_sealed_in_order [LawfulCrypto] (identity : ι → PrivateKey)
    (ops : List (ι × ServiceOp))
    (hdistinct : Distinct (run_uses (fun i => EncryptionService.init (identity i)) ops))
    (hunforged : Unforged (run_entries .send (fun i => EncryptionService.init (identity i)) ops)
      (run_entries .receive (fun i => EncryptionService.init (identity i)) ops)) :
    let sealings := run_entries .send (fun i => EncryptionService.init (identity i)) ops
    let openings := run_entries .receive (fun i => EncryptionService.init (identity i)) ops
    (∀ key, (under key openings).Sublist (under key sealings)) ∧ OnePlace sealings ∧
      OnePlace openings := by
  intro sealings openings
  have hsealed : sealings.Pairwise Precedes := run_in_order .send identity ops hdistinct
  have hopened : openings.Pairwise Precedes := run_in_order .receive identity ops hdistinct
  have hbacked : ∀ r ∈ openings, Backed sealings r := by
    intro r hr
    obtain ⟨s, hs, hkey, hnumber, hciphertext⟩ := hunforged r hr
    have hsealing : Genuine .send s := genuine_run ops s hs
    have hopening : Genuine .receive r := genuine_run ops r hr
    unfold Genuine at hsealing hopening
    -- The AEAD gives back what it encrypted.
    have hplaintext : s.value.1 = r.value.1 := by
      rw [← hciphertext, ← hsealing, hkey, hnumber, LawfulCrypto.chacha_decrypt_encrypt] at hopening
      exact Option.some.inj hopening
    exact ⟨s, hs, hkey, hnumber, Prod.ext hplaintext hciphertext⟩
  exact ⟨under_sublist hopened hsealed hbacked, onePlace_of_ordered hsealed,
    onePlace_of_ordered hopened⟩

end Services

end bitchat.encryption

/-! ## On the stand-in -/

namespace bitchat.encryption.standIn

open python Crypto counters EncryptionService

attribute [local instance] bitchat.standIn.packages

/-- The initiator after the handshake. -/
def ready : EncryptionService := perform (perform (pair true) asked) finished

/-- What the service sends for the data. -/
def sends (svc : EncryptionService) (data : Bytes) : Bytes :=
  match (exec (EncryptionService.encrypt data ['b']) svc).1 with
  | .ok ciphertext => ciphertext
  | .error _ => []

/-- Of three messages the first is delivered twice, and the second is not. -/
def replayed : List (Bool × ServiceOp) :=
  let second := perform ready (.encrypt [1] ['b'])
  let third := perform second (.encrypt [3] ['b'])
  [(true, asked), (false, answered), (true, finished),
    (false, .process_handshake_message ['a'] third_message (bitchat.standIn.key 13) 0),
    (true, .encrypt [1] ['b']), (true, .encrypt [3] ['b']), (true, .encrypt [5] ['b']),
    (false, .decrypt_from_peer ['a'] (sends ready [1])),
    (false, .decrypt_from_peer ['a'] (sends ready [1])),
    (false, .decrypt_from_peer ['a'] (sends third [5]))]

/-- The message that was delivered twice is opened once. -/
theorem a_replayed_message_is_opened_once :
    (run_entries .receive (fun i => .init (identity i)) replayed).map (fun r => r.value.1) =
        [[1], [5]] ∧
      ∀ key, (under key (run_entries .receive (fun i => .init (identity i)) replayed)).Sublist
        (under key (run_entries .send (fun i => .init (identity i)) replayed)) := by
  have := bitchat.standIn.lawfulCrypto
  refine ⟨by decide +kernel, ?_⟩
  exact (what_is_opened_was_sealed_in_order identity replayed (by decide +kernel)
    (by decide +kernel)).1

end bitchat.encryption.standIn
