-- What the node has to do with one peer's private messages: whether there is a
-- session, the queue of pending messages, and the tasks that will send some.
-- Most calls keep all of this, or lose the peer.
import BitchatNode.NewMessages
import BitchatNode.Runs

namespace daemon

open python bitchat bitchat.protocol bitchat.encryption

/-! ## Tasks -/

variable [Packages]

/-- The tasks that were put off. -/
def tasks (out : List Action) : List Later :=
  out.filterMap fun
    | .later task => some task
    | _ => none

/-- The task sends private messages to the peer. -/
def concerns (peer_id : Str) : Later → Bool
  | .relay _ _ => false
  | .send_pending_private_messages peer_id' => peer_id' = peer_id
  | .send_each peer_id' _ => peer_id' = peer_id

def tasks_for (peer_id : Str) (out : List Action) : List Later :=
  (tasks out).filter (concerns peer_id)

theorem tasks_append (a b : List Action) : tasks (a ++ b) = tasks a ++ tasks b :=
  List.filterMap_append

theorem tasks_for_append (peer_id : Str) (a b : List Action) :
    tasks_for peer_id (a ++ b) = tasks_for peer_id a ++ tasks_for peer_id b := by
  unfold tasks_for
  rw [tasks_append, List.filter_append]

/-- The private messages that wait for a session. -/
def queue (peer_id : Str) (self : MeshNode) : List (Str × Str × Str) :=
  (self.pending_private_messages.get? peer_id).getD []

/-- There is a session with the peer. -/
abbrev has_session (peer_id : Str) (self : MeshNode) : Prop :=
  self.encryption_service.is_session_established peer_id = true

/-! ## Keeping a peer -/

/-- From `w` to `w'` nothing happened to the private messages of the peer. -/
structure Same (peer_id : Str) (w w' : World) : Prop where
  session : has_session peer_id w'.node ↔ has_session peer_id w.node
  queue : queue peer_id w'.node = queue peer_id w.node
  tasks : tasks_for peer_id w'.out = tasks_for peer_id w.out

/-- From `w` to `w'` the peer was lost: there is neither a session nor a queue. -/
structure Gone (peer_id : Str) (w w' : World) : Prop where
  session : ¬ has_session peer_id w'.node
  queue : daemon.queue peer_id w'.node = []
  tasks : tasks_for peer_id w'.out = tasks_for peer_id w.out

def Kept (peer_id : Str) (w w' : World) : Prop := Same peer_id w w' ∨ Gone peer_id w w'

variable {peer_id : Str}

theorem Same.refl (w : World) : Same peer_id w w := ⟨Iff.rfl, rfl, rfl⟩

theorem Same.trans {u v w : World} (h : Same peer_id u v) (g : Same peer_id v w) :
    Same peer_id u w :=
  ⟨g.session.trans h.session, g.queue.trans h.queue, g.tasks.trans h.tasks⟩

theorem Gone.of_same {u v w : World} (h : Gone peer_id u v) (g : Same peer_id v w) :
    Gone peer_id u w :=
  ⟨fun hs => h.session (g.session.mp hs), g.queue.trans h.queue, g.tasks.trans h.tasks⟩

theorem Kept.tasks {w w' : World} (h : Kept peer_id w w') :
    tasks_for peer_id w'.out = tasks_for peer_id w.out := by
  rcases h with hsame | hgone
  · exact hsame.tasks
  · exact hgone.tasks

instance : IsPreorder World (Kept peer_id) where
  refl w := .inl (Same.refl w)
  trans u v w := by
    rintro h (hsame | hgone)
    · rcases h with hsame' | hgone
      · exact .inl (hsame'.trans hsame)
      · exact .inr (hgone.of_same hsame)
    · exact .inr ⟨hgone.session, hgone.queue, hgone.tasks.trans h.tasks⟩

theorem Same.kept {w w' : World} (h : Same peer_id w w') : Kept peer_id w w' := .inl h

theorem kept_emit {action : Action} (h : tasks_for peer_id [action] = []) :
    Moves (Kept peer_id) (emit action) := by
  intro w
  refine Same.kept ⟨Iff.rfl, rfl, ?_⟩
  show tasks_for peer_id (w.out ++ [action]) = _
  rw [tasks_for_append, h, List.append_nil]

theorem kept_modifyNode {f : MeshNode → MeshNode} (h : ∀ n, SameSessions n (f n)) :
    Moves (Kept peer_id) (modifyNode f) := by
  intro w
  refine Same.kept ⟨?_, ?_, rfl⟩
  · show (f w.node).encryption_service.is_session_established peer_id = true ↔ _
    unfold has_session EncryptionService.is_session_established
    rw [(h w.node).sessions]
  · show ((f w.node).pending_private_messages.get? peer_id).getD [] = _
    rw [(h w.node).pending]
    rfl

/-- The peer that is removed is lost, and the others are kept. -/
theorem kept_remove_peer (peer_id' : Str) : Moves (Kept peer_id) (remove_peer peer_id') := by
  unfold remove_peer
  refine Moves.bind moves_node fun self => ?_
  refine Moves.bind ?_ fun _ => ?_
  · intro w
    by_cases h : peer_id' = peer_id
    · subst h
      refine .inr ⟨?_, ?_, rfl⟩
      · show ¬ (w.node.encryption_service.sessions.pop peer_id').has peer_id' = true
        rw [Dict.has_pop_self]
        exact Bool.false_ne_true
      · show ((w.node.pending_private_messages.pop peer_id').get? peer_id').getD [] = []
        rw [Dict.get?_pop, if_pos rfl]
        rfl
    · refine Same.kept ⟨?_, ?_, rfl⟩
      · show (w.node.encryption_service.sessions.pop peer_id').has peer_id = true ↔ _
        rw [Dict.has_pop_ne _ h]
        exact Iff.rfl
      · show ((w.node.pending_private_messages.pop peer_id').get? peer_id).getD [] = _
        rw [Dict.get?_pop_ne _ h]
        rfl
  · exact Moves.ite (kept_emit rfl) (Moves.pure ())

theorem kept_on_peer_disconnected (conn : PeerConnection) :
    Moves (Kept peer_id) (on_peer_disconnected conn) :=
  moves_on_peer_disconnected kept_remove_peer conn

theorem kept_on_read_done (conn : PeerConnection) : Moves (Kept peer_id) (on_read_done conn) := by
  unfold on_read_done
  refine Moves.bind (kept_modifyNode fun _ => ⟨rfl, rfl⟩) fun _ => ?_
  exact kept_on_peer_disconnected conn

/-- What a call of the service that keeps the sessions does. -/
theorem kept_onService {α : Type} {x : Py PyError EncryptionService α}
    (h : ∀ svc, (exec x svc).2.sessions.has peer_id = svc.sessions.has peer_id) :
    Moves (Kept peer_id) (onService x) := by
  intro w
  refine Same.kept ⟨?_, rfl, rfl⟩
  show (exec x w.node.encryption_service).2.sessions.has peer_id = true ↔ _
  rw [h w.node.encryption_service]
  exact Iff.rfl

theorem has_encrypt (data : Bytes) (peer_id' : Str) (svc : EncryptionService) :
    (exec (EncryptionService.encrypt data peer_id') svc).2.sessions.has peer_id =
      svc.sessions.has peer_id := by
  unfold EncryptionService.encrypt
  simp only [exec_bind, exec_get]
  cases hsession : svc.sessions.get? peer_id' with
  | none => rfl
  | some session =>
    simp only [exec_bind, exec_set]
    rcases exec (NoiseCipherState.encrypt data []) session.send_cipher with ⟨result, cipher⟩
    cases result <;> exact Dict.has_set_of_get? hsession _ _

theorem has_decrypt (peer_id' : Str) (data : Bytes) (svc : EncryptionService) :
    (exec (EncryptionService.decrypt_from_peer peer_id' data) svc).2.sessions.has peer_id =
      svc.sessions.has peer_id := by
  unfold EncryptionService.decrypt_from_peer
  simp only [exec_bind, exec_get]
  cases hsession : svc.sessions.get? peer_id' with
  | none => rfl
  | some session =>
    simp only [exec_bind, exec_set]
    rcases exec (NoiseCipherState.decrypt data []) session.receive_cipher with ⟨result, cipher⟩
    cases result <;> exact Dict.has_set_of_get? hsession _ _

theorem steady_kept (peer_id : Str) (env : Env) : Steady env (Kept peer_id) where
  adjust _ _ h := kept_modifyNode fun n => (h n).toSameSessions
  encrypt data peer_id' := kept_onService (has_encrypt data peer_id')
  decrypt peer_id' data := kept_onService (has_decrypt peer_id' data)
  on_delivery_ack _ := kept_emit rfl
  saved _ := kept_emit rfl
  send_to_peer := moves_send_to_peer (fun conn _ => kept_on_read_done conn) fun _ _ => kept_emit rfl
  raw_send := moves_raw_send (fun conn _ => kept_on_read_done conn) fun _ _ => kept_emit rfl

/-! ## Handshakes -/

theorem sessions_initiate (peer_id' : Str) (generated : Crypto.PrivateKey)
    (svc : EncryptionService) :
    (exec (EncryptionService.initiate_handshake peer_id' generated) svc).2.sessions =
      svc.sessions.pop peer_id' := by
  unfold EncryptionService.initiate_handshake
  simp only [exec_bind, exec_modify, exec_get, exec_set]
  rcases exec (NoiseHandshakeState.write_message [] generated)
    (.init .INITIATOR (EncryptionService.remove_session peer_id' svc).static_identity_key) with
    ⟨message, handshake⟩
  cases message <;> rfl

/-- A handshake is started with another peer, or where there is no session. -/
theorem kept_initiate_handshake (env : Env) {peer_id' : Str} {w : World}
    (h : peer_id' ≠ peer_id ∨ ¬ has_session peer_id w.node) :
    Kept peer_id w (exec (initiate_handshake env peer_id') w).2 := by
  unfold initiate_handshake
  rw [exec_suppress]
  refine Moves.bind_from ?_ fun msg => ?_
  · refine Same.kept ⟨?_, rfl, rfl⟩
    show (exec (EncryptionService.initiate_handshake _ _) _).2.sessions.has peer_id = true ↔ _
    rw [sessions_initiate]
    rcases h with hother | hnone
    · rw [Dict.has_pop_ne _ hother]
      exact Iff.rfl
    · by_cases hother : peer_id' = peer_id
      · rw [hother, Dict.has_pop_self]
        exact iff_of_false Bool.false_ne_true hnone
      · rw [Dict.has_pop_ne _ hother]
        exact Iff.rfl
  · refine Moves.bind moves_node fun self => ?_
    exact Moves.bind (Moves.outcome _) fun packet => (steady_kept peer_id env).send_to_peer _ _

theorem same_announced (peer_id' nickname : Str) (w : World) :
    Same peer_id w (exec (announced peer_id' nickname) w).2 := by
  unfold announced
  simp only [exec_bind, exec_node, exec_modifyNode]
  split
  · exact ⟨Iff.rfl, rfl, rfl⟩
  · refine ⟨Iff.rfl, rfl, ?_⟩
    show tasks_for peer_id (w.out ++ _) = _
    rw [tasks_for_append]
    exact List.append_nil _

/-- The tie-breaker starts a handshake only where there is no session. -/
theorem kept_handle_noise_identity_announce (env : Env) (packet : BitchatPacket) :
    Moves (Kept peer_id) (handle_noise_identity_announce env packet) := by
  intro w
  unfold handle_noise_identity_announce
  simp only [exec_bind, exec_node]
  split
  · exact refl_of (Kept peer_id) w
  · split
    · exact refl_of (Kept peer_id) w
    · rename_i peer_id' nickname _
      have hsame : Same peer_id w (exec (announced peer_id' nickname) w).2 :=
        same_announced peer_id' nickname w
      have hnode := exec_announced peer_id' nickname w
      rcases hannounced : exec (announced peer_id' nickname) w with ⟨result, w₁⟩
      rw [hannounced] at hsame hnode
      obtain ⟨rfl, -⟩ := hnode
      rw [exec_bind_ok _ hannounced, exec_ite]
      split
      · rename_i hfirst
        refine trans_of (Kept peer_id) hsame.kept (kept_initiate_handshake env ?_)
        by_cases hother : peer_id' = peer_id
        · rw [hother] at hfirst
          exact .inr fun hs => hfirst.2 (hsame.session.mp hs)
        · exact .inl hother
      · exact hsame.kept

/-- What `process_handshake_message` does to the sessions: nothing, or it
opens one with the peer and says so. -/
inductive Opens (peer_id' : Str) (svc : EncryptionService) :
    Except PyError (Option Bytes × Option (Str × Str)) × EncryptionService → Prop
  | nothing {result : Except PyError (Option Bytes × Option (Str × Str))} {svc' : EncryptionService}
      (hresult : ∀ answer, result = .ok answer → answer.2 = none)
      (hsessions : svc'.sessions = svc.sessions) : Opens peer_id' svc (result, svc')
  | session {response : Option Bytes} {session : NoiseSession} {svc' : EncryptionService}
      (hsessions : svc'.sessions = svc.sessions.set peer_id' session) :
      Opens peer_id' svc (.ok (response, some (peer_id', session.get_fingerprint)), svc')

theorem opens_process (peer_id' : Str) (message : Bytes) (generated : Crypto.PrivateKey)
    (now : UInt64) (svc : EncryptionService) :
    Opens peer_id' svc (exec (EncryptionService.process_handshake_message peer_id' message generated
      now) svc) := by
  unfold EncryptionService.process_handshake_message
  simp only [exec_bind, exec_get, exec_ite, exec_throw, exec_set, exec_pure]
  split
  · exact .nothing (by simp) rfl
  · split
    · exact .nothing (by simp) rfl
    · split
      · exact .nothing (by simp) rfl
      · split
        · exact .nothing (by simp) rfl
        · split
          · exact .session rfl
          · exact .nothing (by simp) rfl

/-- From `w` to `w'` the node went on with the private messages of the peer at
most by the tasks that were put off for it, and those mean that there is a
session. -/
structure Wakes (peer_id : Str) (woken : List Later) (w w' : World) : Prop where
  only : ∀ task ∈ woken, task = .send_pending_private_messages peer_id
  session : has_session peer_id w.node → has_session peer_id w'.node
  awake : woken ≠ [] → has_session peer_id w'.node
  queue : queue peer_id w'.node = queue peer_id w.node
  tasks : tasks_for peer_id w'.out = tasks_for peer_id w.out ++ woken

theorem Same.wakes {w w' : World} (h : Same peer_id w w') : Wakes peer_id [] w w' :=
  ⟨by simp, h.session.mpr, by simp, h.queue, by rw [h.tasks, List.append_nil]⟩

/-- What a step does to the private messages of the peer if it brings none:
the peer is lost, or it is kept, or its queue goes to a task. -/
inductive Outcome (peer_id : Str) (w w' : World) : Prop
  | gone (woken : List Later) (only : ∀ task ∈ woken, task = .send_pending_private_messages peer_id)
      (session : ¬ has_session peer_id w'.node) (queue : queue peer_id w'.node = [])
      (tasks : tasks_for peer_id w'.out = tasks_for peer_id w.out ++ woken)
  | kept (woken : List Later) (h : Wakes peer_id woken w w')
  | flushed (woken : List Later)
      (only : ∀ task ∈ woken, task = .send_pending_private_messages peer_id)
      (session : has_session peer_id w'.node) (some : daemon.queue peer_id w.node ≠ [])
      (queue : daemon.queue peer_id w'.node = [])
      (tasks : tasks_for peer_id w'.out = tasks_for peer_id w.out ++
        (woken ++ [.send_each peer_id (daemon.queue peer_id w.node)]))

theorem Outcome.of_same {w v w' : World} (hsame : Same peer_id w v) (h : Outcome peer_id v w') :
    Outcome peer_id w w' := by
  cases h with
  | gone woken only session queue tasks =>
    exact .gone woken only session queue (by rw [tasks, hsame.tasks])
  | kept woken h =>
    exact .kept woken ⟨h.only, fun hs => h.session (hsame.session.mpr hs), h.awake,
      h.queue.trans hsame.queue, by rw [h.tasks, hsame.tasks]⟩
  | flushed woken only session some queue tasks =>
    rw [hsame.queue] at some tasks
    exact .flushed woken only session some queue (by rw [tasks, hsame.tasks])

theorem Wakes.then_kept {woken : List Later} {w v w' : World} (h : Wakes peer_id woken w v)
    (g : Kept peer_id v w') : Outcome peer_id w w' := by
  rcases g with hsame | hgone
  · refine .kept woken ⟨h.only, fun hs => hsame.session.mpr (h.session hs),
      fun hw => hsame.session.mpr (h.awake hw), hsame.queue.trans h.queue, ?_⟩
    rw [hsame.tasks, h.tasks]
  · refine .gone woken h.only hgone.session hgone.queue ?_
    rw [hgone.tasks, h.tasks]

theorem Kept.outcome {w w' : World} (h : Kept peer_id w w') : Outcome peer_id w w' :=
  (Same.refl w).wakes.then_kept h

/-- What `_send_pending_private_messages` does for the peer. -/
theorem exec_send_pending (peer_id : Str) (w : World) :
    (has_session peer_id (exec (send_pending_private_messages peer_id) w).2.node ↔
        has_session peer_id w.node) ∧
      queue peer_id (exec (send_pending_private_messages peer_id) w).2.node = [] ∧
      tasks_for peer_id (exec (send_pending_private_messages peer_id) w).2.out =
        tasks_for peer_id w.out ++
          if queue peer_id w.node = [] then [] else
            [.send_each peer_id (queue peer_id w.node)] := by
  have hpopped : ((w.node.pending_private_messages.pop peer_id).get? peer_id).getD [] = [] := by
    rw [Dict.get?_pop, if_pos rfl]
    rfl
  unfold send_pending_private_messages
  simp only [exec_bind, exec_node, exec_modifyNode, exec_ite, exec_pure, exec_emit]
  by_cases hqueue : queue peer_id w.node = []
  · have hwaiting : (w.node.pending_private_messages.get? peer_id).getD [] = [] := hqueue
    rw [if_pos hqueue, if_pos hwaiting, List.append_nil]
    exact ⟨Iff.rfl, hpopped, rfl⟩
  · have hwaiting : (w.node.pending_private_messages.get? peer_id).getD [] ≠ [] := hqueue
    rw [if_neg hqueue, if_neg hwaiting]
    refine ⟨Iff.rfl, hpopped, ?_⟩
    show tasks_for peer_id (w.out ++ _) = _
    rw [tasks_for_append]
    simp [tasks_for, tasks, concerns, queue]

theorem Wakes.then_flush {woken : List Later} {w v : World} (h : Wakes peer_id woken w v)
    (hsession : has_session peer_id v.node) :
    Outcome peer_id w (exec (send_pending_private_messages peer_id) v).2 := by
  obtain ⟨hkept, hempty, htasks⟩ := exec_send_pending peer_id v
  rw [h.queue, h.tasks] at htasks
  by_cases hqueue : daemon.queue peer_id w.node = []
  · rw [if_pos hqueue, List.append_nil] at htasks
    exact .kept woken ⟨h.only, fun _ => hkept.mpr hsession, fun _ => hkept.mpr hsession,
      hempty.trans hqueue.symm, htasks⟩
  · rw [if_neg hqueue, List.append_assoc] at htasks
    exact .flushed woken h.only (hkept.mpr hsession) hqueue hempty htasks

/-- `process_handshake_message` with its callback, for the peer itself. -/
theorem wakes_process (peer_id : Str) (env : Env) (message : Bytes) (w : World) :
    ∃ woken, Wakes peer_id woken w (exec (process_handshake_message env peer_id message) w).2 := by
  have hopens := opens_process peer_id message (env.draw 0).generate (env.draw 0).time_us
    w.node.encryption_service
  unfold process_handshake_message
  simp only [exec_bind, exec_onService]
  generalize exec (EncryptionService.process_handshake_message peer_id message
    (env.draw 0).generate (env.draw 0).time_us) w.node.encryption_service = done at hopens ⊢
  cases hopens with
  | @nothing result svc' hresult hsessions =>
    have hsame : Same peer_id w { w with node := { w.node with encryption_service := svc' } } := by
      refine ⟨?_, rfl, rfl⟩
      show svc'.sessions.has peer_id = true ↔ _
      rw [hsessions]
      exact Iff.rfl
    refine ⟨[], ?_⟩
    cases result with
    | error e => exact hsame.wakes
    | ok answer =>
      obtain ⟨response, authenticated⟩ := answer
      obtain rfl : authenticated = none := hresult _ rfl
      exact hsame.wakes
  | @session response session svc' hsessions =>
    have hopen : svc'.sessions.has peer_id = true := by
      rw [hsessions]
      exact Dict.has_set_self _ _ _
    refine ⟨[.send_pending_private_messages peer_id], by simp, fun _ => hopen, fun _ =>
      hopen, rfl, ?_⟩
    show tasks_for peer_id (w.out ++ _) = _
    rw [tasks_for_append]
    simp [tasks_for, tasks, concerns]

/-- A handshake message of another peer. -/
theorem kept_process (env : Env) {peer_id' : Str} (h : peer_id' ≠ peer_id) (message : Bytes) :
    Moves (Kept peer_id) (process_handshake_message env peer_id' message) := by
  intro w
  have hopens := opens_process peer_id' message (env.draw 0).generate (env.draw 0).time_us
    w.node.encryption_service
  unfold process_handshake_message
  simp only [exec_bind, exec_onService]
  generalize exec (EncryptionService.process_handshake_message peer_id' message
    (env.draw 0).generate (env.draw 0).time_us) w.node.encryption_service = done at hopens ⊢
  cases hopens with
  | @nothing result svc' hresult hsessions =>
    have hsame : Same peer_id w { w with node := { w.node with encryption_service := svc' } } := by
      refine ⟨?_, rfl, rfl⟩
      show svc'.sessions.has peer_id = true ↔ _
      rw [hsessions]
      exact Iff.rfl
    cases result with
    | error e => exact hsame.kept
    | ok answer =>
      obtain ⟨response, authenticated⟩ := answer
      obtain rfl : authenticated = none := hresult _ rfl
      exact hsame.kept
  | @session response session svc' hsessions =>
    refine Same.kept ⟨?_, rfl, ?_⟩
    · show svc'.sessions.has peer_id = true ↔ _
      rw [hsessions, Dict.has_set_ne _ _ h]
      exact Iff.rfl
    · show tasks_for peer_id (w.out ++ _) = _
      rw [tasks_for_append]
      simp [tasks_for, tasks, concerns, h]

/-- Clearing a handshake does not touch the sessions. -/
theorem same_clear_handshake (peer_id' : Str) (w : World) :
    Same peer_id w (exec (modifyNode fun self => { self with
      encryption_service := self.encryption_service.clear_handshake_state peer_id' }) w).2 :=
  ⟨Iff.rfl, rfl, rfl⟩

theorem session_established_returns (peer_id : Str) (w : World) :
    (exec (session_established peer_id) w).1 = .ok () := by
  unfold session_established send_pending_private_messages
  simp only [exec_bind, exec_node, exec_ite, exec_modifyNode, exec_pure, exec_emit]
  split
  · split <;> rfl
  · rfl

theorem outcome_session_established {woken : List Later} {w v v' : World}
    (h : Wakes peer_id woken w v) (hkept : Kept peer_id v v') :
    Outcome peer_id w (exec (session_established peer_id) v').2 := by
  unfold session_established
  simp only [exec_bind, exec_node, exec_ite, exec_modifyNode, exec_pure]
  split
  · rename_i hsession
    rcases hkept with hsame | hgone
    · have hawake : Wakes peer_id woken w { v' with node := { v'.node with
          handshake_attempt_times := v'.node.handshake_attempt_times.pop peer_id } } :=
        ⟨h.only, fun _ => hsession, fun _ => hsession, hsame.queue.trans h.queue,
          hsame.tasks.trans h.tasks⟩
      exact hawake.then_flush hsession
    · exact absurd hsession hgone.session
  · exact h.then_kept hkept

/-- What a handshake packet of the peer leads to. -/
theorem outcome_handle_noise_handshake (env : Env) (answer : MessageType) {packet : BitchatPacket}
    (hsender : packet.sender_id_str = peer_id) (w : World) :
    Outcome peer_id w (exec (handle_noise_handshake answer env packet) w).2 := by
  unfold handle_noise_handshake
  simp only [exec_bind, exec_node, exec_ite, exec_pure, exec_attempt]
  split
  · exact (refl_of (Kept peer_id) w).outcome
  · unfold take_handshake
    rw [hsender]
    obtain ⟨woken, hwakes⟩ := wakes_process peer_id env packet.payload w
    rcases hprocess : exec (process_handshake_message env peer_id packet.payload) w with ⟨result, v⟩
    rw [hprocess] at hwakes
    cases result with
    | error e =>
      rw [exec_bind_error _ hprocess]
      exact hwakes.then_kept (same_clear_handshake _ v).kept
    | ok response =>
      rw [exec_bind_ok _ hprocess]
      have hkept := (steady_kept peer_id env).answer_handshake answer peer_id response v
      rcases hanswer : exec (answer_handshake answer env peer_id response) v with ⟨result, v'⟩
      rw [hanswer] at hkept
      cases result with
      | error e =>
        rw [exec_bind_error _ hanswer]
        exact hwakes.then_kept (trans_of (Kept peer_id) hkept (same_clear_handshake _ v').kept)
      | ok _ =>
        rw [exec_bind_ok _ hanswer]
        have houtcome := outcome_session_established hwakes hkept
        have hreturns := session_established_returns peer_id v'
        rcases hdone : exec (session_established peer_id) v' with ⟨result, w'⟩
        rw [hdone] at houtcome hreturns
        obtain rfl : result = .ok () := hreturns
        exact houtcome

theorem outcome_handle_key_exchange (env : Env) {packet : BitchatPacket}
    (hsender : packet.sender_id_str = peer_id) (w : World) :
    Outcome peer_id w (exec (handle_key_exchange env packet) w).2 := by
  unfold handle_key_exchange
  simp only [exec_suppress]
  rw [exec_bind_ok _ (exec_node w), hsender]
  obtain ⟨woken, hwakes⟩ := wakes_process peer_id env packet.payload w
  rcases hprocess : exec (process_handshake_message env peer_id packet.payload) w with ⟨result, v⟩
  rw [hprocess] at hwakes
  cases result with
  | error e =>
    rw [exec_bind_error _ hprocess]
    exact hwakes.then_kept (refl_of (Kept peer_id) v)
  | ok response =>
    rw [exec_bind_ok _ hprocess]
    cases response with
    | none => exact hwakes.then_kept (refl_of (Kept peer_id) v)
    | some response =>
      have hsend : Moves (Kept peer_id) (do
          let resp_packet ← outcome (create_bitchat_packet w.node.my_peer_id.str .KEY_EXCHANGE
            response (env.draw 1))
          send_to_peer env peer_id resp_packet) :=
        Moves.bind (Moves.outcome _) fun _ => (steady_kept peer_id env).send_to_peer _ _
      exact hwakes.then_kept (hsend v)

section

variable {packet : BitchatPacket} (h : packet.sender_id_str ≠ peer_id)

theorem kept_send_pending {peer_id' : Str} (h : peer_id' ≠ peer_id) :
    Moves (Kept peer_id) (send_pending_private_messages peer_id') := by
  unfold send_pending_private_messages
  refine Moves.bind moves_node fun self => ?_
  refine Moves.bind ?_ fun _ => Moves.ite (Moves.pure ()) (kept_emit ?_)
  · intro w
    refine Same.kept ⟨Iff.rfl, ?_, rfl⟩
    show ((w.node.pending_private_messages.pop peer_id').get? peer_id).getD [] = _
    rw [Dict.get?_pop_ne _ h]
    rfl
  · simp [tasks_for, tasks, concerns, h]

include h in
theorem kept_handle_noise_handshake (env : Env) (answer : MessageType) :
    Moves (Kept peer_id) (handle_noise_handshake answer env packet) := by
  unfold handle_noise_handshake
  refine Moves.bind moves_node fun self => ?_
  refine Moves.ite (Moves.pure ()) ?_
  refine Moves.bind (Moves.attempt ?_) fun result => ?_
  · unfold take_handshake
    refine Moves.bind (kept_process env h _) fun response => ?_
    refine Moves.bind ((steady_kept peer_id env).answer_handshake answer _ response) fun _ => ?_
    unfold session_established
    refine Moves.bind moves_node fun self => ?_
    refine Moves.ite ?_ (Moves.pure ())
    exact Moves.bind (kept_modifyNode fun _ => ⟨rfl, rfl⟩) fun _ => kept_send_pending h
  · cases result with
    | ok _ => exact Moves.pure ()
    | error e => exact kept_modifyNode fun _ => ⟨rfl, rfl⟩

include h in
theorem kept_handle_key_exchange (env : Env) :
    Moves (Kept peer_id) (handle_key_exchange env packet) := by
  unfold handle_key_exchange
  refine Moves.suppress (Moves.bind moves_node fun self => ?_)
  refine Moves.bind (kept_process env h _) fun response => ?_
  cases response with
  | none => exact Moves.pure ()
  | some response =>
    exact Moves.bind (Moves.outcome _) fun _ => (steady_kept peer_id env).send_to_peer _ _

end

/-! ## Events -/

theorem kept_relay (raw : Bytes) (ttl : UInt8) : Moves (Kept peer_id) (relay raw ttl) := by
  unfold relay
  exact Moves.ite (Moves.pure ()) (kept_emit rfl)

theorem kept_deliver (message : BitchatMessage) (sender_id : Str) (is_private : Bool) :
    Moves (Kept peer_id) (deliver message sender_id is_private) := by
  unfold deliver
  refine Moves.bind moves_node fun self => ?_
  split
  · exact Moves.throw _
  · exact Moves.bind (kept_modifyNode fun _ => ⟨rfl, rfl⟩) fun _ => kept_emit rfl

/-- A packet other than a handshake of the peer. -/
theorem kept_handle (env : Env) {packet : BitchatPacket} (raw : Bytes)
    (hhandshake : packet.msg_type = .NOISE_HANDSHAKE_INIT ∨
      packet.msg_type = .NOISE_HANDSHAKE_RESP → packet.sender_id_str ≠ peer_id)
    (hkey : packet.msg_type = .KEY_EXCHANGE → packet.sender_id_str ≠ peer_id) :
    Moves (Kept peer_id) (handle env packet raw) := by
  refine (steady_kept peer_id env).handle (kept_relay raw packet.ttl) ?_ ?_ ?_ ?_ ?_ ?_
  · exact fun _ message is_private w _ => kept_deliver message _ is_private w
  · exact fun _ w => (same_announced _ _ w).kept
  · exact fun _ => kept_handle_noise_identity_announce env packet
  · exact fun _ => Moves.ite (Moves.pure ()) (kept_remove_peer _)
  · exact fun htype answer => kept_handle_noise_handshake (hhandshake htype) env answer
  · exact fun htype => kept_handle_key_exchange (hkey htype) env

theorem outcome_handle (env : Env) (packet : BitchatPacket) (raw : Bytes) (w : World) :
    Outcome peer_id w (exec (handle env packet raw) w).2 := by
  by_cases hsender : packet.sender_id_str = peer_id
  · by_cases hinit : packet.msg_type = .NOISE_HANDSHAKE_INIT
    · have hhandle : handle env packet raw =
          handle_noise_handshake .NOISE_HANDSHAKE_RESP env packet :=
        handle_of_handler (by rw [handler, hinit]; rfl)
      rw [hhandle]
      exact outcome_handle_noise_handshake env _ hsender w
    · by_cases hresp : packet.msg_type = .NOISE_HANDSHAKE_RESP
      · have hhandle : handle env packet raw =
            handle_noise_handshake .NOISE_HANDSHAKE_INIT env packet :=
          handle_of_handler (by rw [handler, hresp]; rfl)
        rw [hhandle]
        exact outcome_handle_noise_handshake env _ hsender w
      · by_cases hkey : packet.msg_type = .KEY_EXCHANGE
        · have hhandle : handle env packet raw = handle_key_exchange env packet :=
            handle_of_handler (by rw [handler, hkey])
          rw [hhandle]
          exact outcome_handle_key_exchange env hsender w
        · refine (kept_handle env raw ?_ ?_ w).outcome
          · exact fun h => (h.elim hinit hresp).elim
          · exact fun h => (hkey h).elim
  · exact (kept_handle env raw (fun _ => hsender) (fun _ => hsender) w).outcome

theorem outcome_on_packet_received (env : Env) (conn : PeerConnection) (raw : Bytes) (w : World) :
    Outcome peer_id w (exec (on_packet_received env conn raw) w).2 := by
  rcases hparse : parse_bitchat_packet raw with e | packet
  · unfold on_packet_received
    simp only [exec_bind, exec_node, hparse]
    exact (refl_of (Kept peer_id) w).outcome
  · by_cases hown : packet.sender_id_str = w.node.my_peer_id.str
    · unfold on_packet_received
      simp only [exec_bind, exec_node, hparse, hown, if_true, exec_pure]
      exact (refl_of (Kept peer_id) w).outcome
    · rw [exec_on_packet_received hparse hown]
      -- filing the sender's address changes nothing about the private messages
      have hheard : Same peer_id w (w.heard packet.sender_id_str conn.address) :=
        ⟨Iff.rfl, rfl, rfl⟩
      exact (outcome_handle env packet raw _).of_same hheard

/-! ## Private messages -/

/-- Starting a handshake where it is due. -/
theorem kept_attempt_if_due (env : Env) {peer_id' : Str} (current_time : UInt64) {w : World}
    (h : peer_id' ≠ peer_id ∨ ¬ has_session peer_id w.node) :
    Kept peer_id w (exec (attempt_if_due env peer_id' current_time) w).2 := by
  have hattempt : Kept peer_id w (exec (attempt_handshake env peer_id' current_time) w).2 := by
    unfold attempt_handshake
    rw [exec_bind_ok _ (exec_modifyNode _ w)]
    have hnoted : Same peer_id w { w with node := { w.node with
        handshake_attempt_times := w.node.handshake_attempt_times.set peer_id' current_time } } :=
      ⟨Iff.rfl, rfl, rfl⟩
    exact trans_of (Kept peer_id) hnoted.kept (kept_initiate_handshake env h)
  unfold attempt_if_due
  simp only [exec_bind, exec_node]
  split
  · simp only [exec_ite, exec_pure]
    split
    · exact refl_of (Kept peer_id) w
    · exact hattempt
  · exact hattempt

/-- The world once the message is in the queue. -/
def World.queued (w : World) (peer_id : Str) (message : Str × Str × Str) : World :=
  { w with node := { w.node with
    pending_private_messages := w.node.pending_private_messages.set peer_id
      (queue peer_id w.node ++ [message]) } }

/-- The id under which a message is queued. -/
def queued_id (env : Env) (message_id : Option Str) : Str :=
  if message_id.getD [] ≠ [] then message_id.getD [] else (env.draw 0).uuid.str

/-- Without a session the message goes to the queue, and a handshake may start. -/
theorem kept_queue_private_message (env : Env) (content nickname : Str) (message_id : Option Str)
    {w : World} (h : ¬ has_session peer_id w.node) :
    Kept peer_id (w.queued peer_id (content, nickname, queued_id env message_id))
      (exec (queue_private_message env content peer_id nickname message_id) w).2 := by
  unfold queue_private_message
  rw [exec_bind_ok _ (exec_node w), exec_bind_ok _ (exec_modifyNode _ w)]
  refine Moves.bind_from ?_ fun _ => Moves.pure _
  have hsession : ¬ has_session peer_id
      (w.queued peer_id (content, nickname, queued_id env message_id)).node := h
  exact kept_attempt_if_due (env.skip 2) (env.draw 1).time_us (.inr hsession)

/-- A private message for another peer. -/
theorem kept_send_private_message (env : Env) {peer_id' : Str} (h : peer_id' ≠ peer_id)
    (content nickname : Str) (message_id : Option Str) :
    Moves (Kept peer_id) (send_private_message env content peer_id' nickname message_id) := by
  unfold send_private_message
  refine Moves.bind moves_node fun self => ?_
  apply Moves.ite
  · exact (steady_kept peer_id env).encrypt_private_message content peer_id'
  · unfold queue_private_message
    refine Moves.bind moves_node fun self => ?_
    refine Moves.bind ?_ fun _ => ?_
    · intro w
      refine Same.kept ⟨Iff.rfl, ?_, rfl⟩
      show ((w.node.pending_private_messages.set peer_id' _).get? peer_id).getD [] = _
      rw [Dict.get?_set_ne _ _ h]
      rfl
    · exact Moves.bind (fun w => kept_attempt_if_due _ _ (.inl h)) fun _ => Moves.pure _

/-- A task that sends no private message to the peer. -/
theorem kept_run_later (env : Env) {task : Later} (h : concerns peer_id task = false) :
    Moves (Kept peer_id) (run_later env task) := by
  cases task with
  | relay raw ttl => exact (steady_kept peer_id env).raw_send _
  | send_pending_private_messages peer_id' =>
    exact kept_send_pending (of_decide_eq_false h)
  | send_each peer_id' messages =>
    have hother : peer_id' ≠ peer_id := of_decide_eq_false h
    cases messages with
    | nil => exact Moves.pure ()
    | cons m rest =>
      unfold run_later
      refine Moves.bind (Moves.suppress (kept_send_private_message env hother _ _ _)) fun _ => ?_
      unfold sleep_before_next
      apply Moves.ite
      · exact Moves.pure ()
      · exact kept_emit (by simp [tasks_for, tasks, concerns, hother])

/-- An event that neither is a private message for the peer nor a task. -/
theorem outcome_react (env : Env) {event : Event} (hlater : ∀ task, event ≠ .later task)
    (hprivate : ∀ content nickname message_id,
      event ≠ .private_message content peer_id nickname message_id) (w : World) :
    Outcome peer_id w (exec (react env event) w).2 := by
  have hsteady := steady_kept peer_id env
  cases event with
  | packet conn raw => exact outcome_on_packet_received env conn raw w
  | later task => exact absurd rfl (hlater task)
  | connected conn => exact Kept.outcome (Same.kept ⟨Iff.rfl, rfl, rfl⟩)
  | read_done conn => exact (kept_on_read_done conn w).outcome
  | disconnect addr =>
    have hdisconnect : Moves (Kept peer_id) (disconnect addr) := by
      unfold disconnect
      refine Moves.bind moves_node fun self => ?_
      split
      · exact Moves.throw _
      · refine Moves.bind (kept_modifyNode fun _ => ⟨rfl, rfl⟩) fun _ => ?_
        exact kept_on_peer_disconnected _
    exact (hdisconnect w).outcome
  | announce => exact (hsteady.send_announce w).outcome
  | identity_announce => exact (hsteady.send_identity_announce w).outcome
  | leave => exact (hsteady.send_leave w).outcome
  | save => exact (hsteady.save_state w).outcome
  | set_name nickname =>
    have hname : Moves (Kept peer_id) (handle_set_name env nickname) := by
      unfold handle_set_name
      refine Moves.ite (Moves.pure ()) ?_
      refine Moves.bind (kept_modifyNode fun _ => ⟨rfl, rfl⟩) fun _ => ?_
      exact Moves.bind hsteady.save_state fun _ => hsteady.send_announce
    exact (hname w).outcome
  | channel_announce channel is_protected key_commitment =>
    exact (hsteady.send_channel_announce channel is_protected key_commitment w).outcome
  | public_message content channel =>
    exact (Moves.map _ (hsteady.send_public_message content channel) w).outcome
  | private_message content target_peer_id nickname message_id =>
    have hother : target_peer_id ≠ peer_id := by
      rintro rfl
      exact hprivate content nickname message_id rfl
    exact (Moves.map _ (kept_send_private_message env hother content nickname message_id) w).outcome

end daemon
