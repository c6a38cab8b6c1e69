-- Whether the private messages for one peer go out in the order in which they
-- were passed to `send_private_message`. A message that finds a session does
-- not wait for those before it, and one that is not written is not kept.
import BitchatNode.Queues
import BitchatNode.MessageCodec
import BitchatNode.NonceSync
import BitchatNode.PeerLoss
import BitchatNode.Systems

namespace daemon

open python bitchat bitchat.protocol bitchat.encryption systems

variable [Packages]

/-! ## A node and its tasks -/

/-- A node, the tasks that it has put off and not run yet, the contents that
were passed to `send_private_message` for one peer, and those that were
encrypted for the peer and written to its connection. -/
structure Outbox where
  world : World
  waiting : List Later
  passed : List Str
  written : List Str

/-- An event other than a task, or the task at an index. -/
inductive Turn
  | event (env : Env) (event : Event)
  | run (env : Env) (index : Nat)

/-- The tasks that were put off from `w` to `w'`. -/
def new_tasks (w w' : World) : List Later := (tasks w'.out).drop (tasks w.out).length

/-- The content that the event passes to `send_private_message` for the peer. -/
def passes_on (peer_id : Str) : Event → Option Str
  | .private_message content target_peer_id _ _ =>
    if target_peer_id = peer_id then some content else none
  | _ => none

/-- The content that the task passes on to `send_private_message`. -/
def resumes (peer_id : Str) : Later → Option Str
  | .send_each peer_id' ((content, _, _) :: _) =>
    if peer_id' = peer_id then some content else none
  | _ => none

/-- There is a session to encrypt a message, and a frame was written. -/
def SentOver (peer_id : Str) (w w' : World) : Prop :=
  has_session peer_id w.node ∧ (writes w.out).length < (writes w'.out).length

instance (peer_id : Str) (w w' : World) : Decidable (SentOver peer_id w w') :=
  inferInstanceAs (Decidable (_ ∧ _))

/-- The content, if a message with it was sent. -/
def sent_content (peer_id : Str) (w w' : World) (content : Option Str) : List Str :=
  if SentOver peer_id w w' then content.toList else []

def Outbox.take (s : Outbox) (peer_id : Str) : Turn → Option Outbox
  | .event _ (.later _) => none
  | .event env event =>
    let w' := (exec (react env event) s.world).2
    some {
      world := w'
      waiting := s.waiting ++ new_tasks s.world w'
      passed := s.passed ++ (passes_on peer_id event).toList
      written := s.written ++ sent_content peer_id s.world w' (passes_on peer_id event) }
  | .run env index =>
    (s.waiting[index]?).map fun task =>
      let w' := (exec (run_later env task) s.world).2
      { world := w'
        waiting := s.waiting.eraseIdx index ++ new_tasks s.world w'
        passed := s.passed
        written := s.written ++ sent_content peer_id s.world w' (resumes peer_id task) }

def outbox (peer_id : Str) : System Outbox Turn where
  start s := ∃ my_peer_id config_nickname app_state static_identity_key,
    s = ⟨⟨.init my_peer_id config_nickname app_state static_identity_key, []⟩, [], [], []⟩
  step s turn := s.take peer_id turn

/-- The peer was removed from `s` to `s'`: the node has neither a session nor a
queue for it any more, though it had one, or got a message for it, or has put
off a task for it. -/
def Removes (peer_id : Str) (s s' : Outbox) : Prop :=
  ¬ has_session peer_id s'.world.node ∧ queue peer_id s'.world.node = [] ∧
    (has_session peer_id s.world.node ∨ queue peer_id s.world.node ≠ [] ∨ s'.passed ≠ s.passed ∨
      ∃ task ∈ s'.waiting, concerns peer_id task = true)

instance (peer_id : Str) (s s' : Outbox) : Decidable (Removes peer_id s s') :=
  inferInstanceAs (Decidable (_ ∧ _))

/-- The step does not remove the peer. -/
def Spares (peer_id : Str) (s : Outbox) (turn : Turn) : Prop :=
  ∀ s', s.take peer_id turn = some s' → ¬ Removes peer_id s s'

/-! ## When a message gets out -/

/-- A message for the peer can be sealed, fits a frame, and its connection is
there and takes it. -/
structure Deliverable (env : Env) (peer_id content : Str) (n : MeshNode) : Prop where
  peer : ∃ id, hex id = peer_id
  nickname : (encode n.nickname).length ≤ 255
  fits : (encode n.nickname).length + (encode content).length ≤ 65393
  nonces : ∃ session ∈ n.encryption_service.sessions.get? peer_id,
    session.send_cipher.key.isSome = true ∧ session.send_cipher.nonce < NoiseCipherState.NONCES
  conn : ∃ conn ∈ n.get_conn_for_peer peer_id, env.write_fails conn.address = false

/-- A packet for a peer, built under the peer's id as it is read. -/
theorem create_for_peer (sender : PeerId) (id : Bytes) {msg_type : MessageType} (payload : Bytes)
    (draw : Draw) (htype : msg_type ∉ exclude_recipient_types) (h : payload.length < 65536) :
    ∃ packet, create_bitchat_packet_with_recipient sender.str (some (hex id)) msg_type payload none
        draw = .ok packet ∧
      (packet.length = 30 + payload.length ∨
        30 + payload.length ≤ packet.length ∧ packet.length ≤ 2048) := by
  obtain ⟨packet, hpacket, his⟩ := create_ok sender (PeerId.ofRead id) msg_type payload none draw h
  refine ⟨packet, ?_, ?_⟩
  · rw [create_answer _ _ _ _ _ _ htype]
    exact hpacket
  · have hsize := his.size
    unfold bare_length at hsize
    rw [length_recipient_field, if_pos (.inr htype)] at hsize
    simp only [Option.getD_none, List.length_nil] at hsize
    omega

/-- The message is sealed and written in one frame. -/
theorem exec_encrypt_private_message [LawfulCrypto] {env : Env} {peer_id content : Str} {w : World}
    (h : Deliverable env peer_id content w.node) :
    Same peer_id w (exec (encrypt_private_message env content peer_id) w).2 ∧
      (writes (exec (encrypt_private_message env content peer_id) w).2.out).length =
        (writes w.out).length + 1 := by
  obtain ⟨id, rfl⟩ := h.peer
  obtain ⟨session, hsession, hsome, hnonce⟩ := h.nonces
  obtain ⟨key, hkey⟩ := Option.isSome_iff_exists.mp hsome
  obtain ⟨conn, hconn, hopen⟩ := h.conn
  have hfits := h.fits
  have hpayload : PayloadFits w.node.nickname (payload_bytes content false none)
      w.node.my_peer_id.str [] := by
    refine ⟨h.nickname, ?_, peer_id_fits w.node.my_peer_id, Nat.zero_le _⟩
    show (encode content).length ≤ 65535
    omega
  obtain ⟨payload, message, hcreate, hlength, -, -⟩ :=
    private_payload w.node.nickname w.node.my_peer_id content (env.draw 0) hpayload
  obtain ⟨inner, hinner, hinner_size⟩ := create_for_peer w.node.my_peer_id id payload (env.draw 2)
    (by decide : MessageType.MESSAGE ∉ exclude_recipient_types) (by omega)
  have hseal := exec_encrypt (n := session.send_cipher.nonce) (m := session.receive_cipher.nonce)
    hsession hkey hnonce (with_ttl inner 7)
  unfold encrypt_private_message
  rw [exec_bind_ok _ (exec_node w)]
  simp only [hcreate, hinner, exec_bind, exec_outcome_ok, exec_modifyNode,
    EncryptionService.encrypt_for_peer, exec_onService, hseal]
  generalize hciphertext : Crypto.chacha_encrypt key
    (NoiseCipherState.nonce_bytes session.send_cipher.nonce) (with_ttl inner 7) [] = ciphertext
  have hciphertext_size : ciphertext.length = inner.length + 16 := by
    rw [← hciphertext, LawfulCrypto.length_chacha_encrypt]
    simp [with_ttl]
  obtain ⟨outer, houter, houter_size⟩ := create_for_peer w.node.my_peer_id id ciphertext
    (env.draw 3)
    (by decide : MessageType.NOISE_ENCRYPTED ∉ exclude_recipient_types) (by omega)
  simp only [houter, exec_outcome_ok]
  generalize hsealed : World.mk _ _ = sealed
  have hconn' : sealed.node.get_conn_for_peer (hex id) = some conn := by
    rw [← hsealed]
    exact hconn
  rw [exec_send_to_peer hconn' (by omega) hopen, ← hsealed]
  simp only [exec_pure]
  refine ⟨⟨?_, rfl, ?_⟩, ?_⟩
  · show (w.node.encryption_service.sessions.set (hex id) _).has (hex id) = true ↔ _
    rw [Dict.has_set_of_get? hsession]
    exact Iff.rfl
  · show tasks_for (hex id) (w.out ++ _) = _
    rw [tasks_for_append]
    exact List.append_nil _
  · show (writes (w.out ++ _)).length = _
    rw [writes_append, List.length_append]
    rfl

/-- Each message that finds a session gets out, and no earlier one is waiting
then: neither in the queue nor in a task. -/
def InTurn (peer_id : Str) (s : Outbox) : Turn → Prop
  | .event env event => ∀ content, passes_on peer_id event = some content →
      has_session peer_id s.world.node →
        queue peer_id s.world.node = [] ∧ (∀ task ∈ s.waiting, resumes peer_id task = none) ∧
          Deliverable env peer_id content s.world.node
  | .run env index => ∀ task content, s.waiting[index]? = some task →
      resumes peer_id task = some content → has_session peer_id s.world.node →
        Deliverable env peer_id content s.world.node

/-! ## The tasks of one peer -/

/-- The messages that a running flush has not sent yet. -/
def flush_of (peer_id : Str) : Later → Option (List (Str × Str × Str))
  | .send_each peer_id' messages => if peer_id' = peer_id then some messages else none
  | _ => none

variable {peer_id : Str}

omit [Packages] in
theorem concerns_of_flush {task : Later} {messages : List (Str × Str × Str)}
    (h : flush_of peer_id task = some messages) : task = .send_each peer_id messages := by
  cases task with
  | send_each peer_id' messages' =>
    simp only [flush_of] at h
    split at h
    · rename_i heq
      rw [heq, Option.some.inj h]
    · cases h
  | _ => cases h

omit [Packages] in
theorem flushes_filter (ts : List Later) :
    (ts.filter (concerns peer_id)).filterMap (flush_of peer_id) =
      ts.filterMap (flush_of peer_id) := by
  rw [List.filterMap_filter]
  congr 1
  funext task
  cases hconcerns : concerns peer_id task with
  | true => rfl
  | false =>
    cases hflush : flush_of peer_id task with
    | none => rfl
    | some messages =>
      rw [concerns_of_flush hflush] at hconcerns
      simp [concerns] at hconcerns

theorem new_tasks_filter {w w' : World} (hgrows : Grows w w') {new : List Later}
    (h : tasks_for peer_id w'.out = tasks_for peer_id w.out ++ new) :
    (new_tasks w w').filter (concerns peer_id) = new := by
  obtain ⟨more, hmore⟩ := hgrows
  unfold tasks_for at h
  unfold new_tasks
  rw [← hmore, tasks_append, List.filter_append] at h
  rw [← hmore, tasks_append, List.drop_left]
  exact List.append_cancel_left h

/-! ## In order -/

/-- What the node holds of the messages for the peer: those that a flush has
not sent yet, and behind them the queue. -/
structure Fifo (peer_id : Str) (s : Outbox) (rest : List (Str × Str × Str)) : Prop where
  ready : ∀ task ∈ s.waiting, concerns peer_id task = true → has_session peer_id s.world.node
  flush : s.waiting.filterMap (flush_of peer_id) = if rest = [] then [] else [rest]
  alone : rest ≠ [] → queue peer_id s.world.node = []
  order : s.passed = s.written ++ rest.map Prod.fst ++ (queue peer_id s.world.node).map Prod.fst

/-- A message that a flush has not sent yet means that there is a session. -/
theorem Fifo.session {s : Outbox} {rest : List (Str × Str × Str)} (h : Fifo peer_id s rest)
    (hrest : rest ≠ []) : has_session peer_id s.world.node := by
  have hflush := h.flush
  rw [if_neg hrest] at hflush
  obtain ⟨task, hmem, hflush_of⟩ := List.mem_filterMap.mp
    (hflush ▸ List.mem_singleton_self rest : rest ∈ s.waiting.filterMap (flush_of peer_id))
  refine h.ready task hmem ?_
  rw [concerns_of_flush hflush_of]
  simp [concerns]

/-- The tasks that wait once the world has moved, if it put off `new` ones for
the peer. -/
theorem Fifo.waiting {s s' : Outbox} {rest : List (Str × Str × Str)} (h : Fifo peer_id s rest)
    (hgrows : Grows s.world s'.world) (hwaiting :
      s'.waiting = s.waiting ++ new_tasks s.world s'.world)
    {new : List Later}
    (htasks : tasks_for peer_id s'.world.out = tasks_for peer_id s.world.out ++ new) :
    s'.waiting.filterMap (flush_of peer_id) =
        (if rest = [] then [] else [rest]) ++ new.filterMap (flush_of peer_id) ∧
      ∀ task ∈ s'.waiting, concerns peer_id task = true →
        has_session peer_id s.world.node ∨ task ∈ new := by
  have hfilter := new_tasks_filter hgrows htasks
  refine ⟨?_, ?_⟩
  · rw [hwaiting, List.filterMap_append, h.flush, ← flushes_filter (new_tasks _ _), hfilter]
  · intro task hmem hconcerns
    rw [hwaiting] at hmem
    rcases List.mem_append.mp hmem with hold | hmore
    · exact .inl (h.ready task hold hconcerns)
    · right
      rw [← hfilter]
      exact List.mem_filter.mpr ⟨hmore, hconcerns⟩

omit [Packages] in
theorem no_flush {woken : List Later}
    (only : ∀ task ∈ woken, task = .send_pending_private_messages peer_id) :
    woken.filterMap (flush_of peer_id) = [] := by
  rw [List.filterMap_eq_nil_iff]
  intro task hmem
  rw [only task hmem]
  rfl

/-- A step that brings no message for the peer. -/
theorem Fifo.outcome {s s' : Outbox} {rest : List (Str × Str × Str)} (h : Fifo peer_id s rest)
    (houtcome : Outcome peer_id s.world s'.world) (hgrows : Grows s.world s'.world)
    (hwaiting : s'.waiting = s.waiting ++ new_tasks s.world s'.world)
    (hpassed : s'.passed = s.passed) (hwritten : s'.written = s.written)
    (hspares : ¬ Removes peer_id s s') : ∃ rest', Fifo peer_id s' rest' := by
  cases houtcome with
  | gone woken only session queue tasks =>
    -- there was nothing to lose
    obtain ⟨hflush, -⟩ := h.waiting hgrows hwaiting tasks
    have hnothing : ¬ (has_session peer_id s.world.node ∨ daemon.queue peer_id s.world.node ≠ [] ∨
        s'.passed ≠ s.passed ∨ ∃ task ∈ s'.waiting, concerns peer_id task = true) :=
      fun hsome => hspares ⟨session, queue, hsome⟩
    simp only [not_or, not_exists, not_and, ne_eq, not_not] at hnothing
    obtain ⟨hnone, hempty, -, hidle⟩ := hnothing
    have hrest : rest = [] := by
      by_contra hrest
      exact hnone (h.session hrest)
    refine ⟨rest, ?_, ?_, fun _ => queue, ?_⟩
    · intro task hmem hconcerns
      exact absurd hconcerns (hidle task hmem)
    · rw [hflush, no_flush only, List.append_nil]
    · rw [hpassed, hwritten, queue, h.order, hempty]
  | kept woken hwakes =>
    obtain ⟨hflush, hready⟩ := h.waiting hgrows hwaiting hwakes.tasks
    refine ⟨rest, ?_, ?_, ?_, ?_⟩
    · intro task hmem hconcerns
      rcases hready task hmem hconcerns with hsession | hwoken
      · exact hwakes.session hsession
      · exact hwakes.awake (List.ne_nil_of_mem hwoken)
    · rw [hflush, no_flush hwakes.only, List.append_nil]
    · rw [hwakes.queue]
      exact h.alone
    · rw [hwakes.queue, hpassed, hwritten]
      exact h.order
  | flushed woken only session some queue tasks =>
    -- the queue goes to a flush, and no other flush is running
    have hrest : rest = [] := by
      by_contra hrest
      exact some (h.alone hrest)
    obtain ⟨hflush, -⟩ := h.waiting hgrows hwaiting tasks
    refine ⟨daemon.queue peer_id s.world.node, fun _ _ _ => session, ?_, fun _ => queue, ?_⟩
    · rw [hflush, if_pos hrest, List.filterMap_append, no_flush only, if_neg some]
      simp [flush_of]
    · rw [hpassed, hwritten, queue, h.order, hrest]
      simp

/-! ## Taking a task -/

omit [Packages] in
theorem filterMap_eraseIdx (peer_id : Str) {ts : List Later} {i : Nat} {task : Later}
    (h : ts[i]? = some task) :
    ts.filterMap (flush_of peer_id) =
        (ts.take i).filterMap (flush_of peer_id) ++ ((flush_of peer_id task).toList ++
          (ts.drop (i + 1)).filterMap (flush_of peer_id)) ∧
      (ts.eraseIdx i).filterMap (flush_of peer_id) =
        (ts.take i).filterMap (flush_of peer_id) ++
          (ts.drop (i + 1)).filterMap (flush_of peer_id) := by
  obtain ⟨hlt, hget⟩ := List.getElem?_eq_some_iff.mp h
  refine ⟨?_, ?_⟩
  · conv_lhs => rw [← List.take_append_drop i ts, List.drop_eq_getElem_cons hlt, hget]
    rw [List.filterMap_append, List.filterMap_cons]
    cases flush_of peer_id task <;> rfl
  · rw [List.eraseIdx_eq_take_drop_succ, List.filterMap_append]

/-- The state without the task that is run. -/
def Outbox.without (s : Outbox) (index : Nat) : Outbox :=
  { s with waiting := s.waiting.eraseIdx index }

/-- A task that is not a flush is taken. -/
theorem Fifo.without {s : Outbox} {rest : List (Str × Str × Str)} (h : Fifo peer_id s rest)
    {index : Nat} {task : Later} (hget : s.waiting[index]? = some task)
    (hflush : flush_of peer_id task = none) : Fifo peer_id (s.without index) rest := by
  obtain ⟨hwhole, herased⟩ := filterMap_eraseIdx peer_id hget
  refine ⟨?_, ?_, h.alone, h.order⟩
  · intro task hmem hconcerns
    exact h.ready task (List.mem_of_mem_eraseIdx hmem) hconcerns
  · rw [← h.flush, hwhole, hflush]
    exact herased

/-- The flush is taken, and no other one is left. -/
theorem Fifo.take_flush {s : Outbox} {rest messages : List (Str × Str × Str)}
    (h : Fifo peer_id s rest) {index : Nat}
    (hget : s.waiting[index]? = some (.send_each peer_id messages)) :
    messages = rest ∧ rest ≠ [] ∧
      (s.waiting.eraseIdx index).filterMap (flush_of peer_id) = [] := by
  obtain ⟨hwhole, herased⟩ := filterMap_eraseIdx peer_id hget
  have hflush := h.flush
  have hself : flush_of peer_id (.send_each peer_id messages) = some messages := by
    simp [flush_of]
  rw [hwhole, hself, Option.toList_some] at hflush
  by_cases hrest : rest = []
  · rw [if_pos hrest] at hflush
    simp at hflush
  · rw [if_neg hrest] at hflush
    rw [herased]
    have hlength := congrArg List.length hflush
    simp only [List.length_append, List.length_singleton] at hlength
    have hbefore : (s.waiting.take index).filterMap (flush_of peer_id) = [] := by
      apply List.eq_nil_of_length_eq_zero
      omega
    have hafter : (s.waiting.drop (index + 1)).filterMap (flush_of peer_id) = [] := by
      apply List.eq_nil_of_length_eq_zero
      omega
    rw [hbefore, hafter] at hflush ⊢
    refine ⟨?_, hrest, rfl⟩
    simpa using hflush

/-! ## Steps -/

theorem SentOver.content {w w' : World} (h : SentOver peer_id w w') (content : Option Str) :
    sent_content peer_id w w' content = content.toList := if_pos h

theorem sent_content_none (w w' : World) : sent_content peer_id w w' none = [] := by
  unfold sent_content
  split <;> rfl

theorem sent_content_no_session {w w' : World} (h : ¬ has_session peer_id w.node)
    (content : Option Str) : sent_content peer_id w w' content = [] := if_neg fun hs => h hs.1

theorem exec_send_private_message {env : Env} {content nickname : Str} {message_id : Option Str}
    {w : World} (h : has_session peer_id w.node) :
    exec (send_private_message env content peer_id nickname message_id) w =
      exec (encrypt_private_message env content peer_id) w := by
  unfold send_private_message
  rw [exec_bind_ok _ (exec_node w), exec_ite, if_pos h]

theorem exec_queue_private_message {env : Env} {content nickname : Str} {message_id : Option Str}
    {w : World} (h : ¬ has_session peer_id w.node) :
    exec (send_private_message env content peer_id nickname message_id) w =
      exec (queue_private_message env content peer_id nickname message_id) w := by
  unfold send_private_message
  rw [exec_bind_ok _ (exec_node w), exec_ite, if_neg h]

/-- Nothing is left behind by a flush where no task goes on with messages. -/
theorem Fifo.idle {s : Outbox} {rest : List (Str × Str × Str)} (h : Fifo peer_id s rest)
    (hidle : ∀ task ∈ s.waiting, resumes peer_id task = none) : rest = [] := by
  cases rest with
  | nil => rfl
  | cons m rest =>
    have hflush := h.flush
    rw [if_neg (List.cons_ne_nil m rest)] at hflush
    have hrunning : m :: rest ∈ s.waiting.filterMap (flush_of peer_id) := by
      rw [hflush]
      exact List.mem_singleton_self _
    obtain ⟨task, hmem, hflush_of⟩ := List.mem_filterMap.mp hrunning
    have hnone := hidle task hmem
    rw [concerns_of_flush hflush_of] at hnone
    simp [resumes] at hnone

/-- A message that is sent at once, with nothing left to send before it. -/
theorem Fifo.sent {s s' : Outbox} (h : Fifo peer_id s []) {content : Str}
    (hempty : queue peer_id s.world.node = []) (hsession : has_session peer_id s.world.node)
    (hsame : Same peer_id s.world s'.world) (hgrows : Grows s.world s'.world)
    (hwaiting : s'.waiting = s.waiting ++ new_tasks s.world s'.world)
    (hpassed : s'.passed = s.passed ++ [content]) (hwritten : s'.written = s.written ++ [content]) :
    Fifo peer_id s' [] := by
  have htasks : tasks_for peer_id s'.world.out = tasks_for peer_id s.world.out ++ [] := by
    rw [hsame.tasks, List.append_nil]
  obtain ⟨hflush, -⟩ := h.waiting hgrows hwaiting htasks
  refine ⟨fun _ _ _ => hsame.session.mpr hsession, hflush, fun hne => absurd rfl hne, ?_⟩
  rw [hpassed, hwritten, hsame.queue, h.order, hempty]
  simp

/-- A message that goes to the queue. -/
theorem Fifo.queued {s s' : Outbox} {rest : List (Str × Str × Str)} (h : Fifo peer_id s rest)
    {message : Str × Str × Str} (hsession : ¬ has_session peer_id s.world.node)
    (hsame : Same peer_id (s.world.queued peer_id message) s'.world)
    (hgrows : Grows s.world s'.world)
    (hwaiting : s'.waiting = s.waiting ++ new_tasks s.world s'.world)
    (hpassed : s'.passed = s.passed ++ [message.1]) (hwritten : s'.written = s.written) :
    Fifo peer_id s' [] := by
  -- a flush runs only where there is a session
  obtain rfl : rest = [] := by
    by_contra hrest
    exact hsession (h.session hrest)
  have hqueue : queue peer_id s'.world.node = queue peer_id s.world.node ++ [message] := by
    rw [hsame.queue]
    show ((s.world.node.pending_private_messages.set peer_id _).get? peer_id).getD [] = _
    rw [Dict.get?_set_self]
    rfl
  have htasks : tasks_for peer_id s'.world.out = tasks_for peer_id s.world.out ++ [] := by
    rw [List.append_nil]
    exact hsame.tasks
  obtain ⟨hflush, hready⟩ := h.waiting hgrows hwaiting htasks
  refine ⟨?_, hflush, fun hne => absurd rfl hne, ?_⟩
  · intro task hmem hconcerns
    rcases hready task hmem hconcerns with hs | hnew
    · exact absurd hs hsession
    · exact absurd hnew List.not_mem_nil
  · rw [hpassed, hwritten, hqueue, h.order]
    simp

/-- The flush sends its first message and sleeps before the next. -/
theorem Fifo.resume {s s' : Outbox} {m : Str × Str × Str} {rest : List (Str × Str × Str)}
    (h : Fifo peer_id s (m :: rest)) {index : Nat}
    (hget : s.waiting[index]? = some (.send_each peer_id (m :: rest)))
    (hsession : has_session peer_id s'.world.node)
    (hqueue : queue peer_id s'.world.node = queue peer_id s.world.node)
    (htasks : tasks_for peer_id s'.world.out = tasks_for peer_id s.world.out ++
      if rest = [] then [] else [.send_each peer_id rest])
    (hgrows : Grows s.world s'.world)
    (hwaiting : s'.waiting = s.waiting.eraseIdx index ++ new_tasks s.world s'.world)
    (hpassed : s'.passed = s.passed) (hwritten : s'.written = s.written ++ [m.1]) :
    Fifo peer_id s' rest := by
  obtain ⟨-, -, hlast⟩ := h.take_flush hget
  refine ⟨fun _ _ _ => hsession, ?_, ?_, ?_⟩
  · rw [hwaiting, List.filterMap_append, hlast, List.nil_append, ← flushes_filter,
      new_tasks_filter hgrows htasks]
    split
    · rfl
    · simp [flush_of]
  · intro _
    rw [hqueue]
    exact h.alone (List.cons_ne_nil m rest)
  · rw [hpassed, hwritten, hqueue, h.order]
    simp

/-! ## Every turn -/

theorem take_event {s s' : Outbox} {env : Env} {event : Event}
    (h : s.take peer_id (.event env event) = some s') :
    (∀ task, event ≠ .later task) ∧ s' = {
      world := (exec (react env event) s.world).2
      waiting := s.waiting ++ new_tasks s.world (exec (react env event) s.world).2
      passed := s.passed ++ (passes_on peer_id event).toList
      written := s.written ++ sent_content peer_id s.world (exec (react env event) s.world).2
        (passes_on peer_id event) } := by
  cases event with
  | later task => cases h
  | _ => exact ⟨nofun, (Option.some.inj h).symm⟩

theorem take_run {s s' : Outbox} {env : Env} {index : Nat} {task : Later}
    (hget : s.waiting[index]? = some task) (h : s.take peer_id (.run env index) = some s') :
    s' = {
      world := (exec (run_later env task) s.world).2
      waiting := s.waiting.eraseIdx index ++ new_tasks s.world (exec (run_later env task) s.world).2
      passed := s.passed
      written := s.written ++ sent_content peer_id s.world (exec (run_later env task) s.world).2
        (resumes peer_id task) } := by
  have htake : s.take peer_id (.run env index) = (s.waiting[index]?).map _ := rfl
  rw [htake, hget] at h
  exact (Option.some.inj h).symm

/-- A private message that is passed to the node. -/
theorem Fifo.pass [LawfulCrypto] {s s' : Outbox} {rest : List (Str × Str × Str)}
    (h : Fifo peer_id s rest) {env : Env} {content nickname : Str} {message_id : Option Str}
    (hstep : s.take peer_id (.event env (.private_message content peer_id nickname message_id)) =
      some s')
    (hspares : ¬ Removes peer_id s s')
    (hturn : InTurn peer_id s (.event env (.private_message content peer_id nickname message_id))) :
    ∃ rest', Fifo peer_id s' rest' := by
  have hgrows := grows_react env (.private_message content peer_id nickname message_id) s.world
  have hpasses : passes_on peer_id (.private_message content peer_id nickname message_id) =
      some content := by
    simp [passes_on]
  have hreact : (exec (react env (.private_message content peer_id nickname message_id))
    s.world).2 =
      (exec (send_private_message env content peer_id nickname message_id) s.world).2 :=
    exec_discard _ _
  obtain ⟨-, hs'⟩ := take_event hstep
  rw [hpasses, hreact] at hs'
  rw [hreact] at hgrows
  by_cases hsession : has_session peer_id s.world.node
  · obtain ⟨hempty, hidle, hdeliverable⟩ := hturn content hpasses hsession
    obtain ⟨hsame, hwrites⟩ := exec_encrypt_private_message hdeliverable
    rw [exec_send_private_message hsession] at hs' hgrows
    have hsent : SentOver peer_id s.world
        (exec (encrypt_private_message env content peer_id) s.world).2 := ⟨hsession, by omega⟩
    rw [hsent.content] at hs'
    obtain rfl := h.idle hidle
    subst hs'
    exact ⟨[], h.sent hempty hsession hsame hgrows rfl rfl rfl⟩
  · have hkept := kept_queue_private_message env content nickname message_id hsession
    rw [exec_queue_private_message hsession, sent_content_no_session hsession] at hs'
    rw [exec_queue_private_message hsession] at hgrows
    subst hs'
    rcases hkept with hsame | hgone
    · exact ⟨[], h.queued hsession hsame hgrows rfl rfl (List.append_nil _)⟩
    · refine absurd ⟨hgone.session, hgone.queue, .inr (.inr (.inl ?_))⟩ hspares
      simp

/-- An event that passes on no message for the peer. -/
theorem Fifo.event {s s' : Outbox} {rest : List (Str × Str × Str)} (h : Fifo peer_id s rest)
    {env : Env} {event : Event} (hstep : s.take peer_id (.event env event) = some s')
    (hpasses : passes_on peer_id event = none) (hspares : ¬ Removes peer_id s s') :
    ∃ rest', Fifo peer_id s' rest' := by
  have hgrows := grows_react env event s.world
  obtain ⟨hlater, hs'⟩ := take_event hstep
  have hprivate : ∀ content nickname message_id,
      event ≠ .private_message content peer_id nickname message_id := by
    rintro content nickname message_id rfl
    simp [passes_on] at hpasses
  have houtcome := outcome_react env hlater hprivate s.world
  rw [hpasses, sent_content_none] at hs'
  subst hs'
  exact h.outcome houtcome hgrows rfl (List.append_nil _) (List.append_nil _) hspares

/-- One message of a flush, and the sleep before the next. -/
theorem exec_send_each {env : Env} {m : Str × Str × Str} {rest : List (Str × Str × Str)} {w : World}
    (h : has_session peer_id w.node) :
    (exec (run_later env (.send_each peer_id (m :: rest))) w).2 =
      (exec (sleep_before_next peer_id rest) (exec (encrypt_private_message env m.1 peer_id)
        w).2).2 := by
  obtain ⟨content, nickname, msg_id⟩ := m
  unfold run_later
  rw [exec_bind_ok _ (exec_suppress _ w), exec_send_private_message h]

theorem exec_sleep_before_next (peer_id : Str) (rest : List (Str × Str × Str)) (w : World) :
    (exec (sleep_before_next peer_id rest) w).2.node = w.node ∧
      writes (exec (sleep_before_next peer_id rest) w).2.out = writes w.out ∧
      tasks_for peer_id (exec (sleep_before_next peer_id rest) w).2.out = tasks_for peer_id w.out ++
        if rest = [] then [] else [.send_each peer_id rest] := by
  unfold sleep_before_next
  rw [exec_ite]
  split
  · exact ⟨rfl, rfl, (List.append_nil _).symm⟩
  · refine ⟨rfl, ?_, ?_⟩
    · show writes (w.out ++ _) = _
      rw [writes_append]
      exact List.append_nil _
    · show tasks_for peer_id (w.out ++ _) = _
      rw [tasks_for_append]
      simp [tasks_for, tasks, concerns]

/-- A flush that goes on. -/
theorem Fifo.run_flush [LawfulCrypto] {s s' : Outbox} {rest messages : List (Str × Str × Str)}
    (h : Fifo peer_id s rest) {env : Env} {index : Nat}
    (hget : s.waiting[index]? = some (.send_each peer_id messages))
    (hstep : s.take peer_id (.run env index) = some s')
    (hturn : InTurn peer_id s (.run env index)) : ∃ rest', Fifo peer_id s' rest' := by
  obtain ⟨rfl, hsome, -⟩ := h.take_flush hget
  cases messages with
  | nil => exact absurd rfl hsome
  | cons m rest =>
    have hgrows := grows_react env (.later (.send_each peer_id (m :: rest))) s.world
    have hsession := h.session hsome
    have hresumes : resumes peer_id (.send_each peer_id (m :: rest)) = some m.1 := by
      simp [resumes]
    obtain ⟨hsame, hwrites⟩ := exec_encrypt_private_message (hturn _ m.1 hget hresumes hsession)
    obtain ⟨hnode, hslept, htasks⟩ := exec_sleep_before_next peer_id rest
      (exec (encrypt_private_message env m.1 peer_id) s.world).2
    have hrun : (exec (run_later env (.send_each peer_id (m :: rest))) s.world).2 = _ :=
      exec_send_each hsession
    have hs' := take_run hget hstep
    rw [← hrun] at hnode hslept htasks
    have hsent : SentOver peer_id s.world
        (exec (run_later env (.send_each peer_id (m :: rest))) s.world).2 := by
      refine ⟨hsession, ?_⟩
      rw [hslept]
      omega
    subst hs'
    refine ⟨rest, h.resume hget ?_ ?_ ?_ hgrows rfl rfl ?_⟩
    · show has_session peer_id (exec (run_later env _) s.world).2.node
      rw [hnode]
      exact hsame.session.mpr hsession
    · show daemon.queue peer_id (exec (run_later env _) s.world).2.node = _
      rw [hnode]
      exact hsame.queue
    · exact htasks.trans (by rw [hsame.tasks])
    · show s.written ++ sent_content _ _ _ (resumes peer_id _) = _
      rw [hresumes, hsent.content]
      rfl

/-- Any other task. -/
theorem Fifo.run {s s' : Outbox} {rest : List (Str × Str × Str)} (h : Fifo peer_id s rest)
    {env : Env} {index : Nat} {task : Later} (hget : s.waiting[index]? = some task)
    (hflush : flush_of peer_id task = none) (hstep : s.take peer_id (.run env index) = some s')
    (hspares : ¬ Removes peer_id s s') : ∃ rest', Fifo peer_id s' rest' := by
  have hgrows := grows_react env (.later task) s.world
  have hresumes : resumes peer_id task = none := by
    unfold resumes
    split
    · rw [if_neg]
      intro hpeer
      simp [flush_of, hpeer] at hflush
    · rfl
  have houtcome : Outcome peer_id s.world (exec (run_later env task) s.world).2 := by
    cases hconcerns : concerns peer_id task with
    | false => exact (kept_run_later env hconcerns s.world).outcome
    | true =>
      have hsession := h.ready task (List.mem_of_getElem? hget) hconcerns
      cases task with
      | relay raw ttl => cases hconcerns
      | send_pending_private_messages peer_id' =>
        obtain rfl : peer_id' = peer_id := of_decide_eq_true hconcerns
        exact (Same.refl s.world).wakes.then_flush hsession
      | send_each peer_id' messages =>
        obtain rfl : peer_id' = peer_id := of_decide_eq_true hconcerns
        simp [flush_of] at hflush
  have hs' := take_run hget hstep
  rw [hresumes, sent_content_none] at hs'
  subst hs'
  exact (h.without hget hflush).outcome houtcome hgrows rfl rfl (List.append_nil _) hspares

/-! ## Every run -/

theorem Fifo.start {s : Outbox} (h : (outbox peer_id).start s) : Fifo peer_id s [] := by
  obtain ⟨my_peer_id, config_nickname, app_state, static_identity_key, rfl⟩ := h
  exact ⟨fun _ hmem => absurd hmem List.not_mem_nil, rfl, fun hne => absurd rfl hne, rfl⟩

theorem Fifo.step [LawfulCrypto] {s s' : Outbox} {rest : List (Str × Str × Str)}
    (h : Fifo peer_id s rest) {turn : Turn} (hspares : Spares peer_id s turn)
    (hturn : InTurn peer_id s turn) (hstep : s.take peer_id turn = some s') :
    ∃ rest', Fifo peer_id s' rest' := by
  have hnot := hspares s' hstep
  cases turn with
  | event env event =>
    cases hpasses : passes_on peer_id event with
    | none => exact h.event hstep hpasses hnot
    | some content =>
      cases event with
      | private_message content target_peer_id nickname message_id =>
        obtain rfl : target_peer_id = peer_id := by
          by_contra hother
          simp [passes_on, hother] at hpasses
        exact h.pass hstep hnot hturn
      | _ => cases hpasses
  | run env index =>
    cases hget : s.waiting[index]? with
    | none =>
      have htake : s.take peer_id (.run env index) = (s.waiting[index]?).map _ := rfl
      rw [htake, hget] at hstep
      cases hstep
    | some task =>
      cases hflush : flush_of peer_id task with
      | none => exact h.run hget hflush hstep hnot
      | some messages =>
        obtain rfl := concerns_of_flush hflush
        exact h.run_flush hget hstep hturn

theorem in_order_of_run [LawfulCrypto] {s : Outbox}
    (h : (outbox peer_id).RunWith (fun s turn => Spares peer_id s turn ∧ InTurn peer_id s turn) s) :
    ∃ rest, Fifo peer_id s rest := by
  refine h.invariant (I := fun s => ∃ rest, Fifo peer_id s rest) ?_ ?_
  · exact fun s hstart => ⟨[], Fifo.start hstart⟩
  · rintro s turn s' - ⟨rest, hinv⟩ ⟨hspares, hturn⟩ hstep
    exact hinv.step hspares hturn hstep

/-- In a run in which the peer is not removed and each message that finds a
session gets out in its turn, the messages go out in the order in which they
were passed on. -/
theorem private_messages_go_out_in_order [LawfulCrypto] (peer_id : Str) {s : Outbox}
    (h : (outbox peer_id).RunWith (fun s turn => Spares peer_id s turn ∧ InTurn peer_id s turn) s) :
    s.written <+: s.passed := by
  obtain ⟨rest, hinv⟩ := in_order_of_run h
  rw [hinv.order, List.append_assoc]
  exact List.prefix_append _ _

end daemon

/-! ## On the stand-in -/

namespace daemon.standIn

open python bitchat bitchat.protocol

attribute [local instance] bitchat.standIn.packages

/-- The packets that were written to the address. -/
def packets_to (address : Str) (out : List Action) : List Bytes :=
  (writes out).filterMap fun (address', frame) =>
    if address' = address then some (frame.drop 2) else none

/-- The peer's answers to the packets, after our announcement. -/
def answers (packets : List Bytes) : List Bytes :=
  let conn : PeerConnection := ⟨['a'], 2, true⟩
  let start : World := ⟨node them 2, []⟩
  let met := (exec (react (env 1) (.packet conn (hello us)))
    (exec (react (env 1) (.connected conn)) start).2).2
  packets_to conn.address
    (packets.foldl (fun w raw => (exec (react (env 2) (.packet conn raw)) w).2) met).out

def start : Outbox := ⟨⟨node us 1, []⟩, [], [], []⟩

def then_do (s : Outbox) (turn : Turn) : Outbox := (s.take them.str turn).getD s

/-- The peer is met. -/
def acquainted_box : Outbox :=
  then_do (then_do start (.event (env 1) (.connected conn)))
    (.event (env 1) (.packet conn (hello them)))

/-- A message waits in the queue. -/
def queued_box : Outbox :=
  then_do acquainted_box (.event (env 2) (.private_message ['1'] them.str [] none))

/-- The peer's answer to the handshake that the message started. -/
def answer : Bytes := (answers (packets_to conn.address queued_box.world.out)).headD []

/-- There is a session, and the message waits in a flush. -/
def answered_box : Outbox := then_do queued_box (.event (env 3) (.packet conn answer))

/-- The flush sends the message. -/
def flushed_box : Outbox := then_do answered_box (.run (env 4) 1)

/-- Another message is passed on while the flush sleeps. -/
def overtaken_box : Outbox :=
  then_do answered_box (.event (env 4) (.private_message ['2'] them.str [] none))

/-- The turn is possible and does not remove the peer. -/
def spared (s : Outbox) (turn : Turn) : Bool :=
  (s.take them.str turn).any fun s' => ¬ Removes them.str s s'

theorem spares_of {s : Outbox} {turn : Turn} (h : spared s turn = true) :
    Spares them.str s turn ∧ s.take them.str turn = some (then_do s turn) := by
  obtain ⟨s', hstep, hspares⟩ := (Option.any_eq_true _ _).mp h
  refine ⟨fun s'' hstep' => ?_, ?_⟩
  · obtain rfl := Option.some.inj (hstep.symm.trans hstep')
    exact of_decide_eq_true hspares
  · unfold then_do
    rw [hstep]
    rfl

theorem run_then {ok : Outbox → Turn → Prop} {s : Outbox} {turn : Turn}
    (h : (outbox them.str).RunWith (fun s turn => Spares them.str s turn ∧ ok s turn) s)
    (hspared : spared s turn = true) (hok : ok s turn) :
    (outbox them.str).RunWith (fun s turn => Spares them.str s turn ∧ ok s turn)
      (then_do s turn) := by
  obtain ⟨hspares, hstep⟩ := spares_of hspared
  exact .step h turn ⟨hspares, hok⟩ hstep

theorem run_start {ok : Outbox → Turn → Prop} :
    (outbox them.str).RunWith (fun s turn => Spares them.str s turn ∧ ok s turn) start :=
  .start ⟨us, some ['n'], .init [1], bitchat.standIn.key 1, rfl⟩

theorem inTurn_of_none {s : Outbox} {env : Env} {event : Event}
    (h : passes_on them.str event = none) : InTurn them.str s (.event env event) := by
  intro content hpasses
  rw [h] at hpasses
  cases hpasses

/-- Every turn up to there is possible, and there is no session when the
message is passed on. -/
theorem spared_answered_box : spared start (.event (env 1) (.connected conn)) = true ∧
    spared (then_do start (.event (env 1) (.connected conn)))
      (.event (env 1) (.packet conn (hello them))) = true ∧
    spared acquainted_box (.event (env 2) (.private_message ['1'] them.str [] none)) = true ∧
    ¬ has_session them.str acquainted_box.world.node ∧
    spared queued_box (.event (env 3) (.packet conn answer)) = true := by
  decide +kernel

theorem run_answered_box :
    (outbox them.str).RunWith (fun s turn => Spares them.str s turn ∧ InTurn them.str s turn)
      answered_box := by
  obtain ⟨hconnected, hhello, hmessage, hnone, hanswer⟩ := spared_answered_box
  have hacquainted : (outbox them.str).RunWith
      (fun s turn => Spares them.str s turn ∧ InTurn them.str s turn) acquainted_box :=
    run_then (run_then run_start hconnected (inTurn_of_none rfl)) hhello (inTurn_of_none rfl)
  have hqueued : (outbox them.str).RunWith
      (fun s turn => Spares them.str s turn ∧ InTurn them.str s turn) queued_box :=
    run_then hacquainted hmessage fun _ _ hsession => absurd hsession hnone
  exact run_then hqueued hanswer (inTurn_of_none rfl)

theorem inTurn_answered_box : InTurn them.str answered_box (.run (env 4) 1) := by
  intro task content hget hresumes _
  obtain ⟨hcontent, hsize, hnonces, hconn⟩ :
      (answered_box.waiting[1]?).bind (resumes them.str) = some ['1'] ∧
        (encode answered_box.world.node.nickname).length = 1 ∧
        (∃ session ∈ answered_box.world.node.encryption_service.sessions.get? them.str,
          session.send_cipher.key.isSome = true ∧
            session.send_cipher.nonce < encryption.NoiseCipherState.NONCES) ∧
        ∃ conn ∈ answered_box.world.node.get_conn_for_peer them.str,
          (env 4).write_fails conn.address = false := by
    decide +kernel
  rw [hget, Option.bind_some, hresumes, Option.some.injEq] at hcontent
  subst hcontent
  refine ⟨⟨them.bytes, rfl⟩, ?_, ?_, hnonces, hconn⟩
  · omega
  · rw [hsize]
    decide

end daemon.standIn

namespace daemon

open python bitchat bitchat.protocol systems

attribute [local instance] bitchat.standIn.packages

/-- A message waits for its session and then goes out. -/
theorem a_queued_message_goes_out : standIn.flushed_box.written <+: standIn.flushed_box.passed :=
  haveI := bitchat.standIn.lawfulCrypto
  private_messages_go_out_in_order standIn.them.str
    (standIn.run_then standIn.run_answered_box (by decide +kernel) standIn.inTurn_answered_box)

/-- A message that is passed on while a flush sleeps goes out before the one
that the flush has left. -/
theorem a_message_overtakes_a_flush :
    (outbox standIn.them.str).RunWith (Spares standIn.them.str) standIn.overtaken_box ∧
      ¬ standIn.overtaken_box.written <+: standIn.overtaken_box.passed := by
  refine ⟨?_, by decide +kernel⟩
  have hrun : (outbox standIn.them.str).RunWith (Spares standIn.them.str) standIn.answered_box :=
    standIn.run_answered_box.mono fun s turn h => h.1
  have hspared : standIn.spared standIn.answered_box
      (.event (standIn.env 4) (.private_message ['2'] standIn.them.str [] none)) = true := by
    decide +kernel
  obtain ⟨hspares, hstep⟩ := standIn.spares_of hspared
  exact .step hrun _ hspares hstep

end daemon
