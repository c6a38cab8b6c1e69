-- The id that `send_private_message` returns, and the id that the message is
-- sealed under. A message that waited for a session is sealed under a new one.
import BitchatNode.AtomicSending
import BitchatNode.RelayedAcks

namespace daemon

open python bitchat bitchat.protocol bitchat.encryption

variable [Packages]

/-! ## What is sealed -/

/-- `send_private_message` with a session, up to the sealing. It gives the id,
the inner packet and its ciphertext. -/
def seal_private_message (env : Env) (self : MeshNode) (content target_peer_id : Str) :
    Mesh (Str × Bytes × Bytes) := do
  let (payload, msg_id) ← outcome (create_bitchat_message_payload_full self.nickname content none
    true self.my_peer_id.str false none (env.draw 0))
  modifyNode fun self => { self with
    delivery_tracker :=
      self.delivery_tracker.track_message msg_id content true (env.draw 1).time_us }
  let inner_packet ← outcome (create_bitchat_packet_with_recipient self.my_peer_id.str
    (some target_peer_id) .MESSAGE payload none (env.draw 2))
  let encrypted ← onService (EncryptionService.encrypt_for_peer target_peer_id
    (with_ttl inner_packet 7))
  return (msg_id, with_ttl inner_packet 7, encrypted)

theorem encrypt_private_message_seals (env : Env) (content target_peer_id : Str) :
    encrypt_private_message env content target_peer_id = (do
      let self ← node
      let (msg_id, _, encrypted) ← seal_private_message env self content target_peer_id
      send_sealed env self target_peer_id encrypted msg_id) := by
  unfold encrypt_private_message seal_private_message send_sealed
  simp only [bind_assoc, pure_bind]

/-- What a call would seal, if it finds a session. -/
def sealed_plain (env : Env) (content target_peer_id : Str) (w : World) : Option Bytes :=
  match (exec (seal_private_message env w.node content target_peer_id) w).1 with
  | .ok (_, plain, _) => some plain
  | .error _ => none

/-- The id of the message in an inner packet, as its receiver reads it. -/
def carried_id (plain : Bytes) : Option Str := do
  let inner_packet ← (parse_bitchat_packet plain).toOption
  let message ← (parse_bitchat_message_payload inner_packet.payload).toOption
  return message.id

/-! ## The ledger of a run -/

/-- A call of `send_private_message` that has returned. -/
structure SendCall where
  target_peer_id : Str
  content : Str
  id : Str
deriving DecidableEq

/-- A payload that was encrypted on behalf of a call, after so many actions. -/
structure SealedPayload where
  call : SendCall
  plain : Bytes
  since : Nat

/-- A node, the calls that have returned, and what was encrypted for them. -/
structure Ledger where
  world : World
  calls : List SendCall
  sealed : List SealedPayload

/-- The call that returns in this event. -/
def returning (env : Env) (w : World) : Event → Option SendCall
  | .private_message content target_peer_id nickname message_id =>
    match (exec (send_private_message env content target_peer_id nickname message_id) w).1 with
    | .ok id => some ⟨target_peer_id, content, id⟩
    | .error _ => none
  | _ => none

/-- The call whose message is sent in this event: one that returns, or one
whose message waited in the queue. -/
def serving (env : Env) (w : World) : Event → Option SendCall
  | .later (.send_each target_peer_id ((content, _, id) :: _)) => some ⟨target_peer_id, content, id⟩
  | event => returning env w event

/-- What is encrypted for it. -/
def new_sealed (env : Env) (w : World) (event : Event) : Option SealedPayload := do
  let call ← serving env w event
  let plain ← sealed_plain env call.content call.target_peer_id w
  return ⟨call, plain, w.out.length⟩

def Ledger.step (l : Ledger) (env : Env) (event : Event) : Ledger where
  world := (exec (react env event) l.world).2
  calls := l.calls ++ (returning env l.world event).toList
  sealed := l.sealed ++ (new_sealed env l.world event).toList

/-- The ledgers that a run leads to whose steps all meet a condition. -/
inductive Ledger.Reached (ok : World → Env → Event → Prop) : Ledger → Prop
  | start (my_peer_id : PeerId) (config_nickname : Option Str) (app_state : AppState)
      (static_identity_key : Crypto.PrivateKey) :
    Reached ok ⟨⟨.init my_peer_id config_nickname app_state static_identity_key, []⟩, [], []⟩
  | step {l : Ledger} (h : Reached ok l) (env : Env) (event : Event) (hdue : Due l.world event)
      (hok : ok l.world env event) : Reached ok (l.step env event)

theorem Ledger.Reached.mono {ok ok' : World → Env → Event → Prop} {l : Ledger}
    (h : Ledger.Reached ok l) (hok : ∀ w env event, ok w env event → ok' w env event) :
    Ledger.Reached ok' l := by
  induction h with
  | start my_peer_id config_nickname app_state static_identity_key =>
    exact .start my_peer_id config_nickname app_state static_identity_key
  | step _ env event hdue hcond ih => exact .step ih env event hdue (hok _ _ _ hcond)

/-! ## Stable ids -/

def IsTracked (id : Str) (w : World) : Prop :=
  w.node.delivery_tracker.pending_messages.has id = true

/-- The message is tracked, or an ACK for it was reported since. -/
structure TrackedSince (id : Str) (since : Nat) (w : World) : Prop where
  past : since ≤ w.out.length
  tracked : IsTracked id w ∨ ∃ ack ∈ acknowledgements (w.out.drop since),
    Packages.json_str ack.original_message_id = some id

/-- The packet is an ACK of another node for this one, and names this id once
it is opened. -/
def AckFor (conn : PeerConnection) (raw : Bytes) (id : Str) (ack : DeliveryAck) (w : World) :
    Prop :=
  ∃ packet payload, parse_bitchat_packet raw = .ok packet ∧ packet.msg_type = .DELIVERY_ACK ∧
    packet.sender_id_str ≠ w.node.my_peer_id.str ∧
    packet.recipient_id_str = some w.node.my_peer_id.str ∧
    (exec (open_ack packet) (w.heard packet.sender_id_str conn.address)).1 = .ok payload ∧
    parse_ack payload = some ack ∧ Packages.json_str ack.original_message_id = some id

/-- The payload carries the id that the call returned. The message is tracked
under it until an ACK is reported, and an ACK that names the id which the
receiver saw is reported under it. -/
structure Stable (r : SealedPayload) (w : World) : Prop where
  carried : carried_id r.plain = some r.call.id
  tracked : TrackedSince r.call.id r.since w
  reported : IsTracked r.call.id w → ∀ env conn raw id ack, carried_id r.plain = some id →
    AckFor conn raw id ack w →
      acknowledgements (exec (on_packet_received env conn raw) w).2.out =
        acknowledgements w.out ++ [ack] ∧
      Packages.json_str ack.original_message_id = some r.call.id

/-- A message that has waited is sealed under the id that it waited under, if
it can be sealed. -/
def KeepsId (w : World) (env : Env) (event : Event) : Prop :=
  ∀ target_peer_id content nickname id rest,
    event = .later (.send_each target_peer_id ((content, nickname, id) :: rest)) →
      has_session target_peer_id w.node → Buildable content w.node →
        Sealable target_peer_id content w.node → (env.draw 0).uuid.str = id

/-! ## Sealing -/

section

variable {env : Env} {content target_peer_id msg_id : Str} {plain encrypted : Bytes}
  {w sealed : World}

/-- What is encrypted, there is a session and a nonce for. -/
theorem session_of_encrypted {svc svc' : EncryptionService} {data : Bytes}
    (h : exec (EncryptionService.encrypt data target_peer_id) svc = (.ok encrypted, svc')) :
    ∃ s, svc.sessions.get? target_peer_id = some s ∧
      s.send_cipher.nonce < NoiseCipherState.NONCES := by
  unfold EncryptionService.encrypt at h
  simp only [exec_bind, exec_get] at h
  rcases hsession : svc.sessions.get? target_peer_id with _ | s
  · rw [hsession] at h
    cases h
  · refine ⟨s, rfl, ?_⟩
    rcases hkey : s.send_cipher.key with _ | key
    · rw [hsession] at h
      simp [NoiseCipherState.encrypt, hkey] at h
    · by_contra hn
      have hoverflow := exec_encrypt_overflow (n := s.send_cipher.nonce)
        (m := s.receive_cipher.nonce) hsession hkey (Nat.not_lt.mp hn) data
      unfold EncryptionService.encrypt at hoverflow
      simp only [exec_bind, exec_get] at hoverflow
      cases hoverflow.symm.trans h

/-- A payload that was built, and how long it is. -/
theorem built_payload {self : MeshNode} {payload : Bytes} {draw : Draw}
    (h : create_bitchat_message_payload_full self.nickname content none true self.my_peer_id.str
      false none draw = .ok (payload, msg_id)) :
    msg_id = draw.uuid.str ∧ Buildable content self ∧
      payload.length = 66 + (encode self.nickname).length + (encode content).length := by
  have hfits := create_payload_fits self.nickname content none true self.my_peer_id.str none draw h
  obtain ⟨payload', -, hcreate, hlength, -, -⟩ :=
    private_payload self.nickname self.my_peer_id content draw hfits
  obtain ⟨rfl, rfl⟩ := Prod.mk.inj (Except.ok.inj (hcreate.symm.trans h))
  exact ⟨rfl, ⟨hfits.sender, hfits.content⟩, hlength⟩

/-- A payload that is sealed carries a new id, and is tracked under it. -/
theorem sealed_ok (hregistered : Registered w.node.encryption_service)
    (h : exec (seal_private_message env w.node content target_peer_id) w =
      (.ok (msg_id, plain, encrypted), sealed)) :
    msg_id = (env.draw 0).uuid.str ∧ has_session target_peer_id w.node ∧
      Buildable content w.node ∧ Sealable target_peer_id content w.node ∧
      carried_id plain = some msg_id ∧ IsTracked msg_id sealed ∧ sealed.out = w.out := by
  unfold seal_private_message at h
  obtain ⟨⟨payload, id⟩, hpayload, h⟩ := exec_outcome_bind_eq_ok h
  obtain ⟨_, w₁, htrack, h⟩ := exec_bind_eq_ok h
  rw [exec_modifyNode, Prod.mk.injEq] at htrack
  obtain ⟨-, rfl⟩ := htrack
  obtain ⟨inner_packet, hinner, h⟩ := exec_outcome_bind_eq_ok h
  obtain ⟨ciphertext, w₂, hencrypted, h⟩ := exec_bind_eq_ok h
  cases h
  rw [exec_onService, EncryptionService.encrypt_for_peer, Prod.mk.injEq] at hencrypted
  obtain ⟨hciphertext, rfl⟩ := hencrypted
  obtain ⟨hid, hbuild, hlength⟩ := built_payload hpayload
  obtain ⟨s, hsession, hnonce⟩ := session_of_encrypted (Prod.ext hciphertext rfl)
  have hsession' : w.node.encryption_service.sessions.get? target_peer_id = some s := hsession
  obtain ⟨⟨peer, rfl⟩, -⟩ := hregistered _ s hsession'
  have hfits : payload.length < 65536 := by
    by_contra hlong
    rw [create_too_long _ _ _ _ _ _ hlong] at hinner
    cases hinner
  have hpacket := isPacket_of_created (by decide) hinner
  refine ⟨hid, ?_, hbuild, ⟨by omega, ?_⟩, ?_, Dict.has_set_self _ _ _, rfl⟩
  · unfold has_session EncryptionService.is_session_established Dict.has
    rw [hsession']
    rfl
  · unfold send_nonce
    rw [hsession']
    exact hnonce
  · unfold carried_id
    rw [parse_with_ttl hpacket 7]
    have hmessage := message_of_payload hpayload
    have hinner_payload : (received w.node.my_peer_id (PeerId.ofRead peer) .MESSAGE payload
        7).payload = payload := rfl
    simp [Except.toOption, hinner_payload, hmessage, message_of]

end

/-! ## What is tracked -/

section

variable {id : Str} {since : Nat}

theorem TrackedSince.of_same {w w' : World} (h : TrackedSince id since w)
    (htracker : w'.node.delivery_tracker = w.node.delivery_tracker) (hout : w'.out = w.out) :
    TrackedSince id since w' := by
  refine ⟨hout ▸ h.past, ?_⟩
  unfold IsTracked
  rw [htracker, hout]
  exact h.tracked

/-- What was reported stays reported. -/
theorem TrackedSince.grow {w : World} (h : TrackedSince id since w) (action : Action) :
    TrackedSince id since { w with out := w.out ++ [action] } := by
  constructor
  · show since ≤ (w.out ++ [action]).length
    rw [List.length_append]
    exact Nat.le_add_right_of_le h.past
  · rcases h.tracked with htracked | ⟨ack, hmem, hid⟩
    · exact .inl htracked
    · refine .inr ⟨ack, ?_, hid⟩
      show ack ∈ acknowledgements ((w.out ++ [action]).drop since)
      rw [List.drop_append_of_le_length h.past, acknowledgements_append]
      exact List.mem_append_left _ hmem

/-- The node without a message on its tracker. -/
def World.untracked (w : World) (id : Str) : World :=
  { w with node := { w.node with
    delivery_tracker := (w.node.delivery_tracker.mark_delivered id).2 } }

/-- An ACK takes its message off the tracker, and is reported if it was there. -/
theorem exec_take_ack {ack : DeliveryAck} {named : Str} {w : World}
    (hnamed : Packages.json_str ack.original_message_id = some named) :
    (exec (take_ack ack) w).2 = if w.node.delivery_tracker.pending_messages.has named then
      { w.untracked named with out := w.out ++ [.on_delivery_ack ack] }
    else w.untracked named := by
  unfold take_ack
  simp only [exec_bind, exec_node, hnamed, exec_modifyNode]
  by_cases htracked : w.node.delivery_tracker.pending_messages.has named = true
  · simp [htracked, DeliveryTracker.mark_delivered, World.untracked]
  · simp [htracked, DeliveryTracker.mark_delivered, World.untracked]

/-- A message that an ACK takes off the tracker is reported. -/
theorem TrackedSince.take_ack {w : World} (h : TrackedSince id since w) (ack : DeliveryAck) :
    TrackedSince id since (exec (take_ack ack) w).2 := by
  rcases hnamed : Packages.json_str ack.original_message_id with _ | named
  · unfold daemon.take_ack
    simp only [exec_bind, exec_node, hnamed]
    exact h
  · rw [exec_take_ack hnamed]
    by_cases hsame : named = id
    · subst hsame
      split
      · refine ⟨?_, .inr ⟨ack, ?_, hnamed⟩⟩
        · show since ≤ (w.out ++ [_]).length
          rw [List.length_append]
          exact Nat.le_add_right_of_le h.past
        · show ack ∈ acknowledgements ((w.out ++ [_]).drop since)
          rw [List.drop_append_of_le_length h.past, acknowledgements_append]
          exact List.mem_append_right _ (List.mem_singleton_self ack)
      · rename_i hnot
        exact ⟨h.past, .inr (h.tracked.resolve_left hnot)⟩
    · have hothers : TrackedSince id since (w.untracked named) := by
        refine ⟨h.past, ?_⟩
        rcases h.tracked with htracked | hreported
        · exact .inl ((Dict.has_pop_ne _ hsame).trans htracked)
        · exact .inr hreported
      split
      · exact hothers.grow _
      · exact hothers

theorem parts_trackedSince (id : Str) (since : Nat) : Parts (Keeps (TrackedSince id since)) where
  plain _ hf w h := h.of_same (hf w.node).tracker rfl
  emit action _ _ h := h.grow action
  lose _ _ h := h.of_same rfl rfl
  encrypt _ _ _ h := h.of_same rfl rfl
  decrypt _ _ _ h := h.of_same rfl rfl
  initiate _ _ _ h := h.of_same rfl rfl
  process _ _ _ _ _ _ h := h.of_same rfl rfl
  acknowledged message_id w h := by
    refine ⟨h.past, ?_⟩
    rw [exec_modifyNode]
    unfold IsTracked DeliveryTracker.should_send_ack
    split <;> exact h.tracked
  track message_id _ _ _ w h := by
    refine ⟨h.past, ?_⟩
    rcases h.tracked with htracked | hreported
    · exact .inl (Dict.has_set_of_has _ htracked _ _)
    · exact .inr hreported
  take_ack ack _ h := h.take_ack ack

end

/-! ## What waits -/

/-- The message waits for a session with the peer, or is left in a flush. -/
def LeftToSend (peer_id : Str) (message : Str × Str × Str) (w : World) : Prop :=
  message ∈ queue peer_id w.node ∨
    ∃ messages, .send_each peer_id messages ∈ tasks_for peer_id w.out ∧ message ∈ messages

section

variable {env : Env} {peer_id : Str} {message : Str × Str × Str} {w w' : World}

theorem mem_tasks_for {messages : List (Str × Str × Str)}
    (h : .later (.send_each peer_id messages) ∈ w.out) :
    .send_each peer_id messages ∈ tasks_for peer_id w.out := by
  unfold tasks_for tasks
  rw [List.mem_filter]
  exact ⟨List.mem_filterMap.mpr ⟨_, h, rfl⟩, by simp [concerns]⟩

omit [Packages] in
/-- No task but those there were sends what waits. -/
theorem not_send_each_of_woken {woken : List Later} {messages : List (Str × Str × Str)}
    (only : ∀ task ∈ woken, task = .send_pending_private_messages peer_id) :
    .send_each peer_id messages ∉ woken := by
  intro hmem
  cases only _ hmem

/-- A step that brings no message leaves none waiting that did not wait before. -/
theorem Outcome.waiting (h : Outcome peer_id w w') (hw : LeftToSend peer_id message w') :
    LeftToSend peer_id message w := by
  cases h with
  | gone woken only session queue tasks =>
    rcases hw with hqueue | ⟨messages, hmem, hin⟩
    · rw [queue] at hqueue
      cases hqueue
    · rw [tasks, List.mem_append] at hmem
      exact .inr ⟨messages, hmem.resolve_right (not_send_each_of_woken only), hin⟩
  | kept woken h =>
    rcases hw with hqueue | ⟨messages, hmem, hin⟩
    · exact .inl (h.queue ▸ hqueue)
    · rw [h.tasks, List.mem_append] at hmem
      exact .inr ⟨messages, hmem.resolve_right (not_send_each_of_woken h.only), hin⟩
  | flushed woken only session some queue tasks =>
    rcases hw with hqueue | ⟨messages, hmem, hin⟩
    · rw [queue] at hqueue
      cases hqueue
    · rw [tasks, List.mem_append, List.mem_append] at hmem
      rcases hmem with hold | hwoken | hflush
      · exact .inr ⟨messages, hold, hin⟩
      · exact absurd hwoken (not_send_each_of_woken only)
      · cases List.mem_singleton.mp hflush
        exact .inl hin

/-- What `send_private_message` leaves waiting for its peer. -/
theorem waiting_send_private_message {content nickname : Str} {message_id : Option Str}
    (hw : LeftToSend peer_id message
      (exec (send_private_message env content peer_id nickname message_id) w).2) :
    LeftToSend peer_id message w ∨
      ¬ has_session peer_id w.node ∧ message = (content, nickname, queued_id env message_id) := by
  by_cases hsession : has_session peer_id w.node
  · rw [exec_send_private_message hsession] at hw
    have hkept := (steady_kept peer_id env).encrypt_private_message content peer_id w
    exact .inl (hkept.outcome.waiting hw)
  · rw [exec_queue_private_message hsession] at hw
    have hqueued := (kept_queue_private_message env content nickname message_id
      hsession).outcome.waiting hw
    rcases hqueued with hqueue | htask
    · have hset : queue peer_id (w.queued peer_id
          (content, nickname, queued_id env message_id)).node =
            queue peer_id w.node ++ [(content, nickname, queued_id env message_id)] := by
        unfold queue World.queued
        rw [Dict.get?_set_self]
        rfl
      rw [hset, List.mem_append, List.mem_singleton] at hqueue
      rcases hqueue with hold | hnew
      · exact .inl (.inl hold)
      · exact .inr ⟨hsession, hnew⟩
    · exact .inl (.inr htask)

theorem waiting_send_pending
    (hw : LeftToSend peer_id message (exec (send_pending_private_messages peer_id) w).2) :
    LeftToSend peer_id message w := by
  obtain ⟨-, hempty, htasks⟩ := exec_send_pending peer_id w
  rcases hw with hqueue | ⟨messages, hmem, hin⟩
  · rw [hempty] at hqueue
    cases hqueue
  · rw [htasks, List.mem_append] at hmem
    rcases hmem with hold | hnew
    · exact .inr ⟨messages, hold, hin⟩
    · split at hnew
      · cases hnew
      · cases List.mem_singleton.mp hnew
        exact .inl hin

/-- A turn of the loop over what waits: the message is sent or queued again. -/
theorem waiting_send_each {content nickname id : Str} {rest : List (Str × Str × Str)}
    (hdue : .later (.send_each peer_id ((content, nickname, id) :: rest)) ∈ w.out)
    (hw : LeftToSend peer_id message
      (exec (run_later env (.send_each peer_id ((content, nickname, id) :: rest))) w).2) :
    LeftToSend peer_id message w ∨ message = (content, nickname, queued_id env (some id)) := by
  have hstart := mem_tasks_for hdue
  unfold run_later at hw
  rw [exec_bind_ok _ (exec_suppress _ w)] at hw
  obtain ⟨hnode, -, htasks⟩ := exec_sleep_before_next peer_id rest
    (exec (send_private_message env content peer_id nickname (some id)) w).2
  have hsent : LeftToSend peer_id message
      (exec (send_private_message env content peer_id nickname (some id)) w).2 ∨
        message ∈ rest := by
    rcases hw with hqueue | ⟨messages, hmem, hin⟩
    · rw [hnode] at hqueue
      exact .inl (.inl hqueue)
    · rw [htasks, List.mem_append] at hmem
      rcases hmem with hold | hnew
      · exact .inl (.inr ⟨messages, hold, hin⟩)
      · split at hnew
        · cases hnew
        · cases List.mem_singleton.mp hnew
          exact .inr hin
  rcases hsent with hsent | hrest
  · exact (waiting_send_private_message hsent).imp_right And.right
  · exact .inl (.inr ⟨_, hstart, List.mem_cons_of_mem _ hrest⟩)

/-- What waits after an event: what waited before, or the message of a call that
finds no session, or one that a flush has queued again. -/
theorem waiting_react (event : Event) (hdue : Due w event)
    (hw : LeftToSend peer_id message (exec (react env event) w).2) :
    LeftToSend peer_id message w ∨
      (∃ content nickname message_id,
        event = .private_message content peer_id nickname message_id ∧
        ¬ has_session peer_id w.node ∧ message = (content, nickname, queued_id env message_id)) ∨
      ∃ content nickname id rest, event = .later (.send_each peer_id ((content, nickname, id) ::
        rest)) ∧ message = (content, nickname, queued_id env (some id)) := by
  by_cases hlater : ∃ task, event = .later task
  · obtain ⟨task, rfl⟩ := hlater
    cases hconcerns : concerns peer_id task with
    | false => exact .inl ((kept_run_later env hconcerns w).outcome.waiting hw)
    | true =>
      cases task with
      | relay raw ttl => cases hconcerns
      | send_pending_private_messages peer_id' =>
        obtain rfl : peer_id' = peer_id := of_decide_eq_true hconcerns
        exact .inl (waiting_send_pending hw)
      | send_each peer_id' messages =>
        obtain rfl : peer_id' = peer_id := of_decide_eq_true hconcerns
        cases messages with
        | nil => exact .inl hw
        | cons first rest =>
          obtain ⟨content, nickname, id⟩ := first
          rcases waiting_send_each hdue hw with hbefore | hagain
          · exact .inl hbefore
          · exact .inr (.inr ⟨content, nickname, id, rest, rfl, hagain⟩)
  · by_cases hprivate : ∃ content nickname message_id,
        event = .private_message content peer_id nickname message_id
    · obtain ⟨content, nickname, message_id, rfl⟩ := hprivate
      have hsent : LeftToSend peer_id message
          (exec (send_private_message env content peer_id nickname message_id) w).2 := by
        rw [← exec_discard]
        exact hw
      rcases waiting_send_private_message hsent with hbefore | ⟨hsession, hnew⟩
      · exact .inl hbefore
      · exact .inr (.inl ⟨content, nickname, message_id, rfl, hsession, hnew⟩)
    · have houtcome : Outcome peer_id w (exec (react env event) w).2 := by
        apply outcome_react env
        · exact fun task heq => hlater ⟨task, heq⟩
        · exact fun content nickname message_id heq =>
            hprivate ⟨content, nickname, message_id, heq⟩
      exact .inl (houtcome.waiting hw)

end

/-! ## What a call returns -/

section

variable {env : Env} {target_peer_id content nickname : Str} {message_id : Option Str} {w : World}

theorem initiate_handshake_returns (env : Env) (peer_id : Str) (w : World) :
    (exec (initiate_handshake env peer_id) w).1 = .ok () := by
  unfold initiate_handshake
  rw [exec_suppress]

/-- A call that finds no session returns the id that its message is queued under. -/
theorem queue_private_message_returns (h : ¬ has_session target_peer_id w.node) :
    (exec (send_private_message env content target_peer_id nickname message_id) w).1 =
      .ok (queued_id env message_id) := by
  have hattempt (now : UInt64) (w : World) :
      (exec (attempt_handshake (env.skip 2) target_peer_id now) w).1 = .ok () := by
    unfold attempt_handshake
    rw [exec_bind_ok _ (exec_modifyNode _ w)]
    exact initiate_handshake_returns _ _ _
  have hdue (now : UInt64) (w : World) :
      (exec (attempt_if_due (env.skip 2) target_peer_id now) w).1 = .ok () := by
    unfold attempt_if_due
    rw [exec_bind_ok _ (exec_node w)]
    split
    · rw [exec_ite]
      split
      · rfl
      · exact hattempt _ _
    · exact hattempt _ _
  rw [exec_queue_private_message h]
  unfold queue_private_message
  rw [exec_bind_ok _ (exec_node w), exec_bind_ok _ (exec_modifyNode _ w)]
  generalize hqueued : World.mk _ _ = w₁
  have hreturned := hdue (env.draw 1).time_us w₁
  rcases hexec : exec (attempt_if_due (env.skip 2) target_peer_id (env.draw 1).time_us) w₁
    with ⟨result, w₂⟩
  rw [hexec] at hreturned
  obtain rfl : result = .ok () := hreturned
  rw [exec_bind_ok _ hexec]
  rfl

theorem queued_id_ne_nil (env : Env) (message_id : Option Str) : queued_id env message_id ≠ [] := by
  unfold queued_id
  split
  · assumption
  · intro hnil
    have hlength := (env.draw 0).uuid.length_str
    rw [hnil] at hlength
    cases hlength

theorem queued_id_of_ne_nil (env : Env) {id : Str} (h : id ≠ []) :
    queued_id env (some id) = id := by
  unfold queued_id
  exact if_pos h

/-- What is sealed is tracked from the start, whatever becomes of the packet. -/
theorem trackedSince_encrypt (hregistered : Registered w.node.encryption_service) {msg_id : Str}
    {plain encrypted : Bytes} {sealed : World}
    (h : exec (seal_private_message env w.node content target_peer_id) w =
      (.ok (msg_id, plain, encrypted), sealed)) :
    TrackedSince msg_id w.out.length
      (exec (encrypt_private_message env content target_peer_id) w).2 := by
  obtain ⟨-, -, -, -, -, htracked, hout⟩ := sealed_ok hregistered h
  have hstart : TrackedSince msg_id w.out.length sealed :=
    ⟨(congrArg List.length hout).ge, .inl htracked⟩
  rw [encrypt_private_message_seals, exec_bind_ok _ (exec_node w), exec_bind_ok _ h]
  have hrest : Moves (Keeps (TrackedSince msg_id w.out.length))
      (send_sealed env w.node target_peer_id encrypted msg_id) := by
    unfold send_sealed
    refine Moves.bind (Moves.outcome _) fun outer_packet => ?_
    exact Moves.bind ((parts_trackedSince _ _).common.send_to_peer _ _) fun _ => Moves.pure _
  exact hrest sealed hstart

/-- A call that seals its message returns the id that it is sealed under. -/
theorem encrypt_private_message_ok {msg_id id : Str} {plain encrypted : Bytes} {sealed w' : World}
    (hseal : exec (seal_private_message env w.node content target_peer_id) w =
      (.ok (msg_id, plain, encrypted), sealed))
    (h : exec (encrypt_private_message env content target_peer_id) w = (.ok id, w')) :
    id = msg_id := by
  rw [encrypt_private_message_seals, exec_bind_ok _ (exec_node w), exec_bind_ok _ hseal] at h
  unfold send_sealed at h
  obtain ⟨outer_packet, -, h⟩ := exec_outcome_bind_eq_ok h
  obtain ⟨_, w₁, -, h⟩ := exec_bind_eq_ok h
  rw [exec_pure, Prod.mk.injEq, Except.ok.injEq] at h
  exact h.1.symm

end

/-! ## The invariant -/

/-- Every message that waits is that of a call that returned its id, and every
payload that was sealed carries the id of its call. -/
structure Ledger.Accounted (l : Ledger) : Prop where
  reachable : Reachable l.world
  waiting : ∀ peer_id content nickname id, LeftToSend peer_id (content, nickname, id) l.world →
    ⟨peer_id, content, id⟩ ∈ l.calls ∧ id ≠ []
  sealed : ∀ r ∈ l.sealed, r.call ∈ l.calls ∧ carried_id r.plain = some r.call.id ∧
    TrackedSince r.call.id r.since l.world

section

variable {env : Env} {event : Event} {l : Ledger} {r : SealedPayload} {w : World}

theorem sealed_plain_eq_some {content target_peer_id : Str} {plain : Bytes}
    (h : sealed_plain env content target_peer_id w = some plain) :
    ∃ msg_id encrypted sealed, exec (seal_private_message env w.node content target_peer_id) w =
      (.ok (msg_id, plain, encrypted), sealed) := by
  unfold sealed_plain at h
  rcases hseal : exec (seal_private_message env w.node content target_peer_id) w with
    ⟨result, sealed⟩
  rw [hseal] at h
  cases result with
  | error e => cases h
  | ok result =>
    obtain ⟨msg_id, plain', encrypted⟩ := result
    cases h
    exact ⟨_, _, _, rfl⟩

/-- A payload that is sealed while its call returns. -/
theorem sealed_at_once (hregistered : Registered w.node.encryption_service)
    {content target_peer_id nickname : Str} {message_id : Option Str} {call : SendCall}
    {plain : Bytes}
    (hreturns : returning env w (.private_message content target_peer_id nickname message_id) =
      some call)
    (hplain : sealed_plain env call.content call.target_peer_id w = some plain) :
    carried_id plain = some call.id ∧ TrackedSince call.id w.out.length
      (exec (react env (.private_message content target_peer_id nickname message_id)) w).2 := by
  unfold returning at hreturns
  dsimp only at hreturns
  split at hreturns
  · rename_i id hid
    cases hreturns
    obtain ⟨msg_id, encrypted, sealed, hseal⟩ := sealed_plain_eq_some hplain
    obtain ⟨-, hsession, -, -, hcarried, -, -⟩ := sealed_ok hregistered hseal
    rw [exec_send_private_message hsession] at hid
    obtain rfl := encrypt_private_message_ok hseal (Prod.ext hid rfl)
    refine ⟨hcarried, ?_⟩
    have htracked := trackedSince_encrypt hregistered hseal
    have hsends : (exec (send_private_message env content target_peer_id nickname message_id)
        w).2 = (exec (encrypt_private_message env content target_peer_id) w).2 :=
      congrArg Prod.snd (exec_send_private_message hsession)
    rw [← hsends, ← exec_discard] at htracked
    exact htracked
  · cases hreturns

/-- A payload that is sealed after its message has waited. -/
theorem sealed_after_waiting (hregistered : Registered w.node.encryption_service)
    {content target_peer_id nickname id : Str} {rest : List (Str × Str × Str)} {plain : Bytes}
    (hkeeps : KeepsId w env (.later (.send_each target_peer_id ((content, nickname, id) :: rest))))
    (hplain : sealed_plain env content target_peer_id w = some plain) :
    carried_id plain = some id ∧ TrackedSince id w.out.length
      (exec (react env (.later (.send_each target_peer_id ((content, nickname, id) :: rest))))
        w).2 := by
  obtain ⟨msg_id, encrypted, sealed, hseal⟩ := sealed_plain_eq_some hplain
  obtain ⟨hid, hsession, hbuild, hsealable, hcarried, -, -⟩ := sealed_ok hregistered hseal
  obtain rfl : msg_id = id :=
    hid.trans (hkeeps target_peer_id content nickname id rest rfl hsession hbuild hsealable)
  refine ⟨hcarried, ?_⟩
  have htracked := trackedSince_encrypt hregistered hseal
  show TrackedSince _ _ (exec (run_later env _) w).2
  rw [exec_send_each hsession]
  have hsleep : Moves (Keeps (TrackedSince msg_id w.out.length))
      (sleep_before_next target_peer_id rest) := by
    unfold sleep_before_next
    exact Moves.ite (Moves.pure ()) ((parts_trackedSince _ _).emit _ (by simp))
  exact hsleep _ htracked

theorem Ledger.Accounted.waiting_step (h : l.Accounted) (hdue : Due l.world event)
    {peer_id content nickname id : Str}
    (hw : LeftToSend peer_id (content, nickname, id) (l.step env event).world) :
    ⟨peer_id, content, id⟩ ∈ (l.step env event).calls ∧ id ≠ [] := by
  rcases waiting_react event hdue hw with hbefore | ⟨content, nickname, message_id, rfl, hsession,
    hnew⟩ | ⟨content, nickname, id, rest, rfl, hagain⟩
  · obtain ⟨hcall, hne⟩ := h.waiting _ _ _ _ hbefore
    exact ⟨List.mem_append_left _ hcall, hne⟩
  · cases hnew
    refine ⟨List.mem_append_right _ ?_, queued_id_ne_nil env message_id⟩
    unfold returning
    dsimp only
    rw [queue_private_message_returns hsession]
    exact List.mem_singleton_self _
  · cases hagain
    obtain ⟨hcall, hne⟩ := h.waiting peer_id content nickname id
      (.inr ⟨_, mem_tasks_for hdue, List.mem_cons_self⟩)
    rw [queued_id_of_ne_nil env hne]
    exact ⟨List.mem_append_left _ hcall, hne⟩

theorem Ledger.Accounted.sealed_step (h : l.Accounted) (hdue : Due l.world event)
    (hkeeps : KeepsId l.world env event) (hr : new_sealed env l.world event = some r) :
    r.call ∈ (l.step env event).calls ∧ carried_id r.plain = some r.call.id ∧
      TrackedSince r.call.id r.since (l.step env event).world := by
  have hregistered := h.reachable.registered
  unfold new_sealed at hr
  obtain ⟨call, hserved, hr⟩ := Option.bind_eq_some_iff.mp hr
  obtain ⟨plain, hplain, hr⟩ := Option.bind_eq_some_iff.mp hr
  cases hr
  unfold serving at hserved
  split at hserved
  · rename_i peer_id content nickname id rest
    cases hserved
    obtain ⟨hcall, -⟩ := h.waiting peer_id content nickname id
      (.inr ⟨_, mem_tasks_for hdue, List.mem_cons_self⟩)
    exact ⟨List.mem_append_left _ hcall, sealed_after_waiting hregistered hkeeps hplain⟩
  · refine ⟨List.mem_append_right _ (hserved ▸ List.mem_singleton_self call), ?_⟩
    cases event with
    | private_message content target_peer_id nickname message_id =>
      exact sealed_at_once hregistered hserved hplain
    | _ => cases hserved

theorem Ledger.Accounted.step (h : l.Accounted) (hdue : Due l.world event)
    (hkeeps : KeepsId l.world env event) : (l.step env event).Accounted where
  reachable := h.reachable.step env event hdue
  waiting _ _ _ _ hw := h.waiting_step hdue hw
  sealed r hr := by
    rcases List.mem_append.mp hr with hold | hnew
    · obtain ⟨hcall, hcarried, htracked⟩ := h.sealed r hold
      refine ⟨List.mem_append_left _ hcall, hcarried, ?_⟩
      exact (parts_trackedSince _ _).react env event l.world htracked
    · exact h.sealed_step hdue hkeeps (Option.mem_toList.mp hnew)

theorem Ledger.Reached.accounted (h : Ledger.Reached KeepsId l) : l.Accounted := by
  induction h with
  | start my_peer_id config_nickname app_state static_identity_key =>
    refine ⟨.start _ _ _ _, ?_, ?_⟩
    · rintro peer_id content nickname id (hqueue | ⟨messages, hmem, -⟩)
      · cases hqueue
      · cases hmem
    · intro r hr
      cases hr
  | step _ env event hdue hkeeps ih => exact ih.step hdue hkeeps

end

/-! ## Every run -/

/-- An ACK that names a message which is tracked is reported. -/
theorem ack_reported {env : Env} {conn : PeerConnection} {raw : Bytes} {id : Str}
    {ack : DeliveryAck} {w : World} (htracked : IsTracked id w) (h : AckFor conn raw id ack w) :
    acknowledgements (exec (on_packet_received env conn raw) w).2.out =
      acknowledgements w.out ++ [ack] ∧
    Packages.json_str ack.original_message_id = some id := by
  obtain ⟨packet, payload, hparse, htype, hother, hfor, hopen, hack, hid⟩ := h
  refine ⟨?_, hid⟩
  rw [exec_on_packet_received hparse hother, handle_of_delivery_ack htype]
  generalize hheard : w.heard packet.sender_id_str conn.address = w₁ at hopen ⊢
  have hown : packet.recipient_id_str = some w₁.node.my_peer_id.str := by
    rw [← hheard]
    exact hfor
  have hopened := out_open_ack packet w₁
  have htracker := tracker_open_ack packet w₁
  rw [exec_handle_delivery_ack_own hown]
  rcases hexec : exec (open_ack packet) w₁ with ⟨result, w₂⟩
  rw [hexec] at hopen hopened htracker
  obtain rfl : result = .ok payload := hopen
  have htracked₂ : w₂.node.delivery_tracker.pending_messages.has id = true := by
    rw [htracker, ← hheard]
    exact htracked
  rw [exec_bind_ok _ hexec, exec_read_ack hack hid htracked₂, acknowledgements_append, hopened,
    ← hheard]
  rfl

/-- In a run in which no message that has waited is sealed under another id than
it waited under, every payload that is sealed carries the id that its call
returned, the message is tracked under it until an ACK for it is reported, and
an ACK that names the id which the receiver saw is reported under it. -/
theorem message_ids_are_stable {l : Ledger} (h : Ledger.Reached KeepsId l) :
    ∀ r ∈ l.sealed, r.call ∈ l.calls ∧ Stable r l.world := by
  intro r hr
  obtain ⟨hcall, hcarried, htracked⟩ := h.accounted.sealed r hr
  refine ⟨hcall, hcarried, htracked, ?_⟩
  intro hpending env conn raw id ack hid hack
  obtain rfl : id = r.call.id := Option.some.inj (hid.symm.trans hcarried)
  exact ack_reported hpending hack

/-- A payload that can be built and sealed is sealed under the id that is drawn
for it. -/
theorem seals {env : Env} {content target_peer_id : Str} {w : World}
    (hregistered : Registered w.node.encryption_service)
    (hsession : has_session target_peer_id w.node) (hbuild : Buildable content w.node)
    (hseal : Sealable target_peer_id content w.node) :
    ∃ plain encrypted sealed, exec (seal_private_message env w.node content target_peer_id) w =
      (.ok ((env.draw 0).uuid.str, plain, encrypted), sealed) := by
  obtain ⟨s, hs⟩ : ∃ s, w.node.encryption_service.sessions.get? target_peer_id = some s :=
    Option.isSome_iff_exists.mp hsession
  obtain ⟨⟨peer, rfl⟩, hsome⟩ := hregistered _ s hs
  obtain ⟨key, hkey⟩ := Option.isSome_iff_exists.mp hsome
  obtain ⟨payload, -, hcreate, hlength, -, -⟩ := private_payload w.node.nickname
    w.node.my_peer_id content (env.draw 0) ⟨hbuild.1, hbuild.2, peer_id_fits _, Nat.zero_le _⟩
  have hsize := hseal.1
  obtain ⟨inner_packet, hinner, -⟩ := create_for_peer w.node.my_peer_id peer payload (env.draw 2)
    (by decide : MessageType.MESSAGE ∉ exclude_recipient_types) (by omega)
  have hnonce : s.send_cipher.nonce < NoiseCipherState.NONCES := by
    have hsend := hseal.2
    unfold send_nonce at hsend
    rw [hs] at hsend
    exact hsend
  have hencrypt := exec_encrypt (n := s.send_cipher.nonce) (m := s.receive_cipher.nonce) hs hkey
    hnonce (with_ttl inner_packet 7)
  unfold seal_private_message
  simp only [hcreate, exec_bind, exec_outcome_ok, exec_modifyNode, hinner, exec_onService,
    EncryptionService.encrypt_for_peer, hencrypt, exec_pure]
  exact ⟨_, _, _, rfl⟩

/-- The condition leaves out nothing else: a step that does not meet it seals a
message under an id that its call did not return. -/
theorem loses_id {l : Ledger} (h : Ledger.Accounted l) {env : Env} {event : Event}
    (hnot : ¬ KeepsId l.world env event) :
    ∃ r ∈ (l.step env event).sealed, carried_id r.plain ≠ some r.call.id := by
  unfold KeepsId at hnot
  push Not at hnot
  obtain ⟨target_peer_id, content, nickname, id, rest, rfl, hsession, hbuild, hseal, hne⟩ := hnot
  obtain ⟨plain, encrypted, sealed, hexec⟩ := seals h.reachable.registered hsession hbuild hseal
  obtain ⟨-, -, -, -, hcarried, -, -⟩ := sealed_ok h.reachable.registered hexec
  refine ⟨⟨⟨target_peer_id, content, id⟩, plain, l.world.out.length⟩, ?_, ?_⟩
  · apply List.mem_append_right
    have hplain : sealed_plain env content target_peer_id l.world = some plain := by
      unfold sealed_plain
      rw [hexec]
    unfold new_sealed serving
    simp [hplain]
  · rw [hcarried]
    exact fun heq => hne (Option.some.inj heq)

end daemon

/-! ## On the stand-in -/

namespace daemon.standIn

open python bitchat bitchat.protocol

attribute [local instance] bitchat.standIn.packages

def first_ledger : Ledger := ⟨⟨node us 1, []⟩, [], []⟩

/-- The peer is met. -/
def acquainted_ledger : Ledger :=
  (first_ledger.step (env 1) (.connected conn)).step (env 1) (.packet conn (hello them))

/-- A message waits, and the peer's answer to the handshake brings a session. -/
def answered_ledger : Ledger :=
  (acquainted_ledger.step (env 2) (.private_message ['1'] them.str [] none)).step (env 3)
    (.packet conn answer)

/-- The message that waits, with the id that its call returned. -/
def waiting_message : Str × Str × Str := (['1'], [], (bitchat.standIn.draw 2).uuid.str)

/-- The flush sends it. -/
def flushed_ledger : Ledger :=
  answered_ledger.step (env 4) (.later (.send_each them.str [waiting_message]))

/-- Another message is sent at once. -/
def direct_ledger : Ledger :=
  answered_ledger.step (env 4) (.private_message ['2'] them.str [] none)

theorem keepsId_of_event (w : World) (env : Env) {event : Event}
    (h : ∀ task, event ≠ .later task) : KeepsId w env event := by
  intro target_peer_id content nickname id rest hevent
  exact absurd hevent (h _)

theorem reached_answered_ledger : Ledger.Reached KeepsId answered_ledger := by
  have hstart : Ledger.Reached KeepsId first_ledger :=
    .start us (some ['n']) (.init [1]) (bitchat.standIn.key 1)
  have hconnected := hstart.step (env 1) (.connected conn) trivial (keepsId_of_event _ _ (by simp))
  have hmet := hconnected.step (env 1) (.packet conn (hello them)) trivial
    (keepsId_of_event _ _ (by simp))
  have hqueued := hmet.step (env 2) (.private_message ['1'] them.str [] none) trivial
    (keepsId_of_event _ _ (by simp))
  exact hqueued.step (env 3) (.packet conn answer) trivial (keepsId_of_event _ _ (by simp))

/-- The flush of the message that waits. -/
def is_flush : Action → Bool
  | .later (.send_each peer_id messages) => peer_id = them.str ∧ messages = [waiting_message]
  | _ => false

/-- The flush was put off. -/
theorem due_flush : Due answered_ledger.world (.later (.send_each them.str [waiting_message])) := by
  have hput_off : answered_ledger.world.out.any is_flush = true := by
    decide +kernel
  obtain ⟨action, hmem, hflush⟩ := List.any_eq_true.mp hput_off
  unfold is_flush at hflush
  split at hflush
  · obtain ⟨rfl, rfl⟩ := of_decide_eq_true hflush
    exact hmem
  · cases hflush

end daemon.standIn

namespace daemon

open python bitchat bitchat.protocol

attribute [local instance] bitchat.standIn.packages

/-- A message that finds a session keeps its id. -/
theorem a_direct_message_keeps_its_id : ∃ r ∈ standIn.direct_ledger.sealed,
    r.call.content = ['2'] ∧ r.call ∈ standIn.direct_ledger.calls ∧
      Stable r standIn.direct_ledger.world := by
  have hreached : Ledger.Reached KeepsId standIn.direct_ledger :=
    standIn.reached_answered_ledger.step (standIn.env 4)
      (.private_message ['2'] standIn.them.str [] none) trivial
      (standIn.keepsId_of_event _ _ (by simp))
  have hsealed : standIn.direct_ledger.sealed.any (fun r => r.call.content = ['2']) = true := by
    decide +kernel
  obtain ⟨r, hr, hcontent⟩ := List.any_eq_true.mp hsealed
  exact ⟨r, hr, of_decide_eq_true hcontent, message_ids_are_stable hreached r hr⟩

/-- A message that has waited is sealed under an id that its call did not
return. -/
theorem a_queued_message_loses_its_id : ∃ l : Ledger, Ledger.Reached (fun _ _ _ => True) l ∧
    ∃ r ∈ l.sealed, r.call ∈ l.calls ∧ ¬ Stable r l.world := by
  have hreached : Ledger.Reached (fun _ _ _ => True) standIn.flushed_ledger :=
    (standIn.reached_answered_ledger.mono fun _ _ _ _ => trivial).step (standIn.env 4) _
      standIn.due_flush trivial
  have hsealed : standIn.flushed_ledger.sealed.any (fun r =>
      r.call ∈ standIn.flushed_ledger.calls ∧ carried_id r.plain ≠ some r.call.id) = true := by
    decide +kernel
  obtain ⟨r, hr, hwrong⟩ := List.any_eq_true.mp hsealed
  obtain ⟨hcall, hcarried⟩ := of_decide_eq_true hwrong
  exact ⟨_, hreached, r, hr, hcall, fun hstable => hcarried hstable.carried⟩

end daemon
