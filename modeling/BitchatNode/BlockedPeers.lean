-- A blocked peer stays silent as long as its session stands: the block is read
-- off the session table, and a `LEAVE` or a lost connection takes the session
-- away.
import BitchatNode.Presence
import BitchatNode.Queues

namespace daemon

open python bitchat bitchat.protocol bitchat.encryption

variable [Packages]

/-! ## What keeps a session -/

/-- With the connection at the address goes this peer. -/
def Loses (n : MeshNode) (address peer_id : Str) : Prop :=
  n.peer_at address = some peer_id ∧ peer_id ≠ []

/-- No connection on which a write fails takes the peer with it. -/
def SparedByWrites (peer_id : Str) (env : Env) (n : MeshNode) : Prop :=
  ∀ conn, (conn.address, conn) ∈ n.connections.entries → env.write_fails conn.address = true →
    ¬ Loses n conn.address peer_id

/-- There is a session with the peer under this fingerprint, and no connection
on which a write fails takes it away. -/
structure Held (peer_id fingerprint : Str) (env : Env) (w : World) : Prop where
  session : w.node.encryption_service.get_peer_fingerprint peer_id = some fingerprint
  filed : Filed w.node
  safe : SparedByWrites peer_id env w.node

section

variable {peer_id fingerprint : Str} {env : Env}

theorem Held.of_same {w w' : World} (h : Held peer_id fingerprint env w)
    (hconnections : w'.node.connections = w.node.connections)
    (haddresses : w'.node.peer_addresses = w.node.peer_addresses)
    (hsession : w'.node.encryption_service.get_peer_fingerprint peer_id = some fingerprint) :
    Held peer_id fingerprint env w' := by
  refine ⟨hsession, ?_, ?_⟩
  · intro e he
    rw [hconnections] at he
    exact h.filed e he
  · intro conn hconn hfails hloses
    rw [hconnections] at hconn
    apply h.safe conn hconn hfails
    unfold Loses MeshNode.peer_at at hloses ⊢
    rwa [haddresses] at hloses

theorem held_emit (action : Action) : Moves (Keeps (Held peer_id fingerprint env)) (emit action) :=
  fun _ h => h.of_same rfl rfl h.session

theorem held_modifyNode {f : MeshNode → MeshNode}
    (h : ∀ n, (f n).connections = n.connections ∧ (f n).peer_addresses = n.peer_addresses ∧
      (f n).encryption_service.sessions = n.encryption_service.sessions) :
    Moves (Keeps (Held peer_id fingerprint env)) (modifyNode f) := by
  intro w hheld
  obtain ⟨hconnections, haddresses, hsessions⟩ := h w.node
  refine hheld.of_same hconnections haddresses ?_
  show (f w.node).encryption_service.get_peer_fingerprint peer_id = _
  unfold EncryptionService.get_peer_fingerprint
  rw [hsessions]
  exact hheld.session

theorem fingerprint_without (n : MeshNode) {other : Str} (h : other ≠ peer_id) :
    (n.without other).encryption_service.get_peer_fingerprint peer_id =
      n.encryption_service.get_peer_fingerprint peer_id := by
  unfold EncryptionService.get_peer_fingerprint
  rw [(sameOnFile_without n h).sessions]

/-- What goes with a connection is another peer. -/
theorem fingerprint_on_peer_disconnected {conn : PeerConnection} {w : World}
    (hkeeps : ¬ Loses w.node conn.address peer_id) :
    (exec (on_peer_disconnected conn) w).2.node.encryption_service.get_peer_fingerprint peer_id =
      w.node.encryption_service.get_peer_fingerprint peer_id := by
  rw [exec_on_peer_disconnected]
  split
  · rename_i other hother
    split
    · rename_i hne
      rw [node_remove_peer]
      refine fingerprint_without _ ?_
      rintro rfl
      exact hkeeps ⟨hother, hne⟩
    · rfl
  · rfl

/-- The other connections keep their first peer. -/
theorem peer_at_on_peer_disconnected {conn : PeerConnection} {address : Str}
    (haddress : conn.address ≠ address) (w : World) :
    (exec (on_peer_disconnected conn) w).2.node.peer_at address = w.node.peer_at address := by
  rw [exec_on_peer_disconnected]
  split
  · rename_i other hother
    split
    · rw [node_remove_peer]
      exact peer_at_without (filedUnder_peer_at hother) haddress
    · rfl
  · rfl

theorem held_on_read_done {conn : PeerConnection} {w : World}
    (hkeeps : ¬ Loses w.node conn.address peer_id) :
    Keeps (Held peer_id fingerprint env) w (exec (on_read_done conn) w).2 := by
  intro h
  refine ⟨?_, ?_, ?_⟩
  · unfold on_read_done
    rw [exec_bind_ok _ (exec_modifyNode _ w)]
    refine (fingerprint_on_peer_disconnected ?_).trans h.session
    exact hkeeps
  · intro e he
    rw [connections_on_read_done] at he
    exact h.filed e (Dict.mem_entries_pop.mp he).1
  · intro other hother hfails hloses
    rw [connections_on_read_done, Dict.mem_entries_pop] at hother
    apply h.safe other hother.1 hfails
    unfold on_read_done Loses at hloses
    rw [exec_bind_ok _ (exec_modifyNode _ w),
      peer_at_on_peer_disconnected (Ne.symm hother.2)] at hloses
    exact hloses

theorem held_onService {α : Type} {x : Py PyError EncryptionService α}
    (h : ∀ svc, (exec x svc).2.get_peer_fingerprint peer_id = svc.get_peer_fingerprint peer_id) :
    Moves (Keeps (Held peer_id fingerprint env)) (onService x) :=
  fun w hheld => hheld.of_same rfl rfl ((h w.node.encryption_service).trans hheld.session)

/-- A session that only goes on keeps its fingerprint. -/
theorem fingerprint_set {svc : EncryptionService} {other : Str} {session session' : NoiseSession}
    (hsession : svc.sessions.get? other = some session)
    (hsame : session'.get_fingerprint = session.get_fingerprint) :
    ({ svc with sessions := svc.sessions.set other session' } :
      EncryptionService).get_peer_fingerprint peer_id = svc.get_peer_fingerprint peer_id := by
  unfold EncryptionService.get_peer_fingerprint
  by_cases h : other = peer_id
  · subst h
    rw [Dict.get?_set_self, hsession, Option.map_some, Option.map_some, hsame]
  · rw [Dict.get?_set_ne _ _ h]

theorem fingerprint_encrypt (data : Bytes) (other : Str) (svc : EncryptionService) :
    (exec (EncryptionService.encrypt data other) svc).2.get_peer_fingerprint peer_id =
      svc.get_peer_fingerprint peer_id := by
  unfold EncryptionService.encrypt
  simp only [exec_bind, exec_get]
  cases hsession : svc.sessions.get? other with
  | none => rfl
  | some session =>
    simp only [exec_bind, exec_set]
    rcases exec (NoiseCipherState.encrypt data []) session.send_cipher with ⟨result, cipher⟩
    cases result <;> exact fingerprint_set hsession rfl

theorem fingerprint_decrypt (other : Str) (data : Bytes) (svc : EncryptionService) :
    (exec (EncryptionService.decrypt_from_peer other data) svc).2.get_peer_fingerprint peer_id =
      svc.get_peer_fingerprint peer_id := by
  unfold EncryptionService.decrypt_from_peer
  simp only [exec_bind, exec_get]
  cases hsession : svc.sessions.get? other with
  | none => rfl
  | some session =>
    simp only [exec_bind, exec_set]
    rcases exec (NoiseCipherState.decrypt data []) session.receive_cipher with ⟨result, cipher⟩
    cases result <;> exact fingerprint_set hsession rfl

theorem steady_held (peer_id fingerprint : Str) (env : Env) :
    Steady env (Keeps (Held peer_id fingerprint env)) where
  adjust _ hsame hsessions := held_modifyNode fun n =>
    ⟨(hsame n).connections, (hsame n).peer_addresses, (hsessions n).sessions⟩
  encrypt data other := held_onService (fingerprint_encrypt data other)
  decrypt other data := held_onService (fingerprint_decrypt other data)
  on_delivery_ack _ := held_emit _
  saved _ := held_emit _
  send_to_peer := keeps_send_to_peer (fun _ h => h.filed) (fun _ h _ _ => held_emit _ _ h)
    fun conn _ hconn hfails h => held_on_read_done (h.safe conn hconn hfails) h
  raw_send := keeps_raw_send (fun _ h => h.filed) (fun _ h _ _ => held_emit _ _ h)
    fun conn _ hconn hfails h => held_on_read_done (h.safe conn hconn hfails) h

theorem Held.has_session {w : World} (h : Held peer_id fingerprint env w) :
    has_session peer_id w.node := by
  have hsession := h.session
  unfold EncryptionService.get_peer_fingerprint at hsession
  obtain ⟨session, hget, -⟩ := Option.map_eq_some_iff.mp hsession
  unfold daemon.has_session EncryptionService.is_session_established Dict.has
  rw [hget]
  rfl

/-! ## Handshakes -/

/-- A handshake is started with another peer. -/
theorem held_initiate_handshake {other : Str} (hother : other ≠ peer_id) :
    Moves (Keeps (Held peer_id fingerprint env)) (initiate_handshake env other) := by
  unfold initiate_handshake
  refine Moves.suppress (Moves.bind (held_onService fun svc => ?_) fun msg => ?_)
  · unfold EncryptionService.get_peer_fingerprint
    rw [sessions_initiate, Dict.get?_pop_ne _ hother]
  · refine Moves.bind moves_node fun self => ?_
    exact Moves.bind (Moves.outcome _) fun _ => (steady_held peer_id fingerprint env).send_to_peer _ _

theorem held_announced (other nickname : Str) :
    Moves (Keeps (Held peer_id fingerprint env)) (announced other nickname) := by
  unfold announced
  refine Moves.bind moves_node fun self => ?_
  refine Moves.bind (held_modifyNode fun _ => ⟨rfl, rfl, rfl⟩) fun _ => ?_
  split
  · exact Moves.pure ()
  · exact held_emit _

/-- The tie-breaker starts no handshake where there is a session. -/
theorem held_handle_noise_identity_announce (packet : BitchatPacket) :
    Moves (Keeps (Held peer_id fingerprint env)) (handle_noise_identity_announce env packet) := by
  intro w h
  unfold handle_noise_identity_announce
  simp only [exec_bind, exec_node]
  split
  · exact h
  · split
    · exact h
    · rename_i other nickname _
      have hannounced := held_announced other nickname w h
      obtain ⟨hok, -⟩ := exec_announced other nickname w
      rcases hdone : exec (announced other nickname) w with ⟨result, v⟩
      rw [hdone] at hannounced hok
      subst hok
      rw [exec_bind_ok _ hdone, exec_ite]
      split
      · rename_i hfirst
        refine held_initiate_handshake ?_ v hannounced
        rintro rfl
        exact hfirst.2 h.has_session
      · exact hannounced

/-- The fingerprint that the message authenticates the peer under. -/
def authenticated (env : Env) (svc : EncryptionService) (peer_id : Str) (message : Bytes) :
    Option Str :=
  match (exec (EncryptionService.process_handshake_message peer_id message (env.draw 0).generate
      (env.draw 0).time_us) svc).1 with
  | .ok (_, some (_, fingerprint)) => some fingerprint
  | _ => none

/-- A message opens a session under the fingerprint that it authenticates, and
closes none. -/
theorem fingerprint_process (peer_id : Str) (env : Env) (svc : EncryptionService)
    (message : Bytes) :
    (exec (EncryptionService.process_handshake_message peer_id message (env.draw 0).generate
        (env.draw 0).time_us) svc).2.get_peer_fingerprint peer_id =
      (authenticated env svc peer_id message).or (svc.get_peer_fingerprint peer_id) := by
  have hopens := opens_process peer_id message (env.draw 0).generate (env.draw 0).time_us svc
  unfold authenticated
  generalize exec (EncryptionService.process_handshake_message peer_id message
    (env.draw 0).generate (env.draw 0).time_us) svc = done at hopens ⊢
  cases hopens with
  | @nothing result svc' hresult hsessions =>
    have hnone : (match (result, svc').1 with
        | .ok (_, some (_, fingerprint)) => some fingerprint
        | _ => none) = none := by
      cases result with
      | error e => rfl
      | ok answer =>
        obtain ⟨response, authenticated⟩ := answer
        obtain rfl : authenticated = none := hresult _ rfl
        rfl
    rw [hnone]
    exact congrArg (fun sessions => (sessions.get? peer_id).map NoiseSession.get_fingerprint)
      hsessions
  | @session response session svc' hsessions =>
    show (svc'.sessions.get? peer_id).map NoiseSession.get_fingerprint = _
    rw [hsessions, Dict.get?_set_self]
    rfl

/-- A message of another peer opens no session with this one, and closes none. -/
theorem fingerprint_process_other {other : Str} (hother : other ≠ peer_id)
    (svc : EncryptionService) (message : Bytes) :
    (exec (EncryptionService.process_handshake_message other message (env.draw 0).generate
        (env.draw 0).time_us) svc).2.get_peer_fingerprint peer_id =
      svc.get_peer_fingerprint peer_id := by
  have hopens := opens_process other message (env.draw 0).generate (env.draw 0).time_us svc
  generalize exec (EncryptionService.process_handshake_message other message
    (env.draw 0).generate (env.draw 0).time_us) svc = done at hopens ⊢
  cases hopens with
  | @nothing result svc' hresult hsessions =>
    exact congrArg (fun sessions => (sessions.get? peer_id).map NoiseSession.get_fingerprint)
      hsessions
  | @session response session svc' hsessions =>
    show (svc'.sessions.get? peer_id).map NoiseSession.get_fingerprint = _
    rw [hsessions, Dict.get?_set_ne _ _ hother]
    rfl

theorem held_on_peer_authenticated (authenticated : Option (Str × Str)) :
    Moves (Keeps (Held peer_id fingerprint env)) (on_peer_authenticated authenticated) := by
  rcases authenticated with _ | ⟨other, other_fingerprint⟩
  · exact Moves.pure ()
  · exact held_emit _

theorem held_process_other {other : Str} (hother : other ≠ peer_id) (message : Bytes) :
    Moves (Keeps (Held peer_id fingerprint env)) (process_handshake_message env other message) := by
  unfold process_handshake_message
  refine Moves.bind (held_onService fun svc => fingerprint_process_other hother svc message)
    fun answer => ?_
  obtain ⟨response, authenticated⟩ := answer
  exact Moves.bind (held_on_peer_authenticated _) fun _ => Moves.pure _

theorem held_send_pending (other : Str) :
    Moves (Keeps (Held peer_id fingerprint env)) (send_pending_private_messages other) := by
  unfold send_pending_private_messages
  refine Moves.bind moves_node fun self => ?_
  refine Moves.bind (held_modifyNode fun _ => ⟨rfl, rfl, rfl⟩) fun _ => ?_
  exact Moves.ite (Moves.pure ()) (held_emit _)

theorem held_session_established (other : Str) :
    Moves (Keeps (Held peer_id fingerprint env)) (session_established other) := by
  unfold session_established
  refine Moves.bind moves_node fun self => ?_
  refine Moves.ite ?_ (Moves.pure ())
  exact Moves.bind (held_modifyNode fun _ => ⟨rfl, rfl, rfl⟩) fun _ => held_send_pending other

section

variable {w : World} (hfiled : Filed w.node)
  (hsafe : SparedByWrites peer_id env w.node)

include hfiled hsafe in
/-- A message of the peer itself: the session is the one that it opens, or the
one that there was. -/
theorem held_process {message : Bytes}
    (hsession : (authenticated env w.node.encryption_service peer_id message).or
      (w.node.encryption_service.get_peer_fingerprint peer_id) = some fingerprint) :
    Held peer_id fingerprint env (exec (process_handshake_message env peer_id message) w).2 := by
  have hprocess := fingerprint_process peer_id env w.node.encryption_service message
  have hheld : Held peer_id fingerprint env (exec (onService
      (EncryptionService.process_handshake_message peer_id message (env.draw 0).generate
        (env.draw 0).time_us)) w).2 := by
    rw [exec_onService]
    exact ⟨hprocess.trans hsession, hfiled, hsafe⟩
  unfold process_handshake_message
  rcases hcall : exec (onService (EncryptionService.process_handshake_message peer_id message
    (env.draw 0).generate (env.draw 0).time_us)) w with ⟨result, v⟩
  rw [hcall] at hheld
  cases result with
  | error e =>
    rw [exec_bind_error _ hcall]
    exact hheld
  | ok answer =>
    rw [exec_bind_ok _ hcall]
    obtain ⟨response, opened⟩ := answer
    have hrest : Moves (Keeps (Held peer_id fingerprint env)) (do
        on_peer_authenticated opened
        return response.filter (· ≠ [])) :=
      Moves.bind (held_on_peer_authenticated opened) fun _ => Moves.pure _
    exact hrest v hheld

include hfiled hsafe in
theorem held_take_handshake (answer : MessageType) {packet : BitchatPacket}
    (hsender : packet.sender_id_str = peer_id)
    (hsession : (authenticated env w.node.encryption_service peer_id packet.payload).or
      (w.node.encryption_service.get_peer_fingerprint peer_id) = some fingerprint) :
    Held peer_id fingerprint env (exec (take_handshake answer env packet) w).2 := by
  have hheld := held_process hfiled hsafe hsession
  unfold take_handshake
  rw [hsender]
  rcases hprocess : exec (process_handshake_message env peer_id packet.payload) w with ⟨result, v⟩
  rw [hprocess] at hheld
  cases result with
  | error e =>
    rw [exec_bind_error _ hprocess]
    exact hheld
  | ok response =>
    rw [exec_bind_ok _ hprocess]
    have hanswer := (steady_held peer_id fingerprint env).answer_handshake answer peer_id response
    exact Moves.bind hanswer (fun _ => held_session_established peer_id) v hheld

include hfiled hsafe in
/-- A handshake packet of the peer, unless it is for another node. -/
theorem held_handle_noise_handshake (answer : MessageType) {packet : BitchatPacket}
    (hsender : packet.sender_id_str = peer_id)
    (hsession : (if for_another w.node packet = false then
        authenticated env w.node.encryption_service peer_id packet.payload
      else none).or (w.node.encryption_service.get_peer_fingerprint peer_id) = some fingerprint) :
    Held peer_id fingerprint env (exec (handle_noise_handshake answer env packet) w).2 := by
  unfold handle_noise_handshake
  rw [exec_bind_ok _ (exec_node w), exec_ite]
  split
  · rename_i hanother
    rw [if_neg (by rw [hanother]; simp)] at hsession
    exact ⟨hsession, hfiled, hsafe⟩
  · rename_i hours
    rw [if_pos (Bool.eq_false_of_not_eq_true hours)] at hsession
    have htake := held_take_handshake hfiled hsafe answer hsender hsession
    rw [exec_bind, exec_attempt]
    rcases hdone : exec (take_handshake answer env packet) w with ⟨result, v⟩
    rw [hdone] at htake
    cases result with
    | ok _ => exact htake
    | error e => exact htake.of_same rfl rfl htake.session

include hfiled hsafe in
theorem held_handle_key_exchange {packet : BitchatPacket} (hsender : packet.sender_id_str = peer_id)
    (hsession : (authenticated env w.node.encryption_service peer_id packet.payload).or
      (w.node.encryption_service.get_peer_fingerprint peer_id) = some fingerprint) :
    Held peer_id fingerprint env (exec (handle_key_exchange env packet) w).2 := by
  have hheld := held_process hfiled hsafe hsession
  unfold handle_key_exchange
  rw [exec_suppress, exec_bind_ok _ (exec_node w), hsender]
  rcases hprocess : exec (process_handshake_message env peer_id packet.payload) w with ⟨result, v⟩
  rw [hprocess] at hheld
  cases result with
  | error e =>
    rw [exec_bind_error _ hprocess]
    exact hheld
  | ok response =>
    rw [exec_bind_ok _ hprocess]
    cases response with
    | none => exact hheld
    | some response =>
      have hsend : Moves (Keeps (Held peer_id fingerprint env)) (do
          let resp_packet ← outcome (create_bitchat_packet w.node.my_peer_id.str .KEY_EXCHANGE
            response (env.draw 1))
          send_to_peer env peer_id resp_packet) :=
        Moves.bind (Moves.outcome _) fun _ =>
          (steady_held peer_id fingerprint env).send_to_peer _ _
      exact hsend v hheld

end

/-! ## Events -/

/-- A packet of another peer, or one of the peer that is neither a leave nor a
handshake message. -/
theorem held_handle {packet : BitchatPacket} (raw : Bytes) (hleave : packet.msg_type ≠ .LEAVE)
    (hhandshake : packet.msg_type = .NOISE_HANDSHAKE_INIT ∨
      packet.msg_type = .NOISE_HANDSHAKE_RESP → packet.sender_id_str ≠ peer_id)
    (hkey : packet.msg_type = .KEY_EXCHANGE → packet.sender_id_str ≠ peer_id) :
    Moves (Keeps (Held peer_id fingerprint env)) (handle env packet raw) := by
  have hsteady := steady_held peer_id fingerprint env
  refine hsteady.handle ?_ ?_ ?_ ?_ ?_ ?_ ?_
  · exact Moves.ite (Moves.pure ()) (held_emit _)
  · intro _ message is_private w _
    have hdeliver : Moves (Keeps (Held peer_id fingerprint env))
        (deliver message packet.sender_id_str is_private) := by
      unfold deliver
      refine Moves.bind moves_node fun self => ?_
      split
      · exact Moves.throw _
      · exact Moves.bind (held_modifyNode fun _ => ⟨rfl, rfl, rfl⟩) fun _ => held_emit _
    exact hdeliver w
  · exact fun _ => held_announced _ _
  · exact fun _ => held_handle_noise_identity_announce packet
  · exact fun htype => absurd htype hleave
  · intro htype answer
    unfold handle_noise_handshake
    refine Moves.bind moves_node fun self => ?_
    refine Moves.ite (Moves.pure ()) ?_
    refine Moves.bind (Moves.attempt ?_) fun result => ?_
    · unfold take_handshake
      refine Moves.bind (held_process_other (hhandshake htype) _) fun response => ?_
      refine Moves.bind (hsteady.answer_handshake answer _ response) fun _ => ?_
      exact held_session_established _
    · cases result with
      | ok _ => exact Moves.pure ()
      | error e => exact held_modifyNode fun _ => ⟨rfl, rfl, rfl⟩
  · intro htype
    unfold handle_key_exchange
    refine Moves.suppress (Moves.bind moves_node fun self => ?_)
    refine Moves.bind (held_process_other (hkey htype) _) fun response => ?_
    cases response with
    | none => exact Moves.pure ()
    | some response => exact Moves.bind (Moves.outcome _) fun _ => hsteady.send_to_peer _ _

theorem Held.of_env {env' : Env} {w : World} (h : Held peer_id fingerprint env w)
    (hfails : env'.write_fails = env.write_fails) : Held peer_id fingerprint env' w := by
  refine ⟨h.session, h.filed, ?_⟩
  unfold SparedByWrites
  rw [hfails]
  exact h.safe

theorem held_attempt_if_due {other : Str} (hother : other ≠ peer_id) (current_time : UInt64) :
    Moves (Keeps (Held peer_id fingerprint env)) (attempt_if_due env other current_time) := by
  have hattempt : Moves (Keeps (Held peer_id fingerprint env))
      (attempt_handshake env other current_time) := by
    unfold attempt_handshake
    refine Moves.bind (held_modifyNode fun _ => ⟨rfl, rfl, rfl⟩) fun _ => ?_
    exact held_initiate_handshake hother
  unfold attempt_if_due
  refine Moves.bind moves_node fun self => ?_
  split
  · exact Moves.ite (Moves.pure ()) hattempt
  · exact hattempt

/-- A handshake is started where there is no session. -/
theorem held_send_private_message (content other nickname : Str) (message_id : Option Str) :
    Moves (Keeps (Held peer_id fingerprint env))
      (send_private_message env content other nickname message_id) := by
  intro w h
  unfold send_private_message
  rw [exec_bind_ok _ (exec_node w), exec_ite]
  split
  · exact (steady_held peer_id fingerprint env).encrypt_private_message content other w h
  · rename_i hnone
    have hother : other ≠ peer_id := by
      rintro rfl
      exact hnone h.has_session
    have hqueue : Moves (Keeps (Held peer_id fingerprint (env.skip 2)))
        (queue_private_message env content other nickname message_id) := by
      unfold queue_private_message
      refine Moves.bind moves_node fun self => ?_
      refine Moves.bind (held_modifyNode fun _ => ⟨rfl, rfl, rfl⟩) fun _ => ?_
      exact Moves.bind (held_attempt_if_due hother _) fun _ => Moves.pure _
    exact (hqueue w (h.of_env rfl)).of_env rfl

theorem held_run_later (task : Later) :
    Moves (Keeps (Held peer_id fingerprint env)) (run_later env task) := by
  cases task with
  | relay raw ttl => exact (steady_held peer_id fingerprint env).raw_send _
  | send_pending_private_messages other => exact held_send_pending other
  | send_each other messages =>
    cases messages with
    | nil => exact Moves.pure ()
    | cons m rest =>
      unfold run_later
      refine Moves.bind (Moves.suppress (held_send_private_message _ _ _ _)) fun _ => ?_
      exact Moves.ite (Moves.pure ()) (held_emit _)

end

/-! ## What a step makes of the session -/

/-- The handshake message of the packet is taken up. -/
def takes_handshake (self : MeshNode) (packet : BitchatPacket) : Bool :=
  match packet.msg_type with
  | .NOISE_HANDSHAKE_INIT | .NOISE_HANDSHAKE_RESP => !for_another self packet
  | .KEY_EXCHANGE => true
  | _ => false

/-- The fingerprint of the static key under which the event completes a
handshake with the peer, if it does. -/
def completed (env : Env) (self : MeshNode) (peer_id : Str) : Event → Option Str
  | .packet _ raw =>
    match parse_bitchat_packet raw with
    | .ok packet =>
      if packet.sender_id_str = peer_id ∧ peer_id ≠ self.my_peer_id.str ∧
          takes_handshake self packet then
        authenticated env self.encryption_service peer_id packet.payload
      else none
    | .error _ => none
  | _ => none

/-- The step does not take the peer: neither a leave of its own does, nor the
loss of a connection, the losses by failing writes included. -/
def SparesPeer (peer_id : Str) (w : World) (env : Env) : Event → Prop
  | .packet conn raw => ∀ packet, parse_bitchat_packet raw = .ok packet →
      packet.sender_id_str ≠ w.node.my_peer_id.str →
        SparedByWrites peer_id env (w.heard packet.sender_id_str conn.address).node ∧
        (packet.msg_type = .LEAVE → leaves_channel packet = false →
          packet.sender_id_str ≠ peer_id)
  | .connected _ => True
  | .read_done conn => ¬ Loses w.node conn.address peer_id
  | .disconnect addr => ∀ conn, w.node.connections.get? addr = some conn →
      ¬ Loses w.node conn.address peer_id
  | _ => SparedByWrites peer_id env w.node

section

variable {peer_id fingerprint : Str} {env : Env} {packet : BitchatPacket} {raw : Bytes} {w : World}

theorem session_handle_leave
    (hsession : w.node.encryption_service.get_peer_fingerprint peer_id = some fingerprint)
    (hother : leaves_channel packet = false → packet.sender_id_str ≠ peer_id) :
    (exec (handle_leave packet raw) w).2.node.encryption_service.get_peer_fingerprint peer_id =
      some fingerprint := by
  have htake : (exec (take_leave packet) w).2.node.encryption_service.get_peer_fingerprint
      peer_id = some fingerprint := by
    unfold take_leave
    rw [exec_ite]
    split
    · exact hsession
    · rename_i hleaves
      rw [node_remove_peer]
      rw [Bool.not_eq_true] at hleaves
      exact (fingerprint_without _ (hother hleaves)).trans hsession
  unfold handle_leave
  rw [exec_bind]
  rcases hdone : exec (take_leave packet) w with ⟨result, v⟩
  rw [hdone] at htake
  cases result with
  | error e => exact htake
  | ok _ =>
    dsimp only
    rw [exec_relay]
    split <;> exact htake

/-- What a packet of another node makes of the session. -/
theorem session_handle (hfiled : Filed w.node) (hsafe : SparedByWrites peer_id env w.node)
    (hleave : packet.msg_type = .LEAVE → leaves_channel packet = false →
      packet.sender_id_str ≠ peer_id)
    (hsession : (if packet.sender_id_str = peer_id ∧ takes_handshake w.node packet then
        authenticated env w.node.encryption_service peer_id packet.payload
      else none).or (w.node.encryption_service.get_peer_fingerprint peer_id) = some fingerprint) :
    (exec (handle env packet raw) w).2.node.encryption_service.get_peer_fingerprint peer_id =
      some fingerprint := by
  by_cases htype : packet.msg_type = .LEAVE
  · have hhandle : handle env packet raw = handle_leave packet raw :=
      handle_of_handler (by rw [handler, htype])
    rw [hhandle]
    refine session_handle_leave ?_ (hleave htype)
    unfold takes_handshake at hsession
    rw [htype] at hsession
    simpa using hsession
  · by_cases hsender : packet.sender_id_str = peer_id
    · have hhandshake (answer : MessageType)
          (htakes : takes_handshake w.node packet = !for_another w.node packet)
          (hhandle : handle env packet raw = handle_noise_handshake answer env packet) :
          (exec (handle env packet raw) w).2.node.encryption_service.get_peer_fingerprint
            peer_id = some fingerprint := by
        rw [hhandle]
        refine (held_handle_noise_handshake hfiled hsafe answer hsender ?_).session
        rw [htakes] at hsession
        simpa [hsender] using hsession
      by_cases hinit : packet.msg_type = .NOISE_HANDSHAKE_INIT
      · apply hhandshake .NOISE_HANDSHAKE_RESP
        · unfold takes_handshake
          rw [hinit]
        · exact handle_of_handler (by rw [handler, hinit]; rfl)
      · by_cases hresp : packet.msg_type = .NOISE_HANDSHAKE_RESP
        · apply hhandshake .NOISE_HANDSHAKE_INIT
          · unfold takes_handshake
            rw [hresp]
          · exact handle_of_handler (by rw [handler, hresp]; rfl)
        · by_cases hkey : packet.msg_type = .KEY_EXCHANGE
          · have hhandle : handle env packet raw = handle_key_exchange env packet :=
              handle_of_handler (by rw [handler, hkey])
            rw [hhandle]
            refine (held_handle_key_exchange hfiled hsafe hsender ?_).session
            unfold takes_handshake at hsession
            rw [hkey] at hsession
            simpa [hsender] using hsession
          · have hnone : takes_handshake w.node packet = false := by
              unfold takes_handshake
              split <;> first | contradiction | rfl
            rw [hnone, if_neg (by simp)] at hsession
            have hheld : Held peer_id fingerprint env w := ⟨hsession, hfiled, hsafe⟩
            refine (held_handle raw htype ?_ ?_ w hheld).session
            · exact fun h => (h.elim hinit hresp).elim
            · exact fun h => absurd h hkey
    · rw [if_neg fun h => hsender h.1] at hsession
      have hheld : Held peer_id fingerprint env w := ⟨hsession, hfiled, hsafe⟩
      exact (held_handle raw htype (fun _ => hsender) (fun _ => hsender) w hheld).session

/-- What a step that spares the peer makes of its session. -/
theorem session_react {event : Event} (hfiled : Filed w.node)
    (hspares : SparesPeer peer_id w env event)
    (hsession : (completed env w.node peer_id event).or
      (w.node.encryption_service.get_peer_fingerprint peer_id) = some fingerprint) :
    (exec (react env event) w).2.node.encryption_service.get_peer_fingerprint peer_id =
      some fingerprint := by
  have hsteady := steady_held peer_id fingerprint env
  have hcall {x : Mesh Unit} (hx : Moves (Keeps (Held peer_id fingerprint env)) x)
      (hsafe : SparedByWrites peer_id env w.node)
      (hold : w.node.encryption_service.get_peer_fingerprint peer_id = some fingerprint) :
      (exec x w).2.node.encryption_service.get_peer_fingerprint peer_id = some fingerprint :=
    (hx w ⟨hold, hfiled, hsafe⟩).session
  cases event with
  | packet conn raw =>
    show (exec (on_packet_received env conn raw) w).2.node.encryption_service.get_peer_fingerprint
      peer_id = some fingerprint
    unfold completed at hsession
    dsimp only at hsession
    rcases hparse : parse_bitchat_packet raw with e | packet
    · rw [hparse] at hsession
      unfold on_packet_received
      simp only [exec_bind, exec_node, hparse, exec_pure]
      exact hsession
    · rw [hparse] at hsession
      dsimp only at hsession
      by_cases hown : packet.sender_id_str = w.node.my_peer_id.str
      · have hnone : ¬ (packet.sender_id_str = peer_id ∧ peer_id ≠ w.node.my_peer_id.str ∧
            takes_handshake w.node packet = true) := fun h => h.2.1 (h.1.symm.trans hown)
        rw [if_neg hnone] at hsession
        unfold on_packet_received
        simp only [exec_bind, exec_node, hparse, hown, if_true, exec_pure]
        exact hsession
      · obtain ⟨hsafe, hleave⟩ := hspares packet hparse hown
        rw [exec_on_packet_received hparse hown]
        refine session_handle hfiled hsafe hleave ?_
        refine Eq.trans ?_ hsession
        congr 1
        refine if_congr ⟨?_, fun h => ⟨h.1, h.2.2⟩⟩ rfl rfl
        rintro ⟨rfl, htakes⟩
        exact ⟨rfl, hown, htakes⟩
  | later task => exact hcall (held_run_later task) hspares hsession
  | connected conn => exact hsession
  | read_done conn =>
    show (exec (on_read_done conn) w).2.node.encryption_service.get_peer_fingerprint peer_id = _
    unfold on_read_done
    rw [exec_bind_ok _ (exec_modifyNode _ w)]
    refine (fingerprint_on_peer_disconnected ?_).trans hsession
    exact hspares
  | disconnect addr =>
    show (exec (disconnect addr) w).2.node.encryption_service.get_peer_fingerprint peer_id = _
    unfold disconnect
    rw [exec_bind_ok _ (exec_node w)]
    split
    · exact hsession
    · rename_i conn hconn
      rw [exec_bind_ok _ (exec_modifyNode _ w)]
      refine (fingerprint_on_peer_disconnected ?_).trans hsession
      exact hspares conn hconn
  | announce => exact hcall hsteady.send_announce hspares hsession
  | identity_announce => exact hcall hsteady.send_identity_announce hspares hsession
  | leave => exact hcall hsteady.send_leave hspares hsession
  | save => exact hcall hsteady.save_state hspares hsession
  | set_name nickname =>
    refine hcall (x := handle_set_name env nickname) ?_ hspares hsession
    unfold handle_set_name
    refine Moves.ite (Moves.pure ()) ?_
    refine Moves.bind (held_modifyNode fun _ => ⟨rfl, rfl, rfl⟩) fun _ => ?_
    exact Moves.bind hsteady.save_state fun _ => hsteady.send_announce
  | channel_announce channel is_protected key_commitment =>
    exact hcall (hsteady.send_channel_announce channel is_protected key_commitment) hspares hsession
  | public_message content channel =>
    exact hcall (Moves.map _ (hsteady.send_public_message content channel)) hspares hsession
  | private_message content target_peer_id nickname message_id =>
    exact hcall (Moves.map _ (held_send_private_message content target_peer_id nickname message_id))
      hspares hsession

end

/-! ## Runs with the last handshake -/

/-- The runs whose steps all meet a condition, each with the fingerprint of the
static key under which the last handshake with the peer was completed. -/
inductive Known (peer_id : Str) (ok : World → Option Str → Env → Event → Prop) :
    World → Option Str → Prop
  | start (my_peer_id : PeerId) (config_nickname : Option Str) (app_state : AppState)
      (static_identity_key : Crypto.PrivateKey) :
    Known peer_id ok ⟨.init my_peer_id config_nickname app_state static_identity_key, []⟩ none
  | step {w : World} {last : Option Str} (h : Known peer_id ok w last) (env : Env) (event : Event)
      (hdue : Due w event) (hok : ok w ((completed env w.node peer_id event).or last) env event) :
    Known peer_id ok (exec (react env event) w).2 ((completed env w.node peer_id event).or last)

/-- The key of the last handshake is blocked. -/
def Silenced (self : MeshNode) (last : Option Str) : Prop :=
  ∃ fingerprint ∈ last, fingerprint ∈ self.blocked_peers

/-- The messages of the peer that were handed to `on_message`. -/
def delivered_from (peer_id : Str) (out : List Action) : List (BitchatMessage × Str × Bool) :=
  (deliveries out).filter fun delivery => delivery.2.1 = peer_id

/-- The bytes are a `MESSAGE` packet of the peer. -/
def is_message_of (peer_id : Str) (raw : Bytes) : Bool :=
  match parse_bitchat_packet raw with
  | .ok packet => packet.msg_type = .MESSAGE ∧ packet.sender_id_str = peer_id
  | .error _ => false

/-- The `MESSAGE` packets of the peer that go further. -/
def relayed_from (peer_id : Str) (out : List Action) : List Bytes :=
  (relays out).filter (is_message_of peer_id)

/-- From `w` to `w'` nothing of the peer was delivered or relayed. -/
structure Silent (peer_id : Str) (w w' : World) : Prop where
  delivered : delivered_from peer_id w'.out = delivered_from peer_id w.out
  relayed : relayed_from peer_id w'.out = relayed_from peer_id w.out

instance (peer_id : Str) : IsPreorder World (Silent peer_id) where
  refl _ := ⟨rfl, rfl⟩
  trans _ _ _ h g := ⟨g.delivered.trans h.delivered, g.relayed.trans h.relayed⟩

section

variable {peer_id : Str} {env : Env} {raw : Bytes}

theorem Quiet.silent {w w' : World} (h : Quiet w w') : Silent peer_id w w' := by
  refine ⟨?_, ?_⟩
  · unfold delivered_from
    rw [h.deliveries]
  · unfold relayed_from
    rw [h.relays]

/-- The TTL tells nothing about the type and the sender. -/
theorem is_message_of_with_ttl (raw : Bytes) (ttl : UInt8) :
    is_message_of peer_id (with_ttl raw ttl) = is_message_of peer_id raw := by
  unfold is_message_of with_ttl
  rw [parse_set_ttl]
  cases parse_bitchat_packet raw <;> rfl

/-- A packet that is no message of the peer may go further. -/
theorem silent_relay {packet : BitchatPacket} (hparse : parse_bitchat_packet raw = .ok packet)
    (hother : packet.msg_type = .MESSAGE → packet.sender_id_str ≠ peer_id) (ttl : UInt8) :
    Moves (Silent peer_id) (relay raw ttl) := by
  intro w
  rw [exec_relay]
  split
  · have hnot : is_message_of peer_id (with_ttl raw (ttl - 1)) = false := by
      rw [is_message_of_with_ttl]
      unfold is_message_of
      rw [hparse]
      exact decide_eq_false fun h => hother h.1 h.2
    refine ⟨?_, ?_⟩
    · unfold delivered_from
      rw [deliveries_append]
      exact congrArg _ (List.append_nil _)
    · unfold relayed_from
      rw [relays_append, List.filter_append]
      simp [relays, hnot]
  · exact refl_of (Silent peer_id) w

theorem silent_deliver {sender_id : Str} (hother : sender_id ≠ peer_id) (message : BitchatMessage)
    (is_private : Bool) : Moves (Silent peer_id) (deliver message sender_id is_private) := by
  unfold deliver
  refine Moves.bind moves_node fun self => ?_
  split
  · exact Moves.throw _
  · refine Moves.bind (fun w => ⟨rfl, rfl⟩) fun _ w => ⟨?_, ?_⟩
    · rw [exec_emit]
      unfold delivered_from
      rw [deliveries_append, List.filter_append]
      simp [deliveries, hother]
    · rw [exec_emit]
      unfold relayed_from
      rw [relays_append]
      exact congrArg _ (List.append_nil _)

/-- What is no packet of the peer brings nothing of it, and neither does a
packet of the peer that is neither a message nor encrypted. -/
theorem silent_handle {packet : BitchatPacket} (hparse : parse_bitchat_packet raw = .ok packet)
    (hother : packet.msg_type = .MESSAGE ∨ packet.msg_type = .NOISE_ENCRYPTED →
      packet.sender_id_str ≠ peer_id) :
    Moves (Silent peer_id) (handle env packet raw) := by
  have hquiet : Calm env (Silent peer_id) := (calm_quiet env).mono fun _ _ => Quiet.silent
  refine hquiet.handle ?_ ?_ ?_ ?_ ?_
  · exact silent_relay hparse (fun htype => hother (.inl htype)) packet.ttl
  · exact fun htype message is_private w _ => silent_deliver (hother htype) message is_private w
  · exact fun _ => (quiet_announced _ _).mono fun _ _ => Quiet.silent
  · exact fun _ => hquiet.handle_noise_identity_announce
      (fun _ _ => (quiet_announced _ _).mono fun _ _ => Quiet.silent) packet
  · exact fun _ => Moves.ite (Moves.pure ())
      ((quiet_remove_peer _).mono fun _ _ => Quiet.silent)

/-- A blocked peer's messages come to nothing. -/
theorem silent_handle_blocked {packet : BitchatPacket} {w : World}
    (hparse : parse_bitchat_packet raw = .ok packet) (hblocked : is_blocked w.node peer_id = true) :
    Silent peer_id w (exec (handle env packet raw) w).2 := by
  by_cases hsender : packet.sender_id_str = peer_id
  · by_cases hmessage : packet.msg_type = .MESSAGE
    · rw [handle_of_message hmessage]
      unfold handle_message
      rw [exec_bind_ok _ (exec_node w), hsender, if_pos hblocked]
      exact refl_of (Silent peer_id) w
    · by_cases hencrypted : packet.msg_type = .NOISE_ENCRYPTED
      · rw [handle_of_noise_encrypted hencrypted]
        unfold handle_noise_encrypted
        rw [exec_bind_ok _ (exec_node w), hsender, if_pos hblocked]
        exact refl_of (Silent peer_id) w
      · exact silent_handle hparse (fun h => (h.elim hmessage hencrypted).elim) w
  · exact silent_handle hparse (fun _ => hsender) w

/-- Nothing of a peer comes through whose session is blocked. -/
theorem silent_react {w : World} (hblocked : is_blocked w.node peer_id = true) (env : Env)
    (event : Event) : Silent peer_id w (exec (react env event) w).2 := by
  have hquiet : Calm env (Silent peer_id) := (calm_quiet env).mono fun _ _ => Quiet.silent
  by_cases hpacket : ∃ conn raw, event = .packet conn raw
  · obtain ⟨conn, raw, rfl⟩ := hpacket
    show Silent peer_id w (exec (on_packet_received env conn raw) w).2
    rcases hparse : parse_bitchat_packet raw with e | packet
    · unfold on_packet_received
      simp only [exec_bind, exec_node, hparse, exec_pure]
      exact refl_of (Silent peer_id) w
    · by_cases hown : packet.sender_id_str = w.node.my_peer_id.str
      · unfold on_packet_received
        simp only [exec_bind, exec_node, hparse, hown, if_true, exec_pure]
        exact refl_of (Silent peer_id) w
      · rw [exec_on_packet_received hparse hown]
        have hheard : Silent peer_id w (w.heard packet.sender_id_str conn.address) := ⟨rfl, rfl⟩
        exact trans_of (Silent peer_id) hheard (silent_handle_blocked hparse hblocked)
  · refine hquiet.react ?_ ?_ ?_ ?_ w
    · exact fun conn raw heq => absurd ⟨conn, raw, heq⟩ hpacket
    · exact fun _ _ => Moves.mono (fun _ _ => Quiet.silent) (quiet_modifyNode fun _ => ⟨rfl, rfl⟩)
    · exact fun conn _ => (quiet_on_read_done conn).mono fun _ _ => Quiet.silent
    · exact fun addr _ => (quiet_disconnect addr).mono fun _ _ => Quiet.silent

end

/-! ## Every run -/

/-- From `w` to `w'` nobody was blocked or unblocked. -/
def SameBlocked (w w' : World) : Prop := w'.node.blocked_peers = w.node.blocked_peers

instance : IsPreorder World SameBlocked where
  refl _ := rfl
  trans _ _ _ h g := g.trans h

theorem sameBlocked_react (env : Env) (event : Event) : Moves SameBlocked (react env event) :=
  moves_react_of (fun _ h w => (h w.node).blocked) (fun _ _ => rfl) (fun _ _ => rfl) env event

/-- The steps do not take the peer while the key of its last handshake is
blocked, that of a handshake which the step completes included. -/
def SparesBlocked (peer_id : Str) (w : World) (last : Option Str) (env : Env) (event : Event) :
    Prop :=
  Silenced w.node last → SparesPeer peer_id w env event

theorem Known.reachable {peer_id : Str} {ok : World → Option Str → Env → Event → Prop} {w : World}
    {last : Option Str} (h : Known peer_id ok w last) : Reachable w := by
  induction h with
  | start my_peer_id config_nickname app_state static_identity_key =>
    exact .start my_peer_id config_nickname app_state static_identity_key
  | step _ env event hdue _ ih => exact .step ih env event hdue

/-- As long as no step takes a peer whose key is blocked, its session is the
one of the last handshake. -/
theorem Known.session {peer_id : Str} {w : World} {last : Option Str}
    (h : Known peer_id (SparesBlocked peer_id) w last) {fingerprint : Str}
    (hlast : last = some fingerprint) (hblocked : fingerprint ∈ w.node.blocked_peers) :
    w.node.encryption_service.get_peer_fingerprint peer_id = some fingerprint := by
  induction h with
  | start => cases hlast
  | @step w last hrun env event hdue hspares ih =>
    rw [sameBlocked_react env event w] at hblocked
    refine session_react hrun.reachable.filed (hspares ⟨fingerprint, hlast, hblocked⟩) ?_
    rcases hcompleted : completed env w.node peer_id event with _ | opened
    · rw [hcompleted, Option.none_or] at hlast
      exact ih hlast hblocked
    · rw [hcompleted] at hlast
      exact hlast

theorem is_blocked_of_session {self : MeshNode} {peer_id fingerprint : Str}
    (hsession : self.encryption_service.get_peer_fingerprint peer_id = some fingerprint)
    (hnot_empty : fingerprint ≠ []) (hblocked : fingerprint ∈ self.blocked_peers) :
    is_blocked self peer_id = true := by
  unfold is_blocked
  rw [hsession]
  exact decide_eq_true ⟨hnot_empty, hblocked⟩

/-- In every run in which no step takes a peer whose key is blocked, nothing
comes of that peer until it shows another key. No digest is empty. -/
theorem a_blocked_peer_stays_silent (hdigest : ∀ data, Crypto.sha256 data ≠ []) (peer_id : Str)
    (w : World) (last : Option Str) (hrun : Known peer_id (SparesBlocked peer_id) w last)
    (hsilenced : Silenced w.node last) (env : Env) (event : Event) :
    Silent peer_id w (exec (react env event) w).2 := by
  obtain ⟨fingerprint, hlast, hblocked⟩ := hsilenced
  have hsession := hrun.session hlast hblocked
  refine silent_react (is_blocked_of_session hsession ?_ hblocked) env event
  obtain ⟨session, -, rfl⟩ := Option.map_eq_some_iff.mp hsession
  intro hempty
  have hlength := congrArg List.length hempty
  unfold NoiseSession.get_fingerprint encryption.fingerprint at hlength
  rw [length_hex, List.length_nil] at hlength
  refine hdigest (Crypto.public_bytes session.remote_static_key) ?_
  apply List.eq_nil_of_length_eq_zero
  omega

end daemon

/-! ## On the stand-in -/

namespace daemon.standIn

open python bitchat bitchat.protocol bitchat.encryption

attribute [local instance] bitchat.standIn.packages

/-- The first and the third message of a handshake that a peer starts. -/
def messages_of_peer : Except PyError (Bytes × Bytes) := do
  let (first, peer) := exec (EncryptionService.initiate_handshake us.str (bitchat.standIn.key 4))
    (.init (bitchat.standIn.key 2))
  let (answer, _) := exec (EncryptionService.process_handshake_message them.str (← first)
    (bitchat.standIn.draw 1).generate 0) (.init (bitchat.standIn.key 1))
  let (third, _) := exec (EncryptionService.process_handshake_message us.str
    ((← answer).1.getD []) (bitchat.standIn.key 5) 0) peer
  return (← first, (← third).1.getD [])

def from_peer (msg_type : MessageType) (payload : Bytes) : Event :=
  .packet conn (layout msg_type 7 0 0 them.bytes [] payload [])

def first_message : Bytes := (messages_of_peer.toOption.getD ([], [])).1

def third_message : Bytes := (messages_of_peer.toOption.getD ([], [])).2

/-- A new node on which the peer's key is blocked. -/
def blocking : World where
  node := .init us (some ['n'])
    { AppState.init [1] with blocked_peers := {fingerprint (bitchat.standIn.key 2)} }
    (bitchat.standIn.key 1)
  out := []

/-- The peer comes. -/
def met : World := (exec (react (env 0) (.connected conn)) blocking).2

/-- It starts a handshake. -/
def greeted : World :=
  (exec (react (env 1) (from_peer .NOISE_HANDSHAKE_INIT first_message)) met).2

/-- The handshake is completed. -/
def known : World :=
  (exec (react (env 2) (from_peer .NOISE_HANDSHAKE_INIT third_message)) greeted).2

/-- The peer leaves. -/
def left : World := (exec (react (env 3) (from_peer .LEAVE [])) known).2

-- only the kernel is to run these
attribute [local irreducible] blocking met greeted known left

/-- The key of the last handshake that the peer has completed by then. -/
def last_key : Option Str :=
  (completed (env 2) greeted.node them.str (from_peer .NOISE_HANDSHAKE_INIT third_message)).or
    ((completed (env 1) met.node them.str (from_peer .NOISE_HANDSHAKE_INIT first_message)).or
      ((completed (env 0) blocking.node them.str (.connected conn)).or none))

theorem known_known {ok : World → Option Str → Env → Event → Prop}
    (hok : ∀ w last k msg_type payload, msg_type ≠ .LEAVE → payload.length < 65536 →
      ok w last (env k) (from_peer msg_type payload))
    (hconnected : ∀ w last k, ok w last (env k) (.connected conn)) :
    Known them.str ok known last_key := by
  have hlength : first_message.length < 65536 ∧ third_message.length < 65536 := by decide +kernel
  have hstart : Known them.str ok blocking none := by
    unfold blocking
    exact .start us (some ['n']) _ (bitchat.standIn.key 1)
  have hmet : Known them.str ok met
      ((completed (env 0) blocking.node them.str (.connected conn)).or none) := by
    unfold met
    exact hstart.step (env 0) (.connected conn) trivial (hconnected _ _ 0)
  have hgreeted : Known them.str ok greeted
      ((completed (env 1) met.node them.str (from_peer .NOISE_HANDSHAKE_INIT first_message)).or
        ((completed (env 0) blocking.node them.str (.connected conn)).or none)) := by
    unfold greeted
    exact hmet.step (env 1) (from_peer .NOISE_HANDSHAKE_INIT first_message) trivial
      (hok _ _ 1 _ _ (by decide) hlength.1)
  unfold known last_key
  exact hgreeted.step (env 2) (from_peer .NOISE_HANDSHAKE_INIT third_message) trivial
    (hok _ _ 2 _ _ (by decide) hlength.2)

theorem silenced_known : Silenced known.node last_key ∧ Silenced left.node last_key := by
  have hblocked : last_key.map (fun fingerprint => decide
      (fingerprint ∈ known.node.blocked_peers ∧ fingerprint ∈ left.node.blocked_peers)) =
        some true := by
    decide +kernel
  obtain ⟨fingerprint, hlast, hin⟩ := Option.map_eq_some_iff.mp hblocked
  have hboth : fingerprint ∈ known.node.blocked_peers ∧ fingerprint ∈ left.node.blocked_peers :=
    of_decide_eq_true hin
  have hmem : fingerprint ∈ last_key := by
    rw [Option.mem_def]
    exact hlast
  exact ⟨⟨fingerprint, hmem, hboth.1⟩, ⟨fingerprint, hmem, hboth.2⟩⟩

theorem known_spared : Known them.str (SparesBlocked them.str) known last_key := by
  refine known_known (fun w last k msg_type payload hleave hlength _ packet hparse _ => ?_)
    fun _ _ _ _ => trivial
  rw [parse_layout msg_type 7 0 0 them.bytes [] payload [] rfl rfl rfl hlength] at hparse
  rw [← Except.ok.inj hparse]
  exact ⟨fun _ _ hfails => absurd hfails Bool.false_ne_true, fun htype => absurd htype hleave⟩

/-- A digest of the stand-in is 32 bytes long. -/
theorem sha256_ne_nil (data : Bytes) : Crypto.sha256 data ≠ [] := by
  intro hempty
  have hlength : (Crypto.sha256 data).length = 32 := by
    show (bitchat.standIn.checksum _ ++ bitchat.standIn.checksum _).length = 32
    rw [List.length_append, bitchat.standIn.length_checksum, bitchat.standIn.length_checksum]
  rw [hempty] at hlength
  cases hlength

/-- A leave completes no handshake. -/
theorem completed_leave (env : Env) (self : MeshNode) :
    completed env self them.str (from_peer .LEAVE []) = none := by
  unfold completed from_peer
  dsimp only
  rw [parse_layout .LEAVE 7 0 0 them.bytes [] [] [] rfl rfl rfl (by decide)]
  exact if_neg fun h => absurd h.2.2 Bool.false_ne_true

/-- Once the peer has left, its next message is delivered. -/
theorem not_silent_left :
    ¬ Silent them.str left (exec (react (env 4) (.packet conn (raw 0))) left).2 := by
  have hcount : (delivered_from them.str left.out).length = 0 ∧
      (delivered_from them.str
        (exec (react (env 4) (.packet conn (raw 0))) left).2.out).length = 1 := by
    decide +kernel
  intro h
  have hsame := congrArg List.length h.delivered
  rw [hcount.1, hcount.2] at hsame
  cases hsame

end daemon.standIn

namespace daemon

attribute [local instance] bitchat.standIn.packages

theorem a_message_of_a_blocked_peer_is_dropped :
    Silent standIn.them.str standIn.known
      (python.exec (react (standIn.env 4) (.packet standIn.conn (standIn.raw 0))) standIn.known).2 :=
  a_blocked_peer_stays_silent standIn.sha256_ne_nil standIn.them.str standIn.known standIn.last_key
    standIn.known_spared standIn.silenced_known.1 (standIn.env 4)
    (.packet standIn.conn (standIn.raw 0))

/-- A peer whose key is blocked completes a handshake and leaves; its next
message is delivered. -/
theorem a_blocked_peer_leaves_and_speaks :
    Known standIn.them.str (fun _ _ _ _ => True) standIn.left standIn.last_key ∧
      Silenced standIn.left.node standIn.last_key ∧
      ¬ Silent standIn.them.str standIn.left
        (python.exec (react (standIn.env 4) (.packet standIn.conn (standIn.raw 0)))
          standIn.left).2 := by
  refine ⟨?_, standIn.silenced_known.2, standIn.not_silent_left⟩
  have hknown : Known standIn.them.str (fun _ _ _ _ => True) standIn.known standIn.last_key :=
    standIn.known_known (fun _ _ _ _ _ _ _ => trivial) fun _ _ _ => trivial
  have hleft := hknown.step (standIn.env 3) (standIn.from_peer .LEAVE []) trivial trivial
  rw [standIn.completed_leave, Option.none_or] at hleft
  exact hleft

end daemon
