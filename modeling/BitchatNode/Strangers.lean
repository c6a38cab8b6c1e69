-- Who a node has on file. A packet of a peer, an identity announcement that
-- names it, or a private message to it puts it there; nothing else does.
import BitchatNode.PeerLoss
import BitchatNode.AtMostOnce
import BitchatNode.Dealings

namespace daemon

open python bitchat bitchat.protocol bitchat.encryption

variable [Packages] {peer_id : Str}

/-! ## Strangers -/

/-- The node has nothing on file about the peer. -/
structure Unknown (peer_id : Str) (n : MeshNode) : Prop extends Forgotten n peer_id where
  address : n.peer_addresses.get? peer_id = none

/-- A node that has nothing on file about the peer stays so, and puts off no
new message to it. -/
def StaysStranger (peer_id : Str) (w w' : World) : Prop :=
  Unknown peer_id w.node → Unknown peer_id w'.node ∧ ∀ messages,
    .later (.send_each peer_id messages) ∈ w'.out → .later (.send_each peer_id messages) ∈ w.out

instance (peer_id : Str) : IsPreorder World (StaysStranger peer_id) where
  refl _ h := ⟨h, fun _ hmem => hmem⟩
  trans _ _ _ hst htu h := by
    obtain ⟨hunknown, hnew⟩ := hst h
    obtain ⟨hunknown', hnew'⟩ := htu hunknown
    exact ⟨hunknown', fun messages hmem => hnew messages (hnew' messages hmem)⟩

theorem stranger_modifyNode {f : MeshNode → MeshNode}
    (h : ∀ n, Unknown peer_id n → Unknown peer_id (f n)) :
    Moves (StaysStranger peer_id) (modifyNode f) := fun w hunknown =>
  ⟨h w.node hunknown, fun _ hmem => hmem⟩

theorem stranger_emit {action : Action}
    (h : ∀ messages, action ≠ .later (.send_each peer_id messages)) :
    Moves (StaysStranger peer_id) (emit action) := by
  intro w hunknown
  refine ⟨hunknown, fun messages hmem => ?_⟩
  rcases List.mem_append.mp hmem with hold | hnew
  · exact hold
  · exact absurd (List.mem_singleton.mp hnew).symm (h messages)

/-- The node without some peer. -/
theorem Unknown.without {n : MeshNode} (h : Unknown peer_id n) (other : Str) :
    Unknown peer_id (n.without other) := by
  by_cases heq : other = peer_id
  · subst heq
    exact ⟨forgotten_without n other, Dict.get?_pop_self _ _⟩
  · have hsame := sameOnFile_without n heq
    refine ⟨⟨?_, ?_, ?_, ?_⟩, ?_⟩
    · exact hsame.peers.trans h.peers
    · exact hsame.pending.trans h.pending
    · exact hsame.sessions.trans h.sessions
    · exact hsame.handshakes.trans h.handshakes
    · exact hsame.address.trans h.address

theorem unknown_without (n : MeshNode) (peer_id : Str) : Unknown peer_id (n.without peer_id) :=
  ⟨forgotten_without n peer_id, Dict.get?_pop_self _ _⟩

theorem stranger_remove_peer (other : Str) :
    Moves (StaysStranger peer_id) (remove_peer other) := by
  unfold remove_peer
  refine Moves.bind moves_node fun self => ?_
  refine Moves.bind (stranger_modifyNode fun n h => h.without other) fun _ => ?_
  exact Moves.ite (stranger_emit (by simp)) (Moves.pure ())

theorem stranger_on_peer_disconnected (conn : PeerConnection) :
    Moves (StaysStranger peer_id) (on_peer_disconnected conn) :=
  moves_on_peer_disconnected stranger_remove_peer conn

theorem stranger_on_read_done (conn : PeerConnection) :
    Moves (StaysStranger peer_id) (on_read_done conn) := by
  unfold on_read_done
  refine Moves.bind (stranger_modifyNode fun n h => ⟨⟨h.peers, h.pending, h.sessions, h.handshakes⟩,
    h.address⟩) fun _ => ?_
  exact stranger_on_peer_disconnected conn

/-! ## The session table -/

/-- The service has neither a session with the peer nor a handshake. -/
structure NoSession (peer_id : Str) (svc : EncryptionService) : Prop where
  sessions : svc.sessions.get? peer_id = none
  handshakes : svc.handshake_states.get? peer_id = none

theorem stranger_onService {α : Type} {x : Py PyError EncryptionService α}
    (h : Moves (Keeps (NoSession peer_id)) x) : Moves (StaysStranger peer_id) (onService x) := by
  intro w hunknown
  obtain ⟨hsessions, hhandshakes⟩ := h w.node.encryption_service
    ⟨hunknown.sessions, hunknown.handshakes⟩
  rw [exec_onService]
  exact ⟨⟨⟨hunknown.peers, hunknown.pending, hsessions, hhandshakes⟩, hunknown.address⟩,
    fun _ hmem => hmem⟩

/-- A session that goes on is none with a stranger. -/
theorem NoSession.set {svc : EncryptionService} (h : NoSession peer_id svc) {other : Str}
    {session : NoiseSession} (hsession : svc.sessions.get? other = some session)
    (session' : NoiseSession) :
    NoSession peer_id { svc with sessions := svc.sessions.set other session' } := by
  have hother : other ≠ peer_id := by
    rintro rfl
    rw [h.sessions] at hsession
    cases hsession
  exact ⟨(Dict.get?_set_ne _ _ hother).trans h.sessions, h.handshakes⟩

theorem noSession_encrypt (data : Bytes) (other : Str) :
    Moves (Keeps (NoSession peer_id)) (EncryptionService.encrypt data other) := by
  intro svc h
  unfold EncryptionService.encrypt
  simp only [exec_bind, exec_get]
  cases hsession : svc.sessions.get? other with
  | none => exact h
  | some session =>
    simp only [exec_bind, exec_set]
    rcases exec (NoiseCipherState.encrypt data []) session.send_cipher with ⟨result, cipher⟩
    cases result <;> exact h.set hsession _

theorem noSession_decrypt (other : Str) (data : Bytes) :
    Moves (Keeps (NoSession peer_id)) (EncryptionService.decrypt_from_peer other data) := by
  intro svc h
  unfold EncryptionService.decrypt_from_peer
  simp only [exec_bind, exec_get]
  cases hsession : svc.sessions.get? other with
  | none => exact h
  | some session =>
    simp only [exec_bind, exec_set]
    rcases exec (NoiseCipherState.decrypt data []) session.receive_cipher with ⟨result, cipher⟩
    cases result <;> exact h.set hsession _

/-- What is about another peer. -/
theorem NoSession.confined {svc svc' : EncryptionService} {other : Str} (hother : other ≠ peer_id)
    (h : NoSession peer_id svc) (hconfined : EncryptionService.Confined other svc svc') :
    NoSession peer_id svc' := by
  refine ⟨?_, ?_⟩
  · exact (hconfined.sessions peer_id hother.symm).trans h.sessions
  · exact (hconfined.handshakes peer_id hother.symm).trans h.handshakes

/-! ## Calls -/

variable {env : Env}

theorem steady_stranger (peer_id : Str) (env : Env) : Steady env (StaysStranger peer_id) where
  adjust f hsame hsessions := by
    refine fun w h => ⟨⟨⟨?_, ?_, ?_, ?_⟩, ?_⟩, fun _ hmem => hmem⟩
    · exact (congrArg (Dict.get? · peer_id) (hsame w.node).peers).trans h.peers
    · exact (congrArg (Dict.get? · peer_id) (hsessions w.node).pending).trans h.pending
    · exact (congrArg (Dict.get? · peer_id) (hsessions w.node).sessions).trans h.sessions
    · exact (congrArg (Dict.get? · peer_id) (hsessions w.node).handshakes).trans h.handshakes
    · exact (congrArg (Dict.get? · peer_id) (hsame w.node).peer_addresses).trans h.address
  encrypt data other := stranger_onService (noSession_encrypt data other)
  decrypt other data := stranger_onService (noSession_decrypt other data)
  on_delivery_ack _ := stranger_emit (by simp)
  saved _ := stranger_emit (by simp)
  send_to_peer := moves_send_to_peer (fun conn _ => stranger_on_read_done conn)
    fun _ _ => stranger_emit (by simp)
  raw_send := moves_raw_send (fun conn _ => stranger_on_read_done conn)
    fun _ _ => stranger_emit (by simp)

/-- The messages that wait for a stranger are none. -/
theorem stranger_send_pending (peer_id : Str) :
    Moves (StaysStranger peer_id) (send_pending_private_messages peer_id) := by
  intro w hunknown
  unfold send_pending_private_messages
  simp only [exec_bind, exec_node, exec_modifyNode]
  rw [hunknown.pending]
  refine ⟨⟨⟨hunknown.peers, ?_, hunknown.sessions, hunknown.handshakes⟩, hunknown.address⟩,
    fun _ hmem => hmem⟩
  exact Dict.get?_pop_self _ _

theorem about_stranger (peer_id : Str) (env : Env) :
    About (· ≠ peer_id) env (StaysStranger peer_id) where
  toSteady := steady_stranger peer_id env
  touch f hf := stranger_modifyNode fun n h => by
    have hsame := hf n
    refine ⟨⟨?_, ?_, ?_, ?_⟩, ?_⟩
    · exact (hsame.peer peer_id (by simp)).trans h.peers
    · exact (hsame.pending peer_id (by simp)).trans h.pending
    · rw [hsame.encryption_service]
      exact h.sessions
    · rw [hsame.encryption_service]
      exact h.handshakes
    · exact (hsame.address peer_id (by simp)).trans h.address
  emit action h := stranger_emit fun messages => h peer_id messages (by simp)
  initiate p g hp := stranger_onService fun svc h =>
    h.confined hp (EncryptionService.initiate_confined p g svc)
  process p message g now hp := stranger_onService fun svc h =>
    h.confined hp (EncryptionService.process_confined p message g now svc)
  clear p hp := stranger_modifyNode fun n h =>
    ⟨⟨h.peers, h.pending, h.sessions, (Dict.get?_pop_ne _ hp).trans h.handshakes⟩, h.address⟩
  lose p _ := stranger_modifyNode fun n h => h.without p

/-! ## Packets -/

/-- The packet says something about the peer: it is from it, or announces it. -/
def Mentions (peer_id : Str) (packet : BitchatPacket) : Prop :=
  packet.sender_id_str = peer_id ∨ packet.msg_type = .NOISE_IDENTITY_ANNOUNCE ∧
    ∃ nickname, announcement_of packet = some (peer_id, nickname)

/-! ## Events -/

/-- The event brings a packet that says something about the peer, or is a call
that sends it a private message. -/
def Introduces (peer_id : Str) : Event → Prop
  | .packet _ raw => ∃ packet, parse_bitchat_packet raw = .ok packet ∧ Mentions peer_id packet
  | .private_message _ target_peer_id _ _ => target_peer_id = peer_id
  | _ => False

/-- The event goes on with messages that waited for the peer. -/
def Resumes (peer_id : Str) : Event → Prop
  | .later (.send_each target_peer_id _) => target_peer_id = peer_id
  | _ => False

theorem aboutThem_of_not_mentions {packet : BitchatPacket} (h : ¬ Mentions peer_id packet) :
    AboutThem (· ≠ peer_id) packet := by
  refine ⟨fun heq => h (.inl heq), fun htype p nickname hannounces heq => h (.inr ⟨htype, ?_⟩)⟩
  rw [← heq]
  exact ⟨nickname, hannounces⟩

/-- An event that neither introduces the peer nor goes on with messages to it. -/
theorem within_of_not {event : Event} (hintroduces : ¬ Introduces peer_id event)
    (hresumes : ¬ Resumes peer_id event) :
    event = .later (.send_pending_private_messages peer_id) ∨ Within (· ≠ peer_id) event := by
  cases event with
  | packet conn raw =>
    exact .inr fun packet hparse =>
      aboutThem_of_not_mentions fun hmentions => hintroduces ⟨packet, hparse, hmentions⟩
  | private_message content target_peer_id target_nickname message_id => exact .inr hintroduces
  | later task =>
    cases task with
    | relay raw ttl => exact .inr trivial
    | send_pending_private_messages other =>
      by_cases hother : other = peer_id
      · rw [hother]
        exact .inl rfl
      · exact .inr hother
    | send_each other messages => exact .inr hresumes
  | _ => exact .inr trivial

theorem stranger_react {event : Event} (hintroduces : ¬ Introduces peer_id event)
    (hresumes : ¬ Resumes peer_id event) : Moves (StaysStranger peer_id) (react env event) := by
  rcases within_of_not hintroduces hresumes with rfl | hwithin
  · exact stranger_send_pending peer_id
  · refine (about_stranger peer_id env).react hwithin ?_ ?_ ?_
    · exact fun conn _ => stranger_modifyNode fun n h =>
        ⟨⟨h.peers, h.pending, h.sessions, h.handshakes⟩, h.address⟩
    · exact fun conn _ => stranger_on_read_done conn
    · intro addr _
      unfold disconnect
      refine Moves.bind moves_node fun self => ?_
      split
      · exact Moves.throw _
      · refine Moves.bind (stranger_modifyNode fun n h => ?_) fun _ =>
          stranger_on_peer_disconnected _
        exact ⟨⟨h.peers, h.pending, h.sessions, h.handshakes⟩, h.address⟩

/-! ## Runs -/

/-- Where nobody has introduced the peer, the node has nothing on file about
it, and has put off no message to it. -/
theorem stranger_of_reachable {w : World}
    (h : ReachableWith (fun _ _ event => ¬ Introduces peer_id event) w) :
    Unknown peer_id w.node ∧ ∀ messages, .later (.send_each peer_id messages) ∉ w.out := by
  induction h with
  | start my_peer_id config_nickname app_state static_identity_key =>
    exact ⟨⟨⟨rfl, rfl, rfl, rfl⟩, rfl⟩, fun _ => List.not_mem_nil⟩
  | @step w _ env event hdue hok ih =>
    obtain ⟨hunknown, hnothing⟩ := ih
    have hresumes : ¬ Resumes peer_id event := by
      intro hresumes
      cases event with
      | later task =>
        cases task with
        | send_each other messages =>
          obtain rfl : other = peer_id := hresumes
          exact hnothing messages hdue
        | _ => exact hresumes
      | _ => exact hresumes
    obtain ⟨hunknown', hnew⟩ := stranger_react hok hresumes w hunknown
    exact ⟨hunknown', fun messages hmem => hnothing messages (hnew messages hmem)⟩

end daemon

namespace daemon

open python bitchat bitchat.protocol

attribute [local instance] bitchat.standIn.packages

end daemon
