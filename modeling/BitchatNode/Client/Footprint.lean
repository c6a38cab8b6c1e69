-- What the calls of `bitchat.py` leave alone. A send changes nothing that the
-- user sees unless the connection is gone; the handlers of packets change it
-- only in the few places that name a peer, lose one, show a message or take an
-- announcement of a channel.
import BitchatNode.Client.Packets
import BitchatNode.Client.Channels

namespace client

open python bitchat bitchat.protocol bitchat.encryption
open daemon (AppState with_ttl)

variable [ClientPackages]

/-! ## How far a call reaches -/

/-- The part of the client that the user sees or that is saved. -/
structure SameFace (s s' : BitchatClient) : Prop where
  my_peer_id : s'.my_peer_id = s.my_peer_id
  nickname : s'.nickname = s.nickname
  peers : s'.peers = s.peers
  chat_context : s'.chat_context = s.chat_context
  channel_keys : s'.channel_keys = s.channel_keys
  channel_creators : s'.channel_creators = s.channel_creators
  password_protected_channels : s'.password_protected_channels = s.password_protected_channels
  channel_key_commitments : s'.channel_key_commitments = s.channel_key_commitments
  blocked_peers : s'.blocked_peers = s.blocked_peers
  app_state : s'.app_state = s.app_state

/-- The states that were saved, oldest first. -/
def saves (out : List Action) : List AppState :=
  out.filterMap fun
    | .saved state => some state
    | _ => none

/-- Nothing that the user sees is changed, and nothing is saved. -/
structure Quiet (w w' : World) : Prop where
  face : SameFace w.state w'.state
  saves : saves w'.out = saves w.out

instance : IsPreorder World Quiet where
  refl _ := ⟨⟨rfl, rfl, rfl, rfl, rfl, rfl, rfl, rfl, rfl, rfl⟩, rfl⟩
  trans _ _ _ h g := ⟨⟨g.1.1.trans h.1.1, g.1.2.trans h.1.2, g.1.3.trans h.1.3, g.1.4.trans h.1.4,
    g.1.5.trans h.1.5, g.1.6.trans h.1.6, g.1.7.trans h.1.7, g.1.8.trans h.1.8, g.1.9.trans h.1.9,
    g.1.10.trans h.1.10⟩, g.2.trans h.2⟩

/-- A message is shown: a channel may come to be known as protected, and the
sender as somebody to talk to. -/
structure Shows (w w' : World) : Prop where
  my_peer_id : w'.state.my_peer_id = w.state.my_peer_id
  nickname : w'.state.nickname = w.state.nickname
  peers : w'.state.peers = w.state.peers
  current_mode : w'.state.chat_context.current_mode = w.state.chat_context.current_mode
  active_channels : w'.state.chat_context.active_channels = w.state.chat_context.active_channels
  channel_keys : w'.state.channel_keys = w.state.channel_keys
  channel_creators : w'.state.channel_creators = w.state.channel_creators
  password_protected_channels :
    w.state.password_protected_channels ⊆ w'.state.password_protected_channels
  channel_key_commitments : w'.state.channel_key_commitments = w.state.channel_key_commitments
  blocked_peers : w'.state.blocked_peers = w.state.blocked_peers
  app_state : w'.state.app_state = w.state.app_state
  saves : saves w'.out = saves w.out

theorem Quiet.shows {w w' : World} (h : Quiet w w') : Shows w w' where
  my_peer_id := h.face.my_peer_id
  nickname := h.face.nickname
  peers := h.face.peers
  current_mode := congrArg ChatContext.current_mode h.face.chat_context
  active_channels := congrArg ChatContext.active_channels h.face.chat_context
  channel_keys := h.face.channel_keys
  channel_creators := h.face.channel_creators
  password_protected_channels := subset_of_eq h.face.password_protected_channels.symm
  channel_key_commitments := h.face.channel_key_commitments
  blocked_peers := h.face.blocked_peers
  app_state := h.face.app_state
  saves := h.saves

instance : IsPreorder World Shows where
  refl w := (refl_of Quiet w).shows
  trans _ _ _ h g := ⟨g.1.trans h.1, g.2.trans h.2, g.3.trans h.3, g.4.trans h.4, g.5.trans h.5,
    g.6.trans h.6, g.7.trans h.7, h.8.trans g.8, g.9.trans h.9, g.10.trans h.10, g.11.trans h.11,
    g.12.trans h.12⟩

theorem saves_append (a b : List Action) : saves (a ++ b) = saves a ++ saves b :=
  List.filterMap_append

/-- The relation holds through whatever a send may do. -/
structure Sending (S : World → World → Prop) [IsPreorder World S] : Prop where
  quiet : ∀ w w', Quiet w w' → S w w'
  disconnect : Moves S handle_disconnect

/-- The relation `T` holds through the handlers of packets, in which `S` holds
through the sends. -/
structure Handling (S T : World → World → Prop) [IsPreorder World S] : Prop
    extends Sending S where
  send : ∀ w w', S w w' → T w w'
  before : ∀ u v w, Quiet u v → T v w → T u w
  after : ∀ u v w, T u v → S v w → T u w
  shows : ∀ w w', Shows w w' → T w w'
  name_peer : ∀ peer_id nickname, Moves T (modifyClient (·.name_peer peer_id nickname))
  lose_peer : ∀ peer_id, Moves T (modifyClient (·.lose_peer peer_id))
  announce : ∀ packet, Moves T (handle_channel_announce packet)

theorem moves_look {R : World → World → Prop} [IsPreorder World R] {α : Type}
    {f : BitchatClient → Client α} (h : ∀ self, Moves R (f self)) : Moves R (getClient >>= f) :=
  moves_getClient fun w => h w.state w

theorem quiet_getClient : Moves Quiet getClient := fun w => refl_of Quiet w

theorem quiet_modifyClient {f : BitchatClient → BitchatClient} (hf : ∀ s, SameFace s (f s)) :
    Moves Quiet (modifyClient f) := fun w => ⟨hf w.state, rfl⟩

theorem quiet_emit {action : Action} (haction : saves [action] = []) :
    Moves Quiet (emit action) := by
  intro w
  refine ⟨(refl_of Quiet w).face, ?_⟩
  rw [exec_emit, saves_append, haction, List.append_nil]

theorem quiet_onService {α : Type} (x : Py PyError EncryptionService α) :
    Moves Quiet (onService x) :=
  fun _ => ⟨⟨rfl, rfl, rfl, rfl, rfl, rfl, rfl, rfl, rfl, rfl⟩, rfl⟩

theorem quiet_note_message (message : BitchatMessage) : Moves Quiet (note_message message) := by
  unfold note_message
  apply moves_look
  intro self
  cases Packages.bloom_add self.bloom message.id with
  | none => exact Moves.throw _
  | some bloom =>
    apply quiet_modifyClient
    exact fun s => ⟨rfl, rfl, rfl, rfl, rfl, rfl, rfl, rfl, rfl, rfl⟩

theorem quiet_collect_fragment (packet : BitchatPacket) : Moves Quiet (collect_fragment packet) := by
  unfold collect_fragment
  apply moves_look
  intro self
  refine Moves.bind (quiet_modifyClient fun s => ?_) fun _ => Moves.pure _
  exact ⟨rfl, rfl, rfl, rfl, rfl, rfl, rfl, rfl, rfl, rfl⟩

/-! ## Sends -/

namespace Sending

variable {S : World → World → Prop} [IsPreorder World S]

theorem modify (h : Sending S) {f : BitchatClient → BitchatClient} (hf : ∀ s, SameFace s (f s)) :
    Moves S (modifyClient f) := Moves.mono h.quiet (quiet_modifyClient hf)

theorem emit (h : Sending S) {action : Action} (haction : saves [action] = []) :
    Moves S (emit action) := Moves.mono h.quiet (quiet_emit haction)

theorem onService (h : Sending S) {α : Type} (x : Py PyError EncryptionService α) :
    Moves S (onService x) := Moves.mono h.quiet (quiet_onService x)

theorem send_fragments (h : Sending S) (env : Env) (fragment_id : Bytes) (total : Nat) :
    ∀ (chunks : List Bytes) (index : Nat),
      Moves S (send_fragments env fragment_id total index chunks)
  | [], _ => Moves.pure ()
  | chunk :: rest, index => by
    unfold client.send_fragments
    apply moves_look
    intro self
    refine Moves.bind (Moves.outcome _) ?_
    intro packet
    cases env.write index with
    | done => exact (h.emit rfl).bind fun _ => h.send_fragments env fragment_id total rest _
    | dropped => exact Moves.throw _
    | disconnected => exact h.disconnect
    | raised e => exact Moves.throw e

theorem send_packet (h : Sending S) (env : Env) (packet : Bytes) :
    Moves S (send_packet env packet) := by
  unfold client.send_packet
  apply moves_look
  intro self
  cases self.connection with
  | none => exact Moves.pure ()
  | lost => exact h.disconnect
  | up =>
    apply Moves.ite
    · exact h.send_fragments _ _ _ _ _
    · cases env.write 0 with
      | done => exact h.emit rfl
      | dropped => exact Moves.pure ()
      | disconnected => exact h.disconnect
      | raised e => exact Moves.throw e

theorem relay (h : Sending S) (env : Env) (raw : Bytes) (ttl : UInt8) :
    Moves S (relay env raw ttl) := by
  unfold client.relay
  exact Moves.ite (Moves.pure ()) (h.send_packet _ _)

/-! ### Handshakes -/

theorem start_handshake (h : Sending S) (env : Env) (peer_id : Str) :
    Moves S (start_handshake env peer_id) := by
  unfold client.start_handshake
  refine Moves.bind (h.onService _) ?_
  intro handshake_message
  apply moves_look
  intro self
  exact Moves.bind (Moves.outcome _) fun _ => h.send_packet _ _

theorem send_targeted_identity (h : Sending S) (env : Env) (peer_id : Str) :
    Moves S (send_targeted_identity env peer_id) := by
  unfold client.send_targeted_identity
  apply moves_look
  intro self
  refine Moves.bind (Moves.outcome _) ?_
  intro identity_payload
  exact Moves.bind (Moves.outcome _) fun _ => h.send_packet _ _

theorem send_key_exchange (h : Sending S) (env : Env) (payload : Bytes) :
    Moves S (send_key_exchange env payload) := by
  unfold client.send_key_exchange
  apply moves_look
  intro self
  exact Moves.bind (Moves.outcome _) fun _ => h.send_packet _ _

theorem process_handshake_message (h : Sending S) (env : Env) (peer_id : Str) (message : Bytes) :
    Moves S (process_handshake_message env peer_id message) := by
  unfold client.process_handshake_message
  refine Moves.bind (h.onService _) ?_
  rintro ⟨response, authenticated⟩
  cases authenticated with
  | none => exact Moves.bind (Moves.pure ()) fun _ => Moves.pure _
  | some authenticated => exact Moves.bind (h.emit rfl) fun _ => Moves.pure _

theorem answer_handshake (h : Sending S) (answer : MessageType) (env : Env) (sender_id : Str)
    (response : Option Bytes) : Moves S (answer_handshake answer env sender_id response) := by
  cases response with
  | none => exact Moves.pure ()
  | some response =>
    apply moves_look
    intro self
    exact Moves.bind (Moves.outcome _) fun _ => h.send_packet _ _

/-! ### Private messages -/

theorem attempt_handshake (h : Sending S) (env : Env) (target_peer_id : Str)
    (current_time : UInt64) : Moves S (attempt_handshake env target_peer_id current_time) := by
  unfold client.attempt_handshake
  refine Moves.bind (h.modify fun s => ⟨rfl, rfl, rfl, rfl, rfl, rfl, rfl, rfl, rfl, rfl⟩) ?_
  intro _
  refine Moves.bind (h.start_handshake env target_peer_id).attempt ?_
  intro result
  cases result with
  | ok _ => exact Moves.pure ()
  | error e => exact h.modify fun s => ⟨rfl, rfl, rfl, rfl, rfl, rfl, rfl, rfl, rfl, rfl⟩

theorem attempt_if_due (h : Sending S) (env : Env) (target_peer_id : Str)
    (current_time : UInt64) : Moves S (attempt_if_due env target_peer_id current_time) := by
  unfold client.attempt_if_due
  apply moves_look
  intro self
  cases self.handshake_attempt_times.get? target_peer_id with
  | none => exact h.attempt_handshake _ _ _
  | some last_attempt => exact Moves.ite (Moves.pure ()) (h.attempt_handshake _ _ _)

theorem enqueue (h : Sending S) (peer_id : Str) (entry : Str × Str × Str) :
    Moves S (modifyClient (·.enqueue peer_id entry)) :=
  h.modify fun _ => ⟨rfl, rfl, rfl, rfl, rfl, rfl, rfl, rfl, rfl, rfl⟩

theorem queue_private_message (h : Sending S) (env : Env) (content target_peer_id : Str)
    (target_nickname : Str) (message_id : Option Str) :
    Moves S (queue_private_message env content target_peer_id target_nickname message_id) := by
  unfold client.queue_private_message
  exact Moves.bind (h.enqueue _ _) fun _ => h.attempt_if_due _ _ _

theorem send_with_retry (h : Sending S) (env : Env) (packet : Bytes) :
    Moves S (send_with_retry env packet) := by
  unfold client.send_with_retry
  refine Moves.bind (h.send_packet _ _).attempt ?_
  intro result
  cases result with
  | ok _ => exact Moves.pure ()
  | error e => exact Moves.ite (h.send_packet _ _).suppress (Moves.throw e)

theorem seal_and_send (h : Sending S) (env : Env) (target_peer_id : Str) (inner_packet : Bytes) :
    Moves S (seal_and_send env target_peer_id inner_packet) := by
  unfold client.seal_and_send
  apply moves_look
  intro self
  refine Moves.bind (h.onService _) ?_
  intro encrypted
  exact Moves.bind (Moves.outcome _) fun _ => h.send_with_retry _ _

theorem encrypt_private_message (h : Sending S) (env : Env) (content target_peer_id : Str) :
    Moves S (encrypt_private_message env content target_peer_id) := by
  unfold client.encrypt_private_message
  apply moves_look
  intro self
  refine Moves.bind (Moves.outcome _) ?_
  rintro ⟨payload, message_id⟩
  refine Moves.bind (h.modify fun s => ⟨rfl, rfl, rfl, rfl, rfl, rfl, rfl, rfl, rfl, rfl⟩) ?_
  intro _
  exact Moves.bind (Moves.outcome _) fun _ => (h.seal_and_send _ _ _).suppress

theorem send_private_message (h : Sending S) (env : Env) (content target_peer_id : Str)
    (target_nickname : Str) (message_id : Option Str) :
    Moves S (send_private_message env content target_peer_id target_nickname message_id) := by
  unfold client.send_private_message
  apply moves_look
  intro self
  exact Moves.ite (Moves.pure ()) (Moves.ite (h.encrypt_private_message _ _ _)
    (h.queue_private_message _ _ _ _ _))

theorem send_each (h : Sending S) (env : Env) (peer_id : Str) :
    ∀ (messages : List (Str × Str × Str)) (k : Nat), Moves S (send_each env peer_id k messages)
  | [], _ => Moves.pure ()
  | (content, nickname, message_id) :: rest, k => by
    unfold client.send_each
    refine Moves.bind (h.send_private_message _ _ _ _ _).attempt ?_
    intro result
    cases result with
    | ok _ => exact h.send_each env peer_id rest (k + 1)
    | error e => exact Moves.ite (h.enqueue _ _) (h.send_each env peer_id rest (k + 1))

theorem send_pending_private_messages (h : Sending S) (env : Env) (peer_id : Str) :
    Moves S (send_pending_private_messages env peer_id) := by
  unfold client.send_pending_private_messages
  apply moves_look
  intro self
  refine Moves.bind (h.modify fun s => ⟨rfl, rfl, rfl, rfl, rfl, rfl, rfl, rfl, rfl, rfl⟩) ?_
  intro _
  exact h.send_each _ _ _ _

theorem session_established (h : Sending S) (env : Env) (sender_id : Str) :
    Moves S (session_established env sender_id) := by
  unfold client.session_established
  apply moves_look
  intro self
  apply Moves.ite
  · refine Moves.bind (h.modify fun s => ⟨rfl, rfl, rfl, rfl, rfl, rfl, rfl, rfl, rfl, rfl⟩) ?_
    intro _
    exact h.send_pending_private_messages _ _
  · exact Moves.pure ()

theorem handle_noise_handshake (h : Sending S) (answer : MessageType) (env : Env)
    (packet : BitchatPacket) : Moves S (handle_noise_handshake answer env packet) := by
  have htake : Moves S (take_handshake answer env packet) := by
    unfold take_handshake
    refine Moves.bind (h.process_handshake_message _ _ _) ?_
    intro response
    exact Moves.bind (h.answer_handshake _ _ _ _) fun _ => h.session_established _ _
  unfold client.handle_noise_handshake
  apply moves_look
  intro self
  refine Moves.ite (Moves.pure ()) ?_
  refine Moves.bind htake.attempt ?_
  intro result
  cases result with
  | ok _ => exact Moves.pure ()
  | error e => exact h.modify fun s => ⟨rfl, rfl, rfl, rfl, rfl, rfl, rfl, rfl, rfl, rfl⟩

theorem handle_key_exchange (h : Sending S) (env : Env) (packet : BitchatPacket) :
    Moves S (handle_key_exchange env packet) := by
  have hgreet : Moves S (greet_new_peer (env.call 2) packet.sender_id_str) := by
    unfold greet_new_peer
    apply moves_look
    intro self
    apply Moves.ite
    · exact Moves.bind (h.onService _) fun _ => h.send_key_exchange _ _
    · exact Moves.pure ()
  unfold client.handle_key_exchange
  apply Moves.suppress
  refine Moves.bind (h.process_handshake_message _ _ _) ?_
  intro response
  cases response with
  | none => exact hgreet
  | some response => exact Moves.bind (h.send_key_exchange _ _) fun _ => hgreet

/-! ### ACKs -/

theorem seal_ack (h : Sending S) (plain : Bytes) (sender_id : Str) (is_private : Bool) :
    Moves S (seal_ack plain sender_id is_private) := by
  unfold client.seal_ack
  apply Moves.ite
  · refine Moves.bind (h.onService _).attempt ?_
    intro result
    cases result with
    | ok encrypted => exact Moves.pure _
    | error e => exact Moves.pure _
  · exact Moves.pure _

theorem send_delivery_ack (h : Sending S) (env : Env) (message_id sender_id : Str)
    (is_private : Bool) : Moves S (send_delivery_ack env message_id sender_id is_private) := by
  unfold client.send_delivery_ack
  apply moves_look
  intro self
  apply Moves.ite
  · refine Moves.bind (h.modify fun s => ⟨rfl, rfl, rfl, rfl, rfl, rfl, rfl, rfl, rfl, rfl⟩) ?_
    intro _
    refine Moves.bind (h.seal_ack _ _ _) ?_
    intro ack_payload
    exact Moves.bind (Moves.outcome _) fun _ => h.send_packet _ _
  · exact Moves.pure ()

theorem acknowledge (h : Sending S) (env : Env) (message : BitchatMessage) (sender_id : Str)
    (is_private : Bool) : Moves S (acknowledge env message sender_id is_private) := by
  unfold client.acknowledge
  apply moves_look
  intro self
  exact Moves.ite (h.send_delivery_ack _ _ _ _) (Moves.pure ())

end Sending

/-! ## Handlers -/

theorem shows_display_message (message : BitchatMessage) (sender_id : Str) (is_private : Bool) :
    Moves Shows (display_message message sender_id is_private) := by
  have hdiscover : Moves Shows (modifyClient (·.discover message)) := by
    intro w
    rw [exec_modifyClient]
    unfold BitchatClient.discover
    split
    · exact refl_of Shows w
    · refine ⟨rfl, rfl, rfl, rfl, rfl, rfl, rfl, ?_, rfl, rfl, rfl, rfl⟩
      dsimp only
      split
      · exact Finset.subset_insert _ _
      · exact Finset.Subset.refl _
  have hnote (sender_nick : Str) : Moves Shows (modifyClient fun self =>
      if is_private then self.note_sender sender_id sender_nick else self) := by
    intro w
    rw [exec_modifyClient]
    split
    · exact ⟨rfl, rfl, rfl, rfl, rfl, rfl, rfl, Finset.Subset.refl _, rfl, rfl, rfl, rfl⟩
    · exact refl_of Shows w
  unfold display_message
  refine Moves.bind hdiscover fun _ => ?_
  apply moves_look
  intro self
  refine Moves.ite (Moves.pure ()) (Moves.bind (hnote _) fun _ => ?_)
  exact Moves.mono (fun _ _ => Quiet.shows) (quiet_emit rfl)

namespace Handling

variable {S T : World → World → Prop} [IsPreorder World S]

theorem of_quiet (h : Handling S T) {α : Type} {x : Client α} (hx : Moves Quiet x) : Moves T x :=
  fun w => h.send _ _ (h.quiet _ _ (hx w))

theorem of_send (h : Handling S T) {α : Type} {x : Client α} (hx : Moves S x) : Moves T x :=
  Moves.mono h.send hx

theorem pure (h : Handling S T) {α : Type} (a : α) : Moves T (Pure.pure a : Client α) :=
  h.of_quiet (Moves.pure a)

theorem first (h : Handling S T) {α β : Type} {x : Client α} {f : α → Client β}
    (hx : Moves Quiet x) (hf : ∀ a, Moves T (f a)) : Moves T (x >>= f) :=
  Moves.bind_last hx hf (fun w w' hq => h.send _ _ (h.quiet w w' hq)) h.before

/-- What follows a handler only sends. -/
theorem last (h : Handling S T) {α β : Type} {x : Client α} {f : α → Client β} (hx : Moves T x)
    (hf : ∀ a, Moves S (f a)) : Moves T (x >>= f) := by
  intro w
  have hfirst := hx w
  rw [exec_bind]
  rcases he : exec x w with ⟨r, w'⟩
  rw [he] at hfirst
  cases r with
  | ok a => exact h.after _ _ _ hfirst (hf a w')
  | error e => exact hfirst

theorem handle_announce (h : Handling S T) (env : Env) (packet : BitchatPacket) :
    Moves T (handle_announce env packet) := by
  unfold client.handle_announce
  refine h.first quiet_getClient fun self => ?_
  refine h.last (h.name_peer _ _) fun _ => ?_
  refine Moves.ite (Moves.pure ()) (Moves.ite ?_ (h.send_targeted_identity _ _).suppress)
  refine Moves.bind (h.start_handshake _ _).attempt fun result => ?_
  cases result with
  | ok _ => exact Moves.pure ()
  | error e => exact h.send_key_exchange _ _

theorem handle_noise_identity_announce (h : Handling S T) (env : Env) (packet : BitchatPacket) :
    Moves T (handle_noise_identity_announce env packet) := by
  unfold client.handle_noise_identity_announce
  refine h.first quiet_getClient fun self => ?_
  refine Moves.ite (h.pure ()) ?_
  split
  · refine h.last (h.name_peer _ _) fun _ => ?_
    exact Moves.ite (h.start_handshake _ _).suppress (Moves.pure ())
  · exact h.pure ()

theorem display_message (h : Handling S T) (message : BitchatMessage) (sender_id : Str)
    (is_private : Bool) : Moves T (display_message message sender_id is_private) :=
  Moves.mono h.shows (shows_display_message message sender_id is_private)

theorem accept_message (h : Handling S T) (env : Env) (packet : BitchatPacket) (raw : Bytes)
    (is_private : Bool) (payload : Bytes) :
    Moves T (accept_message env packet raw is_private payload) := by
  unfold client.accept_message
  refine h.first (Moves.outcome _) fun message => ?_
  refine h.first quiet_getClient fun self => ?_
  refine Moves.ite (h.pure ()) ?_
  refine h.first (quiet_note_message message) fun _ => ?_
  refine h.last (h.display_message _ _ _) fun _ => ?_
  exact Moves.bind (h.acknowledge _ _ _ _) fun _ => h.relay _ _ _

theorem handle_message (h : Handling S T) (env : Env) (packet : BitchatPacket) (raw : Bytes) :
    Moves T (handle_message env packet raw) := by
  unfold client.handle_message
  refine h.first quiet_getClient fun self => ?_
  refine Moves.ite (h.pure ()) (Moves.ite (h.accept_message _ _ _ _ _).suppress (Moves.ite ?_
    (h.of_send (h.relay _ _ _))))
  refine h.first (quiet_onService _).attempt fun result => ?_
  split
  · exact (h.accept_message _ _ _ _ _).suppress
  · exact h.pure ()
  · exact h.of_quiet (Moves.throw _)

theorem accept_private (h : Handling S T) (env : Env) (payload : Bytes) (sender_id : Str) :
    Moves T (accept_private env payload sender_id) := by
  unfold client.accept_private
  refine h.first (Moves.outcome _) fun message => ?_
  refine h.first quiet_getClient fun self => ?_
  refine Moves.ite (h.pure ()) ?_
  refine h.first (quiet_note_message message) fun _ => ?_
  exact h.last (h.display_message _ _ _) fun _ => h.send_delivery_ack _ _ _ _

theorem handle_leave (h : Handling S T) (packet : BitchatPacket) :
    Moves T (handle_leave packet) := by
  unfold client.handle_leave
  exact Moves.ite (h.pure ()) (h.lose_peer _)

/-- A packet, and the packets inside it, go to one handler. -/
theorem handle_packet (h : Handling S T) :
    ∀ (depth : Nat) (env : Env) (packet : BitchatPacket) (raw : Bytes),
      Moves T (handle_packet depth env packet raw)
  | 0, _, _, _ => h.of_quiet (Moves.throw _)
  | depth + 1, env, packet, raw => by
    have hrelay : Moves T (client.relay (env.call 1) raw packet.ttl) :=
      h.of_send (h.relay _ _ _)
    have hcomplete (complete_data : Bytes) : Moves T (do
        let reassembled_packet ← outcome (parse_bitchat_packet complete_data)
        client.handle_packet depth (env.call 0) reassembled_packet complete_data
        client.relay (env.call 1) raw packet.ttl) := by
      refine h.first (Moves.outcome _) fun reassembled_packet => ?_
      exact h.last (h.handle_packet depth _ _ _) fun _ => h.relay _ _ _
    unfold client.handle_packet
    split
    · exact h.handle_announce _ _
    · exact h.handle_message _ _ _
    · refine Moves.ite (h.first (quiet_collect_fragment packet) ?_) hrelay
      exact Option.forall.mpr ⟨hrelay, hcomplete⟩
    · refine Moves.ite (h.first (quiet_collect_fragment packet) ?_) hrelay
      exact Option.forall.mpr ⟨hrelay, hcomplete⟩
    · refine Moves.ite (h.first (quiet_collect_fragment packet) ?_) hrelay
      exact Option.forall.mpr ⟨hrelay, hcomplete⟩
    · exact h.of_send (h.handle_key_exchange _ _)
    · exact h.of_send (h.handle_noise_handshake _ _ _)
    · exact h.of_send (h.handle_noise_handshake _ _ _)
    · refine h.first quiet_getClient fun self => ?_
      refine Moves.ite (h.pure ()) (Moves.suppress ?_)
      refine h.first (quiet_onService _) fun decrypted_payload => ?_
      refine Moves.ite ?_ (h.pure ())
      refine h.first (Moves.outcome _) fun inner_packet => ?_
      exact Moves.ite (h.accept_private _ _ _) (h.handle_packet depth _ _ _)
    · exact h.handle_leave _
    · exact h.announce _
    · exact h.handle_noise_identity_announce _ _
    · exact h.pure ()

theorem notification_handler (h : Handling S T) (env : Env) (data : Bytes) :
    Moves T (notification_handler env data) := by
  unfold client.notification_handler
  refine h.first quiet_getClient fun self => ?_
  split
  · exact h.pure ()
  · exact Moves.ite (h.pure ()) (h.handle_packet _ _ _ _).suppress

end Handling

end client
