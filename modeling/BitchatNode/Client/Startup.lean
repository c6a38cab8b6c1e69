-- The start of the client: what is on disk is read, the client announces itself
-- and waits half a second, and only then is what was read put into place. What
-- comes in meanwhile meets the tables of a new client.
import BitchatNode.Client.Input
import BitchatNode.Client.Footprint

namespace client

open python bitchat bitchat.protocol bitchat.encryption
open daemon (AppState decrypt_password digits)

variable [InputPackages]

/-! ## The announcements -/

def send_identity_announce (env : Env) : Client Unit := do
  let self ← getClient
  let timestamp_ms := (env.draw 0).timestamp_ms
  let public_key_bytes := self.encryption_service.get_public_key
  let signature := self.encryption_service.sign_data
    (encode self.my_peer_id.str ++ public_key_bytes ++ encode (digits timestamp_ms))
  let identity_payload ← outcome (encode_noise_identity_announcement_binary self.my_peer_id.str
    public_key_bytes public_key_bytes self.nickname timestamp_ms signature none)
  let identity_packet ← outcome (create_bitchat_packet_with_signature self.my_peer_id.str
    .NOISE_IDENTITY_ANNOUNCE identity_payload (some signature) (env.draw 1))
  send_packet (env.call 2) identity_packet

/-! ## `handshake` -/

/-- `load_state`. A state without an identity key gets one, and is saved. -/
def load_state (file : AppState) (identity_key : Bytes) : Client AppState :=
  match file.identity_key with
  | some _ => pure file
  | none => do
    let state := { file with identity_key := some identity_key }
    emit (.saved state)
    return state

/-- `self.app_state` is what was loaded, and the saved nickname is taken. -/
def BitchatClient.loaded (state : AppState) (self : BitchatClient) : BitchatClient :=
  { self with
    app_state := state
    nickname := if state.nickname.getD [] ≠ [] then state.nickname.getD [] else self.nickname }

/-- `handshake` up to its sleep. It tells whether there is a connection. -/
def handshake_begins (env : Env) (file : AppState) (identity_key : Bytes) : Client Bool := do
  let state ← load_state file identity_key
  modifyClient (·.loaded state)
  let self ← getClient
  if self.connection = .none then return false
  else
    match ← attempt (send_identity_announce (env.call 0)) with
    | .ok () => return true
    | .error _ => do
      let handshake_message ← onService
        (EncryptionService.initiate_handshake self.my_peer_id.str (env.draw 1).generate)
      send_key_exchange (env.call 2) handshake_message
      return true

/-- The keys of the channels whose saved password can be decrypted. -/
def restored_keys (self : BitchatClient) : Dict Str Bytes :=
  match self.app_state.identity_key with
  | none | some [] => self.channel_keys
  | some identity_key =>
    self.app_state.encrypted_channel_passwords.entries.foldl (fun keys (channel, encrypted) =>
      match decrypt_password encrypted identity_key with
      | some password => keys.set channel (EncryptionService.derive_channel_key password channel)
      | none => keys) self.channel_keys

def BitchatClient.restored (self : BitchatClient) : BitchatClient :=
  { self with
    blocked_peers := self.app_state.blocked_peers
    channel_creators := self.app_state.channel_creators
    password_protected_channels := self.app_state.password_protected_channels
    channel_key_commitments := self.app_state.channel_key_commitments
    channel_keys := restored_keys self }

/-- The rest of `handshake`. -/
def handshake_ends (env : Env) (connected : Bool) : Client Unit := do
  if connected then send_announce env else pure ()
  modifyClient BitchatClient.restored

/-! ## The scanner -/

/-- `background_scanner`, once a device is found. Where it fails, there is no
connection. -/
def scanner_connects (env : Env) : Client Unit := do
  modifyClient fun self => { self with connection := .up, peers := .empty }
  match ← attempt (announce_connection env) with
  | .ok () => pure ()
  | .error _ => modifyClient fun self => { self with connection := .none }
where
  announce_connection (env : Env) : Client Unit := do
    match ← attempt (send_identity_announce (env.call 0)) with
    | .ok () => pure ()
    | .error _ => do
      let self ← getClient
      send_key_exchange (env.call 1) self.encryption_service.get_public_key
    send_announce (env.call 2)

/-- What happens to a client while nobody types. -/
inductive Happening
  | packet (raw : Bytes)
  /-- A task that was created comes to run. -/
  | send_pending_private_messages (peer_id : Str)
  /-- The connection goes, and the client does not notice. -/
  | lost
  /-- The connection goes, and `handle_disconnect` is called. -/
  | disconnected
  /-- The scanner finds a device, and connects or fails to. -/
  | scanned (connects : Bool)
  /-- The scanner looks for old sessions, with the age in microseconds. -/
  | cleanup (now : UInt64)

def happen (env : Env) : Happening → Client Unit
  | .packet raw => notification_handler env raw
  | .send_pending_private_messages peer_id => send_pending_private_messages env peer_id
  | .lost => modifyClient fun self => { self with
      connection := if self.connection = .up then .lost else self.connection }
  | .disconnected => handle_disconnect
  | .scanned connects => do
    let self ← getClient
    if self.connection = .up then pure ()
    else if connects then scanner_connects env
    else modifyClient fun self => { self with connection := .none }
  | .cleanup now => modifyClient fun self => { self with
      encryption_service := self.encryption_service.cleanup_old_sessions now 3600000000 }

/-- The client after all this, in this order. -/
def World.after (w : World) (story : List (Env × Happening)) : World :=
  story.foldl (fun w e => (exec (happen e.1 e.2) w).2) w

/-- The relation `T` holds through whatever happens, in which `S` holds through
the sends. -/
structure Happenings (S T : World → World → Prop) [IsPreorder World S] : Prop
    extends Handling S T where
  clear_peers : Moves T (modifyClient fun self => { self with connection := .up, peers := .empty })

section

variable {S T : World → World → Prop} [IsPreorder World S]

theorem Sending.send_identity_announce (h : Sending S) (env : Env) :
    Moves S (send_identity_announce env) := by
  unfold client.send_identity_announce
  apply moves_look
  intro self
  refine Moves.bind (Moves.outcome _) fun identity_payload => ?_
  exact Moves.bind (Moves.outcome _) fun _ => h.send_packet _ _

theorem Sending.send_announce (h : Sending S) (env : Env) : Moves S (send_announce env) := by
  unfold client.send_announce
  apply moves_look
  intro self
  exact Moves.bind (Moves.outcome _) fun _ => h.send_packet _ _

theorem Happenings.scanner_connects (h : Happenings S T) (env : Env) :
    Moves T (scanner_connects env) := by
  have hfallback : Moves S (do
      let self ← getClient
      send_key_exchange (env.call 1) self.encryption_service.get_public_key) :=
    moves_look fun _ => h.send_key_exchange _ _
  have hannounce : Moves S (scanner_connects.announce_connection env) := by
    unfold scanner_connects.announce_connection
    refine Moves.bind (h.send_identity_announce _).attempt fun result => ?_
    cases result with
    | ok _ => exact h.send_announce _
    | error e =>
      apply moves_look
      intro self
      exact Moves.bind (h.send_key_exchange _ _) fun _ => h.send_announce _
  unfold client.scanner_connects
  refine h.last h.clear_peers fun _ => Moves.bind hannounce.attempt fun result => ?_
  cases result with
  | ok _ => exact Moves.pure ()
  | error e => exact h.modify fun s => ⟨rfl, rfl, rfl, rfl, rfl, rfl, rfl, rfl, rfl, rfl⟩

theorem Happenings.happen (h : Happenings S T) (env : Env) (happening : Happening) :
    Moves T (happen env happening) := by
  cases happening with
  | packet raw => exact h.notification_handler env raw
  | send_pending_private_messages peer_id =>
    exact h.of_send (h.send_pending_private_messages env peer_id)
  | disconnected => exact h.of_send h.disconnect
  | scanned connects =>
    refine h.first quiet_getClient fun self => ?_
    refine Moves.ite (h.pure ()) (Moves.ite (h.scanner_connects env) ?_)
    exact h.of_send (h.modify fun s => ⟨rfl, rfl, rfl, rfl, rfl, rfl, rfl, rfl, rfl, rfl⟩)
  | lost => exact h.of_send (h.modify fun s => ⟨rfl, rfl, rfl, rfl, rfl, rfl, rfl, rfl, rfl, rfl⟩)
  | cleanup now =>
    exact h.of_send (h.modify fun s => ⟨rfl, rfl, rfl, rfl, rfl, rfl, rfl, rfl, rfl, rfl⟩)

theorem Happenings.run [IsPreorder World T] (h : Happenings S T) (w : World)
    (story : List (Env × Happening)) : T w (w.after story) := by
  unfold World.after
  induction story generalizing w with
  | nil => exact refl_of T w
  | cons e story ih => exact trans_of T (h.happen e.1 e.2 w) (ih _)

end

/-! ## A start -/

/-- A start of the client, with what happens before it is under way and while
it waits. -/
structure Start where
  my_peer_id : PeerId
  static_identity_key : Crypto.PrivateKey
  connection : Connection
  /-- What is on disk. -/
  file : AppState
  identity_key : Bytes
  before : List (Env × Happening)
  env : Env
  meanwhile : List (Env × Happening)
  env' : Env

namespace Start

/-- The client before it reads what is on disk. -/
def connected (s : Start) : World :=
  World.after ⟨{ BitchatClient.init s.my_peer_id s.static_identity_key with
    connection := s.connection }, []⟩ s.before

/-- What is on disk by then: the state that was saved last. -/
def on_disk (s : Start) : AppState := (saves s.connected.out).getLastD s.file

def begun (s : Start) : Except PyError Bool × World :=
  exec (handshake_begins s.env s.on_disk s.identity_key) s.connected

/-- The client after the sleep. -/
def waited (s : Start) : World := s.begun.2.after s.meanwhile

/-- The client once `handshake` has returned, if it does. -/
def finished (s : Start) : Option World :=
  match s.begun.1 with
  | .error _ => none
  | .ok connected =>
    match exec (handshake_ends s.env' connected) s.waited with
    | (.error _, _) => none
    | (.ok (), w) => some w

/-- A handler saves the state of the client that is not yet restored. -/
def Disturbed (s : Start) : Prop :=
  saves s.connected.out ≠ [] ∨ saves s.waited.out ≠ saves s.begun.2.out

end Start

/-- The packet of somebody else announces a channel. -/
def Announces (me : PeerId) : Happening → Prop
  | .packet raw => ∃ packet, parse_bitchat_packet raw = .ok packet ∧
      packet.msg_type = .CHANNEL_ANNOUNCE ∧ packet.sender_id_str ≠ me.str ∧
      3 ≤ ((decodeIgnore packet.payload).splitOn '|').length
  | _ => False

/-! ### What is saved -/

/-- Nothing is saved, and nobody is blocked or unblocked. -/
structure Unsaved (w w' : World) : Prop where
  my_peer_id : w'.state.my_peer_id = w.state.my_peer_id
  blocked_peers : w'.state.blocked_peers = w.state.blocked_peers
  app_state : w'.state.app_state = w.state.app_state
  saves : saves w'.out = saves w.out

instance : IsPreorder World Unsaved where
  refl _ := ⟨rfl, rfl, rfl, rfl⟩
  trans _ _ _ h g := ⟨g.1.trans h.1, g.2.trans h.2, g.3.trans h.3, g.4.trans h.4⟩

/-- Whatever is saved names the peers that the client has blocked by then. -/
structure SavesOwn (w w' : World) : Prop where
  my_peer_id : w'.state.my_peer_id = w.state.my_peer_id
  blocked_peers : w'.state.blocked_peers = w.state.blocked_peers
  news : ∃ new, saves w'.out = saves w.out ++ new ∧
    (∀ state ∈ new, state.blocked_peers = w.state.blocked_peers) ∧
    w'.state.app_state.blocked_peers =
      if new = [] then w.state.app_state.blocked_peers else w.state.blocked_peers

instance : IsPreorder World SavesOwn where
  refl _ := ⟨rfl, rfl, [], (List.append_nil _).symm, by simp, by simp⟩
  trans u v w h g := by
    obtain ⟨hid, hblocked, new, hsaves, hnew, hstate⟩ := h
    obtain ⟨hid', hblocked', new', hsaves', hnew', hstate'⟩ := g
    refine ⟨hid'.trans hid, hblocked'.trans hblocked, new ++ new', ?_, ?_, ?_⟩
    · rw [hsaves', hsaves, List.append_assoc]
    · intro state hmem
      rcases List.mem_append.mp hmem with hmem | hmem
      · exact hnew state hmem
      · exact (hnew' state hmem).trans hblocked
    · rw [hstate', hstate, hblocked]
      by_cases hnil : new' = [] <;> by_cases hnil' : new = [] <;> simp [hnil, hnil']

theorem Unsaved.savesOwn {w w' : World} (h : Unsaved w w') : SavesOwn w w' :=
  ⟨h.my_peer_id, h.blocked_peers, [], h.saves.trans (List.append_nil _).symm, by simp,
    by simp [h.app_state]⟩

theorem unsaved_sending : Sending Unsaved where
  quiet _ _ h := ⟨h.face.my_peer_id, h.face.blocked_peers, h.face.app_state, h.saves⟩
  disconnect _ := ⟨rfl, rfl, rfl, rfl⟩

theorem savesOwn_announce (packet : BitchatPacket) :
    Moves SavesOwn (handle_channel_announce packet) := by
  intro w
  unfold handle_channel_announce
  split
  · exact ⟨rfl, rfl, [_], List.filterMap_append, by simp [BitchatClient.channel_announced], rfl⟩
  · exact refl_of SavesOwn w

theorem unsaved_lose_peer (peer_id : Str) :
    Moves Unsaved (modifyClient (·.lose_peer peer_id)) := by
  intro w
  rw [exec_modifyClient]
  unfold BitchatClient.lose_peer
  dsimp only
  split
  · exact ⟨rfl, rfl, rfl, rfl⟩
  · exact ⟨rfl, rfl, rfl, rfl⟩

theorem savesOwn_happenings : Happenings Unsaved SavesOwn where
  toSending := unsaved_sending
  send _ _ := Unsaved.savesOwn
  before _ _ _ h g := trans_of SavesOwn (unsaved_sending.quiet _ _ h).savesOwn g
  after _ _ _ h g := trans_of SavesOwn h g.savesOwn
  shows _ _ h := Unsaved.savesOwn ⟨h.my_peer_id, h.blocked_peers, h.app_state, h.saves⟩
  name_peer _ _ _ := Unsaved.savesOwn ⟨rfl, rfl, rfl, rfl⟩
  lose_peer peer_id w := (unsaved_lose_peer peer_id w).savesOwn
  announce := savesOwn_announce
  clear_peers _ := Unsaved.savesOwn ⟨rfl, rfl, rfl, rfl⟩

/-- An announcement of a channel has the client save its state. -/
theorem saves_of_announces {happening : Happening} (env : Env) {w : World}
    (h : Announces w.state.my_peer_id happening) :
    ∃ state, saves (exec (happen env happening) w).2.out = saves w.out ++ [state] := by
  cases happening with
  | packet raw =>
    obtain ⟨packet, hparse, htype, hother, hfields⟩ := h
    rcases hsplit : (decodeIgnore packet.payload).splitOn '|' with _ | ⟨channel, _ | ⟨flag, _ |
      ⟨creator_id, rest⟩⟩⟩
    · simp [hsplit] at hfields
    · simp [hsplit] at hfields
    · simp [hsplit] at hfields
    · unfold happen notification_handler
      simp only [exec_bind, exec_getClient, hparse, if_neg hother, exec_suppress, recursion_limit]
      unfold handle_packet
      simp only [htype]
      unfold handle_channel_announce
      simp only [hsplit]
      exact ⟨_, List.filterMap_append⟩
  | _ => exact absurd h id

/-- A run with such an announcement saves something. -/
theorem saves_ne_of_announces {story : List (Env × Happening)} {e : Env × Happening}
    (hmem : e ∈ story) {w : World} (h : Announces w.state.my_peer_id e.2) :
    saves (w.after story).out ≠ saves w.out := by
  obtain ⟨earlier, later, rfl⟩ := List.append_of_mem hmem
  have hsplit : w.after (earlier ++ e :: later) =
      World.after (exec (happen e.1 e.2) (w.after earlier)).2 later := by
    unfold World.after
    rw [List.foldl_append, List.foldl_cons]
  have hearlier := savesOwn_happenings.run w earlier
  obtain ⟨new, hnew, -⟩ := hearlier.news
  obtain ⟨state, hsaved⟩ := saves_of_announces e.1 (hearlier.my_peer_id ▸ h)
  obtain ⟨new', hnew', -⟩ := (savesOwn_happenings.run (exec (happen e.1 e.2) (w.after earlier)).2
    later).news
  intro hsame
  have hlength := congrArg List.length hsame
  rw [hsplit, hnew', hsaved, hnew] at hlength
  simp at hlength

/-! ### What is restored -/

/-- The list that is on disk is the one in the saved state of the client. -/
def OnDisk (file : AppState) (w : World) : Prop :=
  ((saves w.out).getLastD file).blocked_peers = w.state.app_state.blocked_peers

theorem SavesOwn.onDisk {file : AppState} {w w' : World} (h : SavesOwn w w')
    (hdisk : OnDisk file w) : OnDisk file w' := by
  obtain ⟨new, hsaves, hnew, hstate⟩ := h.news
  unfold OnDisk at hdisk ⊢
  rw [hsaves, hstate]
  rcases List.eq_nil_or_concat new with rfl | ⟨firsts, last, rfl⟩
  · simpa using hdisk
  · rw [List.concat_eq_append, ← List.append_assoc, List.getLastD_concat, hnew last (by simp)]
    simp

/-- Up to the sleep of `handshake` the list that was read is kept aside. -/
structure Loaded (file : AppState) (w w' : World) : Prop where
  my_peer_id : w'.state.my_peer_id = w.state.my_peer_id
  blocked_peers : w'.state.blocked_peers = w.state.blocked_peers
  app_state : w'.state.app_state.blocked_peers = file.blocked_peers
  saves : ∃ new, saves w'.out = saves w.out ++ new ∧
    ∀ state ∈ new, state.blocked_peers = file.blocked_peers

theorem loaded_begins (env : Env) (file : AppState) (identity_key : Bytes) (w : World) :
    Loaded file w (exec (handshake_begins env file identity_key) w).2 := by
  have hload : ∃ state w₁, exec (load_state file identity_key) w = (.ok state, w₁) ∧
      state.blocked_peers = file.blocked_peers ∧ w₁.state = w.state ∧
        ∃ new, client.saves w₁.out = client.saves w.out ++ new ∧
          ∀ state ∈ new, state.blocked_peers = file.blocked_peers := by
    unfold load_state
    cases file.identity_key with
    | some _ => exact ⟨file, w, rfl, rfl, rfl, [], (List.append_nil _).symm, by simp⟩
    | none => exact ⟨_, _, rfl, rfl, rfl, [_], List.filterMap_append, by simp⟩
  obtain ⟨state, w₁, hexec, hblocked, hsame, new, hsaves, hnew⟩ := hload
  have hrest : Moves Unsaved (do
      let self ← getClient
      if self.connection = .none then return false
      else
        match ← attempt (send_identity_announce (env.call 0)) with
        | .ok () => return true
        | .error _ => do
          let handshake_message ← onService
            (EncryptionService.initiate_handshake self.my_peer_id.str (env.draw 1).generate)
          send_key_exchange (env.call 2) handshake_message
          return true) := by
    have hsends := unsaved_sending
    refine moves_look fun self => Moves.ite (Moves.pure _) ?_
    refine Moves.bind (hsends.send_identity_announce _).attempt fun result => ?_
    cases result with
    | ok _ => exact Moves.pure _
    | error e =>
      refine Moves.bind (hsends.onService _) fun handshake_message => ?_
      exact Moves.bind (hsends.send_key_exchange _ _) fun _ => Moves.pure _
  unfold handshake_begins
  rw [exec_bind_ok _ hexec, exec_bind_ok _ (exec_modifyClient _ w₁)]
  have hsent := hrest { w₁ with state := w₁.state.loaded state }
  refine ⟨?_, ?_, ?_, new, hsent.saves.trans hsaves, hnew⟩
  · rw [← hsame]
    exact hsent.my_peer_id
  · rw [← hsame]
    exact hsent.blocked_peers
  · exact (congrArg AppState.blocked_peers hsent.app_state).trans hblocked

/-- The sleep is over: what was kept aside is put into place. -/
theorem restored_ends {env : Env} {connected : Bool} {w w' : World}
    (h : exec (handshake_ends env connected) w = (.ok (), w')) :
    w'.state.blocked_peers = w.state.app_state.blocked_peers ∧
      w'.state.app_state = w.state.app_state ∧ saves w'.out = saves w.out := by
  have hrestored : ∃ w₁, Unsaved w w₁ ∧ w' = { w₁ with state := w₁.state.restored } := by
    cases connected with
    | false =>
      obtain ⟨-, rfl⟩ := Prod.mk.inj h
      exact ⟨w, refl_of Unsaved w, rfl⟩
    | true =>
      obtain ⟨_, w₁, hsent, hrest⟩ := exec_bind_eq_ok h
      obtain ⟨-, rfl⟩ := Prod.mk.inj hrest
      have hsame := unsaved_sending.send_announce env w
      rw [hsent] at hsame
      exact ⟨w₁, hsame, rfl⟩
  obtain ⟨w₁, hsame, rfl⟩ := hrestored
  exact ⟨congrArg AppState.blocked_peers hsame.app_state, hsame.app_state, hsame.saves⟩

/-- The list of blocked peers survives a start of the client unless something is
saved before the start is over. Then the list is lost, on disk as well, and a
channel announcement of anybody is enough. -/
theorem a_disturbed_start_unblocks_everybody {s : Start} {w : World} (h : s.finished = some w) :
    (s.Disturbed → w.state.blocked_peers = ∅) ∧
      (¬ s.Disturbed → w.state.blocked_peers = s.file.blocked_peers) ∧
      ((saves w.out).getLastD s.file).blocked_peers = w.state.blocked_peers ∧
      ∀ e ∈ s.before ++ s.meanwhile, Announces s.my_peer_id e.2 → s.Disturbed := by
  -- before the file is read
  have hconnected : SavesOwn _ s.connected := savesOwn_happenings.run _ s.before
  obtain ⟨old, hold, hold_blocked, -⟩ := hconnected.news
  have hsaved : saves s.connected.out = old := hold
  have hnobody : s.connected.state.blocked_peers = ∅ := hconnected.blocked_peers
  have hon_disk : s.on_disk.blocked_peers = if old = [] then s.file.blocked_peers else ∅ := by
    unfold Start.on_disk
    rw [hsaved]
    rcases List.eq_nil_or_concat old with rfl | ⟨firsts, last, rfl⟩
    · rfl
    · rw [List.concat_eq_append, List.getLastD_concat, hold_blocked last (by simp)]
      simp [BitchatClient.init]
  -- the file is read
  have hbegun : Loaded s.on_disk s.connected s.begun.2 :=
    loaded_begins s.env s.on_disk s.identity_key s.connected
  obtain ⟨loaded, hloaded, hloaded_blocked⟩ := hbegun.saves
  have hdisk : OnDisk s.file s.begun.2 := by
    unfold OnDisk
    rw [hbegun.app_state, hloaded]
    rcases List.eq_nil_or_concat loaded with rfl | ⟨firsts, last, rfl⟩
    · rw [List.append_nil]
      rfl
    · rw [List.concat_eq_append, ← List.append_assoc, List.getLastD_concat]
      exact hloaded_blocked last (by simp)
  -- the sleep
  have hwaited : SavesOwn s.begun.2 s.waited := savesOwn_happenings.run _ s.meanwhile
  obtain ⟨new, hnew, -, hkept⟩ := hwaited.news
  rw [hbegun.app_state, hon_disk, hbegun.blocked_peers, hnobody] at hkept
  have hdisturbed : s.Disturbed ↔ old ≠ [] ∨ new ≠ [] := by
    unfold Start.Disturbed
    rw [hsaved, hnew]
    simp
  -- the end
  have hend : w.state.blocked_peers = s.waited.state.app_state.blocked_peers ∧
      w.state.app_state = s.waited.state.app_state ∧ saves w.out = saves s.waited.out := by
    unfold Start.finished at h
    split at h
    · cases h
    · rename_i connected _
      rcases hends : exec (handshake_ends s.env' connected) s.waited with ⟨e | _, w'⟩
      · rw [hends] at h
        cases h
      · rw [hends] at h
        obtain rfl := Option.some.inj h
        exact restored_ends hends
  obtain ⟨hblocked, -, hsaves⟩ := hend
  rw [hdisturbed]
  refine ⟨?_, ?_, ?_, ?_⟩
  · intro hchanged
    rw [hblocked, hkept]
    split
    · rename_i hnil
      rw [if_neg (hchanged.resolve_right (not_not_intro hnil))]
    · rfl
  · intro hundisturbed
    rw [not_or, not_not, not_not] at hundisturbed
    rw [hblocked, hkept, if_pos hundisturbed.2, if_pos hundisturbed.1]
  · rw [hsaves, hblocked]
    exact hwaited.onDisk hdisk
  · intro e hmem hannounces
    rw [← hdisturbed]
    rcases List.mem_append.mp hmem with hbefore | hmeanwhile
    · left
      exact saves_ne_of_announces hbefore hannounces
    · right
      apply saves_ne_of_announces hmeanwhile
      rw [hbegun.my_peer_id, hconnected.my_peer_id]
      exact hannounces

end client

/-! ## On the stand-in -/

namespace client.standIn

open python bitchat bitchat.protocol
open daemon (AppState)

attribute [local instance] input_packages

/-- A client that has somebody blocked starts, and while it waits somebody else
announces a channel. -/
def disturbed_start : Start where
  my_peer_id := ⟨[2, 2, 2, 2, 2, 2, 2, 2], PeerId.length_twos⟩
  static_identity_key := bitchat.standIn.key 2
  connection := .up
  file := { AppState.init [7] with blocked_peers := {['f']} }
  identity_key := [8]
  before := []
  env := env 1
  meanwhile := [(env 1, .packet (layout .CHANNEL_ANNOUNCE 5 0 0 (List.replicate 8 1) []
    (encode "#c|0|".toList) []))]
  env' := env 1

end client.standIn

namespace client

open standIn

attribute [local instance] input_packages

/-- One announcement at the wrong time, and nobody is blocked any more. -/
theorem an_announcement_unblocks_everybody : disturbed_start.file.blocked_peers ≠ ∅ ∧
    ∃ w, disturbed_start.finished = some w ∧ w.state.blocked_peers = ∅ := by
  refine ⟨by decide, ?_⟩
  have hfinished : disturbed_start.finished.isSome = true := by decide +kernel
  obtain ⟨w, hw⟩ := Option.isSome_iff_exists.mp hfinished
  obtain ⟨hlost, -, -, hdisturbs⟩ := a_disturbed_start_unblocks_everybody hw
  refine ⟨w, hw, hlost (hdisturbs _ (List.mem_singleton_self _) ?_)⟩
  exact ⟨_, bitchat.protocol.parse_layout .CHANNEL_ANNOUNCE 5 0 0 _ [] _ [] rfl rfl rfl (by decide),
    rfl, by decide, by decide⟩

end client
