-- Whether `send_private_message` does all or nothing. It tracks the message and
-- spends a nonce before it knows whether the sealed packet can be sent.
import BitchatNode.Parts
import BitchatNode.PrivateDelivery
import BitchatNode.PrivateOrder
import BitchatNode.Handshaking

namespace daemon

open python bitchat bitchat.protocol bitchat.encryption

variable [Packages]

/-! ## The sessions of a node -/

/-- Every session is filed under an id in hex and has a key to send under. -/
def Registered (svc : EncryptionService) : Prop :=
  ∀ peer_id s, svc.sessions.get? peer_id = some s → InHex peer_id ∧ s.send_cipher.key.isSome = true

section

variable {svc : EncryptionService} {peer_id : Str} {s s' : NoiseSession}

theorem Registered.set (h : Registered svc) (hid : InHex peer_id)
    (hkey : s.send_cipher.key.isSome = true) :
    Registered { svc with sessions := svc.sessions.set peer_id s } := by
  intro other t ht
  rw [Dict.get?_set] at ht
  split at ht
  · rename_i heq
    cases ht
    exact ⟨heq ▸ hid, hkey⟩
  · exact h other t ht

theorem Registered.pop (h : Registered svc) (peer_id : Str) {sessions : Dict Str NoiseSession}
    (hsessions : sessions = svc.sessions.pop peer_id) :
    Registered { svc with sessions } := by
  intro other t ht
  rw [hsessions, Dict.get?_pop] at ht
  split at ht
  · cases ht
  · exact h other t ht

/-- A session that only goes on keeps its key. -/
theorem Registered.goes_on (h : Registered svc) (hsession : svc.sessions.get? peer_id = some s)
    (hkey : s'.send_cipher.key = s.send_cipher.key) :
    Registered { svc with sessions := svc.sessions.set peer_id s' } := by
  obtain ⟨hid, hsome⟩ := h peer_id s hsession
  exact h.set hid (hkey ▸ hsome)

theorem registered_encrypt (data : Bytes) (peer_id : Str) (h : Registered svc) :
    Registered (exec (EncryptionService.encrypt data peer_id) svc).2 := by
  unfold EncryptionService.encrypt
  simp only [exec_bind, exec_get]
  cases hsession : svc.sessions.get? peer_id with
  | none => exact h
  | some session =>
    have hkey := key_encrypt data [] session.send_cipher
    simp only [exec_bind, exec_set]
    rcases hcipher : exec (NoiseCipherState.encrypt data []) session.send_cipher with
      ⟨result, cipher⟩
    rw [hcipher] at hkey
    cases result <;> exact h.goes_on hsession hkey

theorem registered_decrypt (peer_id : Str) (data : Bytes) (h : Registered svc) :
    Registered (exec (EncryptionService.decrypt_from_peer peer_id data) svc).2 := by
  unfold EncryptionService.decrypt_from_peer
  simp only [exec_bind, exec_get]
  cases hsession : svc.sessions.get? peer_id with
  | none => exact h
  | some session =>
    simp only [exec_bind, exec_set]
    rcases exec (NoiseCipherState.decrypt data []) session.receive_cipher with ⟨result, cipher⟩
    cases result <;> exact h.goes_on hsession rfl

theorem keyed_session_of {now : UInt64} {handshake : NoiseHandshakeState}
    (h : EncryptionService.session_of peer_id now handshake = some s) :
    s.send_cipher.key.isSome = true := by
  unfold EncryptionService.session_of NoiseHandshakeState.get_transport_ciphers at h
  split at h
  · rename_i hciphers _
    cases h
    split at hciphers
    · split at hciphers <;> cases hciphers <;> rfl
    · cases hciphers
  · cases h

theorem registered_process (hid : InHex peer_id) (message : Bytes) (generated : Crypto.PrivateKey)
    (now : UInt64) (h : Registered svc) :
    Registered (exec (EncryptionService.process_handshake_message peer_id message generated now)
      svc).2 := by
  unfold EncryptionService.process_handshake_message
  simp only [exec_bind, exec_get, exec_ite, exec_throw, exec_set, exec_pure]
  split
  · exact h
  · split
    · exact h
    · split
      · exact h
      · split
        · exact h
        · split
          · rename_i session hsession
            exact h.set hid (keyed_session_of hsession)
          · exact h

end

/-- The sessions stay as they are, or so that they are still registered. -/
theorem parts_registered : Parts (Keeps fun w => Registered w.node.encryption_service) where
  plain f hf w h := by
    intro peer_id s hs
    rw [exec_modifyNode, (hf w.node).sessions] at hs
    exact h peer_id s hs
  emit _ _ _ h := h
  lose peer_id _ h := h.pop peer_id rfl
  encrypt data peer_id _ h := registered_encrypt data peer_id h
  decrypt peer_id data _ h := registered_decrypt peer_id data h
  initiate peer_id generated w h := by
    intro other s hs
    rw [exec_onService, sessions_initiate] at hs
    exact h.pop peer_id rfl other s hs
  process _ message generated now hid _ h := registered_process hid message generated now h
  acknowledged _ _ h := h
  track _ _ _ _ _ h := h
  take_ack ack w h := by
    unfold take_ack
    simp only [exec_bind, exec_node]
    split
    · exact h
    · simp only [exec_modifyNode, exec_bind, exec_ite, exec_emit, exec_pure]
      split <;> exact h

theorem Reachable.registered {w : World} (h : Reachable w) :
    Registered w.node.encryption_service := by
  induction h with
  | start _ _ _ _ =>
    intro peer_id s hs
    cases hs
  | step _ env event _ ih => exact parts_registered.react env event _ ih

/-! ## All or nothing -/

/-- The nonce that the next message to the peer is sealed under, if there is a
session. -/
def next_nonce (peer_id : Str) (w : World) : Option Nat :=
  (w.node.encryption_service.sessions.get? peer_id).map fun s => s.send_cipher.nonce

/-- The frames that were written from `w` to `w'` on the connection that the
peer had in `w`. -/
def frames_to (peer_id : Str) (w w' : World) : List (Str × Bytes) :=
  (new_writes w w').filter fun f =>
    (w.node.get_conn_for_peer peer_id).map PeerConnection.address = some f.1

/-- The call raised, or wrote nothing to the peer. -/
def Fails {α : Type} (peer_id : Str) (w : World) (done : Except PyError α × World) : Prop :=
  (∃ e, done.1 = .error e) ∨ frames_to peer_id w done.2 = []

/-- A call that fails leaves the nonce and the tracker as they were; any other
writes one frame and moves the nonce on by one. -/
structure Atomic {α : Type} (peer_id : Str) (w : World) (done : Except PyError α × World) :
    Prop where
  nothing : Fails peer_id w done →
    next_nonce peer_id done.2 = next_nonce peer_id w ∧
      done.2.node.delivery_tracker = w.node.delivery_tracker
  all : ¬ Fails peer_id w done → (new_writes w done.2).length = 1 ∧
    next_nonce peer_id done.2 = (next_nonce peer_id w).map (· + 1)

/-- The nickname and the content fit the fields of the payload. -/
def Buildable (content : Str) (n : MeshNode) : Prop :=
  (encode n.nickname).length ≤ 255 ∧ (encode content).length ≤ 65535

/-- The inner packet can be built, and there is a nonce left to seal it under. -/
def Sealable (peer_id content : Str) (n : MeshNode) : Prop :=
  66 + (encode n.nickname).length + (encode content).length ≤ 65535 ∧
    send_nonce n peer_id < NoiseCipherState.NONCES

/-- The sealed packet fits a frame, and the peer's connection takes it. -/
def Sendable (env : Env) (peer_id content : Str) (n : MeshNode) : Prop :=
  (encode n.nickname).length + (encode content).length ≤ 65393 ∧
    ∃ conn ∈ n.get_conn_for_peer peer_id, env.write_fails conn.address = false

/-- The message is tracked already, with this content at this time. -/
def AlreadyTracked (env : Env) (content : Str) (n : MeshNode) : Prop :=
  n.delivery_tracker.pending_messages.get? (env.draw 0).uuid.str =
    some (content, (env.draw 1).time_us, true)

/-- What `send_private_message` does on a session. -/
inductive Attempted (env : Env) (peer_id content : Str) (n : Nat) (w : World) :
    Except PyError Str × World → Prop
  | unbuilt (e : PyError) (h : ¬ Buildable content w.node) :
    Attempted env peer_id content n w (.error e, w)
  | unsealed (e : PyError) (w' : World) (hbuild : Buildable content w.node)
    (h : ¬ Sealable peer_id content w.node) (hnonce : next_nonce peer_id w' = some n)
    (htracker : w'.node.delivery_tracker = w.node.delivery_tracker.track_message
      (env.draw 0).uuid.str content true (env.draw 1).time_us) (hout : w'.out = w.out) :
    Attempted env peer_id content n w (.error e, w')
  | unsent (result : Except PyError Str) (w' : World) (hbuild : Buildable content w.node)
    (hseal : Sealable peer_id content w.node) (h : ¬ Sendable env peer_id content w.node)
    (hnonce : next_nonce peer_id w' ≠ some n) (hwrites : writes w'.out = writes w.out) :
    Attempted env peer_id content n w (result, w')
  | sent (msg_id : Str) (w' : World) (conn : PeerConnection) (frame : Bytes)
    (hbuild : Buildable content w.node) (hseal : Sealable peer_id content w.node)
    (h : Sendable env peer_id content w.node)
    (hconn : w.node.get_conn_for_peer peer_id = some conn)
    (hnonce : next_nonce peer_id w' = some (n + 1))
    (hwrites : writes w'.out = writes w.out ++ [(conn.address, frame)]) :
    Attempted env peer_id content n w (.ok msg_id, w')

/-- The message is sent in one go, or not at all: it cannot be put into a
payload, or it can be sealed and sent, or it can not even be sealed and was
tracked before. -/
def AllOrNothing (env : Env) (peer_id content : Str) (n : MeshNode) : Prop :=
  ¬ Buildable content n ∨ (Sealable peer_id content n ∧ Sendable env peer_id content n) ∨
    (¬ Sealable peer_id content n ∧ AlreadyTracked env content n)

omit [Packages] in
theorem track_message_eq_self_iff (tracker : DeliveryTracker) (message_id content : Str)
    (is_private : Bool) (now : UInt64) :
    tracker.track_message message_id content is_private now = tracker ↔
      tracker.pending_messages.get? message_id = some (content, now, is_private) := by
  constructor
  · intro h
    have hget := congrArg (fun t => t.pending_messages.get? message_id) h
    simpa [DeliveryTracker.track_message] using hget.symm
  · intro h
    have hsame := Dict.set_eq_self h
    unfold DeliveryTracker.track_message
    rw [hsame]

section

variable {env : Env} {peer_id content : Str} {n : Nat} {w : World}
  {done : Except PyError Str × World}

theorem new_writes_of_same {w' : World} (h : writes w'.out = writes w.out) :
    new_writes w w' = [] := new_writes_eq (by rw [h, List.append_nil])

theorem Attempted.atomic_iff (hnonce : next_nonce peer_id w = some n)
    (h : Attempted env peer_id content n w done) :
    Atomic peer_id w done ↔ AllOrNothing env peer_id content w.node := by
  cases h with
  | unbuilt e h =>
    refine iff_of_true ⟨fun _ => ⟨rfl, rfl⟩, ?_⟩ (.inl h)
    exact fun hnot => absurd (.inl ⟨e, rfl⟩) hnot
  | unsealed e w' hbuild h hnonce' htracker hout =>
    constructor
    · intro hatomic
      have htracked := (hatomic.nothing (.inl ⟨e, rfl⟩)).2
      rw [htracker, track_message_eq_self_iff] at htracked
      exact .inr (.inr ⟨h, htracked⟩)
    · rintro (hunbuilt | ⟨hseal, -⟩ | ⟨-, htracked⟩)
      · exact absurd hbuild hunbuilt
      · exact absurd hseal h
      · refine ⟨fun _ => ⟨hnonce'.trans hnonce.symm, ?_⟩, ?_⟩
        · rw [htracker]
          exact (track_message_eq_self_iff _ _ _ _ _).mpr htracked
        · exact fun hnot => absurd (.inl ⟨e, rfl⟩) hnot
  | unsent result w' hbuild hseal h hmoved hwrites =>
    apply iff_of_false
    · intro hatomic
      have hfails : Fails peer_id w (result, w') := by
        right
        unfold frames_to
        rw [new_writes_of_same hwrites]
        rfl
      exact hmoved ((hatomic.nothing hfails).1.trans hnonce)
    · rintro (hunbuilt | ⟨-, hsend⟩ | ⟨hunsealed, -⟩)
      · exact hunbuilt hbuild
      · exact h hsend
      · exact hunsealed hseal
  | sent msg_id w' conn frame hbuild hseal h hconn hmoved hwrites =>
    have hnew := new_writes_eq hwrites
    refine iff_of_true ⟨?_, fun _ => ⟨?_, ?_⟩⟩ (.inr (.inl ⟨hseal, h⟩))
    · rintro (⟨e, he⟩ | hnone)
      · cases he
      · simp [frames_to, hnew, hconn] at hnone
    · rw [hnew]
      rfl
    · rw [hmoved, hnonce]
      rfl

end

/-! ## What the call does -/

section

variable {env : Env} {peer_id content : Str} {s : NoiseSession} {w : World}

theorem next_nonce_of_session (h : w.node.encryption_service.sessions.get? peer_id = some s) :
    next_nonce peer_id w = some s.send_cipher.nonce := by
  unfold next_nonce
  rw [h, Option.map_some]

/-- A send to the peer leaves the nonce, unless it loses the session. -/
theorem next_nonce_send_to_peer (env : Env) {n : Nat} (target : Str) (packet : Bytes)
    (h : next_nonce peer_id w ≠ some n) :
    next_nonce peer_id (exec (send_to_peer env target packet) w).2 ≠ some n := by
  have hheld : Holds env (fun s => s.send_cipher.nonce) peer_id w
      (exec (send_to_peer env target packet) w).2 := holds_send_to_peer target packet w
  intro hafter
  obtain ⟨t, ht, hnonce⟩ := Option.map_eq_some_iff.mp hafter
  apply h
  rw [← hnonce]
  exact hheld.same t ht

/-- What follows the sealing: the outer packet is built and sent. -/
def send_sealed (env : Env) (self : MeshNode) (peer_id : Str) (encrypted : Bytes) (msg_id : Str) :
    Mesh Str := do
  let outer_packet ← outcome (create_bitchat_packet_with_recipient self.my_peer_id.str
    (some peer_id) .NOISE_ENCRYPTED encrypted none (env.draw 3))
  send_to_peer env peer_id outer_packet
  return msg_id

theorem attempted_send_sealed (env : Env) (self : MeshNode) {encrypted : Bytes} {n : Nat}
    {w₁ : World} (hid : InHex peer_id) (msg_id : Str) (hbuild : Buildable content w.node)
    (hseal : Sealable peer_id content w.node)
    (hlength : encrypted.length + 30 ≤ 65535 ↔
      (encode w.node.nickname).length + (encode content).length ≤ 65393)
    (hconn : w₁.node.get_conn_for_peer peer_id = w.node.get_conn_for_peer peer_id)
    (hout : w₁.out = w.out) (hnonce : next_nonce peer_id w₁ = some (n + 1)) :
    Attempted env peer_id content n w
      (exec (send_sealed env self peer_id encrypted msg_id) w₁) := by
  obtain ⟨id, rfl⟩ := hid
  have hmoved : next_nonce (hex id) w₁ ≠ some n := by
    rw [hnonce]
    simp
  unfold send_sealed
  by_cases hfits : encrypted.length < 65536
  · obtain ⟨outer, houter, hsize⟩ := create_for_peer self.my_peer_id id encrypted (env.draw 3)
      (by decide : MessageType.NOISE_ENCRYPTED ∉ exclude_recipient_types) hfits
    have hframe : outer.length ≤ 65535 ↔
        (encode w.node.nickname).length + (encode content).length ≤ 65393 := by omega
    simp only [houter, exec_bind, exec_outcome_ok]
    by_cases hsend : Sendable env (hex id) content w.node
    · obtain ⟨hsmall, conn, hmem, hopen⟩ := hsend
      rw [Option.mem_def] at hmem
      rw [exec_send_to_peer (hconn.trans hmem) (hframe.mpr hsmall) hopen]
      refine .sent _ _ conn (framed outer) hbuild hseal ⟨hsmall, conn, hmem, hopen⟩ hmem hnonce ?_
      simp only [writes_append, hout]
      rfl
    · have hunsent : ¬ (outer.length ≤ 65535 ∧
          ∃ conn ∈ w₁.node.get_conn_for_peer (hex id), env.write_fails conn.address = false) := by
        rw [hframe, hconn]
        exact hsend
      have hwrites := writes_send_to_peer_fails hunsent
      have hnext := next_nonce_send_to_peer env (hex id) outer hmoved
      rw [hout] at hwrites
      rcases hexec : exec (send_to_peer env (hex id) outer) w₁ with ⟨result, w₂⟩
      rw [hexec] at hwrites hnext
      cases result with
      | ok _ => exact .unsent _ _ hbuild hseal hsend hnext hwrites
      | error e => exact .unsent _ _ hbuild hseal hsend hnext hwrites
  · have hsend : ¬ Sendable env (hex id) content w.node := by
      intro hsend
      have hsmall := hlength.mpr hsend.1
      omega
    rw [create_too_long _ _ _ _ _ _ hfits]
    exact .unsent _ _ hbuild hseal hsend hmoved (congrArg writes hout)

theorem attempted_encrypt_private_message [LawfulCrypto] (hid : InHex peer_id)
    (hsession : w.node.encryption_service.sessions.get? peer_id = some s)
    (hkey : s.send_cipher.key.isSome = true) :
    Attempted env peer_id content s.send_cipher.nonce w
      (exec (encrypt_private_message env content peer_id) w) := by
  obtain ⟨key, hkey⟩ := Option.isSome_iff_exists.mp hkey
  have hnonce := next_nonce_of_session hsession
  have hsend_nonce : send_nonce w.node peer_id = s.send_cipher.nonce := by
    unfold send_nonce
    rw [hsession]
    rfl
  unfold encrypt_private_message
  rw [exec_bind_ok _ (exec_node w)]
  by_cases hbuild : Buildable content w.node
  · have hpayload : PayloadFits w.node.nickname (payload_bytes content false none)
        w.node.my_peer_id.str [] := ⟨hbuild.1, hbuild.2, peer_id_fits _, Nat.zero_le _⟩
    obtain ⟨payload, message, hcreate, hlength, -, -⟩ :=
      private_payload w.node.nickname w.node.my_peer_id content (env.draw 0) hpayload
    simp only [hcreate, exec_bind, exec_outcome_ok, exec_modifyNode]
    by_cases hfits : payload.length < 65536
    · obtain ⟨id, rfl⟩ := hid
      obtain ⟨inner, hinner, hinner_size⟩ := create_for_peer w.node.my_peer_id id payload
        (env.draw 2) (by decide : MessageType.MESSAGE ∉ exclude_recipient_types) hfits
      simp only [hinner, exec_outcome_ok, EncryptionService.encrypt_for_peer, exec_onService]
      by_cases hn : s.send_cipher.nonce < NoiseCipherState.NONCES
      · have hencrypt := exec_encrypt (n := s.send_cipher.nonce) (m := s.receive_cipher.nonce)
          hsession hkey hn (with_ttl inner 7)
        simp only [hencrypt]
        have hsize : (Crypto.chacha_encrypt key (NoiseCipherState.nonce_bytes s.send_cipher.nonce)
            (with_ttl inner 7) []).length = inner.length + 16 := by
          rw [LawfulCrypto.length_chacha_encrypt]
          simp [with_ttl]
        generalize hw₁ : World.mk _ _ = w₁
        have hnonce₁ : next_nonce (hex id) w₁ = some (s.send_cipher.nonce + 1) := by
          rw [← hw₁]
          unfold next_nonce
          rw [Dict.get?_set_self]
          rfl
        have hsealed := attempted_send_sealed env w.node ⟨id, rfl⟩
          (env.draw 0).uuid.str hbuild ⟨by omega, by omega⟩ (by rw [hsize]; omega)
          (by rw [← hw₁]; rfl) (by rw [← hw₁]) hnonce₁
        simpa only [send_sealed, exec_bind] using hsealed
      · have hoverflow := exec_encrypt_overflow (n := s.send_cipher.nonce)
          (m := s.receive_cipher.nonce) hsession hkey (Nat.not_lt.mp hn) (with_ttl inner 7)
        simp only [hoverflow]
        refine .unsealed _ _ hbuild (fun hseal => hn (hsend_nonce ▸ hseal.2)) ?_ rfl rfl
        unfold next_nonce
        rw [Dict.get?_set_self]
        rfl
    · rw [create_too_long _ _ _ _ _ _ hfits]
      exact .unsealed _ _ hbuild (fun hseal => hfits (by have := hseal.1; omega)) hnonce rfl rfl
  · have hpayload : ¬ PayloadFits w.node.nickname (payload_bytes content false none)
        w.node.my_peer_id.str ((none : Option Str).getD []) :=
      fun h => hbuild ⟨h.sender, h.content⟩
    obtain ⟨e, he⟩ := create_payload_error none true (env.draw 0) hpayload
    simp only [he]
    exact .unbuilt e hbuild

end

/-- On a session `send_private_message` does all or nothing exactly where the
message cannot be put into a payload, or everything goes through, or it cannot
be sealed and was tracked before. -/
theorem send_private_message_is_atomic_iff [LawfulCrypto] {w : World} (h : Reachable w)
    {target_peer_id : Str} (hsession : has_session target_peer_id w.node) (env : Env)
    (content target_nickname : Str) (message_id : Option Str) :
    Atomic target_peer_id w
        (exec (send_private_message env content target_peer_id target_nickname message_id) w) ↔
      AllOrNothing env target_peer_id content w.node := by
  obtain ⟨s, hs⟩ := Option.isSome_iff_exists.mp hsession
  obtain ⟨hid, hkey⟩ := h.registered target_peer_id s hs
  have hexec : exec (send_private_message env content target_peer_id target_nickname message_id) w =
      exec (encrypt_private_message env content target_peer_id) w := by
    unfold send_private_message
    rw [exec_bind_ok _ (exec_node w), if_pos hsession]
  rw [hexec]
  exact (attempted_encrypt_private_message hid hs hkey).atomic_iff (next_nonce_of_session hs)

end daemon

/-! ## On the stand-in -/

namespace daemon.standIn

open python bitchat bitchat.protocol bitchat.encryption

attribute [local instance] bitchat.standIn.packages

theorem reachable_then {s : Outbox} (h : Reachable s.world) (env : Env) (event : Event)
    (hevent : ∀ task, event ≠ .later task) : Reachable (then_do s (.event env event)).world := by
  cases event with
  | later task => exact absurd rfl (hevent task)
  | _ => exact h.step env _ trivial

theorem reachable_answered : Reachable answered_box.world := by
  have hstart : Reachable start.world := .start us (some ['n']) (.init [1]) (bitchat.standIn.key 1)
  have hconnected := reachable_then hstart (env 1) (.connected conn) (by simp)
  have hmet := reachable_then hconnected (env 1) (.packet conn (hello them)) (by simp)
  have hqueued := reachable_then hmet (env 2) (.private_message ['1'] them.str [] none) (by simp)
  exact reachable_then hqueued (env 3) (.packet conn answer) (by simp)

/-- Surroundings in which every write fails. -/
def deaf_env : Env := { env 4 with write_fails := fun _ => true }

theorem answered_facts :
    has_session them.str answered_box.world.node ∧
    Buildable ['2'] answered_box.world.node ∧ Sealable them.str ['2'] answered_box.world.node ∧
    Sendable (env 4) them.str ['2'] answered_box.world.node := by
  unfold Buildable Sealable Sendable
  decide +kernel

end daemon.standIn

namespace daemon

open python bitchat bitchat.protocol bitchat.encryption

attribute [local instance] bitchat.standIn.packages

/-- A message that goes through. -/
theorem a_message_is_sent_whole :
    Atomic standIn.them.str standIn.answered_box.world (exec (send_private_message (standIn.env 4)
      ['2'] standIn.them.str [] none) standIn.answered_box.world) := by
  have := bitchat.standIn.lawfulCrypto
  obtain ⟨hsession, -, hseal, hsend⟩ := standIn.answered_facts
  exact (send_private_message_is_atomic_iff standIn.reachable_answered hsession (standIn.env 4)
    ['2'] [] none).mpr (.inr (.inl ⟨hseal, hsend⟩))

/-- The write fails, but the message is tracked and its nonce is spent. -/
theorem a_failed_write_is_not_undone :
    Reachable standIn.answered_box.world ∧
    has_session standIn.them.str standIn.answered_box.world.node ∧
    ¬ Atomic standIn.them.str standIn.answered_box.world (exec (send_private_message
      standIn.deaf_env ['2'] standIn.them.str [] none) standIn.answered_box.world) := by
  obtain ⟨hsession, -, -, -⟩ := standIn.answered_facts
  refine ⟨standIn.reachable_answered, hsession, ?_⟩
  have hraises : (exec (send_private_message standIn.deaf_env ['2'] standIn.them.str [] none)
      standIn.answered_box.world).1.isOk = false := by
    decide +kernel
  have hmoved : next_nonce standIn.them.str (exec (send_private_message standIn.deaf_env ['2']
      standIn.them.str [] none) standIn.answered_box.world).2 ≠
        next_nonce standIn.them.str standIn.answered_box.world := by
    decide +kernel
  intro hatomic
  apply hmoved
  refine (hatomic.nothing (.inl ?_)).1
  rcases hresult : (exec (send_private_message standIn.deaf_env ['2'] standIn.them.str [] none)
      standIn.answered_box.world).1 with e | msg_id
  · exact ⟨e, rfl⟩
  · rw [hresult] at hraises
    cases hraises

end daemon
