-- Runs of two nodes with a session. As long as neither of them spends a nonce
-- on a packet that it cannot send, or acknowledges a channel message in plain
-- text, every sealed packet meets the nonce that it was sealed under.
import BitchatNode.NonceSync
import BitchatNode.XXAgreement

namespace daemon

open python bitchat bitchat.protocol bitchat.encryption

variable [Packages]

/-! ## Runs of a conversation -/

/-- What the two nodes do: they send messages, handle what arrives, and pass
on what they put off. -/
inductive Talks (e : Ends) (l : Link) : Op → Prop
  | private_message (x : Side) {env : Env} (henv : Lossless env) (content nickname : Str)
      (message_id : Option Str) :
    Talks e l (.act x env (.private_message content (e.id x.other).str nickname message_id))
  | public_message (x : Side) {env : Env} (henv : Lossless env) (content : Str)
      (channel : Option Str) : Talks e l (.act x env (.public_message content channel))
  | relay (x : Side) {env : Env} (henv : Lossless env) {raw : Bytes} {ttl : UInt8}
      (hdue : .later (.relay raw ttl) ∈ (l.world x).out) :
    Talks e l (.act x env (.later (.relay raw ttl)))
  | handle (x : Side) {env : Env} (henv : Lossless env) : Talks e l (.handle x env)

/-- No nonce goes astray in the step: a private message that is sealed can be
sent, and so can its ACK, and a message in plain text gets no ACK. -/
def Careful (e : Ends) (l : Link) : Op → Prop
  | .act x _ (.private_message content _ _ _) => Affordable (l.world x).node content
  | .act _ _ _ => True
  | .handle x env => ∀ f rest packet, l.wire x.other = f :: rest →
      parse_bitchat_packet f.raw = .ok packet → packet.sender_id_str ≠ (e.id x).str →
        (packet.msg_type = .MESSAGE → ¬ PlainAckDue env (l.world x).node packet.payload) ∧
        (packet.msg_type = .NOISE_ENCRYPTED → AckAffordable env (l.world x).node)

/-- The nodes hold the sessions that one handshake between them produced. -/
def Paired (e : Ends) (l : Link) : Prop :=
  ∃ (x : Side) (static_i static_r ephemeral_i ephemeral_r unused : Crypto.PrivateKey)
    (read : List Bytes) (i r : NoiseHandshakeState) (now : Side → UInt64),
    xx_run static_i static_r ephemeral_i ephemeral_r unused [] [] [] = .ok (read, i, r) ∧
    (l.world x).node.encryption_service.sessions.get? (e.id x.other).str =
      EncryptionService.session_of (e.id x.other).str (now x) i ∧
    (l.world x.other).node.encryption_service.sessions.get? (e.id x).str =
      EncryptionService.session_of (e.id x).str (now x.other) r

/-- Two nodes that know each other and neither of which has blocked the other,
right after a handshake. -/
structure Fresh (e : Ends) (l : Link) : Prop where
  paired : Paired e l
  joined : ∀ x, Joined (e.id x) (e.id x.other) (e.conn x) (l.world x).node
  unblocked : ∀ x, is_blocked (l.world x).node (e.id x.other).str = false
  silent : ∀ x, l.wire x = [] ∧ relays (l.world x).out = []

def receive_nonce (n : MeshNode) (peer_id : Str) : Option Nat :=
  (n.encryption_service.sessions.get? peer_id).map fun s => s.receive_cipher.nonce

/-- If a sealed packet is next, the side is about to open it under the nonce it
was sealed under, and will not reject it. -/
def InStep (e : Ends) (l : Link) (x : Side) : Prop :=
  ∀ f rest packet, l.wire x.other = f :: rest → parse_bitchat_packet f.raw = .ok packet →
    packet.msg_type = .NOISE_ENCRYPTED →
      receive_nonce (l.world x).node (e.id x.other).str = some f.nonce ∧
      ∃ plain, (exec (EncryptionService.decrypt_from_peer packet.sender_id_str packet.payload)
        (l.world x).node.encryption_service).1 = .ok plain

/-! ## The invariant -/

/-- Each side holds its session, with counters between which the packets on
the wire lead. -/
structure Synced (e : Ends) (s : Side → NoiseSession) (key : Side → Bytes) (n m : Side → Nat)
    (l : Link) : Prop where
  settled : ∀ x, Settled (e.id x) (e.id x.other) (e.conn x) (s x) (n x) (m x) (l.world x).node
  chain : ∀ x, Chain (e.id x) (e.id x.other) (key x) (m x.other) (l.wire x) (n x)
  relays : ∀ x, ∀ raw ∈ relays (l.world x).out, IsEcho (e.id x.other) raw

/-- The keys of the two sessions are crossed. -/
def Crossed (s : Side → NoiseSession) (key : Side → Bytes) : Prop :=
  ∀ x, (s x).send_cipher.key = some (key x) ∧ (s x).receive_cipher.key = some (key x.other)

section

variable {e : Ends} {s : Side → NoiseSession} {key : Side → Bytes} {n m : Side → Nat} {l : Link}

/-- One side moves on, by what a step may do. -/
theorem Synced.advance (h : Synced e s key n m l) (x : Side) {w' : World} {n' m' : Nat}
    {rest : List Frame}
    (hdoes : Does (e.id x) (e.id x.other) (e.conn x) (s x) (key x) (n x) n' m' (l.world x) w')
    (hrest : Chain (e.id x.other) (e.id x) (key x.other) m' rest (n x.other)) :
    Synced e s key (Function.update n x n') (Function.update m x m')
      (Link.advance e { l with wire := Function.update l.wire x.other rest } x w') := by
  obtain ⟨packets, relayed, hacts, hchain, hrelayed⟩ := hdoes.acts
  have hnonce := (h.settled x).send_nonce
  have hwritten := hacts.written (e.id x.other).str
  rw [hnonce] at hwritten
  refine ⟨fun y => ?_, fun y => ?_, fun y => ?_⟩
  · rcases Side.eq_or_other_eq x y with rfl | rfl
    · simp only [Link.advance, Function.update_self]
      exact hdoes.settled
    · simp only [Link.advance, Function.update_of_ne x.other_ne]
      exact h.settled x.other
  · rcases Side.eq_or_other_eq x y with rfl | rfl
    · simp only [Link.advance, Function.update_self, Function.update_of_ne x.other_ne,
        Function.update_of_ne x.other_ne.symm, hwritten]
      exact (h.chain x).append hchain
    · simp only [Link.advance, Function.update_self, Function.update_of_ne x.other_ne,
        Side.other_other]
      exact hrest
  · rcases Side.eq_or_other_eq x y with rfl | rfl
    · simp only [Link.advance, Function.update_self]
      rw [hacts.relays]
      intro raw hraw
      rcases List.mem_append.mp hraw with hold | hnew
      · exact h.relays x raw hold
      · exact hrelayed raw hnew
    · simp only [Link.advance, Function.update_of_ne x.other_ne]
      exact h.relays x.other

/-- A side that does something by itself takes nothing off the wires. -/
theorem Synced.act (h : Synced e s key n m l) (x : Side) {env : Env} {event : Event} {n' : Nat}
    (hdoes : Does (e.id x) (e.id x.other) (e.conn x) (s x) (key x) (n x) n' (m x) (l.world x)
      (exec (react env event) (l.world x)).2) :
    Synced e s key (Function.update n x n') m (l.step e (.act x env event)) := by
  have hchain := h.chain x.other
  rw [Side.other_other] at hchain
  have hadvance := h.advance x hdoes hchain
  rw [Function.update_eq_self, Function.update_eq_self] at hadvance
  exact hadvance

/-- A due relay is one of a message of the peer. -/
theorem Synced.echo (h : Synced e s key n m l) (x : Side) {raw : Bytes} {ttl : UInt8}
    (hdue : .later (.relay raw ttl) ∈ (l.world x).out) :
    IsEcho (e.id x.other) (with_ttl raw (ttl - 1)) :=
  h.relays x _ (List.mem_filterMap.mpr ⟨_, hdue, rfl⟩)

/-- The packet that is next, opened by its reader. -/
theorem Carries.does_handle [LawfulCrypto] {me peer : PeerId} {conn : PeerConnection}
    {s : NoiseSession} {key their_key : Bytes} {n m m' : Nat} {w : World} {env : Env} {f : Frame}
    (hcarries : Carries peer me their_key m f m') (h : Settled me peer conn s n m w.node)
    (hne : me ≠ peer) (hpeer : hex (rstripZero peer.bytes) = peer.str)
    (hme : hex (rstripZero me.bytes) = me.str) (henv : Lossless env)
    (hsend : s.send_cipher.key = some key) (hreceive : s.receive_cipher.key = some their_key)
    (hcareful : ∀ packet, parse_bitchat_packet f.raw = .ok packet →
      packet.sender_id_str ≠ me.str →
        (packet.msg_type = .MESSAGE → ¬ PlainAckDue env w.node packet.payload) ∧
        (packet.msg_type = .NOISE_ENCRYPTED → AckAffordable env w.node)) :
    ∃ n', Does me peer conn s key n n' m' w (exec (react env (.packet conn f.raw)) w).2 := by
  show ∃ n', Does me peer conn s key n n' m' w (exec (on_packet_received env conn f.raw) w).2
  have hother : peer.str ≠ me.str := fun heq => hne (PeerId.str_injective heq).symm
  cases hcarries with
  | sealed hm hraw hplain =>
    obtain ⟨-, hack⟩ := hcareful _ hraw.parse_raw (ne_of_eq_of_ne hpeer hother)
    rw [h.receives hne hpeer hraw.parse_raw]
    obtain ⟨n', hdoes⟩ := does_handle_sealed h.heard hpeer henv hsend hreceive hm hplain (hack rfl)
    exact ⟨n', hdoes.after (List.append_nil _).symm rfl rfl⟩
  | ack hm hraw nonce =>
    rw [h.receives hne hpeer (parse_with_ttl hraw 3)]
    exact ⟨n, (does_handle_ack h.heard hpeer hme (exec_decrypt h.heard.session hreceive hm _)
      _).after (List.append_nil _).symm rfl rfl⟩
  | late_ack hm hraw nonce =>
    rw [h.receives hne hpeer (parse_with_ttl hraw 3)]
    exact ⟨n, (does_handle_ack h.heard hpeer hme
      (exec_decrypt_overflow h.heard.session hreceive hm _)
      _).after (List.append_nil _).symm rfl rfl⟩
  | message hraw nonce =>
    obtain ⟨hplain, -⟩ := hcareful _ hraw.parse_raw (ne_of_eq_of_ne hpeer hother)
    rw [h.receives hne hpeer hraw.parse_raw]
    exact ⟨n, (does_handle_message h.heard hpeer hraw (hplain rfl)).after
      (List.append_nil _).symm rfl rfl⟩
  | @echo raw payload hraw ttl nonce =>
    -- a node ignores its own messages
    show ∃ n', Does me peer conn s key n n' m w
      (exec (on_packet_received env conn (with_ttl raw ttl)) w).2
    have howner : (received me none .MESSAGE payload ttl).sender_id_str = w.node.my_peer_id.str :=
      hme.trans (congrArg PeerId.str h.me.symm)
    unfold on_packet_received
    simp only [exec_bind, exec_node, parse_with_ttl hraw ttl, howner, if_true, exec_pure]
    exact ⟨n, h.does_nothing rfl⟩

/-- Every careful step of a conversation keeps the invariant. -/
theorem Synced.step [LawfulCrypto] (h : Synced e s key n m l) (hcrossed : Crossed s key) {op : Op}
    (htalks : Talks e l op) (hcareful : Careful e l op) :
    ∃ n' m', Synced e s key n' m' (l.step e op) := by
  cases htalks with
  | private_message x henv content nickname message_id =>
    obtain ⟨n', hdoes⟩ := does_private_message (h.settled x) henv (hcrossed x).1 content nickname
      message_id hcareful
    rw [← exec_discard] at hdoes
    exact ⟨_, m, h.act x hdoes⟩
  | public_message x henv content channel =>
    have hsends : Does (e.id x) (e.id x.other) (e.conn x) (s x) (key x) (n x) (n x)
        (m x) (l.world x) (exec (send_public_message _ content channel) (l.world x)).2 :=
      does_public_message (h.settled x) henv content channel
    rw [← exec_discard] at hsends
    exact ⟨_, m, h.act x hsends⟩
  | relay x henv hdue =>
    exact ⟨_, m, h.act x (does_relay_now (h.settled x) henv (h.echo x hdue))⟩
  | handle x henv =>
    have hchain := h.chain x.other
    rw [Side.other_other] at hchain
    simp only [Link.step]
    rcases hwire : l.wire x.other with _ | ⟨f, rest⟩
    · exact ⟨n, m, h⟩
    · rw [hwire] at hchain
      cases hchain with
      | cons hcarries hrest =>
        obtain ⟨n', hdoes⟩ := hcarries.does_handle (h.settled x) (e.id_ne x).symm (e.read x.other)
          (e.read x) henv (hcrossed x).1 (hcrossed x).2 (hcareful f rest · hwire)
        exact ⟨_, _, h.advance x hdoes hrest⟩

/-- The invariant, with the counters left open. -/
def Conversing (e : Ends) (s : Side → NoiseSession) (key : Side → Bytes) (l : Link) : Prop :=
  ∃ n m, Synced e s key n m l

/-- A side is settled with a new session. -/
theorem settled_fresh {me peer : PeerId} {conn : PeerConnection} {s : NoiseSession}
    {node : MeshNode} (h : Joined me peer conn node)
    (hsession : node.encryption_service.sessions.get? peer.str = some (counted s 0 0))
    (hunblocked : is_blocked node peer.str = false) : Settled me peer conn s 0 0 node := by
  have hfingerprint : node.encryption_service.get_peer_fingerprint peer.str =
      some s.get_fingerprint := by
    unfold EncryptionService.get_peer_fingerprint
    rw [hsession]
    rfl
  unfold is_blocked at hunblocked
  rw [hfingerprint] at hunblocked
  exact ⟨h, hsession, of_decide_eq_false hunblocked⟩

/-- A handshake leaves crossed keys and counters at zero. -/
theorem crossed_of_handshake [LawfulCrypto] (id : Side → PeerId)
    (session : Side → Option NoiseSession) (x : Side)
    {static_i static_r ephemeral_i ephemeral_r unused : Crypto.PrivateKey} {read : List Bytes}
    {i r : NoiseHandshakeState} {now : Side → UInt64}
    (hrun : xx_run static_i static_r ephemeral_i ephemeral_r unused [] [] [] = .ok (read, i, r))
    (hi : session x = EncryptionService.session_of (id x.other).str (now x) i)
    (hr : session x.other = EncryptionService.session_of (id x).str (now x.other) r) :
    ∃ s key, Crossed s key ∧ ∀ y, session y = some (counted (s y) 0 0) := by
  obtain ⟨i', r', hrun', hstage⟩ := xx_run_stage static_i static_r ephemeral_i ephemeral_r unused
    [] [] []
  have hends := Except.ok.inj (hrun.symm.trans hrun')
  obtain ⟨rfl, rfl⟩ := Prod.mk.inj (Prod.mk.inj hends).2
  obtain ⟨k1, k2, hsessions⟩ := hstage.sessions
  rw [(hsessions _ _).1] at hi
  rw [(hsessions _ _).2] at hr
  refine ⟨fun y => if y = x then ⟨(id x.other).str, .initialize_key k1, .initialize_key k2,
      Crypto.public_key static_r, now x⟩ else ⟨(id x).str, .initialize_key k2,
      .initialize_key k1, Crypto.public_key static_i, now x.other⟩,
    fun y => if y = x then k1 else k2, fun y => ?_, fun y => ?_⟩
  · rcases Side.eq_or_other_eq x y with rfl | rfl
    · simp only [if_true, if_neg x.other_ne]
      exact ⟨rfl, rfl⟩
    · simp only [if_neg x.other_ne, Side.other_other, if_true]
      exact ⟨rfl, rfl⟩
  · rcases Side.eq_or_other_eq x y with rfl | rfl
    · simp only [if_true]
      exact hi
    · simp only [if_neg x.other_ne]
      exact hr

theorem Fresh.conversing [LawfulCrypto] (h : Fresh e l) :
    ∃ s key, Crossed s key ∧ Conversing e s key l := by
  obtain ⟨x, static_i, static_r, ephemeral_i, ephemeral_r, unused, read, i, r, now, hrun, hi, hr⟩ :=
    h.paired
  obtain ⟨s, key, hcrossed, hsession⟩ := crossed_of_handshake e.id
    (fun y => (l.world y).node.encryption_service.sessions.get? (e.id y.other).str) x hrun hi
    (by rw [Side.other_other]; exact hr)
  refine ⟨s, key, hcrossed, fun _ => 0, fun _ => 0, fun y => ?_, fun y => ?_, fun y => ?_⟩
  · exact settled_fresh (h.joined y) (hsession y) (h.unblocked y)
  · rw [(h.silent y).1]
    exact .nil 0
  · rw [(h.silent y).2]
    exact fun raw hraw => absurd hraw List.not_mem_nil

/-- Where the invariant holds, the next packet is in step. -/
theorem Synced.inStep [LawfulCrypto] (h : Synced e s key n m l) (hcrossed : Crossed s key)
    (x : Side) : InStep e l x := by
  intro f rest packet hwire hparse htype
  have hchain := h.chain x.other
  rw [Side.other_other, hwire] at hchain
  have hsettled := h.settled x
  cases hchain with
  | cons hcarries _ =>
    cases hcarries with
    | @sealed raw plain hm hraw hplain =>
      rw [hraw.parse_raw, Except.ok.injEq] at hparse
      subst hparse
      refine ⟨?_, plain, ?_⟩
      · unfold receive_nonce
        rw [hsettled.session]
        rfl
      · have hopen := exec_decrypt hsettled.session (hcrossed x).2 hm
        rw [← e.read x.other] at hopen
        exact congrArg Prod.fst (hopen plain)
    | ack hm hraw nonce =>
      rw [parse_with_ttl hraw, Except.ok.injEq] at hparse
      subst hparse
      cases htype
    | late_ack hm hraw nonce =>
      rw [parse_with_ttl hraw, Except.ok.injEq] at hparse
      subst hparse
      cases htype
    | message hraw nonce =>
      rw [hraw.parse_raw, Except.ok.injEq] at hparse
      subst hparse
      cases htype
    | echo hraw ttl nonce =>
      rw [parse_with_ttl hraw, Except.ok.injEq] at hparse
      subst hparse
      cases htype

end

/-- In every careful run of two nodes after a handshake, every sealed packet is
opened under the nonce that it was sealed under. -/
theorem sealed_packets_meet_their_nonce [LawfulCrypto] (e : Ends) (start l : Link)
    (hstart : Fresh e start)
    (hrun : Link.Reached e (fun l op => Talks e l op ∧ Careful e l op) start l) (x : Side) :
    InStep e l x := by
  obtain ⟨s, key, hcrossed, hconversing⟩ := hstart.conversing
  have h : Conversing e s key l := hrun.invariant hconversing fun l op hop h => by
    obtain ⟨n, m, hsynced⟩ := h
    exact hsynced.step hcrossed hop.1 hop.2
  obtain ⟨n, m, hsynced⟩ := h
  exact hsynced.inStep hcrossed x

end daemon

/-! ## On the stand-in -/

namespace daemon.standIn

open python bitchat bitchat.protocol bitchat.encryption

attribute [local instance] bitchat.standIn.packages

def ends : Ends where
  id
    | .A => us
    | .B => them
  conn
    | .A => conn
    | .B => ⟨['a'], 2, true⟩
  distinct := by decide
  nonzero x := by cases x <;> decide

def secret : Side → UInt8
  | .A => 1
  | .B => 2

/-- The two ends of a handshake. -/
def handshake : NoiseHandshakeState × NoiseHandshakeState :=
  match xx_run (bitchat.standIn.key 1) (bitchat.standIn.key 2) (bitchat.standIn.key 3)
    (bitchat.standIn.key 4) (bitchat.standIn.key 5) [] [] [] with
  | .ok (_, i, r) => (i, r)
  | .error _ => (.init .INITIATOR (bitchat.standIn.key 1), .init .RESPONDER (bitchat.standIn.key 2))

/-- The session that it leaves at each side. -/
def session (x : Side) : Option NoiseSession :=
  EncryptionService.session_of (ends.id x.other).str 0
    (match x with
    | .A => handshake.1
    | .B => handshake.2)

/-- The two nodes right after the handshake. -/
def paired : Link where
  world x := {
    node := { node (ends.id x) (secret x) with
      encryption_service :=
        { EncryptionService.init (bitchat.standIn.key (secret x)) with
          sessions := match session x with
            | some s => .set .empty (ends.id x.other).str s
            | none => .empty }
      peer_addresses := .set .empty (ends.id x.other).str (ends.conn x).address
      connections := .set .empty (ends.conn x).address (ends.conn x) }
    out := [] }
  wire _ := []

theorem not_is_blocked_of_empty {self : MeshNode} (h : self.blocked_peers = ∅) (peer_id : Str) :
    is_blocked self peer_id = false := by
  unfold is_blocked
  rw [h]
  split
  · simp
  · rfl

theorem my_peer_id_paired (x : Side) : (paired.world x).node.my_peer_id = ends.id x := by
  cases x <;> rfl

theorem get?_paired (x : Side) :
    (paired.world x).node.encryption_service.sessions.get? (ends.id x.other).str = session x := by
  show (match session x with
    | some s => Dict.set .empty (ends.id x.other).str s
    | none => .empty).get? _ = session x
  rcases session x with _ | s
  · rfl
  · exact Dict.get?_set_self _ _ _

theorem fresh_paired : Fresh ends paired where
  paired := by
    have := bitchat.standIn.lawfulCrypto
    obtain ⟨i, r, hrun, -⟩ := xx_run_stage (bitchat.standIn.key 1) (bitchat.standIn.key 2)
      (bitchat.standIn.key 3) (bitchat.standIn.key 4) (bitchat.standIn.key 5) [] [] []
    have hends : handshake = (i, r) := by
      unfold handshake
      rw [hrun]
    refine ⟨.A, _, _, _, _, _, _, i, r, fun _ => 0, hrun, ?_, ?_⟩
    · rw [get?_paired, session, hends]
    · have hother : Side.A.other = Side.B := rfl
      have hget := get?_paired .B
      rw [session, hends] at hget
      rw [hother]
      exact hget
  joined x := by
    refine ⟨my_peer_id_paired x, Dict.entries_set_empty _ _, ?_⟩
    exact Dict.get?_set_self _ _ _
  unblocked x := not_is_blocked_of_empty rfl _
  silent x := ⟨rfl, rfl⟩

theorem lossless_env (k : Fin 16) : Lossless (env k) := fun _ => rfl

/-- A handler has no channel message to acknowledge where none is next. -/
theorem careful_handle {l : Link} {x : Side} (k : Fin 16)
    (hnext : (l.wire x.other).all (fun f =>
      (parse_bitchat_packet f.raw).toOption.all fun packet => packet.msg_type ≠ .MESSAGE) = true)
    (hnickname : (l.world x).node.nickname.length ≤ 1000) : Careful ends l (.handle x (env k)) := by
  intro f rest packet hwire hparse _
  refine ⟨fun htype => ?_, fun _ => ackAffordable_of_nickname hnickname _⟩
  rw [hwire, List.all_cons, hparse] at hnext
  simp [Except.toOption, htype] at hnext

/-- A sends a private message and gets the ACK, and B answers. -/
def asked : Link := paired.step ends (.act .A (env 1)
    (.private_message ['h', 'i'] them.str [] none))

def opened : Link := asked.step ends (.handle .B (env 2))

def acknowledged : Link := opened.step ends (.handle .A (env 3))

def answered : Link :=
  acknowledged.step ends (.act .B (env 4) (.private_message ['y', 'o'] us.str [] none))

/-- No message for everyone is next where one is handled, and what is sent fits. -/
theorem careful_answered : (opened.wire (Side.other .A)).all (fun f =>
      (parse_bitchat_packet f.raw).toOption.all fun packet => packet.msg_type ≠ .MESSAGE) = true ∧
    (opened.world .A).node.nickname.length ≤ 1000 ∧
    (asked.wire (Side.other .B)).all (fun f =>
      (parse_bitchat_packet f.raw).toOption.all fun packet => packet.msg_type ≠ .MESSAGE) = true ∧
    (asked.world .B).node.nickname.length ≤ 1000 ∧
    66 + (encode (acknowledged.world .B).node.nickname).length + (encode ['y', 'o']).length ≤
      65459 := by
  decide +kernel

theorem reached_answered :
    Link.Reached ends (fun l op => Talks ends l op ∧ Careful ends l op) paired answered := by
  obtain ⟨hack, hA, hmessage, hB, hanswer⟩ := careful_answered
  have hasked : Link.Reached ends (fun l op => Talks ends l op ∧ Careful ends l op)
      paired asked := by
    refine .step .start _ ⟨.private_message .A (lossless_env 1) _ _ _, ?_⟩
    show Affordable (paired.world .A).node ['h', 'i']
    exact fun _ _ => by decide +kernel
  have hopened : Link.Reached ends (fun l op => Talks ends l op ∧ Careful ends l op) paired
      opened :=
    .step hasked _ ⟨.handle .B (lossless_env 2), careful_handle 2 hmessage hB⟩
  have hacknowledged : Link.Reached ends (fun l op => Talks ends l op ∧ Careful ends l op) paired
      acknowledged :=
    .step hopened _ ⟨.handle .A (lossless_env 3), careful_handle 3 hack hA⟩
  refine .step hacknowledged _ ⟨.private_message .B (lossless_env 4) _ _ _, ?_⟩
  show Affordable (acknowledged.world .B).node ['y', 'o']
  exact fun _ _ => hanswer

/-- A writes to a channel, B acknowledges it in plain text, and A opens the ACK
as if it were sealed. Then B sends a private message. -/
def drifted : Link :=
  (((paired.step ends (.act .A (env 1) (.public_message ['h', 'i'] (some ['#', 'c'])))).step ends
    (.handle .B (env 2))).step ends (.handle .A (env 3))).step ends
      (.act .B (env 4) (.private_message ['y', 'o'] us.str [] none))

theorem reached_drifted : Link.Reached ends (Talks ends) paired drifted := by
  refine .step (.step (.step (.step .start _ ?_) _ ?_) _ ?_) _ ?_
  · exact .public_message .A (lossless_env 1) _ _
  · exact .handle .B (lossless_env 2)
  · exact .handle .A (lossless_env 3)
  · exact .private_message .B (lossless_env 4) _ _ _

/-- The private message is sealed under 0, and A expects 1. -/
theorem not_inStep_drifted : ¬ InStep ends drifted .A := by
  have hends : ((drifted.wire .B).map fun f =>
        (f.nonce, (parse_bitchat_packet f.raw).toOption.map BitchatPacket.msg_type)) =
          [(0, some .NOISE_ENCRYPTED)] ∧
      receive_nonce (drifted.world .A).node them.str = some 1 := by
    decide +kernel
  obtain ⟨hwire, hnonce⟩ := hends
  intro h
  rcases hframes : drifted.wire .B with _ | ⟨f, rest⟩
  · rw [hframes] at hwire
    cases hwire
  · rw [hframes, List.map_cons, List.cons.injEq, Prod.mk.injEq] at hwire
    obtain ⟨⟨hzero, htype⟩, -⟩ := hwire
    rcases hparse : parse_bitchat_packet f.raw with e | packet
    · rw [hparse] at htype
      cases htype
    · rw [hparse] at htype
      obtain ⟨hmet, -⟩ := h f rest packet hframes hparse (Option.some.inj htype)
      rw [hzero] at hmet
      exact absurd (hnonce.symm.trans hmet) (by decide)

end daemon.standIn

namespace daemon

open python bitchat bitchat.protocol bitchat.encryption

attribute [local instance] bitchat.standIn.packages

theorem a_conversation_meets_its_nonces : InStep standIn.ends standIn.answered .A :=
  haveI := bitchat.standIn.lawfulCrypto
  sealed_packets_meet_their_nonce standIn.ends standIn.paired standIn.answered standIn.fresh_paired
    standIn.reached_answered .A

/-- After a channel message that is acknowledged in plain text, a private
message is sealed under a nonce that its reader is past. -/
theorem an_ack_in_plain_text_puts_a_session_out_of_step :
    Fresh standIn.ends standIn.paired ∧
      Link.Reached standIn.ends (Talks standIn.ends) standIn.paired standIn.drifted ∧
      ¬ InStep standIn.ends standIn.drifted .A :=
  ⟨standIn.fresh_paired, standIn.reached_drifted, standIn.not_inStep_drifted⟩

end daemon
