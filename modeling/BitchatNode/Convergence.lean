-- Two nodes on a link come to a session with each other. As long as no
-- handshake is started while another is under way, the handshake goes through
-- its three messages, whatever is announced, sent and handled in between.
import BitchatNode.Handshaking
import BitchatNode.InStep

namespace daemon

open python bitchat bitchat.protocol bitchat.encryption

variable [Packages]

/-! ## Runs of two nodes that meet -/

/-- What the two nodes do: they announce themselves, send private messages to
each other, send those that had to wait, and handle what arrives. -/
inductive Meets (e : Ends) (l : Link) : Op → Prop
  | announce (x : Side) {env : Env} (henv : Lossless env) :
      Meets e l (.act x env .identity_announce)
  | private_message (x : Side) {env : Env} (henv : Lossless env) (content nickname : Str)
      (message_id : Option Str) :
    Meets e l (.act x env (.private_message content (e.id x.other).str nickname message_id))
  | waiting (x : Side) {env : Env} (henv : Lossless env) {task : Later}
      (hdue : .later task ∈ (l.world x).out) (hpeer : concerns (e.id x.other).str task = true) :
    Meets e l (.act x env (.later task))
  | handle (x : Side) {env : Env} (henv : Lossless env) : Meets e l (.handle x env)

/-- The step starts a handshake: a private message or an announcement finds no
session. -/
def StartsHandshake (e : Ends) (l : Link) : Op → Prop
  | .act x env (.private_message _ peer_id _ _) =>
    Attempts peer_id (env.draw 1).time_us (l.world x).node
  | .act x env (.later (.send_each peer_id (_ :: _))) =>
    Attempts peer_id (env.draw 1).time_us (l.world x).node
  | .act _ _ _ => False
  | .handle x _ => ∃ f rest, l.wire x.other = f :: rest ∧
    CallsFor (e.id x) (e.id x.other) f.raw (l.world x).node

/-- Neither node is in the middle of a handshake with the other. -/
def Idle (e : Ends) (l : Link) : Prop :=
  ∀ x, (l.world x).node.encryption_service.handshake_states.get? (e.id x.other).str = none

/-- A handshake is started only where none is under way. -/
def OneAtATime (e : Ends) (l : Link) (op : Op) : Prop := StartsHandshake e l op → Idle e l

/-- Two nodes that know each other's address and nothing more. -/
structure Strangers (e : Ends) (l : Link) : Prop where
  joined : ∀ x, Joined (e.id x) (e.id x.other) (e.conn x) (l.world x).node
  unpaired : ∀ x, ¬ has_session (e.id x.other).str (l.world x).node
  idle : Idle e l
  silent : ∀ x, l.wire x = []

/-- The oldest packet for the side is an identity announcement of the other. -/
def AnnouncementNext (e : Ends) (l : Link) (x : Side) : Prop :=
  ∃ f rest packet nickname, l.wire x.other = f :: rest ∧ parse_bitchat_packet f.raw = .ok packet ∧
    packet.msg_type = .NOISE_IDENTITY_ANNOUNCE ∧
    announcement_of packet = some ((e.id x.other).str, nickname)

/-- Both nodes have a session with the other, under crossed keys, and neither
is in the middle of a handshake. -/
def Converged (e : Ends) (l : Link) : Prop :=
  Idle e l ∧ ∃ key : Side → Bytes, ∀ x, ∃ session,
    (l.world x).node.encryption_service.sessions.get? (e.id x.other).str = some session ∧
    session.send_cipher.key = some (key x) ∧ session.receive_cipher.key = some (key x.other)

def Op.side : Op → Side
  | .act x _ _ => x
  | .handle x _ => x

/-! ## Where the handshake is -/

section

variable {e : Ends} {s : Side → Standing} {sent : Side → Option Bytes} {l : Link}

/-- How far each side is with the other, and which handshake message is on its
way from it. -/
structure Stands (e : Ends) (s : Side → Standing) (sent : Side → Option Bytes) (l : Link) :
    Prop where
  joined : ∀ x, Joined (e.id x) (e.id x.other) (e.conn x) (l.world x).node
  standing : ∀ x, standing (e.id x.other).str (l.world x).node.encryption_service = s x
  wire : ∀ x, Carrying (e.id x) (e.id x.other) (sent x) ((l.wire x).map Frame.raw)

/-- No handshake has begun. -/
structure Apart (static : Side → Crypto.PrivateKey) (s : Side → Standing)
    (sent : Side → Option Bytes) : Prop where
  standing : ∀ x, s x = ⟨none, none, static x⟩
  silent : ∀ x, sent x = none

/-- One handshake has begun, and no other since. The side `x` is the one to
read the next message, and `y` wrote it. -/
inductive Begun (static : Side → Crypto.PrivateKey) (s : Side → Standing)
    (sent : Side → Option Bytes) : Prop
  | first (x y : Side) (hxy : x.other = y) {message : Bytes} {i : NoiseHandshakeState}
      (hmessage : sent y = some message) (hsilent : sent x = none)
      (hi : s y = ⟨none, some i, static y⟩) (hr : s x = ⟨none, none, static x⟩)
      (hsent : FirstSent (static y) (static x) message i)
  | second (x y : Side) (hxy : x.other = y) {message : Bytes} {i r : NoiseHandshakeState}
      (hmessage : sent y = some message) (hsilent : sent x = none)
      (hr : s y = ⟨none, some r, static y⟩) (hi : s x = ⟨none, some i, static x⟩)
      (hsent : SecondSent (static x) (static y) message i r)
  | third (x y : Side) (hxy : x.other = y) {message : Bytes} {r : NoiseHandshakeState}
      {k1 k2 : Bytes} (hmessage : sent y = some message) (hsilent : sent x = none)
      (hi : s y = ⟨some (some k1, some k2), none, static y⟩) (hr : s x = ⟨none, some r, static x⟩)
      (hsent : ThirdSent (static y) (static x) message r (some k1, some k2))
  | done (x y : Side) (hxy : x.other = y) {k1 k2 : Bytes} (hsilent : ∀ z, sent z = none)
      (hi : s y = ⟨some (some k1, some k2), none, static y⟩)
      (hr : s x = ⟨some (some k2, some k1), none, static x⟩)

/-- A side without a session is waited for, or waits itself. -/
theorem Begun.busy {static : Side → Crypto.PrivateKey} (h : Begun static s sent) (z : Side)
    (hnone : (s z).keys = none) : ∃ x, (s x).half_open ≠ none := by
  cases h with
  | first x y _ _ _ hi _ _ => exact ⟨y, by simp [hi]⟩
  | second x y _ _ _ _ hi _ => exact ⟨x, by simp [hi]⟩
  | third x y _ _ _ _ hr _ => exact ⟨x, by simp [hr]⟩
  | done x y hxy _ hi hr =>
    subst hxy
    rcases Side.eq_or_other_eq x z with rfl | rfl
    · simp [hr] at hnone
    · simp [hi] at hnone

/-- Once nothing is under way, the handshake is complete. -/
theorem Begun.done_of_silent {static : Side → Crypto.PrivateKey} (h : Begun static s sent)
    (hsilent : ∀ z, sent z = none) : ∃ x k1 k2,
      s x.other = ⟨some (some k1, some k2), none, static x.other⟩ ∧
      s x = ⟨some (some k2, some k1), none, static x⟩ := by
  cases h with
  | first x y _ hmessage _ _ _ _ => simp [hsilent] at hmessage
  | second x y _ hmessage _ _ _ _ => simp [hsilent] at hmessage
  | third x y _ hmessage _ _ _ _ => simp [hsilent] at hmessage
  | done x y hxy _ hi hr =>
    subst hxy
    exact ⟨x, _, _, hi, hr⟩

theorem Carrying.of_nil {me peer : PeerId} {message : Option Bytes}
    (h : Carrying me peer message []) :
    message = none := by
  cases h
  rfl

theorem Advances.written {me peer : PeerId} {conn : PeerConnection} {after : Standing}
    {message : Option Bytes} {w w' : World} (h : Advances me peer conn after message w w')
    (peer_id : Str) : Carrying me peer message ((written peer_id w w').map Frame.raw) := by
  obtain ⟨-, -, packets, hpackets, hwrites⟩ := h
  have hwritten : (daemon.written peer_id w w').map Frame.raw = packets := by
    unfold daemon.written
    rw [new_writes_eq hwrites, List.map_map, List.map_map]
    exact List.map_id packets
  rw [hwritten]
  exact hpackets

/-- One side moves on, and the packets that were read leave the other wire. -/
theorem Stands.advance (h : Stands e s sent l) (x : Side) {w' : World} {after : Standing}
    {message left : Option Bytes} {rest : List Frame}
    (hadvances : Advances (e.id x) (e.id x.other) (e.conn x) after message (l.world x) w')
    (hone : sent x = none ∨ message = none)
    (hrest : Carrying (e.id x.other) (e.id x) left (rest.map Frame.raw)) :
    Stands e (Function.update s x after)
      (Function.update (Function.update sent x.other left) x ((sent x).or message))
      (Link.advance e { l with wire := Function.update l.wire x.other rest } x w') := by
  have hne : x.other ≠ x := x.other_ne
  refine ⟨Side.both x ?_ ?_, Side.both x ?_ ?_, Side.both x ?_ ?_⟩
  · simp only [Link.advance, Function.update_self]
    exact hadvances.joined
  · simp only [Link.advance, Function.update_of_ne hne]
    exact h.joined x.other
  · simp only [Link.advance, Function.update_self]
    exact hadvances.standing
  · simp only [Link.advance, Function.update_of_ne hne]
    exact h.standing x.other
  · simp only [Link.advance, Function.update_self, Function.update_of_ne hne.symm, List.map_append]
    exact (h.wire x).append (hadvances.written _) hone
  · simp only [Link.advance, Function.update_self, Function.update_of_ne hne, Side.other_other]
    exact hrest

/-- A side that does something by itself takes nothing off the wires. -/
theorem Stands.act (h : Stands e s sent l) (x : Side) {env : Env} {event : Event} {after : Standing}
    {message : Option Bytes}
    (hadvances : Advances (e.id x) (e.id x.other) (e.conn x) after message (l.world x)
      (exec (react env event) (l.world x)).2)
    (hone : sent x = none ∨ message = none) :
    Stands e (Function.update s x after) (Function.update sent x ((sent x).or message))
      (l.step e (.act x env event)) := by
  have hother := h.wire x.other
  rw [Side.other_other] at hother
  have hadvance := h.advance x hadvances hone hother
  rw [Function.update_eq_self, Function.update_eq_self] at hadvance
  exact hadvance

theorem Stands.converged {static : Side → Crypto.PrivateKey} (h : Stands e s sent l)
    (hbegun : Begun static s sent) (hquiet : ∀ x, l.wire x = []) : Converged e l := by
  have hsilent (x : Side) : sent x = none := by
    have hwire := h.wire x
    rw [hquiet x] at hwire
    exact hwire.of_nil
  obtain ⟨x, k1, k2, hi, hr⟩ := hbegun.done_of_silent hsilent
  have hx := (h.standing x).trans hr
  have hother := (h.standing x.other).trans hi
  unfold bitchat.encryption.standing at hx hother
  obtain ⟨hkeys, hidle, -⟩ := Standing.mk.inj hx
  obtain ⟨hkeys', hidle', -⟩ := Standing.mk.inj hother
  obtain ⟨session, hsession, hpair⟩ := Option.map_eq_some_iff.mp hkeys
  obtain ⟨session', hsession', hpair'⟩ := Option.map_eq_some_iff.mp hkeys'
  obtain ⟨hsend, hreceive⟩ := Prod.mk.inj hpair
  obtain ⟨hsend', hreceive'⟩ := Prod.mk.inj hpair'
  refine ⟨Side.both x hidle hidle', fun y => if y = x then k2 else k1, Side.both x ?_ ?_⟩
  · simp only [if_true, if_neg x.other_ne]
    exact ⟨session, hsession, hsend, hreceive⟩
  · simp only [if_neg x.other_ne, Side.other_other, if_true]
    rw [Side.other_other] at hsession'
    exact ⟨session', hsession', hsend', hreceive'⟩

/-! ## One step -/

section

variable [LawfulCrypto] {static : Side → Crypto.PrivateKey}

omit [LawfulCrypto] in
/-- What the service makes of a handshake message is what the side does. -/
theorem Stands.reads (h : Stands e s sent l) (x : Side) {env : Env} (henv : Lossless env)
    {message raw : Bytes} {rest : List Frame} (hsilent : sent x = none)
    (hraw : IsHandshake (e.id x.other) (e.id x) message raw)
    (hrest : Carrying (e.id x.other) (e.id x) none (rest.map Frame.raw))
    {response : Option Bytes} {authenticated : Option (Str × Str)} {svc' : EncryptionService}
    (hprocess : exec (EncryptionService.process_handshake_message (e.id x.other).str message
      (env.draw 0).generate (env.draw 0).time_us) (l.world x).node.encryption_service =
        (.ok (response, authenticated), svc'))
    (hlength : ∀ m ∈ response, 32 ≤ m.length ∧ m.length ≤ 96) :
    ∃ s' sent', Stands e s' sent' (Link.advance e
        { l with wire := Function.update l.wire x.other rest } x
        (exec (on_packet_received env (e.conn x) raw) (l.world x)).2) ∧
      s' x = bitchat.encryption.standing (e.id x.other).str svc' ∧ s' x.other = s x.other ∧
        sent' x = response ∧
      sent' x.other = none := by
  have hadvances := advances_receives_handshake (e.read x) (e.read x.other) (e.str_ne x)
    (h.joined x) henv hraw hprocess hlength
  refine ⟨_, _, h.advance x hadvances (.inl hsilent) hrest, ?_, ?_, ?_, ?_⟩
  · rw [Function.update_self]
  · rw [Function.update_of_ne x.other_ne]
  · rw [Function.update_self, hsilent, Option.none_or]
  · rw [Function.update_of_ne x.other_ne, Function.update_self]

/-- A handshake message is read: the handshake goes on. -/
theorem Stands.takes (h : Stands e s sent l) (hbegun : Begun static s sent) (x : Side) {env : Env}
    (henv : Lossless env) {message raw : Bytes} {rest : List Frame}
      (hmessage : sent x.other = some message)
    (hraw : IsHandshake (e.id x.other) (e.id x) message raw)
    (hrest : Carrying (e.id x.other) (e.id x) none (rest.map Frame.raw)) :
    ∃ s' sent', Stands e s' sent' (Link.advance e
        { l with wire := Function.update l.wire x.other rest } x
        (exec (on_packet_received env (e.conn x) raw) (l.world x)).2) ∧ Begun static s' sent' := by
  have hstanding := h.standing x
  have hreader (z : Side) (hsilent : sent z = none) : z = x := by
    rcases Side.eq_or_other_eq x z with rfl | rfl
    · rfl
    · rw [hsilent] at hmessage
      cases hmessage
  cases hbegun with
  | first z y hxy hmessage' hsilent hi hr hsent =>
    obtain rfl := hreader z hsilent
    subst hxy
    obtain rfl := Option.some.inj (hmessage'.symm.trans hmessage)
    rw [hr] at hstanding
    have hidentity : (l.world z).node.encryption_service.static_identity_key = static z :=
      congrArg Standing.identity hstanding
    rw [← hidentity] at hsent
    obtain ⟨answer, r, svc', hprocess, hafter, hlong, hshort, hnext⟩ :=
      EncryptionService.process_first hsent (congrArg Standing.half_open hstanding)
        (env.draw 0).generate
        (env.draw 0).time_us
    rw [hstanding] at hafter
    rw [hidentity] at hnext
    obtain ⟨s', sent', hstands, hself, hother, hanswer, hread⟩ := h.reads z henv hsilent hraw hrest
      hprocess (by simp [hlong, hshort])
    exact ⟨s', sent', hstands, .second z.other z z.other_other hanswer hread (hself.trans hafter)
      (hother.trans hi) hnext⟩
  | second z y hxy hmessage' hsilent hr hi hsent =>
    obtain rfl := hreader z hsilent
    subst hxy
    obtain rfl := Option.some.inj (hmessage'.symm.trans hmessage)
    rw [hi] at hstanding
    have hidentity : (l.world z).node.encryption_service.static_identity_key = static z :=
      congrArg Standing.identity hstanding
    rw [← hidentity] at hsent
    obtain ⟨answer, k1, k2, authenticated, svc', hprocess, hafter, hlong, hshort, hnext⟩ :=
      EncryptionService.process_second hsent (congrArg Standing.half_open hstanding)
        (env.draw 0).generate (env.draw 0).time_us
    rw [hstanding] at hafter
    rw [hidentity] at hnext
    obtain ⟨s', sent', hstands, hself, hother, hanswer, hread⟩ := h.reads z henv hsilent hraw hrest
      hprocess (by simp [hlong, hshort])
    exact ⟨s', sent', hstands, .third z.other z z.other_other hanswer hread (hself.trans hafter)
      (hother.trans hr) hnext⟩
  | third z y hxy hmessage' hsilent hi hr hsent =>
    obtain rfl := hreader z hsilent
    subst hxy
    obtain rfl := Option.some.inj (hmessage'.symm.trans hmessage)
    rw [hr] at hstanding
    have hidentity : (l.world z).node.encryption_service.static_identity_key = static z :=
      congrArg Standing.identity hstanding
    rw [← hidentity] at hsent
    obtain ⟨authenticated, svc', hprocess, hafter⟩ := EncryptionService.process_third hsent
      (congrArg Standing.half_open hstanding) (env.draw 0).generate (env.draw 0).time_us
    rw [hstanding] at hafter
    obtain ⟨s', sent', hstands, hself, hother, hanswer, hread⟩ := h.reads z henv hsilent hraw hrest
      hprocess (by simp)
    exact ⟨s', sent', hstands, .done z z.other rfl (Side.both z hanswer hread) (hother.trans hi)
      (hself.trans hafter)⟩
  | done z y _ hsilent _ _ =>
    rw [hsilent] at hmessage
    cases hmessage

omit [LawfulCrypto] in
/-- A step that reads no handshake message starts a handshake, or leaves
everything as it is. -/
theorem Stands.moves_on (h : Stands e s sent l) (x : Side) {w' : World} {rest : List Frame}
    {starts : Prop} (hstatic : (s x).identity = static x)
    (hturn : StartsIf (e.id x) (e.id x.other) (e.conn x) (static x.other) starts (l.world x) w')
    (hrest : Carrying (e.id x.other) (e.id x) (sent x.other) (rest.map Frame.raw)) :
    ¬ starts ∧ Stands e s sent
        (Link.advance e { l with wire := Function.update l.wire x.other rest } x w') ∨
      starts ∧ (Apart static s sent → ∃ s' sent', Stands e s' sent' (Link.advance e
        { l with wire := Function.update l.wire x.other rest } x w') ∧ Begun static s' sent') := by
  have hstanding := h.standing x
  cases hturn with
  | untouched hnot hadvances =>
    refine .inl ⟨hnot, ?_⟩
    rw [hstanding] at hadvances
    have hnext := h.advance x hadvances (.inr rfl) hrest
    rw [Option.or_none, Function.update_eq_self, Function.update_eq_self, Function.update_eq_self]
      at hnext
    exact hnext
  | @started message i hstarts hadvances hsent =>
    refine .inr ⟨hstarts, fun hapart => ?_⟩
    have hidentity : (l.world x).node.encryption_service.static_identity_key = static x :=
      (congrArg Standing.identity hstanding).trans hstatic
    rw [hidentity] at hadvances hsent
    have hnext := h.advance x hadvances (.inl (hapart.silent x)) hrest
    refine ⟨_, _, hnext, .first x.other x x.other_other ?_ ?_ ?_ ?_ hsent⟩
    · rw [Function.update_self, hapart.silent, Option.none_or]
    · rw [Function.update_of_ne x.other_ne, Function.update_self, hapart.silent]
    · rw [Function.update_self]
    · rw [Function.update_of_ne x.other_ne, hapart.standing]

/-- What a side does by itself. -/
theorem Stands.startsIf_act (h : Stands e s sent l) {x : Side} {env : Env} {event : Event}
    (hmeets : Meets e l (.act x env event)) (static_r : Crypto.PrivateKey) :
    StartsIf (e.id x) (e.id x.other) (e.conn x) static_r (StartsHandshake e l (.act x env event))
      (l.world x) (exec (react env event) (l.world x)).2 := by
  have hjoined := h.joined x
  cases hmeets with
  | announce x henv =>
    exact .untouched id (untouched_send_identity_announce (e.read x) henv _ hjoined)
  | private_message x henv content nickname message_id =>
    have hsends : StartsIf _ _ _ static_r _ _ _ :=
      startsIf_send_private_message (e.read x) hjoined henv content nickname message_id
    rw [← exec_discard] at hsends
    exact hsends
  | @waiting _ _ henv task _ hpeer =>
    cases task with
    | relay raw ttl => cases hpeer
    | send_pending_private_messages peer_id =>
      exact .untouched id (untouched_send_pending peer_id _ hjoined)
    | send_each peer_id messages =>
      obtain rfl : peer_id = (e.id x.other).str := of_decide_eq_true hpeer
      cases messages with
      | nil => exact .untouched id (refl_of (Untouched _ _ _) _ hjoined)
      | cons message messages =>
        obtain ⟨content, nickname, msg_id⟩ := message
        exact startsIf_send_each (e.read x) hjoined henv content nickname msg_id messages

end

/-! ## Runs -/

section

variable {static : Side → Crypto.PrivateKey}

/-- A handshake is under way, or complete. -/
def Underway (e : Ends) (static : Side → Crypto.PrivateKey) (l : Link) : Prop :=
  ∃ s sent, Stands e s sent l ∧ Begun static s sent

/-- No handshake has begun. -/
def Waiting (e : Ends) (static : Side → Crypto.PrivateKey) (l : Link) : Prop :=
  ∃ s sent, Stands e s sent l ∧ Apart static s sent

theorem Begun.identity (h : Begun static s sent) (z : Side) : (s z).identity = static z := by
  have hboth {x y : Side} {k k' : Option (Option Bytes × Option Bytes)}
      {i r : Option NoiseHandshakeState} (hxy : x.other = y) (hx : s x = ⟨k, i, static x⟩)
      (hy : s y = ⟨k', r, static y⟩) : ∀ z, (s z).identity = static z := by
    subst hxy
    refine Side.both x ?_ ?_
    · rw [hx]
    · rw [hy]
  cases h with
  | first x y hxy _ _ hi hr _ => exact hboth hxy hr hi z
  | second x y hxy _ _ hr hi _ => exact hboth hxy hi hr z
  | third x y hxy _ _ hi hr _ => exact hboth hxy hr hi z
  | done x y hxy _ hi hr => exact hboth hxy hr hi z

/-- Who starts a handshake has no session. -/
theorem StartsHandshake.unpaired {op : Op} (hstarts : StartsHandshake e l op)
    (hmeets : Meets e l op) :
    ¬ has_session (e.id op.side.other).str (l.world op.side).node := by
  cases hmeets with
  | announce x => exact hstarts.elim
  | private_message x => exact hstarts.1
  | @waiting x env _ task _ hpeer =>
    cases task with
    | relay raw ttl => exact hstarts.elim
    | send_pending_private_messages peer_id => exact hstarts.elim
    | send_each peer_id messages =>
      obtain rfl : peer_id = (e.id x.other).str := of_decide_eq_true hpeer
      cases messages with
      | nil => exact hstarts.elim
      | cons message messages => exact hstarts.1
  | handle x =>
    obtain ⟨_, _, _, _, _, _, _, _, hleads⟩ := hstarts
    exact hleads.2

/-- While a handshake is under way none is started. -/
theorem Stands.no_start (h : Stands e s sent l) (hbegun : Begun static s sent) {op : Op}
    (hmeets : Meets e l op) (hone : OneAtATime e l op) : ¬ StartsHandshake e l op := by
  intro hstarts
  have hunpaired := hstarts.unpaired hmeets
  have hnone : (s op.side).keys = none := by
    rw [← h.standing op.side]
    rw [has_session_iff (e.id op.side.other).str (l.world op.side).node] at hunpaired
    exact not_not.mp hunpaired
  obtain ⟨x, hbusy⟩ := hbegun.busy op.side hnone
  apply hbusy
  rw [← h.standing x]
  exact hone hstarts x

/-- What one step does: nothing to the handshake, or it starts one, or it reads
a handshake message. -/
theorem Stands.step_cases [LawfulCrypto] (h : Stands e s sent l)
    (hstatic : ∀ x, (s x).identity = static x) {op : Op} (hmeets : Meets e l op) :
    (¬ StartsHandshake e l op ∧ Stands e s sent (l.step e op)) ∨
      (StartsHandshake e l op ∧ (Apart static s sent → Underway e static (l.step e op))) ∨
      (¬ Apart static s sent ∧ (Begun static s sent → Underway e static (l.step e op))) := by
  cases op with
  | act x env event =>
    have hother := h.wire x.other
    rw [Side.other_other] at hother
    have hmoves := h.moves_on x (hstatic x) (h.startsIf_act hmeets (static x.other)) hother
    rw [Function.update_eq_self] at hmoves
    rcases hmoves with hsame | hstarts
    · exact .inl hsame
    · exact .inr (.inl hstarts)
  | handle x env =>
    have henv : Lossless env := by
      cases hmeets
      assumption
    have hwire := h.wire x.other
    rw [Side.other_other] at hwire
    rcases hframes : l.wire x.other with _ | ⟨f, rest⟩
    · refine .inl ⟨?_, ?_⟩
      · rintro ⟨f, rest, hcons, -⟩
        rw [hframes] at hcons
        cases hcons
      · simp only [Link.step, hframes]
        exact h
    · have hstarts_iff : StartsHandshake e l (.handle x env) ↔
          CallsFor (e.id x) (e.id x.other) f.raw (l.world x).node := by
        constructor
        · rintro ⟨f', rest', hcons, hcalls⟩
          rw [hframes] at hcons
          obtain ⟨rfl, rfl⟩ := List.cons.inj hcons
          exact hcalls
        · exact fun hcalls => ⟨f, rest, hframes, hcalls⟩
      simp only [Link.step, hframes, hstarts_iff]
      rw [hframes, List.map_cons] at hwire
      generalize hmessage : sent x.other = message at hwire
      cases hwire with
      | plain hplain hrest =>
        rw [← hmessage] at hrest
        have hturn : StartsIf _ _ _ (static x.other) _ _ _ :=
          startsIf_receives_plain (e.read x) (e.str_ne x) (h.joined x) henv hplain
        rcases h.moves_on x (hstatic x) hturn hrest with hsame | hstarts
        · exact .inl hsame
        · exact .inr (.inl hstarts)
      | handshake hraw hrest =>
        refine .inr (.inr ⟨fun hapart => ?_, fun hbegun => ?_⟩)
        · rw [hapart.silent] at hmessage
          cases hmessage
        · exact h.takes hbegun x henv hmessage hraw hrest

theorem Waiting.unpaired (h : Waiting e static l) (x : Side) :
    ¬ has_session (e.id x.other).str (l.world x).node := by
  obtain ⟨s, sent, hstands, hapart⟩ := h
  rw [has_session_iff, hstands.standing, hapart.standing]
  exact fun hnone => hnone rfl

theorem Strangers.waiting (h : Strangers e l) : ∃ static, Waiting e static l := by
  refine ⟨fun x => (l.world x).node.encryption_service.static_identity_key, _, fun _ => none,
    ⟨h.joined, fun _ => rfl, fun x => ?_⟩, fun x => ?_, fun _ => rfl⟩
  · rw [h.silent x]
    exact .nil
  · have hnone := h.unpaired x
    rw [has_session_iff, ne_eq, not_not] at hnone
    rw [Standing.ext_iff]
    exact ⟨hnone, h.idle x, rfl⟩

variable [LawfulCrypto] {op : Op}

/-- One step of one at a time, where a handshake is under way. -/
theorem Underway.step (h : Underway e static l) (hmeets : Meets e l op) (hone : OneAtATime e l op) :
    Underway e static (l.step e op) := by
  obtain ⟨s, sent, hstands, hbegun⟩ := h
  rcases hstands.step_cases hbegun.identity hmeets with ⟨-, hsame⟩ | ⟨hstarts, -⟩ | ⟨-, hnext⟩
  · exact ⟨s, sent, hsame, hbegun⟩
  · exact absurd hstarts (hstands.no_start hbegun hmeets hone)
  · exact hnext hbegun

/-- One step where none has begun. -/
theorem Waiting.step (h : Waiting e static l) (hmeets : Meets e l op) :
    (¬ StartsHandshake e l op ∧ Waiting e static (l.step e op)) ∨
      Underway e static (l.step e op) := by
  obtain ⟨s, sent, hstands, hapart⟩ := h
  have hidentity (x : Side) : (s x).identity = static x := by rw [hapart.standing]
  rcases hstands.step_cases hidentity hmeets with ⟨hnot, hsame⟩ | ⟨-, hnext⟩ | ⟨hnever, -⟩
  · exact .inl ⟨hnot, s, sent, hsame, hapart⟩
  · exact .inr (hnext hapart)
  · exact absurd hapart hnever

end

end

/-- Two strangers that start one handshake at a time: whenever nothing is on its
way after the node with the lower id has handled an announcement of the other,
both have their session. -/
theorem handshakes_converge [LawfulCrypto] (e : Ends) (start l l' : Link) (x : Side) (env : Env)
    (hstart : Strangers e start)
    (hbefore : Link.Reached e (fun l op => Meets e l op ∧ OneAtATime e l op) start l)
    (hlower : (e.id x).str < (e.id x.other).str) (hnext : AnnouncementNext e l x)
    (henv : Lossless env) (hone : OneAtATime e l (.handle x env))
    (hafter : Link.Reached e (fun l op => Meets e l op ∧ OneAtATime e l op)
      (l.step e (.handle x env)) l')
    (hquiet : ∀ y, l'.wire y = []) : Converged e l' := by
  obtain ⟨static, hwaiting⟩ := hstart.waiting
  have hreached : Waiting e static l ∨ Underway e static l := by
    refine hbefore.invariant (I := fun l => Waiting e static l ∨ Underway e static l)
      (.inl hwaiting) fun l op hop h => ?_
    rcases h with hwaits | hbegun
    · exact (hwaits.step hop.1).imp And.right id
    · exact .inr (hbegun.step hop.1 hop.2)
  have hmeets : Meets e l (.handle x env) := .handle x henv
  have hhandled : Underway e static (l.step e (.handle x env)) := by
    rcases hreached with hwaits | hbegun
    · refine (hwaits.step hmeets).resolve_left fun hnot => hnot.1 ?_
      obtain ⟨f, rest, packet, nickname, hwire, hparse, htype, hannounces⟩ := hnext
      exact ⟨f, rest, hwire, packet, nickname, hparse, htype, hannounces, hlower, hwaits.unpaired x⟩
    · exact hbegun.step hmeets hone
  obtain ⟨s, sent, hstands, hbegun⟩ : Underway e static l' :=
    hafter.invariant hhandled fun l op hop h => h.step hop.1 hop.2
  exact hstands.converged hbegun hquiet

end daemon

/-! ## On the stand-in -/

namespace daemon.standIn

open python bitchat bitchat.protocol bitchat.encryption

attribute [local instance] bitchat.standIn.packages

/-- The two nodes once they know each other's address. -/
def strangers : Link where
  world x := {
    node := { node (ends.id x) (secret x) with
      peer_addresses := .set .empty (ends.id x.other).str (ends.conn x).address
      connections := .set .empty (ends.conn x).address (ends.conn x) }
    out := [] }
  wire _ := []

theorem strangers_strangers : Strangers ends strangers where
  joined x := ⟨by cases x <;> rfl, Dict.entries_set_empty _ _, Dict.get?_set_self _ _ _⟩
  unpaired _ := Bool.false_ne_true
  idle _ := rfl
  silent _ := rfl

theorem announcementNext_of {l : Link} {x : Side}
    (h : ((l.wire x.other).head?.bind fun f =>
      (parse_bitchat_packet f.raw).toOption.bind fun packet =>
      if packet.msg_type = .NOISE_IDENTITY_ANNOUNCE then (announcement_of packet).map Prod.fst
      else none) = some (ends.id x.other).str) : AnnouncementNext ends l x := by
  rcases hwire : l.wire x.other with _ | ⟨f, rest⟩
  · rw [hwire] at h
    cases h
  · rcases hparse : parse_bitchat_packet f.raw with e | packet
    · simp [hwire, hparse, Except.toOption] at h
    · simp only [hwire, List.head?_cons, Option.bind_some, hparse, Except.toOption] at h
      split at h
      · rename_i htype
        obtain ⟨⟨peer_id, nickname⟩, hannounces, rfl⟩ := Option.map_eq_some_iff.mp h
        exact ⟨f, rest, packet, nickname, hwire, hparse, htype, hannounces⟩
      · cases h

/-- No handshake starts where no announcement is next. -/
theorem oneAtATime_handle {l : Link} {x : Side} {env : Env}
    (hnext : (l.wire x.other).all (fun f => (parse_bitchat_packet f.raw).toOption.all fun packet =>
      packet.msg_type ≠ .NOISE_IDENTITY_ANNOUNCE) = true) : OneAtATime ends l (.handle x env) := by
  rintro ⟨f, rest, hwire, packet, nickname, hparse, htype, -⟩
  rw [hwire, List.all_cons, hparse] at hnext
  simp [Except.toOption, htype] at hnext

/-- B announces itself. -/
def announced : Link := strangers.step ends (.act .B (env 1) .identity_announce)

def initiated : Link := announced.step ends (.handle .A (env 2))

def responded : Link := initiated.step ends (.handle .B (env 3))

def confirmed : Link := responded.step ends (.handle .A (env 4))

def established : Link := confirmed.step ends (.handle .B (env 5))

theorem reached_announced :
    Link.Reached ends (fun l op => Meets ends l op ∧ OneAtATime ends l op) strangers announced :=
  .step .start _ ⟨.announce .B (lossless_env 1), False.elim⟩

theorem idle_announced : Idle ends announced := by
  intro x
  rw [← Dict.has_eq_false_iff]
  cases x <;> decide +kernel

/-- No announcement is next where a handshake message is handled. -/
theorem careful_established :
    (initiated.wire (Side.other .B)).all (fun f => (parse_bitchat_packet f.raw).toOption.all
      fun packet => packet.msg_type ≠ .NOISE_IDENTITY_ANNOUNCE) = true ∧
    (responded.wire (Side.other .A)).all (fun f => (parse_bitchat_packet f.raw).toOption.all
      fun packet => packet.msg_type ≠ .NOISE_IDENTITY_ANNOUNCE) = true ∧
    (confirmed.wire (Side.other .B)).all (fun f => (parse_bitchat_packet f.raw).toOption.all
      fun packet => packet.msg_type ≠ .NOISE_IDENTITY_ANNOUNCE) = true := by
  decide +kernel

theorem reached_established :
    Link.Reached ends (fun l op => Meets ends l op ∧ OneAtATime ends l op)
      initiated established := by
  obtain ⟨hB, hA, hlast⟩ := careful_established
  have hresponded : Link.Reached ends (fun l op => Meets ends l op ∧ OneAtATime ends l op)
      initiated responded :=
    .step .start _ ⟨.handle .B (lossless_env 3), oneAtATime_handle hB⟩
  have hconfirmed : Link.Reached ends (fun l op => Meets ends l op ∧ OneAtATime ends l op)
      initiated confirmed :=
    .step hresponded _ ⟨.handle .A (lossless_env 4), oneAtATime_handle hA⟩
  exact .step hconfirmed _ ⟨.handle .B (lossless_env 5), oneAtATime_handle hlast⟩

theorem wire_established (y : Side) : established.wire y = [] := by
  have hboth : (established.wire .A).isEmpty ∧ (established.wire .B).isEmpty := by
    decide +kernel
  rw [← List.isEmpty_iff]
  cases y
  · exact hboth.1
  · exact hboth.2

/-- B announces itself twice before A hears of it. -/
def announced_twice : Link := announced.step ends (.act .B (env 6) .identity_announce)

/-- A starts a handshake on each of the two, and B and A read what comes of it. -/
def broken_off : Link :=
  ((((announced_twice.step ends (.handle .A (env 2))).step ends (.handle .A (env 3))).step ends
    (.handle .B (env 4))).step ends (.handle .B (env 5))).step ends (.handle .A (env 7))

theorem reached_announced_twice : Link.Reached ends (Meets ends) strangers announced_twice :=
  .step (.step .start _ (.announce .B (lossless_env 1))) _ (.announce .B (lossless_env 6))

theorem reached_broken_off :
    Link.Reached ends (Meets ends) (announced_twice.step ends (.handle .A (env 2))) broken_off := by
  refine .step (.step (.step (.step .start _ ?_) _ ?_) _ ?_) _ ?_
  · exact .handle .A (lossless_env 3)
  · exact .handle .B (lossless_env 4)
  · exact .handle .B (lossless_env 5)
  · exact .handle .A (lossless_env 7)

/-- The wires are empty, and A has no session. -/
theorem ends_broken_off : (broken_off.wire .A).isEmpty ∧ (broken_off.wire .B).isEmpty ∧
    (broken_off.world .A).node.encryption_service.sessions.has (ends.id .B).str = false := by
  decide +kernel

theorem wire_broken_off (y : Side) : broken_off.wire y = [] := by
  rw [← List.isEmpty_iff]
  cases y
  · exact ends_broken_off.1
  · exact ends_broken_off.2.1

theorem not_converged_broken_off : ¬ Converged ends broken_off := by
  rintro ⟨-, key, hsessions⟩
  obtain ⟨session, hsession, -⟩ := hsessions .A
  have hnone := ends_broken_off.2.2
  rw [Dict.has_eq_false_iff] at hnone
  exact absurd (hnone.symm.trans hsession) (by simp)

end daemon.standIn

namespace daemon

open python bitchat bitchat.protocol bitchat.encryption

attribute [local instance] bitchat.standIn.packages

theorem an_announcement_leads_to_a_session : Converged standIn.ends standIn.established :=
  haveI := bitchat.standIn.lawfulCrypto
  handshakes_converge standIn.ends standIn.strangers standIn.announced standIn.established .A
    (standIn.env 2) standIn.strangers_strangers standIn.reached_announced (by decide +kernel)
    (standIn.announcementNext_of (by decide +kernel)) (standIn.lossless_env 2)
    (fun _ => standIn.idle_announced) standIn.reached_established standIn.wire_established

/-- Two announcements in a row make the other node start two handshakes, and
nothing comes of either. -/
theorem a_second_announcement_breaks_the_handshake_off :
    Strangers standIn.ends standIn.strangers ∧
      Link.Reached standIn.ends (Meets standIn.ends) standIn.strangers standIn.announced_twice ∧
      (standIn.ends.id .A).str < (standIn.ends.id .B).str ∧
      AnnouncementNext standIn.ends standIn.announced_twice .A ∧
      Link.Reached standIn.ends (Meets standIn.ends)
        (standIn.announced_twice.step standIn.ends (.handle .A (standIn.env 2)))
          standIn.broken_off ∧
      (∀ y, standIn.broken_off.wire y = []) ∧ ¬ Converged standIn.ends standIn.broken_off :=
  ⟨standIn.strangers_strangers, standIn.reached_announced_twice, by decide +kernel,
    standIn.announcementNext_of (by decide +kernel), standIn.reached_broken_off,
    standIn.wire_broken_off, standIn.not_converged_broken_off⟩

end daemon
