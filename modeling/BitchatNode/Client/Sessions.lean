-- Runs of two clients with a session. `handle_packet` has no branch for
-- delivery ACKs: a message keeps waiting for its ACK, and the nonce that the
-- ACK was sealed under is never used up by its reader. Until the first ACK is
-- handed over, every private message meets its nonce.
import BitchatNode.Client.Channels
import BitchatNode.Client.Conversation
import BitchatNode.InStep

namespace client

open python bitchat bitchat.protocol bitchat.encryption
open daemon (Side Frame counted Crossed)

variable [ClientPackages]

/-! ## Runs of a conversation -/

/-- Every write of the step works. -/
def Talks : Op → Prop
  | .private_message _ env _ _ _ => Lossless env
  | .handle _ env => Lossless env

/-- No nonce is spent in the step on a packet that cannot be built. -/
def Careful (l : Link) : Op → Prop
  | .private_message x _ content _ _ => Affordable (l.world x).state content
  | .handle x _ => ∀ nonce packet, next_packet l x = some (nonce, packet) →
      packet.msg_type = .NOISE_ENCRYPTED → AckAffordable (l.world x).state

/-- No ACK is handed over in the step. -/
def NoAck (l : Link) : Op → Prop
  | .private_message _ _ _ _ _ => True
  | .handle x _ => ∀ nonce packet, next_packet l x = some (nonce, packet) →
      packet.msg_type ≠ .DELIVERY_ACK

def session (l : Link) (id : Side → PeerId) (x : Side) : Option NoiseSession :=
  (l.world x).state.encryption_service.sessions.get? (id x.other).str

/-- The clients hold the sessions that one handshake between them produced. -/
def Paired (id : Side → PeerId) (l : Link) : Prop :=
  ∃ (x : Side) (static_i static_r ephemeral_i ephemeral_r unused : Crypto.PrivateKey)
    (read : List Bytes) (i r : NoiseHandshakeState) (now : Side → UInt64),
    xx_run static_i static_r ephemeral_i ephemeral_r unused [] [] [] = .ok (read, i, r) ∧
    session l id x = EncryptionService.session_of (id x.other).str (now x) i ∧
    session l id x.other = EncryptionService.session_of (id x).str (now x.other) r

/-- Two connected clients, neither of which has blocked the other, right after
a handshake. As on every connection after a handshake, no id ends in a zero
byte, and no packet is half there. -/
structure Fresh (id : Side → PeerId) (l : Link) : Prop where
  paired : Paired id l
  me : ∀ x, (l.world x).state.my_peer_id = id x
  distinct : id .A ≠ id .B
  nonzero : ∀ x, ¬ (id x).EndsInZero
  connected : ∀ x, (l.world x).state.connection = .up
  unblocked : ∀ x, is_blocked (l.world x).state (id x.other).str = false
  idle : ∀ x, (l.world x).state.fragment_collector.Idle
  silent : ∀ x, l.wire x = [] ∧ displayed (l.world x).out = []

/-- If a sealed packet is handed over next, the side is about to open it under
the nonce it was sealed under, and will not reject it. -/
def InStep (id : Side → PeerId) (l : Link) (x : Side) : Prop :=
  ∀ nonce packet, next_packet l x = some (nonce, packet) → packet.msg_type = .NOISE_ENCRYPTED →
    receive_nonce (l.world x).state (id x.other).str = some nonce ∧
    ∃ plain, (exec (EncryptionService.decrypt_from_peer packet.sender_id_str packet.payload)
      (l.world x).state.encryption_service).1 = .ok plain

/-- The ACK of the message is handed over next: the other side's text, in plain
or sealed under the nonce of its frame. -/
def Acknowledges (id : Side → PeerId) (l : Link) (x : Side) (message_id : Str) : Prop :=
  ∃ nonce packet uuid_draw clock, next_packet l x = some (nonce, packet) ∧
    packet.msg_type = .DELIVERY_ACK ∧
    (packet.payload = ack_payload (l.world x.other).state message_id uuid_draw clock ∨
      ∃ s key, session l id x = some s ∧ s.receive_cipher.key = some key ∧
        packet.payload = Crypto.chacha_encrypt key (NoiseCipherState.nonce_bytes nonce)
          (ack_payload (l.world x.other).state message_id uuid_draw clock) [])

/-- A message that the other side shows does not wait any more once the side
has handled its ACK. -/
def Matched (id : Side → PeerId) (l : Link) (x : Side) (env : Env) : Prop :=
  ∀ message_id ∈ displayed (l.world x.other).out, Acknowledges id l x message_id →
    ¬ Tracked ((l.step id (.handle x env)).world x).state message_id

/-! ## ACKs are dropped -/

/-- The delivery tracker stays as it is. -/
def SameTracker (w w' : World) : Prop := w'.state.delivery_tracker = w.state.delivery_tracker

instance : IsPreorder World SameTracker where
  refl _ := rfl
  trans _ _ _ h g := Eq.trans g h

theorem sameTracker_send_fragments (env : Env) (fragment_id : Bytes) (total : Nat) :
    ∀ (chunks : List Bytes) (index : Nat),
      Moves SameTracker (send_fragments env fragment_id total index chunks)
  | [], _ => Moves.pure ()
  | chunk :: rest, index => by
    unfold send_fragments
    apply moves_getClient
    intro w
    refine Moves.outcome_bind ?_ w
    intro packet _
    cases env.write index with
    | done =>
      have hwrite : Moves SameTracker (emit (.write packet)) := fun _ => rfl
      exact hwrite.bind fun _ => sameTracker_send_fragments env fragment_id total rest (index + 1)
    | dropped => exact Moves.throw _
    | disconnected => exact fun _ => rfl
    | raised e => exact Moves.throw e

theorem sameTracker_send_packet (env : Env) (packet : Bytes) :
    Moves SameTracker (send_packet env packet) := by
  unfold send_packet
  apply moves_getClient
  intro w
  cases w.state.connection with
  | none => rfl
  | lost => rfl
  | up =>
    dsimp only
    split
    · exact sameTracker_send_fragments _ _ _ _ _ w
    · cases env.write 0 <;> rfl

theorem sameTracker_relay (env : Env) (raw : Bytes) (ttl : UInt8) :
    Moves SameTracker (relay env raw ttl) :=
  Moves.ite (Moves.pure ()) (sameTracker_send_packet env _)

/-- An ACK that is handed over leaves the tracker as it is, in whatever state
the client is. -/
theorem an_ack_is_dropped {w : World} {raw : Bytes} {packet : BitchatPacket}
    (hover : handed_over w.state raw = some packet) (hack : packet.msg_type = .DELIVERY_ACK)
    (env : Env) : SameTracker w (exec (notification_handler env raw) w).2 := by
  have hdrop (depth : Nat) (env : Env) (raw : Bytes) :
      handle_packet (depth + 1) env packet raw = pure () := by
    unfold handle_packet
    rw [hack]
  unfold handed_over at hover
  rcases hparse : parse_bitchat_packet raw with e | outer_packet
  · rw [hparse] at hover
    cases hover
  · rw [hparse] at hover
    dsimp only at hover
    split at hover
    · cases hover
    · rename_i hother
      rw [exec_notification_handler hparse hother]
      split at hover
      · rename_i hfragment
        obtain ⟨⟨complete_data, sender_id⟩, hcall, hinner⟩ := Option.bind_eq_some_iff.mp hover
        rcases hcomplete : parse_bitchat_packet complete_data with e | inner_packet
        · rw [hcomplete] at hinner
          cases hinner
        · rw [hcomplete] at hinner
          obtain rfl : inner_packet = packet := Option.some.inj hinner
          rw [show recursion_limit = 998 + 1 + 1 from rfl,
            exec_handle_last_fragment hfragment.1 hfragment.2 _ env raw hcall hcomplete, hdrop]
          exact sameTracker_relay _ _ _ (w.collected _)
      · obtain rfl : outer_packet = packet := Option.some.inj hover
        rw [show recursion_limit = 999 + 1 from rfl, hdrop]
        rfl

/-! ## The invariant -/

/-- Each side holds its session, the packets on the wires lead from what the
reader expects to what the writer uses next, and what a side shows the other
tracks. -/
structure Synced (id : Side → PeerId) (s : Side → NoiseSession) (key : Side → Bytes)
    (n m : Side → Nat) (l : Link) : Prop where
  settled : ∀ x, Settled (id x) (id x.other) (s x) (n x) (m x) (l.world x).state
  reading : ∀ x, Reading (id x) (id x.other) (key x) (Tracked (l.world x).state)
    (l.world x.other).state.fragment_collector (m x.other) (l.wire x) (n x)
  shown : ∀ x, ∀ message_id ∈ displayed (l.world x.other).out,
    Tracked (l.world x).state message_id

section

variable {id : Side → PeerId} {s : Side → NoiseSession} {key : Side → Bytes} {n m : Side → Nat}
  {l : Link}

theorem Fresh.read (h : Fresh id l) (x : Side) : hex (rstripZero (id x).bytes) = (id x).str :=
  (id x).hex_rstripZero_eq.mpr (h.nonzero x)

theorem Fresh.id_ne (h : Fresh id l) (x : Side) : id x ≠ id x.other := by
  cases x
  · exact h.distinct
  · exact h.distinct.symm

theorem written_of_writes {w w' : World} {raws : List Bytes}
    (h : writes w'.out = writes w.out ++ raws) (peer_id : Str) :
    written peer_id w w' = raws.map fun raw => ⟨raw, send_nonce w.state peer_id⟩ := by
  unfold written
  rw [h, List.drop_left]

/-- One side moves on, by what a step may do. -/
theorem Synced.advance (h : Synced id s key n m l) (x : Side) {w' : World}
    {collector : FragmentCollector} {n' m' : Nat} {rest : List Frame}
    (hdoes : Does (id x) (id x.other) (s x) (key x) (Tracked (l.world x.other).state) collector
      (n x) n' m' (l.world x) w')
    (hrest : Reading (id x.other) (id x) (key x.other) (Tracked (l.world x.other).state) collector
      m' rest (n x.other)) :
    Synced id s key (Function.update n x n') (Function.update m x m')
      (Link.advance id { l with wire := Function.update l.wire x.other rest } x w') := by
  obtain ⟨ids, hids, hshown⟩ := hdoes.displays
  obtain ⟨raws, hraws, hchain⟩ := hdoes.acts
  have hwritten := written_of_writes hraws (id x.other).str
  rw [(h.settled x).send_nonce] at hwritten
  refine ⟨Side.both x ?_ ?_, Side.both x ?_ ?_, Side.both x ?_ ?_⟩
  · simp only [Link.advance, Function.update_self]
    exact hdoes.settled
  · simp only [Link.advance, Function.update_of_ne x.other_ne]
    exact h.settled x.other
  · simp only [Link.advance, Function.update_self, Function.update_of_ne x.other_ne,
      Function.update_of_ne x.other_ne.symm, hwritten]
    exact ((h.reading x).mono hdoes.tracked).append hchain
  · simp only [Link.advance, Function.update_self, Function.update_of_ne x.other_ne,
      Side.other_other, hdoes.collector]
    exact hrest
  · simp only [Link.advance, Function.update_self, Function.update_of_ne x.other_ne]
    exact fun message_id hmem => hdoes.tracked _ (h.shown x message_id hmem)
  · simp only [Link.advance, Function.update_self, Function.update_of_ne x.other_ne,
      Side.other_other, hids]
    intro message_id hmem
    rcases List.mem_append.mp hmem with hold | hnew
    · have hbefore := h.shown x.other message_id
      rw [Side.other_other] at hbefore
      exact hbefore hold
    · exact hshown message_id hnew

/-- Every step in which no ACK is handed over keeps the invariant. -/
theorem Synced.step [LawfulCrypto] (h : Synced id s key n m l) (hcrossed : Crossed s key)
    (hread : ∀ x, hex (rstripZero (id x).bytes) = (id x).str) (hne : ∀ x, id x ≠ id x.other)
    {op : Op} (htalks : Talks op) (hcareful : Careful l op) (hno_ack : NoAck l op) :
    ∃ n' m', Synced id s key n' m' (l.step id op) := by
  cases op with
  | private_message x env content target_nickname message_id =>
    obtain ⟨n', hdoes⟩ := does_private_message (Tracked (l.world x.other).state)
      (h.settled x) htalks (hcrossed x).1 content target_nickname message_id hcareful
    have hwire := h.reading x.other
    rw [Side.other_other] at hwire
    have hadvance := h.advance x hdoes hwire
    rw [Function.update_eq_self, Function.update_eq_self] at hadvance
    exact ⟨_, _, hadvance⟩
  | handle x env =>
    have hreading := h.reading x.other
    rw [Side.other_other] at hreading
    simp only [Link.step]
    rcases hwire : l.wire x.other with _ | ⟨f, rest⟩
    · exact ⟨n, m, h⟩
    · rw [hwire] at hreading
      have hnext {packet : BitchatPacket}
          (hover : handed_over (l.world x).state f.raw = some packet) :
          next_packet l x = some (f.nonce, packet) := by
        unfold next_packet
        rw [hwire, List.head?_cons, Option.bind_some, hover, Option.map_some]
      obtain ⟨n', m', collector, hdoes, hrest⟩ := hreading.takes.does_handle (h.settled x) (hne x)
        (hread x.other) (hread x) htalks (hcrossed x).1 (hcrossed x).2
        (fun packet hover => hno_ack _ packet (hnext hover))
        (fun packet hover => hcareful _ packet (hnext hover))
      exact ⟨_, _, h.advance x hdoes hrest⟩

/-- Where the invariant holds, the next sealed packet is in step. -/
theorem Synced.inStep [LawfulCrypto] (h : Synced id s key n m l) (hcrossed : Crossed s key)
    (hread : ∀ x, hex (rstripZero (id x).bytes) = (id x).str) (hne : ∀ x, id x ≠ id x.other)
    (x : Side) : InStep id l x := by
  intro nonce packet hnext htype
  have hsettled := h.settled x
  have hreading := h.reading x.other
  rw [Side.other_other] at hreading
  unfold next_packet at hnext
  rcases hwire : l.wire x.other with _ | ⟨f, rest⟩
  · rw [hwire] at hnext
    cases hnext
  · rw [hwire, List.head?_cons, Option.bind_some, Option.map_eq_some_iff] at hnext
    obtain ⟨read, hover, hpair⟩ := hnext
    obtain ⟨rfl, rfl⟩ := Prod.mk.inj hpair
    rw [hwire] at hreading
    have hme : hex (rstripZero (id x).bytes) = (l.world x).state.my_peer_id.str := by
      rw [hread x, hsettled.me]
    have hother : hex (rstripZero (id x.other).bytes) ≠ (l.world x).state.my_peer_id.str := by
      rw [hread x.other, hsettled.me]
      exact fun heq => hne x (PeerId.str_injective heq).symm
    obtain ⟨raw, m', hspends, hparse⟩ := hreading.takes.hands_over (hread x.other) hme hother hover
    obtain ⟨hnonce, hopens⟩ := hspends.opens hsettled (hread x.other) (hcrossed x).2 hparse htype
    refine ⟨?_, hopens⟩
    rw [hsettled.receive_nonce, hnonce]

/-- A handshake leaves the invariant. -/
theorem Fresh.synced [LawfulCrypto] (h : Fresh id l) :
    ∃ s key, Crossed s key ∧ ∃ n m, Synced id s key n m l := by
  obtain ⟨x, static_i, static_r, ephemeral_i, ephemeral_r, unused, read, i, r, now, hrun, hi, hr⟩ :=
    h.paired
  obtain ⟨s, key, hcrossed, hsession⟩ :=
    daemon.crossed_of_handshake id (session l id) x hrun hi hr
  refine ⟨s, key, hcrossed, fun _ => 0, fun _ => 0, fun y => ?_, fun y => ?_, fun y => ?_⟩
  · have hfingerprint : (l.world y).state.encryption_service.get_peer_fingerprint (id y.other).str =
        some (s y).get_fingerprint := by
      unfold EncryptionService.get_peer_fingerprint
      rw [show (l.world y).state.encryption_service.sessions.get? (id y.other).str =
        some (counted (s y) 0 0) from hsession y]
      rfl
    have hunblocked := h.unblocked y
    unfold is_blocked at hunblocked
    rw [hfingerprint] at hunblocked
    exact ⟨h.me y, h.connected y, hsession y, of_decide_eq_false hunblocked⟩
  · rw [(h.silent y).1]
    exact .between (h.idle y.other) (.nil 0)
  · rw [(h.silent y.other).2]
    exact fun message_id hmem => absurd hmem List.not_mem_nil

/-- Once the ACK of a shown message is handed over, the message goes on
waiting for it. -/
theorem Synced.matched_iff (h : Synced id s key n m l) (x : Side) (env : Env) :
    Matched id l x env ↔
      ∀ message_id ∈ displayed (l.world x.other).out, ¬ Acknowledges id l x message_id := by
  refine ⟨fun hmatched message_id hmem hack => ?_, fun hnone message_id hmem hack =>
    absurd hack (hnone message_id hmem)⟩
  refine hmatched message_id hmem hack ?_
  obtain ⟨nonce, packet, _, _, hnext, htype, -⟩ := hack
  unfold next_packet at hnext
  rcases hwire : l.wire x.other with _ | ⟨f, rest⟩
  · rw [hwire] at hnext
    cases hnext
  · rw [hwire, List.head?_cons, Option.bind_some, Option.map_eq_some_iff] at hnext
    obtain ⟨read, hover, hpair⟩ := hnext
    obtain ⟨rfl, rfl⟩ := Prod.mk.inj hpair
    have hsame := an_ack_is_dropped hover htype env
    simp only [Link.step, hwire, Link.advance, Function.update_self]
    unfold Tracked
    rw [hsame]
    exact h.shown x message_id hmem

end

/-- In every run of two clients after a handshake in which no ACK is handed
over, every private message is opened under the nonce that it was sealed under,
and what comes next leaves a message waiting exactly where it hands over the
ACK of one that is shown. -/
theorem sessions_work_until_an_ack [LawfulCrypto] (id : Side → PeerId) (start l : Link)
    (hstart : Fresh id start)
    (hrun : Link.Reached id (fun l op => Talks op ∧ Careful l op ∧ NoAck l op) start l)
    (x : Side) (env : Env) :
    InStep id l x ∧
      (Matched id l x env ↔
        ∀ message_id ∈ displayed (l.world x.other).out, ¬ Acknowledges id l x message_id) := by
  obtain ⟨s, key, hcrossed, hsynced⟩ := hstart.synced
  have h : ∃ n m, Synced id s key n m l := by
    induction hrun with
    | start => exact hsynced
    | step hreached op hop ih =>
      obtain ⟨n, m, hbefore⟩ := ih
      exact hbefore.step hcrossed hstart.read hstart.id_ne hop.1 hop.2.1 hop.2.2
  obtain ⟨n, m, h⟩ := h
  exact ⟨h.inStep hcrossed hstart.read hstart.id_ne x, h.matched_iff x env⟩

end client

/-! ## On the stand-in -/

namespace client.standIn

open python bitchat bitchat.protocol bitchat.encryption
open daemon (Side)

attribute [local instance] packages

def id_of : Side → PeerId := daemon.standIn.ends.id

/-- The two clients right after the handshake. -/
def paired : Link where
  world x := {
    state := { newcomer (id_of x) (daemon.standIn.secret x) with
      connection := .up
      encryption_service :=
        { EncryptionService.init (bitchat.standIn.key (daemon.standIn.secret x)) with
          sessions := match daemon.standIn.session x with
            | some s => .set .empty (id_of x.other).str s
            | none => .empty } }
    out := [] }
  wire _ := []

theorem session_paired (x : Side) : session paired id_of x = daemon.standIn.session x := by
  show (match daemon.standIn.session x with
    | some s => Dict.set .empty (id_of x.other).str s
    | none => .empty).get? _ = daemon.standIn.session x
  rcases daemon.standIn.session x with _ | s
  · rfl
  · exact Dict.get?_set_self _ _ _

theorem fresh_paired : Fresh id_of paired where
  paired := by
    have := bitchat.standIn.lawfulCrypto
    obtain ⟨i, r, hrun, -⟩ := xx_run_stage (bitchat.standIn.key 1) (bitchat.standIn.key 2)
      (bitchat.standIn.key 3) (bitchat.standIn.key 4) (bitchat.standIn.key 5) [] [] []
    have hends : daemon.standIn.handshake = (i, r) := by
      unfold daemon.standIn.handshake
      rw [hrun]
    refine ⟨.A, _, _, _, _, _, _, i, r, fun _ => 0, hrun, ?_, ?_⟩
    · rw [session_paired]
      unfold daemon.standIn.session
      rw [hends]
      rfl
    · rw [session_paired]
      unfold daemon.standIn.session
      rw [hends]
      rfl
  me x := rfl
  distinct := daemon.standIn.ends.distinct
  nonzero := daemon.standIn.ends.nonzero
  connected x := rfl
  unblocked x := by
    unfold is_blocked
    split
    · simp [paired, newcomer, BitchatClient.init]
    · rfl
  idle x := FragmentCollector.idle_init
  silent x := ⟨rfl, rfl⟩

theorem lossless_env (k : Fin 16) : Lossless (env k) := fun _ => rfl

/-- The side handles the next packets of the other. -/
def handled (x : Side) (k : Fin 16) : Nat → Link → Link
  | 0, l => l
  | count + 1, l => handled x k count (l.step id_of (.handle x (env k)))

theorem reached_handled {ok : Link → Op → Prop} {start : Link} (x : Side) (k : Fin 16)
    (count : Nat) : ∀ {l : Link}, Link.Reached id_of ok start l →
      (∀ i < count, ok (handled x k i l) (.handle x (env k))) →
        Link.Reached id_of ok start (handled x k count l) := by
  induction count with
  | zero => exact fun h _ => h
  | succ count ih =>
    intro l h hok
    exact ih (.step h _ (hok 0 (by omega))) fun i hi => hok (i + 1) (by omega)

/-- A sends a private message, in four fragments. -/
def asked : Link := paired.step id_of (.private_message .A (env 1) ['h', 'i'] ['b'] none)

/-- B has all of it but the last fragment. -/
def underway : Link := handled .B 2 3 asked

/-- B has answered, and A has all of the ACK but the last fragment. -/
def answered : Link := handled .A 3 6 (handled .B 2 1 underway)

/-- A has the ACK, B sends a private message, and A has all of it but the last
fragment. -/
def drifted : Link :=
  handled .A 5 4 ((handled .A 3 1 answered).step id_of
    (.private_message .B (env 4) ['y', 'o'] ['a'] none))

theorem reached_answered : Link.Reached id_of (fun _ op => Talks op) paired answered :=
  reached_handled .A 3 6 (reached_handled .B 2 1 (reached_handled .B 2 3
    (.step .start _ (lossless_env 1)) fun _ _ => lossless_env 2) fun _ _ => lossless_env 2)
    fun _ _ => lossless_env 3

theorem reached_drifted : Link.Reached id_of (fun _ op => Talks op) paired drifted :=
  reached_handled .A 5 4 (.step (reached_handled .A 3 1 reached_answered fun _ _ => lossless_env 3)
    _ (lossless_env 4)) fun _ _ => lossless_env 5

/-- The id of the message of A. -/
def asked_id : Str := (bitchat.standIn.draw 1).uuid.str

/-- What is handed over next, and whether it is the sealed text of this ACK. -/
def sealed_ack (l : Link) (x : Side) (message_id : Str) (uuid_draw clock : Draw) (nonce : Nat) :
    Option (Nat × MessageType × Bool) :=
  ((session l id_of x).bind fun s => s.receive_cipher.key).bind fun key =>
    (next_packet l x).map fun p => (p.1, p.2.msg_type, decide (p.2.payload =
      Crypto.chacha_encrypt key (NoiseCipherState.nonce_bytes nonce)
        (ack_payload (l.world x.other).state message_id uuid_draw clock) []))

theorem acknowledges_of_sealed {l : Link} {x : Side} {message_id : Str} {uuid_draw clock : Draw}
    {nonce : Nat}
    (h : sealed_ack l x message_id uuid_draw clock nonce = some (nonce, .DELIVERY_ACK, true)) :
    Acknowledges id_of l x message_id := by
  obtain ⟨key, hkey, hnext⟩ := Option.bind_eq_some_iff.mp h
  obtain ⟨s, hsession, hkey⟩ := Option.bind_eq_some_iff.mp hkey
  obtain ⟨⟨nonce', packet⟩, hpacket, hfields⟩ := Option.map_eq_some_iff.mp hnext
  obtain ⟨rfl, hrest⟩ := Prod.mk.inj hfields
  obtain ⟨htype, hpayload⟩ := Prod.mk.inj hrest
  exact ⟨nonce', packet, uuid_draw, clock, hpacket, htype,
    Or.inr ⟨s, key, hsession, hkey, of_decide_eq_true hpayload⟩⟩

/-- B shows the message of A, A handles the ACK of it and goes on waiting, and
the next message of B is sealed under 1 where A expects 0. -/
theorem ends_answered_drifted : (asked_id ∈ displayed (answered.world Side.A.other).out ∧
      sealed_ack answered .A asked_id (bitchat.standIn.draw 2) (bitchat.standIn.draw 2) 0 =
        some (0, .DELIVERY_ACK, true) ∧
      ((answered.step id_of (.handle .A (env 3))).world
        .A).state.delivery_tracker.pending_messages.has asked_id = true) ∧
    (next_packet drifted .A).map (fun p => (p.1, p.2.msg_type)) = some (1, .NOISE_ENCRYPTED) ∧
    receive_nonce (drifted.world .A).state (id_of .B).str = some 0 := by
  decide +kernel

theorem not_matched_answered : ¬ Matched id_of answered .A (env 3) := by
  obtain ⟨⟨hshown, hack, hwaits⟩, -⟩ := ends_answered_drifted
  intro h
  exact h asked_id hshown (acknowledges_of_sealed hack) hwaits

theorem not_inStep_drifted : ¬ InStep id_of drifted .A := by
  obtain ⟨-, hnext, hnonce⟩ := ends_answered_drifted
  intro h
  obtain ⟨⟨nonce, packet⟩, hpacket, hpair⟩ := Option.map_eq_some_iff.mp hnext
  obtain ⟨hone, htype⟩ := Prod.mk.inj hpair
  obtain ⟨hmet, -⟩ := h nonce packet hpacket htype
  rw [show nonce = 1 from hone] at hmet
  exact absurd (hnonce.symm.trans hmet) (by decide)

/-- A step in which at most a fragment is handed over. -/
theorem careful_handle {l : Link} {x : Side} (k : Fin 16) (hnext : (next_packet l x).isNone) :
    Talks (.handle x (env k)) ∧ Careful l (.handle x (env k)) ∧ NoAck l (.handle x (env k)) := by
  have hnone {nonce : Nat} {packet : BitchatPacket} :
      next_packet l x ≠ some (nonce, packet) := by
    rw [Option.isNone_iff_eq_none.mp hnext]
    exact nofun
  exact ⟨lossless_env k, fun _ _ h => absurd h hnone, fun _ _ h => absurd h hnone⟩

theorem reached_underway :
    Link.Reached id_of (fun l op => Talks op ∧ Careful l op ∧ NoAck l op) paired underway := by
  have hnothing : ∀ i < 3, (next_packet (handled .B 2 i asked) .B).isNone := by
    decide +kernel
  have haffordable : Affordable (paired.world .A).state ['h', 'i'] := fun _ _ => by decide +kernel
  exact reached_handled .B 2 3 (.step .start _ ⟨lossless_env 1, haffordable, trivial⟩)
    fun i hi => careful_handle 2 (hnothing i hi)

end client.standIn

namespace client

open python bitchat bitchat.protocol bitchat.encryption

attribute [local instance] standIn.packages

/-- B is about to open the message of A. -/
theorem a_first_message_is_in_step : InStep standIn.id_of standIn.underway .B ∧
    (Matched standIn.id_of standIn.underway .B (standIn.env 2) ↔
      ∀ message_id ∈ displayed (standIn.underway.world (daemon.Side.other .B)).out,
        ¬ Acknowledges standIn.id_of standIn.underway .B message_id) :=
  haveI := bitchat.standIn.lawfulCrypto
  sessions_work_until_an_ack standIn.id_of standIn.paired standIn.underway standIn.fresh_paired
    standIn.reached_underway .B (standIn.env 2)

/-- The ACK of the first message is dropped. The message goes on waiting for it,
and the next message in its direction is opened under the wrong nonce. -/
theorem an_ack_puts_the_sessions_out_of_step : Fresh standIn.id_of standIn.paired ∧
    Link.Reached standIn.id_of (fun _ op => Talks op) standIn.paired standIn.answered ∧
    ¬ Matched standIn.id_of standIn.answered .A (standIn.env 3) ∧
    Link.Reached standIn.id_of (fun _ op => Talks op) standIn.paired standIn.drifted ∧
    ¬ InStep standIn.id_of standIn.drifted .A :=
  ⟨standIn.fresh_paired, standIn.reached_answered, standIn.not_matched_answered,
    standIn.reached_drifted, standIn.not_inStep_drifted⟩

end client
