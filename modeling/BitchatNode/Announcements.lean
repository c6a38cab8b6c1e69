-- Who an announcement speaks for. The one kind names its sender, the other
-- the peer id in its payload, and a handshake that cannot be sent takes down
-- a connection with the first peer behind it.
import BitchatNode.PeerLoss
import BitchatNode.HandshakeMessages
import BitchatNode.HandshakeTable
import BitchatNode.AnnouncementCodec

namespace daemon

open python bitchat bitchat.protocol bitchat.encryption

variable [Packages]

/-! ## What an announcement does -/

/-- The peer that the packet announces, and its nickname. -/
def MeshNode.announces (self : MeshNode) (packet : BitchatPacket) : Option (Str × Str) :=
  match packet.msg_type with
  | .ANNOUNCE => some (packet.sender_id_str, strip (decodeIgnore packet.payload))
  | .NOISE_IDENTITY_ANNOUNCE =>
    if packet.sender_id_str = self.my_peer_id.str then none else announcement_of packet
  | _ => none

/-- The peer with which the node starts a handshake because of the packet. -/
def MeshNode.calls (self : MeshNode) (packet : BitchatPacket) : Option Str :=
  match packet.msg_type with
  | .NOISE_IDENTITY_ANNOUNCE => ((self.announces packet).map Prod.fst).filter fun peer_id =>
    self.my_peer_id.str < peer_id ∧ ¬ self.encryption_service.is_session_established peer_id
  | _ => none

/-- How the handlers of the two announcements end. -/
inductive Handled (env : Env) (packet : BitchatPacket) (w : World) : World → Prop
  | nothing (h : w.node.announces packet = none) : Handled env packet w w
  | learns {peer_id nickname : Str} (h : w.node.announces packet = some (peer_id, nickname))
    (hcalls : w.node.calls packet = none) :
    Handled env packet w (exec (announced peer_id nickname) w).2
  | initiates {peer_id nickname : Str} (h : w.node.announces packet = some (peer_id, nickname))
    (hcalls : w.node.calls packet = some peer_id) :
    Handled env packet w
      (exec (initiate_handshake env peer_id) (exec (announced peer_id nickname) w).2).2

theorem handled_announce {env : Env} {packet : BitchatPacket} {w : World} (raw : Bytes)
    (htype : packet.msg_type = .ANNOUNCE) :
    Handled env packet w (exec (handle env packet raw) w).2 := by
  have hannounces : w.node.announces packet =
      some (packet.sender_id_str, strip (decodeIgnore packet.payload)) := by
    unfold MeshNode.announces
    rw [htype]
  have hcalls : w.node.calls packet = none := by
    unfold MeshNode.calls
    rw [htype]
  have hhandle : handle env packet raw = handle_announce packet :=
    handle_of_handler (by rw [handler, htype])
  rw [hhandle]
  exact .learns hannounces hcalls

theorem handled_identity_announce {env : Env} {packet : BitchatPacket} {w : World} (raw : Bytes)
    (htype : packet.msg_type = .NOISE_IDENTITY_ANNOUNCE) :
    Handled env packet w (exec (handle env packet raw) w).2 := by
  have hannounces : w.node.announces packet =
      if packet.sender_id_str = w.node.my_peer_id.str then none else announcement_of packet := by
    unfold MeshNode.announces
    rw [htype]
  have hcalls : w.node.calls packet = ((w.node.announces packet).map Prod.fst).filter fun peer_id =>
      w.node.my_peer_id.str < peer_id ∧
        ¬ w.node.encryption_service.is_session_established peer_id := by
    unfold MeshNode.calls
    rw [htype]
  have hhandle : handle env packet raw = handle_noise_identity_announce env packet :=
    handle_of_handler (by rw [handler, htype])
  rw [hhandle]
  unfold handle_noise_identity_announce
  rw [exec_bind_ok _ (exec_node w)]
  split
  · rename_i hown
    rw [if_pos hown] at hannounces
    exact .nothing hannounces
  · rename_i hother
    rw [if_neg hother] at hannounces
    split
    · rename_i hnone
      exact .nothing (hannounces.trans hnone)
    · rename_i peer_id nickname hsome
      replace hannounces := hannounces.trans hsome
      rw [hannounces, Option.map_some] at hcalls
      obtain ⟨hok, -⟩ := exec_announced peer_id nickname w
      rcases hdone : exec (announced peer_id nickname) w with ⟨result, w₁⟩
      rw [hdone] at hok
      subst hok
      obtain rfl : w₁ = (exec (announced peer_id nickname) w).2 := by rw [hdone]
      rw [exec_bind_ok _ hdone, exec_ite]
      split
      · rename_i hfirst
        exact .initiates hannounces (hcalls.trans (Option.filter_some_pos (by simpa using hfirst)))
      · rename_i hnot
        exact .learns hannounces (hcalls.trans (Option.filter_some_neg (by simpa using hnot)))

/-! ## Entries -/

/-- What the node has on file about the peer in the tables of peers, sessions
and handshakes. -/
def MeshNode.entry (self : MeshNode) (peer_id : Str) :
    Option Peer × Option NoiseSession × Option NoiseHandshakeState :=
  (self.peers.get? peer_id, self.encryption_service.sessions.get? peer_id,
    self.encryption_service.handshake_states.get? peer_id)

/-- The node once a handshake with the peer is begun. -/
def MeshNode.asking (self : MeshNode) (peer_id : Str) (handshake : NoiseHandshakeState) :
    MeshNode :=
  { self with
    encryption_service :=
      { self.encryption_service.remove_session peer_id with
        handshake_states :=
          (self.encryption_service.remove_session peer_id).handshake_states.set peer_id
            handshake } }

/-- The peer that goes with a connection to the address: the first one under it. -/
def MeshNode.first_under (self : MeshNode) (address : Str) : Option Str :=
  ((self.peer_addresses.entries.find? fun e => e.2 = address).map Prod.fst).filter (· ≠ [])

theorem entry_announced (peer_id nickname other : Str) (w : World) :
    (exec (announced peer_id nickname) w).2.node.entry other =
      if peer_id = other then (some ⟨some nickname⟩, (w.node.entry other).2)
      else w.node.entry other := by
  rw [(exec_announced peer_id nickname w).2]
  unfold MeshNode.entry
  simp only [Dict.get?_set]
  split <;> rfl

theorem entry_asking (self : MeshNode) {peer_id other : Str} (handshake : NoiseHandshakeState)
    (h : peer_id ≠ other) : (self.asking peer_id handshake).entry other = self.entry other := by
  unfold MeshNode.asking MeshNode.entry EncryptionService.remove_session
  simp only [Dict.get?_set_ne _ _ h, Dict.get?_pop_ne _ h]

theorem entry_without (self : MeshNode) (peer_id other : Str) :
    (self.without peer_id).entry other =
      if peer_id = other then (none, none, none) else self.entry other := by
  unfold MeshNode.without MeshNode.entry EncryptionService.remove_session
  simp only [Dict.get?_pop]
  split <;> rfl

/-- What a failed write does to the entries. -/
theorem entry_on_read_done (conn : PeerConnection) (w : World) (other : Str) :
    (exec (on_read_done conn) w).2.node.entry other =
      if w.node.first_under conn.address = some other then (none, none, none)
      else w.node.entry other := by
  unfold on_read_done on_peer_disconnected MeshNode.first_under
  simp only [exec_bind, exec_modifyNode, exec_node]
  split
  · rename_i peer_id address hfirst
    rw [hfirst, exec_ite]
    by_cases hempty : peer_id = []
    · rw [if_neg (not_not_intro hempty), Option.map_some,
        Option.filter_some_neg (by simpa using hempty), if_neg (by simp)]
      rfl
    · rw [if_pos hempty, Option.map_some, Option.filter_some_pos (by simpa using hempty),
        node_remove_peer, entry_without]
      simp only [Option.some.injEq]
      rfl
  · rename_i hnone
    rw [hnone]
    rfl

/-! ## Joining -/

/-- The calls of `on_peer_joined`. -/
def joins (out : List Action) : List (Str × Str) :=
  out.filterMap fun
    | .on_peer_joined peer_id nickname => some (peer_id, nickname)
    | _ => none

def new_joins (w w' : World) : List (Str × Str) := (joins w'.out).drop (joins w.out).length

theorem new_joins_eq {w w' : World} {new : List (Str × Str)}
    (h : joins w'.out = joins w.out ++ new) : new_joins w w' = new := by
  unfold new_joins
  rw [h, List.drop_left]

theorem joins_announced (peer_id nickname : Str) (w : World) :
    joins (exec (announced peer_id nickname) w).2.out =
      joins w.out ++ if w.node.peers.has peer_id then [] else [(peer_id, nickname)] := by
  unfold announced joins
  simp only [exec_bind, exec_node, exec_modifyNode, exec_ite, exec_pure, exec_emit]
  split
  · simp
  · rw [List.filterMap_append]
    rfl

/-- Nothing joins on the way. -/
def JoinsNobody (w w' : World) : Prop := joins w'.out = joins w.out

instance : IsPreorder World JoinsNobody where
  refl _ := rfl
  trans _ _ _ h g := Eq.trans g h

theorem joinsNobody_emit {action : Action} (h : joins [action] = []) :
    Moves JoinsNobody (emit action) := by
  intro w
  show joins (w.out ++ [action]) = joins w.out
  unfold joins at h ⊢
  rw [List.filterMap_append, h, List.append_nil]

theorem joinsNobody_remove_peer (peer_id : Str) : Moves JoinsNobody (remove_peer peer_id) := by
  unfold remove_peer
  refine Moves.bind moves_node fun self => ?_
  refine Moves.bind (fun w => refl_of JoinsNobody w) fun _ => ?_
  apply Moves.ite
  · exact joinsNobody_emit (by simp [joins])
  · exact Moves.pure ()

theorem joinsNobody_send_to_peer (env : Env) (peer_id : Str) (packet : Bytes) :
    Moves JoinsNobody (send_to_peer env peer_id packet) := by
  refine moves_send_to_peer (fun conn _ => ?_) (fun _ _ => joinsNobody_emit (by simp [joins])) _ _
  unfold on_read_done
  refine Moves.bind (fun w => refl_of JoinsNobody w) fun _ => ?_
  exact moves_on_peer_disconnected joinsNobody_remove_peer conn

/-! ## A handshake that is started -/

/-- An announced id has the form of an id. -/
theorem announced_id {packet : BitchatPacket} {peer_id nickname : Str}
    (h : announcement_of packet = some (peer_id, nickname)) :
    ∃ peer : PeerId, peer.str = peer_id := by
  unfold announcement_of at h
  rw [parse_announcement_eq] at h
  simp only [Option.map_map, Option.map_eq_some_iff, Function.comp_apply, Prod.mk.injEq] at h
  obtain ⟨⟨announcement, offset⟩, hparse, rfl, -⟩ := h
  obtain ⟨_, id, _, _, _, _, _, _, rfl, -, -, hlength, -⟩ := parse_announcement_sound hparse
  exact ⟨⟨id, hlength⟩, rfl⟩

/-- The first message goes to the peer, behind the new state of the handshake. -/
theorem exec_initiate_handshake [LawfulCrypto] (env : Env) (peer : PeerId) (w : World) :
    ∃ handshake packet, packet.length ≤ 65535 ∧
      (exec (initiate_handshake env peer.str) w).2 =
        (exec (send_to_peer env peer.str packet)
          { w with node := w.node.asking peer.str handshake }).2 := by
  obtain ⟨message, handshake, -, hinitiate⟩ :=
    EncryptionService.exec_initiate peer.str (env.draw 0).generate w.node.encryption_service
  obtain ⟨message', _, _, hinitiate', -, hlength, -⟩ :=
    EncryptionService.initiate_sends_first w.node.encryption_service peer.str (env.draw 0).generate
      (env.draw 0).generate
  obtain rfl : message' = message := by
    rw [hinitiate] at hinitiate'
    exact (Except.ok.inj (congrArg Prod.fst hinitiate')).symm
  obtain ⟨packet, hcreate, his⟩ := create_ok w.node.my_peer_id (some peer) .NOISE_HANDSHAKE_INIT
    message' none (env.draw 1) (by omega)
  have hframe : (with_ttl packet 3).length ≤ 65535 := by
    rw [with_ttl, List.length_set, his.fits, bare_length_to]
    omega
  refine ⟨handshake, with_ttl packet 3, hframe, ?_⟩
  rw [Option.map_some] at hcreate
  unfold initiate_handshake
  simp only [exec_suppress, exec_bind, exec_onService, hinitiate, exec_node, hcreate,
    exec_outcome_ok]
  rfl

theorem joins_initiate_handshake (env : Env) (peer_id : Str) :
    Moves JoinsNobody (initiate_handshake env peer_id) := by
  unfold initiate_handshake
  apply Moves.suppress
  refine Moves.bind (fun w => refl_of JoinsNobody w) fun msg => ?_
  refine Moves.bind moves_node fun self => ?_
  exact Moves.bind (Moves.outcome _) fun packet => joinsNobody_send_to_peer env peer_id _

/-- The peer that goes when the node cannot write to the one it starts a
handshake with. -/
def MeshNode.loses (self : MeshNode) (env : Env) (peer_id : Str) : Option Str :=
  match self.get_conn_for_peer peer_id with
  | none => none
  | some conn => if env.write_fails conn.address then self.first_under conn.address else none

theorem entry_initiate_handshake [LawfulCrypto] (env : Env) (peer : PeerId) (w : World)
    {other : Str} (h : peer.str ≠ other) :
    (exec (initiate_handshake env peer.str) w).2.node.entry other =
      if w.node.loses env peer.str = some other then (none, none, none)
      else w.node.entry other := by
  obtain ⟨handshake, packet, hlength, hexec⟩ := exec_initiate_handshake env peer w
  have hconn : (w.node.asking peer.str handshake).get_conn_for_peer peer.str =
      w.node.get_conn_for_peer peer.str := rfl
  have hfirst : ∀ address, (w.node.asking peer.str handshake).first_under address =
      w.node.first_under address := fun _ => rfl
  rw [hexec]
  unfold send_to_peer MeshNode.loses
  rw [exec_bind_ok _ (exec_node _), hconn]
  rcases w.node.get_conn_for_peer peer.str with _ | conn
  · simp [entry_asking w.node handshake h]
  · cases hfails : env.write_fails conn.address with
    | false => simp [hfails, exec_send_packet hlength hfails, entry_asking w.node handshake h]
    | true =>
      simp only [hfails, exec_send_packet_fails hlength hfails, entry_on_read_done, hfirst,
        entry_asking w.node handshake h, if_true]

/-! ## Speaking for the sender -/

/-- An announcement of the sender, and the handshake that it calls for, change
the entries of the sender only, and nobody else joins or is called. -/
structure SpeaksFor (sender : Str) (calls : Option Str) (w w' : World) : Prop where
  entries : ∀ peer_id, peer_id ≠ sender → w'.node.entry peer_id = w.node.entry peer_id
  joins : ∀ e ∈ new_joins w w', e.1 = sender
  calls : ∀ peer_id ∈ calls, peer_id = sender

/-- What the packet says of anyone but its sender is on file already. -/
def SaysNothingNew (self : MeshNode) (packet : BitchatPacket) : Prop :=
  ∀ peer_id nickname, self.announces packet = some (peer_id, nickname) →
    peer_id ≠ packet.sender_id_str →
      self.peers.get? peer_id = some ⟨some nickname⟩ ∧ self.calls packet = none

/-- Nobody is lost over the handshake who has entries, but the sender. -/
def LosesNobody (env : Env) (self : MeshNode) (packet : BitchatPacket) : Prop :=
  ∀ peer_id lost, self.calls packet = some peer_id → self.loses env peer_id = some lost →
    lost ≠ packet.sender_id_str → self.entry lost = (none, none, none)

theorem new_joins_announced (peer_id nickname : Str) (w : World) :
    new_joins w (exec (announced peer_id nickname) w).2 =
      if w.node.peers.has peer_id then [] else [(peer_id, nickname)] :=
  new_joins_eq (joins_announced peer_id nickname w)

theorem new_joins_initiates (env : Env) (peer_id nickname : Str) (w : World) :
    new_joins w
        (exec (initiate_handshake env peer_id) (exec (announced peer_id nickname) w).2).2 =
      if w.node.peers.has peer_id then [] else [(peer_id, nickname)] := by
  apply new_joins_eq
  rw [← joins_announced]
  exact joins_initiate_handshake env peer_id _

theorem speaksFor_learns_iff {packet : BitchatPacket} {peer_id nickname : Str} {w : World}
    (h : w.node.announces packet = some (peer_id, nickname)) (hcalls : w.node.calls packet = none) :
    SpeaksFor packet.sender_id_str (w.node.calls packet) w (exec (announced peer_id nickname) w).2 ↔
      SaysNothingNew w.node packet := by
  constructor
  · rintro hspeaks other nickname' hother hne
    obtain ⟨rfl, rfl⟩ := Prod.mk.inj (Option.some.inj (h.symm.trans hother))
    have hentry := hspeaks.entries peer_id hne
    rw [entry_announced, if_pos rfl] at hentry
    exact ⟨(congrArg Prod.fst hentry).symm, hcalls⟩
  · intro hnew
    refine ⟨fun other hne => ?_, fun e he => ?_, by simp [hcalls]⟩
    · rw [entry_announced]
      split
      · rename_i hsame
        subst hsame
        rw [← (hnew peer_id nickname h hne).1]
        rfl
      · rfl
    · rw [new_joins_announced] at he
      split at he
      · cases he
      · rename_i hnobody
        obtain rfl := List.mem_singleton.mp he
        by_contra hne
        refine hnobody ?_
        unfold Dict.has
        rw [(hnew peer_id nickname h hne).1]
        rfl

theorem speaksFor_initiates_iff [LawfulCrypto] {env : Env} {packet : BitchatPacket} {peer : PeerId}
    {nickname : Str} {w : World} (h : w.node.announces packet = some (peer.str, nickname))
    (hcalls : w.node.calls packet = some peer.str) :
    SpeaksFor packet.sender_id_str (w.node.calls packet) w
        (exec (initiate_handshake env peer.str) (exec (announced peer.str nickname) w).2).2 ↔
      SaysNothingNew w.node packet ∧ LosesNobody env w.node packet := by
  have hloses : (exec (announced peer.str nickname) w).2.node.loses env peer.str =
      w.node.loses env peer.str := by
    rw [(exec_announced peer.str nickname w).2]
    rfl
  have hentry : ∀ other, peer.str ≠ other →
      (exec (initiate_handshake env peer.str) (exec (announced peer.str nickname) w).2).2.node.entry
        other = if w.node.loses env peer.str = some other then (none, none, none)
          else w.node.entry other := by
    intro other hne
    rw [entry_initiate_handshake env peer _ hne, hloses, entry_announced, if_neg hne]
  constructor
  · intro hspeaks
    have hsender := hspeaks.calls peer.str hcalls
    refine ⟨fun other nickname' hother hne => ?_, fun other lost hother hlost hne => ?_⟩
    · obtain ⟨rfl, rfl⟩ := Prod.mk.inj (Option.some.inj (h.symm.trans hother))
      exact absurd hsender hne
    · obtain rfl := Option.some.inj (hcalls.symm.trans hother)
      have hkept := hspeaks.entries lost hne
      rw [hentry lost (by rw [hsender]; exact hne.symm), if_pos hlost] at hkept
      exact hkept.symm
  · rintro ⟨hnew, hlost⟩
    have hsender : peer.str = packet.sender_id_str := by
      by_contra hne
      have hnone := (hnew peer.str nickname h hne).2
      rw [hcalls] at hnone
      cases hnone
    refine ⟨fun other hne => ?_, fun e he => ?_, fun other hother => ?_⟩
    · rw [hentry other (by rw [hsender]; exact hne.symm)]
      split
      · rename_i hgoes
        exact (hlost peer.str other hcalls hgoes hne).symm
      · rfl
    · rw [new_joins_initiates] at he
      split at he
      · cases he
      · obtain rfl := List.mem_singleton.mp he
        exact hsender
    · rw [hcalls] at hother
      obtain rfl := Option.some.inj hother
      exact hsender

/-- An announcement speaks only for its sender exactly if what it says of
another id is on file already and calls for no handshake, and no handshake that
it calls for takes down a connection with another peer first in line. -/
theorem an_announcement_speaks_for_its_sender_iff [LawfulCrypto] (env : Env) (w : World)
    (packet : BitchatPacket) (raw : Bytes)
    (htype : packet.msg_type = .ANNOUNCE ∨ packet.msg_type = .NOISE_IDENTITY_ANNOUNCE) :
    SpeaksFor packet.sender_id_str (w.node.calls packet) w (exec (handle env packet raw) w).2 ↔
      SaysNothingNew w.node packet ∧ LosesNobody env w.node packet := by
  have hhandled : Handled env packet w (exec (handle env packet raw) w).2 := by
    rcases htype with htype | htype
    · exact handled_announce raw htype
    · exact handled_identity_announce raw htype
  generalize (exec (handle env packet raw) w).2 = w' at hhandled ⊢
  have hquiet (hcalls : w.node.calls packet = none) : LosesNobody env w.node packet := by
    intro peer_id lost hsome
    rw [hcalls] at hsome
    cases hsome
  cases hhandled with
  | nothing h =>
    have hcalls : w.node.calls packet = none := by
      unfold MeshNode.calls
      rw [h]
      split <;> rfl
    refine iff_of_true ⟨fun _ _ => rfl, ?_, by simp [hcalls]⟩ ⟨?_, hquiet hcalls⟩
    · rw [new_joins_eq (List.append_nil _).symm]
      simp
    · intro peer_id nickname hsome
      rw [h] at hsome
      cases hsome
  | learns h hcalls => rw [speaksFor_learns_iff h hcalls, and_iff_left (hquiet hcalls)]
  | @initiates peer_id nickname h hcalls =>
    obtain ⟨peer, rfl⟩ : ∃ peer : PeerId, peer.str = peer_id := by
      rcases htype with htype | htype
      · unfold MeshNode.calls at hcalls
        rw [htype] at hcalls
        cases hcalls
      · unfold MeshNode.announces at h
        rw [htype] at h
        simp only [Option.ite_none_left_eq_some] at h
        exact announced_id h.2
    exact speaksFor_initiates_iff h hcalls

end daemon

/-! ## On the stand-in -/

namespace daemon.standIn

open python bitchat bitchat.protocol

attribute [local instance] bitchat.standIn.packages

/-- `sender` announces `subject` under the nickname `n`. -/
def introduction (sender subject : PeerId) : BitchatPacket where
  msg_type := .NOISE_IDENTITY_ANNOUNCE
  sender_id := sender.bytes
  sender_id_str := sender.str
  recipient_id := none
  recipient_id_str := none
  payload := announcement_layout subject.bytes [] [] (encode ['n']) 0 []
  ttl := 7

/-- The introduction on the wire. -/
def introduction_raw (sender subject : PeerId) : Bytes :=
  layout .NOISE_IDENTITY_ANNOUNCE 7 0 0 sender.bytes [] (introduction sender subject).payload []

/-- A new node takes an announcement of the sender itself. -/
theorem an_introduction_of_oneself_speaks_for_its_sender :
    SpeaksFor them.str ((node us 1).calls (introduction them them)) ⟨node us 1, []⟩
      (exec (handle (env 1) (introduction them them) (introduction_raw them them))
        ⟨node us 1, []⟩).2 := by
  have : LawfulCrypto := bitchat.standIn.lawfulCrypto
  apply (an_announcement_speaks_for_its_sender_iff (env 1) ⟨node us 1, []⟩ (introduction them them)
    (introduction_raw them them) (.inr rfl)).mpr
  constructor
  · intro peer_id nickname hannounces hne
    have hthem : (node us 1).announces (introduction them them) = some (them.str, ['n']) := by
      decide +kernel
    exact absurd (congrArg Prod.fst (Option.some.inj (hannounces.symm.trans hthem))) hne
  · intro peer_id lost _ hlost
    cases hlost

/-- A new node that hears one peer introduce another lists the other, reports
it as joined, and starts a handshake with it. -/
theorem an_introduction_speaks_for_another :
    Reachable ⟨node us 1, []⟩ ∧
      parse_bitchat_packet (introduction_raw them third) = .ok (introduction them third) ∧
      new_joins ⟨node us 1, []⟩
          (exec (handle (env 1) (introduction them third) (introduction_raw them third))
            ⟨node us 1, []⟩).2 = [(third.str, ['n'])] ∧
      (node us 1).calls (introduction them third) = some third.str ∧
      ¬ SpeaksFor them.str ((node us 1).calls (introduction them third)) ⟨node us 1, []⟩
        (exec (handle (env 1) (introduction them third) (introduction_raw them third))
          ⟨node us 1, []⟩).2 := by
  have hcalls : (node us 1).calls (introduction them third) = some third.str := by decide +kernel
  refine ⟨.start us (some ['n']) (.init [1]) (bitchat.standIn.key 1), by decide +kernel,
    by decide +kernel, hcalls, fun h => ?_⟩
  exact absurd (h.calls third.str hcalls) (by decide)

end daemon.standIn
