-- The JSON form of an identity announcement. It is read where the binary
-- parser raises, and the binary parser never raises: what it cannot read it
-- answers with `None`, and there the handler stops.
import BitchatNode.Announcements
import BitchatNode.Python.Json

namespace daemon

open python bitchat bitchat.protocol bitchat.encryption

variable [Packages]

/-! ## The two forms -/

/-- The binary form of an identity announcement. -/
structure IsBinaryForm (packet : BitchatPacket) (peer_id nickname : Str) : Prop where
  type : packet.msg_type = .NOISE_IDENTITY_ANNOUNCE
  reads : ∃ announcement, parse_noise_identity_announcement_binary packet.payload =
    .ok (some announcement) ∧ announcement.peerID = peer_id ∧ announcement.nickname = nickname

/-- The JSON form: text of an object with the two fields, and no binary form. -/
structure IsJsonForm (packet : BitchatPacket) (peer_id nickname : Str) : Prop where
  type : packet.msg_type = .NOISE_IDENTITY_ANNOUNCE
  reads : ∃ text data, decode packet.payload = some text ∧
    Packages.json_loads (encode text) = some data ∧
    (json_item data "peerID").bind Packages.json_str = some peer_id ∧
    (json_item data "nickname").bind Packages.json_str = some nickname
  not_binary : ∀ announcement,
    parse_noise_identity_announcement_binary packet.payload ≠ .ok (some announcement)

/-! ## What an identity announcement is for -/

/-- The peer with which the tie-breaker starts a handshake. -/
def MeshNode.starts (self : MeshNode) (peer_id : Str) : Option Str :=
  if self.my_peer_id.str < peer_id ∧ ¬ self.encryption_service.is_session_established peer_id then
    some peer_id
  else none

/-- `_handle_noise_identity_announce`, once the announcement is read. -/
def identity_announced (env : Env) (peer_id nickname : Str) : Mesh Unit := do
  let self ← node
  announced peer_id nickname
  if self.my_peer_id.str < peer_id ∧ ¬ self.encryption_service.is_session_established peer_id then
    initiate_handshake env peer_id
  else pure ()

/-- The packet does to the node what the announcement of the peer under the
nickname is for. -/
structure Announces (env : Env) (w : World) (packet : BitchatPacket) (raw : Bytes)
    (peer_id nickname : Str) : Prop where
  state : (exec (handle env packet raw) w).2 = (exec (identity_announced env peer_id nickname) w).2
  calls : w.node.calls packet = w.node.starts peer_id

theorem calls_eq {self : MeshNode} {packet : BitchatPacket}
    (htype : packet.msg_type = .NOISE_IDENTITY_ANNOUNCE)
    (hother : packet.sender_id_str ≠ self.my_peer_id.str) :
    self.calls packet = ((announcement_of packet).map Prod.fst).bind self.starts := by
  unfold MeshNode.calls MeshNode.announces MeshNode.starts
  rw [htype]
  simp only [if_neg hother]
  cases announcement_of packet with
  | none => rfl
  | some announcement => simp [Option.filter]

theorem announcement_of_binary {packet : BitchatPacket} {peer_id nickname : Str}
    (h : IsBinaryForm packet peer_id nickname) :
    announcement_of packet = some (peer_id, nickname) := by
  obtain ⟨announcement, hparse, rfl, rfl⟩ := h.reads
  unfold announcement_of
  rw [hparse]
  rfl

/-- The binary parser has its own answer for what it cannot read. -/
theorem announcement_of_json {packet : BitchatPacket} {peer_id nickname : Str}
    (h : IsJsonForm packet peer_id nickname) : announcement_of packet = none := by
  have hnone : parse_noise_identity_announcement_binary packet.payload = .ok none := by
    have hparse := parse_announcement_eq packet.payload
    rcases hread : parse_announcement_at packet.payload with _ | announcement
    · rw [hparse, hread]
      rfl
    · rw [hread] at hparse
      exact absurd hparse (h.not_binary _)
  unfold announcement_of
  rw [hnone]
  rfl

theorem exec_handle_announcement (env : Env) {packet : BitchatPacket} (raw : Bytes) {w : World}
    (htype : packet.msg_type = .NOISE_IDENTITY_ANNOUNCE)
    (hother : packet.sender_id_str ≠ w.node.my_peer_id.str) :
    exec (handle env packet raw) w =
      match announcement_of packet with
      | none => (.ok (), w)
      | some (peer_id, nickname) => exec (identity_announced env peer_id nickname) w := by
  have hhandle : handle env packet raw = handle_noise_identity_announce env packet :=
    handle_of_handler (by rw [handler, htype])
  rw [hhandle]
  unfold handle_noise_identity_announce identity_announced
  rw [exec_bind_ok _ (exec_node w), if_neg hother]
  rcases announcement_of packet with _ | ⟨peer_id, nickname⟩
  · rfl
  · dsimp only
    rw [exec_bind_ok _ (exec_node w)]

/-- A binary announcement does what it is for. -/
theorem announces_binary (env : Env) {packet : BitchatPacket} (raw : Bytes) {w : World}
    {peer_id nickname : Str} (h : IsBinaryForm packet peer_id nickname)
    (hother : packet.sender_id_str ≠ w.node.my_peer_id.str) :
    Announces env w packet raw peer_id nickname where
  state := by rw [exec_handle_announcement env raw h.type hother, announcement_of_binary h]
  calls := by
    rw [calls_eq h.type hother, announcement_of_binary h, Option.map_some, Option.bind_some]

/-- An announcement changes nothing if and only if the peer is on file under
the nickname. -/
theorem announced_changes_nothing_iff (peer_id nickname : Str) (w : World) :
    (exec (announced peer_id nickname) w).2 = w ↔
      w.node.peers.get? peer_id = some ⟨some nickname⟩ := by
  constructor
  · intro hsame
    have hpeers := (exec_announced peer_id nickname w).2
    rw [hsame] at hpeers
    rw [hpeers]
    simp
  · intro hpeer
    have hset := Dict.set_eq_self hpeer
    have hhas : w.node.peers.has peer_id = true := by
      unfold Dict.has
      rw [hpeer]
      rfl
    unfold announced
    simp only [exec_bind, exec_node, exec_modifyNode, hhas, hset]
    rfl

/-- The binary form of an announcement does to the node what the announcement
is for, and the JSON form does so exactly if there is nothing to do: the peer
has the nickname already, and the tie-breaker starts no handshake with it. -/
theorem a_json_announcement_is_accepted_iff (env : Env) (w : World) (packet : BitchatPacket)
    (raw : Bytes) (peer_id nickname : Str) (h : IsJsonForm packet peer_id nickname)
    (hother : packet.sender_id_str ≠ w.node.my_peer_id.str) :
    (∀ twin twin_raw, IsBinaryForm twin peer_id nickname →
      twin.sender_id_str = packet.sender_id_str →
        Announces env w twin twin_raw peer_id nickname) ∧
      (Announces env w packet raw peer_id nickname ↔
        w.node.peers.get? peer_id = some ⟨some nickname⟩ ∧ w.node.starts peer_id = none) := by
  refine ⟨fun twin twin_raw htwin hsender => ?_, ?_⟩
  · exact announces_binary env twin_raw htwin (by rwa [hsender])
  have hstate : (exec (handle env packet raw) w).2 = w := by
    rw [exec_handle_announcement env raw h.type hother, announcement_of_json h]
  have hcalls : w.node.calls packet = none := by
    rw [calls_eq h.type hother, announcement_of_json h]
    rfl
  have hquiet (hstarts : w.node.starts peer_id = none) :
      (exec (identity_announced env peer_id nickname) w).2 =
        (exec (announced peer_id nickname) w).2 := by
    unfold MeshNode.starts at hstarts
    simp only [ite_eq_right_iff, reduceCtorEq, imp_false] at hstarts
    unfold identity_announced
    rcases hdone : exec (announced peer_id nickname) w with ⟨result, w'⟩
    have hok := (exec_announced peer_id nickname w).1
    rw [hdone] at hok
    subst hok
    rw [exec_bind_ok _ (exec_node w), exec_bind_ok _ hdone, if_neg hstarts]
    rfl
  constructor
  · intro hannounces
    have hstarts := hannounces.calls.symm.trans hcalls
    refine ⟨(announced_changes_nothing_iff peer_id nickname w).mp ?_, hstarts⟩
    rw [← hquiet hstarts, ← hannounces.state, hstate]
  · rintro ⟨hpeer, hstarts⟩
    refine ⟨?_, hcalls.trans hstarts.symm⟩
    rw [hstate, hquiet hstarts, (announced_changes_nothing_iff peer_id nickname w).mpr hpeer]

end daemon

/-! ## A JSON announcement -/

namespace daemon.standIn

open python python.json bitchat bitchat.protocol

/-- The stand-in packages, with `json` as it is. -/
@[reducible] def packages_with_json : Packages :=
  { bitchat.standIn.packages with
    JsonValue := Json
    json_loads := fun data => (decode data).bind loads
    json_get := fun value key =>
      match value with
      | .dict fields => some ((Dict.ofList fields).get? key)
      | _ => none
    json_str := Json.str? }

attribute [local instance] packages_with_json

/-- A node that has heard nothing yet, and one that knows the other. -/
def listener : World := ⟨.init us (some ['n']) (.init [1]) (bitchat.standIn.key 1), []⟩

def knows_listener : World :=
  ⟨{ MeshNode.init third (some ['n']) (.init [1]) (bitchat.standIn.key 1) with
    peers := .set .empty us.str ⟨some ['n']⟩ }, []⟩

def quiet_env : Env := ⟨fun _ => bitchat.standIn.draw 1, fun _ => false⟩

/-- What announces the peer under the nickname `n`, in JSON. -/
def json_subject (subject : PeerId) : Json :=
  .dict [("peerID".toList, .str subject.str), ("nickname".toList, .str ['n'])]

def json_introduction (sender subject : PeerId) : BitchatPacket :=
  { introduction sender subject with payload := encode (dump 0 (json_subject subject)) }

/-- The first byte after the eight of the peer id counts more than there is. -/
theorem json_introduction_isJsonForm {sender subject : PeerId}
    (h : parse_announcement_at (json_introduction sender subject).payload = none) :
    IsJsonForm (json_introduction sender subject) subject.str ['n'] where
  type := rfl
  reads := by
    refine ⟨dump 0 (json_subject subject), json_subject subject, decode_encode _, ?_, rfl, rfl⟩
    show (decode (encode _)).bind loads = _
    rw [decode_encode, Option.bind_some, loads_dump]
  not_binary := by
    intro announcement hbinary
    rw [parse_announcement_eq, h] at hbinary
    cases hbinary

/-- The packet on the wire. -/
def json_raw (sender subject : PeerId) : Bytes :=
  layout .NOISE_IDENTITY_ANNOUNCE 7 0 0 sender.bytes []
    (json_introduction sender subject).payload []

/-- A node of a higher peer id has nothing to do for a peer that it knows. -/
theorem a_json_announcement_of_a_known_peer_is_accepted :
    Announces quiet_env knows_listener (json_introduction us us) (json_raw us us) us.str ['n'] :=
  (a_json_announcement_is_accepted_iff quiet_env knows_listener (json_introduction us us)
    (json_raw us us) us.str ['n'] (json_introduction_isJsonForm (by decide +kernel))
    (by decide +kernel)).2.mpr ⟨rfl, by decide +kernel⟩

/-- A new node that hears a peer announce itself in JSON does nothing. The
binary form makes it list the peer and start a handshake with it. -/
theorem a_json_announcement_is_not_accepted :
    parse_bitchat_packet (json_raw them them) = .ok (json_introduction them them) ∧
      IsJsonForm (json_introduction them them) them.str ['n'] ∧
      IsBinaryForm (introduction them them) them.str ['n'] ∧
      (exec (handle quiet_env (json_introduction them them) (json_raw them them)) listener).2 =
        listener ∧
      ((exec (handle quiet_env (introduction them them) (introduction_raw them them))
        listener).2.node.peers.get? them.str).map Peer.nickname = some (some ['n']) ∧
      listener.node.calls (introduction them them) = some them.str ∧
      ¬ Announces quiet_env listener (json_introduction them them) (json_raw them them) them.str
        ['n'] := by
  have hjson : IsJsonForm (json_introduction them them) them.str ['n'] :=
    json_introduction_isJsonForm (by decide +kernel)
  have hother : (json_introduction them them).sender_id_str ≠ listener.node.my_peer_id.str := by
    decide +kernel
  have hcalls : listener.node.calls (json_introduction them them) = none := by
    rw [calls_eq hjson.type hother, announcement_of_json hjson]
    rfl
  have hbinary : IsBinaryForm (introduction them them) them.str ['n'] :=
    ⟨rfl, parse_announcement_layout them 0 (by decide) (by decide) (by decide) (by decide)⟩
  refine ⟨by decide +kernel, hjson, hbinary, ?_, by decide +kernel, by decide +kernel, ?_⟩
  · rw [exec_handle_announcement quiet_env _ hjson.type hother, announcement_of_json hjson]
  · intro h
    have hstarts : listener.node.starts them.str = some them.str := by decide +kernel
    rw [h.calls, hstarts] at hcalls
    cases hcalls

end daemon.standIn
