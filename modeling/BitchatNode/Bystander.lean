-- What a node does with a packet that is meant for somebody else. Four of the
-- handlers pass it on; the others read it as their own or drop it.
import BitchatNode.NewMessages
import BitchatNode.FragmentDispatch

namespace daemon

open python bitchat bitchat.protocol bitchat.encryption

variable [Packages]

/-! ## Passing on -/

/-- The packet names a recipient, which is neither the node nor everyone. -/
structure ForSomebodyElse (n : MeshNode) (packet : BitchatPacket) : Prop where
  named : ∃ recipient, packet.recipient_id = some recipient ∧ recipient ≠ BROADCAST_RECIPIENT
  not_us : packet.recipient_id_str ≠ some n.my_peer_id.str

/-- From `w` to `w'` the node scheduled one relay, of these bytes with their
TTL lowered by one, and neither its sessions nor its handshakes nor its set of
processed messages changed. -/
structure OnlyRelays (raw : Bytes) (ttl : UInt8) (w w' : World) : Prop where
  relays : relays w'.out = relays w.out ++ [with_ttl raw (ttl - 1)]
  sessions : w'.node.encryption_service.sessions = w.node.encryption_service.sessions
  handshakes :
    w'.node.encryption_service.handshake_states = w.node.encryption_service.handshake_states
  processed : w'.node.processed_messages = w.node.processed_messages

/-- The node knows the peer by a session or a handshake in progress. -/
def knows (n : MeshNode) (peer_id : Str) : Bool :=
  n.encryption_service.sessions.has peer_id || n.encryption_service.handshake_states.has peer_id

/-- The handler of the packet's type passes it on and does nothing else. A
message for the all-zero id reads as a message for everyone. -/
def PassesOn (n : MeshNode) (packet : BitchatPacket) : Prop :=
  match packet.msg_type with
  | .MESSAGE => packet.recipient_id ≠ some []
  | .DELIVERY_ACK => True
  | .FRAGMENT_START | .FRAGMENT_CONTINUE | .FRAGMENT_END => packet.payload.length < 13
  | .LEAVE => leaves_channel packet ∨ knows n packet.sender_id_str = false
  | _ => False

/-! ## Relays -/

/-- From `w` to `w'` no relay was scheduled. -/
def SameRelays (w w' : World) : Prop := relays w'.out = relays w.out

instance : IsPreorder World SameRelays where
  refl _ := rfl
  trans _ _ _ h g := Eq.trans g h

theorem sameRelays_of_quiet {α : Type} {x : Mesh α} (h : Moves Quiet x) : Moves SameRelays x :=
  h.mono fun _ _ => Quiet.relays

/-- A call that schedules no relay does not pass on. -/
theorem not_onlyRelays {raw : Bytes} {ttl : UInt8} {w w' : World} (h : SameRelays w w') :
    ¬ OnlyRelays raw ttl w w' := by
  intro honly
  have hlength := congrArg List.length (Eq.trans (Eq.symm h) honly.relays)
  simp at hlength

/-- Scheduling the relay is all that happens. -/
theorem onlyRelays_relay {raw : Bytes} {ttl : UInt8} (h : 1 < ttl) (w : World) :
    OnlyRelays raw ttl w (exec (relay raw ttl) w).2 := by
  rw [exec_relay, if_pos h]
  exact ⟨relays_append w.out _, rfl, rfl, rfl⟩

/-! ## Messages -/

theorem sameRelays_deliver (message : BitchatMessage) (sender_id : Str) (is_private : Bool) :
    Moves SameRelays (deliver message sender_id is_private) := by
  unfold deliver
  refine Moves.bind (moves_node) fun self => ?_
  split
  · exact Moves.throw _
  · refine Moves.bind (fun _ => rfl) fun _ => ?_
    intro w
    exact (relays_append w.out _).trans (List.append_nil _)

theorem calm_sameRelays (env : Env) : Calm env SameRelays :=
  (calm_quiet env).mono fun _ _ => Quiet.relays

/-- An encrypted packet is never passed on. -/
theorem sameRelays_handle_noise_encrypted (env : Env) (packet : BitchatPacket) :
    Moves SameRelays (handle_noise_encrypted env packet) :=
  (calm_sameRelays env).handle_noise_encrypted
    fun message is_private w _ => sameRelays_deliver message _ is_private w

/-- The message id is on record. -/
def Recorded (id : Str) (w : World) : Prop := id ∈ w.node.processed_messages

theorem recorded_acknowledge {id : Str} (env : Env) (message : BitchatMessage) (sender_id : Str)
    (is_private : Bool) :
    Moves (Keeps (Recorded id)) (acknowledge env message sender_id is_private) := by
  intro w h
  unfold Recorded
  rw [((calm_quiet env).acknowledge message sender_id is_private w).processed]
  exact h

theorem recorded_relay (id : Str) (raw : Bytes) (ttl : UInt8) :
    Moves (Keeps (Recorded id)) (relay raw ttl) := by
  intro w h
  rw [exec_relay]
  split <;> exact h

/-- A message for the all-zero id is taken as one for everyone: it is new and
gets recorded, or it goes nowhere. -/
theorem not_onlyRelays_accept_message (env : Env) (packet : BitchatPacket) (raw : Bytes)
    (w : World) :
    ¬ OnlyRelays raw packet.ttl w
      (exec (accept_message env packet raw false packet.payload) w).2 := by
  rcases hmessage : parse_bitchat_message_payload packet.payload with e | message
  · unfold accept_message
    simp only [exec_bind, hmessage, exec_outcome_error]
    exact not_onlyRelays rfl
  · by_cases hold : message.id ∈ w.node.processed_messages
    · rw [exec_accept_old hmessage hold]
      exact not_onlyRelays rfl
    · rcases hbloom : Packages.bloom_add w.node.bloom message.id with _ | bloom
      · rw [exec_accept_full hmessage hold hbloom]
        exact not_onlyRelays rfl
      · -- from here on the id stays recorded
        rw [exec_accept_new hmessage hold hbloom]
        intro honly
        have hrecorded := (recorded_acknowledge env message packet.sender_id_str false).bind
          (fun _ => recorded_relay message.id raw packet.ttl)
          (w.delivered bloom message packet.sender_id_str false) (Finset.mem_insert_self _ _)
        have hprocessed := honly.processed
        rw [Recorded, hprocessed] at hrecorded
        exact hold hrecorded

/-- A message for somebody else is passed on unless its recipient is all zero. -/
theorem handle_message_passes_on_iff (env : Env) {packet : BitchatPacket} (raw : Bytes) {w : World}
    (hfor : ForSomebodyElse w.node packet)
    (hunblocked : is_blocked w.node packet.sender_id_str = false) (httl : 1 < packet.ttl) :
    OnlyRelays raw packet.ttl w (exec (handle_message env packet raw) w).2 ↔
      packet.recipient_id ≠ some [] := by
  obtain ⟨recipient, hrecipient, hne⟩ := hfor.named
  by_cases hnil : recipient = []
  · subst hnil
    have hbroadcast : is_broadcast packet = true := by
      unfold is_broadcast
      rw [hrecipient]
    rw [exec_handle_broadcast hunblocked hbroadcast, hrecipient]
    simp only [ne_eq, not_true_eq_false, iff_false]
    exact not_onlyRelays_accept_message env packet raw w
  · have hbroadcast : is_broadcast packet = false := by
      unfold is_broadcast
      rw [hrecipient]
      rcases recipient with _ | ⟨b, bs⟩
      · exact absurd rfl hnil
      · exact decide_eq_false hne
    unfold handle_message
    simp only [exec_bind, exec_node, hunblocked, Bool.false_eq_true, if_false, hbroadcast,
      hfor.not_us, hrecipient, ne_eq, Option.some.injEq, hnil, not_false_eq_true, iff_true]
    exact onlyRelays_relay httl w

/-! ## The other handlers -/

/-- An ACK for somebody else is passed on. -/
theorem handle_delivery_ack_passes_on {packet : BitchatPacket} (raw : Bytes) {w : World}
    (hfor : ForSomebodyElse w.node packet) (httl : 1 < packet.ttl) :
    OnlyRelays raw packet.ttl w (exec (handle_delivery_ack packet raw) w).2 := by
  have hnot : ¬ (packet.recipient_id_str.getD [] ≠ [] ∧
      packet.recipient_id_str = some w.node.my_peer_id.str) := fun h => hfor.not_us h.2
  unfold handle_delivery_ack
  simp only [exec_bind, exec_node, hnot, if_false]
  exact onlyRelays_relay httl w

/-- A fragment is passed on if it is too short for its header. -/
theorem handle_fragment_passes_on_iff (env : Env) {packet : BitchatPacket} (raw : Bytes) (w : World)
    (httl : 1 < packet.ttl) :
    OnlyRelays raw packet.ttl w (exec (handle_fragment env packet raw) w).2 ↔
      packet.payload.length < 13 := by
  by_cases h : 13 ≤ packet.payload.length
  · rw [exec_handle_fragment env packet raw w h]
    exact ⟨fun honly => absurd honly (not_onlyRelays rfl), fun hlt => absurd h (by omega)⟩
  · rw [exec_handle_fragment_short env packet raw w h]
    exact ⟨fun _ => by omega, fun _ => onlyRelays_relay httl w⟩

/-- What `_remove_peer` leaves of the sessions and the handshakes. -/
theorem service_remove_peer (peer_id : Str) (w : World) :
    (exec (remove_peer peer_id) w).2.node.encryption_service =
      EncryptionService.remove_session peer_id w.node.encryption_service := by
  unfold remove_peer
  simp only [exec_bind, exec_node, exec_modifyNode, exec_ite, exec_emit, exec_pure]
  split <;> rfl

/-- A leave is passed on; it also ends what the node had with the sender, unless
it is about a channel. -/
theorem handle_leave_passes_on_iff {packet : BitchatPacket} (raw : Bytes) (w : World)
    (httl : 1 < packet.ttl) :
    OnlyRelays raw packet.ttl w (exec (handle_leave packet raw) w).2 ↔
      leaves_channel packet ∨ knows w.node packet.sender_id_str = false := by
  unfold handle_leave take_leave
  by_cases hchannel : leaves_channel packet
  · simp only [exec_bind, hchannel, if_true, exec_pure, true_or, iff_true]
    exact onlyRelays_relay httl w
  · have hservice := service_remove_peer packet.sender_id_str w
    have hquiet := quiet_remove_peer packet.sender_id_str w
    have hreturns := remove_peer_returns packet.sender_id_str w
    rcases hremove : exec (remove_peer packet.sender_id_str) w with ⟨result, w'⟩
    rw [hremove] at hservice hquiet hreturns
    subst hreturns
    dsimp only at hservice hquiet
    simp only [exec_bind, hchannel, Bool.false_eq_true, if_false, hremove, false_or, exec_relay,
      if_pos httl]
    constructor
    · intro honly
      have hsessions := honly.sessions
      have hhandshakes := honly.handshakes
      dsimp only at hsessions hhandshakes
      rw [hservice] at hsessions hhandshakes
      unfold EncryptionService.remove_session at hsessions hhandshakes
      rw [Dict.pop_eq_self_iff] at hsessions hhandshakes
      simp only [knows, hsessions, hhandshakes, Bool.or_self]
    · intro hknows
      unfold knows at hknows
      rw [Bool.or_eq_false_iff] at hknows
      refine ⟨?_, ?_, ?_, hquiet.processed⟩
      · rw [relays_append, hquiet.relays]
        rfl
      · simp only [hservice, EncryptionService.remove_session, Dict.pop_eq_self_iff, hknows.1]
      · simp only [hservice, EncryptionService.remove_session, Dict.pop_eq_self_iff, hknows.2]

/-! ## All types -/

theorem handle_passes_on_iff (env : Env) {packet : BitchatPacket} (raw : Bytes) {w : World}
    (hfor : ForSomebodyElse w.node packet)
    (hunblocked : is_blocked w.node packet.sender_id_str = false) (httl : 1 < packet.ttl) :
    OnlyRelays raw packet.ttl w (exec (handle env packet raw) w).2 ↔ PassesOn w.node packet := by
  have hnever {x : Mesh Unit} (h : Moves SameRelays x) :
      OnlyRelays raw packet.ttl w (exec x w).2 ↔ False := iff_of_false (not_onlyRelays (h w)) id
  have hquiet {x : Mesh Unit} (h : Moves Quiet x) :
      OnlyRelays raw packet.ttl w (exec x w).2 ↔ False := hnever (sameRelays_of_quiet h)
  unfold handle handler PassesOn
  cases packet.msg_type with
  | MESSAGE => exact handle_message_passes_on_iff env raw hfor hunblocked httl
  | DELIVERY_ACK => exact iff_of_true (handle_delivery_ack_passes_on raw hfor httl) trivial
  | FRAGMENT_START | FRAGMENT_CONTINUE | FRAGMENT_END =>
    exact handle_fragment_passes_on_iff env raw w httl
  | LEAVE => exact handle_leave_passes_on_iff raw w httl
  | NOISE_ENCRYPTED => exact hnever (sameRelays_handle_noise_encrypted env packet)
  | ANNOUNCE => exact hquiet (quiet_announced _ _)
  | KEY_EXCHANGE => exact hquiet ((calm_quiet env).handle_key_exchange packet)
  | CHANNEL_ANNOUNCE => exact hquiet ((calm_quiet env).handle_channel_announce packet)
  | NOISE_HANDSHAKE_INIT | NOISE_HANDSHAKE_RESP =>
    exact hquiet ((calm_quiet env).handle_noise_handshake _ packet)
  | NOISE_IDENTITY_ANNOUNCE => exact hquiet ((calm_quiet env).handle_noise_identity_announce
      quiet_announced packet)
  | _ => exact hquiet (Moves.pure ())

/-- In every state of every run, a node only relays a packet for somebody else
exactly if the packet came from another node and the handler of its type passes
it on. -/
theorem a_bystander_only_relays_iff_the_handler_passes_on (env : Env) (conn : PeerConnection)
    (raw : Bytes) (packet : BitchatPacket) (hparse : parse_bitchat_packet raw = .ok packet)
    (httl : 1 < packet.ttl) (w : World) :
    Reachable w → ForSomebodyElse w.node packet → is_blocked w.node packet.sender_id_str = false →
      (OnlyRelays raw packet.ttl w (exec (react env (.packet conn raw)) w).2 ↔
        packet.sender_id_str ≠ w.node.my_peer_id.str ∧ PassesOn w.node packet) := by
  intro _ hfor hunblocked
  unfold react
  by_cases hown : packet.sender_id_str = w.node.my_peer_id.str
  · have hexec : exec (on_packet_received env conn raw) w = (.ok (), w) := by
      unfold on_packet_received
      simp only [exec_bind, exec_node, hparse, hown, if_true, exec_pure]
    rw [hexec]
    exact iff_of_false (not_onlyRelays rfl) fun h => h.1 hown
  · rw [exec_on_packet_received hparse hown]
    have hheard : ForSomebodyElse (w.heard packet.sender_id_str conn.address).node packet :=
      ⟨hfor.named, hfor.not_us⟩
    have hiff := handle_passes_on_iff env raw hheard hunblocked httl
    constructor
    · intro h
      exact ⟨hown, hiff.mp ⟨h.relays, h.sessions, h.handshakes, h.processed⟩⟩
    · rintro ⟨-, h⟩
      obtain ⟨hrelays, hsessions, hhandshakes, hprocessed⟩ := hiff.mpr h
      exact ⟨hrelays, hsessions, hhandshakes, hprocessed⟩

end daemon

/-! ## On the stand-in -/

namespace daemon.standIn

open python bitchat bitchat.protocol

attribute [local instance] bitchat.standIn.packages

def third_party : PeerId := ⟨[9, 9, 9, 9, 9, 9, 9, 9], PeerId.length_nines⟩

/-- A packet from a peer to a third party. -/
def passing (msg_type : MessageType) : Bytes :=
  layout msg_type 7 0 FLAG_HAS_RECIPIENT them.bytes third_party.bytes [1, 2, 3] []

def passing_packet (msg_type : MessageType) : BitchatPacket :=
  received them (some third_party) msg_type [1, 2, 3] 7

theorem parse_passing (msg_type : MessageType) :
    parse_bitchat_packet (passing msg_type) = .ok (passing_packet msg_type) :=
  parse_layout msg_type 7 0 FLAG_HAS_RECIPIENT them.bytes third_party.bytes [1, 2, 3] [] rfl rfl rfl
    (by decide)

theorem passing_for_third_party (msg_type : MessageType) :
    ForSomebodyElse (after 0).node (passing_packet msg_type) :=
  ⟨⟨_, rfl, by decide⟩, (by decide : some (hex (rstripZero third_party.bytes)) ≠ some us.str)⟩

end daemon.standIn

namespace daemon

open python bitchat bitchat.protocol

attribute [local instance] bitchat.standIn.packages

/-- A private message in the old form goes through. -/
theorem a_message_for_a_third_party_is_only_relayed :
    OnlyRelays (standIn.passing .MESSAGE) 7 (standIn.after 0)
        (exec (react (standIn.env 1) (.packet standIn.conn (standIn.passing .MESSAGE)))
          (standIn.after 0)).2 ↔
      (standIn.passing_packet .MESSAGE).sender_id_str ≠ (standIn.after 0).node.my_peer_id.str ∧
        PassesOn (standIn.after 0).node (standIn.passing_packet .MESSAGE) :=
  a_bystander_only_relays_iff_the_handler_passes_on (standIn.env 1) standIn.conn
    (standIn.passing .MESSAGE) (standIn.passing_packet .MESSAGE) (standIn.parse_passing .MESSAGE)
    (by decide) (standIn.after 0) (standIn.reachable_after 0)
    (standIn.passing_for_third_party .MESSAGE) rfl

/-- An encrypted message for a third party ends at the first node. -/
theorem an_encrypted_message_for_a_third_party_is_dropped :
    Reachable (standIn.after 0) ∧
      parse_bitchat_packet (standIn.passing .NOISE_ENCRYPTED) =
        .ok (standIn.passing_packet .NOISE_ENCRYPTED) ∧
      1 < (standIn.passing_packet .NOISE_ENCRYPTED).ttl ∧
      ForSomebodyElse (standIn.after 0).node (standIn.passing_packet .NOISE_ENCRYPTED) ∧
      is_blocked (standIn.after 0).node (standIn.passing_packet .NOISE_ENCRYPTED).sender_id_str =
        false ∧
      ¬ OnlyRelays (standIn.passing .NOISE_ENCRYPTED) 7 (standIn.after 0)
        (exec (react (standIn.env 1) (.packet standIn.conn (standIn.passing .NOISE_ENCRYPTED)))
          (standIn.after 0)).2 := by
  have hown : (standIn.passing_packet .NOISE_ENCRYPTED).sender_id_str ≠
      (standIn.after 0).node.my_peer_id.str := by decide
  refine ⟨standIn.reachable_after 0, standIn.parse_passing _, by decide,
    standIn.passing_for_third_party _, rfl, ?_⟩
  unfold react
  rw [exec_on_packet_received (standIn.parse_passing _) hown]
  exact not_onlyRelays (sameRelays_handle_noise_encrypted (standIn.env 1) _ _)

end daemon
