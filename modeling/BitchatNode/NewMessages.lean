-- A broadcast message that a node has not seen: it is counted by the Bloom
-- filter, recorded, delivered, acknowledged if an ACK is due, and relayed, in
-- this order and under one `except` that drops whatever is raised.
import BitchatNode.Sending
import BitchatNode.MessageCodec
import BitchatNode.Runs
import Mathlib.Data.Finset.Card

namespace daemon

open python bitchat bitchat.protocol bitchat.encryption

variable [Packages]

/-! ## The steps in their order -/

/-- The world once the address of the sender is noted. -/
def World.heard (w : World) (sender_id address : Str) : World :=
  { w with
    node := { w.node with peer_addresses := w.node.peer_addresses.set sender_id address } }

/-- A packet of another node goes to its handler. -/
theorem exec_on_packet_received {env : Env} {conn : PeerConnection} {raw : Bytes}
    {packet : BitchatPacket} {w : World} (hparse : parse_bitchat_packet raw = .ok packet)
    (hother : packet.sender_id_str ≠ w.node.my_peer_id.str) :
    exec (on_packet_received env conn raw) w = (.ok (),
      (exec (handle env packet raw) (w.heard packet.sender_id_str conn.address)).2) := by
  unfold on_packet_received
  simp only [exec_bind, exec_node, hparse, hother, if_false, exec_modifyNode, exec_suppress]
  rfl

/-- The world once a new message is delivered. -/
def World.delivered (w : World) (bloom : Packages.BloomFilter) (message : BitchatMessage)
    (sender_id : Str) (is_private : Bool) : World where
  node := { w.node with
    bloom
    processed_messages := insert message.id w.node.processed_messages }
  out := w.out ++ [.on_message message sender_id is_private]

theorem exec_relay (raw : Bytes) (ttl : UInt8) (w : World) :
    exec (relay raw ttl) w =
      (.ok (), if 1 < ttl then { w with out := w.out ++ [.later (.relay raw ttl)] } else w) := by
  unfold relay
  by_cases h : 1 < ttl
  · rw [if_neg (UInt8.not_le.mpr h), if_pos h, exec_emit]
  · rw [if_pos (UInt8.not_lt.mp h), if_neg h, exec_pure]

section

variable {env : Env} {packet : BitchatPacket} {raw payload : Bytes} {is_private : Bool}
  {message : BitchatMessage} {w : World}

/-- A message that was processed before is dropped. -/
theorem exec_accept_old (hmessage : parse_bitchat_message_payload payload = .ok message)
    (hold : message.id ∈ w.node.processed_messages) :
    exec (accept_message env packet raw is_private payload) w = (.ok (), w) := by
  unfold accept_message
  simp only [exec_bind, hmessage, exec_outcome_ok, exec_node, hold, if_true, exec_pure]

/-- So is a new one, if the filter is full. -/
theorem exec_accept_full (hmessage : parse_bitchat_message_payload payload = .ok message)
    (hnew : message.id ∉ w.node.processed_messages)
    (hbloom : Packages.bloom_add w.node.bloom message.id = none) :
    exec (accept_message env packet raw is_private payload) w = (.error .IndexError, w) := by
  unfold accept_message deliver
  simp only [exec_bind, hmessage, exec_outcome_ok, exec_node, hnew, if_false, hbloom,
    exec_throw]

/-- Otherwise it is delivered, and then acknowledged and relayed. -/
theorem exec_accept_new {bloom : Packages.BloomFilter}
    (hmessage : parse_bitchat_message_payload payload = .ok message)
    (hnew : message.id ∉ w.node.processed_messages)
    (hbloom : Packages.bloom_add w.node.bloom message.id = some bloom) :
    exec (accept_message env packet raw is_private payload) w =
      exec (do
        acknowledge env message packet.sender_id_str is_private
        relay raw packet.ttl)
        (w.delivered bloom message packet.sender_id_str is_private) := by
  unfold accept_message deliver
  simp only [exec_bind, hmessage, exec_outcome_ok, exec_node, hnew, if_false, hbloom,
    exec_modifyNode, exec_emit]
  rfl

end

/-! ## The filter counts no more than was recorded -/

/-- The filter was made for 5000 keys, and it has counted no more than the
messages on record. -/
structure Counted (w : World) : Prop where
  capacity : Packages.bloom_capacity w.node.bloom = 5000
  count : Packages.bloom_count w.node.bloom ≤ w.node.processed_messages.card

theorem Quiet.counted {w w' : World} (h : Quiet w w') : Keeps Counted w w' := by
  rintro ⟨hcapacity, hcount⟩
  refine ⟨?_, ?_⟩
  · rw [h.bloom, hcapacity]
  · rw [h.bloom, h.processed]
    exact hcount

theorem counted_relay (raw : Bytes) (ttl : UInt8) : Moves (Keeps Counted) (relay raw ttl) := by
  intro w
  rw [exec_relay]
  split
  · exact fun h => ⟨h.capacity, h.count⟩
  · exact fun h => h

section

variable [LawfulBloom]

/-- A new message is counted once at most, and recorded. -/
theorem counted_deliver (message : BitchatMessage) (sender_id : Str) (is_private : Bool) (w : World)
    (hnew : message.id ∉ w.node.processed_messages) :
    Keeps Counted w (exec (deliver message sender_id is_private) w).2 := by
  rintro ⟨hcapacity, hcount⟩
  unfold deliver
  rcases hbloom : Packages.bloom_add w.node.bloom message.id with _ | bloom
  · simp only [exec_bind, exec_node, hbloom, exec_throw]
    exact ⟨hcapacity, hcount⟩
  · simp only [exec_bind, exec_node, hbloom, exec_modifyNode, exec_emit]
    refine ⟨(LawfulBloom.capacity_add hbloom).trans hcapacity, ?_⟩
    rw [Finset.card_insert_of_notMem hnew]
    exact (LawfulBloom.count_add_le hbloom).trans (Nat.succ_le_succ hcount)

theorem counted_react (env : Env) (event : Event) : Moves (Keeps Counted) (react env event) :=
  moves_react (fun _ _ => Quiet.counted) counted_relay counted_deliver env event

/-- In every run the filter counts no more than was recorded. -/
theorem Reachable.counted {w : World} (h : Reachable w) : Counted w := by
  induction h with
  | start my_peer_id config_nickname app_state static_identity_key =>
    refine ⟨LawfulBloom.capacity_make 5000, ?_⟩
    exact (LawfulBloom.count_make 5000).le.trans (Nat.zero_le _)
  | step h env event hdue ih => exact counted_react env event _ ih

end

/-! ## The ACK of a broadcast message -/

/-- An ACK is due that was not sent before. -/
def AckDue (self : MeshNode) (message : BitchatMessage) : Prop :=
  should_send_ack false message.channel none self.nickname self.peers.size = true ∧
    ack_id self message.id ∉ self.delivery_tracker.sent_acks

/-- No exception comes from the ACK: if one is due, its JSON text fits a
packet, and if there is a connection to the sender, the packet fits a frame
and the write works. -/
def AckPasses (env : Env) (self : MeshNode) (message : BitchatMessage) (sender_id : Str) : Prop :=
  AckDue self message → (ack_payload self message.id (env.draw 0)).length ≤ 65535 ∧
    ∀ conn, self.get_conn_for_peer sender_id = some conn →
      (ack_payload self message.id (env.draw 0)).length + 30 ≤ 65535 ∧
        env.write_fails conn.address = false

theorem send_delivery_ack_returns_iff (env : Env) (message_id : Str) (sender_id : Bytes)
    (w : World) :
    (exec (send_delivery_ack env message_id (hex sender_id) false) w).1 = .ok () ↔
      (ack_id w.node message_id ∉ w.node.delivery_tracker.sent_acks →
        (ack_payload w.node message_id (env.draw 0)).length ≤ 65535 ∧
        ∀ conn, w.node.get_conn_for_peer (hex sender_id) = some conn →
          (ack_payload w.node message_id (env.draw 0)).length + 30 ≤ 65535 ∧
            env.write_fails conn.address = false) := by
  unfold send_delivery_ack
  simp only [exec_bind, exec_node]
  by_cases hsent : ack_id w.node message_id ∈ w.node.delivery_tracker.sent_acks
  · simp [DeliveryTracker.should_send_ack, hsent]
  · simp only [DeliveryTracker.should_send_ack, hsent, if_false, if_true, exec_bind,
      exec_modifyNode,
      seal_ack, Bool.false_eq_true, exec_pure, not_false_eq_true, true_implies]
    rw [create_answer _ _ _ _ _ _ (by decide)]
    by_cases hlen : (ack_payload w.node message_id (env.draw 0)).length ≤ 65535
    · obtain ⟨raw, hraw, his⟩ := create_ok w.node.my_peer_id (PeerId.ofRead sender_id) .DELIVERY_ACK
        (ack_payload w.node message_id (env.draw 0)) none (env.draw 1) (by omega)
      have hfits := his.fits
      have hsize : bare_length .DELIVERY_ACK (PeerId.ofRead sender_id)
          (ack_payload w.node message_id (env.draw 0)) none =
            (ack_payload w.node message_id (env.draw 0)).length + 30 := by
        unfold bare_length
        rw [length_recipient_field, if_pos (Or.inr (by decide))]
        simp only [Option.getD_none, List.length_nil]
        omega
      rw [hsize] at hfits
      simp only [hraw, exec_outcome_ok, send_to_peer_returns_iff, with_ttl, List.length_set, hfits,
        hlen, true_and]
      rfl
    · rw [create_too_long _ _ _ _ _ _ (by omega)]
      simp [hlen]

theorem acknowledge_returns_iff (env : Env) (message : BitchatMessage) (sender_id : Bytes)
    (w : World) :
    (exec (acknowledge env message (hex sender_id) false) w).1 = .ok () ↔
      AckPasses env w.node message (hex sender_id) := by
  unfold acknowledge AckPasses AckDue
  simp only [exec_bind, exec_node]
  by_cases hdue : should_send_ack false message.channel none w.node.nickname w.node.peers.size
  · rw [if_pos hdue, send_delivery_ack_returns_iff]
    simp only [hdue, true_and]
  · rw [if_neg hdue]
    simp [hdue]

/-- Where no ACK is due, nothing happens. -/
theorem exec_acknowledge_not_due {message : BitchatMessage} {w : World}
    (h : ¬ AckDue w.node message) (env : Env) (sender_id : Str) :
    exec (acknowledge env message sender_id false) w = (.ok (), w) := by
  unfold AckDue at h
  unfold acknowledge
  simp only [exec_bind, exec_node, exec_ite, exec_pure]
  split
  · rename_i hasked
    have hsent : ack_id w.node message.id ∈ w.node.delivery_tracker.sent_acks := by
      by_contra hnew
      exact h ⟨hasked, hnew⟩
    unfold send_delivery_ack
    simp [DeliveryTracker.should_send_ack, hsent]
  · rfl

/-- A broadcast message without a channel asks for no ACK. -/
theorem exec_acknowledge_none {message : BitchatMessage} (h : message.channel = none) (env : Env)
    (sender_id : Str) (w : World) :
    exec (acknowledge env message sender_id false) w = (.ok (), w) := by
  refine exec_acknowledge_not_due (fun hdue => ?_) env sender_id
  have hasked := hdue.1
  simp [h, should_send_ack] at hasked

/-! ## One new message -/

/-- From `w` to `w'` the message was delivered once, its id was recorded, and
the packet was relayed exactly if its TTL is above 1. -/
structure HandledOnce (message : BitchatMessage) (packet : BitchatPacket) (raw : Bytes)
    (w w' : World) : Prop where
  delivered : deliveries w'.out = deliveries w.out ++ [(message, packet.sender_id_str, false)]
  recorded : message.id ∈ w'.node.processed_messages
  relayed : relays w'.out =
    relays w.out ++ if 1 < packet.ttl then [with_ttl raw (packet.ttl - 1)] else []

/-- The handler of a broadcast message comes down to `accept_message`. -/
theorem exec_handle_broadcast {env : Env} {packet : BitchatPacket} {raw : Bytes} {w : World}
    (hunblocked : is_blocked w.node packet.sender_id_str = false)
    (hbroadcast : is_broadcast packet = true) :
    exec (handle_message env packet raw) w =
      (.ok (), (exec (accept_message env packet raw false packet.payload) w).2) := by
  unfold handle_message
  simp only [exec_bind, exec_node, hunblocked, Bool.false_eq_true, if_false, hbroadcast, if_true,
    exec_suppress]

theorem handledOnce_iff [LawfulBloom] (env : Env)
    (packet : BitchatPacket) (raw : Bytes) (w : World) (message : BitchatMessage)
    (hparse : parse_bitchat_packet raw = .ok packet)
    (hbroadcast : is_broadcast packet = true)
    (hunblocked : is_blocked w.node packet.sender_id_str = false)
    (hmessage : parse_bitchat_message_payload packet.payload = .ok message)
    (hnew : message.id ∉ w.node.processed_messages) :
    HandledOnce message packet raw w (exec (handle_message env packet raw) w).2 ↔
      Packages.bloom_count w.node.bloom ≤ Packages.bloom_capacity w.node.bloom ∧
        (1 < packet.ttl → AckPasses env w.node message packet.sender_id_str) := by
  rw [exec_handle_broadcast hunblocked hbroadcast]
  have hroom := LawfulBloom.add_eq_none_iff w.node.bloom message.id
  rcases hbloom : Packages.bloom_add w.node.bloom message.id with _ | bloom
  · -- the filter is full: the message is lost
    have hfull := hroom.mp hbloom
    rw [exec_accept_full hmessage hnew hbloom]
    constructor
    · intro h
      exact absurd h.recorded hnew
    · rintro ⟨hle, -⟩
      omega
  · have hle : Packages.bloom_count w.node.bloom ≤ Packages.bloom_capacity w.node.bloom := by
      by_contra h
      rw [hroom.mpr (by omega)] at hbloom
      cases hbloom
    rw [exec_accept_new hmessage hnew hbloom]
    simp only [hle, true_and]
    have hquiet := (calm_quiet env).acknowledge message packet.sender_id_str false
      (w.delivered bloom message packet.sender_id_str false)
    have hreturns := acknowledge_returns_iff env message packet.sender_id
      (w.delivered bloom message packet.sender_id_str false)
    rw [← (parse_ids hparse).1] at hreturns
    have hdelivered : deliveries (w.delivered bloom message packet.sender_id_str false).out =
        deliveries w.out ++ [(message, packet.sender_id_str, false)] := deliveries_append _ _
    have hrelays : relays (w.delivered bloom message packet.sender_id_str false).out =
        relays w.out := by
      unfold World.delivered
      rw [relays_append]
      exact List.append_nil _
    rcases hack : exec (acknowledge env message packet.sender_id_str false)
      (w.delivered bloom message packet.sender_id_str false) with ⟨result, w'⟩
    rw [hack] at hquiet hreturns
    have hrecorded : message.id ∈ w'.node.processed_messages := by
      rw [hquiet.processed]
      exact Finset.mem_insert_self _ _
    rcases result with e | ⟨⟩
    · -- the ACK raises before the relay
      rw [exec_bind_error _ hack]
      have hraises : ¬ AckPasses env w.node message packet.sender_id_str := fun h =>
        nomatch hreturns.mpr h
      constructor
      · intro h httl
        have hrelayed := h.relayed
        rw [if_pos httl, hquiet.relays, hrelays] at hrelayed
        have hlength := congrArg List.length hrelayed
        simp at hlength
      · intro h
        have httl : ¬ 1 < packet.ttl := fun httl => hraises (h httl)
        refine ⟨hquiet.deliveries.trans hdelivered, hrecorded, ?_⟩
        rw [if_neg httl, List.append_nil]
        exact hquiet.relays.trans hrelays
    · rw [exec_bind_ok _ hack, exec_relay]
      refine ⟨fun _ _ => hreturns.mp rfl, fun _ => ?_⟩
      by_cases httl : 1 < packet.ttl
      · rw [if_pos httl]
        refine ⟨?_, hrecorded, ?_⟩
        · rw [deliveries_append, hquiet.deliveries, hdelivered]
          exact List.append_nil _
        · rw [relays_append, hquiet.relays, hrelays, if_pos httl]
          rfl
      · rw [if_neg httl]
        refine ⟨hquiet.deliveries.trans hdelivered, hrecorded, ?_⟩
        rw [if_neg httl, List.append_nil]
        exact hquiet.relays.trans hrelays

end daemon

namespace daemon.standIn

open python bitchat bitchat.protocol

attribute [local instance] bitchat.standIn.packages

/-- The node that receives. -/
def us : PeerId := ⟨[1, 2, 3, 4, 5, 6, 7, 8], PeerId.length_counted⟩

def them : PeerId := ⟨[8, 7, 6, 5, 4, 3, 2, 1], PeerId.length_counted_down⟩

def conn : PeerConnection := ⟨['b'], 1, false⟩

/-- The payload of the `n`-th message of a peer. -/
def payload (n : Nat) : Bytes := message_layout 0 0 (hex (be 2 n)) [] [] [] []

/-- The `n`-th message as a packet for everyone. -/
def raw (n : Nat) : Bytes :=
  layout .MESSAGE 7 0 FLAG_HAS_RECIPIENT them.bytes BROADCAST_RECIPIENT (payload n) []

def packet (n : Nat) : BitchatPacket := received them none .MESSAGE (payload n) 7

def message (n : Nat) : BitchatMessage := ⟨hex (be 2 n), [], none, false, none⟩

/-- A new node that has received the first `n` messages. -/
def after : Nat → World
  | 0 => ⟨node us 1, []⟩
  | n + 1 => (exec (on_packet_received (env 1) conn (raw n)) (after n)).2

theorem parse_payload (n : Nat) :
    parse_bitchat_message_payload (packet n).payload = .ok (message n) := by
  have hid : (encode (hex (be 2 n))).length ≤ 255 := by
    rw [length_encode_hex, length_be]
    decide
  have hfits : PayloadFits [] [] [] [] := ⟨by decide, by decide, by decide, by decide⟩
  exact parse_message_layout 0 0 (hex (be 2 n)) [] [] [] [] hid hfits rfl rfl

theorem parse_raw (n : Nat) : parse_bitchat_packet (raw n) = .ok (packet n) := by
  have hlength : (payload n).length < 65536 := by
    simp [payload, message_layout, short_field, optional_field, length_encode_hex]
    decide
  exact parse_layout .MESSAGE 7 0 FLAG_HAS_RECIPIENT them.bytes BROADCAST_RECIPIENT (payload n)
    [] rfl
    rfl rfl hlength

/-- What the node is like once it has received `n` messages, all of them kept. -/
structure Kept (n : Nat) (w : World) : Prop where
  id : w.node.my_peer_id = us
  sessions : w.node.encryption_service.sessions = .empty
  bloom : w.node.bloom = ⟨5000, n⟩
  processed : ∀ k, n ≤ k → k < 65536 → (message k).id ∉ w.node.processed_messages

theorem not_is_blocked {self : MeshNode} (h : self.encryption_service.sessions = .empty)
    (peer_id : Str) : is_blocked self peer_id = false := by
  simp [is_blocked, encryption.EncryptionService.get_peer_fingerprint, h]

theorem kept_after_one {n : Nat} {w : World} (hn : n ≤ 5000) (h : Kept n w) :
    Kept (n + 1) (exec (on_packet_received (env 1) conn (raw n)) w).2 := by
  have hthem : (packet n).sender_id_str ≠ w.node.my_peer_id.str := by
    rw [h.id]
    exact (by decide : hex (rstripZero them.bytes) ≠ us.str)
  rw [exec_on_packet_received (parse_raw n) hthem]
  have hunblocked : is_blocked (w.heard (packet n).sender_id_str conn.address).node
      (packet n).sender_id_str = false := not_is_blocked h.sessions _
  have hroom : Packages.bloom_add (w.heard (packet n).sender_id_str conn.address).node.bloom
      (message n).id = some ⟨5000, n + 1⟩ := by
    show Packages.bloom_add w.node.bloom (message n).id = _
    rw [h.bloom]
    show (if 5000 < n then none else _) = _
    rw [if_neg (by omega)]
  have hnew : (message n).id ∉ (w.heard (packet n).sender_id_str
    conn.address).node.processed_messages :=
    h.processed n le_rfl (by omega)
  have hhandle : handle (env 1) (packet n) (raw n) =
    handle_message (env 1) (packet n) (raw n) := rfl
  rw [hhandle, exec_handle_broadcast hunblocked rfl, exec_accept_new (parse_payload n) hnew hroom,
    exec_bind_ok _ (exec_acknowledge_none rfl _ _ _), exec_relay]
  refine ⟨h.id, h.sessions, rfl, fun k hk hlt => ?_⟩
  -- the ids of two different messages differ
  have hne : (message k).id ≠ (message n).id := by
    intro heq
    have hbytes := congrArg fromBE (hex_injective heq)
    rw [fromBE_be 2 k (by omega), fromBE_be 2 n (by omega)] at hbytes
    omega
  exact fun hmem => (Finset.mem_insert.mp hmem).elim hne (h.processed k (by omega) hlt)

/-- The filter is full after 5001 messages. -/
theorem lost_when_full {n : Nat} {w : World} (h : Kept n w) (hfull : 5000 < n) (hlt : n < 65536) :
    parse_bitchat_packet (raw n) = .ok (packet n) ∧ is_broadcast (packet n) = true ∧
      is_blocked w.node (packet n).sender_id_str = false ∧
      parse_bitchat_message_payload (packet n).payload = .ok (message n) ∧
      (message n).id ∉ w.node.processed_messages ∧
      ¬ HandledOnce (message n) (packet n) (raw n) w
        (exec (handle_message (env 1) (packet n) (raw n)) w).2 := by
  have hunblocked := not_is_blocked h.sessions (packet n).sender_id_str
  have hnew := h.processed n le_rfl hlt
  have hadd : Packages.bloom_add w.node.bloom (message n).id = none := by
    rw [h.bloom]
    exact if_pos hfull
  refine ⟨parse_raw n, rfl, hunblocked, parse_payload n, hnew, fun hhandled => ?_⟩
  rw [exec_handle_broadcast hunblocked rfl, exec_accept_full (parse_payload n) hnew hadd]
    at hhandled
  exact hnew hhandled.recorded

theorem reachable_after (n : Nat) : Reachable (after n) := by
  induction n with
  | zero => exact .start us (some ['n']) (.init [1]) (bitchat.standIn.key 1)
  | succ n ih => exact .step ih (env 1) (.packet conn (raw n)) trivial

theorem kept_after (n : Nat) (hn : n ≤ 5001) : Kept n (after n) := by
  induction n with
  | zero => exact ⟨rfl, rfl, rfl, fun k _ _ => Finset.notMem_empty _⟩
  | succ n ih => exact kept_after_one (by omega) (ih (by omega))

end daemon.standIn

namespace daemon

open python bitchat bitchat.protocol

attribute [local instance] bitchat.standIn.packages

end daemon
