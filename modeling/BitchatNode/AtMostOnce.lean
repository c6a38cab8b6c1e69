-- A message id is taken at most once. Both handlers of messages look it up in
-- `processed_messages` and enter it there with no sleep in between; what they
-- do for a new message happens after the entry.
import BitchatNode.NewMessages

namespace daemon

open python bitchat bitchat.protocol bitchat.encryption

variable [Packages]

/-! ## What a packet brings -/

/-- What `decrypt_from_peer` returns for the packet. -/
def decrypted (self : MeshNode) (packet : BitchatPacket) : Except PyError Bytes :=
  (exec (EncryptionService.decrypt_from_peer packet.sender_id_str packet.payload)
    self.encryption_service).1

/-- The message of a `MESSAGE` packet for the node alone. -/
def private_message_of (packet : BitchatPacket) (decrypted_payload : Bytes) :
    Except PyError BitchatMessage :=
  parse_bitchat_message_payload
    (if decrypted_payload ≠ [] then unpad_message decrypted_payload else packet.payload)

/-- The message of the inner packet of a `NOISE_ENCRYPTED` packet. -/
def inner_message_of (decrypted : Bytes) : Option BitchatMessage :=
  if decrypted.head? = some 1 then
    match parse_bitchat_packet decrypted with
    | .ok inner_packet =>
      if inner_packet.msg_type = .MESSAGE then
        (parse_bitchat_message_payload inner_packet.payload).toOption
      else none
    | .error _ => none
  else none

/-- The message that a packet brings to a node: that of a `MESSAGE` that is
broadcast or addressed to it, or that inside a `NOISE_ENCRYPTED` packet. -/
def brought (self : MeshNode) (packet : BitchatPacket) : Option BitchatMessage :=
  match packet.msg_type with
  | .MESSAGE =>
    if is_broadcast packet then (parse_bitchat_message_payload packet.payload).toOption
    else if packet.recipient_id_str = some self.my_peer_id.str then
      (decrypted self packet >>= private_message_of packet).toOption
    else none
  | .NOISE_ENCRYPTED => (decrypted self packet).toOption.bind inner_message_of
  | _ => none

/-! ## Deliveries -/

/-- From `w` to `w'` messages were delivered that were not on record before,
each once, and they are on record now. -/
structure Delivers (w w' : World) : Prop where
  recorded : w.node.processed_messages ⊆ w'.node.processed_messages
  new : ∃ new, deliveries w'.out = deliveries w.out ++ new ∧ (new.map fun d => d.1.id).Nodup ∧
    ∀ d ∈ new, d.1.id ∉ w.node.processed_messages ∧ d.1.id ∈ w'.node.processed_messages

theorem Quiet.delivers {w w' : World} (h : Quiet w w') : Delivers w w' :=
  ⟨h.processed.symm.subset, [], by rw [h.deliveries, List.append_nil], List.nodup_nil, by simp⟩

instance : IsPreorder World Delivers where
  refl w := (refl_of Quiet w).delivers
  trans := by
    rintro u v w ⟨hrec₁, new₁, heq₁, hnodup₁, hnew₁⟩ ⟨hrec₂, new₂, heq₂, hnodup₂, hnew₂⟩
    refine ⟨hrec₁.trans hrec₂, new₁ ++ new₂, ?_, ?_, ?_⟩
    · rw [heq₂, heq₁, List.append_assoc]
    · rw [List.map_append, List.nodup_append]
      refine ⟨hnodup₁, hnodup₂, ?_⟩
      -- what the second part delivers was not on record after the first
      rintro id hid₁ _ hid₂ rfl
      obtain ⟨d₁, hd₁, rfl⟩ := List.mem_map.mp hid₁
      obtain ⟨d₂, hd₂, heq⟩ := List.mem_map.mp hid₂
      apply (hnew₂ d₂ hd₂).1
      rw [heq]
      exact (hnew₁ d₁ hd₁).2
    · intro d hd
      rcases List.mem_append.mp hd with hd | hd
      · exact ⟨(hnew₁ d hd).1, hrec₂ (hnew₁ d hd).2⟩
      · exact ⟨fun hold => (hnew₂ d hd).1 (hrec₁ hold), (hnew₂ d hd).2⟩

theorem delivers_relay (raw : Bytes) (ttl : UInt8) : Moves Delivers (relay raw ttl) := by
  intro w
  rw [exec_relay]
  split
  · refine ⟨subset_rfl, [], ?_, List.nodup_nil, by simp⟩
    rw [deliveries_append]
    rfl
  · exact refl_of Delivers w

/-- A new message is delivered once, and recorded. -/
theorem delivers_deliver (message : BitchatMessage) (sender_id : Str) (is_private : Bool)
    (w : World) (hnew : message.id ∉ w.node.processed_messages) :
    Delivers w (exec (deliver message sender_id is_private) w).2 := by
  unfold deliver
  rcases hbloom : Packages.bloom_add w.node.bloom message.id with _ | bloom
  · simp only [exec_bind, exec_node, hbloom, exec_throw]
    exact refl_of Delivers w
  · simp only [exec_bind, exec_node, hbloom, exec_modifyNode, exec_emit]
    refine ⟨Finset.subset_insert _ _, [(message, sender_id, is_private)], deliveries_append _ _,
      List.nodup_singleton _, ?_⟩
    intro d hd
    rw [List.mem_singleton.mp hd]
    exact ⟨hnew, Finset.mem_insert_self _ _⟩

theorem delivers_react (env : Env) (event : Event) : Moves Delivers (react env event) :=
  moves_react (fun _ _ => Quiet.delivers) delivers_relay delivers_deliver env event

/-- In every run each message id is delivered once at most, and what was
delivered is on record. -/
theorem Reachable.delivered_once {w : World} (h : Reachable w) :
    ((deliveries w.out).map fun d => d.1.id).Nodup ∧
      ∀ d ∈ deliveries w.out, d.1.id ∈ w.node.processed_messages := by
  have hstart : ∃ w₀ : World, deliveries w₀.out = [] ∧ Delivers w₀ w := by
    induction h with
    | start my_peer_id config_nickname app_state static_identity_key =>
      exact ⟨_, rfl, refl_of Delivers _⟩
    | step _ env event _ ih =>
      obtain ⟨w₀, hnone, hdelivers⟩ := ih
      exact ⟨w₀, hnone, trans_of Delivers hdelivers (delivers_react env event _)⟩
  obtain ⟨w₀, hnone, -, new, heq, hnodup, hnew⟩ := hstart
  rw [hnone, List.nil_append] at heq
  rw [heq]
  exact ⟨hnodup, fun d hd => (hnew d hd).2⟩

/-! ## ACKs and relays -/

theorem length_writes_send_to_peer (env : Env) (peer_id : Str) (packet : Bytes) (w : World) :
    (writes (exec (send_to_peer env peer_id packet) w).2.out).length ≤
      (writes w.out).length + 1 := by
  unfold send_to_peer
  simp only [exec_bind, exec_node]
  split
  · exact Nat.le_succ _
  · rename_i conn _
    by_cases hlength : packet.length ≤ 65535
    · rcases hfails : env.write_fails conn.address with _ | _
      · rw [exec_send_packet hlength hfails, writes_append, List.length_append]
        exact le_rfl
      · rw [exec_send_packet_fails hlength hfails, writes_on_read_done]
        exact Nat.le_succ _
    · obtain ⟨e, -, he⟩ := exec_send_packet_long env conn hlength w
      rw [he]
      exact Nat.le_succ _

theorem out_seal_ack (plain : Bytes) (sender_id : Str) (is_private : Bool) (w : World) :
    (exec (seal_ack plain sender_id is_private) w).2.out = w.out := by
  unfold seal_ack
  rw [exec_ite]
  split
  · rw [exec_bind, exec_attempt]
    simp only [exec_onService]
    split <;> rfl
  · rfl

/-- An ACK is one frame. -/
theorem length_writes_send_delivery_ack (env : Env) (message_id sender_id : Str)
    (is_private : Bool) (w : World) :
    (writes (exec (send_delivery_ack env message_id sender_id is_private) w).2.out).length ≤
      (writes w.out).length + 1 := by
  unfold send_delivery_ack
  simp only [exec_bind, exec_node]
  split
  · simp only [exec_bind, exec_modifyNode]
    generalize hw₁ : World.mk _ _ = w₁
    have hout : w₁.out = w.out := by rw [← hw₁]
    have hsealed := out_seal_ack (ack_payload w.node message_id (env.draw 0)) sender_id
      is_private w₁
    rcases hseal : exec (seal_ack (ack_payload w.node message_id (env.draw 0)) sender_id is_private)
      w₁ with ⟨result, w₂⟩
    rw [hseal] at hsealed
    rw [← hout, ← hsealed]
    cases result with
    | error e => exact Nat.le_succ _
    | ok payload =>
      simp only
      rcases create_bitchat_packet_with_recipient w.node.my_peer_id.str (some sender_id)
        .DELIVERY_ACK payload none (env.draw 1) with e | packet
      · exact Nat.le_succ _
      · exact length_writes_send_to_peer env sender_id _ w₂
  · exact Nat.le_succ _

theorem length_writes_acknowledge (env : Env) (message : BitchatMessage) (sender_id : Str)
    (is_private : Bool) (w : World) :
    (writes (exec (acknowledge env message sender_id is_private) w).2.out).length ≤
      (writes w.out).length + 1 := by
  unfold acknowledge
  simp only [exec_bind, exec_node]
  split
  · exact length_writes_send_delivery_ack env _ _ _ w
  · exact Nat.le_succ _

/-- From `w` to `w'` a message was either dropped without a trace, or it was
new, is on record now, and at most one frame was written and one relay
scheduled for it. -/
def TakenOnce (message_id : Str) (w w' : World) : Prop :=
  (writes w'.out = writes w.out ∧ relays w'.out = relays w.out) ∨
    message_id ∉ w.node.processed_messages ∧ message_id ∈ w'.node.processed_messages ∧
      (writes w'.out).length ≤ (writes w.out).length + 1 ∧
      (relays w'.out).length ≤ (relays w.out).length + 1

theorem takenOnce_self (message_id : Str) (w : World) : TakenOnce message_id w w := .inl ⟨rfl, rfl⟩

/-- From `w` to `w'` at most one frame was written and one relay scheduled, and
what was on record still is. -/
structure Answers (w w' : World) : Prop where
  writes : (writes w'.out).length ≤ (writes w.out).length + 1
  relays : (relays w'.out).length ≤ (relays w.out).length + 1
  processed : w'.node.processed_messages = w.node.processed_messages

theorem answers_send_delivery_ack (env : Env) (message_id sender_id : Str) (is_private : Bool)
    (w : World) : Answers w (exec (send_delivery_ack env message_id sender_id is_private) w).2 := by
  have hquiet := (calm_quiet env).send_delivery_ack message_id sender_id is_private w
  refine ⟨length_writes_send_delivery_ack env _ _ _ w, ?_, hquiet.processed⟩
  rw [hquiet.relays]
  exact Nat.le_succ _

theorem answers_acknowledge_relay (env : Env) (message : BitchatMessage) (sender_id : Str)
    (is_private : Bool) (raw : Bytes) (ttl : UInt8) (w : World) :
    Answers w (exec (do
      acknowledge env message sender_id is_private
      relay raw ttl) w).2 := by
  have hlength := length_writes_acknowledge env message sender_id is_private w
  have hquiet := (calm_quiet env).acknowledge message sender_id is_private w
  rcases hack : exec (acknowledge env message sender_id is_private) w with ⟨result, w₁⟩
  rw [hack] at hlength hquiet
  have hsame : relays w₁.out = relays w.out := hquiet.relays
  cases result with
  | error e =>
    rw [exec_bind_error _ hack]
    exact ⟨hlength, hsame ▸ Nat.le_succ _, hquiet.processed⟩
  | ok _ =>
    rw [exec_bind_ok _ hack, exec_relay]
    split
    · refine ⟨?_, ?_, hquiet.processed⟩
      · rw [writes_append, List.length_append]
        exact hlength
      · rw [relays_append, hsame, List.length_append]
        exact le_rfl
    · exact ⟨hlength, hsame ▸ Nat.le_succ _, hquiet.processed⟩

/-- A new message is recorded before anything is done for it. -/
theorem takenOnce_deliver {message : BitchatMessage} {w : World}
    (hnew : message.id ∉ w.node.processed_messages) (sender_id : Str) (is_private : Bool)
    {x : Mesh Unit} (hanswers : ∀ w, Answers w (exec x w).2) :
    TakenOnce message.id w (exec (do
      deliver message sender_id is_private
      x) w).2 := by
  unfold deliver
  rcases hbloom : Packages.bloom_add w.node.bloom message.id with _ | bloom
  · simp only [exec_bind, exec_node, hbloom, exec_throw]
    exact takenOnce_self _ w
  · simp only [exec_bind, exec_node, hbloom, exec_modifyNode, exec_emit]
    obtain ⟨hwrites, hrelays, hprocessed⟩ := hanswers
      (w.delivered bloom message sender_id is_private)
    have hsame_writes : writes (w.delivered bloom message sender_id is_private).out =
      writes w.out := by
      unfold World.delivered
      rw [writes_append]
      exact List.append_nil _
    have hsame_relays : relays (w.delivered bloom message sender_id is_private).out =
      relays w.out := by
      unfold World.delivered
      rw [relays_append]
      exact List.append_nil _
    rw [hsame_writes] at hwrites
    rw [hsame_relays] at hrelays
    refine .inr ⟨hnew, ?_, hwrites, hrelays⟩
    show message.id ∈ (exec x (w.delivered bloom message sender_id
      is_private)).2.node.processed_messages
    rw [hprocessed]
    exact Finset.mem_insert_self _ _

/-- What a step does for the message that its packet brings, if it brings
one. -/
def Takes (message : Option BitchatMessage) (w w' : World) : Prop :=
  match message with
  | none => writes w'.out = writes w.out
  | some message => TakenOnce message.id w w'

theorem takes_self (message : Option BitchatMessage) (w : World) : Takes message w w := by
  cases message with
  | none => exact rfl
  | some message => exact takenOnce_self message.id w

/-- The start of the step may have changed what no observation shows. -/
theorem Takes.of_same {message : Option BitchatMessage} {w₁ w w' : World}
    (h : Takes message w₁ w') (hout : w₁.out = w.out)
    (hprocessed : w₁.node.processed_messages = w.node.processed_messages) :
    Takes message w w' := by
  unfold Takes at h ⊢
  cases message with
  | none =>
    rw [hout] at h
    exact h
  | some message =>
    unfold TakenOnce at h ⊢
    rw [hout, hprocessed] at h
    exact h

theorem takes_accept_message (env : Env) (packet : BitchatPacket) (raw : Bytes) (is_private : Bool)
    (payload : Bytes) (w : World) :
    Takes (parse_bitchat_message_payload payload).toOption w
      (exec (accept_message env packet raw is_private payload) w).2 := by
  unfold accept_message
  rcases parse_bitchat_message_payload payload with e | message
  · exact takes_self none w
  · simp only [exec_bind, exec_outcome_ok, exec_node]
    split
    · exact takenOnce_self message.id w
    · rename_i hnew
      exact takenOnce_deliver hnew _ _ fun w =>
        answers_acknowledge_relay env message packet.sender_id_str is_private raw packet.ttl w

theorem takes_accept_encrypted (env : Env) (sender_id : Str) (decrypted : Bytes) (w : World) :
    Takes (inner_message_of decrypted) w (exec (accept_encrypted env sender_id decrypted) w).2 := by
  unfold inner_message_of accept_encrypted
  by_cases hversion : decrypted.head? = some 1
  · rw [if_pos hversion, if_pos hversion]
    rcases parse_bitchat_packet decrypted with e | inner_packet
    · exact takes_self none w
    · simp only [exec_bind, exec_outcome_ok]
      by_cases htype : inner_packet.msg_type = .MESSAGE
      · rw [if_pos htype, if_pos htype]
        rcases parse_bitchat_message_payload inner_packet.payload with e | message
        · exact takes_self none w
        · simp only [exec_bind, exec_outcome_ok, exec_node]
          split
          · exact takenOnce_self message.id w
          · rename_i hnew
            exact takenOnce_deliver hnew sender_id true fun w =>
              answers_send_delivery_ack env message.id sender_id true w
      · rw [if_neg htype, if_neg htype]
        exact takes_self none w
  · rw [if_neg hversion, if_neg hversion]
    exact takes_self none w

theorem takes_handle_message (env : Env) {packet : BitchatPacket} (raw : Bytes) {w : World}
    (htype : packet.msg_type = .MESSAGE) :
    Takes (brought w.node packet) w (exec (handle_message env packet raw) w).2 := by
  unfold brought handle_message
  rw [htype]
  simp only [exec_bind, exec_node]
  by_cases hblocked : is_blocked w.node packet.sender_id_str = true
  · rw [if_pos hblocked]
    exact takes_self _ w
  · rw [if_neg hblocked]
    by_cases hbroadcast : is_broadcast packet = true
    · rw [if_pos hbroadcast, if_pos hbroadcast, exec_suppress]
      exact takes_accept_message env packet raw false packet.payload w
    · rw [if_neg hbroadcast, if_neg hbroadcast]
      by_cases hours : packet.recipient_id_str = some w.node.my_peer_id.str
      · rw [if_pos hours, if_pos hours]
        simp only [exec_bind, exec_attempt, exec_onService]
        have hdecrypted : (exec (EncryptionService.decrypt_from_peer packet.sender_id_str
          packet.payload) w.node.encryption_service).1 = decrypted w.node packet := rfl
        rw [hdecrypted]
        rcases decrypted w.node packet with e | decrypted_payload
        · cases e <;> exact takes_self none w
        · rw [ok_bind, exec_suppress]
          exact (takes_accept_message env packet raw true _ _).of_same rfl rfl
      · rw [if_neg hours, if_neg hours, exec_relay]
        show writes _ = _
        split
        · rw [writes_append]
          exact List.append_nil _
        · rfl

theorem takes_handle_noise_encrypted (env : Env) {packet : BitchatPacket} {w : World}
    (htype : packet.msg_type = .NOISE_ENCRYPTED) :
    Takes (brought w.node packet) w (exec (handle_noise_encrypted env packet) w).2 := by
  unfold brought handle_noise_encrypted
  rw [htype]
  simp only [exec_bind, exec_node]
  by_cases hblocked : is_blocked w.node packet.sender_id_str = true
  · rw [if_pos hblocked]
    exact takes_self _ w
  · rw [if_neg hblocked]
    simp only [exec_suppress, exec_bind, exec_onService]
    have hdecrypted : (exec (EncryptionService.decrypt_from_peer packet.sender_id_str
      packet.payload) w.node.encryption_service).1 = decrypted w.node packet := rfl
    rw [hdecrypted]
    rcases decrypted w.node packet with e | data
    · exact takes_self none w
    · exact (takes_accept_encrypted env packet.sender_id_str data _).of_same rfl rfl

/-! ## Runs -/

/-- What a packet that arrives brings to the node. -/
def brought_by (w : World) : Event → Option BitchatMessage
  | .packet _ raw =>
    match parse_bitchat_packet raw with
    | .ok packet => brought w.node packet
    | .error _ => none
  | _ => none

/-- How many frames a node writes and how many relays it schedules for a
message: a packet that brings a message is answered by DELIVERY_ACKs only. -/
structure Tally where
  acked : Nat
  relayed : Nat
deriving DecidableEq

/-- What a step does for the message with the given id. -/
def tally (message_id : Str) (w : World) (env : Env) (event : Event) : Tally :=
  if (brought_by w event).map BitchatMessage.id = some message_id then
    { acked := (writes (exec (react env event) w).2.out).length - (writes w.out).length
      relayed := (relays (exec (react env event) w).2.out).length - (relays w.out).length }
  else ⟨0, 0⟩

/-- A packet that brings a message has one of two types. -/
theorem type_of_brought {self : MeshNode} {packet : BitchatPacket} {message : BitchatMessage}
    (h : brought self packet = some message) :
    packet.msg_type = .MESSAGE ∨ packet.msg_type = .NOISE_ENCRYPTED := by
  unfold brought at h
  split at h
  · exact .inl ‹_›
  · exact .inr ‹_›
  · cases h

theorem takenOnce_packet (env : Env) (conn : PeerConnection) {raw : Bytes} {packet : BitchatPacket}
    {message : BitchatMessage} {w : World} (hparse : parse_bitchat_packet raw = .ok packet)
    (hbrought : brought w.node packet = some message) :
    TakenOnce message.id w (exec (on_packet_received env conn raw) w).2 := by
  by_cases hown : packet.sender_id_str = w.node.my_peer_id.str
  · unfold on_packet_received
    simp only [exec_bind, exec_node, hparse, hown, if_true, exec_pure]
    exact takenOnce_self _ w
  · rw [exec_on_packet_received hparse hown]
    have hsame : brought (w.heard packet.sender_id_str conn.address).node packet = some message :=
      hbrought
    have htakes : Takes (some message) (w.heard packet.sender_id_str conn.address)
        (exec (handle env packet raw) (w.heard packet.sender_id_str conn.address)).2 := by
      rw [← hsame]
      rcases type_of_brought hbrought with htype | htype
      · rw [handle_of_message htype]
        exact takes_handle_message env raw htype
      · rw [handle_of_noise_encrypted htype]
        exact takes_handle_noise_encrypted env htype
    exact htakes.of_same rfl rfl

/-- One step does one thing of each kind for a message at most, and then the
message was new and is on record. -/
theorem tally_le (message_id : Str) (w : World) (env : Env) (event : Event) :
    (tally message_id w env event).acked ≤ 1 ∧ (tally message_id w env event).relayed ≤ 1 ∧
      (tally message_id w env event ≠ ⟨0, 0⟩ → message_id ∉ w.node.processed_messages ∧
        message_id ∈ (exec (react env event) w).2.node.processed_messages) := by
  unfold tally
  by_cases hbrought : (brought_by w event).map BitchatMessage.id = some message_id
  · rw [if_pos hbrought]
    obtain ⟨message, hmessage, rfl⟩ := Option.map_eq_some_iff.mp hbrought
    have htaken : TakenOnce message.id w (exec (react env event) w).2 := by
      unfold brought_by at hmessage
      split at hmessage
      · split at hmessage
        · exact takenOnce_packet env _ ‹_› hmessage
        · cases hmessage
      · cases hmessage
    rcases htaken with ⟨hwrites, hrelays⟩ | ⟨hnew, hrecorded, hwrites, hrelays⟩
    · rw [hwrites, hrelays, Nat.sub_self, Nat.sub_self]
      exact ⟨Nat.zero_le 1, Nat.zero_le 1, fun h => absurd rfl h⟩
    · exact ⟨Nat.sub_le_iff_le_add'.mpr hwrites, Nat.sub_le_iff_le_add'.mpr hrelays,
        fun _ => ⟨hnew, hrecorded⟩⟩
  · rw [if_neg hbrought]
    exact ⟨Nat.zero_le 1, Nat.zero_le 1, fun h => absurd rfl h⟩

/-- The states of a node from its start on, with what it has done for the
message so far. -/
inductive Tallied (message_id : Str) : World → Tally → Prop
  | start (my_peer_id : PeerId) (config_nickname : Option Str) (app_state : AppState)
      (static_identity_key : Crypto.PrivateKey) :
    Tallied message_id ⟨.init my_peer_id config_nickname app_state static_identity_key, []⟩ ⟨0, 0⟩
  | step {w : World} {t : Tally} (h : Tallied message_id w t) (env : Env) (event : Event)
      (hdue : Due w event) :
    Tallied message_id (exec (react env event) w).2
      ⟨t.acked + (tally message_id w env event).acked,
        t.relayed + (tally message_id w env event).relayed⟩

theorem Tallied.reachable {message_id : Str} {w : World} {t : Tally} (h : Tallied message_id w t) :
    Reachable w := by
  induction h with
  | start my_peer_id config_nickname app_state static_identity_key =>
    exact .start my_peer_id config_nickname app_state static_identity_key
  | step _ env event hdue ih => exact .step ih env event hdue

/-- Once something was done for a message it is on record, and a message on
record has nothing done for it any more. -/
theorem Tallied.le_one {message_id : Str} {w : World} {t : Tally} (h : Tallied message_id w t) :
    t.acked ≤ 1 ∧ t.relayed ≤ 1 ∧ (t ≠ ⟨0, 0⟩ → message_id ∈ w.node.processed_messages) := by
  induction h with
  | start my_peer_id config_nickname app_state static_identity_key =>
    exact ⟨Nat.zero_le 1, Nat.zero_le 1, fun h => absurd rfl h⟩
  | @step w t _ env event _ ih =>
    obtain ⟨hacked, hrelayed, hrecorded⟩ := ih
    obtain ⟨hacks, hrelays, hnew⟩ := tally_le message_id w env event
    have hkept := (delivers_react env event w).recorded
    by_cases hnothing : tally message_id w env event = ⟨0, 0⟩
    · rw [hnothing]
      exact ⟨hacked, hrelayed, fun h => hkept (hrecorded h)⟩
    · obtain ⟨hunseen, hseen⟩ := hnew hnothing
      -- before a step that does something nothing was done
      have hbefore : t = ⟨0, 0⟩ := by
        by_contra hdone
        exact hunseen (hrecorded hdone)
      rw [hbefore]
      exact ⟨(Nat.zero_add _).trans_le hacks, (Nat.zero_add _).trans_le hrelays, fun _ => hseen⟩

/-- In every run, each message id is delivered at most once, whichever packets
bring it, and at most one ACK is written and one relay scheduled for it. -/
theorem a_message_id_is_taken_at_most_once {message_id : Str} {w : World} {t : Tally}
    (h : Tallied message_id w t) :
    ((deliveries w.out).filter fun d => d.1.id = message_id).length ≤ 1 ∧
      t.acked ≤ 1 ∧ t.relayed ≤ 1 := by
  obtain ⟨hacked, hrelayed, -⟩ := h.le_one
  refine ⟨?_, hacked, hrelayed⟩
  have hcount := List.nodup_iff_count_le_one.mp h.reachable.delivered_once.1 message_id
  rw [List.count_eq_length_filter, List.filter_map, List.length_map] at hcount
  refine le_trans (le_of_eq ?_) hcount
  congr 1
  exact List.filter_congr fun d _ => (beq_eq_decide _ _).symm

/-! ## On the stand-in -/

end daemon

namespace daemon.standIn

open python bitchat bitchat.protocol

attribute [local instance] bitchat.standIn.packages

/-- A node that gets the same message over two connections. -/
def twice : World :=
  (exec (react (env 1) (.packet ⟨['c'], 2, true⟩ (raw 0)))
    (exec (react (env 1) (.packet conn (raw 0))) ⟨node us 1, []⟩).2).2

theorem tallied_twice : ∃ t, t = ⟨0, 1⟩ ∧ Tallied (message 0).id twice t := by
  have hstart : Tallied (message 0).id ⟨node us 1, []⟩ ⟨0, 0⟩ :=
    .start us (some ['n']) (.init [1]) (bitchat.standIn.key 1)
  have hfirst := hstart.step (env 1) (.packet conn (raw 0)) trivial
  have hsecond := hfirst.step (env 1) (.packet ⟨['c'], 2, true⟩ (raw 0)) trivial
  refine ⟨_, ?_, hsecond⟩
  decide +kernel

/-- It is delivered once and relayed once. -/
theorem a_message_that_arrives_twice_is_taken_once :
    ∃ t, ((deliveries twice.out).filter fun d => d.1.id = (message 0).id).length ≤ 1 ∧
      t.acked ≤ 1 ∧ t.relayed ≤ 1 ∧ t = Tally.mk 0 1 := by
  obtain ⟨t, ht, htallied⟩ := tallied_twice
  obtain ⟨hdelivered, hacked, hrelayed⟩ := a_message_id_is_taken_at_most_once htallied
  exact ⟨t, hdelivered, hacked, hrelayed, ht⟩

end daemon.standIn
