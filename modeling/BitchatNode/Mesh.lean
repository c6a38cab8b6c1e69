-- `daemon/mesh.py`: the handlers of the packet types and the calls with which
-- the API layer sends. A handler runs up to its first sleep; what it does
-- after the sleep is a later task.
import BitchatNode.Node
import Mathlib.Data.Finset.Erase

namespace daemon

open python bitchat bitchat.protocol bitchat.encryption

/-! ## JSON text -/

/-- `\uXXXX`. -/
def unicode_escape (v : Nat) : Str :=
  "\\u".toList ++ [hexDigit (v / 4096 % 16), hexDigit (v / 256 % 16), hexDigit (v / 16 % 16),
    hexDigit (v % 16)]

/-- One character in a string of `json.dumps`, which keeps to ASCII. -/
def json_escape (c : Char) : Str :=
  if c = '"' then "\\\"".toList
  else if c = '\\' then "\\\\".toList
  else if c = '\n' then "\\n".toList
  else if c = '\r' then "\\r".toList
  else if c = '\t' then "\\t".toList
  else if c.toNat = 8 then "\\b".toList
  else if c.toNat = 12 then "\\f".toList
  else if 32 ≤ c.toNat ∧ c.toNat ≤ 126 then [c]
  else if c.toNat < 0x10000 then unicode_escape c.toNat
  else unicode_escape (0xD800 + (c.toNat - 0x10000) / 1024) ++
    unicode_escape (0xDC00 + (c.toNat - 0x10000) % 1024)

def json_string (s : Str) : Str := '"' :: s.flatMap json_escape ++ ['"']

variable [Packages]

/-- `value[key]`, `none` where Python raises. -/
def json_item (value : Packages.JsonValue) (key : String) : Option Packages.JsonValue :=
  (Packages.json_get value key.toList).join

/-! ## Relay -/

/-- `_relay` up to its sleep. -/
def relay (raw : Bytes) (ttl : UInt8) : Mesh Unit :=
  if ttl ≤ 1 then pure () else emit (.later (.relay raw ttl))

/-- `_relay` after its sleep. -/
def relay_now (env : Env) (raw : Bytes) (ttl : UInt8) : Mesh Unit :=
  raw_send env (with_ttl raw (ttl - 1))

/-! ## Identity and handshake -/

/-- `_initiate_handshake`. -/
def initiate_handshake (env : Env) (peer_id : Str) : Mesh Unit :=
  suppress do
    let msg ← onService (EncryptionService.initiate_handshake peer_id (env.draw 0).generate)
    let self ← node
    let packet ← outcome (create_bitchat_packet_with_recipient self.my_peer_id.str (some peer_id)
      .NOISE_HANDSHAKE_INIT msg none (env.draw 1))
    send_to_peer env peer_id (with_ttl packet 3)

def send_identity_announce (env : Env) : Mesh Unit := do
  let self ← node
  let timestamp_ms := (env.draw 0).timestamp_ms
  let pub_key := self.encryption_service.get_public_key
  let signature := self.encryption_service.sign_data
    (encode self.my_peer_id.str ++ pub_key ++ encode (digits timestamp_ms))
  let payload ← outcome (encode_noise_identity_announcement_binary self.my_peer_id.str pub_key pub_key
    self.nickname timestamp_ms signature none)
  let packet ← outcome (create_bitchat_packet_with_signature self.my_peer_id.str
    .NOISE_IDENTITY_ANNOUNCE payload (some signature) (env.draw 1))
  raw_send env packet

def send_announce (env : Env) : Mesh Unit := do
  let self ← node
  let packet ← outcome (create_bitchat_packet self.my_peer_id.str .ANNOUNCE (encode self.nickname)
    (env.draw 0))
  raw_send env packet

/-- A peer gets the nickname, and is reported if it is new. -/
def announced (peer_id nickname : Str) : Mesh Unit := do
  let self ← node
  modifyNode fun self => { self with peers := self.peers.set peer_id ⟨some nickname⟩ }
  if self.peers.has peer_id then pure () else emit (.on_peer_joined peer_id nickname)

/-- `_handle_announce`. -/
def handle_announce (packet : BitchatPacket) : Mesh Unit :=
  announced packet.sender_id_str (strip (decodeIgnore packet.payload))

/-- `data.get(key, default)` as a `str`, `none` where Python raises. -/
def json_get_str (data : Packages.JsonValue) (key : String) (default_ : Str) : Option Str :=
  match Packages.json_get data key.toList with
  | none => none
  | some none => some default_
  | some (some value) => Packages.json_str value

/-- The peer id and the nickname of an identity announcement. The JSON form
is tried where the binary parser raises. -/
def announcement_of (packet : BitchatPacket) : Option (Str × Str) :=
  match parse_noise_identity_announcement_binary packet.payload with
  | .ok announcement => announcement.map fun a => (a.peerID, a.nickname)
  | .error _ => do
    let text ← decode packet.payload
    let data ← Packages.json_loads (encode text)
    let peer_id ← json_get_str data "peerID" packet.sender_id_str
    let nickname ← json_get_str data "nickname" "Unknown".toList
    some (peer_id, nickname)

/-- `_handle_noise_identity_announce`. -/
def handle_noise_identity_announce (env : Env) (packet : BitchatPacket) : Mesh Unit := do
  let self ← node
  if packet.sender_id_str = self.my_peer_id.str then pure ()
  else match announcement_of packet with
  | none => pure ()
  | some (peer_id, nickname) =>
    announced peer_id nickname
    -- the lower peer id initiates
    if self.my_peer_id.str < peer_id ∧ ¬ self.encryption_service.is_session_established peer_id then
      initiate_handshake env peer_id
    else pure ()

/-- `_send_pending_private_messages` up to its first sleep. -/
def send_pending_private_messages (peer_id : Str) : Mesh Unit := do
  let self ← node
  modifyNode fun self => { self with
    pending_private_messages := self.pending_private_messages.pop peer_id }
  let messages := (self.pending_private_messages.get? peer_id).getD []
  if messages = [] then pure () else emit (.later (.send_each peer_id messages))

/-- `_on_peer_authenticated`, where it is called: it creates a task. -/
def on_peer_authenticated : Option (Str × Str) → Mesh Unit
  | some (peer_id, _) => emit (.later (.send_pending_private_messages peer_id))
  | none => pure ()

/-- `process_handshake_message` with its callback. -/
def process_handshake_message (env : Env) (peer_id : Str) (message : Bytes) :
    Mesh (Option Bytes) := do
  let (response, authenticated) ← onService (EncryptionService.process_handshake_message peer_id
    message (env.draw 0).generate (env.draw 0).time_us)
  on_peer_authenticated authenticated
  -- an empty response counts as none
  return response.filter (· ≠ [])

/-- The packet names another recipient. -/
def for_another (self : MeshNode) (packet : BitchatPacket) : Bool :=
  packet.recipient_id_str.getD [] ≠ [] ∧ packet.recipient_id_str ≠ some self.my_peer_id.str

/-- Sends the next handshake message, if there is one. -/
def answer_handshake (answer : MessageType) (env : Env) (sender_id : Str) :
    Option Bytes → Mesh Unit
  | some response => do
    let self ← node
    let resp_packet ← outcome (create_bitchat_packet_with_recipient self.my_peer_id.str
      (some sender_id) answer response none (env.draw 1))
    send_to_peer env sender_id (with_ttl resp_packet 3)
  | none => pure ()

/-- What follows once there is a session. -/
def session_established (sender_id : Str) : Mesh Unit := do
  let self ← node
  if self.encryption_service.is_session_established sender_id then
    modifyNode fun self => { self with
      handshake_attempt_times := self.handshake_attempt_times.pop sender_id }
    send_pending_private_messages sender_id
  else pure ()

/-- The `try` of the two handshake handlers. -/
def take_handshake (answer : MessageType) (env : Env) (packet : BitchatPacket) : Mesh Unit := do
  let response ← process_handshake_message env packet.sender_id_str packet.payload
  answer_handshake answer env packet.sender_id_str response
  session_established packet.sender_id_str

/-- The two handshake handlers. They differ in the type of the answer. -/
def handle_noise_handshake (answer : MessageType) (env : Env) (packet : BitchatPacket) :
    Mesh Unit := do
  let self ← node
  if for_another self packet then pure ()
  else
    match ← attempt (take_handshake answer env packet) with
    | .ok () => pure ()
    | .error _ => modifyNode fun self => { self with
        encryption_service :=
          self.encryption_service.clear_handshake_state packet.sender_id_str }

/-- `_handle_noise_handshake_init`. -/
def handle_noise_handshake_init : Env → BitchatPacket → Mesh Unit :=
  handle_noise_handshake .NOISE_HANDSHAKE_RESP

/-- `_handle_noise_handshake_resp`. -/
def handle_noise_handshake_resp : Env → BitchatPacket → Mesh Unit :=
  handle_noise_handshake .NOISE_HANDSHAKE_INIT

/-- `_handle_key_exchange`. -/
def handle_key_exchange (env : Env) (packet : BitchatPacket) : Mesh Unit :=
  suppress do
    let self ← node
    let response ← process_handshake_message env packet.sender_id_str packet.payload
    match response with
    | some response =>
      let resp_packet ← outcome (create_bitchat_packet self.my_peer_id.str .KEY_EXCHANGE response
        (env.draw 1))
      send_to_peer env packet.sender_id_str resp_packet
    | none => pure ()

/-! ## Delivery ACKs -/

/-- The JSON text of a delivery ACK. -/
def ack_payload (self : MeshNode) (message_id : Str) (draw : Draw) : Bytes :=
  encode ("\x7b\"originalMessageID\": ".toList ++ json_string message_id ++
    ", \"ackID\": ".toList ++ json_string draw.uuid.str ++
    ", \"recipientID\": ".toList ++ json_string self.my_peer_id.str ++
    ", \"recipientNickname\": ".toList ++ json_string self.nickname ++
    ", \"timestamp\": ".toList ++ digits draw.timestamp_ms ++
    ", \"hopCount\": 1\x7d".toList)

def ack_id (self : MeshNode) (message_id : Str) : Str :=
  message_id ++ '-' :: self.my_peer_id.str

/-- The payload of an ACK: encrypted for the sender, if that works. -/
def seal_ack (plain : Bytes) (sender_id : Str) (is_private : Bool) : Mesh Bytes :=
  if is_private then do
    match ← attempt (onService (EncryptionService.encrypt plain sender_id)) with
    | .ok encrypted => pure encrypted
    | .error _ => pure plain
  else pure plain

/-- `_send_delivery_ack`. -/
def send_delivery_ack (env : Env) (message_id sender_id : Str) (is_private : Bool) :
    Mesh Unit := do
  let self ← node
  if (self.delivery_tracker.should_send_ack (ack_id self message_id)).1 then
    modifyNode fun self => { self with
      delivery_tracker := (self.delivery_tracker.should_send_ack (ack_id self message_id)).2 }
    let ack_payload ← seal_ack (ack_payload self message_id (env.draw 0)) sender_id is_private
    let ack_packet ← outcome (create_bitchat_packet_with_recipient self.my_peer_id.str
      (some sender_id) .DELIVERY_ACK ack_payload none (env.draw 1))
    send_to_peer env sender_id (with_ttl ack_packet 3)
  else pure ()

/-- The six fields of an ACK, `none` where Python raises. -/
def parse_ack (data : Bytes) : Option DeliveryAck := do
  let ack_data ← Packages.json_loads data
  return {
    original_message_id := ← json_item ack_data "originalMessageID"
    ack_id := ← json_item ack_data "ackID"
    recipient_id := ← json_item ack_data "recipientID"
    recipient_nickname := ← json_item ack_data "recipientNickname"
    timestamp := ← json_item ack_data "timestamp"
    hop_count := ← json_item ack_data "hopCount" }

/-- The part of `_handle_delivery_ack` that reads the ACK. A message id that
is no string is not pending. -/
def take_ack (ack : DeliveryAck) : Mesh Unit := do
  let self ← node
  match Packages.json_str ack.original_message_id with
  | none => pure ()
  | some message_id =>
    let (delivered, delivery_tracker) := self.delivery_tracker.mark_delivered message_id
    modifyNode fun self => { self with delivery_tracker }
    if delivered then emit (.on_delivery_ack ack) else pure ()

/-- The payload of an ACK, decrypted if the TTL is 3 and there is a session. An
exception leaves it as it is. -/
def open_ack (packet : BitchatPacket) : Mesh Bytes := do
  let self ← node
  if packet.ttl = 3 ∧ self.encryption_service.is_session_established packet.sender_id_str then
    match ← attempt (onService (EncryptionService.decrypt_from_peer packet.sender_id_str
        packet.payload)) with
    | .ok decrypted => pure decrypted
    | .error _ => pure packet.payload
  else pure packet.payload

/-- `_handle_delivery_ack`. -/
def handle_delivery_ack (packet : BitchatPacket) (raw : Bytes) : Mesh Unit := do
  let self ← node
  -- an empty recipient is nobody
  if packet.recipient_id_str.getD [] ≠ [] ∧ packet.recipient_id_str = some self.my_peer_id.str then
    let ack_payload ← open_ack packet
    match parse_ack ack_payload with
    | some ack => take_ack ack
    | none => pure ()
  else relay raw packet.ttl

/-! ## Messages -/

/-- The sender has a session under a blocked fingerprint. -/
def is_blocked (self : MeshNode) (peer_id : Str) : Bool :=
  match self.encryption_service.get_peer_fingerprint peer_id with
  | some fingerprint => fingerprint ≠ [] ∧ fingerprint ∈ self.blocked_peers
  | none => false

/-- A packet without a recipient, or with an all-zero one, counts as sent to
everyone. -/
def is_broadcast (packet : BitchatPacket) : Bool :=
  match packet.recipient_id with
  | none | some [] => true
  | some recipient_id => recipient_id = BROADCAST_RECIPIENT

/-- The bookkeeping for a new message, and its delivery. -/
def deliver (message : BitchatMessage) (sender_id : Str) (is_private : Bool) : Mesh Unit := do
  let self ← node
  match Packages.bloom_add self.bloom message.id with
  | none => throw .IndexError
  | some bloom =>
    modifyNode fun self => { self with
      bloom, processed_messages := insert message.id self.processed_messages }
    emit (.on_message message sender_id is_private)

/-- The ACK of a message, where `should_send_ack` asks for one. -/
def acknowledge (env : Env) (message : BitchatMessage) (sender_id : Str) (is_private : Bool) :
    Mesh Unit := do
  let self ← node
  if should_send_ack is_private message.channel none self.nickname self.peers.size then
    send_delivery_ack env message.id sender_id is_private
  else pure ()

/-- The second `try` of `_handle_message`. -/
def accept_message (env : Env) (packet : BitchatPacket) (raw : Bytes) (is_private : Bool)
    (payload : Bytes) : Mesh Unit := do
  let message ← outcome (parse_bitchat_message_payload payload)
  let self ← node
  if message.id ∈ self.processed_messages then pure ()
  else
    deliver message packet.sender_id_str is_private
    acknowledge env message packet.sender_id_str is_private
    relay raw packet.ttl

/-- `_handle_message`. -/
def handle_message (env : Env) (packet : BitchatPacket) (raw : Bytes) : Mesh Unit := do
  let self ← node
  if is_blocked self packet.sender_id_str then pure ()
  else if is_broadcast packet then suppress (accept_message env packet raw false packet.payload)
  else if packet.recipient_id_str = some self.my_peer_id.str then
    match ← attempt (onService (EncryptionService.decrypt_from_peer packet.sender_id_str
        packet.payload)) with
    | .ok decrypted_payload => suppress (accept_message env packet raw true
        (if decrypted_payload ≠ [] then unpad_message decrypted_payload else packet.payload))
    | .error (.NoiseError _) => pure ()
    | .error e => throw e
  else relay raw packet.ttl

/-- The inner packet of a private message, where the first byte is a version. -/
def accept_encrypted (env : Env) (sender_id : Str) (decrypted : Bytes) : Mesh Unit :=
  if decrypted.head? = some 1 then do
    let inner_packet ← outcome (parse_bitchat_packet decrypted)
    if inner_packet.msg_type = .MESSAGE then
      let message ← outcome (parse_bitchat_message_payload inner_packet.payload)
      let self ← node
      if message.id ∈ self.processed_messages then pure ()
      else
        deliver message sender_id true
        send_delivery_ack env message.id sender_id true
    else pure ()
  else pure ()

/-- `_handle_noise_encrypted`. -/
def handle_noise_encrypted (env : Env) (packet : BitchatPacket) : Mesh Unit := do
  let self ← node
  if is_blocked self packet.sender_id_str then pure ()
  else suppress do
    let decrypted ← onService (EncryptionService.decrypt_from_peer packet.sender_id_str
      packet.payload)
    accept_encrypted env packet.sender_id_str decrypted

/-! ## Leave and channels -/

/-- The node leaves a channel only. -/
def leaves_channel (packet : BitchatPacket) : Bool :=
  (strip (decodeIgnore packet.payload)).head? = some '#'

def take_leave (packet : BitchatPacket) : Mesh Unit :=
  if leaves_channel packet then pure () else remove_peer packet.sender_id_str

/-- `_handle_leave`. -/
def handle_leave (packet : BitchatPacket) (raw : Bytes) : Mesh Unit := do
  take_leave packet
  relay raw packet.ttl

def save_state : Mesh Unit := do
  modifyNode fun self => { self with app_state := { self.app_state with
    nickname := some self.nickname
    blocked_peers := self.blocked_peers
    channel_creators := self.channel_creators
    password_protected_channels := self.password_protected_channels
    channel_key_commitments := self.channel_key_commitments } }
  let self ← node
  emit (.saved self.app_state)

/-- What a channel announcement does to the tables of channels. -/
def MeshNode.channel_announced (self : MeshNode) (channel : Str) (is_protected : Bool)
    (creator_id key_commitment : Str) : MeshNode :=
  { self with
    channel_creators :=
      if creator_id ≠ [] then self.channel_creators.set channel creator_id
      else self.channel_creators
    password_protected_channels :=
      if is_protected then insert channel self.password_protected_channels
      else self.password_protected_channels.erase channel
    channel_keys := if is_protected then self.channel_keys else self.channel_keys.pop channel
    channel_key_commitments :=
      if ¬ is_protected then self.channel_key_commitments.pop channel
      else if key_commitment ≠ [] then self.channel_key_commitments.set channel key_commitment
      else self.channel_key_commitments
    discovered_channels := insert channel self.discovered_channels }

/-- `_handle_channel_announce`. -/
def handle_channel_announce (packet : BitchatPacket) : Mesh Unit :=
  match (decodeIgnore packet.payload).splitOn '|' with
  | channel :: is_protected :: creator_id :: rest => do
    modifyNode fun self => self.channel_announced channel (is_protected = ['1']) creator_id
      (rest.head?.getD [])
    save_state
  | _ => pure ()

def send_channel_announce (env : Env) (channel : Str) (is_protected : Bool)
    (key_commitment : Option Str) : Mesh Unit := do
  let self ← node
  let payload := channel ++ (if is_protected then "|1|" else "|0|").toList ++ self.my_peer_id.str ++
    '|' :: key_commitment.getD []
  let packet ← outcome (create_bitchat_packet self.my_peer_id.str .CHANNEL_ANNOUNCE (encode payload)
    (env.draw 0))
  raw_send env (with_ttl packet 5)

/-! ## Routing -/

/-- The handler of a packet type other than the fragments, which
`_handle_packet_internal` and `_on_packet_received` look up in their tables. -/
def handler (env : Env) (packet : BitchatPacket) (raw : Bytes) : Option (Mesh Unit) :=
  match packet.msg_type with
  | .ANNOUNCE => some (handle_announce packet)
  | .MESSAGE => some (handle_message env packet raw)
  | .NOISE_IDENTITY_ANNOUNCE => some (handle_noise_identity_announce env packet)
  | .NOISE_HANDSHAKE_INIT => some (handle_noise_handshake_init env packet)
  | .NOISE_HANDSHAKE_RESP => some (handle_noise_handshake_resp env packet)
  | .NOISE_ENCRYPTED => some (handle_noise_encrypted env packet)
  | .LEAVE => some (handle_leave packet raw)
  | .CHANNEL_ANNOUNCE => some (handle_channel_announce packet)
  | .KEY_EXCHANGE => some (handle_key_exchange env packet)
  | .DELIVERY_ACK => some (handle_delivery_ack packet raw)
  | _ => none

/-- `_handle_packet_internal`. -/
def handle_packet_internal (env : Env) (packet : BitchatPacket) (raw : Bytes) : Mesh Unit :=
  match handler env packet raw with
  | some task => do
    emit (.dispatched packet)
    task
  | none => pure ()

/-- The names that `mesh.py` binds at its top level: its imports, `log` and
the class. -/
def module_names : List String :=
  ["asyncio", "json", "logging", "os", "random", "time", "uuid", "hashlib", "Callable", "Dict",
    "List", "Optional", "Set", "Tuple", "BloomFilter", "MessageType", "BitchatPacket",
    "BitchatMessage", "Peer", "DeliveryAck", "DeliveryTracker", "FragmentCollector",
    "parse_bitchat_packet", "parse_bitchat_message_payload", "create_bitchat_packet",
    "create_bitchat_packet_with_recipient", "create_bitchat_packet_with_signature",
    "create_bitchat_message_payload_full", "create_encrypted_channel_message_payload",
    "parse_noise_identity_announcement_binary", "encode_noise_identity_announcement_binary",
    "unpad_message", "should_send_ack", "COVER_TRAFFIC_PREFIX", "BROADCAST_RECIPIENT",
    "debug_println", "debug_full_println", "EncryptionService", "NoiseError", "AppState",
    "load_state", "save_state", "encrypt_password", "decrypt_password", "Transport",
    "PeerConnection", "log", "MeshNode"]

/-- Python looks a global name up when the line that uses it runs. -/
def global_name (name : String) : Except PyError Unit :=
  if name ∈ module_names then .ok () else .error (.NameError name)

/-- The body of the first `if` of `_handle_fragment`. -/
def collect_fragment (env : Env) (packet : BitchatPacket) : Mesh Unit := do
  let fragment_id := slice packet.payload 0 8
  outcome (global_name "struct")
  let index := fromBE (slice packet.payload 8 10)
  let total := fromBE (slice packet.payload 10 12)
  let original_type := packet.payload.getD 12 0
  let fragment_data := packet.payload.drop 13
  let self ← node
  let (fragment_collector, result) := self.fragment_collector.add_fragment fragment_id index total
    original_type fragment_data packet.sender_id_str
  modifyNode fun self => { self with fragment_collector }
  match result with
  | none => pure ()
  | some (complete_data, _) =>
    let reassembled ← outcome (parse_bitchat_packet complete_data)
    match self.get_conn_for_peer packet.sender_id_str with
    | some _ => handle_packet_internal env reassembled complete_data
    | none => pure ()

def take_fragment (env : Env) (packet : BitchatPacket) : Mesh Unit :=
  if 13 ≤ packet.payload.length then collect_fragment env packet else pure ()

/-- `_handle_fragment`. -/
def handle_fragment (env : Env) (packet : BitchatPacket) (raw : Bytes) : Mesh Unit := do
  take_fragment env packet
  relay raw packet.ttl

/-- The task that `_on_packet_received` creates for a packet. -/
def handle (env : Env) (packet : BitchatPacket) (raw : Bytes) : Mesh Unit :=
  match packet.msg_type with
  | .FRAGMENT_START | .FRAGMENT_CONTINUE | .FRAGMENT_END => handle_fragment env packet raw
  | _ => (handler env packet raw).getD (pure ())

/-- A packet that has an entry in the table of handlers is no fragment. -/
theorem handle_of_handler {env : Env} {packet : BitchatPacket} {raw : Bytes} {task : Mesh Unit}
    (h : handler env packet raw = some task) : handle env packet raw = task := by
  have hfragment {msg_type : MessageType} (htype : packet.msg_type = msg_type)
      (hmem : msg_type ∈ exclude_recipient_types) : False := by
    simp only [exclude_recipient_types, List.mem_cons, List.not_mem_nil, or_false] at hmem
    unfold handler at h
    rcases hmem with rfl | rfl | rfl <;> rw [htype] at h <;> cases h
  unfold handle
  split
  · exact (hfragment ‹_› (by decide)).elim
  · exact (hfragment ‹_› (by decide)).elim
  · exact (hfragment ‹_› (by decide)).elim
  · rw [h]
    rfl

theorem handle_of_message {env : Env} {packet : BitchatPacket} {raw : Bytes}
    (htype : packet.msg_type = .MESSAGE) :
    handle env packet raw = handle_message env packet raw :=
  handle_of_handler (by rw [handler, htype])

theorem handle_of_noise_encrypted {env : Env} {packet : BitchatPacket} {raw : Bytes}
    (htype : packet.msg_type = .NOISE_ENCRYPTED) :
    handle env packet raw = handle_noise_encrypted env packet :=
  handle_of_handler (by rw [handler, htype])

theorem handle_of_delivery_ack {env : Env} {packet : BitchatPacket} {raw : Bytes}
    (htype : packet.msg_type = .DELIVERY_ACK) :
    handle env packet raw = handle_delivery_ack packet raw :=
  handle_of_handler (by rw [handler, htype])

/-- `_on_packet_received`, and the task that it creates up to its first sleep.
An exception of the task goes to nobody. -/
def on_packet_received (env : Env) (conn : PeerConnection) (raw : Bytes) : Mesh Unit := do
  let self ← node
  match parse_bitchat_packet raw with
  | .error _ => pure ()
  | .ok packet =>
    if packet.sender_id_str = self.my_peer_id.str then pure ()
    else
      modifyNode fun self => { self with
        peer_addresses := self.peer_addresses.set packet.sender_id_str conn.address }
      suppress (handle env packet raw)

/-! ## Sending -/

/-- The payload that `send_public_message` builds: under the channel's key,
if the node has one. -/
def public_payload (self : MeshNode) (content : Str) (channel : Option Str) (env : Env) :
    Except PyError (Bytes × Str) :=
  match (channel.filter (· ≠ [])).bind self.channel_keys.get? with
  | some key =>
    create_bitchat_message_payload_full self.nickname content channel false self.my_peer_id.str true
      (some (EncryptionService.encrypt_for_channel content key ((env.draw 0).entropy.urandom 12)))
      (env.draw 1)
  | none =>
    create_bitchat_message_payload_full self.nickname content channel false self.my_peer_id.str false
      none (env.draw 1)

def send_public_message (env : Env) (content : Str) (channel : Option Str) : Mesh Str := do
  let self ← node
  let (payload, msg_id) ← outcome (public_payload self content channel env)
  modifyNode fun self => { self with
    delivery_tracker :=
      self.delivery_tracker.track_message msg_id content false (env.draw 2).time_us }
  let packet ← outcome (create_bitchat_packet self.my_peer_id.str .MESSAGE payload (env.draw 3))
  raw_send env packet
  return msg_id

/-- Notes the time and starts the handshake. -/
def attempt_handshake (env : Env) (target_peer_id : Str) (current_time : UInt64) : Mesh Unit := do
  modifyNode fun self => { self with
    handshake_attempt_times := self.handshake_attempt_times.set target_peer_id current_time }
  initiate_handshake env target_peer_id

/-- Starts the handshake unless one was started in the last five seconds. -/
def attempt_if_due (env : Env) (target_peer_id : Str) (current_time : UInt64) : Mesh Unit := do
  let self ← node
  match self.handshake_attempt_times.get? target_peer_id with
  | some last =>
    if current_time.toNat < last.toNat + handshake_timeout then pure ()
    else attempt_handshake env target_peer_id current_time
  | none => attempt_handshake env target_peer_id current_time

/-- The branch of `send_private_message` without a session. -/
def queue_private_message (env : Env) (content target_peer_id target_nickname : Str)
    (message_id : Option Str) : Mesh Str := do
  let self ← node
  let msg_id := if message_id.getD [] ≠ [] then message_id.getD [] else (env.draw 0).uuid.str
  let waiting := (self.pending_private_messages.get? target_peer_id).getD []
  modifyNode fun self => { self with
    pending_private_messages := self.pending_private_messages.set target_peer_id
      (waiting ++ [(content, target_nickname, msg_id)]) }
  attempt_if_due (env.skip 2) target_peer_id (env.draw 1).time_us
  return msg_id

/-- The branch of `send_private_message` with a session. -/
def encrypt_private_message (env : Env) (content target_peer_id : Str) : Mesh Str := do
  let self ← node
  let (payload, msg_id) ← outcome (create_bitchat_message_payload_full self.nickname content none
    true self.my_peer_id.str false none (env.draw 0))
  modifyNode fun self => { self with
    delivery_tracker :=
      self.delivery_tracker.track_message msg_id content true (env.draw 1).time_us }
  let inner_packet ← outcome (create_bitchat_packet_with_recipient self.my_peer_id.str
    (some target_peer_id) .MESSAGE payload none (env.draw 2))
  let encrypted ← onService (EncryptionService.encrypt_for_peer target_peer_id
    (with_ttl inner_packet 7))
  let outer_packet ← outcome (create_bitchat_packet_with_recipient self.my_peer_id.str
    (some target_peer_id) .NOISE_ENCRYPTED encrypted none (env.draw 3))
  send_to_peer env target_peer_id outer_packet
  return msg_id

def send_private_message (env : Env) (content target_peer_id target_nickname : Str)
    (message_id : Option Str) : Mesh Str := do
  let self ← node
  if self.encryption_service.is_session_established target_peer_id then
    encrypt_private_message env content target_peer_id
  else queue_private_message env content target_peer_id target_nickname message_id

def send_leave (env : Env) : Mesh Unit := do
  let self ← node
  let packet ← outcome (create_bitchat_packet self.my_peer_id.str .LEAVE (encode self.nickname)
    (env.draw 0))
  raw_send env packet

/-! ## Later tasks -/

def sleep_before_next (peer_id : Str) (rest : List (Str × Str × Str)) : Mesh Unit :=
  if rest = [] then pure () else emit (.later (.send_each peer_id rest))

/-- What a task does when its turn comes, up to its next sleep. -/
def run_later (env : Env) : Later → Mesh Unit
  | .relay raw ttl => relay_now env raw ttl
  | .send_pending_private_messages peer_id => send_pending_private_messages peer_id
  | .send_each _ [] => pure ()
  | .send_each peer_id ((content, nickname, msg_id) :: rest) => do
    suppress (send_private_message env content peer_id nickname (some msg_id))
    sleep_before_next peer_id rest

end daemon
