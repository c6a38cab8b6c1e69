-- `bitchat.py`: the handlers of messages, ACKs, fragments and leaves, and the
-- dispatch of a packet to the handler of its type. There is no branch for
-- delivery ACKs.
import BitchatNode.Client.PrivateMessages
import BitchatNode.Mesh

namespace client

open python bitchat bitchat.protocol bitchat.encryption
open daemon (digits with_ttl json_string is_broadcast leaves_channel parse_ack)

variable [ClientPackages]

def relay (env : Env) (raw : Bytes) (ttl : UInt8) : Client Unit :=
  if ttl ≤ 1 then pure () else send_packet env (with_ttl raw (ttl - 1))

/-! ## Delivery ACKs -/

/-- The JSON text of a delivery ACK. -/
def ack_payload (self : BitchatClient) (message_id : Str) (uuid_draw clock : Draw) : Bytes :=
  encode ("\x7b\"originalMessageID\": ".toList ++ json_string message_id ++
    ", \"ackID\": ".toList ++ json_string uuid_draw.uuid.str ++
    ", \"recipientID\": ".toList ++ json_string self.my_peer_id.str ++
    ", \"recipientNickname\": ".toList ++ json_string self.nickname ++
    ", \"timestamp\": ".toList ++ digits clock.timestamp_ms ++
    ", \"hopCount\": 1\x7d".toList)

def ack_id (self : BitchatClient) (message_id : Str) : Str :=
  message_id ++ '-' :: self.my_peer_id.str

/-- The payload of an ACK: encrypted for the sender, if that works. -/
def seal_ack (plain : Bytes) (sender_id : Str) (is_private : Bool) : Client Bytes :=
  if is_private then do
    match ← attempt (onService (EncryptionService.encrypt plain sender_id)) with
    | .ok encrypted => pure encrypted
    | .error _ => pure plain
  else pure plain

def send_delivery_ack (env : Env) (message_id sender_id : Str) (is_private : Bool) :
    Client Unit := do
  let self ← getClient
  if (self.delivery_tracker.should_send_ack (ack_id self message_id)).1 then do
    modifyClient fun self => { self with
      delivery_tracker := (self.delivery_tracker.should_send_ack (ack_id self message_id)).2 }
    let ack_payload ← seal_ack (ack_payload self message_id (env.draw 0) (env.draw 1)) sender_id
      is_private
    let ack_packet ← outcome (create_bitchat_packet_with_recipient self.my_peer_id.str
      (some sender_id) .DELIVERY_ACK ack_payload none (env.draw 2))
    send_packet (env.call 3) (with_ttl ack_packet 3)
  else pure ()

/-- The payload of an ACK, decrypted if the TTL is 3 and there is a session. An
exception leaves it as it is. -/
def open_ack (packet : BitchatPacket) : Client Bytes := do
  let self ← getClient
  if packet.ttl = 3 ∧ self.encryption_service.is_session_established packet.sender_id_str then
    match ← attempt (onService (EncryptionService.decrypt_from_peer packet.sender_id_str
        packet.payload)) with
    | .ok decrypted => pure decrypted
    | .error _ => pure packet.payload
  else pure packet.payload

/-- No packet type leads here. A message id that is no string is not pending. -/
def handle_delivery_ack (env : Env) (packet : BitchatPacket) (raw : Bytes) : Client Unit := do
  let self ← getClient
  if packet.recipient_id_str.getD [] ≠ [] ∧ packet.recipient_id_str = some self.my_peer_id.str then do
    let ack_payload ← open_ack packet
    match (parse_ack ack_payload).bind fun ack => Packages.json_str ack.original_message_id with
    | some message_id => modifyClient fun self => { self with
        delivery_tracker := (self.delivery_tracker.mark_delivered message_id).2 }
    | none => pure ()
  else relay env raw packet.ttl

/-! ## Messages -/

def COVER_TRAFFIC_PREFIX : Str := "☂DUMMY☂".toList

/-- The sender has a session under a blocked fingerprint. -/
def is_blocked (self : BitchatClient) (peer_id : Str) : Bool :=
  match self.encryption_service.get_peer_fingerprint peer_id with
  | some fingerprint => fingerprint ≠ [] ∧ fingerprint ∈ self.blocked_peers
  | none => false

/-- `self.peers.get(peer_id, Peer()).nickname or peer_id`. -/
def name_of (self : BitchatClient) (peer_id : Str) : Str :=
  let nickname := ((self.peers.get? peer_id).bind Peer.nickname).getD []
  if nickname ≠ [] then nickname else peer_id

/-- `decrypt_from_channel`, or `none` where Python raises. -/
def decrypt_from_channel (data key : Bytes) : Option Str :=
  if data.length < 12 then none
  else (Crypto.chacha_decrypt key (data.take 12) (data.drop 12) []).bind decode

/-- What the terminal shows of a message. -/
def display_content (self : BitchatClient) (message : BitchatMessage) : Str :=
  if ¬ message.is_encrypted then message.content
  else match (message.channel.filter (· ≠ [])).bind self.channel_keys.get? with
  | some key =>
    (decrypt_from_channel (message.encrypted_content.getD []) key).getD
      "[Encrypted message - decryption failed]".toList
  | none => "[Encrypted message - join channel with password]".toList

/-- A channel that a message names. -/
def BitchatClient.discover (message : BitchatMessage) (self : BitchatClient) : BitchatClient :=
  match message.channel.filter (· ≠ []) with
  | none => self
  | some channel => { self with
      discovered_channels := insert channel self.discovered_channels
      password_protected_channels :=
        if message.is_encrypted then insert channel self.password_protected_channels
        else self.password_protected_channels }

def BitchatClient.note_sender (sender_id sender_nick : Str) (self : BitchatClient) :
    BitchatClient :=
  { self with
    chat_context := { self.chat_context.add_dm sender_nick sender_id with
      last_private_sender := some (sender_id, sender_nick) } }

def display_message (message : BitchatMessage) (sender_id : Str) (is_private : Bool) :
    Client Unit := do
  modifyClient (·.discover message)
  let self ← getClient
  let sender_nick := name_of self sender_id
  let content := display_content self message
  if is_private ∧ COVER_TRAFFIC_PREFIX <+: content then pure ()
  else do
    modifyClient fun self => if is_private then self.note_sender sender_id sender_nick else self
    emit (.display message.id sender_nick content message.channel is_private)

/-- The bookkeeping for a new message. -/
def note_message (message : BitchatMessage) : Client Unit := do
  let self ← getClient
  match Packages.bloom_add self.bloom message.id with
  | none => throw .IndexError
  | some bloom => modifyClient fun self => { self with
      bloom, processed_messages := insert message.id self.processed_messages }

/-- The ACK of a message, where `should_send_ack` asks for one. -/
def acknowledge (env : Env) (message : BitchatMessage) (sender_id : Str) (is_private : Bool) :
    Client Unit := do
  let self ← getClient
  if should_send_ack is_private message.channel none self.nickname self.peers.size then
    send_delivery_ack env message.id sender_id is_private
  else pure ()

/-- The second `try` of `handle_message`. -/
def accept_message (env : Env) (packet : BitchatPacket) (raw : Bytes) (is_private : Bool)
    (payload : Bytes) : Client Unit := do
  let message ← outcome (parse_bitchat_message_payload payload)
  let self ← getClient
  if message.id ∈ self.processed_messages then pure ()
  else do
    note_message message
    display_message message packet.sender_id_str is_private
    acknowledge (env.call 0) message packet.sender_id_str is_private
    relay (env.call 1) raw packet.ttl

def handle_message (env : Env) (packet : BitchatPacket) (raw : Bytes) : Client Unit := do
  let self ← getClient
  if is_blocked self packet.sender_id_str then pure ()
  else if is_broadcast packet then suppress (accept_message env packet raw false packet.payload)
  else if packet.recipient_id_str = some self.my_peer_id.str then
    match ← attempt (onService (EncryptionService.decrypt_from_peer packet.sender_id_str
        packet.payload)) with
    | .ok decrypted_payload => suppress (accept_message env packet raw true
        (if decrypted_payload ≠ [] then unpad_message decrypted_payload else packet.payload))
    | .error (.NoiseError _) => pure ()
    | .error e => throw e
  else relay env raw packet.ttl

/-- A message inside an encrypted packet. -/
def accept_private (env : Env) (payload : Bytes) (sender_id : Str) : Client Unit := do
  let message ← outcome (parse_bitchat_message_payload payload)
  let self ← getClient
  if message.id ∈ self.processed_messages then pure ()
  else do
    note_message message
    display_message message sender_id true
    send_delivery_ack env message.id sender_id true

/-! ## Leave -/

/-- A peer with a nickname takes its conversation, its waiting messages and its
session with it. -/
def BitchatClient.lose_peer (peer_id : Str) (self : BitchatClient) : BitchatClient :=
  let nickname := ((self.peers.get? peer_id).bind Peer.nickname).getD []
  let self := { self with peers := self.peers.pop peer_id }
  if nickname = [] then self
  else { self with
    pending_private_messages := self.pending_private_messages.pop peer_id
    encryption_service := self.encryption_service.remove_session peer_id
    chat_context :=
      let chat_context := { self.chat_context with
        active_dms := self.chat_context.active_dms.pop nickname }
      match chat_context.current_mode with
      | .PrivateDM _ other => if other = peer_id then chat_context.switch_to_public
        else chat_context
      | _ => chat_context }

def handle_leave (packet : BitchatPacket) : Client Unit :=
  if leaves_channel packet then pure () else modifyClient (·.lose_peer packet.sender_id_str)

/-! ## Dispatch -/

/-- The chunk of a fragment, and the packet that it completes. -/
def collect_fragment (packet : BitchatPacket) : Client (Option Bytes) := do
  let self ← getClient
  let (fragment_collector, result) := self.fragment_collector.add_fragment
    (slice packet.payload 0 8) (fromBE (slice packet.payload 8 10))
    (fromBE (slice packet.payload 10 12)) (packet.payload.getD 12 0) (packet.payload.drop 13)
    packet.sender_id_str
  modifyClient fun self => { self with fragment_collector }
  return result.map Prod.fst

/-- `handle_packet`. Packets inside packets go through it once more; `depth`
is what the stack has room for. -/
def handle_packet : Nat → Env → BitchatPacket → Bytes → Client Unit
  | 0, _, _, _ => throw (.ValueError "maximum recursion depth exceeded")
  | depth + 1, env, packet, raw =>
    match packet.msg_type with
    | .ANNOUNCE => handle_announce env packet
    | .MESSAGE => handle_message env packet raw
    | .FRAGMENT_START | .FRAGMENT_CONTINUE | .FRAGMENT_END => do
      if 13 ≤ packet.payload.length then
        match ← collect_fragment packet with
        | some complete_data =>
          let reassembled_packet ← outcome (parse_bitchat_packet complete_data)
          handle_packet depth (env.call 0) reassembled_packet complete_data
        | none => pure ()
      else pure ()
      relay (env.call 1) raw packet.ttl
    | .KEY_EXCHANGE => handle_key_exchange env packet
    | .NOISE_HANDSHAKE_INIT => handle_noise_handshake_init env packet
    | .NOISE_HANDSHAKE_RESP => handle_noise_handshake_resp env packet
    | .NOISE_ENCRYPTED => do
      let self ← getClient
      if is_blocked self packet.sender_id_str then pure ()
      else suppress do
        let decrypted_payload ← onService
          (EncryptionService.decrypt_from_peer packet.sender_id_str packet.payload)
        if decrypted_payload.head? = some 1 then do
          let inner_packet ← outcome (parse_bitchat_packet decrypted_payload)
          if inner_packet.msg_type = .MESSAGE then
            accept_private env inner_packet.payload packet.sender_id_str
          else handle_packet depth env inner_packet decrypted_payload
        else pure ()
    | .LEAVE => handle_leave packet
    | .CHANNEL_ANNOUNCE => handle_channel_announce packet
    | .NOISE_IDENTITY_ANNOUNCE => handle_noise_identity_announce env packet
    | _ => pure ()

/-- `sys.getrecursionlimit()`, as if a packet inside a packet took one frame. -/
def recursion_limit : Nat := 1000

/-- An exception of a handler is dropped, and so are the client's own packets. -/
def notification_handler (env : Env) (data : Bytes) : Client Unit := do
  let self ← getClient
  match parse_bitchat_packet data with
  | .error _ => pure ()
  | .ok packet =>
    if packet.sender_id_str = self.my_peer_id.str then pure ()
    else suppress (handle_packet recursion_limit env packet data)

end client
