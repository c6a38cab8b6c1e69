-- The packet formats of `bitchat/protocol.py`: the outer packet, the message
-- payload and the identity announcement, with the trackers that the daemon
-- keeps beside them.
import BitchatNode.Packages
import BitchatNode.Python.Dict
import BitchatNode.Python.Exec
import Mathlib.Data.Finset.Insert

namespace bitchat.protocol

open python

/-! ## Constants and types -/

def FLAG_HAS_RECIPIENT : UInt8 := 0x01
def FLAG_HAS_SIGNATURE : UInt8 := 0x02
def FLAG_IS_COMPRESSED : UInt8 := 0x04

def MSG_FLAG_IS_PRIVATE : UInt8 := 0x02
def MSG_FLAG_HAS_SENDER_PEER_ID : UInt8 := 0x10
def MSG_FLAG_HAS_CHANNEL : UInt8 := 0x40
def MSG_FLAG_IS_ENCRYPTED : UInt8 := 0x80

def BROADCAST_RECIPIENT : Bytes := List.replicate 8 0xFF

inductive MessageType
  | ANNOUNCE | KEY_EXCHANGE | LEAVE | MESSAGE
  | FRAGMENT_START | FRAGMENT_CONTINUE | FRAGMENT_END
  | CHANNEL_ANNOUNCE | CHANNEL_RETENTION
  | DELIVERY_ACK | DELIVERY_STATUS_REQUEST | READ_RECEIPT
  | NOISE_HANDSHAKE_INIT | NOISE_HANDSHAKE_RESP | NOISE_ENCRYPTED | NOISE_IDENTITY_ANNOUNCE
  | CHANNEL_KEY_VERIFY_REQUEST | CHANNEL_KEY_VERIFY_RESPONSE
  | CHANNEL_PASSWORD_UPDATE | CHANNEL_METADATA
  | VERSION_HELLO | VERSION_ACK
deriving DecidableEq, Repr

def MessageType.value : MessageType → UInt8
  | .ANNOUNCE => 0x01
  | .KEY_EXCHANGE => 0x02
  | .LEAVE => 0x03
  | .MESSAGE => 0x04
  | .FRAGMENT_START => 0x05
  | .FRAGMENT_CONTINUE => 0x06
  | .FRAGMENT_END => 0x07
  | .CHANNEL_ANNOUNCE => 0x08
  | .CHANNEL_RETENTION => 0x09
  | .DELIVERY_ACK => 0x0A
  | .DELIVERY_STATUS_REQUEST => 0x0B
  | .READ_RECEIPT => 0x0C
  | .NOISE_HANDSHAKE_INIT => 0x10
  | .NOISE_HANDSHAKE_RESP => 0x11
  | .NOISE_ENCRYPTED => 0x12
  | .NOISE_IDENTITY_ANNOUNCE => 0x13
  | .CHANNEL_KEY_VERIFY_REQUEST => 0x14
  | .CHANNEL_KEY_VERIFY_RESPONSE => 0x15
  | .CHANNEL_PASSWORD_UPDATE => 0x16
  | .CHANNEL_METADATA => 0x17
  | .VERSION_HELLO => 0x20
  | .VERSION_ACK => 0x21

def MessageType.all : List MessageType :=
  [.ANNOUNCE, .KEY_EXCHANGE, .LEAVE, .MESSAGE, .FRAGMENT_START, .FRAGMENT_CONTINUE, .FRAGMENT_END,
    .CHANNEL_ANNOUNCE, .CHANNEL_RETENTION, .DELIVERY_ACK, .DELIVERY_STATUS_REQUEST, .READ_RECEIPT,
    .NOISE_HANDSHAKE_INIT, .NOISE_HANDSHAKE_RESP, .NOISE_ENCRYPTED, .NOISE_IDENTITY_ANNOUNCE,
    .CHANNEL_KEY_VERIFY_REQUEST, .CHANNEL_KEY_VERIFY_RESPONSE, .CHANNEL_PASSWORD_UPDATE,
    .CHANNEL_METADATA, .VERSION_HELLO, .VERSION_ACK]

/-- `MessageType(b)`, or `none` where Python raises `ValueError`. -/
def MessageType.ofByte (b : UInt8) : Option MessageType :=
  MessageType.all.find? fun t => t.value = b

@[simp] theorem MessageType.ofByte_value (t : MessageType) : ofByte t.value = some t := by
  cases t <;> decide

structure Peer where
  nickname : Option Str

structure BitchatPacket where
  msg_type : MessageType
  sender_id : Bytes
  sender_id_str : Str
  recipient_id : Option Bytes
  recipient_id_str : Option Str
  payload : Bytes
  ttl : UInt8
deriving DecidableEq

structure BitchatMessage where
  id : Str
  content : Str
  channel : Option Str
  is_encrypted : Bool
  encrypted_content : Option Bytes
deriving DecidableEq

/-! ## Trackers -/

structure DeliveryTracker where
  pending_messages : Dict Str (Str × UInt64 × Bool)
  sent_acks : Finset Str

namespace DeliveryTracker

def init : DeliveryTracker := ⟨.empty, ∅⟩

def track_message (message_id content : Str) (is_private : Bool) (now : UInt64)
    (self : DeliveryTracker) : DeliveryTracker :=
  { self with pending_messages := self.pending_messages.set message_id (content, now, is_private) }

/-- Whether the message was pending, and the tracker without it. -/
def mark_delivered (message_id : Str) (self : DeliveryTracker) : Bool × DeliveryTracker :=
  (self.pending_messages.has message_id,
    { self with pending_messages := self.pending_messages.pop message_id })

def should_send_ack (ack_id : Str) (self : DeliveryTracker) : Bool × DeliveryTracker :=
  if ack_id ∈ self.sent_acks then (false, self)
  else (true, { self with sent_acks := insert ack_id self.sent_acks })

end DeliveryTracker

structure FragmentCollector where
  fragments : Dict Str (Dict Int Bytes)
  metadata : Dict Str (Int × UInt8 × Str)

namespace FragmentCollector

def init : FragmentCollector := ⟨.empty, .empty⟩

/-- The chunks `0`, ..., `total - 1` in order, or `none` if one is missing. -/
def collect (fragment_map : Dict Int Bytes) (total : Int) : Option Bytes :=
  ((List.range total.toNat).mapM fun i : Nat => fragment_map.get? i).map List.flatten

/-- The complete data and the sender on file, once as many chunks are there
as the current call says. -/
def add_fragment (self : FragmentCollector) (fragment_id : Bytes) (index total : Int)
    (original_type : UInt8) (data : Bytes) (sender_id : Str) :
    FragmentCollector × Option (Bytes × Str) :=
  let fragment_id_hex := hex fragment_id
  let self := if self.fragments.has fragment_id_hex then self else
    { fragments := self.fragments.set fragment_id_hex .empty
      metadata := self.metadata.set fragment_id_hex (total, original_type, sender_id) }
  let fragment_map := ((self.fragments.get? fragment_id_hex).getD .empty).set index data
  let self := { self with fragments := self.fragments.set fragment_id_hex fragment_map }
  if (fragment_map.size : Int) = total then
    match collect fragment_map total with
    | none => (self, none)
    | some complete_data =>
      let sender := ((self.metadata.get? fragment_id_hex).map (·.2.2)).getD "Unknown".toList
      ({ fragments := self.fragments.pop fragment_id_hex
         metadata := self.metadata.pop fragment_id_hex }, some (complete_data, sender))
  else (self, none)

end FragmentCollector

/-! ## The packet -/

def HEADER_SIZE : Nat := 13
def SENDER_ID_SIZE : Nat := 8
def RECIPIENT_ID_SIZE : Nat := 8

/-- The flag bit is set. -/
def hasFlag (flags flag : UInt8) : Bool := flags &&& flag ≠ 0

variable [Packages]

/-- `decompress` of `bitchat/compression.py`. -/
def decompress (data : Bytes) : Except PyError Bytes :=
  match Packages.lz4_decompress data with
  | some data => .ok data
  | none => .error (.ValueError "Decompression failed")

/-- The byte indices are all below 21, which the size check has made sure of;
the slices may come out short. -/
def parse_bitchat_packet (data : Bytes) : Except PyError BitchatPacket :=
  if data.length < HEADER_SIZE + SENDER_ID_SIZE then .error (.ValueError "Packet too small")
  else if data.getD 0 0 ≠ 1 then .error (.ValueError "Unsupported version")
  else match MessageType.ofByte (data.getD 1 0) with
  | none => .error (.ValueError "not a valid MessageType")
  | some msg_type =>
    let ttl := data.getD 2 0
    let flags := data.getD 11 0
    let payload_len := fromBE (slice data 12 14)
    let sender_id := rstripZero (slice data 14 22)
    let recipient_id := if hasFlag flags FLAG_HAS_RECIPIENT then
      some (rstripZero (slice data 22 (22 + RECIPIENT_ID_SIZE))) else none
    let offset := if hasFlag flags FLAG_HAS_RECIPIENT then 22 + RECIPIENT_ID_SIZE else 22
    let payload := slice data offset (offset + payload_len)
    let packet payload : BitchatPacket :=
      { msg_type, sender_id, sender_id_str := hex sender_id, recipient_id,
        recipient_id_str := recipient_id.map hex, payload, ttl }
    if hasFlag flags FLAG_IS_COMPRESSED then packet <$> decompress payload
    else .ok (packet payload)

/-- `struct.pack('>H', n)`. -/
def packH (n : Nat) : Except PyError Bytes :=
  if n < 65536 then .ok (be 2 n) else .error .StructError

/-- `bytes.fromhex`. -/
def fromHex (s : Str) : Except PyError Bytes :=
  match fromhex s with
  | some data => .ok data
  | none => .error (.ValueError "non-hexadecimal number found in fromhex() arg")

/-- Eight bytes of an id: cut off, or filled up with zeros. -/
def id8 (id : Bytes) : Bytes := id.take 8 ++ List.replicate (8 - id.length) 0

def block_sizes : List Nat := [256, 512, 1024, 2048]

/-- Padding up to the next block size, where 255 bytes are enough for it. -/
def pad_packet (packet : Bytes) (entropy : Entropy) : Bytes :=
  let total_size := packet.length + 16
  let target_size := (block_sizes.find? fun block_size => total_size ≤ block_size).getD packet.length
  let padding_needed := target_size - packet.length
  if 0 < padding_needed ∧ padding_needed ≤ 255 then
    packet ++ entropy.urandom (padding_needed - 1) ++ [UInt8.ofNat padding_needed]
  else packet

def exclude_recipient_types : List MessageType :=
  [.FRAGMENT_START, .FRAGMENT_CONTINUE, .FRAGMENT_END]

def create_bitchat_packet_with_recipient (sender_id : Str) (recipient_id : Option Str)
    (msg_type : MessageType) (payload : Bytes) (signature : Option Bytes) (draw : Draw) :
    Except PyError Bytes := do
  let has_recipient := recipient_id.isSome || msg_type ∉ exclude_recipient_types
  -- an empty signature counts as none
  let signature := signature.getD []
  let flags := (if has_recipient then FLAG_HAS_RECIPIENT else 0) |||
    (if signature ≠ [] then FLAG_HAS_SIGNATURE else 0)
  let payload_len ← packH payload.length
  let sender_bytes ← fromHex sender_id
  let recipient ← if has_recipient then
      match recipient_id with
      | none | some [] => .ok BROADCAST_RECIPIENT
      | some recipient_id => id8 <$> fromHex recipient_id
    else .ok []
  let packet := [1, msg_type.value, 7] ++ be 8 draw.timestamp_ms ++ [flags] ++ payload_len ++
    id8 sender_bytes ++ recipient ++ payload ++ signature
  return pad_packet packet draw.entropy

def create_bitchat_packet (sender_id : Str) (msg_type : MessageType) (payload : Bytes)
    (draw : Draw) : Except PyError Bytes :=
  create_bitchat_packet_with_recipient sender_id none msg_type payload none draw

def create_bitchat_packet_with_signature (sender_id : Str) (msg_type : MessageType)
    (payload : Bytes) (signature : Option Bytes) (draw : Draw) : Except PyError Bytes :=
  create_bitchat_packet_with_recipient sender_id none msg_type payload signature draw

/-! ## The message payload -/

/-- `data[i]`. -/
def byteAt (data : Bytes) (i : Nat) : Except PyError UInt8 :=
  match data[i]? with
  | some b => .ok b
  | none => .error .IndexError

/-- `struct.unpack('>H', data)[0]`. -/
def unpackH (data : Bytes) : Except PyError Nat :=
  if data.length = 2 then .ok (fromBE data) else .error .StructError

/-- `data.decode('utf-8')`. -/
def decodeUtf8 (data : Bytes) : Except PyError Str :=
  match decode data with
  | some s => .ok s
  | none => .error .UnicodeDecodeError

/-- The offset behind the sender's peer id, if there is one. -/
def skip_peer_id (data : Bytes) (offset : Nat) (has_sender_peer_id : Bool) : Except PyError Nat :=
  if has_sender_peer_id then do
    let peer_id_len ← byteAt data offset
    return offset + 1 + peer_id_len.toNat
  else .ok offset

/-- The channel, if there is one. -/
def read_channel (data : Bytes) (offset : Nat) (has_channel : Bool) :
    Except PyError (Option Str) :=
  if has_channel then do
    let channel_len ← byteAt data offset
    let channel ← decodeUtf8 (slice data (offset + 1) (offset + 1 + channel_len.toNat))
    return some channel
  else .ok none

def parse_bitchat_message_payload (data : Bytes) : Except PyError BitchatMessage := do
  let flags ← byteAt data 0
  let has_sender_peer_id := hasFlag flags MSG_FLAG_HAS_SENDER_PEER_ID
  let has_channel := hasFlag flags MSG_FLAG_HAS_CHANNEL
  let is_encrypted := hasFlag flags MSG_FLAG_IS_ENCRYPTED
  -- the timestamp takes the bytes 1 to 8
  let id_len ← byteAt data 9
  let id ← decodeUtf8 (slice data 10 (10 + id_len.toNat))
  let offset := 10 + id_len.toNat
  let sender_len ← byteAt data offset
  let _ ← decodeUtf8 (slice data (offset + 1) (offset + 1 + sender_len.toNat))
  let offset := offset + 1 + sender_len.toNat
  let content_len ← unpackH (slice data offset (offset + 2))
  let content_bytes := slice data (offset + 2) (offset + 2 + content_len)
  let offset := offset + 2 + content_len
  let offset ← skip_peer_id data offset has_sender_peer_id
  let channel ← read_channel data offset has_channel
  return {
    id
    content := if is_encrypted then [] else decodeIgnore content_bytes
    channel
    is_encrypted
    encrypted_content := if is_encrypted then some content_bytes else none }

/-- `data.append(n)`. -/
def packB (n : Nat) : Except PyError Bytes :=
  if n < 256 then .ok [UInt8.ofNat n] else .error (.ValueError "byte must be in range(0, 256)")

/-- A one-byte length and the bytes themselves. -/
def packShort (data : Bytes) : Except PyError Bytes := do
  let len ← packB data.length
  return len ++ data

/-- The field of a text that is left out if it is empty. -/
def packOptional (s : Str) : Except PyError Bytes :=
  if s ≠ [] then packShort (encode s) else .ok []

def create_bitchat_message_payload_full (sender content : Str) (channel : Option Str)
    (is_private : Bool) (sender_peer_id : Str) (is_encrypted : Bool)
    (encrypted_content : Option Bytes) (draw : Draw) : Except PyError (Bytes × Str) := do
  let message_id := draw.uuid.str
  let channel := channel.getD []
  let encrypted_content := encrypted_content.getD []
  let flags := (if is_private then MSG_FLAG_IS_PRIVATE else 0) |||
    (if sender_peer_id ≠ [] then MSG_FLAG_HAS_SENDER_PEER_ID else 0) |||
    (if channel ≠ [] then MSG_FLAG_HAS_CHANNEL else 0) |||
    (if is_encrypted then MSG_FLAG_IS_ENCRYPTED else 0)
  let id ← packShort (encode message_id)
  let sender ← packShort (encode sender)
  let payload_bytes := if is_encrypted ∧ encrypted_content ≠ [] then encrypted_content
    else encode content
  let payload_len ← packH payload_bytes.length
  let peer_id ← packOptional sender_peer_id
  let channel ← packOptional channel
  return ([flags] ++ be 8 draw.timestamp_ms ++ id ++ sender ++ payload_len ++ payload_bytes ++
    peer_id ++ channel, message_id)

/-! ## The identity announcement -/

structure NoiseIdentityAnnouncement where
  peerID : Str
  publicKey : Str
  signingPublicKey : Str
  nickname : Str
  timestamp_ms : Nat
  signature : Str
  previousPeerID : Option Str

/-- A one-byte length and that many bytes: the bytes and the next offset. -/
def readShort (data : Bytes) (offset : Nat) : Option (Bytes × Nat) := do
  let len ← data[offset]?
  if offset + 1 + len.toNat ≤ data.length then
    some (slice data (offset + 1) (offset + 1 + len.toNat), offset + 1 + len.toNat)
  else none

/-- `size` bytes: the bytes and the next offset. -/
def readFixed (data : Bytes) (offset size : Nat) : Option (Bytes × Nat) :=
  if offset + size ≤ data.length then some (slice data offset (offset + size), offset + size)
  else none

/-- `none` both where the source returns `None` and where its own `except`
turns a failed decoding into `None`: the function never raises. -/
def parse_noise_identity_announcement_binary (data : Bytes) :
    Except PyError (Option NoiseIdentityAnnouncement) :=
  .ok do
    let flags ← data[0]?
    let (peer_id, offset) ← readFixed data 1 8
    let (public_key, offset) ← readShort data offset
    let (signing_public_key, offset) ← readShort data offset
    let (nickname_bytes, offset) ← readShort data offset
    let nickname ← decode nickname_bytes
    let (timestamp, offset) ← readFixed data offset 8
    let (previous_peer_id, offset) ← if hasFlag flags 0x01 then do
        let (previous, offset) ← readFixed data offset 8
        pure (some (hex previous), offset)
      else pure (none, offset)
    let (signature, _) ← readShort data offset
    return {
      peerID := hex peer_id
      publicKey := hex public_key
      signingPublicKey := hex signing_public_key
      nickname
      timestamp_ms := fromBE timestamp
      signature := hex signature
      previousPeerID := previous_peer_id }

/-- `peer_id.ljust(16, '0')[:16]`. -/
def ljust16 (peer_id : Str) : Str := (peer_id ++ List.replicate (16 - peer_id.length) '0').take 16

/-- `timestamp` is in the unit that the caller uses; the encoder multiplies it
by 1000 and keeps the low 8 bytes. -/
def encode_noise_identity_announcement_binary (peer_id : Str) (public_key signing_public_key : Bytes)
    (nickname : Str) (timestamp : Nat) (signature : Bytes) (previous_peer_id : Option Str) :
    Except PyError Bytes := do
  let previous := previous_peer_id.getD []
  let flags : UInt8 := if previous ≠ [] then 0x01 else 0
  let peer_data ← fromHex (ljust16 peer_id)
  let public_key ← packShort public_key
  let signing_public_key ← packShort signing_public_key
  let nickname ← packShort (encode nickname)
  let prev_data ← if previous ≠ [] then fromHex (ljust16 previous) else .ok []
  let signature ← packShort signature
  return [flags] ++ peer_data ++ public_key ++ signing_public_key ++ nickname ++
    be 8 (timestamp * 1000) ++ prev_data ++ signature

/-! ## Utilities -/

/-- Removes PKCS#7 padding from a message payload. -/
def unpad_message (data : Bytes) : Bytes :=
  match data.getLast? with
  | none => data
  | some padding_length =>
    if padding_length = 0 ∨ data.length < padding_length.toNat then data
    else data.take (data.length - padding_length.toNat)

def should_send_ack (is_private : Bool) (channel : Option Str) (mentions : Option (List Str))
    (my_nickname : Str) (active_peer_count : Nat) : Bool :=
  if is_private then true
  else if channel.getD [] ≠ [] then
    active_peer_count < 10 || (mentions.getD []).contains my_nickname
  else false

end bitchat.protocol
