-- `bitchat.py`: announcements of peers, handshakes and private messages. The
-- sleeps are left out: a call runs to its end, and what it sends enters the
-- connection at once.
import BitchatNode.Client.Commands

namespace client

open python bitchat bitchat.protocol bitchat.encryption
open daemon (digits with_ttl handshake_timeout)

variable [ClientPackages]

/-! ## Handshakes -/

/-- Starts a handshake. What follows an exception is up to the caller. -/
def start_handshake (env : Env) (peer_id : Str) : Client Unit := do
  let handshake_message ← onService
    (EncryptionService.initiate_handshake peer_id (env.draw 0).generate)
  let self ← getClient
  let handshake_packet ← outcome (create_bitchat_packet_with_recipient self.my_peer_id.str
    (some peer_id) .NOISE_HANDSHAKE_INIT handshake_message none (env.draw 1))
  send_packet (env.call 2) (with_ttl handshake_packet 3)

/-- The identity announcement for a peer with a lower id. -/
def send_targeted_identity (env : Env) (peer_id : Str) : Client Unit := do
  let self ← getClient
  let timestamp_ms := (env.draw 0).timestamp_ms
  let public_key_bytes := self.encryption_service.get_public_key
  let signature := self.encryption_service.sign_data
    (encode self.my_peer_id.str ++ public_key_bytes ++ encode (digits timestamp_ms))
  let identity_payload ← outcome (encode_noise_identity_announcement_binary self.my_peer_id.str
    public_key_bytes public_key_bytes self.nickname timestamp_ms signature none)
  let identity_packet ← outcome (create_bitchat_packet_with_recipient self.my_peer_id.str
    (some peer_id) .NOISE_IDENTITY_ANNOUNCE identity_payload (some signature) (env.draw 1))
  send_packet (env.call 2) identity_packet

/-- A packet of the old key exchange. -/
def send_key_exchange (env : Env) (payload : Bytes) : Client Unit := do
  let self ← getClient
  let packet ← outcome (create_bitchat_packet self.my_peer_id.str .KEY_EXCHANGE payload
    (env.draw 0))
  send_packet (env.call 1) packet

def BitchatClient.name_peer (peer_id nickname : Str) (self : BitchatClient) : BitchatClient :=
  { self with peers := self.peers.set peer_id ⟨some nickname⟩ }

def handle_announce (env : Env) (packet : BitchatPacket) : Client Unit := do
  let self ← getClient
  modifyClient (·.name_peer packet.sender_id_str (strip (decodeIgnore packet.payload)))
  if self.peers.has packet.sender_id_str then pure ()
  else if self.my_peer_id.str < packet.sender_id_str then
    match ← attempt (start_handshake (env.call 0) packet.sender_id_str) with
    | .ok () => pure ()
    | .error _ => send_key_exchange (env.call 1) self.encryption_service.get_public_key
  else suppress (send_targeted_identity (env.call 0) packet.sender_id_str)

/-- The JSON form is never tried: the binary parser does not raise. -/
def handle_noise_identity_announce (env : Env) (packet : BitchatPacket) : Client Unit := do
  let self ← getClient
  if packet.sender_id_str = self.my_peer_id.str then pure ()
  else match parse_noise_identity_announcement_binary packet.payload with
  | .ok (some announcement) => do
    modifyClient (·.name_peer announcement.peerID announcement.nickname)
    if self.my_peer_id.str < announcement.peerID ∧
        ¬ self.encryption_service.is_session_established announcement.peerID then
      suppress (start_handshake env announcement.peerID)
    else pure ()
  | _ => pure ()

/-! ## Private messages -/

/-- Notes the time and starts the handshake. If that fails, the time is taken
back. -/
def attempt_handshake (env : Env) (target_peer_id : Str) (current_time : UInt64) :
    Client Unit := do
  modifyClient fun self => { self with
    handshake_attempt_times := self.handshake_attempt_times.set target_peer_id current_time }
  match ← attempt (start_handshake env target_peer_id) with
  | .ok () => pure ()
  | .error _ => modifyClient fun self => { self with
      handshake_attempt_times := self.handshake_attempt_times.pop target_peer_id }

def attempt_if_due (env : Env) (target_peer_id : Str) (current_time : UInt64) : Client Unit := do
  let self ← getClient
  match self.handshake_attempt_times.get? target_peer_id with
  | some last_attempt =>
    if current_time.toNat < last_attempt.toNat + handshake_timeout then pure ()
    else attempt_handshake env target_peer_id current_time
  | none => attempt_handshake env target_peer_id current_time

def BitchatClient.enqueue (peer_id : Str) (entry : Str × Str × Str) (self : BitchatClient) :
    BitchatClient :=
  { self with
    pending_private_messages := self.pending_private_messages.set peer_id
      ((self.pending_private_messages.get? peer_id).getD [] ++ [entry]) }

/-- The branch of `send_private_message` without a session. -/
def queue_private_message (env : Env) (content target_peer_id target_nickname : Str)
    (message_id : Option Str) : Client Unit := do
  let msg_id := if message_id.getD [] ≠ [] then message_id.getD [] else (env.draw 0).uuid.str
  modifyClient (·.enqueue target_peer_id (content, target_nickname, msg_id))
  attempt_if_due (env.call 2) target_peer_id (env.draw 1).time_us

/-- `needle in text`. -/
def mentions (needle text : String) : Bool := needle.toList <:+: text.toList

/-- A blocked write is tried once more. Other exceptions go on. -/
def send_with_retry (env : Env) (packet : Bytes) : Client Unit := do
  match ← attempt (send_packet (env.call 0) packet) with
  | .ok () => pure ()
  | .error send_error =>
    if mentions "could not complete without blocking" send_error.text then
      suppress (send_packet (env.call 1) packet)
    else throw send_error

/-- The `try` of `send_private_message`. -/
def seal_and_send (env : Env) (target_peer_id : Str) (inner_packet : Bytes) : Client Unit := do
  let self ← getClient
  let encrypted ← onService (EncryptionService.encrypt_for_peer target_peer_id inner_packet)
  let packet ← outcome (create_bitchat_packet_with_recipient self.my_peer_id.str
    (some target_peer_id) .NOISE_ENCRYPTED encrypted none (env.draw 0))
  send_with_retry (env.call 1) packet

/-- The branch of `send_private_message` with a session. The message gets an
id of its own. -/
def encrypt_private_message (env : Env) (content target_peer_id : Str) : Client Unit := do
  let self ← getClient
  let (payload, message_id) ← outcome (create_bitchat_message_payload_full self.nickname content none
    true self.my_peer_id.str false none (env.draw 0))
  modifyClient fun self => { self with
    delivery_tracker :=
      self.delivery_tracker.track_message message_id content true (env.draw 1).time_us }
  let inner_packet ← outcome (create_bitchat_packet_with_recipient self.my_peer_id.str
    (some target_peer_id) .MESSAGE payload none (env.draw 2))
  suppress (seal_and_send (env.call 3) target_peer_id (with_ttl inner_packet 7))

def send_private_message (env : Env) (content target_peer_id target_nickname : Str)
    (message_id : Option Str) : Client Unit := do
  let self ← getClient
  if self.connection = .none then pure ()
  else if self.encryption_service.is_session_established target_peer_id then
    encrypt_private_message env content target_peer_id
  else queue_private_message env content target_peer_id target_nickname message_id

/-- The loop of `send_pending_private_messages`. A blocked write ends it. -/
def send_each (env : Env) (peer_id : Str) : Nat → List (Str × Str × Str) → Client Unit
  | _, [] => pure ()
  | k, (content, nickname, message_id) :: rest => do
    match ← attempt (send_private_message (env.call k) content peer_id nickname (some message_id)) with
    | .ok () => send_each env peer_id (k + 1) rest
    | .error e =>
      if mentions "blocking" e.text.toLower then
        modifyClient (·.enqueue peer_id (content, nickname, message_id))
      else send_each env peer_id (k + 1) rest

def send_pending_private_messages (env : Env) (peer_id : Str) : Client Unit := do
  let self ← getClient
  modifyClient fun self => { self with
    pending_private_messages := self.pending_private_messages.pop peer_id }
  send_each env peer_id 0 ((self.pending_private_messages.get? peer_id).getD [])

/-! ## Handshake messages -/

/-- `process_handshake_message` with its callback, which creates a task. -/
def process_handshake_message (env : Env) (peer_id : Str) (message : Bytes) :
    Client (Option Bytes) := do
  let (response, authenticated) ← onService (EncryptionService.process_handshake_message peer_id
    message (env.draw 0).generate (env.draw 0).time_us)
  match authenticated with
  | some (peer_id, _) => emit (.send_pending_private_messages peer_id)
  | none => pure ()
  -- an empty response counts as none
  return response.filter (· ≠ [])

/-- The packet names another recipient. -/
def for_another (self : BitchatClient) (packet : BitchatPacket) : Bool :=
  packet.recipient_id_str.getD [] ≠ [] ∧ packet.recipient_id_str ≠ some self.my_peer_id.str

/-- Sends the next handshake message, if there is one. -/
def answer_handshake (answer : MessageType) (env : Env) (sender_id : Str) :
    Option Bytes → Client Unit
  | some response => do
    let self ← getClient
    let packet ← outcome (create_bitchat_packet_with_recipient self.my_peer_id.str
      (some sender_id) answer response none (env.draw 0))
    send_packet (env.call 1) (with_ttl packet 3)
  | none => pure ()

/-- What follows once there is a session. -/
def session_established (env : Env) (sender_id : Str) : Client Unit := do
  let self ← getClient
  if self.encryption_service.is_session_established sender_id then do
    modifyClient fun self => { self with
      handshake_attempt_times := self.handshake_attempt_times.pop sender_id }
    send_pending_private_messages env sender_id
  else pure ()

/-- The `try` of the two handshake handlers. -/
def take_handshake (answer : MessageType) (env : Env) (packet : BitchatPacket) : Client Unit := do
  let response ← process_handshake_message (env.call 0) packet.sender_id_str packet.payload
  answer_handshake answer (env.call 1) packet.sender_id_str response
  session_established (env.call 2) packet.sender_id_str

/-- The two handshake handlers. They differ in the type of the answer. -/
def handle_noise_handshake (answer : MessageType) (env : Env) (packet : BitchatPacket) :
    Client Unit := do
  let self ← getClient
  if for_another self packet then pure ()
  else
    match ← attempt (take_handshake answer env packet) with
    | .ok () => pure ()
    | .error _ => modifyClient fun self => { self with
        encryption_service :=
          self.encryption_service.clear_handshake_state packet.sender_id_str }

def handle_noise_handshake_init : Env → BitchatPacket → Client Unit :=
  handle_noise_handshake .NOISE_HANDSHAKE_RESP

def handle_noise_handshake_resp : Env → BitchatPacket → Client Unit :=
  handle_noise_handshake .NOISE_HANDSHAKE_INIT

/-- The end of `handle_key_exchange`: a peer that is not known yet gets a
handshake of its own. -/
def greet_new_peer (env : Env) (sender_id : Str) : Client Unit := do
  let self ← getClient
  if self.encryption_service.is_session_established sender_id ∧ ¬ self.peers.has sender_id then do
    let handshake_message ← onService
      (EncryptionService.initiate_handshake sender_id (env.draw 0).generate)
    send_key_exchange (env.call 1) handshake_message
  else pure ()

def handle_key_exchange (env : Env) (packet : BitchatPacket) : Client Unit :=
  suppress do
    match ← process_handshake_message (env.call 0) packet.sender_id_str packet.payload with
    | some response => send_key_exchange (env.call 1) response
    | none => pure ()
    greet_new_peer (env.call 2) packet.sender_id_str

end client
