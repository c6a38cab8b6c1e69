-- The Noise layer of `bitchat/encryption.py`: the cipher state, the XX
-- handshake with its two token interpreters, and the session table.
import BitchatNode.Packages
import BitchatNode.Python.Dict
import BitchatNode.Python.Exec

namespace bitchat.encryption

open python Crypto

/-! ## NoiseCipherState -/

structure NoiseCipherState where
  key : Option Bytes
  nonce : Nat

namespace NoiseCipherState

def init : NoiseCipherState := ⟨none, 0⟩

def initialize_key (key : Bytes) : NoiseCipherState := ⟨some key, 0⟩

def has_key (self : NoiseCipherState) : Bool := self.key.isSome

/-- Four zero bytes and the counter as 8 little-endian bytes. -/
def nonce_bytes (nonce : Nat) : Bytes := [0, 0, 0, 0] ++ (be 8 nonce).reverse

/-- The counters that `to_bytes(8)` takes. -/
def NONCES : Nat := 2 ^ 64

variable [Crypto]

def encrypt (plaintext associated_data : Bytes) : Py PyError NoiseCipherState Bytes := do
  let self ← get
  match self.key with
  | none => throw (.NoiseError "Cipher not initialized")
  | some key =>
    if NONCES ≤ self.nonce then throw .OverflowError
    else do
      set { self with nonce := self.nonce + 1 }
      return chacha_encrypt key (nonce_bytes self.nonce) plaintext associated_data

/-- The counter goes up whether or not the ciphertext is accepted. -/
def decrypt (ciphertext associated_data : Bytes) : Py PyError NoiseCipherState Bytes := do
  let self ← get
  match self.key with
  | none => throw (.NoiseError "Cipher not initialized")
  | some key =>
    if NONCES ≤ self.nonce then throw .OverflowError
    else do
      set { self with nonce := self.nonce + 1 }
      match chacha_decrypt key (nonce_bytes self.nonce) ciphertext associated_data with
      | some plaintext => return plaintext
      | none => throw .InvalidTag

end NoiseCipherState

/-! ## NoiseHandshakeState -/

inductive NoiseRole
  | INITIATOR
  | RESPONDER
deriving DecidableEq, Repr

inductive Token
  | e | s | ee | es | se
deriving DecidableEq, Repr

/-- `_get_xx_patterns`. -/
def message_patterns : List (List Token) := [[.e], [.e, .ee, .s, .es], [.s, .se]]

variable [Crypto]

structure NoiseHandshakeState where
  role : NoiseRole
  local_static_private : PrivateKey
  remote_static_public : Option PublicKey
  local_ephemeral_private : Option PrivateKey
  remote_ephemeral_public : Option PublicKey
  chaining_key : Bytes
  hash_state : Bytes
  cipher_state : NoiseCipherState
  current_pattern : Nat

def NOISE_PROTOCOL_NAME : Bytes := encode "Noise_XX_25519_ChaChaPoly_SHA256".toList

namespace NoiseHandshakeState

/-- `_initialize_symmetric_state`. -/
def initial_hash : Bytes :=
  if NOISE_PROTOCOL_NAME.length ≤ 32 then
    NOISE_PROTOCOL_NAME ++ List.replicate (32 - NOISE_PROTOCOL_NAME.length) 0
  else sha256 NOISE_PROTOCOL_NAME

def init (role : NoiseRole) (local_static_key : PrivateKey) : NoiseHandshakeState where
  role
  local_static_private := local_static_key
  remote_static_public := none
  local_ephemeral_private := none
  remote_ephemeral_public := none
  chaining_key := initial_hash
  hash_state := initial_hash
  cipher_state := .init
  current_pattern := 0

/-- The first output of the HKDF step and the second. -/
def hkdf (chaining_key input_key_material : Bytes) : Bytes × Bytes :=
  let temp_key := hmac_sha256 chaining_key input_key_material
  let output1 := hmac_sha256 temp_key [1]
  (output1, hmac_sha256 temp_key (output1 ++ [2]))

def mix_key (input_key_material : Bytes) (self : NoiseHandshakeState) : NoiseHandshakeState :=
  { self with
    chaining_key := (hkdf self.chaining_key input_key_material).1
    cipher_state := .initialize_key (hkdf self.chaining_key input_key_material).2 }

def mix_hash (data : Bytes) (self : NoiseHandshakeState) : NoiseHandshakeState :=
  { self with hash_state := sha256 (self.hash_state ++ data) }

/-- A call on the cipher state of the handshake. -/
def onCipher {α : Type} (x : Py PyError NoiseCipherState α) : Py PyError NoiseHandshakeState α :=
  onPart NoiseHandshakeState.cipher_state (fun c self => { self with cipher_state := c }) x

def encrypt_and_hash (plaintext : Bytes) : Py PyError NoiseHandshakeState Bytes := do
  let self ← get
  if self.cipher_state.has_key then
    let ciphertext ← onCipher (NoiseCipherState.encrypt plaintext self.hash_state)
    modify (mix_hash ciphertext)
    return ciphertext
  else
    modify (mix_hash plaintext)
    return plaintext

def decrypt_and_hash (ciphertext : Bytes) : Py PyError NoiseHandshakeState Bytes := do
  let self ← get
  if self.cipher_state.has_key then
    let plaintext ← onCipher (NoiseCipherState.decrypt ciphertext self.hash_state)
    modify (mix_hash ciphertext)
    return plaintext
  else
    modify (mix_hash ciphertext)
    return ciphertext

/-- The private and the public operand of the exchange that a token calls
for. `es` and `se` depend on the role. -/
def dh_operands (self : NoiseHandshakeState) : Token → Except PyError (PrivateKey × PublicKey)
  | .ee => match self.local_ephemeral_private, self.remote_ephemeral_public with
    | some e, some re => .ok (e, re)
    | _, _ => .error (.NoiseError "Missing ephemeral keys for ee")
  | .es => match self.role with
    | .INITIATOR => match self.local_ephemeral_private, self.remote_static_public with
      | some e, some rs => .ok (e, rs)
      | _, _ => .error (.NoiseError "Missing keys for es")
    | .RESPONDER => match self.remote_ephemeral_public with
      | some re => .ok (self.local_static_private, re)
      | none => .error (.NoiseError "Missing keys for es")
  | .se => match self.role with
    | .INITIATOR => match self.remote_ephemeral_public with
      | some re => .ok (self.local_static_private, re)
      | none => .error (.NoiseError "Missing keys for se")
    | .RESPONDER => match self.local_ephemeral_private, self.remote_static_public with
      | some e, some rs => .ok (e, rs)
      | _, _ => .error (.NoiseError "Missing keys for se")
  -- `e` and `s` call for no exchange
  | .e | .s => .error (.NoiseError "")

/-- The branches `ee`, `es` and `se`, which the two interpreters share. -/
def mix_dh (token : Token) : Py PyError NoiseHandshakeState Unit := do
  let self ← get
  let (priv, pub) ← outcome (self.dh_operands token)
  match exchange priv pub with
  | some shared => modify (mix_key shared)
  | none => throw (.ValueError "Error computing shared key.")

/-- One token of `write_message`. `generated` is the key that
`X25519PrivateKey.generate()` draws. -/
def write_token (generated : PrivateKey) : Token → Py PyError NoiseHandshakeState Bytes
  | .e => do
    let ephemeral_bytes := public_bytes (public_key generated)
    modify fun self => { self with local_ephemeral_private := some generated }
    modify (mix_hash ephemeral_bytes)
    return ephemeral_bytes
  | .s => do
    let self ← get
    encrypt_and_hash (public_bytes (public_key self.local_static_private))
  | token => do
    mix_dh token
    return []

def write_tokens (generated : PrivateKey) : List Token → Py PyError NoiseHandshakeState Bytes
  | [] => return []
  | token :: rest => do
    let head ← write_token generated token
    let tail ← write_tokens generated rest
    return head ++ tail

def write_message (payload : Bytes) (generated : PrivateKey) :
    Py PyError NoiseHandshakeState Bytes := do
  let self ← get
  match message_patterns[self.current_pattern]? with
  | none => throw (.NoiseError "Handshake complete")
  | some patterns =>
    let message_buffer ← write_tokens generated patterns
    let encrypted_payload ← encrypt_and_hash payload
    modify fun self => { self with current_pattern := self.current_pattern + 1 }
    return message_buffer ++ encrypted_payload

/-- One token of `read_message`: what it leaves of the buffer. -/
def read_token (buffer : Bytes) : Token → Py PyError NoiseHandshakeState Bytes
  | .e =>
    if buffer.length < 32 then
      throw (.NoiseError "Invalid message: insufficient data for ephemeral key")
    else match from_public_bytes (buffer.take 32) with
      | none => throw (.ValueError "An X25519 public key is 32 bytes long")
      | some re => do
        modify fun self => { self with remote_ephemeral_public := some re }
        modify (mix_hash (buffer.take 32))
        return buffer.drop 32
  | .s => do
    let self ← get
    let key_length := if self.cipher_state.has_key then 48 else 32
    if buffer.length < key_length then
      throw (.NoiseError "Invalid message: insufficient data for static key")
    else
      let decrypted ← decrypt_and_hash (buffer.take key_length)
      match from_public_bytes decrypted with
      | none => throw (.ValueError "An X25519 public key is 32 bytes long")
      | some rs =>
        modify fun self => { self with remote_static_public := some rs }
        return buffer.drop key_length
  | token => do
    mix_dh token
    return buffer

def read_tokens (buffer : Bytes) : List Token → Py PyError NoiseHandshakeState Bytes
  | [] => return buffer
  | token :: rest => do
    let buffer ← read_token buffer token
    read_tokens buffer rest

def read_message (message : Bytes) : Py PyError NoiseHandshakeState Bytes := do
  let self ← get
  match message_patterns[self.current_pattern]? with
  | none => throw (.NoiseError "Handshake complete")
  | some patterns =>
    let buffer ← read_tokens message patterns
    let payload ← decrypt_and_hash buffer
    modify fun self => { self with current_pattern := self.current_pattern + 1 }
    return payload

def is_handshake_complete (self : NoiseHandshakeState) : Bool :=
  message_patterns.length ≤ self.current_pattern

/-- The send cipher and the receive cipher. -/
def get_transport_ciphers (self : NoiseHandshakeState) :
    Except PyError (NoiseCipherState × NoiseCipherState) :=
  if self.is_handshake_complete then
    let c1 := NoiseCipherState.initialize_key (hkdf self.chaining_key []).1
    let c2 := NoiseCipherState.initialize_key (hkdf self.chaining_key []).2
    match self.role with
    | .INITIATOR => .ok (c1, c2)
    | .RESPONDER => .ok (c2, c1)
  else .error (.NoiseError "Handshake not complete")

end NoiseHandshakeState

/-! ## NoiseSession and EncryptionService -/

structure NoiseSession where
  peer_id : Str
  send_cipher : NoiseCipherState
  receive_cipher : NoiseCipherState
  remote_static_key : PublicKey
  established_time : UInt64

def fingerprint (key : PublicKey) : Str := hex (sha256 (public_bytes key))

def NoiseSession.get_fingerprint (self : NoiseSession) : Str := fingerprint self.remote_static_key

structure EncryptionService where
  static_identity_key : PrivateKey
  sessions : Dict Str NoiseSession
  handshake_states : Dict Str NoiseHandshakeState

namespace EncryptionService

def init (static_identity_key : PrivateKey) : EncryptionService :=
  ⟨static_identity_key, .empty, .empty⟩

def get_public_key (self : EncryptionService) : Bytes :=
  public_bytes (public_key self.static_identity_key)

def sign_data (self : EncryptionService) (data : Bytes) : Bytes :=
  sha256 (data ++ self.get_public_key)

def is_session_established (self : EncryptionService) (peer_id : Str) : Bool :=
  self.sessions.has peer_id

def get_peer_fingerprint (self : EncryptionService) (peer_id : Str) : Option Str :=
  (self.sessions.get? peer_id).map NoiseSession.get_fingerprint

def remove_session (peer_id : Str) (self : EncryptionService) : EncryptionService :=
  { self with
    sessions := self.sessions.pop peer_id
    handshake_states := self.handshake_states.pop peer_id }

def clear_handshake_state (peer_id : Str) (self : EncryptionService) : EncryptionService :=
  { self with handshake_states := self.handshake_states.pop peer_id }

/-- `now` is the clock, and both are in microseconds. -/
def cleanup_old_sessions (now : UInt64) (max_age : Int) (self : EncryptionService) :
    EncryptionService :=
  let expired_peers := (self.sessions.entries.filter fun (_, session) =>
    (now.toNat : Int) - session.established_time.toNat > max_age).map Prod.fst
  { self with sessions := expired_peers.foldl Dict.pop self.sessions }

def initiate_handshake (peer_id : Str) (generated : PrivateKey) :
    Py PyError EncryptionService Bytes := do
  modify (remove_session peer_id)
  let self ← get
  -- `write_message` works on the object that the table holds
  let (message, handshake) := exec (NoiseHandshakeState.write_message [] generated)
    (.init .INITIATOR self.static_identity_key)
  set { self with handshake_states := self.handshake_states.set peer_id handshake }
  outcome message

/-- The body of the `try`: read the message, and write the next one if the
handshake is not complete. -/
def advance (message : Bytes) (generated : PrivateKey) :
    Py PyError NoiseHandshakeState (Option Bytes) := do
  let _ ← NoiseHandshakeState.read_message message
  let handshake ← get
  if handshake.is_handshake_complete then return none
  else
    let response ← NoiseHandshakeState.write_message [] generated
    return some response

/-- The session of a complete handshake. -/
def session_of (peer_id : Str) (now : UInt64) (handshake : NoiseHandshakeState) :
    Option NoiseSession :=
  match handshake.get_transport_ciphers, handshake.remote_static_public with
  | .ok (send_cipher, receive_cipher), some remote_static_key =>
    some { peer_id, send_cipher, receive_cipher, remote_static_key, established_time := now }
  | _, _ => none

/-- Returns the response, and the arguments of `on_peer_authenticated` where
it is called. -/
def process_handshake_message (peer_id : Str) (message : Bytes) (generated : PrivateKey)
    (now : UInt64) : Py PyError EncryptionService (Option Bytes × Option (Str × Str)) := do
  let self ← get
  if message = [] then throw (.NoiseError "Empty handshake message")
  else if message.length < 32 then
    throw (.NoiseError ("Handshake message too short: " ++ toString message.length ++ " bytes"))
  else
    let handshake :=
      (self.handshake_states.get? peer_id).getD (.init .RESPONDER self.static_identity_key)
    if handshake.is_handshake_complete then
      set { self with handshake_states := self.handshake_states.set peer_id handshake }
      return (none, none)
    else match exec (advance message generated) handshake with
      | (.error e, _) =>
        set (self.clear_handshake_state peer_id)
        throw (.NoiseError ("Handshake failed: " ++ e.text))
      | (.ok response, handshake) =>
        match session_of peer_id now handshake with
        | some session =>
          set { self with
            sessions := self.sessions.set peer_id session
            handshake_states := self.handshake_states.pop peer_id }
          return (response, some (peer_id, session.get_fingerprint))
        | none =>
          set { self with handshake_states := self.handshake_states.set peer_id handshake }
          return (response, none)

def encrypt (data : Bytes) (peer_id : Str) : Py PyError EncryptionService Bytes := do
  let self ← get
  match self.sessions.get? peer_id with
  | none => throw (.NoiseError ("No session with peer " ++ String.ofList peer_id))
  | some session =>
    let (ciphertext, send_cipher) := exec (NoiseCipherState.encrypt data []) session.send_cipher
    set { self with sessions := self.sessions.set peer_id { session with send_cipher } }
    outcome ciphertext

def encrypt_for_peer (peer_id : Str) (data : Bytes) : Py PyError EncryptionService Bytes :=
  encrypt data peer_id

def decrypt_from_peer (peer_id : Str) (data : Bytes) : Py PyError EncryptionService Bytes := do
  let self ← get
  match self.sessions.get? peer_id with
  | none => throw (.NoiseError ("No session with peer " ++ String.ofList peer_id))
  | some session =>
    let (plaintext, receive_cipher) := exec (NoiseCipherState.decrypt data []) session.receive_cipher
    set { self with sessions := self.sessions.set peer_id { session with receive_cipher } }
    outcome plaintext

/-- `nonce` is what `os.urandom(12)` draws. -/
def encrypt_for_channel (message : Str) (key nonce : Bytes) : Bytes :=
  nonce ++ chacha_encrypt key nonce (encode message) []

def derive_channel_key (password channel : Str) : Bytes := pbkdf2 (encode password) (encode channel)

end EncryptionService

end bitchat.encryption
