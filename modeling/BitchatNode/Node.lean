-- The state of a daemon node and what it does to the world outside: frames
-- written on its connections, calls of the API layer, and tasks that go on
-- after a sleep.
import BitchatNode.Encryption
import BitchatNode.PacketCodec

namespace daemon

open python bitchat bitchat.protocol bitchat.encryption

/-! ## Connections and saved state -/

/-- A connection of `daemon/transport.py`. -/
structure PeerConnection where
  host : Str
  port : Nat
  is_outgoing : Bool
deriving DecidableEq

/-- `str(n)`. -/
def digits (n : Nat) : Str := (toString n).toList

def PeerConnection.address (self : PeerConnection) : Str := self.host ++ ':' :: digits self.port

structure EncryptedPassword where
  nonce : Bytes
  ciphertext : Bytes

structure AppState where
  nickname : Option Str
  blocked_peers : Finset Str
  channel_creators : Dict Str Str
  joined_channels : List Str
  password_protected_channels : Finset Str
  channel_key_commitments : Dict Str Str
  favorites : Finset Str
  identity_key : Option Bytes
  encrypted_channel_passwords : Dict Str EncryptedPassword

/-- The defaults of the dataclass, with the identity key that `load_state`
generates. -/
def AppState.init (identity_key : Bytes) : AppState where
  nickname := none
  blocked_peers := ∅
  channel_creators := .empty
  joined_channels := []
  password_protected_channels := ∅
  channel_key_commitments := .empty
  favorites := ∅
  identity_key := some identity_key
  encrypted_channel_passwords := .empty

/-! ## The node -/

variable [Packages]

structure DeliveryAck where
  original_message_id : Packages.JsonValue
  ack_id : Packages.JsonValue
  recipient_id : Packages.JsonValue
  recipient_nickname : Packages.JsonValue
  timestamp : Packages.JsonValue
  hop_count : Packages.JsonValue

/-- A node with the table of open connections of its transport. -/
structure MeshNode where
  my_peer_id : PeerId
  nickname : Str
  app_state : AppState
  encryption_service : EncryptionService
  peers : Dict Str Peer
  peer_addresses : Dict Str Str
  bloom : Packages.BloomFilter
  processed_messages : Finset Str
  fragment_collector : FragmentCollector
  delivery_tracker : DeliveryTracker
  channel_keys : Dict Str Bytes
  channel_creators : Dict Str Str
  password_protected_channels : Finset Str
  channel_key_commitments : Dict Str Str
  discovered_channels : Finset Str
  blocked_peers : Finset Str
  handshake_attempt_times : Dict Str UInt64
  /-- Content, nickname and message id of each message that waits. -/
  pending_private_messages : Dict Str (List (Str × Str × Str))
  connections : Dict Str PeerConnection

/-- `handshake_timeout`, in microseconds. -/
def handshake_timeout : Nat := 5000000

/-- A task that goes on after a sleep, or that was created to run later. -/
inductive Later
  /-- `_relay` after its sleep. -/
  | relay (raw : Bytes) (ttl : UInt8)
  /-- `_send_pending_private_messages`, as `_on_peer_authenticated` creates it. -/
  | send_pending_private_messages (peer_id : Str)
  /-- The rest of the loop of `_send_pending_private_messages`. -/
  | send_each (peer_id : Str) (messages : List (Str × Str × Str))

/-- What a node does to the world outside. -/
inductive Action
  /-- Bytes handed to the writer of the connection at an address. -/
  | write (address : Str) (frame : Bytes)
  | later (task : Later)
  | on_message (message : BitchatMessage) (sender_id : Str) (is_private : Bool)
  | on_peer_joined (peer_id nickname : Str)
  | on_peer_left (peer_id nickname : Str)
  | on_delivery_ack (ack : DeliveryAck)
  | saved (state : AppState)
  /-- A reassembled packet goes to the handler of its type. -/
  | dispatched (packet : BitchatPacket)

/-- `bytearray(packet)` with its TTL byte written. -/
def with_ttl (packet : Bytes) (ttl : UInt8) : Bytes := packet.set 2 ttl

/-- The packets that wait for the end of the sleep in `_relay`, as it will
send them: the bytes that came in, with their TTL lowered by one. -/
def relays (out : List Action) : List Bytes :=
  out.filterMap fun
    | .later (.relay raw ttl) => some (with_ttl raw (ttl - 1))
    | _ => none

/-- The calls of `on_message`. -/
def deliveries (out : List Action) : List (BitchatMessage × Str × Bool) :=
  out.filterMap fun
    | .on_message message sender_id is_private => some (message, sender_id, is_private)
    | _ => none

/-- The reassembled packets that went to a handler. -/
def dispatches (out : List Action) : List BitchatPacket :=
  out.filterMap fun
    | .dispatched packet => some packet
    | _ => none

/-- The frames written, each with the address of its connection. -/
def writes (out : List Action) : List (Str × Bytes) :=
  out.filterMap fun
    | .write address frame => some (address, frame)
    | _ => none

structure World where
  node : MeshNode
  /-- What the node has done, oldest first. -/
  out : List Action

/-- What one task reads from outside: the clock and the random source at each
of its calls, and the addresses on which a write fails. -/
structure Env where
  draw : Nat → Draw
  write_fails : Str → Bool

/-- The draws after the first `n`. -/
def Env.skip (env : Env) (n : Nat) : Env := { env with draw := fun i => env.draw (n + i) }

abbrev Mesh := Py PyError World

def emit (action : Action) : Mesh Unit := modify fun w => { w with out := w.out ++ [action] }

def node : Mesh MeshNode := World.node <$> get

def modifyNode (f : MeshNode → MeshNode) : Mesh Unit := modify fun w => { w with node := f w.node }

/-- A call on the encryption service of the node. -/
def onService {α : Type} (x : Py PyError EncryptionService α) : Mesh α :=
  onPart (fun w => w.node.encryption_service)
    (fun s w => { w with node := { w.node with encryption_service := s } }) x

@[simp] theorem exec_emit (action : Action) (w : World) :
    exec (emit action) w = (.ok (), { w with out := w.out ++ [action] }) := rfl

@[simp] theorem exec_node (w : World) : exec node w = (.ok w.node, w) := rfl

@[simp] theorem exec_modifyNode (f : MeshNode → MeshNode) (w : World) :
    exec (modifyNode f) w = (.ok (), { w with node := f w.node }) := rfl

@[simp] theorem exec_onService {α : Type} (x : Py PyError EncryptionService α) (w : World) :
    exec (onService x) w = ((exec x w.node.encryption_service).1,
      { w with node := { w.node with
        encryption_service := (exec x w.node.encryption_service).2 } }) := rfl

/-! ## Losing a peer -/

/-- `_remove_peer`. -/
def remove_peer (peer_id : Str) : Mesh Unit := do
  let self ← node
  modifyNode fun self => { self with
    peers := self.peers.pop peer_id
    peer_addresses := self.peer_addresses.pop peer_id
    pending_private_messages := self.pending_private_messages.pop peer_id
    encryption_service := self.encryption_service.remove_session peer_id }
  let nickname := ((self.peers.get? peer_id).bind Peer.nickname).getD []
  if nickname ≠ [] then emit (.on_peer_left peer_id nickname) else pure ()

/-- `_on_peer_disconnected`: the first peer that is filed under the address. -/
def on_peer_disconnected (conn : PeerConnection) : Mesh Unit := do
  let self ← node
  match self.peer_addresses.entries.find? fun e => e.2 = conn.address with
  | some (peer_id, _) => if peer_id ≠ [] then remove_peer peer_id else pure ()
  | none => pure ()

/-! ## Transport -/

def MAX_PACKET_SIZE : Nat := 10 * 1024 * 1024

/-- `_on_read_done`. -/
def on_read_done (conn : PeerConnection) : Mesh Unit := do
  modifyNode fun self => { self with connections := self.connections.pop conn.address }
  on_peer_disconnected conn

/-- The length header and the packet itself. -/
def frame (packet : Bytes) : Except PyError Bytes := do
  let header ← packH packet.length
  return header ++ packet

def send_packet (env : Env) (conn : PeerConnection) (packet : Bytes) : Mesh Unit := do
  if MAX_PACKET_SIZE < packet.length then throw (.ValueError "Packet too large")
  else do
    let frame ← outcome (frame packet)
    if env.write_fails conn.address then do
      on_read_done conn
      throw .ConnectionError
    else emit (.write conn.address frame)

/-- The loop of `broadcast_packet` over the connections that were open when
it began. -/
def broadcast_each (env : Env) (packet : Bytes) (exclude : List Str) :
    List (Str × PeerConnection) → Mesh Unit
  | [] => pure ()
  | (addr, conn) :: rest =>
    if addr ∈ exclude then broadcast_each env packet exclude rest
    else do
      match ← attempt (send_packet env conn packet) with
      | .ok () => broadcast_each env packet exclude rest
      | .error .ConnectionError => broadcast_each env packet exclude rest
      | .error e => throw e

def broadcast_packet (env : Env) (packet : Bytes) (exclude : List Str) : Mesh Unit := do
  let self ← node
  broadcast_each env packet exclude self.connections.entries

/-- `_raw_send`. No caller excludes an address. -/
def raw_send (env : Env) (packet : Bytes) : Mesh Unit := broadcast_packet env packet []

/-- `_get_conn_for_peer`. -/
def MeshNode.get_conn_for_peer (self : MeshNode) (peer_id : Str) : Option PeerConnection :=
  match self.peer_addresses.get? peer_id with
  | none | some [] => none
  | some addr => self.connections.get? addr

/-- `_send_to_peer`. -/
def send_to_peer (env : Env) (peer_id : Str) (packet : Bytes) : Mesh Unit := do
  let self ← node
  match self.get_conn_for_peer peer_id with
  | none => pure ()
  | some conn => send_packet env conn packet

/-! ## Starting a node -/

/-- `derive_encryption_key` of `bitchat/persistence.py`. -/
def derive_encryption_key (identity_key : Bytes) : Bytes :=
  Crypto.sha256 (encode "bitchat-password-encryption".toList ++ identity_key)

/-- `none` where Python raises. -/
def decrypt_password (encrypted : EncryptedPassword) (identity_key : Bytes) : Option Str := do
  let plaintext ← Crypto.aesgcm_decrypt (derive_encryption_key identity_key) encrypted.nonce
    encrypted.ciphertext
  decode plaintext

/-- `_restore_channel_keys`: the channels whose password can be decrypted. -/
def restore_channel_keys (app_state : AppState) : Dict Str Bytes :=
  match app_state.identity_key with
  | none | some [] => .empty
  | some identity_key =>
    app_state.encrypted_channel_passwords.entries.foldl (fun keys (channel, encrypted) =>
      match decrypt_password encrypted identity_key with
      | some password => keys.set channel (EncryptionService.derive_channel_key password channel)
      | none => keys) .empty

/-- `self.nickname`: the name from the command line, or the saved one. -/
def starting_nickname (config_nickname saved_nickname : Option Str) : Str :=
  if config_nickname.getD [] ≠ [] then config_nickname.getD []
  else if saved_nickname.getD [] ≠ [] then saved_nickname.getD []
  else config_nickname.getD "anon-daemon".toList

/-- `MeshNode.__init__`. `my_peer_id` is what `os.urandom(8)` draws. -/
def MeshNode.init (my_peer_id : PeerId) (config_nickname : Option Str) (app_state : AppState)
    (static_identity_key : Crypto.PrivateKey) : MeshNode where
  my_peer_id
  nickname := starting_nickname config_nickname app_state.nickname
  app_state
  encryption_service := .init static_identity_key
  peers := .empty
  peer_addresses := .empty
  bloom := Packages.bloom_make 5000
  processed_messages := ∅
  fragment_collector := .init
  delivery_tracker := .init
  channel_keys := restore_channel_keys app_state
  channel_creators := app_state.channel_creators
  password_protected_channels := app_state.password_protected_channels
  channel_key_commitments := app_state.channel_key_commitments
  discovered_channels := ∅
  blocked_peers := app_state.blocked_peers
  handshake_attempt_times := .empty
  pending_private_messages := .empty
  connections := .empty

/-! ## A stand-in -/

namespace standIn

/-- A new node with the nickname `n`. -/
def node (id : PeerId) (key : UInt8) : @MeshNode bitchat.standIn.packages :=
  @MeshNode.init bitchat.standIn.packages id (some ['n']) (.init [key])
    (bitchat.standIn.key key)

/-- Surroundings in which every draw is the `k`-th and every write succeeds. -/
def env (k : Fin 16) : @Env bitchat.standIn.packages :=
  @Env.mk bitchat.standIn.packages (fun _ => bitchat.standIn.draw k) (fun _ => false)

end standIn

end daemon
