-- The state of the terminal client of `bitchat.py` and what it does to the
-- world outside: packets on its one connection, saved states and lines on the
-- terminal that show a message.
import BitchatNode.FragmentDispatch
import BitchatNode.Python.Words
import Mathlib.Data.Nat.Pairing

namespace client

open python bitchat bitchat.protocol bitchat.encryption
open daemon (AppState EncryptedPassword derive_encryption_key digits with_ttl chunks fragment_type)

/-- What the client takes from outside beside the packages of the daemon. -/
class ClientPackages extends Packages where
  aesgcm_encrypt (key nonce data : Bytes) : Bytes
  /-- `str.isalnum` of one character. The tables of Unicode stay open, but
  for ASCII. -/
  isalnum : Char → Bool
  isalnum_ascii : ∀ c : Char, c.toNat < 128 → isalnum c = c.isAlphanum

/-! ## Conversations -/

inductive ChatMode
  | Public
  | Channel (name : Str)
  | PrivateDM (nickname peer_id : Str)
deriving DecidableEq

/-- `ChatContext` of `terminal_ux.py`. -/
structure ChatContext where
  current_mode : ChatMode
  active_channels : List Str
  active_dms : Dict Str Str
  last_private_sender : Option (Str × Str)

namespace ChatContext

def init : ChatContext := ⟨.Public, [], .empty, none⟩

/-- `switch_to_number`. The index of a DM may be negative. -/
def switch_to_number (num : Int) (self : ChatContext) : Except PyError (Bool × ChatContext) :=
  let channel_end : Int := 1 + self.active_channels.length
  let dm_idx := num - (channel_end + 1)
  if num = 1 then .ok (true, { self with current_mode := .Public })
  else match if 1 < num ∧ num ≤ channel_end then self.active_channels[(num - 2).toNat]? else none with
  | some channel => .ok (true, { self with current_mode := .Channel channel })
  | none =>
    if dm_idx < self.active_dms.entries.length then
      match item self.active_dms.entries dm_idx with
      | some (nick, peer_id) => .ok (true, { self with current_mode := .PrivateDM nick peer_id })
      | none => .error .IndexError
    else .ok (false, self)

def add_channel (channel : Str) (self : ChatContext) : ChatContext :=
  if channel ∈ self.active_channels then self
  else { self with active_channels := self.active_channels ++ [channel] }

def add_dm (nickname peer_id : Str) (self : ChatContext) : ChatContext :=
  { self with active_dms := self.active_dms.set nickname peer_id }

/-- `switch_to_channel`, and `switch_to_channel_silent`, which prints less. -/
def switch_to_channel (channel : Str) (self : ChatContext) : ChatContext :=
  { self.add_channel channel with current_mode := .Channel channel }

def switch_to_public (self : ChatContext) : ChatContext := { self with current_mode := .Public }

/-- `list.remove`: the first one goes. -/
def remove_channel (channel : Str) (self : ChatContext) : ChatContext :=
  { self with active_channels := self.active_channels.erase channel }

end ChatContext

/-! ## The client -/

/-- `self.client`, `self.characteristic` and `self.client.is_connected`. -/
inductive Connection
  | none
  /-- The connection is gone, and the client has not noticed. -/
  | lost
  | up
deriving DecidableEq

variable [ClientPackages]

structure BitchatClient where
  my_peer_id : PeerId
  nickname : Str
  peers : Dict Str Peer
  bloom : Packages.BloomFilter
  processed_messages : Finset Str
  fragment_collector : FragmentCollector
  delivery_tracker : DeliveryTracker
  chat_context : ChatContext
  channel_keys : Dict Str Bytes
  app_state : AppState
  blocked_peers : Finset Str
  channel_creators : Dict Str Str
  password_protected_channels : Finset Str
  channel_key_commitments : Dict Str Str
  discovered_channels : Finset Str
  encryption_service : EncryptionService
  connection : Connection
  handshake_attempt_times : Dict Str UInt64
  /-- Content, nickname and message id of each message that waits. -/
  pending_private_messages : Dict Str (List (Str × Str × Str))

/-- `AppState()`. -/
def AppState.new : AppState := { AppState.init [] with identity_key := none }

/-- `BitchatClient.__init__`. `my_peer_id` is what `os.urandom(8)` draws. -/
def BitchatClient.init (my_peer_id : PeerId) (static_identity_key : Crypto.PrivateKey) :
    BitchatClient where
  my_peer_id
  nickname := "my-python-client".toList
  peers := .empty
  bloom := Packages.bloom_make 500
  processed_messages := ∅
  fragment_collector := .init
  delivery_tracker := .init
  chat_context := .init
  channel_keys := .empty
  app_state := AppState.new
  blocked_peers := ∅
  channel_creators := .empty
  password_protected_channels := ∅
  channel_key_commitments := .empty
  discovered_channels := ∅
  encryption_service := .init static_identity_key
  connection := .none
  handshake_attempt_times := .empty
  pending_private_messages := .empty

/-- What becomes of a write to the connection, the retry included. -/
inductive Write
  | done
  /-- It is still blocked after the retry. -/
  | dropped
  | disconnected
  | raised (e : PyError)

/-- What the client does to the world outside. -/
inductive Action
  /-- Bytes written to the connection. -/
  | write (data : Bytes)
  | saved (state : AppState)
  /-- The line that shows a message. -/
  | display (id sender_nick content : Str) (channel : Option Str) (is_private : Bool)
  /-- The line that says that a message was delivered. -/
  | delivered (message_id : Packages.JsonValue)
  /-- A task that was created to run later. -/
  | send_pending_private_messages (peer_id : Str)

structure World where
  state : BitchatClient
  /-- What the client has done, oldest first. -/
  out : List Action

/-- The bytes written. -/
def writes (out : List Action) : List Bytes :=
  out.filterMap fun
    | .write data => some data
    | _ => none

/-- What one task reads from outside: the clock and the random source at each
of its calls, and what becomes of its writes. -/
structure Env where
  draw : Nat → Draw
  write : Nat → Write

/-- The part of the surroundings that the `k`-th call of a task reads. -/
def Env.call (env : Env) (k : Nat) : Env where
  draw i := env.draw (Nat.pair k i)
  write i := env.write (Nat.pair k i)

abbrev Client := Py PyError World

def getClient : Client BitchatClient := World.state <$> get

def modifyClient (f : BitchatClient → BitchatClient) : Client Unit :=
  modify fun w => { w with state := f w.state }

def emit (action : Action) : Client Unit := modify fun w => { w with out := w.out ++ [action] }

/-- A call on the encryption service of the client. -/
def onService {α : Type} (x : Py PyError EncryptionService α) : Client α :=
  onPart (fun w => w.state.encryption_service)
    (fun s w => { w with state := { w.state with encryption_service := s } }) x

@[simp] theorem exec_getClient (w : World) : exec getClient w = (.ok w.state, w) := rfl

@[simp] theorem exec_modifyClient (f : BitchatClient → BitchatClient) (w : World) :
    exec (modifyClient f) w = (.ok (), { w with state := f w.state }) := rfl

@[simp] theorem exec_emit (action : Action) (w : World) :
    exec (emit action) w = (.ok (), { w with out := w.out ++ [action] }) := rfl

@[simp] theorem exec_onService {α : Type} (x : Py PyError EncryptionService α) (w : World) :
    exec (onService x) w = ((exec x w.state.encryption_service).1,
      { w with state := { w.state with
        encryption_service := (exec x w.state.encryption_service).2 } }) := rfl

/-! ## The connection -/

/-- `handle_disconnect`. -/
def handle_disconnect : Client Unit :=
  modifyClient fun self => { self with
    connection := .none
    peers := .empty
    encryption_service := { self.encryption_service with
      sessions := .empty, handshake_states := .empty }
    pending_private_messages := .empty
    chat_context :=
      let chat_context := { self.chat_context with active_dms := .empty }
      match chat_context.current_mode with
      | .PrivateDM _ _ => chat_context.switch_to_public
      | _ => chat_context }

/-- One fragment. The type of the original packet is always that of a message. -/
def fragment_packet (my_peer_id : Str) (fragment_id : Bytes) (index total : Nat) (chunk : Bytes)
    (draw : Draw) : Except PyError Bytes := do
  let index_bytes ← packH index
  let total_bytes ← packH total
  create_bitchat_packet my_peer_id (fragment_type index total)
    (fragment_id ++ index_bytes ++ total_bytes ++ [MessageType.MESSAGE.value] ++ chunk) draw

/-- The loop of `send_packet_with_fragmentation`. -/
def send_fragments (env : Env) (fragment_id : Bytes) (total : Nat) :
    Nat → List Bytes → Client Unit
  | _, [] => pure ()
  | index, chunk :: rest => do
    let self ← getClient
    let packet ← outcome (fragment_packet self.my_peer_id.str fragment_id index total chunk
      (env.draw (index + 1)))
    match env.write index with
    | .done => do
      emit (.write packet)
      send_fragments env fragment_id total (index + 1) rest
    -- there is no retry here: a blocked write raises
    | .dropped => throw (.ValueError "could not complete without blocking")
    | .disconnected => handle_disconnect
    | .raised e => throw e

def should_fragment (packet : Bytes) : Bool := 500 < packet.length

def send_packet (env : Env) (packet : Bytes) : Client Unit := do
  let self ← getClient
  match self.connection with
  | .none => pure ()
  | .lost => handle_disconnect
  | .up =>
    if should_fragment packet then
      send_fragments env ((env.draw 0).entropy.urandom 8) (chunks packet).length 0 (chunks packet)
    else
      match env.write 0 with
      | .done => emit (.write packet)
      | .dropped => pure ()
      | .disconnected => handle_disconnect
      | .raised e => throw e

def save_app_state : Client Unit := do
  modifyClient fun self => { self with app_state := { self.app_state with
    nickname := some self.nickname
    blocked_peers := self.blocked_peers
    channel_creators := self.channel_creators
    joined_channels := self.chat_context.active_channels
    password_protected_channels := self.password_protected_channels
    channel_key_commitments := self.channel_key_commitments } }
  let self ← getClient
  emit (.saved self.app_state)

end client

/-! ## A stand-in -/

namespace client.standIn

open python bitchat bitchat.protocol

/-- The stand-in of the daemon's packages, with letters and digits of ASCII. -/
@[reducible] def packages : ClientPackages where
  toPackages := bitchat.standIn.packages
  aesgcm_encrypt key nonce data := bitchat.standIn.encrypt key nonce data []
  isalnum := Char.isAlphanum
  isalnum_ascii _ _ := rfl

attribute [local instance] packages

/-- A new client. -/
def newcomer (id : PeerId) (key : UInt8) : BitchatClient := .init id (bitchat.standIn.key key)

/-- Surroundings in which every draw is the `k`-th and every write succeeds. -/
def env (k : Fin 16) : Env := ⟨fun _ => bitchat.standIn.draw k, fun _ => .done⟩

end client.standIn
