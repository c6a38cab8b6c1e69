-- The channels of `bitchat.py`: announcements that arrive, and the commands
-- that join, protect, hand over and leave a channel.
import BitchatNode.Client.State

namespace client

open python bitchat bitchat.protocol bitchat.encryption
open daemon (AppState EncryptedPassword derive_encryption_key with_ttl)

variable [ClientPackages]

/-! ## Keys and passwords -/

/-- `hashlib.sha256(key).hexdigest()`. -/
def commitment (key : Bytes) : Str := hex (Crypto.sha256 key)

/-- `encrypt_password` of `persistence.py`. -/
def encrypt_password (password : Str) (identity_key : Bytes) (draw : Draw) : EncryptedPassword where
  nonce := draw.entropy.urandom 12
  ciphertext := ClientPackages.aesgcm_encrypt (derive_encryption_key identity_key)
    (draw.entropy.urandom 12) (encode password)

/-- `self.app_state.identity_key` is there and not empty. -/
def has_identity_key (self : BitchatClient) : Bool := self.app_state.identity_key.getD [] ≠ []

/-- The encrypted password goes into the saved state, where there is an
identity key. -/
def BitchatClient.remember_password (channel password : Str) (draw : Draw) (self : BitchatClient) :
    BitchatClient :=
  if has_identity_key self then
    { self with app_state := { self.app_state with
      encrypted_channel_passwords := self.app_state.encrypted_channel_passwords.set channel
        (encrypt_password password (self.app_state.identity_key.getD []) draw) } }
  else self

/-- `create_encrypted_channel_message_payload`, without the id. -/
def create_encrypted_channel_message_payload (sender content channel : Str) (key : Bytes)
    (sender_peer_id : Str) (nonce_draw draw : Draw) : Except PyError Bytes := do
  let nonce := nonce_draw.entropy.urandom 12
  let encrypted_content := nonce ++ Crypto.chacha_encrypt key nonce (encode content) []
  let (payload, _) ← create_bitchat_message_payload_full sender content (some channel) false
    sender_peer_id true (some encrypted_content) draw
  return payload

/-! ## Announcements -/

/-- The text of a channel announcement. It names the announcer as creator. -/
def announcement_text (my_peer_id : PeerId) (channel : Str) (is_protected : Bool)
    (key_commitment : Option Str) : Str :=
  channel ++ (if is_protected then "|1|" else "|0|").toList ++ my_peer_id.str ++
    '|' :: key_commitment.getD []

def send_channel_announce (env : Env) (channel : Str) (is_protected : Bool)
    (key_commitment : Option Str) : Client Unit := do
  let self ← getClient
  let packet ← outcome (create_bitchat_packet self.my_peer_id.str .CHANNEL_ANNOUNCE
    (encode (announcement_text self.my_peer_id channel is_protected key_commitment)) (env.draw 0))
  send_packet (env.call 1) (with_ttl packet 5)

/-- What a channel announcement does to the tables of channels. -/
def BitchatClient.channel_announced (channel : Str) (is_protected : Bool)
    (creator_id key_commitment : Str) (self : BitchatClient) : BitchatClient :=
  { self with
    channel_creators :=
      if creator_id ≠ [] then self.channel_creators.set channel creator_id
      else self.channel_creators
    password_protected_channels :=
      if is_protected then insert channel self.password_protected_channels
      else self.password_protected_channels.erase channel
    channel_keys := if is_protected then self.channel_keys else self.channel_keys.pop channel
    channel_key_commitments :=
      if ¬ is_protected then self.channel_key_commitments.pop channel
      else if key_commitment ≠ [] then self.channel_key_commitments.set channel key_commitment
      else self.channel_key_commitments
    chat_context := self.chat_context.add_channel channel }

def handle_channel_announce (packet : BitchatPacket) : Client Unit :=
  match (decodeIgnore packet.payload).splitOn '|' with
  | channel :: is_protected :: creator_id :: rest => do
    modifyClient (·.channel_announced channel (is_protected = ['1']) creator_id
      (rest.head?.getD []))
    save_app_state
  | _ => pure ()

/-! ## /j -/

/-- The three checks of the channel name. -/
def valid_channel_name (channel_name : Str) : Bool :=
  channel_name.head? = some '#' && channel_name.length ≤ 25 &&
    channel_name.tail.all fun c => ClientPackages.isalnum c || c = '-' || c = '_'

def BitchatClient.enter_channel (channel_name : Str) (self : BitchatClient) : BitchatClient :=
  { self with
    discovered_channels := insert channel_name self.discovered_channels
    chat_context := self.chat_context.switch_to_channel channel_name }

/-- The encrypted password is saved, where there is an identity key. -/
def save_password (channel password : Str) (draw : Draw) : Client Unit := do
  let self ← getClient
  if has_identity_key self then do
    modifyClient (·.remember_password channel password draw)
    save_app_state
  else pure ()

/-- The announcement at the end of `/j`, where a creator is on file. -/
def announce_joined (env : Env) (channel_name : Str) (key : Bytes) : Client Unit := do
  let self ← getClient
  if self.channel_creators.has channel_name then
    send_channel_announce env channel_name true (some (commitment key))
  else pure ()

/-- The branch of `handle_join_channel` for a protected channel. -/
def join_protected (env : Env) (channel_name password : Str) : Client Unit := do
  let self ← getClient
  if self.channel_keys.has channel_name then modifyClient (·.enter_channel channel_name)
  -- no password, and one that is too short
  else if password.length < 4 then pure ()
  else
    let key := EncryptionService.derive_channel_key password channel_name
    match self.channel_key_commitments.get? channel_name with
    | some expected =>
      if commitment key ≠ expected then pure () else join_with_key key
    | none => join_with_key key
where
  join_with_key (key : Bytes) : Client Unit := do
    modifyClient fun self => { self with channel_keys := self.channel_keys.set channel_name key }
    save_password channel_name password (env.draw 0)
    modifyClient (·.enter_channel channel_name)
    announce_joined (env.call 1) channel_name key

/-- The branch for a channel without a password. -/
def join_unprotected (env : Env) (channel_name password : Str) : Client Unit :=
  if password ≠ [] then do
    let key := EncryptionService.derive_channel_key password channel_name
    modifyClient fun self => { self with channel_keys := self.channel_keys.set channel_name key }
    modifyClient (·.enter_channel channel_name)
    announce_joined (env.call 1) channel_name key
  else do
    modifyClient (·.enter_channel channel_name)
    modifyClient fun self => { self with channel_keys := self.channel_keys.pop channel_name }

/-- `/j`. A missing password counts as an empty one. -/
def handle_join_channel (env : Env) (line : Str) : Client Unit :=
  match split line with
  | _ :: channel_name :: rest =>
    let password := rest.head?.getD []
    if ¬ valid_channel_name channel_name then pure ()
    else do
      let self ← getClient
      if channel_name ∈ self.password_protected_channels then
        join_protected env channel_name password
      else join_unprotected env channel_name password
  | _ => pure ()

/-! ## /leave -/

/-- The tables without the channel. -/
def BitchatClient.forget_channel (channel : Str) (self : BitchatClient) : BitchatClient :=
  { self with
    channel_keys := self.channel_keys.pop channel
    password_protected_channels := self.password_protected_channels.erase channel
    channel_creators := self.channel_creators.pop channel
    channel_key_commitments := self.channel_key_commitments.pop channel
    app_state := { self.app_state with
      encrypted_channel_passwords := self.app_state.encrypted_channel_passwords.pop channel }
    chat_context := (self.chat_context.remove_channel channel).switch_to_public }

def handle_leave_command (env : Env) : Client Unit := do
  let self ← getClient
  match self.chat_context.current_mode with
  | .Channel channel => do
    let leave_packet ← outcome (create_bitchat_packet self.my_peer_id.str .LEAVE (encode channel)
      (env.draw 0))
    send_packet (env.call 1) (with_ttl leave_packet 3)
    modifyClient (·.forget_channel channel)
    save_app_state
  | _ => pure ()

/-! ## /pass -/

def notify_msg : Str := "🔐 Password changed by channel owner. Please update your password.".toList

/-- The text of the message that `/pass` sends under the new key. -/
def init_msg (self : BitchatClient) (channel : Str) (changed : Bool) : Str :=
  "🔑 Password ".toList ++ (if changed then "changed" else "set").toList ++ " | Channel ".toList ++
    channel ++ " password ".toList ++ (if changed then "updated" else "protected").toList ++
    " by ".toList ++ self.nickname ++ " | Metadata: ".toList ++ hex (encode self.my_peer_id.str)

/-- A channel message under the given key. -/
def send_channel_notice (env : Env) (content channel : Str) (key : Bytes) : Client Unit := do
  let self ← getClient
  let payload ← outcome (create_encrypted_channel_message_payload self.nickname content channel key
    self.my_peer_id.str (env.draw 0) (env.draw 1))
  let packet ← outcome (create_bitchat_packet self.my_peer_id.str .MESSAGE payload (env.draw 2))
  send_packet (env.call 3) packet

/-- The notice under the old key, if there was one. -/
def notify_change (env : Env) (channel : Str) (old_key : Bytes) : Client Unit :=
  if old_key ≠ [] then suppress (send_channel_notice env notify_msg channel old_key) else pure ()

/-- What `/pass` does to the tables: ownership is claimed if there is no
owner, and the key, its commitment and the password are replaced. -/
def BitchatClient.password_changed (channel new_password : Str) (draw : Draw)
    (self : BitchatClient) : BitchatClient :=
  let new_key := EncryptionService.derive_channel_key new_password channel
  let self := { self with
    channel_creators :=
      if (self.channel_creators.get? channel).getD [] = [] then
        self.channel_creators.set channel self.my_peer_id.str
      else self.channel_creators
    channel_keys := self.channel_keys.set channel new_key
    password_protected_channels := insert channel self.password_protected_channels }
  { self.remember_password channel new_password draw with
    channel_key_commitments := self.channel_key_commitments.set channel (commitment new_key) }

/-- `handle_pass_command`, once the line is read. -/
def change_password (env : Env) (channel new_password : Str) : Client Unit := do
  let self ← getClient
  let owner := (self.channel_creators.get? channel).getD []
  if new_password.length < 4 then pure ()
  else if owner ≠ [] ∧ owner ≠ self.my_peer_id.str then pure ()
  else
    let new_key := EncryptionService.derive_channel_key new_password channel
    let old_key := (self.channel_keys.get? channel).getD []
    modifyClient (·.password_changed channel new_password (env.draw 0))
    notify_change (env.call 1) channel old_key
    send_channel_announce (env.call 2) channel true (some (commitment new_key))
    send_channel_notice (env.call 3) (init_msg self channel (old_key ≠ [])) channel new_key
    save_app_state

def handle_pass_command (env : Env) (line : Str) : Client Unit := do
  let self ← getClient
  match self.chat_context.current_mode with
  | .Channel channel =>
    match splitMax 1 line with
    | _ :: new_password :: _ => change_password env channel new_password
    | _ => pure ()
  | _ => pure ()

/-! ## /transfer -/

/-- The first peer with the nickname. -/
def peer_named (self : BitchatClient) (target : Str) : Option Str :=
  (self.peers.entries.find? fun e => e.2.nickname = some target).map Prod.fst

/-- The commitment that goes with the announcement of a transfer. -/
def transfer_commitment (self : BitchatClient) (channel : Str) : Option Str :=
  if channel ∈ self.password_protected_channels then
    (self.channel_keys.get? channel).map commitment
  else none

/-- `handle_transfer_command`, once the line is read. -/
def transfer_channel (env : Env) (channel target : Str) : Client Unit := do
  let self ← getClient
  if self.channel_creators.get? channel ≠ some self.my_peer_id.str then pure ()
  else
    match (peer_named self target).getD [] with
    | [] => pure ()
    | new_owner_id => do
      modifyClient fun self => { self with
        channel_creators := self.channel_creators.set channel new_owner_id }
      save_app_state
      send_channel_announce (env.call 1) channel (channel ∈ self.password_protected_channels)
        (transfer_commitment self channel)

def handle_transfer_command (env : Env) (line : Str) : Client Unit := do
  let self ← getClient
  match self.chat_context.current_mode with
  | .Channel channel =>
    match split line with
    | [_, target] => transfer_channel env channel (lstrip '@' target)
    | _ => pure ()
  | _ => pure ()

/-- A single digit on the line. -/
def switch_to_number (num : Int) : Client Unit := do
  let self ← getClient
  let (_, chat_context) ← outcome (self.chat_context.switch_to_number num)
  modifyClient fun self => { self with chat_context }

/-- The commands about channels, as `handle_user_input` tells them apart. -/
inductive Command
  | join (line : Str)
  | pass (line : Str)
  | transfer (line : Str)
  | leave
  | number (num : Int)

def run_command (env : Env) : Command → Client Unit
  | .join line => handle_join_channel env line
  | .pass line => handle_pass_command env line
  | .transfer line => handle_transfer_command env line
  | .leave => handle_leave_command env
  | .number num => switch_to_number num

end client
