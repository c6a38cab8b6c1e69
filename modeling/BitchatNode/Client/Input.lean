-- `bitchat.py`: what a line that the user types leads to. The commands that only
-- print something are told apart here and do nothing.
import BitchatNode.Client.Packets

namespace client

open python bitchat bitchat.protocol bitchat.encryption

/-- What the reading of a line takes from Python beside. -/
class InputPackages extends ClientPackages where
  /-- `str.isdigit` of one character. The tables of Unicode stay open, but for
  ASCII. -/
  isdigit : Char → Bool
  isdigit_ascii : ∀ c : Char, c.toNat < 128 → isdigit c = c.isDigit
  /-- `int` of a string, or `none` where it raises. -/
  int : Str → Option Int

variable [InputPackages]

/-! ## Which branch a line takes -/

/-- The branches of `handle_user_input`. -/
inductive Line
  | number (digits : Str)
  /-- `/help`, `/list`, `/online`, `/channels` and `/status`, and any other word
  after a slash. -/
  | prints
  | exit
  | name (new_name : Str)
  | switch
  | join (line : Str)
  | switch_to_public
  | clear
  | dm (line : Str)
  | reply
  | block (line : Str)
  | unblock (line : Str)
  | leave
  | pass (line : Str)
  | transfer (line : Str)
  | message (content : Str)
deriving DecidableEq

/-- `str.isdigit`. -/
def isdigit (s : Str) : Bool := s ≠ [] && s.all InputPackages.isdigit

/-- The tests of `handle_user_input`, in their order. `/block` needs no blank. -/
def read_line (line : Str) : Line :=
  let is (word : String) : Bool := line = word.toList
  let starts (word : String) : Bool := word.toList.isPrefixOf line
  if line.length = 1 && isdigit line then .number line
  else if is "/help" then .prints
  else if is "/exit" then .exit
  else if starts "/name " then .name (strip (line.drop 6))
  else if is "/list" then .prints
  else if is "/switch" then .switch
  else if starts "/j " then .join line
  else if is "/public" then .switch_to_public
  else if is "/online" || is "/w" then .prints
  else if is "/channels" then .prints
  else if is "/status" then .prints
  else if is "/clear" then .clear
  else if starts "/dm " then .dm line
  else if is "/reply" then .reply
  else if starts "/block" then .block line
  else if starts "/unblock " then .unblock line
  else if is "/leave" then .leave
  else if starts "/pass " then .pass line
  else if starts "/transfer " then .transfer line
  else if starts "/" then .prints
  else .message line

/-! ## What the branches do -/

def ChatContext.enter_dm_mode (nickname peer_id : Str) (self : ChatContext) : ChatContext :=
  { self.add_dm nickname peer_id with current_mode := .PrivateDM nickname peer_id }

def changeContext (f : ChatContext → ChatContext) : Client Unit :=
  modifyClient fun self => { self with chat_context := f self.chat_context }

/-- `switch_to_number(int(digits))`. -/
def switch_to_digits (digits : Str) : Client Unit :=
  match InputPackages.int digits with
  | some num => switch_to_number num
  | none => throw (.ValueError "invalid literal for int() with base 10")

/-- The second line of `/switch`. -/
def choose_number (switch_input : Str) : Client Unit :=
  if isdigit (strip switch_input) then switch_to_digits (strip switch_input) else pure ()

def exit_client (env : Env) : Client Unit := do
  let self ← getClient
  if self.connection = .up then do
    let leave_packet ← outcome (create_bitchat_packet self.my_peer_id.str .LEAVE
      (encode self.nickname) (env.draw 0))
    send_packet (env.call 1) leave_packet
  else pure ()
  save_app_state

/-- The checks of `/name`. -/
def valid_nickname (new_name : Str) : Bool :=
  new_name ≠ [] && new_name.length ≤ 20 &&
    (new_name.all fun c => ClientPackages.isalnum c || c = '-' || c = '_') &&
    new_name ≠ "system".toList && new_name ≠ "all".toList

/-- The announcement of the nickname. -/
def send_announce (env : Env) : Client Unit := do
  let self ← getClient
  let announce_packet ← outcome (create_bitchat_packet self.my_peer_id.str .ANNOUNCE
    (encode self.nickname) (env.draw 0))
  send_packet (env.call 1) announce_packet

def set_nickname (env : Env) (new_name : Str) : Client Unit :=
  if ¬ valid_nickname new_name then pure ()
  else do
    modifyClient fun self => { self with nickname := new_name }
    send_announce env
    save_app_state

/-- `/dm`. An empty id counts as none. -/
def handle_dm_command (env : Env) (line : Str) : Client Unit := do
  let self ← getClient
  if self.connection ≠ .up then pure ()
  else match splitMax 2 line with
  | _ :: target_nickname :: rest =>
    let target_peer_id := (peer_named self target_nickname).getD []
    let message := rest.head?.getD []
    if target_peer_id = [] then pure ()
    else if message ≠ [] then
      send_private_message env message target_peer_id target_nickname none
    else changeContext (·.enter_dm_mode target_nickname target_peer_id)
  | _ => pure ()

/-- The fingerprint of the peer with the nickname, `[]` if there is none. -/
def fingerprint_named (self : BitchatClient) (target : Str) : Str :=
  match (peer_named self target).getD [] with
  | [] => []
  | target_peer_id => (self.encryption_service.get_peer_fingerprint target_peer_id).getD []

def handle_block_command (line : Str) : Client Unit := do
  let self ← getClient
  match split line with
  | [_, target] =>
    let fingerprint := fingerprint_named self (lstrip '@' target)
    if fingerprint = [] ∨ fingerprint ∈ self.blocked_peers then pure ()
    else do
      modifyClient fun self => { self with blocked_peers := insert fingerprint self.blocked_peers }
      save_app_state
  | _ => pure ()

def handle_unblock_command (line : Str) : Client Unit := do
  let self ← getClient
  match split line with
  | [_, target] =>
    let fingerprint := fingerprint_named self (lstrip '@' target)
    if fingerprint ≠ [] ∧ fingerprint ∈ self.blocked_peers then do
      modifyClient fun self => { self with blocked_peers := self.blocked_peers.erase fingerprint }
      save_app_state
    else pure ()
  | _ => pure ()

/-- The channel of the conversation. -/
def current_channel (self : BitchatClient) : Option Str :=
  match self.chat_context.current_mode with
  | .Channel channel => some channel
  | _ => none

/-- The payload of a message to everybody or to the current channel: under the
key of the channel, if there is one. -/
def public_payload (self : BitchatClient) (content : Str) (env : Env) :
    Except PyError (Bytes × Str) :=
  match ((current_channel self).filter (· ≠ [])).bind self.channel_keys.get? with
  | some key =>
    create_bitchat_message_payload_full self.nickname content (current_channel self) false
      self.my_peer_id.str true
      (some (EncryptionService.encrypt_for_channel content key ((env.draw 0).entropy.urandom 12)))
      (env.draw 1)
  | none =>
    create_bitchat_message_payload_full self.nickname content (current_channel self) false
      self.my_peer_id.str false none (env.draw 1)

/-- The current channel is protected, and the client has no key for it. -/
def lacks_password (self : BitchatClient) : Bool :=
  match current_channel self with
  | some channel => channel ∈ self.password_protected_channels && !self.channel_keys.has channel
  | none => false

def send_public_message (env : Env) (content : Str) : Client Unit := do
  let self ← getClient
  if self.connection = .none then pure ()
  else if lacks_password self then pure ()
  else do
    let (payload, message_id) ← outcome (public_payload self content env)
    modifyClient fun self => { self with
      delivery_tracker :=
        self.delivery_tracker.track_message message_id content false (env.draw 2).time_us }
    let message_packet ← outcome (create_bitchat_packet self.my_peer_id.str .MESSAGE payload
      (env.draw 3))
    send_packet (env.call 4) message_packet

/-- A line that is no command goes to the conversation that the client is in. -/
def send_line (env : Env) (content : Str) : Client Unit := do
  let self ← getClient
  match self.chat_context.current_mode with
  | .PrivateDM nickname peer_id => send_private_message env content peer_id nickname none
  | _ => if self.connection ≠ .up then pure () else send_public_message env content

/-! ## The lines -/

/-- What the input loop does next. -/
inductive Turn
  | go_on
  /-- It reads the number for `/switch`. -/
  | choose
  | stop
deriving DecidableEq

/-- `handle_user_input`. `/clear` fails: `ChatMode` has no `Public`. -/
def handle_user_input (env : Env) (line : Str) : Client Turn := do
  match read_line line with
  | .number digits => switch_to_digits digits
  | .prints => pure ()
  | .exit => exit_client env
  | .name new_name => set_nickname env new_name
  | .switch => pure ()
  | .join line => handle_join_channel env line
  | .switch_to_public => changeContext ChatContext.switch_to_public
  | .clear => throw .AttributeError
  | .dm line => handle_dm_command env line
  | .reply => do
    let self ← getClient
    match self.chat_context.last_private_sender with
    | some (peer_id, nickname) => changeContext (·.enter_dm_mode nickname peer_id)
    | none => pure ()
  | .block line => handle_block_command line
  | .unblock line => handle_unblock_command line
  | .leave => handle_leave_command env
  | .pass line => handle_pass_command env line
  | .transfer line => handle_transfer_command env line
  | .message content => send_line env content
  return match read_line line with
    | .exit => .stop
    | .switch => .choose
    | _ => .go_on

end client

/-! ## A stand-in -/

namespace client.standIn

open python

/-- The value of a string of decimal digits. -/
def decimal (s : Str) : Option Int :=
  if s ≠ [] ∧ s.all Char.isDigit then
    some (s.foldl (fun n c => 10 * n + (c.toNat - '0'.toNat : Nat)) 0)
  else none

/-- The stand-in of a client, with the digits of ASCII. -/
@[reducible] def input_packages : InputPackages where
  toClientPackages := packages
  isdigit := Char.isDigit
  isdigit_ascii _ _ := rfl
  int := decimal

end client.standIn
