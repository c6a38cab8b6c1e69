-- `daemon/api.py`: the HTTP server beside a node, with its WebSocket clients
-- and its REST handlers. A call runs up to the next `await` that suspends it.
import BitchatNode.Runs

namespace daemon

open python bitchat bitchat.protocol bitchat.encryption

variable [Packages]

/-! ## Events for WebSocket clients -/

/-- The objects that `_broadcast` sends. Nothing calls `_on_session`. -/
inductive WsEvent
  | peer_joined (peer_id nickname : Str)
  | peer_left (peer_id nickname : Str)
  | ack (original_message_id recipient_id recipient_nickname : Packages.JsonValue)

/-- What a WebSocket client is sent. -/
inductive WsText
  | event (event : WsEvent)
  | pong

/-- A task of `_broadcast`, with the clients that are still to come. It looks
at the set of clients when it starts. -/
structure Broadcast where
  event : WsEvent
  rest : Option (List Nat)

/-- What becomes of the next client of a `_broadcast`. -/
inductive NextSend
  | closed
  | sent
  | connection_error
  /-- Another exception ends the task. -/
  | raised
deriving DecidableEq

structure HttpServer where
  /-- `_ws_clients`, in the order in which the set gives them. -/
  ws_clients : List Nat
  broadcasts : List Broadcast
  /-- The `/connect` requests that wait for their socket. -/
  dials : List (Str × Nat)

namespace HttpServer

/-- `asyncio.create_task(self._broadcast(event))`. -/
def create_broadcast (self : HttpServer) (event : WsEvent) : HttpServer :=
  { self with broadcasts := self.broadcasts ++ [⟨event, none⟩] }

/-- The callbacks, as `__init__` wires them: `on_message` is not among them. -/
def call (self : HttpServer) : Action → HttpServer
  | .on_peer_joined peer_id nickname => self.create_broadcast (.peer_joined peer_id nickname)
  | .on_peer_left peer_id nickname => self.create_broadcast (.peer_left peer_id nickname)
  | .on_delivery_ack ack => self.create_broadcast
      (.ack ack.original_message_id ack.recipient_id ack.recipient_nickname)
  | _ => self

/-- `_ws_clients.discard`. -/
def discard_client (self : HttpServer) (ws : Nat) : HttpServer :=
  { self with ws_clients := self.ws_clients.erase ws }

/-- The `k`-th `_broadcast` goes on to its next client. -/
def broadcast_next (self : HttpServer) (k : Nat) (next : NextSend) :
    HttpServer × List (Nat × WsText) :=
  match self.broadcasts[k]? with
  | none => (self, [])
  | some task =>
    match task.rest.getD self.ws_clients with
    | [] => ({ self with broadcasts := self.broadcasts.eraseIdx k }, [])
    | ws :: rest =>
      let self := { self with broadcasts := self.broadcasts.set k ⟨task.event, some rest⟩ }
      match next with
      | .closed => (self, [])
      | .sent => (self, [(ws, .event task.event)])
      | .connection_error => (self.discard_client ws, [])
      | .raised => ({ self with broadcasts := self.broadcasts.eraseIdx k }, [])

end HttpServer

/-! ## Answers -/

structure StatusPeer where
  peer_id : Str
  nickname : Option Str
  address : Str
deriving DecidableEq

/-- `get_status` of the node. -/
structure Status where
  peer_id : Str
  nickname : Str
  peers_count : Nat
  connections_count : Nat
  session_count : Nat
  peers : List StatusPeer
  channels : Finset Str
deriving DecidableEq

def MeshNode.get_status (self : MeshNode) : Status where
  peer_id := self.my_peer_id.str
  nickname := self.nickname
  peers_count := self.peers.size
  connections_count := self.connections.size
  session_count := self.encryption_service.sessions.size
  peers := self.peers.entries.map fun (pid, p) =>
    ⟨pid, p.nickname, (self.peer_addresses.get? pid).getD []⟩
  channels := self.discovered_channels

structure ApiPeer extends StatusPeer where
  session_active : Bool
deriving DecidableEq

/-- The list that `_handle_peers` answers with. -/
def MeshNode.api_peers (self : MeshNode) : List ApiPeer :=
  self.peers.entries.map fun (pid, p) =>
    ⟨⟨pid, p.nickname, (self.peer_addresses.get? pid).getD []⟩,
      self.encryption_service.is_session_established pid⟩

inductive Response
  /-- `{"status": "ok"}`. -/
  | health
  | status (body : Status)
  | peers (body : List ApiPeer)
  | connecting (host : Str) (port : Nat)
  | disconnected
  | named (nickname : Str)
  /-- An error that the handler answers with. -/
  | error (text : String) (status : Nat)
  /-- The handler raised. -/
  | internal_server_error
deriving DecidableEq

/-- A request. The body is `none` if it is no JSON. -/
inductive Request
  | health
  | status
  | peers
  /-- A field is `none` if it is missing or counts as false. The port is a
  number. -/
  | connect (body : Option (Option Str × Option Nat))
  | disconnect (body : Option (Option Str))
  /-- The nickname is `none` if it is no string, and empty if it is missing. -/
  | set_name (body : Option (Option Str))

/-! ## The daemon -/

structure Daemon where
  mesh : MeshNode
  /-- The tasks of the node that wait for the end of their sleep. -/
  tasks : List Later
  api : HttpServer
  /-- What WebSocket clients were sent, and the REST responses. -/
  sent : List (Nat × WsText)
  responses : List Response

/-- The tasks that a call put off. -/
def put_off (out : List Action) : List Later :=
  out.filterMap fun
    | .later task => some task
    | _ => none

namespace Daemon

/-- A node from its start, with its server. -/
def init (mesh : MeshNode) : Daemon := ⟨mesh, [], ⟨[], [], []⟩, [], []⟩

/-- What a call on the node left. -/
def after (self : Daemon) (w : World) : Daemon :=
  { self with
    mesh := w.node
    tasks := self.tasks ++ put_off w.out
    api := w.out.foldl HttpServer.call self.api }

/-- A call on the node. What it does goes to the server, too. -/
def run {α : Type} (self : Daemon) (x : Mesh α) : Daemon := self.after (exec x ⟨self.mesh, []⟩).2

def respond (self : Daemon) (response : Response) : Daemon :=
  { self with responses := self.responses ++ [response] }

/-- A handler that calls the node and answers, or raises. -/
def serve {α : Type} (self : Daemon) (x : Mesh α) (answer : Response) : Daemon :=
  (self.run x).respond <|
    match (exec x ⟨self.mesh, []⟩).1 with
    | .ok _ => answer
    | .error _ => .internal_server_error

def invalid_json : Response := .error "invalid JSON" 400

/-- The REST handlers. `/connect` answers at once if there is a connection. -/
def handle (env : Env) (self : Daemon) : Request → Daemon
  | .health => self.respond .health
  | .status => self.respond (.status self.mesh.get_status)
  | .peers => self.respond (.peers self.mesh.api_peers)
  | .connect none => self.respond invalid_json
  | .connect (some (some host, some port)) =>
    if self.mesh.connections.has (PeerConnection.mk host port true).address then
      self.respond (.connecting host port)
    else { self with api := { self.api with dials := self.api.dials ++ [(host, port)] } }
  | .connect (some _) => self.respond (.error "host and port required" 400)
  | .disconnect none => self.respond invalid_json
  | .disconnect (some none) => self.respond (.error "address required" 400)
  | .disconnect (some (some addr)) => self.serve (disconnect addr) .disconnected
  | .set_name none => self.respond invalid_json
  | .set_name (some none) => self.respond .internal_server_error
  | .set_name (some (some nickname)) =>
    if strip nickname = [] ∨ 20 < (strip nickname).length then
      self.respond (.error "invalid nickname" 400)
    else self.serve (handle_set_name env nickname) (.named (strip nickname))

/-- The socket of the `k`-th dial is open, or the dial failed. -/
def dialed (self : Daemon) (k : Nat) (result : Except String Unit) : Daemon :=
  match self.api.dials[k]? with
  | none => self
  | some (host, port) =>
    let self := { self with api := { self.api with dials := self.api.dials.eraseIdx k } }
    match result with
    | .ok () => (self.run (connected ⟨host, port, true⟩)).respond (.connecting host port)
    | .error text => self.respond (.error text 500)

/-! ## Runs -/

inductive Input
  /-- Something happens to the node, other than that a task goes on. -/
  | event (event : Event)
  /-- The `k`-th task that waits goes on. -/
  | resume (k : Nat)
  | request (request : Request)
  | dialed (k : Nat) (result : Except String Unit)
  | ws_open (ws : Nat)
  | ws_close (ws : Nat)
  | ping (ws : Nat)
  | broadcast (k : Nat) (next : NextSend)

/-- A task that does not wait, a dial or a broadcast that is not there: nothing
happens. -/
def step (self : Daemon) (env : Env) : Input → Daemon
  | .event (.later _) => self
  | .event event => self.run (react env event)
  | .resume k =>
    match self.tasks[k]? with
    | none => self
    | some task => { self with tasks := self.tasks.eraseIdx k }.run (run_later env task)
  | .request request => self.handle env request
  | .dialed k result => self.dialed k result
  | .ws_open ws => { self with api := { self.api with
      ws_clients := if ws ∈ self.api.ws_clients then self.api.ws_clients
        else self.api.ws_clients ++ [ws] } }
  | .ws_close ws => { self with api := self.api.discard_client ws }
  | .ping ws =>
    if ws ∈ self.api.ws_clients then { self with sent := self.sent ++ [(ws, .pong)] } else self
  | .broadcast k next =>
    { self with
      api := (self.api.broadcast_next k next).1
      sent := self.sent ++ (self.api.broadcast_next k next).2 }

end Daemon

end daemon
