-- Two clients of `bitchat.py` on one connection that loses nothing and keeps
-- the order. Almost every sealed packet is over 500 bytes long and goes out in
-- fragments: what a packet on the wire hands over may be what it completes.
import BitchatNode.Client.Packets
import BitchatNode.Fragmentation
import BitchatNode.Link

namespace client

open python bitchat bitchat.protocol bitchat.encryption
open daemon (Side Frame)

variable [ClientPackages]

/-! ## Steps -/

structure Link where
  world : Side → World
  /-- What the side has written and the other has not yet handled, oldest first. -/
  wire : Side → List Frame

inductive Op
  /-- The side sends a private message to the other. -/
  | private_message (x : Side) (env : Env) (content target_nickname : Str)
      (message_id : Option Str)
  /-- The side handles the oldest packet of the other. -/
  | handle (x : Side) (env : Env)

def send_nonce (self : BitchatClient) (peer_id : Str) : Nat :=
  ((self.encryption_service.sessions.get? peer_id).map fun s => s.send_cipher.nonce).getD 0

def receive_nonce (self : BitchatClient) (peer_id : Str) : Option Nat :=
  (self.encryption_service.sessions.get? peer_id).map fun s => s.receive_cipher.nonce

/-- What the client wrote from `w` to `w'`. -/
def written (peer_id : Str) (w w' : World) : List Frame :=
  ((writes w'.out).drop (writes w.out).length).map fun raw => ⟨raw, send_nonce w.state peer_id⟩

/-- The side moves on to the given world. -/
def Link.advance (id : Side → PeerId) (l : Link) (x : Side) (w' : World) : Link where
  world := Function.update l.world x w'
  wire := Function.update l.wire x (l.wire x ++ written (id x.other).str (l.world x) w')

def Link.step (id : Side → PeerId) (l : Link) : Op → Link
  | .private_message x env content target_nickname message_id =>
    l.advance id x (exec (send_private_message env content (id x.other).str target_nickname
      message_id) (l.world x)).2
  | .handle x env =>
    match l.wire x.other with
    | [] => l
    | f :: rest =>
      Link.advance id { l with wire := Function.update l.wire x.other rest } x
        (exec (notification_handler env f.raw) (l.world x)).2

/-- Links that a run of steps of one kind leads to. -/
inductive Link.Reached (id : Side → PeerId) (ok : Link → Op → Prop) (start : Link) : Link → Prop
  | start : Reached id ok start start
  | step {l : Link} (h : Reached id ok start l) (op : Op) (hop : ok l op) :
    Reached id ok start (l.step id op)

/-! ## What is handed over -/

/-- The call of `add_fragment` that a fragment packet leads to. -/
def fragment_call (packet : BitchatPacket) : FragmentCollector.Call where
  sender_id := packet.sender_id_str
  fragment_id := slice packet.payload 0 8
  index := fromBE (slice packet.payload 8 10)
  total := fromBE (slice packet.payload 10 12)
  original_type := packet.payload.getD 12 0
  data := packet.payload.drop 13

/-- The packet that `handle_packet` gets to see: the one that arrives, or the
one that a fragment completes. -/
def handed_over (self : BitchatClient) (raw : Bytes) : Option BitchatPacket :=
  match parse_bitchat_packet raw with
  | .error _ => none
  | .ok packet =>
    if packet.sender_id_str = self.my_peer_id.str then none
    else if packet.msg_type ∈ exclude_recipient_types ∧ 13 ≤ packet.payload.length then
      (self.fragment_collector.call (fragment_call packet)).2.bind fun complete =>
        (parse_bitchat_packet complete.1).toOption
    else some packet

/-- What the side is handed over next, with the nonce of its frame. -/
def next_packet (l : Link) (x : Side) : Option (Nat × BitchatPacket) :=
  (l.wire x.other).head?.bind fun f =>
    (handed_over (l.world x).state f.raw).map fun packet => (f.nonce, packet)

end client
