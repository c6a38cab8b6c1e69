-- Two nodes on one connection that loses nothing and keeps the order: what a
-- node writes to the other waits on its wire until the other handles it.
import BitchatNode.Sending
import BitchatNode.Runs
import Mathlib.Logic.Function.Basic

namespace daemon

open python bitchat bitchat.protocol bitchat.encryption

/-! ## The two sides -/

inductive Side
  | A
  | B
deriving DecidableEq, Repr

def Side.other : Side → Side
  | .A => .B
  | .B => .A

theorem Side.other_other (x : Side) : x.other.other = x := by cases x <;> rfl

theorem Side.other_ne (x : Side) : x.other ≠ x := by cases x <;> simp [other]

theorem Side.eq_or_other_eq (x y : Side) : x = y ∨ x.other = y := by
  cases x <;> cases y <;> simp [other]

theorem Side.both {p : Side → Prop} (x : Side) (hx : p x) (hother : p x.other) (y : Side) :
    p y := by
  rcases Side.eq_or_other_eq x y with rfl | rfl
  · exact hx
  · exact hother

/-- The ids of the two nodes, and the connection under which each knows the
other. No id ends in a zero byte: such an id is not the one that a peer reads
from the node's packets, and handshakes with it do not get through. -/
structure Ends where
  id : Side → PeerId
  conn : Side → PeerConnection
  distinct : id .A ≠ id .B
  nonzero : ∀ x, ¬ (id x).EndsInZero

theorem Ends.id_ne (e : Ends) (x : Side) : e.id x.other ≠ e.id x := by
  cases x
  · exact e.distinct.symm
  · exact e.distinct

theorem Ends.str_ne (e : Ends) (x : Side) : (e.id x.other).str ≠ (e.id x).str := fun h =>
  e.id_ne x (PeerId.str_injective h)

/-- A packet of a side is read under the side's id. -/
theorem Ends.read (e : Ends) (x : Side) : hex (rstripZero (e.id x).bytes) = (e.id x).str :=
  (e.id x).hex_rstripZero_eq.mpr (e.nonzero x)

variable [Packages]

/-! ## Steps -/

/-- A packet on the wire, with the send nonce that its writer had for the
other side before the step that wrote it. -/
structure Frame where
  raw : Bytes
  nonce : Nat

structure Link where
  world : Side → World
  /-- What the side has written and the other has not yet handled, oldest first. -/
  wire : Side → List Frame

inductive Op
  /-- Something happens to a side by itself. -/
  | act (x : Side) (env : Env) (event : Event)
  /-- The side handles the oldest packet of the other. -/
  | handle (x : Side) (env : Env)

def send_nonce (n : MeshNode) (peer_id : Str) : Nat :=
  ((n.encryption_service.sessions.get? peer_id).map fun s => s.send_cipher.nonce).getD 0

/-- What the side wrote, without the length headers. -/
def written (peer_id : Str) (w w' : World) : List Frame :=
  (new_writes w w').map fun f => ⟨f.2.drop 2, send_nonce w.node peer_id⟩

/-- The side moves on to the given world. -/
def Link.advance (e : Ends) (l : Link) (x : Side) (w' : World) : Link where
  world := Function.update l.world x w'
  wire := Function.update l.wire x (l.wire x ++ written (e.id x.other).str (l.world x) w')

def Link.step (e : Ends) (l : Link) : Op → Link
  | .act x env event => l.advance e x (exec (react env event) (l.world x)).2
  | .handle x env =>
    match l.wire x.other with
    | [] => l
    | f :: rest =>
      Link.advance e { l with wire := Function.update l.wire x.other rest } x
        (exec (react env (.packet (e.conn x) f.raw)) (l.world x)).2

/-- Links that a run of steps of one kind leads to. -/
inductive Link.Reached (e : Ends) (ok : Link → Op → Prop) (start : Link) : Link → Prop
  | start : Reached e ok start start
  | step {l : Link} (h : Reached e ok start l) (op : Op) (hop : ok l op) :
    Reached e ok start (l.step e op)

/-- What holds at the start and through every step holds wherever a run leads. -/
theorem Link.Reached.invariant {e : Ends} {ok : Link → Op → Prop} {start l : Link}
    {I : Link → Prop} (h : Link.Reached e ok start l) (hstart : I start)
    (hstep : ∀ l op, ok l op → I l → I (l.step e op)) : I l := by
  induction h with
  | start => exact hstart
  | step h op hop ih => exact hstep _ op hop ih

/-! ## A node on a link -/

/-- Every write works. -/
def Lossless (env : Env) : Prop := ∀ address, env.write_fails address = false

/-- The node has one connection, and knows its peer behind it. -/
structure Joined (me peer : PeerId) (conn : PeerConnection) (n : MeshNode) : Prop where
  me : n.my_peer_id = me
  connections : n.connections.entries = [(conn.address, conn)]
  address : n.peer_addresses.get? peer.str = some conn.address

theorem Joined.get_conn {me peer : PeerId} {conn : PeerConnection} {n : MeshNode}
    (h : Joined me peer conn n) : n.get_conn_for_peer peer.str = some conn := by
  have hget : n.connections.get? conn.address = some conn := by
    simp [Dict.get?, h.connections]
  have hne : ∃ c cs, conn.address = c :: cs := by
    unfold PeerConnection.address
    cases conn.host with
    | nil => exact ⟨_, _, rfl⟩
    | cons c cs => exact ⟨_, _, rfl⟩
  obtain ⟨c, cs, hcs⟩ := hne
  unfold MeshNode.get_conn_for_peer
  rw [h.address, hcs]
  rw [hcs] at hget
  exact hget

/-- From `w` to `w'` the node wrote these packets to its peer, and put off
these relays. -/
structure Acts (conn : PeerConnection) (packets relayed : List Bytes) (w w' : World) : Prop where
  writes : writes w'.out = writes w.out ++ packets.map fun packet => (conn.address, framed packet)
  relays : relays w'.out = relays w.out ++ relayed

theorem Acts.trans {conn : PeerConnection} {p q r t : List Bytes} {w w' w'' : World}
    (h : Acts conn p r w w') (g : Acts conn q t w' w'') : Acts conn (p ++ q) (r ++ t) w w'' := by
  refine ⟨?_, ?_⟩
  · rw [g.writes, h.writes, List.map_append, List.append_assoc]
  · rw [g.relays, h.relays, List.append_assoc]

/-- Actions that are neither a write nor a relay. -/
theorem Acts.silent (conn : PeerConnection) {w w' : World} {actions : List Action}
    (h : w'.out = w.out ++ actions) (hw : daemon.writes actions = [])
    (hr : daemon.relays actions = []) : Acts conn [] [] w w' := by
  refine ⟨?_, ?_⟩
  · rw [h, writes_append, hw, List.map_nil]
  · rw [h, relays_append, hr]

theorem Acts.written {conn : PeerConnection} {packets relayed : List Bytes} {w w' : World}
    (h : Acts conn packets relayed w w') (peer_id : Str) :
    written peer_id w w' = packets.map fun packet => ⟨packet, send_nonce w.node peer_id⟩ := by
  unfold daemon.written
  rw [new_writes_eq h.writes, List.map_map]
  rfl

/-- A packet that fits a frame goes out to the peer. -/
theorem Joined.send_to_peer {me peer : PeerId} {conn : PeerConnection} {w : World} {env : Env}
    {packet : Bytes} (h : Joined me peer conn w.node) (henv : Lossless env)
    (hfits : packet.length ≤ 65535) :
    exec (send_to_peer env peer.str packet) w =
      (.ok (), { w with out := w.out ++ [.write conn.address (framed packet)] }) :=
  exec_send_to_peer h.get_conn hfits (henv _)

/-- A packet that is too long for a frame goes nowhere. -/
theorem Joined.send_to_peer_long {me peer : PeerId} {conn : PeerConnection} {w : World}
    {packet : Bytes} (h : Joined me peer conn w.node) (env : Env)
    (hlong : ¬ packet.length ≤ 65535) :
    ∃ e, exec (daemon.send_to_peer env peer.str packet) w = (.error e, w) := by
  obtain ⟨e, -, he⟩ := exec_send_packet_long env conn hlong w
  refine ⟨e, ?_⟩
  unfold daemon.send_to_peer
  simp only [exec_bind, exec_node, h.get_conn, he]

/-- A packet for everyone goes to the peer. -/
theorem Joined.raw_send {me peer : PeerId} {conn : PeerConnection} {w : World} {env : Env}
    {packet : Bytes} (h : Joined me peer conn w.node) (henv : Lossless env)
    (hfits : packet.length ≤ 65535) :
    exec (daemon.raw_send env packet) w =
      (.ok (), { w with out := w.out ++ [.write conn.address (framed packet)] }) := by
  unfold daemon.raw_send broadcast_packet
  simp only [exec_bind, exec_node, h.connections, broadcast_each, List.not_mem_nil, if_false,
    exec_attempt, exec_send_packet hfits (henv _), exec_pure]

theorem acts_write {conn : PeerConnection} {w w' : World} {packet : Bytes}
    (h : w'.out = w.out ++ [.write conn.address (framed packet)]) : Acts conn [packet] [] w w' := by
  refine ⟨?_, ?_⟩
  · rw [h, writes_append]
    rfl
  · rw [h, relays_append]
    rfl

end daemon
