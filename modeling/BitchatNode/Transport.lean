-- `daemon/transport.py` by itself: which connections there are, which of them
-- the table holds, and which callbacks were fired. A connection has an identity
-- here, since two of them may have one address.
import BitchatNode.Broadcasting
import BitchatNode.Systems

namespace daemon

open python bitchat systems

/-! ## Connections -/

/-- Where the task that reads a connection stands. -/
inductive Phase
  | reading
  /-- The task of an outgoing connection is over, and its done callback is
  still to run. -/
  | read_done
  | finished
deriving DecidableEq

/-- A connection that was opened or accepted. -/
structure Connection where
  conn : PeerConnection
  phase : Phase
  /-- `close` was called. -/
  closed : Bool
  /-- `disconnect` was called for it. -/
  disconnected : Bool
  /-- A send on it failed. -/
  failed : Bool
deriving DecidableEq

/-- A call of a callback, with the number of the connection. -/
inductive Callback
  | on_connected (id : Nat)
  | on_disconnected (id : Option Nat)
deriving DecidableEq

/-- A `Transport`. The number of a connection is its place in `made`. -/
structure Transport where
  made : List Connection
  /-- `_connections`. -/
  connections : Dict Str Nat
  /-- The calls of `connect` that wait for their socket. -/
  dials : List (Str × Nat)
  fired : List Callback

/-- What decides whether a dial is waiting. -/
instance lawfulBEq_dial : LawfulBEq (Str × Nat) := inferInstance

namespace Transport

def init : Transport := ⟨[], .empty, [], []⟩

/-- A new connection is stored under its address and reported, and its read
loop starts. -/
def store (self : Transport) (conn : PeerConnection) : Transport :=
  { self with
    made := self.made ++ [⟨conn, .reading, false, false, false⟩]
    connections := self.connections.set conn.address self.made.length
    fired := self.fired ++ [.on_connected self.made.length] }

def update (self : Transport) (id : Nat) (f : Connection → Connection) : Transport :=
  { self with made := self.made.modify id f }

/-- The address leaves the table, and the connection is closed and reported. -/
def close_at (self : Transport) (addr : Str) (id : Nat) : Transport :=
  { self.update id (fun c => { c with closed := true }) with
    connections := self.connections.pop addr
    fired := self.fired ++ [.on_disconnected (some id)] }

/-- `_on_read_done`. The `finally` of `_handle_client` does the same. -/
def on_read_done (self : Transport) (id : Nat) : Transport :=
  match self.made[id]? with
  | some c => self.close_at c.conn.address id
  | none => self

/-! ## Steps -/

inductive Op
  /-- A call of `connect`, up to its `await`. -/
  | connect (host : Str) (port : Nat)
  /-- The socket of a dial is open, and `connect` goes on. -/
  | opened (host : Str) (port : Nat)
  | refused (host : Str) (port : Nat)
  /-- `_handle_client`, up to its first `await`. -/
  | accepted (host : Str) (port : Nat)
  | read_loop_ends (id : Nat)
  /-- The done callback of the read loop of an outgoing connection. -/
  | read_done_callback (id : Nat)
  /-- The error path of `send_packet`. -/
  | send_fails (id : Nat)
  | disconnect (addr : Str)

def step (self : Transport) : Op → Option Transport
  | .connect host port =>
    if self.connections.has (PeerConnection.mk host port true).address then some self
    else some { self with dials := self.dials ++ [(host, port)] }
  | .opened host port =>
    if (host, port) ∈ self.dials then
      some ({ self with dials := self.dials.erase (host, port) }.store ⟨host, port, true⟩)
    else none
  | .refused host port =>
    if (host, port) ∈ self.dials then some { self with dials := self.dials.erase (host, port) }
    else none
  | .accepted host port => some (self.store ⟨host, port, false⟩)
  | .read_loop_ends id => do
    let c ← self.made[id]?
    if c.phase ≠ .reading then none
    else if c.conn.is_outgoing then
      some (self.update id fun c => { c with phase := .read_done })
    else some ((self.update id fun c => { c with phase := .finished }).on_read_done id)
  | .read_done_callback id => do
    let c ← self.made[id]?
    if c.phase ≠ .read_done then none
    else some ((self.update id fun c => { c with phase := .finished }).on_read_done id)
  | .send_fails id => do
    let _ ← self.made[id]?
    some ((self.update id fun c => { c with failed := true }).on_read_done id)
  | .disconnect addr =>
    match self.connections.get? addr with
    | some id => some ((self.update id fun c => { c with disconnected := true }).close_at addr id)
    | none => some { self with fired := self.fired ++ [.on_disconnected none] }

/-- A transport from its start on. -/
def system : System Transport Op where
  start := (· = init)
  step := step

/-! ## What is made -/

variable {self : Transport} {id id' : Nat} {c : Connection} {conn : PeerConnection} {addr : Str}

theorem made_store : (self.store conn).made[id]? = some c ↔
    self.made[id]? = some c ∨
      id = self.made.length ∧ c = ⟨conn, .reading, false, false, false⟩ := by
  unfold store
  rw [List.getElem?_append]
  split
  · rename_i hlt
    refine ⟨.inl, ?_⟩
    rintro (h | ⟨rfl, -⟩)
    · exact h
    · exact absurd hlt (lt_irrefl _)
  · rename_i hge
    rw [List.getElem?_eq_none (by omega : self.made.length ≤ id), List.getElem?_singleton]
    constructor
    · intro h
      split at h
      · exact .inr ⟨by omega, (Option.some.inj h).symm⟩
      · cases h
    · rintro (h | ⟨rfl, rfl⟩)
      · cases h
      · rw [if_pos (Nat.sub_self _)]

theorem made_update (f : Connection → Connection) : (self.update id f).made[id']? = some c ↔
    ∃ c', self.made[id']? = some c' ∧ c = if id = id' then f c' else c' := by
  unfold update
  rw [List.getElem?_modify, Option.map_eq_map, Option.map_eq_some_iff]
  simp only [eq_comm]

theorem made_close_at (f : Connection → Connection) :
    ((self.update id f).close_at addr id).made[id']? = some c ↔
      ∃ c', self.made[id']? = some c' ∧
        c = if id = id' then { f c' with closed := true } else c' := by
  unfold close_at
  rw [made_update]
  simp only [made_update]
  constructor
  · rintro ⟨_, ⟨c', hc', rfl⟩, rfl⟩
    refine ⟨c', hc', ?_⟩
    split <;> rfl
  · rintro ⟨c', hc', rfl⟩
    refine ⟨_, ⟨c', hc', rfl⟩, ?_⟩
    split <;> rfl

/-! ## What a step does -/

/-- The connection that a step stores. -/
def Op.stored : Op → Option PeerConnection
  | .opened host port => some ⟨host, port, true⟩
  | .accepted host port => some ⟨host, port, false⟩
  | _ => none

/-- The connection that a step is about. -/
def Op.subject : Op → Option Nat
  | .read_loop_ends id | .read_done_callback id | .send_fails id => some id
  | _ => none

/-- The connection has come to an end: it was disconnected, a send on it failed,
or its read loop ended and was followed up. -/
def Ended (c : Connection) : Prop := c.disconnected = true ∨ c.failed = true ∨ c.phase = .finished

instance (c : Connection) : Decidable (Ended c) := inferInstanceAs (Decidable (_ ∨ _))

/-- The note that a step makes on a connection that it ends. -/
structure Marks (f : Connection → Connection) : Prop where
  conn : ∀ c, (f c).conn = c.conn
  closed : ∀ c, (f c).closed = c.closed
  ended : ∀ c, Ended (f c)

/-- What a step does. -/
inductive Did (self : Transport) : Op → Transport → Prop
  /-- A dial begins or is given up. -/
  | dial {op : Op} (dials : List (Str × Nat)) (hstored : op.stored = none) :
    Did self op { self with dials }
  | store {op : Op} (conn : PeerConnection) (dials : List (Str × Nat))
      (hstored : op.stored = some conn) : Did self op ({ self with dials }.store conn)
  /-- The read loop of an outgoing connection ends. -/
  | read_done {id : Nat} {c : Connection} (hmade : self.made[id]? = some c)
      (hreading : c.phase = .reading) :
    Did self (.read_loop_ends id) (self.update id fun c => { c with phase := .read_done })
  | ends {op : Op} {id : Nat} {c : Connection} {f : Connection → Connection}
      (hmade : self.made[id]? = some c) (hsubject : op.subject = some id) (hmarks : Marks f) :
    Did self op ((self.update id f).close_at c.conn.address id)
  | disconnect {addr : Str} {id : Nat} {f : Connection → Connection}
      (hentry : self.connections.get? addr = some id) (hmarks : Marks f) :
    Did self (.disconnect addr) ((self.update id f).close_at addr id)
  /-- There is nobody at the address. -/
  | nobody {addr : Str} (hentry : self.connections.get? addr = none) :
    Did self (.disconnect addr) { self with fired := self.fired ++ [.on_disconnected none] }

theorem on_read_done_update {f : Connection → Connection} (hmade : self.made[id]? = some c)
    (hmarks : Marks f) :
    (self.update id f).on_read_done id = (self.update id f).close_at c.conn.address id := by
  have hmarked : (self.update id f).made[id]? = some (f c) :=
    (made_update f).mpr ⟨c, hmade, (if_pos rfl).symm⟩
  unfold on_read_done
  rw [hmarked]
  simp only [hmarks.conn]

theorem marks_finished : Marks fun c => { c with phase := .finished } :=
  ⟨fun _ => rfl, fun _ => rfl, fun _ => .inr (.inr rfl)⟩

theorem marks_failed : Marks fun c => { c with failed := true } :=
  ⟨fun _ => rfl, fun _ => rfl, fun _ => .inr (.inl rfl)⟩

theorem marks_disconnected : Marks fun c => { c with disconnected := true } :=
  ⟨fun _ => rfl, fun _ => rfl, fun _ => .inl rfl⟩

theorem did_of_step {op : Op} {t : Transport} (h : self.step op = some t) : Did self op t := by
  cases op with
  | connect host port =>
    simp only [step] at h
    split at h
    · rw [← Option.some.inj h]
      exact .dial self.dials rfl
    · rw [← Option.some.inj h]
      exact .dial _ rfl
  | opened host port =>
    simp only [step] at h
    split at h
    · rw [← Option.some.inj h]
      exact .store _ _ rfl
    · cases h
  | refused host port =>
    simp only [step] at h
    split at h
    · rw [← Option.some.inj h]
      exact .dial _ rfl
    · cases h
  | accepted host port =>
    simp only [step] at h
    rw [← Option.some.inj h]
    exact .store _ self.dials rfl
  | read_loop_ends id =>
    simp only [step, Option.bind_eq_bind, Option.bind_eq_some_iff] at h
    obtain ⟨c, hmade, h⟩ := h
    split at h
    · cases h
    · rename_i hreading
      split at h
      · rw [← Option.some.inj h]
        exact .read_done hmade (not_not.mp hreading)
      · rw [← Option.some.inj h, on_read_done_update hmade marks_finished]
        exact .ends hmade rfl marks_finished
  | read_done_callback id =>
    simp only [step, Option.bind_eq_bind, Option.bind_eq_some_iff] at h
    obtain ⟨c, hmade, h⟩ := h
    split at h
    · cases h
    · rw [← Option.some.inj h, on_read_done_update hmade marks_finished]
      exact .ends hmade rfl marks_finished
  | send_fails id =>
    simp only [step, Option.bind_eq_bind, Option.bind_eq_some_iff] at h
    obtain ⟨c, hmade, h⟩ := h
    rw [← Option.some.inj h, on_read_done_update hmade marks_failed]
    exact .ends hmade rfl marks_failed
  | disconnect addr =>
    simp only [step] at h
    split at h
    · rename_i id hentry
      rw [← Option.some.inj h]
      exact .disconnect hentry marks_disconnected
    · rename_i hentry
      rw [← Option.some.inj h]
      exact .nobody hentry

/-! ## The table -/

/-- Each entry of the table is a connection that has this address and was not
closed. -/
def Stored (self : Transport) : Prop :=
  ∀ addr id, self.connections.get? addr = some id →
    ∃ c, self.made[id]? = some c ∧ c.conn.address = addr ∧ c.closed = false

theorem stored_close_at {f : Connection → Connection} (h : self.Stored)
    (hmade : self.made[id]? = some c) :
    ((self.update id f).close_at c.conn.address id).Stored := by
  intro addr id' hentry
  have hpop : (self.connections.pop c.conn.address).get? addr = some id' := hentry
  rw [Dict.get?_pop] at hpop
  split at hpop
  · cases hpop
  · rename_i hother
    obtain ⟨c', hmade', haddr, hopen⟩ := h addr id' hpop
    refine ⟨c', (made_close_at f).mpr ⟨c', hmade', ?_⟩, haddr, hopen⟩
    -- a connection at another address is another connection
    rw [if_neg]
    rintro rfl
    rw [hmade, Option.some.injEq] at hmade'
    rw [hmade', haddr] at hother
    exact hother rfl

theorem Did.stored {op : Op} {t : Transport} (hdid : Did self op t) (h : self.Stored) :
    t.Stored := by
  cases hdid with
  | dial dials _ => exact h
  | store conn dials _ =>
    intro addr id hentry
    have hset : (self.connections.set conn.address self.made.length).get? addr = some id := hentry
    rw [Dict.get?_set] at hset
    split at hset
    · rename_i haddr
      rw [Option.some.injEq] at hset
      exact ⟨_, made_store.mpr (.inr ⟨hset.symm, rfl⟩), haddr, rfl⟩
    · obtain ⟨c, hmade, haddr, hopen⟩ := h addr id hset
      exact ⟨c, made_store.mpr (.inl hmade), haddr, hopen⟩
  | read_done _ _ =>
    intro addr id' hentry
    obtain ⟨c, hmade, haddr, hopen⟩ := h addr id' hentry
    refine ⟨_, (made_update _).mpr ⟨c, hmade, rfl⟩, ?_, ?_⟩
    · split <;> exact haddr
    · split <;> exact hopen
  | ends hmade _ _ => exact stored_close_at h hmade
  | disconnect hentry _ =>
    obtain ⟨c, hmade, rfl, -⟩ := h _ _ hentry
    exact stored_close_at h hmade
  | nobody _ => exact h

/-- In every run, each entry of the table is a connection that has this address
and was not closed. -/
theorem stored_of_reachable {t : Transport} (h : system.Reachable t) : t.Stored := by
  refine h.invariant ?_ ?_
  · rintro s rfl addr id hentry
    cases hentry
  · intro s op s' _ hstored _ hstep
    exact (did_of_step hstep).stored hstored

/-! ## The view of the node -/

variable [Packages]

/-- What a step is to the node. A failed send takes the connection down as the
end of its read loop does. -/
def event (self : Transport) : Op → Option Event
  | .opened host port => some (.connected ⟨host, port, true⟩)
  | .accepted host port => some (.connected ⟨host, port, false⟩)
  | .read_loop_ends id =>
    ((self.made[id]?).filter fun c => ¬ c.conn.is_outgoing).map fun c => .read_done c.conn
  | .read_done_callback id | .send_fails id => (self.made[id]?).map fun c => .read_done c.conn
  | .disconnect addr => some (.disconnect addr)
  | .connect _ _ | .refused _ _ => none

/-- The node knows the connections of the table, without their identity. -/
def Agrees (self : Transport) (n : MeshNode) : Prop :=
  ∀ addr, n.connections.get? addr =
    (self.connections.get? addr).bind fun id => (self.made[id]?).map Connection.conn

theorem agrees_store {n n' : MeshNode} (h : self.Agrees n)
    (hn : n'.connections = n.connections.set conn.address conn)
    (hstored : self.Stored) (dials : List (Str × Nat)) :
    ({ self with dials }.store conn).Agrees n' := by
  intro addr
  rw [hn]
  unfold store
  simp only
  rw [Dict.get?_set, Dict.get?_set]
  split
  · simp
  · rw [h addr]
    rcases hentry : self.connections.get? addr with _ | id
    · rfl
    · obtain ⟨c, hmade, -⟩ := hstored addr id hentry
      simp [List.getElem?_append_left (List.getElem?_eq_some_iff.mp hmade).1]

theorem agrees_update {n : MeshNode} (h : self.Agrees n) {f : Connection → Connection}
    (hf : ∀ c, (f c).conn = c.conn) : (self.update id f).Agrees n := by
  intro addr
  rw [h addr]
  show _ = (self.connections.get? addr).bind _
  congr 1
  funext id'
  unfold update
  rw [List.getElem?_modify]
  rcases self.made[id']? with _ | c
  · rfl
  · by_cases hid : id = id' <;> simp [hid, hf]

theorem agrees_close_at {n n' : MeshNode} (h : self.Agrees n)
    (hn : n'.connections = n.connections.pop addr)
    {f : Connection → Connection} (hf : ∀ c, (f c).conn = c.conn) :
    ((self.update id f).close_at addr id).Agrees n' := by
  intro addr'
  have hclosed : ((self.update id f).update id fun c => { c with closed := true }).Agrees n :=
    agrees_update (agrees_update h hf) fun _ => rfl
  rw [hn, Dict.get?_pop]
  show _ = ((self.connections.pop addr).get? addr').bind _
  rw [Dict.get?_pop]
  split
  · rfl
  · exact hclosed addr'

theorem connections_disconnect (env : Env) (addr : Str) (w : World) :
    (exec (react env (.disconnect addr)) w).2.node.connections =
      w.node.connections.pop addr := by
  show (exec (disconnect addr) w).2.node.connections = _
  unfold daemon.disconnect
  rw [exec_bind_ok _ (exec_node w)]
  rcases hentry : w.node.connections.get? addr with _ | conn
  · have hhas := (Dict.has_eq_false_iff w.node.connections addr).mpr hentry
    exact ((Dict.pop_eq_self_iff _ _).mpr hhas).symm
  · rw [exec_bind_ok _ (exec_modifyNode _ w), connections_on_peer_disconnected]

/-- The node after it was told of the step. -/
def told (self : Transport) (env : Env) (op : Op) (w : World) : World :=
  match self.event op with
  | some event => (exec (react env event) w).2
  | none => w

/-- The node keeps up with the table at every step. -/
theorem agrees_step {op : Op} {t : Transport} (hstep : self.step op = some t)
    (hstored : self.Stored) (env : Env) {w : World} (h : self.Agrees w.node) :
    t.Agrees (self.told env op w).node := by
  cases op with
  | connect host port =>
    simp only [step] at hstep
    split at hstep
    · rw [← Option.some.inj hstep]
      exact h
    · rw [← Option.some.inj hstep]
      exact h
  | opened host port =>
    simp only [step] at hstep
    split at hstep
    · rw [← Option.some.inj hstep]
      exact agrees_store h rfl hstored _
    · cases hstep
  | refused host port =>
    simp only [step] at hstep
    split at hstep
    · rw [← Option.some.inj hstep]
      exact h
    · cases hstep
  | accepted host port =>
    simp only [step] at hstep
    rw [← Option.some.inj hstep]
    exact agrees_store h rfl hstored self.dials
  | read_loop_ends id =>
    simp only [step, Option.bind_eq_bind, Option.bind_eq_some_iff] at hstep
    obtain ⟨c, hmade, hstep⟩ := hstep
    simp only [told, event, hmade]
    split at hstep
    · cases hstep
    · split at hstep
      · rename_i hout
        rw [← Option.some.inj hstep]
        simp only [Option.filter_some, hout, not_true_eq_false, decide_false, Bool.false_eq_true,
          if_false, Option.map_none]
        exact agrees_update h fun _ => rfl
      · rename_i hout
        rw [← Option.some.inj hstep, on_read_done_update hmade marks_finished]
        simp only [Option.filter_some, hout, Bool.false_eq_true, not_false_eq_true, decide_true,
          if_true, Option.map_some]
        exact agrees_close_at h (connections_on_read_done c.conn w) fun _ => rfl
  | read_done_callback id =>
    simp only [step, Option.bind_eq_bind, Option.bind_eq_some_iff] at hstep
    obtain ⟨c, hmade, hstep⟩ := hstep
    simp only [told, event, hmade, Option.map_some]
    split at hstep
    · cases hstep
    · rw [← Option.some.inj hstep, on_read_done_update hmade marks_finished]
      exact agrees_close_at h (connections_on_read_done c.conn w) fun _ => rfl
  | send_fails id =>
    simp only [step, Option.bind_eq_bind, Option.bind_eq_some_iff] at hstep
    obtain ⟨c, hmade, hstep⟩ := hstep
    simp only [told, event, hmade, Option.map_some]
    rw [← Option.some.inj hstep, on_read_done_update hmade marks_failed]
    exact agrees_close_at h (connections_on_read_done c.conn w) fun _ => rfl
  | disconnect addr =>
    have hpop := connections_disconnect env addr w
    simp only [step] at hstep
    split at hstep
    · rw [← Option.some.inj hstep]
      exact agrees_close_at h hpop fun _ => rfl
    · rename_i hnobody
      rw [← Option.some.inj hstep]
      intro addr'
      show (exec (react env (.disconnect addr)) w).2.node.connections.get? addr' = _
      rw [hpop, Dict.get?_pop]
      split
      · rename_i heq
        rw [← heq, hnobody]
        rfl
      · exact h addr'

end Transport

end daemon
