-- `Daemon.start` of `daemon/__main__.py` over the transport: which connections
-- are greeted depends on where `start` stands when they are reported. It runs
-- without a break from one `await` that suspends it to the next.
import BitchatNode.Transport

namespace daemon

open python systems

/-! ## Where `start` stands -/

/-- What the configuration says, and whether `zeroconf` can be imported and
started. The bootstrap nodes are those entries that parse. -/
structure StartConfig where
  bootstrap_nodes : List (Str × Nat)
  mdns : Bool
  zeroconf : Bool

inductive Stage
  | created
  /-- In `start_server`, and the socket listens. -/
  | serving
  /-- In the loop of `_start_mdns`. -/
  | browsing
  /-- In `HttpServer.start`, or past it. -/
  | running
deriving DecidableEq

/-- What `transport.on_connected` is: `_on_peer_connected` of the node, or
`_on_connected` of `Daemon.start`. -/
inductive OnConnected
  | on_peer_connected
  | on_connected
deriving DecidableEq

structure Startup where
  stage : Stage
  /-- `_running` of the discovery. -/
  discovering : Bool
  /-- `_known` of the discovery. -/
  known : List (Str × Nat)
  /-- The tasks of `_connect_to_peer` that have not run yet. -/
  tasks : List (Str × Nat)
  on_connected : OnConnected
  transport : Transport
  /-- The connections for which `on_connect_transport` was started. -/
  greeted : List Nat

namespace Startup

/-- `Daemon.__init__`: the node has wired its own callback. -/
def init : Startup where
  stage := .created
  discovering := false
  known := []
  tasks := []
  on_connected := .on_peer_connected
  transport := .init
  greeted := []

/-- `_on_peer_discovered`, for a peer that is not known yet. -/
def discovered (self : Startup) (peer : Str × Nat) : Startup :=
  if peer ∈ self.known then self
  else { self with known := self.known ++ [peer], tasks := self.tasks ++ [peer] }

/-- The rest of `Daemon.start`, from where `Discovery.start` returns. -/
def install (self : Startup) : Startup :=
  { self with stage := .running, on_connected := .on_connected }

/-- `Daemon.start` from where the server was started. -/
def go_on (self : Startup) (config : StartConfig) : Startup :=
  let self := config.bootstrap_nodes.foldl discovered { self with discovering := true }
  if config.mdns && config.zeroconf then { self with stage := .browsing } else self.install

/-- The connections that a transport reported as connected. -/
def connected (fired : List Callback) : List Nat :=
  fired.filterMap fun
    | .on_connected id => some id
    | .on_disconnected _ => none

/-- What the callback starts for the connections that are reported. -/
def OnConnected.greets : OnConnected → List Nat → List Nat
  | .on_peer_connected, _ => []
  | .on_connected, ids => ids

/-- The transport goes on, and fires its callbacks. -/
def report (self : Startup) (t : Transport) : Startup :=
  { self with
    transport := t
    greeted := self.greeted ++
      OnConnected.greets self.on_connected
        (connected (t.fired.drop self.transport.fired.length)) }

/-! ## Steps -/

inductive Op
  /-- `start` is called. -/
  | start
  /-- `start_server` returns. -/
  | served
  /-- The sleep in the loop of `_start_mdns` is over. -/
  | tick
  /-- mDNS finds a service. -/
  | found (host : Str) (port : Nat)
  /-- A task of `_connect_to_peer` begins. -/
  | connect_to_peer (host : Str) (port : Nat)
  /-- `Discovery.stop`, as `Daemon.stop` calls it. -/
  | stop_discovery
  /-- Something else happens on the transport. -/
  | net (op : Transport.Op)

/-- The server takes connections once it listens, and `/connect` is served
once the HTTP server starts. -/
def serves (self : Startup) : Transport.Op → Bool
  | .accepted _ _ => self.stage ≠ .created
  | .connect _ _ => self.stage = .running
  | _ => true

def step (config : StartConfig) (self : Startup) : Op → Option Startup
  | .start => if self.stage = .created then some { self with stage := .serving } else none
  | .served => if self.stage = .serving then some (self.go_on config) else none
  | .tick =>
    if self.stage = .browsing then
      if self.discovering then some self else some self.install
    else none
  | .found host port =>
    if self.stage = .browsing ∧ self.discovering then some (self.discovered (host, port)) else none
  | .connect_to_peer host port =>
    if (host, port) ∈ self.tasks then
      ((self.transport.step (.connect host port)).map self.report).map fun self =>
        { self with tasks := self.tasks.erase (host, port) }
    else none
  | .stop_discovery => some { self with discovering := false }
  | .net op => if self.serves op then (self.transport.step op).map self.report else none

def system (config : StartConfig) : System Startup Op where
  start := (· = init)
  step := step config

/-- Each connection that was reported is greeted once. -/
def Greeted (self : Startup) : Prop :=
  ∀ id ∈ connected self.transport.fired, self.greeted.count id = 1

instance (self : Startup) : Decidable self.Greeted :=
  inferInstanceAs (Decidable (∀ id ∈ connected self.transport.fired, self.greeted.count id = 1))

/-- The step opens or accepts a connection. -/
def Op.connects : Op → Bool
  | .net op => op.stored.isSome
  | _ => false

/-- No step of the run connects before the callback was replaced. -/
def Heard (config : StartConfig) : Startup → List Op → Prop
  | _, [] => True
  | self, op :: ops => (op.connects → self.on_connected = .on_connected) ∧
    ∀ self', step config self op = some self' → Heard config self' ops

/-! ## What a step reports -/

/-- The numbers that were given out are below the number of connections. -/
structure Numbered (s : Startup) : Prop where
  fired : ∀ id ∈ connected s.transport.fired, id < s.transport.made.length
  greeted : ∀ id ∈ s.greeted, id < s.transport.made.length

/-- The connection that the step reports as connected. -/
def reported (self : Transport) (op : Transport.Op) : List Nat :=
  if op.stored.isSome then [self.made.length] else []

theorem connected_append (fired fired' : List Callback) :
    connected (fired ++ fired') = connected fired ++ connected fired' :=
  List.filterMap_append

theorem length_made_close_at (self : Transport) (addr : Str) (id : Nat)
    (f : Connection → Connection) :
    ((self.update id f).close_at addr id).made.length = self.made.length := by
  unfold Transport.close_at Transport.update
  rw [List.length_modify, List.length_modify]

theorem fired_of_did {self t : Transport} {op : Transport.Op} (h : Transport.Did self op t) :
    ∃ new, t.fired = self.fired ++ new ∧ connected new = reported self op ∧
      t.made.length = self.made.length + (reported self op).length := by
  cases h with
  | dial dials hstored =>
    refine ⟨[], (List.append_nil _).symm, ?_, ?_⟩ <;> simp [reported, hstored, connected]
  | store conn dials hstored =>
    refine ⟨_, rfl, ?_, ?_⟩ <;> simp [reported, hstored, connected, Transport.store]
  | read_done hmade hreading =>
    refine ⟨[], (List.append_nil _).symm, rfl, List.length_modify _ _ _⟩
  | @ends _ id c f hmade hsubject hmarks =>
    have hnone : op.stored = none := by cases op <;> first | rfl | cases hsubject
    refine ⟨_, rfl, ?_, ?_⟩
    · simp [reported, hnone, connected]
    · rw [length_made_close_at]
      simp [reported, hnone]
  | disconnect hentry hmarks =>
    refine ⟨_, rfl, rfl, ?_⟩
    rw [length_made_close_at]
    rfl
  | nobody hentry => exact ⟨_, rfl, rfl, rfl⟩

section

variable {self self' : Startup} {t : Transport} {op : Transport.Op}

theorem Numbered.report (h : self.Numbered) (hdid : Transport.Did self.transport op t) :
    (self.report t).Numbered := by
  obtain ⟨new, hfired, hnew, hlength⟩ := fired_of_did hdid
  have hdrop : t.fired.drop self.transport.fired.length = new := by
    rw [hfired, List.drop_left]
  have hlt : ∀ id ∈ reported self.transport op, id < t.made.length := by
    intro id hid
    rw [hlength]
    unfold reported at hid ⊢
    split at hid
    · rw [List.mem_singleton.mp hid, if_pos ‹_›]
      exact Nat.lt_succ_self _
    · cases hid
  have hle : self.transport.made.length ≤ t.made.length := by omega
  refine ⟨fun id hid => ?_, fun id hid => ?_⟩
  · have hmem : id ∈ connected t.fired := hid
    rw [hfired, connected_append, hnew] at hmem
    rcases List.mem_append.mp hmem with hold | hnewid
    · exact lt_of_lt_of_le (h.fired id hold) hle
    · exact hlt id hnewid
  · have hmem : id ∈ self.greeted ++ OnConnected.greets self.on_connected
        (connected (t.fired.drop self.transport.fired.length)) := hid
    rw [hdrop, hnew] at hmem
    rcases List.mem_append.mp hmem with hold | hnewid
    · exact lt_of_lt_of_le (h.greeted id hold) hle
    · cases hcallback : self.on_connected with
      | on_peer_connected =>
        rw [hcallback] at hnewid
        cases hnewid
      | on_connected =>
        rw [hcallback] at hnewid
        exact hlt id hnewid

theorem greeted_report_iff (h : self.Numbered) (hdid : Transport.Did self.transport op t) :
    (self.report t).Greeted ↔
      self.Greeted ∧ (op.stored.isSome → self.on_connected = .on_connected) := by
  obtain ⟨new, hfired, hnew, hlength⟩ := fired_of_did hdid
  have hdrop : t.fired.drop self.transport.fired.length = new := by
    rw [hfired, List.drop_left]
  have hreport : (self.report t).Greeted ↔
      ∀ id ∈ connected self.transport.fired ++ reported self.transport op,
        (self.greeted ++ OnConnected.greets self.on_connected
          (reported self.transport op)).count id = 1 := by
    unfold Greeted report
    simp only [hdrop, hnew]
    rw [hfired, connected_append, hnew]
  rw [hreport]
  unfold reported
  by_cases hstored : op.stored.isSome
  · -- The new connection has a number of its own.
    have hfresh : self.greeted.count self.transport.made.length = 0 :=
      List.count_eq_zero.mpr fun hmem => lt_irrefl _ (h.greeted _ hmem)
    have hother : ∀ id ∈ connected self.transport.fired, id ≠ self.transport.made.length :=
      fun id hid => (h.fired id hid).ne
    rw [if_pos hstored]
    simp only [List.mem_append, List.mem_singleton, or_imp, forall_and, forall_eq,
      List.count_append, hfresh, hstored, forall_const]
    cases self.on_connected with
    | on_peer_connected => simp [OnConnected.greets]
    | on_connected =>
      simp only [OnConnected.greets, List.count_singleton_self, Nat.zero_add, and_true]
      refine forall₂_congr fun id hid => ?_
      rw [List.count_eq_zero.mpr fun hmem => hother id hid (List.mem_singleton.mp hmem),
        Nat.add_zero]
  · rw [if_neg hstored, List.append_nil]
    have hnil : OnConnected.greets self.on_connected [] = [] := by
      cases self.on_connected <;> rfl
    rw [hnil, List.append_nil]
    exact ⟨fun hall => ⟨hall, fun hsome => absurd hsome hstored⟩, fun hall => hall.1⟩

/-- A step that leaves the transport alone. -/
theorem Numbered.of_same (h : self.Numbered) (htransport : self'.transport = self.transport)
    (hgreeted : self'.greeted = self.greeted) : self'.Numbered := by
  refine ⟨?_, ?_⟩
  · rw [htransport]
    exact h.fired
  · rw [htransport, hgreeted]
    exact h.greeted

theorem greeted_of_same (htransport : self'.transport = self.transport)
    (hgreeted : self'.greeted = self.greeted) : self'.Greeted ↔ self.Greeted := by
  unfold Greeted
  rw [htransport, hgreeted]

/-- The same but for what the discovery knows. -/
structure SameBut (s s' : Startup) : Prop where
  stage : s'.stage = s.stage
  discovering : s'.discovering = s.discovering
  on_connected : s'.on_connected = s.on_connected
  transport : s'.transport = s.transport
  greeted : s'.greeted = s.greeted

theorem SameBut.trans {s s' s'' : Startup} (h : SameBut s s') (g : SameBut s' s'') :
    SameBut s s'' :=
  ⟨g.stage.trans h.stage, g.discovering.trans h.discovering, g.on_connected.trans h.on_connected,
    g.transport.trans h.transport, g.greeted.trans h.greeted⟩

theorem discovered_same (s : Startup) (peer : Str × Nat) : SameBut s (s.discovered peer) := by
  unfold discovered
  split <;> exact ⟨rfl, rfl, rfl, rfl, rfl⟩

theorem foldl_discovered_same (peers : List (Str × Nat)) (s : Startup) :
    SameBut s (peers.foldl discovered s) := by
  induction peers generalizing s with
  | nil => exact ⟨rfl, rfl, rfl, rfl, rfl⟩
  | cons peer peers ih => exact (discovered_same s peer).trans (ih _)

theorem go_on_same (s : Startup) (config : StartConfig) :
    (s.go_on config).transport = s.transport ∧ (s.go_on config).greeted = s.greeted := by
  have hsame := foldl_discovered_same config.bootstrap_nodes { s with discovering := true }
  unfold go_on
  simp only
  split <;> exact ⟨hsame.transport, hsame.greeted⟩

end

section

variable {config : StartConfig} {self self' : Startup} {op : Op}

/-- One step. -/
theorem greeted_step_iff (h : self.Numbered) (hstep : step config self op = some self') :
    self'.Numbered ∧
      (self'.Greeted ↔ self.Greeted ∧ (op.connects → self.on_connected = .on_connected)) := by
  have hsilent : ∀ {s : Startup}, op.connects = false → s.transport = self.transport →
      s.greeted = self.greeted →
      s.Numbered ∧
        (s.Greeted ↔ self.Greeted ∧ (op.connects → self.on_connected = .on_connected)) := by
    intro s hop htransport hgreeted
    simp [h.of_same htransport hgreeted, greeted_of_same htransport hgreeted, hop]
  cases op with
  | start =>
    simp only [step, Option.ite_none_right_eq_some, Option.some.injEq] at hstep
    obtain ⟨-, rfl⟩ := hstep
    exact hsilent rfl rfl rfl
  | served =>
    simp only [step, Option.ite_none_right_eq_some, Option.some.injEq] at hstep
    obtain ⟨-, rfl⟩ := hstep
    exact hsilent rfl (go_on_same self config).1 (go_on_same self config).2
  | tick =>
    simp only [step, Option.ite_none_right_eq_some] at hstep
    obtain ⟨-, hstep⟩ := hstep
    split at hstep <;> cases hstep <;> exact hsilent rfl rfl rfl
  | found host port =>
    simp only [step, Option.ite_none_right_eq_some, Option.some.injEq] at hstep
    obtain ⟨-, rfl⟩ := hstep
    have hsame := discovered_same self (host, port)
    exact hsilent rfl hsame.transport hsame.greeted
  | connect_to_peer host port =>
    simp only [step, Option.ite_none_right_eq_some, Option.map_eq_some_iff] at hstep
    obtain ⟨-, s, ⟨t, ht, rfl⟩, rfl⟩ := hstep
    have hdid := Transport.did_of_step ht
    exact ⟨(h.report hdid).of_same rfl rfl, greeted_report_iff h hdid⟩
  | stop_discovery =>
    cases hstep
    exact hsilent rfl rfl rfl
  | net op =>
    simp only [step, Option.ite_none_right_eq_some, Option.map_eq_some_iff] at hstep
    obtain ⟨-, t, ht, rfl⟩ := hstep
    have hdid := Transport.did_of_step ht
    exact ⟨h.report hdid, greeted_report_iff h hdid⟩

theorem greeted_run_iff (h : self.Numbered) {ops : List Op}
    (hrun : (system config).replay self ops = some self') :
    self'.Greeted ↔ self.Greeted ∧ Heard config self ops := by
  induction ops generalizing self with
  | nil =>
    cases hrun
    simp [Heard]
  | cons op ops ih =>
    obtain ⟨s, hstep, hrest⟩ := Option.bind_eq_some_iff.mp hrun
    obtain ⟨hnumbered, hiff⟩ := greeted_step_iff h hstep
    rw [ih hnumbered hrest, hiff, Heard, and_assoc, and_congr_right_iff, and_congr_right_iff]
    intro _ _
    constructor
    · intro hheard s' hstep'
      cases hstep.symm.trans hstep'
      exact hheard
    · exact fun hheard => hheard s hstep

/-! ## While the discovery browses -/

/-- `start` has not replaced the callback, and will not before the discovery
is stopped. -/
structure Browsing (s : Startup) : Prop where
  stage : s.stage = .created ∨ s.stage = .serving ∨ s.stage = .browsing ∧ s.discovering = true
  on_connected : s.on_connected = .on_peer_connected
  greeted : s.greeted = []

theorem Browsing.report (h : self.Browsing) (t : Transport) : (self.report t).Browsing := by
  refine ⟨h.stage, h.on_connected, ?_⟩
  unfold Startup.report
  simp only
  rw [h.greeted, h.on_connected]
  rfl

theorem Browsing.step (h : self.Browsing) (hmdns : config.mdns = true)
    (hzeroconf : config.zeroconf = true) (hop : op ≠ .stop_discovery)
    (hstep : step config self op = some self') : self'.Browsing := by
  cases op with
  | start =>
    simp only [Startup.step, Option.ite_none_right_eq_some, Option.some.injEq] at hstep
    obtain ⟨-, rfl⟩ := hstep
    exact ⟨Or.inr (Or.inl rfl), h.on_connected, h.greeted⟩
  | served =>
    simp only [Startup.step, Option.ite_none_right_eq_some, Option.some.injEq] at hstep
    obtain ⟨-, rfl⟩ := hstep
    have hsame := foldl_discovered_same config.bootstrap_nodes { self with discovering := true }
    unfold go_on
    simp only [hmdns, hzeroconf, Bool.and_self, if_true]
    exact ⟨Or.inr (Or.inr ⟨rfl, hsame.discovering⟩), hsame.on_connected.trans h.on_connected,
      hsame.greeted.trans h.greeted⟩
  | tick =>
    simp only [Startup.step, Option.ite_none_right_eq_some] at hstep
    obtain ⟨hstage, hstep⟩ := hstep
    have hdiscovering : self.discovering = true := by
      rcases h.stage with hcreated | hserving | ⟨-, hdiscovering⟩
      · cases hstage.symm.trans hcreated
      · cases hstage.symm.trans hserving
      · exact hdiscovering
    rw [if_pos hdiscovering] at hstep
    cases hstep
    exact h
  | found host port =>
    simp only [Startup.step, Option.ite_none_right_eq_some, Option.some.injEq] at hstep
    obtain ⟨-, rfl⟩ := hstep
    have hsame := discovered_same self (host, port)
    refine ⟨?_, hsame.on_connected.trans h.on_connected, hsame.greeted.trans h.greeted⟩
    rw [hsame.stage, hsame.discovering]
    exact h.stage
  | connect_to_peer host port =>
    simp only [Startup.step, Option.ite_none_right_eq_some, Option.map_eq_some_iff] at hstep
    obtain ⟨-, s, ⟨t, -, rfl⟩, rfl⟩ := hstep
    have hreport := h.report t
    exact ⟨hreport.stage, hreport.on_connected, hreport.greeted⟩
  | stop_discovery => exact absurd rfl hop
  | net op =>
    simp only [Startup.step, Option.ite_none_right_eq_some, Option.map_eq_some_iff] at hstep
    obtain ⟨-, t, -, rfl⟩ := hstep
    exact h.report t

theorem Browsing.run (h : self.Browsing) (hmdns : config.mdns = true)
    (hzeroconf : config.zeroconf = true) {ops : List Op} (hops : .stop_discovery ∉ ops)
    (hrun : (system config).replay self ops = some self') : self'.Browsing := by
  induction ops generalizing self with
  | nil =>
    cases hrun
    exact h
  | cons op ops ih =>
    obtain ⟨s, hstep, hrest⟩ := Option.bind_eq_some_iff.mp hrun
    rw [List.mem_cons, not_or] at hops
    exact ih (h.step hmdns hzeroconf (Ne.symm hops.1) hstep) hops.2 hrest

/-- A start without mDNS, with one bootstrap node and a peer that comes in. -/
def bootstrap_run : List Op :=
  [.start, .served, .connect_to_peer ['h'] 1, .net (.opened ['h'] 1), .net (.accepted ['g'] 2)]

end

end Startup

end daemon
