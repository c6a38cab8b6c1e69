-- How a daemon ends: `Daemon.stop` of `daemon/__main__.py` beside `start`, the
-- transport and the WebSocket clients. Each signal starts a task of its own, and
-- the tasks interleave with everything else. A step runs up to the next `await`
-- that suspends it.
import BitchatNode.Startup

namespace daemon

open python systems

/-! ## Where `stop` stands -/

/-- Why a call of `stop` raises. -/
inductive StopError
  /-- `send_leave` raised. -/
  | leave
  /-- Set changed size during iteration. -/
  | size_changed
deriving DecidableEq

inductive StopStage
  /-- In `send_leave`. -/
  | leaving
  /-- In `ws.close()`, in the loop of `HttpServer.stop`, with the size of the set
  when the loop began. -/
  | closing (ws size : Nat)
  /-- In `runner.cleanup()`. -/
  | cleaning_up
  /-- In `stop_server`. -/
  | closing_server
  | finished
  | raised (e : StopError)
deriving DecidableEq

/-- A task of `_shutdown`. -/
structure Stop where
  stage : StopStage
  /-- The clients with an open socket when the loop of `HttpServer.stop` began. -/
  found : List Nat
deriving DecidableEq

/-- What `run_forever` runs. -/
structure Process where
  startup : Startup
  /-- `_ws_clients`. -/
  ws_clients : List Nat
  /-- The clients whose socket was closed. -/
  closed : List Nat
  /-- The HTTP server takes requests. -/
  serving : Bool
  /-- The TCP server was closed. -/
  server_closed : Bool
  stops : List Stop
  /-- `save_state` was called. -/
  saved : Bool
  stop_event : Bool

/-- `Transport.stop`, up to `stop_server`. -/
def Transport.close_all (self : Transport) : Transport :=
  { self with
    made := self.made.mapIdx fun id c =>
      if id ∈ self.connections.entries.map Prod.snd then { c with closed := true } else c
    connections := .empty }

namespace Process

def init : Process where
  startup := .init
  ws_clients := []
  closed := []
  serving := false
  server_closed := false
  stops := []
  saved := false
  stop_event := false

/-- `stop` after `HttpServer.stop`: nothing suspends it before `stop_server`. -/
def finish (self : Process) (k : Nat) (stop : Stop) : Process :=
  { self with
    startup := { self.startup with
      discovering := false
      transport := self.startup.transport.close_all }
    saved := true
    server_closed := true
    stops := self.stops.set k { stop with stage := .closing_server } }

/-- The loop of `HttpServer.stop`, from where the iterator has `rest` still to
give. A closed socket does not suspend it. -/
def close_clients (self : Process) (k : Nat) (stop : Stop) (size : Nat) (rest : List Nat) :
    Process :=
  if self.ws_clients.length ≠ size then
    { self with stops := self.stops.set k { stop with stage := .raised .size_changed } }
  else match rest.find? (· ∉ self.closed) with
    | some ws => { self with
        closed := ws :: self.closed
        stops := self.stops.set k { stop with stage := .closing ws size } }
    | none =>
      let self := { self with ws_clients := [] }
      if self.serving then
        { self with
          serving := false
          stops := self.stops.set k { stop with stage := .cleaning_up } }
      else self.finish k stop

/-! ## Steps -/

inductive Op
  /-- `start`, the discovery and the transport go on. -/
  | go_on (op : Startup.Op)
  /-- A client connects to `/ws`. -/
  | join (ws : Nat)
  /-- The handler of a client ends, or a broadcast drops the client. -/
  | leave (ws : Nat)
  | signal
  /-- `send_leave` returns or raises. -/
  | left (k : Nat) (ok : Bool)
  /-- `ws.close()` returns. In which order a set gives its members is not said. -/
  | ws_closed (k : Nat) (rest : List Nat)
  | cleaned_up (k : Nat)
  | server_closed (k : Nat)

/-- What the servers let in. Only `stop` stops the discovery. -/
def admits (self : Process) : Startup.Op → Bool
  | .stop_discovery => false
  | .net (.accepted _ _) => ¬ self.server_closed
  | .net (.connect _ _) => self.serving
  | _ => true

def step (config : StartConfig) (self : Process) : Op → Option Process
  | .go_on op =>
    if self.admits op then
      (self.startup.step config op).map fun startup => { self with
        startup
        serving := self.serving || self.startup.stage ≠ .running && startup.stage = .running }
    else none
  | .join ws =>
    if self.serving ∧ ws ∉ self.ws_clients ∧ ws ∉ self.closed then
      some { self with ws_clients := self.ws_clients ++ [ws] }
    else none
  | .leave ws => some { self with ws_clients := self.ws_clients.erase ws }
  | .signal => some { self with stops := self.stops ++ [⟨.leaving, []⟩] }
  | .left k ok => do
    let stop ← self.stops[k]?
    if stop.stage ≠ .leaving then none
    else if ok then
      let found := self.ws_clients.filter (· ∉ self.closed)
      some (self.close_clients k { stop with found } self.ws_clients.length self.ws_clients)
    else some { self with stops := self.stops.set k { stop with stage := .raised .leave } }
  | .ws_closed k rest => do
    let stop ← self.stops[k]?
    match stop.stage with
    | .closing _ size =>
      if rest ⊆ self.ws_clients then some (self.close_clients k stop size rest) else none
    | _ => none
  | .cleaned_up k => do
    let stop ← self.stops[k]?
    if stop.stage = .cleaning_up then some (self.finish k stop) else none
  | .server_closed k => do
    let stop ← self.stops[k]?
    if stop.stage = .closing_server then
      some { self with
        stops := self.stops.set k { stop with stage := .finished }
        stop_event := true }
    else none

/-- A daemon from its start on. -/
def system (config : StartConfig) : System Process Op where
  start := (· = init)
  step := step config

variable {config : StartConfig} {s s' : Process} {k : Nat} {stop : Stop}

/-! ## Stops and clients -/

/-- `stop` is past the loop of `HttpServer.stop`. -/
def Past (stop : Stop) : Prop :=
  stop.stage = .cleaning_up ∨ stop.stage = .closing_server ∨ stop.stage = .finished

/-- `stop` is past all that it has to do. -/
def Through (stop : Stop) : Prop := stop.stage = .closing_server ∨ stop.stage = .finished

/-- What the loop found decides how it ends. While it waits for a socket, the set
is too small if its client has left. -/
def Fits (ws_clients : List Nat) (stop : Stop) : Prop :=
  match stop.stage with
  | .closing ws size => stop.found ≠ [] ∧ ws_clients.length ≤ size ∧
    (ws ∉ ws_clients → ws_clients.length < size)
  | .raised .size_changed => stop.found ≠ []
  | _ => stop.found = []

theorem Fits.erase {ws_clients : List Nat} (h : Fits ws_clients stop) (ws : Nat) :
    Fits (ws_clients.erase ws) stop := by
  unfold Fits at h ⊢
  split at h
  · rename_i other size _
    obtain ⟨hfound, hsize, hgone⟩ := h
    by_cases hws : ws ∈ ws_clients
    · have hlength := List.length_erase_of_mem hws
      have hpos := List.length_pos_of_mem hws
      exact ⟨hfound, by omega, fun _ => by omega⟩
    · rw [List.erase_of_not_mem hws]
      exact ⟨hfound, hsize, hgone⟩
  · exact h
  · exact h

theorem Fits.clear {ws_clients : List Nat} (h : Fits ws_clients stop) : Fits [] stop := by
  unfold Fits at h ⊢
  split at h
  · rename_i ws size _
    obtain ⟨hfound, hsize, hgone⟩ := h
    refine ⟨hfound, Nat.zero_le _, fun _ => ?_⟩
    by_cases hws : ws ∈ ws_clients
    · exact (List.length_pos_of_mem hws).trans_le hsize
    · exact (Nat.zero_le _).trans_lt (hgone hws)
  · exact h
  · exact h

/-- No stop waits for a socket in its loop. -/
def Idle (s : Process) : Prop := ∀ stop ∈ s.stops, ∀ ws size, stop.stage ≠ .closing ws size

theorem Fits.of_idle {ws_clients : List Nat} (h : Fits ws_clients stop)
    (hidle : ∀ ws size, stop.stage ≠ .closing ws size) (ws_clients' : List Nat) :
    Fits ws_clients' stop := by
  unfold Fits at h ⊢
  split at h
  · rename_i ws size hstage
    exact absurd hstage (hidle ws size)
  · exact h
  · exact h

/-- Which stop has closed the server and saved the state, if one has. -/
structure Sound (s : Process) : Prop where
  fits : ∀ stop ∈ s.stops, Fits s.ws_clients stop
  through : s.saved = true ∨ s.stop_event = true ∨ s.server_closed = true →
    ∃ stop ∈ s.stops, Through stop

theorem mem_set_of_ne {stops : List Stop} {new other : Stop} (hother : other ∈ stops)
    (hk : stops[k]? = some stop) (hne : other ≠ stop) : other ∈ stops.set k new := by
  obtain ⟨j, hj⟩ := List.mem_iff_getElem?.mp hother
  refine List.mem_iff_getElem?.mpr ⟨j, ?_⟩
  rw [List.getElem?_set_ne, hj]
  rintro rfl
  rw [hk, Option.some.injEq] at hj
  exact hne hj.symm

/-- One stop goes on, and does nothing else that lasts. -/
theorem Sound.set (h : Sound s) (hk : s.stops[k]? = some stop) (hbefore : ¬ Through stop)
    {new : Stop} {ws_clients closed : List Nat} {serving : Bool}
    (hothers : ∀ other ∈ s.stops, Fits ws_clients other) (hnew : Fits ws_clients new) :
    Sound { s with ws_clients, closed, serving, stops := s.stops.set k new } := by
  constructor
  · intro other hother
    rcases List.mem_or_eq_of_mem_set hother with hold | rfl
    · exact hothers other hold
    · exact hnew
  · intro hlasting
    obtain ⟨other, hother, hthrough⟩ := h.through hlasting
    refine ⟨other, mem_set_of_ne hother hk ?_, hthrough⟩
    rintro rfl
    exact hbefore hthrough

theorem mem_set {stops : List Stop} {new : Stop} (hk : stops[k]? = some stop) :
    new ∈ stops.set k new := by
  refine List.mem_iff_getElem?.mpr ⟨k, ?_⟩
  rw [List.getElem?_set_self]
  exact (List.getElem?_eq_some_iff.mp hk).1

/-- A stop whose loop found nobody comes through. -/
theorem sound_finish (hk : s.stops[k]? = some stop) {new : Stop} (hfound : new.found = [])
    {ws_clients : List Nat} (hothers : ∀ other ∈ s.stops, Fits ws_clients other) :
    Sound (({ s with ws_clients } : Process).finish k new) := by
  constructor
  · intro other hother
    rcases List.mem_or_eq_of_mem_set hother with hold | rfl
    · exact hothers other hold
    · exact hfound
  · exact fun _ => ⟨_, mem_set hk, .inl rfl⟩

/-- The loop begins. -/
theorem Sound.begin_loop (h : Sound s) (hk : s.stops[k]? = some stop)
    (hbefore : ¬ Through stop) :
    Sound (s.close_clients k { stop with found := s.ws_clients.filter (· ∉ s.closed) }
      s.ws_clients.length s.ws_clients) := by
  unfold close_clients
  rw [if_neg (not_not.mpr rfl)]
  cases hfirst : s.ws_clients.find? (· ∉ s.closed) with
  | some ws =>
    have hmem := List.mem_of_find?_eq_some hfirst
    have hopen := List.find?_some hfirst
    apply h.set hk hbefore h.fits
    refine ⟨?_, le_rfl, fun hgone => absurd hmem hgone⟩
    exact List.ne_nil_of_mem (List.mem_filter.mpr ⟨hmem, hopen⟩)
  | none =>
    have hfound : s.ws_clients.filter (· ∉ s.closed) = [] := by
      apply List.filter_eq_nil_iff.mpr
      exact List.find?_eq_none.mp hfirst
    have hothers : ∀ other ∈ s.stops, Fits [] other :=
      fun other hother => (h.fits other hother).clear
    dsimp only
    split
    · exact h.set hk hbefore hothers hfound
    · exact sound_finish hk hfound hothers

/-- The loop goes on after a client has left. -/
theorem Sound.resume_loop (h : Sound s) (hk : s.stops[k]? = some stop) {ws size : Nat}
    (hstage : stop.stage = .closing ws size) (hgone : ws ∉ s.ws_clients) (rest : List Nat) :
    Sound (s.close_clients k stop size rest) := by
  have hfits := h.fits stop (List.mem_of_getElem? hk)
  unfold Fits at hfits
  rw [hstage] at hfits
  obtain ⟨hfound, -, hsmall⟩ := hfits
  have hchanged : s.ws_clients.length ≠ size := (hsmall hgone).ne
  unfold close_clients
  rw [if_pos hchanged]
  refine h.set hk ?_ h.fits hfound
  unfold Through
  simp [hstage]

/-! ## Runs -/

/-- No client comes while a stop closes clients, and `ws.close()` returns when
the handler of the client has ended. -/
def Orderly (s : Process) : Op → Prop
  | .join _ => Idle s
  | .ws_closed k _ => ∀ stop ws size, s.stops[k]? = some stop → stop.stage = .closing ws size →
    ws ∉ s.ws_clients
  | _ => True

theorem Sound.step (h : Sound s) {op : Op} (horderly : Orderly s op)
    (hstep : step config s op = some s') : Sound s' := by
  cases op with
  | go_on op =>
    simp only [Process.step, Option.ite_none_right_eq_some, Option.map_eq_some_iff] at hstep
    obtain ⟨-, startup, -, rfl⟩ := hstep
    exact ⟨h.fits, h.through⟩
  | join ws =>
    simp only [Process.step, Option.ite_none_right_eq_some, Option.some.injEq] at hstep
    obtain ⟨-, rfl⟩ := hstep
    exact ⟨fun stop hstop => (h.fits stop hstop).of_idle (horderly stop hstop) _, h.through⟩
  | leave ws =>
    simp only [Process.step, Option.some.injEq] at hstep
    rw [← hstep]
    exact ⟨fun stop hstop => (h.fits stop hstop).erase ws, h.through⟩
  | signal =>
    simp only [Process.step, Option.some.injEq] at hstep
    rw [← hstep]
    constructor
    · intro stop hstop
      rcases List.mem_append.mp hstop with hold | hnew
      · exact h.fits stop hold
      · rw [List.mem_singleton.mp hnew]
        exact rfl
    · intro hlasting
      obtain ⟨stop, hstop, hthrough⟩ := h.through hlasting
      exact ⟨stop, List.mem_append_left _ hstop, hthrough⟩
  | left k ok =>
    simp only [Process.step, Option.bind_eq_bind, Option.bind_eq_some_iff] at hstep
    obtain ⟨stop, hk, hstep⟩ := hstep
    split at hstep
    · cases hstep
    · rename_i hleaving
      rw [not_not] at hleaving
      have hbefore : ¬ Through stop := by
        unfold Through
        simp [hleaving]
      split at hstep
      · rw [← Option.some.inj hstep]
        exact h.begin_loop hk hbefore
      · rw [← Option.some.inj hstep]
        have hfits := h.fits stop (List.mem_of_getElem? hk)
        unfold Fits at hfits
        rw [hleaving] at hfits
        exact h.set hk hbefore h.fits hfits
  | ws_closed k rest =>
    simp only [Process.step, Option.bind_eq_bind, Option.bind_eq_some_iff] at hstep
    obtain ⟨stop, hk, hstep⟩ := hstep
    split at hstep
    · rename_i ws size hstage
      rw [Option.ite_none_right_eq_some, Option.some.injEq] at hstep
      rw [← hstep.2]
      exact h.resume_loop hk hstage (horderly stop ws size hk hstage) rest
    · cases hstep
  | cleaned_up k =>
    simp only [Process.step, Option.bind_eq_bind, Option.bind_eq_some_iff,
      Option.ite_none_right_eq_some, Option.some.injEq] at hstep
    obtain ⟨stop, hk, hstage, rfl⟩ := hstep
    have hfits := h.fits stop (List.mem_of_getElem? hk)
    unfold Fits at hfits
    rw [hstage] at hfits
    exact sound_finish hk hfits h.fits
  | server_closed k =>
    simp only [Process.step, Option.bind_eq_bind, Option.bind_eq_some_iff,
      Option.ite_none_right_eq_some, Option.some.injEq] at hstep
    obtain ⟨stop, hk, hstage, rfl⟩ := hstep
    have hfits := h.fits stop (List.mem_of_getElem? hk)
    unfold Fits at hfits
    rw [hstage] at hfits
    constructor
    · intro other hother
      rcases List.mem_or_eq_of_mem_set hother with hold | rfl
      · exact h.fits other hold
      · exact hfits
    · exact fun _ => ⟨_, mem_set hk, .inr rfl⟩

/-- Of the stops whose loop is over, those fail that found a client with an open
socket, and only the others come to close the server, save the state and end
the process: as long as somebody watches the events, a signal does not end the
daemon. -/
theorem a_stop_comes_through_iff_nobody_is_connected (h : (system config).RunWith Orderly s) :
    (∀ stop ∈ s.stops, (Past stop → stop.found = []) ∧
      (stop.stage = .raised .size_changed → stop.found ≠ [])) ∧
    (s.saved = true ∨ s.stop_event = true ∨ s.server_closed = true →
      ∃ stop ∈ s.stops, Past stop ∧ stop.found = []) := by
  have hsound : Sound s := by
    refine h.invariant ?_ fun s op s' _ hsound horderly hstep => hsound.step horderly hstep
    rintro s rfl
    constructor
    · exact fun stop hstop => absurd hstop List.not_mem_nil
    · rintro (hsaved | hevent | hclosed)
      · cases hsaved
      · cases hevent
      · cases hclosed
  have hpast : ∀ stop ∈ s.stops, Past stop → stop.found = [] := by
    intro stop hstop hpast
    have hfits := hsound.fits stop hstop
    unfold Fits at hfits
    rcases hpast with hstage | hstage | hstage <;> rw [hstage] at hfits <;> exact hfits
  refine ⟨fun stop hstop => ⟨hpast stop hstop, fun hstage => ?_⟩, fun hlasting => ?_⟩
  · have hfits := hsound.fits stop hstop
    unfold Fits at hfits
    rw [hstage] at hfits
    exact hfits
  · obtain ⟨stop, hstop, hthrough⟩ := hsound.through hlasting
    exact ⟨stop, hstop, .inr hthrough, hpast stop hstop (.inr hthrough)⟩

/-! ### With mDNS -/

/-- `start` waits in the discovery, and the HTTP server has not started. -/
structure Unserved (s : Process) : Prop where
  browsing : s.startup.Browsing
  serving : s.serving = false
  ws_clients : s.ws_clients = []

theorem Unserved.same (h : Unserved s) (closed : List Nat) (stops : List Stop) :
    Unserved { s with closed, stops } := ⟨h.browsing, h.serving, h.ws_clients⟩

theorem unserved_close_clients (h : s.server_closed = true ∨ Unserved s) (stop : Stop) (size : Nat)
    (rest : List Nat) :
    (s.close_clients k stop size rest).server_closed = true ∨
      Unserved (s.close_clients k stop size rest) := by
  unfold close_clients
  split
  · exact h.imp_right fun hunserved => hunserved.same _ _
  · split
    · exact h.imp_right fun hunserved => hunserved.same _ _
    · dsimp only
      split
      · rename_i hserving
        refine h.imp_right fun hunserved => ?_
        rw [hunserved.serving] at hserving
        cases hserving
      · exact .inl rfl

theorem unserved_step (hmdns : config.mdns = true) (hzeroconf : config.zeroconf = true)
    (h : s.server_closed = true ∨ Unserved s) {op : Op} (hstep : step config s op = some s') :
    s'.server_closed = true ∨ Unserved s' := by
  cases op with
  | go_on op =>
    simp only [Process.step, Option.ite_none_right_eq_some, Option.map_eq_some_iff] at hstep
    obtain ⟨hadmits, startup, hstartup, rfl⟩ := hstep
    refine h.imp_right fun hunserved => ?_
    have hop : op ≠ .stop_discovery := by
      rintro rfl
      cases hadmits
    have hbrowsing := hunserved.browsing.step hmdns hzeroconf hop hstartup
    have hstage : startup.stage ≠ .running := by
      rcases hbrowsing.stage with hstage | hstage | ⟨hstage, -⟩ <;> simp [hstage]
    exact ⟨hbrowsing, by simp [hunserved.serving, hstage], hunserved.ws_clients⟩
  | join ws =>
    simp only [Process.step, Option.ite_none_right_eq_some, Option.some.injEq] at hstep
    obtain ⟨⟨hserving, -⟩, rfl⟩ := hstep
    refine h.imp_right fun hunserved => ?_
    rw [hunserved.serving] at hserving
    cases hserving
  | leave ws =>
    simp only [Process.step, Option.some.injEq] at hstep
    rw [← hstep]
    refine h.imp_right fun hunserved => ⟨hunserved.browsing, hunserved.serving, ?_⟩
    simp [hunserved.ws_clients]
  | signal =>
    simp only [Process.step, Option.some.injEq] at hstep
    rw [← hstep]
    exact h.imp_right fun hunserved => hunserved.same _ _
  | left k ok =>
    simp only [Process.step, Option.bind_eq_bind, Option.bind_eq_some_iff] at hstep
    obtain ⟨stop, -, hstep⟩ := hstep
    split at hstep
    · cases hstep
    · split at hstep <;> rw [← Option.some.inj hstep]
      · exact unserved_close_clients h _ _ _
      · exact h.imp_right fun hunserved => hunserved.same _ _
  | ws_closed k rest =>
    simp only [Process.step, Option.bind_eq_bind, Option.bind_eq_some_iff] at hstep
    obtain ⟨stop, -, hstep⟩ := hstep
    split at hstep
    · rw [Option.ite_none_right_eq_some, Option.some.injEq] at hstep
      rw [← hstep.2]
      exact unserved_close_clients h _ _ _
    · cases hstep
  | cleaned_up k =>
    simp only [Process.step, Option.bind_eq_bind, Option.bind_eq_some_iff,
      Option.ite_none_right_eq_some, Option.some.injEq] at hstep
    obtain ⟨stop, -, -, rfl⟩ := hstep
    exact .inl rfl
  | server_closed k =>
    simp only [Process.step, Option.bind_eq_bind, Option.bind_eq_some_iff,
      Option.ite_none_right_eq_some, Option.some.injEq] at hstep
    obtain ⟨stop, -, -, rfl⟩ := hstep
    exact h.imp_right fun hunserved => ⟨hunserved.browsing, hunserved.serving, hunserved.ws_clients⟩

/-- With mDNS the HTTP server does not start before a stop has come to the end:
until then no request is served, nobody can watch the events, and no peer is
greeted. -/
theorem with_mdns_the_api_waits_for_a_stop (hmdns : config.mdns = true)
    (hzeroconf : config.zeroconf = true) (h : (system config).Reachable s)
    (hopen : s.server_closed = false) :
    s.serving = false ∧ s.ws_clients = [] ∧ s.startup.greeted = [] := by
  have hunserved : s.server_closed = true ∨ Unserved s := by
    apply h.invariant (I := fun s => s.server_closed = true ∨ Unserved s)
    · rintro s rfl
      exact .inr ⟨⟨.inl rfl, rfl, rfl⟩, rfl, rfl⟩
    · exact fun s op s' _ hunserved _ hstep => unserved_step hmdns hzeroconf hunserved hstep
  rcases hunserved with hclosed | hunserved
  · cases hopen.symm.trans hclosed
  · exact ⟨hunserved.serving, hunserved.ws_clients, hunserved.browsing.greeted⟩

/-! ### Two runs -/

/-- A start without mDNS, up to where a client is connected. -/
def watched_run : List Op := [.go_on .start, .go_on .served, .join 7]

/-- The client with the number 7 is connected when the signal comes, and it
leaves when its socket is closed. -/
def watched_stop : List Op :=
  watched_run ++ [.signal, .left 0 true, .leave 7, .ws_closed 0 []]

/-- What the run asks for, step by step. -/
def is_orderly (s : Process) : Op → Bool
  | .join _ => s.stops = []
  | .ws_closed _ _ => s.ws_clients = []
  | _ => true

theorem orderly_of_is_orderly (s : Process) (op : Op) (h : is_orderly s op = true) :
    Orderly s op := by
  cases op with
  | join ws =>
    have hnone : s.stops = [] := by simpa [is_orderly] using h
    intro stop hstop
    rw [hnone] at hstop
    cases hstop
  | ws_closed k rest =>
    have hnone : s.ws_clients = [] := by simpa [is_orderly] using h
    intro stop ws size _ _
    rw [hnone]
    exact List.not_mem_nil
  | _ => trivial

/-- The stop fails, and the state is not saved. -/
theorem a_watched_daemon_does_not_stop :
    ∃ s, (system ⟨[], false, false⟩).replay init watched_stop = some s ∧
      s.stops = [⟨.raised .size_changed, [7]⟩] ∧ s.saved = false ∧
      ∀ stop ∈ s.stops, Past stop → stop.found = [] := by
  obtain ⟨s, hchecked, hreplay, hstops, hsaved⟩ :
      ∃ s, (system ⟨[], false, false⟩).checked is_orderly init watched_stop = some s ∧
        (system ⟨[], false, false⟩).replay init watched_stop = some s ∧
        s.stops = [⟨.raised .size_changed, [7]⟩] ∧ s.saved = false := ⟨_, rfl, rfl, rfl, rfl⟩
  have hrun : (system ⟨[], false, false⟩).RunWith Orderly s :=
    System.runWith_checked (.start rfl) (fun s op _ => orderly_of_is_orderly s op) hchecked
  refine ⟨s, hreplay, hstops, hsaved, fun stop hstop => ?_⟩
  exact ((a_stop_comes_through_iff_nobody_is_connected hrun).1 stop hstop).1

/-- With mDNS and a peer that comes in: the server starts after the stop. -/
theorem the_api_starts_when_the_daemon_stops :
    ∃ s s', (system ⟨[], true, true⟩).replay init
        [.go_on .start, .go_on .served, .go_on (.net (.accepted ['h'] 1)), .signal] = some s ∧
      s.server_closed = false ∧ s.serving = false ∧ s.startup.greeted = [] ∧
      (system ⟨[], true, true⟩).replay s [.left 0 true, .go_on .tick] = some s' ∧
      s'.serving = true := by
  obtain ⟨s, s', hreplay, hopen, hlater, hserving⟩ :
      ∃ s s', (system ⟨[], true, true⟩).replay init
          [.go_on .start, .go_on .served, .go_on (.net (.accepted ['h'] 1)), .signal] = some s ∧
        s.server_closed = false ∧
        (system ⟨[], true, true⟩).replay s [.left 0 true, .go_on .tick] = some s' ∧
        s'.serving = true := ⟨_, _, rfl, rfl, rfl, rfl⟩
  have hreach : (system ⟨[], true, true⟩).Reachable s :=
    System.reachable_replay (.start rfl) hreplay
  obtain ⟨hunserved, -, hgreeted⟩ := with_mdns_the_api_waits_for_a_stop rfl rfl hreach hopen
  exact ⟨s, s', hreplay, hopen, hunserved, hgreeted, hlater, hserving⟩

end Process

end daemon
