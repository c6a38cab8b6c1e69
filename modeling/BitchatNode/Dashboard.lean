-- What a WebSocket client of a daemon learns. The daemon runs its node as the
-- node runs by itself, and its server passes on what the node reports.
import BitchatNode.Api
import BitchatNode.Built
import BitchatNode.FanOut
import BitchatNode.Presence
import BitchatNode.Systems
import Mathlib.Data.List.Perm.Basic

namespace daemon

open python bitchat bitchat.protocol fanout systems

variable [Packages]

/-! ## The node inside the daemon -/

namespace Daemon

/-- What happens to the node with an input. -/
def cause (self : Daemon) : Input → Option Event
  | .event (.later _) => none
  | .event event => some event
  | .resume k => self.tasks[k]?.map Event.later
  | .request (.disconnect (some (some addr))) => some (.disconnect addr)
  | .request (.set_name (some (some nickname))) => some (.set_name nickname)
  | .dialed k (.ok ()) => self.api.dials[k]?.map fun dial => .connected ⟨dial.1, dial.2, true⟩
  | _ => none

/-- What comes of it. -/
def caused (self : Daemon) (env : Env) (input : Input) : World :=
  match self.cause input with
  | none => ⟨self.mesh, []⟩
  | some event => (exec (react env event) ⟨self.mesh, []⟩).2

end Daemon

/-- A daemon from the given state on, with what its node has done since. -/
def watched (start : Daemon) : System (Daemon × List Action) (Env × Daemon.Input) where
  start s := s = (start, [])
  step s e := some (s.1.step e.1 e.2, s.2 ++ (s.1.caused e.1 e.2).out)

/-- What the server tells its clients of. -/
def Action.report : Action → Option WsEvent
  | .on_peer_joined peer_id nickname => some (.peer_joined peer_id nickname)
  | .on_peer_left peer_id nickname => some (.peer_left peer_id nickname)
  | .on_delivery_ack ack => some
      (.ack ack.original_message_id ack.recipient_id ack.recipient_nickname)
  | _ => none

def reported (out : List Action) : List WsEvent := out.filterMap Action.report

theorem foldl_call (api : HttpServer) (out : List Action) :
    out.foldl HttpServer.call api =
      { api with broadcasts := api.broadcasts ++ (reported out).map fun event => ⟨event, none⟩ } := by
  induction out generalizing api with
  | nil => simp [reported]
  | cons action out ih =>
    rw [List.foldl_cons, ih]
    unfold reported
    rw [List.filterMap_cons]
    cases action <;> simp [Action.report, HttpServer.call, HttpServer.create_broadcast]

/-! ## One input -/

/-- The daemon after something happened to its node: the server has new
broadcasts, and nothing was sent to its clients. -/
structure Ran (d : Daemon) (w : World) (d' : Daemon) : Prop where
  mesh : d'.mesh = w.node
  tasks : ∀ task ∈ d'.tasks, task ∈ d.tasks ∨ .later task ∈ w.out
  ws_clients : d'.api.ws_clients = d.api.ws_clients
  broadcasts : d'.api.broadcasts =
    d.api.broadcasts ++ (reported w.out).map fun event => ⟨event, none⟩
  sent : d'.sent = d.sent

theorem mem_put_off {out : List Action} {task : Later} :
    task ∈ put_off out ↔ .later task ∈ out := by
  unfold put_off
  rw [List.mem_filterMap]
  constructor
  · rintro ⟨action, haction, htask⟩
    cases action <;> simp only [reduceCtorEq, Option.some.injEq] at htask
    rw [← htask]
    exact haction
  · exact fun h => ⟨_, h, rfl⟩

theorem ran_after (d : Daemon) (w : World) : Ran d w (d.after w) := by
  have hapi : (d.after w).api = _ := foldl_call d.api w.out
  refine ⟨rfl, fun task htask => ?_, ?_, ?_, rfl⟩
  · exact (List.mem_append.mp htask).imp_right mem_put_off.mp
  · rw [hapi]
  · rw [hapi]

/-- Nothing happened to the node. -/
theorem ran_idle (d : Daemon) : Ran d ⟨d.mesh, []⟩ d :=
  ⟨rfl, fun _ => .inl, rfl, (List.append_nil _).symm, rfl⟩

theorem Ran.respond {d d' : Daemon} {w : World} (h : Ran d w d') (response : Response) :
    Ran d w (d'.respond response) := ⟨h.mesh, h.tasks, h.ws_clients, h.broadcasts, h.sent⟩

section

variable {d : Daemon} {env : Env}

theorem ran_event {event : Event} (h : d.cause (.event event) ≠ none) :
    Ran d (d.caused env (.event event)) (d.step env (.event event)) := by
  cases event with
  | later task => exact absurd rfl h
  | _ => exact ran_after _ _

theorem ran_resume (env : Env) {k : Nat} {task : Later} (h : d.tasks[k]? = some task) :
    Ran d (exec (run_later env task) ⟨d.mesh, []⟩).2 (d.step env (.resume k)) := by
  have hran := ran_after { d with tasks := d.tasks.eraseIdx k }
    (exec (run_later env task) ⟨d.mesh, []⟩).2
  unfold Daemon.step
  simp only [h]
  refine ⟨hran.mesh, fun task htask => ?_, hran.ws_clients, hran.broadcasts, hran.sent⟩
  exact (hran.tasks task htask).imp_left List.mem_of_mem_eraseIdx

theorem ran_request (request : Request) :
    Ran d (d.caused env (.request request)) (d.step env (.request request)) := by
  unfold Daemon.step Daemon.handle
  dsimp only
  split
  case h_5 host port =>
    split
    · exact (ran_idle d).respond _
    · exact ⟨rfl, fun _ => .inl, rfl, (List.append_nil _).symm, rfl⟩
  case h_9 addr => exact (ran_after _ _).respond _
  case h_12 nickname =>
    split
    · rename_i hinvalid
      have hnothing : exec (handle_set_name env nickname) ⟨d.mesh, []⟩ = (.ok (), ⟨d.mesh, []⟩) := by
        unfold handle_set_name
        rw [if_pos hinvalid]
        rfl
      show Ran d (exec (handle_set_name env nickname) ⟨d.mesh, []⟩).2 _
      rw [hnothing]
      exact (ran_idle d).respond _
    · exact (ran_after _ _).respond _
  all_goals exact (ran_idle d).respond _

theorem ran_dialed (env : Env) {k : Nat} {dial : Str × Nat} (h : d.api.dials[k]? = some dial) :
    Ran d (exec (connected ⟨dial.1, dial.2, true⟩) ⟨d.mesh, []⟩).2
      (d.step env (.dialed k (.ok ()))) := by
  have hran := ran_after { d with api := { d.api with dials := d.api.dials.eraseIdx k } }
    (exec (connected ⟨dial.1, dial.2, true⟩) ⟨d.mesh, []⟩).2
  unfold Daemon.step Daemon.dialed
  simp only [h]
  apply Ran.respond
  exact ⟨hran.mesh, hran.tasks, hran.ws_clients, hran.broadcasts, hran.sent⟩

/-- The input is one that the server deals with alone. -/
def Aside : Daemon.Input → Prop
  | .ws_open _ | .ws_close _ | .ping _ | .broadcast _ _ => True
  | _ => False

/-- What an input does to the node is what a call on the node does. -/
theorem ran_step (d : Daemon) (env : Env) {input : Daemon.Input} (h : ¬ Aside input) :
    Ran d (d.caused env input) (d.step env input) := by
  cases input with
  | event event =>
    by_cases hcause : d.cause (.event event) = none
    · cases event with
      | later task => exact ran_idle d
      | _ => cases hcause
    · exact ran_event hcause
  | resume k =>
    rcases htask : d.tasks[k]? with _ | task
    · unfold Daemon.caused Daemon.cause Daemon.step
      simp only [htask, Option.map_none]
      exact ran_idle d
    · have hran := ran_resume env htask
      unfold Daemon.caused Daemon.cause
      simp only [htask, Option.map_some]
      exact hran
  | request request => exact ran_request request
  | dialed k result =>
    rcases hdial : d.api.dials[k]? with _ | dial
    · have hnone : d.cause (.dialed k result) = none := by
        cases result with
        | ok => exact congrArg (Option.map _) hdial
        | error text => rfl
      unfold Daemon.caused Daemon.step Daemon.dialed
      simp only [hnone, hdial]
      exact ran_idle d
    · cases result with
      | ok =>
        have hran := ran_dialed env hdial
        unfold Daemon.caused Daemon.cause
        simp only [hdial, Option.map_some]
        exact hran
      | error text =>
        unfold Daemon.step Daemon.dialed
        simp only [hdial]
        apply Ran.respond
        exact ⟨rfl, fun _ => .inl, rfl, (List.append_nil _).symm, rfl⟩
  | _ => exact absurd trivial h

/-- The node stays as it is where the server deals alone. -/
theorem step_aside (d : Daemon) (env : Env) {input : Daemon.Input} (h : Aside input) :
    (d.step env input).mesh = d.mesh ∧ (d.step env input).tasks = d.tasks ∧
      d.caused env input = ⟨d.mesh, []⟩ := by
  cases input with
  | ws_open ws => exact ⟨rfl, rfl, rfl⟩
  | ws_close ws => exact ⟨rfl, rfl, rfl⟩
  | broadcast k next => exact ⟨rfl, rfl, rfl⟩
  | ping ws =>
    unfold Daemon.step
    dsimp only
    split
    · exact ⟨rfl, rfl, rfl⟩
    · exact ⟨rfl, rfl, rfl⟩
  | _ => exact absurd h id

theorem due_of_cause {input : Daemon.Input} {event : Event} {w : World}
    (h : d.cause input = some event) (htasks : ∀ task ∈ d.tasks, .later task ∈ w.out) :
    Due w event := by
  unfold Daemon.cause at h
  split at h
  case h_1 => cases h
  case h_2 event' hevent =>
    obtain rfl := Option.some.inj h
    cases event' with
    | later task => exact absurd rfl (hevent task)
    | _ => trivial
  case h_3 k =>
    obtain ⟨task, htask, rfl⟩ := Option.map_eq_some_iff.mp h
    exact htasks task (List.mem_of_getElem? htask)
  case h_4 => cases h; trivial
  case h_5 => cases h; trivial
  case h_6 k =>
    obtain ⟨dial, hdial, rfl⟩ := Option.map_eq_some_iff.mp h
    trivial
  case h_7 => cases h

/-- The node of a daemon, with all that it has done, is a node that has run by
itself. -/
structure RunsAlone (ok : World → Env → Event → Prop) (d : Daemon) (out : List Action) : Prop where
  reachable : ReachableWith ok ⟨d.mesh, out⟩
  tasks : ∀ task ∈ d.tasks, .later task ∈ out

theorem RunsAlone.step {ok : World → Env → Event → Prop} {out : List Action}
    (h : RunsAlone ok d out) {input : Daemon.Input}
    (hok : ∀ event, d.cause input = some event → ok ⟨d.mesh, out⟩ env event) :
    RunsAlone ok (d.step env input) (out ++ (d.caused env input).out) := by
  have hreachable :
      ReachableWith ok ⟨(d.caused env input).node, out ++ (d.caused env input).out⟩ := by
    unfold Daemon.caused
    rcases hcause : d.cause input with _ | event
    · simpa using h.reachable
    · have hstep := h.reachable.step env event (due_of_cause hcause h.tasks) (hok event hcause)
      rw [(Built.react env event).exec_eq ⟨d.mesh, out⟩] at hstep
      exact hstep
  by_cases haside : Aside input
  · obtain ⟨hmesh, htasks, hcaused⟩ := step_aside d env haside
    rw [hcaused] at hreachable ⊢
    refine ⟨?_, ?_⟩
    · rw [hmesh]
      exact hreachable
    · rw [htasks]
      exact fun task htask => List.mem_append_left _ (h.tasks task htask)
  · have hran := ran_step d env haside
    refine ⟨?_, fun task htask => ?_⟩
    · rw [hran.mesh]
      exact hreachable
    · rcases hran.tasks task htask with hold | hnew
      · exact List.mem_append_left _ (h.tasks task hold)
      · exact List.mem_append_right _ hnew

end

/-- Through whole runs of a daemon, its node runs by itself. -/
theorem RunsAlone.run {ok : World → Env → Event → Prop}
    {ok' : Daemon × List Action → Env × Daemon.Input → Prop} {start d : Daemon}
    {before out : List Action} (hstart : RunsAlone ok start before)
    (hrun : (watched start).RunWith ok' (d, out))
    (hok : ∀ s e event, ok' s e → s.1.cause e.2 = some event →
      ok ⟨s.1.mesh, before ++ s.2⟩ e.1 event) :
    RunsAlone ok d (before ++ out) := by
  refine hrun.invariant (I := fun s => RunsAlone ok s.1 (before ++ s.2)) ?_ ?_
  · rintro s rfl
    simpa using hstart
  · intro s e s' _ hs hokay hstep
    obtain rfl := Option.some.inj hstep
    rw [← List.append_assoc]
    exact hs.step fun event hcause => hok s e event hokay hcause

theorem RunsAlone.init {ok : World → Env → Event → Prop} (my_peer_id : PeerId)
    (config_nickname : Option Str) (app_state : AppState)
    (static_identity_key : Crypto.PrivateKey) :
    RunsAlone ok (.init (.init my_peer_id config_nickname app_state static_identity_key)) [] :=
  ⟨.start my_peer_id config_nickname app_state static_identity_key,
    fun _ htask => absurd htask List.not_mem_nil⟩

/-! ## The server as a hub -/

/-- The events that the client was sent. -/
def events_of (ws : Nat) (sent : List (Nat × WsText)) : List WsEvent :=
  sent.filterMap fun
    | (client, .event event) => if client = ws then some event else none
    | _ => none

/-- What was sent, but for the answers to pings. -/
def events (sent : List (Nat × WsText)) : List (Nat × WsEvent) :=
  sent.filterMap fun
    | (client, .event event) => some (client, event)
    | _ => none

def Broadcast.task (broadcast : Broadcast) : Task Nat WsEvent :=
  ⟨broadcast.event, broadcast.rest.map List.toFinset⟩

def HttpServer.hub (self : HttpServer) (sent : List (Nat × WsText)) : Hub Nat WsEvent where
  clients := self.ws_clients.toFinset
  tasks := (self.broadcasts.map Broadcast.task : List (Task Nat WsEvent))
  sent := (events sent : List (Nat × WsEvent))

def Daemon.hub (self : Daemon) : Hub Nat WsEvent := self.api.hub self.sent

/-- A set of clients holds each client once. -/
structure HttpServer.Sound (api : HttpServer) : Prop where
  ws_clients : api.ws_clients.Nodup
  rests : ∀ broadcast ∈ api.broadcasts, ∀ rest ∈ broadcast.rest, rest.Nodup

/-- What a broadcast does with its next client. -/
def HttpServer.moves (self : HttpServer) (k : Nat) (next : NextSend) : List (Move Nat WsEvent) :=
  match self.broadcasts[k]? with
  | none => []
  | some task =>
    match task.rest.getD self.ws_clients with
    | [] => [.finish ∅]
    | ws :: rest =>
      match next with
      | .closed => [.skip ws]
      | .sent => [.send task.event ws]
      | .connection_error => [.skip ws, .drop ws]
      | .raised => [.finish (ws :: rest).toFinset]

/-- What the server does with an input. -/
def Daemon.moves (self : Daemon) (env : Env) (input : Daemon.Input) : List (Move Nat WsEvent) :=
  match input with
  | .ws_open ws => [.join ws]
  | .ws_close ws => [.drop ws]
  | .ping _ => []
  | .broadcast k next => self.api.moves k next
  | _ => (reported (self.caused env input).out).map .publish

theorem coe_events_of (ws : Nat) (d : Daemon) :
    d.hub.sent_to ws = (events_of ws d.sent : List WsEvent) := by
  unfold Hub.sent_to Daemon.hub HttpServer.hub events events_of
  rw [Multiset.filter_coe, Multiset.map_coe, List.filter_filterMap, List.map_filterMap]
  congr 1
  apply List.filterMap_congr
  rintro ⟨client, text⟩ -
  cases text with
  | event event => by_cases hsame : client = ws <;> simp [hsame, Option.filter]
  | pong => rfl

/-! ### One task of the server -/

section

variable {broadcasts : List Broadcast} {k : Nat} {task : Broadcast}

theorem coe_tasks (h : broadcasts[k]? = some task) :
    (broadcasts.map Broadcast.task : Multiset (Task Nat WsEvent)) =
      task.task ::ₘ ((broadcasts.eraseIdx k).map Broadcast.task : List (Task Nat WsEvent)) := by
  obtain ⟨hk, rfl⟩ := List.getElem?_eq_some_iff.mp h
  rw [Multiset.cons_coe, ← List.map_cons]
  exact Multiset.coe_eq_coe.mpr ((List.getElem_cons_eraseIdx_perm hk).symm.map _)

theorem coe_tasks_set (h : broadcasts[k]? = some task) (task' : Broadcast) :
    ((broadcasts.set k task').map Broadcast.task : Multiset (Task Nat WsEvent)) =
      task'.task ::ₘ ((broadcasts.eraseIdx k).map Broadcast.task : List (Task Nat WsEvent)) := by
  obtain ⟨hk, -⟩ := List.getElem?_eq_some_iff.mp h
  rw [Multiset.cons_coe, ← List.map_cons]
  exact Multiset.coe_eq_coe.mpr ((List.set_perm_cons_eraseIdx hk task').map _)

theorem crowd_task (task : Broadcast) (clients : List Nat) :
    task.task.crowd clients.toFinset = (task.rest.getD clients).toFinset := by
  unfold Task.crowd Broadcast.task
  cases task.rest <;> rfl

end

namespace HttpServer

variable {api : HttpServer}

theorem Sound.discard_client (h : api.Sound) (ws : Nat) : (api.discard_client ws).Sound :=
  ⟨h.ws_clients.erase ws, h.rests⟩

theorem Sound.crowd (h : api.Sound) {k : Nat} {task : Broadcast}
    (htask : api.broadcasts[k]? = some task) : (task.rest.getD api.ws_clients).Nodup := by
  rcases hrest : task.rest with _ | rest
  · exact h.ws_clients
  · exact h.rests task (List.mem_of_getElem? htask) rest hrest

theorem Sound.erase_task (h : api.Sound) (k : Nat) :
    ({ api with broadcasts := api.broadcasts.eraseIdx k } : HttpServer).Sound :=
  ⟨h.ws_clients, fun broadcast hmem => h.rests broadcast (List.mem_of_mem_eraseIdx hmem)⟩

theorem Sound.set_task (h : api.Sound) (k : Nat) (event : WsEvent) {rest : List Nat}
    (hrest : rest.Nodup) :
    ({ api with broadcasts := api.broadcasts.set k ⟨event, some rest⟩ } : HttpServer).Sound := by
  refine ⟨h.ws_clients, fun broadcast hmem rest' hrest' => ?_⟩
  rcases List.mem_or_eq_of_mem_set hmem with hold | rfl
  · exact h.rests broadcast hold rest' hrest'
  · obtain rfl := Option.some.inj hrest'
    exact hrest

/-! ### The next client of a task -/

section

variable {k : Nat} {task : Broadcast}

theorem broadcast_next_none (h : api.broadcasts[k]? = none) (next : NextSend) :
    api.broadcast_next k next = (api, []) := by
  unfold broadcast_next
  simp only [h]

theorem broadcast_next_nil (h : api.broadcasts[k]? = some task)
    (hnext : task.rest.getD api.ws_clients = []) (next : NextSend) :
    api.broadcast_next k next = ({ api with broadcasts := api.broadcasts.eraseIdx k }, []) := by
  unfold broadcast_next
  simp only [h, hnext]

theorem broadcast_next_cons {ws : Nat} {rest : List Nat} (h : api.broadcasts[k]? = some task)
    (hnext : task.rest.getD api.ws_clients = ws :: rest) (next : NextSend) :
    api.broadcast_next k next =
      let gone := { api with broadcasts := api.broadcasts.eraseIdx k }
      let left := { api with broadcasts := api.broadcasts.set k ⟨task.event, some rest⟩ }
      match next with
      | .closed => (left, [])
      | .sent => (left, [(ws, .event task.event)])
      | .connection_error => (left.discard_client ws, [])
      | .raised => (gone, []) := by
  unfold broadcast_next
  cases next <;> simp only [h, hnext, List.eraseIdx_set_eq]

end

theorem Sound.broadcast_next (h : api.Sound) (k : Nat) (next : NextSend) :
    (api.broadcast_next k next).1.Sound := by
  rcases htask : api.broadcasts[k]? with _ | task
  · rw [broadcast_next_none htask]
    exact h
  · have hcrowd := h.crowd htask
    rcases hnext : task.rest.getD api.ws_clients with _ | ⟨ws, rest⟩
    · rw [broadcast_next_nil htask hnext]
      exact h.erase_task k
    · rw [hnext] at hcrowd
      have hset := h.set_task k task.event (List.nodup_cons.mp hcrowd).2
      rw [broadcast_next_cons htask hnext]
      cases next with
      | closed => exact hset
      | sent => exact hset
      | connection_error => exact hset.discard_client ws
      | raised => exact h.erase_task k

end HttpServer

/-! ### One input -/

omit [Packages] in
theorem toFinset_erase {l : List Nat} (h : l.Nodup) (ws : Nat) :
    (l.erase ws).toFinset = l.toFinset.erase ws := by
  ext client
  simp [h.mem_erase_iff]

theorem events_append (a b : List (Nat × WsText)) : events (a ++ b) = events a ++ events b :=
  List.filterMap_append

section

variable {api : HttpServer} {k : Nat} {task : Broadcast} {ws : Nat} {rest : List Nat}

/-- The hub with what its task at `k` looks like. -/
theorem hub_eq (h : api.broadcasts[k]? = some task) (sent : List (Nat × WsText)) :
    api.hub sent = ⟨api.ws_clients.toFinset, task.task ::ₘ
      ((api.broadcasts.eraseIdx k).map Broadcast.task : List (Task Nat WsEvent)),
      (events sent : List (Nat × WsEvent))⟩ := by
  unfold HttpServer.hub
  rw [coe_tasks h]

/-- The hub when the first client of the task has come. -/
theorem hub_set (h : api.broadcasts[k]? = some task)
    (hnext : task.rest.getD api.ws_clients = ws :: rest) (hnodup : (ws :: rest).Nodup)
    (sent : List (Nat × WsText)) :
    HttpServer.hub { api with broadcasts := api.broadcasts.set k ⟨task.event, some rest⟩ } sent =
      ⟨api.ws_clients.toFinset,
        ⟨task.task.event, some ((task.task.crowd api.ws_clients.toFinset).erase ws)⟩ ::ₘ
          ((api.broadcasts.eraseIdx k).map Broadcast.task : List (Task Nat WsEvent)),
        (events sent : List (Nat × WsEvent))⟩ := by
  have hrest : Broadcast.task ⟨task.event, some rest⟩ =
      ⟨task.task.event, some ((task.task.crowd api.ws_clients.toFinset).erase ws)⟩ := by
    rw [crowd_task, hnext, List.toFinset_cons, Finset.erase_insert]
    · rfl
    · simpa using (List.nodup_cons.mp hnodup).1
  unfold HttpServer.hub
  rw [coe_tasks_set h, hrest]

theorem run_broadcast (h : api.Sound) (sent : List (Nat × WsText)) (k : Nat) (next : NextSend) :
    Hub.Run (api.hub sent) (api.moves k next)
      ((api.broadcast_next k next).1.hub (sent ++ (api.broadcast_next k next).2)) := by
  rcases htask : api.broadcasts[k]? with _ | task
  · rw [HttpServer.broadcast_next_none htask, List.append_nil]
    unfold HttpServer.moves
    simp only [htask]
    exact .nil _
  · have hcrowd := h.crowd htask
    have hset := crowd_task task api.ws_clients
    unfold HttpServer.moves
    rcases hnext : task.rest.getD api.ws_clients with _ | ⟨ws, rest⟩
    · rw [hnext] at hset
      rw [HttpServer.broadcast_next_nil htask hnext, List.append_nil, hub_eq htask]
      simp only [htask, hnext]
      rw [← List.toFinset_nil, ← hset]
      exact .single (.finish _ _ _ _)
    · rw [hnext] at hcrowd hset
      rw [HttpServer.broadcast_next_cons htask hnext, hub_eq htask]
      simp only [htask, hnext]
      cases next with
      | closed =>
        rw [List.append_nil, hub_set htask hnext hcrowd]
        exact .single (.skip _ _ _ _ _)
      | sent =>
        have hmem : ws ∈ task.task.crowd api.ws_clients.toFinset := by
          rw [hset]
          exact List.mem_toFinset.mpr List.mem_cons_self
        have hsend := Hub.Step.send hmem
          ((api.broadcasts.eraseIdx k).map Broadcast.task : List (Task Nat WsEvent))
          (events sent : List (Nat × WsEvent))
        have hsent : ((events (sent ++ [(ws, .event task.event)]) : List (Nat × WsEvent)) :
            Multiset (Nat × WsEvent)) = (ws, task.task.event) ::ₘ (events sent : List _) := by
          rw [events_append, Multiset.cons_coe]
          exact Multiset.coe_eq_coe.mpr (List.perm_append_singleton _ _)
        rw [hub_set htask hnext hcrowd, hsent]
        exact .single hsend
      | connection_error =>
        have hskip := Hub.Step.skip api.ws_clients.toFinset task.task ws
          ((api.broadcasts.eraseIdx k).map Broadcast.task : List (Task Nat WsEvent))
          (events sent : List (Nat × WsEvent))
        rw [← hub_set htask hnext hcrowd] at hskip
        have hdrop := Hub.Step.drop (HttpServer.hub
          { api with broadcasts := api.broadcasts.set k ⟨task.event, some rest⟩ } sent) ws
        have hdiscarded : HttpServer.hub (HttpServer.discard_client
            { api with broadcasts := api.broadcasts.set k ⟨task.event, some rest⟩ } ws) sent =
            { HttpServer.hub { api with
                broadcasts := api.broadcasts.set k ⟨task.event, some rest⟩ } sent with
              clients := api.ws_clients.toFinset.erase ws } := by
          rw [← toFinset_erase h.ws_clients]
          rfl
        rw [List.append_nil, hdiscarded]
        exact .cons hskip (.single hdrop)
      | raised =>
        rw [List.append_nil, ← hset]
        exact .single (.finish _ _ _ _)

end

section

variable {d : Daemon} {env : Env}

/-- The broadcast, if it is one, does not come between the client and an event:
a send to the client works, and no send before it raises. -/
def Serves (ws : Nat) (d : Daemon) : Daemon.Input → Prop
  | .ws_close client => client ≠ ws
  | .broadcast k next => ∀ task client rest, d.api.broadcasts[k]? = some task →
      task.rest.getD d.api.ws_clients = client :: rest →
        (client = ws → next = .sent) ∧ (ws ∈ rest → next ≠ .raised)
  | _ => True

theorem spares_moves {ws : Nat} {input : Daemon.Input} (h : Serves ws d input) :
    ∀ move ∈ d.moves env input, move.Spares ws := by
  have hreports : ∀ move ∈ (reported (d.caused env input).out).map Move.publish,
      Move.Spares ws move := by
    intro move hmove
    obtain ⟨event, -, rfl⟩ := List.mem_map.mp hmove
    trivial
  cases input with
  | ws_open client =>
    intro move hmove
    obtain rfl := List.mem_singleton.mp hmove
    trivial
  | ws_close client =>
    intro move hmove
    obtain rfl := List.mem_singleton.mp hmove
    exact h
  | ping => exact fun _ hmove => absurd hmove List.not_mem_nil
  | broadcast k next =>
    intro move hmove
    unfold Daemon.moves HttpServer.moves at hmove
    rcases htask : d.api.broadcasts[k]? with _ | task
    · simp only [htask, List.not_mem_nil] at hmove
    · rcases hnext : task.rest.getD d.api.ws_clients with _ | ⟨client, rest⟩
      · simp only [htask, hnext, List.mem_singleton] at hmove
        subst hmove
        exact Finset.notMem_empty ws
      · obtain ⟨hclient, hrest⟩ := h task client rest htask hnext
        simp only [htask, hnext] at hmove
        cases next with
        | closed =>
          obtain rfl := List.mem_singleton.mp hmove
          exact fun hsame => NextSend.noConfusion (hclient hsame)
        | sent =>
          obtain rfl := List.mem_singleton.mp hmove
          trivial
        | connection_error =>
          rcases List.mem_pair.mp hmove with rfl | rfl
          · exact fun hsame => NextSend.noConfusion (hclient hsame)
          · exact fun hsame => NextSend.noConfusion (hclient hsame)
        | raised =>
          obtain rfl := List.mem_singleton.mp hmove
          show ws ∉ _
          rw [List.mem_toFinset, List.mem_cons]
          rintro (rfl | hlater)
          · exact NextSend.noConfusion (hclient rfl)
          · exact hrest hlater rfl
  | _ => exact hreports

theorem news_moves (input : Daemon.Input) :
    Hub.news (d.moves env input) = (reported (d.caused env input).out : List WsEvent) := by
  cases input with
  | ws_open | ws_close | ping => rfl
  | broadcast k next =>
    show Hub.news (d.api.moves k next) = 0
    unfold HttpServer.moves
    split
    · rfl
    · split
      · rfl
      · split <;> rfl
  | _ => exact Hub.news_publish _

/-- An input moves the hub, and a set of clients stays one. -/
theorem run_step (env : Env) (h : d.api.Sound) (input : Daemon.Input) :
    Hub.Run d.hub (d.moves env input) (d.step env input).hub ∧ (d.step env input).api.Sound := by
  have hran (haside : ¬ Aside input) (hmoves : d.moves env input =
      (reported (d.caused env input).out).map Move.publish) :
      Hub.Run d.hub (d.moves env input) (d.step env input).hub ∧
        (d.step env input).api.Sound := by
    have hran := ran_step d env haside
    refine ⟨?_, ?_⟩
    · have hhub : (d.step env input).hub = { d.hub with
          tasks := ((reported (d.caused env input).out).map fun event => ⟨event, none⟩ :
            List (Task Nat WsEvent)) + d.hub.tasks } := by
        unfold Daemon.hub HttpServer.hub
        rw [hran.ws_clients, hran.broadcasts, hran.sent, List.map_append, List.map_map,
          ← Multiset.coe_add, add_comm]
        rfl
      rw [hhub, hmoves]
      exact .publish d.hub _
    · refine ⟨?_, fun broadcast hmem rest hrest => ?_⟩
      · rw [hran.ws_clients]
        exact h.ws_clients
      · rw [hran.broadcasts] at hmem
        rcases List.mem_append.mp hmem with hold | hnew
        · exact h.rests broadcast hold rest hrest
        · obtain ⟨event, -, rfl⟩ := List.mem_map.mp hnew
          cases hrest
  cases input with
  | ws_open ws =>
    have hclients : (if ws ∈ d.api.ws_clients then d.api.ws_clients
        else d.api.ws_clients ++ [ws]).toFinset = insert ws d.api.ws_clients.toFinset := by
      split
      · rename_i hmem
        exact (Finset.insert_eq_of_mem (List.mem_toFinset.mpr hmem)).symm
      · ext client
        simp
    have hhub : (d.step env (.ws_open ws)).hub =
        { d.hub with clients := insert ws d.hub.clients } :=
      congrArg (fun clients => { d.hub with clients := clients }) hclients
    refine ⟨?_, ?_, h.rests⟩
    · rw [hhub]
      exact .single (.join d.hub ws)
    · show (if ws ∈ d.api.ws_clients then d.api.ws_clients else d.api.ws_clients ++ [ws]).Nodup
      split
      · exact h.ws_clients
      · rename_i hnew
        exact List.nodup_append_comm.mp (List.nodup_cons.mpr ⟨hnew, h.ws_clients⟩)
  | ws_close ws =>
    have hhub : (d.step env (.ws_close ws)).hub =
        { d.hub with clients := d.hub.clients.erase ws } :=
      congrArg (fun clients => { d.hub with clients := clients }) (toFinset_erase h.ws_clients ws)
    refine ⟨?_, h.discard_client ws⟩
    rw [hhub]
    exact .single (.drop d.hub ws)
  | ping ws =>
    unfold Daemon.step
    dsimp only
    split
    · refine ⟨?_, h⟩
      have hhub : d.api.hub (d.sent ++ [(ws, .pong)]) = d.hub := by
        unfold Daemon.hub HttpServer.hub
        rw [events_append]
        exact congrArg _ (congrArg _ (List.append_nil _))
      show Hub.Run d.hub [] (d.api.hub (d.sent ++ [(ws, .pong)]))
      rw [hhub]
      exact .nil d.hub
    · exact ⟨.nil d.hub, h⟩
  | broadcast k next => exact ⟨run_broadcast h d.sent k next, h.broadcast_next k next⟩
  | _ => exact hran id rfl

end

/-! ## Whole runs -/

theorem sound_of_run {ok : Daemon × List Action → Env × Daemon.Input → Prop} {start d : Daemon}
    {out : List Action} (hstart : start.api.Sound) (hrun : (watched start).RunWith ok (d, out)) :
    d.api.Sound := by
  refine hrun.invariant (I := fun s => s.1.api.Sound) ?_ ?_
  · rintro s rfl
    exact hstart
  · intro s e s' _ hs _ hstep
    obtain rfl := Option.some.inj hstep
    exact (run_step e.1 hs e.2).2

theorem sound_init (mesh : MeshNode) : (Daemon.init mesh).api.Sound :=
  ⟨List.nodup_nil, fun _ hmem => absurd hmem List.not_mem_nil⟩

theorem reported_append (a b : List Action) : reported (a ++ b) = reported a ++ reported b :=
  List.filterMap_append

theorem account_le_of_run {ok : Daemon × List Action → Env × Daemon.Input → Prop}
    {start d : Daemon} {out : List Action} (hstart : start.api.Sound)
    (hrun : (watched start).RunWith ok (d, out)) (ws : Nat) :
    d.hub.account ws ≤ start.hub.account ws + (reported out : List WsEvent) := by
  refine hrun.invariant (I := fun s => s.1.hub.account ws ≤
    start.hub.account ws + (reported s.2 : List WsEvent)) ?_ ?_
  · rintro s rfl
    exact le_of_eq (add_zero _).symm
  · intro s e s' hreached hs _ hstep
    obtain rfl := Option.some.inj hstep
    have hmoves := (run_step e.1 (sound_of_run hstart hreached) e.2).1.account_le ws
    rw [news_moves] at hmoves
    rw [reported_append, ← Multiset.coe_add, ← add_assoc]
    exact le_trans hmoves (add_le_add_left hs _)

theorem account_eq_of_run {start d : Daemon} {out : List Action} {ws : Nat}
    (hstart : start.api.Sound) (hopen : ws ∈ start.api.ws_clients)
    (hrun : (watched start).RunWith (fun s e => Serves ws s.1 e.2) (d, out)) :
    d.hub.account ws = start.hub.account ws + (reported out : List WsEvent) := by
  have hboth : d.hub.account ws = start.hub.account ws + (reported out : List WsEvent) ∧
      ws ∈ d.hub.clients := by
    refine hrun.invariant (I := fun s => s.1.hub.account ws =
      start.hub.account ws + (reported s.2 : List WsEvent) ∧ ws ∈ s.1.hub.clients) ?_ ?_
    · rintro s rfl
      exact ⟨(add_zero _).symm, List.mem_toFinset.mpr hopen⟩
    · intro s e s' hreached hs hserves hstep
      obtain rfl := Option.some.inj hstep
      have hmoves := (run_step e.1 (sound_of_run hstart hreached) e.2).1.account_eq
        (spares_moves hserves) hs.2
      rw [news_moves, hs.1, add_assoc, Multiset.coe_add, ← reported_append] at hmoves
      exact hmoves
  exact hboth.1

/-- Nobody is sent an event twice, and nobody is sent an event that was not
reported: whatever clients come and go, and however their broadcasts take
turns. -/
theorem a_client_is_sent_each_report_at_most_once {mesh : MeshNode} {d : Daemon}
    {out : List Action} (hrun : (watched (.init mesh)).Reachable (d, out)) (ws : Nat) :
    (events_of ws d.sent).Subperm (reported out) := by
  have haccount := account_le_of_run (sound_init mesh) hrun ws
  have hnothing : (Daemon.init mesh).hub.account ws = 0 := rfl
  rw [hnothing, zero_add] at haccount
  apply Multiset.coe_le.mp
  rw [← coe_events_of]
  exact le_trans (Multiset.le_add_right _ _) haccount

/-! ## The table of peers, as a client sees it -/

/-- What an event says of the peer. -/
def WsEvent.presence (peer_id : Str) : WsEvent → Option Presence
  | .peer_joined peer _ => if peer = peer_id then some .joined else none
  | .peer_left peer _ => if peer = peer_id then some .left else none
  | .ack _ _ _ => none

theorem presence_eq (peer_id : Str) (out : List Action) :
    presence peer_id out = (reported out).filterMap (WsEvent.presence peer_id) := by
  unfold presence reported
  rw [List.filterMap_filterMap]
  congr 1
  funext action
  cases action <;> rfl

omit [Packages] in
/-- A peer that is there has joined once more than it has left. -/
theorem Alternating.count {present : Bool} {calls : List Presence} (h : Alternating present calls) :
    calls.count .joined = calls.count .left + present.toNat := by
  induction h with
  | nil => rfl
  | joined h ih =>
    rw [List.count_append, List.count_append, ih]
    rfl
  | left h ih =>
    rw [List.count_append, List.count_append, ih]
    rfl

/-- How often the events say so. -/
def times_told (said : Presence) (peer_id : Str) (events : List WsEvent) : Nat :=
  (events.filterMap (WsEvent.presence peer_id)).count said

theorem orderly_of_reachableWith {w : World} (h : ReachableWith SparesNameless w) : Orderly w := by
  induction h with
  | start my_peer_id config_nickname app_state static_identity_key =>
    exact ⟨fun _ => .nil, fun e he => absurd he List.not_mem_nil⟩
  | step _ env event _ hspares ih => exact ih.step hspares

/-- Nothing is taken back that was sent. -/
theorem sent_prefix {ok : Daemon × List Action → Env × Daemon.Input → Prop} {start d : Daemon}
    {out : List Action} (hrun : (watched start).RunWith ok (d, out)) : start.sent <+: d.sent := by
  refine hrun.invariant (I := fun s => start.sent <+: s.1.sent) ?_ ?_
  · rintro s rfl
    exact List.prefix_refl _
  · intro s e s' _ hs _ hstep
    obtain rfl := Option.some.inj hstep
    refine hs.trans ?_
    by_cases haside : Aside e.2
    · rcases e with ⟨env, input⟩
      cases input with
      | ws_open | ws_close => exact List.prefix_refl _
      | broadcast => exact List.prefix_append _ _
      | ping ws =>
        unfold Daemon.step
        dsimp only
        split
        · exact List.prefix_append _ _
        · exact List.prefix_refl _
      | _ => exact absurd haside id
    · have hran := ran_step s.1 e.1 haside
      show s.1.sent <+: (s.1.step e.1 e.2).sent
      rw [hran.sent]

/-- The step takes no peer that is on file without a nickname. -/
def Spared (s : Daemon × List Action) (e : Env × Daemon.Input) : Prop :=
  ∀ event, s.1.cause e.2 = some event → SparesNameless ⟨s.1.mesh, s.2⟩ e.1 event

/-- A client that stays is sent what is reported, in some order, as soon as no
broadcast is under way. -/
theorem events_since {start d : Daemon} {out : List Action} {ws : Nat}
    (hsound : start.api.Sound) (hopen : ws ∈ start.api.ws_clients)
    (hidle : start.api.broadcasts = [])
    (hrun : (watched start).RunWith (fun s e => Serves ws s.1 e.2) (d, out))
    (hdone : d.api.broadcasts = []) :
    (events_of ws (d.sent.drop start.sent.length)).Perm (reported out) := by
  have hdue {d : Daemon} (h : d.api.broadcasts = []) :
      d.hub.account ws = (events_of ws d.sent : List WsEvent) := by
    rw [← coe_events_of]
    unfold Hub.account Hub.due Daemon.hub HttpServer.hub
    rw [h]
    exact add_zero _
  have haccount := account_eq_of_run hsound hopen hrun
  obtain ⟨more, hmore⟩ := sent_prefix hrun
  rw [hdue hidle, hdue hdone, ← hmore] at haccount
  rw [← hmore, List.drop_left]
  unfold events_of at haccount ⊢
  rw [List.filterMap_append, ← Multiset.coe_add, add_right_inj] at haccount
  exact Multiset.coe_eq_coe.mp haccount

end daemon

/-! ## On the stand-in -/

namespace daemon.standIn

open python bitchat bitchat.protocol systems

attribute [local instance] bitchat.standIn.packages

/-- A new daemon with one client. -/
def attended : Daemon :=
  (Daemon.init (.init us (some ['n']) (.init [1]) (bitchat.standIn.key 1))).step (env 1) (.ws_open 5)

/-- The peer announces itself. -/
def after_greeting : Daemon :=
  attended.step (env 1) (.event (.packet conn (layout .ANNOUNCE 7 0 0 them.bytes [] [110] [])))

/-- The client is told so. -/
def informed : Daemon :=
  (after_greeting.step (env 1) (.broadcast 0 .sent)).step (env 1) (.broadcast 0 .sent)

theorem spared_greeting (out : List Action) : Spared (attended, out)
    (env 1, .event (.packet conn (layout .ANNOUNCE 7 0 0 them.bytes [] [110] []))) := by
  intro event hcause
  obtain rfl := Option.some.inj hcause
  intro packet hparse hother
  rw [parse_layout .ANNOUNCE 7 0 0 them.bytes [] [110] [] rfl rfl rfl (by decide)] at hparse
  rw [← Except.ok.inj hparse]
  exact ⟨safe_env 1 _, fun hleave => by cases hleave⟩

theorem serves_sent (ws k : Nat) (d : Daemon) : Serves ws d (.broadcast k .sent) :=
  fun _ _ _ _ _ => ⟨fun _ => rfl, fun _ h => NextSend.noConfusion h⟩

theorem runs_informed : ∃ out, (watched attended).RunWith
    (fun s e => Spared s e ∧ Serves 5 s.1 e.2) (informed, out) := by
  refine ⟨_, .step (.step (.step (.start rfl) (env 1, .event (.packet conn _))
    ⟨spared_greeting _, trivial⟩ rfl) (env 1, .broadcast 0 .sent) ⟨?_, serves_sent 5 0 _⟩ rfl)
    (env 1, .broadcast 0 .sent) ⟨?_, serves_sent 5 0 _⟩ rfl⟩
  · exact fun _ hcause => by cases hcause
  · exact fun _ hcause => by cases hcause

end daemon.standIn

namespace daemon

open standIn

attribute [local instance] bitchat.standIn.packages

theorem a_client_is_sent_one_report :
    ∃ out, (events_of 5 standIn.informed.sent).Subperm (reported out) := by
  refine ⟨_, a_client_is_sent_each_report_at_most_once (.step (.step (.step (.step (.start rfl)
    (env 1, .ws_open 5) trivial rfl) (env 1, .event (.packet conn _)) trivial rfl)
    (env 1, .broadcast 0 .sent) trivial rfl) (env 1, .broadcast 0 .sent) trivial rfl) 5⟩

end daemon
