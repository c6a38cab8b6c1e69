-- One event for many clients. A task for each event goes through the clients
-- that were there when it started, and the tasks of several events interleave.
-- Clients come and go, and a send to a client can fail.
import Mathlib.Algebra.Order.Group.Multiset
import Mathlib.Data.Finset.Erase
import Mathlib.Data.Finset.Insert

namespace fanout

variable {κ ε : Type}

/-- A task, with the clients that are still to come. It looks at the clients
when it starts. -/
structure Task (κ ε : Type) where
  event : ε
  rest : Option (Finset κ)

structure Hub (κ ε : Type) where
  clients : Finset κ
  tasks : Multiset (Task κ ε)
  sent : Multiset (κ × ε)

inductive Move (κ ε : Type)
  | publish (event : ε)
  | join (client : κ)
  | drop (client : κ)
  | send (event : ε) (client : κ)
  /-- A task passes a client by. -/
  | skip (client : κ)
  /-- A task ends, whoever is still to come. -/
  | finish (rest : Finset κ)

/-- What is new with a move. -/
def Move.news : Move κ ε → Multiset ε
  | .publish event => {event}
  | _ => 0

/-- The move does not come between the client and an event. -/
def Move.Spares (client : κ) : Move κ ε → Prop
  | .drop other => other ≠ client
  | .skip other => other ≠ client
  | .finish rest => client ∉ rest
  | _ => True

/-- Whom the task has still to serve. -/
def Task.crowd (task : Task κ ε) (clients : Finset κ) : Finset κ := task.rest.getD clients

variable [DecidableEq κ]

/-- The client is still to come, or can still be. -/
def Task.awaits (client : κ) (task : Task κ ε) : Bool := task.rest.all fun rest => client ∈ rest

namespace Hub

inductive Step : Hub κ ε → Move κ ε → Hub κ ε → Prop
  | publish (hub : Hub κ ε) (event : ε) :
    Step hub (.publish event) { hub with tasks := ⟨event, none⟩ ::ₘ hub.tasks }
  | join (hub : Hub κ ε) (client : κ) :
    Step hub (.join client) { hub with clients := insert client hub.clients }
  | drop (hub : Hub κ ε) (client : κ) :
    Step hub (.drop client) { hub with clients := hub.clients.erase client }
  | send {clients : Finset κ} {task : Task κ ε} {client : κ} (hclient : client ∈ task.crowd clients)
      (tasks : Multiset (Task κ ε)) (sent : Multiset (κ × ε)) :
    Step ⟨clients, task ::ₘ tasks, sent⟩ (.send task.event client)
      ⟨clients, ⟨task.event, some ((task.crowd clients).erase client)⟩ ::ₘ tasks,
        (client, task.event) ::ₘ sent⟩
  | skip (clients : Finset κ) (task : Task κ ε) (client : κ) (tasks : Multiset (Task κ ε))
      (sent : Multiset (κ × ε)) :
    Step ⟨clients, task ::ₘ tasks, sent⟩ (.skip client)
      ⟨clients, ⟨task.event, some ((task.crowd clients).erase client)⟩ ::ₘ tasks, sent⟩
  | finish (clients : Finset κ) (task : Task κ ε) (tasks : Multiset (Task κ ε))
      (sent : Multiset (κ × ε)) :
    Step ⟨clients, task ::ₘ tasks, sent⟩ (.finish (task.crowd clients)) ⟨clients, tasks, sent⟩

/-- Some moves, one after the other. -/
inductive Run : Hub κ ε → List (Move κ ε) → Hub κ ε → Prop
  | nil (hub : Hub κ ε) : Run hub [] hub
  | cons {hub hub' hub'' : Hub κ ε} {move : Move κ ε} {moves : List (Move κ ε)}
    (hstep : Step hub move hub') (hrest : Run hub' moves hub'') : Run hub (move :: moves) hub''

theorem Run.single {hub hub' : Hub κ ε} {move : Move κ ε} (h : Step hub move hub') :
    Run hub [move] hub' := .cons h (.nil hub')

theorem Run.publish (hub : Hub κ ε) (events : List ε) :
    Run hub (events.map Move.publish)
      { hub with tasks := (events.map fun event => ⟨event, none⟩ : List (Task κ ε)) + hub.tasks } := by
  induction events generalizing hub with
  | nil =>
    rw [List.map_nil, List.map_nil, Multiset.coe_nil, zero_add]
    exact .nil hub
  | cons event events ih =>
    refine .cons (.publish hub event) ?_
    have hrest := ih { hub with tasks := ⟨event, none⟩ ::ₘ hub.tasks }
    rw [Multiset.add_cons, ← Multiset.cons_add, Multiset.cons_coe] at hrest
    exact hrest

/-- The events that the client was sent. -/
def sent_to (hub : Hub κ ε) (client : κ) : Multiset ε :=
  (hub.sent.filter fun s => s.1 = client).map Prod.snd

/-- The events that are still on their way to the client. -/
def due (hub : Hub κ ε) (client : κ) : Multiset ε :=
  (hub.tasks.filter fun task => task.awaits client).map Task.event

def account (hub : Hub κ ε) (client : κ) : Multiset ε := hub.sent_to client + hub.due client

end Hub

/-! ## What is due for one task -/

/-- The event of the task, if the client is to come. -/
def Task.share (client : κ) (task : Task κ ε) : Multiset ε :=
  if task.awaits client then {task.event} else 0

theorem Hub.due_cons (clients : Finset κ) (task : Task κ ε) (tasks : Multiset (Task κ ε))
    (sent : Multiset (κ × ε)) (client : κ) :
    Hub.due ⟨clients, task ::ₘ tasks, sent⟩ client =
      task.share client + Hub.due ⟨clients, tasks, sent⟩ client := by
  unfold Hub.due Task.share
  split
  · rename_i hawaits
    simp [hawaits]
  · rename_i hawaits
    simp [hawaits]

namespace Task

variable {client other : κ} {clients : Finset κ} {task : Task κ ε}

theorem awaits_of_mem_crowd (h : client ∈ task.crowd clients) : task.awaits client = true := by
  unfold crowd at h
  unfold awaits
  cases hrest : task.rest with
  | none => rfl
  | some rest =>
    rw [hrest] at h
    simpa using h

theorem mem_crowd_of_awaits (hclient : client ∈ clients) (h : task.awaits client = true) :
    client ∈ task.crowd clients := by
  unfold awaits at h
  unfold crowd
  cases hrest : task.rest with
  | none => exact hclient
  | some rest =>
    rw [hrest] at h
    simpa using h

/-- Without the client that came nobody waits who did not wait before. -/
theorem awaits_erase (h : Task.awaits client
    (⟨task.event, some ((task.crowd clients).erase other)⟩ : Task κ ε) = true) :
    other ≠ client ∧ task.awaits client = true := by
  have hmem : client ∈ (task.crowd clients).erase other := by simpa [awaits] using h
  obtain ⟨hne, hcrowd⟩ := Finset.mem_erase.mp hmem
  exact ⟨Ne.symm hne, awaits_of_mem_crowd hcrowd⟩

theorem share_erase_le :
    Task.share client (⟨task.event, some ((task.crowd clients).erase other)⟩ : Task κ ε) ≤
      task.share client := by
  unfold share
  split
  · rename_i hawaits
    rw [if_pos (awaits_erase hawaits).2]
  · exact Multiset.zero_le _

theorem share_erase_self :
    Task.share client (⟨task.event, some ((task.crowd clients).erase client)⟩ : Task κ ε) = 0 :=
  if_neg fun hawaits => (awaits_erase hawaits).1 rfl

/-- Who is there waits as before when another client has come. -/
theorem share_erase_ne (hclient : client ∈ clients) (hne : other ≠ client) :
    Task.share client (⟨task.event, some ((task.crowd clients).erase other)⟩ : Task κ ε) =
      task.share client := by
  unfold share
  by_cases hawaits : task.awaits client = true
  · have hmem : client ∈ (task.crowd clients).erase other :=
      Finset.mem_erase.mpr ⟨Ne.symm hne, mem_crowd_of_awaits hclient hawaits⟩
    have hstill : Task.awaits client
        (⟨task.event, some ((task.crowd clients).erase other)⟩ : Task κ ε) = true := by
      simpa [awaits] using hmem
    rw [if_pos hawaits, if_pos hstill]
  · rw [if_neg hawaits, if_neg fun hstill => hawaits (awaits_erase hstill).2]

theorem share_of_mem_crowd (h : client ∈ task.crowd clients) :
    task.share client = {task.event} := if_pos (awaits_of_mem_crowd h)

theorem share_of_not_mem_crowd (hclient : client ∈ clients) (h : client ∉ task.crowd clients) :
    task.share client = 0 := if_neg fun hawaits => h (mem_crowd_of_awaits hclient hawaits)

end Task

/-! ## Nothing is sent twice, and nothing is lost -/

namespace Hub

variable {hub hub' : Hub κ ε} {move : Move κ ε} {moves : List (Move κ ε)} {client : κ}

theorem sent_to_cons_self (clients : Finset κ) (tasks : Multiset (Task κ ε))
    (sent : Multiset (κ × ε)) (event : ε) :
    sent_to ⟨clients, tasks, (client, event) ::ₘ sent⟩ client =
      {event} + sent_to ⟨clients, tasks, sent⟩ client := by
  unfold sent_to
  simp

theorem sent_to_cons_ne {other : κ} (hne : other ≠ client) (clients : Finset κ)
    (tasks : Multiset (Task κ ε)) (sent : Multiset (κ × ε)) (event : ε) :
    sent_to ⟨clients, tasks, (other, event) ::ₘ sent⟩ client =
      sent_to ⟨clients, tasks, sent⟩ client := by
  unfold sent_to
  simp [hne]

/-- What a client was sent and is still to be sent grows by what is published
at most. -/
theorem Step.account_le (h : Step hub move hub') (client : κ) :
    hub'.account client ≤ hub.account client + move.news := by
  cases h with
  | publish hub event =>
    unfold account
    rw [due_cons, add_assoc]
    apply add_le_add_right
    rw [add_comm]
    apply add_le_add_right
    exact le_of_eq (if_pos rfl)
  | join hub client => exact le_of_eq (add_zero _).symm
  | drop hub client => exact le_of_eq (add_zero _).symm
  | send hclient tasks sent =>
    rename_i clients task other
    unfold account Move.news
    rw [due_cons, due_cons, add_zero]
    by_cases hsame : other = client
    · -- the event is off its way and with the client
      subst hsame
      apply le_of_eq
      rw [sent_to_cons_self, Task.share_erase_self, Task.share_of_mem_crowd hclient, zero_add,
        add_assoc, add_left_comm]
      rfl
    · rw [sent_to_cons_ne hsame]
      apply add_le_add_right
      exact add_le_add_left Task.share_erase_le _
  | skip clients task other tasks sent =>
    unfold account Move.news
    rw [due_cons, due_cons, add_zero]
    apply add_le_add_right
    exact add_le_add_left Task.share_erase_le _
  | finish clients task tasks sent =>
    unfold account Move.news
    rw [due_cons, add_zero]
    apply add_le_add_right
    exact le_add_of_nonneg_left (Multiset.zero_le _)

/-- A client that stays is sent, or is still to be sent, all that is
published. -/
theorem Step.account_eq (h : Step hub move hub') (hspares : move.Spares client)
    (hclient : client ∈ hub.clients) :
    hub'.account client = hub.account client + move.news ∧ client ∈ hub'.clients := by
  cases h with
  | publish hub event =>
    refine ⟨?_, hclient⟩
    have hshare : Task.share client (⟨event, none⟩ : Task κ ε) = {event} := if_pos rfl
    unfold account
    rw [due_cons, hshare, add_left_comm, add_comm]
    rfl
  | join hub other => exact ⟨(add_zero _).symm, Finset.mem_insert_of_mem hclient⟩
  | drop hub other =>
    exact ⟨(add_zero _).symm, Finset.mem_erase.mpr ⟨Ne.symm hspares, hclient⟩⟩
  | send hother tasks sent =>
    rename_i clients task other
    refine ⟨?_, hclient⟩
    unfold account Move.news
    rw [due_cons, due_cons, add_zero]
    by_cases hsame : other = client
    · subst hsame
      rw [sent_to_cons_self, Task.share_erase_self, Task.share_of_mem_crowd hother, zero_add,
        add_assoc, add_left_comm]
      rfl
    · rw [sent_to_cons_ne hsame, Task.share_erase_ne hclient hsame]
      rfl
  | skip clients task other tasks sent =>
    refine ⟨?_, hclient⟩
    unfold account Move.news
    rw [due_cons, due_cons, add_zero, Task.share_erase_ne hclient hspares]
    rfl
  | finish clients task tasks sent =>
    refine ⟨?_, hclient⟩
    unfold account Move.news
    rw [due_cons, add_zero, Task.share_of_not_mem_crowd hclient hspares, zero_add]
    rfl

/-- What is new with some moves. -/
def news (moves : List (Move κ ε)) : Multiset ε := (moves.map Move.news).sum

omit [DecidableEq κ] in
theorem news_cons (move : Move κ ε) (moves : List (Move κ ε)) :
    news (move :: moves) = move.news + news moves := List.sum_cons

omit [DecidableEq κ] in
theorem news_publish (events : List ε) :
    news (events.map Move.publish : List (Move κ ε)) = (events : Multiset ε) := by
  induction events with
  | nil => rfl
  | cons event events ih =>
    rw [List.map_cons, news_cons, ih, ← Multiset.cons_coe, ← Multiset.singleton_add]
    rfl

theorem Run.account_le (h : Run hub moves hub') (client : κ) :
    hub'.account client ≤ hub.account client + news moves := by
  induction h with
  | nil hub => exact le_of_eq (add_zero _).symm
  | cons hstep _ ih =>
    rw [news_cons, ← add_assoc]
    exact le_trans ih (add_le_add_left (hstep.account_le client) _)

theorem Run.account_eq (h : Run hub moves hub') (hspares : ∀ move ∈ moves, move.Spares client)
    (hclient : client ∈ hub.clients) :
    hub'.account client = hub.account client + news moves ∧ client ∈ hub'.clients := by
  induction h with
  | nil hub => exact ⟨(add_zero _).symm, hclient⟩
  | cons hstep _ ih =>
    obtain ⟨hfirst, hstill⟩ := hstep.account_eq (hspares _ List.mem_cons_self) hclient
    obtain ⟨hrest, hend⟩ := ih (fun move hmove => hspares move (List.mem_cons_of_mem _ hmove)) hstill
    refine ⟨?_, hend⟩
    rw [hrest, hfirst, news_cons, add_assoc]

end Hub

end fanout
