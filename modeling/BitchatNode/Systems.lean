-- Transition systems, their runs, and what holds in every state of a run.
import Mathlib.Tactic.Common

namespace systems

/-- A transition system. A step that is not possible gives `none`. -/
structure System (σ ε : Type) where
  start : σ → Prop
  step : σ → ε → Option σ

namespace System

variable {σ ε : Type} (S : System σ ε)

/-- The states that a run leads to whose steps all meet a condition on the
state before them. -/
inductive RunWith (ok : σ → ε → Prop) : σ → Prop
  | start {s : σ} (hstart : S.start s) : RunWith ok s
  | step {s s' : σ} (h : RunWith ok s) (e : ε) (hok : ok s e) (hstep : S.step s e = some s') :
    RunWith ok s'

/-- The states that any run leads to. -/
abbrev Reachable : σ → Prop := S.RunWith fun _ _ => True

variable {S} {ok : σ → ε → Prop}

/-- What holds at the start and is kept by each step holds in every state. -/
theorem RunWith.invariant {I : σ → Prop} (hstart : ∀ s, S.start s → I s)
    (hkeep : ∀ s e s', S.RunWith ok s → I s → ok s e → S.step s e = some s' → I s') {s : σ}
    (h : S.RunWith ok s) : I s := by
  induction h with
  | start hs => exact hstart _ hs
  | step h e hok hstep ih => exact hkeep _ e _ h ih hok hstep

theorem RunWith.mono {ok' : σ → ε → Prop} (hweaker : ∀ s e, ok s e → ok' s e) {s : σ}
    (h : S.RunWith ok s) : S.RunWith ok' s := by
  induction h with
  | start hs => exact .start hs
  | step _ e hok hstep ih => exact .step ih e (hweaker _ e hok) hstep

theorem RunWith.reachable {s : σ} (h : S.RunWith ok s) : S.Reachable s :=
  h.mono fun _ _ _ => trivial

variable (S) in
/-- The state after the given steps, if they are possible. -/
def replay (s : σ) : List ε → Option σ
  | [] => some s
  | e :: es => (S.step s e).bind fun s' => replay s' es

theorem reachable_replay {s s' : σ} (h : S.Reachable s) {es : List ε}
    (hreplay : S.replay s es = some s') : S.Reachable s' := by
  induction es generalizing s with
  | nil =>
    rw [replay, Option.some.injEq] at hreplay
    rw [← hreplay]
    exact h
  | cons e es ih =>
    rw [replay, Option.bind_eq_some_iff] at hreplay
    obtain ⟨t, hstep, hrest⟩ := hreplay
    exact ih (.step h e trivial hstep) hrest

variable (S) in
/-- The state after the given steps, if each is possible and passes a check. -/
def checked (check : σ → ε → Bool) (s : σ) : List ε → Option σ
  | [] => some s
  | e :: es => if check s e then (S.step s e).bind fun s' => checked check s' es else none

theorem runWith_checked {check : σ → ε → Bool} {s s' : σ} (h : S.RunWith ok s) {es : List ε}
    (hcheck : ∀ s, ∀ e ∈ es, check s e = true → ok s e)
    (hchecked : S.checked check s es = some s') : S.RunWith ok s' := by
  induction es generalizing s with
  | nil =>
    rw [checked, Option.some.injEq] at hchecked
    rw [← hchecked]
    exact h
  | cons e es ih =>
    rw [checked] at hchecked
    split at hchecked
    · rename_i hpasses
      obtain ⟨t, hstep, hrest⟩ := Option.bind_eq_some_iff.mp hchecked
      have hfirst : ok s e := hcheck s e (List.mem_cons_self ..) hpasses
      exact ih (.step h e hfirst hstep) (fun s e he => hcheck s e (List.mem_cons_of_mem _ he)) hrest
    · cases hchecked

end System

end systems
