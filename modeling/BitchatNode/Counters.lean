-- Counters that run under keys. A key is issued once, to one place, and what is
-- recorded under it there is numbered with the counter, which only goes up. So
-- two logs of one key tell how they are ordered by the numbers alone.
import Mathlib.Data.List.Sort
import Mathlib.Logic.Function.Basic

namespace counters

variable {K P V : Type}

/-- What was recorded under a key: where, with which number, and what. -/
structure Record (K P V : Type) where
  key : K
  place : P
  number : Nat
  value : V
deriving DecidableEq

/-- If both have one key, then they come from one place, and the other record
has the larger number. -/
def Precedes (r s : Record K P V) : Prop := r.key = s.key → r.place = s.place ∧ r.number < s.number

/-- The log agrees with the counters: under each key it is numbered in order,
from one place, and a counter is past what was recorded under its key. -/
structure Counted (issued : K → Prop) (counter : P → Option (K × Nat))
    (log : List (Record K P V)) : Prop where
  ordered : log.Pairwise Precedes
  logged : ∀ r ∈ log, issued r.key
  past : ∀ p k n, counter p = some (k, n) →
    issued k ∧ ∀ r ∈ log, r.key = k → r.place = p ∧ r.number < n
  separate : ∀ p q k n m, counter p = some (k, n) → counter q = some (k, m) → p = q

namespace Counted

variable {issued issued' : K → Prop} {counter counter' : P → Option (K × Nat)}
  {log : List (Record K P V)}

theorem init (issued : K → Prop) :
    Counted issued (fun _ => none) ([] : List (Record K P V)) where
  ordered := .nil
  logged _ hr := absurd hr List.not_mem_nil
  past _ _ _ hp := by cases hp
  separate _ _ _ _ _ hp := by cases hp

/-- More keys may be issued. -/
theorem mono (h : Counted issued counter log) (hissued : ∀ k, issued k → issued' k) :
    Counted issued' counter log where
  ordered := h.ordered
  logged r hr := hissued _ (h.logged r hr)
  past p k n hp := (h.past p k n hp).imp_left (hissued k)
  separate := h.separate

/-- Counters may stop. -/
theorem fewer (h : Counted issued counter log)
    (hsub : ∀ p k n, counter' p = some (k, n) → counter p = some (k, n)) :
    Counted issued counter' log where
  ordered := h.ordered
  logged := h.logged
  past p k n hp := h.past p k n (hsub p k n hp)
  separate p q k n m hp hq := h.separate p q k n m (hsub p k n hp) (hsub q k m hq)

variable [DecidableEq P]

/-- A new key starts to count. -/
theorem issue (h : Counted issued counter log) {k : K} (hnew : ¬ issued k) (hissued : issued' k)
    (hmono : ∀ k, issued k → issued' k) (p : P) (n : Nat) :
    Counted issued' (Function.update counter p (some (k, n))) log := by
  have hother : ∀ q k' n', Function.update counter p (some (k, n)) q = some (k', n') →
      (q = p ∧ k' = k) ∨ (counter q = some (k', n') ∧ k' ≠ k) := by
    intro q k' n' hq
    by_cases hqp : q = p
    · subst hqp
      rw [Function.update_self] at hq
      cases hq
      exact .inl ⟨rfl, rfl⟩
    · rw [Function.update_of_ne hqp] at hq
      refine .inr ⟨hq, ?_⟩
      rintro rfl
      exact hnew (h.past q k' n' hq).1
  refine ⟨h.ordered, fun r hr => hmono _ (h.logged r hr), ?_, ?_⟩
  · intro q k' n' hq
    rcases hother q k' n' hq with ⟨rfl, rfl⟩ | ⟨hold, -⟩
    · refine ⟨hissued, fun r hr hkey => ?_⟩
      exact absurd (hkey ▸ h.logged r hr) hnew
    · exact (h.past q k' n' hold).imp_left (hmono k')
  · intro q q' k' n' m hq hq'
    rcases hother q k' n' hq with ⟨rfl, rfl⟩ | ⟨hold, hne⟩
    · rcases hother q' k' m hq' with ⟨rfl, -⟩ | ⟨-, hne⟩
      · rfl
      · exact absurd rfl hne
    · rcases hother q' k' m hq' with ⟨-, rfl⟩ | ⟨hold', -⟩
      · exact absurd rfl hne
      · exact h.separate q q' k' n' m hold hold'

/-- A counter goes up, and nothing is recorded. -/
theorem tick (h : Counted issued counter log) {p : P} {k : K} {n m : Nat}
    (hp : counter p = some (k, n)) (hle : n ≤ m) :
    Counted issued (Function.update counter p (some (k, m))) log := by
  have hold : ∀ q k' n', Function.update counter p (some (k, m)) q = some (k', n') →
      ∃ n₀, counter q = some (k', n₀) ∧ n₀ ≤ n' := by
    intro q k' n' hq
    by_cases hqp : q = p
    · subst hqp
      rw [Function.update_self] at hq
      cases hq
      exact ⟨n, hp, hle⟩
    · rw [Function.update_of_ne hqp] at hq
      exact ⟨n', hq, le_rfl⟩
  refine ⟨h.ordered, h.logged, ?_, ?_⟩
  · intro q k' n' hq
    obtain ⟨n₀, hq₀, hle'⟩ := hold q k' n' hq
    obtain ⟨hissued, hpast⟩ := h.past q k' n₀ hq₀
    refine ⟨hissued, fun r hr hkey => ?_⟩
    obtain ⟨hplace, hlt⟩ := hpast r hr hkey
    exact ⟨hplace, by omega⟩
  · intro q q' k' n' m' hq hq'
    obtain ⟨n₀, hq₀, -⟩ := hold q k' n' hq
    obtain ⟨n₁, hq₁, -⟩ := hold q' k' m' hq'
    exact h.separate q q' k' n₀ n₁ hq₀ hq₁

/-- A counter numbers a record and goes past it. -/
theorem record (h : Counted issued counter log) {p : P} {k : K} {n m : Nat}
    (hp : counter p = some (k, n)) (hlt : n < m) (v : V) :
    Counted issued (Function.update counter p (some (k, m))) (log ++ [⟨k, p, n, v⟩]) := by
  obtain ⟨hissued, hpast⟩ := h.past p k n hp
  have htick := h.tick hp hlt.le
  refine ⟨?_, ?_, ?_, htick.separate⟩
  · apply List.pairwise_append.mpr
    refine ⟨h.ordered, List.pairwise_singleton _ _, ?_⟩
    intro r hr s hs hkey
    rw [List.mem_singleton.mp hs] at hkey ⊢
    exact hpast r hr hkey
  · intro r hr
    rcases List.mem_append.mp hr with hr | hr
    · exact h.logged r hr
    · rw [List.mem_singleton.mp hr]
      exact hissued
  · intro q k' n' hq
    obtain ⟨hissued', hpast'⟩ := htick.past q k' n' hq
    refine ⟨hissued', fun r hr hkey => ?_⟩
    rcases List.mem_append.mp hr with hr | hr
    · exact hpast' r hr hkey
    · rw [List.mem_singleton.mp hr] at hkey ⊢
      simp only at hkey
      subst hkey
      by_cases hqp : q = p
      · subst hqp
        rw [Function.update_self] at hq
        cases hq
        exact ⟨rfl, hlt⟩
      · rw [Function.update_of_ne hqp] at hq
        exact absurd (h.separate q p k n' n hq hp) hqp

end Counted

/-! ## One log -/

/-- What is recorded under one key comes from one place. -/
def OnePlace (log : List (Record K P V)) : Prop :=
  ∀ r ∈ log, ∀ s ∈ log, r.key = s.key → r.place = s.place

theorem onePlace_of_ordered {log : List (Record K P V)} (h : log.Pairwise Precedes) :
    OnePlace log := by
  apply List.Pairwise.forall_of_forall_of_flip
  · exact fun _ _ _ => rfl
  · exact h.imp fun hrs hkey => (hrs hkey).1
  · exact h.imp fun hrs hkey => (hrs hkey.symm).1.symm

/-! ## Two logs -/

/-- What a log holds of one key, in order. -/
def under [DecidableEq K] (k : K) (log : List (Record K P V)) : List V :=
  (log.filter fun r => r.key = k).map Record.value

/-- The log has the number and the value of the record under its key. -/
def Backed (log : List (Record K P V)) (r : Record K P V) : Prop :=
  ∃ s ∈ log, s.key = r.key ∧ s.number = r.number ∧ s.value = r.value

/-- A log with numbers and values of another holds a part of it, in its order. -/
theorem under_sublist [DecidableEq K] {log log' : List (Record K P V)}
    (h : log.Pairwise Precedes) (h' : log'.Pairwise Precedes) (hback : ∀ r ∈ log, Backed log' r)
    (k : K) : (under k log).Sublist (under k log') := by
  -- The numbers alone give the order.
  let numbered (l : List (Record K P V)) : List (Nat × V) :=
    (l.filter fun r => r.key = k).map fun r => (r.number, r.value)
  have hasc : ∀ l : List (Record K P V), l.Pairwise Precedes →
      (numbered l).Pairwise fun a b => a.1 < b.1 := by
    intro l hl
    refine List.pairwise_map.mpr ((hl.filter _).imp_of_mem ?_)
    intro r s hr hs hrs
    have hkey : r.key = k := by simpa using (List.mem_filter.mp hr).2
    have hkey' : s.key = k := by simpa using (List.mem_filter.mp hs).2
    exact (hrs (hkey.trans hkey'.symm)).2
  have hsub : numbered log ⊆ numbered log' := by
    intro a ha
    obtain ⟨r, hr, rfl⟩ := List.mem_map.mp ha
    obtain ⟨hlog, hkey⟩ := List.mem_filter.mp hr
    obtain ⟨s, hs, hskey, hnumber, hvalue⟩ := hback r hlog
    refine List.mem_map.mpr ⟨s, List.mem_filter.mpr ⟨hs, ?_⟩, by rw [hnumber, hvalue]⟩
    rw [hskey]
    exact hkey
  have hanti : Std.Antisymm fun a b : Nat × V => a.1 < b.1 :=
    ⟨fun _ _ hab hba => absurd (hab.trans hba) (lt_irrefl _)⟩
  have hnodup : (numbered log).Nodup := by
    refine (hasc log h).imp ?_
    rintro a _ hlt rfl
    exact lt_irrefl _ hlt
  have hnumbered : (numbered log).Sublist (numbered log') :=
    List.sublist_of_subperm_of_pairwise (List.subperm_of_subset hnodup hsub) (hasc log h) (hasc log' h')
  have hunder : ∀ l, under k l = (numbered l).map Prod.snd := by
    intro l
    simp [under, numbered]
  rw [hunder, hunder]
  exact hnumbered.map Prod.snd

end counters
