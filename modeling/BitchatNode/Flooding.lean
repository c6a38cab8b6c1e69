-- Flooding in general: copies are taken one by one, and each copy that is taken
-- may put new ones in its place.
import Mathlib.Logic.Hydra
import Mathlib.Data.List.Nodup
import Mathlib.Order.WellFounded

namespace flooding

/-! ## Floods end -/

section

variable {α : Type} {rank : α → ℕ}

/-- One copy is taken, and copies of lower rank take its place. -/
def Replaces (rank : α → ℕ) (s s' : List α) : Prop :=
  ∃ (i : ℕ) (a : α) (new : List α), s[i]? = some a ∧ s' = s.eraseIdx i ++ new ∧
    ∀ b ∈ new, rank b < rank a

theorem cutExpand_of_replaces {s s' : List α} (h : Replaces rank s s') :
    Relation.CutExpand (· < ·) (↑(s'.map rank) : Multiset ℕ) ↑(s.map rank) := by
  obtain ⟨i, a, new, hget, rfl, hlower⟩ := h
  refine ⟨↑(new.map rank), rank a, ?_, ?_⟩
  · intro b hb
    obtain ⟨c, hc, rfl⟩ := List.mem_map.mp (Multiset.mem_coe.mp hb)
    exact hlower c hc
  · obtain ⟨hlt, rfl⟩ := List.getElem?_eq_some_iff.mp hget
    have hperm : (s[i] :: s.eraseIdx i).Perm s := List.getElem_cons_eraseIdx_perm hlt
    have hsame : (↑(s.map rank) : Multiset ℕ) = ↑((s[i] :: s.eraseIdx i).map rank) :=
      Multiset.coe_eq_coe.mpr (hperm.map rank).symm
    rw [hsame, List.map_append, ← Multiset.coe_add, List.map_cons, ← Multiset.cons_coe,
      ← Multiset.singleton_add, add_comm, ← add_assoc]

/-- Only finitely many copies can be taken one after the other. -/
theorem wellFounded_replaces (rank : α → ℕ) : WellFounded fun s' s => Replaces rank s s' := by
  have hwf : WellFounded (Relation.CutExpand (· < · : ℕ → ℕ → Prop)) :=
    WellFounded.cutExpand Nat.lt_wfRel.wf
  exact Subrelation.wf (fun h => cutExpand_of_replaces h)
    (InvImage.wf (fun s : List α => (↑(s.map rank) : Multiset ℕ)) hwf)

theorem exists_not_replaces (rank : α → ℕ) (run : ℕ → List α) :
    ∃ n, ¬ Replaces rank (run n) (run (n + 1)) := by
  have hchain := wellFounded_iff_isEmpty_descending_chain.mp (wellFounded_replaces rank)
  by_contra hall
  push Not at hall
  exact hchain.elim ⟨run, hall⟩

end

/-! ## Routes -/

/-- A flood whose copies carry their routes: those under way and those that
were taken. -/
structure Spread (κ : Type) where
  flying : List (List κ)
  done : List (List κ)

namespace Spread

variable {κ : Type}

/-- The first copies go out over the given hops. -/
def start (hops : List κ) : Spread κ := ⟨hops.map fun hop => [hop], [[]]⟩

/-- A copy is taken, and new copies go on over the given hops. -/
def take (s : Spread κ) (i : ℕ) (route : List κ) (hops : List κ) : Spread κ where
  flying := s.flying.eraseIdx i ++ hops.map fun hop => route ++ [hop]
  done := s.done ++ [route]

/-- No route occurs twice, and a copy goes on from where one was taken. -/
structure Proper (s : Spread κ) : Prop where
  nodup : (s.done ++ s.flying).Nodup
  origin : ∀ route hop, route ++ [hop] ∈ s.done ++ s.flying → route ∈ s.done

theorem proper_start {hops : List κ} (h : hops.Nodup) : (start hops).Proper := by
  refine ⟨?_, ?_⟩
  · unfold start
    rw [List.singleton_append, List.nodup_cons]
    refine ⟨by simp, h.map fun a b hab => ?_⟩
    simpa using hab
  · intro route hop hmem
    unfold start at hmem ⊢
    simp only [List.singleton_append, List.mem_cons, List.append_eq_nil_iff, List.cons_ne_self,
      and_false, false_or, List.mem_map] at hmem
    obtain ⟨other, -, heq⟩ := hmem
    have hlength := congrArg List.length heq
    rw [List.length_append, List.length_singleton, List.length_singleton] at hlength
    have hnil : route = [] := List.eq_nil_of_length_eq_zero (by omega)
    rw [hnil]
    exact List.mem_singleton_self _

theorem Proper.take {s : Spread κ} (h : s.Proper) {i : ℕ} {route : List κ}
    (hget : s.flying[i]? = some route) {hops : List κ} (hhops : hops.Nodup) :
    (s.take i route hops).Proper := by
  obtain ⟨hlt, rfl⟩ := List.getElem?_eq_some_iff.mp hget
  have hperm : (s.flying[i] :: s.flying.eraseIdx i).Perm s.flying :=
    List.getElem_cons_eraseIdx_perm hlt
  -- the copies before the step, with the one that is taken among those that were
  have hall : ((s.done ++ [s.flying[i]]) ++ s.flying.eraseIdx i).Perm (s.done ++ s.flying) := by
    rw [List.append_assoc]
    exact hperm.append_left s.done
  have hnodup := hall.nodup_iff.mpr h.nodup
  have hfresh : s.flying[i] ∉ s.done := fun hdone =>
    List.disjoint_of_nodup_append h.nodup hdone (List.getElem_mem hlt)
  refine ⟨?_, ?_⟩
  · show ((s.done ++ [s.flying[i]]) ++ (s.flying.eraseIdx i ++ _)).Nodup
    rw [← List.append_assoc, List.nodup_append']
    refine ⟨hnodup, hhops.map fun a b hab => by simpa using hab, ?_⟩
    -- a copy that goes on from here was not there before
    intro r hold hnew
    obtain ⟨hop, -, rfl⟩ := List.mem_map.mp hnew
    exact hfresh (h.origin _ hop (hall.mem_iff.mp hold))
  · intro r hop hmem
    have hsplit : r ++ [hop] ∈ ((s.done ++ [s.flying[i]]) ++ s.flying.eraseIdx i) ∨
        r ++ [hop] ∈ hops.map fun hop => s.flying[i] ++ [hop] := by
      rw [← List.mem_append, List.append_assoc]
      exact hmem
    show r ∈ s.done ++ [s.flying[i]]
    rcases hsplit with hold | hnew
    · exact List.mem_append_left _ (h.origin r hop (hall.mem_iff.mp hold))
    · obtain ⟨other, -, heq⟩ := List.mem_map.mp hnew
      obtain ⟨rfl, -⟩ := List.append_inj' heq rfl
      exact List.mem_append_right _ (List.mem_singleton_self _)

end Spread

/-! ## Waves -/

section

variable {ν : Type} {link : ν → ν → Prop} {o : ν}

/-- At most so many hops lead from the origin to the node. -/
inductive Within (link : ν → ν → Prop) (o : ν) : ℕ → ν → Prop
  | origin (n : ℕ) : Within link o n o
  | hop {n : ℕ} {y x : ν} (h : Within link o n y) (hlink : link y x) : Within link o (n + 1) x

theorem Within.mono {n m : ℕ} (hle : n ≤ m) {x : ν} (h : Within link o n x) :
    Within link o m x := by
  induction h generalizing m with
  | origin => exact .origin m
  | hop _ hlink ih =>
    obtain ⟨k, rfl⟩ := Nat.exists_eq_add_of_le hle
    rw [Nat.add_right_comm]
    exact .hop (ih (Nat.le_add_right _ k)) hlink

/-- The neighbours of the origin, and of each node that has the message and
passes it on, have it as well, or a copy for them is under way. -/
def Spreads (link : ν → ν → Prop) (o : ν) (passes has coming : ν → Prop) : Prop :=
  ∀ y x, y = o ∨ has y ∧ passes y → link y x → x = o ∨ has x ∨ coming x

/-- Where nothing is under way any more, every node in range has the message if
all nodes that are nearer than the range pass it on. -/
theorem Spreads.within {passes has coming : ν → Prop} (h : Spreads link o passes has coming)
    (hquiet : ∀ x, ¬ coming x) {range n : ℕ} (hle : n ≤ range)
    (hpasses : ∀ m < range, ∀ x, Within link o m x → passes x) {x : ν} (hx : Within link o n x) :
    x = o ∨ has x := by
  induction hx with
  | origin => exact .inl rfl
  | @hop n y x hy hlink ih =>
    have hlt : n < range := Nat.lt_of_succ_le hle
    have hbefore : y = o ∨ has y ∧ passes y := by
      rcases ih hlt.le with rfl | hhas
      · exact .inl rfl
      · exact .inr ⟨hhas, hpasses n hlt y hy⟩
    rcases h y x hbefore hlink with rfl | hhas | hcoming
    · exact .inl rfl
    · exact .inr hhas
    · exact absurd hcoming (hquiet x)

end

/-! ## Copies that all go on -/

section

variable {ν : Type} {link : ν → ν → Prop} {o : ν}

/-- A way begins with its first hop. -/
theorem Within.first {n : ℕ} {x : ν} (h : Within link o n x) :
    x = o ∨ ∃ k y, n = k + 1 ∧ link o y ∧ Within link y k x := by
  induction h with
  | origin => exact .inl rfl
  | @hop n y x hy hlink ih =>
    rcases ih with rfl | ⟨k, z, rfl, hfirst, hrest⟩
    · exact .inr ⟨n, x, rfl, hlink, .origin n⟩
    · exact .inr ⟨k + 1, z, rfl, hfirst, .hop hrest hlink⟩

/-- A way need not come back to where it begins. -/
theorem Within.away {n : ℕ} {x : ν} (h : Within link o n x) (hne : x ≠ o) :
    ∃ k y, n = k + 1 ∧ link o y ∧ Within (fun a b => a ≠ o ∧ link a b) y k x := by
  induction h with
  | origin => exact absurd rfl hne
  | @hop n y x hy hlink ih =>
    by_cases hstart : y = o
    · exact ⟨n, x, rfl, hstart ▸ hlink, .origin n⟩
    · obtain ⟨k, z, rfl, hfirst, hrest⟩ := ih hstart
      exact ⟨k + 1, z, rfl, hfirst, .hop hrest ⟨hstart, hlink⟩⟩

variable {α : Type} {dest : α → ν} {hops : α → ℕ}

/-- A copy is under way whose hops that are left lead to the node. -/
def Heading (link : ν → ν → Prop) (dest : α → ν) (hops : α → ℕ) (copies : List α) (x : ν) : Prop :=
  ∃ c ∈ copies, Within link (dest c) (hops c) x

/-- A copy is taken, and goes on to all neighbours with one hop less. -/
theorem Heading.take {copies new : List α} {i : ℕ} {c : α} {x : ν} (hget : copies[i]? = some c)
    (hnew : ∀ y k, hops c = k + 1 → link (dest c) y → ∃ c' ∈ new, dest c' = y ∧ hops c' = k)
    (h : Heading link dest hops copies x) :
    x = dest c ∨ Heading link dest hops (copies.eraseIdx i ++ new) x := by
  obtain ⟨b, hb, hway⟩ := h
  obtain ⟨hlt, rfl⟩ := List.getElem?_eq_some_iff.mp hget
  have hperm : (copies[i] :: copies.eraseIdx i).Perm copies := List.getElem_cons_eraseIdx_perm hlt
  rcases List.mem_cons.mp (hperm.mem_iff.mpr hb) with rfl | hrest
  · -- the copy that is taken is the one that leads to the node
    rcases hway.first with hhere | ⟨k, y, hhops, hlink, hway'⟩
    · exact .inl hhere
    · obtain ⟨c', hc', rfl, rfl⟩ := hnew y k hhops hlink
      exact .inr ⟨c', List.mem_append_right _ hc', hway'⟩
  · exact .inr ⟨b, List.mem_append_left _ hrest, hway⟩

end

/-- Distinct things that are all equal are one at most. -/
theorem length_le_one {α : Type} {l : List α} (hnodup : l.Nodup)
    (hsame : ∀ a ∈ l, ∀ b ∈ l, a = b) : l.length ≤ 1 := by
  match l, hnodup with
  | [], _ => exact Nat.zero_le 1
  | [_], _ => exact le_rfl
  | a :: b :: rest, hnodup =>
    have heq : a = b := hsame a (by simp) b (by simp)
    exact absurd (by simp [heq]) (List.nodup_cons.mp hnodup).1

end flooding
