-- Insertion-ordered dictionaries with each key at most once. A write to a key
-- that is there keeps its place (an `AList` would move it to the front), and
-- a new key goes to the end.
import Mathlib.Data.List.Nodup
import Mathlib.Data.List.Basic

namespace python

variable {K V : Type}

structure Dict (K V : Type) where
  entries : List (K × V)
  nodup : (entries.map Prod.fst).Nodup

namespace Dict

def empty : Dict K V := ⟨[], List.nodup_nil⟩

def keys (d : Dict K V) : List K := d.entries.map Prod.fst

def size (d : Dict K V) : Nat := d.entries.length

theorem size_eq_length_keys (d : Dict K V) : d.size = d.keys.length := by
  simp [size, keys]

theorem keys_nodup (d : Dict K V) : d.keys.Nodup := d.nodup

variable [DecidableEq K]

/-- The list with the value of `k` written, in place or at the end. -/
def write (k : K) (v : V) : List (K × V) → List (K × V)
  | [] => [(k, v)]
  | e :: es => if e.1 = k then (k, v) :: es else e :: write k v es

theorem map_fst_write (k : K) (v : V) (es : List (K × V)) :
    (write k v es).map Prod.fst =
      if k ∈ es.map Prod.fst then es.map Prod.fst else es.map Prod.fst ++ [k] := by
  induction es with
  | nil => simp [write]
  | cons e es ih =>
    by_cases h : e.1 = k
    · simp [write, h]
    · have h' : k ≠ e.1 := Ne.symm h
      simp only [write, h, if_false, List.map_cons, ih, List.mem_cons, h', false_or]
      split <;> simp

/-- `d[k]`, or `none` where Python raises `KeyError`. -/
def get? (d : Dict K V) (k : K) : Option V := (d.entries.find? fun e => e.1 = k).map Prod.snd

/-- `k in d`. -/
def has (d : Dict K V) (k : K) : Bool := (d.get? k).isSome

/-- `d[k] = v`. -/
def set (d : Dict K V) (k : K) (v : V) : Dict K V where
  entries := write k v d.entries
  nodup := by
    rw [map_fst_write]
    split
    · exact d.nodup
    · rename_i h
      simpa [List.nodup_append, d.nodup] using fun a x hx hax => h (by simp; exact ⟨x, hax ▸ hx⟩)

/-- `d.pop(k, None)`, and `del d[k]` where `k` is there. -/
def pop (d : Dict K V) (k : K) : Dict K V where
  entries := d.entries.filter fun e => e.1 ≠ k
  nodup := d.nodup.sublist (List.filter_sublist.map Prod.fst)

/-! ## Reading -/

@[simp] theorem get?_empty (k : K) : (empty : Dict K V).get? k = none := rfl

theorem entries_set_empty (k : K) (v : V) : ((empty : Dict K V).set k v).entries = [(k, v)] := rfl

theorem find?_write (k k' : K) (v : V) (es : List (K × V)) :
    ((write k v es).find? fun e => e.1 = k').map Prod.snd =
      if k = k' then some v else (es.find? fun e => e.1 = k').map Prod.snd := by
  induction es with
  | nil => by_cases h : k = k' <;> simp [write, h]
  | cons e es ih =>
    by_cases he : e.1 = k
    · by_cases h : k = k' <;> simp [write, he, h]
    · simp only [write, he, if_false]
      by_cases he' : e.1 = k'
      · have h : k ≠ k' := fun h => he (he'.trans h.symm)
        simp [he', h]
      · simpa [he'] using ih

theorem get?_set (d : Dict K V) (k k' : K) (v : V) :
    (d.set k v).get? k' = if k = k' then some v else d.get? k' := find?_write k k' v d.entries

@[simp] theorem get?_set_self (d : Dict K V) (k : K) (v : V) : (d.set k v).get? k = some v := by
  simp [get?_set]

theorem write_eq_self {k : K} {v : V} {es : List (K × V)}
    (h : (es.find? fun e => e.1 = k).map Prod.snd = some v) : write k v es = es := by
  induction es with
  | nil => cases h
  | cons e es ih =>
    unfold write
    by_cases hk : e.1 = k
    · simp only [List.find?_cons, hk, decide_true, Option.map_some, Option.some.injEq] at h
      rw [if_pos hk, ← h, ← hk]
    · rw [if_neg hk, ih]
      simpa [List.find?_cons, hk] using h

/-- Writing what is there changes nothing. -/
theorem set_eq_self {d : Dict K V} {k : K} {v : V} (h : d.get? k = some v) : d.set k v = d := by
  unfold set
  simp only [write_eq_self h]

theorem get?_set_ne (d : Dict K V) {k k' : K} (v : V) (h : k ≠ k') :
    (d.set k v).get? k' = d.get? k' := by
  simp [get?_set, h]

theorem get?_pop (d : Dict K V) (k k' : K) :
    (d.pop k).get? k' = if k = k' then none else d.get? k' := by
  unfold get? pop
  simp only [List.find?_filter]
  split
  · rename_i h
    subst h
    simp
  · rename_i h
    congr 2
    funext e
    by_cases he : e.1 = k'
    · simp [he]
      exact fun hk => h hk.symm
    · simp [he]

@[simp] theorem get?_pop_self (d : Dict K V) (k : K) : (d.pop k).get? k = none := by
  simp [get?_pop]

theorem get?_pop_ne (d : Dict K V) {k k' : K} (h : k ≠ k') : (d.pop k).get? k' = d.get? k' := by
  simp [get?_pop, h]

theorem has_eq_false_iff (d : Dict K V) (k : K) : d.has k = false ↔ d.get? k = none := by
  simp [has]

/-- Taking out a key that is not there changes nothing. -/
theorem pop_eq_self_iff (d : Dict K V) (k : K) : d.pop k = d ↔ d.has k = false := by
  rw [has_eq_false_iff]
  constructor
  · intro h
    rw [← h, get?_pop_self]
  · intro h
    have hentries : (d.pop k).entries = d.entries := by
      show d.entries.filter _ = d.entries
      rw [List.filter_eq_self]
      intro e he
      simp only [get?, Option.map_eq_none_iff, List.find?_eq_none] at h
      simpa using h e he
    cases d
    simpa [pop] using hentries

/-- Taking out several keys, one after the other. -/
theorem get?_foldl_pop (ks : List K) (d : Dict K V) (k : K) :
    (ks.foldl pop d).get? k = if k ∈ ks then none else d.get? k := by
  induction ks generalizing d with
  | nil => simp
  | cons k' ks ih =>
    rw [List.foldl_cons, ih, get?_pop]
    by_cases hmem : k ∈ ks
    · simp [hmem]
    · by_cases hk : k' = k
      · simp [hk]
      · simp [hmem, hk, Ne.symm hk]

theorem foldl_pop_eq_self_iff (ks : List K) (d : Dict K V) :
    ks.foldl pop d = d ↔ ∀ k ∈ ks, d.has k = false := by
  constructor
  · intro h k hk
    rw [has_eq_false_iff, ← h, get?_foldl_pop, if_pos hk]
  · intro h
    induction ks with
    | nil => rfl
    | cons k ks ih =>
      rw [List.foldl_cons, (d.pop_eq_self_iff k).mpr (h k List.mem_cons_self)]
      exact ih fun k' hk' => h k' (List.mem_cons_of_mem _ hk')

theorem has_set_self (d : Dict K V) (k : K) (v : V) : (d.set k v).has k = true := by
  unfold has
  rw [get?_set_self]
  rfl

theorem has_set_ne (d : Dict K V) {k k' : K} (v : V) (h : k ≠ k') :
    (d.set k v).has k' = d.has k' := by
  unfold has
  rw [get?_set_ne _ _ h]

theorem has_set_of_has (d : Dict K V) {k : K} (h : d.has k = true) (k' : K) (v : V) :
    (d.set k' v).has k = true := by
  by_cases hk : k' = k
  · rw [hk, has_set_self]
  · rw [has_set_ne d v hk]
    exact h

/-- An entry that is written again is still there. -/
theorem has_set_of_get? {d : Dict K V} {k : K} {v : V} (h : d.get? k = some v) (v' : V) (k' : K) :
    (d.set k v').has k' = d.has k' := by
  by_cases hk : k = k'
  · subst hk
    rw [has_set_self]
    unfold has
    rw [h]
    rfl
  · exact has_set_ne _ _ hk

theorem has_pop_self (d : Dict K V) (k : K) : (d.pop k).has k = false := by
  unfold has
  rw [get?_pop_self]
  rfl

theorem has_pop_ne (d : Dict K V) {k k' : K} (h : k ≠ k') : (d.pop k).has k' = d.has k' := by
  unfold has
  rw [get?_pop_ne _ h]

theorem mem_write {k : K} {v : V} {es : List (K × V)} {e : K × V} (h : e ∈ write k v es) :
    e = (k, v) ∨ e ∈ es := by
  induction es with
  | nil => exact Or.inl (List.mem_singleton.mp h)
  | cons e' es ih =>
    unfold write at h
    split at h
    · exact (List.mem_cons.mp h).imp_right (List.mem_cons_of_mem _)
    · rcases List.mem_cons.mp h with rfl | htail
      · exact Or.inr List.mem_cons_self
      · exact (ih htail).imp_right (List.mem_cons_of_mem _)

theorem mem_entries_pop {d : Dict K V} {k : K} {e : K × V} :
    e ∈ (d.pop k).entries ↔ e ∈ d.entries ∧ e.1 ≠ k := by
  show e ∈ d.entries.filter _ ↔ _
  rw [List.mem_filter, decide_eq_true_iff]

theorem mem_entries_iff (d : Dict K V) {k : K} {v : V} :
    (k, v) ∈ d.entries ↔ d.get? k = some v := by
  unfold get?
  constructor
  · intro h
    obtain ⟨e, he⟩ := Option.isSome_iff_exists.mp
      (List.find?_isSome (p := fun e => e.1 = k).mpr ⟨(k, v), h, by simp⟩)
    have hkey : e.1 = k := by simpa using List.find?_some he
    have hsame := List.inj_on_of_nodup_map d.nodup (List.mem_of_find?_eq_some he) h hkey
    rw [he, hsame]
    rfl
  · intro h
    obtain ⟨e, he, rfl⟩ := Option.map_eq_some_iff.mp h
    have hkey : e.1 = k := by simpa using List.find?_some he
    rw [← hkey]
    exact List.mem_of_find?_eq_some he

/-! ## Keys and size -/

theorem has_iff_mem_keys (d : Dict K V) (k : K) : d.has k = true ↔ k ∈ d.keys := by
  simp [has, get?, keys, List.find?_isSome]

theorem keys_set (d : Dict K V) (k : K) (v : V) :
    (d.set k v).keys = if d.has k then d.keys else d.keys ++ [k] := by
  simp only [has_iff_mem_keys]
  exact map_fst_write k v d.entries

/-! ## From a list -/

/-- The dictionary of the entries: of two with one key, the last. -/
def ofList (es : List (K × V)) : Dict K V := es.foldl (fun d e => d.set e.1 e.2) empty

theorem write_of_not_mem {k : K} {v : V} {es : List (K × V)} (h : k ∉ es.map Prod.fst) :
    write k v es = es ++ [(k, v)] := by
  induction es with
  | nil => rfl
  | cons e es ih =>
    simp only [List.map_cons, List.mem_cons, not_or] at h
    simp [write, Ne.symm h.1, ih h.2]

theorem entries_foldl_set (es : List (K × V)) (d : Dict K V)
    (h : ((d.entries ++ es).map Prod.fst).Nodup) :
    (es.foldl (fun d e => d.set e.1 e.2) d).entries = d.entries ++ es := by
  induction es generalizing d with
  | nil => simp
  | cons e es ih =>
    have hnew : e.1 ∉ d.entries.map Prod.fst := by
      intro hmem
      rw [List.map_append, List.nodup_append] at h
      exact h.2.2 _ hmem _ (List.mem_map_of_mem List.mem_cons_self) rfl
    have hset : (d.set e.1 e.2).entries = d.entries ++ [e] := write_of_not_mem hnew
    rw [List.foldl_cons, ih, hset, List.append_assoc, List.singleton_append]
    rwa [hset, List.append_assoc, List.singleton_append]

theorem entries_ofList {es : List (K × V)} (h : (es.map Prod.fst).Nodup) :
    (ofList es).entries = es := entries_foldl_set es empty h

theorem ofList_entries (d : Dict K V) : ofList d.entries = d := by
  have h := entries_ofList d.nodup
  rcases hd : ofList d.entries with ⟨entries, nodup⟩
  rw [hd] at h
  cases d
  cases h
  rfl

end Dict

end python
