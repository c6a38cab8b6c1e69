-- `_deep_merge` of `daemon/config.py`, which changes dictionaries in place, and
-- what it leaves of a dictionary whose shallow copy it changes.
import BitchatNode.Python.ShallowCopy
import BitchatNode.Python.Bytes

namespace daemon.config

open python python.heap

/-! ## Values -/

/-- A key of a mapping, as Python compares keys: `True` is 1. -/
inductive Key
  | str (s : Str)
  | int (n : Int)
  /-- Any other key, by a number. -/
  | other (n : Nat)
deriving DecidableEq

/-- What a mapping can have under a key besides a mapping. No list is changed
in place. -/
inductive Leaf
  | null
  | bool (b : Bool)
  | int (n : Int)
  | str (s : Str)
  | list (xs : List Str)
  /-- Any other value, by a number. -/
  | other (n : Nat)
deriving DecidableEq

abbrev Value := Tree Key Leaf

abbrev Mapping := List (Key × Value)

abbrev Memory := Heap Key Leaf

def key (name : String) : Key := .str name.toList

/-! ## Merging -/

mutual

/-- One turn of the loop of `_deep_merge`. -/
def merge_entry (heap : Memory) (base : Nat) (k : Key) : Value → Memory
  -- null values from YAML are skipped
  | .leaf x => if x = .null then heap else heap.put base k (.leaf x)
  | .dict overlay =>
    match heap.item base k with
    | some (.dict a) => deep_merge heap a overlay
    | _ => (heap.alloc (.dict overlay)).2.put base k (heap.alloc (.dict overlay)).1

/-- `_deep_merge`. What the overlay holds was read from the file, and nothing
else holds it. -/
def deep_merge (heap : Memory) (base : Nat) : Mapping → Memory
  | [] => heap
  | (k, v) :: overlay => deep_merge (merge_entry heap base k v) base overlay

end

mutual

/-- The mapping with one value laid over it. -/
def overlay_entry (base : Mapping) (k : Key) : Value → Mapping
  | .leaf x => if x = .null then base else Dict.write k (.leaf x) base
  | .dict above =>
    match entry k base with
    | some (.dict inner) => Dict.write k (.dict (overlay inner above)) base
    | _ => Dict.write k (.dict above) base

/-- The mapping with the values of another one laid over it. -/
def overlay (base : Mapping) : Mapping → Mapping
  | [] => base
  | (k, v) :: above => overlay (overlay_entry base k v) above

end

/-- Wherever a dictionary is merged with the value, it shows what the value
over its entries shows, and only what it owns has changed. -/
def Merges (v : Value) : Prop :=
  ∀ {heap : Memory} {base : Nat} {entries : Mapping} {own : Finset Nat} (k : Key),
    Holds heap (.dict base) (.dict entries) own →
      ∃ own', Holds (merge_entry heap base k v) (.dict base) (.dict (overlay_entry entries k v))
        own' ∧ Evolves heap own (merge_entry heap base k v) own'

theorem merges_each {above : Mapping} (h : ∀ e ∈ above, Merges e.2) {heap : Memory} {base : Nat}
    {entries : Mapping} {own : Finset Nat} (hholds : Holds heap (.dict base) (.dict entries) own) :
    ∃ own', Holds (deep_merge heap base above) (.dict base) (.dict (overlay entries above)) own' ∧
      Evolves heap own (deep_merge heap base above) own' := by
  induction above generalizing heap entries own with
  | nil => exact ⟨own, hholds, .refl heap own⟩
  | cons e above ih =>
    obtain ⟨k, v⟩ := e
    obtain ⟨own', hfirst, hbefore⟩ := h (k, v) List.mem_cons_self k hholds
    obtain ⟨own'', hrest, hafter⟩ := ih (fun e he => h e (List.mem_cons_of_mem _ he)) hfirst
    simp only [deep_merge, overlay]
    exact ⟨own'', hrest, hbefore.trans hafter⟩

/-- A new dictionary is written under the key. -/
theorem holds_put_alloc {heap : Memory} {base : Nat} {entries : Mapping} {own : Finset Nat}
    (h : Holds heap (.dict base) (.dict entries) own) (k : Key) (v : Value) :
    ∃ own', Holds ((heap.alloc v).2.put base k (heap.alloc v).1) (.dict base)
        (.dict (Dict.write k v entries)) own' ∧
      Evolves heap own ((heap.alloc v).2.put base k (heap.alloc v).1) own' := by
  obtain ⟨part, hnew, hevolves⟩ := holds_alloc v heap
  exact h.put hnew hevolves k

theorem merges (v : Value) : Merges v := by
  induction v using Tree.induction with
  | leaf x =>
    intro heap base entries own k hholds
    unfold merge_entry overlay_entry
    split
    · exact ⟨own, hholds, .refl heap own⟩
    · exact hholds.put (.leaf x) (.refl heap ∅) k
  | dict above ih =>
    intro heap base entries own k hholds
    unfold merge_entry overlay_entry
    rcases hholds.item k with ⟨hitem, hentry⟩ | ⟨r, t, part, hitem, hentry, hpart⟩
    · rw [hitem, hentry]
      exact holds_put_alloc hholds k (.dict above)
    · cases hpart with
      | leaf x =>
        rw [hitem, hentry]
        exact holds_put_alloc hholds k (.dict above)
      | dict read all apart =>
        -- the value under the key is a dictionary and changes in place
        obtain ⟨r, part, hitem', hpart', hchange⟩ := hholds.update hentry
        rw [hitem] at hitem'
        cases hitem'
        rw [hitem, hentry]
        obtain ⟨part', hmerged, hevolves⟩ := merges_each ih hpart'
        exact hchange hmerged hevolves

theorem holds_deep_merge {heap : Memory} {base : Nat} {entries : Mapping} {own : Finset Nat}
    (h : Holds heap (.dict base) (.dict entries) own) (above : Mapping) :
    ∃ own', Holds (deep_merge heap base above) (.dict base) (.dict (overlay entries above)) own' ∧
      Evolves heap own (deep_merge heap base above) own' := merges_each (fun e _ => merges e.2) h

/-! ## What an overlay gives -/

theorem entry_overlay_entry_ne (base : Mapping) {k k' : Key} (hk : k ≠ k') (v : Value) :
    entry k' (overlay_entry base k v) = entry k' base := by
  have hwrite : ∀ w : Value, entry k' (Dict.write k w base) = entry k' base := fun w => by
    rw [entry_write, if_neg hk]
  cases v with
  | leaf x =>
    unfold overlay_entry
    split
    · rfl
    · exact hwrite _
  | dict above =>
    unfold overlay_entry
    split
    · exact hwrite _
    · exact hwrite _

/-- What an entry becomes depends on nothing but itself. -/
theorem entry_overlay_entry_congr {base base' : Mapping} {k : Key}
    (h : entry k base = entry k base') (v : Value) :
    entry k (overlay_entry base k v) = entry k (overlay_entry base' k v) := by
  cases v with
  | leaf x =>
    unfold overlay_entry
    split
    · exact h
    · simp [entry_write]
  | dict above =>
    unfold overlay_entry
    rw [h]
    split <;> simp [entry_write]

/-- Under each key stands what the value under that key makes of the entry. -/
theorem entry_overlay {above : Mapping} (hnodup : (above.map Prod.fst).Nodup) (base : Mapping)
    (k : Key) :
    entry k (overlay base above) =
      match entry k above with
      | none => entry k base
      | some v => entry k (overlay_entry base k v) := by
  induction above generalizing base with
  | nil => rfl
  | cons e above ih =>
    obtain ⟨k', v'⟩ := e
    rw [List.map_cons, List.nodup_cons] at hnodup
    rw [overlay, ih hnodup.2]
    by_cases hk : k' = k
    · subst hk
      have hrest : entry k' above = none := entry_eq_none hnodup.1
      rw [hrest]
      simp [entry]
    · have hhead : entry k ((k', v') :: above) = entry k above := by simp [entry, hk]
      rw [hhead]
      rcases entry k above with _ | v
      · exact entry_overlay_entry_ne base hk v'
      · exact entry_overlay_entry_congr (entry_overlay_entry_ne base hk v') v

/-- The value at a path. -/
def at_path : Value → List Key → Option Value
  | t, [] => some t
  | .leaf _, _ :: _ => none
  | .dict entries, k :: path => (entry k entries).bind (at_path · path)

/-- A value of the overlay that is neither null nor a mapping is there. -/
theorem at_path_overlay_of_leaf {path : List Key} {x : Leaf} (hx : x ≠ .null) {base above : Mapping}
    (htidy : Tidy (.dict above)) (h : at_path (.dict above) path = some (.leaf x)) :
    at_path (.dict (overlay base above)) path = some (.leaf x) := by
  induction path generalizing base above with
  | nil => cases h
  | cons k path ih =>
    cases htidy with
    | dict nodup all =>
      simp only [at_path] at h ⊢
      rcases hk : entry k above with _ | v
      · rw [hk] at h
        cases h
      · rw [hk, Option.bind_some] at h
        rw [entry_overlay nodup, hk]
        cases v with
        | leaf y =>
          rcases path with _ | ⟨k', path⟩
          · cases h
            simp [overlay_entry, hx, entry_write, at_path]
          · cases h
        | dict inner =>
          simp only [overlay_entry]
          split
          · rename_i below hbelow
            rcases path with _ | ⟨k', path⟩
            · cases h
            · rw [entry_write, if_pos rfl, Option.bind_some]
              exact ih (all _ (mem_of_entry hk)) h
          · rw [entry_write, if_pos rfl, Option.bind_some]
            exact h

/-- The overlay has nothing at the path, or null, and no other value on the
way to it. -/
inductive Passes : Mapping → List Key → Prop
  | absent {above : Mapping} {k : Key} {path : List Key} (h : entry k above = none) :
    Passes above (k :: path)
  | null {above : Mapping} {k : Key} {path : List Key} (h : entry k above = some (.leaf .null)) :
    Passes above (k :: path)
  | inside {above inner : Mapping} {k : Key} {path : List Key}
      (h : entry k above = some (.dict inner)) (rest : Passes inner path) : Passes above (k :: path)

/-- There the value below shows through. -/
theorem at_path_overlay_of_passes {path : List Key} {x : Leaf} {base above : Mapping}
    (htidy : Tidy (.dict above)) (hpasses : Passes above path)
    (h : at_path (.dict base) path = some (.leaf x)) :
    at_path (.dict (overlay base above)) path = some (.leaf x) := by
  induction hpasses generalizing base with
  | absent habsent =>
    cases htidy with
    | dict nodup all =>
      rw [at_path, entry_overlay nodup, habsent]
      exact h
  | null hnull =>
    cases htidy with
    | dict nodup all =>
      rw [at_path, entry_overlay nodup, hnull]
      exact h
  | @inside above inner k path hinner rest ih =>
    cases htidy with
    | dict nodup all =>
      rw [at_path, entry_overlay nodup, hinner]
      rw [at_path] at h
      rcases hk : entry k base with _ | below
      · rw [hk] at h
        cases h
      · rw [hk, Option.bind_some] at h
        cases below with
        | leaf y =>
          cases rest <;> cases h
        | dict below =>
          simp only [overlay_entry, hk]
          rw [entry_write, if_pos rfl, Option.bind_some]
          exact ih (all _ (mem_of_entry hinner)) h

/-! ## Merging into a shallow copy -/

/-- One turn of the loop, on a copy that shares some of its values. -/
def merged_entry (s : Sharing Key Leaf) (k : Key) : Value → Sharing Key Leaf
  | .leaf x => if x = .null then s else s.put k (.leaf x)
  | .dict above =>
    match entry k s.shown with
    | some (.dict inner) => s.update k (.dict (overlay inner above))
    | _ => s.put k (.dict above)

def merged (s : Sharing Key Leaf) (above : Mapping) : Sharing Key Leaf :=
  above.foldl (fun s e => merged_entry s e.1 e.2) s

theorem shares_merge_entry {heap : Memory} {d c : Nat} {s : Sharing Key Leaf}
    (h : Shares heap d c s) (k : Key) (v : Value) :
    Shares (merge_entry heap c k v) d c (merged_entry s k v) := by
  cases v with
  | leaf x =>
    simp only [merge_entry, merged_entry]
    split
    · exact h
    · exact h.put (.leaf x) (.refl heap ∅) k
  | dict above =>
    have hnew : Shares ((heap.alloc (.dict above)).2.put c k (heap.alloc (.dict above)).1) d c
        (s.put k (.dict above)) := by
      obtain ⟨part, hholds, hevolves⟩ := holds_alloc (.dict above) heap
      exact h.put hholds hevolves k
    simp only [merge_entry, merged_entry]
    rcases h.focus k with ⟨hitem, hentry⟩ | ⟨r, t, part, hitem, hentry, hholds, hchange⟩
    · rw [hitem, hentry]
      exact hnew
    · cases t with
      | leaf x =>
        cases hholds
        rw [hitem, hentry]
        exact hnew
      | dict inner =>
        rcases r with y | a
        · cases hholds
        · rw [hitem, hentry]
          obtain ⟨part', hmerged, hevolves⟩ := holds_deep_merge hholds above
          exact hchange hmerged hevolves

theorem shares_deep_merge {heap : Memory} {d c : Nat} {s : Sharing Key Leaf}
    (h : Shares heap d c s) (above : Mapping) :
    Shares (deep_merge heap c above) d c (merged s above) := by
  induction above generalizing heap s with
  | nil => exact h
  | cons e above ih => exact ih (shares_merge_entry h e.1 e.2)

/-- The copy was taken of a dictionary with these entries: what is shared is
under their keys, and what is not shared is in the original as it was. -/
structure CopyOf (base : Mapping) (s : Sharing Key Leaf) : Prop where
  nodup : (s.copy.map Prod.fst).Nodup
  keys : s.original.map Prod.fst = base.map Prod.fst
  shared : ∀ k, entry k s.copy = some none → k ∈ base.map Prod.fst

theorem nodup_write {V : Type} {es : List (Key × V)} (h : (es.map Prod.fst).Nodup) (k : Key)
    (v : V) : ((Dict.write k v es).map Prod.fst).Nodup := ((Dict.mk es h).set k v).nodup

theorem map_fst_write_of_mem {V : Type} {k : Key} {v : V} {es : List (Key × V)}
    (h : k ∈ es.map Prod.fst) : (Dict.write k v es).map Prod.fst = es.map Prod.fst := by
  rw [Dict.map_fst_write, if_pos h]

section

variable {base : Mapping} {s : Sharing Key Leaf}

theorem CopyOf.put (h : CopyOf base s) (k : Key) (v : Value) : CopyOf base (s.put k v) where
  nodup := nodup_write h.nodup k (some v)
  keys := h.keys
  shared k' hk' := by
    have hwrite : entry k' (Dict.write k (some v) s.copy) = some none := hk'
    rw [entry_write] at hwrite
    split at hwrite
    · cases hwrite
    · exact h.shared k' hwrite

theorem CopyOf.update (h : CopyOf base s) (k : Key) (v : Value) : CopyOf base (s.update k v) := by
  unfold Sharing.update
  split
  · rename_i hshared
    refine ⟨h.nodup, ?_, h.shared⟩
    have hmem : k ∈ s.original.map Prod.fst := by
      rw [h.keys]
      exact h.shared k hshared
    exact (map_fst_write_of_mem hmem).trans h.keys
  · exact h.put k v

theorem CopyOf.merged_entry (h : CopyOf base s) (k : Key) (v : Value) :
    CopyOf base (merged_entry s k v) := by
  cases v with
  | leaf x =>
    simp only [config.merged_entry]
    split
    · exact h
    · exact h.put k _
  | dict above =>
    simp only [config.merged_entry]
    split
    · exact h.update k _
    · exact h.put k _

theorem CopyOf.merged (h : CopyOf base s) (above : Mapping) : CopyOf base (merged s above) := by
  induction above generalizing s with
  | nil => exact h
  | cons e above ih => exact ih (h.merged_entry e.1 e.2)

/-- The copy shows what it would show if nothing was shared. -/
theorem shown_merged_entry (h : CopyOf base s) (k : Key) (v : Value) :
    (merged_entry s k v).shown = overlay_entry s.shown k v := by
  cases v with
  | leaf x =>
    simp only [merged_entry, overlay_entry]
    split
    · rfl
    · exact s.shown_put k _
  | dict above =>
    simp only [merged_entry, overlay_entry]
    rcases hentry : entry k s.shown with _ | x | inner
    · exact s.shown_put k _
    · exact s.shown_put k _
    · have hne : entry k s.shown ≠ none := by simp [hentry]
      exact Sharing.shown_update h.nodup _ hne

theorem shown_merged (h : CopyOf base s) (above : Mapping) :
    (merged s above).shown = overlay s.shown above := by
  induction above generalizing s with
  | nil => rfl
  | cons e above ih =>
    have hrest := ih (h.merged_entry e.1 e.2)
    rw [shown_merged_entry h] at hrest
    exact hrest

end

/-- The two copies are alike under the key. -/
def SameAt (k : Key) (s s' : Sharing Key Leaf) : Prop :=
  entry k s.original = entry k s'.original ∧ entry k s.copy = entry k s'.copy

theorem sameAt_put_ne (s : Sharing Key Leaf) {k k' : Key} (hk : k ≠ k') (v : Value) :
    SameAt k' (s.put k v) s := by
  refine ⟨rfl, ?_⟩
  show entry k' (Dict.write k (some v) s.copy) = _
  rw [entry_write, if_neg hk]

theorem sameAt_update_ne (s : Sharing Key Leaf) {k k' : Key} (hk : k ≠ k') (v : Value) :
    SameAt k' (s.update k v) s := by
  unfold Sharing.update
  split
  · refine ⟨?_, rfl⟩
    show entry k' (Dict.write k v s.original) = _
    rw [entry_write, if_neg hk]
  · exact sameAt_put_ne s hk v

theorem sameAt_merged_entry_ne (s : Sharing Key Leaf) {k k' : Key} (hk : k ≠ k') (v : Value) :
    SameAt k' (merged_entry s k v) s := by
  cases v with
  | leaf x =>
    simp only [merged_entry]
    split
    · exact ⟨rfl, rfl⟩
    · exact sameAt_put_ne s hk _
  | dict above =>
    simp only [merged_entry]
    split
    · exact sameAt_update_ne s hk _
    · exact sameAt_put_ne s hk _

theorem SameAt.put {k : Key} {s s' : Sharing Key Leaf} (h : SameAt k s s') (v : Value) :
    SameAt k (s.put k v) (s'.put k v) := by
  refine ⟨h.1, ?_⟩
  show entry k (Dict.write k (some v) s.copy) = entry k (Dict.write k (some v) s'.copy)
  rw [entry_write, entry_write, if_pos rfl, if_pos rfl]

theorem SameAt.update {k : Key} {s s' : Sharing Key Leaf} (h : SameAt k s s') (v : Value) :
    SameAt k (s.update k v) (s'.update k v) := by
  unfold Sharing.update
  rw [h.2]
  split
  · refine ⟨?_, h.2⟩
    show entry k (Dict.write k v s.original) = entry k (Dict.write k v s'.original)
    rw [entry_write, entry_write, if_pos rfl, if_pos rfl]
  · exact h.put v

theorem SameAt.shown {k : Key} {s s' : Sharing Key Leaf} (h : SameAt k s s') :
    entry k s.shown = entry k s'.shown := by
  rw [Sharing.entry_shown, Sharing.entry_shown, h.2]
  congr 1
  funext o
  rw [shared_value, shared_value, h.1]

theorem SameAt.merged_entry {k : Key} {s s' : Sharing Key Leaf} (h : SameAt k s s') (v : Value) :
    SameAt k (merged_entry s k v) (merged_entry s' k v) := by
  cases v with
  | leaf x =>
    simp only [config.merged_entry]
    split
    · exact h
    · exact h.put _
  | dict above =>
    simp only [config.merged_entry, h.shown]
    split
    · exact h.update _
    · exact h.put _

theorem SameAt.trans {k : Key} {s s' s'' : Sharing Key Leaf} (h : SameAt k s s')
    (g : SameAt k s' s'') : SameAt k s s'' := ⟨h.1.trans g.1, h.2.trans g.2⟩

/-- Under each key only the value under that key was merged. -/
theorem merged_at {above : Mapping} (hnodup : (above.map Prod.fst).Nodup) (s : Sharing Key Leaf)
    (k : Key) :
    SameAt k (merged s above)
      (match entry k above with
      | none => s
      | some v => merged_entry s k v) := by
  induction above generalizing s with
  | nil => exact ⟨rfl, rfl⟩
  | cons e above ih =>
    obtain ⟨k', v'⟩ := e
    rw [List.map_cons, List.nodup_cons] at hnodup
    have hrest := ih hnodup.2 (merged_entry s k' v')
    by_cases hk : k' = k
    · subst hk
      rw [entry_eq_none hnodup.1] at hrest
      have hhead : entry k' ((k', v') :: above) = some v' := by simp [entry]
      rw [hhead]
      exact hrest
    · have hhead : entry k ((k', v') :: above) = entry k above := by simp [entry, hk]
      have hsame := sameAt_merged_entry_ne s hk v'
      rw [hhead]
      rcases hover : entry k above with _ | v
      · rw [hover] at hrest
        exact hrest.trans hsame
      · rw [hover] at hrest
        exact hrest.trans (hsame.merged_entry v)

/-- The overlay puts another value in the place of a section. -/
def Replaces (above : Mapping) (k : Key) : Prop := ∃ x, x ≠ .null ∧ entry k above = some (.leaf x)

/-- A copy that was just taken. -/
def copied (base : Mapping) : Sharing Key Leaf := ⟨base, base.map fun e => (e.1, none)⟩

theorem entry_copied (base : Mapping) (k : Key) :
    entry k (copied base).copy = (entry k base).map fun _ => none :=
  entry_map (fun (_ : Key) (_ : Value) => (none : Option Value)) k base

theorem shown_copied {base : Mapping} (hnodup : (base.map Prod.fst).Nodup) :
    (copied base).shown = base := by
  unfold Sharing.shown copied
  rw [List.map_map]
  conv_rhs => rw [← List.map_id base]
  refine List.map_congr_left fun e he => ?_
  have hentry : entry e.1 base = some e.2 := (Dict.mem_entries_iff ⟨base, hnodup⟩).mp he
  simp [shared_value, hentry]

theorem copyOf_copied {base : Mapping} (hnodup : (base.map Prod.fst).Nodup) :
    CopyOf base (copied base) where
  nodup := by simpa [copied, Function.comp_def] using hnodup
  keys := rfl
  shared k hk := by
    by_contra hnot
    rw [entry_copied, entry_eq_none hnot] at hk
    cases hk

section

variable {base above inner : Mapping} {k : Key}

/-- A section that is not replaced is still shared. -/
theorem shared_merged (hnodup : (above.map Prod.fst).Nodup)
    (hbase : entry k base = some (.dict inner)) (hkeeps : ¬ Replaces above k) :
    entry k (merged (copied base) above).copy = some none := by
  have hcopy : entry k (copied base).copy = some none := by
    rw [entry_copied, hbase, Option.map_some]
  have hshown : entry k (copied base).shown = some (.dict inner) := by
    rw [Sharing.entry_shown, hcopy, Option.map_some, shared_value]
    show some ((entry k base).getD _) = _
    rw [hbase, Option.getD_some]
  rw [(merged_at hnodup (copied base) k).2]
  rcases hover : entry k above with _ | x | inside
  · exact hcopy
  · have hnull : x = .null := by
      by_contra hx
      exact hkeeps ⟨x, hx, hover⟩
    simp only [merged_entry, if_pos hnull]
    exact hcopy
  · simp only [merged_entry, hshown, Sharing.update, hcopy]

/-- A section that is replaced is left alone. -/
theorem kept_merged (hnodup : (above.map Prod.fst).Nodup) (hreplaces : Replaces above k)
    (base : Mapping) :
    entry k (merged (copied base) above).original = entry k base ∧
      ∃ x, entry k (merged (copied base) above).copy = some (some (.leaf x)) := by
  obtain ⟨x, hx, hover⟩ := hreplaces
  have hsame := merged_at hnodup (copied base) k
  rw [hover] at hsame
  simp only [merged_entry, if_neg hx] at hsame
  refine ⟨hsame.1, x, hsame.2.trans ?_⟩
  show entry k (Dict.write k (some (Tree.leaf x)) _) = _
  rw [entry_write, if_pos rfl]

end

end daemon.config
