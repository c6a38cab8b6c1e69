-- Dictionaries with an identity. Names and entries hold the address of a
-- dictionary, and a write to it shows wherever the address is held.
import BitchatNode.Python.Dict
import Mathlib.Data.Finset.Basic
import Mathlib.Data.Finset.Lattice.Lemmas

namespace python.heap

variable {K L : Type}

/-- What a name or an entry holds: a value that does not change, or the address
of a dictionary. -/
inductive Ref (L : Type)
  | leaf (x : L)
  | dict (address : Nat)

/-- The dictionaries, at their addresses. -/
abbrev Heap (K L : Type) := List (List (K × Ref L))

/-- A value without identity. -/
inductive Tree (K L : Type)
  | leaf (x : L)
  | dict (entries : List (K × Tree K L))

/-- What holds for a leaf, and for a dictionary of trees for which it holds,
holds for every tree. -/
theorem Tree.induction {motive : Tree K L → Prop} (leaf : ∀ x, motive (.leaf x))
    (dict : ∀ entries, (∀ e ∈ entries, motive e.2) → motive (.dict entries)) :
    ∀ t, motive t
  | .leaf x => leaf x
  | .dict entries => dict entries fun e _ => Tree.induction leaf dict e.2
termination_by t => sizeOf t
decreasing_by
  rename_i he
  have hlt := List.sizeOf_lt_of_mem he
  cases e
  simp only [Prod.mk.sizeOf_spec, Tree.dict.sizeOf_spec] at hlt ⊢
  omega

/-- No dictionary of the tree has a key twice. -/
inductive Tidy : Tree K L → Prop
  | leaf (x : L) : Tidy (.leaf x)
  | dict {entries : List (K × Tree K L)} (nodup : (entries.map Prod.fst).Nodup)
      (all : ∀ e ∈ entries, Tidy e.2) : Tidy (.dict entries)

/-! ## Reading -/

/-- What a reference shows, down to a depth. -/
def Heap.read (heap : Heap K L) : Nat → Ref L → Option (Tree K L)
  | _, .leaf x => some (.leaf x)
  | 0, .dict _ => none
  | n + 1, .dict a => do
    let refs ← heap[a]?
    let entries ← refs.mapM fun e => (heap.read n e.2).map (e.1, ·)
    some (.dict entries)

/-- What a reference shows. -/
def Shows (heap : Heap K L) (r : Ref L) (t : Tree K L) : Prop :=
  ∃ n, ∀ m, n ≤ m → heap.read m r = some t

theorem Shows.unique {heap : Heap K L} {r : Ref L} {t t' : Tree K L} (h : Shows heap r t)
    (h' : Shows heap r t') : t = t' := by
  obtain ⟨n, hn⟩ := h
  obtain ⟨n', hn'⟩ := h'
  exact Option.some.inj ((hn (max n n') (le_max_left n n')).symm.trans
    (hn' (max n n') (le_max_right n n')))

theorem shows_leaf (heap : Heap K L) (x : L) : Shows heap (.leaf x) (.leaf x) :=
  ⟨0, fun m _ => by cases m <;> rfl⟩

/-- A dictionary shows what its entries show. -/
theorem shows_dict {heap : Heap K L} {a : Nat} {refs : List (K × Ref L)}
    {entries : List (K × Tree K L)} (hread : heap[a]? = some refs)
    (hentries : List.Forall₂ (fun e e' => e.1 = e'.1 ∧ Shows heap e.2 e'.2) refs entries) :
    Shows heap (.dict a) (.dict entries) := by
  obtain ⟨n, hn⟩ : ∃ n, ∀ m, n ≤ m →
      refs.mapM (fun e => (heap.read m e.2).map (e.1, ·)) = some entries := by
    clear hread
    induction hentries with
    | nil => exact ⟨0, fun m _ => rfl⟩
    | @cons e e' refs entries head tail ih =>
      obtain ⟨n, hn⟩ := ih
      obtain ⟨hkey, n', hn'⟩ := head
      refine ⟨max n n', fun m hm => ?_⟩
      have hrest := hn m (le_trans (le_max_left n n') hm)
      have hfirst := hn' m (le_trans (le_max_right n n') hm)
      simp [List.mapM_cons, hfirst, hrest, hkey]
  refine ⟨n + 1, fun m hm => ?_⟩
  obtain ⟨m, rfl⟩ := Nat.exists_eq_succ_of_ne_zero (Nat.ne_of_gt (Nat.zero_lt_of_lt hm))
  simp [Heap.read, hread, hn m (Nat.le_of_succ_le_succ hm)]

/-! ## Ownership -/

/-- The entries of the two lists belong together, under the same keys and with
footprints that keep apart. -/
inductive AllHold {X : Type} (P : K → Ref L → X → Finset Nat → Prop) :
    List (K × Ref L) → List (K × X) → Finset Nat → Prop
  | nil : AllHold P [] [] ∅
  | cons {k : K} {r : Ref L} {x : X} {own rest : Finset Nat} {refs : List (K × Ref L)}
      {xs : List (K × X)} (head : P k r x own) (tail : AllHold P refs xs rest)
      (apart : Disjoint own rest) : AllHold P ((k, r) :: refs) ((k, x) :: xs) (own ∪ rest)

/-- The reference holds the tree, and the dictionaries at the addresses of the
footprint are its own: each is reached on one way only. -/
inductive Holds (heap : Heap K L) : Ref L → Tree K L → Finset Nat → Prop
  | leaf (x : L) : Holds heap (.leaf x) (.leaf x) ∅
  | dict {a : Nat} {refs : List (K × Ref L)} {entries : List (K × Tree K L)} {own : Finset Nat}
      (read : heap[a]? = some refs) (all : AllHold (fun _ => Holds heap) refs entries own)
      (apart : a ∉ own) : Holds heap (.dict a) (.dict entries) (insert a own)

section

variable {X : Type} {P Q : K → Ref L → X → Finset Nat → Prop} {refs : List (K × Ref L)}
  {xs : List (K × X)} {own : Finset Nat}

theorem AllHold.imp (h : AllHold P refs xs own)
    (himp : ∀ k r x part, (k, x) ∈ xs → part ⊆ own → P k r x part → Q k r x part) :
    AllHold Q refs xs own := by
  induction h with
  | nil => exact .nil
  | cons head tail apart ih =>
    refine .cons (himp _ _ _ _ List.mem_cons_self Finset.subset_union_left head) (ih ?_) apart
    intro k r x part hmem hpart
    exact himp k r x part (List.mem_cons_of_mem _ hmem) (hpart.trans Finset.subset_union_right)

/-- An address of the footprint belongs to one of the entries. -/
theorem AllHold.exists_of_mem (h : AllHold P refs xs own) {a : Nat} (ha : a ∈ own) :
    ∃ k r x part, (k, x) ∈ xs ∧ P k r x part ∧ a ∈ part := by
  induction h with
  | nil => simp at ha
  | cons head tail apart ih =>
    rcases Finset.mem_union.mp ha with ha | ha
    · exact ⟨_, _, _, _, List.mem_cons_self, head, ha⟩
    · obtain ⟨k, r, x, part, hmem, hpart, ha⟩ := ih ha
      exact ⟨k, r, x, part, List.mem_cons_of_mem _ hmem, hpart, ha⟩

theorem AllHold.lt (h : AllHold P refs xs own) {n : Nat}
    (hlt : ∀ k r x part, P k r x part → ∀ a ∈ part, a < n) : ∀ a ∈ own, a < n := by
  intro a ha
  obtain ⟨k, r, x, part, -, hpart, ha⟩ := h.exists_of_mem ha
  exact hlt k r x part hpart a ha

theorem AllHold.forall₂ (h : AllHold P refs xs own) {R : K × Ref L → K × X → Prop}
    (himp : ∀ k r x part, (k, x) ∈ xs → P k r x part → R (k, r) (k, x)) :
    List.Forall₂ R refs xs := by
  induction h with
  | nil => exact .nil
  | cons head tail apart ih =>
    refine .cons (himp _ _ _ _ List.mem_cons_self head) (ih ?_)
    intro k r x part hmem
    exact himp k r x part (List.mem_cons_of_mem _ hmem)

end

/-! ## What a holder sees of a change -/

section

variable {heap heap' heap'' : Heap K L} {r : Ref L} {t : Tree K L} {own own' own'' : Finset Nat}

theorem Holds.lt (h : Holds heap r t own) : ∀ a ∈ own, a < heap.length := by
  induction t using Tree.induction generalizing r own with
  | leaf x =>
    cases h
    simp
  | dict entries ih =>
    cases h with
    | dict read all apart =>
      intro a ha
      rcases Finset.mem_insert.mp ha with rfl | ha
      · exact (List.getElem?_eq_some_iff.mp read).1
      · obtain ⟨k, r, t, part, hmem, hpart, ha⟩ := all.exists_of_mem ha
        exact ih _ hmem hpart a ha

/-- A change elsewhere does not show. -/
theorem Holds.frame (h : Holds heap r t own) (hsame : ∀ a ∈ own, heap'[a]? = heap[a]?) :
    Holds heap' r t own := by
  induction t using Tree.induction generalizing r own with
  | leaf x =>
    cases h
    exact .leaf x
  | dict entries ih =>
    cases h with
    | @dict a refs _ own read all apart =>
      refine .dict ((hsame a (Finset.mem_insert_self a own)).trans read) (all.imp ?_) apart
      intro k r t part hmem hpart hholds
      exact ih _ hmem hholds fun b hb => hsame b (Finset.mem_insert_of_mem (hpart hb))

theorem Holds.shows (h : Holds heap r t own) : Shows heap r t := by
  induction t using Tree.induction generalizing r own with
  | leaf x =>
    cases h
    exact shows_leaf heap x
  | dict entries ih =>
    cases h with
    | dict read all apart =>
      exact shows_dict read (all.forall₂ fun k r t part hmem hholds => ⟨rfl, ih _ hmem hholds⟩)

/-- From `heap` to `heap'` nothing changed but the dictionaries of `own`, and
`own'` has no others than these and new ones. -/
structure Evolves (heap : Heap K L) (own : Finset Nat) (heap' : Heap K L) (own' : Finset Nat) :
    Prop where
  length_le : heap.length ≤ heap'.length
  outside : ∀ a < heap.length, a ∉ own → heap'[a]? = heap[a]?
  inside : ∀ a ∈ own', a ∈ own ∨ heap.length ≤ a

theorem Evolves.refl (heap : Heap K L) (own : Finset Nat) : Evolves heap own heap own :=
  ⟨le_refl _, fun _ _ _ => rfl, fun _ ha => .inl ha⟩

theorem Evolves.trans (h : Evolves heap own heap' own') (g : Evolves heap' own' heap'' own'') :
    Evolves heap own heap'' own'' where
  length_le := h.length_le.trans g.length_le
  outside a hlt ha := by
    have ha' : a ∉ own' := fun hmem => (h.inside a hmem).elim ha (not_le.mpr hlt)
    rw [g.outside a (lt_of_lt_of_le hlt h.length_le) ha', h.outside a hlt ha]
  inside a ha := by
    rcases g.inside a ha with ha | hle
    · exact h.inside a ha
    · exact .inr (h.length_le.trans hle)

theorem Evolves.mono (h : Evolves heap own heap' own'') (hsub : own ⊆ own') :
    Evolves heap own' heap' own'' where
  length_le := h.length_le
  outside a hlt ha := h.outside a hlt fun hmem => ha (hsub hmem)
  inside a ha := (h.inside a ha).imp_left fun hmem => hsub hmem

theorem Evolves.notMem (h : Evolves heap own heap' own') {a : Nat} (hlt : a < heap.length)
    (ha : a ∉ own) : a ∉ own' :=
  fun hmem => (h.inside a hmem).elim ha (not_le.mpr hlt)

/-- The same where only a part of a footprint changes. -/
theorem Evolves.notMem_rest {part part' : Finset Nat} (h : Evolves heap part heap' part')
    (hpart : part ⊆ own) {a : Nat} (hlt : a < heap.length) (ha : a ∉ own) :
    a ∉ part' ∪ own \ part := by
  rw [Finset.mem_union, not_or]
  exact ⟨h.notMem hlt fun hin => ha (hpart hin), fun hin => ha (Finset.sdiff_subset hin)⟩

/-- What keeps apart from the footprint keeps apart from what becomes of it. -/
theorem Evolves.disjoint (h : Evolves heap own heap' own') {other : Finset Nat}
    (hlt : ∀ a ∈ other, a < heap.length) (hdisjoint : Disjoint own other) :
    Disjoint own' other := by
  rw [Finset.disjoint_left] at hdisjoint ⊢
  intro a ha hother
  rcases h.inside a ha with ha | hle
  · exact hdisjoint ha hother
  · exact absurd (hlt a hother) (not_lt.mpr hle)

theorem Evolves.frame (h : Evolves heap own heap' own') {other : Finset Nat}
    (hdisjoint : Disjoint own other) (hholds : Holds heap r t other) : Holds heap' r t other :=
  hholds.frame fun a ha =>
    h.outside a (hholds.lt a ha) fun hown => Finset.disjoint_left.mp hdisjoint hown ha

end

/-! ## New dictionaries -/

mutual

/-- A new value with dictionaries of its own. -/
def Heap.alloc (heap : Heap K L) : Tree K L → Ref L × Heap K L
  | .leaf x => (.leaf x, heap)
  | .dict entries =>
    let (refs, heap) := heap.allocAll entries
    (.dict heap.length, heap ++ [refs])

def Heap.allocAll (heap : Heap K L) : List (K × Tree K L) → List (K × Ref L) × Heap K L
  | [] => ([], heap)
  | (k, t) :: entries =>
    let (r, heap) := heap.alloc t
    let (refs, heap) := heap.allocAll entries
    ((k, r) :: refs, heap)

end

/-- All that a new value has is new. -/
def AllocatesNew (t : Tree K L) : Prop :=
  ∀ heap : Heap K L, ∃ own,
    Holds (heap.alloc t).2 (heap.alloc t).1 t own ∧ Evolves heap ∅ (heap.alloc t).2 own

theorem Evolves.append {heap heap' heap'' : Heap K L} {first rest : Finset Nat}
    (h : Evolves heap ∅ heap' first) (g : Evolves heap' ∅ heap'' rest) :
    Evolves heap ∅ heap'' (first ∪ rest) where
  length_le := h.length_le.trans g.length_le
  outside a hlt ha :=
    (g.outside a (lt_of_lt_of_le hlt h.length_le) ha).trans (h.outside a hlt ha)
  inside a ha := by
    rcases Finset.mem_union.mp ha with ha | ha
    · exact h.inside a ha
    · exact .inr (h.length_le.trans ((g.inside a ha).resolve_left (Finset.notMem_empty a)))

theorem allHold_allocAll {entries : List (K × Tree K L)} (h : ∀ e ∈ entries, AllocatesNew e.2)
    (heap : Heap K L) :
    ∃ own,
      AllHold (fun _ => Holds (heap.allocAll entries).2) (heap.allocAll entries).1 entries own ∧
      Evolves heap ∅ (heap.allocAll entries).2 own := by
  induction entries generalizing heap with
  | nil => exact ⟨∅, .nil, .refl heap ∅⟩
  | cons e entries ih =>
    obtain ⟨k, t⟩ := e
    obtain ⟨first, hfirst, hbefore⟩ := h (k, t) List.mem_cons_self heap
    obtain ⟨rest, hrest, hafter⟩ :=
      ih (fun e he => h e (List.mem_cons_of_mem _ he)) (heap.alloc t).2
    have hapart : Disjoint rest first :=
      hafter.disjoint hfirst.lt (Finset.disjoint_empty_left first)
    have hkept := hafter.frame (Finset.disjoint_empty_left _) hfirst
    exact ⟨first ∪ rest, .cons hkept hrest hapart.symm, hbefore.append hafter⟩

theorem holds_alloc (t : Tree K L) : AllocatesNew t := by
  induction t using Tree.induction with
  | leaf x => exact fun heap => ⟨∅, .leaf x, .refl heap ∅⟩
  | dict entries ih =>
    intro heap
    obtain ⟨own, hall, hevolves⟩ := allHold_allocAll ih heap
    rcases hlater : heap.allocAll entries with ⟨refs, heap'⟩
    rw [hlater] at hall hevolves
    have halloc : heap.alloc (.dict entries) = (.dict heap'.length, heap' ++ [refs]) := by
      rw [Heap.alloc, hlater]
    have hlt : ∀ a ∈ own, a < heap'.length := hall.lt fun _ _ _ _ hholds => hholds.lt
    have hread : (heap' ++ [refs])[heap'.length]? = some refs := by simp
    have hsame : Evolves heap' ∅ (heap' ++ [refs]) {heap'.length} :=
      ⟨by simp, fun a ha _ => List.getElem?_append_left ha,
        fun a ha => .inr (Finset.mem_singleton.mp ha).ge⟩
    have hkept : AllHold (fun _ => Holds (heap' ++ [refs])) refs entries own :=
      hall.imp fun _ _ _ _ _ _ hholds => hsame.frame (Finset.disjoint_empty_left _) hholds
    rw [halloc]
    refine ⟨insert heap'.length own, .dict hread hkept fun ha => lt_irrefl _ (hlt _ ha), ?_⟩
    rw [Finset.insert_eq, Finset.union_comm]
    exact hevolves.append hsame

/-! ## Entries -/

variable [DecidableEq K]

/-- The value under a key. -/
def entry {V : Type} (k : K) (es : List (K × V)) : Option V :=
  (es.find? fun e => e.1 = k).map Prod.snd

theorem entry_eq_none {V : Type} {k : K} {es : List (K × V)} (h : k ∉ es.map Prod.fst) :
    entry k es = none := by
  rw [entry, Option.map_eq_none_iff, List.find?_eq_none]
  intro e he
  simp only [decide_eq_true_eq]
  rintro rfl
  exact h (List.mem_map_of_mem he)

theorem entry_ne_none {V : Type} {k : K} {es : List (K × V)} (h : k ∈ es.map Prod.fst) :
    entry k es ≠ none := by
  obtain ⟨e, he, rfl⟩ := List.mem_map.mp h
  rw [entry, ne_eq, Option.map_eq_none_iff, List.find?_eq_none]
  exact fun hnone => hnone e he (by simp)

theorem mem_of_entry {V : Type} {k : K} {v : V} {es : List (K × V)} (h : entry k es = some v) :
    (k, v) ∈ es := by
  obtain ⟨e, he, rfl⟩ := Option.map_eq_some_iff.mp h
  have hkey : e.1 = k := by simpa using List.find?_some he
  rw [← hkey]
  exact List.mem_of_find?_eq_some he

theorem eq_of_entries {V : Type} {es es' : List (K × V)}
    (hkeys : es.map Prod.fst = es'.map Prod.fst) (hnodup : (es.map Prod.fst).Nodup)
    (h : ∀ k ∈ es.map Prod.fst, entry k es = entry k es') : es = es' := by
  induction es generalizing es' with
  | nil => exact (List.map_eq_nil_iff.mp hkeys.symm).symm
  | cons e es ih =>
    rcases es' with _ | ⟨e', es'⟩
    · cases hkeys
    · simp only [List.map_cons, List.cons.injEq, List.nodup_cons] at hkeys hnodup
      have hhead := h e.1 (by simp)
      have hvalue : e.2 = e'.2 := by simpa [entry, hkeys.1] using hhead
      have htail : es = es' := by
        refine ih hkeys.2 hnodup.2 fun k hk => ?_
        have hne : e.1 ≠ k := fun he => hnodup.1 (he ▸ hk)
        have hne' : e'.1 ≠ k := hkeys.1 ▸ hne
        simpa [entry, hne, hne'] using h k (by simp [hk])
      rw [htail, Prod.ext hkeys.1 hvalue]

theorem entry_write {V : Type} (k k' : K) (v : V) (es : List (K × V)) :
    entry k' (Dict.write k v es) = if k = k' then some v else entry k' es :=
  Dict.find?_write k k' v es

/-- `base[key] = value`. -/
def Heap.put (heap : Heap K L) (base : Nat) (k : K) (r : Ref L) : Heap K L :=
  heap.modify base (Dict.write k r)

/-- The entry under a key, if there is one, has its part of the footprint, and
gives way to another one that keeps apart from the rest. -/
theorem AllHold.focus {X : Type} {P : K → Ref L → X → Finset Nat → Prop}
    {refs : List (K × Ref L)} {xs : List (K × X)} {own : Finset Nat} (h : AllHold P refs xs own)
    (k : K) :
    ∃ part ⊆ own,
      ((entry k refs = none ∧ entry k xs = none ∧ part = ∅) ∨
        ∃ r x, entry k refs = some r ∧ entry k xs = some x ∧ P k r x part) ∧
      ∀ {Q : K → Ref L → X → Finset Nat → Prop} {r : Ref L} {x : X} {part' : Finset Nat},
        (∀ k r x other, other ⊆ own \ part → P k r x other → Q k r x other) →
        Q k r x part' → Disjoint part' (own \ part) →
          AllHold Q (Dict.write k r refs) (Dict.write k x xs) (part' ∪ own \ part) := by
  induction h with
  | nil =>
    refine ⟨∅, subset_rfl, .inl ⟨rfl, rfl, rfl⟩, ?_⟩
    intro Q r x part' _ hnew hdisjoint
    exact .cons hnew .nil hdisjoint
  | @cons k' r' x' first rest refs xs head tail apart ih =>
    by_cases hk : k' = k
    · subst hk
      have hrest : (first ∪ rest) \ first = rest := by
        rw [Finset.union_sdiff_left, Finset.sdiff_eq_self_of_disjoint apart.symm]
      refine ⟨first, Finset.subset_union_left,
        .inr ⟨r', x', by simp [entry], by simp [entry], head⟩, ?_⟩
      intro Q r x part' himp hnew hdisjoint
      rw [hrest] at himp hdisjoint ⊢
      simp only [Dict.write, if_true]
      exact .cons hnew (tail.imp fun k r x part _ hpart => himp k r x part hpart) hdisjoint
    · obtain ⟨part, hpart, hentry, hput⟩ := ih
      have hapart : Disjoint first part := Finset.disjoint_of_subset_right hpart apart
      have hsplit : (first ∪ rest) \ part = first ∪ rest \ part := by
        rw [Finset.union_sdiff_distrib, Finset.sdiff_eq_self_of_disjoint hapart]
      refine ⟨part, hpart.trans Finset.subset_union_right, by simpa [entry, hk] using hentry, ?_⟩
      intro Q r x part' himp hnew hdisjoint
      rw [hsplit] at himp hdisjoint ⊢
      rw [Finset.disjoint_union_right] at hdisjoint
      have htail := hput (fun k r x other hother => himp k r x other
        (hother.trans Finset.subset_union_right)) hnew hdisjoint.2
      have hfirst := himp _ _ _ _ Finset.subset_union_left head
      simp only [Dict.write, if_neg hk]
      rw [Finset.union_left_comm]
      refine .cons hfirst htail ?_
      rw [Finset.disjoint_union_right]
      exact ⟨hdisjoint.1.symm, Finset.disjoint_of_subset_right Finset.sdiff_subset apart⟩

theorem Heap.getElem?_put (heap : Heap K L) (base a : Nat) (k : K) (r : Ref L) :
    (heap.put base k r)[a]? = if base = a then heap[a]?.map (Dict.write k r) else heap[a]? := by
  rw [Heap.put, List.getElem?_modify]
  split <;> simp

/-- The object at `base` gets an entry. What it holds under the key may have
changed before. -/
theorem Evolves.put {heap heap' : Heap K L} {own part part' : Finset Nat} {base : Nat}
    (h : Evolves heap part heap' part') (hpart : part ⊆ own) (hbase : base ∈ own) (k : K)
    (r : Ref L) : Evolves heap own (heap'.put base k r) (part' ∪ own \ part) where
  length_le := by
    rw [Heap.put, List.length_modify]
    exact h.length_le
  outside a hlt ha := by
    have hne : base ≠ a := by
      rintro rfl
      exact ha hbase
    rw [Heap.getElem?_put, if_neg hne, h.outside a hlt fun hmem => ha (hpart hmem)]
  inside a ha := by
    rcases Finset.mem_union.mp ha with ha | ha
    · exact (h.inside a ha).imp_left fun hmem => hpart hmem
    · exact .inl (Finset.sdiff_subset ha)

/-- The value under a key of the dictionary at `base`. -/
def Heap.item (heap : Heap K L) (base : Nat) (k : K) : Option (Ref L) :=
  heap[base]?.bind (entry k)

/-- Writing the reference that is there changes nothing. -/
theorem Heap.put_eq_self {heap : Heap K L} {base : Nat} {k : K} {r : Ref L}
    (h : heap.item base k = some r) : heap.put base k r = heap := by
  apply List.ext_getElem?
  intro a
  rw [Heap.getElem?_put]
  split
  · rename_i ha
    subst ha
    unfold Heap.item at h
    rcases hread : heap[base]? with _ | refs
    · rfl
    · rw [hread, Option.bind_some] at h
      rw [Option.map_some, Dict.write_eq_self h]
  · rfl

/-- A dictionary holds the value under a key, if there is one, and can get
another one, which may be what has become of it. -/
theorem Holds.focus {heap : Heap K L} {base : Nat} {entries : List (K × Tree K L)}
    {own : Finset Nat} (h : Holds heap (.dict base) (.dict entries) own) (k : K) :
    ∃ part, base ∉ part ∧
      ((heap.item base k = none ∧ entry k entries = none ∧ part = ∅) ∨
        ∃ r t, heap.item base k = some r ∧ entry k entries = some t ∧ Holds heap r t part) ∧
      ∀ {heap' : Heap K L} {r : Ref L} {t : Tree K L} {part' : Finset Nat},
        Holds heap' r t part' → Evolves heap part heap' part' →
          ∃ own', Holds (heap'.put base k r) (.dict base) (.dict (Dict.write k t entries)) own' ∧
            Evolves heap own (heap'.put base k r) own' := by
  have hlt := h.lt
  cases h with
  | @dict _ refs _ own read all apart =>
    obtain ⟨part, hpart, hentry, hput⟩ := all.focus k
    have hbase : base < heap.length := hlt base (Finset.mem_insert_self base own)
    have hitem : heap.item base k = entry k refs := by rw [Heap.item, read, Option.bind_some]
    have hoff : base ∉ part := fun hmem => apart (hpart hmem)
    refine ⟨part, hoff, by rw [hitem]; exact hentry, fun {heap' r t part'} hholds hevolves => ?_⟩
    have hread : (heap'.put base k r)[base]? = some (Dict.write k r refs) := by
      rw [Heap.getElem?_put, if_pos rfl, hevolves.outside base hbase hoff, read, Option.map_some]
    have hsame : ∀ a, a ≠ base → (heap'.put base k r)[a]? = heap'[a]? := fun a ha => by
      rw [Heap.getElem?_put, if_neg ha.symm]
    have hdisjoint : Disjoint part' (own \ part) :=
      hevolves.disjoint (fun a ha => hlt a (Finset.mem_insert_of_mem (Finset.sdiff_subset ha)))
        Finset.disjoint_sdiff
    have hapart : base ∉ part' ∪ own \ part := hevolves.notMem_rest hpart hbase apart
    have hall : AllHold (fun _ => Holds (heap'.put base k r)) (Dict.write k r refs)
        (Dict.write k t entries) (part' ∪ own \ part) := by
      refine hput (fun _ r' t' other hother hold => ?_) ?_ hdisjoint
      · have hkept :=
          hevolves.frame (Finset.disjoint_of_subset_right hother Finset.disjoint_sdiff) hold
        refine hkept.frame fun a ha => hsame a ?_
        rintro rfl
        exact apart (Finset.sdiff_subset (hother ha))
      · refine hholds.frame fun a ha => hsame a ?_
        rintro rfl
        exact hapart (Finset.mem_union_left _ ha)
    refine ⟨insert base (part' ∪ own \ part), .dict hread hall hapart, ?_⟩
    have hwider := hevolves.put (hpart.trans (Finset.subset_insert base own))
      (Finset.mem_insert_self base own) k r
    refine ⟨hwider.length_le, hwider.outside, fun a ha => ?_⟩
    rcases Finset.mem_insert.mp ha with rfl | ha
    · exact .inl (Finset.mem_insert_self _ _)
    · refine hwider.inside a ?_
      rw [Finset.mem_union] at ha ⊢
      exact ha.imp_right fun hmem =>
        Finset.sdiff_subset_sdiff (Finset.subset_insert base own) subset_rfl hmem

section

variable {heap heap' : Heap K L} {base : Nat} {entries : List (K × Tree K L)} {own : Finset Nat}
  {k : K}

/-- A dictionary has a value under the key, or none, as its tree says. -/
theorem Holds.item (h : Holds heap (.dict base) (.dict entries) own) (k : K) :
    (heap.item base k = none ∧ entry k entries = none) ∨
      ∃ r t part, heap.item base k = some r ∧ entry k entries = some t ∧ Holds heap r t part := by
  obtain ⟨part, -, ⟨hnone, hentry, -⟩ | ⟨r, t, hitem, hentry, hholds⟩, -⟩ := h.focus k
  · exact .inl ⟨hnone, hentry⟩
  · exact .inr ⟨r, t, part, hitem, hentry, hholds⟩

/-- A new value is written under the key. -/
theorem Holds.put (h : Holds heap (.dict base) (.dict entries) own) {r : Ref L} {t : Tree K L}
    {part : Finset Nat} (hholds : Holds heap' r t part) (hevolves : Evolves heap ∅ heap' part)
    (k : K) :
    ∃ own', Holds (heap'.put base k r) (.dict base) (.dict (Dict.write k t entries)) own' ∧
      Evolves heap own (heap'.put base k r) own' := by
  obtain ⟨gone, -, -, hput⟩ := h.focus k
  exact hput hholds (hevolves.mono (Finset.empty_subset gone))

/-- The value under the key changes in place. -/
theorem Holds.update (h : Holds heap (.dict base) (.dict entries) own) {t : Tree K L}
    (hentry : entry k entries = some t) :
    ∃ r part, heap.item base k = some r ∧ Holds heap r t part ∧
      ∀ {heap' : Heap K L} {t' : Tree K L} {part' : Finset Nat}, Holds heap' r t' part' →
        Evolves heap part heap' part' →
          ∃ own', Holds heap' (.dict base) (.dict (Dict.write k t' entries)) own' ∧
            Evolves heap own heap' own' := by
  have hbase := h.lt base (by cases h; exact Finset.mem_insert_self _ _)
  obtain ⟨part, hoff, ⟨-, hnone, -⟩ | ⟨r, t, hitem, hentry', hholds⟩, hput⟩ := h.focus k
  · rw [hentry] at hnone
    cases hnone
  · rw [hentry] at hentry'
    cases hentry'
    refine ⟨r, part, hitem, hholds, fun {heap' t' part'} hnew hevolves => ?_⟩
    have hitem' : heap'.item base k = some r := by
      rw [Heap.item, hevolves.outside base hbase hoff]
      exact hitem
    have hresult := hput hnew hevolves
    rwa [Heap.put_eq_self hitem'] at hresult

end

end python.heap
