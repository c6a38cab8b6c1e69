-- A shallow copy of a dictionary: its entries are those of the original until
-- it gets values of its own, and what changes in a shared value changes in both.
import BitchatNode.Python.Heap

namespace python.heap

variable {K L : Type} [DecidableEq K]

/-! ## What a copy holds -/

/-- An entry of a copy is that of the original (`none`) or a value of its own. -/
inductive CopyHolds (heap : Heap K L) (refs : List (K × Ref L)) :
    K → Ref L → Option (Tree K L) → Finset Nat → Prop
  | shared {k : K} {r : Ref L} (same : entry k refs = some r) : CopyHolds heap refs k r none ∅
  | own {k : K} {r : Ref L} {t : Tree K L} {part : Finset Nat} (holds : Holds heap r t part) :
    CopyHolds heap refs k r (some t) part

/-- What a dictionary holds, and which entries a copy of it has of its own. -/
structure Sharing (K L : Type) where
  original : List (K × Tree K L)
  copy : List (K × Option (Tree K L))

/-- What an entry of the copy shows under the key. -/
def shared_value (original : List (K × Tree K L)) (k : K) (o : Option (Tree K L)) : Tree K L :=
  o.getD ((entry k original).getD (.dict []))

/-- What the copy shows. -/
def Sharing.shown (s : Sharing K L) : List (K × Tree K L) :=
  s.copy.map fun e => (e.1, shared_value s.original e.1 e.2)

/-- A value of the copy changes in place, and so does the original where the
copy has no value of its own. -/
def Sharing.update (s : Sharing K L) (k : K) (t : Tree K L) : Sharing K L :=
  match entry k s.copy with
  | some none => { s with original := Dict.write k t s.original }
  | _ => { s with copy := Dict.write k (some t) s.copy }

/-- The copy gets a value of its own. -/
def Sharing.put (s : Sharing K L) (k : K) (t : Tree K L) : Sharing K L :=
  { s with copy := Dict.write k (some t) s.copy }

theorem entry_map {V W : Type} (f : K → V → W) (k : K) (es : List (K × V)) :
    entry k (es.map fun e => (e.1, f e.1 e.2)) = (entry k es).map (f k) := by
  induction es with
  | nil => rfl
  | cons e es ih =>
    unfold entry at ih ⊢
    by_cases hk : e.1 = k
    · simp [hk]
    · simpa [hk] using ih

theorem Sharing.entry_shown (s : Sharing K L) (k : K) :
    entry k s.shown = (entry k s.copy).map (shared_value s.original k) :=
  entry_map (shared_value s.original) k s.copy

theorem map_write {V W : Type} (f : K → V → W) (k : K) (v : V) (es : List (K × V)) :
    (Dict.write k v es).map (fun e => (e.1, f e.1 e.2)) =
      Dict.write k (f k v) (es.map fun e => (e.1, f e.1 e.2)) := by
  induction es with
  | nil => rfl
  | cons e es ih =>
    unfold Dict.write
    by_cases hk : e.1 = k
    · simp [hk]
    · simp [hk, ih]

/-- Two functions that differ at one key. -/
theorem map_eq_write {V W : Type} {f g : K → V → W} {k : K} {v : V} {es : List (K × V)}
    (hnodup : (es.map Prod.fst).Nodup) (hentry : entry k es = some v)
    (hother : ∀ k' v', k' ≠ k → g k' v' = f k' v') :
    es.map (fun e => (e.1, g e.1 e.2)) =
      Dict.write k (g k v) (es.map fun e => (e.1, f e.1 e.2)) := by
  induction es with
  | nil => cases hentry
  | cons e es ih =>
    obtain ⟨k', v'⟩ := e
    simp only [List.map_cons, List.nodup_cons] at hnodup ⊢
    by_cases hk : k' = k
    · subst hk
      have hv : v' = v := by simpa [entry] using hentry
      have hrest : es.map (fun e => (e.1, g e.1 e.2)) = es.map fun e => (e.1, f e.1 e.2) := by
        refine List.map_congr_left fun e he => ?_
        rw [hother]
        rintro rfl
        exact hnodup.1 (List.mem_map_of_mem he)
      rw [hrest, hv]
      simp [Dict.write]
    · have htail : entry k es = some v := by simpa [entry, hk] using hentry
      rw [ih hnodup.2 htail, hother k' v' hk]
      simp [Dict.write, hk]

theorem Sharing.shown_put (s : Sharing K L) (k : K) (t : Tree K L) :
    (s.put k t).shown = Dict.write k t s.shown :=
  map_write (shared_value s.original) k (some t) s.copy

/-- The copy shows what its value has become, whether it is shared or not. -/
theorem Sharing.shown_update {s : Sharing K L} {k : K} (hnodup : (s.copy.map Prod.fst).Nodup)
    (t : Tree K L) (hentry : entry k s.shown ≠ none) :
    (s.update k t).shown = Dict.write k t s.shown := by
  rw [Sharing.entry_shown, ne_eq, Option.map_eq_none_iff] at hentry
  unfold Sharing.update
  rcases ho : entry k s.copy with _ | _ | t'
  · exact absurd ho hentry
  · have hmap := map_eq_write (f := shared_value s.original)
      (g := shared_value (Dict.write k t s.original)) hnodup ho fun k' o hk => by
        rw [shared_value, entry_write, if_neg hk.symm, shared_value]
    have hvalue : shared_value (Dict.write k t s.original) k none = t := by
      rw [shared_value, entry_write, if_pos rfl]
      rfl
    rw [hvalue] at hmap
    exact hmap
  · exact s.shown_put k t

/-- The dictionary at `d` and the copy of it at `c`. -/
inductive Shares (heap : Heap K L) (d c : Nat) (s : Sharing K L) : Prop
  | intro {refs crefs : List (K × Ref L)} {own cown : Finset Nat} (read : heap[d]? = some refs)
    (cread : heap[c]? = some crefs) (all : AllHold (fun _ => Holds heap) refs s.original own)
    (call : AllHold (CopyHolds heap refs) crefs s.copy cown) (dc : d ≠ c) (down : d ∉ own)
    (cnown : c ∉ own) (dcown : d ∉ cown) (ccown : c ∉ cown) (apart : Disjoint own cown)

theorem CopyHolds.frame {heap heap' : Heap K L} {refs : List (K × Ref L)} {k : K} {r : Ref L}
    {o : Option (Tree K L)} {part : Finset Nat} (h : CopyHolds heap refs k r o part)
    (hsame : ∀ a ∈ part, heap'[a]? = heap[a]?) : CopyHolds heap' refs k r o part := by
  cases h with
  | shared same => exact .shared same
  | own holds => exact .own (holds.frame hsame)

/-- `d.copy()`. -/
def Heap.copy (heap : Heap K L) (d : Nat) : Nat × Heap K L :=
  (heap.length, heap ++ [heap[d]?.getD []])

section

variable {heap heap' : Heap K L} {d c : Nat} {s : Sharing K L} {k : K}

theorem CopyHolds.lt {refs : List (K × Ref L)} {r : Ref L} {o : Option (Tree K L)}
    {part : Finset Nat} (h : CopyHolds heap refs k r o part) : ∀ a ∈ part, a < heap.length := by
  cases h with
  | shared same => simp
  | own holds => exact holds.lt

theorem allHold_shared {P : K → Ref L → Tree K L → Finset Nat → Prop}
    {refs refs' : List (K × Ref L)} {entries : List (K × Tree K L)} {own : Finset Nat}
    (h : AllHold P refs entries own) (hshared : ∀ e ∈ refs, entry e.1 refs' = some e.2) :
    AllHold (CopyHolds heap refs') refs (entries.map fun e => (e.1, none)) ∅ := by
  induction h with
  | nil => exact .nil
  | cons head tail apart ih =>
    have htail := ih fun e he => hshared e (List.mem_cons_of_mem _ he)
    have hhead := hshared _ List.mem_cons_self
    rw [← Finset.empty_union ∅]
    exact .cons (.shared hhead) htail (Finset.disjoint_empty_left ∅)

/-- A copy starts without values of its own. -/
theorem shares_copy {entries : List (K × Tree K L)} {own : Finset Nat}
    (h : Holds heap (.dict d) (.dict entries) own) (hnodup : (entries.map Prod.fst).Nodup) :
    Shares (heap.copy d).2 d (heap.copy d).1 ⟨entries, entries.map fun e => (e.1, none)⟩ := by
  have hlt := h.lt
  cases h with
  | @dict _ refs _ own read all apart =>
    have hd : d < heap.length := hlt d (Finset.mem_insert_self d own)
    have hc : heap.length ∉ own := fun hmem => lt_irrefl _ (hlt _ (Finset.mem_insert_of_mem hmem))
    have hcopy : heap.copy d = (heap.length, heap ++ [refs]) := by
      rw [Heap.copy, read, Option.getD_some]
    have hsame : ∀ a < heap.length, (heap ++ [refs])[a]? = heap[a]? := fun a ha =>
      List.getElem?_append_left ha
    have hkeys : refs.map Prod.fst = entries.map Prod.fst :=
      List.forall₂_eq_eq_eq ▸ List.forall₂_map_left_iff.mpr (List.forall₂_map_right_iff.mpr
        (all.forall₂ fun k r t part _ _ => rfl))
    have hshared : ∀ e ∈ refs, entry e.1 refs = some e.2 := fun e he =>
      (Dict.mem_entries_iff ⟨refs, by rwa [hkeys]⟩).mp he
    have hcall : AllHold (CopyHolds (heap ++ [refs]) refs) refs
        (entries.map fun e => (e.1, none)) ∅ := allHold_shared all hshared
    rw [hcopy]
    refine .intro ((hsame d hd).trans read) (by simp) (all.imp fun _ _ _ other _ hother hold => ?_)
      hcall hd.ne apart hc (Finset.notMem_empty d) (Finset.notMem_empty _)
      (Finset.disjoint_empty_right own)
    exact hold.frame fun a ha => hsame a (hlt a (Finset.mem_insert_of_mem (hother ha)))

theorem Shares.put (h : Shares heap d c s) {r : Ref L} {t : Tree K L} {part : Finset Nat}
    (hholds : Holds heap' r t part) (hevolves : Evolves heap ∅ heap' part) (k : K) :
    Shares (heap'.put c k r) d c (s.put k t) := by
  obtain @⟨refs, crefs, own, cown, read, cread, all, call, dc, down, cnown, dcown, ccown, apart⟩ :=
    h
  have hd : d < heap.length := (List.getElem?_eq_some_iff.mp read).1
  have hc : c < heap.length := (List.getElem?_eq_some_iff.mp cread).1
  have hcown : ∀ a ∈ cown, a < heap.length := call.lt fun _ _ _ _ hholds => hholds.lt
  have hown : ∀ a ∈ own, a < heap.length := all.lt fun _ _ _ _ hholds => hholds.lt
  have hsame : ∀ a < heap.length, a ≠ c → (heap'.put c k r)[a]? = heap[a]? := by
    intro a ha hne
    rw [Heap.getElem?_put, if_neg hne.symm, hevolves.outside a ha (Finset.notMem_empty a)]
  have hnew : ∀ a < heap.length, a ∉ part := fun a ha => hevolves.notMem ha (Finset.notMem_empty a)
  have hread : (heap'.put c k r)[c]? = some (Dict.write k r crefs) := by
    rw [Heap.getElem?_put, if_pos rfl, hevolves.outside c hc (Finset.notMem_empty c), cread,
      Option.map_some]
  have hvalue : Holds (heap'.put c k r) r t part := hholds.frame fun a ha => by
    rw [Heap.getElem?_put, if_neg]
    rintro rfl
    exact hnew c hc ha
  obtain ⟨gone, -, -, hput⟩ := call.focus k
  have hcall := hput (Q := CopyHolds (heap'.put c k r) refs)
    (fun k' r' o other hother hold => hold.frame fun a ha => by
      have hmem := Finset.sdiff_subset (hother ha)
      exact hsame a (hcown a hmem) fun he => ccown (he ▸ hmem))
    (.own hvalue) (Finset.disjoint_right.mpr fun a ha =>
      hnew a (hcown a (Finset.sdiff_subset ha)))
  have hnot : ∀ a < heap.length, a ∉ cown → a ∉ part ∪ cown \ gone := by
    intro a ha hmem
    rw [Finset.mem_union, not_or]
    exact ⟨hnew a ha, fun hmem' => hmem (Finset.sdiff_subset hmem')⟩
  refine .intro ((hsame d hd dc).trans read) hread (all.imp fun k' r' t' other _ hother hold => ?_)
    hcall dc down cnown (hnot d hd dcown) (hnot c hc ccown) (Finset.disjoint_left.mpr ?_)
  · exact hold.frame fun a ha => hsame a (hown a (hother ha)) fun he => cnown (he ▸ hother ha)
  · intro a ha
    exact hnot a (hown a ha) (Finset.disjoint_left.mp apart ha)

/-- The value of an entry changes in place. -/
theorem AllHold.change {refs : List (K × Ref L)} {entries : List (K × Tree K L)}
    {own : Finset Nat} {r : Ref L} (all : AllHold (fun _ => Holds heap) refs entries own)
    (hr : entry k refs = some r) :
    ∃ t, ∃ part ⊆ own, entry k entries = some t ∧ Holds heap r t part ∧
      ∀ {heap' : Heap K L} {t' : Tree K L} {part' : Finset Nat}, Holds heap' r t' part' →
        Evolves heap part heap' part' →
          AllHold (fun _ => Holds heap') refs (Dict.write k t' entries) (part' ∪ own \ part) := by
  have hown : ∀ a ∈ own, a < heap.length := all.lt fun _ _ _ _ hholds => hholds.lt
  obtain ⟨part, hpart, ⟨hnone, -, -⟩ | ⟨r', t, hr', ht, hold⟩, hput⟩ := all.focus k
  · rw [hr] at hnone
    cases hnone
  · rw [hr] at hr'
    cases hr'
    refine ⟨t, part, hpart, ht, hold, fun {heap' t' part'} hnew hevolves => ?_⟩
    have hall := hput (Q := fun _ => Holds heap') (fun _ _ _ other hother hkept =>
        hevolves.frame (Finset.disjoint_of_subset_right hother Finset.disjoint_sdiff) hkept) hnew
      (hevolves.disjoint (fun a ha => hown a (Finset.sdiff_subset ha)) Finset.disjoint_sdiff)
    rwa [Dict.write_eq_self hr] at hall

/-- A value that the copy has of its own changes in place. -/
theorem AllHold.change_own {refs crefs : List (K × Ref L)}
    {entries : List (K × Option (Tree K L))} {own : Finset Nat} {r : Ref L} {t : Tree K L}
    (all : AllHold (CopyHolds heap refs) crefs entries own) (hr : entry k crefs = some r)
    (ho : entry k entries = some (some t)) :
    ∃ part ⊆ own, Holds heap r t part ∧
      ∀ {heap' : Heap K L} {t' : Tree K L} {part' : Finset Nat}, Holds heap' r t' part' →
        Evolves heap part heap' part' →
          AllHold (CopyHolds heap' refs) crefs (Dict.write k (some t') entries)
            (part' ∪ own \ part) := by
  have hown : ∀ a ∈ own, a < heap.length := all.lt fun _ _ _ _ hholds => hholds.lt
  obtain ⟨part, hpart, ⟨hnone, -, -⟩ | ⟨r', o, hr', ho', hold⟩, hput⟩ := all.focus k
  · rw [hr] at hnone
    cases hnone
  · rw [hr] at hr'
    rw [ho] at ho'
    cases hr'
    cases ho'
    cases hold with
    | own hold =>
      refine ⟨part, hpart, hold, fun {heap' t' part'} hnew hevolves => ?_⟩
      have hall := hput (Q := CopyHolds heap' refs) (fun _ _ _ other hother hkept =>
          hkept.frame fun a ha => hevolves.outside a (hown a (Finset.sdiff_subset (hother ha)))
            (Finset.mem_sdiff.mp (hother ha)).2) (.own hnew)
        (hevolves.disjoint (fun a ha => hown a (Finset.sdiff_subset ha)) Finset.disjoint_sdiff)
      rwa [Dict.write_eq_self hr] at hall

/-- The copy has a value under the key, or none, as `s` says, and what changes
in the value changes in the original where it is shared. -/
theorem Shares.focus (h : Shares heap d c s) (k : K) :
    (heap.item c k = none ∧ entry k s.shown = none) ∨
      ∃ r t part, heap.item c k = some r ∧ entry k s.shown = some t ∧ Holds heap r t part ∧
        ∀ {heap' : Heap K L} {t' : Tree K L} {part' : Finset Nat}, Holds heap' r t' part' →
          Evolves heap part heap' part' → Shares heap' d c (s.update k t') := by
  obtain @⟨refs, crefs, own, cown, read, cread, all, call, dc, down, cnown, dcown, ccown, apart⟩ :=
    h
  have hd : d < heap.length := (List.getElem?_eq_some_iff.mp read).1
  have hc : c < heap.length := (List.getElem?_eq_some_iff.mp cread).1
  have hcown : ∀ a ∈ cown, a < heap.length := call.lt fun _ _ _ _ hholds => hholds.lt
  have hown : ∀ a ∈ own, a < heap.length := all.lt fun _ _ _ _ hholds => hholds.lt
  have hoff : ∀ a ∈ own, a ∉ cown := fun a ha => Finset.disjoint_left.mp apart ha
  have hitem : heap.item c k = entry k crefs := by rw [Heap.item, cread, Option.bind_some]
  obtain ⟨held, -, ⟨hr, ho, -⟩ | ⟨r, o, hr, ho, hholds⟩, -⟩ := call.focus k
  · exact .inl ⟨hitem.trans hr, by rw [Sharing.entry_shown, ho, Option.map_none]⟩
  cases hholds with
  | shared same =>
    obtain ⟨t, part, hpart, ht, hold, hchange⟩ := all.change same
    have hshown : entry k s.shown = some t := by
      rw [Sharing.entry_shown, ho, Option.map_some, shared_value, ht]
      rfl
    refine .inr ⟨r, t, part, hitem.trans hr, hshown, hold,
      fun {heap' t' part'} hnew hevolves => ?_⟩
    have hupdate : s.update k t' = { s with original := Dict.write k t' s.original } := by
      rw [Sharing.update, ho]
    have hnot : ∀ a < heap.length, a ∉ own → a ∉ part' ∪ own \ part := fun a =>
      hevolves.notMem_rest hpart
    have hapart : ∀ a ∈ cown, a ∉ own := fun a ha hin => hoff a hin ha
    rw [hupdate]
    refine .intro ((hevolves.outside d hd fun hin => down (hpart hin)).trans read)
      ((hevolves.outside c hc fun hin => cnown (hpart hin)).trans cread) (hchange hnew hevolves)
      (call.imp fun _ _ _ other _ hother hkept => hkept.frame fun a ha => ?_) dc
      (hnot d hd down) (hnot c hc cnown) dcown ccown (Finset.disjoint_right.mpr ?_)
    · exact hevolves.outside a (hcown a (hother ha)) fun hin => hapart a (hother ha) (hpart hin)
    · intro a ha
      exact hnot a (hcown a ha) (hapart a ha)
  | @own t =>
    obtain ⟨part, hpart, hold, hchange⟩ := call.change_own hr ho
    have hshown : entry k s.shown = some t := by
      rw [Sharing.entry_shown, ho]
      rfl
    refine .inr ⟨r, t, part, hitem.trans hr, hshown, hold,
      fun {heap' t' part'} hnew hevolves => ?_⟩
    have hupdate : s.update k t' = { s with copy := Dict.write k (some t') s.copy } := by
      rw [Sharing.update, ho]
    have hnot : ∀ a < heap.length, a ∉ cown → a ∉ part' ∪ cown \ part := fun a =>
      hevolves.notMem_rest hpart
    rw [hupdate]
    refine .intro ((hevolves.outside d hd fun hin => dcown (hpart hin)).trans read)
      ((hevolves.outside c hc fun hin => ccown (hpart hin)).trans cread)
      (all.imp fun _ _ _ other _ hother hkept => hkept.frame fun a ha => ?_)
      (hchange hnew hevolves) dc down cnown (hnot d hd dcown) (hnot c hc ccown)
      (Finset.disjoint_left.mpr ?_)
    · exact hevolves.outside a (hown a (hother ha)) fun hin => hoff a (hother ha) (hpart hin)
    · intro a ha
      exact hnot a (hown a ha) (hoff a ha)

theorem Shares.holds_original (h : Shares heap d c s) :
    ∃ own, Holds heap (.dict d) (.dict s.original) own := by
  obtain ⟨read, cread, all, call, dc, down, cnown, dcown, ccown, apart⟩ := h
  exact ⟨_, .dict read all down⟩

theorem Shares.shows_copy (h : Shares heap d c s) : Shows heap (.dict c) (.dict s.shown) := by
  obtain ⟨read, cread, all, call, dc, down, cnown, dcown, ccown, apart⟩ := h
  refine shows_dict cread ?_
  unfold Sharing.shown
  rw [List.forall₂_map_right_iff]
  refine call.forall₂ fun k r o part _ hholds => ⟨rfl, ?_⟩
  cases hholds with
  | own holds => exact holds.shows
  | shared same =>
    obtain ⟨part, -, ⟨hnone, -, -⟩ | ⟨r', t, hr, ht, hold⟩, -⟩ := all.focus k
    · rw [same] at hnone
      cases hnone
    · rw [same] at hr
      cases hr
      have hvalue : shared_value s.original k none = t := by
        rw [shared_value, ht]
        rfl
      rw [hvalue]
      exact hold.shows

end

end python.heap
