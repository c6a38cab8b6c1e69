-- Several senders feed one `FragmentCollector`. It files the chunks by the
-- fragment id alone, so what a call returns depends on the calls for that id,
-- whoever made them, and on no others.
import BitchatNode.Protocol

namespace bitchat.protocol.FragmentCollector

open python

/-! ## Runs -/

/-- The arguments of one call of `add_fragment`. -/
structure Call where
  sender_id : Str
  fragment_id : Bytes
  index : Int
  total : Int
  original_type : UInt8
  data : Bytes
deriving DecidableEq

abbrev Returned := Option (Bytes × Str)

def call (self : FragmentCollector) (c : Call) : FragmentCollector × Returned :=
  self.add_fragment c.fragment_id c.index c.total c.original_type c.data c.sender_id

/-- The collector after the calls. -/
def after (self : FragmentCollector) : List Call → FragmentCollector
  | [] => self
  | c :: rest => after (self.call c).1 rest

/-- Each call with what it returned. -/
def returns (self : FragmentCollector) : List Call → List (Call × Returned)
  | [] => []
  | c :: rest => (c, (self.call c).2) :: returns (self.call c).1 rest

theorem returns_append (self : FragmentCollector) (a b : List Call) :
    self.returns (a ++ b) = self.returns a ++ (self.after a).returns b := by
  induction a generalizing self with
  | nil => rfl
  | cons c a ih => simp only [List.cons_append, returns, after, ih]

theorem mem_of_mem_returns {self : FragmentCollector} {calls : List Call} {r : Call × Returned}
    (h : r ∈ self.returns calls) : r.1 ∈ calls := by
  induction calls generalizing self with
  | nil => cases h
  | cons c calls ih =>
    rcases List.mem_cons.mp h with rfl | h
    · exact List.mem_cons_self
    · exact List.mem_cons_of_mem c (ih h)

/-! ## One fragment id -/

/-- What is on file under one fragment id: the chunks, and who began. -/
abbrev File := Option (Dict Int Bytes) × Option (Int × UInt8 × Str)

def file (self : FragmentCollector) (fragment_id : Bytes) : File :=
  (self.fragments.get? (hex fragment_id), self.metadata.get? (hex fragment_id))

/-- A call on the file of its own fragment id. -/
def refile (file : File) (c : Call) : File × Returned :=
  let metadata := if file.1.isSome then file.2 else some (c.total, c.original_type, c.sender_id)
  let fragment_map := (file.1.getD .empty).set c.index c.data
  if (fragment_map.size : Int) = c.total then
    match collect fragment_map c.total with
    | none => ((some fragment_map, metadata), none)
    | some complete_data => ((none, none),
        some (complete_data, (metadata.map (·.2.2)).getD "Unknown".toList))
  else ((some fragment_map, metadata), none)

/-- A call reads and writes the file of its fragment id. -/
theorem call_eq_refile (self : FragmentCollector) (c : Call) :
    ((self.call c).1.file c.fragment_id, (self.call c).2) = refile (self.file c.fragment_id) c := by
  unfold call add_fragment refile file
  rcases hf : self.fragments.get? (hex c.fragment_id) with _ | fragment_map
  · simp only [Dict.has, hf, Option.isSome_none, Bool.false_eq_true, if_false, Dict.get?_set_self,
      Option.getD_some, Option.getD_none]
    split
    · split <;> simp [*]
    · simp
  · simp only [Dict.has, hf, Option.isSome_some, if_true, Option.getD_some]
    split
    · split <;> simp [*]
    · simp

/-- A call leaves the file of every other fragment id alone. -/
theorem file_call_of_ne (self : FragmentCollector) (c : Call) {fragment_id : Bytes}
    (h : c.fragment_id ≠ fragment_id) : (self.call c).1.file fragment_id =
      self.file fragment_id := by
  have hkey : hex c.fragment_id ≠ hex fragment_id := fun he => h (hex_injective he)
  unfold call add_fragment file
  by_cases hf : self.fragments.has (hex c.fragment_id) = true
  · simp only [hf, if_true]
    split
    · split <;> simp [Dict.get?_set_ne, Dict.get?_pop_ne, hkey]
    · simp [Dict.get?_set_ne, hkey]
  · rw [Bool.not_eq_true] at hf
    simp only [hf, Bool.false_eq_true, if_false]
    split
    · split <;> simp [Dict.get?_set_ne, Dict.get?_pop_ne, hkey]
    · simp [Dict.get?_set_ne, hkey]

/-! ## The calls for one fragment id -/

/-- The calls for one id get from the whole run what they get when they run
alone. -/
theorem returns_for (fragment_id : Bytes) (calls : List Call) :
    ∀ self other : FragmentCollector, self.file fragment_id = other.file fragment_id →
      (self.returns calls).filter (·.1.fragment_id = fragment_id) =
          other.returns (calls.filter (·.fragment_id = fragment_id)) ∧
        (self.after calls).file fragment_id =
          (other.after (calls.filter (·.fragment_id = fragment_id))).file fragment_id := by
  induction calls with
  | nil => exact fun self other h => ⟨rfl, h⟩
  | cons c calls ih =>
    intro self other h
    by_cases hc : c.fragment_id = fragment_id
    · subst hc
      have hself := call_eq_refile self c
      have hother := call_eq_refile other c
      rw [← h, ← hself, Prod.mk.injEq] at hother
      obtain ⟨hreturns, hafter⟩ := ih (self.call c).1 (other.call c).1 hother.1.symm
      refine ⟨?_, ?_⟩
      · simp only [returns, List.filter_cons, decide_true, if_true, hreturns, hother.2]
      · simpa only [after, List.filter_cons, decide_true, if_true] using hafter
    · obtain ⟨hreturns, hafter⟩ := ih (self.call c).1 other (by rw [file_call_of_ne self c hc, h])
      refine ⟨?_, ?_⟩
      · simpa only [returns, List.filter_cons, hc, decide_false, Bool.false_eq_true, if_false]
          using hreturns
      · simpa only [after, List.filter_cons, hc, decide_false, Bool.false_eq_true, if_false]
          using hafter

/-! ## A complete set -/

/-- One common total `n`, and each index below it once. -/
structure CompleteSet (calls : List Call) (n : Nat) : Prop where
  one_or_more : 1 ≤ n
  total : ∀ c ∈ calls, c.total = n
  indices : (calls.map Call.index).Perm ((List.range n).map Nat.cast)

/-- The data of the call with this index. -/
def chunk (calls : List Call) (index : Int) : Bytes :=
  ((calls.find? (·.index = index)).map Call.data).getD []

/-- The chunks in index order. -/
def reassembled (calls : List Call) (n : Nat) : Bytes :=
  ((List.range n).map fun i : Nat => chunk calls i).flatten

/-- The chunks on file after the calls. -/
def stored (calls : List Call) : Dict Int Bytes :=
  calls.foldl (fun fragment_map c => fragment_map.set c.index c.data) .empty

theorem stored_concat (calls : List Call) (c : Call) :
    stored (calls ++ [c]) = (stored calls).set c.index c.data := by
  unfold stored
  rw [List.foldl_append]
  rfl

theorem keys_stored (calls : List Call) (h : (calls.map Call.index).Nodup) :
    (stored calls).keys = calls.map Call.index := by
  induction calls using List.reverseRecOn with
  | nil => rfl
  | append_singleton calls c ih =>
    rw [List.map_append, List.nodup_append] at h
    have hnew : (stored calls).has c.index = false := by
      rw [← Bool.not_eq_true, Dict.has_iff_mem_keys, ih h.1]
      intro hmem
      exact h.2.2 _ hmem _ (by simp) rfl
    rw [stored_concat, Dict.keys_set, hnew, ih h.1, List.map_append]
    rfl

theorem size_stored (calls : List Call) (h : (calls.map Call.index).Nodup) :
    (stored calls).size = calls.length := by
  rw [Dict.size_eq_length_keys, keys_stored calls h, List.length_map]

theorem get?_stored (calls : List Call) (h : (calls.map Call.index).Nodup) (index : Int)
    (hmem : index ∈ calls.map Call.index) :
    (stored calls).get? index = some (chunk calls index) := by
  induction calls using List.reverseRecOn with
  | nil => cases hmem
  | append_singleton calls c ih =>
    rw [List.map_append, List.nodup_append] at h
    rw [stored_concat, Dict.get?_set]
    by_cases hc : c.index = index
    · subst hc
      have hnone : calls.find? (·.index = c.index) = none := by
        rw [List.find?_eq_none]
        intro d hd hdc
        exact h.2.2 d.index (List.mem_map_of_mem hd) c.index (by simp) (by simpa using hdc)
      simp [chunk, List.find?_append, hnone]
    · rw [if_neg hc]
      have hin : index ∈ calls.map Call.index := by
        rw [List.map_append, List.mem_append] at hmem
        rcases hmem with hmem | hmem
        · exact hmem
        · exact absurd (by simpa using hmem : index = c.index).symm hc
      rw [ih h.1 hin]
      obtain ⟨d, hd, hdi⟩ := List.mem_map.mp hin
      have hsome : (calls.find? (·.index = index)).isSome := by
        rw [List.find?_isSome]
        exact ⟨d, hd, by simpa using hdi⟩
      simp only [chunk, List.find?_append, Option.or_of_isSome hsome]

theorem mapM_eq_some {α β : Type} {f : α → Option β} (g : α → β) (l : List α)
    (h : ∀ i ∈ l, f i = some (g i)) : l.mapM f = some (l.map g) := by
  induction l with
  | nil => rfl
  | cons i l ih =>
    rw [List.mapM_cons, h i List.mem_cons_self, ih fun j hj => h j (List.mem_cons_of_mem i hj)]
    rfl

namespace CompleteSet

variable {calls : List Call} {n : Nat}

theorem length_calls (h : CompleteSet calls n) : calls.length = n := by
  have := h.indices.length_eq
  simpa using this

theorem nodup_indices (h : CompleteSet calls n) : (calls.map Call.index).Nodup := by
  rw [h.indices.nodup_iff]
  exact List.nodup_range.map Nat.cast_injective

/-- The whole set on file is put together in index order. -/
theorem collect_stored (h : CompleteSet calls n) :
    collect (stored calls) n = some (reassembled calls n) := by
  unfold collect reassembled
  rw [Int.toNat_natCast, mapM_eq_some fun i : Nat => chunk calls i]
  · rfl
  · intro i hi
    apply get?_stored calls h.nodup_indices
    rw [h.indices.mem_iff]
    exact List.mem_map_of_mem hi

end CompleteSet

/-- The file while the set of `S` comes in: the calls `done` are there, and
`S` began. -/
def Underway (file : File) (S : Str) : List Call → Prop
  | [] => file.1 = none
  | done => ∃ began, file = (some (stored done), some began) ∧ began.2.2 = S

theorem refile_of_underway {file : File} {S : Str} {done : List Call} {c : Call}
    (h : Underway file S done) (hc : c.sender_id = S) : ∃ began : Int × UInt8 × Str, began.2.2 = S ∧
      refile file c =
        if ((stored (done ++ [c])).size : Int) = c.total then
          match collect (stored (done ++ [c])) c.total with
          | none => ((some (stored (done ++ [c])), some began), none)
          | some complete_data => ((none, none), some (complete_data, S))
        else ((some (stored (done ++ [c])), some began), none) := by
  obtain ⟨began, hbegan, hmetadata, hmap⟩ : ∃ began : Int × UInt8 × Str, began.2.2 = S ∧
      (if file.1.isSome then file.2 else some (c.total, c.original_type, c.sender_id)) =
        some began ∧
      (file.1.getD .empty).set c.index c.data = stored (done ++ [c]) := by
    rw [stored_concat]
    cases done with
    | nil =>
      have hnone : file.1 = none := h
      exact ⟨_, hc, by rw [hnone]; rfl, by rw [hnone]; rfl⟩
    | cons d done =>
      obtain ⟨began, rfl, hS⟩ := h
      exact ⟨began, hS, rfl, rfl⟩
  refine ⟨began, hbegan, ?_⟩
  unfold refile
  simp only [hmetadata, hmap, Option.map_some, hbegan, Option.getD_some]

/-- The calls of a complete set, when no other call for its id comes between.
The induction is on the calls still to come. -/
theorem returns_of_underway {S : Str} {fragment_id : Bytes} {n : Nat} (rest : List Call) :
    ∀ (self : FragmentCollector) (done : List Call), rest ≠ [] → CompleteSet (done ++ rest) n →
      (∀ c ∈ rest, c.sender_id = S ∧ c.fragment_id = fragment_id) →
      Underway (self.file fragment_id) S done →
      (self.returns rest).map Prod.snd =
        List.replicate (rest.length - 1) none ++ [some (reassembled (done ++ rest) n, S)] := by
  induction rest with
  | nil => exact fun self done h => absurd rfl h
  | cons c rest ih =>
    intro self done _ hset hown hfile
    obtain ⟨hsender, hid⟩ := hown c List.mem_cons_self
    have htotal : c.total = n := hset.total c (by simp)
    have hsplit : done ++ c :: rest = (done ++ [c]) ++ rest := by simp
    have hlength := hset.length_calls
    have hnodup : ((done ++ [c]).map Call.index).Nodup := by
      have := hset.nodup_indices
      rw [hsplit, List.map_append, List.nodup_append] at this
      exact this.1
    obtain ⟨began, hbegan, hrefile⟩ := refile_of_underway hfile hsender
    have hcall := call_eq_refile self c
    rw [hid, hrefile, size_stored _ hnodup, htotal] at hcall
    simp only [returns, List.map_cons]
    cases rest with
    | nil =>
      -- the last chunk: everything is on file
      have hall : ((done ++ [c]).length : Int) = n := by exact_mod_cast hlength
      rw [if_pos hall, hset.collect_stored] at hcall
      rw [(Prod.mk.inj hcall).2]
      rfl
    | cons d rest =>
      have hmore : ¬ ((done ++ [c]).length : Int) = n := by
        intro h
        simp only [List.length_append, List.length_cons, List.length_nil] at h hlength
        omega
      rw [if_neg hmore] at hcall
      obtain ⟨hfiled, hresult⟩ := Prod.mk.inj hcall
      rw [hresult, hsplit, ih (self.call c).1 (done ++ [c]) (List.cons_ne_nil _ _) (hsplit ▸ hset)
        (fun e he => hown e (List.mem_cons_of_mem c he))]
      · simp [List.replicate_succ]
      · have hunder : Underway ((self.call c).1.file fragment_id) S (done ++ [c]) := by
          cases hdone : done ++ [c] with
          | nil => simp at hdone
          | cons e es => exact ⟨began, by rw [hfiled, hdone], hbegan⟩
        exact hunder

/-! ## Senders beside each other -/

/-- `S` made the call, for this fragment id. -/
def Call.IsFor (S : Str) (fragment_id : Bytes) (c : Call) : Prop :=
  c.sender_id = S ∧ c.fragment_id = fragment_id

instance (S : Str) (fragment_id : Bytes) (c : Call) : Decidable (c.IsFor S fragment_id) := by
  unfold Call.IsFor
  infer_instance

/-- What the calls of `S` for the id return, in a run on a new collector. -/
def returned_to (S : Str) (fragment_id : Bytes) (calls : List Call) : List Returned :=
  ((init.returns calls).filter fun r => r.1.IsFor S fragment_id).map Prod.snd

/-- One of the calls returns `r`, and the others return nothing. -/
def OnceReturned (r : Bytes × Str) (results : List Returned) : Prop :=
  ∃ before after, results = List.replicate before none ++ some r :: List.replicate after none

/-- The set of `S` is put together once, in index order and under the name of
`S`, and the calls of the other senders make no difference. -/
structure Undisturbed (S : Str) (fragment_id : Bytes) (n : Nat) (calls : List Call) : Prop where
  once : OnceReturned (reassembled (calls.filter (·.IsFor S fragment_id)) n, S)
    (returned_to S fragment_id calls)
  alone : returned_to S fragment_id (calls.filter (·.sender_id = S)) =
    returned_to S fragment_id calls

/-- Only the calls for the id decide what `S` gets back. -/
theorem returned_to_eq (S : Str) (fragment_id : Bytes) (calls : List Call) :
    returned_to S fragment_id calls =
      returned_to S fragment_id (calls.filter (·.fragment_id = fragment_id)) := by
  have hfor := (returns_for fragment_id calls init init rfl).1
  have hown (rs : List (Call × Returned)) :
      (rs.filter fun r => r.1.IsFor S fragment_id) =
        (rs.filter (·.1.fragment_id = fragment_id)).filter fun r => r.1.IsFor S fragment_id := by
    rw [List.filter_filter]
    apply List.filter_congr
    intro r _
    by_cases h : r.1.fragment_id = fragment_id <;> simp [Call.IsFor, h]
  have hsame : (init.returns (calls.filter (·.fragment_id = fragment_id))).filter
      (·.1.fragment_id = fragment_id) =
        init.returns (calls.filter (·.fragment_id = fragment_id)) := by
    rw [List.filter_eq_self]
    intro r hr
    exact (List.mem_filter.mp (mem_of_mem_returns hr)).2
  unfold returned_to
  rw [hown, hfor, hown (init.returns _), hsame]

theorem returned_to_append (S : Str) (fragment_id : Bytes) (before during later : List Call)
    (hbefore : ∀ c ∈ before, ¬ c.IsFor S fragment_id)
    (hlater : ∀ c ∈ later, ¬ c.IsFor S fragment_id)
    (hduring : ∀ c ∈ during, c.IsFor S fragment_id) :
    returned_to S fragment_id (before ++ during ++ later) =
      ((init.after before).returns during).map Prod.snd := by
  have hnone (self : FragmentCollector) (calls : List Call)
      (h : ∀ c ∈ calls, ¬ c.IsFor S fragment_id) :
      ((self.returns calls).filter fun r => r.1.IsFor S fragment_id) = [] := by
    rw [List.filter_eq_nil_iff]
    intro r hr
    simpa using h r.1 (mem_of_mem_returns hr)
  unfold returned_to
  rw [returns_append, returns_append, List.filter_append, List.filter_append, hnone _ _ hbefore,
    hnone _ _ hlater, List.nil_append, List.append_nil, List.filter_eq_self.mpr]
  intro r hr
  simpa using hduring r.1 (mem_of_mem_returns hr)

/-- The set on its own, once the calls for other ids are left out. -/
theorem returned_to_complete {S : Str} {fragment_id : Bytes} {n : Nat}
    {before during later : List Call}
    (hbefore : ∀ c ∈ before, ¬ c.IsFor S fragment_id)
    (hlater : ∀ c ∈ later, ¬ c.IsFor S fragment_id)
    (hduring : ∀ c ∈ during, c.IsFor S fragment_id) (hset : CompleteSet during n)
    (hfree : ((init.after before).file fragment_id).1 = none) :
    returned_to S fragment_id (before ++ during ++ later) =
      List.replicate (n - 1) none ++ [some (reassembled during n, S)] := by
  have hne : during ≠ [] := by
    intro h
    have := hset.length_calls
    have := hset.one_or_more
    rw [h, List.length_nil] at *
    omega
  rw [returned_to_append S fragment_id before during later hbefore hlater hduring,
    returns_of_underway during _ [] hne hset hduring hfree, hset.length_calls, List.nil_append]

/-- A complete set is put together once, under its sender, whatever the other
senders call, if nothing is on file for its id when it begins and no other
sender uses the id before it ends. -/
theorem a_set_comes_together_if_its_id_is_free (S : Str) (fragment_id : Bytes) (n : Nat)
    (before during later : List Call)
    (hbefore : ∀ c ∈ before, ¬ c.IsFor S fragment_id)
    (hlater : ∀ c ∈ later, ¬ c.IsFor S fragment_id)
    (hset : CompleteSet (during.filter (·.IsFor S fragment_id)) n)
    (hfree : (init.after before).fragments.has (hex fragment_id) = false)
    (halone : ∀ c ∈ during, c.fragment_id = fragment_id → c.sender_id = S) :
    Undisturbed S fragment_id n (before ++ during ++ later) := by
  -- the calls of `S` for the id are the calls for the id in the middle part
  have hmid : during.filter (·.fragment_id = fragment_id) =
      during.filter (·.IsFor S fragment_id) := by
    apply List.filter_congr
    intro c hc
    by_cases h : c.fragment_id = fragment_id
    · simp [Call.IsFor, h, halone c hc h]
    · simp [Call.IsFor, h]
  have hown : ∀ c ∈ during.filter (·.IsFor S fragment_id), c.IsFor S fragment_id := by
    intro c hc
    simpa using (List.mem_filter.mp hc).2
  have hdrop {calls : List Call} (h : ∀ c ∈ calls, ¬ c.IsFor S fragment_id) :
      calls.filter (·.IsFor S fragment_id) = [] := by
    rw [List.filter_eq_nil_iff]
    intro c hc
    simpa using h c hc
  have hfile : ((init.after (before.filter (·.fragment_id = fragment_id))).file fragment_id).1 =
      none := by
    rw [← (returns_for fragment_id before init init rfl).2]
    simpa [file, Dict.has] using hfree
  -- the run as it is
  have hrun : returned_to S fragment_id (before ++ during ++ later) =
      List.replicate (n - 1) none ++
        [some (reassembled (during.filter (·.IsFor S fragment_id)) n, S)] := by
    rw [returned_to_eq, List.filter_append, List.filter_append, hmid]
    refine returned_to_complete ?_ ?_ hown hset hfile
    · intro c hc
      exact hbefore c (List.mem_filter.mp hc).1
    · intro c hc
      exact hlater c (List.mem_filter.mp hc).1
  -- the run without the other senders
  have hswap : ((before ++ during ++ later).filter (·.sender_id = S)).filter
      (·.fragment_id = fragment_id) = [] ++ during.filter (·.IsFor S fragment_id) ++ [] := by
    have hboth : (fun c : Call => decide (c.IsFor S fragment_id)) =
        fun c => decide (c.fragment_id = fragment_id) && decide (c.sender_id = S) := by
      funext c
      by_cases hid : c.fragment_id = fragment_id <;> simp [Call.IsFor, hid]
    rw [List.filter_filter, ← hboth, List.filter_append, List.filter_append, hdrop hbefore,
      hdrop hlater]
  have hwithout : returned_to S fragment_id
      ((before ++ during ++ later).filter (·.sender_id = S)) =
      List.replicate (n - 1) none ++
        [some (reassembled (during.filter (·.IsFor S fragment_id)) n, S)] := by
    rw [returned_to_eq, hswap]
    exact returned_to_complete (fun c hc => absurd hc List.not_mem_nil)
      (fun c hc => absurd hc List.not_mem_nil) hown hset rfl
  refine ⟨⟨n - 1, 0, ?_⟩, ?_⟩
  · rw [hrun, List.filter_append, List.filter_append, hdrop hbefore, hdrop hlater, List.nil_append,
      List.append_nil]
    rfl
  · rw [hwithout, hrun]

section Runs

/-- The call with one byte of data. -/
def one_byte (sender_id : Str) (index total : Int) (data : UInt8) : Call where
  sender_id
  fragment_id := [5]
  index
  total
  original_type := 4
  data := [data]

/-- Another sender's call for another id falls between the two chunks. -/
theorem a_set_comes_together_beside_another :
    Undisturbed ['a'] [5] 2 ([] ++ [one_byte ['a'] 1 2 11, { one_byte ['b'] 0 2 20 with
      fragment_id := [6] }, one_byte ['a'] 0 2 10] ++ [one_byte ['b'] 0 7 30]) :=
  a_set_comes_together_if_its_id_is_free ['a'] [5] 2 [] [one_byte ['a'] 1 2 11,
    { one_byte ['b'] 0 2 20 with fragment_id := [6] }, one_byte ['a'] 0 2 10]
    [one_byte ['b'] 0 7 30] (by decide) (by decide) ⟨by decide, by decide, by decide⟩ (by decide)
    (by decide)

/-- Where `b` used the id first, the complete set of `a` comes out under the
name of `b`. -/
theorem a_set_with_a_used_id_is_disturbed :
    CompleteSet ([one_byte ['b'] 0 2 30, one_byte ['a'] 0 2 10, one_byte ['a'] 1 2 11].filter
        (·.IsFor ['a'] [5])) 2 ∧
      ¬ Undisturbed ['a'] [5] 2
        [one_byte ['b'] 0 2 30, one_byte ['a'] 0 2 10, one_byte ['a'] 1 2 11] := by
  refine ⟨⟨by decide, by decide, by decide⟩, ?_⟩
  rintro ⟨⟨before, later, h⟩, -⟩
  have hmem : some ([10, 11], ['a']) ∈ returned_to ['a'] [5]
      [one_byte ['b'] 0 2 30, one_byte ['a'] 0 2 10, one_byte ['a'] 1 2 11] := by
    rw [h]
    exact List.mem_append_right _ List.mem_cons_self
  revert hmem
  decide

end Runs

end bitchat.protocol.FragmentCollector
