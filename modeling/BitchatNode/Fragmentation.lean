-- `fragment_payload` cuts a payload into fragments, and a `FragmentCollector`
-- puts them together in whatever order and however often they arrive.
import BitchatNode.FragmentSets

namespace bitchat.fragmentation

open python bitchat.protocol bitchat.protocol.FragmentCollector

/-! ## Cutting -/

def MAX_FRAGMENT_SIZE : Nat := 500

inductive FragmentType where
  | START
  | CONTINUE
  | END
deriving DecidableEq

structure Fragment where
  fragment_id : Bytes
  fragment_type : FragmentType
  index : Nat
  total : Nat
  original_type : UInt8
  data : Bytes
deriving DecidableEq

/-- `range(0, stop, step)`. -/
def range_by (stop step : Nat) : List Nat :=
  (List.range ((stop + (step - 1)) / step)).map (step * ·)

def chunks (payload : Bytes) : List Bytes :=
  (range_by payload.length MAX_FRAGMENT_SIZE).map fun i => slice payload i (i + MAX_FRAGMENT_SIZE)

def fragment_type (i total : Nat) : FragmentType :=
  if i = 0 then .START else if i = total - 1 then .END else .CONTINUE

/-- The fragment of the `i`-th chunk. -/
def cut (fragment_id : Bytes) (total : Nat) (original_msg_type : UInt8) (i : Nat) (chunk : Bytes) :
    Fragment where
  fragment_id
  fragment_type := fragment_type i total
  index := i
  total
  original_type := original_msg_type
  data := chunk

def fragment_payload (payload : Bytes) (original_msg_type : UInt8) (entropy : Entropy) :
    List Fragment :=
  if payload.length ≤ MAX_FRAGMENT_SIZE then []
  else
    let fragment_id := entropy.urandom 8
    (chunks payload).mapIdx (cut fragment_id (chunks payload).length original_msg_type)

/-- The fragments of a payload: numbered in order, with one id and one total,
and chunks that make up the payload. -/
structure Cuts (payload fragment_id : Bytes) (fragments : List Fragment) : Prop where
  numbered : fragments.map Fragment.index = List.range fragments.length
  ids : ∀ f ∈ fragments, f.fragment_id = fragment_id
  totals : ∀ f ∈ fragments, f.total = fragments.length
  nonempty : ∀ f ∈ fragments, f.data ≠ []
  short : ∀ f ∈ fragments, f.data.length ≤ MAX_FRAGMENT_SIZE
  whole : (fragments.map Fragment.data).flatten = payload
  types : fragments.map Fragment.fragment_type =
    .START :: List.replicate (fragments.length - 2) .CONTINUE ++ [.END]

/-- Slices that follow each other make up what they are taken from. -/
theorem flatten_slices (data : Bytes) (size n : Nat) :
    ((List.range n).map fun i => slice data (size * i) (size * i + size)).flatten =
      data.take (size * n) := by
  induction n with
  | zero => simp
  | succ n ih =>
    rw [List.range_succ, List.map_append, List.flatten_append, ih, Nat.mul_succ, List.take_add]
    simp [slice]

theorem length_chunks (payload : Bytes) :
    (chunks payload).length = (payload.length + 499) / 500 := by
  simp [chunks, range_by, MAX_FRAGMENT_SIZE]

theorem flatten_chunks (payload : Bytes) : (chunks payload).flatten = payload := by
  unfold chunks range_by
  rw [List.map_map]
  refine (flatten_slices payload MAX_FRAGMENT_SIZE _).trans (List.take_of_length_le ?_)
  unfold MAX_FRAGMENT_SIZE
  omega

theorem length_of_mem_chunks {payload chunk : Bytes} (h : chunk ∈ chunks payload) :
    0 < chunk.length ∧ chunk.length ≤ MAX_FRAGMENT_SIZE := by
  simp only [chunks, range_by, List.map_map, List.mem_map, List.mem_range] at h
  obtain ⟨i, hi, rfl⟩ := h
  simp only [slice, Function.comp_apply, List.length_take, List.length_drop, MAX_FRAGMENT_SIZE] at *
  omega

/-- One that starts, one that ends, and all between go on. -/
theorem map_fragment_type {total : Nat} (h : 2 ≤ total) :
    (List.range total).map (fragment_type · total) =
      .START :: List.replicate (total - 2) .CONTINUE ++ [.END] := by
  obtain ⟨n, rfl⟩ := Nat.exists_eq_add_of_le' h
  have hmiddle : (List.range n).map (fun i => fragment_type (i + 1) (n + 2)) =
      List.replicate n .CONTINUE := by
    rw [List.eq_replicate_iff]
    refine ⟨by simp, ?_⟩
    intro t ht
    obtain ⟨i, hi, rfl⟩ := List.mem_map.mp ht
    rw [List.mem_range] at hi
    unfold fragment_type
    rw [if_neg (by omega), if_neg (by omega)]
  rw [List.range_succ, List.range_succ_eq_map, List.map_append, List.map_cons, List.map_map]
  simp only [Function.comp_def, Nat.succ_eq_add_one, hmiddle, Nat.add_sub_cancel]
  simp [fragment_type]

theorem fragment_payload_of_large {payload : Bytes} (h : MAX_FRAGMENT_SIZE < payload.length)
    (original_msg_type : UInt8) (entropy : Entropy) :
    fragment_payload payload original_msg_type entropy = (chunks payload).mapIdx
      (cut (entropy.urandom 8) (chunks payload).length original_msg_type) := by
  unfold fragment_payload
  rw [if_neg (by omega)]

theorem cuts_fragment_payload {payload : Bytes} (h : MAX_FRAGMENT_SIZE < payload.length)
    (original_msg_type : UInt8) (entropy : Entropy) :
    Cuts payload (entropy.urandom 8) (fragment_payload payload original_msg_type entropy) := by
  have htwo : 2 ≤ (chunks payload).length := by
    rw [length_chunks]
    unfold MAX_FRAGMENT_SIZE at h
    omega
  rw [fragment_payload_of_large h]
  refine ⟨?_, ?_, ?_, ?_, ?_, ?_, ?_⟩
  · apply List.ext_getElem
    · simp
    · intro i hi hi'
      simp [cut]
  · intro f hf
    obtain ⟨i, hi, rfl⟩ := List.mem_mapIdx.mp hf
    rfl
  · intro f hf
    obtain ⟨i, hi, rfl⟩ := List.mem_mapIdx.mp hf
    simp [cut]
  · intro f hf
    obtain ⟨i, hi, rfl⟩ := List.mem_mapIdx.mp hf
    have hlength := (length_of_mem_chunks (List.getElem_mem hi)).1
    exact List.ne_nil_of_length_pos hlength
  · intro f hf
    obtain ⟨i, hi, rfl⟩ := List.mem_mapIdx.mp hf
    exact (length_of_mem_chunks (List.getElem_mem hi)).2
  · have hdata : ((chunks payload).mapIdx (cut (entropy.urandom 8) (chunks payload).length
        original_msg_type)).map Fragment.data = chunks payload := by
      apply List.ext_getElem
      · simp
      · intro i hi hi'
        simp [cut]
    rw [hdata, flatten_chunks]
  · have htypes : ((chunks payload).mapIdx (cut (entropy.urandom 8) (chunks payload).length
        original_msg_type)).map Fragment.fragment_type =
          (List.range (chunks payload).length).map (fragment_type · (chunks payload).length) := by
      apply List.ext_getElem
      · simp
      · intro i hi hi'
        simp [cut]
    rw [htypes, List.length_mapIdx, map_fragment_type htwo]

/-! ## Feeding -/

/-- The call of `add_fragment` with the fragment, under a sender id. -/
def Fragment.fed (self : Fragment) (sender_id : Str) : Call where
  sender_id
  fragment_id := self.fragment_id
  index := self.index
  total := self.total
  original_type := self.original_type
  data := self.data

/-- Every call is one of the fragments, under this sender id. -/
def Feeds (sender_id : Str) (fragments : List Fragment) (calls : List Call) : Prop :=
  ∀ c ∈ calls, ∃ f ∈ fragments, c = f.fed sender_id

theorem mem_keys_stored (calls : List Call) (index : Int) :
    index ∈ (stored calls).keys ↔ index ∈ calls.map Call.index := by
  induction calls using List.reverseRecOn with
  | nil => simp [stored, Dict.keys, Dict.empty]
  | append_singleton calls c ih =>
    rw [stored_concat, ← Dict.has_iff_mem_keys, List.map_append, List.mem_append, ← ih,
      ← Dict.has_iff_mem_keys]
    by_cases hc : c.index = index
    · subst hc
      simp [Dict.has_set_self]
    · rw [Dict.has_set_ne _ _ hc]
      simp [Ne.symm hc]

namespace Cuts

variable {payload fragment_id : Bytes} {fragments : List Fragment} {sender_id : Str}

theorem eq_of_index_eq (h : Cuts payload fragment_id fragments) {f g : Fragment}
    (hf : f ∈ fragments) (hg : g ∈ fragments) (hindex : f.index = g.index) : f = g := by
  apply List.inj_on_of_nodup_map _ hf hg hindex
  rw [h.numbered]
  exact List.nodup_range

/-- A fragment that was fed is on file, however often it came. -/
theorem get?_stored (h : Cuts payload fragment_id fragments) {done : List Call}
    (hfeeds : Feeds sender_id fragments done) {f : Fragment} (hf : f ∈ fragments)
    (hfed : f.fed sender_id ∈ done) : (stored done).get? f.index = some f.data := by
  induction done using List.reverseRecOn with
  | nil => cases hfed
  | append_singleton done c ih =>
    obtain ⟨g, hg, rfl⟩ := hfeeds c (by simp)
    rw [stored_concat, Dict.get?_set]
    by_cases hindex : g.index = f.index
    · rw [h.eq_of_index_eq hg hf hindex]
      simp [Fragment.fed]
    · rw [if_neg (by simpa [Fragment.fed] using hindex)]
      apply ih
      · intro d hd
        exact hfeeds d (List.mem_append_left _ hd)
      · rcases List.mem_append.mp hfed with hfed | hfed
        · exact hfed
        · have hsame := congrArg Call.index (List.mem_singleton.mp hfed)
          simp only [Fragment.fed, Nat.cast_inj] at hsame
          omega

theorem keys_stored_subset {done : List Call} (hfeeds : Feeds sender_id fragments done) :
    (stored done).keys ⊆ fragments.map fun f : Fragment => (f.index : Int) := by
  intro index hindex
  obtain ⟨c, hc, rfl⟩ := List.mem_map.mp ((mem_keys_stored done index).mp hindex)
  obtain ⟨f, hf, rfl⟩ := hfeeds c hc
  exact List.mem_map_of_mem hf

/-- As long as a fragment is missing, so is a chunk. -/
theorem size_stored_lt (h : Cuts payload fragment_id fragments) {done : List Call}
    (hfeeds : Feeds sender_id fragments done) {f : Fragment} (hf : f ∈ fragments)
    (hmissing : f.fed sender_id ∉ done) : (stored done).size < fragments.length := by
  have hnew : (f.index : Int) ∉ (stored done).keys := by
    intro hkey
    obtain ⟨c, hc, hindex⟩ := List.mem_map.mp ((mem_keys_stored done _).mp hkey)
    obtain ⟨g, hg, rfl⟩ := hfeeds c hc
    rw [h.eq_of_index_eq hg hf (Nat.cast_inj.mp hindex)] at hc
    exact hmissing hc
  have hsubset : (f.index : Int) :: (stored done).keys ⊆
      fragments.map fun f : Fragment => (f.index : Int) := by
    rw [List.cons_subset]
    exact ⟨List.mem_map_of_mem hf, keys_stored_subset hfeeds⟩
  have hlength := (List.subperm_of_subset (List.nodup_cons.mpr ⟨hnew, (stored done).keys_nodup⟩)
    hsubset).length_le
  rw [List.length_cons, List.length_map, ← Dict.size_eq_length_keys] at hlength
  omega

theorem size_stored_eq (h : Cuts payload fragment_id fragments) {done : List Call}
    (hfeeds : Feeds sender_id fragments done) (hall : ∀ f ∈ fragments, f.fed sender_id ∈ done) :
    (stored done).size = fragments.length := by
  have hnodup : (fragments.map fun f : Fragment => (f.index : Int)).Nodup := by
    have hcast : (fragments.map fun f : Fragment => (f.index : Int)) =
        (fragments.map Fragment.index).map Nat.cast := by
      rw [List.map_map]
      rfl
    rw [hcast, h.numbered]
    exact List.nodup_range.map Nat.cast_injective
  have hsubset : (fragments.map fun f : Fragment => (f.index : Int)) ⊆ (stored done).keys := by
    intro index hindex
    obtain ⟨f, hf, rfl⟩ := List.mem_map.mp hindex
    rw [mem_keys_stored]
    exact List.mem_map_of_mem (f := Call.index) (hall f hf)
  have hle := (List.subperm_of_subset hnodup hsubset).length_le
  have hge := (List.subperm_of_subset (stored done).keys_nodup
    (keys_stored_subset hfeeds)).length_le
  rw [List.length_map, ← Dict.size_eq_length_keys] at hle hge
  omega

/-- Once every fragment was fed, the chunks on file make up the payload. -/
theorem collect_stored (h : Cuts payload fragment_id fragments) {done : List Call}
    (hfeeds : Feeds sender_id fragments done) (hall : ∀ f ∈ fragments, f.fed sender_id ∈ done) :
    collect (stored done) fragments.length = some payload := by
  have hchunks : (List.range fragments.length).mapM (fun i : Nat => (stored done).get? i) =
      some (fragments.map Fragment.data) := by
    rw [← h.numbered, List.mapM_map]
    apply mapM_eq_some
    intro f hf
    exact h.get?_stored hfeeds hf (hall f hf)
  unfold collect
  rw [Int.toNat_natCast, hchunks, Option.map_some, h.whole]

/-- A call while a fragment is still missing files its chunk and returns
nothing. -/
theorem refile_of_missing (h : Cuts payload fragment_id fragments) {file : File} {done : List Call}
    {c : Call} (hunder : Underway file sender_id done)
    (hfeeds : Feeds sender_id fragments (done ++ [c])) {f : Fragment} (hf : f ∈ fragments)
    (hmissing : f.fed sender_id ∉ done ++ [c]) :
    (refile file c).2 = none ∧ Underway (refile file c).1 sender_id (done ++ [c]) := by
  obtain ⟨g, hg, hc⟩ := hfeeds c (by simp)
  obtain ⟨began, hbegan, hrefile⟩ := refile_of_underway hunder (congrArg Call.sender_id hc)
  have hlt := h.size_stored_lt hfeeds hf hmissing
  have htotal : c.total = fragments.length := by
    rw [hc]
    exact congrArg Nat.cast (h.totals g hg)
  rw [htotal, if_neg (by omega)] at hrefile
  rw [hrefile]
  refine ⟨rfl, ?_⟩
  cases hdone : done ++ [c] with
  | nil => simp at hdone
  | cons d rest => exact ⟨began, rfl, hbegan⟩

/-- The call that brings the last missing fragment returns the payload and
clears the file. -/
theorem refile_of_last (h : Cuts payload fragment_id fragments) {file : File} {done : List Call}
    {f : Fragment} (hunder : Underway file sender_id done)
    (hfeeds : Feeds sender_id fragments done) (hf : f ∈ fragments)
    (hall : ∀ g ∈ fragments, g ≠ f → g.fed sender_id ∈ done) :
    refile file (f.fed sender_id) = ((none, none), some (payload, sender_id)) := by
  have hfeeds' : Feeds sender_id fragments (done ++ [f.fed sender_id]) := by
    intro c hc
    rcases List.mem_append.mp hc with hc | hc
    · exact hfeeds c hc
    · exact ⟨f, hf, List.mem_singleton.mp hc⟩
  have hall' : ∀ g ∈ fragments, g.fed sender_id ∈ done ++ [f.fed sender_id] := by
    intro g hg
    by_cases hgf : g = f
    · rw [hgf]
      exact List.mem_append_right _ List.mem_cons_self
    · exact List.mem_append_left _ (hall g hg hgf)
  have htotal : (f.fed sender_id).total = fragments.length := congrArg Nat.cast (h.totals f hf)
  obtain ⟨began, -, hrefile⟩ := refile_of_underway hunder (rfl : (f.fed sender_id).sender_id = _)
  rw [hrefile, htotal, h.size_stored_eq hfeeds' hall', if_pos rfl, h.collect_stored hfeeds' hall']

/-- The calls of the set, one after the other, while a fragment is missing. -/
theorem waiting (h : Cuts payload fragment_id fragments) {f : Fragment} (hf : f ∈ fragments)
    (rest : List Call) : ∀ (self : FragmentCollector) (done : List Call),
      Underway (self.file fragment_id) sender_id done →
      Feeds sender_id fragments (done ++ rest) → f.fed sender_id ∉ done ++ rest →
      (∀ r ∈ self.returns rest, r.2 = none) ∧
        Underway ((self.after rest).file fragment_id) sender_id (done ++ rest) := by
  induction rest with
  | nil =>
    intro self done hunder _ _
    rw [List.append_nil]
    exact ⟨fun r hr => absurd hr List.not_mem_nil, hunder⟩
  | cons c rest ih =>
    intro self done hunder hfeeds hmissing
    have hsplit : done ++ c :: rest = (done ++ [c]) ++ rest := by simp
    rw [hsplit] at hfeeds hmissing ⊢
    obtain ⟨g, hg, hc⟩ := hfeeds c (by simp)
    have hid : c.fragment_id = fragment_id := by
      rw [hc]
      exact h.ids g hg
    obtain ⟨hresult, hnext⟩ := h.refile_of_missing hunder
      (fun d hd => hfeeds d (List.mem_append_left rest hd)) hf
      (fun hin => hmissing (List.mem_append_left rest hin))
    have hcall := call_eq_refile self c
    rw [hid] at hcall
    obtain ⟨hfile, hreturned⟩ := Prod.mk.inj hcall
    obtain ⟨hnone, hafter⟩ := ih (self.call c).1 (done ++ [c]) (hfile ▸ hnext) hfeeds hmissing
    refine ⟨?_, hafter⟩
    intro r hr
    rcases List.mem_cons.mp hr with rfl | hr
    · exact hreturned.trans hresult
    · exact hnone r hr

end Cuts

/-! ## Among other calls -/

/-- The calls for the other ids, from two collectors that agree on them. -/
theorem returns_for_others (fragment_id : Bytes) (calls : List Call) :
    ∀ self other : FragmentCollector,
      (∀ id, id ≠ fragment_id → self.file id = other.file id) →
      (self.returns calls).filter (·.1.fragment_id ≠ fragment_id) =
          other.returns (calls.filter (·.fragment_id ≠ fragment_id)) ∧
        ∀ id, id ≠ fragment_id → (self.after calls).file id =
          (other.after (calls.filter (·.fragment_id ≠ fragment_id))).file id := by
  induction calls with
  | nil => exact fun self other h => ⟨rfl, h⟩
  | cons c calls ih =>
    intro self other h
    by_cases hc : c.fragment_id = fragment_id
    · have hleft : ∀ id, id ≠ fragment_id → (self.call c).1.file id = other.file id := by
        intro id hid
        rw [file_call_of_ne self c (by rw [hc]; exact hid.symm), h id hid]
      simpa [returns, after, hc] using ih (self.call c).1 other hleft
    · have hcall : ((self.call c).1.file c.fragment_id, (self.call c).2) =
          ((other.call c).1.file c.fragment_id, (other.call c).2) := by
        rw [call_eq_refile, call_eq_refile, h c.fragment_id hc]
      obtain ⟨hfile, hresult⟩ := Prod.mk.inj hcall
      have hboth : ∀ id, id ≠ fragment_id → (self.call c).1.file id = (other.call c).1.file id := by
        intro id hid
        by_cases hsame : c.fragment_id = id
        · rw [← hsame, hfile]
        · rw [file_call_of_ne self c hsame, file_call_of_ne other c hsame, h id hid]
      simpa [returns, after, hc, hresult] using ih (self.call c).1 (other.call c).1 hboth

/-- The calls for the id are fragments under this sender id. -/
def FeedsFor (fragment_id : Bytes) (sender_id : Str) (fragments : List Fragment)
    (calls : List Call) : Prop :=
  Feeds sender_id fragments (calls.filter (·.fragment_id = fragment_id))

/-- The last fragment came with this call: it returns the payload and the
sender, leaves nothing on file for the id, and the calls for the other ids
went as if the fragments had never come. -/
structure ComesTogether (self : FragmentCollector) (payload fragment_id : Bytes) (sender_id : Str)
    (calls : List Call) (last : Call) : Prop where
  returned : ((self.after calls).call last).2 = some (payload, sender_id)
  cleared : ((self.after calls).call last).1.file fragment_id = (none, none)
  others_returned : (self.returns calls).filter (·.1.fragment_id ≠ fragment_id) =
    self.returns (calls.filter (·.fragment_id ≠ fragment_id))
  others_filed : ∀ id, id ≠ fragment_id → ((self.after calls).call last).1.file id =
    (self.after (calls.filter (·.fragment_id ≠ fragment_id))).file id

/-- `fragment_payload` cuts a payload of more than 500 bytes, and a collector
with nothing on file for the id returns nothing for it while a fragment is
missing, and the payload when the last one comes. -/
theorem fragments_come_together {payload : Bytes} (hlarge : MAX_FRAGMENT_SIZE < payload.length)
    (original_msg_type : UInt8) (entropy : Entropy) :
    Cuts payload (entropy.urandom 8) (fragment_payload payload original_msg_type entropy) ∧
    ∀ (self : FragmentCollector) (sender_id : Str) (calls : List Call),
      ∀ f ∈ fragment_payload payload original_msg_type entropy,
      self.fragments.has (hex (entropy.urandom 8)) = false →
      FeedsFor (entropy.urandom 8) sender_id (fragment_payload payload original_msg_type entropy)
        calls →
      f.fed sender_id ∉ calls →
      (∀ r ∈ self.returns calls, r.1.fragment_id = entropy.urandom 8 → r.2 = none) ∧
      ((∀ g ∈ fragment_payload payload original_msg_type entropy, g ≠ f →
          g.fed sender_id ∈ calls) →
        ComesTogether self payload (entropy.urandom 8) sender_id calls (f.fed sender_id)) := by
  have hcuts := cuts_fragment_payload hlarge original_msg_type entropy
  refine ⟨hcuts, ?_⟩
  intro self sender_id calls f hf hfree hfeeds hmissing
  have hid : (f.fed sender_id).fragment_id = entropy.urandom 8 := hcuts.ids f hf
  have hstart : Underway (self.file (entropy.urandom 8)) sender_id [] :=
    (Dict.has_eq_false_iff _ _).mp hfree
  obtain ⟨hnone, hunder⟩ := hcuts.waiting hf (calls.filter (·.fragment_id = entropy.urandom 8))
    self [] hstart hfeeds (fun hin => hmissing (List.mem_filter.mp hin).1)
  obtain ⟨hown, hownfile⟩ := returns_for (entropy.urandom 8) calls self self rfl
  obtain ⟨hothers, hothersfile⟩ := returns_for_others (entropy.urandom 8) calls self self
    (fun _ _ => rfl)
  constructor
  · intro r hr hrid
    apply hnone r
    rw [← hown, List.mem_filter]
    exact ⟨hr, by simpa using hrid⟩
  · intro hall
    have hlast : refile ((self.after calls).file (entropy.urandom 8)) (f.fed sender_id) =
        ((none, none), some (payload, sender_id)) := by
      rw [hownfile]
      apply hcuts.refile_of_last hunder hfeeds hf
      intro g hg hgf
      rw [List.nil_append, List.mem_filter]
      exact ⟨hall g hg hgf, decide_eq_true (hcuts.ids g hg)⟩
    have hcall := call_eq_refile (self.after calls) (f.fed sender_id)
    rw [hid, hlast] at hcall
    obtain ⟨hcleared, hreturned⟩ := Prod.mk.inj hcall
    refine ⟨hreturned, hcleared, hothers, ?_⟩
    intro id hne
    rw [file_call_of_ne _ _ (by rw [hid]; exact hne.symm), hothersfile id hne]

section Runs

/-- A random source that gives fives. -/
def fives : Entropy := ⟨fun n => List.replicate n 5, fun _ => List.length_replicate⟩

def large : Bytes := List.replicate 501 7

def first_fragment : Fragment := cut (fives.urandom 8) 2 4 0 (List.replicate 500 7)
def second_fragment : Fragment := cut (fives.urandom 8) 2 4 1 [7]

theorem fragment_payload_large :
    fragment_payload large 4 fives = [first_fragment, second_fragment] := by decide +kernel

/-- The second fragment comes twice before the first. -/
theorem two_fragments_come_together :
    MAX_FRAGMENT_SIZE < large.length ∧
    ComesTogether .init large (fives.urandom 8) ['a']
      [second_fragment.fed ['a'], second_fragment.fed ['a']] (first_fragment.fed ['a']) := by
  have hlarge : MAX_FRAGMENT_SIZE < large.length := by
    unfold large
    rw [List.length_replicate]
    decide
  refine ⟨hlarge, ?_⟩
  have hset := (fragments_come_together hlarge 4 fives).2 .init ['a']
    [second_fragment.fed ['a'], second_fragment.fed ['a']] first_fragment
  rw [fragment_payload_large] at hset
  refine (hset List.mem_cons_self rfl ?_ (by decide +kernel)).2 (by decide +kernel)
  intro c hc
  refine ⟨second_fragment, List.mem_cons_of_mem _ List.mem_cons_self, ?_⟩
  rcases List.mem_cons.mp (List.mem_filter.mp hc).1 with hc | hc
  · exact hc
  · exact List.mem_singleton.mp hc

end Runs

end bitchat.fragmentation
