-- `str.split` and its relatives, on the white space of `str.strip`, and
-- indexing from the end.
import BitchatNode.Python.Bytes

namespace python

/-- `s.split()`. -/
def split (s : Str) : List Str := (s.splitOnP isSpace).filter (· ≠ [])

/-- `s.split(maxsplit=n)`. What is left after `n` words keeps the white space
at its end. -/
def splitMax : Nat → Str → List Str
  | 0, s => if s.dropWhile isSpace = [] then [] else [s.dropWhile isSpace]
  | n + 1, s =>
    let s := s.dropWhile isSpace
    if s = [] then [] else s.takeWhile (! isSpace ·) :: splitMax n (s.dropWhile (! isSpace ·))

/-- `s.lstrip(c)`. -/
def lstrip (c : Char) (s : Str) : Str := s.dropWhile (· = c)

/-- `xs[i]`, or `none` where Python raises `IndexError`. -/
def item {α : Type} (xs : List α) (i : Int) : Option α :=
  if 0 ≤ i then xs[i.toNat]?
  else if 0 ≤ i + xs.length then xs[(i + xs.length).toNat]? else none

/-- The parts of a split do not hold the separator. -/
theorem notMem_of_mem_splitOn {c : Char} {s part : Str} (h : part ∈ s.splitOn c) : c ∉ part := by
  unfold List.splitOn at h
  induction s generalizing part with
  | nil =>
    rw [List.splitOnP_nil, List.mem_singleton] at h
    simp [h]
  | cons d s ih =>
    rw [List.splitOnP_cons_eq_if_modifyHead] at h
    split at h
    · rcases List.mem_cons.mp h with rfl | htail
      · simp
      · exact ih htail
    · rename_i hd
      rcases hs : s.splitOnP (· == c) with _ | ⟨first, rest⟩
      · exact absurd hs (List.splitOnP_ne_nil _ _)
      · rw [hs] at h ih
        rcases List.mem_cons.mp h with rfl | htail
        · have hfirst := ih List.mem_cons_self
          have hne : c ≠ d := fun he => hd (by simp [he])
          simp [hne, hfirst]
        · exact ih (List.mem_cons_of_mem _ htail)
end python
