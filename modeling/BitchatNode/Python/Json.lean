-- JSON: values, the text that `json.dump(.., indent=2)` writes for one, and a
-- reader for JSON texts. The reader gives back what was written, and refuses
-- whatever begins the text of an object and is not all of it.
import BitchatNode.Python.Bytes
import BitchatNode.Python.Dict

namespace python.json

/-! ## Values -/

/-- The characters of a number. -/
def isNumeric (c : Char) : Bool :=
  c.isDigit || c = '-' || c = '+' || c = '.' || c = 'e' || c = 'E'

/-- A digit or more. -/
def isDigits (s : Str) : Bool := s ≠ [] && s.all Char.isDigit

/-- `0`, or digits without a leading zero. -/
def isInteger (s : Str) : Bool := isDigits s && (s = ['0'] || s.head? ≠ some '0')

def unsigned (signs : List Char) (s : Str) : Str := if s.head?.any (· ∈ signs) then s.tail else s

/-- `-?(0|[1-9]\d*)(\.\d+)?([eE][-+]?\d+)?`. -/
def isNumber (s : Str) : Bool :=
  let mantissa := s.takeWhile fun c => c ≠ 'e' && c ≠ 'E'
  let exponent := s.dropWhile fun c => c ≠ 'e' && c ≠ 'E'
  let integer := mantissa.takeWhile (· ≠ '.')
  let fraction := mantissa.dropWhile (· ≠ '.')
  s.all isNumeric && isInteger (unsigned ['-'] integer) &&
    (fraction = [] || isDigits fraction.tail) &&
    (exponent = [] || isDigits (unsigned ['-', '+'] exponent.tail))

/-- A number as it stands in a text. -/
structure Literal where
  text : Str
  isNumber : isNumber text = true

/-- A value. The fields of an object are in the order of the text. -/
inductive Json
  | null
  | bool (b : Bool)
  | num (literal : Literal)
  | str (s : Str)
  | list (items : List Json)
  | dict (fields : List (Str × Json))

/-! ## Writing -/

/-- The UTF-16 code units of a character. -/
def units (c : Char) : List Nat :=
  if c.toNat < 0x10000 then [c.toNat]
  else [0xD800 + (c.toNat - 0x10000) / 1024, 0xDC00 + (c.toNat - 0x10000) % 1024]

/-- The letter behind the backslash, for the units that have one. -/
def shortEscape (v : Nat) : Option Char :=
  [(34, '"'), (92, '\\'), (10, 'n'), (13, 'r'), (9, 't'), (8, 'b'), (12, 'f')].lookup v

/-- A code unit inside a string, in ASCII. -/
def escape (v : Nat) : Str :=
  match shortEscape v with
  | some c => ['\\', c]
  | none =>
    if 32 ≤ v ∧ v ≤ 126 then [Char.ofNat v]
    else ['\\', 'u', hexDigit (v / 4096 % 16), hexDigit (v / 256 % 16), hexDigit (v / 16 % 16),
      hexDigit (v % 16)]

def quote (s : Str) : Str := '"' :: (s.flatMap units).flatMap escape ++ ['"']

/-- A line break and the indentation of a level. -/
def newline (level : Nat) : Str := '\n' :: List.replicate (2 * level) ' '

mutual

/-- What `json.dump(value, f, indent=2)` writes at a level. -/
def dump (level : Nat) : Json → Str
  | .null => "null".toList
  | .bool b => if b then "true".toList else "false".toList
  | .num literal => literal.text
  | .str s => quote s
  | .list [] => "[]".toList
  | .list (v :: vs) =>
    '[' :: newline (level + 1) ++ dump (level + 1) v ++ dumpItems (level + 1) vs ++ newline level ++
      [']']
  | .dict [] => ['{', '}']
  | .dict ((k, v) :: fields) =>
    '{' :: newline (level + 1) ++ quote k ++ ": ".toList ++ dump (level + 1) v ++
      dumpFields (level + 1) fields ++ newline level ++ ['}']

def dumpItems (level : Nat) : List Json → Str
  | [] => []
  | v :: vs => ',' :: newline level ++ dump level v ++ dumpItems level vs

def dumpFields (level : Nat) : List (Str × Json) → Str
  | [] => []
  | (k, v) :: fields =>
    ',' :: newline level ++ quote k ++ ": ".toList ++ dump level v ++ dumpFields level fields

end

/-! ## Reading -/

def isBlank (c : Char) : Bool := c = ' ' || c = '\t' || c = '\n' || c = '\r'

def skip (s : Str) : Str := s.dropWhile isBlank

/-- The units behind `\u`. -/
def hex4 : Str → Option (Nat × Str)
  | a :: b :: c :: d :: rest => do
    let a ← hexVal a
    let b ← hexVal b
    let c ← hexVal c
    let d ← hexVal d
    some (4096 * a + 256 * b + 16 * c + d, rest)
  | _ => none

def unescape (c : Char) : Option Nat :=
  [('"', 34), ('\\', 92), ('/', 47), ('n', 10), ('r', 13), ('t', 9), ('b', 8), ('f', 12)].lookup c

/-- One character or escape inside a string. -/
def piece : Str → Option (Nat × Str)
  | [] => none
  | c :: rest =>
    if c ≠ '\\' then if c.toNat < 32 then none else some (c.toNat, rest)
    else match rest with
    | [] => none
    | e :: rest => if e = 'u' then hex4 rest else (unescape e).map fun v => (v, rest)

/-- The pieces up to the closing quote. -/
def pieces : Nat → Str → Option (List Nat × Str)
  | 0, _ => none
  | _ + 1, [] => none
  | fuel + 1, c :: s =>
    if c = '"' then some ([], s)
    else do
      let (v, s) ← piece (c :: s)
      let (vs, s) ← pieces fuel s
      some (v :: vs, s)

/-- The text of the units. Half of a surrogate pair is no character. -/
def combine : List Nat → Option Str
  | [] => some []
  | v :: vs =>
    if 0xD800 ≤ v ∧ v < 0xDC00 then
      match vs with
      | [] => none
      | w :: ws =>
        if 0xDC00 ≤ w ∧ w < 0xE000 then
          (combine ws).map (Char.ofNat (0x10000 + 1024 * (v - 0xD800) + (w - 0xDC00)) :: ·)
        else none
    else if 0xDC00 ≤ v ∧ v < 0xE000 then none
    else (combine vs).map (Char.ofNat v :: ·)

/-- A string behind its opening quote. -/
def string (s : Str) : Option (Str × Str) := do
  let (vs, rest) ← pieces s.length s
  let t ← combine vs
  some (t, rest)

def keyword (word : Str) (v : Json) (s : Str) : Option (Json × Str) :=
  if word <+: s then some (v, s.drop word.length) else none

/-- All numeric characters that come next have to make a number. -/
def number (s : Str) : Option (Json × Str) :=
  if h : isNumber (s.takeWhile isNumeric) = true then
    some (.num ⟨s.takeWhile isNumeric, h⟩, s.dropWhile isNumeric)
  else none

mutual

/-- A value, and what follows it. -/
def value : Nat → Str → Option (Json × Str)
  | 0, _ => none
  | _ + 1, [] => none
  | fuel + 1, c :: s =>
    if c = '"' then (string s).map fun (t, rest) => (.str t, rest)
    else if c = '[' then
      if (skip s).head? = some ']' then some (.list [], (skip s).tail)
      else (items fuel (skip s)).map fun (vs, rest) => (.list vs, rest)
    else if c = '{' then
      if (skip s).head? = some '}' then some (.dict [], (skip s).tail)
      else (fields fuel (skip s)).map fun (fs, rest) => (.dict fs, rest)
    else if c = 'n' then keyword "null".toList .null (c :: s)
    else if c = 't' then keyword "true".toList (.bool true) (c :: s)
    else if c = 'f' then keyword "false".toList (.bool false) (c :: s)
    else number (c :: s)

/-- Values between commas, up to the closing bracket. -/
def items : Nat → Str → Option (List Json × Str)
  | 0, _ => none
  | fuel + 1, s => do
    let (v, s) ← value fuel s
    match skip s with
    | [] => none
    | c :: s =>
      if c = ']' then some ([v], s)
      else if c = ',' then (items fuel (skip s)).map fun (vs, rest) => (v :: vs, rest)
      else none

/-- Keys and values between commas, up to the closing brace. -/
def fields : Nat → Str → Option (List (Str × Json) × Str)
  | 0, _ => none
  | _ + 1, [] => none
  | fuel + 1, c :: s =>
    if c ≠ '"' then none
    else do
      let (k, s) ← string s
      match skip s with
      | [] => none
      | c :: s =>
        if c ≠ ':' then none
        else do
          let (v, s) ← value fuel (skip s)
          match skip s with
          | [] => none
          | c :: s =>
            if c = '}' then some ([(k, v)], s)
            else if c = ',' then (fields fuel (skip s)).map fun (fs, rest) => ((k, v) :: fs, rest)
            else none

end

/-- `json.loads`. -/
def loads (text : Str) : Option Json := do
  let (v, rest) ← value text.length (skip text)
  if skip rest = [] then some v else none

/-! ## Strings -/

/-- A string of units is read as it was written. -/
theorem combine_units (c : Char) (vs : List Nat) :
    combine (units c ++ vs) = (combine vs).map (c :: ·) := by
  have hvalid : c.toNat < 0xD800 ∨ 0xDFFF < c.toNat ∧ c.toNat < 0x110000 := c.valid
  unfold units
  by_cases hsmall : c.toNat < 0x10000
  · rw [if_pos hsmall, List.singleton_append, combine.eq_def]
    simp only [if_neg (show ¬ (0xD800 ≤ c.toNat ∧ c.toNat < 0xDC00) by omega),
      if_neg (show ¬ (0xDC00 ≤ c.toNat ∧ c.toNat < 0xE000) by omega), Char.ofNat_toNat]
  · have hhigh : 0xD800 ≤ 0xD800 + (c.toNat - 0x10000) / 1024 ∧
        0xD800 + (c.toNat - 0x10000) / 1024 < 0xDC00 := by omega
    have hlow : 0xDC00 ≤ 0xDC00 + (c.toNat - 0x10000) % 1024 ∧
        0xDC00 + (c.toNat - 0x10000) % 1024 < 0xE000 := by omega
    have hpair : 0x10000 + 1024 * (0xD800 + (c.toNat - 0x10000) / 1024 - 0xD800) +
        (0xDC00 + (c.toNat - 0x10000) % 1024 - 0xDC00) = c.toNat := by omega
    rw [if_neg hsmall, List.cons_append, List.singleton_append, combine, if_pos hhigh,
      if_pos hlow, hpair, Char.ofNat_toNat]

theorem combine_flatMap_units (s : Str) : combine (s.flatMap units) = some s := by
  induction s with
  | nil => simp [combine]
  | cons c s ih => simp [combine_units, ih]

/-- Every unit of a character has 16 bits. -/
theorem units_lt {c : Char} {v : Nat} (h : v ∈ units c) : v < 0x10000 := by
  have hvalid : c.toNat < 0xD800 ∨ 0xDFFF < c.toNat ∧ c.toNat < 0x110000 := c.valid
  unfold units at h
  split at h
  · rw [List.mem_singleton] at h
    omega
  · simp only [List.mem_cons, List.not_mem_nil, or_false] at h
    omega

theorem toNat_ofNat {v : Nat} (h : v < 0xD800) : (Char.ofNat v).toNat = v := by
  have hvalid : v.isValidChar := Or.inl h
  unfold Char.ofNat
  rw [dif_pos hvalid]
  rfl

/-- An escape never starts as the closing quote does, and is read as it was
written. -/
theorem escape_spec {v : Nat} (h : v < 0x10000) :
    ∃ c s, escape v = c :: s ∧ c ≠ '"' ∧ ∀ rest, piece (c :: s ++ rest) = some (v, rest) := by
  unfold escape
  rcases hshort : shortEscape v with _ | c
  · have hquote : v ≠ 34 := by
      rintro rfl
      cases hshort
    have hbackslash : v ≠ 92 := by
      rintro rfl
      cases hshort
    simp only
    split
    · rename_i hprintable
      have htoNat : (Char.ofNat v).toNat = v := toNat_ofNat (by omega)
      have hne (c : Char) (hc : v ≠ c.toNat) : Char.ofNat v ≠ c := by
        rintro rfl
        exact hc htoNat.symm
      refine ⟨_, _, rfl, hne _ hquote, fun rest => ?_⟩
      have hnot : ¬ v < 32 := by omega
      simp [piece, hne '\\' hbackslash, htoNat, hnot]
    · refine ⟨_, _, rfl, by decide, fun rest => ?_⟩
      obtain ⟨h1, -⟩ := hexDigit_spec (Nat.mod_lt (v / 4096) (y := 16) (by omega))
      obtain ⟨h2, -⟩ := hexDigit_spec (Nat.mod_lt (v / 256) (y := 16) (by omega))
      obtain ⟨h3, -⟩ := hexDigit_spec (Nat.mod_lt (v / 16) (y := 16) (by omega))
      obtain ⟨h4, -⟩ := hexDigit_spec (Nat.mod_lt v (y := 16) (by omega))
      have hsum : 4096 * (v / 4096 % 16) + 256 * (v / 256 % 16) + 16 * (v / 16 % 16) + v % 16 =
          v := by
        omega
      simp [piece, hex4, h1, h2, h3, h4, hsum]
  · refine ⟨_, _, rfl, by decide, fun rest => ?_⟩
    have hmem : (v, c) ∈ [(34, '"'), (92, '\\'), (10, 'n'), (13, 'r'), (9, 't'), (8, 'b'),
        (12, 'f')] := List.lookup_eq_some_iff.mp hshort |>.elim fun l h => by
      obtain ⟨r, heq, -⟩ := h
      rw [heq]
      simp
    simp only [List.mem_cons, Prod.mk.injEq, List.not_mem_nil, or_false] at hmem
    rcases hmem with h | h | h | h | h | h | h <;> obtain ⟨rfl, rfl⟩ := h <;> rfl

theorem pieces_flatMap_escape {vs : List Nat} (h : ∀ v ∈ vs, v < 0x10000) {fuel : Nat}
    (hfuel : vs.length < fuel) (rest : Str) :
    pieces fuel (vs.flatMap escape ++ '"' :: rest) = some (vs, rest) := by
  induction vs generalizing fuel with
  | nil =>
    obtain ⟨fuel, rfl⟩ := Nat.exists_eq_succ_of_ne_zero (Nat.ne_of_gt hfuel)
    simp [pieces]
  | cons v vs ih =>
    obtain ⟨fuel, rfl⟩ := Nat.exists_eq_succ_of_ne_zero (Nat.ne_of_gt (Nat.zero_lt_of_lt hfuel))
    obtain ⟨c, s, hescape, hc, hpiece⟩ := escape_spec (h v List.mem_cons_self)
    have hrest := ih (fun w hw => h w (List.mem_cons_of_mem v hw)) (Nat.lt_of_succ_lt_succ hfuel)
    rw [List.flatMap_cons, hescape, List.append_assoc, List.cons_append, pieces, if_neg hc,
      ← List.cons_append, hpiece]
    simp [hrest]

theorem length_le_flatMap_escape {vs : List Nat} (h : ∀ v ∈ vs, v < 0x10000) :
    vs.length ≤ (vs.flatMap escape).length := by
  induction vs with
  | nil => simp
  | cons v vs ih =>
    obtain ⟨c, s, hescape, -⟩ := escape_spec (h v List.mem_cons_self)
    have := ih fun w hw => h w (List.mem_cons_of_mem v hw)
    rw [List.flatMap_cons, List.length_append, hescape, List.length_cons, List.length_cons]
    omega

theorem string_quoted (s rest : Str) :
    string ((s.flatMap units).flatMap escape ++ '"' :: rest) = some (s, rest) := by
  have hlt : ∀ v ∈ s.flatMap units, v < 0x10000 := by
    intro v hv
    obtain ⟨c, -, hc⟩ := List.mem_flatMap.mp hv
    exact units_lt hc
  have hlength := length_le_flatMap_escape hlt
  unfold string
  rw [pieces_flatMap_escape hlt (by rw [List.length_append, List.length_cons]; omega)]
  simp [combine_flatMap_units]

/-! ## What was written is read back -/

/-- Whatever follows a number. -/
def Stops (s : Str) : Prop := ∀ c ∈ s.head?, isNumeric c = false

theorem stops_cons {c : Char} {s : Str} (h : isNumeric c = false) : Stops (c :: s) := by
  intro d hd
  cases hd
  exact h

theorem stops_newline (level : Nat) (s : Str) : Stops (newline level ++ s) :=
  stops_cons (by decide)

theorem isNumeric_of_mem (literal : Literal) : ∀ c ∈ literal.text, isNumeric c = true := by
  have h := literal.isNumber
  unfold isNumber at h
  simp only [Bool.and_eq_true, List.all_eq_true] at h
  exact h.1.1.1

theorem text_ne_nil (literal : Literal) : literal.text ≠ [] := by
  intro hnil
  have h := literal.isNumber
  rw [hnil] at h
  cases h

theorem number_text (literal : Literal) {rest : Str} (h : Stops rest) :
    number (literal.text ++ rest) = some (.num literal, rest) := by
  have hall := isNumeric_of_mem literal
  have hrest : rest.takeWhile isNumeric = [] ∧ rest.dropWhile isNumeric = rest := by
    cases rest with
    | nil => exact ⟨rfl, rfl⟩
    | cons c rest => simp [h c rfl]
  have htake : (literal.text ++ rest).takeWhile isNumeric = literal.text := by
    rw [List.takeWhile_append_of_pos hall, hrest.1, List.append_nil]
  have hdrop : (literal.text ++ rest).dropWhile isNumeric = rest := by
    rw [List.dropWhile_append_of_pos hall, hrest.2]
  unfold number
  simp only [htake, hdrop, literal.isNumber, dite_true]

theorem keyword_append (word : Str) (v : Json) (rest : Str) :
    keyword word v (word ++ rest) = some (v, rest) := by
  simp [keyword]

theorem skip_newline (level : Nat) {c : Char} (hc : isBlank c = false) (s : Str) :
    skip (newline level ++ c :: s) = c :: s := by
  have hblank : ∀ d ∈ newline level, isBlank d = true := by
    intro d hd
    rcases List.mem_cons.mp hd with rfl | hd
    · rfl
    · rw [List.eq_of_mem_replicate hd]
      rfl
  unfold skip
  rw [List.dropWhile_append_of_pos hblank, List.dropWhile_cons_of_neg (by simp [hc])]

theorem skip_cons {c : Char} (hc : isBlank c = false) (s : Str) : skip (c :: s) = c :: s := by
  simp [skip, hc]

/-- The characters that no number starts with. -/
theorem ne_of_isNumeric {c : Char} (h : isNumeric c = true) {d : Char} (hd : isNumeric d = false) :
    c ≠ d := by
  rintro rfl
  rw [h] at hd
  cases hd

/-- A value does not start with a blank, nor as a list ends. -/
theorem dump_head (level : Nat) (v : Json) :
    ∃ c s, dump level v = c :: s ∧ isBlank c = false ∧ c ≠ ']' := by
  cases v with
  | null => exact ⟨_, _, rfl, by decide, by decide⟩
  | bool b => cases b <;> exact ⟨_, _, rfl, by decide, by decide⟩
  | num literal =>
    obtain ⟨c, s, htext⟩ := List.exists_cons_of_ne_nil (text_ne_nil literal)
    have hc := isNumeric_of_mem literal c (by simp [htext])
    have hne {d : Char} (hd : isNumeric d = false) : c ≠ d := ne_of_isNumeric hc hd
    refine ⟨c, s, by rw [dump, htext], ?_, hne (by decide)⟩
    have hblank : isNumeric ' ' = false ∧ isNumeric '\t' = false ∧ isNumeric '\n' = false ∧
        isNumeric '\r' = false := by
      decide
    simp [isBlank, hne hblank.1, hne hblank.2.1, hne hblank.2.2.1, hne hblank.2.2.2]
  | str s => exact ⟨_, _, by rw [dump, quote]; rfl, by decide, by decide⟩
  | list items => cases items <;> exact ⟨_, _, by rw [dump]; rfl, by decide, by decide⟩
  | dict fields =>
    cases fields with
    | nil => exact ⟨_, _, by rw [dump], by decide, by decide⟩
    | cons field fields => exact ⟨_, _, by rw [dump]; rfl, by decide, by decide⟩

theorem toList_colon : ": ".toList = [':', ' '] := rfl

theorem quote_append (s rest : Str) :
    quote s ++ rest = '"' :: ((s.flatMap units).flatMap escape ++ '"' :: rest) := by
  simp [quote]

theorem skip_newline_dump (n level : Nat) (v : Json) (rest : Str) :
    skip (newline n ++ (dump level v ++ rest)) = dump level v ++ rest := by
  obtain ⟨c, s, hdump, hblank, -⟩ := dump_head level v
  rw [hdump, List.cons_append]
  exact skip_newline _ hblank _

theorem skip_newline_quote (n : Nat) (k rest : Str) :
    skip (newline n ++ (quote k ++ rest)) = quote k ++ rest := by
  rw [quote_append]
  exact skip_newline _ (by decide) _

mutual

theorem value_dump (v : Json) {level n : Nat} (hn : (dump level v).length ≤ n) {rest : Str}
    (hrest : Stops rest) : value n (dump level v ++ rest) = some (v, rest) := by
  obtain ⟨c, s, hdump, -⟩ := dump_head level v
  obtain ⟨n, rfl⟩ : ∃ m, n = m + 1 := by
    rw [hdump] at hn
    exact Nat.exists_eq_succ_of_ne_zero (by rintro rfl; cases hn)
  cases v with
  | null =>
    rw [dump]
    exact keyword_append "null".toList .null rest
  | bool b =>
    cases b with
    | true =>
      rw [dump]
      exact keyword_append "true".toList (.bool true) rest
    | false =>
      rw [dump]
      exact keyword_append "false".toList (.bool false) rest
  | num literal =>
    rw [dump] at hdump ⊢
    have hc := isNumeric_of_mem literal c (by simp [hdump])
    have hne {d : Char} (hd : isNumeric d = false) : c ≠ d := ne_of_isNumeric hc hd
    have hnumber := number_text literal hrest
    rw [hdump, List.cons_append] at hnumber ⊢
    rw [value, if_neg (hne (by decide)), if_neg (hne (by decide)), if_neg (hne (by decide)),
      if_neg (hne (by decide)), if_neg (hne (by decide)), if_neg (hne (by decide)), hnumber]
  | str s =>
    rw [dump, quote_append, value, if_pos rfl, string_quoted]
    rfl
  | list vs =>
    cases vs with
    | nil =>
      rw [dump]
      rfl
    | cons v vs =>
      obtain ⟨d, t, hfirst, -, hclose⟩ := dump_head (level + 1) v
      rw [dump] at hn ⊢
      simp only [List.cons_append, List.append_assoc, List.nil_append, List.length_cons,
        List.length_append] at hn ⊢
      rw [value, if_neg (by decide), if_pos rfl, skip_newline_dump,
        if_neg (by simpa [hfirst] using hclose), items_dump v vs level (by omega)]
      rfl
  | dict fs =>
    cases fs with
    | nil =>
      rw [dump]
      rfl
    | cons field fs =>
      obtain ⟨k, v⟩ := field
      rw [dump] at hn ⊢
      simp only [toList_colon, List.cons_append, List.append_assoc, List.nil_append,
        List.length_cons, List.length_append] at hn ⊢
      rw [value, if_neg (by decide), if_neg (by decide), if_pos rfl, skip_newline_quote,
        if_neg (by rw [quote_append]; simp), fields_dump k v fs level (by omega)]
      rfl
termination_by n

theorem items_dump (v : Json) (vs : List Json) (outer : Nat) {level n : Nat}
    (hn : (dump level v).length + (dumpItems level vs).length < n) {rest : Str} :
    items n (dump level v ++ (dumpItems level vs ++ (newline outer ++ ']' :: rest))) =
      some (v :: vs, rest) := by
  obtain ⟨n, rfl⟩ := Nat.exists_eq_succ_of_ne_zero (Nat.ne_of_gt (Nat.zero_lt_of_lt hn))
  cases vs with
  | nil =>
    rw [items, dumpItems, List.nil_append, value_dump v (by omega) (stops_newline outer _)]
    simp [skip_newline outer (show isBlank ']' = false by decide)]
  | cons w vs =>
    rw [dumpItems] at hn ⊢
    simp only [List.cons_append, List.append_assoc, List.length_cons,
      List.length_append] at hn ⊢
    rw [items, value_dump v (by omega) (stops_cons (by decide))]
    simp [skip_cons (show isBlank ',' = false by decide), skip_newline_dump, items_dump w vs outer
      (show (dump level w).length + (dumpItems level vs).length < n by omega)]
termination_by n

theorem fields_dump (k : Str) (v : Json) (fs : List (Str × Json)) (outer : Nat) {level n : Nat}
    (hn : (dump level v).length + (dumpFields level fs).length < n) {rest : Str} :
    fields n (quote k ++ ':' :: ' ' :: (dump level v ++
      (dumpFields level fs ++ (newline outer ++ '}' :: rest)))) = some ((k, v) :: fs, rest) := by
  obtain ⟨n, rfl⟩ := Nat.exists_eq_succ_of_ne_zero (Nat.ne_of_gt (Nat.zero_lt_of_lt hn))
  obtain ⟨d, t, hfirst, hblank, -⟩ := dump_head level v
  have hcolon (s : Str) : skip (':' :: s) = ':' :: s := rfl
  have hblank (s : Str) : skip (' ' :: (dump level v ++ s)) = dump level v ++ s := by
    rw [hfirst, List.cons_append]
    exact skip_cons hblank _
  rw [quote_append, fields, if_neg (by decide), string_quoted]
  simp only [Option.bind_eq_bind, Option.bind_some, hcolon, hblank, ne_eq, not_true, if_false]
  cases fs with
  | nil =>
    rw [dumpFields, List.nil_append, value_dump v (by omega) (stops_newline outer _)]
    simp [skip_newline outer (show isBlank '}' = false by decide)]
  | cons field fs =>
    obtain ⟨k', v'⟩ := field
    rw [dumpFields] at hn ⊢
    simp only [toList_colon, List.cons_append, List.append_assoc, List.nil_append,
      List.length_cons, List.length_append] at hn ⊢
    rw [value_dump v (by omega) (stops_cons (by decide))]
    simp [skip_cons (show isBlank ',' = false by decide), skip_newline_quote,
      fields_dump k' v' fs outer
        (show (dump level v').length + (dumpFields level fs).length < n by omega)]
termination_by n

end

theorem value_dump_alone (v : Json) : value (dump 0 v).length (dump 0 v) = some (v, []) := by
  have hstops : Stops [] := by
    intro c hc
    cases hc
  have hvalue := value_dump v (le_refl (dump 0 v).length) hstops
  rwa [List.append_nil] at hvalue

/-- The reader gives back what was written. -/
theorem loads_dump (v : Json) : loads (dump 0 v) = some v := by
  obtain ⟨c, s, hdump, hblank, -⟩ := dump_head 0 v
  have hskip : skip (dump 0 v) = dump 0 v := by
    rw [hdump]
    exact skip_cons hblank s
  unfold loads
  rw [hskip, value_dump_alone]
  rfl

/-! ## What begins the text of an object -/

theorem ne_nil_of_skip {s : Str} {c : Char} {t : Str} (h : skip s = c :: t) : s ≠ [] := by
  rintro rfl
  cases h

theorem skip_append {s : Str} {c : Char} {t : Str} (h : skip s = c :: t) (q : Str) :
    skip (s ++ q) = c :: (t ++ q) := by
  induction s with
  | nil => cases h
  | cons d s ih =>
    unfold skip at h ih ⊢
    by_cases hd : isBlank d = true
    · rw [List.dropWhile_cons_of_pos hd] at h
      rw [List.cons_append, List.dropWhile_cons_of_pos hd, ih h]
    · rw [List.dropWhile_cons_of_neg hd] at h
      rw [List.cons_append, List.dropWhile_cons_of_neg hd]
      cases h
      rfl

theorem hex4_append {s : Str} {v : Nat} {r : Str} (h : hex4 s = some (v, r)) (q : Str) :
    hex4 (s ++ q) = some (v, r ++ q) := by
  rcases s with _ | ⟨a, _ | ⟨b, _ | ⟨c, _ | ⟨d, s⟩⟩⟩⟩
  · cases h
  · cases h
  · cases h
  · cases h
  · simp only [hex4, Option.bind_eq_bind, Option.bind_eq_some_iff, Option.some.injEq,
      Prod.mk.injEq] at h
    obtain ⟨v1, h1, v2, h2, v3, h3, v4, h4, rfl, rfl⟩ := h
    simp [hex4, h1, h2, h3, h4]

theorem piece_append {s : Str} {v : Nat} {r : Str} (h : piece s = some (v, r)) (q : Str) :
    piece (s ++ q) = some (v, r ++ q) := by
  rcases s with _ | ⟨c, s⟩
  · cases h
  · by_cases hc : c ≠ '\\'
    · simp only [piece, List.cons_append, if_pos hc] at h ⊢
      by_cases hcontrol : c.toNat < 32
      · simp [hcontrol] at h
      · rw [if_neg hcontrol] at h ⊢
        cases h
        rfl
    · rcases s with _ | ⟨e, s⟩
      · simp [piece, hc] at h
      · simp only [piece, List.cons_append, if_neg hc] at h ⊢
        by_cases he : e = 'u'
        · rw [if_pos he] at h ⊢
          exact hex4_append h q
        · rw [if_neg he] at h ⊢
          rw [Option.map_eq_some_iff] at h ⊢
          obtain ⟨w, hw, heq⟩ := h
          cases heq
          exact ⟨_, hw, rfl⟩

theorem pieces_append {n : Nat} {s : Str} {vs : List Nat} {r : Str}
    (h : pieces n s = some (vs, r)) {m : Nat} (hm : n ≤ m) (q : Str) :
    pieces m (s ++ q) = some (vs, r ++ q) := by
  induction n generalizing s vs m with
  | zero => cases s <;> cases h
  | succ n ih =>
    obtain ⟨m, rfl⟩ := Nat.exists_eq_succ_of_ne_zero (Nat.ne_of_gt (Nat.zero_lt_of_lt hm))
    rcases s with _ | ⟨c, s⟩
    · cases h
    · rw [pieces] at h
      rw [List.cons_append, pieces]
      by_cases hc : c = '"'
      · rw [if_pos hc] at h ⊢
        cases h
        rfl
      · rw [if_neg hc] at h ⊢
        simp only [Option.bind_eq_bind, Option.bind_eq_some_iff, Option.some.injEq,
          Prod.mk.injEq, Prod.exists] at h
        obtain ⟨v, t, hpiece, ws, u, hpieces, rfl, rfl⟩ := h
        rw [← List.cons_append, piece_append hpiece]
        simp [ih hpieces (Nat.le_of_succ_le_succ hm)]

theorem string_append {s t r : Str} (h : string s = some (t, r)) (q : Str) :
    string (s ++ q) = some (t, r ++ q) := by
  unfold string at h ⊢
  simp only [Option.bind_eq_bind, Option.bind_eq_some_iff, Option.some.injEq, Prod.mk.injEq,
    Prod.exists] at h
  obtain ⟨vs, u, hpieces, t, hcombine, rfl, rfl⟩ := h
  rw [pieces_append hpieces (by simp)]
  simp [hcombine]

theorem keyword_eq_some {word : Str} {v w : Json} {s r : Str}
    (h : keyword word v s = some (w, r)) : w = v ∧ s = word ++ r := by
  unfold keyword at h
  split at h
  · rename_i hprefix
    obtain ⟨t, rfl⟩ := hprefix
    cases h
    simp
  · cases h

theorem keyword_extend {word : Str} {v w : Json} {s r : Str}
    (h : keyword word v s = some (w, r)) (q : Str) :
    keyword word v (s ++ q) = some (w, r ++ q) := by
  obtain ⟨rfl, rfl⟩ := keyword_eq_some h
  rw [List.append_assoc, keyword_append]

/-- A number that the text ends with might go on. -/
theorem number_append {s : Str} {v : Json} {r : Str} (h : number s = some (v, r)) (hr : r ≠ [])
    (q : Str) : number (s ++ q) = some (v, r ++ q) := by
  unfold number at h
  split at h
  · rename_i hnumber
    cases h
    obtain ⟨c, t, hrest⟩ := List.exists_cons_of_ne_nil hr
    have hc : isNumeric c = false := by
      have hhead := List.head_dropWhile_not isNumeric hr
      simpa [hrest] using hhead
    have hsplit : s ++ q = s.takeWhile isNumeric ++ (s.dropWhile isNumeric ++ q) := by
      rw [← List.append_assoc, List.takeWhile_append_dropWhile]
    rw [hsplit]
    refine number_text ⟨_, hnumber⟩ ?_
    rw [hrest]
    exact stops_cons hc
  · cases h

theorem number_ne_some {c : Char} (hc : isNumeric c = false) {s : Str} {v : Json} {r : Str} :
    number (c :: s) ≠ some (v, r) := by
  have hempty : isNumber [] = false := by decide
  simp [number, hc, hempty]

theorem value_ne_nil {n : Nat} {s : Str} {v : Json} {r : Str} (h : value n s = some (v, r)) :
    s ≠ [] := by
  rintro rfl
  cases n <;> cases h

theorem items_ne_nil {n : Nat} {s : Str} {vs : List Json} {r : Str}
    (h : items n s = some (vs, r)) : s ≠ [] := by
  rintro rfl
  rcases n with _ | _ | n <;> cases h

theorem fields_ne_nil {n : Nat} {s : Str} {fs : List (Str × Json)} {r : Str}
    (h : fields n s = some (fs, r)) : s ≠ [] := by
  rintro rfl
  cases n <;> cases h

mutual

/-- A value that ends before the text does, or is no number, is found in every
longer text. -/
theorem value_append {n : Nat} {s : Str} {v : Json} {r : Str} (h : value n s = some (v, r))
    (hend : r = [] → Stops s) {m : Nat} (hm : n ≤ m) (q : Str) :
    value m (s ++ q) = some (v, r ++ q) := by
  obtain _ | n := n
  · cases s <;> cases h
  obtain ⟨m, rfl⟩ := Nat.exists_eq_succ_of_ne_zero (Nat.ne_of_gt (Nat.zero_lt_of_lt hm))
  have hnm : n ≤ m := Nat.le_of_succ_le_succ hm
  obtain _ | ⟨c, s⟩ := s
  · cases h
  rw [value] at h
  rw [List.cons_append, value]
  by_cases hquote : c = '"'
  · rw [if_pos hquote] at h ⊢
    rw [Option.map_eq_some_iff] at h ⊢
    obtain ⟨⟨t, u⟩, hstring, heq⟩ := h
    cases heq
    exact ⟨_, string_append hstring q, rfl⟩
  rw [if_neg hquote] at h ⊢
  by_cases hlist : c = '['
  · rw [if_pos hlist] at h ⊢
    rcases hskip : skip s with _ | ⟨d, t⟩
    · rw [hskip, if_neg (by simp), Option.map_eq_some_iff] at h
      obtain ⟨⟨ws, u⟩, hitems, -⟩ := h
      exact absurd rfl (items_ne_nil hitems)
    · rw [hskip] at h
      rw [skip_append hskip]
      by_cases hclose : d = ']'
      · rw [if_pos (by simp [hclose])] at h ⊢
        cases h
        rfl
      · rw [if_neg (by simp [hclose])] at h ⊢
        rw [Option.map_eq_some_iff] at h ⊢
        obtain ⟨⟨ws, u⟩, hitems, heq⟩ := h
        cases heq
        exact ⟨_, items_append hitems hnm q, rfl⟩
  rw [if_neg hlist] at h ⊢
  by_cases hdict : c = '{'
  · rw [if_pos hdict] at h ⊢
    rcases hskip : skip s with _ | ⟨d, t⟩
    · rw [hskip, if_neg (by simp), Option.map_eq_some_iff] at h
      obtain ⟨⟨gs, u⟩, hfields, -⟩ := h
      exact absurd rfl (fields_ne_nil hfields)
    · rw [hskip] at h
      rw [skip_append hskip]
      by_cases hclose : d = '}'
      · rw [if_pos (by simp [hclose])] at h ⊢
        cases h
        rfl
      · rw [if_neg (by simp [hclose])] at h ⊢
        rw [Option.map_eq_some_iff] at h ⊢
        obtain ⟨⟨gs, u⟩, hfields, heq⟩ := h
        cases heq
        exact ⟨_, fields_append hfields hnm q, rfl⟩
  rw [if_neg hdict] at h ⊢
  rw [← List.cons_append]
  by_cases hn : c = 'n'
  · rw [if_pos hn] at h ⊢
    exact keyword_extend h q
  by_cases ht : c = 't'
  · rw [if_neg hn, if_pos ht] at h ⊢
    exact keyword_extend h q
  by_cases hf : c = 'f'
  · rw [if_neg hn, if_neg ht, if_pos hf] at h ⊢
    exact keyword_extend h q
  rw [if_neg hn, if_neg ht, if_neg hf] at h ⊢
  refine number_append h ?_ q
  intro hnil
  exact number_ne_some (hend hnil c rfl) h

theorem items_append {n : Nat} {s : Str} {vs : List Json} {r : Str}
    (h : items n s = some (vs, r)) {m : Nat} (hm : n ≤ m) (q : Str) :
    items m (s ++ q) = some (vs, r ++ q) := by
  obtain _ | n := n
  · cases h
  obtain ⟨m, rfl⟩ := Nat.exists_eq_succ_of_ne_zero (Nat.ne_of_gt (Nat.zero_lt_of_lt hm))
  have hnm : n ≤ m := Nat.le_of_succ_le_succ hm
  rw [items, Option.bind_eq_bind, Option.bind_eq_some_iff] at h
  obtain ⟨⟨v, t⟩, hvalue, h⟩ := h
  simp only at h
  rcases hskip : skip t with _ | ⟨c, u⟩
  · rw [hskip] at h
    cases h
  rw [hskip] at h
  have hlonger := value_append hvalue (fun hnil => absurd hnil (ne_nil_of_skip hskip)) hnm q
  rw [items, hlonger]
  simp only [Option.bind_eq_bind, Option.bind_some, skip_append hskip]
  by_cases hclose : c = ']'
  · simp only [if_pos hclose] at h ⊢
    cases h
    rfl
  simp only [if_neg hclose] at h ⊢
  by_cases hcomma : c = ','
  · rw [if_pos hcomma, Option.map_eq_some_iff] at h
    obtain ⟨⟨ws, w⟩, hitems, heq⟩ := h
    cases heq
    obtain ⟨d, x, hmore⟩ := List.exists_cons_of_ne_nil (items_ne_nil hitems)
    rw [hmore] at hitems
    rw [if_pos hcomma, skip_append hmore, ← List.cons_append, items_append hitems hnm q]
    rfl
  · rw [if_neg hcomma] at h
    cases h

theorem fields_append {n : Nat} {s : Str} {fs : List (Str × Json)} {r : Str}
    (h : fields n s = some (fs, r)) {m : Nat} (hm : n ≤ m) (q : Str) :
    fields m (s ++ q) = some (fs, r ++ q) := by
  obtain _ | n := n
  · cases s <;> cases h
  obtain ⟨m, rfl⟩ := Nat.exists_eq_succ_of_ne_zero (Nat.ne_of_gt (Nat.zero_lt_of_lt hm))
  have hnm : n ≤ m := Nat.le_of_succ_le_succ hm
  obtain _ | ⟨c, s⟩ := s
  · cases h
  rw [fields] at h
  rw [List.cons_append, fields]
  by_cases hquote : c ≠ '"'
  · rw [if_pos hquote] at h
    cases h
  rw [if_neg hquote] at h ⊢
  rw [Option.bind_eq_bind, Option.bind_eq_some_iff] at h
  obtain ⟨⟨k, t⟩, hstring, h⟩ := h
  simp only at h
  rcases hcolon : skip t with _ | ⟨d, u⟩
  · rw [hcolon] at h
    cases h
  rw [hcolon] at h
  rw [string_append hstring q]
  simp only [Option.bind_eq_bind, Option.bind_some, skip_append hcolon]
  by_cases hd : d ≠ ':'
  · simp only [if_pos hd] at h
    cases h
  simp only [if_neg hd] at h ⊢
  rw [Option.bind_eq_bind, Option.bind_eq_some_iff] at h
  obtain ⟨⟨v, x⟩, hvalue, h⟩ := h
  simp only at h
  rcases hskip : skip x with _ | ⟨e, y⟩
  · rw [hskip] at h
    cases h
  rw [hskip] at h
  obtain ⟨e', y', hbefore⟩ := List.exists_cons_of_ne_nil (value_ne_nil hvalue)
  rw [hbefore] at hvalue
  have hlonger := value_append hvalue (fun hnil => absurd hnil (ne_nil_of_skip hskip)) hnm q
  rw [skip_append hbefore, ← List.cons_append, hlonger]
  simp only [Option.bind_some, skip_append hskip]
  by_cases hclose : e = '}'
  · simp only [if_pos hclose] at h ⊢
    cases h
    rfl
  simp only [if_neg hclose] at h ⊢
  by_cases hcomma : e = ','
  · rw [if_pos hcomma, Option.map_eq_some_iff] at h
    obtain ⟨⟨gs, w⟩, hfields, heq⟩ := h
    cases heq
    obtain ⟨f, z, hmore⟩ := List.exists_cons_of_ne_nil (fields_ne_nil hfields)
    rw [hmore] at hfields
    rw [if_pos hcomma, skip_append hmore, ← List.cons_append, fields_append hfields hnm q]
    rfl
  · rw [if_neg hcomma] at h
    cases h

end

/-- What begins the text of an object and is not all of it is refused. -/
theorem loads_cut {fs : List (Str × Json)} {p q : Str} (h : p ++ q = dump 0 (.dict fs))
    (hq : q ≠ []) : loads p = none := by
  have hdump : ∃ s, dump 0 (.dict fs) = '{' :: s := by
    cases fs with
    | nil => exact ⟨_, by rw [dump]⟩
    | cons field fs => exact ⟨_, by rw [dump]; rfl⟩
  obtain ⟨s, hs⟩ := hdump
  obtain _ | ⟨c, p⟩ := p
  · rfl
  have hc : c = '{' := by
    rw [hs] at h
    exact (List.cons.inj h).1
  subst hc
  rw [Option.eq_none_iff_forall_ne_some]
  intro v hloads
  unfold loads at hloads
  rw [skip_cons (by decide), Option.bind_eq_bind, Option.bind_eq_some_iff] at hloads
  obtain ⟨⟨w, r⟩, hvalue, hrest⟩ := hloads
  have hlonger := value_append hvalue (fun _ => stops_cons (by decide))
    (m := (dump 0 (.dict fs)).length) (by rw [← h]; simp) q
  rw [h, value_dump_alone] at hlonger
  have hnil : r ++ q = [] := (congrArg Prod.snd (Option.some.inj hlonger)).symm
  exact hq (List.append_eq_nil_iff.mp hnil).2

/-! ## Natural numbers -/

/-- Digits make a number, without a leading zero. -/
theorem isNumber_digits {s : Str} (hne : s ≠ []) (hdigits : ∀ c ∈ s, c.isDigit = true)
    (hzero : s = ['0'] ∨ s.head? ≠ some '0') : isNumber s = true := by
  have hne' {c d : Char} (hc : c ∈ s) (hd : d.isDigit = false) : c ≠ d := by
    rintro rfl
    rw [hdigits c hc] at hd
    cases hd
  have hmantissa : s.takeWhile (fun c => c ≠ 'e' && c ≠ 'E') = s :=
    List.takeWhile_eq_self_iff.mpr fun c hc => by
      simp [hne' hc (d := 'e') (by decide), hne' hc (d := 'E') (by decide)]
  have hexponent : s.dropWhile (fun c => c ≠ 'e' && c ≠ 'E') = [] :=
    List.dropWhile_eq_nil_iff.mpr fun c hc => by
      simp [hne' hc (d := 'e') (by decide), hne' hc (d := 'E') (by decide)]
  have hinteger : s.takeWhile (· ≠ '.') = s :=
    List.takeWhile_eq_self_iff.mpr fun c hc => by simp [hne' hc (d := '.') (by decide)]
  have hfraction : s.dropWhile (· ≠ '.') = [] :=
    List.dropWhile_eq_nil_iff.mpr fun c hc => by simp [hne' hc (d := '.') (by decide)]
  have hsign : unsigned ['-'] s = s := by
    obtain ⟨c, t, rfl⟩ := List.exists_cons_of_ne_nil hne
    simp [unsigned, hne' List.mem_cons_self (d := '-') (by decide)]
  have hall : s.all isNumeric = true := by
    simp only [List.all_eq_true]
    intro c hc
    simp [isNumeric, hdigits c hc]
  have hisDigits : isDigits s = true := by
    simp only [isDigits, Bool.and_eq_true, List.all_eq_true]
    exact ⟨by simpa using hne, hdigits⟩
  unfold isNumber isInteger
  simp only [hmantissa, hexponent, hinteger, hfraction, hsign, hall, hisDigits]
  simpa using hzero

theorem head_toDigits (n : Nat) :
    Nat.toDigits 10 n = ['0'] ∨ (Nat.toDigits 10 n).head? ≠ some '0' := by
  induction n using Nat.strong_induction_on with
  | _ n ih =>
    by_cases hsmall : n < 10
    · rw [Nat.toDigits_of_lt_base hsmall]
      interval_cases n <;> decide
    · right
      rw [Nat.toDigits_of_base_le (by decide) (by omega)]
      rcases ih (n / 10) (by omega) with hzero | hhead
      · have hvalue := Nat.ofDigitChars_ten_toDigits (n := n / 10)
        rw [hzero] at hvalue
        have hten : Nat.ofDigitChars 10 ['0'] 0 = 0 := rfl
        omega
      · rw [List.head?_append_of_ne_nil _ Nat.toDigits_ne_nil]
        exact hhead

def Literal.ofNat (n : Nat) : Literal where
  text := Nat.toDigits 10 n
  isNumber := isNumber_digits Nat.toDigits_ne_nil
    (fun _ hc => Nat.isDigit_of_mem_toDigits (by decide) (by decide) hc) (head_toDigits n)

/-- The natural number that a literal of digits alone stands for. -/
def Literal.nat? (literal : Literal) : Option Nat :=
  if literal.text.all Char.isDigit then some (Nat.ofDigitChars 10 literal.text 0) else none

@[simp] theorem nat?_ofNat (n : Nat) : (Literal.ofNat n).nat? = some n := by
  have hall : (Nat.toDigits 10 n).all Char.isDigit = true :=
    List.all_eq_true.mpr fun _ hc => Nat.isDigit_of_mem_toDigits (by decide) (by decide) hc
  unfold Literal.nat? Literal.ofNat
  rw [if_pos hall, Nat.ofDigitChars_ten_toDigits]

/-! ## Values of one type -/

def Json.str? : Json → Option Str
  | .str s => some s
  | _ => none

def Json.byte? : Json → Option UInt8
  | .num literal => literal.nat?.bind fun n => if n < 256 then some (UInt8.ofNat n) else none
  | _ => none

/-- `null`, or a value. -/
def Json.orNull {α : Type} (read : Json → Option α) : Json → Option (Option α)
  | .null => some none
  | v => (read v).map some

def Json.listOf {α : Type} (read : Json → Option α) : Json → Option (List α)
  | .list items => items.mapM read
  | _ => none

def Json.dictOf {α : Type} (read : Json → Option α) : Json → Option (Dict Str α)
  | .dict fields =>
    ((Dict.ofList fields).entries.mapM fun e => (read e.2).map (e.1, ·)).map Dict.ofList
  | _ => none

def ofBytes (data : Bytes) : Json := .list (data.map fun b => .num (.ofNat b.toNat))

def ofList (items : List Str) : Json := .list (items.map .str)

def ofDict {α : Type} (write : α → Json) (d : Dict Str α) : Json :=
  .dict (d.entries.map fun e => (e.1, write e.2))

theorem mapM_map {α β : Type} {read : β → Option α} {write : α → β}
    (h : ∀ x, read (write x) = some x) (xs : List α) : (xs.map write).mapM read = some xs := by
  induction xs with
  | nil => rfl
  | cons x xs ih => simp [List.mapM_cons, h, ih]

@[simp] theorem listOf_ofBytes (data : Bytes) : (ofBytes data).listOf Json.byte? = some data := by
  refine mapM_map (fun b => ?_) data
  simp [Json.byte?, b.toNat_lt]

@[simp] theorem listOf_ofList (items : List Str) :
    (ofList items).listOf Json.str? = some items := by
  have hread : ∀ s, (Json.str s).str? = some s := fun _ => rfl
  exact mapM_map hread items

theorem dictOf_ofDict {α : Type} {read : Json → Option α} {write : α → Json}
    (h : ∀ x, read (write x) = some x) (d : Dict Str α) :
    (ofDict write d).dictOf read = some d := by
  have hnodup : ((d.entries.map fun e => (e.1, write e.2)).map Prod.fst).Nodup := by
    rw [List.map_map]
    exact d.nodup
  simp only [ofDict, Json.dictOf]
  rw [Dict.entries_ofList hnodup, mapM_map (fun e => by simp [h]), Option.map_some,
    Dict.ofList_entries]

end python.json
