-- Byte strings and text: slices, big-endian numbers, hex digits, UTF-8. A
-- `bytes` value is a list of bytes and a `str` value a list of Unicode scalar
-- values.
import Mathlib.Data.List.DropRight
import Mathlib.Data.List.Basic
import Mathlib.Tactic.IntervalCases

namespace python

abbrev Bytes := List UInt8

abbrev Str := List Char

/-- What decides whether a string is in a list. -/
instance lawfulBEq_str : LawfulBEq Str := inferInstance

/-- `data[a:b]`, which stops early where the data ends. -/
def slice (data : Bytes) (a b : Nat) : Bytes := (data.drop a).take (b - a)

/-- `data.rstrip(b'\x00')`. -/
def rstripZero (data : Bytes) : Bytes := data.rdropWhile (· = 0)

/-! ## Big-endian numbers -/

/-- The low `k` bytes of `n`, most significant first. -/
def be : Nat → Nat → Bytes
  | 0, _ => []
  | k + 1, n => be k (n / 256) ++ [UInt8.ofNat n]

def fromBE (data : Bytes) : Nat := data.foldl (fun acc b => 256 * acc + b.toNat) 0

@[simp] theorem length_be (k n : Nat) : (be k n).length = k := by
  induction k generalizing n with
  | zero => rfl
  | succ k ih => simp [be, ih]

theorem fromBE_append_singleton (data : Bytes) (b : UInt8) :
    fromBE (data ++ [b]) = 256 * fromBE data + b.toNat := by
  simp [fromBE]

theorem fromBE_be (k n : Nat) (h : n < 256 ^ k) : fromBE (be k n) = n := by
  induction k generalizing n with
  | zero =>
    have : n = 0 := by simpa using h
    simp [be, fromBE, this]
  | succ k ih =>
    have hdiv : n / 256 < 256 ^ k := by
      rw [Nat.div_lt_iff_lt_mul (by omega)]
      simpa [Nat.pow_succ] using h
    rw [be, fromBE_append_singleton, ih _ hdiv, UInt8.toNat_ofNat']
    omega

/-! ## Hex digits -/

/-- The lower-case hex digit of `n < 16`. -/
def hexDigit (n : Nat) : Char := if n < 10 then Char.ofNat (48 + n) else Char.ofNat (87 + n)

/-- The value of a hex digit of either case. -/
def hexVal (c : Char) : Option Nat :=
  if 48 ≤ c.toNat ∧ c.toNat ≤ 57 then some (c.toNat - 48)
  else if 97 ≤ c.toNat ∧ c.toNat ≤ 102 then some (c.toNat - 87)
  else if 65 ≤ c.toNat ∧ c.toNat ≤ 70 then some (c.toNat - 55)
  else none

/-- `data.hex()`. -/
def hex (data : Bytes) : Str :=
  data.flatMap fun b => [hexDigit (b.toNat / 16), hexDigit (b.toNat % 16)]

/-- The blanks that `bytes.fromhex` skips between two bytes. -/
def isHexBlank (c : Char) : Bool := c.toNat = 32 || (9 ≤ c.toNat && c.toNat ≤ 13)

/-- `bytes.fromhex(s)`, or `none` where Python raises `ValueError`. -/
def fromhex : Str → Option Bytes
  | [] => some []
  | [c] => if isHexBlank c then some [] else none
  | c :: d :: rest =>
    if isHexBlank c then fromhex (d :: rest)
    else match hexVal c, hexVal d, fromhex rest with
      | some hi, some lo, some data => some (UInt8.ofNat (16 * hi + lo) :: data)
      | _, _, _ => none

theorem hexDigit_spec {n : Nat} (h : n < 16) :
    hexVal (hexDigit n) = some n ∧ isHexBlank (hexDigit n) = false := by
  interval_cases n <;> decide

@[simp] theorem length_hex (data : Bytes) : (hex data).length = 2 * data.length := by
  induction data with
  | nil => rfl
  | cons b data ih => simp only [hex, List.flatMap_cons, List.length_append] at ih ⊢; simp [ih]; omega

@[simp] theorem fromhex_hex (data : Bytes) : fromhex (hex data) = some data := by
  induction data with
  | nil => rfl
  | cons b data ih =>
    have hb := b.toNat_lt
    obtain ⟨hhi, hblank⟩ := hexDigit_spec (n := b.toNat / 16) (by omega)
    obtain ⟨hlo, -⟩ := hexDigit_spec (n := b.toNat % 16) (by omega)
    have hsplit : hex (b :: data) =
        hexDigit (b.toNat / 16) :: hexDigit (b.toNat % 16) :: hex data := rfl
    have hbyte : 16 * (b.toNat / 16) + b.toNat % 16 = b.toNat := by omega
    simp [hsplit, fromhex, hblank, hhi, hlo, ih, hbyte]

/-- Every character of `hex` is one of the sixteen digits. -/
theorem mem_hex {data : Bytes} {c : Char} (h : c ∈ hex data) : ∃ n < 16, c = hexDigit n := by
  obtain ⟨b, -, hc⟩ := List.mem_flatMap.mp h
  have hb := b.toNat_lt
  simp only [List.mem_cons, List.not_mem_nil, or_false] at hc
  rcases hc with rfl | rfl
  · exact ⟨_, by omega, rfl⟩
  · exact ⟨_, by omega, rfl⟩

theorem hex_injective {a b : Bytes} (h : hex a = hex b) : a = b := by
  have := congrArg fromhex h
  simpa using this

/-! ## UTF-8 -/

def encodeChar (c : Char) : Bytes :=
  let v := c.toNat
  if v < 0x80 then [UInt8.ofNat v]
  else if v < 0x800 then [UInt8.ofNat (0xC0 + v / 64), UInt8.ofNat (0x80 + v % 64)]
  else if v < 0x10000 then
    [UInt8.ofNat (0xE0 + v / 4096), UInt8.ofNat (0x80 + v / 64 % 64), UInt8.ofNat (0x80 + v % 64)]
  else
    [UInt8.ofNat (0xF0 + v / 262144), UInt8.ofNat (0x80 + v / 4096 % 64),
      UInt8.ofNat (0x80 + v / 64 % 64), UInt8.ofNat (0x80 + v % 64)]

/-- `s.encode('utf-8')`. -/
def encode (s : Str) : Bytes := s.flatMap encodeChar

/-- A continuation byte. -/
def isCont (b : UInt8) : Bool := 0x80 ≤ b.toNat && b.toNat < 0xC0

/-- The first character of well-formed UTF-8 and the bytes after it. Overlong
forms, surrogates and values past U+10FFFF are refused. -/
def decodeChar : Bytes → Option (Char × Bytes)
  | [] => none
  | b :: t =>
    if b.toNat < 0x80 then some (Char.ofNat b.toNat, t)
    else if 0xC2 ≤ b.toNat ∧ b.toNat < 0xE0 then
      match t with
      | b1 :: t1 =>
        if isCont b1 then some (Char.ofNat ((b.toNat - 0xC0) * 64 + (b1.toNat - 0x80)), t1) else none
      | _ => none
    else if 0xE0 ≤ b.toNat ∧ b.toNat < 0xF0 then
      match t with
      | b1 :: b2 :: t2 =>
        let v := (b.toNat - 0xE0) * 4096 + (b1.toNat - 0x80) * 64 + (b2.toNat - 0x80)
        if isCont b1 && isCont b2 && 0x800 ≤ v && !(0xD800 ≤ v && v < 0xE000) then
          some (Char.ofNat v, t2)
        else none
      | _ => none
    else if 0xF0 ≤ b.toNat ∧ b.toNat < 0xF5 then
      match t with
      | b1 :: b2 :: b3 :: t3 =>
        let v := (b.toNat - 0xF0) * 262144 + (b1.toNat - 0x80) * 4096 +
          (b2.toNat - 0x80) * 64 + (b3.toNat - 0x80)
        if isCont b1 && isCont b2 && isCont b3 && 0x10000 ≤ v && v < 0x110000 then
          some (Char.ofNat v, t3)
        else none
      | _ => none
    else none

/-- Decoding with at most `fuel` characters; each one takes a byte or more. -/
def decodeFuel : Nat → Bytes → Option Str
  | _, [] => some []
  | 0, _ :: _ => none
  | fuel + 1, b :: t => do
    let (c, rest) ← decodeChar (b :: t)
    let s ← decodeFuel fuel rest
    some (c :: s)

/-- `data.decode('utf-8')`, or `none` where Python raises `UnicodeDecodeError`. -/
def decode (data : Bytes) : Option Str := decodeFuel data.length data

def decodeIgnoreFuel : Nat → Bytes → Str
  | _, [] => []
  | 0, _ :: _ => []
  | fuel + 1, b :: t =>
    match decodeChar (b :: t) with
    | some (c, rest) => c :: decodeIgnoreFuel fuel rest
    -- The bytes that one error drops after the first are continuation bytes,
    -- which are dropped one by one just the same.
    | none => decodeIgnoreFuel fuel t

/-- `data.decode('utf-8', errors='ignore')`. -/
def decodeIgnore (data : Bytes) : Str := decodeIgnoreFuel data.length data

/-- The white space that `str.strip` takes off. -/
def isSpace (c : Char) : Bool :=
  let v := c.toNat
  (9 ≤ v && v ≤ 13) || (28 ≤ v && v ≤ 32) || v = 0x85 || v = 0xA0 || v = 0x1680 ||
    (0x2000 ≤ v && v ≤ 0x200A) || v = 0x2028 || v = 0x2029 || v = 0x202F || v = 0x205F || v = 0x3000

/-- `s.strip()`. -/
def strip (s : Str) : Str := (s.dropWhile isSpace).rdropWhile isSpace

theorem char_toNat_valid (c : Char) :
    c.toNat < 0xD800 ∨ (0xE000 ≤ c.toNat ∧ c.toNat < 0x110000) := by
  have h := c.valid
  simp only [UInt32.isValidChar, Nat.isValidChar] at h
  change c.val.toNat < _ ∨ _
  rcases h with h | ⟨h1, h2⟩
  · exact Or.inl h
  · exact Or.inr ⟨by change 0xE000 ≤ c.val.toNat; omega, h2⟩

theorem ofNat_of_toNat (c : Char) {v : Nat} (h : v = c.toNat) : Char.ofNat v = c := by
  subst h
  exact Char.ofNat_toNat c

@[simp] theorem decodeChar_encodeChar (c : Char) (rest : Bytes) :
    decodeChar (encodeChar c ++ rest) = some (c, rest) := by
  have hc := char_toNat_valid c
  unfold encodeChar
  simp only
  split
  · rename_i h
    have hv : c.toNat % 256 = c.toNat := by omega
    simp [decodeChar, UInt8.toNat_ofNat', hv, h]
  · split
    · rename_i h0 h
      have h1 : (0xC0 + c.toNat / 64) % 256 = 0xC0 + c.toNat / 64 := by omega
      have h2 : (0x80 + c.toNat % 64) % 256 = 0x80 + c.toNat % 64 := by omega
      simp only [List.cons_append, List.nil_append, decodeChar, isCont, UInt8.toNat_ofNat', h1, h2]
      rw [if_neg (by omega), if_pos (by omega), if_pos (by simp; omega),
        ofNat_of_toNat c (by omega)]
    · split
      · rename_i h0 h1 h
        have e1 : (0xE0 + c.toNat / 4096) % 256 = 0xE0 + c.toNat / 4096 := by omega
        have e2 : (0x80 + c.toNat / 64 % 64) % 256 = 0x80 + c.toNat / 64 % 64 := by omega
        have e3 : (0x80 + c.toNat % 64) % 256 = 0x80 + c.toNat % 64 := by omega
        simp only [List.cons_append, List.nil_append, decodeChar, isCont, UInt8.toNat_ofNat', e1, e2,
          e3]
        have hv : (0xE0 + c.toNat / 4096 - 0xE0) * 4096 + (0x80 + c.toNat / 64 % 64 - 0x80) * 64 +
            (0x80 + c.toNat % 64 - 0x80) = c.toNat := by omega
        rw [hv, if_neg (by omega), if_neg (by omega), if_pos (by omega), if_pos (by simp; omega),
          Char.ofNat_toNat]
      · rename_i h0 h1 h
        have e1 : (0xF0 + c.toNat / 262144) % 256 = 0xF0 + c.toNat / 262144 := by omega
        have e2 : (0x80 + c.toNat / 4096 % 64) % 256 = 0x80 + c.toNat / 4096 % 64 := by omega
        have e3 : (0x80 + c.toNat / 64 % 64) % 256 = 0x80 + c.toNat / 64 % 64 := by omega
        have e4 : (0x80 + c.toNat % 64) % 256 = 0x80 + c.toNat % 64 := by omega
        simp only [List.cons_append, List.nil_append, decodeChar, isCont, UInt8.toNat_ofNat', e1, e2,
          e3, e4]
        have hv : (0xF0 + c.toNat / 262144 - 0xF0) * 262144 +
            (0x80 + c.toNat / 4096 % 64 - 0x80) * 4096 + (0x80 + c.toNat / 64 % 64 - 0x80) * 64 +
            (0x80 + c.toNat % 64 - 0x80) = c.toNat := by omega
        rw [hv, if_neg (by omega), if_neg (by omega), if_neg (by omega), if_pos (by omega),
          if_pos (by simp; omega), Char.ofNat_toNat]

theorem encodeChar_ne_nil (c : Char) : encodeChar c ≠ [] := by
  unfold encodeChar
  simp only
  split_ifs <;> simp

theorem decodeFuel_encode (s : Str) (fuel : Nat) (h : (encode s).length ≤ fuel) :
    decodeFuel fuel (encode s) = some s := by
  induction s generalizing fuel with
  | nil => cases fuel <;> rfl
  | cons c s ih =>
    have hsplit : encode (c :: s) = encodeChar c ++ encode s := rfl
    obtain ⟨b, t, hb⟩ := List.exists_cons_of_ne_nil (encodeChar_ne_nil c)
    rw [hsplit, List.length_append, hb, List.length_cons] at h
    obtain ⟨fuel, rfl⟩ : ∃ n, fuel = n + 1 := ⟨fuel - 1, by omega⟩
    have hd := decodeChar_encodeChar c (encode s)
    rw [hb, List.cons_append] at hd
    rw [hsplit, hb, List.cons_append, decodeFuel, hd]
    simp [ih fuel (by omega)]

@[simp] theorem decode_encode (s : Str) : decode (encode s) = some s :=
  decodeFuel_encode s _ le_rfl

theorem decodeIgnoreFuel_encode (s : Str) (fuel : Nat) (h : (encode s).length ≤ fuel) :
    decodeIgnoreFuel fuel (encode s) = s := by
  induction s generalizing fuel with
  | nil => cases fuel <;> rfl
  | cons c s ih =>
    have hsplit : encode (c :: s) = encodeChar c ++ encode s := rfl
    obtain ⟨b, t, hb⟩ := List.exists_cons_of_ne_nil (encodeChar_ne_nil c)
    rw [hsplit, List.length_append, hb, List.length_cons] at h
    obtain ⟨fuel, rfl⟩ : ∃ n, fuel = n + 1 := ⟨fuel - 1, by omega⟩
    have hd := decodeChar_encodeChar c (encode s)
    rw [hb, List.cons_append] at hd
    rw [hsplit, hb, List.cons_append, decodeIgnoreFuel, hd]
    simp [ih fuel (by omega)]

@[simp] theorem decodeIgnore_encode (s : Str) : decodeIgnore (encode s) = s :=
  decodeIgnoreFuel_encode s _ le_rfl

/-- A character takes at most four bytes. -/
theorem length_encode_le (s : Str) : (encode s).length ≤ 4 * s.length := by
  have hchar : ∀ c, (encodeChar c).length ≤ 4 := by
    intro c
    unfold encodeChar
    simp only
    split_ifs <;> simp
  induction s with
  | nil => simp [encode]
  | cons c s ih =>
    have hc := hchar c
    unfold encode at ih ⊢
    rw [List.flatMap_cons, List.length_append, List.length_cons]
    omega

/-- ASCII text has a byte for each character. -/
theorem length_encode_ascii {s : Str} (h : ∀ c ∈ s, c.toNat < 128) :
    (encode s).length = s.length := by
  have hone : ∀ c ∈ s, (encodeChar c).length = 1 := by
    intro c hc
    unfold encodeChar
    simp only [if_pos (h c hc), List.length_singleton]
  rw [encode, List.length_flatMap, List.map_congr_left hone]
  simp

theorem length_encode_hex (data : Bytes) : (encode (hex data)).length = 2 * data.length := by
  rw [length_encode_ascii ?_, length_hex]
  intro c hc
  obtain ⟨n, hn, rfl⟩ := mem_hex hc
  have hdigit : ∀ n < 16, (hexDigit n).toNat < 128 := by decide
  exact hdigit n hn

end python
