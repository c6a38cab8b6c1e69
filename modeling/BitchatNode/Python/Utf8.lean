-- What the decoder of `data.decode('utf-8')` accepts: the encodings of texts
-- and nothing else. A cut through an encoding is accepted only between two
-- characters.
import BitchatNode.Python.Bytes

namespace python

/-! ## One character -/

theorem toNat_ofNat_of_valid {v : Nat} (h : v < 0xD800 ∨ (0xE000 ≤ v ∧ v < 0x110000)) :
    (Char.ofNat v).toNat = v := by
  have hvalid : v.isValidChar := by
    rcases h with h | ⟨hlow, hhigh⟩
    · exact Or.inl h
    · exact Or.inr ⟨by omega, hhigh⟩
  rw [Char.ofNat, dif_pos hvalid]
  rfl

theorem ofNat_eq_byte {n : Nat} {b : UInt8} (h : n = b.toNat) : UInt8.ofNat n = b := by
  rw [h, UInt8.ofNat_toNat]

theorem isCont_iff {b : UInt8} : isCont b = true ↔ 0x80 ≤ b.toNat ∧ b.toNat < 0xC0 := by
  simp [isCont]

theorem encodeChar_one {b : UInt8} (h : b.toNat < 0x80) : encodeChar (Char.ofNat b.toNat) = [b] := by
  have hv : (Char.ofNat b.toNat).toNat = b.toNat := toNat_ofNat_of_valid (by omega)
  simp [encodeChar, hv, h]

theorem encodeChar_two {b b1 : UInt8} (hb : 0xC2 ≤ b.toNat ∧ b.toNat < 0xE0)
    (h1 : 0x80 ≤ b1.toNat ∧ b1.toNat < 0xC0) :
    encodeChar (Char.ofNat ((b.toNat - 0xC0) * 64 + (b1.toNat - 0x80))) = [b, b1] := by
  unfold encodeChar
  rw [toNat_ofNat_of_valid (by omega)]
  simp only
  rw [if_neg (by omega), if_pos (by omega), ofNat_eq_byte (b := b) (by omega),
    ofNat_eq_byte (b := b1) (by omega)]

theorem encodeChar_three {b b1 b2 : UInt8} {v : Nat}
    (hv : v = (b.toNat - 0xE0) * 4096 + (b1.toNat - 0x80) * 64 + (b2.toNat - 0x80))
    (hb : 0xE0 ≤ b.toNat ∧ b.toNat < 0xF0) (h1 : 0x80 ≤ b1.toNat ∧ b1.toNat < 0xC0)
    (h2 : 0x80 ≤ b2.toNat ∧ b2.toNat < 0xC0) (hlow : 0x800 ≤ v)
    (hsurrogate : ¬ (0xD800 ≤ v ∧ v < 0xE000)) : encodeChar (Char.ofNat v) = [b, b1, b2] := by
  unfold encodeChar
  rw [toNat_ofNat_of_valid (by omega)]
  simp only
  rw [if_neg (by omega), if_neg (by omega), if_pos (by omega), ofNat_eq_byte (b := b) (by omega),
    ofNat_eq_byte (b := b1) (by omega), ofNat_eq_byte (b := b2) (by omega)]

theorem encodeChar_four {b b1 b2 b3 : UInt8} {v : Nat}
    (hv : v = (b.toNat - 0xF0) * 262144 + (b1.toNat - 0x80) * 4096 + (b2.toNat - 0x80) * 64 +
      (b3.toNat - 0x80))
    (hb : 0xF0 ≤ b.toNat) (h1 : 0x80 ≤ b1.toNat ∧ b1.toNat < 0xC0)
    (h2 : 0x80 ≤ b2.toNat ∧ b2.toNat < 0xC0) (h3 : 0x80 ≤ b3.toNat ∧ b3.toNat < 0xC0)
    (hlow : 0x10000 ≤ v) (hhigh : v < 0x110000) :
    encodeChar (Char.ofNat v) = [b, b1, b2, b3] := by
  unfold encodeChar
  rw [toNat_ofNat_of_valid (by omega)]
  simp only
  rw [if_neg (by omega), if_neg (by omega), if_neg (by omega), ofNat_eq_byte (b := b) (by omega),
    ofNat_eq_byte (b := b1) (by omega), ofNat_eq_byte (b := b2) (by omega),
    ofNat_eq_byte (b := b3) (by omega)]

/-- The decoder takes off the bytes that the encoder writes for its character. -/
theorem decodeChar_eq_some {data rest : Bytes} {c : Char} (h : decodeChar data = some (c, rest)) :
    data = encodeChar c ++ rest := by
  rcases data with _ | ⟨b, t⟩
  · cases h
  simp only [decodeChar] at h
  split at h
  · rename_i hone
    obtain ⟨rfl, rfl⟩ := Prod.mk.inj (Option.some.inj h)
    rw [encodeChar_one hone]
    rfl
  · split at h
    · rename_i htwo
      rcases t with _ | ⟨b1, t⟩
      · cases h
      simp only [Option.ite_none_right_eq_some, isCont_iff, Option.some.injEq,
        Prod.mk.injEq] at h
      obtain ⟨h1, rfl, rfl⟩ := h
      rw [encodeChar_two htwo h1]
      rfl
    · split at h
      · rename_i hthree
        rcases t with _ | ⟨b1, _ | ⟨b2, t⟩⟩
        · cases h
        · cases h
        simp only [Option.ite_none_right_eq_some, Bool.and_eq_true, isCont_iff, Option.some.injEq,
          Prod.mk.injEq, decide_eq_true_eq, Bool.not_eq_true', Bool.and_eq_false_iff,
          decide_eq_false_iff_not] at h
        obtain ⟨⟨⟨⟨h1, h2⟩, hlow⟩, hsurrogate⟩, rfl, rfl⟩ := h
        rw [encodeChar_three rfl hthree h1 h2 hlow (by omega)]
        rfl
      · split at h
        · rename_i hfour
          rcases t with _ | ⟨b1, _ | ⟨b2, _ | ⟨b3, t⟩⟩⟩
          · cases h
          · cases h
          · cases h
          simp only [Option.ite_none_right_eq_some, Bool.and_eq_true, isCont_iff,
            Option.some.injEq, Prod.mk.injEq, decide_eq_true_eq] at h
          obtain ⟨⟨⟨⟨⟨h1, h2⟩, h3⟩, hlow⟩, hhigh⟩, rfl, rfl⟩ := h
          rw [encodeChar_four rfl hfour.1 h1 h2 h3 hlow hhigh]
          rfl
        · cases h

/-! ## Texts -/

theorem decodeFuel_eq_some {fuel : Nat} {data : Bytes} {s : Str}
    (h : decodeFuel fuel data = some s) : data = encode s := by
  induction fuel generalizing data s with
  | zero =>
    cases data with
    | nil => simp only [decodeFuel, Option.some.injEq] at h; rw [← h]; rfl
    | cons b t => cases h
  | succ fuel ih =>
    cases data with
    | nil => simp only [decodeFuel, Option.some.injEq] at h; rw [← h]; rfl
    | cons b t =>
      simp only [decodeFuel, Option.bind_eq_bind, Option.bind_eq_some_iff, Option.some.injEq] at h
      obtain ⟨⟨c, rest⟩, hchar, s', hrest, rfl⟩ := h
      have hdata : rest = encode s' := ih hrest
      rw [decodeChar_eq_some hchar, hdata]
      rfl

theorem decode_eq_some_iff {data : Bytes} {s : Str} : decode data = some s ↔ data = encode s := by
  constructor
  · intro h
    exact decodeFuel_eq_some h
  · rintro rfl
    exact decode_encode s

/-- Bytes that begin an encoding and are one themselves end between two
characters. -/
theorem isPrefix_of_encode {s t : Str} (h : encode t <+: encode s) : t <+: s := by
  induction t generalizing s with
  | nil => exact List.nil_prefix
  | cons c t ih =>
    obtain ⟨rest, hrest⟩ := h
    have hc : decodeChar (encode s) = some (c, encode t ++ rest) := by
      rw [← hrest]
      exact (List.append_assoc _ _ _ ▸ decodeChar_encodeChar c (encode t ++ rest))
    cases s with
    | nil => simp [encode, decodeChar] at hc
    | cons d s =>
      have hd : decodeChar (encode (d :: s)) = some (d, encode s) := decodeChar_encodeChar d _
      rw [hc, Option.some.injEq, Prod.mk.injEq] at hd
      obtain ⟨rfl, htail⟩ := hd
      rw [List.cons_prefix_cons]
      exact ⟨rfl, ih ⟨rest, htail⟩⟩

/-- A cut through an encoding is decoded only between two characters. -/
theorem decode_take_encode_iff {s t : Str} {k : Nat} (hk : k ≤ (encode s).length) :
    decode ((encode s).take k) = some t ↔ t <+: s ∧ (encode t).length = k := by
  rw [decode_eq_some_iff]
  constructor
  · intro h
    refine ⟨isPrefix_of_encode (h ▸ List.take_prefix k (encode s)), ?_⟩
    rw [← h, List.length_take_of_le hk]
  · rintro ⟨⟨rest, rfl⟩, rfl⟩
    simp [encode, List.flatMap_append]

end python
