-- The identity announcement in both directions: what the encoder writes the
-- parser reads back, and what the parser reads the encoder would write again.
-- Timestamps are in seconds, the parser's quotient taken as an exact fraction.
import BitchatNode.IdentityCodec
import BitchatNode.Python.Utf8
import Mathlib.Algebra.Field.Rat

namespace python

/-- `int(x)`: towards zero. -/
def int (x : ℚ) : Int := x.num.tdiv x.den

theorem int_natCast (n : Nat) : int n = n := by
  unfold int
  rw [Rat.num_natCast, Rat.den_natCast]
  simp

/-- Only the low `k` bytes count. -/
theorem be_mod (k n : Nat) : be k (n % 256 ^ k) = be k n := by
  induction k generalizing n with
  | zero => rfl
  | succ k ih =>
    have hhigh : n % 256 ^ (k + 1) / 256 = n / 256 % 256 ^ k := by
      rw [Nat.pow_succ, Nat.mul_comm, Nat.mod_mul_right_div_self]
    have hlow : UInt8.ofNat (n % 256 ^ (k + 1)) = UInt8.ofNat n := by
      apply UInt8.toNat_inj.mp
      rw [UInt8.toNat_ofNat', UInt8.toNat_ofNat', Nat.pow_succ, Nat.mul_comm]
      exact Nat.mod_mul_right_mod n 256 (256 ^ k)
    rw [be, be, hhigh, hlow, ih]

theorem be_fromBE (data : Bytes) : be data.length (fromBE data) = data := by
  induction data using List.reverseRecOn with
  | nil => rfl
  | append_singleton data b ih =>
    have hb := b.toNat_lt
    have hhigh : (256 * fromBE data + b.toNat) / 256 = fromBE data := by omega
    have hlow : UInt8.ofNat (256 * fromBE data + b.toNat) = b := by
      apply UInt8.toNat_inj.mp
      rw [UInt8.toNat_ofNat']
      omega
    rw [fromBE_append_singleton, List.length_append, List.length_singleton, be, hhigh, hlow, ih]

end python

namespace bitchat.protocol

open python

/-! ## Timestamps -/

/-- `timestamp_ms / 1000.0`, as an exact fraction. -/
def NoiseIdentityAnnouncement.timestamp (self : NoiseIdentityAnnouncement) : ℚ :=
  self.timestamp_ms / 1000

theorem NoiseIdentityAnnouncement.timestamp_mul (self : NoiseIdentityAnnouncement) :
    self.timestamp * 1000 = self.timestamp_ms := by
  unfold timestamp
  rw [div_mul_cancel₀]
  decide

/-- `encode_noise_identity_announcement_binary` for a timestamp that may be a
fraction, as the parser gives it. -/
def encode_announcement_at (peer_id : Str) (public_key signing_public_key : Bytes) (nickname : Str)
    (timestamp : ℚ) (signature : Bytes) (previous_peer_id : Option Str) : Except PyError Bytes := do
  let previous := previous_peer_id.getD []
  let flags : UInt8 := if previous ≠ [] then 0x01 else 0
  let peer_data ← fromHex (ljust16 peer_id)
  let public_key ← packShort public_key
  let signing_public_key ← packShort signing_public_key
  let nickname ← packShort (encode nickname)
  let prev_data ← if previous ≠ [] then fromHex (ljust16 previous) else .ok []
  let signature ← packShort signature
  return [flags] ++ peer_data ++ public_key ++ signing_public_key ++ nickname ++
    be 8 (python.int (timestamp * 1000) % 256 ^ 8).toNat ++ prev_data ++ signature

theorem be_int_natCast (n : Nat) : be 8 (python.int n % 256 ^ 8).toNat = be 8 n := by
  have hmod : ((n : Int) % 256 ^ 8).toNat = n % 256 ^ 8 := by omega
  rw [int_natCast, hmod, be_mod]

/-- On whole seconds the two are the same function. -/
theorem encode_announcement_at_natCast (peer_id : Str) (public_key signing_public_key : Bytes)
    (nickname : Str) (timestamp : Nat) (signature : Bytes) (previous_peer_id : Option Str) :
    encode_announcement_at peer_id public_key signing_public_key nickname timestamp signature
        previous_peer_id =
      encode_noise_identity_announcement_binary peer_id public_key signing_public_key nickname
        timestamp signature previous_peer_id := by
  unfold encode_announcement_at encode_noise_identity_announcement_binary
  have hcast : (timestamp : ℚ) * 1000 = (timestamp * 1000 : Nat) := by
    rw [Nat.cast_mul]
    rfl
  rw [hcast, be_int_natCast]

/-! ## Peer ids -/

/-- 16 lower-case hex digits. -/
def IsHexId (s : Str) : Prop := s.length = 16 ∧ ∀ c ∈ s, ∃ n < 16, c = hexDigit n

theorem exists_hex : ∀ s : Str, s.length % 2 = 0 → (∀ c ∈ s, ∃ n < 16, c = hexDigit n) →
    ∃ data, hex data = s
  | [], _, _ => ⟨[], rfl⟩
  | [_], h, _ => by cases h
  | c :: d :: s, h, hdigits => by
    rw [List.length_cons, List.length_cons] at h
    obtain ⟨data, hdata⟩ := exists_hex s (by omega) fun c hc =>
      hdigits c (List.mem_cons_of_mem _ (List.mem_cons_of_mem _ hc))
    obtain ⟨hi, hhi, rfl⟩ := hdigits c List.mem_cons_self
    obtain ⟨lo, hlo, rfl⟩ := hdigits d (List.mem_cons_of_mem _ List.mem_cons_self)
    have hbyte : (UInt8.ofNat (16 * hi + lo)).toNat = 16 * hi + lo := by
      rw [UInt8.toNat_ofNat']
      omega
    refine ⟨UInt8.ofNat (16 * hi + lo) :: data, ?_⟩
    have hsplit : hex (UInt8.ofNat (16 * hi + lo) :: data) =
        hexDigit ((UInt8.ofNat (16 * hi + lo)).toNat / 16) ::
          hexDigit ((UInt8.ofNat (16 * hi + lo)).toNat % 16) :: hex data := rfl
    have hdiv : (16 * hi + lo) / 16 = hi := by omega
    have hmod : (16 * hi + lo) % 16 = lo := by omega
    rw [hsplit, hbyte, hdiv, hmod, hdata]

/-- These are the texts of the ids of eight bytes. -/
theorem IsHexId.exists_peerId {s : Str} (h : IsHexId s) : ∃ id : PeerId, id.str = s := by
  obtain ⟨data, hdata⟩ := exists_hex s (by rw [h.1]) h.2
  have hlength := length_hex data
  rw [hdata, h.1] at hlength
  exact ⟨⟨data, by omega⟩, hdata⟩

theorem fromHex_ljust16 (id : PeerId) : fromHex (ljust16 id.str) = .ok id.bytes := by
  rw [ljust16_str]
  simp only [fromHex, PeerId.str, fromhex_hex]

/-! ## The layout -/

/-- The fields of an announcement. The 8 bytes of the previous id are there if
the flag says so. -/
def identity_layout (flags : UInt8) (peer_id public_key signing_public_key nickname : Bytes)
    (timestamp : Nat) (previous signature : Bytes) : Bytes :=
  [flags] ++ (peer_id ++ (short_field public_key ++ (short_field signing_public_key ++
    (short_field nickname ++ (be 8 timestamp ++ (previous ++ short_field signature))))))

/-- The fields fit in their length bytes. -/
structure AnnouncementFits (public_key signing_public_key : Bytes) (nickname : Str)
    (signature : Bytes) : Prop where
  public_key : public_key.length ≤ 255
  signing_public_key : signing_public_key.length ≤ 255
  nickname : (encode nickname).length ≤ 255
  signature : signature.length ≤ 255

/-- What the encoder writes for ids of eight bytes and a timestamp that is a
whole number of milliseconds. -/
theorem encode_identity_layout (id : PeerId) (previous : Option PeerId)
    {public_key signing_public_key : Bytes} {nickname : Str} {signature : Bytes} (timestamp : ℚ)
    {timestamp_ms : Nat} (ht : timestamp * 1000 = timestamp_ms)
    (h : AnnouncementFits public_key signing_public_key nickname signature) :
    encode_announcement_at id.str public_key signing_public_key nickname timestamp signature
        (previous.map PeerId.str) =
      .ok (identity_layout (if previous.isSome then 1 else 0) id.bytes public_key
        signing_public_key (encode nickname) timestamp_ms ((previous.map PeerId.bytes).getD [])
        signature) := by
  unfold encode_announcement_at
  simp only [fromHex_ljust16, packShort_ok h.public_key, packShort_ok h.signing_public_key,
    packShort_ok h.nickname, packShort_ok h.signature, ok_bind, ht, be_int_natCast]
  cases previous with
  | none =>
    simp [identity_layout]
    rfl
  | some previous =>
    simp [previous.str_ne_nil, fromHex_ljust16, identity_layout]

/-! ## Reading -/

/-- The parser, with the offset behind the last byte that it read. -/
def parse_announcement_at (data : Bytes) : Option (NoiseIdentityAnnouncement × Nat) := do
  let flags ← data[0]?
  let (peer_id, offset) ← readFixed data 1 8
  let (public_key, offset) ← readShort data offset
  let (signing_public_key, offset) ← readShort data offset
  let (nickname_bytes, offset) ← readShort data offset
  let nickname ← decode nickname_bytes
  let (timestamp, offset) ← readFixed data offset 8
  let (previous_peer_id, offset) ← if hasFlag flags 0x01 then do
      let (previous, offset) ← readFixed data offset 8
      pure (some (hex previous), offset)
    else pure (none, offset)
  let (signature, offset) ← readShort data offset
  return ({
    peerID := hex peer_id
    publicKey := hex public_key
    signingPublicKey := hex signing_public_key
    nickname
    timestamp_ms := fromBE timestamp
    signature := hex signature
    previousPeerID := previous_peer_id }, offset)

theorem bind_eq_map_bind {α β γ : Type} {x : Option α} {f : α → Option γ} {g : α → Option β}
    {p : β → γ} (h : ∀ a, f a = (g a).map p) : x.bind f = (x.bind g).map p := by
  cases x with
  | none => rfl
  | some a => exact h a

theorem parse_announcement_eq (data : Bytes) :
    parse_noise_identity_announcement_binary data =
      .ok ((parse_announcement_at data).map Prod.fst) := by
  unfold parse_noise_identity_announcement_binary parse_announcement_at
  congr 1
  refine bind_eq_map_bind fun flags => ?_
  iterate 5 refine bind_eq_map_bind fun _ => ?_
  refine bind_eq_map_bind fun ⟨timestamp, offset⟩ => ?_
  by_cases hflag : hasFlag flags 0x01 = true
  · simp only [hflag, if_true]
    refine bind_eq_map_bind fun ⟨previous, offset⟩ => ?_
    refine bind_eq_map_bind fun _ => ?_
    exact bind_eq_map_bind fun _ => rfl
  · simp only [hflag, if_false, Bool.false_eq_true]
    refine bind_eq_map_bind fun _ => ?_
    exact bind_eq_map_bind fun _ => rfl

/-- A field that was read stands where it was read, and fills its length. -/
theorem readFixed_sound {data field : Bytes} {n size m : Nat}
    (h : readFixed data n size = some (field, m)) :
    m = n + size ∧ field.length = size ∧ data.drop n = field ++ data.drop m := by
  unfold readFixed at h
  split at h
  · rename_i hfits
    obtain ⟨rfl, rfl⟩ := Prod.mk.inj (Option.some.inj h)
    have hlength : (slice data n (n + size)).length = size := by
      rw [slice, List.length_take, List.length_drop]
      omega
    refine ⟨rfl, hlength, ?_⟩
    rw [slice, Nat.add_sub_cancel_left, ← List.drop_drop, List.take_append_drop]
  · cases h

theorem readShort_sound {data field : Bytes} {n m : Nat} (h : readShort data n = some (field, m)) :
    m = n + 1 + field.length ∧ field.length ≤ 255 ∧
      data.drop n = short_field field ++ data.drop m := by
  unfold readShort at h
  rw [Option.bind_eq_bind, Option.bind_eq_some_iff] at h
  obtain ⟨len, hget, h⟩ := h
  split at h
  · rename_i hfits
    obtain ⟨rfl, rfl⟩ := Prod.mk.inj (Option.some.inj h)
    have hlen := len.toNat_lt
    obtain ⟨hn, hget⟩ := List.getElem?_eq_some_iff.mp hget
    have hlength : (slice data (n + 1) (n + 1 + len.toNat)).length = len.toNat := by
      rw [slice, List.length_take, List.length_drop]
      omega
    refine ⟨by omega, by omega, ?_⟩
    have hrest : data.drop (n + 1) =
        slice data (n + 1) (n + 1 + len.toNat) ++ data.drop (n + 1 + len.toNat) := by
      rw [slice, Nat.add_sub_cancel_left, ← List.drop_drop (i := len.toNat),
        List.take_append_drop]
    rw [short_field, hlength, UInt8.ofNat_toNat, List.drop_eq_getElem_cons hn, hget,
      List.cons_append, ← hrest]
  · cases h

/-! ## The two directions -/

/-- The announcement of these fields. -/
def announcement_of_fields (peer_id public_key signing_public_key : Bytes) (nickname : Str)
    (timestamp : Nat) (previous : Option Bytes) (signature : Bytes) :
    NoiseIdentityAnnouncement where
  peerID := hex peer_id
  publicKey := hex public_key
  signingPublicKey := hex signing_public_key
  nickname
  timestamp_ms := timestamp
  signature := hex signature
  previousPeerID := previous.map hex

/-- The parser reads a layout back, whatever follows it. -/
theorem parse_identity_layout {flags : UInt8} {peer_id public_key signing_public_key : Bytes}
    {nickname : Str} {timestamp : Nat} {previous : Option Bytes} {signature : Bytes}
    (suffix : Bytes) (hid : peer_id.length = 8)
    (h : AnnouncementFits public_key signing_public_key nickname signature)
    (ht : timestamp < 256 ^ 8) (hflag : hasFlag flags 0x01 = previous.isSome)
    (hprevious : ∀ id ∈ previous, id.length = 8) :
    ∃ offset, parse_announcement_at (identity_layout flags peer_id public_key signing_public_key
        (encode nickname) timestamp (previous.getD []) signature ++ suffix) =
      some (announcement_of_fields peer_id public_key signing_public_key nickname timestamp previous
        signature, offset) := by
  generalize hdata : identity_layout flags peer_id public_key signing_public_key
    (encode nickname) timestamp (previous.getD []) signature ++ suffix = data
  have hflags : data[0]? = some flags := by
    rw [← hdata]
    rfl
  have h1 : data.drop 1 = peer_id ++ (short_field public_key ++ (short_field signing_public_key ++
      (short_field (encode nickname) ++ (be 8 timestamp ++ (previous.getD [] ++
        (short_field signature ++ suffix)))))) := by
    rw [← hdata]
    simp [identity_layout]
  obtain ⟨hread_id, h1⟩ := readFixed_ok hid (by decide) h1
  obtain ⟨hread_key, h1⟩ := readShort_ok h.public_key h1
  obtain ⟨hread_signing, h1⟩ := readShort_ok h.signing_public_key h1
  obtain ⟨hread_name, h1⟩ := readShort_ok h.nickname h1
  obtain ⟨hread_time, h1⟩ := readFixed_ok (length_be 8 timestamp) (by decide) h1
  unfold parse_announcement_at
  simp only [hflags, hread_id, hread_key, hread_signing, hread_name, hread_time, decode_encode,
    Option.bind_eq_bind, Option.bind_some, Option.pure_def, fromBE_be 8 timestamp ht]
  cases previous with
  | none =>
    simp only [Option.isSome_none] at hflag
    obtain ⟨hread_signature, -⟩ := readShort_ok h.signature h1
    simp only [hflag, Bool.false_eq_true, if_false, Option.bind_some, hread_signature]
    exact ⟨_, rfl⟩
  | some id =>
    simp only [Option.isSome_some] at hflag
    obtain ⟨hread_previous, h1⟩ := readFixed_ok (hprevious id rfl) (by decide) h1
    obtain ⟨hread_signature, -⟩ := readShort_ok h.signature h1
    simp only [hflag, if_true, hread_previous, Option.bind_some, hread_signature]
    exact ⟨_, rfl⟩

/-- The parser reads nothing but layouts: the bytes before the offset are that
of the fields that it gives. -/
theorem parse_announcement_sound {data : Bytes} {announcement : NoiseIdentityAnnouncement}
    {offset : Nat} (h : parse_announcement_at data = some (announcement, offset)) :
    ∃ flags peer_id public_key signing_public_key nickname timestamp previous signature,
      announcement = announcement_of_fields peer_id public_key signing_public_key nickname timestamp
        previous signature ∧
      data = identity_layout flags peer_id public_key signing_public_key (encode nickname) timestamp
        (previous.getD []) signature ++ data.drop offset ∧
      offset = (identity_layout flags peer_id public_key signing_public_key (encode nickname)
        timestamp (previous.getD []) signature).length ∧
      peer_id.length = 8 ∧ AnnouncementFits public_key signing_public_key nickname signature ∧
      hasFlag flags 0x01 = previous.isSome ∧ ∀ id ∈ previous, id.length = 8 := by
  unfold parse_announcement_at at h
  simp only [Option.bind_eq_bind, Option.bind_eq_some_iff, Prod.exists, Option.pure_def] at h
  obtain ⟨flags, hflags, peer_id, o1, hid, public_key, o2, hkey, signing_public_key, o3, hsigning,
    nickname_bytes, o4, hname, nickname, hdecode, timestamp, o5, htime, h⟩ := h
  obtain ⟨rfl, hid_length, hid⟩ := readFixed_sound hid
  obtain ⟨rfl, hkey_length, hkey⟩ := readShort_sound hkey
  obtain ⟨rfl, hsigning_length, hsigning⟩ := readShort_sound hsigning
  obtain ⟨rfl, hname_length, hname⟩ := readShort_sound hname
  obtain ⟨rfl, htime_length, htime⟩ := readFixed_sound htime
  rw [decode_eq_some_iff] at hdecode
  subst hdecode
  obtain ⟨hnonempty, hfirst⟩ := List.getElem?_eq_some_iff.mp hflags
  have hhead : data = flags :: data.drop 1 := by
    rw [← hfirst, ← List.drop_eq_getElem_cons hnonempty, List.drop_zero]
  have hstamp : be 8 (fromBE timestamp) = timestamp := by
    rw [← htime_length, be_fromBE]
  split at h
  · rename_i hflag
    simp only [Option.bind_eq_some_iff, Prod.exists, Option.some.injEq, Prod.mk.injEq] at h
    obtain ⟨previous, o6, hprevious, _, _, ⟨rfl, rfl⟩, signature, o7, hsignature, hfields, rfl⟩ := h
    obtain ⟨rfl, hprevious_length, hprevious⟩ := readFixed_sound hprevious
    obtain ⟨rfl, hsignature_length, hsignature⟩ := readShort_sound hsignature
    refine ⟨flags, peer_id, public_key, signing_public_key, nickname, fromBE timestamp,
      some previous, signature, hfields.symm, ?_, ?_, hid_length,
      ⟨hkey_length, hsigning_length, hname_length, hsignature_length⟩, hflag, ?_⟩
    · conv_lhs => rw [hhead, hid, hkey, hsigning, hname, htime, hprevious, hsignature]
      simp [identity_layout, hstamp]
    · simp [identity_layout, short_field, hid_length, hprevious_length]
      omega
    · rintro id ⟨⟩
      exact hprevious_length
  · rename_i hflag
    simp only [Option.bind_eq_some_iff, Prod.exists, Option.some.injEq, Prod.mk.injEq] at h
    obtain ⟨_, _, ⟨rfl, rfl⟩, signature, o7, hsignature, hfields, rfl⟩ := h
    obtain ⟨rfl, hsignature_length, hsignature⟩ := readShort_sound hsignature
    refine ⟨flags, peer_id, public_key, signing_public_key, nickname, fromBE timestamp,
      none, signature, hfields.symm, ?_, ?_, hid_length,
      ⟨hkey_length, hsigning_length, hname_length, hsignature_length⟩, by simpa using hflag, ?_⟩
    · conv_lhs => rw [hhead, hid, hkey, hsigning, hname, htime, hsignature]
      simp [identity_layout, hstamp]
    · simp [identity_layout, short_field, hid_length]
      omega
    · rintro id ⟨⟩

/-- The encoder on the fields that the parser gives, keys and signature read
from their hex digits. -/
def encode_fields (announcement : NoiseIdentityAnnouncement) : Except PyError Bytes := do
  let public_key ← fromHex announcement.publicKey
  let signing_public_key ← fromHex announcement.signingPublicKey
  let signature ← fromHex announcement.signature
  encode_announcement_at announcement.peerID public_key signing_public_key announcement.nickname
    announcement.timestamp signature announcement.previousPeerID

theorem flags_and_one (flags : UInt8) :
    flags &&& 0x01 = if hasFlag flags 0x01 then 0x01 else 0 := by
  have hbit : (flags &&& 0x01).toNat = flags.toNat % 2 := by
    rw [UInt8.toNat_and]
    exact Nat.and_one_is_mod _
  unfold hasFlag
  by_cases h : flags &&& 0x01 = 0
  · simp [h]
  · have hne : (flags &&& 0x01).toNat ≠ 0 := fun hzero => h (UInt8.toNat_inj.mp hzero)
    have hone : flags &&& 0x01 = 0x01 := by
      apply UInt8.toNat_inj.mp
      have hvalue : (0x01 : UInt8).toNat = 1 := rfl
      omega
    rw [hone]
    rfl

/-- Encoding what was read gives the bytes that were read, except for the flag
bits that have no meaning. -/
theorem encode_fields_of_parse {data : Bytes} {announcement : NoiseIdentityAnnouncement}
    {offset : Nat} (h : parse_announcement_at data = some (announcement, offset)) :
    encode_fields announcement = .ok ((data.take offset).set 0 (data.getD 0 0 &&& 0x01)) := by
  obtain ⟨flags, peer_id, public_key, signing_public_key, nickname, timestamp, previous, signature,
    rfl, hdata, hoffset, hid, hfits, hflag, hprevious⟩ := parse_announcement_sound h
  have hconsumed : (data.take offset).set 0 (data.getD 0 0 &&& 0x01) =
      identity_layout (if previous.isSome then 1 else 0) peer_id public_key signing_public_key
        (encode nickname) timestamp (previous.getD []) signature := by
    have hfirst : data.getD 0 0 = flags := by
      rw [hdata]
      rfl
    have htake : data.take offset = identity_layout flags peer_id public_key signing_public_key
        (encode nickname) timestamp (previous.getD []) signature := by
      conv_lhs => rw [hdata, hoffset]
      rw [List.take_left]
    rw [htake, hfirst, flags_and_one, hflag]
    rfl
  have hseconds : (announcement_of_fields peer_id public_key signing_public_key nickname timestamp
      previous signature).timestamp * 1000 = (timestamp : ℚ) :=
    NoiseIdentityAnnouncement.timestamp_mul _
  obtain ⟨old, hold, hbytes⟩ : ∃ old : Option PeerId, old.map PeerId.str = previous.map hex ∧
      old.map PeerId.bytes = previous := by
    cases previous with
    | none => exact ⟨none, rfl, rfl⟩
    | some id => exact ⟨some ⟨id, hprevious id rfl⟩, rfl, rfl⟩
  have hsome : old.isSome = previous.isSome := by
    rw [← hbytes, Option.isSome_map]
  have hencode := encode_identity_layout ⟨peer_id, hid⟩ old _ hseconds hfits
  rw [hbytes, hsome, hold] at hencode
  rw [hconsumed, ← hencode]
  simp [encode_fields, announcement_of_fields, fromHex, PeerId.str]

/-- An announcement of fields that fit is read back, whatever follows it, and
every announcement that is read would be encoded as the bytes that it was read
from, up to the unused flag bits. -/
theorem an_announcement_is_its_bytes :
    (∀ (peer_id : Str) (public_key signing_public_key : Bytes) (nickname : Str) (timestamp : Nat)
      (signature : Bytes) (previous_peer_id : Option Str), IsHexId peer_id →
      (∀ id ∈ previous_peer_id, IsHexId id) →
      AnnouncementFits public_key signing_public_key nickname signature →
      1000 * timestamp < 2 ^ 64 →
      ∃ payload, encode_noise_identity_announcement_binary peer_id public_key signing_public_key
          nickname timestamp signature previous_peer_id = .ok payload ∧
        ∀ suffix, ∃ announcement,
          parse_noise_identity_announcement_binary (payload ++ suffix) = .ok (some announcement) ∧
          announcement.peerID = peer_id ∧ announcement.publicKey = hex public_key ∧
          announcement.signingPublicKey = hex signing_public_key ∧
          announcement.nickname = nickname ∧ announcement.timestamp = timestamp ∧
          announcement.signature = hex signature ∧
          announcement.previousPeerID = previous_peer_id) ∧
    ∀ data announcement, parse_noise_identity_announcement_binary data = .ok (some announcement) →
      ∃ offset, parse_announcement_at data = some (announcement, offset) ∧
        encode_fields announcement = .ok ((data.take offset).set 0 (data.getD 0 0 &&& 0x01)) := by
  constructor
  · intro peer_id public_key signing_public_key nickname timestamp signature previous_peer_id hid
      hprevious hfits ht
    obtain ⟨id, rfl⟩ := hid.exists_peerId
    obtain ⟨old, rfl⟩ : ∃ old : Option PeerId, old.map PeerId.str = previous_peer_id := by
      cases previous_peer_id with
      | none => exact ⟨none, rfl⟩
      | some s =>
        obtain ⟨old, rfl⟩ := (hprevious s rfl).exists_peerId
        exact ⟨some old, rfl⟩
    have hms : (timestamp : ℚ) * 1000 = (1000 * timestamp : Nat) := by
      rw [mul_comm, Nat.cast_mul]
      rfl
    refine ⟨_, (encode_announcement_at_natCast ..).symm.trans
      (encode_identity_layout id old _ hms hfits), ?_⟩
    intro suffix
    have hflag : hasFlag (if old.isSome then 1 else 0) 0x01 = (old.map PeerId.bytes).isSome := by
      cases old with
      | none => decide
      | some old => exact (by decide : hasFlag 1 0x01 = true)
    obtain ⟨offset, hparse⟩ := parse_identity_layout suffix id.length_bytes hfits
      (by omega : 1000 * timestamp < 256 ^ 8) hflag (by
        intro bytes hbytes
        obtain ⟨old', -, rfl⟩ := Option.mem_map.mp hbytes
        exact old'.length_bytes)
    refine ⟨_, by rw [parse_announcement_eq, hparse]; rfl, rfl, rfl, rfl, rfl, ?_, rfl, ?_⟩
    · show ((1000 * timestamp : Nat) : ℚ) / 1000 = timestamp
      rw [← hms, mul_div_cancel_right₀]
      decide
    · cases old <;> rfl
  · intro data announcement h
    rw [parse_announcement_eq, Except.ok.injEq, Option.map_eq_some_iff] at h
    obtain ⟨⟨_, offset⟩, hparse, rfl⟩ := h
    exact ⟨offset, hparse, encode_fields_of_parse hparse⟩

end bitchat.protocol
