-- What `parse_bitchat_packet` makes of the bytes that
-- `create_bitchat_packet_with_recipient` builds. The ids are filled up with
-- zeros on one side and stripped of zeros on the other, so an id that ends in
-- a zero byte comes back shorter.
import BitchatNode.Protocol

namespace bitchat.protocol

open python

/-! ## Peer ids -/

/-- An id as a node draws it: 8 bytes, written as 16 hex digits. -/
structure PeerId where
  bytes : Bytes
  length_bytes : bytes.length = 8
deriving DecidableEq

namespace PeerId

/-! The ids of the stand-ins, by their bytes. -/

theorem length_counted : ([1, 2, 3, 4, 5, 6, 7, 8] : Bytes).length = 8 := rfl

theorem length_counted_down : ([8, 7, 6, 5, 4, 3, 2, 1] : Bytes).length = 8 := rfl

theorem length_ones : ([1, 1, 1, 1, 1, 1, 1, 1] : Bytes).length = 8 := rfl

theorem length_twos : ([2, 2, 2, 2, 2, 2, 2, 2] : Bytes).length = 8 := rfl

theorem length_nines : ([9, 9, 9, 9, 9, 9, 9, 9] : Bytes).length = 8 := rfl

/-! What every id is like. -/

def str (id : PeerId) : Str := hex id.bytes

def EndsInZero (id : PeerId) : Prop := id.bytes.getLast? = some 0

instance (id : PeerId) : Decidable id.EndsInZero := by
  unfold EndsInZero
  infer_instance

theorem bytes_ne_nil (id : PeerId) : id.bytes ≠ [] := by
  intro h
  have := id.length_bytes
  rw [h] at this
  cases this

theorem length_str (id : PeerId) : id.str.length = 16 := by
  rw [str, length_hex, id.length_bytes]

theorem str_ne_nil (id : PeerId) : id.str ≠ [] := by
  intro h
  have := id.length_str
  rw [h] at this
  cases this

theorem str_injective {a b : PeerId} (h : a.str = b.str) : a = b := by
  have hbytes := hex_injective h
  cases a
  cases b
  simpa using hbytes

theorem rstripZero_eq_self (id : PeerId) : rstripZero id.bytes = id.bytes ↔ ¬ id.EndsInZero := by
  unfold rstripZero EndsInZero
  rw [List.rdropWhile_eq_self_iff]
  constructor
  · intro h hlast
    have hne := h id.bytes_ne_nil
    rw [List.getLast?_eq_getLast_of_ne_nil id.bytes_ne_nil, Option.some.injEq] at hlast
    simp [hlast] at hne
  · intro h hne hzero
    apply h
    rw [List.getLast?_eq_getLast_of_ne_nil hne]
    simpa using hzero

/-- An id comes back from its 8 bytes unless it ends in a zero byte. -/
theorem hex_rstripZero_eq (id : PeerId) : hex (rstripZero id.bytes) = id.str ↔ ¬ id.EndsInZero := by
  rw [← rstripZero_eq_self]
  constructor
  · intro h
    exact hex_injective h
  · intro h
    rw [h, str]

end PeerId

/-! ## The layout of a packet -/

/-- The fields of a packet in their order; `tail` is the signature and the
padding. -/
def layout (msg_type : MessageType) (ttl : UInt8) (timestamp : Nat) (flags : UInt8)
    (sender recipient payload tail : Bytes) : Bytes :=
  [1, msg_type.value, ttl] ++ be 8 timestamp ++ [flags] ++ be 2 payload.length ++ sender ++
    recipient ++ payload ++ tail

theorem length_layout (msg_type : MessageType) (ttl : UInt8) (timestamp : Nat) (flags : UInt8)
    (sender recipient payload tail : Bytes) :
    (layout msg_type ttl timestamp flags sender recipient payload tail).length =
      14 + sender.length + recipient.length + payload.length + tail.length := by
  simp only [layout, List.length_append, length_be, List.length_cons, List.length_nil]

theorem set_layout (msg_type : MessageType) (ttl ttl' : UInt8) (timestamp : Nat) (flags : UInt8)
    (sender recipient payload tail : Bytes) :
    (layout msg_type ttl timestamp flags sender recipient payload tail).set 2 ttl' =
      layout msg_type ttl' timestamp flags sender recipient payload tail := by
  simp [layout]

/-- Reading from an offset that the first part reaches exactly. -/
theorem slice_append {a : Bytes} (b c : Bytes) {n m : Nat} (ha : a.length = n)
    (hm : m = n + b.length) : slice (a ++ (b ++ c)) n m = b := by
  subst hm ha
  unfold slice
  rw [List.drop_left, Nat.add_sub_cancel_left, List.take_left]

/-! ## The fields that the encoder writes -/

/-- The 8 bytes of the recipient field, if the packet has one. -/
def recipient_field (msg_type : MessageType) : Option PeerId → Bytes
  | some recipient => recipient.bytes
  | none => if msg_type ∈ exclude_recipient_types then [] else BROADCAST_RECIPIENT

/-- Where a packet goes, as its reader sees it: `none` is for a fragment that
names no recipient. -/
def recipient_read (msg_type : MessageType) : Option PeerId → Option Bytes
  | some recipient => some (rstripZero recipient.bytes)
  | none => if msg_type ∈ exclude_recipient_types then none else some BROADCAST_RECIPIENT

/-- What a reader gets from a packet of `sender`. -/
def received (sender : PeerId) (recipient : Option PeerId) (msg_type : MessageType)
    (payload : Bytes) (ttl : UInt8) : BitchatPacket where
  msg_type
  sender_id := rstripZero sender.bytes
  sender_id_str := hex (rstripZero sender.bytes)
  recipient_id := recipient_read msg_type recipient
  recipient_id_str := (recipient_read msg_type recipient).map hex
  payload
  ttl

/-- The length of a packet without its padding. -/
def bare_length (msg_type : MessageType) (recipient : Option PeerId) (payload : Bytes)
    (signature : Option Bytes) : Nat :=
  22 + (recipient_field msg_type recipient).length + payload.length + (signature.getD []).length

theorem length_recipient_field (msg_type : MessageType) (recipient : Option PeerId) :
    (recipient_field msg_type recipient).length =
      if recipient.isSome ∨ msg_type ∉ exclude_recipient_types then 8 else 0 := by
  cases recipient with
  | some recipient => simp [recipient_field, recipient.length_bytes]
  | none =>
    by_cases h : msg_type ∈ exclude_recipient_types
    · simp [recipient_field, h]
    · simp [recipient_field, h, BROADCAST_RECIPIENT]

/-- A packet to one recipient has 30 bytes beside its payload. -/
theorem bare_length_to (msg_type : MessageType) (recipient : PeerId) (payload : Bytes) :
    bare_length msg_type (some recipient) payload none = 30 + payload.length := by
  unfold bare_length recipient_field
  rw [recipient.length_bytes, Option.getD_none, List.length_nil, Nat.add_zero]

theorem id8_bytes (id : PeerId) : id8 id.bytes = id.bytes := by
  unfold id8
  rw [id.length_bytes, List.take_of_length_le (by rw [id.length_bytes])]
  simp

/-- Padding adds bytes at the end, and none to a packet over 2048 bytes. -/
theorem pad_packet_eq (packet : Bytes) (entropy : Entropy) : ∃ padding,
    pad_packet packet entropy = packet ++ padding ∧
      (padding = [] ∨ packet.length + padding.length ≤ 2048) := by
  unfold pad_packet
  simp only
  split
  · rename_i h
    refine ⟨entropy.urandom _ ++ [_], by rw [List.append_assoc], Or.inr ?_⟩
    have hle : (block_sizes.find? fun block_size => packet.length + 16 ≤ block_size).getD
        packet.length ≤ 2048 := by
      rcases hf : block_sizes.find? fun block_size => packet.length + 16 ≤ block_size with _ | b
      · simp [hf] at h
      · have hmem := List.mem_of_find?_eq_some hf
        simp only [block_sizes, List.mem_cons, List.not_mem_nil, or_false] at hmem
        simp only [Option.getD_some]
        omega
    rw [List.length_append, entropy.length_urandom, List.length_singleton]
    omega
  · exact ⟨[], by rw [List.append_nil], Or.inl rfl⟩

theorem rstripZero_broadcast : rstripZero BROADCAST_RECIPIENT = BROADCAST_RECIPIENT := by
  decide

/-- The flag byte that the encoder writes. -/
def packet_flags (msg_type : MessageType) (recipient : Option PeerId) (signature : Bytes) : UInt8 :=
  (if recipient.isSome ∨ msg_type ∉ exclude_recipient_types then FLAG_HAS_RECIPIENT else 0) |||
    (if signature ≠ [] then FLAG_HAS_SIGNATURE else 0)

theorem packet_flags_read (msg_type : MessageType) (recipient : Option PeerId) (signature : Bytes) :
    hasFlag (packet_flags msg_type recipient signature) FLAG_HAS_RECIPIENT =
        decide (recipient.isSome ∨ msg_type ∉ exclude_recipient_types) ∧
      hasFlag (packet_flags msg_type recipient signature) FLAG_IS_COMPRESSED = false := by
  unfold packet_flags
  by_cases hr : recipient.isSome ∨ msg_type ∉ exclude_recipient_types
  · rw [if_pos hr, decide_eq_true hr]
    split <;> decide
  · rw [if_neg hr, decide_eq_false hr]
    split <;> decide

/-- The reader sees the recipient field stripped of its zeros. -/
theorem recipient_read_eq (msg_type : MessageType) (recipient : Option PeerId) :
    recipient_read msg_type recipient =
      if recipient.isSome ∨ msg_type ∉ exclude_recipient_types then
        some (rstripZero (recipient_field msg_type recipient)) else none := by
  cases recipient with
  | some recipient => rfl
  | none =>
    by_cases h : msg_type ∈ exclude_recipient_types
    · simp [recipient_read, h]
    · simp [recipient_read, recipient_field, h, rstripZero_broadcast]

variable [Packages]

/-- What the parser makes of a layout. The id of the sender takes 8 bytes, and
that of the recipient as well where the flags announce it. -/
theorem parse_layout (msg_type : MessageType) (ttl : UInt8) (timestamp : Nat) (flags : UInt8)
    (sender recipient payload tail : Bytes) (hs : sender.length = 8)
    (hr : recipient.length = if hasFlag flags FLAG_HAS_RECIPIENT then 8 else 0)
    (hc : hasFlag flags FLAG_IS_COMPRESSED = false) (hp : payload.length < 65536) :
    parse_bitchat_packet (layout msg_type ttl timestamp flags sender recipient payload tail) =
      .ok {
        msg_type
        sender_id := rstripZero sender
        sender_id_str := hex (rstripZero sender)
        recipient_id :=
          if hasFlag flags FLAG_HAS_RECIPIENT then some (rstripZero recipient) else none
        recipient_id_str :=
          if hasFlag flags FLAG_HAS_RECIPIENT then some (hex (rstripZero recipient)) else none
        payload
        ttl } := by
  have hlong : ¬ (layout msg_type ttl timestamp flags sender recipient payload tail).length <
      HEADER_SIZE + SENDER_ID_SIZE := by
    rw [length_layout, hs]
    unfold HEADER_SIZE SENDER_ID_SIZE
    omega
  -- the fixed offsets
  have hflags : (layout msg_type ttl timestamp flags sender recipient payload tail).getD 11 0 =
      flags := by
    simp [layout, List.getD, be]
  have hlen : slice (layout msg_type ttl timestamp flags sender recipient payload tail) 12 14 =
      be 2 payload.length := by
    have hsplit : layout msg_type ttl timestamp flags sender recipient payload tail =
        ([1, msg_type.value, ttl] ++ be 8 timestamp ++ [flags]) ++
          (be 2 payload.length ++ (sender ++ recipient ++ payload ++ tail)) := by
      simp [layout]
    rw [hsplit]
    exact slice_append _ _ (by simp) (by simp)
  have hsender : slice (layout msg_type ttl timestamp flags sender recipient payload tail) 14 22 =
      sender := by
    have hsplit : layout msg_type ttl timestamp flags sender recipient payload tail =
        ([1, msg_type.value, ttl] ++ be 8 timestamp ++ [flags] ++ be 2 payload.length) ++
          (sender ++ (recipient ++ payload ++ tail)) := by
      simp [layout]
    rw [hsplit]
    exact slice_append _ _ (by simp) (by simp [hs])
  have hrecipient (n : Nat) (hn : recipient.length = n) :
      slice (layout msg_type ttl timestamp flags sender recipient payload tail) 22 (22 + n) =
        recipient := by
    have hsplit : layout msg_type ttl timestamp flags sender recipient payload tail =
        ([1, msg_type.value, ttl] ++ be 8 timestamp ++ [flags] ++ be 2 payload.length ++ sender) ++
          (recipient ++ (payload ++ tail)) := by
      simp [layout]
    rw [hsplit]
    exact slice_append _ _ (by simp [hs]) (by rw [hn])
  have hpayload (n : Nat) (hn : recipient.length = n) :
      slice (layout msg_type ttl timestamp flags sender recipient payload tail) (22 + n)
        (22 + n + payload.length) = payload := by
    have hsplit : layout msg_type ttl timestamp flags sender recipient payload tail =
        ([1, msg_type.value, ttl] ++ be 8 timestamp ++ [flags] ++ be 2 payload.length ++ sender ++
          recipient) ++ (payload ++ tail) := by
      simp [layout]
    rw [hsplit]
    exact slice_append _ _ (by simp [hs, hn]; omega) rfl
  have hbe : fromBE (be 2 payload.length) = payload.length := fromBE_be 2 _ (by omega)
  have h0 : (layout msg_type ttl timestamp flags sender recipient payload tail).getD 0 0 = 1 := rfl
  have h1 : (layout msg_type ttl timestamp flags sender recipient payload tail).getD 1 0 =
      msg_type.value := rfl
  have h2 : (layout msg_type ttl timestamp flags sender recipient payload tail).getD 2 0 = ttl :=
    rfl
  unfold parse_bitchat_packet
  rw [if_neg hlong, h0, if_neg (by simp), h1, MessageType.ofByte_value]
  simp only [hflags, hlen, hsender, hbe, h2, hc, Bool.false_eq_true, if_false]
  by_cases hf : hasFlag flags FLAG_HAS_RECIPIENT = true
  · rw [if_pos hf] at hr
    simp only [hf, if_true, RECIPIENT_ID_SIZE, hrecipient 8 hr, hpayload 8 hr, Option.map_some]
  · rw [if_neg hf] at hr
    have h22 := hpayload 0 hr
    rw [Nat.add_zero] at h22
    simp only [hf, if_false, h22, Option.map_none, Bool.false_eq_true]

/-! ## The packets that the encoder builds -/

/-- The bytes are those of a packet with these fields, whatever its TTL. -/
structure IsPacket (raw : Bytes) (sender : PeerId) (recipient : Option PeerId)
    (msg_type : MessageType) (payload : Bytes) (signature : Option Bytes) : Prop where
  parse : ∀ ttl, parse_bitchat_packet (raw.set 2 ttl) =
    .ok (received sender recipient msg_type payload ttl)
  ttl : raw.set 2 7 = raw
  /-- Only a packet of at most 2048 bytes is padded. -/
  size : raw.length = bare_length msg_type recipient payload signature ∨
    bare_length msg_type recipient payload signature ≤ raw.length ∧ raw.length ≤ 2048

theorem IsPacket.fits {raw : Bytes} {sender : PeerId} {recipient : Option PeerId}
    {msg_type : MessageType} {payload : Bytes} {signature : Option Bytes}
    (h : IsPacket raw sender recipient msg_type payload signature) :
    raw.length ≤ 65535 ↔ bare_length msg_type recipient payload signature ≤ 65535 := by
  have hsize := h.size
  omega

/-- The layout that the encoder fills in, with any padding behind it. -/
theorem isPacket_layout (sender : PeerId) (recipient : Option PeerId) (msg_type : MessageType)
    (timestamp : Nat) (payload padding : Bytes) (signature : Option Bytes)
    (hp : payload.length < 65536)
    (hpad : padding = [] ∨ bare_length msg_type recipient payload signature + padding.length ≤
      2048) :
    IsPacket (layout msg_type 7 timestamp (packet_flags msg_type recipient (signature.getD []))
      sender.bytes (recipient_field msg_type recipient) payload (signature.getD [] ++ padding))
      sender recipient msg_type payload signature := by
  obtain ⟨hflag, hcompressed⟩ := packet_flags_read msg_type recipient (signature.getD [])
  refine ⟨fun ttl => ?_, set_layout _ _ _ _ _ _ _ _ _, ?_⟩
  · rw [set_layout, parse_layout _ _ _ _ _ _ _ _ sender.length_bytes ?_ hcompressed hp]
    · simp only [received, recipient_read_eq, hflag, decide_eq_true_eq]
      split <;> rfl
    · rw [length_recipient_field, hflag]
      simp only [decide_eq_true_eq]
  · rw [length_layout, sender.length_bytes, List.length_append]
    unfold bare_length at hpad ⊢
    rcases hpad with rfl | hpad
    · simp only [List.length_nil]
      omega
    · omega

theorem create_eq (sender : PeerId) (recipient : Option PeerId) (msg_type : MessageType)
    (payload : Bytes) (signature : Option Bytes) (draw : Draw) (hp : payload.length < 65536) :
    create_bitchat_packet_with_recipient sender.str (recipient.map PeerId.str) msg_type payload
        signature draw =
      .ok (pad_packet (layout msg_type 7 draw.timestamp_ms
        (packet_flags msg_type recipient (signature.getD [])) sender.bytes
        (recipient_field msg_type recipient) payload (signature.getD [])) draw.entropy) := by
  have hsender : fromHex sender.str = .ok sender.bytes := by
    simp only [fromHex, PeerId.str, fromhex_hex]
  unfold create_bitchat_packet_with_recipient
  simp only [packH, hp, if_true, hsender, ok_bind, id8_bytes]
  cases recipient with
  | some recipient =>
    have hne := recipient.str_ne_nil
    have hrecipient : fromHex recipient.str = .ok recipient.bytes := by
      simp only [fromHex, PeerId.str, fromhex_hex]
    simp only [Option.map_some, hrecipient]
    simp [packet_flags, recipient_field, layout, id8_bytes]
  | none =>
    by_cases h : msg_type ∈ exclude_recipient_types
    · simp [packet_flags, recipient_field, layout, h]
      rfl
    · simp [packet_flags, recipient_field, layout, h]
      rfl

theorem create_ok (sender : PeerId) (recipient : Option PeerId) (msg_type : MessageType)
    (payload : Bytes) (signature : Option Bytes) (draw : Draw) (hp : payload.length < 65536) :
    ∃ raw, create_bitchat_packet_with_recipient sender.str (recipient.map PeerId.str) msg_type
        payload signature draw = .ok raw ∧
      IsPacket raw sender recipient msg_type payload signature := by
  obtain ⟨padding, hpad, hsize⟩ := pad_packet_eq (layout msg_type 7 draw.timestamp_ms
    (packet_flags msg_type recipient (signature.getD [])) sender.bytes
    (recipient_field msg_type recipient) payload (signature.getD [])) draw.entropy
  refine ⟨_, create_eq sender recipient msg_type payload signature draw hp, ?_⟩
  rw [length_layout, sender.length_bytes] at hsize
  have h := isPacket_layout sender recipient msg_type draw.timestamp_ms payload padding signature hp
    hsize
  rw [hpad]
  simpa only [layout, List.append_assoc] using h

theorem create_too_long (sender : Str) (recipient : Option Str) (msg_type : MessageType)
    (payload : Bytes) (signature : Option Bytes) (draw : Draw) (hp : ¬ payload.length < 65536) :
    create_bitchat_packet_with_recipient sender recipient msg_type payload signature draw =
      .error .StructError := by
  simp [create_bitchat_packet_with_recipient, packH, hp]

/-! ## Answers -/

omit [Packages] in
theorem length_id8 (id : Bytes) : (id8 id).length = 8 := by
  unfold id8
  rw [List.length_append, List.length_take, List.length_replicate]
  omega

/-- Who an answer to a read id goes to: the id filled up with zeros, or
everyone if nothing is left of it. -/
def PeerId.ofRead (id : Bytes) : Option PeerId :=
  if id = [] then none else some ⟨id8 id, length_id8 id⟩

/-- A packet for an id as the parser gives it. -/
theorem create_answer (sender : Str) (id : Bytes) (msg_type : MessageType) (payload : Bytes)
    (signature : Option Bytes) (draw : Draw) (h : msg_type ∉ exclude_recipient_types) :
    create_bitchat_packet_with_recipient sender (some (hex id)) msg_type payload signature draw =
      create_bitchat_packet_with_recipient sender ((PeerId.ofRead id).map PeerId.str) msg_type
        payload signature draw := by
  unfold create_bitchat_packet_with_recipient PeerId.ofRead
  by_cases hid : id = []
  · subst hid
    have hnil : hex [] = [] := rfl
    simp [h, hnil]
  · have hne : hex id ≠ [] := by
      intro hnil
      have hlength := length_hex id
      rw [hnil, List.length_nil] at hlength
      exact hid (List.length_eq_zero_iff.mp (by omega))
    have hne' := PeerId.str_ne_nil ⟨id8 id, length_id8 id⟩
    have hread : fromHex (hex id) = .ok id := by simp [fromHex]
    have hread' : fromHex (PeerId.str ⟨id8 id, length_id8 id⟩) = .ok (id8 id) := by
      simp [fromHex, PeerId.str]
    have hpad := id8_bytes ⟨id8 id, length_id8 id⟩
    simp only [hid, if_false, Option.map_some, Option.isSome_some, Bool.true_or, if_true, hread,
      hread']
    simp [hpad]

/-- The ids of a parsed packet as text and as bytes. -/
theorem parse_ids {raw : Bytes} {packet : BitchatPacket}
    (h : parse_bitchat_packet raw = .ok packet) :
    packet.sender_id_str = hex packet.sender_id ∧
      packet.recipient_id_str = packet.recipient_id.map hex := by
  unfold parse_bitchat_packet at h
  split at h
  · cases h
  · split at h
    · cases h
    · split at h
      · cases h
      · simp only at h
        split at h
        · obtain ⟨payload, -, rfl⟩ := map_eq_ok_iff.mp h
          exact ⟨rfl, rfl⟩
        · cases h
          exact ⟨rfl, rfl⟩

/-- A packet that parses begins with the version. -/
theorem head_of_parse {data : Bytes} {packet : BitchatPacket}
    (h : parse_bitchat_packet data = .ok packet) : data.head? = some 1 := by
  unfold parse_bitchat_packet at h
  split at h
  · cases h
  · split at h
    · cases h
    · rename_i hversion
      cases data with
      | nil => cases hversion (by decide)
      | cons b rest => exact congrArg some (not_not.mp hversion)

/-- The same packet with another TTL byte. -/
theorem parse_set_ttl (raw : Bytes) (ttl : UInt8) :
    parse_bitchat_packet (raw.set 2 ttl) =
      (fun packet => { packet with ttl }) <$> parse_bitchat_packet raw := by
  have hslice (a b : Nat) (ha : 2 < a) : slice (raw.set 2 ttl) a b = slice raw a b := by
    unfold slice
    rw [List.drop_set_of_lt ha]
  have hget (i : Nat) (hi : 2 ≠ i) : (raw.set 2 ttl).getD i 0 = raw.getD i 0 := by
    rw [List.getD_eq_getElem?_getD, List.getElem?_set_ne hi, ← List.getD_eq_getElem?_getD]
  unfold parse_bitchat_packet
  rw [List.length_set]
  by_cases hlength : raw.length < HEADER_SIZE + SENDER_ID_SIZE
  · rw [if_pos hlength, if_pos hlength]
    rfl
  · have hlong : 2 < raw.length := by
      unfold HEADER_SIZE SENDER_ID_SIZE at hlength
      omega
    have httl : (raw.set 2 ttl).getD 2 0 = ttl := by
      rw [List.getD_eq_getElem?_getD, List.getElem?_set_self hlong, Option.getD_some]
    have hoffset (c : Prop) [Decidable c] : 2 < if c then 22 + RECIPIENT_ID_SIZE else 22 := by
      split <;> simp [RECIPIENT_ID_SIZE]
    rw [if_neg hlength, if_neg hlength]
    simp only [hget 0 (by decide), hget 1 (by decide), hget 11 (by decide), httl,
      hslice 12 14 (by decide), hslice 14 22 (by decide), hslice 22 _ (by decide),
      hslice _ _ (hoffset _)]
    split
    · rfl
    · split
      · rfl
      · split
        · rename_i payload _
          cases decompress _ <;> rfl
        · rfl

/-- The TTL is the third byte. -/
theorem parse_ttl {raw : Bytes} {packet : BitchatPacket}
    (h : parse_bitchat_packet raw = .ok packet) : 2 < raw.length ∧ packet.ttl = raw.getD 2 0 := by
  unfold parse_bitchat_packet at h
  split at h
  · cases h
  · rename_i hlength
    have hlong : 2 < raw.length := by
      unfold HEADER_SIZE SENDER_ID_SIZE at hlength
      omega
    split at h
    · cases h
    · split at h
      · cases h
      · simp only at h
        split at h
        · obtain ⟨payload, -, rfl⟩ := map_eq_ok_iff.mp h
          exact ⟨hlong, rfl⟩
        · cases h
          exact ⟨hlong, rfl⟩

/-! ## The round trip -/

/-- Who a packet is for, as `recipient_id_str` should tell. -/
def expected_recipient (msg_type : MessageType) : Option PeerId → Option Str
  | some recipient => some recipient.str
  | none => if msg_type ∈ exclude_recipient_types then none else some (hex BROADCAST_RECIPIENT)

/-- The packet that the encoder builds from these fields is accepted, and the
parser gives them back. -/
def ComesBack (sender : PeerId) (recipient : Option PeerId) (msg_type : MessageType)
    (payload : Bytes) (signature : Option Bytes) (draw : Draw) : Prop :=
  ∃ raw packet,
    create_bitchat_packet_with_recipient sender.str (recipient.map PeerId.str) msg_type payload
      signature draw = .ok raw ∧
    parse_bitchat_packet raw = .ok packet ∧
    packet.msg_type = msg_type ∧ packet.ttl = 7 ∧ packet.sender_id_str = sender.str ∧
    packet.recipient_id_str = expected_recipient msg_type recipient ∧ packet.payload = payload

theorem IsPacket.parse_raw {raw : Bytes} {sender : PeerId} {recipient : Option PeerId}
    {msg_type : MessageType} {payload : Bytes} {signature : Option Bytes}
    (h : IsPacket raw sender recipient msg_type payload signature) :
    parse_bitchat_packet raw = .ok (received sender recipient msg_type payload 7) := by
  have hparse := h.parse 7
  rw [h.ttl] at hparse
  exact hparse

section

variable {sender : PeerId} {recipient : Option PeerId} {msg_type : MessageType} {payload : Bytes}
  {signature : Option Bytes} {draw : Draw}

/-- What the fields come back as decides whether they come back. -/
theorem comesBack_of_received (hp : payload.length < 65536) :
    ComesBack sender recipient msg_type payload signature draw ↔
      hex (rstripZero sender.bytes) = sender.str ∧
      (recipient_read msg_type recipient).map hex = expected_recipient msg_type recipient := by
  obtain ⟨raw, hraw, his⟩ := create_ok sender recipient msg_type payload signature draw hp
  have hparse := his.parse_raw
  constructor
  · rintro ⟨raw', packet, hcreate, hread, -, -, hsender, hrecipient, -⟩
    rw [hraw, Except.ok.injEq] at hcreate
    subst hcreate
    rw [hparse, Except.ok.injEq] at hread
    subst hread
    exact ⟨hsender, hrecipient⟩
  · rintro ⟨hsender, hrecipient⟩
    exact ⟨raw, _, hraw, hparse, rfl, rfl, hsender, hrecipient, rfl⟩

theorem ComesBack.sender_ends_nonzero (hp : payload.length < 65536)
    (h : ComesBack sender recipient msg_type payload signature draw) : ¬ sender.EndsInZero := by
  have hsender := ((comesBack_of_received hp).mp h).1
  exact sender.hex_rstripZero_eq.mp hsender

omit [Packages] in
theorem recipient_read_eq_expected :
    (recipient_read msg_type recipient).map hex = expected_recipient msg_type recipient ↔
      ∀ r ∈ recipient, ¬ r.EndsInZero := by
  cases recipient with
  | none =>
    simp only [recipient_read, expected_recipient, Option.not_mem_none, false_implies, implies_true,
      iff_true]
    split <;> rfl
  | some r =>
    simp only [recipient_read, expected_recipient, Option.map_some, Option.some.injEq,
      Option.mem_def, forall_eq', r.hex_rstripZero_eq]

end

/-- A packet comes back exactly when neither its sender id nor its recipient
id ends in a zero byte. No payload, signature, clock value or padding makes a
difference. -/
theorem a_packet_comes_back_unless_an_id_ends_in_zero (sender : PeerId) (recipient : Option PeerId)
    (msg_type : MessageType) (payload : Bytes) (signature : Option Bytes) (draw : Draw)
    (hp : payload.length ≤ 65535) :
    ComesBack sender recipient msg_type payload signature draw ↔
      ¬ sender.EndsInZero ∧ ∀ r ∈ recipient, ¬ r.EndsInZero := by
  have hlt : payload.length < 65536 := by omega
  rw [comesBack_of_received hlt, sender.hex_rstripZero_eq, recipient_read_eq_expected]

omit [Packages] in
/-- The packet of an identity announcement of node 0102030405060708. -/
theorem a_packet_comes_back_on_the_stand_in :
    @ComesBack standIn.packages ⟨[1, 2, 3, 4, 5, 6, 7, 8], rfl⟩ none .NOISE_IDENTITY_ANNOUNCE
        [7, 7] (some [9]) (standIn.draw 1) ↔
      ¬ PeerId.EndsInZero ⟨[1, 2, 3, 4, 5, 6, 7, 8], rfl⟩ ∧
        ∀ r ∈ (none : Option PeerId), ¬ r.EndsInZero :=
  @a_packet_comes_back_unless_an_id_ends_in_zero standIn.packages
    ⟨[1, 2, 3, 4, 5, 6, 7, 8], rfl⟩ none .NOISE_IDENTITY_ANNOUNCE [7, 7] (some [9])
    (standIn.draw 1) (by decide)

omit [Packages] in
/-- A node that drew the id 0102030405060700 is not recognised, by itself
either. -/
theorem an_id_that_ends_in_zero_does_not_come_back :
    ¬ @ComesBack standIn.packages ⟨[1, 2, 3, 4, 5, 6, 7, 0], rfl⟩ none .MESSAGE [7, 7] none
      (standIn.draw 1) := by
  intro h
  exact @ComesBack.sender_ends_nonzero standIn.packages _ _ _ _ _ _ (by decide) h (by decide)

end bitchat.protocol
