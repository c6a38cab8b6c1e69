-- What `parse_bitchat_message_payload` makes of the payloads that
-- `create_bitchat_message_payload_full` builds. Four of the fields carry their
-- length before them; a field that is longer than its length byte can say
-- raises in the encoder.
import BitchatNode.Protocol
import BitchatNode.PacketCodec

namespace bitchat.protocol

open python

/-! ## The layout of a payload -/

/-- A length byte and the bytes themselves. -/
def short_field (data : Bytes) : Bytes := UInt8.ofNat data.length :: data

/-- A text field that is left out if it is empty. -/
def optional_field (s : Str) : Bytes := if s = [] then [] else short_field (encode s)

/-- The fields of a payload in their order. -/
def message_layout (flags : UInt8) (timestamp : Nat) (id sender : Str) (content : Bytes)
    (peer_id channel : Str) : Bytes :=
  [flags] ++ be 8 timestamp ++ short_field (encode id) ++ short_field (encode sender) ++
    be 2 content.length ++
    content ++ optional_field peer_id ++ optional_field channel

theorem length_message_layout (flags : UInt8) (timestamp : Nat) (id sender : Str) (content : Bytes)
    (peer_id channel : Str) :
    (message_layout flags timestamp id sender content peer_id channel).length =
      13 + (encode id).length + (encode sender).length + content.length +
        (optional_field peer_id).length + (optional_field channel).length := by
  simp only [message_layout, short_field, List.length_append, List.length_cons, List.length_nil,
    length_be]
  omega

theorem packShort_ok {data : Bytes} (h : data.length ≤ 255) :
    packShort data = .ok (short_field data) := by
  have hlt : data.length < 256 := by omega
  unfold packShort packB short_field
  rw [if_pos hlt]
  rfl

theorem packShort_fits {data field : Bytes} (h : packShort data = .ok field) :
    data.length ≤ 255 := by
  by_contra hlen
  have hlt : ¬ data.length < 256 := by omega
  unfold packShort packB at h
  rw [if_neg hlt] at h
  cases h

theorem packH_fits {n : Nat} {field : Bytes} (h : packH n = .ok field) : n ≤ 65535 := by
  by_contra hn
  have hlt : ¬ n < 65536 := by omega
  unfold packH at h
  rw [if_neg hlt] at h
  cases h

theorem packOptional_ok {s : Str} (h : (encode s).length ≤ 255) :
    packOptional s = .ok (optional_field s) := by
  unfold packOptional optional_field
  by_cases hs : s = []
  · simp [hs]
  · rw [if_pos hs, if_neg hs, packShort_ok h]

theorem packOptional_fits {s : Str} {field : Bytes} (h : packOptional s = .ok field) :
    (encode s).length ≤ 255 := by
  unfold packOptional at h
  by_cases hs : s = []
  · subst hs
    exact Nat.zero_le _
  · rw [if_pos hs] at h
    exact packShort_fits h

/-! ## Reading at an offset

`data.drop n` is what is left to read at the offset `n`. -/

theorem read_byte {data rest : Bytes} {n : Nat} {b : UInt8} (h : data.drop n = b :: rest) :
    byteAt data n = .ok b ∧ data.drop (n + 1) = rest := by
  have hget : data[n]? = some b := by
    have hzero := congrArg (fun l => l[0]?) h
    simpa using hzero
  refine ⟨by simp only [byteAt, hget], ?_⟩
  rw [← List.drop_drop, h]
  rfl

theorem read_bytes {data field rest : Bytes} {n : Nat} (h : data.drop n = field ++ rest) :
    slice data n (n + field.length) = field ∧ data.drop (n + field.length) = rest := by
  constructor
  · unfold slice
    rw [h, Nat.add_sub_cancel_left, List.take_left]
  · rw [← List.drop_drop, h, List.drop_left]

/-- A field behind its length byte. -/
theorem read_short {data field rest : Bytes} {n : Nat} (hlen : field.length ≤ 255)
    (h : data.drop n = short_field field ++ rest) : ∃ len : UInt8, len.toNat = field.length ∧
      byteAt data n = .ok len ∧ slice data (n + 1) (n + 1 + field.length) = field ∧
      data.drop (n + 1 + field.length) = rest := by
  obtain ⟨hbyte, hrest⟩ := read_byte h
  obtain ⟨hslice, hrest⟩ := read_bytes hrest
  refine ⟨_, ?_, hbyte, hslice, hrest⟩
  rw [UInt8.toNat_ofNat']
  omega

/-- Whether or not the field is there, the reader ends up behind it. -/
theorem skip_peer_id_ok {data rest : Bytes} {n : Nat} {peer_id : Str}
    (hlen : (encode peer_id).length ≤ 255) (h : data.drop n = optional_field peer_id ++ rest) :
    ∃ m, skip_peer_id data n (decide (peer_id ≠ [])) = .ok m ∧ data.drop m = rest := by
  unfold skip_peer_id
  unfold optional_field at h
  by_cases hnil : peer_id = []
  · refine ⟨n, by simp [hnil], ?_⟩
    rwa [if_pos hnil] at h
  · rw [if_neg hnil] at h
    obtain ⟨len, hlen, hbyte, -, hrest⟩ := read_short hlen h
    rw [← hlen] at hrest
    exact ⟨_, by simp [hnil, hbyte], hrest⟩

theorem read_channel_ok {data rest : Bytes} {n : Nat} {channel : Str}
    (hlen : (encode channel).length ≤ 255) (h : data.drop n = optional_field channel ++ rest) :
    read_channel data n (decide (channel ≠ [])) =
      .ok (if channel = [] then none else some channel) := by
  unfold read_channel
  unfold optional_field at h
  by_cases hnil : channel = []
  · simp [hnil]
  · rw [if_neg hnil] at h
    obtain ⟨len, hlen, hbyte, hread, -⟩ := read_short hlen h
    simp [hnil, hbyte, hlen, hread, decodeUtf8]

/-! ## The parser on a layout -/

/-- The fields fit in the payload. -/
structure PayloadFits (sender : Str) (content : Bytes) (peer_id channel : Str) : Prop where
  sender : (encode sender).length ≤ 255
  content : content.length ≤ 65535
  peer_id : (encode peer_id).length ≤ 255
  channel : (encode channel).length ≤ 255

/-- What the parser makes of a layout whose flags tell which fields are there,
and of any bytes behind it. -/
theorem parse_message_layout_append (flags : UInt8) (timestamp : Nat) (id sender : Str)
    (content : Bytes) (peer_id channel : Str) (suffix : Bytes) (hid : (encode id).length ≤ 255)
    (h : PayloadFits sender content peer_id channel)
    (hp : hasFlag flags MSG_FLAG_HAS_SENDER_PEER_ID = decide (peer_id ≠ []))
    (hc : hasFlag flags MSG_FLAG_HAS_CHANNEL = decide (channel ≠ [])) :
    parse_bitchat_message_payload
        (message_layout flags timestamp id sender content peer_id channel ++ suffix) =
      .ok {
        id
        content := if hasFlag flags MSG_FLAG_IS_ENCRYPTED then [] else decodeIgnore content
        channel := if channel = [] then none else some channel
        is_encrypted := hasFlag flags MSG_FLAG_IS_ENCRYPTED
        encrypted_content :=
          if hasFlag flags MSG_FLAG_IS_ENCRYPTED then some content else none } := by
  generalize hdata : message_layout flags timestamp id sender content peer_id channel ++ suffix =
    data
  have h0 : data.drop 0 = flags :: (be 8 timestamp ++ (short_field (encode id) ++
      (short_field (encode sender) ++ (be 2 content.length ++ (content ++
        (optional_field peer_id ++ (optional_field channel ++ suffix))))))) := by
    rw [← hdata]
    simp [message_layout]
  obtain ⟨hflags, h1⟩ := read_byte h0
  obtain ⟨-, h9⟩ := read_bytes h1
  rw [length_be] at h9
  obtain ⟨id_len, hid_len, hid_byte, hid_read, hsender⟩ := read_short hid h9
  obtain ⟨sender_len, hsender_len, hsender_byte, hsender_read, hcontent⟩ :=
    read_short h.sender hsender
  obtain ⟨hcontent_len, hcontent⟩ := read_bytes hcontent
  rw [length_be] at hcontent_len hcontent
  obtain ⟨hcontent_read, hpeer⟩ := read_bytes hcontent
  have hunpack : unpackH (be 2 content.length) = .ok content.length := by
    have hfits := h.content
    unfold unpackH
    rw [if_pos (length_be 2 _), fromBE_be 2 _ (by omega)]
  obtain ⟨channel_at, hpeer_skip, hchannel⟩ := skip_peer_id_ok h.peer_id hpeer
  have hchannel_read := read_channel_ok h.channel hchannel
  unfold parse_bitchat_message_payload
  simp only [Nat.zero_add, Nat.reduceAdd] at hid_byte hid_read hsender_byte hsender_read
  simp only [Nat.zero_add, Nat.reduceAdd] at hcontent_len hcontent_read hpeer_skip
  simp only [hflags, ok_bind, hid_byte, hid_len, hid_read, decodeUtf8, decode_encode, hsender_byte,
    hsender_len, hsender_read, hcontent_len, hunpack, hcontent_read, hp, hc, hpeer_skip,
    hchannel_read]
  rfl

/-- The same with nothing behind it. -/
theorem parse_message_layout (flags : UInt8) (timestamp : Nat) (id sender : Str) (content : Bytes)
    (peer_id channel : Str) (hid : (encode id).length ≤ 255)
    (h : PayloadFits sender content peer_id channel)
    (hp : hasFlag flags MSG_FLAG_HAS_SENDER_PEER_ID = decide (peer_id ≠ []))
    (hc : hasFlag flags MSG_FLAG_HAS_CHANNEL = decide (channel ≠ [])) :
    parse_bitchat_message_payload
        (message_layout flags timestamp id sender content peer_id channel) =
      .ok {
        id
        content := if hasFlag flags MSG_FLAG_IS_ENCRYPTED then [] else decodeIgnore content
        channel := if channel = [] then none else some channel
        is_encrypted := hasFlag flags MSG_FLAG_IS_ENCRYPTED
        encrypted_content :=
          if hasFlag flags MSG_FLAG_IS_ENCRYPTED then some content else none } := by
  have happend := parse_message_layout_append flags timestamp id sender content peer_id channel []
    hid h hp hc
  rwa [List.append_nil] at happend

/-! ## The encoder -/

/-- The content field of the payload. -/
def payload_bytes (content : Str) (is_encrypted : Bool) (encrypted_content : Option Bytes) :
    Bytes :=
  if is_encrypted ∧ encrypted_content.getD [] ≠ [] then encrypted_content.getD []
  else encode content

/-- The flags of the payload. -/
def message_flags (is_private : Bool) (sender_peer_id channel : Str) (is_encrypted : Bool) :
    UInt8 :=
  (if is_private then MSG_FLAG_IS_PRIVATE else 0) |||
    (if sender_peer_id ≠ [] then MSG_FLAG_HAS_SENDER_PEER_ID else 0) |||
    (if channel ≠ [] then MSG_FLAG_HAS_CHANNEL else 0) |||
    (if is_encrypted then MSG_FLAG_IS_ENCRYPTED else 0)

theorem message_flags_read (is_private : Bool) (sender_peer_id channel : Str)
    (is_encrypted : Bool) :
    let flags := message_flags is_private sender_peer_id channel is_encrypted
    hasFlag flags MSG_FLAG_HAS_SENDER_PEER_ID = decide (sender_peer_id ≠ []) ∧
      hasFlag flags MSG_FLAG_HAS_CHANNEL = decide (channel ≠ []) ∧
      hasFlag flags MSG_FLAG_IS_ENCRYPTED = is_encrypted := by
  have hbits : ∀ private_ peer_id channel encrypted : Bool,
      let flags := (if private_ then MSG_FLAG_IS_PRIVATE else 0) |||
        (if peer_id then MSG_FLAG_HAS_SENDER_PEER_ID else 0) |||
        (if channel then MSG_FLAG_HAS_CHANNEL else 0) |||
        (if encrypted then MSG_FLAG_IS_ENCRYPTED else 0)
      hasFlag flags MSG_FLAG_HAS_SENDER_PEER_ID = peer_id ∧
        hasFlag flags MSG_FLAG_HAS_CHANNEL = channel ∧
        hasFlag flags MSG_FLAG_IS_ENCRYPTED = encrypted := by decide
  simpa only [message_flags, decide_eq_true_eq] using
    hbits is_private (decide (sender_peer_id ≠ [])) (decide (channel ≠ [])) is_encrypted

/-- A message id is 36 ASCII characters, and as many bytes. -/
theorem length_encode_uuid (uuid : Uuid) : (encode uuid.str).length = 36 := by
  rw [length_encode_ascii ?_, uuid.length_str]
  intro c hc
  have hascii : ("0123456789abcdef-".toList).all (fun c => c.toNat < 128) = true := by decide
  exact of_decide_eq_true (List.all_eq_true.mp hascii c (uuid.chars c hc))

theorem length_encode_id (id : PeerId) : (encode id.str).length = 16 := by
  rw [PeerId.str, length_encode_hex, id.length_bytes]

/-- A peer id fits in its field. -/
theorem peer_id_fits (id : PeerId) : (encode id.str).length ≤ 255 := by
  rw [length_encode_id]
  decide

variable [Packages]

/-- The length of the payload of a plain message. -/
theorem length_plain_payload (sender content channel : Str) (id : PeerId) (draw : Draw)
    (flags : UInt8) :
    (message_layout flags draw.timestamp_ms draw.uuid.str sender (encode content) id.str
        channel).length =
      66 + (encode sender).length + (encode content).length + (optional_field channel).length := by
  have huuid := length_encode_uuid draw.uuid
  have hid : (optional_field id.str).length = 17 := by
    unfold optional_field short_field
    rw [if_neg id.str_ne_nil, List.length_cons, length_encode_id]
  rw [length_message_layout, huuid, hid]
  omega

section

variable {sender content : Str} (channel : Option Str) (is_private : Bool) {sender_peer_id : Str}
  {is_encrypted : Bool} {encrypted_content : Option Bytes} (draw : Draw)

theorem create_payload_ok
    (h : PayloadFits sender (payload_bytes content is_encrypted encrypted_content) sender_peer_id
      (channel.getD [])) :
    create_bitchat_message_payload_full sender content channel is_private sender_peer_id
      is_encrypted
        encrypted_content draw =
      .ok (message_layout (message_flags is_private sender_peer_id (channel.getD []) is_encrypted)
        draw.timestamp_ms draw.uuid.str sender
        (payload_bytes content is_encrypted encrypted_content) sender_peer_id (channel.getD []),
        draw.uuid.str) := by
  have hid := length_encode_uuid draw.uuid
  have hlt : (payload_bytes content is_encrypted encrypted_content).length < 65536 := by
    have hcontent := h.content
    omega
  unfold create_bitchat_message_payload_full
  simp only [packShort_ok (by omega : (encode draw.uuid.str).length ≤ 255), packShort_ok h.sender,
    packOptional_ok h.peer_id, packOptional_ok h.channel, ok_bind]
  rw [← payload_bytes, packH, if_pos hlt]
  simp only [ok_bind, message_layout, message_flags, List.append_assoc]
  rfl

/-- A field that does not fit raises. -/
theorem create_payload_error
    (h : ¬ PayloadFits sender (payload_bytes content is_encrypted encrypted_content) sender_peer_id
      (channel.getD [])) :
    ∃ e, create_bitchat_message_payload_full sender content channel is_private sender_peer_id
      is_encrypted encrypted_content draw = .error e := by
  rcases hcreate : create_bitchat_message_payload_full sender content channel is_private
    sender_peer_id is_encrypted encrypted_content draw with e | result
  · exact ⟨e, rfl⟩
  exfalso
  apply h
  unfold create_bitchat_message_payload_full at hcreate
  obtain ⟨_, -, hcreate⟩ := bind_eq_ok_iff.mp hcreate
  obtain ⟨_, hsender, hcreate⟩ := bind_eq_ok_iff.mp hcreate
  obtain ⟨_, hcontent, hcreate⟩ := bind_eq_ok_iff.mp hcreate
  obtain ⟨_, hpeer_id, hcreate⟩ := bind_eq_ok_iff.mp hcreate
  obtain ⟨_, hchannel, -⟩ := bind_eq_ok_iff.mp hcreate
  exact ⟨packShort_fits hsender, packH_fits hcontent, packOptional_fits hpeer_id,
    packOptional_fits hchannel⟩

/-- A payload whose fields fit is built, and the parser gives back its id, its
content and its channel. -/
theorem payload_comes_back
    (h : PayloadFits sender (payload_bytes content is_encrypted encrypted_content) sender_peer_id
      (channel.getD [])) :
    ∃ payload, create_bitchat_message_payload_full sender content channel is_private sender_peer_id
        is_encrypted encrypted_content draw = .ok (payload, draw.uuid.str) ∧
      parse_bitchat_message_payload payload = .ok {
        id := draw.uuid.str
        content := if is_encrypted then []
          else decodeIgnore (payload_bytes content is_encrypted encrypted_content)
        channel := if channel.getD [] = [] then none else some (channel.getD [])
        is_encrypted
        encrypted_content := if is_encrypted
          then some (payload_bytes content is_encrypted encrypted_content) else none } := by
  have hid := length_encode_uuid draw.uuid
  obtain ⟨hpeer, hchannel, hencrypted⟩ :=
    message_flags_read is_private sender_peer_id (channel.getD []) is_encrypted
  refine ⟨_, create_payload_ok channel is_private draw h, ?_⟩
  rw [parse_message_layout _ _ _ _ _ _ _ (by omega) h hpeer hchannel, hencrypted]

end

/-! ## The round trip -/

section

variable (sender content : Str) (channel : Option Str) (is_private : Bool) (sender_peer_id : Str)
  (encrypted_content : Option Bytes) (draw : Draw)

omit [Packages] in
theorem payload_bytes_eq (h : encrypted_content ≠ some []) :
    payload_bytes content encrypted_content.isSome encrypted_content =
      encrypted_content.getD (encode content) := by
  cases encrypted_content with
  | none => simp [payload_bytes]
  | some data =>
    have hne : data ≠ [] := fun hnil => h (by rw [hnil])
    simp [payload_bytes, hne]

/-- The encoder returns exactly the payloads whose fields fit. -/
theorem create_payload_fits {is_encrypted : Bool} {payload : Bytes} {id : Str}
    (h : create_bitchat_message_payload_full sender content channel is_private sender_peer_id
      is_encrypted encrypted_content draw = .ok (payload, id)) :
    PayloadFits sender (payload_bytes content is_encrypted encrypted_content) sender_peer_id
      (channel.getD []) := by
  by_contra hfits
  obtain ⟨e, he⟩ := create_payload_error channel is_private draw hfits
  rw [h] at he
  cases he

/-- The encoder returns the id that was drawn. -/
theorem create_payload_id {is_encrypted : Bool} {payload : Bytes} {id : Str}
    (h : create_bitchat_message_payload_full sender content channel is_private sender_peer_id
      is_encrypted encrypted_content draw = .ok (payload, id)) : id = draw.uuid.str := by
  have hok := create_payload_ok channel is_private draw
    (create_payload_fits sender content channel is_private sender_peer_id encrypted_content draw h)
  rw [h, Except.ok.injEq, Prod.mk.injEq] at hok
  exact hok.2

/-- A payload comes back with its id, channel and content, whatever follows it,
and the encoder raises exactly where a field is longer than its length prefix
can say. -/
theorem a_message_payload_comes_back (hchannel : channel ≠ some [])
    (hencrypted : encrypted_content ≠ some []) :
    (∀ payload id, create_bitchat_message_payload_full sender content channel is_private
        sender_peer_id encrypted_content.isSome encrypted_content draw = .ok (payload, id) →
      ∀ suffix, parse_bitchat_message_payload (payload ++ suffix) = .ok {
        id
        content := if encrypted_content.isSome then [] else content
        channel
        is_encrypted := encrypted_content.isSome
        encrypted_content }) ∧
    ((∃ e, create_bitchat_message_payload_full sender content channel is_private sender_peer_id
        encrypted_content.isSome encrypted_content draw = .error e) ↔
      255 < (encode sender).length ∨ (∃ name ∈ channel, 255 < (encode name).length) ∨
        255 < (encode sender_peer_id).length ∨
        65535 < (encrypted_content.getD (encode content)).length) := by
  have hcontent := payload_bytes_eq content encrypted_content hencrypted
  constructor
  · intro payload id hcreate suffix
    have hfits := create_payload_fits sender content channel is_private sender_peer_id
      encrypted_content draw hcreate
    rw [create_payload_ok channel is_private draw hfits, Except.ok.injEq, Prod.mk.injEq] at hcreate
    obtain ⟨rfl, rfl⟩ := hcreate
    have hid := length_encode_uuid draw.uuid
    obtain ⟨hpeer, hnamed, hflag⟩ := message_flags_read is_private sender_peer_id
      (channel.getD []) encrypted_content.isSome
    rw [parse_message_layout_append _ _ _ _ _ _ _ suffix (by omega) hfits hpeer hnamed, hflag,
      hcontent]
    cases encrypted_content with
    | none =>
      cases channel with
      | none => simp
      | some name => simp_all
    | some data =>
      cases channel with
      | none => simp
      | some name => simp_all
  · constructor
    · rintro ⟨e, he⟩
      by_contra hshort
      simp only [not_or, not_exists, not_and, Nat.not_lt] at hshort
      obtain ⟨hsender, hname, hpeer, hlength⟩ := hshort
      have hfits : PayloadFits sender
          (payload_bytes content encrypted_content.isSome encrypted_content) sender_peer_id
          (channel.getD []) := by
        refine ⟨hsender, by rw [hcontent]; exact hlength, hpeer, ?_⟩
        cases channel with
        | none => exact Nat.zero_le _
        | some name => exact hname name rfl
      rw [create_payload_ok channel is_private draw hfits] at he
      cases he
    · intro hlong
      apply create_payload_error
      rintro ⟨hsender, hlength, hpeer, hname⟩
      rw [hcontent] at hlength
      rcases hlong with h | ⟨name, rfl, h⟩ | h | h
      · omega
      · rw [Option.getD_some] at hname
        omega
      · omega
      · omega

end

omit [Packages] in
/-- An encrypted message for the channel `#c` with three bytes of padding. -/
theorem a_sealed_payload_comes_back :
    letI := standIn.packages
    (∀ payload id, create_bitchat_message_payload_full ['a'] ['h', 'i'] (some ['#', 'c']) false
        ['b'] (some [1, 2]).isSome (some [1, 2]) (standIn.draw 1) = .ok (payload, id) →
      ∀ suffix, parse_bitchat_message_payload (payload ++ suffix) = .ok {
        id
        content := if (some [(1 : UInt8), 2]).isSome then [] else ['h', 'i']
        channel := some ['#', 'c']
        is_encrypted := (some [(1 : UInt8), 2]).isSome
        encrypted_content := some [1, 2] }) ∧
    ((∃ e, create_bitchat_message_payload_full ['a'] ['h', 'i'] (some ['#', 'c']) false ['b']
        (some [1, 2]).isSome (some [1, 2]) (standIn.draw 1) = .error e) ↔
      255 < (encode ['a']).length ∨ (∃ name ∈ some ['#', 'c'], 255 < (encode name).length) ∨
        255 < (encode ['b']).length ∨ 65535 < ((some [1, 2]).getD (encode ['h', 'i'])).length) :=
  letI := standIn.packages
  a_message_payload_comes_back ['a'] ['h', 'i'] (some ['#', 'c']) false ['b'] (some [1, 2])
    (standIn.draw 1) (by decide) (by decide)

end bitchat.protocol
