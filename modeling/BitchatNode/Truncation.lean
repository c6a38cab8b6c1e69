-- What the parsers make of data that was cut off. A Python slice comes out
-- short where the data ends, so a cut is noticed only by a byte that is read,
-- or a length that is checked, behind it.
import BitchatNode.MessageCodec
import BitchatNode.Python.Utf8

namespace bitchat.protocol

open python

/-! ## Packets -/

section Packets

/-- Where the payload of a packet begins. -/
def payload_offset (data : Bytes) : Nat :=
  if hasFlag (data.getD 11 0) FLAG_HAS_RECIPIENT then 22 + RECIPIENT_ID_SIZE else 22

/-- The length of the payload, as the header announces it. -/
def payload_len (data : Bytes) : Nat := fromBE (slice data 12 14)

variable [Packages]

/-- The bytes hold everything that the header announces. -/
structure HoldsWhole (data : Bytes) (packet : BitchatPacket) : Prop where
  header : 14 ≤ data.length
  sender_id : 14 + SENDER_ID_SIZE ≤ data.length
  recipient_id : hasFlag (data.getD 11 0) FLAG_HAS_RECIPIENT → 22 + RECIPIENT_ID_SIZE ≤ data.length
  payload : payload_offset data + payload_len data ≤ data.length
  exact_ : ¬ hasFlag (data.getD 11 0) FLAG_IS_COMPRESSED →
    packet.payload.length = payload_len data

/-- The parser raises: the bytes are fewer than its size check asks for, the
version or the type is unknown, or the payload does not decompress. -/
def Refused (data : Bytes) : Prop :=
  data.length < HEADER_SIZE + SENDER_ID_SIZE ∨ data.getD 0 0 ≠ 1 ∨
    MessageType.ofByte (data.getD 1 0) = none ∨
    (hasFlag (data.getD 11 0) FLAG_IS_COMPRESSED ∧ Packages.lz4_decompress
      (slice data (payload_offset data) (payload_offset data + payload_len data)) = none)

/-- The payload that the parser gives, where it gives one. -/
theorem parse_cases (data : Bytes) :
    Refused data ∧ (∃ e, parse_bitchat_packet data = .error e) ∨
    ¬ Refused data ∧ ∃ packet, parse_bitchat_packet data = .ok packet ∧
      (¬ hasFlag (data.getD 11 0) FLAG_IS_COMPRESSED → packet.payload =
        slice data (payload_offset data) (payload_offset data + payload_len data)) := by
  unfold parse_bitchat_packet Refused
  by_cases hlength : data.length < HEADER_SIZE + SENDER_ID_SIZE
  · left
    simp [hlength]
  by_cases hversion : data.getD 0 0 = 1
  swap
  · left
    rw [if_neg hlength, if_pos hversion]
    exact ⟨Or.inr (Or.inl hversion), _, rfl⟩
  rw [if_neg hlength, if_neg (not_not.mpr hversion)]
  rcases htype : MessageType.ofByte (data.getD 1 0) with _ | msg_type
  · left
    exact ⟨Or.inr (Or.inr (Or.inl rfl)), _, rfl⟩
  have hoffset : (if hasFlag (data.getD 11 0) FLAG_HAS_RECIPIENT then 22 + RECIPIENT_ID_SIZE
      else 22) = payload_offset data := rfl
  have hlen : fromBE (slice data 12 14) = payload_len data := rfl
  simp only [hlength, hversion, false_or, ne_eq, not_true_eq_false, reduceCtorEq, hoffset, hlen]
  by_cases hcompressed : hasFlag (data.getD 11 0) FLAG_IS_COMPRESSED = true
  · simp only [hcompressed, if_true, true_and, not_true_eq_false, false_implies, and_true]
    unfold decompress
    rcases Packages.lz4_decompress
      (slice data (payload_offset data) (payload_offset data + payload_len data)) with _ | plain
    · exact Or.inl ⟨rfl, _, rfl⟩
    · exact Or.inr ⟨by simp, _, rfl⟩
  · right
    simp only [hcompressed, false_and, not_false_eq_true, true_and, Bool.false_eq_true, if_false,
      forall_const]
    exact ⟨_, rfl, rfl⟩

/-- A packet that the parser gives is whole exactly where the bytes reach to
the end of the payload. -/
theorem holdsWhole_iff {data : Bytes} {packet : BitchatPacket}
    (h : parse_bitchat_packet data = .ok packet) :
    HoldsWhole data packet ↔ payload_offset data + payload_len data ≤ data.length := by
  constructor
  · exact fun hwhole => hwhole.payload
  · intro hend
    have hoffset : 22 ≤ payload_offset data := by
      unfold payload_offset
      split <;> simp [RECIPIENT_ID_SIZE]
    rcases parse_cases data with ⟨-, e, he⟩ | ⟨-, packet', hpacket, hexact⟩
    · rw [h] at he
      cases he
    · rw [h, Except.ok.injEq] at hpacket
      subst hpacket
      refine ⟨by omega, by unfold SENDER_ID_SIZE; omega, ?_, hend, ?_⟩
      · intro hrecipient
        unfold payload_offset at hend
        rw [if_pos hrecipient] at hend
        omega
      · intro hplain
        rw [hexact hplain, slice, List.length_take, List.length_drop]
        omega

/-- The parser gives a packet only where the bytes hold all of it, exactly if
they reach to the end of the payload that the header announces, or are refused. -/
theorem a_parsed_packet_is_whole_iff (data : Bytes) :
    (∀ packet, parse_bitchat_packet data = .ok packet → HoldsWhole data packet) ↔
      payload_offset data + payload_len data ≤ data.length ∨ Refused data := by
  rcases parse_cases data with ⟨hrefused, e, he⟩ | ⟨hrefused, packet, hpacket, -⟩
  · constructor
    · exact fun _ => Or.inr hrefused
    · intro _ packet hpacket
      rw [he] at hpacket
      cases hpacket
  · constructor
    · intro h
      exact Or.inl ((holdsWhole_iff hpacket).mp (h packet hpacket))
    · intro h packet' hpacket'
      rcases h with hend | hrefused'
      · exact (holdsWhole_iff hpacket').mpr hend
      · exact absurd hrefused' hrefused

end Packets

section

attribute [local instance] standIn.packages

/-- A packet whose payload of five bytes was cut off after two. -/
def cut_packet : Bytes :=
  (layout .MESSAGE 7 0 0 [1, 2, 3, 4, 5, 6, 7, 8] [] [104, 101, 108, 108, 111] []).take 24

/-- It is taken for a packet with a payload of two bytes. -/
theorem a_cut_packet_is_accepted :
    ¬ ∀ packet, parse_bitchat_packet cut_packet = .ok packet → HoldsWhole cut_packet packet := by
  intro h
  rcases parse_cases cut_packet with ⟨hrefused, -⟩ | ⟨-, packet, hpacket, -⟩
  · revert hrefused
    unfold Refused
    decide
  · have hend := (h packet hpacket).payload
    revert hend
    decide

end

/-! ## Reading data that was cut off -/

theorem byteAt_take (data : Bytes) (k n : Nat) :
    byteAt (data.take k) n = if n < k then byteAt data n else .error .IndexError := by
  unfold byteAt
  rw [List.getElem?_take]
  by_cases hn : n < k
  · simp [hn]
  · simp [hn]

theorem slice_take (data : Bytes) (k a b : Nat) :
    slice (data.take k) a b = slice data a (min b k) := by
  unfold slice
  rw [List.drop_take, List.take_take]
  congr 1
  omega

/-- `struct.unpack` notices that its slice came out short. -/
theorem unpackH_slice_le {data : Bytes} {n m : Nat}
    (h : unpackH (slice data n (n + 2)) = .ok m) : n + 2 ≤ data.length := by
  unfold unpackH at h
  split at h
  · rename_i hlength
    rw [slice, List.length_take, List.length_drop] at hlength
    omega
  · cases h

/-- A byte that is left after the cut is the one that was there before it. -/
theorem byteAt_take_ok {data : Bytes} {k n : Nat} {b c : UInt8} (h : byteAt data n = .ok b)
    (hcut : byteAt (data.take k) n = .ok c) : n < k ∧ c = b := by
  rw [byteAt_take] at hcut
  split at hcut
  · rename_i hn
    rw [h, Except.ok.injEq] at hcut
    exact ⟨hn, hcut.symm⟩
  · cases hcut

section Payloads

variable {flags : UInt8} {timestamp : Nat} {id sender : Str} {content : Bytes}
  {peer_id channel : Str}

/-- Where the content of a payload begins. -/
def content_offset (id sender : Str) : Nat := 13 + (encode id).length + (encode sender).length

/-- The fields before the content. -/
def message_head (flags : UInt8) (timestamp : Nat) (id sender : Str) (content_len : Nat) : Bytes :=
  flags :: (be 8 timestamp ++ (short_field (encode id) ++ (short_field (encode sender) ++
    be 2 content_len)))

theorem length_message_head (content_len : Nat) :
    (message_head flags timestamp id sender content_len).length = content_offset id sender := by
  simp [message_head, short_field, content_offset]
  omega

theorem message_layout_eq :
    message_layout flags timestamp id sender content peer_id channel =
      message_head flags timestamp id sender content.length ++
        (content ++ (optional_field peer_id ++ optional_field channel)) := by
  simp [message_layout, message_head]

/-- A cut before the content leaves a length that the parser misses. -/
theorem parse_cut_before_content {k : Nat} (hid : (encode id).length ≤ 255)
    (hsender : (encode sender).length ≤ 255) (hk : k < content_offset id sender) :
    ∃ e, parse_bitchat_message_payload
      ((message_layout flags timestamp id sender content peer_id channel).take k) = .error e := by
  generalize hdata : message_layout flags timestamp id sender content peer_id channel = data
  have h0 : data.drop 0 = flags :: (be 8 timestamp ++ (short_field (encode id) ++
      (short_field (encode sender) ++ (be 2 content.length ++ (content ++
        (optional_field peer_id ++ optional_field channel)))))) := by
    rw [← hdata]
    simp [message_layout]
  obtain ⟨-, h1⟩ := read_byte h0
  obtain ⟨-, h9⟩ := read_bytes h1
  rw [length_be] at h9
  obtain ⟨id_len, hid_len, hid_byte, -, h10⟩ := read_short hid h9
  obtain ⟨sender_len, hsender_len, hsender_byte, -, hcontent⟩ := read_short hsender h10
  rcases hparse : parse_bitchat_message_payload (data.take k) with e | message
  · exact ⟨e, rfl⟩
  · exfalso
    unfold parse_bitchat_message_payload at hparse
    obtain ⟨_, -, hparse⟩ := bind_eq_ok_iff.mp hparse
    obtain ⟨a, ha, hparse⟩ := bind_eq_ok_iff.mp hparse
    obtain ⟨_, -, hparse⟩ := bind_eq_ok_iff.mp hparse
    obtain ⟨b, hb, hparse⟩ := bind_eq_ok_iff.mp hparse
    obtain ⟨_, -, hparse⟩ := bind_eq_ok_iff.mp hparse
    obtain ⟨_, hc, -⟩ := bind_eq_ok_iff.mp hparse
    have hfits := unpackH_slice_le hc
    obtain ⟨-, rfl⟩ := byteAt_take_ok hid_byte ha
    rw [hid_len] at hb hfits
    obtain ⟨-, rfl⟩ := byteAt_take_ok hsender_byte hb
    rw [hsender_len, List.length_take] at hfits
    unfold content_offset at hk
    omega

/-- What the parser does with a payload that was cut off in its content or
behind it. -/
theorem parse_cut_from_content {k : Nat} (hid : (encode id).length ≤ 255)
    (h : PayloadFits sender content peer_id channel)
    (hp : hasFlag flags MSG_FLAG_HAS_SENDER_PEER_ID = decide (peer_id ≠ []))
    (hc : hasFlag flags MSG_FLAG_HAS_CHANNEL = decide (channel ≠ []))
    (hk : content_offset id sender ≤ k) {cut : Bytes}
    (hcut : cut = (message_layout flags timestamp id sender content peer_id channel).take k) :
    (∃ message, parse_bitchat_message_payload cut = .ok message) ↔
      ∃ offset name, skip_peer_id cut (content_offset id sender + content.length)
        (decide (peer_id ≠ [])) = .ok offset ∧
        read_channel cut offset (decide (channel ≠ [])) = .ok name := by
  have h0 : cut.drop 0 = flags :: (be 8 timestamp ++ (short_field (encode id) ++
      (short_field (encode sender) ++ (be 2 content.length ++ (content ++
        (optional_field peer_id ++ optional_field channel)).take
          (k - content_offset id sender))))) := by
    rw [hcut, message_layout_eq, List.take_append, length_message_head,
      List.take_of_length_le (by rw [length_message_head]; exact hk)]
    simp [message_head]
  obtain ⟨hflags, h1⟩ := read_byte h0
  obtain ⟨-, h9⟩ := read_bytes h1
  rw [length_be] at h9
  obtain ⟨id_len, hid_len, hid_byte, hid_read, hsender⟩ := read_short hid h9
  obtain ⟨sender_len, hsender_len, hsender_byte, hsender_read, hcontent⟩ :=
    read_short h.sender hsender
  obtain ⟨hcontent_len, -⟩ := read_bytes hcontent
  rw [length_be] at hcontent_len
  have hunpack : unpackH (be 2 content.length) = .ok content.length := by
    have hfits := h.content
    unfold unpackH
    rw [if_pos (length_be 2 _), fromBE_be 2 _ (by omega)]
  have hoffset : 10 + (encode id).length + 1 + (encode sender).length + 2 + content.length =
      content_offset id sender + content.length := by
    unfold content_offset
    omega
  simp only [Nat.zero_add, Nat.reduceAdd] at hid_byte hid_read hsender_byte hsender_read
  simp only [Nat.zero_add, Nat.reduceAdd] at hcontent_len
  unfold parse_bitchat_message_payload
  simp only [hflags, ok_bind, hid_byte, hid_len, hid_read, decodeUtf8, decode_encode, hsender_byte,
    hsender_len, hsender_read, hcontent_len, hunpack, hp, hc, hoffset]
  constructor
  · rintro ⟨message, hmessage⟩
    obtain ⟨offset, hskip, hmessage⟩ := bind_eq_ok_iff.mp hmessage
    obtain ⟨name, hname, -⟩ := bind_eq_ok_iff.mp hmessage
    exact ⟨offset, name, hskip, hname⟩
  · rintro ⟨offset, name, hskip, hname⟩
    rw [hskip, ok_bind, hname, ok_bind]
    exact ⟨_, rfl⟩

/-- Behind its length byte the bytes of the peer id are not missed. -/
theorem skip_peer_id_cut {data rest : Bytes} {k n : Nat} (hlen : (encode peer_id).length ≤ 255)
    (h : data.drop n = optional_field peer_id ++ rest) (offset : Nat) :
    skip_peer_id (data.take k) n (decide (peer_id ≠ [])) = .ok offset ↔
      offset = n + (optional_field peer_id).length ∧ (peer_id ≠ [] → n < k) := by
  unfold skip_peer_id
  by_cases hnil : peer_id = []
  · simp [hnil, optional_field, eq_comm]
  · unfold optional_field at h ⊢
    rw [if_neg hnil] at h ⊢
    obtain ⟨len, hfield, hbyte, -, -⟩ := read_short hlen h
    rw [decide_eq_true hnil, if_pos rfl, byteAt_take, hbyte, short_field, List.length_cons]
    by_cases hn : n < k
    · simp only [hn, if_true, ok_bind, hfield, ne_eq, hnil, not_false_eq_true, forall_const,
        and_true]
      change Except.ok _ = Except.ok _ ↔ _
      rw [Except.ok.injEq]
      omega
    · simp [hn, hnil]

/-- The channel is read if its length byte is left, and if its name ends
between two characters. -/
theorem read_channel_cut {data : Bytes} {k n : Nat} (hlen : (encode channel).length ≤ 255)
    (hk : k ≤ data.length) (h : data.drop n = optional_field channel) :
    (∃ name, read_channel (data.take k) n (decide (channel ≠ [])) = .ok name) ↔
      (channel ≠ [] → n < k ∧ ∃ name, name <+: channel ∧ n + 1 + (encode name).length = k) := by
  unfold read_channel
  by_cases hnil : channel = []
  · simp [hnil]
  · have hdrop : data.drop n = short_field (encode channel) ++ [] := by
      rw [h, optional_field, if_neg hnil, List.append_nil]
    obtain ⟨len, hfield, hbyte, hslice, hend⟩ := read_short hlen hdrop
    have hlength : data.length = n + 1 + (encode channel).length := by
      have hcount := congrArg List.length hdrop
      rw [List.length_drop, List.append_nil, short_field, List.length_cons] at hcount
      omega
    rw [decide_eq_true hnil, if_pos rfl, byteAt_take, hbyte]
    by_cases hn : n < k
    · have hcut : slice (data.take k) (n + 1) (n + 1 + (encode channel).length) =
          (encode channel).take (k - (n + 1)) := by
        have hlong : data.drop n = UInt8.ofNat (encode channel).length :: encode channel := by
          simpa [short_field] using hdrop
        have htail : data.drop (n + 1) = encode channel := (read_byte hlong).2
        rw [slice_take, slice, htail, Nat.min_eq_right (by omega)]
      simp only [hn, if_true, ok_bind, hfield, hcut, ne_eq, hnil, not_false_eq_true, forall_const,
        true_and]
      constructor
      · rintro ⟨name, hname⟩
        obtain ⟨text, htext, -⟩ := bind_eq_ok_iff.mp hname
        unfold decodeUtf8 at htext
        split at htext
        · rename_i s hs
          obtain ⟨hstart, hsize⟩ := (decode_take_encode_iff (by omega)).mp hs
          exact ⟨s, hstart, by omega⟩
        · cases htext
      · rintro ⟨name, hstart, hsize⟩
        have hs := (decode_take_encode_iff (k := k - (n + 1)) (by omega)).mpr
          ⟨hstart, by omega⟩
        unfold decodeUtf8
        rw [hs]
        exact ⟨_, rfl⟩
    · simp [hn, hnil]

theorem length_optional_field (s : Str) :
    (optional_field s).length = if s = [] then 0 else 1 + (encode s).length := by
  unfold optional_field
  split
  · rfl
  · rw [short_field, List.length_cons, Nat.add_comm]

/-- The field at the end of a payload. -/
def last_field (content : Bytes) (peer_id channel : Str) : Bytes :=
  if channel ≠ [] then encode channel else if peer_id ≠ [] then encode peer_id else content

/-- Which cuts through a payload the parser accepts. -/
theorem parse_cut_ok_iff {k : Nat} (hid : (encode id).length ≤ 255)
    (h : PayloadFits sender content peer_id channel)
    (hp : hasFlag flags MSG_FLAG_HAS_SENDER_PEER_ID = decide (peer_id ≠ []))
    (hc : hasFlag flags MSG_FLAG_HAS_CHANNEL = decide (channel ≠ []))
    (hk : k ≤ (message_layout flags timestamp id sender content peer_id channel).length) :
    (∃ message, parse_bitchat_message_payload
      ((message_layout flags timestamp id sender content peer_id channel).take k) =
        .ok message) ↔
      (message_layout flags timestamp id sender content peer_id channel).length ≤
        k + (last_field content peer_id channel).length ∧
      (channel ≠ [] → ∃ name, name <+: channel ∧
        (message_layout flags timestamp id sender content peer_id channel).length +
          (encode name).length = k + (encode channel).length) := by
  have hlength := length_message_layout flags timestamp id sender content peer_id channel
  have hoffset : content_offset id sender = 13 + (encode id).length + (encode sender).length := rfl
  have hpeer_field := length_optional_field peer_id
  have hchannel_field := length_optional_field channel
  unfold last_field
  rcases Nat.lt_or_ge k (content_offset id sender) with hbefore | hfrom
  · have hrejected : ∃ e, parse_bitchat_message_payload
        ((message_layout flags timestamp id sender content peer_id channel).take k) = .error e :=
      parse_cut_before_content hid h.sender hbefore
    obtain ⟨e, he⟩ := hrejected
    constructor
    · rintro ⟨message, hmessage⟩
      rw [he] at hmessage
      cases hmessage
    · rintro ⟨hlast, -⟩
      exfalso
      split at hlast
      · rename_i hc
        rw [if_neg hc] at hchannel_field
        omega
      · split at hlast
        · rename_i hp
          rw [if_neg hp] at hpeer_field
          omega
        · omega
  · rw [parse_cut_from_content hid h hp hc hfrom rfl]
    generalize hdata : message_layout flags timestamp id sender content peer_id channel = data at *
    have hpeer : data.drop (content_offset id sender + content.length) =
        optional_field peer_id ++ optional_field channel := by
      have hcontent : data.drop (content_offset id sender) =
          content ++ (optional_field peer_id ++ optional_field channel) := by
        have hhead : (message_head flags timestamp id sender content.length).length =
            content_offset id sender := length_message_head _
        rw [← hdata, message_layout_eq, ← hhead, List.drop_left]
      exact (read_bytes hcontent).2
    have hchannel : data.drop (content_offset id sender + content.length +
        (optional_field peer_id).length) = optional_field channel := (read_bytes hpeer).2
    have hread := read_channel_cut h.channel hk hchannel
    simp only [skip_peer_id_cut h.peer_id hpeer, and_assoc, exists_and_left, exists_eq_left, hread]
    by_cases hc : channel = []
    · rw [if_pos hc] at hchannel_field
      simp only [hc, ne_eq, not_true_eq_false, false_implies, and_true, if_false]
      by_cases hp : peer_id = []
      · rw [if_pos hp] at hpeer_field
        simp only [hp, not_true_eq_false, false_implies, if_false, true_iff]
        omega
      · rw [if_neg hp] at hpeer_field
        simp only [hp, not_false_eq_true, forall_const, if_true]
        omega
    · rw [if_neg hc] at hchannel_field
      simp only [hc, ne_eq, not_false_eq_true, if_true, forall_const]
      constructor
      · rintro ⟨-, hn, name, hstart, hsize⟩
        exact ⟨by omega, name, hstart, by omega⟩
      · rintro ⟨hlast, name, hstart, hsize⟩
        exact ⟨by omega, by omega, name, hstart, by omega⟩

end Payloads

section

variable [Packages] (sender content : Str) (channel : Option Str) (is_private : Bool)
  (sender_peer_id : Str) (is_encrypted : Bool) (encrypted_content : Option Bytes) (draw : Draw)

/-- A payload that was cut off is rejected exactly where the cut comes before
the bytes of the last field, or goes through a character of the channel's name. -/
theorem a_cut_payload_is_rejected_iff {payload : Bytes} {id : Str}
    (hcreate : create_bitchat_message_payload_full sender content channel is_private sender_peer_id
      is_encrypted encrypted_content draw = .ok (payload, id)) (k : Nat) (hk : k < payload.length) :
    (∃ e, parse_bitchat_message_payload (payload.take k) = .error e) ↔
      k + (last_field (payload_bytes content is_encrypted encrypted_content) sender_peer_id
        (channel.getD [])).length < payload.length ∨
      (channel.getD [] ≠ [] ∧ ∀ name, name <+: channel.getD [] →
        k + (encode (channel.getD [])).length ≠ payload.length + (encode name).length) := by
  have hfits := create_payload_fits sender content channel is_private sender_peer_id
    encrypted_content draw hcreate
  rw [create_payload_ok channel is_private draw hfits, Except.ok.injEq, Prod.mk.injEq] at hcreate
  obtain ⟨rfl, rfl⟩ := hcreate
  have hid := length_encode_uuid draw.uuid
  obtain ⟨hpeer, hchannel, -⟩ := message_flags_read is_private sender_peer_id (channel.getD [])
    is_encrypted
  have hok := parse_cut_ok_iff (by omega) hfits hpeer hchannel hk.le
  constructor
  · rintro ⟨e, he⟩
    by_contra hnot
    simp only [not_or, not_lt, not_and, not_forall, ne_eq, not_not] at hnot
    obtain ⟨message, hmessage⟩ := hok.mpr ⟨hnot.1, fun hc => by
      obtain ⟨name, hstart, hsize⟩ := hnot.2 hc
      exact ⟨name, hstart, hsize.symm⟩⟩
    rw [he] at hmessage
    cases hmessage
  · intro hcut
    rcases hparse : parse_bitchat_message_payload (List.take k _) with e | message
    · exact ⟨e, rfl⟩
    · exfalso
      obtain ⟨hlast, hname⟩ := hok.mp ⟨message, hparse⟩
      rcases hcut with hbefore | ⟨hc, hinside⟩
      · omega
      · obtain ⟨name, hstart, hsize⟩ := hname hc
        exact hinside name hstart hsize.symm

end

section

attribute [local instance] standIn.packages

/-- The payload of the message `hello`, without a peer id and a channel. -/
def hello_payload : Bytes :=
  message_layout 0 1000 (standIn.draw 1).uuid.str ['a'] (encode "hello".toList) [] []

theorem create_hello : create_bitchat_message_payload_full ['a'] "hello".toList none false [] false
    none (standIn.draw 1) = .ok (hello_payload, (standIn.draw 1).uuid.str) := by
  rfl

/-- The payload without its last byte. -/
theorem a_cut_in_the_content_is_not_rejected :
    (∃ e, parse_bitchat_message_payload (hello_payload.take 54) = .error e) ↔
      54 + (last_field (payload_bytes "hello".toList false none) [] (none.getD [])).length <
        hello_payload.length ∨
      ((none : Option Str).getD [] ≠ [] ∧ ∀ name, name <+: (none : Option Str).getD [] →
        54 + (encode ((none : Option Str).getD [])).length ≠
          hello_payload.length + (encode name).length) :=
  a_cut_payload_is_rejected_iff ['a'] "hello".toList none false [] false none (standIn.draw 1)
    create_hello 54 (by decide)

/-- It is read as the message `hell`. -/
theorem hello_is_read_as_hell : ∃ payload id,
    create_bitchat_message_payload_full ['a'] "hello".toList none false [] false none
      (standIn.draw 1) = .ok (payload, id) ∧
    ¬ ∀ k < payload.length, ∃ e, parse_bitchat_message_payload (payload.take k) = .error e := by
  refine ⟨_, _, create_hello, ?_⟩
  intro h
  obtain ⟨e, he⟩ := h 54 (by decide)
  have hread : (parse_bitchat_message_payload (hello_payload.take 54)).map BitchatMessage.content =
      .ok "hell".toList := by
    decide
  rw [he] at hread
  cases hread

end

end bitchat.protocol
