-- The padding of a packet and its removal. The last byte of a padded packet
-- counts its padding; the last byte of any other is data that counts nothing.
import BitchatNode.PacketCodec

namespace bitchat.protocol

open python

/-! ## Removal -/

/-- The body of `unpad_message`, for packets. -/
def unpad_packet (data : Bytes) : Bytes := unpad_message data

theorem unpad_packet_append (data : Bytes) (last : UInt8) :
    unpad_packet (data ++ [last]) =
      if last = 0 ∨ data.length + 1 < last.toNat then data ++ [last]
      else data.take (data.length + 1 - last.toNat) := by
  unfold unpad_packet unpad_message
  simp only [List.getLast?_append, List.getLast?_singleton, Option.some_or, List.length_append,
    List.length_singleton]
  split
  · simp
  · rename_i h
    have hpos : 0 < last.toNat := by
      rw [not_or] at h
      exact Nat.pos_of_ne_zero fun hzero => h.1 (UInt8.toNat_inj.mp hzero)
    rw [List.take_append_of_le_length (by omega)]

/-- Data comes back from under padding that its last byte counts. -/
theorem unpad_packet_padded (data filler : Bytes) (h : filler.length + 1 ≤ 255) :
    unpad_packet (data ++ filler ++ [UInt8.ofNat (filler.length + 1)]) = data := by
  have hlast : (UInt8.ofNat (filler.length + 1)).toNat = filler.length + 1 := by
    rw [UInt8.toNat_ofNat']
    omega
  have hne : UInt8.ofNat (filler.length + 1) ≠ 0 := by
    intro hzero
    rw [hzero] at hlast
    simp at hlast
  rw [unpad_packet_append, hlast, List.length_append, if_neg (by simp only [hne, false_or]; omega)]
  have hlen : data.length + filler.length + 1 - (filler.length + 1) = data.length := by omega
  rw [hlen, List.take_left]

/-- A byte that could count padding takes data with it. -/
theorem unpad_packet_eq_self_iff {data : Bytes} (hne : data ≠ []) :
    unpad_packet data = data ↔ data.getLast hne = 0 ∨ data.length < (data.getLast hne).toNat := by
  obtain ⟨front, last, rfl⟩ : ∃ front last, data = front ++ [last] :=
    ⟨data.dropLast, data.getLast hne, (List.dropLast_append_getLast hne).symm⟩
  rw [unpad_packet_append, List.getLast_append_singleton, List.length_append, List.length_singleton]
  split
  · rename_i h
    simp [h]
  · rename_i h
    refine iff_of_false (fun heq => ?_) h
    have hlen := congrArg List.length heq
    rw [List.length_take, List.length_append, List.length_singleton] at hlen
    omega

/-! ## Which packets are padded -/

/-- The sizes from which a block size is at most 255 bytes away. -/
def padded (size : Nat) : Bool :=
  (1 ≤ size && size ≤ 240) || (257 ≤ size && size ≤ 496) || (769 ≤ size && size ≤ 1008) ||
    (1793 ≤ size && size ≤ 2032)

theorem target_size_eq (size : Nat) :
    (block_sizes.find? fun block_size => size + 16 ≤ block_size).getD size =
      if size ≤ 240 then 256 else if size ≤ 496 then 512 else if size ≤ 1008 then 1024
      else if size ≤ 2032 then 2048 else size := by
  unfold block_sizes
  by_cases h1 : size ≤ 240
  · simp [h1]
  · by_cases h2 : size ≤ 496
    · simp [h1, h2]
    · by_cases h3 : size ≤ 1008
      · simp [h1, h2, h3]
      · by_cases h4 : size ≤ 2032 <;> simp [h1, h2, h3, h4]

theorem padded_iff (size : Nat) :
    0 < (block_sizes.find? fun block_size => size + 16 ≤ block_size).getD size - size ∧
        (block_sizes.find? fun block_size => size + 16 ≤ block_size).getD size - size ≤ 255 ↔
      padded size = true := by
  rw [target_size_eq]
  unfold padded
  simp only [Bool.or_eq_true, Bool.and_eq_true, decide_eq_true_eq]
  split_ifs <;> omega

/-- The last byte counts the padding. -/
theorem pad_packet_of_padded {packet : Bytes} (h : padded packet.length = true)
    (entropy : Entropy) : ∃ filler, filler.length + 1 ≤ 255 ∧
      pad_packet packet entropy = packet ++ filler ++ [UInt8.ofNat (filler.length + 1)] := by
  have hneeded := (padded_iff packet.length).mpr h
  unfold pad_packet
  simp only
  rw [if_pos hneeded]
  generalize (block_sizes.find? fun block_size => packet.length + 16 ≤ block_size).getD
    packet.length - packet.length = needed at hneeded ⊢
  have hfiller : (entropy.urandom (needed - 1)).length + 1 = needed := by
    rw [entropy.length_urandom]
    omega
  refine ⟨entropy.urandom (needed - 1), by omega, ?_⟩
  rw [hfiller]

theorem pad_packet_eq_self {packet : Bytes} (h : padded packet.length = false)
    (entropy : Entropy) : pad_packet packet entropy = packet := by
  have hnot := mt (padded_iff packet.length).mp (by simp [h])
  unfold pad_packet
  simp only
  rw [if_neg hnot]

/-! ## The packets that the encoder builds -/

/-- The last byte could not count padding. -/
def counts_nothing (packet : Bytes) : Bool :=
  packet.getLastD 0 = 0 || packet.length < (packet.getLastD 0).toNat

theorem unpad_packet_pad_packet_iff {packet : Bytes} (hne : packet ≠ []) (entropy : Entropy) :
    unpad_packet (pad_packet packet entropy) = packet ↔
      padded packet.length = true ∨ counts_nothing packet = true := by
  cases h : padded packet.length with
  | true =>
    obtain ⟨filler, hlength, heq⟩ := pad_packet_of_padded h entropy
    rw [heq, unpad_packet_padded packet filler hlength]
    simp
  | false =>
    rw [pad_packet_eq_self h, unpad_packet_eq_self_iff hne]
    unfold counts_nothing
    rw [List.getLastD_eq_getLast?, List.getLast?_eq_getLast_of_ne_nil hne]
    simp

/-- The recipient of a packet, if it has one. -/
def recipient_bytes (recipient_id : Option Str) (msg_type : MessageType) : Except PyError Bytes :=
  if recipient_id.isSome || msg_type ∉ exclude_recipient_types then
    match recipient_id with
    | none | some [] => .ok BROADCAST_RECIPIENT
    | some recipient_id => id8 <$> fromHex recipient_id
  else .ok []

theorem length_recipient_bytes {recipient_id : Option Str} {msg_type : MessageType}
    {recipient : Bytes} (h : recipient_bytes recipient_id msg_type = .ok recipient) :
    recipient.length =
      if recipient_id.isSome || msg_type ∉ exclude_recipient_types then 8 else 0 := by
  unfold recipient_bytes at h
  split at h
  · rename_i hflag
    rw [if_pos hflag]
    split at h
    · rw [← Except.ok.inj h]
      rfl
    · rw [← Except.ok.inj h]
      rfl
    · obtain ⟨bytes, -, rfl⟩ := map_eq_ok_iff.mp h
      exact length_id8 bytes
  · rename_i hflag
    rw [if_neg hflag, ← Except.ok.inj h]
    rfl

variable [Packages]

/-- `create_bitchat_packet_with_recipient` up to the padding: the header, the
ids, the payload and the signature. -/
def bare_packet (sender_id : Str) (recipient_id : Option Str) (msg_type : MessageType)
    (payload : Bytes) (signature : Option Bytes) (draw : Draw) : Except PyError Bytes := do
  let signature := signature.getD []
  let flags := (if recipient_id.isSome || msg_type ∉ exclude_recipient_types
      then FLAG_HAS_RECIPIENT else 0) ||| (if signature ≠ [] then FLAG_HAS_SIGNATURE else 0)
  let payload_len ← packH payload.length
  let sender_bytes ← fromHex sender_id
  let recipient ← recipient_bytes recipient_id msg_type
  return [1, msg_type.value, 7] ++ be 8 draw.timestamp_ms ++ [flags] ++ payload_len ++
    id8 sender_bytes ++ recipient ++ payload ++ signature

theorem create_eq_pad_bare (sender_id : Str) (recipient_id : Option Str) (msg_type : MessageType)
    (payload : Bytes) (signature : Option Bytes) (draw : Draw) :
    create_bitchat_packet_with_recipient sender_id recipient_id msg_type payload signature draw =
      (fun packet => pad_packet packet draw.entropy) <$>
        bare_packet sender_id recipient_id msg_type payload signature draw := by
  unfold create_bitchat_packet_with_recipient bare_packet recipient_bytes
  rcases packH payload.length with _ | payload_len
  · rfl
  rcases fromHex sender_id with _ | sender_bytes
  · rfl
  cases hflag : recipient_id.isSome || decide (msg_type ∉ exclude_recipient_types) with
  | false => simp
  | true =>
    rcases recipient_id with _ | _ | ⟨c, recipient_id⟩
    · simp
    · simp
    · rcases hrecipient : fromHex (c :: recipient_id) with _ | recipient <;> simp [hrecipient]

/-- The size of a packet without its padding. -/
def bare_size (recipient_id : Option Str) (msg_type : MessageType) (payload : Bytes)
    (signature : Option Bytes) : Nat :=
  22 + (if recipient_id.isSome || msg_type ∉ exclude_recipient_types then 8 else 0) +
    payload.length + (signature.getD []).length

/-- The payload and the signature stand at the end, behind 22 or 30 bytes. -/
theorem bare_packet_ends {sender_id : Str} {recipient_id : Option Str} {msg_type : MessageType}
    {payload : Bytes} {signature : Option Bytes} {draw : Draw} {packet : Bytes}
    (h : bare_packet sender_id recipient_id msg_type payload signature draw = .ok packet) :
    ∃ front, packet = front ++ (payload ++ signature.getD []) ∧ front ≠ [] ∧
      packet.length = bare_size recipient_id msg_type payload signature := by
  unfold bare_packet at h
  simp only [bind_eq_ok_iff] at h
  obtain ⟨payload_len, hlen, sender_bytes, -, recipient, hrecipient, h⟩ := h
  have hpack : payload_len.length = 2 := by
    unfold packH at hlen
    split at hlen
    · rw [← Except.ok.inj hlen, length_be]
    · cases hlen
  have hfield := length_recipient_bytes hrecipient
  obtain rfl := Except.ok.inj h
  refine ⟨_, List.append_assoc _ _ _, by simp, ?_⟩
  unfold bare_size
  simp only [List.length_append, length_be, length_id8, hpack, hfield, List.length_cons,
    List.length_nil]

/-- What `unpad_packet` makes of a packet of the encoder is the packet without its
padding exactly if the packet was padded, or its last byte of data counts
nothing. -/
theorem unpad_created_iff {sender_id : Str} {recipient_id : Option Str} {msg_type : MessageType}
    {payload : Bytes} {signature : Option Bytes} {draw : Draw} {data : Bytes}
    (h : create_bitchat_packet_with_recipient sender_id recipient_id msg_type payload signature draw
      = .ok data) :
    bare_packet sender_id recipient_id msg_type payload signature draw = .ok (unpad_packet data) ↔
      let size := bare_size recipient_id msg_type payload signature
      let last := (payload ++ signature.getD []).getLastD 0
      padded size = true ∨ last = 0 ∨ size < last.toNat := by
  rw [create_eq_pad_bare] at h
  obtain ⟨packet, hbare, rfl⟩ := map_eq_ok_iff.mp h
  obtain ⟨front, rfl, hne, hsize⟩ := bare_packet_ends hbare
  have hpacket : front ++ (payload ++ signature.getD []) ≠ [] := by simp [hne]
  rw [hbare, Except.ok.injEq, eq_comm, unpad_packet_pad_packet_iff hpacket, hsize]
  unfold counts_nothing
  rw [hsize, Bool.or_eq_true, decide_eq_true_eq, decide_eq_true_eq]
  simp only
  by_cases hdata : payload ++ signature.getD [] = []
  · -- without data there are 22 or 30 bytes, which are padded
    have hpadded : padded (bare_size recipient_id msg_type payload signature) = true := by
      obtain ⟨hpayload, hsignature⟩ := List.append_eq_nil_iff.mp hdata
      unfold bare_size
      rw [hpayload, hsignature]
      split <;> decide
    simp [hpadded]
  · rw [List.getLastD_eq_getLast?, List.getLastD_eq_getLast?,
      List.getLast?_append_of_ne_nil _ hdata]

end bitchat.protocol

/-! ## A packet that loses a byte -/

namespace bitchat.protocol.standIn

open python bitchat bitchat.protocol

attribute [local instance] bitchat.standIn.packages

/-- A message of `size` bytes, all of them `b`, to everyone. -/
def filled (size : Nat) (b : UInt8) : Except PyError Bytes :=
  create_bitchat_packet_with_recipient "0102030405060708".toList none .MESSAGE
    (List.replicate size b) none (bitchat.standIn.draw 1)

def bare_filled (size : Nat) (b : UInt8) : Except PyError Bytes :=
  bare_packet "0102030405060708".toList none .MESSAGE (List.replicate size b) none
    (bitchat.standIn.draw 1)

/-- With 210 bytes there is room for the padding. -/
theorem a_padded_packet_comes_back : ∃ data, filled 210 1 = .ok data ∧
    bare_filled 210 1 = .ok (unpad_packet data) := by
  have hcreated : (filled 210 1).isOk = true := by decide +kernel
  rcases h : filled 210 1 with e | data
  · rw [h] at hcreated
    cases hcreated
  · exact ⟨data, rfl, (unpad_created_iff h).mpr (.inl (by decide +kernel))⟩

/-- With ten bytes more there is none, and `unpad_packet` takes the last byte
of the payload for padding. -/
theorem an_unpadded_packet_loses_a_byte :
    (filled 220 1).map List.length = .ok 250 ∧
      (filled 220 1).map (fun data => (unpad_packet data).length) = .ok 249 ∧
      (filled 220 1).map unpad_packet ≠ bare_filled 220 1 := by
  have hcut : (filled 220 1).map (fun data => (unpad_packet data).length) = .ok 249 := by
    decide +kernel
  have hbare : (bare_filled 220 1).map List.length = .ok 250 := by decide +kernel
  refine ⟨by decide +kernel, hcut, fun h => ?_⟩
  have hlength : (filled 220 1).map (fun data => (unpad_packet data).length) =
      (bare_filled 220 1).map List.length := by
    rw [← h]
    rcases filled 220 1 with e | data <;> rfl
  rw [hbare, hcut] at hlength
  cases hlength

end bitchat.protocol.standIn
