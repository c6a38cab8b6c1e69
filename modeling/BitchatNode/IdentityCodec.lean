-- The identity announcement: what `encode_noise_identity_announcement_binary`
-- writes for an id of eight bytes the parser reads back.
import BitchatNode.MessageCodec

namespace bitchat.protocol

open python bitchat

/-! ## Fields -/

theorem readShort_ok {data field rest : Bytes} {n : Nat} (hlen : field.length ≤ 255)
    (h : data.drop n = short_field field ++ rest) :
    readShort data n = some (field, n + 1 + field.length) ∧
      data.drop (n + 1 + field.length) = rest := by
  obtain ⟨len, hfield, hbyte, hslice, hrest⟩ := read_short hlen h
  refine ⟨?_, hrest⟩
  have hget : data[n]? = some len := by
    unfold byteAt at hbyte
    split at hbyte
    · rename_i b hb
      rw [hb, Except.ok.inj hbyte]
    · cases hbyte
  have hfits : n + 1 + len.toNat ≤ data.length := by
    have hlength := congrArg List.length h
    rw [List.length_drop, List.length_append, short_field, List.length_cons] at hlength
    omega
  unfold readShort
  rw [hget, Option.bind_eq_bind, Option.bind_some, if_pos hfits, hfield, hslice]

theorem readFixed_ok {data field rest : Bytes} {n size : Nat} (hsize : field.length = size)
    (hpositive : 0 < size) (h : data.drop n = field ++ rest) :
    readFixed data n size = some (field, n + size) ∧ data.drop (n + size) = rest := by
  obtain ⟨hslice, hrest⟩ := read_bytes h
  rw [hsize] at hslice hrest
  refine ⟨?_, hrest⟩
  have hlength := congrArg List.length h
  rw [List.length_drop, List.length_append] at hlength
  unfold readFixed
  rw [hslice, if_pos (by omega)]

/-! ## The layout -/

/-- The fields of an announcement without a previous id. -/
def announcement_layout (peer_id public_key signing_public_key nickname : Bytes) (timestamp : Nat)
    (signature : Bytes) : Bytes :=
  [0] ++ (peer_id ++ (short_field public_key ++ (short_field signing_public_key ++
    (short_field nickname ++ (be 8 timestamp ++ short_field signature)))))

theorem length_announcement_layout_le {peer_id public_key signing_public_key nickname : Bytes}
    {timestamp : Nat} {signature : Bytes} (hid : peer_id.length = 8)
    (hkey : public_key.length ≤ 255) (hsigning : signing_public_key.length ≤ 255)
    (hnickname : nickname.length ≤ 255) (hsignature : signature.length ≤ 255) :
    (announcement_layout peer_id public_key signing_public_key nickname timestamp
      signature).length ≤ 1041 := by
  simp only [announcement_layout, short_field, List.length_append, List.length_cons,
    List.length_nil, length_be]
  omega

theorem ljust16_str (id : PeerId) : ljust16 id.str = id.str := by
  have hlength : id.str.length = 16 := by
    rw [PeerId.str, length_hex, id.length_bytes]
  unfold ljust16
  rw [hlength, List.take_of_length_le (by simp [hlength])]
  simp

/-- An announcement is laid out like this, and only if its fields fit. -/
theorem encode_announcement {id : PeerId} {public_key signing_public_key : Bytes} {nickname : Str}
    {timestamp : Nat} {signature payload : Bytes}
    (h : encode_noise_identity_announcement_binary id.str public_key signing_public_key nickname
      timestamp signature none = .ok payload) :
    payload = announcement_layout id.bytes public_key signing_public_key (encode nickname)
        (timestamp * 1000) signature ∧
      public_key.length ≤ 255 ∧ signing_public_key.length ≤ 255 ∧
      (encode nickname).length ≤ 255 ∧ signature.length ≤ 255 := by
  have hid : fromHex (ljust16 id.str) = .ok id.bytes := by
    rw [ljust16_str]
    simp only [fromHex, PeerId.str, fromhex_hex]
  unfold encode_noise_identity_announcement_binary at h
  simp only [Option.getD_none, ne_eq, not_true_eq_false, if_false, hid, ok_bind] at h
  obtain ⟨key, hkey, h⟩ := bind_eq_ok_iff.mp h
  obtain ⟨signing, hsigning, h⟩ := bind_eq_ok_iff.mp h
  obtain ⟨name, hname, h⟩ := bind_eq_ok_iff.mp h
  obtain ⟨sealed, hsealed, h⟩ := bind_eq_ok_iff.mp h
  have hkey' := packShort_fits hkey
  have hsigning' := packShort_fits hsigning
  have hname' := packShort_fits hname
  have hsealed' := packShort_fits hsealed
  rw [packShort_ok hkey', Except.ok.injEq] at hkey
  rw [packShort_ok hsigning', Except.ok.injEq] at hsigning
  rw [packShort_ok hname', Except.ok.injEq] at hname
  rw [packShort_ok hsealed', Except.ok.injEq] at hsealed
  refine ⟨?_, hkey', hsigning', hname', hsealed'⟩
  rw [← Except.ok.inj h, ← hkey, ← hsigning, ← hname, ← hsealed]
  simp [announcement_layout]

/-- The id and the nickname come back. -/
theorem parse_announcement_layout (id : PeerId) {public_key signing_public_key : Bytes}
    {nickname : Str} (timestamp : Nat) {signature : Bytes} (hkey : public_key.length ≤ 255)
    (hsigning : signing_public_key.length ≤ 255) (hnickname : (encode nickname).length ≤ 255)
    (hsignature : signature.length ≤ 255) :
    ∃ announcement, parse_noise_identity_announcement_binary
      (announcement_layout id.bytes public_key
        signing_public_key (encode nickname) timestamp signature) = .ok (some announcement) ∧
      announcement.peerID = id.str ∧ announcement.nickname = nickname := by
  have hdata : (announcement_layout id.bytes public_key signing_public_key (encode nickname)
      timestamp signature).drop 1 = id.bytes ++ (short_field public_key ++
        (short_field signing_public_key ++ (short_field (encode nickname) ++
          (be 8 timestamp ++ short_field signature)))) := rfl
  have hflags : (announcement_layout id.bytes public_key signing_public_key (encode nickname)
      timestamp signature)[0]? = some 0 := rfl
  generalize announcement_layout id.bytes public_key signing_public_key (encode nickname)
    timestamp signature = data at hdata hflags
  obtain ⟨hid, hdata⟩ := readFixed_ok id.length_bytes (by decide) hdata
  obtain ⟨hkey, hdata⟩ := readShort_ok hkey hdata
  obtain ⟨hsigning, hdata⟩ := readShort_ok hsigning hdata
  obtain ⟨hname, hdata⟩ := readShort_ok hnickname hdata
  obtain ⟨htime, hdata⟩ := readFixed_ok (length_be 8 timestamp) (by decide) hdata
  rw [← List.append_nil (short_field signature)] at hdata
  obtain ⟨hsigned, -⟩ := readShort_ok hsignature hdata
  have hnone : hasFlag 0 0x01 = false := by decide
  unfold parse_noise_identity_announcement_binary
  simp only [hflags, hid, hkey, hsigning, hname, htime, decode_encode, hnone, Option.bind_eq_bind,
    Option.bind_some, Bool.false_eq_true, if_false, Option.pure_def, hsigned]
  exact ⟨_, rfl, rfl, rfl⟩

end bitchat.protocol
