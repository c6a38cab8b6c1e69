-- Which identity an announcement is signed for. `send_identity_announce` signs
-- its time in milliseconds and hands the same number to the encoder, which
-- takes it for seconds.
import BitchatNode.AnnouncementCodec
import BitchatNode.Mesh

namespace daemon

open python bitchat bitchat.protocol bitchat.encryption

theorem digits_injective {m n : Nat} (h : digits m = digits n) : m = n := by
  have hread := congrArg (Nat.ofDigitChars 10 · 0) h
  simp only [digits, Nat.toString_eq_repr, Nat.toList_repr] at hread
  rwa [Nat.ofDigitChars_toDigits (by decide) (by decide),
    Nat.ofDigitChars_toDigits (by decide) (by decide)] at hread

theorem encode_injective {s t : Str} (h : encode s = encode t) : s = t := by
  have hread := congrArg decode h
  simpa using hread

/-- What a receiver rebuilds of the signed bytes from the fields that it
parsed: the id, the key and the timestamp in milliseconds. -/
def rebuilt_binding (announcement : NoiseIdentityAnnouncement) : Option Bytes :=
  (fromhex announcement.publicKey).map fun public_key =>
    encode announcement.peerID ++ public_key ++
      encode (digits (python.int (announcement.timestamp * 1000)).toNat)

variable [Packages]

/-! ## What is signed -/

/-- The bytes that `send_identity_announce` signs. -/
def binding_data (self : MeshNode) (timestamp_ms : Nat) : Bytes :=
  encode self.my_peer_id.str ++ self.encryption_service.get_public_key ++
    encode (digits timestamp_ms)

theorem binding_data_injective {self : MeshNode} {m n : Nat}
    (h : binding_data self m = binding_data self n) : m = n := by
  apply digits_injective
  apply encode_injective
  exact List.append_cancel_left h

/-- The payload that it builds. -/
def identity_payload (self : MeshNode) (timestamp_ms : Nat) : Except PyError Bytes :=
  encode_noise_identity_announcement_binary self.my_peer_id.str
    self.encryption_service.get_public_key self.encryption_service.get_public_key self.nickname
    timestamp_ms (self.encryption_service.sign_data (binding_data self timestamp_ms)) none

theorem send_identity_announce_eq (env : Env) : send_identity_announce env = (do
    let self ← node
    let payload ← outcome (identity_payload self (env.draw 0).timestamp_ms)
    let packet ← outcome (create_bitchat_packet_with_signature self.my_peer_id.str
      .NOISE_IDENTITY_ANNOUNCE payload (some (self.encryption_service.sign_data
        (binding_data self (env.draw 0).timestamp_ms))) (env.draw 1))
    raw_send env packet) := rfl

/-! ## What is rebuilt -/

/-- The receiver gets the signed id and key, and a timestamp a thousand times
as large. -/
theorem rebuilt_of_identity_payload [LawfulCrypto]
    (hdigest : ∀ data, (Crypto.sha256 data).length = 32) (self : MeshNode)
    (hnickname : (encode self.nickname).length ≤ 255) {timestamp_ms : Nat}
    (ht : 1000 * timestamp_ms < 256 ^ 8) :
    ∃ payload announcement, identity_payload self timestamp_ms = .ok payload ∧
      parse_noise_identity_announcement_binary payload = .ok (some announcement) ∧
      rebuilt_binding announcement = some (binding_data self (1000 * timestamp_ms)) := by
  have hkey : self.encryption_service.get_public_key.length = 32 :=
    LawfulCrypto.length_public_bytes _
  have hsignature : (self.encryption_service.sign_data (binding_data self timestamp_ms)).length =
      32 := hdigest _
  have hfits : AnnouncementFits self.encryption_service.get_public_key
      self.encryption_service.get_public_key self.nickname
      (self.encryption_service.sign_data (binding_data self timestamp_ms)) :=
    ⟨by omega, by omega, hnickname, by omega⟩
  have hms : (timestamp_ms : ℚ) * 1000 = (1000 * timestamp_ms : Nat) := by
    rw [mul_comm, Nat.cast_mul, Nat.cast_ofNat]
  have hencode := encode_identity_layout self.my_peer_id none _ hms hfits
  have hno_flag : hasFlag 0 0x01 = (none : Option Bytes).isSome := by decide
  have hno_previous : ∀ id ∈ (none : Option Bytes), id.length = 8 := by
    intro id hid
    cases hid
  obtain ⟨offset, hparse⟩ := parse_identity_layout [] self.my_peer_id.length_bytes hfits ht
    hno_flag hno_previous
  rw [List.append_nil] at hparse
  refine ⟨_, announcement_of_fields self.my_peer_id.bytes self.encryption_service.get_public_key
    self.encryption_service.get_public_key self.nickname (1000 * timestamp_ms) none
    (self.encryption_service.sign_data (binding_data self timestamp_ms)),
    (encode_announcement_at_natCast ..).symm.trans hencode, ?_, ?_⟩
  · rw [parse_announcement_eq]
    exact congrArg (fun r => Except.ok (Option.map Prod.fst r)) hparse
  · unfold rebuilt_binding
    rw [NoiseIdentityAnnouncement.timestamp_mul, int_natCast, Int.toNat_natCast]
    simp [announcement_of_fields, binding_data, PeerId.str]

/-- The clock, too, leaves room for the factor of a thousand. -/
theorem thousandfold_lt (draw : Draw) : 1000 * draw.timestamp_ms < 256 ^ 8 := by
  have htime := draw.time_us.toNat_lt
  unfold Draw.timestamp_ms
  omega

theorem rebuilt_binding_of_parse [LawfulCrypto]
    (hdigest : ∀ data, (Crypto.sha256 data).length = 32) {self : MeshNode}
    (hnickname : (encode self.nickname).length ≤ 255) {draw : Draw} {payload : Bytes}
    {announcement : NoiseIdentityAnnouncement}
    (hpayload : identity_payload self draw.timestamp_ms = .ok payload)
    (hparse : parse_noise_identity_announcement_binary payload = .ok (some announcement)) :
    rebuilt_binding announcement = some (binding_data self (1000 * draw.timestamp_ms)) := by
  obtain ⟨payload', announcement', hpayload', hparse', hrebuilt⟩ :=
    rebuilt_of_identity_payload hdigest self hnickname (thousandfold_lt draw)
  cases hpayload.symm.trans hpayload'
  cases hparse.symm.trans hparse'
  exact hrebuilt

/-- The receiver can rebuild the signed bytes only in the first millisecond of
the clock. -/
theorem the_signed_identity_is_rebuilt_iff [LawfulCrypto]
    (hdigest : ∀ data, (Crypto.sha256 data).length = 32) (self : MeshNode)
    (hnickname : (encode self.nickname).length ≤ 255) (draw : Draw) :
    (∃ payload announcement, identity_payload self draw.timestamp_ms = .ok payload ∧
      parse_noise_identity_announcement_binary payload = .ok (some announcement) ∧
      rebuilt_binding announcement = some (binding_data self draw.timestamp_ms)) ↔
      draw.timestamp_ms = 0 := by
  constructor
  · rintro ⟨payload, announcement, hpayload, hparse, hrebuilt⟩
    have hread := rebuilt_binding_of_parse hdigest hnickname hpayload hparse
    have hsame := binding_data_injective (Option.some.inj (hread.symm.trans hrebuilt))
    omega
  · intro hzero
    obtain ⟨payload, announcement, hpayload, hparse, hrebuilt⟩ :=
      rebuilt_of_identity_payload hdigest self hnickname (thousandfold_lt draw)
    refine ⟨payload, announcement, hpayload, hparse, ?_⟩
    rw [hrebuilt, hzero]

end daemon

namespace daemon.standIn

open python bitchat bitchat.protocol bitchat.encryption

section

attribute [local instance] bitchat.standIn.packages

def announcer : MeshNode := node ⟨[1, 2, 3, 4, 5, 6, 7, 8], PeerId.length_counted⟩ 1

theorem length_digest (data : Bytes) : (Crypto.sha256 data).length = 32 := by
  change (bitchat.standIn.checksum data ++ bitchat.standIn.checksum (0 :: data)).length = 32
  simp [bitchat.standIn.length_checksum]

/-- In the first millisecond the signed bytes are rebuilt. -/
theorem the_first_identity_is_rebuilt :
    ∃ payload announcement, identity_payload announcer 0 = .ok payload ∧
      parse_noise_identity_announcement_binary payload = .ok (some announcement) ∧
      rebuilt_binding announcement = some (binding_data announcer 0) :=
  haveI := bitchat.standIn.lawfulCrypto
  (the_signed_identity_is_rebuilt_iff length_digest announcer (by decide)
    (bitchat.standIn.draw 0)).2 (by decide)

/-- A second later they are not. -/
theorem a_later_identity_is_not_rebuilt :
    (encode announcer.nickname).length ≤ 255 ∧ (bitchat.standIn.draw 1).timestamp_ms = 1000 ∧
    ¬ ∃ payload announcement, identity_payload announcer 1000 = .ok payload ∧
      parse_noise_identity_announcement_binary payload = .ok (some announcement) ∧
      rebuilt_binding announcement = some (binding_data announcer 1000) := by
  have := bitchat.standIn.lawfulCrypto
  have htime : (bitchat.standIn.draw 1).timestamp_ms = 1000 := by decide
  refine ⟨by decide, htime, ?_⟩
  rintro ⟨payload, announcement, hpayload, hparse, hrebuilt⟩
  rw [← htime] at hpayload
  have hread := rebuilt_binding_of_parse length_digest (by decide) hpayload hparse
  rw [htime] at hread
  have hsame := binding_data_injective (Option.some.inj (hread.symm.trans hrebuilt))
  omega

end

end daemon.standIn
