-- What goes on the wire when a node sends to a channel. The node encrypts if
-- it has a key for the channel; whether the channel is protected it does not ask.
import BitchatNode.Sending
import BitchatNode.MessageCodec
import BitchatNode.Runs

namespace daemon

open python bitchat bitchat.protocol bitchat.encryption

variable [Packages]

/-! ## What a call writes -/

/-- The addresses that take a frame. -/
def takers (env : Env) (n : MeshNode) : List Str :=
  (n.connections.entries.filter fun e => !env.write_fails e.2.address).map fun e => e.2.address

/-- A payload that fits a packet and a frame goes to every taker in a MESSAGE
of the node. -/
theorem writes_send_public_message {env : Env} {content : Str} {channel : Option Str} {w : World}
    {payload : Bytes} {msg_id : Str}
    (hpayload : public_payload w.node content channel env = .ok (payload, msg_id)) :
    ∃ raw, new_writes w (exec (send_public_message env content channel) w).2 =
        (if 30 + payload.length ≤ 65535 then
          (takers env w.node).map fun address => (address, framed raw) else []) ∧
      (30 + payload.length ≤ 65535 →
        IsPacket raw w.node.my_peer_id none .MESSAGE payload none) := by
  unfold send_public_message
  simp only [exec_bind, exec_node, hpayload, exec_outcome_ok, exec_modifyNode]
  by_cases hlen : payload.length < 65536
  · obtain ⟨raw, hraw, his⟩ :=
      create_ok w.node.my_peer_id none .MESSAGE payload none (env.draw 3) hlen
    have hcreate : create_bitchat_packet w.node.my_peer_id.str .MESSAGE payload (env.draw 3) =
        .ok raw := hraw
    have hfits : raw.length ≤ 65535 ↔ 30 + payload.length ≤ 65535 := his.fits
    refine ⟨raw, ?_, fun _ => his⟩
    simp only [hcreate, exec_outcome_ok]
    generalize hw₁ : World.mk _ _ = w₁
    have hwrites := writes_raw_send env raw w₁
    rcases hsend : exec (raw_send env raw) w₁ with ⟨result, w'⟩
    rw [hsend] at hwrites
    have hnew : new_writes w w' = if 30 + payload.length ≤ 65535 then
        (takers env w.node).map fun address => (address, framed raw) else [] := by
      apply new_writes_eq
      rw [hwrites]
      simp only [hfits, takers, List.map_map, ← hw₁]
      rfl
    cases result with
    | ok _ => exact hnew
    | error e => exact hnew
  · have hcreate : create_bitchat_packet w.node.my_peer_id.str .MESSAGE payload (env.draw 3) =
        .error .StructError := create_too_long _ _ _ _ _ _ hlen
    have hlong : ¬ 30 + payload.length ≤ 65535 := by omega
    refine ⟨[], ?_, fun h => absurd h hlong⟩
    rw [if_neg hlong]
    simp only [hcreate, exec_outcome_error]
    exact List.drop_length

/-- A payload that cannot be built goes nowhere. -/
theorem writes_send_public_message_error {env : Env} {content : Str} {channel : Option Str}
    {w : World} {e : PyError} (hpayload : public_payload w.node content channel env = .error e) :
    new_writes w (exec (send_public_message env content channel) w).2 = [] := by
  unfold send_public_message
  simp only [exec_bind, exec_node, hpayload, exec_outcome_error]
  exact List.drop_length

/-! ## Sealed messages -/

/-- The message in the packet is flagged as encrypted, and its content field is
what `encrypt_for_channel` makes of the content under the key of the channel. -/
def Sealed (n : MeshNode) (content channel : Str) (packet : BitchatPacket) : Prop :=
  ∃ message key nonce, parse_bitchat_message_payload packet.payload = .ok message ∧
    message.is_encrypted = true ∧ n.channel_keys.get? channel = some key ∧ nonce.length = 12 ∧
    message.encrypted_content = some (EncryptionService.encrypt_for_channel content key nonce) ∧
    message.encrypted_content ≠ some (encode content)

/-- Every MESSAGE packet that the send puts on the wire is sealed. -/
def KeepsSecret (env : Env) (content channel : Str) (w : World) : Prop :=
  ∀ f ∈ new_writes w (exec (send_public_message env content (some channel)) w).2, ∀ packet,
    parse_bitchat_packet (f.2.drop 2) = .ok packet → packet.msg_type = .MESSAGE →
      Sealed w.node content channel packet

/-- The node has a key for the channel. -/
def HasKey (n : MeshNode) (channel : Str) : Prop := channel ≠ [] ∧ n.channel_keys.has channel = true

/-- The plain message gets out: its fields fit, it fits a frame, and some
connection takes it. -/
structure GetsOut (env : Env) (content channel : Str) (n : MeshNode) : Prop where
  nickname_fits : (encode n.nickname).length ≤ 255
  channel_fits : (encode channel).length ≤ 255
  size : 96 + (encode n.nickname).length + (encode content).length +
    (optional_field channel).length ≤ 65535
  taken : takers env n ≠ []

theorem public_payload_keyed {n : MeshNode} {channel : Str} {key : Bytes} (content : Str)
    (env : Env) (hne : channel ≠ []) (hkey : n.channel_keys.get? channel = some key) :
    public_payload n content (some channel) env =
      create_bitchat_message_payload_full n.nickname content (some channel) false n.my_peer_id.str
        true (some (EncryptionService.encrypt_for_channel content key
          ((env.draw 0).entropy.urandom 12))) (env.draw 1) := by
  unfold public_payload
  simp [Option.filter, hne, hkey]

theorem public_payload_plain {n : MeshNode} {channel : Str} (content : Str) (env : Env)
    (h : ¬ HasKey n channel) :
    public_payload n content (some channel) env =
      create_bitchat_message_payload_full n.nickname content (some channel) false n.my_peer_id.str
        false none (env.draw 1) := by
  unfold public_payload
  have hnone : ((some channel).filter (· ≠ [])).bind n.channel_keys.get? = none := by
    by_cases hne : channel = []
    · simp [Option.filter, hne]
    · have hhas : n.channel_keys.has channel = false := by
        by_contra hhas
        exact h ⟨hne, by simpa using hhas⟩
      rw [Dict.has_eq_false_iff] at hhas
      simp [Option.filter, hne, hhas]
  rw [hnone]

/-- The sealed content is longer than the content. -/
theorem encrypt_for_channel_ne [LawfulCrypto] (content : Str) (key nonce : Bytes) :
    EncryptionService.encrypt_for_channel content key nonce ≠ encode content := by
  intro h
  have hlength := congrArg List.length h
  unfold EncryptionService.encrypt_for_channel at hlength
  rw [List.length_append, LawfulCrypto.length_chacha_encrypt] at hlength
  omega

/-- The packet in a frame that the send wrote carries the payload that was
built. -/
theorem payload_of_written {env : Env} {content : Str} {channel : Option Str} {w : World}
    {payload : Bytes} {msg_id : Str} {f : Str × Bytes} {packet : BitchatPacket}
    (hpayload : public_payload w.node content channel env = .ok (payload, msg_id))
    (hf : f ∈ new_writes w (exec (send_public_message env content channel) w).2)
    (hpacket : parse_bitchat_packet (f.2.drop 2) = .ok packet) : packet.payload = payload := by
  obtain ⟨raw, hnew, his⟩ := writes_send_public_message hpayload
  rw [hnew] at hf
  split at hf
  · rename_i hsize
    obtain ⟨address, -, rfl⟩ := List.mem_map.mp hf
    have hdrop : (framed raw).drop 2 = raw := rfl
    rw [hdrop, (his hsize).parse_raw, Except.ok.injEq] at hpacket
    rw [← hpacket]
    rfl
  · exact absurd hf List.not_mem_nil

theorem keepsSecret_of_key [LawfulCrypto] {env : Env} {content channel : Str} {w : World}
    (h : HasKey w.node channel) : KeepsSecret env content channel w := by
  obtain ⟨hne, hhas⟩ := h
  obtain ⟨key, hkey⟩ := Option.isSome_iff_exists.mp hhas
  have hpayload := public_payload_keyed content env hne hkey
  generalize hsealed : EncryptionService.encrypt_for_channel content key
    ((env.draw 0).entropy.urandom 12) = content_field at hpayload
  have hlong : content_field ≠ encode content := by
    rw [← hsealed]
    exact encrypt_for_channel_ne content key _
  have hfield : payload_bytes content true (some content_field) = content_field := by
    have hnil : content_field ≠ [] := by
      intro hnil
      have hlength := congrArg List.length (hsealed.trans hnil)
      simp [EncryptionService.encrypt_for_channel, LawfulCrypto.length_chacha_encrypt] at hlength
    unfold payload_bytes
    rw [if_pos ⟨rfl, hnil⟩]
    rfl
  by_cases hfits : PayloadFits w.node.nickname (payload_bytes content true (some content_field))
    w.node.my_peer_id.str ((some channel).getD [])
  · obtain ⟨payload, hcreate, hparse⟩ := payload_comes_back (some channel) false (env.draw 1) hfits
    rw [hfield] at hparse
    intro f hf packet hpacket _
    rw [← payload_of_written (hpayload.trans hcreate) hf hpacket] at hparse
    refine ⟨_, key, _, hparse, rfl, hkey, (env.draw 0).entropy.length_urandom 12, ?_, ?_⟩
    · rw [hsealed]
      rfl
    · intro h
      exact hlong (Option.some.inj h)
  · obtain ⟨e, he⟩ := create_payload_error (some channel) false (env.draw 1) hfits
    intro f hf
    rw [writes_send_public_message_error (hpayload.trans he)] at hf
    exact absurd hf List.not_mem_nil

theorem keepsSecret_plain_iff {env : Env} {content channel : Str} {w : World}
    (h : ¬ HasKey w.node channel) :
    KeepsSecret env content channel w ↔ ¬ GetsOut env content channel w.node := by
  have hpayload := public_payload_plain content env h
  by_cases hfits : PayloadFits w.node.nickname (payload_bytes content false none)
    w.node.my_peer_id.str ((some channel).getD [])
  · obtain ⟨payload, hcreate, hparse⟩ := payload_comes_back (some channel) false (env.draw 1) hfits
    obtain ⟨raw, hnew, his⟩ := writes_send_public_message (hpayload.trans hcreate)
    have hlength : 30 + payload.length = 96 + (encode w.node.nickname).length +
        (encode content).length + (optional_field channel).length := by
      rw [create_payload_ok (some channel) false (env.draw 1) hfits, Except.ok.injEq] at hcreate
      have hpay : payload.length = 66 + (encode w.node.nickname).length +
          (encode content).length + (optional_field channel).length := by
        obtain ⟨rfl, -⟩ := Prod.mk.inj hcreate
        exact length_plain_payload w.node.nickname content channel w.node.my_peer_id (env.draw 1) _
      omega
    constructor
    · intro hsecret hout
      have hsize : 30 + payload.length ≤ 65535 := hlength.trans_le hout.size
      obtain ⟨address, haddress⟩ := List.exists_mem_of_ne_nil _ hout.taken
      rw [if_pos hsize] at hnew
      have hf : (address, framed raw) ∈
          new_writes w (exec (send_public_message env content (some channel)) w).2 := by
        rw [hnew]
        exact List.mem_map_of_mem haddress
      obtain ⟨message, -, -, hmessage, hencrypted, -⟩ :=
        hsecret _ hf _ (his hsize).parse_raw rfl
      have hpay : (received w.node.my_peer_id none .MESSAGE payload 7).payload = payload := rfl
      rw [hpay, hparse, Except.ok.injEq] at hmessage
      rw [← hmessage] at hencrypted
      exact absurd hencrypted Bool.false_ne_true
    · intro hout f hf
      rw [hnew] at hf
      split at hf
      · rename_i hsize
        obtain ⟨address, haddress, -⟩ := List.mem_map.mp hf
        have htaken : takers env w.node ≠ [] := List.ne_nil_of_mem haddress
        exact absurd ⟨hfits.sender, hfits.channel, hlength.symm.trans_le hsize, htaken⟩ hout
      · exact absurd hf List.not_mem_nil
  · obtain ⟨e, he⟩ := create_payload_error (some channel) false (env.draw 1) hfits
    constructor
    · intro _ hout
      refine hfits ⟨hout.nickname_fits, ?_, peer_id_fits _, hout.channel_fits⟩
      have hsize := hout.size
      show (encode content).length ≤ 65535
      omega
    · intro _ f hf
      rw [writes_send_public_message_error (hpayload.trans he)] at hf
      exact absurd hf List.not_mem_nil

/-- In every state of every run, what the node sends to a protected channel is
sealed exactly if the node has a key for the channel or nothing gets out. -/
theorem a_protected_channel_is_sealed_iff_there_is_a_key [LawfulCrypto] (env : Env)
    (content channel : Str) (w : World) :
    Reachable w → channel ∈ w.node.password_protected_channels →
      (KeepsSecret env content channel w ↔
        HasKey w.node channel ∨ ¬ GetsOut env content channel w.node) := by
  intro _ _
  by_cases hkey : HasKey w.node channel
  · exact iff_of_true (keepsSecret_of_key hkey) (Or.inl hkey)
  · rw [keepsSecret_plain_iff hkey]
    simp only [hkey, false_or]

end daemon

/-! ## On the stand-in -/

namespace daemon.standIn

open python bitchat bitchat.protocol

attribute [local instance] bitchat.standIn.packages

/-- A peer announces the channel `#x` as protected. -/
def announcement : Bytes :=
  layout .CHANNEL_ANNOUNCE 5 0 FLAG_HAS_RECIPIENT [8, 7, 6, 5, 4, 3, 2, 1] BROADCAST_RECIPIENT
    [35, 120, 124, 49, 124, 98, 124] []

/-- A node with one connection that has heard the announcement. -/
def warned : World :=
  (exec (react (env 1) (.packet ⟨['b'], 1, false⟩ announcement))
    (exec (react (env 1) (.connected ⟨['b'], 1, false⟩))
      ⟨node ⟨[1, 2, 3, 4, 5, 6, 7, 8], PeerId.length_counted⟩ 1, []⟩).2).2

theorem reachable_warned : Reachable warned :=
  .step (.step (.start _ (some ['n']) (.init [1]) (bitchat.standIn.key 1)) (env 1) (.connected _)
    trivial) (env 1) (.packet _ announcement) trivial

end daemon.standIn

namespace daemon

open python bitchat bitchat.protocol

attribute [local instance] bitchat.standIn.packages

/-- The channel is protected, and the node has no key for it. -/
theorem a_protected_channel_is_sealed_on_the_stand_in :
    KeepsSecret (standIn.env 1) ['h', 'i'] ['#', 'x'] standIn.warned ↔
      HasKey standIn.warned.node ['#', 'x'] ∨
        ¬ GetsOut (standIn.env 1) ['h', 'i'] ['#', 'x'] standIn.warned.node :=
  haveI := bitchat.standIn.lawfulCrypto
  a_protected_channel_is_sealed_iff_there_is_a_key (standIn.env 1) ['h', 'i'] ['#', 'x']
    standIn.warned standIn.reachable_warned (by decide)

/-- The node sends in plain text to a channel that it knows to be protected. -/
theorem a_protected_channel_carries_plain_text :
    Reachable standIn.warned ∧ ['#', 'x'] ∈ standIn.warned.node.password_protected_channels ∧
      ¬ KeepsSecret (standIn.env 1) ['h', 'i'] ['#', 'x'] standIn.warned := by
  refine ⟨standIn.reachable_warned, by decide, ?_⟩
  have hkey : ¬ HasKey standIn.warned.node ['#', 'x'] := fun h => absurd h.2 (by decide)
  rw [keepsSecret_plain_iff hkey, not_not]
  exact ⟨by decide, by decide, by decide, by decide⟩

end daemon
