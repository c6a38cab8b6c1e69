-- What the commands and announcements of `bitchat.py` do to the tables of
-- channels, and what leaves those tables alone.
import BitchatNode.Client.Commands

namespace client

open python bitchat bitchat.protocol bitchat.encryption
open daemon (with_ttl)

variable [ClientPackages]

/-! ## The text of an announcement -/

/-- What `hashlib` documents: a SHA-256 digest has 32 bytes. -/
class LawfulDigest [Crypto] : Prop where
  length_sha256 (data : Bytes) : (Crypto.sha256 data).length = 32

theorem commitment_ne_nil [LawfulDigest] (key : Bytes) : commitment key ≠ [] := by
  intro h
  have hlength := congrArg List.length h
  rw [commitment, length_hex, LawfulDigest.length_sha256] at hlength
  cases hlength

omit [ClientPackages] in
theorem bar_notMem_hex (data : Bytes) : '|' ∉ hex data := by
  intro h
  obtain ⟨n, hn, hc⟩ := mem_hex h
  revert n
  decide

theorem bar_notMem_commitment (key : Bytes) : '|' ∉ (some (commitment key)).getD [] :=
  bar_notMem_hex _

omit [ClientPackages] in
/-- The four fields of an announcement. -/
theorem splitOn_announcement_text (my_peer_id : PeerId) {channel : Str} (is_protected : Bool)
    {key_commitment : Option Str} (hchannel : '|' ∉ channel)
    (hcommitment : '|' ∉ key_commitment.getD []) :
    (announcement_text my_peer_id channel is_protected key_commitment).splitOn '|' =
      [channel, [if is_protected then '1' else '0'], my_peer_id.str, key_commitment.getD []] := by
  have hjoined : announcement_text my_peer_id channel is_protected key_commitment =
      ['|'].intercalate
        [channel, [if is_protected then '1' else '0'], my_peer_id.str, key_commitment.getD []] := by
    unfold announcement_text
    cases is_protected <;> simp [List.intercalate]
  rw [hjoined]
  apply List.splitOn_intercalate
  · intro part hpart
    simp only [List.mem_cons, List.not_mem_nil, or_false] at hpart
    rcases hpart with rfl | rfl | rfl | rfl
    · exact hchannel
    · cases is_protected <;> decide
    · exact bar_notMem_hex _
    · exact hcommitment
  · exact List.cons_ne_nil _ _

theorem bar_notMem_of_valid {channel : Str} (h : valid_channel_name channel = true) :
    '|' ∉ channel := by
  unfold valid_channel_name at h
  simp only [Bool.and_eq_true, decide_eq_true_eq, List.all_eq_true, Bool.or_eq_true] at h
  obtain ⟨⟨hhead, -⟩, hrest⟩ := h
  cases channel with
  | nil => cases hhead
  | cons c rest =>
    cases hhead
    intro hbar
    rcases List.mem_cons.mp hbar with hbar | hbar
    · cases hbar
    · have halnum : ClientPackages.isalnum '|' = false := by
        rw [ClientPackages.isalnum_ascii '|' (by decide)]
        decide
      have := hrest '|' hbar
      rw [halnum] at this
      simp at this

/-! ## Tables after a change -/

namespace BitchatClient

variable (channel password : Str) (draw : Draw) (s : BitchatClient)

@[simp] theorem channel_keys_remember_password :
    (s.remember_password channel password draw).channel_keys = s.channel_keys := by
  unfold remember_password
  split <;> rfl

@[simp] theorem channel_creators_remember_password :
    (s.remember_password channel password draw).channel_creators = s.channel_creators := by
  unfold remember_password
  split <;> rfl

@[simp] theorem password_protected_channels_remember_password :
    (s.remember_password channel password draw).password_protected_channels =
      s.password_protected_channels := by
  unfold remember_password
  split <;> rfl

@[simp] theorem channel_key_commitments_remember_password :
    (s.remember_password channel password draw).channel_key_commitments =
      s.channel_key_commitments := by
  unfold remember_password
  split <;> rfl

@[simp] theorem my_peer_id_remember_password :
    (s.remember_password channel password draw).my_peer_id = s.my_peer_id := by
  unfold remember_password
  split <;> rfl

@[simp] theorem chat_context_remember_password :
    (s.remember_password channel password draw).chat_context = s.chat_context := by
  unfold remember_password
  split <;> rfl

@[simp] theorem channel_keys_password_changed :
    (s.password_changed channel password draw).channel_keys =
      s.channel_keys.set channel (EncryptionService.derive_channel_key password channel) := by
  simp [password_changed]

@[simp] theorem password_protected_channels_password_changed :
    (s.password_changed channel password draw).password_protected_channels =
      insert channel s.password_protected_channels := by
  simp [password_changed]

@[simp] theorem channel_key_commitments_password_changed :
    (s.password_changed channel password draw).channel_key_commitments =
      s.channel_key_commitments.set channel
        (commitment (EncryptionService.derive_channel_key password channel)) := rfl

end BitchatClient

/-! ## What a packet announces -/

/-- The channel and the creator that an announcement names. -/
def named_creator (text : Str) : Option (Str × Str) :=
  match text.splitOn '|' with
  | channel :: _ :: creator_id :: _ => if creator_id ≠ [] then some (channel, creator_id) else none
  | _ => none

def announced_creator (raw : Bytes) : Option (Str × Str) :=
  match parse_bitchat_packet raw with
  | .ok packet =>
    if packet.msg_type = .CHANNEL_ANNOUNCE then named_creator (decodeIgnore packet.payload)
    else none
  | .error _ => none

def carries_announcement (raw : Bytes) : Bool :=
  match parse_bitchat_packet raw with
  | .ok packet => packet.msg_type = .CHANNEL_ANNOUNCE
  | .error _ => false

/-- Only announcements announce, whatever their TTL. -/
theorem announced_creator_of_created {my_peer_id : PeerId} {msg_type : MessageType}
    {payload packet : Bytes} {draw : Draw}
    (h : create_bitchat_packet my_peer_id.str msg_type payload draw = .ok packet) (ttl : UInt8) :
    announced_creator (with_ttl packet ttl) =
      if msg_type = .CHANNEL_ANNOUNCE then named_creator (decodeIgnore payload) else none := by
  by_cases hp : payload.length < 65536
  · obtain ⟨raw, hraw, his⟩ := create_ok my_peer_id none msg_type payload none draw hp
    obtain rfl : raw = packet := Except.ok.inj (hraw.symm.trans h)
    unfold announced_creator with_ttl
    rw [his.parse ttl]
    rfl
  · cases (create_too_long my_peer_id.str none msg_type payload none draw hp).symm.trans h

theorem carries_announcement_of_created {my_peer_id : PeerId} {msg_type : MessageType}
    {payload packet : Bytes} {draw : Draw} (hother : msg_type ≠ .CHANNEL_ANNOUNCE)
    (h : create_bitchat_packet my_peer_id.str msg_type payload draw = .ok packet) :
    carries_announcement packet = false ∧
      ∀ ttl, carries_announcement (with_ttl packet ttl) = false := by
  by_cases hp : payload.length < 65536
  · obtain ⟨raw, hraw, his⟩ := create_ok my_peer_id none msg_type payload none draw hp
    obtain rfl : raw = packet := Except.ok.inj (hraw.symm.trans h)
    unfold carries_announcement with_ttl
    constructor
    · rw [his.parse_raw]
      exact decide_eq_false hother
    · intro ttl
      rw [his.parse ttl]
      exact decide_eq_false hother
  · cases (create_too_long my_peer_id.str none msg_type payload none draw hp).symm.trans h

/-! ## Calls that leave the channels alone -/

/-- The four tables of channels, under the client's own id. -/
structure SameChannels (w w' : World) : Prop where
  my_peer_id : w'.state.my_peer_id = w.state.my_peer_id
  channel_keys : w'.state.channel_keys = w.state.channel_keys
  channel_creators : w'.state.channel_creators = w.state.channel_creators
  password_protected_channels :
    w'.state.password_protected_channels = w.state.password_protected_channels
  channel_key_commitments : w'.state.channel_key_commitments = w.state.channel_key_commitments

instance : IsPreorder World SameChannels where
  refl _ := ⟨rfl, rfl, rfl, rfl, rfl⟩
  trans _ _ _ h h' := ⟨h'.1.trans h.1, h'.2.trans h.2, h'.3.trans h.3, h'.4.trans h.4,
    h'.5.trans h.5⟩

/-- No channel on the screen has a bar in its name. -/
structure Clean (context : ChatContext) : Prop where
  active : ∀ channel ∈ context.active_channels, '|' ∉ channel
  current : ∀ channel, context.current_mode = .Channel channel → '|' ∉ channel

/-- The tables stay, and each announcement that is sent names a creator as
in `P`. -/
structure Told (P : Option (Str × Str) → Prop) (w w' : World) : Prop where
  same : SameChannels w w'
  clean : Clean w.state.chat_context → Clean w'.state.chat_context
  said : ∀ raw ∈ writes w'.out, carries_announcement raw = true →
    raw ∈ writes w.out ∨ P (announced_creator raw)

variable {P : Option (Str × Str) → Prop}

instance : IsPreorder World (Told P) where
  refl w := ⟨refl_of SameChannels w, id, fun _ h _ => Or.inl h⟩
  trans _ _ _ h h' := by
    refine ⟨trans_of SameChannels h.same h'.same, fun hc => h'.clean (h.clean hc), ?_⟩
    intro raw hraw hcarries
    rcases h'.said raw hraw hcarries with hbefore | hnew
    · exact h.said raw hbefore hcarries
    · exact Or.inr hnew

theorem moves_modifyClient {R : World → World → Prop} {f : BitchatClient → BitchatClient}
    (h : ∀ w : World, R w { w with state := f w.state }) : Moves R (modifyClient f) := h

/-- What follows a look at the client may rely on it. -/
theorem moves_getClient {R : World → World → Prop} {α : Type} {f : BitchatClient → Client α}
    (h : ∀ w, R w (exec (f w.state) w).2) : Moves R (getClient >>= f) := by
  intro w
  rw [exec_bind, exec_getClient]
  exact h w

theorem told_write {data : Bytes}
    (h : carries_announcement data = true → P (announced_creator data)) :
    Moves (Told P) (emit (.write data)) := by
  intro w
  refine ⟨⟨rfl, rfl, rfl, rfl, rfl⟩, id, ?_⟩
  intro raw hraw hcarries
  rw [exec_emit] at hraw
  simp only [writes, List.filterMap_append, List.filterMap_cons, List.filterMap_nil,
    List.mem_append, List.mem_singleton] at hraw
  rcases hraw with hbefore | rfl
  · exact Or.inl hbefore
  · exact Or.inr (h hcarries)

theorem told_handle_disconnect : Moves (Told P) handle_disconnect := by
  intro w
  refine ⟨⟨rfl, rfl, rfl, rfl, rfl⟩, ?_, fun _ h _ => Or.inl h⟩
  intro hclean
  unfold handle_disconnect
  rw [exec_modifyClient]
  dsimp only
  split
  · exact ⟨hclean.active, fun _ h => by cases h⟩
  · exact ⟨hclean.active, hclean.current⟩

/-- A fragment is no announcement. -/
theorem fragment_announces_nothing {my_peer_id : PeerId} {fragment_id chunk packet : Bytes}
    {index total : Nat} {draw : Draw}
    (h : fragment_packet my_peer_id.str fragment_id index total chunk draw = .ok packet) :
    carries_announcement packet = false := by
  unfold fragment_packet at h
  obtain ⟨index_bytes, -, h⟩ := bind_eq_ok_iff.mp h
  obtain ⟨total_bytes, -, h⟩ := bind_eq_ok_iff.mp h
  refine (carries_announcement_of_created ?_ h).1
  unfold daemon.fragment_type
  split_ifs <;> simp

theorem told_send_fragments (env : Env) (fragment_id : Bytes) (total : Nat) :
    ∀ (chunks : List Bytes) (index : Nat),
      Moves (Told P) (send_fragments env fragment_id total index chunks)
  | [], _ => Moves.pure ()
  | chunk :: rest, index => by
    unfold send_fragments
    apply moves_getClient
    intro w
    refine Moves.outcome_bind ?_ w
    intro packet hpacket
    cases env.write index with
    | done =>
      have hnone := fragment_announces_nothing hpacket
      exact (told_write fun h => by cases hnone.symm.trans h).bind fun _ =>
        told_send_fragments env fragment_id total rest (index + 1)
    | dropped => exact Moves.throw _
    | disconnected => exact told_handle_disconnect
    | raised e => exact Moves.throw e

/-- Sending writes on the connection, or finds it gone. -/
theorem told_send_packet (env : Env) {packet : Bytes}
    (h : carries_announcement packet = true → P (announced_creator packet)) :
    Moves (Told P) (send_packet env packet) := by
  unfold send_packet
  apply moves_getClient
  intro w
  cases w.state.connection with
  | none => exact refl_of (Told P) w
  | lost => exact told_handle_disconnect w
  | up =>
    dsimp only
    split
    · exact told_send_fragments _ _ _ _ _ w
    · cases env.write 0 with
      | done => exact told_write h w
      | dropped => exact refl_of (Told P) w
      | disconnected => exact told_handle_disconnect w
      | raised e => exact refl_of (Told P) w

theorem told_save_app_state : Moves (Told P) save_app_state := by
  intro w
  refine ⟨⟨rfl, rfl, rfl, rfl, rfl⟩, id, ?_⟩
  intro raw hraw _
  have hsame : writes (exec save_app_state w).2.out = writes w.out := by
    simp [save_app_state, writes]
  rw [hsame] at hraw
  exact Or.inl hraw

theorem told_send_channel_announce (env : Env) (channel : Str) (is_protected : Bool)
    (key_commitment : Option Str) (w : World)
    (h : P (named_creator (announcement_text w.state.my_peer_id channel is_protected
      key_commitment))) :
    Told P w (exec (send_channel_announce env channel is_protected key_commitment) w).2 := by
  unfold send_channel_announce
  rw [exec_bind, exec_getClient]
  refine Moves.outcome_bind ?_ w
  intro packet hpacket
  apply told_send_packet
  intro _
  rw [announced_creator_of_created hpacket, if_pos rfl, decodeIgnore_encode]
  exact h

theorem told_send_channel_notice (env : Env) (content channel : Str) (key : Bytes) :
    Moves (Told P) (send_channel_notice env content channel key) := by
  unfold send_channel_notice
  apply moves_getClient
  intro w
  apply Moves.bind_from (Moves.outcome _ w)
  intro payload
  apply Moves.outcome_bind
  intro packet hpacket
  have hnone := (carries_announcement_of_created (by decide) hpacket).1
  exact told_send_packet _ fun h => by cases hnone.symm.trans h

theorem told_announce_joined (env : Env) (channel_name : Str) (key : Bytes) (w : World)
    (h : w.state.channel_creators.has channel_name = true →
      P (named_creator (announcement_text w.state.my_peer_id channel_name true
        (some (commitment key))))) :
    Told P w (exec (announce_joined env channel_name key) w).2 := by
  unfold announce_joined
  rw [exec_bind, exec_getClient]
  dsimp only
  split
  · rename_i hhas
    exact told_send_channel_announce _ _ _ _ w (h hhas)
  · exact refl_of (Told P) w

theorem told_save_password (channel password : Str) (draw : Draw) :
    Moves (Told P) (save_password channel password draw) := by
  have hremember : Moves (Told P)
      (modifyClient (·.remember_password channel password draw)) := by
    intro w
    rw [exec_modifyClient]
    refine ⟨⟨?_, ?_, ?_, ?_, ?_⟩, ?_, fun _ h _ => Or.inl h⟩ <;> simp
  unfold save_password
  apply moves_getClient
  intro w
  split
  · exact hremember.bind (fun _ => told_save_app_state) w
  · exact refl_of (Told P) w

theorem told_notify_change (env : Env) (channel : Str) (old_key : Bytes) :
    Moves (Told P) (notify_change env channel old_key) := by
  unfold notify_change
  split
  · exact (told_send_channel_notice _ _ _ _).suppress
  · exact Moves.pure ()

theorem sameChannels_send_packet (env : Env) (packet : Bytes) :
    Moves SameChannels (send_packet env packet) :=
  fun w => (told_send_packet (P := fun _ => True) env (fun _ => trivial) w).same

theorem sameChannels_save_app_state : Moves SameChannels save_app_state :=
  fun w => (told_save_app_state (P := fun _ => True) w).same

theorem sameChannels_send_channel_announce (env : Env) (channel : Str) (is_protected : Bool)
    (key_commitment : Option Str) :
    Moves SameChannels (send_channel_announce env channel is_protected key_commitment) :=
  fun w => (told_send_channel_announce (P := fun _ => True) env _ _ _ w trivial).same

theorem sameChannels_send_channel_notice (env : Env) (content channel : Str) (key : Bytes) :
    Moves SameChannels (send_channel_notice env content channel key) :=
  fun w => (told_send_channel_notice (P := fun _ => True) env content channel key w).same

theorem sameChannels_announce_joined (env : Env) (channel_name : Str) (key : Bytes) :
    Moves SameChannels (announce_joined env channel_name key) :=
  fun w => (told_announce_joined (P := fun _ => True) env _ _ w fun _ => trivial).same

theorem sameChannels_save_password (channel password : Str) (draw : Draw) :
    Moves SameChannels (save_password channel password draw) :=
  fun w => (told_save_password (P := fun _ => True) channel password draw w).same

theorem sameChannels_notify_change (env : Env) (channel : Str) (old_key : Bytes) :
    Moves SameChannels (notify_change env channel old_key) :=
  fun w => (told_notify_change (P := fun _ => True) env channel old_key w).same

theorem sameChannels_enter_channel (channel_name : Str) :
    Moves SameChannels (modifyClient (·.enter_channel channel_name)) :=
  fun _ => ⟨rfl, rfl, rfl, rfl, rfl⟩

theorem sameChannels_switch_to_number (num : Int) : Moves SameChannels (switch_to_number num) := by
  unfold switch_to_number
  apply moves_getClient
  intro w
  apply Moves.bind_from (Moves.outcome _ w)
  rintro ⟨found, chat_context⟩ w'
  exact ⟨rfl, rfl, rfl, rfl, rfl⟩

end client
