-- Key and commitment of a channel. They agree until an announcement replaces
-- the commitment under a key that the client holds: `/j` then keeps the key,
-- whatever password it is given.
import BitchatNode.Client.Channels
import BitchatNode.Systems

namespace client.Commitments

open python bitchat bitchat.protocol bitchat.encryption systems

variable [ClientPackages]

/-! ## Runs of one client -/

inductive Op
  | announcement (packet : BitchatPacket)
  | command (c : Command)

def perform (env : Env) : Op → Client Unit
  | .announcement packet => handle_channel_announce packet
  | .command c => run_command env c

/-- A client that knows no channel yet. -/
def NoChannels (w : World) : Prop :=
  w.state.channel_keys = .empty ∧ w.state.channel_creators = .empty ∧
    w.state.password_protected_channels = ∅ ∧ w.state.channel_key_commitments = .empty

/-- One client, and what it does about announcements and commands. -/
def system : System World (Env × Op) where
  start := NoChannels
  step w e := some (exec (perform e.1 e.2) w).2

/-! ## Agreement -/

/-- Every channel with a key and a commitment has the commitment of the key. -/
def Agree (self : BitchatClient) : Prop :=
  ∀ channel key expected, self.channel_keys.get? channel = some key →
    self.channel_key_commitments.get? channel = some expected → commitment key = expected

/-- A commitment is on file for protected channels only. -/
structure Guarded (s : BitchatClient) : Prop where
  agree : Agree s
  guarded : ∀ channel, s.channel_key_commitments.has channel = true →
    channel ∈ s.password_protected_channels

/-- The channel and the commitment that a packet announces as protected. -/
def announced_commitment (packet : BitchatPacket) : Option (Str × Str) :=
  match (decodeIgnore packet.payload).splitOn '|' with
  | channel :: is_protected :: _ :: key_commitment :: _ =>
    if is_protected = ['1'] ∧ key_commitment ≠ [] then some (channel, key_commitment) else none
  | _ => none

/-- No announcement gives a channel another commitment than that of the key
which the client holds. -/
def Fits (w : World) : Env × Op → Prop
  | (_, .announcement packet) => ∀ channel expected key,
      announced_commitment packet = some (channel, expected) →
        w.state.channel_keys.get? channel = some key → commitment key = expected
  | _ => True

abbrev KeepsGuarded : World → World → Prop := Keeps fun w => Guarded w.state

theorem keepsGuarded_of_same {α : Type} {x : Client α} (h : Moves SameChannels x) :
    Moves KeepsGuarded x := by
  intro w hg
  have hsame := h w
  constructor
  · intro channel key expected hkey hexpected
    rw [hsame.channel_keys] at hkey
    rw [hsame.channel_key_commitments] at hexpected
    exact hg.agree channel key expected hkey hexpected
  · intro channel hhas
    rw [hsame.channel_key_commitments] at hhas
    rw [hsame.password_protected_channels]
    exact hg.guarded channel hhas

/-- A key with its own commitment, or without any. -/
theorem Guarded.set_key {self : BitchatClient} (hg : Guarded self) {channel : Str} {key : Bytes}
    (hkey : ∀ expected, self.channel_key_commitments.get? channel = some expected →
      commitment key = expected) :
    Guarded { self with channel_keys := self.channel_keys.set channel key } := by
  constructor
  · intro channel' key' expected hkey' hexpected
    by_cases hc : channel = channel'
    · subst hc
      simp only [Dict.get?_set_self, Option.some.injEq] at hkey'
      rw [← hkey']
      exact hkey expected hexpected
    · simp only [Dict.get?_set_ne _ _ hc] at hkey'
      exact hg.agree channel' key' expected hkey' hexpected
  · exact hg.guarded

theorem Guarded.pop_key {self : BitchatClient} (hg : Guarded self) (channel : Str) :
    Guarded { self with channel_keys := self.channel_keys.pop channel } := by
  constructor
  · intro channel' key' expected hkey' hexpected
    by_cases hc : channel = channel'
    · subst hc
      simp at hkey'
    · simp only [Dict.get?_pop_ne _ hc] at hkey'
      exact hg.agree channel' key' expected hkey' hexpected
  · exact hg.guarded

theorem Guarded.forget {s : BitchatClient} (hg : Guarded s) (channel : Str) :
    Guarded (s.forget_channel channel) := by
  constructor
  · intro channel' key expected hkey hexpected
    by_cases hc : channel = channel'
    · subst hc
      simp [BitchatClient.forget_channel] at hkey
    · simp only [BitchatClient.forget_channel, Dict.get?_pop_ne _ hc] at hkey hexpected
      exact hg.agree channel' key expected hkey hexpected
  · intro channel' hhas
    by_cases hc : channel = channel'
    · subst hc
      simp [BitchatClient.forget_channel, Dict.has_pop_self] at hhas
    · simp only [BitchatClient.forget_channel, Dict.has_pop_ne _ hc] at hhas
      simp [BitchatClient.forget_channel, hg.guarded channel' hhas, Ne.symm hc]

/-- `/pass` puts the key on file with its commitment. -/
theorem Guarded.change_password {s : BitchatClient} (hg : Guarded s) (channel password : Str)
    (draw : Draw) : Guarded (s.password_changed channel password draw) := by
  constructor
  · intro channel' key expected hkey hexpected
    by_cases hc : channel = channel'
    · subst hc
      simp only [BitchatClient.channel_keys_password_changed,
        BitchatClient.channel_key_commitments_password_changed, Dict.get?_set_self,
        Option.some.injEq] at hkey hexpected
      rw [← hkey, ← hexpected]
    · simp only [BitchatClient.channel_keys_password_changed,
        BitchatClient.channel_key_commitments_password_changed, Dict.get?_set_ne _ _ hc]
        at hkey hexpected
      exact hg.agree channel' key expected hkey hexpected
  · intro channel' hhas
    rw [BitchatClient.channel_key_commitments_password_changed] at hhas
    rw [BitchatClient.password_protected_channels_password_changed, Finset.mem_insert]
    by_cases hc : channel = channel'
    · exact Or.inl hc.symm
    · rw [Dict.has_set_ne _ _ hc] at hhas
      exact Or.inr (hg.guarded channel' hhas)

/-- An announcement that fits keeps key and commitment in agreement. -/
theorem Guarded.announced {s : BitchatClient} (hg : Guarded s) (channel creator_id : Str)
    (is_protected : Bool) (key_commitment : Str)
    (hfits : is_protected = true → key_commitment ≠ [] → ∀ key,
      s.channel_keys.get? channel = some key → commitment key = key_commitment) :
    Guarded (s.channel_announced channel is_protected creator_id key_commitment) := by
  unfold BitchatClient.channel_announced
  cases is_protected with
  | false =>
    constructor
    · intro channel' key expected hkey hexpected
      by_cases hc : channel = channel'
      · subst hc
        simp at hkey
      · simp [Dict.get?_pop_ne _ hc] at hkey hexpected
        exact hg.agree channel' key expected hkey hexpected
    · intro channel' hhas
      by_cases hc : channel = channel'
      · subst hc
        simp [Dict.has_pop_self] at hhas
      · simp [Dict.has_pop_ne _ hc] at hhas
        simp [hg.guarded channel' hhas, Ne.symm hc]
  | true =>
    by_cases hempty : key_commitment = []
    · constructor
      · intro channel' key expected hkey hexpected
        simp [hempty] at hkey hexpected
        exact hg.agree channel' key expected hkey hexpected
      · intro channel' hhas
        simp [hempty] at hhas
        simp [hg.guarded channel' hhas]
    · constructor
      · intro channel' key expected hkey hexpected
        simp only [if_true] at hkey
        simp only [not_true_eq_false, if_false, ne_eq, hempty, not_false_iff, if_true] at hexpected
        by_cases hc : channel = channel'
        · subst hc
          simp only [Dict.get?_set_self, Option.some.injEq] at hexpected
          rw [← hexpected]
          exact hfits rfl hempty key hkey
        · simp only [Dict.get?_set_ne _ _ hc] at hexpected
          exact hg.agree channel' key expected hkey hexpected
      · intro channel' hhas
        simp only [not_true_eq_false, if_false, ne_eq, hempty, not_false_iff, if_true] at hhas
        simp only [if_true, Finset.mem_insert]
        by_cases hc : channel = channel'
        · exact Or.inl hc.symm
        · rw [Dict.has_set_ne _ _ hc] at hhas
          exact Or.inr (hg.guarded channel' hhas)

theorem keepsGuarded_announce (packet : BitchatPacket) (w : World)
    (hfits : ∀ channel expected key, announced_commitment packet = some (channel, expected) →
      w.state.channel_keys.get? channel = some key → commitment key = expected) :
    KeepsGuarded w (exec (handle_channel_announce packet) w).2 := by
  unfold announced_commitment at hfits
  unfold handle_channel_announce
  generalize (decodeIgnore packet.payload).splitOn '|' = parts at hfits
  rcases parts with _ | ⟨channel, _ | ⟨is_protected, _ | ⟨creator_id, rest⟩⟩⟩
  · exact id
  · exact id
  · exact id
  · intro hg
    dsimp only
    rw [exec_bind, exec_modifyClient]
    refine keepsGuarded_of_same sameChannels_save_app_state _ ?_
    apply hg.announced
    intro hprotected hne key hkey
    rcases rest with _ | ⟨expected, rest⟩
    · exact absurd rfl hne
    · exact hfits channel expected key (if_pos ⟨of_decide_eq_true hprotected, hne⟩) hkey

/-- `/j` sets a key that the commitment on file, if there is one, was checked
against. -/
theorem keepsGuarded_join_protected (env : Env) (channel_name password : Str) :
    Moves KeepsGuarded (join_protected env channel_name password) := by
  unfold join_protected
  apply moves_getClient
  intro w
  split_ifs with hkey hshort
  · exact keepsGuarded_of_same (sameChannels_enter_channel channel_name) w
  · exact id
  · have hjoin : ∀ key, (∀ expected, w.state.channel_key_commitments.get? channel_name =
        some expected → commitment key = expected) →
        KeepsGuarded w (exec (join_protected.join_with_key env channel_name password key) w).2 := by
      intro key hagrees
      unfold join_protected.join_with_key
      apply Moves.bind_from
      · exact fun hg => hg.set_key hagrees
      · intro _
        exact (keepsGuarded_of_same (sameChannels_save_password _ _ _)).bind fun _ =>
          (keepsGuarded_of_same (sameChannels_enter_channel _)).bind fun _ =>
            keepsGuarded_of_same (sameChannels_announce_joined _ _ _)
    dsimp only
    rcases hexpected : w.state.channel_key_commitments.get? channel_name with _ | expected
    · apply hjoin
      intro expected h
      rw [hexpected] at h
      cases h
    · dsimp only
      split
      · exact id
      · rename_i hsame
        apply hjoin
        intro expected' h
        rw [hexpected] at h
        cases h
        exact not_not.mp hsame

/-- A channel without a password has no commitment on file. -/
theorem keepsGuarded_join_unprotected (env : Env) (channel_name password : Str) (w : World)
    (hopen : channel_name ∉ w.state.password_protected_channels) :
    KeepsGuarded w (exec (join_unprotected env channel_name password) w).2 := by
  unfold join_unprotected
  split
  · apply Moves.bind_from
    · intro hg
      apply hg.set_key
      intro expected hexpected
      refine absurd (hg.guarded channel_name ?_) hopen
      simp [Dict.has, hexpected]
    · intro _
      exact (keepsGuarded_of_same (sameChannels_enter_channel _)).bind fun _ =>
        keepsGuarded_of_same (sameChannels_announce_joined _ _ _)
  · apply Moves.bind_from (keepsGuarded_of_same (sameChannels_enter_channel _) w)
    intro _ w hg
    exact hg.pop_key channel_name

theorem keepsGuarded_join (env : Env) (line : Str) :
    Moves KeepsGuarded (handle_join_channel env line) := by
  unfold handle_join_channel
  split
  · dsimp only
    split
    · exact Moves.pure ()
    · apply moves_getClient
      intro w
      split
      · exact keepsGuarded_join_protected env _ _ w
      · rename_i hopen
        exact keepsGuarded_join_unprotected env _ _ w hopen
  · exact Moves.pure ()

theorem keepsGuarded_leave (env : Env) : Moves KeepsGuarded (handle_leave_command env) := by
  unfold handle_leave_command
  apply moves_getClient
  intro w
  split
  · apply Moves.bind_from (Moves.outcome _ w)
    intro leave_packet
    exact (keepsGuarded_of_same (sameChannels_send_packet _ _)).bind fun _ =>
      (moves_modifyClient fun _ hg => hg.forget _).bind fun _ =>
        keepsGuarded_of_same sameChannels_save_app_state
  · exact id

theorem keepsGuarded_pass (env : Env) (line : Str) :
    Moves KeepsGuarded (handle_pass_command env line) := by
  unfold handle_pass_command
  apply moves_getClient
  intro w
  split
  · split
    · unfold change_password
      apply moves_getClient (R := KeepsGuarded)
      intro w
      dsimp only
      split_ifs
      · exact id
      · exact id
      · exact (moves_modifyClient fun _ hg => hg.change_password _ _ _).bind
          (fun _ => keepsGuarded_of_same ((sameChannels_notify_change _ _ _).bind fun _ =>
            (sameChannels_send_channel_announce _ _ _ _).bind fun _ =>
              (sameChannels_send_channel_notice _ _ _ _).bind fun _ =>
                sameChannels_save_app_state)) w
    · exact id
  · exact id

/-- `/transfer` changes the creator only. -/
theorem keepsGuarded_transfer (env : Env) (line : Str) :
    Moves KeepsGuarded (handle_transfer_command env line) := by
  unfold handle_transfer_command
  apply moves_getClient
  intro w
  split
  · split
    · unfold transfer_channel
      apply moves_getClient (R := KeepsGuarded)
      intro w
      split_ifs
      · exact id
      · split
        · exact id
        · exact (moves_modifyClient fun _ hg => ⟨hg.agree, hg.guarded⟩).bind
            (fun _ => keepsGuarded_of_same (sameChannels_save_app_state.bind fun _ =>
              sameChannels_send_channel_announce _ _ _ _)) w
    · exact id
  · exact id

theorem keepsGuarded_run_command (env : Env) (c : Command) :
    Moves KeepsGuarded (run_command env c) := by
  cases c with
  | join line => exact keepsGuarded_join env line
  | pass line => exact keepsGuarded_pass env line
  | transfer line => exact keepsGuarded_transfer env line
  | leave => exact keepsGuarded_leave env
  | number num => exact keepsGuarded_of_same (sameChannels_switch_to_number num)

theorem guarded_of_run {w : World} (h : system.RunWith Fits w) : Guarded w.state := by
  refine h.invariant (I := fun w => Guarded w.state) ?_ ?_
  · intro w hstart
    obtain ⟨hkeys, -, -, hcommitments⟩ := hstart
    constructor
    · intro channel key expected hkey
      rw [hkeys] at hkey
      cases hkey
    · intro channel hhas
      rw [hcommitments] at hhas
      cases hhas
  · rintro w ⟨env, op⟩ w' - hg hfits hstep
    cases hstep
    cases op with
    | announcement packet => exact keepsGuarded_announce packet w hfits hg
    | command c => exact keepsGuarded_run_command env c w hg

/-! ## The owner's password change -/

/-- The announcement that `/pass` sends puts the new commitment on file. -/
theorem commitment_on_file [LawfulDigest] (owner : PeerId) {channel : Str} (key : Bytes)
    (hchannel : valid_channel_name channel = true) {packet : BitchatPacket}
    (htext : decodeIgnore packet.payload = announcement_text owner channel true
      (some (commitment key))) (w : World) :
    (exec (handle_channel_announce packet) w).2.state.channel_key_commitments.get? channel =
      some (commitment key) := by
  unfold handle_channel_announce
  rw [htext, splitOn_announcement_text owner true (bar_notMem_of_valid hchannel)
    (bar_notMem_commitment key)]
  dsimp only
  rw [exec_bind, exec_modifyClient]
  rw [(sameChannels_save_app_state _).channel_key_commitments]
  simp [BitchatClient.channel_announced, commitment_ne_nil key]

/-- `/j` with a password whose commitment is on file ends with a key that has
this commitment. -/
theorem join_with_committed_password {w : World} (hg : Guarded w.state) (env : Env)
    {line cmd channel password : Str} {rest : List Str}
    (hline : split line = cmd :: channel :: password :: rest)
    (hchannel : valid_channel_name channel = true) (hlength : 4 ≤ password.length)
    (honfile : w.state.channel_key_commitments.get? channel =
      some (commitment (EncryptionService.derive_channel_key password channel))) :
    ∃ key, (exec (handle_join_channel env line) w).2.state.channel_keys.get? channel = some key ∧
      Crypto.sha256 key =
        Crypto.sha256 (EncryptionService.derive_channel_key password channel) := by
  have hprotected : channel ∈ w.state.password_protected_channels := by
    apply hg.guarded
    simp [Dict.has, honfile]
  unfold handle_join_channel
  rw [hline]
  simp only [hchannel, not_true_eq_false, if_false, List.head?_cons, Option.getD_some]
  rw [exec_bind, exec_getClient]
  dsimp only
  rw [if_pos hprotected]
  unfold join_protected
  rw [exec_bind, exec_getClient]
  dsimp only
  rcases hkey : w.state.channel_keys.get? channel with _ | key
  · have hhas : w.state.channel_keys.has channel = false := (Dict.has_eq_false_iff _ _).mpr hkey
    refine ⟨_, ?_, rfl⟩
    simp only [hhas, Bool.false_eq_true, if_false, Nat.not_lt.mpr hlength, honfile, ne_eq,
      not_true_eq_false]
    unfold join_protected.join_with_key
    rw [exec_bind, exec_modifyClient]
    dsimp only
    rw [((sameChannels_save_password _ _ _).bind (fun _ =>
      (sameChannels_enter_channel _).bind fun _ => sameChannels_announce_joined _ _ _) _).channel_keys]
    exact Dict.get?_set_self _ _ _
  · have hhas : w.state.channel_keys.has channel = true := by simp [Dict.has, hkey]
    refine ⟨key, ?_, hex_injective (hg.agree channel key _ hkey honfile)⟩
    simp only [hhas, if_true]
    rw [(sameChannels_enter_channel channel w).channel_keys]
    exact hkey

/-- In every run in which no announcement replaces the commitment of a key that
the client holds, keys and commitments agree. So once the owner's password
change has come in, `/j` with the new password ends with the key of that
password, or with another of the same digest. -/
theorem key_and_commitment_agree [LawfulDigest] {w : World} (h : system.RunWith Fits w) :
    Agree w.state ∧
      (∀ (packet : BitchatPacket) (owner : PeerId) (channel password : Str),
        valid_channel_name channel = true →
        decodeIgnore packet.payload = announcement_text owner channel true
          (some (commitment (EncryptionService.derive_channel_key password channel))) →
        (exec (handle_channel_announce packet) w).2.state.channel_key_commitments.get? channel =
          some (commitment (EncryptionService.derive_channel_key password channel))) ∧
      ∀ (env : Env) (line cmd channel password : Str) (rest : List Str),
        split line = cmd :: channel :: password :: rest →
        valid_channel_name channel = true → 4 ≤ password.length →
        w.state.channel_key_commitments.get? channel =
          some (commitment (EncryptionService.derive_channel_key password channel)) →
        ∃ key, (exec (handle_join_channel env line) w).2.state.channel_keys.get? channel =
            some key ∧
          Crypto.sha256 key =
            Crypto.sha256 (EncryptionService.derive_channel_key password channel) := by
  have hg := guarded_of_run h
  refine ⟨hg.agree, ?_, ?_⟩
  · intro packet owner channel password hchannel htext
    exact commitment_on_file owner _ hchannel htext w
  · intro env line cmd channel password rest hline hchannel hlength honfile
    exact join_with_committed_password hg env hline hchannel hlength honfile

end client.Commitments

/-! ## A member and an owner -/

namespace client.Commitments.standIn

open python bitchat bitchat.protocol bitchat.encryption systems

attribute [local instance] client.standIn.packages

def env : Env := client.standIn.env 1

def owner : PeerId := ⟨[1, 1, 1, 1, 1, 1, 1, 1], PeerId.length_ones⟩

def member : World := ⟨client.standIn.newcomer ⟨[2, 2, 2, 2, 2, 2, 2, 2], PeerId.length_twos⟩ 2, []⟩

def channel : Str := "#c".toList

def key (password : String) : Bytes :=
  EncryptionService.derive_channel_key password.toList channel

/-- What the owner announces after `/pass`. -/
def announcement (password : String) : BitchatPacket where
  msg_type := .CHANNEL_ANNOUNCE
  sender_id := owner.bytes
  sender_id_str := owner.str
  recipient_id := some BROADCAST_RECIPIENT
  recipient_id_str := some (hex BROADCAST_RECIPIENT)
  payload := encode (announcement_text owner channel true (some (commitment (key password))))
  ttl := 5

/-- The member after the owner's announcement. -/
def told (w : World) (password : String) : World :=
  (exec (handle_channel_announce (announcement password)) w).2

/-- The member after `/j #c` with a password. -/
def joined (w : World) (password : String) : World :=
  (exec (handle_join_channel env ("/j #c " ++ password).toList) w).2

theorem lawfulDigest : LawfulDigest where
  length_sha256 data := by
    show (bitchat.standIn.checksum _ ++ bitchat.standIn.checksum _).length = 32
    rw [List.length_append, bitchat.standIn.length_checksum, bitchat.standIn.length_checksum]

theorem noChannels_member : NoChannels member := ⟨rfl, rfl, rfl, rfl⟩

theorem reachable_told {w : World} (h : system.Reachable w) (password : String) :
    system.Reachable (told w password) :=
  .step h (env, .announcement (announcement password)) trivial rfl

theorem reachable_joined {w : World} (h : system.Reachable w) (password : String) :
    system.Reachable (joined w password) :=
  .step h (env, .command (.join ("/j #c " ++ password).toList)) trivial rfl

/-- A member that hears of the password before it joins gets the key. -/
theorem a_new_member_gets_the_key : ∃ k,
    (joined (told member "new1") "new1").state.channel_keys.get? channel = some k ∧
      Crypto.sha256 k = Crypto.sha256 (key "new1") := by
  have hfits : Fits member (env, .announcement (announcement "new1")) := by
    intro channel expected k _ hkey
    cases hkey
  have hrun : system.RunWith Fits (told member "new1") :=
    .step (.start noChannels_member) _ hfits rfl
  have hvalid : valid_channel_name channel = true := by decide
  have honfile : (told member "new1").state.channel_key_commitments.get? channel =
      some (commitment (key "new1")) := by
    decide +kernel
  have hline : split ("/j #c " ++ "new1").toList =
      "/j".toList :: channel :: "new1".toList :: [] := by
    decide +kernel
  obtain ⟨-, -, hjoin⟩ := @key_and_commitment_agree _ lawfulDigest _ hrun
  have hlength : 4 ≤ "new1".toList.length := by decide
  unfold joined key
  exact hjoin env ("/j #c " ++ "new1").toList "/j".toList channel "new1".toList [] hline hvalid
    hlength honfile

/-- A member that has the old key keeps it, and `/j` with the new password
does not change that. -/
theorem a_member_keeps_the_old_key :
    let w := told (joined (told member "old1") "old1") "new1"
    system.Reachable w ∧ ¬ Agree w.state ∧
      w.state.channel_key_commitments.get? channel = some (commitment (key "new1")) ∧
      (joined w "new1").state.channel_keys.get? channel = some (key "old1") ∧
      key "old1" ≠ key "new1" := by
  intro w
  have hrun : system.Reachable w :=
    reachable_told (reachable_joined (reachable_told (.start noChannels_member) _) _) _
  have hkey : w.state.channel_keys.get? channel = some (key "old1") := by decide +kernel
  have honfile : w.state.channel_key_commitments.get? channel =
      some (commitment (key "new1")) := by decide +kernel
  have hdiffer : commitment (key "old1") ≠ commitment (key "new1") := by decide +kernel
  refine ⟨hrun, ?_, honfile, by decide +kernel, by decide +kernel⟩
  intro hagree
  exact hdiffer (hagree channel _ _ hkey honfile)

end client.Commitments.standIn
