-- Who owns a channel. An announcement names its announcer as creator,
-- whatever the announcer has on file, and each receiver takes it over.
import BitchatNode.Client.Channels
import BitchatNode.Client.Packets
import BitchatNode.Systems

namespace client.Ownership

open python bitchat bitchat.protocol bitchat.encryption systems
open daemon (with_ttl)

variable [ClientPackages]

/-! ## What a command claims -/

/-- The channel that a `/j` with this line gets to announce. -/
def announced_by_join (self : BitchatClient) (line : Str) : Option Str :=
  match split line with
  | _ :: channel_name :: rest =>
    let password := rest.head?.getD []
    let key := EncryptionService.derive_channel_key password channel_name
    if valid_channel_name channel_name ∧ self.channel_creators.has channel_name ∧
        (if channel_name ∈ self.password_protected_channels then
          ¬ self.channel_keys.has channel_name ∧ 4 ≤ password.length ∧
            (self.channel_key_commitments.get? channel_name).all (· = commitment key)
        else password ≠ []) then
      some channel_name
    else none
  | _ => none

/-- The channel that a `/pass` with this line claims: it has no owner on file. -/
def claimed_by_pass (self : BitchatClient) (line : Str) : Option Str :=
  match self.chat_context.current_mode, splitMax 1 line with
  | .Channel channel, _ :: new_password :: _ =>
    if 4 ≤ new_password.length ∧ (self.channel_creators.get? channel).getD [] = [] then
      some channel
    else none
  | _, _ => none

/-- The channel that a `/transfer` with this line hands over, and to whom. -/
def transferred (self : BitchatClient) (line : Str) : Option (Str × Str) :=
  match self.chat_context.current_mode, split line with
  | .Channel channel, [_, target] =>
    if self.channel_creators.get? channel = some self.my_peer_id.str then
      match (peer_named self (lstrip '@' target)).getD [] with
      | [] => none
      | new_owner_id => some (channel, new_owner_id)
    else none
  | _, _ => none

theorem of_transferred {self : BitchatClient} {line channel new_owner : Str}
    (h : transferred self line = some (channel, new_owner)) :
    self.channel_creators.get? channel = some self.my_peer_id.str ∧
      self.chat_context.current_mode = .Channel channel := by
  unfold transferred at h
  split at h
  · rename_i hmode _
    split at h
    · rename_i howner
      split at h
      · cases h
      · cases h
        exact ⟨howner, hmode⟩
    · cases h
  · cases h

/-! ## Claims of one client -/

/-- Each new record and each announcement names the client `me`, for a
channel as in `Q`. Only the channels in `left` lose their record. -/
structure Spoken (me : PeerId) (left Q : Str → Prop) (w w' : World) : Prop where
  my_peer_id : w'.state.my_peer_id = w.state.my_peer_id
  recorded : ∀ channel X, w'.state.channel_creators.get? channel = some X →
    w.state.channel_creators.get? channel = some X ∨ X = me.str ∧ Q channel
  kept : ∀ channel, w.state.channel_creators.has channel = true → ¬ left channel →
    w'.state.channel_creators.has channel = true
  clean : Clean w.state.chat_context → Clean w'.state.chat_context
  said : ∀ raw ∈ writes w'.out, carries_announcement raw = true →
    raw ∈ writes w.out ∨ ∃ channel, announced_creator raw = some (channel, me.str) ∧ Q channel

variable {me : PeerId} {left Q : Str → Prop}

instance : IsPreorder World (Spoken me left Q) where
  refl _ := ⟨rfl, fun _ _ h => Or.inl h, fun _ h _ => h, id, fun _ h _ => Or.inl h⟩
  trans _ _ _ h h' := by
    refine ⟨h'.my_peer_id.trans h.my_peer_id, ?_, ?_, fun hc => h'.clean (h.clean hc), ?_⟩
    · intro channel X hX
      rcases h'.recorded channel X hX with hbefore | hnew
      · exact h.recorded channel X hbefore
      · exact Or.inr hnew
    · intro channel hhas hstays
      exact h'.kept channel (h.kept channel hhas hstays) hstays
    · intro raw hraw hcarries
      rcases h'.said raw hraw hcarries with hbefore | hnew
      · exact h.said raw hbefore hcarries
      · exact Or.inr hnew

theorem Spoken.of_told {w w' : World}
    (h : Told (fun a => ∃ channel, a = some (channel, me.str) ∧ Q channel) w w') :
    Spoken me left Q w w' := by
  refine ⟨h.same.my_peer_id, ?_, ?_, h.clean, h.said⟩
  · intro channel X hX
    rw [h.same.channel_creators] at hX
    exact Or.inl hX
  · intro channel hhas _
    rw [h.same.channel_creators]
    exact hhas

theorem spoken_set_keys (keys : BitchatClient → Dict Str Bytes) :
    Moves (Spoken me left Q) (modifyClient fun self => { self with channel_keys := keys self }) :=
  fun _ => ⟨rfl, fun _ _ h => Or.inl h, fun _ h _ => h, id, fun _ h _ => Or.inl h⟩

omit [ClientPackages] in
theorem clean_add_channel {context : ChatContext} (h : Clean context) {channel : Str}
    (hbar : '|' ∉ channel) : Clean (context.add_channel channel) := by
  unfold ChatContext.add_channel
  split
  · exact h
  · constructor
    · intro c hc
      rcases List.mem_append.mp hc with hold | hnew
      · exact h.active c hold
      · rw [List.mem_singleton.mp hnew]
        exact hbar
    · exact h.current

omit [ClientPackages] in
theorem clean_switch_to_channel {context : ChatContext} (h : Clean context) {channel : Str}
    (hbar : '|' ∉ channel) : Clean (context.switch_to_channel channel) := by
  refine ⟨(clean_add_channel h hbar).active, ?_⟩
  intro c hc
  cases hc
  exact hbar

theorem spoken_enter_channel {channel_name : Str} (hbar : '|' ∉ channel_name) :
    Moves (Spoken me left Q) (modifyClient (·.enter_channel channel_name)) :=
  fun _ => ⟨rfl, fun _ _ h => Or.inl h, fun _ h _ => h,
    fun h => clean_switch_to_channel h hbar, fun _ h _ => Or.inl h⟩

omit [ClientPackages] in
theorem names_me {channel : Str} {key_commitment : Option Str} {is_protected : Bool}
    (hbar : '|' ∉ channel) (hcommitment : '|' ∉ key_commitment.getD []) :
    named_creator (announcement_text me channel is_protected key_commitment) =
      some (channel, me.str) := by
  unfold named_creator
  rw [splitOn_announcement_text me is_protected hbar hcommitment]
  exact if_pos me.str_ne_nil

theorem spoken_announce_joined (env : Env) {channel_name : Str} (key : Bytes)
    (hbar : '|' ∉ channel_name) {w : World} (hme : w.state.my_peer_id = me)
    (hQ : w.state.channel_creators.has channel_name = true → Q channel_name) :
    Spoken me left Q w (exec (announce_joined env channel_name key) w).2 := by
  apply Spoken.of_told
  apply told_announce_joined
  intro hhas
  rw [hme, names_me hbar (bar_notMem_commitment key)]
  exact ⟨channel_name, rfl, hQ hhas⟩

/-- Who is on file later was on file before, or the channel is as in `Q`. -/
theorem Spoken.has {w w' : World} (h : Spoken me left Q w w') {channel : Str}
    (hQ : w.state.channel_creators.has channel = true → Q channel)
    (hhas : w'.state.channel_creators.has channel = true) : Q channel := by
  obtain ⟨X, hX⟩ := Option.isSome_iff_exists.mp hhas
  rcases h.recorded channel X hX with hbefore | ⟨-, hnew⟩
  · exact hQ (by simp [Dict.has, hbefore])
  · exact hnew

/-- The end of `/j`: the key is set, the channel entered and announced. -/
theorem spoken_join_with_key (env : Env) {channel_name password : Str} (key : Bytes)
    (hbar : '|' ∉ channel_name) {w : World} (hme : w.state.my_peer_id = me)
    (hQ : w.state.channel_creators.has channel_name = true → Q channel_name) :
    Spoken me left Q w (exec (join_protected.join_with_key env channel_name password key) w).2 := by
  unfold join_protected.join_with_key
  refine Moves.bind_after (spoken_set_keys (·.channel_keys.set channel_name key) w) ?_
  intro _ w₁ h₁
  refine Moves.bind_after (Spoken.of_told (told_save_password _ _ _ w₁)) ?_
  intro _ w₂ h₂
  refine Moves.bind_after (spoken_enter_channel hbar w₂) ?_
  intro _ w₃ h₃
  have h : Spoken me left Q w w₃ := trans_of (Spoken me left Q) h₁ (trans_of (Spoken me left Q) h₂ h₃)
  exact spoken_announce_joined _ key hbar (h.my_peer_id.trans hme) fun hhas => h.has hQ hhas

theorem spoken_join_protected (env : Env) {channel_name password : Str}
    (hbar : '|' ∉ channel_name) {w : World} (hme : w.state.my_peer_id = me)
    (hQ : w.state.channel_creators.has channel_name = true →
      w.state.channel_keys.has channel_name = false → 4 ≤ password.length →
      (w.state.channel_key_commitments.get? channel_name).all
        (· = commitment (EncryptionService.derive_channel_key password channel_name)) = true →
      Q channel_name) :
    Spoken me left Q w (exec (join_protected env channel_name password) w).2 := by
  unfold join_protected
  rw [exec_bind, exec_getClient]
  dsimp only
  split_ifs with hkey hshort
  · exact spoken_enter_channel hbar w
  · exact refl_of (Spoken me left Q) w
  · have hkey' : w.state.channel_keys.has channel_name = false := by simpa using hkey
    have hlength : 4 ≤ password.length := by omega
    rcases hexpected : w.state.channel_key_commitments.get? channel_name with _ | expected
    · dsimp only
      apply spoken_join_with_key env _ hbar hme
      intro hhas
      exact hQ hhas hkey' hlength (by simp [hexpected])
    · dsimp only
      split
      · exact refl_of (Spoken me left Q) w
      · rename_i hsame
        apply spoken_join_with_key env _ hbar hme
        intro hhas
        apply hQ hhas hkey' hlength
        simpa [hexpected, eq_comm] using hsame

theorem spoken_join_unprotected (env : Env) {channel_name password : Str}
    (hbar : '|' ∉ channel_name) {w : World} (hme : w.state.my_peer_id = me)
    (hQ : w.state.channel_creators.has channel_name = true → password ≠ [] → Q channel_name) :
    Spoken me left Q w (exec (join_unprotected env channel_name password) w).2 := by
  unfold join_unprotected
  split
  · rename_i hpassword
    dsimp only
    refine Moves.bind_after (spoken_set_keys (·.channel_keys.set channel_name _) w) ?_
    intro _ w₁ h₁
    refine Moves.bind_after (spoken_enter_channel hbar w₁) ?_
    intro _ w₂ h₂
    have h : Spoken me left Q w w₂ := trans_of (Spoken me left Q) h₁ h₂
    apply spoken_announce_joined _ _ hbar (h.my_peer_id.trans hme)
    exact fun hhas => h.has (fun hbefore => hQ hbefore hpassword) hhas
  · exact (spoken_enter_channel hbar).bind
      (fun _ => spoken_set_keys (·.channel_keys.pop channel_name)) w

theorem spoken_join (env : Env) (line : Str) {w : World} (hme : w.state.my_peer_id = me)
    (hQ : ∀ channel, announced_by_join w.state line = some channel → Q channel) :
    Spoken me left Q w (exec (handle_join_channel env line) w).2 := by
  unfold announced_by_join at hQ
  unfold handle_join_channel
  split
  · rename_i cmd channel_name rest hline
    rw [hline] at hQ
    dsimp only at hQ ⊢
    generalize rest.head?.getD [] = password at hQ ⊢
    split
    · exact refl_of (Spoken me left Q) w
    · rename_i hvalid
      have hname : valid_channel_name channel_name = true := by simpa using hvalid
      have hbar := bar_notMem_of_valid hname
      rw [exec_bind, exec_getClient]
      dsimp only
      split
      · rename_i hprotected
        apply spoken_join_protected env hbar hme
        intro hhas hkey hlength hcommitment
        exact hQ channel_name (by simp [hname, hhas, hprotected, hkey, hlength, hcommitment])
      · rename_i hopen
        apply spoken_join_unprotected env hbar hme
        intro hhas hpassword
        exact hQ channel_name (by simp [hname, hhas, hopen, hpassword])
  · exact refl_of (Spoken me left Q) w

omit [ClientPackages] in
theorem clean_forget {context : ChatContext} (h : Clean context) (channel : Str) :
    Clean (context.remove_channel channel).switch_to_public := by
  constructor
  · intro c hc
    exact h.active c (List.mem_of_mem_erase hc)
  · intro c hc
    cases hc

theorem spoken_leave (env : Env) {w : World}
    (hleft : ∀ channel, w.state.chat_context.current_mode = .Channel channel → left channel) :
    Spoken me left Q w (exec (handle_leave_command env) w).2 := by
  unfold handle_leave_command
  rw [exec_bind, exec_getClient]
  dsimp only
  split
  · rename_i channel hmode
    refine Moves.outcome_bind ?_ w
    intro leave_packet hpacket
    have hnone := (carries_announcement_of_created (by decide) hpacket).2 3
    have hforget : Moves (Spoken me left Q) (modifyClient (·.forget_channel channel)) := by
      intro w
      refine ⟨rfl, ?_, ?_, fun h => clean_forget h channel, fun _ h _ => Or.inl h⟩
      · intro c X hX
        by_cases hc : channel = c
        · subst hc
          simp [BitchatClient.forget_channel] at hX
        · exact Or.inl (by simpa [BitchatClient.forget_channel, Dict.get?_pop_ne _ hc] using hX)
      · intro c hhas hstays
        have hc : channel ≠ c := fun h => hstays (h ▸ hleft channel hmode)
        simpa [BitchatClient.forget_channel, Dict.has_pop_ne _ hc] using hhas
    have hsend : Moves (Spoken me left Q) (send_packet (env.call 1) (with_ttl leave_packet 3)) :=
      fun w => .of_told (told_send_packet _ (fun h => by cases hnone.symm.trans h) w)
    exact hsend.bind fun _ => hforget.bind fun _ w => .of_told (told_save_app_state w)
  · exact refl_of (Spoken me left Q) w

theorem spoken_change_password (env : Env) {channel new_password : Str} (hbar : '|' ∉ channel)
    {w : World} (hme : w.state.my_peer_id = me)
    (hQ : 4 ≤ new_password.length → ((w.state.channel_creators.get? channel).getD [] = [] ∨
      (w.state.channel_creators.get? channel).getD [] = me.str) → Q channel) :
    Spoken me left Q w (exec (change_password env channel new_password) w).2 := by
  unfold change_password
  rw [exec_bind, exec_getClient]
  dsimp only
  split_ifs with hshort hother
  · exact refl_of (Spoken me left Q) w
  · exact refl_of (Spoken me left Q) w
  · have hchannel : Q channel := by
      apply hQ (by omega)
      rw [hme] at hother
      by_cases howner : (w.state.channel_creators.get? channel).getD [] = []
      · exact Or.inl howner
      · exact Or.inr (by simpa [howner] using hother)
    have hchange : Spoken me left Q w (exec
        (modifyClient (·.password_changed channel new_password (env.draw 0))) w).2 := by
      refine ⟨?_, ?_, ?_, ?_, fun _ h _ => Or.inl h⟩
      · simp [BitchatClient.password_changed]
      · intro c X hX
        simp only [exec_modifyClient, BitchatClient.password_changed,
          BitchatClient.channel_creators_remember_password] at hX
        split at hX
        · by_cases hc : channel = c
          · subst hc
            rw [Dict.get?_set_self, Option.some.injEq] at hX
            rw [← hX, hme]
            exact Or.inr ⟨rfl, hchannel⟩
          · rw [Dict.get?_set_ne _ _ hc] at hX
            exact Or.inl hX
        · exact Or.inl hX
      · intro c hhas _
        simp only [exec_modifyClient, BitchatClient.password_changed,
          BitchatClient.channel_creators_remember_password]
        split
        · exact Dict.has_set_of_has _ hhas _ _
        · exact hhas
      · simp [BitchatClient.password_changed]
    refine Moves.bind_after hchange ?_
    intro _ w₁ h₁
    refine Moves.bind_after (.of_told (told_notify_change _ _ _ w₁)) ?_
    intro _ w₂ h₂
    have h : Spoken me left Q w w₂ := trans_of (Spoken me left Q) h₁ h₂
    refine Moves.bind_from ?_ fun _ => Moves.bind
      (fun w => .of_told (told_send_channel_notice _ _ _ _ w))
      fun _ w => .of_told (told_save_app_state w)
    apply Spoken.of_told
    apply told_send_channel_announce
    rw [h.my_peer_id, hme, names_me hbar (bar_notMem_commitment _)]
    exact ⟨channel, rfl, hchannel⟩

theorem spoken_pass (env : Env) (line : Str) {w : World} (hme : w.state.my_peer_id = me)
    (hclean : Clean w.state.chat_context)
    (hclaims : ∀ channel, claimed_by_pass w.state line = some channel → Q channel)
    (howns : ∀ channel, w.state.channel_creators.get? channel = some me.str → Q channel) :
    Spoken me left Q w (exec (handle_pass_command env line) w).2 := by
  unfold claimed_by_pass at hclaims
  unfold handle_pass_command
  rw [exec_bind, exec_getClient]
  dsimp only
  split
  · rename_i channel hmode
    split
    · rename_i cmd new_password rest hline
      apply spoken_change_password env (hclean.current channel hmode) hme
      intro hlength howner
      rcases howner with hnone | hmine
      · exact hclaims channel (by simp [hmode, hline, hlength, hnone])
      · apply howns
        cases hget : w.state.channel_creators.get? channel with
        | none =>
          rw [hget] at hmine
          exact absurd hmine.symm me.str_ne_nil
        | some X =>
          rw [hget] at hmine
          exact congrArg some hmine
    · exact refl_of (Spoken me left Q) w
  · exact refl_of (Spoken me left Q) w

theorem bar_notMem_transfer_commitment (s : BitchatClient) (channel : Str) :
    '|' ∉ (transfer_commitment s channel).getD [] := by
  unfold transfer_commitment
  split
  · cases s.channel_keys.get? channel with
    | none => exact List.not_mem_nil
    | some key => exact bar_notMem_commitment key
  · exact List.not_mem_nil

/-- A transfer to the owner itself. -/
theorem spoken_transfer (env : Env) (line : Str) {w : World} (hme : w.state.my_peer_id = me)
    (hclean : Clean w.state.chat_context)
    (hQ : ∀ channel new_owner, transferred w.state line = some (channel, new_owner) →
      new_owner = me.str ∧ Q channel) :
    Spoken me left Q w (exec (handle_transfer_command env line) w).2 := by
  unfold transferred at hQ
  unfold handle_transfer_command
  rw [exec_bind, exec_getClient]
  dsimp only
  split
  · rename_i channel hmode
    split
    · rename_i cmd target hline
      simp only [hmode, hline] at hQ
      have hbar := hclean.current channel hmode
      unfold transfer_channel
      rw [exec_bind, exec_getClient]
      dsimp only
      split
      · exact refl_of (Spoken me left Q) w
      · rename_i howner
        rw [if_pos (not_not.mp howner)] at hQ
        generalize (peer_named w.state (lstrip '@' target)).getD [] = new_owner at hQ
        cases new_owner with
        | nil => exact refl_of (Spoken me left Q) w
        | cons c rest =>
          obtain ⟨hself, hchannel⟩ := hQ channel _ rfl
          dsimp only
          have hhand : Spoken me left Q w (exec (modifyClient fun self => { self with
              channel_creators := self.channel_creators.set channel (c :: rest) }) w).2 := by
            refine ⟨rfl, ?_, fun c hhas _ => Dict.has_set_of_has _ hhas _ _, id,
              fun _ h _ => Or.inl h⟩
            intro c X hX
            simp only [exec_modifyClient] at hX
            by_cases hc : channel = c
            · subst hc
              rw [Dict.get?_set_self, Option.some.injEq] at hX
              exact Or.inr ⟨hX.symm.trans hself, hchannel⟩
            · rw [Dict.get?_set_ne _ _ hc] at hX
              exact Or.inl hX
          refine Moves.bind_after hhand ?_
          intro _ w₁ h₁
          refine Moves.bind_after (.of_told (told_save_app_state w₁)) ?_
          intro _ w₂ h₂
          have h : Spoken me left Q w w₂ := trans_of (Spoken me left Q) h₁ h₂
          apply Spoken.of_told
          apply told_send_channel_announce
          rw [h.my_peer_id, hme, names_me hbar (bar_notMem_transfer_commitment _ _)]
          exact ⟨channel, rfl, hchannel⟩
    · exact refl_of (Spoken me left Q) w
  · exact refl_of (Spoken me left Q) w

/-- The channel that a command leaves. -/
def left_by (self : BitchatClient) : Command → Option Str
  | .leave =>
    match self.chat_context.current_mode with
    | .Channel channel => some channel
    | _ => none
  | _ => none

omit [ClientPackages] in
theorem clean_switch_to_number {context context' : ChatContext} (h : Clean context) {num : Int}
    {found : Bool} (hswitch : context.switch_to_number num = .ok (found, context')) :
    Clean context' := by
  unfold ChatContext.switch_to_number at hswitch
  dsimp only at hswitch
  split at hswitch
  · cases hswitch
    exact ⟨h.active, fun _ hmode => by cases hmode⟩
  · split at hswitch
    · rename_i channel hchannel
      cases hswitch
      refine ⟨h.active, ?_⟩
      intro c hmode
      cases hmode
      split at hchannel
      · exact h.active channel (List.mem_of_getElem? hchannel)
      · cases hchannel
    · split at hswitch
      · split at hswitch
        · cases hswitch
          exact ⟨h.active, fun _ hmode => by cases hmode⟩
        · cases hswitch
      · cases hswitch
        exact h

theorem spoken_switch_to_number (num : Int) : Moves (Spoken me left Q) (switch_to_number num) := by
  unfold switch_to_number
  apply moves_getClient
  intro w
  cases hswitch : w.state.chat_context.switch_to_number num with
  | error e => exact refl_of (Spoken me left Q) w
  | ok switched =>
    exact ⟨rfl, fun _ _ h => Or.inl h, fun _ h _ => h,
      fun h => clean_switch_to_number h hswitch, fun _ h _ => Or.inl h⟩

/-! ## A network of clients -/

/-- Who hands over which channel, and to whom. -/
structure Transfer where
  owner : Str
  channel : Str
  new_owner : Str

/-- An announcement on its way, with the `/transfer` that caused it. -/
structure Letter where
  raw : Bytes
  announces : carries_announcement raw = true
  transfer : Option Transfer

structure Clients (ι : Type) where
  party : ι → BitchatClient
  inbox : ι → List Letter
  /-- The last `/transfer` of a channel that the client issued or handled an
  announcement of, until it leaves the channel. -/
  heard : ι → Str → Option Transfer

inductive Event (ι : Type)
  | command (i : ι) (env : Env) (c : Command)
  /-- The `k`-th waiting announcement comes in. -/
  | handle (i : ι) (k : Nat) (env : Env)
  | lose (i : ι) (k : Nat)
  /-- The client hears of other peers. -/
  | peers (i : ι) (table : Dict Str Peer)
  | connection (i : ι) (connection : Connection)

/-- The `/transfer` that a command makes. -/
def transfer_of (self : BitchatClient) : Command → Option Transfer
  | .transfer line => (transferred self line).map fun (channel, new_owner) =>
    ⟨self.my_peer_id.str, channel, new_owner⟩
  | _ => none

/-- The announcements among the packets that a client has written. -/
def letters (out : List Action) (transfer : Option Transfer) : List Letter :=
  (writes out).filterMap fun raw =>
    if h : carries_announcement raw = true then some ⟨raw, h, transfer⟩ else none

/-- The packet comes from the client itself. -/
def is_own (self : BitchatClient) (raw : Bytes) : Bool :=
  match parse_bitchat_packet raw with
  | .ok packet => packet.sender_id_str = self.my_peer_id.str
  | .error _ => false

namespace Clients

variable {ι : Type} [DecidableEq ι]

/-- Client `i` is in another state, and what it wrote is on its way to all
other clients. -/
def act (n : Clients ι) (i : ι) (w : World) (transfer : Option Transfer)
    (inbox : List Letter) : Clients ι :=
  { n with
    party := Function.update n.party i w.state
    inbox := fun j => if j = i then inbox else n.inbox j ++ letters w.out transfer }

/-- What client `i` knows of transfers after its command. -/
def hear (n : Clients ι) (i : ι) (transfer : Option Transfer) (left : Option Str) :
    Clients ι :=
  { n with heard := Function.update n.heard i fun channel =>
      if left = some channel then none
      else match transfer with
      | some t => if t.channel = channel then some t else n.heard i channel
      | none => n.heard i channel }

def step (n : Clients ι) : Event ι → Option (Clients ι)
  | .command i env c =>
    let self := n.party i
    let w := (exec (run_command env c) ⟨self, []⟩).2
    some ((n.hear i (transfer_of self c) (left_by self c)).act i w (transfer_of self c) (n.inbox i))
  | .handle i k env => (n.inbox i)[k]?.map fun letter =>
    let self := n.party i
    let w := (exec (notification_handler env letter.raw) ⟨self, []⟩).2
    (n.hear i (if is_own self letter.raw then none else letter.transfer) none).act i w none
      ((n.inbox i).eraseIdx k)
  | .lose i k => some { n with inbox := Function.update n.inbox i ((n.inbox i).eraseIdx k) }
  | .peers i table => some { n with
      party := Function.update n.party i { n.party i with peers := table } }
  | .connection i connection => some { n with
      party := Function.update n.party i { n.party i with connection } }

/-- Whom client `i` has on file as creator of a channel. -/
def record (n : Clients ι) (i : ι) (channel : Str) : Option Str :=
  (n.party i).channel_creators.get? channel

end Clients

variable {ι : Type} [DecidableEq ι]

/-- Clients that know no channel, and no announcement on its way. -/
def Fresh (n : Clients ι) : Prop :=
  (∀ i, (n.party i).channel_creators = .empty ∧ (n.party i).chat_context = .init) ∧
    (∀ i, n.inbox i = []) ∧ ∀ i channel, n.heard i channel = none

def clients (ι : Type) [DecidableEq ι] : System (Clients ι) (Event ι) := ⟨Fresh, Clients.step⟩

/-! ## Agreement -/

/-- The `/transfer` behind a step: the command itself, or what the announcement
comes from. -/
def cause (n : Clients ι) : Event ι → Option Transfer
  | .command i _ c => transfer_of (n.party i) c
  | .handle i k _ => (n.inbox i)[k]?.bind Letter.transfer
  | _ => none

/-- A record changes from one creator to another only by a `/transfer` of the
former to the latter. -/
def ChangesByTransfer (n : Clients ι) (e : Event ι) (n' : Clients ι) : Prop :=
  ∀ i channel X Y, n.record i channel = some X → n'.record i channel = some Y → X ≠ Y →
    cause n e = some ⟨X, channel, Y⟩

/-- Where no announcement of a `/transfer` is underway, who handled one, or
issued the `/transfer`, has the new owner on file. -/
def TransfersArrive (n : Clients ι) : Prop :=
  ∀ i t, n.heard i t.channel = some t → (∀ j, ∀ letter ∈ n.inbox j, letter.transfer ≠ some t) →
    n.record i t.channel = some t.new_owner

/-- Some client has `X` on file, or an announcement on its way names `X`. -/
def Named (n : Clients ι) (channel X : Str) : Prop :=
  (∃ i, n.record i channel = some X) ∨
    ∃ i, ∃ letter ∈ n.inbox i, announced_creator letter.raw = some (channel, X)

/-- The step announces no other owner than the one on file everywhere: `/j` is
by the owner where it announces, `/pass` claims a channel where nobody else is
named its creator, and `/transfer` is to the owner itself. -/
def Fair (n : Clients ι) : Event ι → Prop
  | .command i _ (.join line) => ∀ channel, announced_by_join (n.party i) line = some channel →
      n.record i channel = some (n.party i).my_peer_id.str
  | .command i _ (.pass line) => ∀ channel, claimed_by_pass (n.party i) line = some channel →
      ∀ X, Named n channel X → X = (n.party i).my_peer_id.str
  | .command i _ (.transfer line) => ∀ channel new_owner,
      transferred (n.party i) line = some (channel, new_owner) →
        new_owner = (n.party i).my_peer_id.str
  | _ => True

structure Agreed (n : Clients ι) : Prop where
  one : ∀ channel X Y, Named n channel X → Named n channel Y → X = Y
  clean : ∀ i, Clean (n.party i).chat_context
  letters : ∀ i, ∀ letter ∈ n.inbox i, ∀ t, letter.transfer = some t →
    announced_creator letter.raw = some (t.channel, t.new_owner)
  heard : ∀ i channel t, n.heard i channel = some t →
    t.channel = channel ∧ n.record i channel = some t.new_owner

/-! ## Handling an announcement -/

omit [ClientPackages] in
theorem bar_notMem_of_named {text : Str} {channel : Str} {rest : List Str}
    (h : text.splitOn '|' = channel :: rest) : '|' ∉ channel :=
  notMem_of_mem_splitOn (by rw [h]; exact List.mem_cons_self)

/-- A client ignores its own packets. -/
theorem exec_own (env : Env) {raw : Bytes} {w : World} (hown : is_own w.state raw = true) :
    exec (notification_handler env raw) w = (.ok (), w) := by
  unfold is_own at hown
  unfold notification_handler
  rw [exec_bind, exec_getClient]
  dsimp only
  split at hown
  · rename_i packet hparse
    rw [hparse]
    dsimp only
    rw [if_pos (of_decide_eq_true hown)]
    rfl
  · cases hown

/-- What the announcement of another client does. -/
structure Noted (raw : Bytes) (w w' : World) : Prop where
  my_peer_id : w'.state.my_peer_id = w.state.my_peer_id
  creators : w'.state.channel_creators = match announced_creator raw with
    | some (channel, X) => w.state.channel_creators.set channel X
    | none => w.state.channel_creators
  clean : Clean w.state.chat_context → Clean w'.state.chat_context
  silent : writes w'.out = writes w.out

theorem noted_announce {raw : Bytes} {packet : BitchatPacket} {w : World}
    (hparse : parse_bitchat_packet raw = .ok packet) (htype : packet.msg_type = .CHANNEL_ANNOUNCE) :
    Noted raw w (exec (handle_channel_announce packet) w).2 := by
  have hnames : announced_creator raw = named_creator (decodeIgnore packet.payload) := by
    unfold announced_creator
    rw [hparse]
    exact if_pos htype
  unfold named_creator at hnames
  unfold handle_channel_announce
  split
  · rename_i channel is_protected creator_id rest hparts
    rw [hparts] at hnames
    rw [exec_bind, exec_modifyClient]
    dsimp only at hnames ⊢
    have hsaved := sameChannels_save_app_state
    have hbar := bar_notMem_of_named hparts
    constructor
    · rw [(hsaved _).my_peer_id]
      rfl
    · rw [(hsaved _).channel_creators, hnames]
      unfold BitchatClient.channel_announced
      dsimp only
      split_ifs <;> rfl
    · intro h
      exact clean_add_channel h hbar
    · simp [save_app_state, writes]
  · rename_i hparts
    have hnone : announced_creator raw = none := by
      rw [hnames]
      split
      · rename_i h
        exact absurd h (hparts _ _ _ _)
      · rfl
    refine ⟨rfl, ?_, id, rfl⟩
    rw [hnone]
    rfl

theorem noted_handle (env : Env) {raw : Bytes} {w : World}
    (hcarries : carries_announcement raw = true) (hother : is_own w.state raw = false) :
    Noted raw w (exec (notification_handler env raw) w).2 := by
  unfold carries_announcement at hcarries
  split at hcarries
  · rename_i packet hparse
    have htype : packet.msg_type = .CHANNEL_ANNOUNCE := of_decide_eq_true hcarries
    have hsender : packet.sender_id_str ≠ w.state.my_peer_id.str := by
      unfold is_own at hother
      rw [hparse] at hother
      exact of_decide_eq_false hother
    unfold notification_handler
    rw [exec_bind, exec_getClient]
    dsimp only
    rw [hparse]
    dsimp only
    rw [if_neg hsender, exec_suppress]
    have hdispatch : handle_packet recursion_limit env packet raw =
        handle_channel_announce packet := by
      unfold recursion_limit handle_packet
      rw [htype]
    rw [hdispatch]
    exact noted_announce hparse htype
  · cases hcarries

/-! ## One owner in every run -/

theorem mem_letters {out : List Action} {transfer : Option Transfer} {letter : Letter}
    (h : letter ∈ letters out transfer) :
    letter.raw ∈ writes out ∧ letter.transfer = transfer := by
  unfold letters at h
  obtain ⟨raw, hraw, hletter⟩ := List.mem_filterMap.mp h
  split at hletter
  · cases hletter
    exact ⟨hraw, rfl⟩
  · cases hletter

variable {n n' : Clients ι} {i : ι}

/-- Who is named in `n'` is named in `n`, or is `me`, and nobody else is named. -/
def Extends (me : Str) (n n' : Clients ι) : Prop :=
  ∀ channel X, Named n' channel X →
    Named n channel X ∨ X = me ∧ ∀ Y, Named n channel Y → Y = me

omit [DecidableEq ι] in
theorem Agreed.same (h : Agreed n) {me : Str} (hextends : Extends me n n') {channel X Y : Str}
    (hX : Named n channel X) (hY : Named n' channel Y) : X = Y := by
  rcases hextends channel Y hY with hbefore | ⟨hme, honly⟩
  · exact h.one channel X Y hX hbefore
  · exact (honly X hX).trans hme.symm

omit [DecidableEq ι] in
theorem Agreed.one_after (h : Agreed n) {me : Str} (hextends : Extends me n n')
    (channel X Y : Str) (hX : Named n' channel X) (hY : Named n' channel Y) : X = Y := by
  rcases hextends channel X hX with hbefore | ⟨hme, honly⟩
  · exact h.same hextends hbefore hY
  · rcases hextends channel Y hY with hbefore' | ⟨hme', -⟩
    · exact hme.trans (honly Y hbefore').symm
    · exact hme.trans hme'.symm

omit [DecidableEq ι] in
/-- What a fair command says. -/
theorem Agreed.speaks (h : Agreed n) (env : Env) {c : Command}
    (hfair : Fair n (.command i env c)) :
    Spoken (n.party i).my_peer_id (fun channel => left_by (n.party i) c = some channel)
      (fun channel => ∀ X, Named n channel X → X = (n.party i).my_peer_id.str)
      ⟨n.party i, []⟩ (exec (run_command env c) ⟨n.party i, []⟩).2 := by
  have howns : ∀ channel, n.record i channel = some (n.party i).my_peer_id.str →
      ∀ X, Named n channel X → X = (n.party i).my_peer_id.str :=
    fun channel hrecord X hX => h.one channel _ _ hX (Or.inl ⟨i, hrecord⟩)
  cases c with
  | join line =>
    refine spoken_join (w := ⟨n.party i, []⟩) env line rfl ?_
    intro channel hchannel
    exact howns channel (hfair channel hchannel)
  | pass line => exact spoken_pass env line rfl (h.clean i) hfair howns
  | transfer line =>
    refine spoken_transfer (w := ⟨n.party i, []⟩) env line rfl (h.clean i) ?_
    intro channel new_owner htransferred
    refine ⟨hfair channel new_owner htransferred, howns channel ?_⟩
    exact (of_transferred htransferred).1
  | leave =>
    apply spoken_leave
    intro channel hmode
    unfold left_by
    rw [hmode]
  | number num => exact spoken_switch_to_number num _

omit [DecidableEq ι] in
/-- A fair `/transfer` is of the client's own channel, to the client itself. -/
theorem fair_transfer {env : Env} {c : Command} (hfair : Fair n (.command i env c)) {t : Transfer}
    (ht : transfer_of (n.party i) c = some t) :
    n.record i t.channel = some t.new_owner ∧ (n.party i).my_peer_id.str = t.new_owner ∧
      ∃ line, c = .transfer line ∧
        transferred (n.party i) line = some (t.channel, t.new_owner) := by
  cases c with
  | transfer line =>
    obtain ⟨⟨channel, new_owner⟩, htransferred, hsome⟩ := Option.map_eq_some_iff.mp ht
    cases hsome
    have hself := hfair channel new_owner htransferred
    refine ⟨?_, hself.symm, line, rfl, htransferred⟩
    rw [hself]
    exact (of_transferred htransferred).1
  | join line => cases ht
  | pass line => cases ht
  | leave => cases ht
  | number num => cases ht

omit [DecidableEq ι] in
/-- It announces the owner, whom it keeps on file. -/
theorem Agreed.transfers (h : Agreed n) {env : Env} {c : Command}
    (hfair : Fair n (.command i env c)) {t : Transfer} (ht : transfer_of (n.party i) c = some t) :
    Spoken (n.party i).my_peer_id (fun _ => False) (· = t.channel)
      ⟨n.party i, []⟩ (exec (run_command env c) ⟨n.party i, []⟩).2 := by
  obtain ⟨-, hself, line, rfl, htransferred⟩ := fair_transfer hfair ht
  refine spoken_transfer (w := ⟨n.party i, []⟩) env line rfl (h.clean i) ?_
  intro channel new_owner htransferred'
  rw [htransferred, Option.some.injEq, Prod.mk.injEq] at htransferred'
  exact ⟨htransferred'.2.symm.trans hself.symm, htransferred'.1.symm⟩

/-- Who is named after client `i` has acted. -/
theorem named_act {w : World} {transfer : Option Transfer} {inbox : List Letter}
    {channel X : Str} (hkept : ∀ letter ∈ inbox, letter ∈ n.inbox i)
    (h : Named (n.act i w transfer inbox) channel X) :
    Named n channel X ∨ w.state.channel_creators.get? channel = some X ∨
      ∃ raw ∈ writes w.out, carries_announcement raw = true ∧
        announced_creator raw = some (channel, X) := by
  rcases h with ⟨j, hrecord⟩ | ⟨j, letter, hletter, hannounced⟩
  · unfold Clients.record Clients.act at hrecord
    dsimp only at hrecord
    by_cases hj : j = i
    · subst hj
      rw [Function.update_self] at hrecord
      exact Or.inr (Or.inl hrecord)
    · rw [Function.update_of_ne hj] at hrecord
      exact Or.inl (Or.inl ⟨j, hrecord⟩)
  · unfold Clients.act at hletter
    dsimp only at hletter
    split at hletter
    · exact Or.inl (Or.inr ⟨i, letter, hkept letter hletter, hannounced⟩)
    · rcases List.mem_append.mp hletter with hold | hnew
      · exact Or.inl (Or.inr ⟨j, letter, hold, hannounced⟩)
      · exact Or.inr (Or.inr ⟨letter.raw, (mem_letters hnew).1, letter.announces, hannounced⟩)

theorem Agreed.extends_command (h : Agreed n) (env : Env) {c : Command}
    (hfair : Fair n (.command i env c)) (hstep : n.step (.command i env c) = some n') :
    Extends (n.party i).my_peer_id.str n n' := by
  cases hstep
  intro channel X hX
  have hspeaks := h.speaks env hfair
  rcases named_act (fun _ hletter => hletter) hX with hold | hrecord | ⟨raw, hraw, hcarries, hsaid⟩
  · exact Or.inl hold
  · rcases hspeaks.recorded channel X hrecord with hbefore | ⟨hme, honly⟩
    · exact Or.inl (Or.inl ⟨i, hbefore⟩)
    · exact Or.inr ⟨hme, honly⟩
  · rcases hspeaks.said raw hraw hcarries with hbefore | ⟨channel', hannounced, honly⟩
    · cases hbefore
    · rw [hannounced, Option.some.injEq, Prod.mk.injEq] at hsaid
      obtain ⟨rfl, rfl⟩ := hsaid
      exact Or.inr ⟨rfl, honly⟩

/-- What handling a waiting announcement does. -/
theorem noted_or_own (env : Env) (self : BitchatClient) (letter : Letter) :
    (is_own self letter.raw = true ∧
      (exec (notification_handler env letter.raw) ⟨self, []⟩).2 = ⟨self, []⟩) ∨
    (is_own self letter.raw = false ∧
      Noted letter.raw ⟨self, []⟩ (exec (notification_handler env letter.raw) ⟨self, []⟩).2) := by
  by_cases hown : is_own self letter.raw = true
  · have h := exec_own (w := ⟨self, []⟩) env hown
    exact Or.inl ⟨hown, congrArg Prod.snd h⟩
  · have hother : is_own self letter.raw = false := by simpa using hown
    exact Or.inr ⟨hother, noted_handle env letter.announces hother⟩

theorem extends_handle (me : Str) {k : Nat} {env : Env}
    (hstep : n.step (.handle i k env) = some n') : Extends me n n' := by
  obtain ⟨letter, hletter, hstep⟩ := Option.map_eq_some_iff.mp hstep
  cases hstep
  have hwaits : letter ∈ n.inbox i := List.mem_of_getElem? hletter
  intro channel X hX
  left
  have hkept : ∀ letter ∈ (n.inbox i).eraseIdx k, letter ∈ n.inbox i :=
    fun _ h => List.mem_of_mem_eraseIdx h
  rcases named_act hkept hX with hold | hnew
  · exact hold
  · rcases noted_or_own env (n.party i) letter with ⟨-, hsame⟩ | ⟨-, hnoted⟩
    · rw [hsame] at hnew
      rcases hnew with hrecord | ⟨raw, hraw, -⟩
      · exact Or.inl ⟨i, hrecord⟩
      · cases hraw
    · rw [hnoted.creators, hnoted.silent] at hnew
      rcases hnew with hrecord | ⟨raw, hraw, -⟩
      · split at hrecord
        · rename_i channel' Y hannounced
          by_cases hc : channel' = channel
          · subst hc
            rw [Dict.get?_set_self, Option.some.injEq] at hrecord
            subst hrecord
            exact Or.inr ⟨i, letter, hwaits, hannounced⟩
          · rw [Dict.get?_set_ne _ _ hc] at hrecord
            exact Or.inl ⟨i, hrecord⟩
        · exact Or.inl ⟨i, hrecord⟩
      · cases hraw

theorem record_same {self : BitchatClient}
    (hsame : self.channel_creators = (n.party i).channel_creators) (j : ι) (channel : Str) :
    Clients.record { n with party := Function.update n.party i self } j channel =
      n.record j channel := by
  unfold Clients.record
  dsimp only
  by_cases hj : j = i
  · subst hj
    rw [Function.update_self, hsame]
  · rw [Function.update_of_ne hj]

/-- A client whose records stay. -/
theorem extends_same (me : Str) {self : BitchatClient}
    (hsame : self.channel_creators = (n.party i).channel_creators) :
    Extends me n { n with party := Function.update n.party i self } := by
  rintro channel X (⟨j, hrecord⟩ | hletter)
  · rw [record_same hsame] at hrecord
    exact Or.inl (Or.inl ⟨j, hrecord⟩)
  · exact Or.inl (Or.inr hletter)

theorem extends_lose (me : Str) {k : Nat} (hstep : n.step (.lose i k) = some n') :
    Extends me n n' := by
  cases hstep
  rintro channel X (hrecord | ⟨j, letter, hletter, hannounced⟩)
  · exact Or.inl (Or.inl hrecord)
  · refine Or.inl (Or.inr ⟨j, letter, ?_, hannounced⟩)
    by_cases hj : j = i
    · subst hj
      simp only [Function.update_self] at hletter
      exact List.mem_of_mem_eraseIdx hletter
    · simpa [Function.update_of_ne hj] using hletter

theorem Agreed.extends (h : Agreed n) {e : Event ι} (hfair : Fair n e)
    (hstep : n.step e = some n') : ∃ me, Extends me n n' := by
  cases e with
  | command i env c => exact ⟨_, h.extends_command env hfair hstep⟩
  | handle i k env => exact ⟨[], extends_handle [] hstep⟩
  | lose i k => exact ⟨[], extends_lose [] hstep⟩
  | peers i table =>
    cases hstep
    exact ⟨[], extends_same [] rfl⟩
  | connection i connection =>
    cases hstep
    exact ⟨[], extends_same [] rfl⟩

theorem Agreed.clean_after (h : Agreed n) {e : Event ι} (hfair : Fair n e)
    (hstep : n.step e = some n') (j : ι) : Clean (n'.party j).chat_context := by
  have hupdate : ∀ i (self : BitchatClient), Clean self.chat_context →
      Clean (Function.update n.party i self j).chat_context := by
    intro i self hself
    by_cases hj : j = i
    · subst hj
      rwa [Function.update_self]
    · rw [Function.update_of_ne hj]
      exact h.clean j
  cases e with
  | command i env c =>
    cases hstep
    exact hupdate i _ ((h.speaks env hfair).clean (h.clean i))
  | handle i k env =>
    obtain ⟨letter, -, hstep⟩ := Option.map_eq_some_iff.mp hstep
    cases hstep
    apply hupdate i
    rcases noted_or_own env (n.party i) letter with ⟨-, hsame⟩ | ⟨-, hnoted⟩
    · rw [hsame]
      exact h.clean i
    · exact hnoted.clean (h.clean i)
  | lose i k =>
    cases hstep
    exact h.clean j
  | peers i table =>
    cases hstep
    exact hupdate i _ (h.clean i)
  | connection i connection =>
    cases hstep
    exact hupdate i _ (h.clean i)

theorem Agreed.letters_after (h : Agreed n) {e : Event ι} (hfair : Fair n e)
    (hstep : n.step e = some n') (j : ι) (letter : Letter) (hletter : letter ∈ n'.inbox j)
    (t : Transfer) (ht : letter.transfer = some t) :
    announced_creator letter.raw = some (t.channel, t.new_owner) := by
  cases e with
  | command i env c =>
    cases hstep
    simp only [Clients.act, Clients.hear] at hletter
    split at hletter
    · exact h.letters i letter hletter t ht
    · rcases List.mem_append.mp hletter with hold | hnew
      · exact h.letters j letter hold t ht
      · obtain ⟨hraw, htransfer⟩ := mem_letters hnew
        obtain ⟨-, hself, -⟩ := fair_transfer hfair (htransfer.symm.trans ht)
        have hspeaks := h.transfers hfair (htransfer.symm.trans ht)
        rcases hspeaks.said _ hraw letter.announces with hbefore | ⟨channel, hsaid, rfl⟩
        · cases hbefore
        · rw [hsaid, hself]
  | handle i k env =>
    obtain ⟨waiting, -, hstep⟩ := Option.map_eq_some_iff.mp hstep
    cases hstep
    simp only [Clients.act, Clients.hear] at hletter
    split at hletter
    · exact h.letters i letter (List.mem_of_mem_eraseIdx hletter) t ht
    · rcases List.mem_append.mp hletter with hold | hnew
      · exact h.letters j letter hold t ht
      · cases (mem_letters hnew).2.symm.trans ht
  | lose i k =>
    cases hstep
    by_cases hj : j = i
    · subst hj
      simp only [Function.update_self] at hletter
      exact h.letters j letter (List.mem_of_mem_eraseIdx hletter) t ht
    · simp only [Function.update_of_ne hj] at hletter
      exact h.letters j letter hletter t ht
  | peers i table =>
    cases hstep
    exact h.letters j letter hletter t ht
  | connection i connection =>
    cases hstep
    exact h.letters j letter hletter t ht

theorem Agreed.same_record (h : Agreed n) {e : Event ι} (hfair : Fair n e)
    (hstep : n.step e = some n') {channel X Y : Str} (hX : n.record i channel = some X)
    (hY : n'.record i channel = some Y) : X = Y := by
  obtain ⟨me, hextends⟩ := h.extends hfair hstep
  exact h.same hextends (Or.inl ⟨i, hX⟩) (Or.inl ⟨i, hY⟩)

/-- What a client knows of transfers after it has heard of one, or left a channel. -/
theorem heard_act {transfer transfer' : Option Transfer} {left : Option Str} {w : World}
    {inbox : List Letter} {j : ι} {channel : Str} {t : Transfer}
    (h : ((n.hear i transfer left).act i w transfer' inbox).heard j channel = some t) :
    (n.heard j channel = some t ∧ (j = i → left ≠ some channel)) ∨
      (j = i ∧ transfer = some t ∧ t.channel = channel) := by
  unfold Clients.act Clients.hear at h
  dsimp only at h
  by_cases hj : j = i
  · subst hj
    rw [Function.update_self] at h
    split_ifs at h with hleft
    split at h
    · rename_i t'
      split_ifs at h with hc
      · cases h
        exact Or.inr ⟨rfl, rfl, hc⟩
      · exact Or.inl ⟨h, fun _ => hleft⟩
    · exact Or.inl ⟨h, fun _ => hleft⟩
  · rw [Function.update_of_ne hj] at h
    exact Or.inl ⟨h, fun hi => absurd hi hj⟩

theorem record_act_self (w : World) (transfer : Option Transfer) (inbox : List Letter)
    (channel : Str) :
    (n.act i w transfer inbox).record i channel = w.state.channel_creators.get? channel := by
  unfold Clients.record Clients.act
  dsimp only
  rw [Function.update_self]

theorem record_act_of_ne (w : World) (transfer : Option Transfer) (inbox : List Letter) {j : ι}
    (hj : j ≠ i) (channel : Str) :
    (n.act i w transfer inbox).record j channel = n.record j channel := by
  unfold Clients.record Clients.act
  dsimp only
  rw [Function.update_of_ne hj]

/-- A record that is there before and after is the same, so what was heard
still fits. -/
theorem Agreed.heard_after (h : Agreed n) {e : Event ι} (hfair : Fair n e)
    (hstep : n.step e = some n') (j : ι) (channel : Str) (t : Transfer)
    (ht : n'.heard j channel = some t) :
    t.channel = channel ∧ n'.record j channel = some t.new_owner := by
  have hstays : n.heard j channel = some t → (n'.record j channel).isSome →
      t.channel = channel ∧ n'.record j channel = some t.new_owner := by
    intro hold hsome
    obtain ⟨hchannel, hrecord⟩ := h.heard j channel t hold
    obtain ⟨Y, hY⟩ := Option.isSome_iff_exists.mp hsome
    rw [hY, h.same_record hfair hstep hrecord hY]
    exact ⟨hchannel, rfl⟩
  cases e with
  | command i env c =>
    have hspeaks := h.speaks env hfair
    have hsame : ∀ X Y, n.record i channel = some X → n'.record i channel = some Y → X = Y :=
      fun X Y hX hY => h.same_record hfair hstep hX hY
    cases hstep
    rcases heard_act ht with ⟨hold, hstayed⟩ | ⟨rfl, htransfer, rfl⟩
    · apply hstays hold
      obtain ⟨-, hrecord⟩ := h.heard j channel t hold
      by_cases hj : j = i
      · subst hj
        rw [record_act_self]
        apply hspeaks.kept channel ?_ (hstayed rfl)
        exact Option.isSome_iff_exists.mpr ⟨_, hrecord⟩
      · rw [record_act_of_ne _ _ _ hj]
        exact Option.isSome_iff_exists.mpr ⟨_, hrecord⟩
    · refine ⟨rfl, ?_⟩
      obtain ⟨hrecord, -⟩ := fair_transfer hfair htransfer
      have hkept := (h.transfers hfair htransfer).kept t.channel
        (Option.isSome_iff_exists.mpr ⟨_, hrecord⟩) id
      obtain ⟨Y, hY⟩ := Option.isSome_iff_exists.mp hkept
      rw [record_act_self] at hsame ⊢
      rw [hsame _ _ hrecord hY]
      exact hY
  | handle i k env =>
    obtain ⟨letter, hletter, hstep⟩ := Option.map_eq_some_iff.mp hstep
    have hwaits : letter ∈ n.inbox i := List.mem_of_getElem? hletter
    cases hstep
    dsimp only at ht
    rcases noted_or_own env (n.party i) letter with ⟨hown, hsame⟩ | ⟨hother, hnoted⟩
    · rw [if_pos hown] at ht
      rcases heard_act ht with ⟨hold, -⟩ | ⟨-, htransfer, -⟩
      · apply hstays hold
        obtain ⟨-, hrecord⟩ := h.heard j channel t hold
        by_cases hj : j = i
        · subst hj
          rw [record_act_self, hsame]
          exact Option.isSome_iff_exists.mpr ⟨_, hrecord⟩
        · rw [record_act_of_ne _ _ _ hj]
          exact Option.isSome_iff_exists.mpr ⟨_, hrecord⟩
      · cases htransfer
    · rw [if_neg (Bool.eq_false_iff.mp hother)] at ht
      rcases heard_act ht with ⟨hold, -⟩ | ⟨rfl, htransfer, rfl⟩
      · apply hstays hold
        obtain ⟨-, hrecord⟩ := h.heard j channel t hold
        by_cases hj : j = i
        · subst hj
          rw [record_act_self, hnoted.creators]
          have hhas : (n.party j).channel_creators.has channel = true :=
            Option.isSome_iff_exists.mpr ⟨_, hrecord⟩
          split
          · exact Dict.has_set_of_has _ hhas _ _
          · exact hhas
        · rw [record_act_of_ne _ _ _ hj]
          exact Option.isSome_iff_exists.mpr ⟨_, hrecord⟩
      · refine ⟨rfl, ?_⟩
        rw [record_act_self, hnoted.creators, h.letters j letter hwaits t htransfer]
        exact Dict.get?_set_self _ _ _
  | lose i k =>
    cases hstep
    exact h.heard j channel t ht
  | peers i table =>
    cases hstep
    obtain ⟨hchannel, hrecord⟩ := h.heard j channel t ht
    refine ⟨hchannel, Eq.trans (record_same ?_ j channel) hrecord⟩
    rfl
  | connection i connection =>
    cases hstep
    obtain ⟨hchannel, hrecord⟩ := h.heard j channel t ht
    refine ⟨hchannel, Eq.trans (record_same ?_ j channel) hrecord⟩
    rfl

theorem agreed_of_run (h : (clients ι).RunWith Fair n) : Agreed n := by
  refine h.invariant (I := Agreed) ?_ ?_
  · rintro n ⟨hclients, hinboxes, hheard⟩
    have hnobody : ∀ channel X, ¬ Named n channel X := by
      rintro channel X (⟨i, hrecord⟩ | ⟨i, letter, hletter, -⟩)
      · unfold Clients.record at hrecord
        rw [(hclients i).1] at hrecord
        cases hrecord
      · rw [hinboxes i] at hletter
        cases hletter
    refine ⟨fun channel X _ hX => absurd hX (hnobody channel X), ?_, ?_, ?_⟩
    · intro i
      rw [(hclients i).2]
      exact ⟨(fun _ hc => by cases hc), (fun _ hc => by cases hc)⟩
    · intro i letter hletter
      rw [hinboxes i] at hletter
      cases hletter
    · intro i channel t ht
      cases (hheard i channel).symm.trans ht
  · intro n e n' _ h hfair hstep
    obtain ⟨me, hextends⟩ := h.extends hfair hstep
    exact ⟨h.one_after hextends, h.clean_after hfair hstep, h.letters_after hfair hstep,
      h.heard_after hfair hstep⟩

/-- In every run in which each step announces no other owner than the one on
file everywhere, records change by `/transfer` only, and who handled the
announcement of one has the new owner on file. -/
theorem owners_agree (h : (clients ι).RunWith Fair n) :
    TransfersArrive n ∧
      ∀ e n', Fair n e → (clients ι).step n e = some n' → ChangesByTransfer n e n' := by
  have hagreed := agreed_of_run h
  constructor
  · intro i t ht _
    exact (hagreed.heard i t.channel t ht).2
  · intro e n' hfair hstep i channel X Y hX hY hne
    exact absurd (hagreed.same_record hfair hstep hX hY) hne

end client.Ownership

/-! ## Two clients -/

namespace client.Ownership.standIn

open python bitchat bitchat.protocol systems

attribute [local instance] client.standIn.packages

def id_of (i : Bool) : PeerId :=
  if i then ⟨[1, 1, 1, 1, 1, 1, 1, 1], PeerId.length_ones⟩
  else ⟨[2, 2, 2, 2, 2, 2, 2, 2], PeerId.length_twos⟩

def start : Clients Bool where
  party i := client.standIn.newcomer (id_of i) (if i then 1 else 2)
  inbox _ := []
  heard _ _ := none

def command (i : Bool) (c : Command) : Event Bool := .command i (client.standIn.env 1) c

/-- `true` founds the channel, and `false` hears of it. -/
def founded : List (Event Bool) :=
  [.connection true .up, .connection false .up, command true (.join "/j #c".toList),
    command true (.pass "/pass pw12".toList), .handle false 0 (client.standIn.env 2)]

/-- `true` hands the channel to `false`, who handles the announcement. -/
def handed_over : List (Event Bool) :=
  founded ++ [.peers true (Dict.empty.set (id_of false).str ⟨some "bob".toList⟩),
    command true (.transfer "/transfer @bob".toList), .handle false 0 (client.standIn.env 3)]

/-- `false` joins with the password, and `true` handles its announcement. -/
def joined : List (Event Bool) := founded ++ [command false (.join "/j #c pw12".toList)]

def channel : Str := "#c".toList

def after (story : List (Event Bool)) : Option (Clients Bool) :=
  (clients Bool).replay start story

theorem start_fresh : Fresh start := by
  refine ⟨?_, fun _ => rfl, fun _ _ => rfl⟩
  intro i
  exact ⟨rfl, rfl⟩

theorem reachable_after {story : List (Event Bool)} {n : Clients Bool} (h : after story = some n) :
    (clients Bool).Reachable n :=
  System.reachable_replay (.start start_fresh) h

/-- `/j` announces nothing, and `/pass` comes while nobody is named. -/
def nothing_claimed (n : Clients Bool) : Event Bool → Bool
  | .command i _ (.join line) => announced_by_join (n.party i) line = none
  | .command _ _ (.pass _) =>
    ∀ j, (n.party j).channel_creators.entries = [] ∧ (n.inbox j).isEmpty
  | .command _ _ (.transfer _) => false
  | _ => true

theorem fair_of_nothing_claimed (n : Clients Bool) (e : Event Bool)
    (h : nothing_claimed n e = true) : Fair n e := by
  cases e with
  | command i env c =>
    cases c with
    | join line =>
      intro channel hchannel
      cases (of_decide_eq_true h).symm.trans hchannel
    | pass line =>
      have hnobody := of_decide_eq_true h
      rintro channel - X (⟨j, hrecord⟩ | ⟨j, letter, hletter, -⟩)
      · have hentries := (hnobody j).1
        unfold Clients.record Dict.get? at hrecord
        rw [hentries] at hrecord
        cases hrecord
      · rw [List.isEmpty_iff.mp (hnobody j).2] at hletter
        cases hletter
    | transfer line => cases h
    | leave => trivial
    | number num => trivial
  | handle i k env => trivial
  | lose i k => trivial
  | peers i table => trivial
  | connection i connection => trivial

/-- Both have the founder on file. -/
theorem the_founder_is_on_file : ∃ n, (clients Bool).RunWith Fair n ∧
    n.record true channel = some (id_of true).str ∧
    n.record false channel = some (id_of true).str ∧ TransfersArrive n := by
  have hstory : ((clients Bool).checked nothing_claimed start founded).map (fun n =>
      (n.record true channel, n.record false channel)) =
        some (some (id_of true).str, some (id_of true).str) := by
    decide +kernel
  obtain ⟨n, hn, hrecords⟩ := Option.map_eq_some_iff.mp hstory
  have hrun : (clients Bool).RunWith Fair n :=
    System.runWith_checked (.start start_fresh) (fun n e _ h => fair_of_nothing_claimed n e h) hn
  exact ⟨n, hrun, congrArg Prod.fst hrecords, congrArg Prod.snd hrecords, (owners_agree hrun).1⟩

/-- After the transfer the new owner has the old one on file, who has the new
one. And a member that joins makes itself the owner. -/
theorem owners_disagree :
    (∃ n, (clients Bool).Reachable n ∧ n.record true channel = some (id_of false).str ∧
      n.record false channel = some (id_of true).str ∧ ¬ TransfersArrive n) ∧
    ∃ n e n', (clients Bool).Reachable n ∧ (clients Bool).step n e = some n' ∧
      ¬ ChangesByTransfer n e n' := by
  constructor
  · have hstory : (after handed_over).map (fun n => decide (
        n.record true channel = some (id_of false).str ∧
        n.record false channel = some (id_of true).str ∧
        (n.heard false channel).map (fun t => (t.channel, t.new_owner)) =
          some (channel, (id_of false).str) ∧
        (n.inbox true).length = 0 ∧ (n.inbox false).length = 0)) = some true := by
      decide +kernel
    obtain ⟨n, hn, hfacts⟩ := Option.map_eq_some_iff.mp hstory
    obtain ⟨htrue, hfalse, hheard, hinbox, hinbox'⟩ := of_decide_eq_true hfacts
    refine ⟨n, reachable_after hn, htrue, hfalse, ?_⟩
    intro harrive
    obtain ⟨t, ht, hpair⟩ := Option.map_eq_some_iff.mp hheard
    rw [Prod.mk.injEq] at hpair
    have hnobody : ∀ j, ∀ letter ∈ n.inbox j, letter.transfer ≠ some t := by
      intro j letter hletter
      cases j with
      | true => rw [List.length_eq_zero_iff.mp hinbox] at hletter; cases hletter
      | false => rw [List.length_eq_zero_iff.mp hinbox'] at hletter; cases hletter
    have hrecord := harrive false t (by rw [hpair.1]; exact ht) hnobody
    rw [hpair.1, hpair.2, hfalse] at hrecord
    revert hrecord
    decide +kernel
  · have hstory : (after joined).bind (fun n => ((clients Bool).step n
        (.handle true 0 (client.standIn.env 3))).map fun n' =>
          (n.record true channel, n'.record true channel)) =
        some (some (id_of true).str, some (id_of false).str) := by
      decide +kernel
    obtain ⟨n, hn, hstep⟩ := Option.bind_eq_some_iff.mp hstory
    obtain ⟨n', hn', hfacts⟩ := Option.map_eq_some_iff.mp hstep
    rw [Prod.mk.injEq] at hfacts
    refine ⟨n, _, n', reachable_after hn, hn', ?_⟩
    intro hchanges
    have hcause := hchanges true channel _ _ hfacts.1 hfacts.2 (by decide +kernel)
    have hnone : (after joined).map (fun n => (cause n
        (.handle true 0 (client.standIn.env 3))).isNone) = some true := by
      decide +kernel
    rw [hn, Option.map_some, hcause] at hnone
    cases hnone

end client.Ownership.standIn
