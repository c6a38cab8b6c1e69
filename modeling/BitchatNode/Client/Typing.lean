-- Where a line goes that is no command. The client asks the conversation it is
-- in when the line is typed; packets that come in may have changed it meanwhile.
import BitchatNode.Client.Startup
import BitchatNode.Client.Fragments
import BitchatNode.MessageCodec

namespace client

open python bitchat bitchat.protocol bitchat.encryption
open daemon (with_ttl chunks)

variable [InputPackages]

/-! ## What is written -/

/-- The bytes are the packet, or a packet with a piece of it. -/
inductive Carries (packet : Bytes) : Bytes → Prop
  | whole : Carries packet packet
  | piece {my_peer_id : Str} {fragment_id chunk raw : Bytes} {index total : Nat} {draw : Draw}
    (hchunk : chunk ∈ chunks packet)
    (hraw : fragment_packet my_peer_id fragment_id index total chunk draw = .ok raw) :
    Carries packet raw

/-- Whatever is written carries a packet as in `P`. -/
def Puts (P : Bytes → Prop) (w w' : World) : Prop :=
  ∃ new, writes w'.out = writes w.out ++ new ∧ ∀ raw ∈ new, ∃ packet, P packet ∧ Carries packet raw

section

variable {P : Bytes → Prop}

instance : IsPreorder World (Puts P) where
  refl _ := ⟨[], (List.append_nil _).symm, by simp⟩
  trans _ _ _ h g := by
    obtain ⟨new, hwrites, hnew⟩ := h
    obtain ⟨new', hwrites', hnew'⟩ := g
    refine ⟨new ++ new', by rw [hwrites', hwrites, List.append_assoc], ?_⟩
    intro raw hraw
    rcases List.mem_append.mp hraw with hraw | hraw
    · exact hnew raw hraw
    · exact hnew' raw hraw

theorem puts_nothing {w w' : World} (h : w'.out = w.out) : Puts P w w' :=
  ⟨[], by rw [h, List.append_nil], by simp⟩

theorem puts_modifyClient (f : BitchatClient → BitchatClient) : Moves (Puts P) (modifyClient f) :=
  fun _ => puts_nothing rfl

theorem puts_onService {α : Type} (x : Py PyError EncryptionService α) :
    Moves (Puts P) (onService x) := fun _ => puts_nothing rfl

theorem puts_write {packet raw : Bytes} (hpacket : P packet) (hraw : Carries packet raw) :
    Moves (Puts P) (emit (.write raw)) :=
  fun _ => ⟨[raw], List.filterMap_append, by simpa using ⟨packet, hpacket, hraw⟩⟩

theorem puts_send_fragments (env : Env) (fragment_id : Bytes) (total : Nat) {packet : Bytes}
    (hpacket : P packet) : ∀ (pieces : List Bytes) (index : Nat), pieces ⊆ chunks packet →
      Moves (Puts P) (send_fragments env fragment_id total index pieces)
  | [], _, _ => Moves.pure ()
  | chunk :: rest, index, hpieces => by
    obtain ⟨hchunk, hrest⟩ := List.cons_subset.mp hpieces
    unfold send_fragments
    apply moves_look
    intro self
    apply Moves.outcome_bind
    intro raw hraw
    cases env.write index with
    | done =>
      refine Moves.bind (puts_write hpacket (.piece hchunk hraw)) fun _ => ?_
      exact puts_send_fragments env fragment_id total hpacket rest (index + 1) hrest
    | dropped => exact Moves.throw _
    | disconnected => exact puts_modifyClient _
    | raised e => exact Moves.throw e

theorem puts_send_packet (env : Env) {packet : Bytes} (hpacket : P packet) :
    Moves (Puts P) (send_packet env packet) := by
  unfold send_packet
  apply moves_look
  intro self
  cases self.connection with
  | none => exact Moves.pure ()
  | lost => exact puts_modifyClient _
  | up =>
    apply Moves.ite
    · exact puts_send_fragments _ _ _ hpacket _ _ (List.Subset.refl _)
    · cases env.write 0 with
      | done => exact puts_write hpacket .whole
      | dropped => exact Moves.pure ()
      | disconnected => exact puts_modifyClient _
      | raised e => exact Moves.throw e

end

/-! ## A line to one peer -/

/-- The packet is sealed under the session with the peer, or it is the first
message of a handshake, in which there is no content. -/
inductive SealedFor (my_peer_id : PeerId) (service : EncryptionService) (peer_id : Str) :
    Bytes → Prop
  | sealed {inner encrypted packet : Bytes} {service' : EncryptionService} {draw : Draw}
    (hsealed : exec (EncryptionService.encrypt_for_peer peer_id inner) service =
      (.ok encrypted, service'))
    (hpacket : create_bitchat_packet_with_recipient my_peer_id.str (some peer_id)
      .NOISE_ENCRYPTED encrypted none draw = .ok packet) :
    SealedFor my_peer_id service peer_id packet
  | handshake {generated : Crypto.PrivateKey} {handshake_message packet : Bytes}
    {service' : EncryptionService} {draw : Draw}
    (hfirst : exec (EncryptionService.initiate_handshake peer_id generated) service =
      (.ok handshake_message, service'))
    (hpacket : create_bitchat_packet_with_recipient my_peer_id.str (some peer_id)
      .NOISE_HANDSHAKE_INIT handshake_message none draw = .ok packet) :
    SealedFor my_peer_id service peer_id (with_ttl packet 3)

/-- What the client may send to the peer. -/
abbrev ForPeer (self : BitchatClient) (peer_id : Str) : Bytes → Prop :=
  SealedFor self.my_peer_id self.encryption_service peer_id

/-- What follows a call on the encryption service may rely on its result. -/
theorem puts_onService_bind {P : Bytes → Prop} {α β : Type} {x : Py PyError EncryptionService α}
    {f : α → Client β} {w : World}
    (h : ∀ a service, exec x w.state.encryption_service = (.ok a, service) →
      ∀ w' : World, w'.state.my_peer_id = w.state.my_peer_id → Puts P w' (exec (f a) w').2) :
    Puts P w (exec (onService x >>= f) w).2 := by
  rw [exec_bind, exec_onService]
  rcases hx : exec x w.state.encryption_service with ⟨e | a, service⟩
  · exact puts_nothing rfl
  · have hservice : Puts P w { w with state := { w.state with encryption_service := service } } :=
      puts_nothing rfl
    exact trans_of (Puts P) hservice (h a service hx _ rfl)

theorem puts_start_handshake (env : Env) (peer_id : Str) (w : World) :
    Puts (ForPeer w.state peer_id) w (exec (start_handshake env peer_id) w).2 := by
  unfold start_handshake
  apply puts_onService_bind
  intro handshake_message service hfirst w' hid
  rw [exec_bind_ok _ (exec_getClient _)]
  refine Moves.outcome_bind ?_ w'
  intro packet hpacket
  rw [hid] at hpacket
  exact puts_send_packet _ (.handshake hfirst hpacket)

theorem puts_seal_and_send (env : Env) (target_peer_id : Str) (inner_packet : Bytes) (w : World) :
    Puts (ForPeer w.state target_peer_id) w
      (exec (seal_and_send env target_peer_id inner_packet) w).2 := by
  unfold seal_and_send
  rw [exec_bind_ok _ (exec_getClient _)]
  apply puts_onService_bind
  intro encrypted service hsealed w' hid
  refine Moves.outcome_bind ?_ w'
  intro packet hpacket
  have hsend (env : Env) : Moves (Puts (ForPeer w.state target_peer_id)) (send_packet env packet) :=
    puts_send_packet env (.sealed hsealed hpacket)
  unfold send_with_retry
  refine Moves.bind (hsend _).attempt fun result => ?_
  cases result with
  | ok _ => exact Moves.pure ()
  | error e => exact Moves.ite (hsend _).suppress (Moves.throw e)

/-- What follows a change of the client may rely on it. -/
theorem puts_modifyClient_bind {P : Bytes → Prop} {α : Type}
    {f : BitchatClient → BitchatClient} {g : Unit → Client α} {w : World}
    (h : Puts P { w with state := f w.state }
      (exec (g ()) { w with state := f w.state }).2) :
    Puts P w (exec (modifyClient f >>= g) w).2 := by
  rw [exec_bind, exec_modifyClient]
  exact trans_of (Puts P) (puts_nothing rfl) h

theorem puts_outcome_bind {P : Bytes → Prop} {α β : Type} {r : Except PyError α}
    {f : α → Client β} {w : World} (h : ∀ a, r = .ok a → Puts P w (exec (f a) w).2) :
    Puts P w (exec (outcome r >>= f) w).2 := by
  rw [exec_bind, exec_outcome]
  cases r with
  | error e => exact puts_nothing rfl
  | ok a => exact h a rfl

theorem puts_encrypt_private_message (env : Env) (content target_peer_id : Str) (w : World) :
    Puts (ForPeer w.state target_peer_id) w
      (exec (encrypt_private_message env content target_peer_id) w).2 := by
  unfold encrypt_private_message
  rw [exec_bind_ok _ (exec_getClient w)]
  apply puts_outcome_bind
  rintro ⟨payload, message_id⟩ -
  apply puts_modifyClient_bind
  apply puts_outcome_bind
  intro inner_packet _
  exact puts_seal_and_send _ _ _ _

theorem puts_attempt_handshake (env : Env) (target_peer_id : Str) (current_time : UInt64)
    (w : World) : Puts (ForPeer w.state target_peer_id) w
      (exec (attempt_handshake env target_peer_id current_time) w).2 := by
  unfold attempt_handshake
  apply puts_modifyClient_bind
  refine Moves.bind_from (puts_start_handshake env target_peer_id _) fun result => ?_
  cases result with
  | ok _ => exact Moves.pure ()
  | error e => exact puts_modifyClient _

theorem puts_attempt_if_due (env : Env) (target_peer_id : Str) (current_time : UInt64)
    (w : World) : Puts (ForPeer w.state target_peer_id) w
      (exec (attempt_if_due env target_peer_id current_time) w).2 := by
  unfold attempt_if_due
  rw [exec_bind_ok _ (exec_getClient _)]
  cases w.state.handshake_attempt_times.get? target_peer_id with
  | none => exact puts_attempt_handshake _ _ _ _
  | some last_attempt =>
    dsimp only
    split
    · exact puts_nothing rfl
    · exact puts_attempt_handshake _ _ _ _

/-- A private message goes to its peer alone. -/
theorem puts_send_private_message (env : Env) (content target_peer_id target_nickname : Str)
    (message_id : Option Str) (w : World) : Puts (ForPeer w.state target_peer_id) w
      (exec (send_private_message env content target_peer_id target_nickname message_id) w).2 := by
  unfold send_private_message
  rw [exec_bind_ok _ (exec_getClient _)]
  split
  · exact puts_nothing rfl
  · split
    · exact puts_encrypt_private_message _ _ _ _
    · unfold queue_private_message
      apply puts_modifyClient_bind
      exact puts_attempt_if_due _ _ _ _

/-! ## A line to a channel -/

/-- The packet is that of a message to the channel whose content is sealed under
the key. With the sealed content given, the content itself makes no difference
to the payload. -/
inductive SealedUnder (self : BitchatClient) (channel : Str) (key : Bytes) (content : Str) :
    Bytes → Prop
  | mk {nonce payload packet : Bytes} {message_id : Str} {message : BitchatMessage}
    {draw draw' : Draw} (hnonce : nonce.length = 12)
    (hpayload : ∀ other : Str, create_bitchat_message_payload_full self.nickname other
      (some channel) false self.my_peer_id.str true
      (some (EncryptionService.encrypt_for_channel content key nonce)) draw =
        .ok (payload, message_id))
    (hpacket : create_bitchat_packet self.my_peer_id.str .MESSAGE payload draw' = .ok packet)
    (hparse : parse_bitchat_message_payload payload = .ok message)
    (hencrypted : message.is_encrypted = true) (hchannel : message.channel = some channel)
    (hsealed : message.encrypted_content =
      some (EncryptionService.encrypt_for_channel content key nonce)) :
    SealedUnder self channel key content packet

theorem encrypt_for_channel_ne_nil (content : Str) (key : Bytes) {nonce : Bytes}
    (hnonce : nonce.length = 12) :
    EncryptionService.encrypt_for_channel content key nonce ≠ [] := by
  intro hnil
  have hlength := congrArg List.length hnil
  simp only [EncryptionService.encrypt_for_channel, List.length_append, hnonce, List.length_nil]
    at hlength
  omega

theorem sealedUnder_of_created {self : BitchatClient} {channel content : Str} {key : Bytes}
    (hname : channel ≠ []) {nonce : Bytes} (hnonce : nonce.length = 12) {draw draw' : Draw}
    {payload packet : Bytes} {message_id : Str}
    (hpayload : create_bitchat_message_payload_full self.nickname content (some channel) false
      self.my_peer_id.str true (some (EncryptionService.encrypt_for_channel content key nonce))
      draw = .ok (payload, message_id))
    (hpacket : create_bitchat_packet self.my_peer_id.str .MESSAGE payload draw' = .ok packet) :
    SealedUnder self channel key content packet := by
  have hne := encrypt_for_channel_ne_nil content key hnonce
  have hfield (other : Str) :
      payload_bytes other true (some (EncryptionService.encrypt_for_channel content key nonce)) =
        EncryptionService.encrypt_for_channel content key nonce := by
    simp [payload_bytes, hne]
  have hfits := create_payload_fits _ _ _ _ _ _ _ hpayload
  have hfits_other (other : Str) : PayloadFits self.nickname (payload_bytes other true
      (some (EncryptionService.encrypt_for_channel content key nonce))) self.my_peer_id.str
      ((some channel).getD []) := by
    rw [hfield other, ← hfield content]
    exact hfits
  obtain ⟨built, hbuilt, hparse⟩ := payload_comes_back (some channel) false draw hfits
  rw [hbuilt, Except.ok.injEq, Prod.mk.injEq] at hpayload
  obtain ⟨rfl, rfl⟩ := hpayload
  have hother (other : Str) : create_bitchat_message_payload_full self.nickname other
      (some channel) false self.my_peer_id.str true
      (some (EncryptionService.encrypt_for_channel content key nonce)) draw =
        .ok (built, draw.uuid.str) := by
    rw [← hbuilt, create_payload_ok _ _ _ (hfits_other other), create_payload_ok _ _ _ hfits,
      hfield, hfield]
  refine .mk hnonce hother hpacket hparse rfl ?_ ?_
  · simp [hname]
  · simp [hfield]

theorem puts_send_public_message (env : Env) (content : Str) {channel : Str} (hname : channel ≠ [])
    {w : World} (hmode : w.state.chat_context.current_mode = .Channel channel)
    (hprotected : channel ∈ w.state.password_protected_channels) :
    Puts (fun packet => ∃ key, w.state.channel_keys.get? channel = some key ∧
      SealedUnder w.state channel key content packet) w
      (exec (send_public_message env content) w).2 := by
  have hchannel : current_channel w.state = some channel := by
    unfold current_channel
    rw [hmode]
  unfold send_public_message
  rw [exec_bind_ok _ (exec_getClient _)]
  split
  · exact puts_nothing rfl
  · split
    · exact puts_nothing rfl
    · rename_i hkeyed
      obtain ⟨key, hkey⟩ : ∃ key, w.state.channel_keys.get? channel = some key := by
        rcases hget : w.state.channel_keys.get? channel with _ | key
        · exfalso
          apply hkeyed
          have hhas := (Dict.has_eq_false_iff _ _).mpr hget
          simp [lacks_password, hchannel, hprotected, hhas]
        · exact ⟨key, rfl⟩
      apply puts_outcome_bind
      rintro ⟨payload, message_id⟩ hpayload
      apply puts_modifyClient_bind
      apply puts_outcome_bind
      intro message_packet hpacket
      apply puts_send_packet
      have hkeyed : ((some channel).filter (· ≠ [])).bind w.state.channel_keys.get? =
          some key := by
        simp [Option.filter, hname, hkey]
      unfold public_payload at hpayload
      simp only [hchannel, hkeyed] at hpayload
      exact ⟨key, hkey, sealedUnder_of_created hname ((env.draw 0).entropy.length_urandom 12)
        hpayload hpacket⟩

/-! ## Lines while things happen -/

/-- What comes next to a client: something happens, or the user types a line. -/
inductive Moment
  | happens (happening : Happening)
  | types (line : Str)

def live (env : Env) : Moment → Client Unit
  | .happens happening => happen env happening
  | .types line => discard (handle_user_input env line)

/-- The client after these moments, in this order. -/
def World.lived (w : World) (story : List (Env × Moment)) : World :=
  story.foldl (fun w e => (exec (live e.1 e.2) w).2) w

/-- Every line that the user types is a message. -/
def OnlyMessages (story : List (Env × Moment)) : Prop :=
  ∀ e ∈ story, ∀ line, e.2 = .types line → ∃ content, read_line line = .message content

theorem exec_message {line content : Str} (h : read_line line = .message content) (env : Env)
    (w : World) : (exec (handle_user_input env line) w).2 = (exec (send_line env content) w).2 := by
  unfold handle_user_input
  simp only [h]
  rw [exec_bind]
  rcases exec (send_line env content) w with ⟨_ | _, w'⟩ <;> rfl

theorem Sending.send_public_message {S : World → World → Prop} [IsPreorder World S]
    (h : Sending S) (env : Env) (content : Str) : Moves S (send_public_message env content) := by
  unfold client.send_public_message
  apply moves_look
  intro self
  refine Moves.ite (Moves.pure ()) (Moves.ite (Moves.pure ()) ?_)
  refine Moves.bind (Moves.outcome _) ?_
  rintro ⟨payload, message_id⟩
  refine Moves.bind (h.modify fun s => ?_) fun _ => ?_
  · exact ⟨rfl, rfl, rfl, rfl, rfl, rfl, rfl, rfl, rfl, rfl⟩
  · exact Moves.bind (Moves.outcome _) fun _ => h.send_packet _ _

theorem Sending.send_line {S : World → World → Prop} [IsPreorder World S] (h : Sending S)
    (env : Env) (content : Str) : Moves S (send_line env content) := by
  unfold client.send_line
  apply moves_look
  intro self
  cases self.chat_context.current_mode with
  | PrivateDM nickname peer_id => exact h.send_private_message _ _ _ _ _
  | Public => exact Moves.ite (Moves.pure ()) (h.send_public_message _ _)
  | Channel channel => exact Moves.ite (Moves.pure ()) (h.send_public_message _ _)

theorem Happenings.live {S T : World → World → Prop} [IsPreorder World S] (h : Happenings S T)
    (env : Env) {moment : Moment}
    (honly : ∀ line, moment = .types line → ∃ content, read_line line = .message content) :
    Moves T (live env moment) := by
  cases moment with
  | happens happening => exact h.happen env happening
  | types line =>
    obtain ⟨content, hline⟩ := honly line rfl
    intro w
    unfold client.live
    rw [exec_discard, exec_message hline]
    exact h.of_send (h.send_line env content) w

/-- What holds at the start, and after each moment that led to a state as in `Q`
where it held before, holds as long as all states are as in `Q`. -/
theorem holds_lived {S T : World → World → Prop} [IsPreorder World S] (h : Happenings S T)
    {I Q : World → Prop} (hkeep : ∀ w w', T w w' → I w → Q w' → I w') {w : World} (hstart : I w)
    {story : List (Env × Moment)} (honly : OnlyMessages story)
    (hstates : ∀ n, Q (w.lived (story.take n))) : I (w.lived story) := by
  induction story generalizing w with
  | nil => exact hstart
  | cons e story ih =>
    have hfirst : Q (exec (client.live e.1 e.2) w).2 := hstates 1
    have hmoves := h.live e.1 (honly e List.mem_cons_self) w
    refine ih (w := (exec (client.live e.1 e.2) w).2) (hkeep _ _ hmoves hstart hfirst)
      (fun d hd => honly d (List.mem_cons_of_mem e hd)) fun n => ?_
    exact hstates (n + 1)

/-! ### With one peer -/

/-- The client is in a conversation with the peer. -/
def TalksTo (nickname peer_id : Str) (w : World) : Prop :=
  w.state.chat_context.current_mode = .PrivateDM nickname peer_id

/-- The conversation with the peer goes on, or the peer is not on file any
more. -/
def Stays (nickname peer_id : Str) (w w' : World) : Prop :=
  TalksTo nickname peer_id w → TalksTo nickname peer_id w' ∨ w'.state.peers.has peer_id = false

/-- In addition nobody is put on file. -/
structure StaysPut (nickname peer_id : Str) (w w' : World) : Prop where
  stays : Stays nickname peer_id w w'
  nobody_new : w.state.peers.has peer_id = false → w'.state.peers.has peer_id = false

section

variable {nickname peer_id : Str}

theorem StaysPut.after {u v w : World} (h : Stays nickname peer_id u v)
    (g : StaysPut nickname peer_id v w) : Stays nickname peer_id u w := by
  intro htalks
  rcases h htalks with hstill | hgone
  · exact g.stays hstill
  · exact Or.inr (g.nobody_new hgone)

instance : IsPreorder World (StaysPut nickname peer_id) where
  refl _ := ⟨Or.inl, id⟩
  trans _ _ _ h g := ⟨g.after h.stays, fun hgone => g.nobody_new (h.nobody_new hgone)⟩

omit [InputPackages] in
@[simp] theorem current_mode_add_channel (channel : Str) (self : ChatContext) :
    (self.add_channel channel).current_mode = self.current_mode := by
  unfold ChatContext.add_channel
  split <;> rfl

theorem stays_of_same_mode {w w' : World}
    (h : w'.state.chat_context.current_mode = w.state.chat_context.current_mode) :
    Stays nickname peer_id w w' := fun htalks => Or.inl (h.trans htalks)

theorem stays_lose_peer (other : Str) :
    Moves (Stays nickname peer_id) (modifyClient (·.lose_peer other)) := by
  intro w htalks
  rw [exec_modifyClient]
  unfold TalksTo at htalks ⊢
  unfold BitchatClient.lose_peer
  by_cases hother : peer_id = other
  · right
    dsimp only
    rw [hother]
    split <;> exact Dict.has_pop_self _ _
  · left
    dsimp only
    split
    · exact htalks
    · simp [htalks, hother]

theorem stays_happenings : Happenings (StaysPut nickname peer_id) (Stays nickname peer_id) where
  quiet w w' h := ⟨stays_of_same_mode (congrArg ChatContext.current_mode h.face.chat_context),
    fun hgone => by rw [h.face.peers]; exact hgone⟩
  disconnect w := ⟨fun _ => Or.inr rfl, fun _ => rfl⟩
  send w w' h := h.stays
  before u v w h g := by
    intro htalks
    apply g
    exact (congrArg ChatContext.current_mode h.face.chat_context).trans htalks
  after u v w h g := g.after h
  shows w w' h := stays_of_same_mode h.current_mode
  name_peer _ _ _ := stays_of_same_mode rfl
  lose_peer := stays_lose_peer
  announce packet w := by
    unfold handle_channel_announce
    split
    · exact stays_of_same_mode (current_mode_add_channel _ _)
    · exact stays_of_same_mode rfl
  clear_peers _ _ := Or.inr rfl

end

/-- What a line writes that is typed in a conversation with one peer is sealed
for this peer or carries no content, whatever has happened since the
conversation began, as long as the peer was on file throughout. -/
theorem a_line_to_a_peer_is_sealed_for_it {nickname peer_id : Str} {w : World}
    (hmode : w.state.chat_context.current_mode = .PrivateDM nickname peer_id)
    {story : List (Env × Moment)} (honly : OnlyMessages story)
    (hpresent : ∀ n, (w.lived (story.take n)).state.peers.has peer_id = true)
    (env : Env) {line content : Str} (hline : read_line line = .message content) :
    Puts (ForPeer (w.lived story).state peer_id) (w.lived story)
      (exec (handle_user_input env line) (w.lived story)).2 := by
  have hkeep : ∀ w w', Stays nickname peer_id w w' → TalksTo nickname peer_id w →
      w'.state.peers.has peer_id = true → TalksTo nickname peer_id w' := by
    intro w w' hstays htalks hthere
    refine (hstays htalks).resolve_right fun hgone => ?_
    rw [hthere] at hgone
    cases hgone
  have htalks := holds_lived stays_happenings hkeep hmode honly hpresent
  unfold TalksTo at htalks
  rw [exec_message hline]
  unfold send_line
  rw [exec_bind_ok _ (exec_getClient _)]
  simp only [htalks]
  exact puts_send_private_message _ _ _ _ _ _

/-! ### With a channel -/

/-- The client talks to the channel, and holds the key, if one is given. -/
structure Holds (channel : Str) (key : Option Bytes) (w : World) : Prop where
  mode : w.state.chat_context.current_mode = .Channel channel
  key : ∀ k ∈ key, w.state.channel_keys.get? channel = some k

section

variable {channel : Str} {key : Option Bytes}

/-- The client keeps to the channel, and it keeps its key unless the channel is
protected no longer. -/
structure KeepsKey (channel : Str) (key : Option Bytes) (w w' : World) : Prop where
  keeps : Holds channel key w → channel ∈ w'.state.password_protected_channels →
    Holds channel key w'

/-- The channels stay as they are, and a conversation with one as well. -/
structure KeepsAll (channel : Str) (w w' : World) : Prop where
  mode : w.state.chat_context.current_mode = .Channel channel →
    w'.state.chat_context.current_mode = .Channel channel
  channel_keys : w'.state.channel_keys = w.state.channel_keys
  password_protected_channels :
    w'.state.password_protected_channels = w.state.password_protected_channels

instance : IsPreorder World (KeepsAll channel) where
  refl _ := ⟨id, rfl, rfl⟩
  trans _ _ _ h g := ⟨fun hmode => g.1 (h.1 hmode), g.2.trans h.2, g.3.trans h.3⟩

theorem KeepsAll.holds {w w' : World} (h : KeepsAll channel w w') (hholds : Holds channel key w) :
    Holds channel key w' := by
  refine ⟨h.mode hholds.mode, ?_⟩
  rw [h.channel_keys]
  exact hholds.key

theorem keeps_lose_peer (other : Str) :
    Moves (KeepsAll channel) (modifyClient (·.lose_peer other)) := by
  intro w
  rw [exec_modifyClient]
  unfold BitchatClient.lose_peer
  dsimp only
  split
  · exact ⟨id, rfl, rfl⟩
  · refine ⟨fun hmode => ?_, rfl, rfl⟩
    simp [hmode]

theorem keeps_announce (packet : BitchatPacket) :
    Moves (KeepsKey channel key) (handle_channel_announce packet) := by
  intro w
  refine ⟨fun hholds hprotected => ?_⟩
  unfold handle_channel_announce at hprotected ⊢
  split
  · rename_i name flag creator_id rest hsplit
    simp only [hsplit] at hprotected
    refine ⟨(current_mode_add_channel _ _).trans hholds.mode, fun k hk => ?_⟩
    have hkey := hholds.key k hk
    replace hprotected : channel ∈ (if decide (flag = ['1']) = true then
        insert name w.state.password_protected_channels
      else w.state.password_protected_channels.erase name) := hprotected
    show (if decide (flag = ['1']) = true then w.state.channel_keys
      else w.state.channel_keys.pop name).get? channel = some k
    split at hprotected
    · rename_i hflag
      rw [if_pos hflag]
      exact hkey
    · rename_i hflag
      have hne : name ≠ channel := (Finset.ne_of_mem_erase hprotected).symm
      rw [if_neg hflag, Dict.get?_pop_ne _ hne]
      exact hkey
  · exact hholds

theorem keeps_happenings : Happenings (KeepsAll channel) (KeepsKey channel key) where
  quiet w w' h := ⟨fun hmode => by rw [h.face.chat_context]; exact hmode, h.face.channel_keys,
    h.face.password_protected_channels⟩
  disconnect w := by
    refine ⟨fun hmode => ?_, rfl, rfl⟩
    unfold handle_disconnect
    rw [exec_modifyClient]
    simp [hmode]
  send w w' h := ⟨fun hholds _ => h.holds hholds⟩
  before u v w h g := by
    refine ⟨fun hholds => g.keeps ⟨?_, ?_⟩⟩
    · rw [h.face.chat_context]
      exact hholds.mode
    · rw [h.face.channel_keys]
      exact hholds.key
  after u v w h g := by
    refine ⟨fun hholds hprotected => g.holds (h.keeps hholds ?_)⟩
    rw [← g.password_protected_channels]
    exact hprotected
  shows w w' h := by
    refine ⟨fun hholds _ => ⟨h.current_mode.trans hholds.mode, ?_⟩⟩
    rw [h.channel_keys]
    exact hholds.key
  name_peer _ _ _ := ⟨fun hholds _ => ⟨hholds.mode, hholds.key⟩⟩
  lose_peer other w := ⟨fun hholds _ => (keeps_lose_peer other w).holds hholds⟩
  announce := keeps_announce
  clear_peers _ := ⟨fun hholds _ => ⟨hholds.mode, hholds.key⟩⟩

end

/-- The bytes carry a message to everybody with this content in the clear. -/
def Readable (me : PeerId) (content : Str) (raws : List Bytes) : Prop :=
  ∃ packet payload message, Sends me packet raws ∧ IsPacket packet me none .MESSAGE payload none ∧
    parse_bitchat_message_payload payload = .ok message ∧ message.is_encrypted = false ∧
    message.content = content

/-- The content fits a message to everybody. -/
structure FitsMessage (s : BitchatClient) (content : Str) : Prop where
  nickname : (encode s.nickname).length ≤ 255
  payload : 66 + (encode s.nickname).length + (encode content).length ≤ 65535

theorem exec_send_to_everybody {env : Env} (henv : Lossless env) {content : Str} {w : World}
    (hmode : w.state.chat_context.current_mode = .Public) (hup : w.state.connection = .up)
    (hfits : FitsMessage w.state content) :
    ∃ w' raws, exec (send_line env content) w = (.ok (), w') ∧
      w'.out = w.out ++ raws.map .write ∧ Readable w.state.my_peer_id content raws := by
  have hchannel : current_channel w.state = none := by
    unfold current_channel
    rw [hmode]
  have hlacks : lacks_password w.state = false := by
    unfold lacks_password
    rw [hchannel]
  have hpayload_fits : PayloadFits w.state.nickname (payload_bytes content false none)
      w.state.my_peer_id.str ((none : Option Str).getD []) := by
    refine ⟨hfits.nickname, ?_, peer_id_fits _, Nat.zero_le _⟩
    have hsize := hfits.payload
    show (encode content).length ≤ 65535
    omega
  obtain ⟨payload, hcreate, hparse⟩ := payload_comes_back none false (env.draw 1) hpayload_fits
  have hpayload : public_payload w.state content env =
      .ok (payload, (env.draw 1).uuid.str) := by
    unfold public_payload
    rw [hchannel]
    exact hcreate
  have hlength : payload.length ≤ 65535 := by
    rw [create_payload_ok none false (env.draw 1) hpayload_fits, Except.ok.injEq] at hcreate
    obtain ⟨rfl, -⟩ := Prod.mk.inj hcreate
    refine (length_plain_payload w.state.nickname content [] w.state.my_peer_id (env.draw 1)
      _).trans_le ?_
    exact hfits.payload
  obtain ⟨packet, hpacket, his⟩ := create_ok w.state.my_peer_id none .MESSAGE payload none
    (env.draw 3) (by omega)
  have hshort : packet.length ≤ 100000 := by
    have hsize := his.size
    unfold bare_length at hsize
    rw [length_recipient_field] at hsize
    simp only [Option.getD_none, List.length_nil] at hsize
    split at hsize <;> omega
  unfold send_line
  rw [exec_bind_ok _ (exec_getClient _)]
  simp only [hmode, hup, ne_eq, not_true_eq_false, if_false]
  unfold send_public_message
  rw [exec_bind_ok _ (exec_getClient _)]
  simp only [hup, hlacks, hpayload, exec_bind, exec_outcome_ok, exec_modifyClient,
    reduceCtorEq, if_false, Bool.false_eq_true]
  have hcreated : create_bitchat_packet w.state.my_peer_id.str .MESSAGE payload (env.draw 3) =
      .ok packet := hpacket
  simp only [hcreated, exec_outcome_ok]
  generalize hw₁ : World.mk _ _ = w₁
  obtain ⟨raws, hsend, hsends⟩ := exec_send_packet (henv.call 4) (w := w₁) (by rw [← hw₁])
    hshort
  have hout : w₁.out = w.out := by rw [← hw₁]
  have hme : w₁.state.my_peer_id = w.state.my_peer_id := by rw [← hw₁]
  rw [hme] at hsends
  refine ⟨_, raws, hsend, congrArg (· ++ raws.map Action.write) hout, packet, payload, _, hsends,
    his, hparse, rfl, ?_⟩
  show decodeIgnore (encode content) = content
  exact decodeIgnore_encode content

/-- A leave under the id of the peer, which anybody can send, ends a
conversation, and the next line goes to everybody in the clear. -/
theorem a_line_after_a_leave_is_readable {nickname peer_id : Str} {w : World}
    (hmode : w.state.chat_context.current_mode = .PrivateDM nickname peer_id)
    (hnamed : ((w.state.peers.get? peer_id).bind Peer.nickname).getD [] ≠ [])
    (hup : w.state.connection = .up) (hother : peer_id ≠ w.state.my_peer_id.str)
    {raw : Bytes} {packet : BitchatPacket} (hparse : parse_bitchat_packet raw = .ok packet)
    (htype : packet.msg_type = .LEAVE) (hsender : packet.sender_id_str = peer_id)
    (hleaves : daemon.leaves_channel packet = false) (env : Env) {env' : Env}
    (henv : Lossless env') {line content : Str} (hline : read_line line = .message content)
    (hfits : FitsMessage w.state content) :
    let w' := (exec (notification_handler env raw) w).2
    ∃ w'' raws, exec (handle_user_input env' line) w' = (.ok .go_on, w'') ∧
      w''.out = w.out ++ raws.map .write ∧ Readable w.state.my_peer_id content raws := by
  intro w'
  have hw' : w' = { w with state := w.state.lose_peer peer_id } := by
    show (exec (notification_handler env raw) w).2 = _
    unfold notification_handler
    simp only [exec_bind, exec_getClient, hparse, hsender, if_neg hother, exec_suppress,
      recursion_limit]
    unfold handle_packet
    simp only [htype]
    unfold handle_leave
    rw [hleaves, hsender]
    rfl
  have hlost : w.state.lose_peer peer_id = { w.state with
      peers := w.state.peers.pop peer_id
      pending_private_messages := w.state.pending_private_messages.pop peer_id
      encryption_service := w.state.encryption_service.remove_session peer_id
      chat_context := (w.state.lose_peer peer_id).chat_context } := by
    unfold BitchatClient.lose_peer
    simp only [if_neg hnamed]
  have hpublic : (w.state.lose_peer peer_id).chat_context.current_mode = .Public := by
    unfold BitchatClient.lose_peer
    simp [hnamed, hmode, ChatContext.switch_to_public]
  have hsame : w'.state.connection = .up ∧ w'.state.my_peer_id = w.state.my_peer_id ∧
      w'.state.nickname = w.state.nickname := by
    rw [hw', hlost]
    exact ⟨hup, rfl, rfl⟩
  obtain ⟨hup', hme, hnickname⟩ := hsame
  have hfits' : FitsMessage w'.state content := by
    refine ⟨?_, ?_⟩
    · rw [hnickname]
      exact hfits.nickname
    · rw [hnickname]
      exact hfits.payload
  obtain ⟨w'', raws, hsend, hout, hreadable⟩ := exec_send_to_everybody henv
    (by rw [hw']; exact hpublic) hup' hfits'
  refine ⟨w'', raws, ?_, ?_, hme ▸ hreadable⟩
  · unfold handle_user_input
    simp only [hline]
    exact exec_bind_ok _ hsend
  · rw [hout, hw']

end client

/-! ## On the stand-in -/

namespace client.standIn

open python bitchat bitchat.protocol

attribute [local instance] input_packages

def typist : PeerId := ⟨[2, 2, 2, 2, 2, 2, 2, 2], PeerId.length_twos⟩

def friend : PeerId := ⟨[1, 1, 1, 1, 1, 1, 1, 1], PeerId.length_ones⟩

/-- A client on its connection that knows the friend, in some conversation. -/
def typing (current_mode : ChatMode) : World where
  state := { newcomer typist 2 with
    connection := .up
    peers := Dict.empty.set friend.str ⟨some ['f']⟩
    chat_context := { ChatContext.init with current_mode }
    channel_keys := Dict.empty.set ['#', 'c'] [9]
    password_protected_channels := {['#', 'c']} }
  out := []

def in_a_dm : World := typing (.PrivateDM ['f'] friend.str)

def in_a_channel : World := typing (.Channel ['#', 'c'])

/-- Somebody else announces a channel that is open. -/
def other_channel : Env × Moment :=
  (env 1, .happens (.packet (layout .CHANNEL_ANNOUNCE 5 0 0 (List.replicate 8 9) []
    (encode "#d|0|".toList) [])))

def friends_leave : Bytes := layout .LEAVE 5 0 0 friend.bytes [] ['f'.toNat.toUInt8] []

theorem reads_hi : read_line ['h', 'i'] = .message ['h', 'i'] := by decide

theorem onlyMessages_chat : OnlyMessages [(env 1, .types ['h', 'i']), other_channel] := by
  intro e he line htypes
  simp only [List.mem_cons, List.not_mem_nil, or_false] at he
  rcases he with rfl | rfl
  · cases htypes
    exact ⟨_, reads_hi⟩
  · cases htypes

/-- After any number of the moments, what holds after none, one and all holds. -/
theorem forall_take {α : Type} {P : List α → Prop} {a b : α} (hnone : P []) (hone : P [a])
    (hall : P [a, b]) : ∀ n, P ([a, b].take n)
  | 0 => hnone
  | 1 => hone
  | n + 2 => by simpa using hall

end client.standIn

namespace client

open standIn

attribute [local instance] input_packages

/-- Two lines in a DM, with a packet in between. -/
theorem a_second_line_to_a_friend_is_sealed :
    let w' := in_a_dm.lived [(env 1, .types ['h', 'i']), other_channel]
    Puts (ForPeer w'.state friend.str) w' (python.exec (handle_user_input (env 2) ['h', 'i']) w').2 :=
  a_line_to_a_peer_is_sealed_for_it rfl onlyMessages_chat
    (forall_take (P := fun story => (in_a_dm.lived story).state.peers.has friend.str = true)
      rfl (by decide +kernel) (by decide +kernel)) (env 2) reads_hi

/-- The friend seems to leave, and the next line can be read by everybody. -/
theorem a_friends_leave_makes_a_line_readable :
    let w' := (python.exec (notification_handler (env 1) friends_leave) in_a_dm).2
    ∃ w'' raws, python.exec (handle_user_input (env 2) ['h', 'i']) w' = (.ok .go_on, w'') ∧
      w''.out = in_a_dm.out ++ raws.map .write ∧
        Readable in_a_dm.state.my_peer_id ['h', 'i'] raws :=
  a_line_after_a_leave_is_readable rfl (by decide +kernel) rfl (by decide)
    (bitchat.protocol.parse_layout .LEAVE 5 0 0 _ [] _ [] rfl rfl rfl (by decide)) rfl (by decide)
    (by decide +kernel) (env 1) (fun _ => rfl) reads_hi ⟨by decide, by decide⟩

end client
