-- `bitchat/persistence.py` and a restart: what a node saved it finds again,
-- but for the keys of channels that lost their password meanwhile.
import BitchatNode.Mesh
import Mathlib.Data.Finset.Sort
import Mathlib.Data.List.Lex
import Mathlib.Data.Char

namespace daemon

open python bitchat bitchat.protocol bitchat.encryption

/-! ## The state file -/

/-- What `list` makes of a set: its elements, in an order of its own. -/
structure Listing where
  list : Finset Str → List Str
  toFinset_list : ∀ s, (list s).toFinset = s

/-- What `json.dump` writes and `json.load` reads back. -/
structure StateFile where
  nickname : Option Str
  blocked_peers : List Str
  channel_creators : Dict Str Str
  joined_channels : List Str
  password_protected_channels : List Str
  channel_key_commitments : Dict Str Str
  favorites : List Str
  identity_key : Option Bytes
  encrypted_channel_passwords : Dict Str EncryptedPassword

/-- `save_state` of `bitchat/persistence.py`. -/
def state_file (listing : Listing) (state : AppState) : StateFile where
  nickname := state.nickname
  blocked_peers := listing.list state.blocked_peers
  channel_creators := state.channel_creators
  joined_channels := state.joined_channels
  password_protected_channels := listing.list state.password_protected_channels
  channel_key_commitments := state.channel_key_commitments
  favorites := listing.list state.favorites
  identity_key := state.identity_key
  encrypted_channel_passwords := state.encrypted_channel_passwords

/-- `AppState(**data)`, with the lists made sets again. -/
def StateFile.state (data : StateFile) : AppState where
  nickname := data.nickname
  blocked_peers := data.blocked_peers.toFinset
  channel_creators := data.channel_creators
  joined_channels := data.joined_channels
  password_protected_channels := data.password_protected_channels.toFinset
  channel_key_commitments := data.channel_key_commitments
  favorites := data.favorites.toFinset
  identity_key := data.identity_key
  encrypted_channel_passwords := data.encrypted_channel_passwords

/-- `load_state`. There is no file, or none that parses, or one; `generated`
is the identity key that is drawn where there is none. -/
def load_state (file : Option StateFile) (generated : Bytes) : AppState :=
  match file with
  | none => .init generated
  | some data => { data.state with identity_key := some (data.identity_key.getD generated) }

theorem load_state_has_key (file : Option StateFile) (generated : Bytes) :
    ∃ key, (load_state file generated).identity_key = some key := by
  cases file with
  | none => exact ⟨_, rfl⟩
  | some data => exact ⟨_, rfl⟩

/-- A state with an identity key comes back as it was. -/
theorem load_state_file (listing : Listing) {state : AppState} {key : Bytes}
    (hkey : state.identity_key = some key) (generated : Bytes) :
    load_state (some (state_file listing state)) generated = state := by
  unfold load_state state_file StateFile.state
  simp only [listing.toFinset_list, hkey, Option.getD_some]
  rw [← hkey]

variable [Packages]

/-! ## Keys from passwords -/

/-- The state holds a password of the channel, and can decrypt it. -/
def HasPassword (state : AppState) (channel : Str) : Prop :=
  ∃ identity_key encrypted, state.identity_key = some identity_key ∧ identity_key ≠ [] ∧
    state.encrypted_channel_passwords.get? channel = some encrypted ∧
    (decrypt_password encrypted identity_key).isSome

/-- One turn of the loop of `_restore_channel_keys`. -/
def restore_one (identity_key : Bytes) (keys : Dict Str Bytes)
    (saved : Str × EncryptedPassword) : Dict Str Bytes :=
  match decrypt_password saved.2 identity_key with
  | some password =>
    keys.set saved.1 (EncryptionService.derive_channel_key password saved.1)
  | none => keys

theorem restore_channel_keys_eq {state : AppState} {key : Bytes}
    (hkey : state.identity_key = some key) (hne : key ≠ []) :
    restore_channel_keys state =
      state.encrypted_channel_passwords.entries.foldl (restore_one key) .empty := by
  unfold restore_channel_keys
  rw [hkey]
  cases key with
  | nil => exact absurd rfl hne
  | cons => rfl

theorem has_restore_one (identity_key : Bytes) (keys : Dict Str Bytes)
    (saved : Str × EncryptedPassword) (channel : Str) :
    (restore_one identity_key keys saved).has channel = true ↔
      keys.has channel = true ∨
        saved.1 = channel ∧ (decrypt_password saved.2 identity_key).isSome := by
  unfold restore_one
  rcases hd : decrypt_password saved.2 identity_key with _ | password
  · simp
  · by_cases hc : saved.1 = channel
    · subst hc
      simp [Dict.has_set_self]
    · simp [Dict.has_set_ne _ _ hc, hc]

theorem has_foldl_restore (identity_key : Bytes) (saved : List (Str × EncryptedPassword))
    (keys : Dict Str Bytes) (channel : Str) :
    (saved.foldl (restore_one identity_key) keys).has channel = true ↔
      keys.has channel = true ∨
        ∃ e ∈ saved, e.1 = channel ∧ (decrypt_password e.2 identity_key).isSome := by
  induction saved generalizing keys with
  | nil => simp
  | cons e saved ih =>
    rw [List.foldl_cons, ih, has_restore_one]
    simp only [List.mem_cons, exists_eq_or_imp, or_assoc]

/-- The keys that come back are those of the passwords that can be read. -/
theorem has_restored_iff (state : AppState) (channel : Str) :
    (restore_channel_keys state).has channel = true ↔ HasPassword state channel := by
  rcases hkey : state.identity_key with _ | key
  · have hnone : restore_channel_keys state = .empty := by
      unfold restore_channel_keys
      rw [hkey]
    rw [hnone]
    simp [HasPassword, hkey, Dict.has]
  · by_cases hne : key = []
    · have hnone : restore_channel_keys state = .empty := by
        unfold restore_channel_keys
        rw [hkey, hne]
      rw [hnone]
      simp [HasPassword, hkey, Dict.has, hne]
    · rw [restore_channel_keys_eq hkey hne, has_foldl_restore]
      unfold HasPassword
      constructor
      · rintro (hempty | ⟨⟨c, encrypted⟩, hmem, rfl, hdecrypts⟩)
        · cases hempty
        · exact ⟨key, encrypted, hkey, hne, (Dict.mem_entries_iff _).mp hmem, hdecrypts⟩
      · rintro ⟨key', encrypted, hkey', -, hget, hdecrypts⟩
        cases hkey.symm.trans hkey'
        exact Or.inr ⟨(channel, encrypted), (Dict.mem_entries_iff _).mpr hget, rfl, hdecrypts⟩

/-! ## Announcements -/

/-- The channel that the packet announces as unprotected. -/
def unprotects (packet : BitchatPacket) : Option Str :=
  match (decodeIgnore packet.payload).splitOn '|' with
  | channel :: is_protected :: _ :: _ => if is_protected = ['1'] then none else some channel
  | _ => none

/-- The node after it has handled the packets. -/
def after_announcements (n : MeshNode) (packets : List BitchatPacket) : World :=
  packets.foldl (fun w packet => (exec (handle_channel_announce packet) w).2) ⟨n, []⟩

/-- What the announcements leave of the keys and of what is saved. -/
structure Announced (state : AppState) (packets : List BitchatPacket) (n : MeshNode) : Prop where
  keys : n.channel_keys = (packets.filterMap unprotects).foldl Dict.pop (restore_channel_keys state)
  identity_key : n.app_state.identity_key = state.identity_key
  passwords : n.app_state.encrypted_channel_passwords = state.encrypted_channel_passwords

/-- An announcement takes the key of a channel that is not protected. -/
theorem node_handle_channel_announce (packet : BitchatPacket) (w : World) :
    let n := (exec (handle_channel_announce packet) w).2.node
    n.channel_keys = (unprotects packet).toList.foldl Dict.pop w.node.channel_keys ∧
      n.app_state.identity_key = w.node.app_state.identity_key ∧
      n.app_state.encrypted_channel_passwords = w.node.app_state.encrypted_channel_passwords := by
  unfold handle_channel_announce unprotects
  generalize (decodeIgnore packet.payload).splitOn '|' = parts
  rcases parts with _ | ⟨channel, _ | ⟨is_protected, _ | ⟨creator_id, rest⟩⟩⟩
  · exact ⟨rfl, rfl, rfl⟩
  · exact ⟨rfl, rfl, rfl⟩
  · exact ⟨rfl, rfl, rfl⟩
  · refine ⟨?_, rfl, rfl⟩
    by_cases hprotected : is_protected = ['1'] <;>
      simp [save_state, MeshNode.channel_announced, hprotected]

theorem Announced.handle {state : AppState} {packets : List BitchatPacket} {w : World}
    (h : Announced state packets w.node) (packet : BitchatPacket) :
    Announced state (packets ++ [packet]) (exec (handle_channel_announce packet) w).2.node := by
  obtain ⟨hkeys, hidentity, hpasswords⟩ := node_handle_channel_announce packet w
  refine ⟨?_, hidentity.trans h.identity_key, hpasswords.trans h.passwords⟩
  have hnew : (packets ++ [packet]).filterMap unprotects =
      packets.filterMap unprotects ++ (unprotects packet).toList := by
    rw [List.filterMap_append]
    cases hu : unprotects packet <;> simp [hu]
  rw [hkeys, h.keys, hnew, List.foldl_append]

theorem announced_after (my_peer_id : PeerId) (config_nickname : Option Str) (state : AppState)
    (key : Crypto.PrivateKey) (packets : List BitchatPacket) :
    Announced state packets
      (after_announcements (.init my_peer_id config_nickname state key) packets).node := by
  induction packets using List.reverseRecOn with
  | nil => exact ⟨rfl, rfl, rfl⟩
  | append_singleton packets packet ih =>
    unfold after_announcements
    rw [List.foldl_append]
    exact ih.handle packet

/-! ## A restart -/

/-- The tables that a restart should bring back. -/
structure Restored (n n' : MeshNode) : Prop where
  blocked_peers : n'.blocked_peers = n.blocked_peers
  channel_creators : n'.channel_creators = n.channel_creators
  password_protected_channels : n'.password_protected_channels = n.password_protected_channels
  channel_key_commitments : n'.channel_key_commitments = n.channel_key_commitments
  channel_keys : n'.channel_keys = n.channel_keys

/-- The file that `save_state` writes. -/
def saved_file (listing : Listing) (w : World) : StateFile :=
  state_file listing (exec save_state w).2.node.app_state

/-- After any announcements, a node that is started from the saved file has
the tables of the one that saved it if and only if no channel with a password
on file was announced as unprotected: its key goes, its password stays. -/
theorem channels_survive_a_restart_iff (my_peer_id : PeerId) (config_nickname : Option Str)
    (file : Option StateFile) (generated : Bytes) (key : Crypto.PrivateKey)
    (packets : List BitchatPacket) (listing : Listing) (my_peer_id' : PeerId)
    (config_nickname' : Option Str) (generated' : Bytes) (key' : Crypto.PrivateKey) :
    let state := load_state file generated
    let w := after_announcements (.init my_peer_id config_nickname state key) packets
    Restored w.node (.init my_peer_id' config_nickname'
        (load_state (some (saved_file listing w)) generated') key') ↔
      ∀ packet ∈ packets, ∀ channel, unprotects packet = some channel →
        ¬ HasPassword state channel := by
  intro state w
  obtain ⟨identity_key, hidentity⟩ := load_state_has_key file generated
  have h := announced_after my_peer_id config_nickname state key packets
  have hkey : (exec save_state w).2.node.app_state.identity_key = some identity_key :=
    h.identity_key.trans hidentity
  have hloaded : load_state (some (saved_file listing w)) generated' =
      (exec save_state w).2.node.app_state := load_state_file listing hkey generated'
  have hrestored : restore_channel_keys (exec save_state w).2.node.app_state =
      restore_channel_keys state := by
    unfold restore_channel_keys
    rw [show (exec save_state w).2.node.app_state.identity_key = state.identity_key from
        h.identity_key,
      show (exec save_state w).2.node.app_state.encrypted_channel_passwords =
        state.encrypted_channel_passwords from h.passwords]
  have hkeys : Restored w.node (.init my_peer_id' config_nickname'
      (load_state (some (saved_file listing w)) generated') key') ↔
        (packets.filterMap unprotects).foldl Dict.pop (restore_channel_keys state) =
          restore_channel_keys state := by
    rw [hloaded]
    constructor
    · intro hsame
      rw [← h.keys, ← hrestored]
      exact hsame.channel_keys.symm
    · intro heq
      exact ⟨rfl, rfl, rfl, rfl, hrestored.trans (heq.symm.trans h.keys.symm)⟩
  rw [hkeys, Dict.foldl_pop_eq_self_iff]
  simp only [List.mem_filterMap, forall_exists_index, and_imp, ← has_restored_iff,
    Bool.not_eq_true]
  exact ⟨fun hall packet hmem channel hu => hall channel packet hmem hu,
    fun hall channel packet hmem hu => hall packet hmem channel hu⟩

end daemon

/-! ## A password that is left behind -/

namespace daemon.standIn

open python bitchat bitchat.protocol bitchat.encryption

attribute [local instance] bitchat.standIn.packages

def sorted : Listing := ⟨fun s => s.sort (· ≤ ·), fun s => s.sort_toFinset _⟩

/-- The password `pass` of the channel `#c`, under the identity key `[1]`. -/
def saved_password : EncryptedPassword where
  nonce := [0]
  ciphertext := bitchat.standIn.encrypt (derive_encryption_key [1]) [0] (encode "pass".toList) []

/-- A state file with that password. -/
def with_password : StateFile where
  nickname := none
  blocked_peers := []
  channel_creators := .empty
  joined_channels := []
  password_protected_channels := ["#c".toList]
  channel_key_commitments := .empty
  favorites := []
  identity_key := some [1]
  encrypted_channel_passwords := Dict.empty.set "#c".toList saved_password

/-- A node that is started from the file. -/
def started (file : StateFile) : @MeshNode bitchat.standIn.packages :=
  .init ⟨[1, 2, 3, 4, 5, 6, 7, 8], PeerId.length_counted⟩ none (load_state (some file) [])
    (bitchat.standIn.key 1)

/-- The announcement of `#c` as a channel without a password. -/
def unprotected_announcement : BitchatPacket where
  msg_type := .CHANNEL_ANNOUNCE
  sender_id := [9]
  sender_id_str := "09".toList
  recipient_id := none
  recipient_id_str := none
  payload := encode "#c|0|".toList
  ttl := 7

def announced_unprotected : @World bitchat.standIn.packages :=
  after_announcements (started with_password) [unprotected_announcement]

/-- The node that saved has no key of the channel, and the node that starts
from the file has one. -/
theorem a_key_comes_back_after_a_restart :
    announced_unprotected.node.channel_keys.has "#c".toList = false ∧
      (started (saved_file sorted announced_unprotected)).channel_keys.has "#c".toList = true ∧
      ¬ Restored announced_unprotected.node
        (started (saved_file sorted announced_unprotected)) := by
  have hgone : announced_unprotected.node.channel_keys.has "#c".toList = false := by
    decide +kernel
  have hback : (started (saved_file sorted announced_unprotected)).channel_keys.has
      "#c".toList = true := by
    decide +kernel
  refine ⟨hgone, hback, fun hsame => ?_⟩
  rw [hsame.channel_keys, hgone] at hback
  cases hback

end daemon.standIn
