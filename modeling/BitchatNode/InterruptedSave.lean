-- The state file of `bitchat/persistence.py` as text. `save_state` empties the
-- file and writes it again, and `load_state` takes a file that does not parse
-- for no file: a save that breaks off halfway costs the state before it too.
import BitchatNode.Restart
import BitchatNode.Python.Json

namespace daemon

open python python.json bitchat bitchat.protocol

/-! ## The text of the file -/

def password_fields (encrypted : EncryptedPassword) : List (Str × Json) :=
  [("nonce".toList, ofBytes encrypted.nonce), ("ciphertext".toList, ofBytes encrypted.ciphertext)]

/-- The dictionary that `save_state` hands to `json.dump`. -/
def StateFile.fields (file : StateFile) : List (Str × Json) :=
  [ ("nickname".toList, file.nickname.elim .null .str),
    ("blocked_peers".toList, ofList file.blocked_peers),
    ("channel_creators".toList, ofDict .str file.channel_creators),
    ("joined_channels".toList, ofList file.joined_channels),
    ("password_protected_channels".toList, ofList file.password_protected_channels),
    ("channel_key_commitments".toList, ofDict .str file.channel_key_commitments),
    ("favorites".toList, ofList file.favorites),
    ("identity_key".toList, file.identity_key.elim .null ofBytes),
    ("encrypted_channel_passwords".toList,
      ofDict (.dict ∘ password_fields) file.encrypted_channel_passwords)]

def StateFile.text (file : StateFile) : Str := dump 0 (.dict file.fields)

/-! ## Reading it -/

/-- `EncryptedPassword(nonce=enc_data['nonce'], ciphertext=enc_data['ciphertext'])`. -/
def read_password : Json → Option EncryptedPassword
  | .dict fields => do
    let nonce ← ((Dict.ofList fields).get? "nonce".toList).bind (Json.listOf Json.byte?)
    let ciphertext ← ((Dict.ofList fields).get? "ciphertext".toList).bind (Json.listOf Json.byte?)
    some ⟨nonce, ciphertext⟩
  | _ => none

/-- The fields of `AppState`. -/
def field_names : List Str :=
  ["nickname", "blocked_peers", "channel_creators", "joined_channels",
    "password_protected_channels", "channel_key_commitments", "favorites", "identity_key",
    "encrypted_channel_passwords"].map String.toList

/-- A field of `AppState(**data)`: what the file has, or the default. -/
def app_state_field {α : Type} (data : Dict Str Json) (name : String) (default : α)
    (read : Json → Option α) : Option α :=
  match data.get? name.toList with
  | none => some default
  | some v => read v

/-- `AppState(**data)`, `none` where it raises. A file with values of other
types than `AppState` declares has no `StateFile`, and counts as one that does
not parse. -/
def read_state : Json → Option StateFile
  | .dict fields =>
    let data := Dict.ofList fields
    if data.keys.all (· ∈ field_names) then do
      let nickname ← app_state_field data "nickname" none (Json.orNull Json.str?)
      let blocked_peers ← app_state_field data "blocked_peers" [] (Json.listOf Json.str?)
      let channel_creators ← app_state_field data "channel_creators" .empty (Json.dictOf Json.str?)
      let joined_channels ← app_state_field data "joined_channels" [] (Json.listOf Json.str?)
      let password_protected_channels ←
        app_state_field data "password_protected_channels" [] (Json.listOf Json.str?)
      let channel_key_commitments ←
        app_state_field data "channel_key_commitments" .empty (Json.dictOf Json.str?)
      let favorites ← app_state_field data "favorites" [] (Json.listOf Json.str?)
      let identity_key ←
        app_state_field data "identity_key" none (Json.orNull (Json.listOf Json.byte?))
      let encrypted_channel_passwords ←
        app_state_field data "encrypted_channel_passwords" .empty (Json.dictOf read_password)
      some { nickname, blocked_peers, channel_creators, joined_channels,
             password_protected_channels, channel_key_commitments, favorites, identity_key,
             encrypted_channel_passwords }
    else none
  | _ => none

/-- `json.load(f)`, and what `load_state` makes of it. -/
def parse_state (text : Str) : Option StateFile := (loads text).bind read_state

/-- A key is found where it stands. -/
theorem get?_of_getElem? {fields : List (Str × Json)} (hnodup : (fields.map Prod.fst).Nodup)
    {name : String} {i : Nat} {v : Json} (h : fields[i]? = some (name.toList, v)) :
    (Dict.ofList fields).get? name.toList = some v := by
  rw [← Dict.mem_entries_iff, Dict.entries_ofList hnodup]
  exact List.mem_of_getElem? h

theorem app_state_field_eq {α : Type} {fields : List (Str × Json)}
    (hnodup : (fields.map Prod.fst).Nodup) {name : String} {i : Nat} {v : Json}
    (h : fields[i]? = some (name.toList, v)) (default : α) {read : Json → Option α} {x : α}
    (hread : read v = some x) :
    app_state_field (Dict.ofList fields) name default read = some x := by
  unfold app_state_field
  rw [get?_of_getElem? hnodup h]
  exact hread

theorem read_password_fields (encrypted : EncryptedPassword) :
    read_password (.dict (password_fields encrypted)) = some encrypted := by
  have hnodup : ((password_fields encrypted).map Prod.fst).Nodup :=
    (by decide : ["nonce".toList, "ciphertext".toList].Nodup)
  unfold read_password
  dsimp only
  rw [get?_of_getElem? hnodup (i := 0) rfl, get?_of_getElem? hnodup (i := 1) rfl]
  simp

@[simp] theorem orNull_str (nickname : Option Str) :
    (nickname.elim .null .str : Json).orNull Json.str? = some nickname := by
  cases nickname <;> rfl

@[simp] theorem orNull_bytes (key : Option Bytes) :
    (key.elim .null ofBytes : Json).orNull (Json.listOf Json.byte?) = some key := by
  cases key with
  | none => rfl
  | some key =>
    have hread := listOf_ofBytes key
    unfold ofBytes at hread
    simp [ofBytes, Json.orNull, hread]

/-- What `save_state` writes, `load_state` reads back. -/
theorem read_state_fields (file : StateFile) : read_state (.dict file.fields) = some file := by
  have hnames : file.fields.map Prod.fst = field_names := rfl
  have hnodup : (file.fields.map Prod.fst).Nodup := by
    rw [hnames]
    decide
  have hkeys : (Dict.ofList file.fields).keys.all (· ∈ field_names) = true := by
    unfold Dict.keys
    rw [Dict.entries_ofList hnodup, hnames]
    simp
  have hread : ∀ s, (Json.str s).str? = some s := fun _ => rfl
  unfold read_state
  dsimp only
  rw [if_pos hkeys,
    app_state_field_eq hnodup (i := 0) rfl none (orNull_str _),
    app_state_field_eq hnodup (i := 1) rfl [] (listOf_ofList _),
    app_state_field_eq hnodup (i := 2) rfl .empty (dictOf_ofDict hread _),
    app_state_field_eq hnodup (i := 3) rfl [] (listOf_ofList _),
    app_state_field_eq hnodup (i := 4) rfl [] (listOf_ofList _),
    app_state_field_eq hnodup (i := 5) rfl .empty (dictOf_ofDict hread _),
    app_state_field_eq hnodup (i := 6) rfl [] (listOf_ofList _),
    app_state_field_eq hnodup (i := 7) rfl none (orNull_bytes _),
    app_state_field_eq hnodup (i := 8) rfl .empty (dictOf_ofDict read_password_fields _)]
  rfl

theorem parse_text (file : StateFile) : parse_state file.text = some file := by
  unfold parse_state StateFile.text
  rw [loads_dump, Option.bind_some, read_state_fields]

/-! ## A save that is interrupted -/

/-- Where a save breaks off: before `open(path, 'w')` has emptied the file, or
when that much of the text has reached it. With all of the text there, nothing
was interrupted. -/
inductive Interruption
  | before_open
  | after (written : Nat)

/-- The file that a save leaves. -/
def save_interrupted (on_disk text : Str) : Interruption → Str
  | .before_open => on_disk
  | .after written => text.take written

/-- `load_state`, and the file that it leaves: a state without an identity key
gets one, and is saved. -/
def load_from_disk (listing : Listing) (on_disk : Option Str) (generated : Bytes) :
    AppState × Option Str :=
  let file := on_disk.bind parse_state
  let state := load_state file generated
  match file.bind StateFile.identity_key with
  | some _ => (state, on_disk)
  | none => (state, some (state_file listing state).text)

/-- Less than all of the text does not parse. -/
theorem parse_take_text (file : StateFile) {written : Nat} (h : written < file.text.length) :
    parse_state (file.text.take written) = none := by
  have hrest : file.text.drop written ≠ [] := by
    simp only [ne_eq, List.drop_eq_nil_iff]
    omega
  unfold parse_state
  rw [loads_cut (List.take_append_drop written file.text) hrest]
  rfl

/-- A state with an identity key is loaded, and its file stays. -/
theorem load_from_disk_text (listing listing' : Listing) {state : AppState} {key : Bytes}
    (hkey : state.identity_key = some key) (generated : Bytes) :
    load_from_disk listing' (some (state_file listing state).text) generated =
      (state, some (state_file listing state).text) := by
  have hfile : (state_file listing state).identity_key = some key := hkey
  unfold load_from_disk
  simp only [Option.bind_some, parse_text, hfile]
  rw [load_state_file listing hkey]

/-- A file that does not parse gives way to a new state. -/
theorem load_from_disk_unparsed (listing : Listing) {on_disk : Str}
    (h : parse_state on_disk = none) (generated : Bytes) :
    load_from_disk listing (some on_disk) generated =
      (.init generated, some (state_file listing (.init generated)).text) := by
  unfold load_from_disk
  simp only [Option.bind_some, h, Option.bind_none]
  rfl

/-- The file stays if and only if it parses and has an identity key. -/
theorem file_stays_iff (listing : Listing) (on_disk : Str) (generated : Bytes) :
    (load_from_disk listing (some on_disk) generated).2 = some on_disk ↔
      ∃ key, (parse_state on_disk).bind StateFile.identity_key = some key := by
  obtain ⟨new_key, hnew⟩ := load_state_has_key (parse_state on_disk) generated
  rcases hkey : (parse_state on_disk).bind StateFile.identity_key with _ | key
  · have hsaved : (load_from_disk listing (some on_disk) generated).2 =
        some (state_file listing (load_state (parse_state on_disk) generated)).text := by
      unfold load_from_disk
      simp only [Option.bind_some, hkey]
    constructor
    · intro hstays
      -- the new file has a key, and the one that was there has none
      rw [hsaved, Option.some.injEq] at hstays
      rw [← hstays, parse_text, Option.bind_some] at hkey
      cases hkey.symm.trans hnew
    · rintro ⟨key, hkey⟩
      cases hkey
  · have hsaved : (load_from_disk listing (some on_disk) generated).2 = some on_disk := by
      unfold load_from_disk
      simp only [Option.bind_some, hkey]
    simp [hsaved]

/-- What was interrupted is gone for good: every later start finds the state
that the first one made up. -/
theorem half_a_file_is_lost (listing listing' : Listing) (file : StateFile) {written : Nat}
    (h : written < file.text.length) (generated generated' : Bytes) :
    let left := (load_from_disk listing (some (file.text.take written)) generated).2
    load_from_disk listing' left generated' = (.init generated, left) := by
  intro left
  have hleft : left = some (state_file listing (.init generated)).text := by
    unfold left
    rw [load_from_disk_unparsed listing (parse_take_text file h)]
  rw [hleft]
  exact load_from_disk_text listing listing' rfl generated'

/-- The node that starts next has one of the two states, and keeps the file. -/
structure LosesNothing (s0 s1 : AppState) (left : Str) (loaded : AppState × Option Str) : Prop where
  finds : loaded.1 = s0 ∨ loaded.1 = s1
  keeps : loaded.2 = some left

theorem loses_nothing_before_open_iff (listing listing' : Listing) (s0 s1 : AppState)
    (generated : Bytes) :
    LosesNothing s0 s1 (state_file listing s0).text
        (load_from_disk listing' (some (state_file listing s0).text) generated) ↔
      s0.identity_key ≠ none := by
  constructor
  · intro h hnone
    obtain ⟨key, hkey⟩ := (file_stays_iff listing' _ generated).mp h.keeps
    rw [parse_text, Option.bind_some] at hkey
    cases hnone.symm.trans hkey
  · intro hsome
    obtain ⟨key, hkey⟩ := Option.ne_none_iff_exists'.mp hsome
    rw [load_from_disk_text listing listing' hkey]
    exact ⟨Or.inl rfl, rfl⟩

theorem loses_nothing_after_iff (listing listing' : Listing) (s0 : AppState) {s1 : AppState}
    {key : Bytes} (hkey : s1.identity_key = some key) (written : Nat) (generated : Bytes) :
    LosesNothing s0 s1 ((state_file listing s1).text.take written)
        (load_from_disk listing' (some ((state_file listing s1).text.take written)) generated) ↔
      (state_file listing s1).text.length ≤ written := by
  constructor
  · intro h
    by_contra hmore
    obtain ⟨key', hkey'⟩ := (file_stays_iff listing' _ generated).mp h.keeps
    rw [parse_take_text _ (not_le.mp hmore)] at hkey'
    cases hkey'
  · intro hall
    rw [List.take_of_length_le hall, load_from_disk_text listing listing' hkey]
    exact ⟨Or.inr rfl, rfl⟩

/-- An interrupted save loses nothing if and only if it was interrupted before
it opened the file, with an identity key in it, or not before all of the text
had been written. -/
theorem interrupted_save_loses_nothing_iff (listing listing' listing'' : Listing)
    (s0 s1 : AppState) {key : Bytes} (hkey : s1.identity_key = some key) (stop : Interruption)
    (generated : Bytes) :
    let text := (state_file listing' s1).text
    let left := save_interrupted (state_file listing s0).text text stop
    LosesNothing s0 s1 left (load_from_disk listing'' (some left) generated) ↔
      (stop = .before_open ∧ s0.identity_key ≠ none) ∨
        ∃ written, stop = .after written ∧ text.length ≤ written := by
  cases stop with
  | before_open =>
    have hbefore := loses_nothing_before_open_iff listing listing'' s0 s1 generated
    simpa [save_interrupted] using hbefore
  | after written =>
    have hafter := loses_nothing_after_iff listing' listing'' s0 hkey written generated
    simpa [save_interrupted] using hafter

end daemon

/-! ## A save that stops halfway -/

namespace daemon.standIn

open python bitchat bitchat.protocol

attribute [local instance] bitchat.standIn.packages

/-- The state of the file with the password. -/
def state_with_password : AppState := with_password.state

/-- The same state under a nickname. -/
def state_with_nickname : AppState := { state_with_password with nickname := some "bob".toList }

/-- A save that never opened the file left the old state in it. -/
theorem a_save_that_opened_nothing_loses_nothing :
    LosesNothing state_with_password state_with_nickname
      (save_interrupted (state_file sorted state_with_password).text
        (state_file sorted state_with_nickname).text .before_open)
      (load_from_disk sorted (some (save_interrupted (state_file sorted state_with_password).text
        (state_file sorted state_with_nickname).text .before_open)) [7]) :=
  (interrupted_save_loses_nothing_iff sorted sorted sorted state_with_password state_with_nickname
    (rfl : state_with_nickname.identity_key = some [1]) .before_open [7]).mpr
      (Or.inl ⟨rfl, Option.some_ne_none [1]⟩)

/-- What is left of the save of the nickname after twenty characters. -/
def half_a_file : Str :=
  save_interrupted (state_file sorted state_with_password).text
    (state_file sorted state_with_nickname).text (.after 20)

/-- The next start takes another identity, and the password is gone. -/
theorem half_a_save_loses_both_states :
    (load_from_disk sorted (some half_a_file) [7]).1.identity_key = some [7] ∧
      (load_from_disk sorted (some half_a_file) [7]).1.encrypted_channel_passwords.get?
        "#c".toList = none ∧
      ¬ LosesNothing state_with_password state_with_nickname half_a_file
        (load_from_disk sorted (some half_a_file) [7]) := by
  have hparse : parse_state half_a_file = none := by
    decide +kernel
  rw [load_from_disk_unparsed sorted hparse [7]]
  refine ⟨rfl, rfl, fun h => ?_⟩
  rcases h.finds with hold | hnew
  · have hkey := congrArg AppState.identity_key hold
    cases hkey
  · have hkey := congrArg AppState.identity_key hnew
    cases hkey

end daemon.standIn
