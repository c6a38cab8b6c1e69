-- The numbers of the conversations of `terminal_ux.py`: what the two lists
-- show, and what `switch_to_number` makes of a number.
import BitchatNode.Client.State

namespace client

open python bitchat
open daemon (digits)

/-! ## The lists -/

/-- The rows of a loop whose counter starts at `num`. -/
def number_from (num : Nat) : List ChatMode → List (Nat × ChatMode)
  | [] => []
  | mode :: rest => (num, mode) :: number_from (num + 1) rest

/-- `│  {num}. {text}{padding}│`. -/
def list_line (num : Nat) (text : Str) : Str :=
  "│  ".toList ++ digits num ++ ". ".toList ++ text ++ List.replicate (20 - text.length) ' ' ++
    "│\n".toList

def list_row : Nat × ChatMode → Str
  | (_, .Public) => "│  1. Public                │\n".toList
  | (num, .Channel name) => list_line num name
  | (num, .PrivateDM nickname _) => list_line num ("DM: ".toList ++ nickname)

def status_part : Nat × ChatMode → Str
  | (_, .Public) => "[1] Public".toList
  | (num, .Channel name) => '[' :: digits num ++ "] ".toList ++ name
  | (num, .PrivateDM nickname _) => '[' :: digits num ++ "] DM:".toList ++ nickname

namespace ChatContext

def channels (self : ChatContext) : List ChatMode := self.active_channels.map .Channel

def dms (self : ChatContext) : List ChatMode :=
  self.active_dms.entries.map fun (nick, peer_id) => .PrivateDM nick peer_id

/-- The rows of `get_conversation_list_with_numbers`. The counter of the
channels goes on through the DMs. -/
def conversation_rows (self : ChatContext) : List (Nat × ChatMode) :=
  (1, .Public) :: number_from 2 self.channels ++
    number_from (2 + (number_from 2 self.channels).length) self.dms

def get_conversation_list_with_numbers (self : ChatContext) : Str :=
  "╭─── Select Conversation ───╮\n".toList ++ self.conversation_rows.flatMap list_row ++
    "╰───────────────────────────╯".toList

/-- The parts of `get_status_line`, with offsets of their own. -/
def status_rows (self : ChatContext) : List (Nat × ChatMode) :=
  let dm_start := 2 + self.active_channels.length
  (1, .Public) :: self.channels.zipIdx.map (fun (mode, i) => (i + 2, mode)) ++
    self.dms.zipIdx.map fun (mode, i) => (i + dm_start, mode)

def get_status_line (self : ChatContext) : Str :=
  "Active: ".toList ++ [' '].intercalate (self.status_rows.map status_part)

end ChatContext

/-! ## What stands under a number -/

@[simp] theorem length_number_from (num : Nat) (modes : List ChatMode) :
    (number_from num modes).length = modes.length := by
  induction modes generalizing num with
  | nil => simp [number_from]
  | cons mode modes ih => simp [number_from, ih]

theorem number_from_append (num : Nat) (modes modes' : List ChatMode) :
    number_from num (modes ++ modes') =
      number_from num modes ++ number_from (num + modes.length) modes' := by
  induction modes generalizing num with
  | nil => simp [number_from]
  | cons mode modes ih =>
    simp only [List.cons_append, number_from, ih, List.length_cons]
    rw [Nat.add_assoc, Nat.add_comm 1]

theorem number_from_eq_zipIdx (num : Nat) (modes : List ChatMode) :
    modes.zipIdx.map (fun (mode, i) => (i + num, mode)) = number_from num modes := by
  induction modes generalizing num with
  | nil => simp [number_from]
  | cons mode modes ih =>
    rw [number_from, ← ih, List.zipIdx_cons, List.zipIdx_succ]
    simp [Nat.add_assoc, Nat.add_comm 1]

theorem lookup_number_from (num n : Nat) (modes : List ChatMode) :
    (number_from num modes).lookup n = if num ≤ n then modes[n - num]? else none := by
  induction modes generalizing num with
  | nil => simp [number_from]
  | cons mode modes ih =>
    rw [number_from, List.lookup_cons, ih]
    rcases Nat.lt_trichotomy n num with h | rfl | h
    · have hne : (n == num) = false := by simp; omega
      simp only [hne]
      rw [if_neg (by omega), if_neg (by omega)]
    · simp
    · have hne : (n == num) = false := by simp; omega
      have hsub : n - num = n - (num + 1) + 1 := by omega
      simp only [hne]
      rw [if_pos (by omega), if_pos (by omega), hsub, List.getElem?_cons_succ]

namespace ChatContext

/-- The two lists number alike. -/
theorem status_rows_eq (self : ChatContext) : self.status_rows = self.conversation_rows := by
  unfold status_rows conversation_rows
  simp only [number_from_eq_zipIdx, length_number_from]
  simp [channels]

theorem conversation_rows_eq (self : ChatContext) :
    self.conversation_rows = number_from 1 (.Public :: (self.channels ++ self.dms)) := by
  unfold conversation_rows
  rw [number_from, number_from_append, length_number_from, List.cons_append]

/-- `switch_to_number` does as the list says: it turns to the conversation
under the number, or turns to none. -/
def Selects (self : ChatContext) (rows : List (Nat × ChatMode)) (n : Nat) : Prop :=
  self.switch_to_number n = .ok (match rows.lookup n with
    | some mode => (true, { self with current_mode := mode })
    | none => (false, self))

/-- No conversation stands under 0. -/
theorem lookup_zero (self : ChatContext) : self.conversation_rows.lookup 0 = none := by
  rw [conversation_rows_eq, lookup_number_from]
  simp

/-- The index of a DM is negative for 0, and never past the end of the list. -/
theorem switch_to_zero_ne (self : ChatContext) : self.switch_to_number 0 ≠ .ok (false, self) := by
  unfold switch_to_number
  simp only [Int.zero_sub]
  rw [if_neg (by omega), if_neg (by omega)]
  simp only
  rw [if_pos (by omega)]
  rcases item self.active_dms.entries _ with _ | ⟨nick, peer_id⟩ <;> simp

theorem switch_to_channel_number (self : ChatContext) {n : Nat} {name : Str} (hn : 2 ≤ n)
    (hname : self.active_channels[n - 2]? = some name) :
    self.switch_to_number n = .ok (true, { self with current_mode := .Channel name }) := by
  have hlt : n - 2 < self.active_channels.length := (List.getElem?_eq_some_iff.mp hname).1
  have hsub : ((n : Int) - 2).toNat = n - 2 := by omega
  unfold switch_to_number
  simp only
  rw [if_neg (by omega), if_pos (by omega), hsub, hname]

/-- Past the channels. -/
theorem switch_to_dm_number (self : ChatContext) {n : Nat} (hn : 2 ≤ n)
    (hpast : self.active_channels.length ≤ n - 2) :
    self.switch_to_number n =
      .ok (match self.active_dms.entries[n - 2 - self.active_channels.length]? with
        | some (nick, peer_id) => (true, { self with current_mode := .PrivateDM nick peer_id })
        | none => (false, self)) := by
  have hsub : ((n : Int) - (1 + self.active_channels.length + 1)).toNat =
      n - 2 - self.active_channels.length := by omega
  unfold switch_to_number
  simp only
  rw [if_neg (by omega), if_neg (by omega)]
  simp only [item]
  split
  · rename_i hlt
    rw [if_pos (by omega), hsub]
    have hin : n - 2 - self.active_channels.length < self.active_dms.entries.length := by omega
    rw [List.getElem?_eq_getElem hin]
  · rename_i hge
    rw [List.getElem?_eq_none (by omega)]

/-- A number selects what both lists show under it, or nothing if they show
nothing, exactly if it is not 0. -/
theorem switch_to_number_selects_iff (self : ChatContext) (n : Nat) :
    self.Selects self.conversation_rows n ∧ self.Selects self.status_rows n ↔ n ≠ 0 := by
  rw [status_rows_eq, and_self]
  constructor
  · rintro h rfl
    unfold Selects at h
    rw [lookup_zero] at h
    exact self.switch_to_zero_ne h
  · intro hn
    unfold Selects
    rw [conversation_rows_eq, lookup_number_from, if_pos (by omega)]
    obtain rfl | hn2 : n = 1 ∨ 2 ≤ n := by omega
    · simp [switch_to_number]
    · have hsub : n - 1 = n - 2 + 1 := by omega
      rw [hsub, List.getElem?_cons_succ]
      by_cases hlt : n - 2 < self.active_channels.length
      · have hname := List.getElem?_eq_getElem hlt
        rw [self.switch_to_channel_number hn2 hname,
          List.getElem?_append_left (by simpa [channels] using hlt)]
        simp [channels, hname]
      · rw [self.switch_to_dm_number hn2 (by omega),
          List.getElem?_append_right (by simpa [channels] using hlt)]
        simp only [channels, dms, List.length_map, List.getElem?_map]
        rcases self.active_dms.entries[n - 2 - self.active_channels.length]? with _ | ⟨nick, peer⟩
          <;> simp

/-- A new context raises on 0, and with two DMs and no channel 0 selects the
first of them, which both lists show under 2. -/
theorem zero_selects_a_dm :
    ChatContext.init.switch_to_number 0 = .error .IndexError ∧
      ¬ ChatContext.init.Selects ChatContext.init.conversation_rows 0 ∧
      let self := (ChatContext.init.add_dm ['a'] ['1']).add_dm ['b'] ['2']
      (self.switch_to_number 0).map (fun r => (r.1, r.2.current_mode)) =
          .ok (true, .PrivateDM ['a'] ['1']) ∧
        self.conversation_rows.lookup 0 = none ∧
        self.conversation_rows.lookup 2 = some (.PrivateDM ['a'] ['1']) := by
  refine ⟨rfl, fun h => ?_, by decide, by decide, by decide⟩
  unfold Selects at h
  rw [lookup_zero] at h
  cases h

end ChatContext

end client
