-- How often the API layer hears of the delivery of a message. An ACK is
-- reported while its message is on the tracker, and takes it off.
import BitchatNode.MessageIds

namespace daemon

open python bitchat bitchat.protocol bitchat.encryption

variable [Packages] {id : Str}

/-! ## Reports -/

/-- How many ACKs were reported that name the message. -/
def reports (id : Str) (out : List Action) : Nat :=
  ((acknowledgements out).filter fun ack =>
    Packages.json_str ack.original_message_id = some id).length

/-- One, if an ACK for the message would be reported. -/
def awaited (id : Str) (n : MeshNode) : Nat := (n.delivery_tracker.pending_messages.has id).toNat

theorem awaited_le_one (id : Str) (n : MeshNode) : awaited id n ≤ 1 := Bool.toNat_le _

theorem reports_emit {action : Action} (h : ∀ ack, action ≠ .on_delivery_ack ack) (w : World) :
    reports id (w.out ++ [action]) = reports id w.out := by
  have hnone : acknowledgements [action] = [] := by
    unfold acknowledgements
    cases action with
    | on_delivery_ack ack => exact absurd rfl (h ack)
    | _ => rfl
  unfold reports
  rw [acknowledgements_append, hnone, List.append_nil]

theorem reports_on_delivery_ack (ack : DeliveryAck) (w : World) :
    reports id (w.out ++ [.on_delivery_ack ack]) =
      reports id w.out + if Packages.json_str ack.original_message_id = some id then 1 else 0 := by
  have hone : acknowledgements [.on_delivery_ack ack] = [ack] := rfl
  unfold reports
  rw [acknowledgements_append, hone, List.filter_append, List.length_append]
  congr 1
  by_cases hid : Packages.json_str ack.original_message_id = some id <;> simp [hid]

/-! ## What reports an ACK -/

/-- No ACK for the message is reported. -/
def SameReports (id : Str) (w w' : World) : Prop := reports id w'.out = reports id w.out

instance (id : Str) : IsPreorder World (SameReports id) where
  refl _ := rfl
  trans _ _ _ h g := Eq.trans g h

theorem common_sameReports (id : Str) : CommonParts (SameReports id) where
  plain _ _ _ _ := rfl
  emit _ h w := reports_emit h w
  lose _ _ := rfl
  encrypt _ _ _ := rfl
  decrypt _ _ _ := rfl
  initiate _ _ _ := rfl
  process _ _ _ _ _ _ := rfl
  acknowledged _ _ := rfl

/-- An ACK for the message is reported only if one was awaited, and then none
is awaited any more. -/
def Settles (id : Str) (w w' : World) : Prop :=
  reports id w'.out + awaited id w'.node ≤ reports id w.out + awaited id w.node

instance (id : Str) : IsPreorder World (Settles id) where
  refl _ := Nat.le_refl _
  trans _ _ _ h g := Nat.le_trans g h

theorem settles_of_same {w w' : World}
    (htracker : w'.node.delivery_tracker = w.node.delivery_tracker)
    (hout : reports id w'.out = reports id w.out) : Settles id w w' := by
  unfold Settles awaited
  rw [htracker, hout]

theorem common_settles (id : Str) : CommonParts (Settles id) where
  plain _ h _ w := settles_of_same (h w.node).tracker rfl
  emit _ h w := settles_of_same rfl (reports_emit h w)
  lose _ _ := settles_of_same rfl rfl
  encrypt _ _ _ := settles_of_same rfl rfl
  decrypt _ _ _ := settles_of_same rfl rfl
  initiate _ _ _ := settles_of_same rfl rfl
  process _ _ _ _ _ _ := settles_of_same rfl rfl
  acknowledged message_id w := by
    rw [exec_modifyNode]
    unfold Settles awaited DeliveryTracker.should_send_ack
    split <;> exact Nat.le_refl _

theorem tracks_settles {other : Str} (h : other ≠ id) : Tracks (Settles id) other := by
  intro content is_private now w
  unfold Settles awaited DeliveryTracker.track_message
  rw [exec_modifyNode]
  show _ + ((w.node.delivery_tracker.pending_messages.set other _).has id).toNat ≤ _
  rw [Dict.has_set_ne _ _ h]

theorem settles_take_ack (ack : DeliveryAck) : Moves (Settles id) (take_ack ack) := by
  intro w
  rcases hnamed : Packages.json_str ack.original_message_id with _ | named
  · unfold take_ack
    simp only [exec_bind, exec_node, hnamed]
    exact refl_of (Settles id) w
  · rw [exec_take_ack hnamed]
    unfold Settles awaited
    by_cases hsame : named = id
    · subst hsame
      have hoff : (w.untracked named).node.delivery_tracker.pending_messages.has named = false :=
        Dict.has_pop_self _ _
      split
      · rename_i htracked
        show reports named (w.out ++ [_]) + (Bool.toNat ((w.untracked named).node.delivery_tracker
          |>.pending_messages.has named)) ≤ _
        rw [reports_on_delivery_ack, if_pos hnamed, hoff, htracked]
        rfl
      · rw [hoff]
        exact Nat.le_add_right _ _
    · have hother : (w.untracked named).node.delivery_tracker.pending_messages.has id =
          w.node.delivery_tracker.pending_messages.has id := Dict.has_pop_ne _ hsame
      split
      · show reports id (w.out ++ [_]) + (Bool.toNat ((w.untracked named).node.delivery_tracker
          |>.pending_messages.has id)) ≤ _
        have hnot : ¬ Packages.json_str ack.original_message_id = some id := by
          rw [hnamed, Option.some.injEq]
          exact hsame
        rw [reports_on_delivery_ack, if_neg hnot, hother]
        rfl
      · rw [hother]
        rfl

/-! ## Runs -/

theorem settles_react {env : Env} {event : Event} (h : message_id_of env event ≠ some id) :
    Moves (Settles id) (react env event) := by
  apply (common_settles id).react
  · exact fun _ _ _ => settles_take_ack
  · intro _ _ packet _ _ _
    apply (common_settles id).handle_channel_announce
    exact fun _ _ _ _ _ => settles_of_same rfl rfl
  · intro other hother
    refine tracks_settles ?_
    rintro rfl
    exact h hother

/-- A call that sends a message reports no ACK. -/
theorem sameReports_react {env : Env} {event : Event} (h : message_id_of env event = some id) :
    Moves (SameReports id) (react env event) := by
  apply (common_sameReports id).react
  · rintro conn raw rfl
    cases h
  · rintro conn raw packet rfl
    cases h
  · exact fun _ _ _ _ _ _ => rfl

theorem reports_react (env : Env) (event : Event) (w : World) :
    reports id (exec (react env event) w).2.out + awaited id (exec (react env event) w).2.node ≤
      reports id w.out + awaited id w.node + if message_id_of env event = some id then 1 else 0 := by
  split
  · rename_i hsends
    have hsame : reports id (exec (react env event) w).2.out = reports id w.out :=
      sameReports_react hsends w
    have hone := awaited_le_one id (exec (react env event) w).2.node
    omega
  · rename_i hother
    exact settles_react hother w

/-- How often a step of the run sent a message under the id. -/
def sends (id : Str) (steps : List (Env × Event)) : Nat :=
  (steps.filter fun step => message_id_of step.1 step.2 = some id).length

/-- The API layer hears of the delivery of a message at most as often as the
node sends one under its id, and once more if the message was on the tracker
before, whatever ACKs come in: never of a message that the node did not send,
and at most once where no id is drawn twice. -/
theorem a_delivery_is_reported_once_per_send (id : Str) (w : World) (steps : List (Env × Event)) :
    reports id (w.run steps).out ≤ reports id w.out + awaited id w.node + sends id steps := by
  have hsettles : ∀ w : World, reports id (w.run steps).out + awaited id (w.run steps).node ≤
      reports id w.out + awaited id w.node + sends id steps := by
    induction steps with
    | nil => exact fun _ => Nat.le_refl _
    | cons step steps ih =>
      intro w
      have hstep : reports id (exec (react step.1 step.2) w).2.out +
          awaited id (exec (react step.1 step.2) w).2.node ≤ reports id w.out + awaited id w.node +
            if message_id_of step.1 step.2 = some id then 1 else 0 := reports_react _ _ w
      have hrest := ih (exec (react step.1 step.2) w).2
      have hsends : sends id (step :: steps) =
          (if message_id_of step.1 step.2 = some id then 1 else 0) + sends id steps := by
        unfold sends
        rw [List.filter_cons]
        by_cases hid : message_id_of step.1 step.2 = some id
        · simp only [hid, decide_true, if_true, List.length_cons]
          exact Nat.add_comm _ _
        · simp [hid]
      rw [hsends]
      show reports id ((exec (react step.1 step.2) w).2.run steps).out +
        awaited id ((exec (react step.1 step.2) w).2.run steps).node ≤ _
      omega
  exact Nat.le_trans (Nat.le_add_right _ _) (hsettles w)

end daemon
