-- The tables of channels of a node, over a whole run. Each channel is a record
-- of its own, and an announcement writes the record of its channel, whoever
-- sent it.
import BitchatNode.Parts
import BitchatNode.Storm

namespace daemon

open python bitchat bitchat.protocol

/-! ## Registers -/

section

variable {α β : Type}

/-- Where some of the entries write a register, the last of them decides. -/
theorem foldl_last_write (writes : α → Bool) (value : α → β) (as : List α) (start : Option β) :
    as.foldl (fun v a => if writes a then some (value a) else v) start =
      ((as.filter writes).getLast?.map value).or start := by
  induction as using List.reverseRecOn with
  | nil => rfl
  | append_singleton as a ih =>
    rw [List.foldl_append, List.foldl_cons, List.foldl_nil, ih, List.filter_append]
    by_cases h : writes a = true
    · simp [h]
    · simp [h]

/-- A register that some of the entries clear for good. -/
theorem foldl_all_keep (keeps : α → Bool) (as : List α) (start : Option β) :
    as.foldl (fun v a => if keeps a then v else none) start =
      if as.all keeps then start else none := by
  induction as using List.reverseRecOn with
  | nil => rfl
  | append_singleton as a ih =>
    rw [List.foldl_append, List.foldl_cons, List.foldl_nil, ih, List.all_append]
    by_cases h : keeps a = true
    · simp [h]
    · simp [h]

/-- A register that every entry writes. -/
theorem foldl_always_write (value : α → β) (as : List α) (start : β) :
    as.foldl (fun _ a => value a) start = (as.getLast?.map value).getD start := by
  induction as using List.reverseRecOn with
  | nil => rfl
  | append_singleton as a _ => simp

end

/-! ## Channels -/

/-- What a node has on file about a channel. -/
structure Channel where
  creator : Option Str
  is_protected : Bool
  key_commitment : Option Str
  key : Option Bytes
  discovered : Bool
deriving DecidableEq

/-- The fields of a channel announcement. -/
structure ChannelNews where
  channel : Str
  is_protected : Bool
  creator_id : Str
  key_commitment : Str

/-- What an announcement makes of the record of its channel. -/
def Channel.announced (self : Channel) (a : ChannelNews) : Channel where
  creator := if a.creator_id ≠ [] then some a.creator_id else self.creator
  is_protected := a.is_protected
  key_commitment :=
    if ¬ a.is_protected then none
    else if a.key_commitment ≠ [] then some a.key_commitment else self.key_commitment
  key := if a.is_protected then self.key else none
  discovered := true

section

variable (self : Channel) (as : List ChannelNews)

theorem creator_foldl_announced : (as.foldl Channel.announced self).creator =
    ((as.filter fun a => a.creator_id ≠ []).getLast?.map ChannelNews.creator_id).or self.creator := by
  rw [← foldl_last_write]
  refine (List.foldl_hom Channel.creator fun c a => ?_).symm
  unfold Channel.announced
  simp

theorem is_protected_foldl_announced : (as.foldl Channel.announced self).is_protected =
    (as.getLast?.map ChannelNews.is_protected).getD self.is_protected := by
  rw [← foldl_always_write]
  exact (List.foldl_hom Channel.is_protected fun _ _ => rfl).symm

theorem key_foldl_announced : (as.foldl Channel.announced self).key =
    if as.all ChannelNews.is_protected then self.key else none := by
  rw [← foldl_all_keep]
  exact (List.foldl_hom Channel.key fun _ _ => rfl).symm

end

variable [Packages]

def MeshNode.channel (n : MeshNode) (channel : Str) : Channel where
  creator := n.channel_creators.get? channel
  is_protected := channel ∈ n.password_protected_channels
  key_commitment := n.channel_key_commitments.get? channel
  key := n.channel_keys.get? channel
  discovered := channel ∈ n.discovered_channels

/-- The announcement that the payload of a packet makes. -/
def announced_in (packet : BitchatPacket) : Option ChannelNews :=
  match (decodeIgnore packet.payload).splitOn '|' with
  | channel :: is_protected :: creator_id :: rest =>
    some ⟨channel, is_protected = ['1'], creator_id, rest.head?.getD []⟩
  | _ => none

/-- The announcement that a node with the given id hears. -/
def hears (me : PeerId) : Event → Option ChannelNews
  | .packet _ raw =>
    match parse_bitchat_packet raw with
    | .ok packet =>
      if packet.msg_type = .CHANNEL_ANNOUNCE ∧ packet.sender_id_str ≠ me.str then
        announced_in packet
      else none
    | .error _ => none
  | _ => none

/-- What the node hears about a channel, in order. -/
def heard_about (me : PeerId) (channel : Str) (steps : List (Env × Event)) : List ChannelNews :=
  (steps.filterMap fun step => hears me step.2).filter fun a => a.channel = channel

theorem channel_of_same {n n' : MeshNode} (h : SameChannels n n') (channel : Str) :
    n'.channel channel = n.channel channel := by
  unfold MeshNode.channel
  rw [h.creators, h.protected_channels, h.commitments, h.keys, h.discovered]

theorem channel_channel_announced (n : MeshNode) (a : ChannelNews) (channel : Str) :
    (n.channel_announced a.channel a.is_protected a.creator_id a.key_commitment).channel channel =
      if a.channel = channel then (n.channel channel).announced a else n.channel channel := by
  unfold MeshNode.channel_announced MeshNode.channel Channel.announced
  by_cases hchannel : a.channel = channel
  · subst hchannel
    rw [if_pos rfl]
    rcases a with ⟨channel, is_protected, creator_id, key_commitment⟩
    cases is_protected
    · by_cases hcreator : creator_id = [] <;> simp [hcreator, Dict.get?_pop_self, Dict.get?_set_self]
    · by_cases hcreator : creator_id = [] <;> by_cases hcommitment : key_commitment = [] <;>
        simp [hcreator, hcommitment, Dict.get?_set_self]
  · rw [if_neg hchannel]
    have hne : channel ≠ a.channel := fun h => hchannel h.symm
    rcases a with ⟨other, is_protected, creator_id, key_commitment⟩
    have hget : ∀ {V : Type} (d : Dict Str V) (v : V),
        (d.set other v).get? channel = d.get? channel := fun d v => Dict.get?_set_ne d v hchannel
    have hpop : ∀ {V : Type} (d : Dict Str V), (d.pop other).get? channel = d.get? channel :=
      fun d => Dict.get?_pop_ne d hchannel
    cases is_protected
    · by_cases hcreator : creator_id = [] <;> simp [hcreator, hget, hpop, hne]
    · by_cases hcreator : creator_id = [] <;> by_cases hcommitment : key_commitment = [] <;>
        simp [hcreator, hcommitment, hget, hne]

/-! ## Events -/

def KeepsChannels (w w' : World) : Prop := SameChannels w.node w'.node

instance : IsPreorder World KeepsChannels where
  refl _ := ⟨rfl, rfl, rfl, rfl, rfl⟩
  trans _ _ _ h g := ⟨g.creators.trans h.creators,
    g.protected_channels.trans h.protected_channels, g.commitments.trans h.commitments,
    g.keys.trans h.keys, g.discovered.trans h.discovered⟩

theorem keepsChannels_of_same {w w' : World} (h : w'.node = w.node) : KeepsChannels w w' := by
  unfold KeepsChannels
  rw [h]
  exact ⟨rfl, rfl, rfl, rfl, rfl⟩

theorem common_keepsChannels : CommonParts KeepsChannels where
  plain _ _ h w := h w.node
  emit _ _ _ := ⟨rfl, rfl, rfl, rfl, rfl⟩
  lose _ _ := ⟨rfl, rfl, rfl, rfl, rfl⟩
  encrypt _ _ _ := ⟨rfl, rfl, rfl, rfl, rfl⟩
  decrypt _ _ _ := ⟨rfl, rfl, rfl, rfl, rfl⟩
  initiate _ _ _ := ⟨rfl, rfl, rfl, rfl, rfl⟩
  process _ _ _ _ _ _ := ⟨rfl, rfl, rfl, rfl, rfl⟩
  acknowledged _ _ := ⟨rfl, rfl, rfl, rfl, rfl⟩

theorem keepsChannels_take_ack (ack : DeliveryAck) : Moves KeepsChannels (take_ack ack) := by
  unfold take_ack
  refine Moves.bind moves_node fun self => ?_
  split
  · exact Moves.pure ()
  · refine Moves.bind (fun _ => ⟨rfl, rfl, rfl, rfl, rfl⟩) fun _ => ?_
    exact Moves.ite (fun _ => ⟨rfl, rfl, rfl, rfl, rfl⟩) (Moves.pure ())

/-- Nothing but a channel announcement writes the tables. -/
theorem keepsChannels_react {env : Env} {event : Event}
    (h : ∀ conn raw packet, event = .packet conn raw → parse_bitchat_packet raw = .ok packet →
      packet.msg_type ≠ .CHANNEL_ANNOUNCE) : Moves KeepsChannels (react env event) := by
  apply common_keepsChannels.react
  · exact fun _ _ _ => keepsChannels_take_ack
  · intro conn raw packet hevent hparse htype
    exact absurd htype (h conn raw packet hevent hparse)
  · exact fun _ _ _ _ _ _ => ⟨rfl, rfl, rfl, rfl, rfl⟩

/-- A channel announcement of another node. -/
theorem channel_on_channel_announce {env : Env} {conn : PeerConnection} {raw : Bytes}
    {packet : BitchatPacket} {w : World} (hparse : parse_bitchat_packet raw = .ok packet)
    (htype : packet.msg_type = .CHANNEL_ANNOUNCE)
    (hother : packet.sender_id_str ≠ w.node.my_peer_id.str) (channel : Str) :
    (exec (react env (.packet conn raw)) w).2.node.channel channel =
      ((announced_in packet).filter fun a => a.channel = channel).elim (w.node.channel channel)
        (w.node.channel channel).announced := by
  have hheard : (w.heard packet.sender_id_str conn.address).node.channel channel =
      w.node.channel channel := rfl
  have hhandle : handle env packet raw = handle_channel_announce packet :=
    handle_of_handler (by rw [handler, htype])
  show (exec (on_packet_received env conn raw) w).2.node.channel channel = _
  rw [exec_on_packet_received hparse hother, hhandle, ← hheard]
  generalize w.heard packet.sender_id_str conn.address = v
  unfold handle_channel_announce announced_in
  rcases (decodeIgnore packet.payload).splitOn '|' with
    _ | ⟨name, _ | ⟨is_protected, _ | ⟨creator_id, rest⟩⟩⟩
  · rfl
  · rfl
  · rfl
  · simp only [exec_bind, exec_modifyNode]
    have hsaved := common_keepsChannels.save_state ⟨v.node.channel_announced name
      (is_protected = ['1']) creator_id (rest.head?.getD []), v.out⟩
    rw [channel_of_same hsaved]
    have hannounced := channel_channel_announced v.node
      ⟨name, is_protected = ['1'], creator_id, rest.head?.getD []⟩ channel
    refine hannounced.trans ?_
    by_cases hname : name = channel <;> simp [Option.filter, hname]

/-- What an event makes of the record of a channel. -/
theorem channel_react (env : Env) (event : Event) (w : World) (channel : Str) :
    (exec (react env event) w).2.node.channel channel =
      ((hears w.node.my_peer_id event).filter fun a => a.channel = channel).elim
        (w.node.channel channel) (w.node.channel channel).announced := by
  by_cases hannounce : ∃ conn raw packet, event = .packet conn raw ∧
      parse_bitchat_packet raw = .ok packet ∧ packet.msg_type = .CHANNEL_ANNOUNCE
  · obtain ⟨conn, raw, packet, rfl, hparse, htype⟩ := hannounce
    by_cases hown : packet.sender_id_str = w.node.my_peer_id.str
    · -- the node drops what comes from itself
      have hnothing : hears w.node.my_peer_id (.packet conn raw) = none := by
        unfold hears
        simp [hparse, hown]
      rw [hnothing]
      show (exec (on_packet_received env conn raw) w).2.node.channel channel = _
      unfold on_packet_received
      simp only [exec_bind, exec_node, hparse, hown, if_true, exec_pure]
      rfl
    · have hheard : hears w.node.my_peer_id (.packet conn raw) = announced_in packet := by
        unfold hears
        simp [hparse, hown, htype]
      rw [hheard]
      exact channel_on_channel_announce hparse htype hown channel
  · have hnothing : hears w.node.my_peer_id event = none := by
      unfold hears
      split
      · rename_i conn raw
        split
        · rename_i packet hparse
          rw [if_neg]
          exact fun htype => hannounce ⟨conn, raw, packet, rfl, hparse, htype.1⟩
        · rfl
      · rfl
    rw [hnothing]
    refine channel_of_same (keepsChannels_react ?_ w) channel
    intro conn raw packet hevent hparse htype
    exact hannounce ⟨conn, raw, packet, hevent, hparse, htype⟩

/-! ## Runs -/

/-- After any run, the record of a channel is what the announcements that the
node heard about this channel, in order, make of the record that it had. -/
theorem channel_run (w : World) (steps : List (Env × Event)) (channel : Str) :
    (w.run steps).node.channel channel =
      (heard_about w.node.my_peer_id channel steps).foldl Channel.announced
        (w.node.channel channel) := by
  induction steps generalizing w with
  | nil => rfl
  | cons step steps ih =>
    have hid : (exec (react step.1 step.2) w).2.node.my_peer_id = w.node.my_peer_id :=
      sameId_react step.1 step.2 w
    have hrest := ih (exec (react step.1 step.2) w).2
    rw [hid, channel_react] at hrest
    refine hrest.trans ?_
    unfold heard_about
    rw [List.filterMap_cons]
    cases hhears : hears w.node.my_peer_id step.2 with
    | none => rfl
    | some a =>
      rw [List.filter_cons]
      by_cases hname : a.channel = channel <;> simp [Option.filter, hname]

/-- The tables of channels are registers that anybody can write: after any run
the record of a channel is what the announcements about it that the node heard
make of the one it had. The last creator that was named is on file, the last
announcement says whether the channel is protected, and a key is left only if
every announcement said that it is. -/
theorem the_last_announcement_decides (w : World) (steps : List (Env × Event)) (channel : Str) :
    let heard := heard_about w.node.my_peer_id channel steps
    (w.run steps).node.channel channel = heard.foldl Channel.announced (w.node.channel channel) ∧
      (w.run steps).node.channel_creators.get? channel =
        ((heard.filter fun a => a.creator_id ≠ []).getLast?.map ChannelNews.creator_id).or
          (w.node.channel_creators.get? channel) ∧
      (channel ∈ (w.run steps).node.password_protected_channels ↔
        (heard.getLast?.map ChannelNews.is_protected).getD
          (channel ∈ w.node.password_protected_channels) = true) ∧
      (w.run steps).node.channel_keys.get? channel =
        if heard.all ChannelNews.is_protected then w.node.channel_keys.get? channel else none := by
  intro heard
  have hrun := channel_run w steps channel
  refine ⟨hrun, ?_, ?_, ?_⟩
  · exact (congrArg Channel.creator hrun).trans (creator_foldl_announced _ _)
  · have hprotected := (congrArg Channel.is_protected hrun).trans (is_protected_foldl_announced _ _)
    rw [← decide_eq_true_iff (p := channel ∈ (w.run steps).node.password_protected_channels)]
    exact iff_of_eq (congrArg (· = true) hprotected)
  · exact (congrArg Channel.key hrun).trans (key_foldl_announced _ _)

end daemon
