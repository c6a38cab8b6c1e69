-- What the loss of a connection does to the tables of peers. Many peer ids can
-- be filed under the address of one connection, and one of them is removed.
import BitchatNode.NewMessages

namespace daemon

open python bitchat bitchat.protocol bitchat.encryption

variable [Packages]

/-! ## One peer -/

/-- The node has nothing left of the peer but perhaps an address. -/
structure Forgotten (n : MeshNode) (peer_id : Str) : Prop where
  peers : n.peers.get? peer_id = none
  pending : n.pending_private_messages.get? peer_id = none
  sessions : n.encryption_service.sessions.get? peer_id = none
  handshakes : n.encryption_service.handshake_states.get? peer_id = none

/-- The two nodes have the same on file about the peer. -/
structure SameOnFile (n n' : MeshNode) (peer_id : Str) : Prop where
  peers : n'.peers.get? peer_id = n.peers.get? peer_id
  address : n'.peer_addresses.get? peer_id = n.peer_addresses.get? peer_id
  pending : n'.pending_private_messages.get? peer_id = n.pending_private_messages.get? peer_id
  sessions : n'.encryption_service.sessions.get? peer_id =
    n.encryption_service.sessions.get? peer_id
  handshakes : n'.encryption_service.handshake_states.get? peer_id =
    n.encryption_service.handshake_states.get? peer_id

/-- The node without the peer. -/
def MeshNode.without (n : MeshNode) (peer_id : Str) : MeshNode :=
  { n with
    peers := n.peers.pop peer_id
    peer_addresses := n.peer_addresses.pop peer_id
    pending_private_messages := n.pending_private_messages.pop peer_id
    encryption_service := n.encryption_service.remove_session peer_id }

theorem node_remove_peer (peer_id : Str) (w : World) :
    (exec (remove_peer peer_id) w).2.node = w.node.without peer_id := by
  unfold remove_peer
  simp only [exec_bind, exec_node, exec_modifyNode, exec_ite, exec_emit, exec_pure]
  split <;> rfl

theorem forgotten_without (n : MeshNode) (peer_id : Str) :
    Forgotten (n.without peer_id) peer_id :=
  ⟨Dict.get?_pop_self _ _, Dict.get?_pop_self _ _, Dict.get?_pop_self _ _, Dict.get?_pop_self _ _⟩

theorem sameOnFile_without (n : MeshNode) {peer_id other : Str} (h : peer_id ≠ other) :
    SameOnFile n (n.without peer_id) other :=
  ⟨Dict.get?_pop_ne _ h, Dict.get?_pop_ne _ h, Dict.get?_pop_ne _ h, Dict.get?_pop_ne _ h,
    Dict.get?_pop_ne _ h⟩

/-! ## The peers of a connection -/

/-- The peer is filed under the address. -/
def FiledUnder (n : MeshNode) (address peer_id : Str) : Prop :=
  n.peer_addresses.get? peer_id = some address

/-- From `n` to `n'` the node has lost what was filed under the address, and
nothing else. -/
structure CleanedUp (address : Str) (n n' : MeshNode) : Prop where
  none_left : ∀ peer_id, ¬ FiledUnder n' address peer_id
  gone : ∀ peer_id, FiledUnder n address peer_id → Forgotten n' peer_id
  others : ∀ peer_id, ¬ FiledUnder n address peer_id → SameOnFile n n' peer_id

/-- What the loss of a connection does: the first peer under its address goes,
unless its id is empty. -/
theorem node_on_peer_disconnected (conn : PeerConnection) (w : World) :
    (∀ peer_id, ¬ FiledUnder w.node conn.address peer_id) ∧
        (exec (on_peer_disconnected conn) w).2.node = w.node ∨
      ∃ peer_id, FiledUnder w.node conn.address peer_id ∧
        (exec (on_peer_disconnected conn) w).2.node =
          if peer_id ≠ [] then w.node.without peer_id else w.node := by
  unfold on_peer_disconnected
  simp only [exec_bind, exec_node]
  split
  · rename_i peer_id address hfirst
    have haddress : address = conn.address := by simpa using List.find?_some hfirst
    have hfiled := (Dict.mem_entries_iff _).mp (List.mem_of_find?_eq_some hfirst)
    rw [haddress] at hfiled
    refine Or.inr ⟨peer_id, hfiled, ?_⟩
    simp only [exec_ite]
    split
    · exact node_remove_peer peer_id w
    · rfl
  · rename_i hfirst
    refine Or.inl ⟨fun peer_id hfiled => ?_, rfl⟩
    have hmem := (Dict.mem_entries_iff _).mpr hfiled
    have hnot := List.find?_eq_none.mp hfirst _ hmem
    simp at hnot

theorem cleanedUp_iff (conn : PeerConnection) (w : World) :
    CleanedUp conn.address w.node (exec (on_peer_disconnected conn) w).2.node ↔
      (∀ peer_id other, FiledUnder w.node conn.address peer_id →
        FiledUnder w.node conn.address other → peer_id = other) ∧
      ¬ FiledUnder w.node conn.address [] := by
  rcases node_on_peer_disconnected conn w with ⟨hnobody, hnode⟩ | ⟨peer_id, hfiled, hnode⟩
  · rw [hnode]
    constructor
    · intro _
      exact ⟨fun p _ hp _ => absurd hp (hnobody p), hnobody []⟩
    · intro _
      exact ⟨hnobody, fun p hp => absurd hp (hnobody p), fun _ _ => ⟨rfl, rfl, rfl, rfl, rfl⟩⟩
  · by_cases hempty : peer_id = []
    · -- nobody is removed
      rw [hnode, if_neg (not_not_intro hempty)]
      subst hempty
      constructor
      · intro h
        exact absurd hfiled (h.none_left [])
      · intro h
        exact absurd hfiled h.2
    · rw [hnode, if_pos hempty]
      constructor
      · intro h
        have hone : ∀ other, FiledUnder w.node conn.address other → peer_id = other := by
          intro other hother
          by_contra hne
          have hsame := sameOnFile_without w.node hne
          exact h.none_left other (hsame.address.trans hother)
        refine ⟨fun p q hp hq => (hone p hp).symm.trans (hone q hq), fun hnil => ?_⟩
        exact hempty (hone [] hnil)
      · rintro ⟨hone, -⟩
        refine ⟨fun other hother => ?_, fun other hother => ?_, fun other hother => ?_⟩
        · by_cases hne : peer_id = other
          · subst hne
            exact absurd ((Dict.get?_pop_self _ _).symm.trans hother) (by simp)
          · have hsame := sameOnFile_without w.node hne
            exact hne (hone peer_id other hfiled (hsame.address.symm.trans hother))
        · rw [hone other peer_id hother hfiled]
          exact forgotten_without w.node peer_id
        · refine sameOnFile_without w.node fun heq => hother ?_
          rw [← heq]
          exact hfiled

/-- The loss of a connection cleans up exactly if at most one peer is filed
under its address, and that peer has an id. -/
theorem a_lost_connection_is_cleaned_up_iff_it_has_one_peer (conn : PeerConnection) (w : World) :
    CleanedUp conn.address w.node (exec (on_peer_disconnected conn) w).2.node ↔
      (∀ peer_id other, FiledUnder w.node conn.address peer_id →
        FiledUnder w.node conn.address other → peer_id = other) ∧
      ¬ FiledUnder w.node conn.address [] := cleanedUp_iff conn w

/-! ## On the stand-in -/

end daemon

namespace daemon.standIn

open python bitchat bitchat.protocol

attribute [local instance] bitchat.standIn.packages

def third : PeerId := ⟨[9, 9, 9, 9, 9, 9, 9, 9], PeerId.length_nines⟩

/-- A packet in which the sender announces itself as `n`. -/
def hello (sender : PeerId) : Bytes := layout .ANNOUNCE 7 0 0 sender.bytes [] [110] []

/-- A new node that has heard of two peers over one connection. -/
def acquainted : World :=
  (exec (react (env 2) (.packet conn (hello third)))
    (exec (react (env 1) (.packet conn (hello them))) ⟨node us 1, []⟩).2).2

theorem reachable_acquainted : Reachable acquainted := by
  refine .step (.step ?_ (env 1) (.packet conn (hello them)) trivial) (env 2)
    (.packet conn (hello third)) trivial
  exact .start us (some ['n']) (.init [1]) (bitchat.standIn.key 1)

theorem filedUnder_acquainted :
    FiledUnder acquainted.node conn.address them.str ∧
      FiledUnder acquainted.node conn.address third.str := by
  unfold FiledUnder
  decide +kernel

end daemon.standIn

namespace daemon

attribute [local instance] bitchat.standIn.packages

/-- A node that has heard of two peers over one connection still has one of
them on file when the connection is lost. -/
theorem a_lost_connection_leaves_a_peer_behind :
    Reachable standIn.acquainted ∧
      ¬ CleanedUp standIn.conn.address standIn.acquainted.node
        (python.exec (on_peer_disconnected standIn.conn) standIn.acquainted).2.node := by
  refine ⟨standIn.reachable_acquainted, fun h => ?_⟩
  obtain ⟨hthem, hthird⟩ := standIn.filedUnder_acquainted
  have hsame := ((cleanedUp_iff _ _).mp h).1 _ _ hthem hthird
  exact absurd hsame (by decide)

end daemon
