-- The peers that come and go, as the API layer hears of them. Each peer joins
-- and leaves by turns, as long as no peer is lost that has no nickname.
import BitchatNode.Broadcasting
import BitchatNode.PeerLoss

namespace daemon

open python bitchat bitchat.protocol

variable [Packages]

/-! ## Joining and leaving by turns -/

inductive Presence
  | joined
  | left
deriving DecidableEq

/-- What the API layer hears of the peer. -/
def presence (peer_id : Str) (out : List Action) : List Presence :=
  out.filterMap fun
    | .on_peer_joined peer _ => if peer = peer_id then some .joined else none
    | .on_peer_left peer _ => if peer = peer_id then some .left else none
    | _ => none

/-- The calls alternate, beginning with `joined`; after the last of them the
peer is there or not. -/
inductive Alternating : Bool → List Presence → Prop
  | nil : Alternating false []
  | joined {calls : List Presence} (h : Alternating false calls) :
    Alternating true (calls ++ [.joined])
  | left {calls : List Presence} (h : Alternating true calls) :
    Alternating false (calls ++ [.left])

omit [Packages] in
/-- The peer is there exactly if the last call was `joined`. -/
theorem Alternating.last {present : Bool} {calls : List Presence} (h : Alternating present calls) :
    present = true ↔ calls.getLast? = some .joined := by
  cases h with
  | nil => simp
  | joined h => simp
  | left h => simp

theorem presence_append (peer_id : Str) (a b : List Action) :
    presence peer_id (a ++ b) = presence peer_id a ++ presence peer_id b := List.filterMap_append

/-- What is heard of the peer fits the table of peers. -/
def InOrder (peer_id : Str) (w : World) : Prop :=
  Alternating (w.node.peers.has peer_id) (presence peer_id w.out)

theorem InOrder.of_same {peer_id : Str} {w w' : World} (h : InOrder peer_id w)
    (hpeers : w'.node.peers = w.node.peers)
    (hout : presence peer_id w'.out = presence peer_id w.out) : InOrder peer_id w' := by
  unfold InOrder
  rw [hpeers, hout]
  exact h

/-- A peer that announces itself joins, if it was not there. -/
theorem inOrder_announced (peer_id nickname other : Str) :
    Moves (Keeps (InOrder other)) (announced peer_id nickname) := by
  intro w h
  unfold InOrder at h ⊢
  unfold announced
  simp only [exec_bind, exec_node, exec_modifyNode, exec_ite, exec_pure, exec_emit]
  by_cases hsame : peer_id = other
  · subst hsame
    split
    · rename_i hthere
      rw [hthere] at h
      simp only [Dict.has_set_self]
      exact h
    · rename_i hnew
      rw [Bool.not_eq_true] at hnew
      rw [hnew] at h
      simp only [Dict.has_set_self, presence_append]
      have hjoined := Alternating.joined h
      simpa [presence] using hjoined
  · split
    · simp only [Dict.has_set_ne _ _ hsame]
      exact h
    · simp only [Dict.has_set_ne _ _ hsame, presence_append]
      simpa [presence, hsame] using h

/-- The peer is on file without a nickname. -/
def Nameless (n : MeshNode) (peer_id : Str) : Prop :=
  ∃ peer, n.peers.get? peer_id = some peer ∧ peer.nickname.getD [] = []

/-- A peer that is removed leaves, if it was there under a nickname. -/
theorem inOrder_remove_peer {peer_id : Str} {w : World} (hnamed : ¬ Nameless w.node peer_id)
    (other : Str) : Keeps (InOrder other) w (exec (remove_peer peer_id) w).2 := by
  intro h
  unfold InOrder at h ⊢
  unfold remove_peer
  simp only [exec_bind, exec_node, exec_modifyNode, exec_ite, exec_pure, exec_emit]
  by_cases hsame : peer_id = other
  · subst hsame
    rcases hpeer : w.node.peers.get? peer_id with _ | peer
    · have hnobody := (Dict.has_eq_false_iff _ _).mpr hpeer
      rw [hnobody] at h
      simp only [Option.bind_none, Option.getD_none, ne_eq, not_true_eq_false, if_false,
        Dict.has_pop_self]
      exact h
    · have hthere : w.node.peers.has peer_id = true := by
        unfold Dict.has
        rw [hpeer]
        rfl
      rw [hthere] at h
      have hnickname : peer.nickname.getD [] ≠ [] := fun hempty => hnamed ⟨peer, hpeer, hempty⟩
      simp only [Option.bind_some, hnickname, ne_eq, not_false_eq_true, if_true, Dict.has_pop_self,
        presence_append]
      have hleft := Alternating.left h
      simpa [presence] using hleft
  · split
    · simp only [Dict.has_pop_ne _ hsame, presence_append]
      simpa [presence, hsame] using h
    · simp only [Dict.has_pop_ne _ hsame]
      exact h

/-! ## The loss of a connection -/

/-- The first peer that is filed under the address. -/
def MeshNode.peer_at (n : MeshNode) (address : Str) : Option Str :=
  (n.peer_addresses.entries.find? fun e => e.2 = address).map Prod.fst

/-- With the connection at the address goes a peer without a nickname. -/
def LosesNameless (n : MeshNode) (address : Str) : Prop :=
  ∃ peer_id, n.peer_at address = some peer_id ∧ peer_id ≠ [] ∧ Nameless n peer_id

/-- What the loss of a connection does, peer by peer. -/
theorem exec_on_peer_disconnected (conn : PeerConnection) (w : World) :
    exec (on_peer_disconnected conn) w =
      match w.node.peer_at conn.address with
      | some peer_id => if peer_id ≠ [] then exec (remove_peer peer_id) w else (.ok (), w)
      | none => (.ok (), w) := by
  unfold on_peer_disconnected MeshNode.peer_at
  simp only [exec_bind, exec_node]
  split
  · rename_i peer_id address hfirst
    rw [hfirst, exec_ite, exec_pure]
    rfl
  · rename_i hfirst
    rw [hfirst]
    rfl

theorem filedUnder_peer_at {n : MeshNode} {address peer_id : Str}
    (h : n.peer_at address = some peer_id) : FiledUnder n address peer_id := by
  unfold MeshNode.peer_at at h
  obtain ⟨⟨peer, there⟩, hfirst, rfl⟩ := Option.map_eq_some_iff.mp h
  have haddress : there = address := by simpa using List.find?_some hfirst
  rw [← haddress]
  exact (Dict.mem_entries_iff _).mp (List.mem_of_find?_eq_some hfirst)

theorem inOrder_on_peer_disconnected {conn : PeerConnection} {w : World}
    (hnamed : ¬ LosesNameless w.node conn.address) (other : Str) :
    Keeps (InOrder other) w (exec (on_peer_disconnected conn) w).2 := by
  rw [exec_on_peer_disconnected]
  split
  · rename_i peer_id hpeer
    split
    · rename_i hne
      exact inOrder_remove_peer (fun h => hnamed ⟨peer_id, hpeer, hne, h⟩) other
    · exact fun h => h
  · exact fun h => h

/-- The peers under the other addresses are not concerned. -/
theorem peer_at_without {n : MeshNode} {address other peer_id : Str}
    (h : FiledUnder n address peer_id) (hne : address ≠ other) :
    (n.without peer_id).peer_at other = n.peer_at other := by
  unfold MeshNode.peer_at
  congr 1
  show List.find? _ (n.peer_addresses.entries.filter _) = _
  rw [← List.head?_filter, ← List.head?_filter, List.filter_filter]
  congr 1
  refine List.filter_congr fun e he => ?_
  by_cases hother : e.2 = other
  · have hkey : e.1 ≠ peer_id := by
      intro hkey
      have hthere : n.peer_addresses.get? peer_id = some other := by
        rw [← hkey, ← hother]
        exact (Dict.mem_entries_iff _).mp he
      exact hne (Option.some.inj (h.symm.trans hthere))
    simp [hother, hkey]
  · simp [hother]

theorem losesNameless_without {n : MeshNode} {address other peer_id : Str}
    (h : FiledUnder n address peer_id) (hne : address ≠ other)
    (hloses : LosesNameless (n.without peer_id) other) : LosesNameless n other := by
  obtain ⟨peer, hat, hnot, entry, hentry, hempty⟩ := hloses
  rw [peer_at_without h hne] at hat
  refine ⟨peer, hat, hnot, entry, ?_, hempty⟩
  by_cases hsame : peer_id = peer
  · subst hsame
    exact absurd ((Dict.get?_pop_self _ _).symm.trans hentry) (by simp)
  · exact (Dict.get?_pop_ne _ hsame).symm.trans hentry

/-! ## Sending on the connections on file -/

section

variable {env : Env} {I : World → Prop} (hfiled : ∀ w, I w → Filed w.node)
  (hwrite : ∀ w, I w → ∀ address frame, I { w with out := w.out ++ [.write address frame] })
  (hlost : ∀ conn w, (conn.address, conn) ∈ w.node.connections.entries →
    env.write_fails conn.address = true → Keeps I w (exec (on_read_done conn) w).2)

include hwrite hlost in
theorem keeps_send_packet {conn : PeerConnection} {w : World}
    (hconn : (conn.address, conn) ∈ w.node.connections.entries) (packet : Bytes) :
    Keeps I w (exec (send_packet env conn packet) w).2 := by
  intro h
  by_cases hlength : packet.length ≤ 65535
  · rcases hfails : env.write_fails conn.address with _ | _
    · rw [exec_send_packet hlength hfails]
      exact hwrite w h _ _
    · rw [exec_send_packet_fails hlength hfails]
      exact hlost conn w hconn hfails h
  · obtain ⟨e, -, he⟩ := exec_send_packet_long env conn hlength w
    rw [he]
    exact h

include hfiled hwrite hlost in
theorem keeps_send_to_peer (peer_id : Str) (packet : Bytes) :
    Moves (Keeps I) (send_to_peer env peer_id packet) := by
  intro w h
  unfold send_to_peer
  simp only [exec_bind, exec_node]
  split
  · exact h
  · rename_i conn hconn
    refine keeps_send_packet hwrite hlost ?_ packet h
    unfold MeshNode.get_conn_for_peer at hconn
    split at hconn
    · cases hconn
    · cases hconn
    · rename_i addr hne haddr
      have hmem := (Dict.mem_entries_iff _).mpr hconn
      have haddress : addr = conn.address := hfiled w h _ hmem
      rw [← haddress]
      exact hmem

include hfiled hwrite hlost in
theorem keeps_broadcast_each (packet : Bytes) (conns : List (Str × PeerConnection)) (w : World)
    (htable : ∀ e ∈ conns, e ∈ w.node.connections.entries) (hnodup : (conns.map Prod.fst).Nodup) :
    Keeps I w (exec (broadcast_each env packet [] conns) w).2 := by
  intro h
  induction conns generalizing w with
  | nil => exact h
  | cons e conns ih =>
    obtain ⟨addr, conn⟩ := e
    have hconn := htable _ List.mem_cons_self
    have htail := fun e he => htable e (List.mem_cons_of_mem _ he)
    have haddr : addr = conn.address := hfiled w h _ hconn
    subst haddr
    obtain ⟨hhead, hrest⟩ := List.nodup_cons.mp hnodup
    have hsent := keeps_send_packet hwrite hlost hconn packet h
    by_cases hlength : packet.length ≤ 65535
    · unfold broadcast_each
      rw [if_neg List.not_mem_nil]
      rcases hfails : env.write_fails conn.address with _ | _
      · simp only [exec_bind, exec_attempt, exec_send_packet hlength hfails]
        exact ih _ htail hrest (hwrite w h _ _)
      · rw [exec_send_packet_fails hlength hfails] at hsent
        simp only [exec_bind, exec_attempt, exec_send_packet_fails hlength hfails]
        refine ih _ (fun e he => ?_) hrest hsent
        rw [connections_on_read_done, Dict.mem_entries_pop]
        exact ⟨htail e he, fun hsame => hhead (List.mem_map.mpr ⟨e, he, hsame⟩)⟩
    · rw [(exec_broadcast_each_long hlength [] _ w).2]
      exact h

include hfiled hwrite hlost in
theorem keeps_raw_send (packet : Bytes) : Moves (Keeps I) (raw_send env packet) := by
  intro w
  unfold raw_send broadcast_packet
  rw [exec_bind_ok _ (exec_node w)]
  exact keeps_broadcast_each hfiled hwrite hlost packet _ w (fun _ he => he)
    w.node.connections.nodup

end

/-! ## What holds between the steps and within -/

/-- What holds between the steps. -/
structure Orderly (w : World) : Prop where
  in_order : ∀ peer_id, InOrder peer_id w
  filed : Filed w.node

/-- No connection on which a write fails takes a peer without a nickname with
it. -/
def Safe (env : Env) (n : MeshNode) : Prop :=
  ∀ conn, (conn.address, conn) ∈ n.connections.entries → env.write_fails conn.address = true →
    ¬ LosesNameless n conn.address

/-- What holds within a step. -/
structure Tidy (env : Env) (w : World) : Prop extends Orderly w where
  safe : Safe env w.node

section

variable {env : Env}

theorem Tidy.of_same {w w' : World} (h : Tidy env w) (hsame : SameTables w.node w'.node)
    (hout : ∀ peer_id, presence peer_id w'.out = presence peer_id w.out) : Tidy env w' := by
  refine ⟨⟨fun peer_id => (h.in_order peer_id).of_same hsame.peers (hout peer_id), ?_⟩, ?_⟩
  · intro e he
    rw [hsame.connections] at he
    exact h.filed e he
  · intro conn hconn hfails hloses
    rw [hsame.connections] at hconn
    refine h.safe conn hconn hfails ?_
    unfold LosesNameless MeshNode.peer_at Nameless at hloses ⊢
    rw [hsame.peers, hsame.peer_addresses] at hloses
    exact hloses

theorem tidy_emit {action : Action} (h : ∀ peer_id, presence peer_id [action] = []) :
    Moves (Keeps (Tidy env)) (emit action) := by
  intro w htidy
  refine htidy.of_same ⟨rfl, rfl, rfl, rfl, rfl, rfl, rfl⟩ fun peer_id => ?_
  rw [exec_emit, presence_append, h, List.append_nil]

/-- A connection is gone, and its first peer with it. -/
theorem orderly_lost {conn : PeerConnection} {w : World} (h : Orderly w)
    (hnamed : ¬ LosesNameless w.node conn.address) (addr : Str) :
    Orderly (exec (do
      modifyNode fun self => { self with connections := self.connections.pop addr }
      on_peer_disconnected conn) w).2 := by
  rw [exec_bind_ok _ (exec_modifyNode _ w)]
  generalize hw₁ : World.mk _ _ = w₁
  have hpeers : w₁.node.peers = w.node.peers := by rw [← hw₁]
  have haddresses : w₁.node.peer_addresses = w.node.peer_addresses := by rw [← hw₁]
  have hout : w₁.out = w.out := by rw [← hw₁]
  have hnamed₁ : ¬ LosesNameless w₁.node conn.address := by
    unfold LosesNameless MeshNode.peer_at Nameless at hnamed ⊢
    rw [hpeers, haddresses]
    exact hnamed
  refine ⟨fun peer_id => ?_, fun e he => ?_⟩
  · refine inOrder_on_peer_disconnected hnamed₁ peer_id ?_
    refine (h.in_order peer_id).of_same hpeers ?_
    rw [hout]
  · rw [connections_on_peer_disconnected, ← hw₁] at he
    exact h.filed e (Dict.mem_entries_pop.mp he).1

theorem tidy_on_read_done {conn : PeerConnection} {w : World}
    (hconn : (conn.address, conn) ∈ w.node.connections.entries)
    (hfails : env.write_fails conn.address = true) :
    Keeps (Tidy env) w (exec (on_read_done conn) w).2 := by
  intro h
  refine ⟨orderly_lost h.toOrderly (h.safe conn hconn hfails) conn.address, ?_⟩
  intro other hother hfails'
  rw [connections_on_read_done, Dict.mem_entries_pop] at hother
  have hsafe := h.safe other hother.1 hfails'
  unfold on_read_done
  rw [exec_bind_ok _ (exec_modifyNode _ w)]
  generalize hw₁ : World.mk _ _ = w₁
  have hsafe₁ : ¬ LosesNameless w₁.node other.address := by rw [← hw₁]; exact hsafe
  rcases node_on_peer_disconnected conn w₁ with ⟨-, hnode⟩ | ⟨peer_id, hpeer, hnode⟩
  · rw [hnode]
    exact hsafe₁
  · rw [hnode]
    split
    · exact fun hl => hsafe₁ (losesNameless_without hpeer (Ne.symm hother.2) hl)
    · exact hsafe₁

theorem tidy_write {w : World} (h : Tidy env w) (address : Str) (frame : Bytes) :
    Tidy env { w with out := w.out ++ [.write address frame] } :=
  tidy_emit (fun _ => rfl) w h

theorem calm_tidy : Calm env (Keeps (Tidy env)) where
  touch _ hf w h := h.of_same (hf w.node) fun _ => rfl
  service _ _ h := h.of_same ⟨rfl, rfl, rfl, rfl, rfl, rfl, rfl⟩ fun _ => rfl
  later _ _ := tidy_emit fun _ => rfl
  on_delivery_ack _ := tidy_emit fun _ => rfl
  saved _ := tidy_emit fun _ => rfl
  send_to_peer := keeps_send_to_peer (fun _ h => h.filed) (fun _ h => tidy_write h)
    fun _ _ hconn hfails => tidy_on_read_done hconn hfails
  raw_send := keeps_raw_send (fun _ h => h.filed) (fun _ h => tidy_write h)
    fun _ _ hconn hfails => tidy_on_read_done hconn hfails

theorem tidy_relay (raw : Bytes) (ttl : UInt8) : Moves (Keeps (Tidy env)) (relay raw ttl) := by
  unfold relay
  exact Moves.ite (Moves.pure ()) (tidy_emit fun _ => rfl)

theorem tidy_deliver (message : BitchatMessage) (sender_id : Str) (is_private : Bool) (w : World) :
    Keeps (Tidy env) w (exec (deliver message sender_id is_private) w).2 := by
  intro h
  unfold deliver
  simp only [exec_bind, exec_node]
  split
  · exact h
  · refine tidy_emit (fun _ => rfl) _ ?_
    refine ⟨⟨fun peer_id => (h.in_order peer_id).of_same rfl rfl, h.filed⟩, h.safe⟩

end

/-! ## One step -/

/-- The node when it comes to answer the packet: the sender is filed under the
connection, and an identity announcement is on file. -/
def MeshNode.noted (n : MeshNode) (packet : BitchatPacket) (address : Str) : MeshNode :=
  { n with
    peer_addresses := n.peer_addresses.set packet.sender_id_str address
    peers := match packet.msg_type, announcement_of packet with
      | .NOISE_IDENTITY_ANNOUNCE, some (peer_id, nickname) => n.peers.set peer_id ⟨some nickname⟩
      | _, _ => n.peers }

/-- The step takes no peer that is on file without a nickname: neither a leave
nor the loss of a connection does, the losses by failing writes included. -/
def SparesNameless (w : World) (env : Env) : Event → Prop
  | .packet conn raw => ∀ packet, parse_bitchat_packet raw = .ok packet →
      packet.sender_id_str ≠ w.node.my_peer_id.str →
        Safe env (w.node.noted packet conn.address) ∧
        (packet.msg_type = .LEAVE → leaves_channel packet = false →
          ¬ Nameless w.node packet.sender_id_str)
  | .read_done conn => ¬ LosesNameless w.node conn.address
  | .disconnect addr => ∀ conn, w.node.connections.get? addr = some conn →
      ¬ LosesNameless w.node conn.address
  | _ => Safe env w.node

theorem Orderly.tidy {env : Env} {w : World} (h : Orderly w) (hsafe : Safe env w.node) :
    Tidy env w := ⟨h, hsafe⟩

theorem Orderly.prunes {w w' : World} (h : Orderly w) (hprunes : Prunes w w')
    (horder : ∀ peer_id, Keeps (InOrder peer_id) w w') : Orderly w' :=
  ⟨fun peer_id => horder peer_id (h.in_order peer_id), hprunes.filed h.filed⟩

section

variable {env : Env} {packet : BitchatPacket} {raw : Bytes} {w : World}

theorem orderly_announced (h : Orderly w) (peer_id nickname : Str) :
    Orderly (exec (announced peer_id nickname) w).2 :=
  h.prunes (prunes_announced peer_id nickname w) fun other =>
    inOrder_announced peer_id nickname other w

theorem orderly_relay (h : Orderly w) (ttl : UInt8) : Orderly (exec (relay raw ttl) w).2 := by
  refine h.prunes (prunes_relay raw ttl w) fun peer_id horder => ?_
  rw [exec_relay]
  split
  · refine horder.of_same rfl ?_
    rw [presence_append]
    exact List.append_nil _
  · exact horder

theorem orderly_handle_leave (h : Orderly w)
    (hnamed : leaves_channel packet = false → ¬ Nameless w.node packet.sender_id_str) :
    Orderly (exec (handle_leave packet raw) w).2 := by
  have htake : Orderly (exec (take_leave packet) w).2 := by
    unfold take_leave
    rw [exec_ite]
    split
    · exact h
    · rename_i hleaves
      rw [Bool.not_eq_true] at hleaves
      exact h.prunes (prunes_remove_peer _ w) (inOrder_remove_peer (hnamed hleaves))
  unfold handle_leave
  rw [exec_bind]
  rcases hdone : exec (take_leave packet) w with ⟨result, w'⟩
  rw [hdone] at htake
  cases result with
  | error e => exact htake
  | ok _ => exact orderly_relay htake packet.ttl

theorem orderly_identity (h : Orderly w)
    (hsafe : ∀ peer_id nickname, announcement_of packet = some (peer_id, nickname) →
      Safe env { w.node with peers := w.node.peers.set peer_id ⟨some nickname⟩ }) :
    Orderly (exec (handle_noise_identity_announce env packet) w).2 := by
  unfold handle_noise_identity_announce
  simp only [exec_bind, exec_node]
  split
  · exact h
  · split
    · exact h
    · rename_i peer_id nickname hannouncement
      obtain ⟨hok, hnode⟩ := exec_announced peer_id nickname w
      have horderly := orderly_announced h peer_id nickname
      rcases hdone : exec (announced peer_id nickname) w with ⟨result, w'⟩
      rw [hdone] at hok hnode horderly
      subst hok
      rw [exec_bind_ok _ hdone]
      have htidy : Tidy env w' := by
        refine horderly.tidy ?_
        rw [hnode]
        exact hsafe peer_id nickname hannouncement
      split
      · exact (calm_tidy.initiate_handshake peer_id w' htidy).toOrderly
      · exact horderly

/-- What holds between the steps holds after a packet. -/
theorem orderly_handle (h : Orderly (w.heard packet.sender_id_str address))
    (hsafe : Safe env (w.node.noted packet address))
    (hnamed : packet.msg_type = .LEAVE → leaves_channel packet = false →
      ¬ Nameless w.node packet.sender_id_str) :
    Orderly (exec (handle env packet raw) (w.heard packet.sender_id_str address)).2 := by
  by_cases hidentity : packet.msg_type = .NOISE_IDENTITY_ANNOUNCE
  · have hhandle : handle env packet raw = handle_noise_identity_announce env packet :=
      handle_of_handler (by rw [handler, hidentity])
    rw [hhandle]
    refine orderly_identity h fun peer_id nickname hannouncement => ?_
    unfold MeshNode.noted at hsafe
    rw [hidentity, hannouncement] at hsafe
    exact hsafe
  · have hnoted : w.node.noted packet address = (w.heard packet.sender_id_str address).node := by
      unfold MeshNode.noted
      split
      · rename_i htype _
        exact absurd htype hidentity
      · rfl
    rw [hnoted] at hsafe
    by_cases hannounce : packet.msg_type = .ANNOUNCE
    · have hhandle : handle env packet raw = handle_announce packet :=
        handle_of_handler (by rw [handler, hannounce])
      rw [hhandle]
      exact orderly_announced h _ _
    · by_cases hleave : packet.msg_type = .LEAVE
      · have hhandle : handle env packet raw = handle_leave packet raw :=
          handle_of_handler (by rw [handler, hleave])
        rw [hhandle]
        exact orderly_handle_leave h (hnamed hleave)
      · refine ((calm_tidy : Calm env _).handle (tidy_relay raw packet.ttl) ?_ ?_ ?_ ?_ _
          (h.tidy hsafe)).toOrderly
        · exact fun _ message is_private w _ => tidy_deliver message _ is_private w
        · exact fun htype => absurd htype hannounce
        · exact fun htype => absurd htype hidentity
        · exact fun htype => absurd htype hleave

end

/-- What holds between the steps holds after a step that spares the nameless. -/
theorem Orderly.step {w : World} (h : Orderly w) {env : Env} {event : Event}
    (hspares : SparesNameless w env event) : Orderly (exec (react env event) w).2 := by
  have hcall (hsafe : Safe env w.node) (hevent : (∀ conn raw, event ≠ .packet conn raw) ∧
      (∀ conn, event ≠ .connected conn) ∧ (∀ conn, event ≠ .read_done conn) ∧
      ∀ addr, event ≠ .disconnect addr) : Orderly (exec (react env event) w).2 := by
    obtain ⟨hpacket, hconnected, hread_done, hdisconnect⟩ := hevent
    refine ((calm_tidy : Calm env _).react ?_ ?_ ?_ ?_ w (h.tidy hsafe)).toOrderly
    · exact fun conn raw heq => absurd heq (hpacket conn raw)
    · exact fun conn heq => absurd heq (hconnected conn)
    · exact fun conn heq => absurd heq (hread_done conn)
    · exact fun addr heq => absurd heq (hdisconnect addr)
  cases event with
  | packet conn raw =>
    show Orderly (exec (on_packet_received env conn raw) w).2
    rcases hparse : parse_bitchat_packet raw with e | packet
    · unfold on_packet_received
      simp only [exec_bind, exec_node, hparse, exec_pure]
      exact h
    · by_cases hown : packet.sender_id_str = w.node.my_peer_id.str
      · unfold on_packet_received
        simp only [exec_bind, exec_node, hparse, hown, if_true, exec_pure]
        exact h
      · obtain ⟨hsafe, hnamed⟩ := hspares packet hparse hown
        rw [exec_on_packet_received hparse hown]
        refine orderly_handle ⟨fun peer_id => ?_, h.filed⟩ hsafe hnamed
        exact (h.in_order peer_id).of_same rfl rfl
  | connected conn =>
    refine ⟨fun peer_id => (h.in_order peer_id).of_same rfl rfl, fun e he => ?_⟩
    rcases Dict.mem_write he with rfl | hold
    · rfl
    · exact h.filed e hold
  | read_done conn => exact orderly_lost h hspares conn.address
  | disconnect addr =>
    show Orderly (exec (disconnect addr) w).2
    unfold disconnect
    rw [exec_bind_ok _ (exec_node w)]
    split
    · exact h
    · rename_i conn hconn
      exact orderly_lost h (hspares conn hconn) addr
  | _ => exact hcall hspares ⟨by simp, by simp, by simp, by simp⟩

/-- In every run that spares the nameless, every peer joins and leaves by
turns, and is on file exactly after it has joined. -/
theorem peers_join_and_leave_by_turns (w : World) (hrun : ReachableWith SparesNameless w)
    (peer_id : Str) : Alternating (w.node.peers.has peer_id) (presence peer_id w.out) := by
  have horderly : Orderly w := by
    induction hrun with
    | start my_peer_id config_nickname app_state static_identity_key =>
      exact ⟨fun _ => .nil, fun e he => absurd he List.not_mem_nil⟩
    | step _ env event _ hspares ih => exact ih.step hspares
  exact horderly.in_order peer_id

end daemon

/-! ## On the stand-in -/

namespace daemon.standIn

open python bitchat bitchat.protocol

attribute [local instance] bitchat.standIn.packages

/-- A new node to which a peer announces itself, with the given payload. -/
def announced_with (payload : Bytes) : World :=
  (exec (react (env 1) (.packet conn (layout .ANNOUNCE 7 0 0 them.bytes [] payload [])))
    ⟨node us 1, []⟩).2

/-- Then the peer leaves. -/
def left_after (payload : Bytes) : World :=
  (exec (react (env 2) (.packet conn (layout .LEAVE 7 0 0 them.bytes [] [] [])))
    (announced_with payload)).2

theorem safe_env (k : Fin 16) (n : MeshNode) : Safe (env k) n := by
  intro conn hconn hfails
  cases hfails

theorem reachable_left_after (payload : Bytes) : Reachable (left_after payload) := by
  refine .step (.step ?_ (env 1) (.packet conn _) trivial) (env 2) (.packet conn _) trivial
  exact .start us (some ['n']) (.init [1]) (bitchat.standIn.key 1)

theorem nickname_announced :
    ((announced_with [110]).node.peers.get? them.str).map Peer.nickname = some (some ['n']) := by
  decide +kernel

theorem reachableWith_left_after : ReachableWith SparesNameless (left_after [110]) := by
  refine .step (.step ?_ (env 1) (.packet conn _) trivial ?_) (env 2) (.packet conn _) trivial ?_
  · exact .start us (some ['n']) (.init [1]) (bitchat.standIn.key 1)
  · intro packet hparse hother
    rw [parse_layout .ANNOUNCE 7 0 0 them.bytes [] [110] [] rfl rfl rfl (by decide)] at hparse
    rw [← Except.ok.inj hparse]
    exact ⟨safe_env 1 _, fun hleave => by cases hleave⟩
  · intro packet hparse hother
    rw [parse_layout .LEAVE 7 0 0 them.bytes [] [] [] rfl rfl rfl (by decide)] at hparse
    rw [← Except.ok.inj hparse]
    refine ⟨safe_env 2 _, ?_⟩
    rintro - - ⟨peer, hpeer, hempty⟩
    have hnickname := nickname_announced
    have hsender : hex (rstripZero them.bytes) = them.str := by decide
    rw [← hsender] at hnickname
    have hget : (announced_with [110]).node.peers.get? (hex (rstripZero them.bytes)) =
        some peer := hpeer
    rw [hget, Option.map_some, Option.some.injEq] at hnickname
    rw [hnickname] at hempty
    cases hempty

/-- A peer whose announcement is blank joins and does not leave. -/
theorem presence_left_after_blank :
    (left_after [32]).node.peers.has them.str = false ∧
      presence them.str (left_after [32]).out = [.joined] := by
  decide +kernel

end daemon.standIn

namespace daemon

attribute [local instance] bitchat.standIn.packages

theorem a_peer_joins_and_leaves :
    Alternating ((standIn.left_after [110]).node.peers.has standIn.them.str)
      (presence standIn.them.str (standIn.left_after [110]).out) :=
  peers_join_and_leave_by_turns (standIn.left_after [110]) standIn.reachableWith_left_after
    standIn.them.str

/-- A peer that announces itself with a blank nickname joins, and is removed
without a word when it leaves. -/
theorem a_blank_peer_does_not_leave :
    Reachable (standIn.left_after [32]) ∧
      ¬ Alternating ((standIn.left_after [32]).node.peers.has standIn.them.str)
        (presence standIn.them.str (standIn.left_after [32]).out) := by
  refine ⟨standIn.reachable_left_after [32], fun h => ?_⟩
  obtain ⟨hgone, hcalls⟩ := standIn.presence_left_after_blank
  rw [hgone, hcalls] at h
  exact absurd (h.last.mpr rfl) (by simp)

end daemon
