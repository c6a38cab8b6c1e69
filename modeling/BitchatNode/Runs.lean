-- What happens to a node in its life: packets that arrive, tasks whose sleep
-- is over, connections that come and go, and the calls of the API layer.
import BitchatNode.Footprint
import BitchatNode.FragmentDispatch

namespace daemon

open python bitchat bitchat.protocol

variable [Packages]

/-! ## Events -/

inductive Event
  | packet (conn : PeerConnection) (raw : Bytes)
  | later (task : Later)
  | connected (conn : PeerConnection)
  | read_done (conn : PeerConnection)
  | disconnect (addr : Str)
  | announce
  | identity_announce
  | leave
  | save
  | set_name (nickname : Str)
  | channel_announce (channel : Str) (is_protected : Bool) (key_commitment : Option Str)
  | public_message (content : Str) (channel : Option Str)
  | private_message (content target_peer_id target_nickname : Str) (message_id : Option Str)

/-- A connection is filed under its address. -/
def connected (conn : PeerConnection) : Mesh Unit :=
  modifyNode fun self => { self with connections := self.connections.set conn.address conn }

/-- `Transport.disconnect`. -/
def disconnect (addr : Str) : Mesh Unit := do
  let self ← node
  match self.connections.get? addr with
  -- `None` has no address
  | none => throw .AttributeError
  | some conn =>
    modifyNode fun self => { self with connections := self.connections.pop addr }
    on_peer_disconnected conn

/-- `_handle_set_name` of `daemon/api.py`. -/
def handle_set_name (env : Env) (nickname : Str) : Mesh Unit :=
  if strip nickname = [] ∨ 20 < (strip nickname).length then pure ()
  else do
    modifyNode fun self => { self with nickname := strip nickname }
    save_state
    send_announce env

/-- What the node does about it, up to its first sleep. -/
def react (env : Env) : Event → Mesh Unit
  | .packet conn raw => on_packet_received env conn raw
  | .later task => run_later env task
  | .connected conn => connected conn
  | .read_done conn => on_read_done conn
  | .disconnect addr => disconnect addr
  | .announce => send_announce env
  | .identity_announce => send_identity_announce env
  | .leave => send_leave env
  | .save => save_state
  | .set_name nickname => handle_set_name env nickname
  | .channel_announce channel is_protected key_commitment =>
    send_channel_announce env channel is_protected key_commitment
  | .public_message content channel => discard (send_public_message env content channel)
  | .private_message content target_peer_id target_nickname message_id =>
    discard (send_private_message env content target_peer_id target_nickname message_id)

/-! ## Runs -/

/-- A task goes on only if it was put off before. -/
def Due (w : World) : Event → Prop
  | .later task => .later task ∈ w.out
  | _ => True

/-- The states of a node, from its start on. -/
inductive Reachable : World → Prop
  | start (my_peer_id : PeerId) (config_nickname : Option Str) (app_state : AppState)
      (static_identity_key : Crypto.PrivateKey) :
    Reachable ⟨.init my_peer_id config_nickname app_state static_identity_key, []⟩
  | step {w : World} (h : Reachable w) (env : Env) (event : Event) (hdue : Due w event) :
    Reachable (exec (react env event) w).2

/-- The states that a run leads to whose steps all meet a condition on the
state before them. -/
inductive ReachableWith (ok : World → Env → Event → Prop) : World → Prop
  | start (my_peer_id : PeerId) (config_nickname : Option Str) (app_state : AppState)
      (static_identity_key : Crypto.PrivateKey) :
    ReachableWith ok ⟨.init my_peer_id config_nickname app_state static_identity_key, []⟩
  | step {w : World} (h : ReachableWith ok w) (env : Env) (event : Event) (hdue : Due w event)
      (hok : ok w env event) : ReachableWith ok (exec (react env event) w).2

theorem ReachableWith.reachable {ok : World → Env → Event → Prop} {w : World}
    (h : ReachableWith ok w) : Reachable w := by
  induction h with
  | start my_peer_id config_nickname app_state static_identity_key =>
    exact .start my_peer_id config_nickname app_state static_identity_key
  | step _ env event hdue _ ih => exact .step ih env event hdue

/-- The state after the given steps, from any state. -/
def World.run (w : World) (steps : List (Env × Event)) : World :=
  steps.foldl (fun w step => (exec (react step.1 step.2) w).2) w

/-- What every step keeps is kept by a run. -/
theorem rel_run {R : World → World → Prop} [IsPreorder World R]
    (h : ∀ env event, Moves R (react env event)) (w : World) (steps : List (Env × Event)) :
    R w (w.run steps) := by
  induction steps generalizing w with
  | nil => exact refl_of R w
  | cons step steps ih => exact trans_of R (h step.1 step.2 w) (ih _)

/-! ## What holds through an event -/

section

variable {env : Env} {R : World → World → Prop} [IsPreorder World R] {raw : Bytes}

/-- A fragment is dropped or relayed. -/
theorem moves_handle_fragment {packet : BitchatPacket} (hrelay : Moves R (relay raw packet.ttl)) :
    Moves R (handle_fragment env packet raw) := by
  intro w
  by_cases hlength : 13 ≤ packet.payload.length
  · rw [exec_handle_fragment env packet raw w hlength]
    exact refl_of R w
  · rw [exec_handle_fragment_short env packet raw w hlength]
    exact hrelay w

theorem Steady.handle (h : Steady env R) {packet : BitchatPacket}
    (hrelay : Moves R (relay raw packet.ttl))
    (hdeliver : packet.msg_type = .MESSAGE ∨ packet.msg_type = .NOISE_ENCRYPTED →
      ∀ message is_private w, message.id ∉ w.node.processed_messages →
        R w (exec (deliver message packet.sender_id_str is_private) w).2)
    (hannounce : packet.msg_type = .ANNOUNCE → Moves R (handle_announce packet))
    (hidentity : packet.msg_type = .NOISE_IDENTITY_ANNOUNCE →
      Moves R (daemon.handle_noise_identity_announce env packet))
    (hleave : packet.msg_type = .LEAVE → Moves R (take_leave packet))
    (hhandshake : packet.msg_type = .NOISE_HANDSHAKE_INIT ∨
      packet.msg_type = .NOISE_HANDSHAKE_RESP →
      ∀ answer, Moves R (daemon.handle_noise_handshake answer env packet))
    (hkey : packet.msg_type = .KEY_EXCHANGE → Moves R (daemon.handle_key_exchange env packet)) :
    Moves R (handle env packet raw) := by
  have hother : Moves R ((daemon.handler env packet raw).getD (pure ())) := by
    rcases htask : daemon.handler env packet raw with _ | task
    · exact Moves.pure ()
    · exact h.handler hrelay hdeliver hannounce hidentity hleave hhandshake hkey task htask
  unfold daemon.handle
  split
  · exact moves_handle_fragment hrelay
  · exact moves_handle_fragment hrelay
  · exact moves_handle_fragment hrelay
  · exact hother

end

namespace Calm

variable {env : Env} {R : World → World → Prop} [IsPreorder World R]

section

variable {raw : Bytes}

theorem handle (h : Calm env R) {packet : BitchatPacket} (hrelay : Moves R (relay raw packet.ttl))
    (hdeliver : packet.msg_type = .MESSAGE ∨ packet.msg_type = .NOISE_ENCRYPTED →
      ∀ message is_private w, message.id ∉ w.node.processed_messages →
        R w (exec (deliver message packet.sender_id_str is_private) w).2)
    (hannounce : packet.msg_type = .ANNOUNCE → Moves R (handle_announce packet))
    (hidentity : packet.msg_type = .NOISE_IDENTITY_ANNOUNCE →
      Moves R (daemon.handle_noise_identity_announce env packet))
    (hleave : packet.msg_type = .LEAVE → Moves R (take_leave packet)) :
    Moves R (handle env packet raw) := by
  refine h.toSteady.handle hrelay hdeliver hannounce hidentity hleave ?_ ?_
  · exact fun _ answer => h.handle_noise_handshake answer packet
  · exact fun _ => h.handle_key_exchange packet

theorem on_packet_received (h : Calm env R)
    (hdeliver : ∀ message sender_id is_private w, message.id ∉ w.node.processed_messages →
      R w (exec (deliver message sender_id is_private) w).2)
    (hrelay : ∀ packet, parse_bitchat_packet raw = .ok packet → Moves R (relay raw packet.ttl))
    (hheard : ∀ peer_id address, Moves R (modifyNode fun self =>
      { self with peer_addresses := self.peer_addresses.set peer_id address }))
    (hannounced : ∀ peer_id nickname, Moves R (announced peer_id nickname))
    (hleave : ∀ packet, Moves R (take_leave packet)) (conn : PeerConnection) :
    Moves R (on_packet_received env conn raw) := by
  unfold daemon.on_packet_received
  refine Moves.bind moves_node fun self => ?_
  split
  · exact Moves.pure ()
  · rename_i packet hparse
    refine Moves.ite (Moves.pure ()) ?_
    refine Moves.bind (hheard _ _) fun _ => ?_
    refine Moves.suppress (h.handle (hrelay packet hparse) (fun _ _ _ => hdeliver _ _ _) ?_ ?_
      fun _ => hleave _)
    · exact fun _ => hannounced _ _
    · exact fun _ => h.handle_noise_identity_announce hannounced _

end

/-- An event that neither brings a packet nor changes a connection. -/
theorem react (h : Calm env R) {event : Event}
    (hpacket : ∀ conn raw, event = .packet conn raw →
      Moves R (daemon.on_packet_received env conn raw))
    (hconnected : ∀ conn, event = .connected conn → Moves R (connected conn))
    (hread_done : ∀ conn, event = .read_done conn → Moves R (on_read_done conn))
    (hdisconnect : ∀ addr, event = .disconnect addr → Moves R (disconnect addr)) :
    Moves R (react env event) := by
  cases event with
  | packet conn raw => exact hpacket conn raw rfl
  | later task => exact h.run_later task
  | connected conn => exact hconnected conn rfl
  | read_done conn => exact hread_done conn rfl
  | disconnect addr => exact hdisconnect addr rfl
  | announce => exact h.send_announce
  | identity_announce => exact h.send_identity_announce
  | leave => exact h.send_leave
  | save => exact h.save_state
  | set_name nickname =>
    show Moves R (handle_set_name env nickname)
    unfold handle_set_name
    apply Moves.ite
    · exact Moves.pure ()
    · refine Moves.bind (h.touch _ fun _ => ⟨rfl, rfl, rfl, rfl, rfl, rfl, rfl⟩) fun _ => ?_
      exact Moves.bind h.save_state fun _ => h.send_announce
  | channel_announce channel is_protected key_commitment =>
    exact h.send_channel_announce channel is_protected key_commitment
  | public_message content channel => exact Moves.map _ (h.send_public_message content channel)
  | private_message content target_peer_id target_nickname message_id =>
    exact Moves.map _ (h.send_private_message _ _ _ _)

end Calm

theorem quiet_disconnect (addr : Str) : Moves Quiet (disconnect addr) := by
  unfold disconnect
  refine Moves.bind moves_node fun self => ?_
  split
  · exact Moves.throw _
  · refine Moves.bind (quiet_modifyNode fun _ => ⟨rfl, rfl⟩) fun _ => ?_
    exact quiet_on_peer_disconnected _

/-- What holds through quiet calls, relays and the delivery of new messages
holds through every event. -/
theorem moves_react {R : World → World → Prop} [IsPreorder World R]
    (hquiet : ∀ w w', Quiet w w' → R w w') (hrelay : ∀ raw ttl, Moves R (relay raw ttl))
    (hdeliver : ∀ message sender_id is_private w, message.id ∉ w.node.processed_messages →
      R w (exec (deliver message sender_id is_private) w).2) (env : Env) (event : Event) :
    Moves R (react env event) := by
  have hcalm : Calm env R := (calm_quiet env).mono hquiet
  refine hcalm.react ?_ ?_ ?_ ?_
  · rintro conn raw -
    refine hcalm.on_packet_received hdeliver (fun _ _ => hrelay _ _) ?_ ?_ ?_ conn
    · exact fun _ _ => Moves.mono hquiet (quiet_modifyNode fun _ => ⟨rfl, rfl⟩)
    · exact fun _ _ => (quiet_announced _ _).mono hquiet
    · exact fun _ => Moves.ite (Moves.pure ()) ((quiet_remove_peer _).mono hquiet)
  · exact fun _ _ => Moves.mono hquiet (quiet_modifyNode fun _ => ⟨rfl, rfl⟩)
  · exact fun conn _ => (quiet_on_read_done conn).mono hquiet
  · exact fun addr _ => (quiet_disconnect addr).mono hquiet

/-! ## What every call keeps -/

/-- The id of the node, and the peers that are blocked, are the same. -/
structure SameOwner (n n' : MeshNode) : Prop where
  my_peer_id : n'.my_peer_id = n.my_peer_id
  blocked : n'.blocked_peers = n.blocked_peers

section

variable {R : World → World → Prop} [IsPreorder World R]
  (hnode : ∀ f : MeshNode → MeshNode, (∀ n, SameOwner n (f n)) → Moves R (modifyNode f))
  (hemit : ∀ action, Moves R (emit action))
  (hservice : ∀ {α : Type} (x : Py PyError encryption.EncryptionService α), Moves R (onService x))

include hnode hemit in
theorem moves_remove_peer_of (peer_id : Str) : Moves R (remove_peer peer_id) := by
  unfold remove_peer
  refine Moves.bind moves_node fun self => ?_
  refine Moves.bind (hnode _ fun _ => ⟨rfl, rfl⟩) fun _ => ?_
  exact Moves.ite (hemit _) (Moves.pure ())

include hnode hemit in
theorem moves_on_read_done_of (conn : PeerConnection) : Moves R (on_read_done conn) := by
  unfold on_read_done
  refine Moves.bind (hnode _ fun _ => ⟨rfl, rfl⟩) fun _ => ?_
  exact moves_on_peer_disconnected (moves_remove_peer_of hnode hemit) conn

include hnode hemit hservice in
theorem calm_of (env : Env) : Calm env R where
  touch f h := hnode f fun n => ⟨(h n).my_peer_id, (h n).blocked⟩
  service x := hservice x
  later _ _ := hemit _
  on_delivery_ack _ := hemit _
  saved _ := hemit _
  send_to_peer :=
    moves_send_to_peer (fun conn _ => moves_on_read_done_of hnode hemit conn) fun _ _ => hemit _
  raw_send := moves_raw_send (fun conn _ => moves_on_read_done_of hnode hemit conn)
    fun _ _ => hemit _

include hnode hemit hservice in
/-- What holds through every change of the node but one of its owner, through
every action and through every call of the service holds through every event. -/
theorem moves_react_of (env : Env) (event : Event) : Moves R (react env event) := by
  have hcalm : Calm env R := calm_of hnode hemit hservice env
  refine hcalm.react ?_ ?_ ?_ ?_
  · intro conn raw _
    refine hcalm.on_packet_received ?_ ?_ ?_ ?_ ?_ conn
    · intro message sender_id is_private w _
      have hdeliver : Moves R (deliver message sender_id is_private) := by
        unfold deliver
        refine Moves.bind moves_node fun self => ?_
        split
        · exact Moves.throw _
        · exact Moves.bind (hnode _ fun _ => ⟨rfl, rfl⟩) fun _ => hemit _
      exact hdeliver w
    · exact fun _ _ => Moves.ite (Moves.pure ()) (hemit _)
    · exact fun _ _ => hnode _ fun _ => ⟨rfl, rfl⟩
    · intro peer_id nickname
      unfold announced
      refine Moves.bind moves_node fun self => ?_
      refine Moves.bind (hnode _ fun _ => ⟨rfl, rfl⟩) fun _ => ?_
      split
      · exact Moves.pure ()
      · exact hemit _
    · exact fun _ => Moves.ite (Moves.pure ()) (moves_remove_peer_of hnode hemit _)
  · exact fun conn _ => hnode _ fun _ => ⟨rfl, rfl⟩
  · exact fun conn _ => moves_on_read_done_of hnode hemit conn
  · intro addr _
    unfold disconnect
    refine Moves.bind moves_node fun self => ?_
    split
    · exact Moves.throw _
    · refine Moves.bind (hnode _ fun _ => ⟨rfl, rfl⟩) fun _ => ?_
      exact moves_on_peer_disconnected (moves_remove_peer_of hnode hemit) _

end

/-- What a node has done stays done. -/
def Grows (w w' : World) : Prop := w.out <+: w'.out

instance : IsPreorder World Grows where
  refl w := List.prefix_refl w.out
  trans _ _ _ h g := List.IsPrefix.trans h g

theorem grows_react (env : Env) (event : Event) : Moves Grows (react env event) :=
  moves_react_of (fun _ _ w => List.prefix_refl w.out)
    (fun action w => List.prefix_append w.out [action])
    (fun _ w => List.prefix_refl w.out) env event

end daemon
