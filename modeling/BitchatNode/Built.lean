-- The calls of a node are built from a few: they look at the node, change it,
-- act, and call its encryption service. None of them looks at what the node
-- has done, so a run of the node does not depend on it.
import BitchatNode.Runs
import BitchatNode.Python.Lockstep

namespace daemon

open python bitchat bitchat.protocol bitchat.encryption

variable [Packages]

inductive Built : {α : Type} → Mesh α → Prop
  | pure {α : Type} (a : α) : Built (Pure.pure a)
  | throw {α : Type} (e : PyError) : Built (throw e : Mesh α)
  | node : Built node
  | modifyNode (f : MeshNode → MeshNode) : Built (modifyNode f)
  | emit (action : Action) : Built (emit action)
  | onService {α : Type} (x : Py PyError EncryptionService α) : Built (onService x)
  | bind {α β : Type} {x : Mesh α} {f : α → Mesh β} (hx : Built x) (hf : ∀ a, Built (f a)) :
    Built (x >>= f)
  | attempt {α : Type} {x : Mesh α} (hx : Built x) : Built (attempt x)
  | suppress {α : Type} {x : Mesh α} (hx : Built x) : Built (suppress x)

namespace Built

theorem ite {α : Type} {c : Prop} [Decidable c] {x y : Mesh α} (hx : Built x) (hy : Built y) :
    Built (if c then x else y) := by
  split
  · exact hx
  · exact hy

theorem outcome {α : Type} (r : Except PyError α) : Built (python.outcome r) := by
  cases r with
  | ok a => exact .pure a
  | error e => exact .throw e

theorem discard {α : Type} {x : Mesh α} (hx : Built x) : Built (discard x) := by
  have hmap : Built (x >>= fun _ => Pure.pure ()) := .bind hx fun _ => .pure ()
  rw [bind_pure_comp] at hmap
  exact hmap

/-! ## Losing a peer, and sending -/

theorem remove_peer (peer_id : Str) : Built (remove_peer peer_id) := by
  unfold daemon.remove_peer
  refine .bind .node fun self => ?_
  refine .bind (.modifyNode _) fun _ => ?_
  exact .ite (.emit _) (.pure ())

theorem on_peer_disconnected (conn : PeerConnection) : Built (on_peer_disconnected conn) := by
  unfold daemon.on_peer_disconnected
  refine .bind .node fun self => ?_
  split
  · exact .ite (remove_peer _) (.pure ())
  · exact .pure ()

theorem on_read_done (conn : PeerConnection) : Built (on_read_done conn) :=
  .bind (.modifyNode _) fun _ => on_peer_disconnected conn

variable (env : Env)

theorem send_packet (conn : PeerConnection) (packet : Bytes) :
    Built (send_packet env conn packet) := by
  unfold daemon.send_packet
  refine .ite (.throw _) ?_
  refine .bind (.outcome _) fun frame => ?_
  apply Built.ite
  · exact .bind (on_read_done conn) fun _ => .throw _
  · exact .emit _

theorem broadcast_each (packet : Bytes) (exclude : List Str)
    (entries : List (Str × PeerConnection)) :
    Built (broadcast_each env packet exclude entries) := by
  induction entries with
  | nil => exact .pure ()
  | cons entry rest ih =>
    obtain ⟨addr, conn⟩ := entry
    unfold daemon.broadcast_each
    refine .ite ih ?_
    refine .bind (.attempt (send_packet env conn packet)) fun result => ?_
    split
    · exact ih
    · exact ih
    · exact .throw _

theorem raw_send (packet : Bytes) : Built (raw_send env packet) :=
  .bind .node fun _ => broadcast_each env packet _ _

theorem send_to_peer (peer_id : Str) (packet : Bytes) : Built (send_to_peer env peer_id packet) := by
  unfold daemon.send_to_peer
  refine .bind .node fun self => ?_
  split
  · exact .pure ()
  · exact send_packet env _ packet

theorem relay (raw : Bytes) (ttl : UInt8) : Built (relay raw ttl) := .ite (.pure ()) (.emit _)

/-! ## Announcements and handshakes -/

theorem initiate_handshake (peer_id : Str) : Built (initiate_handshake env peer_id) := by
  unfold daemon.initiate_handshake
  apply Built.suppress
  refine .bind (.onService _) fun msg => ?_
  refine .bind .node fun self => ?_
  refine .bind (.outcome _) fun packet => ?_
  exact send_to_peer env peer_id _

theorem send_identity_announce : Built (send_identity_announce env) := by
  unfold daemon.send_identity_announce
  refine .bind .node fun self => ?_
  refine .bind (.outcome _) fun payload => ?_
  refine .bind (.outcome _) fun packet => ?_
  exact raw_send env packet

theorem send_announce : Built (send_announce env) := by
  unfold daemon.send_announce
  refine .bind .node fun self => ?_
  refine .bind (.outcome _) fun packet => ?_
  exact raw_send env packet

theorem announced (peer_id nickname : Str) : Built (announced peer_id nickname) := by
  unfold daemon.announced
  refine .bind .node fun self => ?_
  refine .bind (.modifyNode _) fun _ => ?_
  exact .ite (.pure ()) (.emit _)

theorem handle_noise_identity_announce (packet : BitchatPacket) :
    Built (handle_noise_identity_announce env packet) := by
  unfold daemon.handle_noise_identity_announce
  refine .bind .node fun self => ?_
  refine .ite (.pure ()) ?_
  split
  · exact .pure ()
  · refine .bind (announced _ _) fun _ => ?_
    exact .ite (initiate_handshake env _) (.pure ())

theorem send_pending_private_messages (peer_id : Str) :
    Built (send_pending_private_messages peer_id) := by
  unfold daemon.send_pending_private_messages
  refine .bind .node fun self => ?_
  refine .bind (.modifyNode _) fun _ => ?_
  exact .ite (.pure ()) (.emit _)

theorem process_handshake_message (peer_id : Str) (message : Bytes) :
    Built (process_handshake_message env peer_id message) := by
  unfold daemon.process_handshake_message
  refine .bind (.onService _) fun (response, authenticated) => ?_
  refine .bind ?_ fun _ => .pure _
  cases authenticated with
  | none => exact .pure ()
  | some peer => exact .emit _

theorem answer_handshake (answer : MessageType) (sender_id : Str) (response : Option Bytes) :
    Built (answer_handshake answer env sender_id response) := by
  cases response with
  | none => exact .pure ()
  | some response =>
    refine .bind .node fun self => ?_
    refine .bind (.outcome _) fun resp_packet => ?_
    exact send_to_peer env sender_id _

theorem session_established (sender_id : Str) : Built (session_established sender_id) := by
  unfold daemon.session_established
  refine .bind .node fun self => ?_
  refine .ite ?_ (.pure ())
  exact .bind (.modifyNode _) fun _ => send_pending_private_messages sender_id

theorem handle_noise_handshake (answer : MessageType) (packet : BitchatPacket) :
    Built (handle_noise_handshake answer env packet) := by
  have htake : Built (take_handshake answer env packet) := by
    refine .bind (process_handshake_message env _ _) fun response => ?_
    exact .bind (answer_handshake env answer _ response) fun _ => session_established _
  unfold daemon.handle_noise_handshake
  refine .bind .node fun self => ?_
  refine .ite (.pure ()) ?_
  refine .bind (.attempt htake) fun result => ?_
  split
  · exact .pure ()
  · exact .modifyNode _

theorem handle_key_exchange (packet : BitchatPacket) : Built (handle_key_exchange env packet) := by
  unfold daemon.handle_key_exchange
  apply Built.suppress
  refine .bind .node fun self => ?_
  refine .bind (process_handshake_message env _ _) fun response => ?_
  split
  · exact .bind (.outcome _) fun resp_packet => send_to_peer env _ resp_packet
  · exact .pure ()

/-! ## Messages and their ACKs -/

theorem seal_ack (plain : Bytes) (sender_id : Str) (is_private : Bool) :
    Built (seal_ack plain sender_id is_private) := by
  unfold daemon.seal_ack
  refine .ite ?_ (.pure plain)
  refine .bind (.attempt (.onService _)) fun result => ?_
  split
  · exact .pure _
  · exact .pure _

theorem send_delivery_ack (message_id sender_id : Str) (is_private : Bool) :
    Built (send_delivery_ack env message_id sender_id is_private) := by
  unfold daemon.send_delivery_ack
  refine .bind .node fun self => ?_
  refine .ite ?_ (.pure ())
  refine .bind (.modifyNode _) fun _ => ?_
  refine .bind (seal_ack _ _ _) fun ack_payload => ?_
  exact .bind (.outcome _) fun ack_packet => send_to_peer env sender_id _

theorem take_ack (ack : DeliveryAck) : Built (take_ack ack) := by
  unfold daemon.take_ack
  refine .bind .node fun self => ?_
  split
  · exact .pure ()
  · exact .bind (.modifyNode _) fun _ => .ite (.emit _) (.pure ())

theorem open_ack (packet : BitchatPacket) : Built (open_ack packet) := by
  unfold daemon.open_ack
  refine .bind .node fun self => ?_
  refine .ite ?_ (.pure _)
  refine .bind (.attempt (.onService _)) fun result => ?_
  split
  · exact .pure _
  · exact .pure _

theorem handle_delivery_ack (packet : BitchatPacket) (raw : Bytes) :
    Built (handle_delivery_ack packet raw) := by
  unfold daemon.handle_delivery_ack
  refine .bind .node fun self => ?_
  refine .ite ?_ (relay raw packet.ttl)
  refine .bind (open_ack packet) fun ack_payload => ?_
  split
  · exact take_ack _
  · exact .pure ()

theorem deliver (message : BitchatMessage) (sender_id : Str) (is_private : Bool) :
    Built (deliver message sender_id is_private) := by
  unfold daemon.deliver
  refine .bind .node fun self => ?_
  split
  · exact .throw _
  · exact .bind (.modifyNode _) fun _ => .emit _

theorem acknowledge (message : BitchatMessage) (sender_id : Str) (is_private : Bool) :
    Built (acknowledge env message sender_id is_private) := by
  unfold daemon.acknowledge
  refine .bind .node fun self => ?_
  exact .ite (send_delivery_ack env _ _ _) (.pure ())

theorem accept_message (packet : BitchatPacket) (raw : Bytes) (is_private : Bool) (payload : Bytes) :
    Built (accept_message env packet raw is_private payload) := by
  unfold daemon.accept_message
  refine .bind (.outcome _) fun message => ?_
  refine .bind .node fun self => ?_
  refine .ite (.pure ()) ?_
  refine .bind (deliver _ _ _) fun _ => ?_
  exact .bind (acknowledge env _ _ _) fun _ => relay raw packet.ttl

theorem handle_message (packet : BitchatPacket) (raw : Bytes) :
    Built (handle_message env packet raw) := by
  unfold daemon.handle_message
  refine .bind .node fun self => ?_
  refine .ite (.pure ()) ?_
  refine .ite (.suppress (accept_message env _ _ _ _)) ?_
  refine .ite ?_ (relay raw packet.ttl)
  refine .bind (.attempt (.onService _)) fun result => ?_
  split
  · exact .suppress (accept_message env _ _ _ _)
  · exact .pure ()
  · exact .throw _

theorem accept_encrypted (sender_id : Str) (decrypted : Bytes) :
    Built (accept_encrypted env sender_id decrypted) := by
  unfold daemon.accept_encrypted
  refine .ite ?_ (.pure ())
  refine .bind (.outcome _) fun inner_packet => ?_
  refine .ite ?_ (.pure ())
  refine .bind (.outcome _) fun message => ?_
  refine .bind .node fun self => ?_
  refine .ite (.pure ()) ?_
  exact .bind (deliver _ _ _) fun _ => send_delivery_ack env _ _ _

theorem handle_noise_encrypted (packet : BitchatPacket) :
    Built (handle_noise_encrypted env packet) := by
  unfold daemon.handle_noise_encrypted
  refine .bind .node fun self => ?_
  refine .ite (.pure ()) ?_
  exact .suppress (.bind (.onService _) fun decrypted => accept_encrypted env _ decrypted)

/-! ## Packets -/

theorem handle_leave (packet : BitchatPacket) (raw : Bytes) : Built (handle_leave packet raw) :=
  .bind (.ite (.pure ()) (remove_peer _)) fun _ => relay raw packet.ttl

theorem save_state : Built save_state := by
  unfold daemon.save_state
  refine .bind (.modifyNode _) fun _ => ?_
  exact .bind .node fun self => .emit _

theorem handle_channel_announce (packet : BitchatPacket) :
    Built (handle_channel_announce packet) := by
  unfold daemon.handle_channel_announce
  split
  · exact .bind (.modifyNode _) fun _ => save_state
  · exact .pure ()

theorem handler (packet : BitchatPacket) (raw : Bytes) :
    ∀ task ∈ handler env packet raw, Built task := by
  intro task htask
  unfold daemon.handler at htask
  split at htask
  all_goals cases htask
  · exact announced _ _
  · exact handle_message env packet raw
  · exact handle_noise_identity_announce env packet
  · exact handle_noise_handshake env _ packet
  · exact handle_noise_handshake env _ packet
  · exact handle_noise_encrypted env packet
  · exact handle_leave packet raw
  · exact handle_channel_announce packet
  · exact handle_key_exchange env packet
  · exact handle_delivery_ack packet raw

theorem handle_packet_internal (packet : BitchatPacket) (raw : Bytes) :
    Built (handle_packet_internal env packet raw) := by
  unfold daemon.handle_packet_internal
  split
  · rename_i task htask
    exact .bind (.emit _) fun _ => handler env packet raw task htask
  · exact .pure ()

theorem handle_fragment (packet : BitchatPacket) (raw : Bytes) :
    Built (handle_fragment env packet raw) := by
  have hcollect : Built (collect_fragment env packet) := by
    unfold collect_fragment
    refine .bind (.outcome _) fun _ => ?_
    refine .bind .node fun self => ?_
    refine .bind (.modifyNode _) fun _ => ?_
    split
    · exact .pure ()
    · refine .bind (.outcome _) fun reassembled => ?_
      split
      · exact handle_packet_internal env reassembled _
      · exact .pure ()
  exact .bind (.ite hcollect (.pure ())) fun _ => relay raw packet.ttl

theorem on_packet_received (conn : PeerConnection) (raw : Bytes) :
    Built (on_packet_received env conn raw) := by
  have hhandle (packet : BitchatPacket) : Built (handle env packet raw) := by
    unfold handle
    split
    · exact handle_fragment env packet raw
    · exact handle_fragment env packet raw
    · exact handle_fragment env packet raw
    · rcases htask : daemon.handler env packet raw with _ | task
      · exact .pure ()
      · exact handler env packet raw task htask
  unfold daemon.on_packet_received
  refine .bind .node fun self => ?_
  split
  · exact .pure ()
  · refine .ite (.pure ()) ?_
    exact .bind (.modifyNode _) fun _ => .suppress (hhandle _)

/-! ## Calls of the API layer, and later tasks -/

theorem send_channel_announce (channel : Str) (is_protected : Bool) (key_commitment : Option Str) :
    Built (send_channel_announce env channel is_protected key_commitment) := by
  unfold daemon.send_channel_announce
  refine .bind .node fun self => ?_
  exact .bind (.outcome _) fun packet => raw_send env _

theorem send_public_message (content : Str) (channel : Option Str) :
    Built (send_public_message env content channel) := by
  unfold daemon.send_public_message
  refine .bind .node fun self => ?_
  refine .bind (.outcome _) fun (payload, msg_id) => ?_
  refine .bind (.modifyNode _) fun _ => ?_
  refine .bind (.outcome _) fun packet => ?_
  exact .bind (raw_send env packet) fun _ => .pure msg_id

theorem attempt_if_due (target_peer_id : Str) (current_time : UInt64) :
    Built (attempt_if_due env target_peer_id current_time) := by
  have hattempt : Built (attempt_handshake env target_peer_id current_time) :=
    .bind (.modifyNode _) fun _ => initiate_handshake env target_peer_id
  unfold daemon.attempt_if_due
  refine .bind .node fun self => ?_
  split
  · exact .ite (.pure ()) hattempt
  · exact hattempt

theorem send_private_message (content target_peer_id target_nickname : Str)
    (message_id : Option Str) :
    Built (send_private_message env content target_peer_id target_nickname message_id) := by
  unfold daemon.send_private_message
  refine .bind .node fun self => ?_
  apply Built.ite
  · unfold encrypt_private_message
    refine .bind .node fun self => ?_
    refine .bind (.outcome _) fun (payload, msg_id) => ?_
    refine .bind (.modifyNode _) fun _ => ?_
    refine .bind (.outcome _) fun inner_packet => ?_
    refine .bind (.onService _) fun encrypted => ?_
    refine .bind (.outcome _) fun outer_packet => ?_
    exact .bind (send_to_peer env _ outer_packet) fun _ => .pure msg_id
  · unfold queue_private_message
    refine .bind .node fun self => ?_
    refine .bind (.modifyNode _) fun _ => ?_
    exact .bind (attempt_if_due _ _ _) fun _ => .pure _

theorem send_leave : Built (send_leave env) := by
  unfold daemon.send_leave
  refine .bind .node fun self => ?_
  exact .bind (.outcome _) fun packet => raw_send env packet

theorem run_later (task : Later) : Built (run_later env task) := by
  cases task with
  | relay raw ttl => exact raw_send env _
  | send_pending_private_messages peer_id => exact send_pending_private_messages peer_id
  | send_each peer_id messages =>
    cases messages with
    | nil => exact .pure ()
    | cons message rest =>
      refine .bind (.suppress (send_private_message env _ _ _ _)) fun _ => ?_
      exact .ite (.pure ()) (.emit _)

theorem disconnect (addr : Str) : Built (disconnect addr) := by
  unfold daemon.disconnect
  refine .bind .node fun self => ?_
  split
  · exact .throw _
  · exact .bind (.modifyNode _) fun _ => on_peer_disconnected _

theorem handle_set_name (nickname : Str) : Built (handle_set_name env nickname) := by
  unfold daemon.handle_set_name
  refine .ite (.pure ()) ?_
  refine .bind (.modifyNode _) fun _ => ?_
  exact .bind save_state fun _ => send_announce env

theorem react (event : Event) : Built (react env event) := by
  cases event with
  | packet conn raw => exact on_packet_received env conn raw
  | later task => exact run_later env task
  | connected conn =>
    apply Built.modifyNode fun self =>
      { self with connections := self.connections.set conn.address conn }
  | read_done conn => exact on_read_done conn
  | disconnect addr => exact disconnect addr
  | announce => exact send_announce env
  | identity_announce => exact send_identity_announce env
  | leave => exact send_leave env
  | save => exact save_state
  | set_name nickname => exact handle_set_name env nickname
  | channel_announce channel is_protected key_commitment =>
    exact send_channel_announce env channel is_protected key_commitment
  | public_message content channel => exact .discard (send_public_message env content channel)
  | private_message content target_peer_id target_nickname message_id =>
    exact .discard (send_private_message env _ _ _ _)

end Built

/-! ## What was done before -/

/-- The nodes are the same, and the second has done more before. -/
structure Ahead (before : List Action) (w w' : World) : Prop where
  node : w'.node = w.node
  out : w'.out = before ++ w.out

theorem Built.agree_ahead {α : Type} {x : Mesh α} (h : Built x) (before : List Action) :
    Agree (Ahead before) x x := by
  induction h with
  | pure a => exact Agree.pure a
  | throw e => exact Agree.throw e
  | node => exact fun w w' hahead => ⟨congrArg Except.ok hahead.node, hahead⟩
  | modifyNode f => exact Agree.modify fun w w' hahead => ⟨congrArg f hahead.node, hahead.out⟩
  | emit action =>
    apply Agree.modify
    intro w w' hahead
    refine ⟨hahead.node, ?_⟩
    rw [hahead.out, List.append_assoc]
  | onService x =>
    apply Agree.onPart
    · intro w w' hahead
      rw [hahead.node]
    · intro s w w' hahead
      refine ⟨?_, hahead.out⟩
      rw [hahead.node]
  | bind _ _ ihx ihf => exact ihx.bind ihf
  | attempt _ ih => exact ih.attempt
  | suppress _ ih => exact ih.suppress

/-- The same happens whatever was done before. -/
theorem Built.exec_eq {α : Type} {x : Mesh α} (h : Built x) (w : World) :
    exec x w = ((exec x ⟨w.node, []⟩).1,
      ⟨(exec x ⟨w.node, []⟩).2.node, w.out ++ (exec x ⟨w.node, []⟩).2.out⟩) := by
  obtain ⟨hresult, hnode, hout⟩ := h.agree_ahead w.out ⟨w.node, []⟩ w ⟨rfl, (List.append_nil _).symm⟩
  rw [← hresult, ← hnode, ← hout]

end daemon
