-- Two runs of a daemon whose packets differ in the content of chat messages.
-- Its nodes stay the same, and what differs are the packets that they pass on:
-- nothing of it reaches the HTTP server.
import BitchatNode.Api
import BitchatNode.MessageCodec
import BitchatNode.NoiseChannel
import BitchatNode.Python.Lockstep
import BitchatNode.Sending

namespace daemon

open python bitchat bitchat.protocol bitchat.encryption

variable [Packages]

/-! ## Packets that differ in content -/

/-- Two messages that differ in their content alone. -/
structure SameButContent (message message' : BitchatMessage) : Prop where
  id : message'.id = message.id
  channel : message'.channel = message.channel
  is_encrypted : message'.is_encrypted = message.is_encrypted

def AlikePayloads (payload payload' : Bytes) : Prop :=
  ∃ message message', parse_bitchat_message_payload payload = .ok message ∧
    parse_bitchat_message_payload payload' = .ok message' ∧ SameButContent message message'

/-- What the node reads out of the payload of a NOISE_ENCRYPTED packet. -/
def opening (n : MeshNode) (peer_id : Str) (payload : Bytes) : Except PyError Bytes :=
  (exec (EncryptionService.decrypt_from_peer peer_id payload) n.encryption_service).1

/-- Neither payload can be opened, or both hold packets of messages that differ
in their content alone. -/
inductive AlikeOpenings : Except PyError Bytes → Except PyError Bytes → Prop
  | rejected (e e' : PyError) : AlikeOpenings (.error e) (.error e')
  | opened {plain plain' payload' : Bytes} {inner : BitchatPacket}
      (hinner : parse_bitchat_packet plain = .ok inner)
      (hinner' : parse_bitchat_packet plain' = .ok { inner with payload := payload' })
      (htype : inner.msg_type = .MESSAGE) (halike : AlikePayloads inner.payload payload') :
    AlikeOpenings (.ok plain) (.ok plain')

/-- Frames with the same packet, but for the content of a message: in plain
text, or inside a NOISE_ENCRYPTED packet, as the two nodes open it. -/
inductive AlikePackets (n n' : MeshNode) : Bytes → Bytes → Prop
  | same (raw : Bytes) : AlikePackets n n' raw raw
  | broadcast {raw raw' payload' : Bytes} {packet : BitchatPacket}
      (hparse : parse_bitchat_packet raw = .ok packet)
      (hparse' : parse_bitchat_packet raw' = .ok { packet with payload := payload' })
      (htype : packet.msg_type = .MESSAGE) (hbroadcast : is_broadcast packet = true)
      (halike : AlikePayloads packet.payload payload')
      -- the header of a frame has two bytes for the length
      (hframe : raw.length ≤ 65535) (hframe' : raw'.length ≤ 65535) : AlikePackets n n' raw raw'
  | sealed {raw raw' payload' : Bytes} {packet : BitchatPacket}
      (hparse : parse_bitchat_packet raw = .ok packet)
      (hparse' : parse_bitchat_packet raw' = .ok { packet with payload := payload' })
      (htype : packet.msg_type = .NOISE_ENCRYPTED)
      (halike : AlikeOpenings (opening n packet.sender_id_str packet.payload)
        (opening n' packet.sender_id_str payload')) : AlikePackets n n' raw raw'

/-- Two payloads that are built alike, but for the content. -/
theorem alikePayloads_of_created {sender content content' sender_peer_id id id' : Str}
    {channel : Option Str} {is_private is_encrypted : Bool}
    {encrypted_content encrypted_content' : Option Bytes} {draw : Draw} {payload payload' : Bytes}
    (h : create_bitchat_message_payload_full sender content channel is_private sender_peer_id
      is_encrypted encrypted_content draw = .ok (payload, id))
    (h' : create_bitchat_message_payload_full sender content' channel is_private sender_peer_id
      is_encrypted encrypted_content' draw = .ok (payload', id')) :
    AlikePayloads payload payload' := by
  obtain ⟨p, hp, hparse⟩ := payload_comes_back channel is_private draw
    (create_payload_fits _ _ _ _ _ _ _ h)
  obtain ⟨p', hp', hparse'⟩ := payload_comes_back channel is_private draw
    (create_payload_fits _ _ _ _ _ _ _ h')
  obtain ⟨rfl, -⟩ := Prod.mk.inj (Except.ok.inj (hp.symm.trans h))
  obtain ⟨rfl, -⟩ := Prod.mk.inj (Except.ok.inj (hp'.symm.trans h'))
  exact ⟨_, _, hparse, hparse', rfl, rfl, rfl⟩

/-- Two packets that carry such payloads to everyone. -/
theorem alikePackets_of_isPacket {n n' : MeshNode} {sender : PeerId} {payload payload' raw raw' : Bytes}
    (h : IsPacket raw sender none .MESSAGE payload none)
    (h' : IsPacket raw' sender none .MESSAGE payload' none)
    (halike : AlikePayloads payload payload') (hframe : raw.length ≤ 65535)
    (hframe' : raw'.length ≤ 65535) : AlikePackets n n' raw raw' :=
  .broadcast h.parse_raw h'.parse_raw rfl rfl halike hframe hframe'

/-- Two payloads that were sealed for the session, under the nonce that it
expects. -/
theorem alikeOpenings_of_sealed [LawfulCrypto] {n : MeshNode} {peer_id : Str} {s : NoiseSession}
    {key plain plain' payload' : Bytes} {inner : BitchatPacket}
    (hsession : n.encryption_service.sessions.get? peer_id = some s)
    (hkey : s.receive_cipher.key = some key)
    (hnonce : s.receive_cipher.nonce < NoiseCipherState.NONCES)
    (hinner : parse_bitchat_packet plain = .ok inner)
    (hinner' : parse_bitchat_packet plain' = .ok { inner with payload := payload' })
    (htype : inner.msg_type = .MESSAGE) (halike : AlikePayloads inner.payload payload') :
    AlikeOpenings
      (opening n peer_id (Crypto.chacha_encrypt key
        (NoiseCipherState.nonce_bytes s.receive_cipher.nonce) plain []))
      (opening n peer_id (Crypto.chacha_encrypt key
        (NoiseCipherState.nonce_bytes s.receive_cipher.nonce) plain' [])) := by
  have hopens (data : Bytes) : opening n peer_id (Crypto.chacha_encrypt key
      (NoiseCipherState.nonce_bytes s.receive_cipher.nonce) data []) = .ok data := by
    unfold opening EncryptionService.decrypt_from_peer
    simp only [exec_bind, exec_get, hsession, NoiseCipherState.decrypt_ok data [] hkey hnonce,
      exec_set, exec_outcome_ok]
  rw [hopens, hopens]
  exact .opened hinner hinner' htype halike

/-! ## Twins -/

/-- Packets that a node can send in the same places. -/
def AlikeToSend (packet packet' : Bytes) : Prop :=
  packet' = packet ∨ packet.length ≤ 65535 ∧ packet'.length ≤ 65535

inductive AlikeTask : Later → Later → Prop
  | same (task : Later) : AlikeTask task task
  | relay {raw raw' : Bytes} (ttl : UInt8) (halike : AlikeToSend raw raw') :
    AlikeTask (.relay raw ttl) (.relay raw' ttl)

/-- The same action, or one that differs in bytes that nobody but peers sees. -/
inductive AlikeAction : Action → Action → Prop
  | same (action : Action) : AlikeAction action action
  | write (address : Str) (frame frame' : Bytes) :
    AlikeAction (.write address frame) (.write address frame')
  | later {task task' : Later} (halike : AlikeTask task task') :
    AlikeAction (.later task) (.later task')
  | on_message (message message' : BitchatMessage) (sender_id : Str) (is_private : Bool) :
    AlikeAction (.on_message message sender_id is_private)
      (.on_message message' sender_id is_private)

/-- The nodes are the same, and they did the same but for such bytes. -/
structure Twin (w w' : World) : Prop where
  node : w'.node = w.node
  out : List.Forall₂ AlikeAction w.out w'.out

theorem agree_node : Agree Twin node node :=
  fun _ _ h => ⟨congrArg Except.ok h.node, h⟩

theorem agree_modifyNode (f : MeshNode → MeshNode) :
    Agree Twin (modifyNode f) (modifyNode f) :=
  Agree.modify fun _ _ h => ⟨congrArg f h.node, h.out⟩

theorem agree_emit {action action' : Action} (h : AlikeAction action action') :
    Agree Twin (emit action) (emit action') := by
  apply Agree.modify
  intro w w' htwin
  exact ⟨htwin.node, List.rel_append htwin.out (.cons h .nil)⟩

theorem agree_onService {α : Type} (x : Py PyError EncryptionService α) :
    Agree Twin (onService x) (onService x) := by
  apply Agree.onPart
  · intro w w' h
    rw [h.node]
  · intro s w w' h
    refine ⟨?_, h.out⟩
    rw [h.node]

/-! ## Losing a peer, and sending -/

theorem agree_remove_peer (peer_id : Str) :
    Agree Twin (remove_peer peer_id) (remove_peer peer_id) := by
  unfold remove_peer
  refine agree_node.bind fun self => ?_
  refine (agree_modifyNode _).bind fun _ => ?_
  exact Agree.ite (agree_emit (.same _)) (Agree.pure ())

theorem agree_on_peer_disconnected (conn : PeerConnection) :
    Agree Twin (on_peer_disconnected conn) (on_peer_disconnected conn) := by
  unfold on_peer_disconnected
  refine agree_node.bind fun self => ?_
  split
  · exact Agree.ite (agree_remove_peer _) (Agree.pure ())
  · exact Agree.pure ()

theorem agree_on_read_done (conn : PeerConnection) :
    Agree Twin (on_read_done conn) (on_read_done conn) :=
  (agree_modifyNode _).bind fun _ => agree_on_peer_disconnected conn

theorem agree_send_packet (env : Env) (conn : PeerConnection) {packet packet' : Bytes}
    (h : AlikeToSend packet packet') :
    Agree Twin (send_packet env conn packet) (send_packet env conn packet') := by
  have hwrite : ∀ frame frame' : Bytes, Agree Twin
      (if env.write_fails conn.address then do
        on_read_done conn
        throw .ConnectionError
      else emit (.write conn.address frame))
      (if env.write_fails conn.address then do
        on_read_done conn
        throw .ConnectionError
      else emit (.write conn.address frame')) := by
    intro frame frame'
    apply Agree.ite
    · exact (agree_on_read_done conn).bind fun _ => Agree.throw _
    · exact agree_emit (.write conn.address frame frame')
  unfold send_packet
  rcases h with rfl | ⟨hshort, hshort'⟩
  · refine Agree.ite (Agree.throw _) ?_
    exact (Agree.outcome _).bind fun frame => hwrite frame frame
  · rw [if_neg (not_too_large hshort), if_neg (not_too_large hshort'), frame_ok hshort,
      frame_ok hshort']
    exact Agree.outcome_ok (hwrite _ _)

theorem agree_broadcast_each (env : Env) {packet packet' : Bytes} (h : AlikeToSend packet packet')
    (exclude : List Str) (entries : List (Str × PeerConnection)) :
    Agree Twin (broadcast_each env packet exclude entries)
      (broadcast_each env packet' exclude entries) := by
  induction entries with
  | nil => exact Agree.pure ()
  | cons entry rest ih =>
    obtain ⟨addr, conn⟩ := entry
    unfold broadcast_each
    refine Agree.ite ih ?_
    refine (agree_send_packet env conn h).attempt.bind fun result => ?_
    cases result with
    | ok _ => exact ih
    | error e =>
      cases e with
      | ConnectionError => exact ih
      | _ => exact Agree.throw _

theorem agree_raw_send (env : Env) {packet packet' : Bytes} (h : AlikeToSend packet packet') :
    Agree Twin (raw_send env packet) (raw_send env packet') :=
  agree_node.bind fun _ => agree_broadcast_each env h _ _

theorem agree_send_to_peer (env : Env) (peer_id : Str) (packet : Bytes) :
    Agree Twin (send_to_peer env peer_id packet) (send_to_peer env peer_id packet) := by
  unfold send_to_peer
  refine agree_node.bind fun self => ?_
  split
  · exact Agree.pure ()
  · exact agree_send_packet env _ (.inl rfl)

theorem agree_relay {raw raw' : Bytes} (h : AlikeToSend raw raw') (ttl : UInt8) :
    Agree Twin (relay raw ttl) (relay raw' ttl) :=
  Agree.ite (Agree.pure ()) (agree_emit (.later (.relay ttl h)))

omit [Packages] in
theorem length_with_ttl (packet : Bytes) (ttl : UInt8) :
    (with_ttl packet ttl).length = packet.length := List.length_set

omit [Packages] in
theorem AlikeToSend.with_ttl {packet packet' : Bytes} (h : AlikeToSend packet packet')
    (ttl : UInt8) : AlikeToSend (daemon.with_ttl packet ttl) (daemon.with_ttl packet' ttl) := by
  unfold AlikeToSend
  rw [length_with_ttl, length_with_ttl]
  exact h.imp_left (congrArg fun packet => daemon.with_ttl packet ttl)

/-! ## Taking a message -/

theorem agree_seal_ack (plain : Bytes) (sender_id : Str) (is_private : Bool) :
    Agree Twin (seal_ack plain sender_id is_private) (seal_ack plain sender_id is_private) := by
  unfold seal_ack
  refine Agree.ite ?_ (Agree.pure plain)
  refine (agree_onService _).attempt.bind fun result => ?_
  cases result <;> exact Agree.pure _

theorem agree_send_delivery_ack (env : Env) (message_id sender_id : Str) (is_private : Bool) :
    Agree Twin (send_delivery_ack env message_id sender_id is_private)
      (send_delivery_ack env message_id sender_id is_private) := by
  unfold send_delivery_ack
  refine agree_node.bind fun self => ?_
  refine Agree.ite ?_ (Agree.pure ())
  refine (agree_modifyNode _).bind fun _ => ?_
  refine (agree_seal_ack _ _ _).bind fun ack_payload => ?_
  refine (Agree.outcome _).bind fun ack_packet => ?_
  exact agree_send_to_peer env sender_id _

variable {message message' : BitchatMessage}

theorem agree_deliver (h : SameButContent message message') (sender_id : Str)
    (is_private : Bool) :
    Agree Twin (deliver message sender_id is_private) (deliver message' sender_id is_private) := by
  unfold deliver
  rw [h.id]
  refine agree_node.bind fun self => ?_
  split
  · exact Agree.throw _
  · refine (agree_modifyNode _).bind fun _ => ?_
    exact agree_emit (.on_message message message' sender_id is_private)

theorem agree_acknowledge (env : Env) (h : SameButContent message message') (sender_id : Str)
    (is_private : Bool) :
    Agree Twin (acknowledge env message sender_id is_private)
      (acknowledge env message' sender_id is_private) := by
  unfold acknowledge
  rw [h.id, h.channel]
  refine agree_node.bind fun self => ?_
  exact Agree.ite (agree_send_delivery_ack env _ _ _) (Agree.pure ())

theorem agree_accept_message (env : Env) {packet : BitchatPacket} {raw raw' payload payload' : Bytes}
    (hraw : AlikeToSend raw raw') (halike : AlikePayloads payload payload') (is_private : Bool)
    (packet_payload : Bytes) :
    Agree Twin (accept_message env packet raw is_private payload)
      (accept_message env { packet with payload := packet_payload } raw' is_private payload') := by
  obtain ⟨message, message', hmessage, hmessage', hsame⟩ := halike
  unfold accept_message
  rw [hmessage, hmessage']
  apply Agree.outcome_ok
  rw [hsame.id]
  refine agree_node.bind fun self => ?_
  refine Agree.ite (Agree.pure ()) ?_
  refine (agree_deliver hsame _ is_private).bind fun _ => ?_
  refine (agree_acknowledge env hsame _ is_private).bind fun _ => ?_
  exact agree_relay hraw packet.ttl

theorem agree_handle_message (env : Env) {packet : BitchatPacket} {raw raw' payload' : Bytes}
    (hbroadcast : is_broadcast packet = true) (hraw : AlikeToSend raw raw')
    (halike : AlikePayloads packet.payload payload') :
    Agree Twin (handle_message env packet raw)
      (handle_message env { packet with payload := payload' } raw') := by
  unfold handle_message
  refine agree_node.bind fun self => ?_
  refine Agree.ite (Agree.pure ()) ?_
  rw [if_pos hbroadcast, if_pos (show is_broadcast { packet with payload := payload' } = true from
    hbroadcast)]
  exact (agree_accept_message env hraw halike false payload').suppress

/-! ## Opening a packet -/

/-- The cipher counts the packet, whatever it holds. -/
theorem decrypt_same (data data' ad : Bytes) (self : NoiseCipherState) :
    (exec (NoiseCipherState.decrypt data' ad) self).2 =
      (exec (NoiseCipherState.decrypt data ad) self).2 := by
  unfold NoiseCipherState.decrypt
  simp only [exec_bind, exec_get]
  cases self.key with
  | none => rfl
  | some key =>
    rw [exec_ite, exec_ite]
    split
    · rfl
    · simp only [exec_bind, exec_set]
      split <;> split <;> rfl

theorem decrypt_from_peer_same (peer_id : Str) (data data' : Bytes) (self : EncryptionService) :
    (exec (EncryptionService.decrypt_from_peer peer_id data') self).2 =
      (exec (EncryptionService.decrypt_from_peer peer_id data) self).2 := by
  unfold EncryptionService.decrypt_from_peer
  simp only [exec_bind, exec_get]
  cases self.sessions.get? peer_id with
  | none => rfl
  | some session =>
    simp only [exec_bind, exec_set, exec_outcome]
    rw [decrypt_same data data']

theorem agree_accept_encrypted (env : Env) (sender_id : Str) {plain plain' payload' : Bytes}
    {inner : BitchatPacket} (hinner : parse_bitchat_packet plain = .ok inner)
    (hinner' : parse_bitchat_packet plain' = .ok { inner with payload := payload' })
    (htype : inner.msg_type = .MESSAGE) (halike : AlikePayloads inner.payload payload') :
    Agree Twin (accept_encrypted env sender_id plain) (accept_encrypted env sender_id plain') := by
  obtain ⟨message, message', hmessage, hmessage', hsame⟩ := halike
  unfold accept_encrypted
  rw [if_pos (head_of_parse hinner), if_pos (head_of_parse hinner'), hinner, hinner']
  apply Agree.outcome_ok
  simp only [htype, if_true, hmessage, hmessage']
  apply Agree.outcome_ok
  rw [hsame.id]
  refine agree_node.bind fun self => ?_
  refine Agree.ite (Agree.pure ()) ?_
  refine (agree_deliver hsame sender_id true).bind fun _ => ?_
  exact agree_send_delivery_ack env message.id sender_id true

/-- What follows where the packet was opened. -/
theorem twin_handle_noise_encrypted (env : Env) {packet : BitchatPacket} {payload' : Bytes}
    {w w' : World} (h : Twin w w')
    (halike : AlikeOpenings (opening w.node packet.sender_id_str packet.payload)
      (opening w'.node packet.sender_id_str payload')) :
    Twin (exec (handle_noise_encrypted env packet) w).2
      (exec (handle_noise_encrypted env { packet with payload := payload' }) w').2 := by
  unfold handle_noise_encrypted
  simp only [exec_bind, exec_node, exec_ite, h.node, exec_pure, exec_suppress, exec_onService]
  split
  · exact h
  have hopened : Twin
      { w with node := { w.node with encryption_service := (exec (EncryptionService.decrypt_from_peer
        packet.sender_id_str packet.payload) w.node.encryption_service).2 } }
      { w' with node := { w.node with encryption_service := (exec (EncryptionService.decrypt_from_peer
        packet.sender_id_str payload') w.node.encryption_service).2 } } := by
    refine ⟨?_, h.out⟩
    rw [decrypt_from_peer_same _ packet.payload payload']
  rw [h.node] at halike
  unfold opening at halike
  generalize (exec (EncryptionService.decrypt_from_peer packet.sender_id_str packet.payload)
    w.node.encryption_service).1 = result at halike ⊢
  generalize (exec (EncryptionService.decrypt_from_peer packet.sender_id_str payload')
    w.node.encryption_service).1 = result' at halike ⊢
  cases halike with
  | rejected e e' => exact hopened
  | opened hinner hinner' htype halike =>
    exact (agree_accept_encrypted env packet.sender_id_str hinner hinner' htype halike _ _ hopened).2

/-! ## A packet arrives -/

instance : Std.Refl AlikeTask := ⟨.same⟩

instance : Std.Refl AlikeAction := ⟨.same⟩

theorem Twin.refl (w : World) : Twin w w := ⟨rfl, List.forall₂_refl w.out⟩

theorem twin_on_packet_received (env : Env) (conn : PeerConnection) {n : MeshNode}
    {raw raw' : Bytes} (h : AlikePackets n n raw raw') :
    Twin (exec (on_packet_received env conn raw) ⟨n, []⟩).2
      (exec (on_packet_received env conn raw') ⟨n, []⟩).2 := by
  -- both packets have one sender, and lead to the two tasks
  have hreceived {packet : BitchatPacket} {payload' : Bytes}
      (hparse : parse_bitchat_packet raw = .ok packet)
      (hparse' : parse_bitchat_packet raw' = .ok { packet with payload := payload' })
      (htask : ∀ w : World, w.node.encryption_service = n.encryption_service →
        Twin (exec (handle env packet raw) w).2
          (exec (handle env { packet with payload := payload' } raw') w).2) :
      Twin (exec (on_packet_received env conn raw) ⟨n, []⟩).2
        (exec (on_packet_received env conn raw') ⟨n, []⟩).2 := by
    unfold on_packet_received
    simp only [exec_bind, exec_node, hparse, hparse', exec_ite, exec_pure, exec_modifyNode,
      exec_suppress]
    split
    · exact Twin.refl _
    · exact htask _ rfl
  cases h with
  | same => exact Twin.refl _
  | @broadcast _ payload' packet hparse hparse' htype hbroadcast halike hframe hframe' =>
    have htype' : { packet with payload := payload' }.msg_type = .MESSAGE := htype
    refine hreceived hparse hparse' fun w _ => ?_
    rw [handle_of_message htype, handle_of_message htype']
    exact (agree_handle_message env hbroadcast (.inr ⟨hframe, hframe'⟩) halike w w (Twin.refl w)).2
  | @sealed _ payload' packet hparse hparse' htype halike =>
    have htype' : { packet with payload := payload' }.msg_type = .NOISE_ENCRYPTED := htype
    refine hreceived hparse hparse' fun w hservice => ?_
    rw [handle_of_noise_encrypted htype, handle_of_noise_encrypted htype']
    apply twin_handle_noise_encrypted env (Twin.refl w)
    unfold opening at halike ⊢
    rw [hservice]
    exact halike

/-! ## Two runs -/

/-- What happens to the daemon in either run: the same, or a packet that differs
in content alone. -/
inductive AlikeInputs (n n' : MeshNode) : Daemon.Input → Daemon.Input → Prop
  | same (input : Daemon.Input) : AlikeInputs n n' input input
  | packet (conn : PeerConnection) {raw raw' : Bytes} (halike : AlikePackets n n' raw raw') :
    AlikeInputs n n' (.event (.packet conn raw)) (.event (.packet conn raw'))

/-- The states that two runs from `start` lead to, in which the same things
happen in the same order but for the content of messages. -/
inductive TwoRuns (start : Daemon) : Daemon → Daemon → Prop
  | start : TwoRuns start start start
  | step {s s' : Daemon} (h : TwoRuns start s s') (env : Env) {input input' : Daemon.Input}
      (halike : AlikeInputs s.mesh s'.mesh input input') :
    TwoRuns start (s.step env input) (s'.step env input')

/-- The daemons are the same, but for packets that wait to be passed on. -/
inductive Indistinct (s : Daemon) : Daemon → Prop
  | of_tasks {tasks : List Later} (htasks : List.Forall₂ AlikeTask s.tasks tasks) :
    Indistinct s { s with tasks }

/-- The server cannot tell the actions apart. -/
theorem call_of_alike (api : HttpServer) {action action' : Action} (h : AlikeAction action action') :
    api.call action' = api.call action := by
  cases h <;> rfl

theorem foldl_call_of_alike {out out' : List Action} (h : List.Forall₂ AlikeAction out out')
    (api : HttpServer) : out'.foldl HttpServer.call api = out.foldl HttpServer.call api := by
  induction h generalizing api with
  | nil => rfl
  | cons hfirst _ ih =>
    rw [List.foldl_cons, List.foldl_cons, call_of_alike api hfirst]
    exact ih _

theorem put_off_of_alike {out out' : List Action} (h : List.Forall₂ AlikeAction out out') :
    List.Forall₂ AlikeTask (put_off out) (put_off out') := by
  induction h with
  | nil => exact .nil
  | cons hfirst _ ih =>
    cases hfirst with
    | same =>
      rename_i action _ _ _
      cases action with
      | later task => exact .cons (.same task) ih
      | _ => exact ih
    | write => exact ih
    | later halike => exact .cons halike ih
    | on_message => exact ih

namespace Indistinct

variable {s s' : Daemon}

theorem after (h : Indistinct s s') {w w' : World} (htwin : Twin w w') :
    Indistinct (s.after w) (s'.after w') := by
  cases h with
  | @of_tasks tasks htasks =>
    have hsame : Daemon.after { s with tasks } w' =
        { s.after w with tasks := tasks ++ put_off w'.out } := by
      unfold Daemon.after
      rw [htwin.node, foldl_call_of_alike htwin.out]
    rw [hsame]
    exact .of_tasks (List.rel_append htasks (put_off_of_alike htwin.out))

theorem run (h : Indistinct s s') {α : Type} (x : Mesh α) : Indistinct (s.run x) (s'.run x) := by
  cases h with
  | of_tasks htasks => exact (Indistinct.of_tasks htasks).after (Twin.refl _)

theorem respond (h : Indistinct s s') (response : Response) :
    Indistinct (s.respond response) (s'.respond response) := by
  cases h with
  | of_tasks htasks => exact .of_tasks htasks

theorem serve (h : Indistinct s s') {α : Type} (x : Mesh α) (answer : Response) :
    Indistinct (s.serve x answer) (s'.serve x answer) := by
  cases h with
  | of_tasks htasks => exact ((Indistinct.of_tasks htasks).run x).respond _

theorem handle (h : Indistinct s s') (env : Env) (request : Request) :
    Indistinct (s.handle env request) (s'.handle env request) := by
  cases h with
  | of_tasks htasks =>
    have hsame := Indistinct.of_tasks htasks
    unfold Daemon.handle
    split
    case h_5 host port =>
      dsimp only
      split
      · exact hsame.respond _
      · exact .of_tasks htasks
    case h_9 addr => exact hsame.serve _ _
    case h_12 nickname =>
      split
      · exact hsame.respond _
      · exact hsame.serve _ _
    all_goals exact hsame.respond _

theorem dialed (h : Indistinct s s') (k : Nat) (result : Except String Unit) :
    Indistinct (s.dialed k result) (s'.dialed k result) := by
  cases h with
  | of_tasks htasks =>
    unfold Daemon.dialed
    dsimp only
    split
    · exact .of_tasks htasks
    · split
      · apply respond
        apply run
        exact .of_tasks htasks
      · apply respond
        exact .of_tasks htasks

section

variable {α β : Type} {R : α → β → Prop} {as : List α} {bs : List β}

omit [Packages] in
theorem forall₂_getElem? (h : List.Forall₂ R as bs) (k : Nat) :
    Option.Rel R as[k]? bs[k]? := by
  induction h generalizing k with
  | nil => exact .none
  | cons hfirst _ ih =>
    cases k with
    | zero => exact .some hfirst
    | succ k => exact ih k

omit [Packages] in
theorem forall₂_eraseIdx (h : List.Forall₂ R as bs) (k : Nat) :
    List.Forall₂ R (as.eraseIdx k) (bs.eraseIdx k) := by
  induction h generalizing k with
  | nil => exact .nil
  | cons hfirst hrest ih =>
    cases k with
    | zero => exact hrest
    | succ k => exact .cons hfirst (ih k)

end

/-- A task that waits in both runs goes on. -/
theorem twin_run_later (env : Env) (n : MeshNode) {task task' : Later} (h : AlikeTask task task') :
    Twin (exec (run_later env task) ⟨n, []⟩).2 (exec (run_later env task') ⟨n, []⟩).2 := by
  cases h with
  | same => exact Twin.refl _
  | relay ttl halike => exact (agree_raw_send env (halike.with_ttl (ttl - 1)) _ _ (Twin.refl _)).2

theorem resume (h : Indistinct s s') (env : Env) (k : Nat) :
    Indistinct (s.step env (.resume k)) (s'.step env (.resume k)) := by
  cases h with
  | @of_tasks tasks htasks =>
    have htask := forall₂_getElem? htasks k
    unfold Daemon.step
    dsimp only
    generalize s.tasks[k]? = task at htask ⊢
    generalize tasks[k]? = task' at htask ⊢
    cases htask with
    | none => exact .of_tasks htasks
    | some halike =>
      have herased : Indistinct { s with tasks := s.tasks.eraseIdx k }
          { s with tasks := tasks.eraseIdx k } := .of_tasks (forall₂_eraseIdx htasks k)
      exact herased.after (twin_run_later env s.mesh halike)

theorem step (h : Indistinct s s') (env : Env) {input input' : Daemon.Input}
    (halike : AlikeInputs s.mesh s'.mesh input input') :
    Indistinct (s.step env input) (s'.step env input') := by
  cases halike with
  | packet conn halike =>
    cases h with
    | of_tasks htasks =>
      exact (Indistinct.of_tasks htasks).after (twin_on_packet_received env conn halike)
  | same =>
    cases input with
    | event event =>
      cases event with
      | later => exact h
      | _ => exact h.run _
    | resume k => exact h.resume env k
    | request request => exact h.handle env request
    | dialed k result => exact h.dialed k result
    | ping ws =>
      cases h with
      | of_tasks htasks =>
        unfold Daemon.step
        dsimp only
        split <;> exact .of_tasks htasks
    | ws_open ws | ws_close ws | broadcast k next =>
      cases h with
      | of_tasks htasks => exact .of_tasks htasks

end Indistinct

theorem indistinct_of_twoRuns {start s s' : Daemon} (h : TwoRuns start s s') :
    Indistinct s s' := by
  induction h with
  | start => exact .of_tasks (List.forall₂_refl _)
  | step _ env halike ih => exact ih.step env halike

/-- Whatever state a daemon starts in: what its WebSocket clients were sent and
what its requests were answered, now and from now on, does not depend on the
content of the messages that it took. -/
theorem no_content_leaves_through_the_api {start s s' : Daemon} (h : TwoRuns start s s') :
    s'.sent = s.sent ∧ s'.responses = s.responses ∧
      s'.mesh.get_status = s.mesh.get_status ∧ s'.mesh.api_peers = s.mesh.api_peers := by
  cases indistinct_of_twoRuns h with
  | of_tasks htasks => exact ⟨rfl, rfl, rfl, rfl⟩

end daemon

/-! ## On the stand-in -/

namespace daemon.standIn

open python bitchat bitchat.protocol

attribute [local instance] bitchat.standIn.packages

/-- A peer of the node. -/
def chatter : PeerId := ⟨[8, 7, 6, 5, 4, 3, 2, 1], PeerId.length_counted_down⟩

/-- A message of one character. -/
def chat_payload (c : UInt8) : Bytes := [0, 0, 0, 0, 0, 0, 0, 0, 0, 1, 109, 0, 0, 1, c]

/-- The peer sends it to everyone. -/
def chat (c : UInt8) : Bytes :=
  layout .MESSAGE 7 0 FLAG_HAS_RECIPIENT chatter.bytes BROADCAST_RECIPIENT (chat_payload c) []

theorem isPacket_chat (c : UInt8) : IsPacket (chat c) chatter none .MESSAGE (chat_payload c) none :=
  isPacket_layout chatter none .MESSAGE 0 (chat_payload c) [] none (by simp [chat_payload]) (.inl rfl)

/-- What the daemon sees: a connection, the message on it, the end of the sleep
before it passes the message on, and a request for its status. -/
def seen (c : UInt8) : List Daemon.Input :=
  [.event (.connected ⟨['b'], 1, false⟩), .event (.packet ⟨['b'], 1, false⟩ (chat c)), .resume 0,
    .request .status]

def overheard (c : UInt8) : Daemon :=
  (seen c).foldl (fun s input => s.step (env 1) input)
    (.init (node ⟨[1, 2, 3, 4, 5, 6, 7, 8], PeerId.length_counted⟩ 1))

theorem twoRuns_overheard (c c' : UInt8) :
    TwoRuns (.init (node ⟨[1, 2, 3, 4, 5, 6, 7, 8], rfl⟩ 1)) (overheard c) (overheard c') := by
  have hlength (c : UInt8) : (chat c).length ≤ 65535 := by simp [chat, layout, chat_payload,
    chatter, BROADCAST_RECIPIENT, length_be]
  have hpayloads : AlikePayloads (chat_payload c) (chat_payload c') :=
    ⟨_, _, rfl, rfl, rfl, rfl, rfl⟩
  simp only [overheard, seen, List.foldl_cons, List.foldl_nil]
  refine .step (.step (.step (.step .start (env 1) (.same _)) (env 1) (.packet _ ?_)) (env 1)
    (.same _)) (env 1) (.same _)
  exact alikePackets_of_isPacket (isPacket_chat c) (isPacket_chat c') hpayloads (hlength c)
    (hlength c')

/-- Two characters that a peer may send. -/
theorem two_chats_look_the_same :
    chat 104 ≠ chat 105 ∧ (overheard 105).sent = (overheard 104).sent ∧
      (overheard 105).responses = (overheard 104).responses ∧
      (overheard 105).mesh.get_status = (overheard 104).mesh.get_status ∧
      (overheard 105).mesh.api_peers = (overheard 104).mesh.api_peers :=
  ⟨by decide, no_content_leaves_through_the_api (twoRuns_overheard 104 105)⟩

end daemon.standIn
