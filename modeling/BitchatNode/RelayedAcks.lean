-- The ACK of a private message on its way back through other nodes. The node it
-- is for tells from the TTL whether it is sealed, and every relay lowers that.
import BitchatNode.PrivateDelivery
import BitchatNode.Queues

namespace daemon

open python bitchat bitchat.protocol bitchat.encryption

variable [Packages]

/-! ## What a node hands on -/

/-- The calls of `on_delivery_ack`. -/
def acknowledgements (out : List Action) : List DeliveryAck :=
  out.filterMap fun
    | .on_delivery_ack ack => some ack
    | _ => none

theorem acknowledgements_append (a b : List Action) :
    acknowledgements (a ++ b) = acknowledgements a ++ acknowledgements b :=
  List.filterMap_append

/-- A node on the way: its world when the packet comes, and its world when the
task runs that it then puts off. -/
structure Hop where
  world : World
  env : Env
  conn : PeerConnection
  later_world : World
  later_env : Env

/-- What the node has put off once it has handled the packet. -/
def Hop.puts_off (hop : Hop) (raw : Bytes) : List Later :=
  (tasks (exec (on_packet_received hop.env hop.conn raw) hop.world).2.out).drop
    (tasks hop.world.out).length

/-- The node receives one packet, and a task that it puts off writes another. -/
def Hop.HandsOn (hop : Hop) (raw raw' : Bytes) : Prop :=
  ∃ task ∈ hop.puts_off raw, ∃ address, (address, framed raw') ∈
    new_writes hop.later_world (exec (run_later hop.later_env task) hop.later_world).2

/-- The nodes hand the packet on, each to the next. -/
inductive HandedOn : List Hop → Bytes → Bytes → Prop
  | here (raw : Bytes) : HandedOn [] raw raw
  | hop {hop : Hop} {hops : List Hop} {raw raw' raw'' : Bytes} (h : hop.HandsOn raw raw')
    (rest : HandedOn hops raw' raw'') : HandedOn (hop :: hops) raw raw''

/-! ## Reading an ACK -/

/-- The rest of `_handle_delivery_ack`, once the payload is open. -/
def read_ack (payload : Bytes) : Mesh Unit :=
  match parse_ack payload with
  | some ack => take_ack ack
  | none => pure ()

section

variable {packet : BitchatPacket} {raw : Bytes} {w : World}

/-- An ACK for this node is opened and read. -/
theorem exec_handle_delivery_ack_own
    (h : packet.recipient_id_str = some w.node.my_peer_id.str) :
    exec (handle_delivery_ack packet raw) w = exec (open_ack packet >>= read_ack) w := by
  have hne : (some w.node.my_peer_id.str).getD [] ≠ [] := w.node.my_peer_id.str_ne_nil
  unfold handle_delivery_ack
  rw [exec_bind_ok _ (exec_node w), if_pos ⟨h ▸ hne, h⟩]
  rfl

theorem exec_handle_delivery_ack_other
    (h : packet.recipient_id_str ≠ some w.node.my_peer_id.str) :
    exec (handle_delivery_ack packet raw) w = exec (relay raw packet.ttl) w := by
  unfold handle_delivery_ack
  rw [exec_bind_ok _ (exec_node w), if_neg fun hown => h hown.2]

/-- Opening an ACK is not seen from outside. -/
theorem out_open_ack (packet : BitchatPacket) (w : World) :
    (exec (open_ack packet) w).2.out = w.out := by
  unfold open_ack
  simp only [exec_bind, exec_node, exec_ite, exec_attempt, exec_onService]
  split
  · split <;> rfl
  · rfl

theorem tracker_open_ack (packet : BitchatPacket) (w : World) :
    (exec (open_ack packet) w).2.node.delivery_tracker = w.node.delivery_tracker := by
  unfold open_ack
  simp only [exec_bind, exec_node, exec_ite, exec_attempt, exec_onService]
  split
  · split <;> rfl
  · rfl

/-- Reading an ACK puts nothing off. -/
theorem tasks_read_ack (payload : Bytes) (w : World) :
    tasks (exec (read_ack payload) w).2.out = tasks w.out := by
  unfold read_ack
  split
  · unfold take_ack
    simp only [exec_bind, exec_node]
    split
    · rfl
    · simp only [exec_modifyNode, exec_bind, exec_ite, exec_emit, exec_pure]
      split
      · rw [tasks_append]
        exact List.append_nil _
      · rfl
  · rfl

/-- A delivery ACK is relayed, if anything is put off for it. -/
theorem tasks_delivery_ack {env : Env} {conn : PeerConnection} {task : Later}
    (hparse : parse_bitchat_packet raw = .ok packet) (htype : packet.msg_type = .DELIVERY_ACK)
    (h : task ∈ (tasks (exec (on_packet_received env conn raw) w).2.out).drop
      (tasks w.out).length) :
    1 < packet.ttl ∧ task = .relay raw packet.ttl := by
  have hnothing {out : List Action} (hout : tasks out = tasks w.out) :
      task ∉ (tasks out).drop (tasks w.out).length := by
    rw [hout, List.drop_length]
    exact List.not_mem_nil
  by_cases hown : packet.sender_id_str = w.node.my_peer_id.str
  · unfold on_packet_received at h
    simp only [exec_bind, exec_node, hparse, hown, if_true, exec_pure] at h
    exact absurd h (hnothing rfl)
  · rw [exec_on_packet_received hparse hown, handle_of_delivery_ack htype] at h
    generalize hheard : w.heard packet.sender_id_str conn.address = w₁ at h
    have hout : w₁.out = w.out := by
      rw [← hheard]
      rfl
    by_cases hfor : packet.recipient_id_str = some w₁.node.my_peer_id.str
    · rw [exec_handle_delivery_ack_own hfor, exec_bind] at h
      have hopen := out_open_ack packet w₁
      rcases hopened : exec (open_ack packet) w₁ with ⟨result, w₂⟩
      rw [hopened] at h hopen
      have hsame : w₂.out = w.out := hopen.trans hout
      cases result with
      | error e => exact absurd h (hnothing (congrArg tasks hsame))
      | ok payload =>
        exact absurd h (hnothing ((tasks_read_ack payload w₂).trans (congrArg tasks hsame)))
    · rw [exec_handle_delivery_ack_other hfor, exec_relay] at h
      split at h
      · rename_i httl
        rw [tasks_append, hout, List.drop_left] at h
        exact ⟨httl, List.mem_singleton.mp h⟩
      · exact absurd h (hnothing (congrArg tasks hout))

end

/-! ## The chain -/

omit [Packages] in
theorem framed_injective {a b : Bytes} (h : framed a = framed b) : a = b := by
  have hdrop := congrArg (List.drop 2) h
  unfold framed at hdrop
  rwa [List.drop_left' (length_be 2 _), List.drop_left' (length_be 2 _)] at hdrop

section

variable {raw raw' packet payload : Bytes} {sender : PeerId} {recipient : Option PeerId}
  {ttl : UInt8}

/-- A relay writes the packet with a TTL lowered by one, and nothing else. -/
theorem relay_now_writes {env : Env} {address : Str} {w : World}
    (h : (address, framed raw') ∈ new_writes w (exec (relay_now env raw ttl) w).2) :
    raw' = with_ttl raw (ttl - 1) := by
  have hwrites := writes_raw_send env (with_ttl raw (ttl - 1)) w
  unfold relay_now at h
  rw [new_writes_eq hwrites] at h
  split at h
  · obtain ⟨e, -, he⟩ := List.mem_map.mp h
    exact (framed_injective (Prod.mk.inj he).2).symm
  · cases h

/-- A node hands an ACK on as it came, with the TTL lowered by one. -/
theorem Hop.HandsOn.lowers {hop : Hop} (h : hop.HandsOn (with_ttl packet ttl) raw')
    (his : IsPacket packet sender recipient .DELIVERY_ACK payload none) :
    1 < ttl ∧ raw' = with_ttl packet (ttl - 1) := by
  obtain ⟨task, hmem, address, hwrite⟩ := h
  obtain ⟨httl, rfl⟩ := tasks_delivery_ack (parse_with_ttl his ttl) rfl hmem
  refine ⟨httl, ?_⟩
  have hraw := relay_now_writes hwrite
  rw [hraw]
  exact List.set_set _

/-- What arrives is the ACK, with a lower TTL if it has been relayed. -/
theorem HandedOn.lowers {hops : List Hop} (h : HandedOn hops raw raw')
    (hraw : raw = with_ttl packet ttl)
    (his : IsPacket packet sender recipient .DELIVERY_ACK payload none) :
    ∃ ttl', raw' = with_ttl packet ttl' ∧ (hops = [] ∧ ttl' = ttl ∨ hops ≠ [] ∧ ttl' < ttl) := by
  induction h generalizing ttl with
  | here raw => exact ⟨ttl, hraw, .inl ⟨rfl, rfl⟩⟩
  | hop hhop _ ih =>
    subst hraw
    obtain ⟨httl, hlowered⟩ := hhop.lowers his
    obtain ⟨ttl', hraw', hrest⟩ := ih hlowered
    have hlt : ttl - 1 < ttl := by
      rw [UInt8.lt_iff_toNat_lt] at httl ⊢
      have hone : (1 : UInt8).toNat = 1 := rfl
      have hsub := UInt8.toNat_sub_of_le ttl 1 (UInt8.le_iff_toNat_le.mpr (by omega))
      omega
    refine ⟨ttl', hraw', .inr ⟨by simp, ?_⟩⟩
    rcases hrest with ⟨-, rfl⟩ | ⟨-, hlower⟩
    · exact hlt
    · exact UInt8.lt_trans hlower hlt

end

/-! ## Who the ACK is for -/

omit [Packages] in
/-- An id that was read and filled up again is read as before. -/
theorem rstripZero_id8_rstripZero (id : PeerId) :
    rstripZero (id8 (rstripZero id.bytes)) = rstripZero id.bytes := by
  have hlength : (rstripZero id.bytes).length ≤ 8 := by
    have hstart : rstripZero id.bytes <+: id.bytes := List.rdropWhile_prefix _ _
    have hle := hstart.length_le
    rwa [id.length_bytes] at hle
  have hzeros (data : Bytes) (n : Nat) :
      rstripZero (data ++ List.replicate n 0) = rstripZero data := by
    unfold rstripZero List.rdropWhile
    rw [List.reverse_append, List.reverse_replicate, List.dropWhile_append_of_pos]
    intro b hb
    simp [List.eq_of_mem_replicate hb]
  unfold id8
  rw [List.take_of_length_le hlength, hzeros]
  exact List.rdropWhile_idempotent _ _

omit [Packages] in
/-- The node that an answer goes to sees its own id on it, unless that ends in
zero. -/
theorem answer_is_for_iff (id sender : PeerId) (payload : Bytes) (ttl : UInt8) :
    (received sender (PeerId.ofRead (rstripZero id.bytes)) .DELIVERY_ACK payload
      ttl).recipient_id_str = some id.str ↔ ¬ id.EndsInZero := by
  by_cases hnil : rstripZero id.bytes = []
  · have hzero : id.EndsInZero := by
      by_contra hzero
      exact id.bytes_ne_nil ((id.rstripZero_eq_self.mpr hzero) ▸ hnil)
    -- nothing is left of the id, and the answer goes to everyone
    have hread : (received sender (PeerId.ofRead (rstripZero id.bytes)) .DELIVERY_ACK payload
        ttl).recipient_id_str = some (hex BROADCAST_RECIPIENT) := by
      rw [hnil]
      rfl
    rw [hread, Option.some.injEq]
    refine iff_of_false ?_ (not_not.mpr hzero)
    intro hbroadcast
    have hbytes := hex_injective hbroadcast
    exact id.rstripZero_eq_self.mp (hbytes ▸ rstripZero_broadcast) hzero
  · have hread : (received sender (PeerId.ofRead (rstripZero id.bytes)) .DELIVERY_ACK payload
        ttl).recipient_id_str = some (hex (rstripZero id.bytes)) := by
      unfold PeerId.ofRead
      rw [if_neg hnil]
      exact congrArg (fun data => some (hex data)) (rstripZero_id8_rstripZero id)
    rw [hread, Option.some.injEq, id.hex_rstripZero_eq]

omit [Packages] in
/-- The id that a node is read under is that of no other node. -/
theorem parsed_id_ne {id other : PeerId} (h : id ≠ other) : parsed_id id ≠ other.str := by
  intro hparsed
  have hbytes : rstripZero id.bytes = other.bytes := hex_injective hparsed
  have hstart : rstripZero id.bytes <+: id.bytes := List.rdropWhile_prefix _ _
  rw [hbytes] at hstart
  have hsame := hstart.eq_of_length (other.length_bytes.trans id.length_bytes.symm)
  exact h (PeerId.str_injective (congrArg hex hsame.symm))

/-! ## The ACK that leaves -/

/-- The payload of an ACK: sealed under the nonce of the session, which then
moves on, or in plain text once the nonces are used up. -/
inductive AckPayload (key : Bytes) (n : Nat) (plain : Bytes) : Bytes → Nat → Prop
  | sealed (hn : n < NoiseCipherState.NONCES) : AckPayload key n plain
    (Crypto.chacha_encrypt key (NoiseCipherState.nonce_bytes n) plain []) (n + 1)
  | plain (hn : NoiseCipherState.NONCES ≤ n) : AckPayload key n plain plain n

section

variable {env : Env} {peer_id m address : Str} {s : NoiseSession} {key plain packet : Bytes}
  {w : World}

theorem exec_seal_ack (hsession : w.node.encryption_service.sessions.get? peer_id = some s)
    (hkey : s.send_cipher.key = some key) (plain : Bytes) :
    ∃ payload n' sealed, AckPayload key s.send_cipher.nonce plain payload n' ∧
      exec (seal_ack plain peer_id true) w = (.ok payload, sealed) ∧ sealed.out = w.out ∧
      sealed.node.encryption_service.sessions.get? peer_id =
        some (counted s n' s.receive_cipher.nonce) := by
  unfold seal_ack
  rw [if_pos rfl]
  simp only [exec_bind, exec_attempt, exec_onService]
  by_cases hn : s.send_cipher.nonce < NoiseCipherState.NONCES
  · have hencrypt := exec_encrypt (n := s.send_cipher.nonce) (m := s.receive_cipher.nonce) hsession
      hkey hn plain
    simp only [hencrypt, exec_pure]
    exact ⟨_, _, _, .sealed hn, rfl, rfl, Dict.get?_set_self _ _ _⟩
  · have hoverflow := exec_encrypt_overflow (n := s.send_cipher.nonce)
      (m := s.receive_cipher.nonce) hsession hkey (Nat.not_lt.mp hn) plain
    simp only [hoverflow, exec_pure]
    exact ⟨_, _, _, .plain (Nat.not_lt.mp hn), rfl, rfl, Dict.get?_set_self _ _ _⟩

/-- What a send wrote is the packet, and the send did nothing else. -/
theorem sent_to_peer {frame : Bytes}
    (h : (address, frame) ∈ new_writes w (exec (send_to_peer env peer_id packet) w).2) :
    frame = framed packet ∧ (exec (send_to_peer env peer_id packet) w).2.node = w.node := by
  by_cases hsend : packet.length ≤ 65535 ∧
      ∃ conn ∈ w.node.get_conn_for_peer peer_id, env.write_fails conn.address = false
  · obtain ⟨hlength, conn, hconn, hopen⟩ := hsend
    rw [exec_send_to_peer hconn hlength hopen] at h ⊢
    have hnew : new_writes w { w with out := w.out ++ [.write conn.address (framed packet)] } =
        [(conn.address, framed packet)] := new_writes_eq (writes_append _ _)
    rw [hnew] at h
    exact ⟨(Prod.mk.inj (List.mem_singleton.mp h)).2, rfl⟩
  · have hnone : new_writes w (exec (send_to_peer env peer_id packet) w).2 = [] :=
      new_writes_eq (by rw [writes_send_to_peer_fails hsend, List.append_nil])
    rw [hnone] at h
    cases h

/-- An ACK that was written, and the nonce of the session then. -/
theorem emitted_ack {peer : Bytes} {ack_packet : Bytes}
    (hsession : w.node.encryption_service.sessions.get? (hex peer) = some s)
    (hkey : s.send_cipher.key = some key)
    (h : (address, framed ack_packet) ∈
      new_writes w (exec (send_delivery_ack env m (hex peer) true) w).2) :
    ∃ packet payload n', ack_packet = with_ttl packet 3 ∧
      AckPayload key s.send_cipher.nonce (ack_payload w.node m (env.draw 0)) payload n' ∧
      IsPacket packet w.node.my_peer_id (PeerId.ofRead peer) .DELIVERY_ACK payload none ∧
      send_nonce (exec (send_delivery_ack env m (hex peer) true) w).2.node (hex peer) = n' := by
  have hsame (w : World) : new_writes w w = [] := new_writes_eq (List.append_nil _).symm
  unfold send_delivery_ack at h ⊢
  rw [exec_bind_ok _ (exec_node w)] at h ⊢
  split at h
  · rename_i hdue
    rw [if_pos hdue]
    rw [exec_bind_ok _ (exec_modifyNode _ w)] at h ⊢
    generalize hmarked : World.mk _ _ = w₁ at h ⊢
    have hsession₁ : w₁.node.encryption_service.sessions.get? (hex peer) = some s := by
      rw [← hmarked]
      exact hsession
    obtain ⟨payload, n', w₂, hpayload, hseal, hout, hsession₂⟩ := exec_seal_ack hsession₁ hkey
      (ack_payload w.node m (env.draw 0))
    rw [exec_bind_ok _ hseal] at h ⊢
    have hmoved : new_writes w = new_writes w₂ := by
      unfold new_writes
      rw [hout, ← hmarked]
    rw [hmoved] at h
    rcases hcreate : create_bitchat_packet_with_recipient w.node.my_peer_id.str (some (hex peer))
        .DELIVERY_ACK payload none (env.draw 1) with e | created
    · rw [hcreate, exec_bind, exec_outcome_error] at h
      exact absurd h (hsame w₂ ▸ List.not_mem_nil)
    · rw [hcreate, exec_bind_ok _ (exec_outcome_ok _ _)] at h
      rw [exec_bind_ok _ (exec_outcome_ok _ _)]
      obtain ⟨hframe, hnode⟩ := sent_to_peer h
      refine ⟨created, payload, n', framed_injective hframe, hpayload,
        isPacket_of_created (by decide) hcreate, ?_⟩
      unfold send_nonce
      rw [hnode, hsession₂]
      rfl
  · exact absurd h (hsame w ▸ List.not_mem_nil)

end

/-! ## The ACK that arrives -/

/-- The text reads back as the JSON object of an ACK for this message. -/
def ReadsBack (plain : Bytes) (m : Str) : Prop :=
  ∃ ack, parse_ack plain = some ack ∧ Packages.json_str ack.original_message_id = some m

/-- From `w` to `w'` the message was acknowledged once, and the receive nonce of
the session is now the given one. -/
structure Acknowledged (m peer_id : Str) (nonce : Nat) (w w' : World) : Prop where
  once : ∃ ack, acknowledgements w'.out = acknowledgements w.out ++ [ack] ∧
    Packages.json_str ack.original_message_id = some m
  nonce : ∃ t, w'.node.encryption_service.sessions.get? peer_id = some t ∧
    t.receive_cipher.nonce = nonce

section

variable {packet : BitchatPacket} {m : Str} {t : NoiseSession} {key plain : Bytes} {n' : Nat}
  {w : World}

theorem exec_open_ack_relayed (httl : packet.ttl ≠ 3) :
    exec (open_ack packet) w = (.ok packet.payload, w) := by
  unfold open_ack
  rw [exec_bind_ok _ (exec_node w), if_neg fun h => httl h.1]
  rfl

/-- An ACK that was sealed opens under a TTL of 3; one in plain text stays as it
is, whatever its TTL. -/
theorem exec_open_ack [LawfulCrypto]
    (hsession : w.node.encryption_service.sessions.get? packet.sender_id_str = some t)
    (hkey : t.receive_cipher.key = some key)
    (hpayload : AckPayload key t.receive_cipher.nonce plain packet.payload n')
    (h : packet.ttl = 3 ∨ NoiseCipherState.NONCES ≤ t.receive_cipher.nonce) :
    ∃ opened, exec (open_ack packet) w = (.ok plain, opened) ∧ opened.out = w.out ∧
      opened.node.delivery_tracker = w.node.delivery_tracker ∧
      ∃ t', opened.node.encryption_service.sessions.get? packet.sender_id_str = some t' ∧
        t'.receive_cipher.nonce = n' := by
  have hestablished : w.node.encryption_service.is_session_established packet.sender_id_str =
      true := by
    unfold EncryptionService.is_session_established Dict.has
    rw [hsession]
    rfl
  by_cases httl : packet.ttl = 3
  · unfold open_ack
    rw [exec_bind_ok _ (exec_node w), if_pos ⟨httl, hestablished⟩]
    simp only [exec_bind, exec_attempt, exec_onService]
    generalize packet.payload = payload at hpayload
    cases hpayload with
    | sealed hn =>
      have hdecrypt := exec_decrypt (n := t.send_cipher.nonce) (m := t.receive_cipher.nonce)
        hsession hkey hn plain
      simp only [hdecrypt, exec_pure]
      exact ⟨_, rfl, rfl, rfl, _, Dict.get?_set_self _ _ _, rfl⟩
    | plain hn =>
      have hoverflow := exec_decrypt_overflow (n := t.send_cipher.nonce)
        (m := t.receive_cipher.nonce) hsession hkey hn plain
      simp only [hoverflow, exec_pure]
      exact ⟨_, rfl, rfl, rfl, _, Dict.get?_set_self _ _ _, rfl⟩
  · have hlate := h.resolve_left httl
    rw [exec_open_ack_relayed httl]
    generalize packet.payload = payload at hpayload
    cases hpayload with
    | sealed hn => omega
    | plain hn => exact ⟨w, rfl, rfl, rfl, t, hsession, rfl⟩

/-- The ACK of a message that is tracked is reported. -/
theorem exec_read_ack {ack : DeliveryAck} (hparse : parse_ack plain = some ack)
    (hid : Packages.json_str ack.original_message_id = some m)
    (htracked : w.node.delivery_tracker.pending_messages.has m = true) :
    exec (read_ack plain) w = (.ok (),
      { node := { w.node with
          delivery_tracker := (w.node.delivery_tracker.mark_delivered m).2 }
        out := w.out ++ [.on_delivery_ack ack] }) := by
  unfold read_ack
  simp only [hparse]
  unfold take_ack
  simp only [exec_bind, exec_node, hid, exec_modifyNode, DeliveryTracker.mark_delivered, htracked,
    if_true, exec_emit]

theorem service_read_ack (payload : Bytes) (w : World) :
    (exec (read_ack payload) w).2.node.encryption_service = w.node.encryption_service := by
  unfold read_ack
  split
  · unfold take_ack
    simp only [exec_bind, exec_node]
    split
    · rfl
    · simp only [exec_modifyNode, exec_bind, exec_ite, exec_emit, exec_pure]
      split <;> rfl
  · rfl

/-- What decides, once the ACK has arrived. -/
theorem acknowledged_iff [LawfulCrypto] {env : Env} {raw : Bytes} {w₀ : World}
    (hout : w₀.out = w.out) (htype : packet.msg_type = .DELIVERY_ACK)
    (hsession : w.node.encryption_service.sessions.get? packet.sender_id_str = some t)
    (hkey : t.receive_cipher.key = some key)
    (hpayload : AckPayload key t.receive_cipher.nonce plain packet.payload n')
    (htracked : w.node.delivery_tracker.pending_messages.has m = true)
    (hread : ReadsBack plain m) :
    Acknowledged m packet.sender_id_str n' w₀ (exec (handle env packet raw) w).2 ↔
      packet.recipient_id_str = some w.node.my_peer_id.str ∧
        (packet.ttl = 3 ∨ NoiseCipherState.NONCES ≤ t.receive_cipher.nonce) := by
  rw [handle_of_delivery_ack htype]
  by_cases hfor : packet.recipient_id_str = some w.node.my_peer_id.str
  · rw [exec_handle_delivery_ack_own hfor]
    by_cases h : packet.ttl = 3 ∨ NoiseCipherState.NONCES ≤ t.receive_cipher.nonce
    · obtain ⟨ack, hparse, hid⟩ := hread
      obtain ⟨opened, hopen, hopened, htracker, t', ht', hnonce⟩ :=
        exec_open_ack hsession hkey hpayload h
      rw [exec_bind_ok _ hopen, exec_read_ack hparse hid (htracker ▸ htracked)]
      refine iff_of_true ⟨⟨ack, ?_, hid⟩, t', ht', hnonce⟩ ⟨hfor, h⟩
      rw [acknowledgements_append, hopened, hout]
      rfl
    · -- the ciphertext is read as it is, and the nonce stays behind
      refine iff_of_false ?_ fun hboth => h hboth.2
      obtain ⟨httl, hn⟩ := not_or.mp h
      rw [exec_bind_ok _ (exec_open_ack_relayed httl)]
      rintro ⟨-, t', ht', hnonce⟩
      rw [service_read_ack, hsession, Option.some.injEq] at ht'
      subst ht'
      generalize packet.payload = payload at hpayload
      cases hpayload with
      | sealed _ => omega
      | plain hlate => exact hn hlate
  · refine iff_of_false ?_ fun hboth => hfor hboth.1
    rw [exec_handle_delivery_ack_other hfor, exec_relay]
    rintro ⟨⟨ack, hack, -⟩, -⟩
    have hnone : acknowledgements (if 1 < packet.ttl then
        { w with out := w.out ++ [.later (.relay raw packet.ttl)] } else w).out =
          acknowledgements w.out := by
      split
      · rw [acknowledgements_append]
        exact List.append_nil _
      · rfl
    rw [hnone, hout] at hack
    have hlength := congrArg List.length hack
    simp at hlength

end

/-! ## From end to end -/

/-- The ACK that a node sends for a private message, with any nodes between the
two that hand it on: the message is acknowledged once, and the nonces of the two
sessions are the same again, exactly if the id of the node that the ACK is for
does not end in a zero byte, and the ACK came without a relay or in plain text
since the nonces are used up. -/
theorem an_ack_survives_relaying_iff [LawfulCrypto] {a b : World} {s t : NoiseSession}
    {key ack_packet raw : Bytes} {m address : Str} {env env' : Env} {conn : PeerConnection}
    {hops : List Hop} (hne : b.node.my_peer_id ≠ a.node.my_peer_id)
    (hsend : b.node.encryption_service.sessions.get? (parsed_id a.node.my_peer_id) = some s)
    (hreceive : a.node.encryption_service.sessions.get? (parsed_id b.node.my_peer_id) = some t)
    (hsend_key : s.send_cipher.key = some key) (hreceive_key : t.receive_cipher.key = some key)
    (hnonce : t.receive_cipher.nonce = s.send_cipher.nonce)
    (htracked : a.node.delivery_tracker.pending_messages.has m = true)
    (hemitted : (address, framed ack_packet) ∈ new_writes b
      (exec (send_delivery_ack env m (parsed_id a.node.my_peer_id) true) b).2)
    (hread : ReadsBack (ack_payload b.node m (env.draw 0)) m)
    (hhops : HandedOn hops ack_packet raw) :
    Acknowledged m (parsed_id b.node.my_peer_id)
        (send_nonce (exec (send_delivery_ack env m (parsed_id a.node.my_peer_id) true) b).2.node
          (parsed_id a.node.my_peer_id))
        a (exec (on_packet_received env' conn raw) a).2 ↔
      ¬ a.node.my_peer_id.EndsInZero ∧
        (hops = [] ∨ NoiseCipherState.NONCES ≤ s.send_cipher.nonce) := by
  obtain ⟨packet, payload, n', rfl, hpayload, his, hsent⟩ := emitted_ack hsend hsend_key hemitted
  have hsent_nonce : send_nonce (exec (send_delivery_ack env m (parsed_id a.node.my_peer_id) true)
      b).2.node (parsed_id a.node.my_peer_id) = n' := hsent
  obtain ⟨ttl, rfl, httl⟩ := hhops.lowers rfl his
  have hthree : ttl = 3 ↔ hops = [] := by
    rcases httl with ⟨hnil, rfl⟩ | ⟨hnil, hlower⟩
    · exact iff_of_true rfl hnil
    · refine iff_of_false ?_ hnil
      rintro rfl
      exact absurd hlower (by decide)
  rw [← hnonce] at hpayload
  rw [hsent_nonce, exec_on_packet_received (parse_with_ttl his ttl) (parsed_id_ne hne), ← hthree,
    ← hnonce, ← answer_is_for_iff a.node.my_peer_id b.node.my_peer_id payload ttl]
  generalize hgot : received b.node.my_peer_id (PeerId.ofRead (rstripZero a.node.my_peer_id.bytes))
    .DELIVERY_ACK payload ttl = got
  have hsender : got.sender_id_str = parsed_id b.node.my_peer_id := by rw [← hgot]; rfl
  have hgot_payload : got.payload = payload := by rw [← hgot]; rfl
  have hgot_ttl : got.ttl = ttl := by rw [← hgot]; rfl
  rw [← hsender, ← hgot_ttl]
  refine acknowledged_iff rfl ?_ ?_ hreceive_key ?_ htracked hread
  · rw [← hgot]
    rfl
  · rw [hsender]
    exact hreceive
  · rw [hgot_payload]
    exact hpayload

end daemon

/-! ## A stand-in that reads ACKs -/

namespace daemon.standIn

open python bitchat bitchat.protocol bitchat.encryption

/-- The keys and the values of an object without commas and colons inside. -/
def json_fields (text : Str) : List (Str × Str) :=
  ((text.drop 1).dropLast.splitOn ',').map fun field =>
    let parts := field.splitOn ':'
    (strip (parts.headD []), strip (parts.getD 1 []))

/-- The stand-in packages, with a `json` for flat objects. A value is its text. -/
@[reducible] def json_packages : Packages :=
  { bitchat.standIn.packages with
    JsonValue := Str
    json_loads := fun data => do
      let text ← decode data
      if text.head? = some '\x7b' ∧ text.getLast? = some '\x7d' then some text else none
    json_get := fun value key =>
      if value.head? = some '\x7b' then some ((json_fields value).lookup (json_string key))
      else none
    json_str := fun value =>
      if value.head? = some '"' then some (value.drop 1).dropLast else none }

attribute [local instance] json_packages

def origin_id : PeerId := ⟨[1, 1, 1, 1, 1, 1, 1, 1], PeerId.length_ones⟩
def answering_id : PeerId := ⟨[2, 2, 2, 2, 2, 2, 2, 2], PeerId.length_twos⟩
def between_id : PeerId := ⟨[3, 3, 3, 3, 3, 3, 3, 3], rfl⟩

/-- A connection to the node behind it, which it knows. -/
def wired (id : PeerId) (host : Char) (far : PeerId) : MeshNode :=
  let conn : PeerConnection := ⟨[host], 1, true⟩
  { MeshNode.init id (some ['n']) (.init [1]) (bitchat.standIn.key 1) with
    connections := .set .empty conn.address conn
    peer_addresses := .set .empty (parsed_id far) conn.address }

/-- The surroundings of `env`. -/
def ack_env (k : Fin 16) : Env := ⟨fun _ => bitchat.standIn.draw k, fun _ => false⟩

def ack_of : Str := (bitchat.standIn.draw 1).uuid.str

/-- It waits for the ACK of a message that it sent under nonce 4. -/
def origin : World where
  node := { wired origin_id 'b' answering_id with
    encryption_service := { EncryptionService.init (bitchat.standIn.key 1) with
      sessions := .set .empty (parsed_id answering_id) (talk 8 7 5 3) }
    delivery_tracker := DeliveryTracker.init.track_message ack_of ['h', 'i'] true 0 }
  out := []

/-- It has delivered the message. -/
def answering : World where
  node := { wired answering_id 'a' origin_id with
    encryption_service := { EncryptionService.init (bitchat.standIn.key 2) with
      sessions := .set .empty (parsed_id origin_id) (talk 7 8 3 5) } }
  out := []

theorem ids_differ : answering.node.my_peer_id ≠ origin.node.my_peer_id := by decide

theorem sends_under_3 : answering.node.encryption_service.sessions.get?
    (parsed_id origin.node.my_peer_id) = some (talk 7 8 3 5) := Dict.get?_set_self _ _ _

theorem opens_under_3 : origin.node.encryption_service.sessions.get?
    (parsed_id answering.node.my_peer_id) = some (talk 8 7 5 3) := Dict.get?_set_self _ _ _

theorem waits_for_ack : origin.node.delivery_tracker.pending_messages.has ack_of = true :=
  Dict.has_set_self _ _ _

/-- What it writes then. -/
@[irreducible] def answered_ack : Bytes :=
  ((new_writes answering
    (exec (send_delivery_ack (ack_env 2) ack_of (parsed_id origin.node.my_peer_id) true)
      answering).2).headD ([], [])).2.drop 2

theorem answered_ack_written : (['a', ':', '1'], framed answered_ack) ∈ new_writes answering
    (exec (send_delivery_ack (ack_env 2) ack_of (parsed_id origin.node.my_peer_id) true)
      answering).2 := by
  decide +kernel

theorem answered_ack_reads_back :
    ReadsBack (ack_payload answering.node ack_of ((ack_env 2).draw 0)) ack_of := by
  have h : ((parse_ack (ack_payload answering.node ack_of ((ack_env 2).draw 0))).bind
      fun ack => Packages.json_str ack.original_message_id) = some ack_of := by decide +kernel
  exact Option.bind_eq_some_iff.mp h

/-- Sent straight to the node that waits for it, the ACK is read. -/
theorem an_ack_without_a_relay_survives :
    Acknowledged ack_of (parsed_id answering.node.my_peer_id)
        (send_nonce (exec (send_delivery_ack (ack_env 2) ack_of (parsed_id origin.node.my_peer_id)
          true) answering).2.node (parsed_id origin.node.my_peer_id))
        origin (exec (on_packet_received (ack_env 3) ⟨['b'], 1, true⟩ answered_ack) origin).2 := by
  have : LawfulCrypto := bitchat.standIn.lawfulCrypto
  apply (an_ack_survives_relaying_iff ids_differ sends_under_3 opens_under_3 rfl rfl rfl
    waits_for_ack answered_ack_written answered_ack_reads_back (.here _)).mpr
  exact ⟨by decide, .inl rfl⟩

/-- A node between the two. -/
def between : Hop where
  world := { node := wired between_id 'a' origin_id, out := [] }
  env := ack_env 3
  conn := ⟨['b'], 1, true⟩
  later_world := { node := wired between_id 'a' origin_id, out := [] }
  later_env := ack_env 4

/-- The relay of the ACK. -/
def is_relay : Later → Bool
  | .relay raw ttl => raw = answered_ack ∧ ttl = 3
  | _ => false

theorem between_hands_on : between.HandsOn answered_ack (with_ttl answered_ack 2) := by
  have htask : (between.puts_off answered_ack).any is_relay = true := by
    decide +kernel
  obtain ⟨task, hmem, htask⟩ := List.any_eq_true.mp htask
  cases task with
  | relay raw ttl =>
    obtain ⟨rfl, rfl⟩ := of_decide_eq_true htask
    exact ⟨_, hmem, ['a', ':', '1'], by decide +kernel⟩
  | _ => cases htask

/-- One relay is enough: the node that waits for the ACK reads the ciphertext as
JSON, and its receive nonce stays behind. -/
theorem a_relayed_ack_is_lost : ∃ (a b : World) (s t : NoiseSession) (key ack_packet raw : Bytes)
    (m address : Str) (env env' : Env) (conn : PeerConnection) (hop : Hop),
    b.node.my_peer_id ≠ a.node.my_peer_id ∧
    b.node.encryption_service.sessions.get? (parsed_id a.node.my_peer_id) = some s ∧
    a.node.encryption_service.sessions.get? (parsed_id b.node.my_peer_id) = some t ∧
    s.send_cipher.key = some key ∧ t.receive_cipher.key = some key ∧
    t.receive_cipher.nonce = s.send_cipher.nonce ∧
    a.node.delivery_tracker.pending_messages.has m = true ∧
    (address, framed ack_packet) ∈ new_writes b
      (exec (send_delivery_ack env m (parsed_id a.node.my_peer_id) true) b).2 ∧
    ReadsBack (ack_payload b.node m (env.draw 0)) m ∧
    HandedOn [hop] ack_packet raw ∧
    ¬ Acknowledged m (parsed_id b.node.my_peer_id)
      (send_nonce (exec (send_delivery_ack env m (parsed_id a.node.my_peer_id) true) b).2.node
        (parsed_id a.node.my_peer_id))
      a (exec (on_packet_received env' conn raw) a).2 := by
  have hsent : send_nonce (exec (send_delivery_ack (ack_env 2) ack_of
      (parsed_id origin.node.my_peer_id) true) answering).2.node
        (parsed_id origin.node.my_peer_id) = 4 := by
    decide +kernel
  have hkept : (((exec (on_packet_received (ack_env 5) ⟨['c'], 1, true⟩ (with_ttl answered_ack 2))
      origin).2.node.encryption_service.sessions.get? (parsed_id answering.node.my_peer_id)).map
        fun t => t.receive_cipher.nonce) = some 3 := by
    decide +kernel
  refine ⟨origin, answering, _, _, [7], answered_ack, with_ttl answered_ack 2, ack_of, _, ack_env 2,
    ack_env 5, ⟨['c'], 1, true⟩, between, ids_differ, sends_under_3,
    opens_under_3, rfl, rfl, rfl, waits_for_ack, answered_ack_written, answered_ack_reads_back,
    .hop between_hands_on (.here _), ?_⟩
  rintro ⟨-, t, ht, hnonce⟩
  have hexpected : t.receive_cipher.nonce = 4 := hnonce.trans hsent
  have hreceived : some t.receive_cipher.nonce = some 3 :=
    (congrArg (Option.map _) ht).symm.trans hkept
  rw [hexpected] at hreceived
  cases hreceived

end daemon.standIn
