-- One step of a private conversation between two clients: how it moves the
-- counters of the session, and what it leaves on the wire and in the collector.
import BitchatNode.Client.Fragments
import BitchatNode.Client.Link
import BitchatNode.NonceSync

namespace client

open python bitchat bitchat.protocol bitchat.encryption bitchat.fragmentation
open daemon (Frame counted with_ttl exec_encrypt exec_encrypt_overflow exec_decrypt)

variable [ClientPackages]

/-! ## A client with a session -/

/-- The client is connected and holds the session with these nonces for its
peer, under a key that it has not blocked. -/
structure Settled (me peer : PeerId) (s : NoiseSession) (n m : Nat) (c : BitchatClient) : Prop where
  me : c.my_peer_id = me
  connection : c.connection = .up
  session : c.encryption_service.sessions.get? peer.str = some (counted s n m)
  unblocked : ¬ (s.get_fingerprint ≠ [] ∧ s.get_fingerprint ∈ c.blocked_peers)

/-- The message waits for its ACK. -/
def Tracked (self : BitchatClient) (message_id : Str) : Prop :=
  self.delivery_tracker.pending_messages.has message_id = true

/-- The ids of the private messages that were shown. -/
def displayed (out : List Action) : List Str :=
  out.filterMap fun
    | .display id _ _ _ true => some id
    | _ => none

theorem writes_append (a b : List Action) : writes (a ++ b) = writes a ++ writes b :=
  List.filterMap_append

theorem displayed_append (a b : List Action) : displayed (a ++ b) = displayed a ++ displayed b :=
  List.filterMap_append

theorem writes_map_write (raws : List Bytes) : writes (raws.map .write) = raws := by
  induction raws with
  | nil => rfl
  | cons raw raws ih => exact congrArg (raw :: ·) ih

theorem displayed_map_write (raws : List Bytes) : displayed (raws.map .write) = [] := by
  induction raws with
  | nil => rfl
  | cons raw raws ih => exact ih

section

variable {me peer : PeerId} {s : NoiseSession} {n m n' m' : Nat} {self : BitchatClient}

/-- The session moves on. -/
theorem Settled.moves (h : Settled me peer s n m self) :
    Settled me peer s n' m' { self with
      encryption_service := { self.encryption_service with
        sessions := self.encryption_service.sessions.set peer.str (counted s n' m') } } :=
  ⟨h.me, h.connection, Dict.get?_set_self _ _ _, h.unblocked⟩

theorem Settled.moves_to (h : Settled me peer s n m self) (out : List Action) (n' m' : Nat) :
    Settled me peer s n' m' (World.mk { self with
      encryption_service := { self.encryption_service with
        sessions := self.encryption_service.sessions.set peer.str (counted s n' m') } } out).state :=
  h.moves

theorem Settled.not_blocked (h : Settled me peer s n m self) :
    is_blocked self peer.str = false := by
  have hfingerprint : self.encryption_service.get_peer_fingerprint peer.str =
      some s.get_fingerprint := by
    unfold EncryptionService.get_peer_fingerprint
    rw [h.session]
    rfl
  unfold is_blocked
  rw [hfingerprint]
  exact decide_eq_false h.unblocked

theorem Settled.established (h : Settled me peer s n m self) :
    self.encryption_service.is_session_established peer.str = true := by
  unfold EncryptionService.is_session_established Dict.has
  rw [h.session]
  rfl

theorem Settled.send_nonce (h : Settled me peer s n m self) :
    send_nonce self peer.str = n := by
  unfold client.send_nonce
  rw [h.session]
  rfl

theorem Settled.receive_nonce (h : Settled me peer s n m self) :
    receive_nonce self peer.str = some m := by
  unfold client.receive_nonce
  rw [h.session]
  rfl

end

/-! ## What is on the wire -/

/-- The plain text of a private message from `x` to `y`, under a drawn id that
`x` tracks. -/
def IsPrivate (x y : PeerId) (tracked : Str → Prop) (plain : Bytes) : Prop :=
  ∃ payload message, ∃ uuid : Uuid, IsPacket plain x (some y) .MESSAGE payload none ∧
    parse_bitchat_message_payload payload = .ok message ∧ message.id = uuid.str ∧
    tracked message.id

/-- A packet from `x` to `y`, the nonce `n` of the key before it was sealed and
the nonce after it. -/
inductive Spends (x y : PeerId) (key : Bytes) (tracked : Str → Prop) : Nat → Frame → Nat → Prop
  /-- A private message. -/
  | sealed {n : Nat} {raw plain : Bytes} (hn : n < NoiseCipherState.NONCES)
    (hraw : IsPacket raw x (some y) .NOISE_ENCRYPTED
      (Crypto.chacha_encrypt key (NoiseCipherState.nonce_bytes n) plain []) none)
    (hplain : IsPrivate x y tracked plain) : Spends x y key tracked n ⟨raw, n⟩ (n + 1)
  /-- The ACK of one, which may have been sealed as well. -/
  | ack {n m : Nat} {raw payload : Bytes}
    (hraw : IsPacket raw x (some y) .DELIVERY_ACK payload none) (nonce : Nat) :
    Spends x y key tracked n ⟨with_ttl raw 3, nonce⟩ m

/-- The fragments of a packet, and the packets that bear them. -/
structure Cutting (packet fragment_id : Bytes) (fragments : List Fragment) : Prop where
  cuts : Cuts packet fragment_id fragments
  id_size : fragment_id.length = 8
  few : fragments.length < 65536
  types : ∀ f ∈ fragments, f.original_type = MessageType.MESSAGE.value

/-- The packets on a wire between two sets of fragments. -/
inductive Chain (x y : PeerId) (key : Bytes) (tracked : Str → Prop) :
    Nat → List Frame → Nat → Prop
  | nil (n : Nat) : Chain x y key tracked n [] n
  | whole {n m k : Nat} {f : Frame} {rest : List Frame} (hf : Spends x y key tracked n f m)
    (hrest : Chain x y key tracked m rest k) : Chain x y key tracked n (f :: rest) k
  /-- A packet in fragments. -/
  | cut {n m k nonce : Nat} {packet fragment_id raw : Bytes} {f : Fragment} {left : List Fragment}
    {raws : List Bytes} {rest : List Frame} (hpacket : Spends x y key tracked n ⟨packet, nonce⟩ m)
    (hcut : Cutting packet fragment_id (f :: left)) (hraw : Bears x f raw)
    (hraws : List.Forall₂ (Bears x) left raws) (hrest : Chain x y key tracked m rest k) :
    Chain x y key tracked n (⟨raw, nonce⟩ :: ((raws.map fun raw => ⟨raw, nonce⟩) ++ rest)) k
  /-- A packet of `y` that `x` relays. -/
  | echo {n k : Nat} {raw payload : Bytes} {recipient : Option PeerId} {msg_type : MessageType}
    {rest : List Frame} (hraw : IsPacket raw y recipient msg_type payload none) (ttl : UInt8)
    (nonce : Nat) (hrest : Chain x y key tracked n rest k) :
    Chain x y key tracked n (⟨with_ttl raw ttl, nonce⟩ :: rest) k

/-- The packets on a wire whose reader has this collector. A set may be
underway. -/
inductive Reading (x y : PeerId) (key : Bytes) (tracked : Str → Prop)
    (collector : FragmentCollector) : Nat → List Frame → Nat → Prop
  | between {n k : Nat} {wire : List Frame} (hidle : collector.Idle)
    (hchain : Chain x y key tracked n wire k) : Reading x y key tracked collector n wire k
  | amid {n m k nonce : Nat} {packet fragment_id raw : Bytes} {f : Fragment}
    {done left : List Fragment} {raws : List Bytes} {rest : List Frame}
    (hpacket : Spends x y key tracked n ⟨packet, nonce⟩ m)
    (hcut : Cutting packet fragment_id (done ++ f :: left))
    (hfiling : collector.Filing fragment_id x.str (done.map (·.fed x.str))) (hraw : Bears x f raw)
    (hraws : List.Forall₂ (Bears x) left raws) (hrest : Chain x y key tracked m rest k) :
    Reading x y key tracked collector n
      (⟨raw, nonce⟩ :: ((raws.map fun raw => ⟨raw, nonce⟩) ++ rest)) k

section

variable {x y : PeerId} {key : Bytes} {tracked tracked' : Str → Prop}
  {collector : FragmentCollector} {n m k : Nat} {f : Frame} {a b : List Frame}

theorem Spends.mono (h : Spends x y key tracked n f m) (hmono : ∀ id, tracked id → tracked' id) :
    Spends x y key tracked' n f m := by
  cases h with
  | sealed hn hraw hplain =>
    obtain ⟨payload, message, uuid, his, hparse, hid, htracked⟩ := hplain
    exact .sealed hn hraw ⟨payload, message, uuid, his, hparse, hid, hmono _ htracked⟩
  | ack hraw nonce => exact .ack hraw nonce

theorem Chain.mono (h : Chain x y key tracked n a m) (hmono : ∀ id, tracked id → tracked' id) :
    Chain x y key tracked' n a m := by
  induction h with
  | nil n => exact .nil n
  | whole hf _ ih => exact .whole (hf.mono hmono) ih
  | cut hpacket hcut hraw hraws _ ih => exact .cut (hpacket.mono hmono) hcut hraw hraws ih
  | echo hraw ttl nonce _ ih => exact .echo hraw ttl nonce ih

theorem Chain.append (h : Chain x y key tracked n a m) (g : Chain x y key tracked m b k) :
    Chain x y key tracked n (a ++ b) k := by
  induction h with
  | nil n => exact g
  | whole hf _ ih => exact .whole hf (ih g)
  | cut hpacket hcut hraw hraws _ ih =>
    rw [List.cons_append, List.append_assoc]
    exact .cut hpacket hcut hraw hraws (ih g)
  | echo hraw ttl nonce _ ih => exact .echo hraw ttl nonce (ih g)

theorem Reading.mono (h : Reading x y key tracked collector n a m)
    (hmono : ∀ id, tracked id → tracked' id) : Reading x y key tracked' collector n a m := by
  cases h with
  | between hidle hchain => exact .between hidle (hchain.mono hmono)
  | amid hpacket hcut hfiling hraw hraws hrest =>
    exact .amid (hpacket.mono hmono) hcut hfiling hraw hraws (hrest.mono hmono)

theorem Reading.append (h : Reading x y key tracked collector n a m)
    (g : Chain x y key tracked m b k) : Reading x y key tracked collector n (a ++ b) k := by
  cases h with
  | between hidle hchain => exact .between hidle (hchain.append g)
  | amid hpacket hcut hfiling hraw hraws hrest =>
    rw [List.cons_append, List.append_assoc]
    exact .amid hpacket hcut hfiling hraw hraws (hrest.append g)

/-- The packet at the head of a wire. -/
inductive Takes (x y : PeerId) (key : Bytes) (tracked : Str → Prop)
    (collector : FragmentCollector) : Nat → Frame → List Frame → Nat → Prop
  | whole {n m k : Nat} {f : Frame} {rest : List Frame} (hidle : collector.Idle)
    (hf : Spends x y key tracked n f m) (hrest : Chain x y key tracked m rest k) :
    Takes x y key tracked collector n f rest k
  | fragment {n m k nonce : Nat} {packet fragment_id raw : Bytes} {f : Fragment}
    {done left : List Fragment} {raws : List Bytes} {rest : List Frame}
    (hpacket : Spends x y key tracked n ⟨packet, nonce⟩ m)
    (hcut : Cutting packet fragment_id (done ++ f :: left))
    (hfiling : collector.Filing fragment_id x.str (done.map (·.fed x.str))) (hraw : Bears x f raw)
    (hraws : List.Forall₂ (Bears x) left raws) (hrest : Chain x y key tracked m rest k) :
    Takes x y key tracked collector n ⟨raw, nonce⟩
      ((raws.map fun raw => ⟨raw, nonce⟩) ++ rest) k
  | echo {n k : Nat} {raw payload : Bytes} {recipient : Option PeerId} {msg_type : MessageType}
    {rest : List Frame} (hidle : collector.Idle)
    (hraw : IsPacket raw y recipient msg_type payload none) (ttl : UInt8) (nonce : Nat)
    (hrest : Chain x y key tracked n rest k) :
    Takes x y key tracked collector n ⟨with_ttl raw ttl, nonce⟩ rest k

/-- The first fragment of a set is one whose collector is still idle. -/
theorem Reading.takes (h : Reading x y key tracked collector n (f :: a) m) :
    Takes x y key tracked collector n f a m := by
  cases h with
  | between hidle hchain =>
    cases hchain with
    | whole hf hrest => exact .whole hidle hf hrest
    | @cut _ _ _ _ packet fragment_id _ g left _ _ hpacket hcut hraw hraws hrest =>
      have hall : Cutting packet fragment_id ([] ++ g :: left) := hcut
      exact .fragment hpacket hall (hidle.filing _ _) hraw hraws hrest
    | echo hraw ttl nonce hrest => exact .echo hidle hraw ttl nonce hrest
  | amid hpacket hcut hfiling hraw hraws hrest =>
    exact .fragment hpacket hcut hfiling hraw hraws hrest

/-- What is written for a packet. -/
theorem Sends.chain {packet : Bytes} {nonce : Nat} {raws : List Bytes} (h : Sends x packet raws)
    (hpacket : Spends x y key tracked n ⟨packet, nonce⟩ m) :
    Chain x y key tracked n (raws.map fun raw => ⟨raw, nonce⟩) m := by
  cases h with
  | whole => exact .whole hpacket (.nil m)
  | @cut fragment_id _ hid hlarge hfew hraws =>
    have hcut : Cutting packet fragment_id (fragments packet fragment_id) :=
      ⟨cuts_fragments hlarge fragment_id, hid, by rw [length_fragments]; exact hfew,
        fun f hf => (mem_fragments hf).2.2.1⟩
    have hpos : (fragments packet fragment_id).length ≠ 0 := by
      rw [length_fragments, length_chunks]
      omega
    generalize fragments packet fragment_id = fs at hcut hraws hpos
    cases hraws with
    | nil => exact absurd rfl hpos
    | cons hraw hraws =>
      rw [List.map_cons, ← List.append_nil (List.map _ _)]
      exact .cut hpacket hcut hraw hraws (.nil m)

end

/-! ## What one step may do -/

/-- From `w` to `w'` the client moves its nonces to `n'` and `m'`, forgets no
message that waits for an ACK, shows no private message but ones that its peer
tracks, and writes what moves its send nonce from `n` to `n'`, all of it tagged
with `n`. -/
structure Does (me peer : PeerId) (s : NoiseSession) (key : Bytes) (shown : Str → Prop)
    (collector : FragmentCollector) (n n' m' : Nat) (w w' : World) : Prop where
  settled : Settled me peer s n' m' w'.state
  collector : w'.state.fragment_collector = collector
  tracked : ∀ id, Tracked w.state id → Tracked w'.state id
  displays : ∃ ids, displayed w'.out = displayed w.out ++ ids ∧ ∀ id ∈ ids, shown id
  acts : ∃ raws, writes w'.out = writes w.out ++ raws ∧
    Chain me peer key (Tracked w'.state) n (raws.map fun raw => ⟨raw, n⟩) n'

section

variable {me peer : PeerId} {s : NoiseSession} {key : Bytes} {shown : Str → Prop}
  {collector : FragmentCollector} {n n' m m' : Nat} {w w₁ w' : World} {env : Env}

theorem Settled.does_nothing (h : Settled me peer s n m w'.state)
    (hcollector : w'.state.fragment_collector = collector)
    (htracked : ∀ id, Tracked w.state id → Tracked w'.state id) (hout : w'.out = w.out) :
    Does me peer s key shown collector n n m w w' := by
  refine ⟨h, hcollector, htracked, ⟨[], ?_, by simp⟩, ⟨[], ?_, .nil n⟩⟩
  · rw [hout, List.append_nil]
  · rw [hout, List.append_nil]

/-- What follows a step in which nothing is written. -/
theorem Does.after (h : Does me peer s key shown collector n n' m' w₁ w')
    (htracked : ∀ id, Tracked w.state id → Tracked w₁.state id) {ids : List Str}
    (hdisplayed : displayed w₁.out = displayed w.out ++ ids) (hids : ∀ id ∈ ids, shown id)
    (hwrites : writes w₁.out = writes w.out) : Does me peer s key shown collector n n' m' w w' := by
  obtain ⟨more, hmore, hmore_ids⟩ := h.displays
  obtain ⟨raws, hraws, hchain⟩ := h.acts
  refine ⟨h.settled, h.collector, fun id hid => h.tracked id (htracked id hid),
    ⟨ids ++ more, ?_, ?_⟩, ⟨raws, ?_, hchain⟩⟩
  · rw [hmore, hdisplayed, List.append_assoc]
  · intro id hid
    exact (List.mem_append.mp hid).elim (hids id) (hmore_ids id)
  · rw [hraws, hwrites]

/-- The same where only the state changes. -/
theorem Does.after_state (h : Does me peer s key shown collector n n' m' w₁ w')
    (htracked : ∀ id, Tracked w.state id → Tracked w₁.state id) (hout : w₁.out = w.out) :
    Does me peer s key shown collector n n' m' w w' :=
  h.after htracked (by rw [hout, List.append_nil] : displayed w₁.out = displayed w.out ++ [])
    (by simp) (by rw [hout])

/-- A packet goes out to the peer. -/
theorem Settled.does_send (h : Settled me peer s n' m' w.state) (henv : Lossless env)
    {packet : Bytes} (hlength : packet.length ≤ 100000)
    (hspends : Spends me peer key (Tracked w.state) n ⟨packet, n⟩ n') (shown : Str → Prop) :
    ∃ w', exec (send_packet env packet) w = (.ok (), w') ∧
      Does me peer s key shown w.state.fragment_collector n n' m' w w' := by
  obtain ⟨raws, hsend, hsends⟩ := exec_send_packet henv h.connection hlength
  rw [h.me] at hsends
  refine ⟨_, hsend, h, rfl, fun _ hid => hid, ⟨[], ?_, by simp⟩, ⟨raws, ?_, hsends.chain hspends⟩⟩
  · rw [displayed_append, displayed_map_write]
  · rw [writes_append, writes_map_write]

/-- A packet of the peer is passed on behind what a step did. -/
theorem Does.relays (h : Does me peer s key shown collector n n' m' w w') (henv : Lossless env)
    {raw payload : Bytes} {recipient : Option PeerId} {msg_type : MessageType}
    (hraw : IsPacket raw peer recipient msg_type payload none) (hshort : raw.length ≤ 500)
    (ttl : UInt8) :
    Does me peer s key shown collector n n' m' w (exec (relay env raw ttl) w').2 := by
  unfold relay
  rw [exec_ite]
  split
  · exact h
  · have hlength : ¬ 500 < (with_ttl raw (ttl - 1)).length := by
      unfold with_ttl
      rw [List.length_set]
      omega
    obtain ⟨ids, hids, hshown⟩ := h.displays
    obtain ⟨raws, hraws, hchain⟩ := h.acts
    unfold send_packet should_fragment
    simp only [exec_bind, exec_getClient, h.settled.connection, hlength, decide_false,
      Bool.false_eq_true, if_false, henv 0, exec_emit]
    refine ⟨h.settled, h.collector, h.tracked, ⟨ids, ?_, hshown⟩,
      ⟨raws ++ [with_ttl raw (ttl - 1)], ?_, ?_⟩⟩
    · rw [displayed_append, hids]
      exact List.append_nil _
    · rw [writes_append, hraws, List.append_assoc]
      rfl
    · rw [List.map_append]
      exact hchain.append (.echo hraw (ttl - 1) n (.nil n'))

end

/-! ## Sending -/

/-- A private message with this content is sent, or not sealed at all: its
payload is not between 65490 and 65535 bytes long. -/
def Affordable (self : BitchatClient) (content : Str) : Prop :=
  (encode self.nickname).length ≤ 255 →
    66 + (encode self.nickname).length + (encode content).length ≤ 65535 →
      66 + (encode self.nickname).length + (encode content).length ≤ 65489

/-- The ACK of a private message is sent, whatever the clock says. -/
def AckAffordable (self : BitchatClient) : Prop :=
  ∀ (message_id : Uuid) (uuid_draw clock : Draw),
    (ack_payload self message_id.str uuid_draw clock).length ≤ 65519

section

variable {me peer : PeerId} {s : NoiseSession} {key : Bytes} (shown : Str → Prop)
  {n n' m' m : Nat} {w : World} {env : Env}

theorem does_private_message [LawfulCrypto] (h : Settled me peer s n m w.state)
    (henv : Lossless env) (hkey : s.send_cipher.key = some key) (content nickname : Str)
    (message_id : Option Str) (haffordable : Affordable w.state content) :
    ∃ n', Does me peer s key shown w.state.fragment_collector n n' m w
      (exec (send_private_message env content peer.str nickname message_id) w).2 := by
  have hup : ¬ w.state.connection = .none := by
    rw [h.connection]
    exact nofun
  unfold send_private_message
  simp only [exec_bind, exec_getClient, hup, if_false, h.established, if_true]
  unfold encrypt_private_message
  simp only [exec_bind, exec_getClient]
  by_cases hfits : PayloadFits w.state.nickname (payload_bytes content false none)
    w.state.my_peer_id.str []
  · obtain ⟨payload, message, hcreate, hlength, hmessage, hid⟩ :=
      daemon.private_payload w.state.nickname w.state.my_peer_id content (env.draw 0) hfits
    simp only [hcreate, exec_outcome_ok, exec_modifyClient]
    generalize hw₁ : World.mk _ _ = w₁
    have hout : w₁.out = w.out := by rw [← hw₁]
    have hme : w₁.state.my_peer_id = w.state.my_peer_id := by rw [← hw₁]
    have hcollector : w₁.state.fragment_collector = w.state.fragment_collector := by rw [← hw₁]
    have htracked : ∀ id, Tracked w.state id → Tracked w₁.state id := by
      rw [← hw₁]
      exact fun id hid => Dict.has_set_of_has _ hid _ _
    have hnew : Tracked w₁.state message.id := by
      rw [← hw₁, hid]
      exact Dict.has_set_self _ _ _
    have h₁ : Settled me peer s n m w₁.state := by
      rw [← hw₁]
      exact ⟨h.me, h.connection, h.session, h.unblocked⟩
    by_cases hlt : payload.length < 65536
    · obtain ⟨inner_packet, hinner, his⟩ := create_ok me (some peer) .MESSAGE payload none
        (env.draw 2) hlt
      rw [← h₁.me, hme] at hinner
      have hkeep : with_ttl inner_packet 7 = inner_packet := his.ttl
      have hlong : inner_packet.length ≤ 65519 := by
        have haff := haffordable hfits.sender (by omega)
        have hsize := his.size
        rw [bare_length_to] at hsize
        omega
      simp only [Option.map_some] at hinner
      simp only [hinner, exec_outcome_ok, hkeep, exec_suppress]
      unfold seal_and_send
      simp only [exec_bind, exec_getClient, EncryptionService.encrypt_for_peer, exec_onService]
      by_cases hn : n < NoiseCipherState.NONCES
      · simp only [exec_encrypt h₁.session hkey hn]
        generalize hciphertext : Crypto.chacha_encrypt key (NoiseCipherState.nonce_bytes n)
          inner_packet [] = ciphertext
        have hsize : ciphertext.length = inner_packet.length + 16 := by
          rw [← hciphertext, LawfulCrypto.length_chacha_encrypt]
        obtain ⟨outer_packet, houter, hisouter⟩ := create_ok me (some peer) .NOISE_ENCRYPTED
          ciphertext none ((env.call 3).draw 0) (by omega)
        rw [← h₁.me] at houter
        simp only [Option.map_some] at houter
        simp only [houter, exec_outcome_ok]
        have houtersize : outer_packet.length ≤ 100000 := by
          have hsize := hisouter.size
          rw [bare_length_to] at hsize
          omega
        unfold send_with_retry
        have hplain : IsPrivate me peer (Tracked w₁.state) inner_packet :=
          ⟨payload, message, (env.draw 0).uuid, his, hmessage, hid, hnew⟩
        have hspends : Spends me peer key (Tracked w₁.state) n ⟨outer_packet, n⟩ (n + 1) :=
          .sealed hn (hciphertext ▸ hisouter) hplain
        obtain ⟨w', hsend, hdoes⟩ := (h₁.moves_to w₁.out (n + 1) m).does_send
          (((henv.call 3).call 1).call 0) houtersize hspends shown
        simp only [exec_bind, exec_attempt, hsend, exec_pure]
        rw [← hcollector]
        exact ⟨n + 1, hdoes.after_state htracked hout⟩
      · simp only [exec_encrypt_overflow h₁.session hkey (Nat.not_lt.mp hn)]
        exact ⟨n, h₁.moves.does_nothing hcollector htracked hout⟩
    · rw [create_too_long _ _ _ _ _ _ hlt]
      exact ⟨n, h₁.does_nothing hcollector htracked hout⟩
  · obtain ⟨e, he⟩ := create_payload_error none true (env.draw 0) hfits
    simp only [he, exec_outcome_error]
    exact ⟨n, h.does_nothing rfl (fun _ hid => hid) rfl⟩

/-! ## Answering -/

/-- The ACK packet, sealed or not. -/
theorem Settled.does_send_ack (h : Settled me peer s n' m w.state) (henv : Lossless env)
    (payload : Bytes) (hpayload : payload.length < 65536) (draw : Draw) (key : Bytes) (n : Nat) :
    ∃ ack_packet w', create_bitchat_packet_with_recipient me.str (some peer.str) .DELIVERY_ACK
        payload none draw = .ok ack_packet ∧
      exec (send_packet env (with_ttl ack_packet 3)) w = (.ok (), w') ∧
      Does me peer s key shown w.state.fragment_collector n n' m w w' := by
  obtain ⟨ack_packet, hcreate, his⟩ := create_ok me (some peer) .DELIVERY_ACK payload none draw
    hpayload
  have hlength : (with_ttl ack_packet 3).length ≤ 100000 := by
    have hsize := his.size
    rw [bare_length_to] at hsize
    rw [with_ttl, List.length_set]
    omega
  have hspends : Spends me peer key (Tracked w.state) n ⟨with_ttl ack_packet 3, n⟩ n' := .ack his n
  obtain ⟨w', hsend, hdoes⟩ := h.does_send henv hlength hspends shown
  exact ⟨ack_packet, w', hcreate, hsend, hdoes⟩

theorem does_delivery_ack [LawfulCrypto] (h : Settled me peer s n m w.state)
    (henv : Lossless env) (hkey : s.send_cipher.key = some key) (uuid : Uuid)
    (haffordable : AckAffordable w.state) :
    ∃ n', Does me peer s key shown w.state.fragment_collector n n' m w
      (exec (send_delivery_ack env uuid.str peer.str true) w).2 := by
  unfold send_delivery_ack
  simp only [exec_bind, exec_getClient]
  by_cases hsent : ack_id w.state uuid.str ∈ w.state.delivery_tracker.sent_acks
  · simp only [DeliveryTracker.should_send_ack, hsent, if_true, Bool.false_eq_true, if_false,
      exec_pure]
    exact ⟨n, h.does_nothing rfl (fun _ hid => hid) rfl⟩
  · simp only [DeliveryTracker.should_send_ack, hsent, if_false, if_true, exec_bind,
      exec_modifyClient]
    generalize hw₁ : World.mk _ _ = w₁
    rw [h.me]
    have hout : w₁.out = w.out := by rw [← hw₁]
    have hcollector : w₁.state.fragment_collector = w.state.fragment_collector := by rw [← hw₁]
    have htracked : ∀ id, Tracked w.state id → Tracked w₁.state id := by
      rw [← hw₁]
      exact fun id hid => hid
    have h₁ : Settled me peer s n m w₁.state := by
      rw [← hw₁]
      exact ⟨h.me, h.connection, h.session, h.unblocked⟩
    have hplain := haffordable uuid (env.draw 0) (env.draw 1)
    generalize ack_payload w.state uuid.str (env.draw 0) (env.draw 1) = plain at hplain ⊢
    simp only [seal_ack, if_true, exec_bind, exec_attempt, exec_onService]
    rw [← hcollector]
    by_cases hn : n < NoiseCipherState.NONCES
    · generalize hciphertext : Crypto.chacha_encrypt key (NoiseCipherState.nonce_bytes n) plain [] =
        ciphertext
      have hsize : ciphertext.length = plain.length + 16 := by
        rw [← hciphertext, LawfulCrypto.length_chacha_encrypt]
      obtain ⟨ack_packet, w', hcreate, hsend, hdoes⟩ := (h₁.moves_to w₁.out (n + 1) m).does_send_ack
        shown (henv.call 3) ciphertext (by omega) (env.draw 2) key n
      simp only [exec_encrypt h₁.session hkey hn, exec_pure, hciphertext, hcreate, exec_outcome_ok, hsend]
      exact ⟨n + 1, hdoes.after_state htracked hout⟩
    · -- the nonces are used up, and the ACK goes out in plain text
      obtain ⟨ack_packet, w', hcreate, hsend, hdoes⟩ := (h₁.moves_to w₁.out n m).does_send_ack
        shown (henv.call 3) plain (by omega) (env.draw 2) key n
      simp only [exec_encrypt_overflow h₁.session hkey (Nat.not_lt.mp hn), exec_pure, hcreate,
        exec_outcome_ok, hsend]
      exact ⟨n, hdoes.after_state htracked hout⟩

/-- What the conversation depends on is the same. -/
structure SameSide (c c' : BitchatClient) : Prop where
  me : c'.my_peer_id = c.my_peer_id
  nickname : c'.nickname = c.nickname
  connection : c'.connection = c.connection
  encryption_service : c'.encryption_service = c.encryption_service
  blocked_peers : c'.blocked_peers = c.blocked_peers
  fragment_collector : c'.fragment_collector = c.fragment_collector
  delivery_tracker : c'.delivery_tracker = c.delivery_tracker

theorem Settled.of_same {c c' : BitchatClient} (h : Settled me peer s n m c) (g : SameSide c c') :
    Settled me peer s n m c' := by
  refine ⟨g.me.trans h.me, g.connection.trans h.connection, ?_, ?_⟩
  · rw [g.encryption_service]
    exact h.session
  · rw [g.blocked_peers]
    exact h.unblocked

theorem sameSide_discover (message : BitchatMessage) (self : BitchatClient) :
    SameSide self (self.discover message) := by
  unfold BitchatClient.discover
  split <;> exact ⟨rfl, rfl, rfl, rfl, rfl, rfl, rfl⟩

/-- A private message is shown, unless it is cover traffic. -/
theorem exec_display_private (message : BitchatMessage) (sender_id : Str) (w : World) :
    ∃ w' ids, exec (display_message message sender_id true) w = (.ok (), w') ∧
      SameSide w.state w'.state ∧ displayed w'.out = displayed w.out ++ ids ∧
      (∀ id ∈ ids, id = message.id) ∧ writes w'.out = writes w.out := by
  have hsame := sameSide_discover message w.state
  unfold display_message
  simp only [exec_bind, exec_modifyClient, exec_getClient, exec_ite, exec_pure, exec_emit, if_true]
  split
  · exact ⟨_, [], rfl, hsame, (List.append_nil _).symm, by simp, rfl⟩
  · refine ⟨_, [message.id], rfl, ?_, ?_, by simp, ?_⟩
    · exact ⟨hsame.me, hsame.nickname, hsame.connection, hsame.encryption_service,
        hsame.blocked_peers, hsame.fragment_collector, hsame.delivery_tracker⟩
    · exact displayed_append _ _
    · rw [writes_append]
      exact List.append_nil _

/-- What follows a private message that was opened. -/
theorem does_accept_private [LawfulCrypto] (h : Settled me peer s n m w.state)
    (henv : Lossless env) (hkey : s.send_cipher.key = some key) {payload : Bytes}
    {message : BitchatMessage} {uuid : Uuid}
    (hmessage : parse_bitchat_message_payload payload = .ok message) (hid : message.id = uuid.str)
    (hshown : shown message.id) (haffordable : AckAffordable w.state) :
    ∃ n', Does me peer s key shown w.state.fragment_collector n n' m w
      (exec (accept_private env payload peer.str) w).2 := by
  unfold accept_private
  simp only [hmessage, exec_bind, exec_outcome_ok, exec_getClient, exec_ite]
  split
  · exact ⟨n, h.does_nothing rfl (fun _ hid => hid) rfl⟩
  · unfold note_message
    simp only [exec_bind, exec_getClient]
    rcases hbloom : Packages.bloom_add w.state.bloom message.id with _ | bloom
    · exact ⟨n, h.does_nothing rfl (fun _ hid => hid) rfl⟩
    · simp only [exec_modifyClient]
      generalize hw₁ : World.mk _ _ = w₁
      have hout : w₁.out = w.out := by rw [← hw₁]
      have hnoted : SameSide w.state w₁.state := by
        rw [← hw₁]
        exact ⟨rfl, rfl, rfl, rfl, rfl, rfl, rfl⟩
      obtain ⟨w₂, ids, hdisplay, hsame, hids, hown, hwrites⟩ :=
        exec_display_private message peer.str w₁
      have h₂ := (h.of_same hnoted).of_same hsame
      have haffordable₂ : AckAffordable w₂.state := by
        intro message_id uuid_draw clock
        unfold ack_payload
        rw [hsame.me, hsame.nickname, hnoted.me, hnoted.nickname]
        exact haffordable message_id uuid_draw clock
      obtain ⟨n', hdoes⟩ := does_delivery_ack shown h₂ henv hkey uuid haffordable₂
      rw [hsame.fragment_collector, hnoted.fragment_collector] at hdoes
      simp only [hdisplay, hid]
      refine ⟨n', hdoes.after ?_ (hids.trans (by rw [hout])) ?_ (hwrites.trans (by rw [hout]))⟩
      · unfold Tracked
        rw [hsame.delivery_tracker, hnoted.delivery_tracker]
        exact fun _ hid => hid
      · intro id hmem
        rw [hown id hmem]
        exact hshown

end

/-! ## Fragments -/

omit [ClientPackages] in
/-- A fragment is read as it was cut. -/
theorem fragment_call_received {sender : PeerId} (hsender : hex (rstripZero sender.bytes) = sender.str)
    {f : Fragment} (hid : f.fragment_id.length = 8) (hindex : f.index < 65536)
    (htotal : f.total < 65536) (htype : f.original_type = MessageType.MESSAGE.value)
    (msg_type : MessageType) (ttl : UInt8) :
    fragment_call (received sender none msg_type
      (daemon.fragment_payload f.fragment_id f.index f.total f.data) ttl) = f.fed sender.str := by
  have hfields : daemon.fragment_payload f.fragment_id f.index f.total f.data =
      f.fragment_id ++ (be 2 f.index ++ (be 2 f.total ++ ([f.original_type] ++ f.data))) := by
    simp [daemon.fragment_payload, htype]
  have h0 : slice (daemon.fragment_payload f.fragment_id f.index f.total f.data) 0 8 =
      f.fragment_id := by
    rw [hfields]
    exact slice_append (a := []) f.fragment_id _ rfl (by rw [hid])
  have h8 : slice (daemon.fragment_payload f.fragment_id f.index f.total f.data) 8 10 =
      be 2 f.index := by
    rw [hfields]
    exact slice_append _ _ hid (by rw [length_be])
  have h10 : slice (daemon.fragment_payload f.fragment_id f.index f.total f.data) 10 12 =
      be 2 f.total := by
    rw [hfields, ← List.append_assoc]
    exact slice_append _ _ (by rw [List.length_append, hid, length_be]) (by rw [length_be])
  have hrest : (daemon.fragment_payload f.fragment_id f.index f.total f.data).drop 12 =
      f.original_type :: f.data := by
    rw [hfields, ← List.append_assoc, ← List.append_assoc]
    apply List.drop_left'
    rw [List.length_append, List.length_append, hid, length_be, length_be]
  have h12 : (daemon.fragment_payload f.fragment_id f.index f.total f.data).getD 12 0 =
      f.original_type := by
    rw [List.getD_eq_getElem?_getD, ← List.head?_drop, hrest]
    rfl
  have h13 : (daemon.fragment_payload f.fragment_id f.index f.total f.data).drop 13 = f.data := by
    rw [show 13 = 12 + 1 from rfl, ← List.drop_drop, hrest]
    rfl
  unfold fragment_call Fragment.fed
  simp only [received, hsender, h0, h8, h10, h12, h13, fromBE_be 2 f.index (by omega),
    fromBE_be 2 f.total (by omega)]

omit [ClientPackages] in
theorem Cutting.fits {packet fragment_id : Bytes} {fragments : List Fragment}
    (h : Cutting packet fragment_id fragments) (f : Fragment) (hf : f ∈ fragments) :
    f.fragment_id.length = 8 ∧ f.index < 65536 ∧ f.total < 65536 := by
  have hfew := h.few
  have hindex : f.index ∈ fragments.map Fragment.index := List.mem_map_of_mem hf
  rw [h.cuts.numbered, List.mem_range] at hindex
  rw [h.cuts.ids f hf, h.cuts.totals f hf]
  exact ⟨h.id_size, by omega, hfew⟩

omit [ClientPackages] in
theorem Cutting.call_received {packet fragment_id : Bytes} {fragments : List Fragment}
    (h : Cutting packet fragment_id fragments) {sender : PeerId}
    (hsender : hex (rstripZero sender.bytes) = sender.str) {f : Fragment} (hf : f ∈ fragments)
    (msg_type : MessageType) (ttl : UInt8) :
    fragment_call (received sender none msg_type
      (daemon.fragment_payload f.fragment_id f.index f.total f.data) ttl) = f.fed sender.str := by
  obtain ⟨hid, hindex, htotal⟩ := h.fits f hf
  exact fragment_call_received hsender hid hindex htotal (h.types f hf) msg_type ttl

/-- The client with another collector. -/
def World.collected (w : World) (fragment_collector : FragmentCollector) : World :=
  { w with state := { w.state with fragment_collector } }

section

variable {packet inner_packet : BitchatPacket} {complete_data : Bytes} {sender_id : Str}

/-- A fragment that completes nothing is passed on. -/
theorem exec_handle_fragment (htype : packet.msg_type ∈ exclude_recipient_types)
    (hlong : 13 ≤ packet.payload.length) (depth : Nat) (env : Env) (raw : Bytes) {w : World}
    (hcall : (w.state.fragment_collector.call (fragment_call packet)).2 = none) :
    exec (handle_packet (depth + 1) env packet raw) w = exec (relay (env.call 1) raw packet.ttl)
      (w.collected (w.state.fragment_collector.call (fragment_call packet)).1) := by
  have hcollect : exec (collect_fragment packet) w = (.ok none,
      w.collected (w.state.fragment_collector.call (fragment_call packet)).1) := by
    rw [← Option.map_none (f := Prod.fst (α := Bytes) (β := Str)), ← hcall]
    rfl
  simp only [exclude_recipient_types, List.mem_cons, List.not_mem_nil, or_false] at htype
  unfold handle_packet
  rcases htype with h | h | h <;>
    simp only [h, hlong, if_true, exec_bind, hcollect]

/-- The packet that a fragment completes is dispatched before the fragment is
passed on. -/
theorem exec_handle_last_fragment (htype : packet.msg_type ∈ exclude_recipient_types)
    (hlong : 13 ≤ packet.payload.length) (depth : Nat) (env : Env) (raw : Bytes) {w : World}
    (hcall : (w.state.fragment_collector.call (fragment_call packet)).2 =
      some (complete_data, sender_id))
    (hparse : parse_bitchat_packet complete_data = .ok inner_packet) :
    exec (handle_packet (depth + 1) env packet raw) w =
      exec (handle_packet depth (env.call 0) inner_packet complete_data >>= fun _ =>
        relay (env.call 1) raw packet.ttl)
      (w.collected (w.state.fragment_collector.call (fragment_call packet)).1) := by
  have hcollect : exec (collect_fragment packet) w = (.ok (some complete_data),
      w.collected (w.state.fragment_collector.call (fragment_call packet)).1) := by
    have hreturned : (w.state.fragment_collector.call (fragment_call packet)).2.map Prod.fst =
        some complete_data := by
      rw [hcall]
      rfl
    rw [← hreturned]
    rfl
  simp only [exclude_recipient_types, List.mem_cons, List.not_mem_nil, or_false] at htype
  rw [handle_packet]
  rcases htype with h | h | h <;>
    simp only [h, hlong, if_true, exec_bind, hcollect, hparse, exec_outcome_ok]

end

/-! ## What arrives -/

section

variable {me peer : PeerId} {s : NoiseSession} {key their_key : Bytes} {shown : Str → Prop}
  {n m : Nat} {w : World} {env : Env}

/-- A private message that is handled under the nonce that it was sealed under. -/
theorem does_handle_sealed [LawfulCrypto] (h : Settled me peer s n m w.state)
    (hpeer : hex (rstripZero peer.bytes) = peer.str) (henv : Lossless env)
    (hsend : s.send_cipher.key = some key) (hreceive : s.receive_cipher.key = some their_key)
    (hm : m < NoiseCipherState.NONCES) {plain raw : Bytes}
    (hplain : IsPrivate peer me shown plain) (haffordable : AckAffordable w.state) (depth : Nat) :
    ∃ n', Does me peer s key shown w.state.fragment_collector n n' (m + 1) w
      (exec (handle_packet (depth + 1) env (received peer (some me) .NOISE_ENCRYPTED
        (Crypto.chacha_encrypt their_key (NoiseCipherState.nonce_bytes m) plain []) 7) raw) w).2 := by
  obtain ⟨payload, message, uuid, his, hmessage, hid, hshown⟩ := hplain
  have hsender : (received peer (some me) .NOISE_ENCRYPTED
      (Crypto.chacha_encrypt their_key (NoiseCipherState.nonce_bytes m) plain [])
      7).sender_id_str = peer.str := hpeer
  have hpayload : (received peer (some me) .NOISE_ENCRYPTED
      (Crypto.chacha_encrypt their_key (NoiseCipherState.nonce_bytes m) plain []) 7).payload =
        Crypto.chacha_encrypt their_key (NoiseCipherState.nonce_bytes m) plain [] := rfl
  have htype : (received peer (some me) .NOISE_ENCRYPTED
      (Crypto.chacha_encrypt their_key (NoiseCipherState.nonce_bytes m) plain [])
      7).msg_type = .NOISE_ENCRYPTED := rfl
  unfold handle_packet
  simp only [htype, hsender, hpayload, exec_bind, exec_getClient, h.not_blocked,
    Bool.false_eq_true, if_false, exec_suppress, exec_onService,
    exec_decrypt h.session hreceive hm, head_of_parse his.parse_raw, if_true, his.parse_raw,
    exec_outcome_ok]
  have hinner : (received peer (some me) .MESSAGE payload 7).msg_type = .MESSAGE := rfl
  simp only [hinner, if_true]
  obtain ⟨n', hdoes⟩ := does_accept_private shown (h.moves_to w.out n (m + 1)) henv hsend hmessage hid hshown haffordable
  exact ⟨n', hdoes.after_state (fun _ hid => hid) rfl⟩

theorem Spends.parse {f : Frame} {m' : Nat} (hf : Spends peer me their_key shown m f m') :
    ∃ packet, parse_bitchat_packet f.raw = .ok packet ∧
      packet.sender_id_str = hex (rstripZero peer.bytes) ∧
      packet.msg_type ∉ exclude_recipient_types := by
  cases hf with
  | sealed hn hraw hplain =>
    exact ⟨_, hraw.parse_raw, rfl, by simp [received, exclude_recipient_types]⟩
  | ack hraw nonce => exact ⟨_, hraw.parse 3, rfl, by simp [received, exclude_recipient_types]⟩

/-- A packet that is not an ACK. -/
theorem Spends.does_handle [LawfulCrypto] {f : Frame} {m' : Nat}
    (hf : Spends peer me their_key shown m f m') (h : Settled me peer s n m w.state)
    (hpeer : hex (rstripZero peer.bytes) = peer.str) (henv : Lossless env)
    (hsend : s.send_cipher.key = some key) (hreceive : s.receive_cipher.key = some their_key)
    {packet : BitchatPacket} (hparse : parse_bitchat_packet f.raw = .ok packet)
    (hno_ack : packet.msg_type ≠ .DELIVERY_ACK)
    (haffordable : packet.msg_type = .NOISE_ENCRYPTED → AckAffordable w.state) (depth : Nat) :
    ∃ n', Does me peer s key shown w.state.fragment_collector n n' m' w
      (exec (handle_packet (depth + 1) env packet f.raw) w).2 := by
  cases hf with
  | sealed hm hraw hplain =>
    rw [hraw.parse_raw, Except.ok.injEq] at hparse
    subst hparse
    exact does_handle_sealed h hpeer henv hsend hreceive hm hplain (haffordable rfl) depth
  | ack hraw nonce =>
    have hread := hraw.parse 3
    simp only [with_ttl] at hparse
    rw [hread, Except.ok.injEq] at hparse
    subst hparse
    exact absurd rfl hno_ack

/-- A sealed packet is opened under the nonce it was sealed under. -/
theorem Spends.opens [LawfulCrypto] {self : BitchatClient} {f : Frame} {m' : Nat}
    (hf : Spends peer me their_key shown m f m') (h : Settled me peer s n m self)
    (hpeer : hex (rstripZero peer.bytes) = peer.str)
    (hreceive : s.receive_cipher.key = some their_key) {packet : BitchatPacket}
    (hparse : parse_bitchat_packet f.raw = .ok packet)
    (htype : packet.msg_type = .NOISE_ENCRYPTED) : f.nonce = m ∧
      ∃ plain, (exec (EncryptionService.decrypt_from_peer packet.sender_id_str packet.payload)
        self.encryption_service).1 = .ok plain := by
  cases hf with
  | @sealed raw plain hm hraw hplain =>
    rw [hraw.parse_raw, Except.ok.injEq] at hparse
    subst hparse
    have hopen := exec_decrypt h.session hreceive hm plain
    rw [← hpeer] at hopen
    exact ⟨rfl, plain, congrArg Prod.fst hopen⟩
  | ack hraw nonce =>
    have hread := hraw.parse 3
    simp only [with_ttl] at hparse
    rw [hread, Except.ok.injEq] at hparse
    subst hparse
    cases htype

theorem exec_notification_handler {raw : Bytes} {packet : BitchatPacket}
    (hparse : parse_bitchat_packet raw = .ok packet)
    (hother : packet.sender_id_str ≠ w.state.my_peer_id.str) :
    (exec (notification_handler env raw) w).2 =
      (exec (handle_packet recursion_limit env packet raw) w).2 := by
  unfold notification_handler
  simp only [exec_bind, exec_getClient, hparse, hother, if_false, exec_suppress]

/-- The client drops its own packets. -/
theorem exec_handler_own {raw : Bytes} {packet : BitchatPacket}
    (hparse : parse_bitchat_packet raw = .ok packet)
    (hown : packet.sender_id_str = w.state.my_peer_id.str) :
    exec (notification_handler env raw) w = (.ok (), w) := by
  unfold notification_handler
  simp only [exec_bind, exec_getClient, hparse, hown, if_true, exec_pure]

theorem handed_over_whole {self : BitchatClient} {raw : Bytes} {packet : BitchatPacket}
    (hparse : parse_bitchat_packet raw = .ok packet)
    (hother : packet.sender_id_str ≠ self.my_peer_id.str)
    (htype : packet.msg_type ∉ exclude_recipient_types) : handed_over self raw = some packet := by
  unfold handed_over
  simp only [hparse, hother, if_false, htype, false_and]

theorem handed_over_own {self : BitchatClient} {raw : Bytes} {packet : BitchatPacket}
    (hparse : parse_bitchat_packet raw = .ok packet)
    (hown : packet.sender_id_str = self.my_peer_id.str) : handed_over self raw = none := by
  unfold handed_over
  simp only [hparse, hown, if_true]

theorem handed_over_fragment {self : BitchatClient} {raw : Bytes} {packet : BitchatPacket}
    (hparse : parse_bitchat_packet raw = .ok packet)
    (hother : packet.sender_id_str ≠ self.my_peer_id.str)
    (htype : packet.msg_type ∈ exclude_recipient_types) (hlong : 13 ≤ packet.payload.length) :
    handed_over self raw = (self.fragment_collector.call (fragment_call packet)).2.bind
      fun complete => (parse_bitchat_packet complete.1).toOption := by
  unfold handed_over
  simp only [hparse, hother, if_false, htype, hlong, and_self, if_true]

/-- A fragment hands over what the collector makes of it. -/
theorem Cutting.hands_over {packet fragment_id raw : Bytes} {done left : List Fragment}
    {f : Fragment} (h : Cutting packet fragment_id (done ++ f :: left))
    (hpeer : hex (rstripZero peer.bytes) = peer.str) {self : BitchatClient}
    (hother : hex (rstripZero peer.bytes) ≠ self.my_peer_id.str) (hraw : Bears peer f raw) :
    handed_over self raw = (self.fragment_collector.call (f.fed peer.str)).2.bind
      fun complete => (parse_bitchat_packet complete.1).toOption := by
  have hlong : 13 ≤ (daemon.fragment_payload f.fragment_id f.index f.total f.data).length := by
    rw [daemon.length_fragment_payload (h.fits f (by simp)).1]
    omega
  rw [handed_over_fragment hraw.is_packet.parse_raw hother
    (daemon.fragment_type_mem f.index f.total) hlong, h.call_received hpeer (by simp)]

/-- The packet that is handed over. -/
theorem Takes.hands_over {self : BitchatClient} {f : Frame} {rest : List Frame} {k : Nat}
    (h : Takes peer me their_key shown self.fragment_collector m f rest k)
    (hpeer : hex (rstripZero peer.bytes) = peer.str)
    (hme : hex (rstripZero me.bytes) = self.my_peer_id.str)
    (hother : hex (rstripZero peer.bytes) ≠ self.my_peer_id.str) {packet : BitchatPacket}
    (hover : handed_over self f.raw = some packet) :
    ∃ raw m', Spends peer me their_key shown m ⟨raw, f.nonce⟩ m' ∧
      parse_bitchat_packet raw = .ok packet := by
  cases h with
  | whole hidle hf hrest =>
    obtain ⟨read, hparse, hsender, htype⟩ := hf.parse
    rw [handed_over_whole hparse (hsender ▸ hother) htype, Option.some.injEq] at hover
    exact ⟨f.raw, _, hf, hover ▸ hparse⟩
  | echo hidle hraw ttl nonce hrest =>
    rw [handed_over_own (daemon.parse_with_ttl hraw ttl) hme] at hover
    cases hover
  | fragment hpacket hcut hfiling hraw hraws hrest =>
    rw [hcut.hands_over hpeer hother hraw] at hover
    cases hraws with
    | nil =>
      obtain ⟨read, hparse, -, -⟩ := hpacket.parse
      rw [(hfiling.call_last hcut.cuts).1, Option.bind_some, hparse] at hover
      exact ⟨_, _, hpacket, Option.some.inj hover ▸ hparse⟩
    | cons hraw' hraws' =>
      rw [(hfiling.call hcut.cuts (List.cons_ne_nil _ _)).1] at hover
      cases hover

/-- The packet at the head of the wire, handled by its reader. -/
theorem Takes.does_handle [LawfulCrypto] {f : Frame} {rest : List Frame} {k : Nat}
    (htakes : Takes peer me their_key shown w.state.fragment_collector m f rest k)
    (h : Settled me peer s n m w.state) (hne : me ≠ peer)
    (hpeer : hex (rstripZero peer.bytes) = peer.str) (hme : hex (rstripZero me.bytes) = me.str)
    (henv : Lossless env) (hsend : s.send_cipher.key = some key)
    (hreceive : s.receive_cipher.key = some their_key)
    (hno_ack : ∀ packet, handed_over w.state f.raw = some packet →
      packet.msg_type ≠ .DELIVERY_ACK)
    (haffordable : ∀ packet, handed_over w.state f.raw = some packet →
      packet.msg_type = .NOISE_ENCRYPTED → AckAffordable w.state) :
    ∃ n' m' collector, Does me peer s key shown collector n n' m' w
        (exec (notification_handler env f.raw) w).2 ∧
      Reading peer me their_key shown collector m' rest k := by
  have hother : hex (rstripZero peer.bytes) ≠ w.state.my_peer_id.str := by
    rw [hpeer, h.me]
    exact fun heq => hne (PeerId.str_injective heq).symm
  cases htakes with
  | whole hidle hf hrest =>
    obtain ⟨packet, hparse, hsender, htype⟩ := hf.parse
    rw [← hsender] at hother
    have hover := handed_over_whole hparse hother htype
    obtain ⟨n', hdoes⟩ := hf.does_handle h hpeer henv hsend hreceive hparse
      (hno_ack packet hover) (haffordable packet hover) 999
    rw [exec_notification_handler hparse hother]
    exact ⟨n', _, _, hdoes, .between hidle hrest⟩
  | echo hidle hraw ttl nonce hrest =>
    have hown : hex (rstripZero me.bytes) = w.state.my_peer_id.str := by rw [hme, h.me]
    refine ⟨n, m, _, ?_, .between hidle hrest⟩
    show Does me peer s key shown w.state.fragment_collector n n m w
      (exec (notification_handler env (with_ttl _ ttl)) w).2
    rw [exec_handler_own (daemon.parse_with_ttl hraw ttl) hown]
    exact h.does_nothing rfl (fun _ hid => hid) rfl
  | @fragment m' _ nonce packet fragment_id raw g done left raws rest hpacket hcut hfiling hraw
      hraws hrest =>
    have hparse := hraw.is_packet.parse_raw
    have htype := daemon.fragment_type_mem g.index g.total
    have hlong : 13 ≤ (daemon.fragment_payload g.fragment_id g.index g.total g.data).length := by
      rw [daemon.length_fragment_payload (hcut.fits g (by simp)).1]
      omega
    have hcall := hcut.call_received hpeer (f := g) (by simp)
      (daemon.fragment_type g.index g.total) 7
    have hover := hcut.hands_over hpeer hother hraw
    show ∃ n' m' collector, Does me peer s key shown collector n n' m' w
      (exec (notification_handler env raw) w).2 ∧ _
    rw [exec_notification_handler hparse hother]
    cases hraws with
    | nil =>
      -- the packet is complete
      obtain ⟨hlast, hidle⟩ := hfiling.call_last hcut.cuts
      obtain ⟨inner_packet, hinner, -, -⟩ := hpacket.parse
      rw [hlast, Option.bind_some, hinner] at hover
      rw [show recursion_limit = 998 + 1 + 1 from rfl,
        exec_handle_last_fragment htype hlong _ env raw (by rw [hcall]; exact hlast) hinner, hcall]
      obtain ⟨n', hdoes⟩ := hpacket.does_handle
        (w := w.collected (w.state.fragment_collector.call (g.fed peer.str)).1)
        ⟨h.me, h.connection, h.session, h.unblocked⟩ hpeer (henv.call 0) hsend hreceive hinner
        (hno_ack _ hover) (haffordable _ hover) 998
      refine ⟨n', m', _, ?_, .between hidle hrest⟩
      have hdoes := hdoes.after_state (w := w) (fun _ hid => hid) rfl
      rw [exec_bind]
      generalize exec (handle_packet (998 + 1) (env.call 0) inner_packet packet) _ = result
        at hdoes ⊢
      obtain ⟨_ | _, w'⟩ := result
      · exact hdoes
      · exact hdoes.relays (henv.call 1) hraw.is_packet hraw.short _
    | cons hraw' hraws' =>
      obtain ⟨hnone, hfiling'⟩ := hfiling.call hcut.cuts (List.cons_ne_nil _ _)
      rw [show recursion_limit = 999 + 1 from rfl,
        exec_handle_fragment htype hlong _ env raw (by rw [hcall]; exact hnone), hcall]
      have hcollected : Does me peer s key shown
          (w.state.fragment_collector.call (g.fed peer.str)).1 n n m w
          (w.collected (w.state.fragment_collector.call (g.fed peer.str)).1) :=
        Settled.does_nothing ⟨h.me, h.connection, h.session, h.unblocked⟩ rfl (fun _ hid => hid) rfl
      refine ⟨n, m, _, hcollected.relays (henv.call 1) hraw.is_packet hraw.short _, ?_⟩
      rw [List.append_cons] at hcut
      exact .amid hpacket hcut hfiling' hraw' hraws' hrest

end

end client
