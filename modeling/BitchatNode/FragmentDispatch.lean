-- What becomes of a packet that arrives in fragments. `_handle_fragment` reads
-- the index and the total with `struct`, a name that `mesh.py` never binds.
import BitchatNode.Mesh
import BitchatNode.PacketCodec

namespace daemon

open python bitchat bitchat.protocol

/-! ## The fragments of a packet -/

def fragment_size : Nat := 150

/-- The chunks that `send_packet_with_fragmentation` cuts a packet into. -/
def chunks (packet : Bytes) : List Bytes :=
  (List.range ((packet.length + (fragment_size - 1)) / fragment_size)).map fun i =>
    slice packet (fragment_size * i) (fragment_size * i + fragment_size)

def fragment_type (index total : Nat) : MessageType :=
  if index = 0 then .FRAGMENT_START
  else if index = total - 1 then .FRAGMENT_END
  else .FRAGMENT_CONTINUE

/-- The id, the index and the total as big-endian numbers, the type byte and
the chunk. -/
def fragment_payload (fragment_id : Bytes) (index total : Nat) (chunk : Bytes) : Bytes :=
  fragment_id ++ be 2 index ++ be 2 total ++ [MessageType.MESSAGE.value] ++ chunk

theorem fragment_type_mem (index total : Nat) :
    fragment_type index total ∈ exclude_recipient_types := by
  unfold fragment_type
  split
  · decide
  · split <;> decide

theorem length_fragment_payload {fragment_id : Bytes} (h : fragment_id.length = 8)
    (index total : Nat) (chunk : Bytes) :
    (fragment_payload fragment_id index total chunk).length = 13 + chunk.length := by
  unfold fragment_payload
  simp only [List.length_append, h, length_be, List.length_singleton]

/-- `mesh.py` does not import `struct`. -/
theorem global_struct : global_name "struct" = .error (.NameError "struct") := by decide

variable [Packages]

/-- The bytes are those of the fragment packet with this index, as a node with
the id `sender` sends it. -/
def IsFragment (packet fragment_id : Bytes) (sender : Str) (index : Nat) (raw : Bytes) : Prop :=
  ∃ (chunk : Bytes) (read : BitchatPacket), (chunks packet)[index]? = some chunk ∧
    parse_bitchat_packet raw = .ok read ∧
    read.msg_type = fragment_type index (chunks packet).length ∧
    read.payload = fragment_payload fragment_id index (chunks packet).length chunk ∧
    read.sender_id_str = sender

/-! ## Runs of arriving fragments -/

/-- Packets that arrive one after the other on a connection. -/
def arrive (conn : PeerConnection) (w : World) : List (Env × Bytes) → World
  | [] => w
  | (env, raw) :: rest => arrive conn (exec (on_packet_received env conn raw) w).2 rest

/-- Every fragment of the packet arrives, and what else arrives are fragments
of other packets. -/
structure Arrives (packet fragment_id : Bytes) (sender : Str) (arrivals : List (Env × Bytes)) :
    Prop where
  id_size : fragment_id.length = 8
  complete : ∀ index < (chunks packet).length,
    ∃ a ∈ arrivals, IsFragment packet fragment_id sender index a.2
  fragments : ∀ a ∈ arrivals, ∃ packet' fragment_id' sender' index,
    fragment_id'.length = 8 ∧ IsFragment packet' fragment_id' sender' index a.2

/-- From `w` to `w'` the packet was dispatched once, and every fragment packet
that can go on was relayed. -/
structure GetsThrough (packet : Bytes) (arrivals : List (Env × Bytes)) (w w' : World) : Prop where
  dispatched : ∃ read, parse_bitchat_packet packet = .ok read ∧
    (dispatches w'.out).count read = (dispatches w.out).count read + 1
  relayed : ∀ a ∈ arrivals, ∀ read, parse_bitchat_packet a.2 = .ok read → 1 < read.ttl →
    with_ttl a.2 (read.ttl - 1) ∈ relays w'.out

/-! ## Nothing gets through -/

/-- A fragment that has its whole header stops at the first use of `struct`:
neither the collector nor anything else sees it. -/
theorem exec_handle_fragment (env : Env) (packet : BitchatPacket) (raw : Bytes) (w : World)
    (h : 13 ≤ packet.payload.length) :
    exec (handle_fragment env packet raw) w = (.error (.NameError "struct"), w) := by
  unfold handle_fragment take_fragment collect_fragment
  rw [if_pos h, global_struct]
  rfl

/-- A payload that is shorter than the header of a fragment is relayed. -/
theorem exec_handle_fragment_short (env : Env) (packet : BitchatPacket) (raw : Bytes) (w : World)
    (h : ¬ 13 ≤ packet.payload.length) :
    exec (handle_fragment env packet raw) w = exec (relay raw packet.ttl) w := by
  unfold handle_fragment take_fragment
  rw [if_neg h]
  rfl

/-- A node does nothing with a fragment that arrives. -/
theorem out_of_fragment {packet fragment_id : Bytes} {sender : Str} {index : Nat} {raw : Bytes}
    (h : IsFragment packet fragment_id sender index raw) (hid : fragment_id.length = 8) (env : Env)
    (conn : PeerConnection) (w : World) :
    (exec (on_packet_received env conn raw) w).2.out = w.out ∧
      (exec (on_packet_received env conn raw) w).2.node.fragment_collector =
        w.node.fragment_collector := by
  obtain ⟨chunk, read, -, hparse, htype, hpayload, -⟩ := h
  have hlong : 13 ≤ read.payload.length := by
    rw [hpayload, length_fragment_payload hid]
    omega
  have hhandle : handle env read raw = handle_fragment env read raw := by
    have hmem := fragment_type_mem index (chunks packet).length
    rw [← htype] at hmem
    simp only [exclude_recipient_types, List.mem_cons, List.not_mem_nil, or_false] at hmem
    unfold handle
    rcases hmem with h | h | h <;> rw [h]
  unfold on_packet_received
  simp only [exec_bind, exec_node, hparse]
  by_cases hown : read.sender_id_str = w.node.my_peer_id.str
  · rw [if_pos hown]
    exact ⟨rfl, rfl⟩
  · rw [if_neg hown]
    simp only [exec_bind, exec_modifyNode, exec_suppress, hhandle,
      exec_handle_fragment _ _ _ _ hlong]
    exact ⟨trivial, trivial⟩

/-- The same for any number of fragments. -/
theorem out_arrive {arrivals : List (Env × Bytes)} (conn : PeerConnection)
    (h : ∀ a ∈ arrivals, ∃ packet fragment_id sender index,
      fragment_id.length = 8 ∧ IsFragment packet fragment_id sender index a.2) (w : World) :
    (arrive conn w arrivals).out = w.out ∧
      (arrive conn w arrivals).node.fragment_collector = w.node.fragment_collector := by
  induction arrivals generalizing w with
  | nil => exact ⟨rfl, rfl⟩
  | cons a arrivals ih =>
    obtain ⟨packet, fragment_id, sender, index, hid, hfragment⟩ := h a List.mem_cons_self
    obtain ⟨hout, hcollector⟩ := out_of_fragment hfragment hid a.1 conn w
    obtain ⟨hout', hcollector'⟩ := ih (fun b hb => h b (List.mem_cons_of_mem a hb))
      (exec (on_packet_received a.1 conn a.2) w).2
    exact ⟨hout'.trans hout, hcollector'.trans hcollector⟩

theorem GetsThrough.out_ne {packet : Bytes} {arrivals : List (Env × Bytes)} {w w' : World}
    (h : GetsThrough packet arrivals w w') : w'.out ≠ w.out := by
  intro hout
  obtain ⟨read, -, hcount⟩ := h.dispatched
  rw [hout] at hcount
  omega

/-- No packet gets through the daemon in fragments, whatever the order in
which they arrive and whatever arrives beside them: nothing is dispatched and
nothing is relayed. -/
theorem no_packet_gets_through_in_fragments (packet fragment_id : Bytes) (sender : Str)
    (conn : PeerConnection) (w : World) (arrivals : List (Env × Bytes))
    (h : Arrives packet fragment_id sender arrivals) :
    (arrive conn w arrivals).out = w.out ∧
      ¬ GetsThrough packet arrivals w (arrive conn w arrivals) := by
  have hout := (out_arrive conn h.fragments w).1
  refine ⟨hout, ?_⟩
  intro hthrough
  exact hthrough.out_ne hout

end daemon

/-! ## A packet of one fragment -/

namespace daemon

open python bitchat bitchat.protocol

/-- A packet of 22 bytes, which takes one fragment. -/
def short_packet : Bytes := layout .MESSAGE 7 0 0 [1, 2, 3, 4, 5, 6, 7, 8] [] [] []

def its_fragment : Bytes :=
  layout .FRAGMENT_START 7 0 0 [1, 2, 3, 4, 5, 6, 7, 8] []
    (fragment_payload [9, 9, 9, 9, 9, 9, 9, 9] 0 1 short_packet) []

attribute [local instance] bitchat.standIn.packages

theorem short_packet_arrives : Arrives short_packet [9, 9, 9, 9, 9, 9, 9, 9]
    (hex [1, 2, 3, 4, 5, 6, 7, 8]) [(standIn.env 1, its_fragment)] := by
  have hfragment : IsFragment short_packet [9, 9, 9, 9, 9, 9, 9, 9]
      (hex [1, 2, 3, 4, 5, 6, 7, 8]) 0 its_fragment :=
    ⟨short_packet, _, by decide, parse_layout _ _ _ _ _ _ _ _ rfl rfl (by decide) (by decide),
      rfl, rfl, rfl⟩
  refine ⟨rfl, ?_, ?_⟩
  · intro index hindex
    have hzero : index = 0 := by
      have : (chunks short_packet).length = 1 := by decide
      omega
    subst hzero
    exact ⟨_, List.mem_singleton_self _, hfragment⟩
  · intro a ha
    rw [List.mem_singleton] at ha
    subst ha
    exact ⟨_, _, _, _, rfl, hfragment⟩

/-- The world of node 2020202020202020, which knows nobody. -/
def quiet_world : World := ⟨standIn.node ⟨[32, 32, 32, 32, 32, 32, 32, 32], rfl⟩ 1, []⟩

theorem the_short_packet_does_not_get_through_a_node :
    (arrive ⟨['h'], 1, false⟩ quiet_world [(standIn.env 1, its_fragment)]).out = quiet_world.out ∧
      ¬ GetsThrough short_packet [(standIn.env 1, its_fragment)] quiet_world
        (arrive ⟨['h'], 1, false⟩ quiet_world [(standIn.env 1, its_fragment)]) :=
  no_packet_gets_through_in_fragments short_packet [9, 9, 9, 9, 9, 9, 9, 9]
    (hex [1, 2, 3, 4, 5, 6, 7, 8]) ⟨['h'], 1, false⟩ quiet_world
    [(standIn.env 1, its_fragment)] short_packet_arrives

/-- A packet of one fragment, which arrives at a new node and is lost. -/
theorem a_packet_of_one_fragment_is_lost :
    Arrives short_packet [9, 9, 9, 9, 9, 9, 9, 9] (hex [1, 2, 3, 4, 5, 6, 7, 8])
        [(standIn.env 1, its_fragment)] ∧
      ¬ GetsThrough short_packet [(standIn.env 1, its_fragment)] quiet_world
        (arrive ⟨['h'], 1, false⟩ quiet_world [(standIn.env 1, its_fragment)]) := by
  refine ⟨short_packet_arrives, ?_⟩
  intro hthrough
  apply hthrough.out_ne
  exact (out_arrive _ short_packet_arrives.fragments quiet_world).1

end daemon
