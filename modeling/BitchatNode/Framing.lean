-- `_read_loop` of `daemon/transport.py` at one end of a connection and
-- `send_packet` at the other: the packets that arrive are those whose whole
-- frame does.
import BitchatNode.Python.Streams
import BitchatNode.Sending

namespace daemon

open python bitchat bitchat.protocol

/-! ## The read loop -/

/-- Where `_read_loop` stands. -/
inductive Reading
  /-- It waits for the length header. -/
  | header
  /-- It waits for the bytes of a packet. -/
  | packet (payload_len : Nat)
  | ended
deriving DecidableEq

/-- `_read_loop`. It reports the packets for which `on_packet` fires. -/
def read_loop : StreamTask Reading Bytes where
  wants
    | .header => some 2
    | .packet payload_len => some payload_len
    | .ended => none
  takes
    | .header, header =>
      if MAX_PACKET_SIZE < fromBE header then (.ended, []) else (.packet (fromBE header), [])
    | .packet _, raw => (.header, [raw])
    | .ended, _ => (.ended, [])
  fails _ := .ended
  rank
    | .packet _ => 1
    | _ => 0
  rank_lt s hwants := by
    cases s with
    | header => cases hwants
    | packet payload_len => exact Nat.zero_lt_one
    | ended => cases hwants

/-- The frames of the packets, one after the other. -/
def stream (packets : List Bytes) : Bytes := packets.flatMap framed

/-- The packets whose whole frame lies in the first `cut` bytes of the
stream. -/
def whole_frames (cut : Nat) : List Bytes → List Bytes
  | [] => []
  | packet :: packets =>
    if (framed packet).length ≤ cut then
      packet :: whole_frames (cut - (framed packet).length) packets
    else []

theorem length_framed (packet : Bytes) : (framed packet).length = 2 + packet.length := by
  unfold framed
  rw [List.length_append, length_be]

/-- They are the first packets, as many as have their frame end in time. -/
theorem whole_frames_eq_take (cut : Nat) (packets : List Bytes) :
    ∃ n ≤ packets.length, whole_frames cut packets = packets.take n ∧
      ∀ i ≤ packets.length, (stream (packets.take i)).length ≤ cut ↔ i ≤ n := by
  induction packets generalizing cut with
  | nil => exact ⟨0, le_refl 0, rfl, fun i hi => by simp_all [stream]⟩
  | cons packet packets ih =>
    unfold whole_frames
    by_cases hfits : (framed packet).length ≤ cut
    · obtain ⟨n, hn, heq, hends⟩ := ih (cut - (framed packet).length)
      refine ⟨n + 1, Nat.succ_le_succ hn, ?_, fun i hi => ?_⟩
      · rw [if_pos hfits, heq, List.take_succ_cons]
      · cases i with
        | zero => simp [stream]
        | succ i =>
          have hrest := hends i (Nat.le_of_succ_le_succ hi)
          unfold stream at hrest ⊢
          rw [List.take_succ_cons, List.flatMap_cons, List.length_append]
          omega
    · refine ⟨0, Nat.zero_le _, ?_, fun i hi => ?_⟩
      · rw [if_neg hfits, List.take_zero]
      · cases i with
        | zero => simp [stream]
        | succ i =>
          unfold stream
          rw [List.take_succ_cons, List.flatMap_cons, List.length_append]
          omega

/-! ## Reading frames -/

theorem fromBE_be_two {n : Nat} (h : n ≤ 65535) : fromBE (be 2 n) = n := fromBE_be 2 n (by omega)

/-- A header sends the loop on to the packet. -/
theorem resume_header {packet : Bytes} (h : packet.length ≤ 65535) (rest : Bytes)
    (fired : List Bytes) :
    read_loop.resume .header (be 2 packet.length ++ rest) fired =
      read_loop.resume (.packet packet.length) rest fired := by
  have hwants : read_loop.wants .header = some (be 2 packet.length).length := by
    rw [length_be]
    rfl
  have htakes : read_loop.takes .header (be 2 packet.length) = (.packet packet.length, []) := by
    unfold read_loop
    simp only [fromBE_be_two h, if_neg (not_too_large h)]
  rw [StreamTask.resume_reads_append hwants, htakes, List.append_nil]

/-- A whole frame fires `on_packet` and brings the loop back to where it was. -/
theorem resume_framed {packet : Bytes} (h : packet.length ≤ 65535) (rest : Bytes)
    (fired : List Bytes) :
    read_loop.resume .header (framed packet ++ rest) fired =
      read_loop.resume .header rest (fired ++ [packet]) := by
  have hwants : read_loop.wants (.packet packet.length) = some packet.length := rfl
  unfold framed
  rw [List.append_assoc, resume_header h, StreamTask.resume_reads_append hwants]
  rfl

/-- A frame that is cut fires nothing, and the loop waits for the rest of it. -/
theorem resume_cut_frame {packet : Bytes} (h : packet.length ≤ 65535) {cut : Nat}
    (hcut : cut < (framed packet).length) (fired : List Bytes) :
    ∃ s buffer, read_loop.wants s ≠ none ∧
      read_loop.resume .header ((framed packet).take cut) fired = ⟨s, buffer, fired⟩ := by
  have hheader : (be 2 packet.length).length = 2 := length_be 2 _
  rw [length_framed] at hcut
  by_cases hlt : cut < 2
  · -- inside the header
    have hshort : ((framed packet).take cut).length < 2 := by
      rw [List.length_take]
      omega
    have hwants : read_loop.wants .header = some 2 := rfl
    exact ⟨.header, _, by simp [hwants], StreamTask.resume_waits hwants hshort fired⟩
  · -- inside the packet
    have hsplit : (framed packet).take cut = be 2 packet.length ++ packet.take (cut - 2) := by
      unfold framed
      rw [List.take_append, hheader, List.take_of_length_le (by omega)]
    have hshort : (packet.take (cut - 2)).length < packet.length := by
      rw [List.length_take]
      omega
    have hwants : read_loop.wants (.packet packet.length) = some packet.length := rfl
    refine ⟨.packet packet.length, packet.take (cut - 2), by simp [hwants], ?_⟩
    rw [hsplit, resume_header h, StreamTask.resume_waits hwants hshort]

/-- What the loop has fired when the first `cut` bytes of a stream have
arrived, and that it waits for more. -/
theorem resume_stream {packets : List Bytes} (h : ∀ packet ∈ packets, packet.length ≤ 65535)
    (cut : Nat) (fired : List Bytes) :
    ∃ s buffer, read_loop.wants s ≠ none ∧
      read_loop.resume .header ((stream packets).take cut) fired =
        ⟨s, buffer, fired ++ whole_frames cut packets⟩ := by
  induction packets generalizing cut fired with
  | nil =>
    have hwants : read_loop.wants .header = some 2 := rfl
    refine ⟨.header, [], by simp [hwants], ?_⟩
    rw [show stream [] = [] from rfl, List.take_nil, StreamTask.resume_waits hwants (by simp)]
    simp [whole_frames]
  | cons packet packets ih =>
    have hpacket := h packet List.mem_cons_self
    have hstream : stream (packet :: packets) = framed packet ++ stream packets :=
      List.flatMap_cons
    unfold whole_frames
    by_cases hfits : (framed packet).length ≤ cut
    · have hrest := ih (fun p hp => h p (List.mem_cons_of_mem _ hp))
        (cut - (framed packet).length) (fired ++ [packet])
      rw [List.append_assoc, List.singleton_append] at hrest
      rw [hstream, List.take_append, List.take_of_length_le hfits, resume_framed hpacket,
        if_pos hfits]
      exact hrest
    · rw [hstream, List.take_append_of_le_length (by omega), if_neg hfits, List.append_nil]
      exact resume_cut_frame hpacket (by omega) fired

variable [Packages]

/-! ## From one end to the other -/

/-- The packets are sent one after the other. -/
def send_each_packet (env : Env) (conn : PeerConnection) : List Bytes → Mesh Unit
  | [] => pure ()
  | packet :: packets => do
    send_packet env conn packet
    send_each_packet env conn packets

/-- The bytes written on the connection from `w` to `w'`. -/
def bytes_written (conn : PeerConnection) (w w' : World) : Bytes :=
  ((new_writes w w').filter (·.1 = conn.address)).flatMap (·.2)

theorem exec_send_each_packet {env : Env} {conn : PeerConnection}
    (hw : env.write_fails conn.address = false) {packets : List Bytes}
    (h : ∀ packet ∈ packets, packet.length ≤ 65535) (w : World) :
    exec (send_each_packet env conn packets) w = (.ok (), { w with
      out := w.out ++ packets.map fun packet => .write conn.address (framed packet) }) := by
  induction packets generalizing w with
  | nil => simp [send_each_packet]
  | cons packet packets ih =>
    unfold send_each_packet
    rw [exec_bind_ok _ (exec_send_packet (h packet List.mem_cons_self) hw w),
      ih fun p hp => h p (List.mem_cons_of_mem _ hp)]
    simp

theorem bytes_written_send_each_packet {env : Env} {conn : PeerConnection}
    (hw : env.write_fails conn.address = false) {packets : List Bytes}
    (h : ∀ packet ∈ packets, packet.length ≤ 65535) (w : World) :
    bytes_written conn w (exec (send_each_packet env conn packets) w).2 = stream packets := by
  have hframes : writes (packets.map fun packet => .write conn.address (framed packet)) =
      packets.map fun packet => (conn.address, framed packet) := by
    unfold writes
    rw [List.filterMap_map]
    exact congrFun List.filterMap_eq_map packets
  have hwrites : writes (exec (send_each_packet env conn packets) w).2.out = writes w.out ++
      packets.map fun packet => (conn.address, framed packet) := by
    rw [exec_send_each_packet hw h, writes_append, hframes]
  unfold bytes_written stream
  rw [new_writes_eq hwrites, List.filter_eq_self.mpr, List.flatMap_map]
  intro write hwrite
  obtain ⟨packet, -, rfl⟩ := List.mem_map.mp hwrite
  exact decide_eq_true rfl

/-- However many bytes of what was written arrive before the stream ends, and
in whatever chunks: `on_packet` fires for the packets whose whole frame arrived,
in order, and the loop ends. -/
theorem read_loop_fires_for_the_whole_frames {env : Env} {conn : PeerConnection}
    (hw : env.write_fails conn.address = false) {packets : List Bytes}
    (h : ∀ packet ∈ packets, packet.length ≤ 65535) (w : World) (cut : Nat) (chunks : List Bytes)
    (hchunks : chunks.flatten =
      (bytes_written conn w (exec (send_each_packet env conn packets) w).2).take cut) :
    (read_loop.listen .header chunks).reported = whole_frames cut packets ∧
      (read_loop.listen .header chunks).state = .ended := by
  rw [bytes_written_send_each_packet hw h] at hchunks
  obtain ⟨s, buffer, hwaits, hresume⟩ := resume_stream h cut []
  rw [StreamTask.listen_eq, hchunks, hresume]
  unfold StreamTask.feed_eof
  rw [if_neg hwaits, List.nil_append]
  exact ⟨rfl, rfl⟩

end daemon

namespace daemon.standIn

open bitchat.standIn

attribute [local instance] bitchat.standIn.packages

def host : PeerConnection := ⟨['h'], 1, true⟩

def sender : World := ⟨node ⟨[1, 2, 3, 4, 5, 6, 7, 8], bitchat.protocol.PeerId.length_counted⟩ 1, []⟩

/-- An empty packet and one of two bytes, of which the last byte is cut off. -/
theorem read_loop_drops_a_cut_packet :
    (read_loop.listen .header [[0], [0, 0, 2], [7]]).reported = whole_frames 5 [[], [7, 8]] ∧
      (read_loop.listen .header [[0], [0, 0, 2], [7]]).state = .ended := by
  have hw : (env 0).write_fails host.address = false := rfl
  exact read_loop_fires_for_the_whole_frames hw (by decide) sender 5 _ (by decide +kernel)

end daemon.standIn
