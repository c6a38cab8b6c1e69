-- A packet of more than 500 bytes on its way between two clients: the packets
-- that carry its fragments, and the collector that they meet.
import BitchatNode.Client.State
import BitchatNode.Fragmentation
import BitchatNode.PacketCodec

/-! ## One set at a time -/

namespace bitchat.protocol.FragmentCollector

open python bitchat.fragmentation

/-- No set is underway. -/
def Idle (self : FragmentCollector) : Prop := ∀ fragment_id, (self.file fragment_id).1 = none

/-- The set of the sender is underway, with these calls, and no other is. -/
structure Filing (collector : FragmentCollector) (fragment_id : Bytes) (sender_id : Str)
    (done : List Call) : Prop where
  own : Underway (collector.file fragment_id) sender_id done
  others : ∀ id, id ≠ fragment_id → (collector.file id).1 = none

theorem Idle.filing {self : FragmentCollector} (h : self.Idle) (fragment_id : Bytes)
    (sender_id : Str) : self.Filing fragment_id sender_id [] :=
  ⟨h fragment_id, fun id _ => h id⟩

theorem idle_init : Idle init := fun _ => rfl

section

variable {self : FragmentCollector} {packet fragment_id : Bytes} {sender_id : Str}
  {done left : List Fragment} {f : Fragment}

theorem feeds_fed (h : done ⊆ left) : Feeds sender_id left (done.map (·.fed sender_id)) := by
  intro c hc
  obtain ⟨g, hg, rfl⟩ := List.mem_map.mp hc
  exact ⟨g, h hg, rfl⟩

/-- A fragment that has not come yet was not fed. -/
theorem fed_notMem (h : Cuts packet fragment_id (done ++ f :: left)) :
    f.fed sender_id ∉ done.map (·.fed sender_id) := by
  intro hmem
  obtain ⟨g, hg, hfed⟩ := List.mem_map.mp hmem
  have hindex : g.index = f.index := Nat.cast_inj.mp (congrArg Call.index hfed)
  have hnodup : ((done ++ f :: left).map Fragment.index).Nodup := by
    rw [h.numbered]
    exact List.nodup_range
  rw [List.map_append, List.nodup_append] at hnodup
  exact hnodup.2.2 g.index (List.mem_map_of_mem hg) f.index (by simp) hindex

/-- A fragment that is not the last is filed. -/
theorem Filing.call (h : self.Filing fragment_id sender_id (done.map (·.fed sender_id)))
    (hcuts : Cuts packet fragment_id (done ++ f :: left)) (hleft : left ≠ []) :
    (self.call (f.fed sender_id)).2 = none ∧ (self.call (f.fed sender_id)).1.Filing fragment_id
      sender_id ((done ++ [f]).map (·.fed sender_id)) := by
  have hid : (f.fed sender_id).fragment_id = fragment_id := hcuts.ids f (by simp)
  obtain ⟨g, rest, rfl⟩ := List.exists_cons_of_ne_nil hleft
  have hsplit : done ++ f :: g :: rest = (done ++ [f]) ++ g :: rest := by simp
  have hmissing : g.fed sender_id ∉ (done ++ [f]).map (·.fed sender_id) :=
    fed_notMem (hsplit ▸ hcuts : Cuts packet fragment_id (done ++ [f] ++ g :: rest))
  have hfeeds : Feeds sender_id (done ++ f :: g :: rest)
      ((done ++ [f]).map (·.fed sender_id)) := by
    apply feeds_fed
    rw [hsplit]
    exact List.subset_append_left _ _
  rw [List.map_append] at hmissing hfeeds ⊢
  obtain ⟨hnone, hunder⟩ := hcuts.refile_of_missing h.own hfeeds (by simp) hmissing
  have hcall := call_eq_refile self (f.fed sender_id)
  rw [hid] at hcall
  obtain ⟨hfile, hreturned⟩ := Prod.mk.inj hcall
  refine ⟨hreturned.trans hnone, ⟨?_, ?_⟩⟩
  · rw [hfile]
    exact hunder
  · intro id hne
    rw [file_call_of_ne self _ (by rw [hid]; exact hne.symm)]
    exact h.others id hne

/-- The last fragment brings the packet, and leaves nothing behind. -/
theorem Filing.call_last (h : self.Filing fragment_id sender_id (done.map (·.fed sender_id)))
    (hcuts : Cuts packet fragment_id (done ++ [f])) :
    (self.call (f.fed sender_id)).2 = some (packet, sender_id) ∧
      (self.call (f.fed sender_id)).1.Idle := by
  have hid : (f.fed sender_id).fragment_id = fragment_id := hcuts.ids f (by simp)
  have hlast := hcuts.refile_of_last h.own (feeds_fed (List.subset_append_left _ _))
    (f := f) (by simp) (fun g hg hne => by
      rcases List.mem_append.mp hg with hg | hg
      · exact List.mem_map_of_mem hg
      · exact absurd (List.mem_singleton.mp hg) hne)
  have hcall := call_eq_refile self (f.fed sender_id)
  rw [hid, hlast] at hcall
  obtain ⟨hfile, hreturned⟩ := Prod.mk.inj hcall
  refine ⟨hreturned, fun id => ?_⟩
  by_cases hsame : fragment_id = id
  · rw [← hsame, hfile]
  · rw [file_call_of_ne self _ (by rw [hid]; exact hsame)]
    exact h.others id (Ne.symm hsame)

end

end bitchat.protocol.FragmentCollector

/-! ## The fragments of a packet -/

namespace client

open python bitchat bitchat.protocol bitchat.fragmentation
open daemon (fragment_type)

/-- The fragments of these chunks, from this index on. -/
def fragments_from (fragment_id : Bytes) (total index : Nat) (chunks : List Bytes) :
    List Fragment :=
  (chunks.zipIdx index).map fun c => cut fragment_id total MessageType.MESSAGE.value c.2 c.1

/-- The fragments that `send_packet_with_fragmentation` makes. -/
def fragments (packet fragment_id : Bytes) : List Fragment :=
  fragments_from fragment_id (daemon.chunks packet).length 0 (daemon.chunks packet)

theorem length_chunks (packet : Bytes) :
    (daemon.chunks packet).length = (packet.length + 149) / 150 := by
  simp [daemon.chunks, daemon.fragment_size]

theorem flatten_chunks (packet : Bytes) : (daemon.chunks packet).flatten = packet := by
  unfold daemon.chunks
  refine (flatten_slices packet daemon.fragment_size _).trans (List.take_of_length_le ?_)
  unfold daemon.fragment_size
  omega

theorem length_of_mem_chunks {packet chunk : Bytes} (h : chunk ∈ daemon.chunks packet) :
    0 < chunk.length ∧ chunk.length ≤ 150 := by
  simp only [daemon.chunks, List.mem_map, List.mem_range] at h
  obtain ⟨i, hi, rfl⟩ := h
  simp only [slice, List.length_take, List.length_drop, daemon.fragment_size] at *
  omega

theorem length_fragments (packet fragment_id : Bytes) :
    (fragments packet fragment_id).length = (daemon.chunks packet).length := by
  simp [fragments, fragments_from]

theorem mem_fragments {packet fragment_id : Bytes} {f : Fragment}
    (h : f ∈ fragments packet fragment_id) : f.fragment_id = fragment_id ∧
      f.total = (daemon.chunks packet).length ∧ f.original_type = MessageType.MESSAGE.value ∧
      f.data ∈ daemon.chunks packet := by
  obtain ⟨⟨chunk, i⟩, hc, rfl⟩ := List.mem_map.mp h
  exact ⟨rfl, rfl, rfl, List.fst_mem_of_mem_zipIdx hc⟩

theorem cuts_fragments {packet : Bytes} (h : 500 < packet.length) (fragment_id : Bytes) :
    Cuts packet fragment_id (fragments packet fragment_id) := by
  have htwo : 2 ≤ (daemon.chunks packet).length := by
    rw [length_chunks]
    omega
  have hindices : (fragments packet fragment_id).map Fragment.index =
      List.range (daemon.chunks packet).length := by
    unfold fragments fragments_from
    rw [List.map_map, List.range_eq_range', ← List.zipIdx_map_snd 0 (daemon.chunks packet)]
    rfl
  refine ⟨?_, ?_, ?_, ?_, ?_, ?_, ?_⟩
  · rw [hindices, length_fragments]
  · intro f hf
    exact (mem_fragments hf).1
  · intro f hf
    rw [length_fragments]
    exact (mem_fragments hf).2.1
  · intro f hf
    exact List.ne_nil_of_length_pos (length_of_mem_chunks (mem_fragments hf).2.2.2).1
  · intro f hf
    have hdata := (length_of_mem_chunks (mem_fragments hf).2.2.2).2
    unfold MAX_FRAGMENT_SIZE
    omega
  · have hdata : (fragments packet fragment_id).map Fragment.data = daemon.chunks packet := by
      unfold fragments fragments_from
      rw [List.map_map]
      exact List.zipIdx_map_fst 0 (daemon.chunks packet)
    rw [hdata, flatten_chunks]
  · have htypes : (fragments packet fragment_id).map Fragment.fragment_type =
        ((fragments packet fragment_id).map Fragment.index).map
          (bitchat.fragmentation.fragment_type · (daemon.chunks packet).length) := by
      unfold fragments fragments_from
      rw [List.map_map, List.map_map, List.map_map]
      rfl
    rw [htypes, hindices, length_fragments, map_fragment_type htwo]

/-! ## Sending -/

variable [ClientPackages]

omit [ClientPackages] in
theorem length_pad_packet_le {packet : Bytes} (h : packet.length ≤ 240) (entropy : Entropy) :
    (pad_packet packet entropy).length ≤ 256 := by
  have hblock : (block_sizes.find? fun block_size => packet.length + 16 ≤ block_size) =
      some 256 := by
    simp [block_sizes]
    omega
  unfold pad_packet
  simp only [hblock, Option.getD_some]
  split
  · simp only [List.length_append, entropy.length_urandom, List.length_singleton]
    omega
  · omega

/-- The bytes are those of a packet that carries the fragment. It is short
enough to be relayed in one piece. -/
structure Bears (sender : PeerId) (f : Fragment) (raw : Bytes) : Prop where
  is_packet : IsPacket raw sender none (fragment_type f.index f.total)
    (daemon.fragment_payload f.fragment_id f.index f.total f.data) none
  short : raw.length ≤ 500

/-- One fragment can be built. -/
theorem exists_fragment_packet (me : PeerId) {fragment_id : Bytes} (hid : fragment_id.length = 8)
    {index total : Nat} (hindex : index < 65536) (htotal : total < 65536) {chunk : Bytes}
    (hchunk : chunk.length ≤ 150) (draw : Draw) :
    ∃ raw, fragment_packet me.str fragment_id index total chunk draw = .ok raw ∧
      Bears me (cut fragment_id total MessageType.MESSAGE.value index chunk) raw := by
  have hlength := daemon.length_fragment_payload hid index total chunk
  have hmem := daemon.fragment_type_mem index total
  obtain ⟨raw, hcreate, his⟩ := create_ok me none (fragment_type index total)
    (daemon.fragment_payload fragment_id index total chunk) none draw (by omega)
  refine ⟨raw, ?_, his, ?_⟩
  · unfold fragment_packet create_bitchat_packet packH
    rw [if_pos hindex, if_pos htotal]
    exact hcreate
  · rw [create_eq me none (fragment_type index total) _ none draw (by omega)] at hcreate
    rw [← Except.ok.inj hcreate]
    refine (length_pad_packet_le ?_ _).trans (by decide)
    rw [length_layout, me.length_bytes, length_recipient_field, hlength]
    simp only [hmem, Option.isSome_none, Bool.false_eq_true, not_true_eq_false, or_self, if_false,
      Option.getD_none, List.length_nil]
    omega

/-- Every write works. -/
def Lossless (env : Env) : Prop := ∀ i, env.write i = .done

theorem Lossless.call {env : Env} (h : Lossless env) (k : Nat) : Lossless (env.call k) :=
  fun i => h (Nat.pair k i)

/-- The fragments of these chunks go out one after the other. -/
theorem exec_send_fragments {env : Env} (henv : Lossless env) {fragment_id : Bytes}
    (hid : fragment_id.length = 8) {total : Nat} (htotal : total < 65536) (chunks : List Bytes)
    (hchunks : ∀ chunk ∈ chunks, chunk.length ≤ 150) :
    ∀ (index : Nat) (w : World), index + chunks.length ≤ total →
      ∃ raws, exec (send_fragments env fragment_id total index chunks) w =
          (.ok (), { w with out := w.out ++ raws.map .write }) ∧
        List.Forall₂ (Bears w.state.my_peer_id) (fragments_from fragment_id total index chunks)
          raws := by
  induction chunks with
  | nil =>
    intro index w _
    refine ⟨[], ?_, .nil⟩
    rw [List.map_nil, List.append_nil]
    rfl
  | cons chunk rest ih =>
    intro index w hindex
    rw [List.length_cons] at hindex
    obtain ⟨raw, hcreate, hbears⟩ := exists_fragment_packet w.state.my_peer_id hid
      (by omega : index < 65536) htotal (hchunks chunk List.mem_cons_self) (env.draw (index + 1))
    obtain ⟨raws, hsend, hraws⟩ := ih (fun c hc => hchunks c (List.mem_cons_of_mem chunk hc))
      (index + 1) { w with out := w.out ++ [.write raw] } (by omega)
    refine ⟨raw :: raws, ?_, .cons hbears hraws⟩
    unfold send_fragments
    simp only [exec_bind, exec_getClient, hcreate, exec_outcome_ok, henv index, exec_emit, hsend]
    rw [List.map_cons, List.append_assoc]
    rfl

/-- What a client on the connection writes for a packet: the packet, or its
fragments. -/
inductive Sends (sender : PeerId) (packet : Bytes) : List Bytes → Prop
  | whole : Sends sender packet [packet]
  | cut {fragment_id : Bytes} {raws : List Bytes} (hid : fragment_id.length = 8)
    (hlarge : 500 < packet.length) (hfew : (daemon.chunks packet).length < 65536)
    (hraws : List.Forall₂ (Bears sender) (fragments packet fragment_id) raws) :
    Sends sender packet raws

theorem exec_send_packet {env : Env} (henv : Lossless env) {w : World}
    (hup : w.state.connection = .up) {packet : Bytes} (hlength : packet.length ≤ 100000) :
    ∃ raws, exec (send_packet env packet) w =
        (.ok (), { w with out := w.out ++ raws.map .write }) ∧
      Sends w.state.my_peer_id packet raws := by
  unfold send_packet should_fragment
  simp only [exec_bind, exec_getClient, hup]
  by_cases hlarge : 500 < packet.length
  · have hcount := length_chunks packet
    obtain ⟨raws, hsend, hraws⟩ := exec_send_fragments henv
      ((env.draw 0).entropy.length_urandom 8) (by omega : (daemon.chunks packet).length < 65536)
      (daemon.chunks packet) (fun c hc => (length_of_mem_chunks hc).2) 0 w (by omega)
    refine ⟨raws, ?_, .cut ((env.draw 0).entropy.length_urandom 8) hlarge (by omega) hraws⟩
    simp only [hlarge, decide_true, if_true, hsend]
  · refine ⟨[packet], ?_, .whole⟩
    simp only [hlarge, decide_false, Bool.false_eq_true, if_false, henv 0, exec_emit]
    rfl

end client
