-- Daemon nodes and the copies of packets that are under way between them. A
-- step hands one copy to the node it is for, and adds the copies that the node
-- relays.
import BitchatNode.Relaying
import BitchatNode.Broadcasting
import BitchatNode.Flooding
import BitchatNode.Systems

namespace daemon

open python bitchat bitchat.protocol systems

/-! ## The network -/

/-- Where a frame arrives that a node writes on its connection at an address:
at which node, and on which of its connections. -/
abbrev Topology (ι : Type) := ι → Str → Option (ι × PeerConnection)

/-- A packet under way. -/
structure Copy (ι : Type) where
  dest : ι
  conn : PeerConnection
  raw : Bytes

variable [Packages] {ι : Type}

structure Network (ι : Type) where
  world : ι → World
  flying : List (Copy ι)

/-- Which copy is handed over, and what surrounds its handler and its relay. -/
structure Delivery where
  index : Nat
  env : Env
  relay_env : Env

/-- The node once it has handled the copy, up to the sleep of `_relay`. -/
def handled (d : Delivery) (copy : Copy ι) (w : World) : World :=
  (exec (on_packet_received d.env copy.conn copy.raw) w).2

/-- The relays scheduled from `w` to `w'`, as they will be sent. -/
def new_relays (w w' : World) : List Bytes := (relays w'.out).drop (relays w.out).length

/-- `_relay` after its sleep, for each of the relays. -/
def send_relays (env : Env) : List Bytes → Mesh Unit
  | [] => pure ()
  | raw :: rest => do
    suppress (raw_send env raw)
    send_relays env rest

/-- The node once it has relayed the copy, too. -/
def relayed (d : Delivery) (copy : Copy ι) (w : World) : World :=
  (exec (send_relays d.relay_env (new_relays w (handled d copy w))) (handled d copy w)).2

/-- The copies that arrive of the frames that a node wrote. -/
def arrivals (topology : Topology ι) (x : ι) (frames : List (Str × Bytes)) : List (Copy ι) :=
  frames.filterMap fun frame =>
    (topology x frame.1).map fun end_ => ⟨end_.1, end_.2, frame.2.drop 2⟩

/-- The copies that a node adds when a copy is handed to it. -/
def added (topology : Topology ι) (d : Delivery) (copy : Copy ι) (w : World) : List (Copy ι) :=
  arrivals topology copy.dest (new_writes (handled d copy w) (relayed d copy w))

/-- One copy is handed over. -/
def deliver_copy [DecidableEq ι] (topology : Topology ι) (s : Network ι) (d : Delivery) :
    Option (Network ι) :=
  (s.flying[d.index]?).map fun copy =>
    { world := Function.update s.world copy.dest (relayed d copy (s.world copy.dest))
      flying := s.flying.eraseIdx d.index ++ added topology d copy (s.world copy.dest) }

/-! ## What a copy leads to -/

/-- The packet as it is relayed. -/
def Copy.onward (copy : Copy ι) : Bytes := with_ttl copy.raw (copy.raw.getD 2 0 - 1)

/-- The packet arrives at the other ends of the given connections. -/
def spread (topology : Topology ι) (x : ι) (raw : Bytes) (addrs : List Str) : List (Copy ι) :=
  addrs.filterMap fun addr => (topology x addr).map fun end_ => ⟨end_.1, end_.2, raw⟩

omit [Packages] in
theorem arrivals_framed (topology : Topology ι) (x : ι) (raw : Bytes) (addrs : List Str) :
    arrivals topology x (addrs.map fun addr => (addr, framed raw)) =
      spread topology x raw addrs := by
  have hdrop : (framed raw).drop 2 = raw := by
    unfold framed
    rw [List.drop_left' (length_be 2 _)]
  unfold arrivals spread
  rw [List.filterMap_map]
  simp only [Function.comp_def, hdrop]

/-- A packet that is sent arrives at the other ends of some of the connections. -/
theorem arrivals_raw_send (topology : Topology ι) (x : ι) (env : Env) (raw : Bytes) (w : World) :
    ∃ addrs, addrs.Sublist (w.node.connections.entries.map (·.2.address)) ∧
      arrivals topology x (new_writes w (exec (raw_send env raw) w).2) =
        spread topology x raw addrs := by
  have hwrites := writes_raw_send env raw w
  split at hwrites
  · refine ⟨(w.node.connections.entries.filter fun e =>
      !env.write_fails e.2.address).map (·.2.address), List.filter_sublist.map _, ?_⟩
    rw [new_writes_eq hwrites, ← arrivals_framed, List.map_map]
    rfl
  · refine ⟨[], List.nil_sublist _, ?_⟩
    rw [new_writes_eq hwrites]
    rfl

/-- A copy is dropped, or relayed once: to some of the connections of the node,
if it may go on at all. -/
inductive Goes (topology : Topology ι) (d : Delivery) (copy : Copy ι) (w : World) : Prop
  | nowhere (hrelays : relays (relayed d copy w).out = relays w.out)
      (hnode : (relayed d copy w).node = (handled d copy w).node)
      (hadded : added topology d copy w = [])
  | on (httl : 1 < copy.raw.getD 2 0)
      (hscheduled : relays (handled d copy w).out = relays w.out ++ [copy.onward])
      (hrelays : relays (relayed d copy w).out = relays w.out ++ [copy.onward])
      (hsent : (relayed d copy w).node =
        (exec (raw_send d.relay_env copy.onward) (handled d copy w)).2.node)
      (addrs : List Str)
      (haddrs : addrs.Sublist ((handled d copy w).node.connections.entries.map (·.2.address)))
      (hadded : added topology d copy w = spread topology copy.dest copy.onward addrs)

theorem new_relays_nil {w w' : World} (h : relays w'.out = relays w.out) :
    new_relays w w' = [] := by
  unfold new_relays
  rw [h, List.drop_length]

theorem new_relays_eq {w w' : World} {raw : Bytes} (h : relays w'.out = relays w.out ++ [raw]) :
    new_relays w w' = [raw] := by
  unfold new_relays
  rw [h, List.drop_left]

theorem goes (topology : Topology ι) (d : Delivery) (copy : Copy ι) (w : World) :
    Goes topology d copy w := by
  rcases mayRelay_on_packet_received d.env copy.conn copy.raw w with hsame | ⟨httl, hrelay⟩
  · have hsame : relays (handled d copy w).out = relays w.out := hsame
    have hrelayed : relayed d copy w = handled d copy w := by
      unfold relayed
      rw [new_relays_nil hsame]
      rfl
    refine .nowhere ?_ ?_ ?_
    · rw [hrelayed]
      exact hsame
    · rw [hrelayed]
    · unfold added
      rw [hrelayed, new_writes_eq (List.append_nil _).symm]
      rfl
  · have hrelay : relays (handled d copy w).out = relays w.out ++ [copy.onward] := hrelay
    have hrelayed : relayed d copy w =
        (exec (raw_send d.relay_env copy.onward) (handled d copy w)).2 := by
      unfold relayed
      rw [new_relays_eq hrelay]
      rfl
    have hsame := ((calm_quiet d.relay_env).raw_send copy.onward (handled d copy w)).relays
    obtain ⟨addrs, haddrs, harrivals⟩ :=
      arrivals_raw_send topology copy.dest d.relay_env copy.onward (handled d copy w)
    refine .on httl hrelay ?_ ?_ addrs haddrs ?_
    · rw [hrelayed, hsame]
      exact hrelay
    · rw [hrelayed]
    · unfold added
      rw [hrelayed]
      exact harrivals

/-- What `deliver_copy` does. -/
theorem deliver_copy_eq_some [DecidableEq ι] {topology : Topology ι} {s s' : Network ι}
    {d : Delivery} (h : deliver_copy topology s d = some s') :
    ∃ copy, s.flying[d.index]? = some copy ∧
      s'.world = Function.update s.world copy.dest (relayed d copy (s.world copy.dest)) ∧
      s'.flying = s.flying.eraseIdx d.index ++ added topology d copy (s.world copy.dest) := by
  obtain ⟨copy, hcopy, rfl⟩ := Option.map_eq_some_iff.mp h
  exact ⟨copy, hcopy, rfl, rfl⟩

/-! ## Floods end -/

/-- The TTL of the packet. -/
def Copy.ttl (copy : Copy ι) : UInt8 := copy.raw.getD 2 0

omit [Packages] in
theorem Copy.third_byte (copy : Copy ι) (h : 1 < copy.ttl) : copy.raw[2]? = some copy.ttl := by
  unfold Copy.ttl at h ⊢
  rw [List.getD_eq_getElem?_getD] at h ⊢
  cases hget : copy.raw[2]? with
  | none =>
    rw [hget] at h
    exact absurd h (by decide)
  | some ttl => rfl

/-- A copy that is added has the bytes of the one that was handed over, except
for the third, which is lower by one and not zero. -/
theorem raw_of_mem_added {topology : Topology ι} {d : Delivery} {copy c : Copy ι} {w : World}
    (h : c ∈ added topology d copy w) :
    ∃ ttl : UInt8, c.raw = copy.raw.set 2 ttl ∧ copy.raw[2]? = some (ttl + 1) ∧
      (ttl + 1).toNat = ttl.toNat + 1 ∧ 1 ≤ ttl.toNat := by
  rcases goes topology d copy w with ⟨-, -, hadded⟩ | ⟨httl, -, -, -, addrs, -, hadded⟩
  · rw [hadded] at h
    exact absurd h List.not_mem_nil
  · rw [hadded] at h
    obtain ⟨addr, -, hsome⟩ := List.mem_filterMap.mp h
    obtain ⟨end_, -, rfl⟩ := Option.map_eq_some_iff.mp hsome
    have hback : copy.ttl - 1 + 1 = copy.ttl := by grind
    have hthird : copy.raw[2]? = some copy.ttl := copy.third_byte httl
    have hpositive : 1 < copy.ttl.toNat := UInt8.lt_iff_toNat_lt.mp httl
    have hle : 1 ≤ copy.ttl := UInt8.le_iff_toNat_le.mpr (Nat.le_of_lt hpositive)
    have hless : (copy.ttl - 1).toNat + 1 = copy.ttl.toNat := by
      rw [UInt8.toNat_sub_of_le _ _ hle]
      exact Nat.sub_add_cancel (Nat.le_of_lt hpositive)
    refine ⟨copy.ttl - 1, rfl, ?_, ?_, ?_⟩
    · rw [hback]
      exact hthird
    · rw [hback]
      exact hless.symm
    · omega

theorem ttl_of_mem_added {topology : Topology ι} {d : Delivery} {copy c : Copy ι} {w : World}
    (h : c ∈ added topology d copy w) : c.ttl.toNat + 1 = copy.ttl.toNat := by
  obtain ⟨ttl, hraw, hthird, hnext, -⟩ := raw_of_mem_added h
  obtain ⟨hlength, -⟩ := List.getElem?_eq_some_iff.mp hthird
  have hcopy : copy.ttl = ttl + 1 := by
    unfold Copy.ttl
    rw [List.getD_eq_getElem?_getD, hthird, Option.getD_some]
  have hc : c.ttl = ttl := by
    unfold Copy.ttl
    rw [hraw, List.getD_eq_getElem?_getD, List.getElem?_set_self hlength, Option.getD_some]
  rw [hcopy, hc, hnext]

theorem replaces_deliver_copy [DecidableEq ι] {topology : Topology ι} {s s' : Network ι}
    {d : Delivery} (h : deliver_copy topology s d = some s') :
    flooding.Replaces (fun copy : Copy ι => copy.ttl.toNat) s.flying s'.flying := by
  obtain ⟨copy, hcopy, -, hflying⟩ := deliver_copy_eq_some h
  refine ⟨d.index, copy, _, hcopy, hflying, ?_⟩
  intro c hc
  exact Nat.lt_of_succ_le (ttl_of_mem_added hc).le

/-- Whatever is under way, and whatever the nodes know: the copies cannot be
handed over one by one for ever, and a node that relays a packet changes its
TTL alone, which gets lower by one and does not reach zero. -/
theorem floods_end [DecidableEq ι] (topology : Topology ι) :
    (∀ run : ℕ → Network ι, ¬ ∀ n, ∃ d, deliver_copy topology (run n) d = some (run (n + 1))) ∧
      ∀ s d s', deliver_copy topology s d = some s' →
        ∃ copy new, s.flying[d.index]? = some copy ∧
          s'.flying = s.flying.eraseIdx d.index ++ new ∧
          ∀ c ∈ new, ∃ ttl : UInt8, c.raw = copy.raw.set 2 ttl ∧
            copy.raw[2]? = some (ttl + 1) ∧ (ttl + 1).toNat = ttl.toNat + 1 ∧ 1 ≤ ttl.toNat := by
  constructor
  · intro run hrun
    obtain ⟨n, hn⟩ := flooding.exists_not_replaces (fun copy : Copy ι => copy.ttl.toNat)
      fun n => (run n).flying
    obtain ⟨d, hstep⟩ := hrun n
    exact hn (replaces_deliver_copy hstep)
  · intro s d s' hstep
    obtain ⟨copy, hcopy, -, hflying⟩ := deliver_copy_eq_some hstep
    exact ⟨copy, _, hcopy, hflying, fun _ => raw_of_mem_added⟩

end daemon
