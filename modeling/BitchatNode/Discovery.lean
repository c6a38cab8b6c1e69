-- `daemon/discovery.py`: who is found, by an entry of the configuration, over
-- mDNS or by hand. The set of known addresses holds texts; a text tells its host
-- and its port, so every peer is found once, and `Daemon` dials it once.
import BitchatNode.SignedIdentity
import BitchatNode.Startup

namespace daemon

open python systems

/-! ## Addresses -/

/-- `str(n)`. -/
def str_int : Int → Str
  | .ofNat n => digits n
  | .negSucc n => '-' :: digits (n + 1)

/-- `f"{host}:{port}"`. -/
def addr_of (host : Str) (port : Int) : Str := host ++ ':' :: str_int port

/-- `entry.rsplit(":", 1)`, where it gives two parts. -/
def rsplit_colon (entry : Str) : Option (Str × Str) :=
  match entry.reverse.span (· ≠ ':') with
  | (after, _ :: before) => some (before.reverse, after.reverse)
  | (_, []) => none

theorem isDigit_of_mem_digits {n : Nat} {c : Char} (h : c ∈ digits n) : c.isDigit = true := by
  unfold digits at h
  rw [Nat.toString_eq_repr, Nat.toList_repr] at h
  exact Nat.isDigit_of_mem_toDigits (by decide) (by decide) h

theorem mem_str_int {port : Int} {c : Char} (h : c ∈ str_int port) :
    c.isDigit = true ∨ c = '-' := by
  cases port with
  | ofNat n => exact .inl (isDigit_of_mem_digits h)
  | negSucc n =>
    rcases List.mem_cons.mp h with rfl | h
    · exact .inr rfl
    · exact .inl (isDigit_of_mem_digits h)

theorem str_int_injective {m n : Int} (h : str_int m = str_int n) : m = n := by
  have hminus : ∀ k l, digits k ≠ '-' :: l := by
    intro k l heq
    have hdigit : '-'.isDigit = true := isDigit_of_mem_digits (heq ▸ List.mem_cons_self)
    cases hdigit
  cases m with
  | ofNat m =>
    cases n with
    | ofNat n => rw [digits_injective h]
    | negSucc n => exact absurd h (hminus _ _)
  | negSucc m =>
    cases n with
    | ofNat n => exact absurd h.symm (hminus _ _)
    | negSucc n =>
      have hsucc := digits_injective (List.cons.inj h).2
      rw [Nat.succ.inj hsucc]

/-- The last colon is the one before the port. -/
theorem rsplit_addr_of (host : Str) (port : Int) :
    rsplit_colon (addr_of host port) = some (host, str_int port) := by
  have hport : ∀ c ∈ (str_int port).reverse, decide (c ≠ ':') = true := by
    intro c hc
    apply decide_eq_true
    rintro rfl
    rcases mem_str_int (List.mem_reverse.mp hc) with hdigit | hminus
    · cases hdigit
    · cases hminus
  have hreverse : (addr_of host port).reverse = (str_int port).reverse ++ ':' :: host.reverse := by
    simp [addr_of]
  unfold rsplit_colon
  rw [hreverse, List.span_eq_takeWhile_dropWhile, List.takeWhile_append_of_pos hport,
    List.dropWhile_append_of_pos hport]
  simp

theorem addr_of_injective {host host' : Str} {port port' : Int}
    (h : addr_of host port = addr_of host' port') : host = host' ∧ port = port' := by
  have hsplit := congrArg rsplit_colon h
  rw [rsplit_addr_of, rsplit_addr_of, Option.some.injEq, Prod.mk.injEq] at hsplit
  exact ⟨hsplit.1, str_int_injective hsplit.2⟩

/-! ## Who is found -/

structure Discovery where
  /-- `_known`. -/
  known : List Str
  /-- The calls of `on_peer_found`, oldest first. -/
  found : List (Str × Int)

namespace Discovery

def init : Discovery := ⟨[], []⟩

/-- `add_manual`. The other two ways to find a peer end like this. -/
def add_manual (self : Discovery) (host : Str) (port : Int) : Discovery :=
  if addr_of host port ∈ self.known then self
  else ⟨self.known ++ [addr_of host port], self.found ++ [(host, port)]⟩

/-- `server.strip(".")`. -/
def strip_dots (server : Str) : Str := (server.dropWhile (· = '.')).rdropWhile (· = '.')

/-- What the discovery hears of. -/
inductive Hint
  | bootstrap (entry : Str)
  /-- A service changed its state, with the server and the port of its
  information, where there is one. -/
  | service (added : Bool) (info : Option (Str × Int))
  | manual (host : Str) (port : Int)

-- `int` of a string, or `none` where it raises
variable (int : Str → Option Int)

/-- The peer that the hint is about. An entry that cannot be parsed names nobody. -/
def Hint.peer : Hint → Option (Str × Int)
  | .bootstrap entry => do
    let (host, port_str) ← rsplit_colon entry
    let port ← int port_str
    return (host, port)
  | .service true (some (server, port)) => some (strip_dots server, port)
  | .service _ _ => none
  | .manual host port => some (host, port)

/-- `_connect_bootstrap`, `on_change` or `add_manual`. -/
def hear (self : Discovery) (hint : Hint) : Discovery :=
  match hint.peer int with
  | some (host, port) => self.add_manual host port
  | none => self

/-- The set of texts is that of the peers that were found. -/
structure Exact (d : Discovery) : Prop where
  known : d.known = d.found.map fun peer => addr_of peer.1 peer.2
  nodup : d.found.Nodup

variable {self : Discovery} {host : Str} {port : Int}

theorem Exact.mem_known_iff (h : self.Exact) :
    addr_of host port ∈ self.known ↔ (host, port) ∈ self.found := by
  rw [h.known, List.mem_map]
  constructor
  · rintro ⟨⟨host', port'⟩, hmem, heq⟩
    obtain ⟨rfl, rfl⟩ := addr_of_injective heq
    exact hmem
  · exact fun hmem => ⟨_, hmem, rfl⟩

theorem Exact.found_add_manual (h : self.Exact) : (self.add_manual host port).found =
    if (host, port) ∈ self.found then self.found else self.found ++ [(host, port)] := by
  unfold add_manual
  by_cases hmem : (host, port) ∈ self.found
  · rw [if_pos (h.mem_known_iff.mpr hmem), if_pos hmem]
  · rw [if_neg (fun hknown => hmem (h.mem_known_iff.mp hknown)), if_neg hmem]

theorem Exact.add_manual (h : self.Exact) (host : Str) (port : Int) :
    (self.add_manual host port).Exact := by
  unfold Discovery.add_manual
  split
  · exact h
  · rename_i hnew
    constructor
    · simp [h.known]
    · refine List.nodup_append.mpr ⟨h.nodup, List.nodup_singleton _, ?_⟩
      rintro peer hpeer _ hnew' rfl
      rw [List.mem_singleton] at hnew'
      rw [hnew'] at hpeer
      exact hnew (h.mem_known_iff.mpr hpeer)

theorem Exact.hear (h : self.Exact) (hint : Hint) : (self.hear int hint).Exact := by
  unfold Discovery.hear
  split
  · exact h.add_manual _ _
  · exact h

theorem mem_found_hear (h : self.Exact) (hint : Hint) (peer : Str × Int) :
    peer ∈ (self.hear int hint).found ↔ peer ∈ self.found ∨ hint.peer int = some peer := by
  unfold Discovery.hear
  split
  · rename_i host port hpeer
    rw [h.found_add_manual, hpeer, Option.some.injEq]
    split
    · rename_i hmem
      constructor
      · exact .inl
      · rintro (hold | rfl)
        · exact hold
        · exact hmem
    · rw [List.mem_append, List.mem_singleton, eq_comm (a := peer)]
  · rename_i hpeer
    simp [hpeer]

/-- Whatever the discovery hears of, in whatever order and however often, it
reports each peer that is named once, and nobody else. -/
theorem found_once (hints : List Hint) :
    (hints.foldl (Discovery.hear int) init).Exact ∧
      ∀ peer, peer ∈ (hints.foldl (Discovery.hear int) init).found ↔
        ∃ hint ∈ hints, hint.peer int = some peer := by
  induction hints using List.reverseRecOn with
  | nil => exact ⟨⟨rfl, List.nodup_nil⟩, by simp [init]⟩
  | append_singleton hints hint ih =>
    rw [List.foldl_append, List.foldl_cons, List.foldl_nil]
    refine ⟨ih.1.hear int hint, fun peer => ?_⟩
    rw [mem_found_hear int ih.1, ih.2 peer]
    simp [or_and_right, exists_or]

/-- Hints that name the same peers, in the same order, lead to the same. -/
theorem foldl_hear (hints : List Hint) (self : Discovery) :
    hints.foldl (Discovery.hear int) self =
      (hints.filterMap (Hint.peer int)).foldl (fun d peer => d.add_manual peer.1 peer.2) self := by
  induction hints generalizing self with
  | nil => rfl
  | cons hint hints ih =>
    rw [List.foldl_cons, ih, List.filterMap_cons]
    unfold Discovery.hear
    cases hint.peer int <;> rfl

end Discovery

/-! ## Who is dialed -/

namespace Startup

open Discovery

variable {config : StartConfig} {self self' : Startup} {op : Op}

/-- A peer as the discovery reports it. -/
def reported_peer (peer : Str × Nat) : Str × Int := (peer.1, peer.2)

theorem reported_peer_injective : Function.Injective reported_peer := by
  rintro ⟨host, port⟩ ⟨host', port'⟩ h
  simp only [reported_peer, Prod.mk.injEq, Nat.cast_inj] at h
  rw [h.1, h.2]

/-- What the discovery hears of with a step, if the configuration has these entries. -/
def hints (entries : List Str) : Op → List Hint
  | .served => entries.map .bootstrap
  | .found host port => [.service true (some (host, port))]
  | _ => []

/-- The step begins to dial the peer. -/
def dials (peer : Str × Nat) : Op → Bool
  | .connect_to_peer host port => (host, port) = peer
  | _ => false

/-- The table of pairs is the set of texts. -/
structure Represents (d : Discovery) (s : Startup) : Prop where
  exact_ : d.Exact
  found : d.found = s.known.map reported_peer

theorem Represents.discovered {d : Discovery} (h : Represents d self) (peer : Str × Nat) :
    Represents (d.add_manual peer.1 peer.2) (self.discovered peer) := by
  refine ⟨h.exact_.add_manual _ _, ?_⟩
  have hmem : (peer.1, (peer.2 : Int)) ∈ d.found ↔ peer ∈ self.known := by
    rw [h.found]
    exact List.mem_map_of_injective reported_peer_injective
  rw [h.exact_.found_add_manual]
  unfold Startup.discovered
  by_cases hknown : peer ∈ self.known
  · rw [if_pos (hmem.mpr hknown), if_pos hknown]
    exact h.found
  · rw [if_neg (fun hfound => hknown (hmem.mp hfound)), if_neg hknown, h.found]
    simp [reported_peer]

theorem Represents.foldl_discovered {d : Discovery} (h : Represents d self)
    (peers : List (Str × Nat)) :
    Represents ((peers.map reported_peer).foldl (fun d peer => d.add_manual peer.1 peer.2) d)
      (peers.foldl Startup.discovered self) := by
  induction peers generalizing d self with
  | nil => exact h
  | cons peer peers ih => exact ih (h.discovered peer)

theorem Represents.same {d : Discovery} (h : Represents d self)
    (hknown : self'.known = self.known) : Represents d self' :=
  ⟨h.exact_, by rw [hknown]; exact h.found⟩

section

variable {int : Str → Option Int} {entries : List Str}

theorem Represents.step {d : Discovery} (h : Represents d self)
    (hentries : config.bootstrap_nodes.map reported_peer =
      entries.filterMap fun entry => (Hint.bootstrap entry).peer int)
    (hstripped : ∀ host port, op = .found host port → strip_dots host = host)
    (hstep : step config self op = some self') :
    Represents ((hints entries op).foldl (Discovery.hear int) d) self' := by
  cases op with
  | start =>
    simp only [Startup.step, Option.ite_none_right_eq_some, Option.some.injEq] at hstep
    rw [← hstep.2]
    exact h.same rfl
  | served =>
    simp only [Startup.step, Option.ite_none_right_eq_some, Option.some.injEq] at hstep
    rw [← hstep.2]
    have hpeers : (entries.map Hint.bootstrap).filterMap (Hint.peer int) =
        config.bootstrap_nodes.map reported_peer := by
      rw [hentries, List.filterMap_map]
      rfl
    have hbegun : Represents d { self with discovering := true } := h.same rfl
    have hfound := hbegun.foldl_discovered config.bootstrap_nodes
    unfold hints
    rw [foldl_hear, hpeers]
    unfold go_on
    dsimp only
    split
    · exact hfound.same rfl
    · exact hfound.same rfl
  | tick =>
    simp only [Startup.step, Option.ite_none_right_eq_some] at hstep
    obtain ⟨-, hstep⟩ := hstep
    split at hstep
    · cases hstep
      exact h
    · cases hstep
      exact h.same rfl
  | found host port =>
    simp only [Startup.step, Option.ite_none_right_eq_some, Option.some.injEq] at hstep
    rw [← hstep.2]
    have hpeer : (Hint.service true (some (host, (port : Int)))).peer int =
        some (reported_peer (host, port)) := by
      simp only [Hint.peer, hstripped host port rfl, reported_peer]
    unfold hints
    rw [foldl_hear, List.filterMap_cons, hpeer]
    exact h.discovered (host, port)
  | connect_to_peer host port =>
    simp only [Startup.step, Option.ite_none_right_eq_some, Option.map_eq_some_iff] at hstep
    obtain ⟨-, s, ⟨t, -, rfl⟩, rfl⟩ := hstep
    exact h.same rfl
  | stop_discovery =>
    simp only [Startup.step, Option.some.injEq] at hstep
    rw [← hstep]
    exact h.same rfl
  | net op =>
    simp only [Startup.step, Option.ite_none_right_eq_some, Option.map_eq_some_iff] at hstep
    obtain ⟨-, t, -, rfl⟩ := hstep
    exact h.same rfl

end

/-- A peer was dialed so often, and is still to be dialed where a task waits. -/
def Dialed (peer : Str × Nat) (n : Nat) (s : Startup) : Prop :=
  n + s.tasks.count peer = s.known.count peer

theorem Dialed.discovered {peer : Str × Nat} {n : Nat} (h : Dialed peer n self)
    (other : Str × Nat) : Dialed peer n (self.discovered other) := by
  unfold Dialed Startup.discovered at *
  split
  · exact h
  · simp only [List.count_append]
    omega

theorem Dialed.foldl_discovered {peer : Str × Nat} {n : Nat} (h : Dialed peer n self)
    (others : List (Str × Nat)) : Dialed peer n (others.foldl Startup.discovered self) := by
  induction others generalizing self with
  | nil => exact h
  | cons other others ih => exact ih (h.discovered other)

theorem Dialed.step {peer : Str × Nat} {n : Nat} (h : Dialed peer n self)
    (hstep : step config self op = some self') :
    Dialed peer (n + if dials peer op then 1 else 0) self' := by
  cases op with
  | start =>
    simp only [Startup.step, Option.ite_none_right_eq_some, Option.some.injEq] at hstep
    rw [← hstep.2]
    exact h
  | served =>
    simp only [Startup.step, Option.ite_none_right_eq_some, Option.some.injEq] at hstep
    rw [← hstep.2]
    have hbegun : Dialed peer n { self with discovering := true } := h
    have hfound := hbegun.foldl_discovered config.bootstrap_nodes
    show Dialed peer n (self.go_on config)
    unfold go_on
    dsimp only
    split
    · exact hfound
    · exact hfound
  | tick =>
    simp only [Startup.step, Option.ite_none_right_eq_some] at hstep
    obtain ⟨-, hstep⟩ := hstep
    split at hstep
    · cases hstep
      exact h
    · cases hstep
      exact h
  | found host port =>
    simp only [Startup.step, Option.ite_none_right_eq_some, Option.some.injEq] at hstep
    rw [← hstep.2]
    exact h.discovered (host, port)
  | connect_to_peer host port =>
    simp only [Startup.step, Option.ite_none_right_eq_some, Option.map_eq_some_iff] at hstep
    obtain ⟨htask, s, ⟨t, -, rfl⟩, rfl⟩ := hstep
    unfold Dialed at h ⊢
    have herase : (self.tasks.erase (host, port)).count peer =
        self.tasks.count peer - if (host, port) = peer then 1 else 0 := by
      rw [List.count_erase]
      simp only [beq_iff_eq]
    have hdials : dials peer (.connect_to_peer host port) = decide ((host, port) = peer) := rfl
    show _ + (self.tasks.erase (host, port)).count peer = self.known.count peer
    rw [herase, hdials]
    by_cases hpeer : (host, port) = peer
    · have hpos := List.count_pos_iff.mpr (hpeer ▸ htask)
      simp only [hpeer, decide_true, if_true]
      omega
    · simpa [hpeer] using h
  | stop_discovery =>
    simp only [Startup.step, Option.some.injEq] at hstep
    rw [← hstep]
    exact h
  | net op =>
    simp only [Startup.step, Option.ite_none_right_eq_some, Option.map_eq_some_iff] at hstep
    obtain ⟨-, t, -, rfl⟩ := hstep
    exact h

section

variable {int : Str → Option Int} {entries : List Str}

theorem Represents.run {d : Discovery} {n : Nat} {ops : List Op} {peer : Str × Nat}
    (h : Represents d self) (hdialed : Dialed peer n self)
    (hentries : config.bootstrap_nodes.map reported_peer =
      entries.filterMap fun entry => (Hint.bootstrap entry).peer int)
    (hstripped : ∀ host port, .found host port ∈ ops → strip_dots host = host)
    (hrun : (system config).replay self ops = some self') :
    Represents ((ops.flatMap (hints entries)).foldl (Discovery.hear int) d) self' ∧
      Dialed peer (n + ops.countP (dials peer)) self' := by
  induction ops generalizing d self n with
  | nil =>
    cases hrun
    exact ⟨h, hdialed⟩
  | cons op ops ih =>
    obtain ⟨s, hstep, hrest⟩ := Option.bind_eq_some_iff.mp hrun
    have hfirst : ∀ host port, op = .found host port → strip_dots host = host := by
      rintro host port rfl
      exact hstripped host port List.mem_cons_self
    obtain ⟨hrep, hcount⟩ := ih (h.step hentries hfirst hstep) (hdialed.step hstep)
      (fun host port hop => hstripped host port (List.mem_cons_of_mem _ hop)) hrest
    rw [List.flatMap_cons, List.foldl_append, List.countP_cons]
    refine ⟨hrep, ?_⟩
    unfold Dialed at hcount ⊢
    omega

end

/-- `int` as far as the run below needs it. -/
def read_one (s : Str) : Option Int := if s = ['1'] then some 1 else none

end Startup

end daemon
