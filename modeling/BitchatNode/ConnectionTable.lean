-- Two laws of the connection table: a live connection is the entry under its
-- address, and the loss of a connection is reported once.
import BitchatNode.Transport

namespace daemon

open python bitchat systems

namespace Transport

variable {self : Transport} {id : Nat} {c : Connection}

/-! ## Live connections -/

/-- The read loop of the connection is running, and neither `disconnect` nor a
failed send has closed it. -/
structure Live (c : Connection) : Prop where
  reading : c.phase = .reading
  kept : c.disconnected = false
  works : c.failed = false

theorem not_live_of_ended (h : Ended c) : ¬ Live c := by
  rintro ⟨hreading, hkept, hworks⟩
  rcases h with h | h | h
  · rw [hkept] at h
    cases h
  · rw [hworks] at h
    cases h
  · rw [hreading] at h
    cases h

/-- The step stores no connection under the address of a live one, and ends
none while another one is stored under its address. -/
structure SparesOthers (t : Transport) (op : Op) : Prop where
  stored : ∀ conn, op.stored = some conn → ∀ (id : Nat) (c : Connection),
    t.made[id]? = some c → Live c → c.conn.address ≠ conn.address
  subject : ∀ (id : Nat) (c : Connection), op.subject = some id → t.made[id]? = some c →
    ∀ other, t.connections.get? c.conn.address = some other → other = id

/-- A live connection is the entry under its address. -/
def LiveAreStored (self : Transport) : Prop :=
  ∀ id c, self.made[id]? = some c → Live c → self.connections.get? c.conn.address = some id

theorem liveAreStored_close_at {f : Connection → Connection} {addr : Str} (h : self.LiveAreStored)
    (hmarks : Marks f)
    (halone : ∀ other, self.connections.get? addr = some other → other = id) :
    ((self.update id f).close_at addr id).LiveAreStored := by
  intro id' c hmade hlive
  obtain ⟨c', hmade', rfl⟩ := (made_close_at f).mp hmade
  by_cases hid : id = id'
  · rw [if_pos hid] at hlive
    exact absurd hlive (not_live_of_ended (hmarks.ended c'))
  · rw [if_neg hid] at hlive ⊢
    have hentry := h id' c' hmade' hlive
    show (self.connections.pop addr).get? c'.conn.address = some id'
    rw [Dict.get?_pop, if_neg, hentry]
    rintro rfl
    exact hid (halone id' hentry).symm

theorem Did.liveAreStored {op : Op} {t : Transport} (hdid : Did self op t) (h : self.LiveAreStored)
    (hspares : self.SparesOthers op) : t.LiveAreStored := by
  cases hdid with
  | dial dials _ => exact h
  | store conn dials hstored =>
    intro id c hmade hlive
    show (self.connections.set conn.address self.made.length).get? c.conn.address = some id
    rw [Dict.get?_set]
    rcases made_store.mp hmade with hmade | ⟨rfl, rfl⟩
    · rw [if_neg (hspares.stored conn hstored id c hmade hlive).symm]
      exact h id c hmade hlive
    · rw [if_pos rfl]
  | @read_done id _ _ _ =>
    intro id' c hmade hlive
    obtain ⟨c', hmade', rfl⟩ := (made_update _).mp hmade
    by_cases hid : id = id'
    · rw [if_pos hid] at hlive
      cases hlive.reading
    · rw [if_neg hid] at hlive ⊢
      exact h id' c' hmade' hlive
  | ends hmade hsubject hmarks =>
    exact liveAreStored_close_at h hmarks (hspares.subject _ _ hsubject hmade)
  | disconnect hentry hmarks =>
    refine liveAreStored_close_at h hmarks fun other hother => ?_
    rw [hentry, Option.some.injEq] at hother
    exact hother.symm
  | nobody _ => exact h

theorem liveAreStored_of_run {t : Transport} (h : system.RunWith SparesOthers t) :
    t.LiveAreStored := by
  refine h.invariant ?_ ?_
  · rintro s rfl id c hmade
    cases hmade
  · intro s op s' _ hlive hspares hstep
    exact (did_of_step hstep).liveAreStored hlive hspares

/-- In every run, each entry of the table is a connection that has this address
and was not closed. A live connection is the entry under its address as long as
no connection is stored under the address of a live one, and none ends while
another one is stored under its address. -/
theorem the_table_holds_the_live_connections (h : system.Reachable self) :
    (∀ addr id, self.connections.get? addr = some id →
      ∃ c, self.made[id]? = some c ∧ c.conn.address = addr ∧ c.closed = false) ∧
    (system.RunWith SparesOthers self → ∀ id c, self.made[id]? = some c → Live c →
      self.connections.get? c.conn.address = some id) :=
  ⟨stored_of_reachable h, liveAreStored_of_run⟩

/-- A run of given steps from the start of a transport. -/
def after (ops : List Op) : Transport := (system.replay init ops).getD init

theorem reachable_after {ops : List Op} (h : (system.replay init ops).isSome = true) :
    system.Reachable (after ops) := by
  obtain ⟨t, ht⟩ := Option.isSome_iff_exists.mp h
  have hafter : after ops = t := by
    unfold after
    rw [ht, Option.getD_some]
  rw [hafter]
  exact System.reachable_replay (.start rfl) ht

/-- A dial to `h:1` that goes through. -/
def dialed : List Op := [.connect ['h'] 1, .opened ['h'] 1]

theorem sparesOthers_dialed : system.RunWith SparesOthers (after dialed) := by
  refine .step (.step (.start rfl) (.connect ['h'] 1) ?_ rfl) (.opened ['h'] 1) ?_ rfl
  · exact ⟨fun _ h => (nomatch h), fun _ _ h => nomatch h⟩
  · exact ⟨fun _ _ _ _ hmade => (nomatch hmade), fun _ _ h => nomatch h⟩

/-- The connection of a dial is stored. -/
theorem the_table_holds_a_dialed_connection :
    (∀ addr id, (after dialed).connections.get? addr = some id →
      ∃ c, (after dialed).made[id]? = some c ∧ c.conn.address = addr ∧ c.closed = false) ∧
    (after dialed).connections.get? ['h', ':', '1'] = some 0 := by
  have hreachable : system.Reachable (after dialed) := reachable_after (by decide)
  obtain ⟨hstored, hlive⟩ := the_table_holds_the_live_connections hreachable
  exact ⟨hstored, hlive sparesOthers_dialed 0 ⟨⟨['h'], 1, true⟩, .reading, false, false, false⟩
    (by decide) ⟨rfl, rfl, rfl⟩⟩

/-- A connection whose read loop is running, that was not disconnected, is not
the entry under its address. -/
def Astray (t : Transport) : Prop :=
  ∃ (id : Nat) (c : Connection), t.made[id]? = some c ∧ c.phase = .reading ∧
    c.disconnected = false ∧ t.connections.get? c.conn.address ≠ some id

/-- A failed send leaves the read loop running; the second of two dials
takes the place of the first; and the old connection to an address takes the
new one out of the table. -/
theorem the_table_loses_running_connections :
    (∃ t, system.Reachable t ∧ Astray t ∧ t = after [.accepted ['h'] 1, .send_fails 0]) ∧
    (∃ t, system.Reachable t ∧ Astray t ∧ t = after
      [.connect ['h'] 1, .connect ['h'] 1, .opened ['h'] 1, .opened ['h'] 1]) ∧
    (∃ t, system.Reachable t ∧ Astray t ∧ t = after
      [.connect ['h'] 1, .opened ['h'] 1, .disconnect ['h', ':', '1'], .connect ['h'] 1,
        .opened ['h'] 1, .read_loop_ends 0, .read_done_callback 0]) := by
  refine ⟨⟨_, reachable_after (by decide), ⟨0, _, rfl, rfl, rfl, by decide⟩, rfl⟩,
    ⟨_, reachable_after (by decide), ⟨0, _, rfl, rfl, rfl, by decide⟩, rfl⟩,
    ⟨_, reachable_after (by decide), ⟨1, _, rfl, rfl, rfl, by decide⟩, rfl⟩⟩

/-! ## Reports -/

/-- The step ends no connection that was closed before, and disconnects only
an address that is in the table. -/
structure EndsOpen (t : Transport) (op : Op) : Prop where
  subject : ∀ (id : Nat) (c : Connection), op.subject = some id → t.made[id]? = some c →
    c.closed = false
  addr : ∀ addr, op = .disconnect addr → t.connections.has addr = true

/-- What was reported is the beginning of each connection and its end, once. -/
structure Reported (t : Transport) : Prop where
  connected : ∀ id, .on_connected id ∈ t.fired → id < t.made.length
  closed : ∀ (id : Nat) (c : Connection), t.made[id]? = some c → (c.closed = true ↔ Ended c)
  once : ∀ (id : Nat) (c : Connection), t.made[id]? = some c →
    t.fired.count (.on_disconnected (some id)) = if c.closed then 1 else 0
  made : ∀ id, .on_disconnected (some id) ∈ t.fired → id < t.made.length
  somebody : .on_disconnected none ∉ t.fired

theorem reported_close_at {f : Connection → Connection} {addr : Str} (h : self.Reported)
    (hmarks : Marks f) (hmade : self.made[id]? = some c) (hopen : c.closed = false) :
    ((self.update id f).close_at addr id).Reported := by
  have hfired : ((self.update id f).close_at addr id).fired =
      self.fired ++ [.on_disconnected (some id)] := rfl
  have hlength : ((self.update id f).close_at addr id).made.length = self.made.length := by
    unfold close_at update
    rw [List.length_modify, List.length_modify]
  have hlt : id < self.made.length := (List.getElem?_eq_some_iff.mp hmade).1
  refine ⟨?_, ?_, ?_, ?_, ?_⟩
  · intro id' hmem
    rw [hfired, List.mem_append, List.mem_singleton] at hmem
    rw [hlength]
    rcases hmem with hmem | hmem
    · exact h.connected id' hmem
    · cases hmem
  · intro id' c' hmade'
    obtain ⟨c₀, hmade₀, rfl⟩ := (made_close_at f).mp hmade'
    by_cases hid : id = id'
    · rw [if_pos hid]
      exact iff_of_true rfl (hmarks.ended c₀)
    · rw [if_neg hid]
      exact h.closed id' c₀ hmade₀
  · intro id' c' hmade'
    obtain ⟨c₀, hmade₀, rfl⟩ := (made_close_at f).mp hmade'
    have hbefore := h.once id' c₀ hmade₀
    rw [hfired, List.count_append, hbefore]
    by_cases hid : id = id'
    · subst hid
      rw [hmade, Option.some.injEq] at hmade₀
      subst hmade₀
      simp [hopen]
    · have hne : Callback.on_disconnected (some id) ≠ .on_disconnected (some id') := by
        simpa using hid
      rw [if_neg hid, List.count_singleton, beq_eq_false_iff_ne.mpr hne]
      rfl
  · intro id' hmem
    rw [hfired, List.mem_append, List.mem_singleton] at hmem
    rw [hlength]
    rcases hmem with hmem | hmem
    · exact h.made id' hmem
    · cases hmem
      exact hlt
  · rw [hfired, List.mem_append, List.mem_singleton]
    rintro (hmem | hmem)
    · exact h.somebody hmem
    · cases hmem

theorem reported_store (h : self.Reported) (conn : PeerConnection) :
    (self.store conn).Reported := by
  have hfired : (self.store conn).fired = self.fired ++ [.on_connected self.made.length] := rfl
  have hlength : (self.store conn).made.length = self.made.length + 1 := by
    unfold store
    rw [List.length_append, List.length_singleton]
  refine ⟨?_, ?_, ?_, ?_, ?_⟩
  · intro id hmem
    rw [hfired, List.mem_append, List.mem_singleton] at hmem
    rw [hlength]
    rcases hmem with hmem | hmem
    · exact Nat.lt_succ_of_lt (h.connected id hmem)
    · cases hmem
      exact Nat.lt_succ_self _
  · intro id c hmade
    rcases made_store.mp hmade with hmade | ⟨-, rfl⟩
    · exact h.closed id c hmade
    · simp [Ended]
  · intro id c hmade
    have hother : ([.on_connected self.made.length] : List Callback).count
      (.on_disconnected (some id)) = 0 := by simp
    rw [hfired, List.count_append, hother, Nat.add_zero]
    rcases made_store.mp hmade with hmade | ⟨rfl, rfl⟩
    · exact h.once id c hmade
    · -- nothing was reported of a connection before it was made
      refine List.count_eq_zero.mpr fun hmem => ?_
      exact lt_irrefl _ (h.made _ hmem)
  · intro id hmem
    rw [hfired, List.mem_append, List.mem_singleton] at hmem
    rw [hlength]
    rcases hmem with hmem | hmem
    · exact Nat.lt_succ_of_lt (h.made id hmem)
    · cases hmem
  · rw [hfired, List.mem_append, List.mem_singleton]
    rintro (hmem | hmem)
    · exact h.somebody hmem
    · cases hmem

theorem Did.reported {op : Op} {t : Transport} (hdid : Did self op t) (h : self.Reported)
    (hstored : self.Stored) (hopen : self.EndsOpen op) : t.Reported := by
  cases hdid with
  | dial dials _ => exact ⟨h.connected, h.closed, h.once, h.made, h.somebody⟩
  | store conn dials _ =>
    have hsame : ({ self with dials } : Transport).Reported :=
      ⟨h.connected, h.closed, h.once, h.made, h.somebody⟩
    exact reported_store hsame conn
  | @read_done id c hmade hreading =>
    have hlength : (self.update id fun c => { c with phase := .read_done }).made.length =
        self.made.length := List.length_modify _ _ _
    refine ⟨fun id' hmem => ?_, fun id' c' hmade' => ?_, fun id' c' hmade' => ?_,
      fun id' hmem => ?_, h.somebody⟩
    · rw [hlength]
      exact h.connected id' hmem
    · obtain ⟨c₀, hmade₀, rfl⟩ := (made_update _).mp hmade'
      by_cases hid : id = id'
      · subst hid
        rw [hmade, Option.some.injEq] at hmade₀
        subst hmade₀
        have hbefore := h.closed id c hmade
        unfold Ended at hbefore ⊢
        rw [hreading] at hbefore
        simpa using hbefore
      · rw [if_neg hid]
        exact h.closed id' c₀ hmade₀
    · obtain ⟨c₀, hmade₀, rfl⟩ := (made_update _).mp hmade'
      have hbefore := h.once id' c₀ hmade₀
      split <;> exact hbefore
    · rw [hlength]
      exact h.made id' hmem
  | ends hmade hsubject hmarks =>
    exact reported_close_at h hmarks hmade (hopen.subject _ _ hsubject hmade)
  | disconnect hentry hmarks =>
    obtain ⟨c, hmade, -, hnotclosed⟩ := hstored _ _ hentry
    exact reported_close_at h hmarks hmade hnotclosed
  | nobody hentry =>
    have hhas := hopen.addr _ rfl
    rw [(Dict.has_eq_false_iff _ _).mpr hentry] at hhas
    cases hhas

theorem reported_of_run {t : Transport} (h : system.RunWith EndsOpen t) : t.Reported := by
  refine h.invariant ?_ ?_
  · rintro s rfl
    refine ⟨?_, ?_, ?_, ?_, List.not_mem_nil⟩
    · exact fun _ hmem => absurd hmem List.not_mem_nil
    · exact fun _ _ hmade => nomatch hmade
    · exact fun _ _ hmade => nomatch hmade
    · exact fun _ hmem => absurd hmem List.not_mem_nil
  · intro s op s' hrun hreported hopen hstep
    exact (did_of_step hstep).reported hreported (stored_of_reachable hrun.reachable) hopen

/-- As long as no step ends a connection a second time or disconnects an unknown
address: the loss of a connection that was reported open is reported once if it
has ended, and not before, and no loss is reported of nobody. -/
theorem a_lost_connection_is_reported_once (h : system.RunWith EndsOpen self) :
    (∀ id, .on_connected id ∈ self.fired → ∃ c, self.made[id]? = some c ∧
      self.fired.count (.on_disconnected (some id)) = if Ended c then 1 else 0) ∧
    .on_disconnected none ∉ self.fired := by
  have hreported := reported_of_run h
  refine ⟨fun id hmem => ?_, hreported.somebody⟩
  obtain ⟨c, hmade⟩ : ∃ c, self.made[id]? = some c :=
    ⟨_, List.getElem?_eq_getElem (hreported.connected id hmem)⟩
  refine ⟨c, hmade, ?_⟩
  rw [hreported.once id c hmade]
  by_cases hclosed : c.closed = true
  · rw [if_pos hclosed, if_pos ((hreported.closed id c hmade).mp hclosed)]
  · rw [if_neg hclosed, if_neg fun hended => hclosed ((hreported.closed id c hmade).mpr hended)]

/-- A connection that is accepted and then ends. -/
theorem an_accepted_connection_is_reported_lost :
    (∀ id, .on_connected id ∈ (after [.accepted ['h'] 1, .read_loop_ends 0]).fired →
      ∃ c, (after [.accepted ['h'] 1, .read_loop_ends 0]).made[id]? = some c ∧
        (after [.accepted ['h'] 1, .read_loop_ends 0]).fired.count (.on_disconnected (some id)) =
          if Ended c then 1 else 0) ∧
    .on_disconnected none ∉ (after [.accepted ['h'] 1, .read_loop_ends 0]).fired := by
  apply a_lost_connection_is_reported_once
  refine .step (.step (.start rfl) (.accepted ['h'] 1) ?_ rfl) (.read_loop_ends 0) ?_ rfl
  · exact ⟨fun _ _ h => (nomatch h), fun _ h => nomatch h⟩
  · refine ⟨fun id c hsubject hmade => ?_, fun _ h => nomatch h⟩
    rw [← Option.some.inj hsubject] at hmade
    rw [← Option.some.inj hmade]

/-- A connection that is disconnected is reported a second time when its read
loop ends, and the disconnection of an unknown address is reported of nobody. -/
theorem a_disconnected_connection_is_reported_twice :
    (∃ t, system.Reachable t ∧ .on_connected 0 ∈ t.fired ∧
      t.fired.count (.on_disconnected (some 0)) = 2 ∧
      t = after [.accepted ['h'] 1, .disconnect ['h', ':', '1'], .read_loop_ends 0]) ∧
    (∃ t, system.Reachable t ∧ .on_disconnected none ∈ t.fired ∧
      t = after [.disconnect ['x']]) :=
  ⟨⟨_, reachable_after (by decide), by decide, by decide, rfl⟩,
    ⟨_, reachable_after (by decide), by decide, rfl⟩⟩

end Transport

end daemon
