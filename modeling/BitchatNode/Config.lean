-- `daemon/config.py`: the built-in defaults, a YAML file and the environment,
-- merged into one configuration. The defaults are copied at their top only, so
-- the sections of a configuration can be those of the defaults themselves.
import BitchatNode.DeepMerge
import BitchatNode.Python.Exec
import BitchatNode.Python.Words

namespace daemon.config

open python python.heap

/-! ## Defaults -/

/-- `DEFAULT_CONFIG`. `data_dir` is what `os.path.expanduser` makes of its
argument. -/
def defaults (data_dir : Str) : Mapping :=
  [(key "node", .dict [
      (key "port", .leaf (.int 8765)),
      (key "listen", .leaf (.str "0.0.0.0".toList)),
      (key "nickname", .leaf (.str "bitchat-node".toList)),
      (key "data_dir", .leaf (.str data_dir))]),
   (key "mesh", .dict [
      (key "bootstrap_nodes", .leaf (.list [])),
      (key "max_peers", .leaf (.int 50)),
      (key "default_ttl", .leaf (.int 7))]),
   (key "discovery", .dict [
      (key "mdns", .leaf (.bool true)),
      (key "mdns_service", .leaf (.str "_bitchat._tcp".toList))]),
   (key "api", .dict [
      (key "rest_port", .leaf (.int 8080)),
      (key "ws_port", .leaf (.int 8080)),
      (key "host", .leaf (.str "127.0.0.1".toList))]),
   (key "logging", .dict [
      (key "level", .leaf (.str "INFO".toList)),
      (key "file", .leaf .null)])]

/-- The dictionaries when the module was imported. -/
def imported (data_dir : Str) : Memory :=
  (Heap.alloc ([] : Memory) (.dict (defaults data_dir))).2

/-- The address of the dictionary that `DEFAULT_CONFIG` names: its sections
were made before it. -/
def DEFAULT_CONFIG : Nat := 5

theorem holds_imported (data_dir : Str) :
    ∃ own, Holds (imported data_dir) (.dict DEFAULT_CONFIG) (.dict (defaults data_dir)) own := by
  obtain ⟨own, hholds, -⟩ := holds_alloc (.dict (defaults data_dir)) ([] : Memory)
  exact ⟨own, hholds⟩

/-! ## Loading -/

/-- What Python raises. -/
inductive ConfigError
  | ValueError
  | TypeError
  | KeyError
  | AttributeError
deriving DecidableEq

/-- What is at the path of the configuration file, if there is a path. -/
inductive File
  | absent
  /-- It cannot be read or parsed. -/
  | broken
  /-- What it holds is true, but no mapping. -/
  | unmapped
  | mapping (user_config : Mapping) (tidy : Tidy (.dict user_config))

/-- What is merged. -/
def File.user_config : File → Mapping
  | .mapping user_config _ => user_config
  | _ => []

theorem File.tidy (file : File) : Tidy (.dict file.user_config) := by
  cases file with
  | mapping user_config tidy => exact tidy
  | _ => exact .dict List.nodup_nil (by simp [user_config])

theorem File.nodup (file : File) : (file.user_config.map Prod.fst).Nodup := by
  cases file.tidy with
  | dict nodup all => exact nodup

/-- `os.environ`. -/
structure Environ where
  get : String → Option Str

/-- The variable, where it counts as true. -/
def Environ.true? (env : Environ) (name : String) : Option Str := (env.get name).filter (· ≠ [])

/-- What the environment and the command line can set. -/
inductive Setting
  | int (n : Int)
  | str (s : Str)
  | list (xs : List Str)
deriving DecidableEq

def Setting.leaf : Setting → Leaf
  | .int n => .int n
  | .str s => .str s
  | .list xs => .list xs

theorem Setting.leaf_ne_null (x : Setting) : x.leaf ≠ .null := by
  cases x <;> simp [leaf]

/-- `config[part][name] = value`. The value is `none` where `int` raises. -/
structure Override where
  part : String
  name : String
  value : Option Setting
deriving DecidableEq

/-- It writes into the section itself. -/
def Override.set (self : Override) (config : Nat) : Py ConfigError Memory Unit := do
  match self.value with
  | none => throw .ValueError
  | some x =>
    let heap ← get
    match heap.item config (key self.part) with
    | none => throw .KeyError
    | some (.leaf _) => throw .TypeError
    | some (.dict a) => modify fun heap => heap.put a (key self.name) (.leaf x.leaf)

def set_each (config : Nat) : List Override → Py ConfigError Memory Unit
  | [] => pure ()
  | override :: rest => do
    override.set config
    set_each config rest

section

-- `int` of a string, or `none` where it raises
variable (int : Str → Option Int)

/-- `int(s)`. -/
def number (s : Str) : Option Setting := (int s).map .int

/-- The overrides from environment variables, in the order of the source. -/
def Environ.overrides (env : Environ) : List Override :=
  ((env.true? "BITCHAT_PORT").toList.map fun s => ⟨"node", "port", number int s⟩) ++
  ((env.true? "BITCHAT_API_PORT").toList.flatMap fun s =>
    [⟨"api", "rest_port", number int s⟩, ⟨"api", "ws_port", number int s⟩]) ++
  ((env.true? "BITCHAT_NICKNAME").toList.map fun s => ⟨"node", "nickname", some (.str s)⟩) ++
  ((env.true? "BITCHAT_API_HOST").toList.map fun s => ⟨"api", "host", some (.str s)⟩) ++
  ((env.true? "BITCHAT_BOOTSTRAP").toList.map fun s =>
    ⟨"mesh", "bootstrap_nodes", some (.list ((s.splitOn ',').map strip))⟩)

/-- `d.copy()`. -/
def copy (d : Nat) : Py ConfigError Memory Nat := fun heap =>
  (.ok (heap.copy d).1, (heap.copy d).2)

/-- The `try` of `load_config`, which catches every exception. -/
def merge_file (config : Nat) : File → Py ConfigError Memory Unit
  | .absent => pure ()
  | .broken => suppress (throw .ValueError : Py ConfigError Memory Unit)
  | .unmapped => suppress (throw .AttributeError : Py ConfigError Memory Unit)
  | .mapping user_config _ => modify fun heap => deep_merge heap config user_config

/-- `load_config`. -/
def load_config (file : File) (env : Environ) : Py ConfigError Memory Nat := do
  let config ← copy DEFAULT_CONFIG
  merge_file config file
  set_each config (env.overrides int)
  return config

end

/-! ## What a call should return -/

/-- The overrides laid over a configuration, unless `int` raises. -/
def overridden : List Override → Mapping → Option Mapping
  | [], config => some config
  | override :: rest, config => do
    let x ← override.value
    overridden rest
      (overlay config [(key override.part, .dict [(key override.name, .leaf x.leaf)])])

structure Call where
  file : File
  env : Environ

/-- The defaults, with the file laid over them, and over that the environment. -/
def Call.expected (int : Str → Option Int) (base : Mapping) (self : Call) : Option Mapping :=
  overridden (self.env.overrides int) (overlay base self.file.user_config)

/-! ## Setting values -/

/-- The keys that the copy shares are the same, and the original is the same
under the others. -/
structure Updated (s s' : Sharing Key Leaf) : Prop where
  shared : ∀ k, entry k s'.copy = some none ↔ entry k s.copy = some none
  kept : ∀ k, entry k s.copy ≠ some none → entry k s'.original = entry k s.original

theorem Updated.refl (s : Sharing Key Leaf) : Updated s s := ⟨fun _ => Iff.rfl, fun _ _ => rfl⟩

theorem Updated.trans {s s' s'' : Sharing Key Leaf} (h : Updated s s') (g : Updated s' s'') :
    Updated s s'' where
  shared k := (g.shared k).trans (h.shared k)
  kept k hk := (g.kept k fun hs => hk ((h.shared k).mp hs)).trans (h.kept k hk)

theorem updated_update {s : Sharing Key Leaf} {k : Key} (hentry : entry k s.shown ≠ none)
    (v : Value) : Updated s (s.update k v) := by
  rw [Sharing.entry_shown, ne_eq, Option.map_eq_none_iff] at hentry
  unfold Sharing.update
  rcases hcopy : entry k s.copy with _ | _ | t
  · exact absurd hcopy hentry
  · refine ⟨fun _ => Iff.rfl, fun k' hk' => ?_⟩
    show entry k' (Dict.write k v s.original) = _
    rw [entry_write, if_neg]
    rintro rfl
    exact hk' hcopy
  · refine ⟨fun k' => ?_, fun _ _ => rfl⟩
    show entry k' (Dict.write k (some v) s.copy) = some none ↔ _
    rw [entry_write]
    split
    · rename_i hk
      subst hk
      simp [hcopy]
    · rfl

section

variable {base inner : Mapping} {s : Sharing Key Leaf} {heap : Memory} {d c : Nat}
  {override : Override}

/-- The section is a mapping. -/
def IsMapping (config : Mapping) (k : Key) : Prop := ∃ inner, entry k config = some (.dict inner)

/-- The value is there, and its section is a mapping. -/
structure Override.Works (override : Override) (config : Mapping) : Prop where
  parses : override.value ≠ none
  section_is_mapping : IsMapping config (key override.part)

theorem overlay_setting {config : Mapping} {k k' : Key}
    (hentry : entry k config = some (.dict inner)) (x : Setting) :
    overlay config [(k, .dict [(k', .leaf x.leaf)])] =
      Dict.write k (.dict (Dict.write k' (.leaf x.leaf) inner)) config := by
  simp [overlay, overlay_entry, hentry, x.leaf_ne_null]

theorem exec_set (h : Shares heap d c s) {x : Setting} (hvalue : override.value = some x)
    (hentry : entry (key override.part) s.shown = some (.dict inner)) :
    ∃ heap', exec (override.set c) heap = (.ok (), heap') ∧
      Shares heap' d c (s.update (key override.part)
        (.dict (Dict.write (key override.name) (.leaf x.leaf) inner))) := by
  rcases h.focus (key override.part) with ⟨-, hnone⟩ | ⟨r, t, part, hitem, hentry', hholds, hchange⟩
  · rw [hentry] at hnone
    cases hnone
  · rw [hentry] at hentry'
    cases hentry'
    rcases r with y | a
    · cases hholds
    · obtain ⟨part', hput, hevolves⟩ :=
        hholds.put (.leaf x.leaf) (.refl heap ∅) (key override.name)
      refine ⟨heap.put a (key override.name) (.leaf x.leaf), ?_, hchange hput hevolves⟩
      unfold Override.set
      simp [hvalue, hitem]

theorem exec_set_raises (h : Shares heap d c s) (hfails : ¬ override.Works s.shown) :
    ∃ e heap', exec (override.set c) heap = (.error e, heap') := by
  unfold Override.set
  rcases hvalue : override.value with _ | x
  · exact ⟨_, _, rfl⟩
  · rcases h.focus (key override.part) with ⟨hitem, -⟩ | ⟨r, t, part, hitem, hentry, hholds, -⟩
    · exact ⟨.KeyError, heap, by simp [hitem]⟩
    · cases hholds with
      | leaf y => exact ⟨.TypeError, heap, by simp [hitem]⟩
      | dict read all apart =>
        exact absurd ⟨by simp [hvalue], _, hentry⟩ hfails

/-- Setting a value leaves the sections mappings. -/
theorem isMapping_write {config : Mapping} {k k' : Key} (h : IsMapping config k) (inner : Mapping) :
    IsMapping (Dict.write k (.dict inner) config) k' ↔ IsMapping config k' := by
  unfold IsMapping
  rw [entry_write]
  split
  · rename_i hk
    subst hk
    exact iff_of_true ⟨inner, rfl⟩ h
  · rfl

theorem works_write {other : Override} {config : Mapping} {k : Key} (h : IsMapping config k)
    (inner : Mapping) :
    other.Works (Dict.write k (.dict inner) config) ↔ other.Works config :=
  ⟨fun hw => ⟨hw.parses, (isMapping_write h inner).mp hw.section_is_mapping⟩,
    fun hw => ⟨hw.parses, (isMapping_write h inner).mpr hw.section_is_mapping⟩⟩

/-- What is left of the copy when all values were set. -/
structure SetEach (base : Mapping) (d c : Nat) (s : Sharing Key Leaf) (overrides : List Override)
    (heap' : Memory) (s' : Sharing Key Leaf) : Prop where
  shares : Shares heap' d c s'
  copyOf : CopyOf base s'
  updated : Updated s s'
  shown : overridden overrides s.shown = some s'.shown

/-- The values are set, each in its section. -/
theorem exec_set_each (h : Shares heap d c s) (hcopy : CopyOf base s) {overrides : List Override}
    (hworks : ∀ o ∈ overrides, o.Works s.shown) :
    ∃ heap' s', exec (set_each c overrides) heap = (.ok (), heap') ∧
      SetEach base d c s overrides heap' s' := by
  induction overrides generalizing heap s with
  | nil => exact ⟨heap, s, rfl, h, hcopy, .refl s, rfl⟩
  | cons o overrides ih =>
    obtain ⟨hparses, hmapping⟩ := hworks o List.mem_cons_self
    obtain ⟨x, hx⟩ := Option.ne_none_iff_exists'.mp hparses
    obtain ⟨inner, hentry⟩ := hmapping
    obtain ⟨heap₁, hexec, hshares⟩ := exec_set h hx hentry
    have hthere : entry (key o.part) s.shown ≠ none := by simp [hentry]
    have hshown := Sharing.shown_update hcopy.nodup
      (.dict (Dict.write (key o.name) (.leaf x.leaf) inner)) hthere
    obtain ⟨heap', s', hrest, hset⟩ := ih hshares (hcopy.update _ _) fun o' ho' => by
      rw [hshown, works_write ⟨inner, hentry⟩]
      exact hworks o' (List.mem_cons_of_mem _ ho')
    refine ⟨heap', s', ?_, hset.shares, hset.copyOf,
      (updated_update hthere _).trans hset.updated, ?_⟩
    · unfold set_each
      rw [exec_bind_ok _ hexec, hrest]
    · rw [overridden, hx, Option.bind_eq_bind, Option.bind_some, overlay_setting hentry, ← hshown]
      exact hset.shown

theorem exec_set_each_raises (h : Shares heap d c s) (hcopy : CopyOf base s)
    {overrides : List Override} (hfails : ∃ o ∈ overrides, ¬ o.Works s.shown) :
    ∃ e heap', exec (set_each c overrides) heap = (.error e, heap') := by
  induction overrides generalizing heap s with
  | nil => simp at hfails
  | cons o overrides ih =>
    unfold set_each
    by_cases hworks : o.Works s.shown
    · obtain ⟨hparses, inner, hentry⟩ := hworks
      obtain ⟨x, hx⟩ := Option.ne_none_iff_exists'.mp hparses
      obtain ⟨heap₁, hexec, hshares⟩ := exec_set h hx hentry
      have hthere : entry (key o.part) s.shown ≠ none := by simp [hentry]
      have hshown := Sharing.shown_update hcopy.nodup
        (.dict (Dict.write (key o.name) (.leaf x.leaf) inner)) hthere
      rw [exec_bind_ok _ hexec]
      apply ih hshares (hcopy.update _ _)
      obtain ⟨o', ho', hfail⟩ := hfails
      rcases List.mem_cons.mp ho' with rfl | ho'
      · exact absurd ⟨hparses, inner, hentry⟩ hfail
      · refine ⟨o', ho', ?_⟩
        rwa [hshown, works_write ⟨inner, hentry⟩]
    · obtain ⟨e, heap', hexec⟩ := exec_set_raises h hworks
      exact ⟨e, heap', exec_bind_error _ hexec⟩

end

/-! ## One call -/

theorem exec_merge_file {heap : Memory} {d c : Nat} {s : Sharing Key Leaf}
    (h : Shares heap d c s) (file : File) :
    ∃ heap', exec (merge_file c file) heap = (.ok (), heap') ∧
      Shares heap' d c (merged s file.user_config) := by
  cases file with
  | mapping user_config tidy => exact ⟨_, rfl, shares_deep_merge h user_config⟩
  | _ => exact ⟨heap, rfl, h⟩

/-- A section of the base is a mapping still, unless it was replaced. -/
theorem isMapping_overlay_iff {base above : Mapping} (hnodup : (above.map Prod.fst).Nodup) {k : Key}
    (h : IsMapping base k) : IsMapping (overlay base above) k ↔ ¬ Replaces above k := by
  obtain ⟨inner, hbase⟩ := h
  unfold IsMapping Replaces
  rw [entry_overlay hnodup]
  rcases hover : entry k above with _ | x | inside
  · simp [hbase]
  · by_cases hx : x = .null
    · simp [overlay_entry, hx, hbase]
    · simp [overlay_entry, hx, entry_write]
  · simp [overlay_entry, hbase, entry_write]

/-- The base has sections, and the environment writes into no others. -/
structure Sections (int : Str → Option Int) (base : Mapping) : Prop where
  nodup : (base.map Prod.fst).Nodup
  mappings : ∀ k ∈ base.map Prod.fst, IsMapping base k
  parts : ∀ env : Environ, ∀ o ∈ env.overrides int, key o.part ∈ base.map Prod.fst

/-- Every number that is set parses, and no value is set in a section that the
file replaces. -/
def Settable (file : File) (overrides : List Override) : Prop :=
  ∀ o ∈ overrides, o.value ≠ none ∧ ¬ Replaces file.user_config (key o.part)

/-- What a call leaves: the copy shows what it should, and each section of the
original is that of the copy, unless the file replaced it. -/
structure Loaded (int : Str → Option Int) (base : Mapping) (call : Call) (c : Nat) (heap' : Memory)
    (s' : Sharing Key Leaf) : Prop where
  shares : Shares heap' DEFAULT_CONFIG c s'
  copyOf : CopyOf base s'
  expected : call.expected int base = some s'.shown
  kept : ∀ k ∈ base.map Prod.fst, Replaces call.file.user_config k →
    entry k s'.original = entry k base
  shared : ∀ k ∈ base.map Prod.fst, ¬ Replaces call.file.user_config k →
    entry k s'.original = entry k s'.shown

section

variable {int : Str → Option Int} {base : Mapping} {heap : Memory} {own : Finset Nat}

theorem works_overlay_iff (hsections : Sections int base) (file : File) {o : Override}
    (hpart : key o.part ∈ base.map Prod.fst) :
    o.Works (overlay base file.user_config) ↔
      o.value ≠ none ∧ ¬ Replaces file.user_config (key o.part) := by
  have hmapping := isMapping_overlay_iff file.nodup (hsections.mappings _ hpart)
  exact ⟨fun h => ⟨h.parses, hmapping.mp h.section_is_mapping⟩,
    fun h => ⟨h.1, hmapping.mpr h.2⟩⟩

/-- Up to the first variable: the copy, with the file merged into it. -/
theorem exec_load_config (hsections : Sections int base)
    (h : Holds heap (.dict DEFAULT_CONFIG) (.dict base) own) (call : Call) :
    ∃ c heap₁, Shares heap₁ DEFAULT_CONFIG c (merged (copied base) call.file.user_config) ∧
      exec (load_config int call.file call.env) heap =
        exec (do set_each c (call.env.overrides int); return c) heap₁ := by
  obtain ⟨heap₁, hexec, hshares⟩ :=
    exec_merge_file (shares_copy h hsections.nodup) call.file
  refine ⟨(heap.copy DEFAULT_CONFIG).1, heap₁, hshares, ?_⟩
  have hcopy : exec (copy DEFAULT_CONFIG) heap =
      (.ok (heap.copy DEFAULT_CONFIG).1, (heap.copy DEFAULT_CONFIG).2) := rfl
  unfold load_config
  rw [exec_bind_ok _ hcopy, exec_bind_ok _ hexec]

theorem shown_merged_copied (hsections : Sections int base) (above : Mapping) :
    (merged (copied base) above).shown = overlay base above := by
  rw [shown_merged (copyOf_copied hsections.nodup), shown_copied hsections.nodup]

/-- The values are set in the copy that the file was merged into, -/
theorem exec_set_each_merged (hsections : Sections int base) {d c : Nat} {file : File}
    (h : Shares heap d c (merged (copied base) file.user_config)) {overrides : List Override}
    (hparts : ∀ o ∈ overrides, key o.part ∈ base.map Prod.fst)
    (hsettable : Settable file overrides) :
    ∃ heap' s', exec (set_each c overrides) heap = (.ok (), heap') ∧
      SetEach base d c (merged (copied base) file.user_config) overrides heap' s' := by
  apply exec_set_each h ((copyOf_copied hsections.nodup).merged file.user_config)
  intro o ho
  rw [shown_merged_copied hsections]
  exact (works_overlay_iff hsections file (hparts o ho)).mpr (hsettable o ho)

/-- or one of them cannot be set. -/
theorem exec_set_each_merged_raises (hsections : Sections int base) {d c : Nat} {file : File}
    (h : Shares heap d c (merged (copied base) file.user_config)) {overrides : List Override}
    (hparts : ∀ o ∈ overrides, key o.part ∈ base.map Prod.fst)
    (hfails : ¬ Settable file overrides) :
    ∃ e heap', exec (set_each c overrides) heap = (.error e, heap') := by
  unfold Settable at hfails
  push Not at hfails
  obtain ⟨o, ho, hfail⟩ := hfails
  have hworks : ¬ o.Works (merged (copied base) file.user_config).shown := by
    rw [shown_merged_copied hsections, works_overlay_iff hsections file (hparts o ho)]
    exact fun hw => hw.2 (hfail hw.1)
  exact exec_set_each_raises h ((copyOf_copied hsections.nodup).merged file.user_config)
    ⟨o, ho, hworks⟩

theorem load_config_returns (hsections : Sections int base)
    (h : Holds heap (.dict DEFAULT_CONFIG) (.dict base) own) {call : Call}
    (hloads : Settable call.file (call.env.overrides int)) :
    ∃ c heap' s', exec (load_config int call.file call.env) heap = (.ok c, heap') ∧
      Loaded int base call c heap' s' := by
  obtain ⟨c, heap₁, hshares, hexec⟩ := exec_load_config hsections h call
  obtain ⟨heap', s', hset, hafter⟩ :=
    exec_set_each_merged hsections hshares (hsections.parts call.env) hloads
  refine ⟨c, heap', s', ?_, hafter.shares, hafter.copyOf, ?_, fun k hk hreplaces => ?_,
    fun k hk hkeeps => ?_⟩
  · rw [hexec, exec_bind_ok _ hset]
    rfl
  · unfold Call.expected
    rw [← shown_merged_copied hsections]
    exact hafter.shown
  · obtain ⟨hkept, x, hcopy⟩ := kept_merged call.file.nodup hreplaces base
    refine (hafter.updated.kept k ?_).trans hkept
    simp [hcopy]
  · obtain ⟨inner, hbase⟩ := hsections.mappings k hk
    have hshared := (hafter.updated.shared k).mpr (shared_merged call.file.nodup hbase hkeeps)
    have hthere : entry k s'.original ≠ none := by
      have hmem : k ∈ s'.original.map Prod.fst := by
        rw [hafter.copyOf.keys]
        exact hk
      exact entry_ne_none hmem
    obtain ⟨v, hv⟩ := Option.ne_none_iff_exists'.mp hthere
    rw [Sharing.entry_shown, hshared, Option.map_some, shared_value, hv]
    rfl

theorem load_config_raises (hsections : Sections int base)
    (h : Holds heap (.dict DEFAULT_CONFIG) (.dict base) own) {call : Call}
    (hfails : ¬ Settable call.file (call.env.overrides int)) :
    ∃ e heap', exec (load_config int call.file call.env) heap = (.error e, heap') := by
  obtain ⟨c, heap₁, hshares, hexec⟩ := exec_load_config hsections h call
  obtain ⟨e, heap', hset⟩ :=
    exec_set_each_merged_raises hsections hshares (hsections.parts call.env) hfails
  refine ⟨e, heap', ?_⟩
  rw [hexec, exec_bind_error _ hset]

end

/-! ## Runs -/

/-- The call returns what it should, and leaves the defaults as they were. -/
def Call.Fresh (int : Str → Option Int) (base : Mapping) (call : Call) (heap : Memory) : Prop :=
  ∃ c heap' config, exec (load_config int call.file call.env) heap = (.ok c, heap') ∧
    call.expected int base = some config ∧ Shows heap' (.dict c) (.dict config) ∧
    Shows heap' (.dict DEFAULT_CONFIG) (.dict base)

/-- The call returns, and what it should return has each section that the file
does not replace as the defaults have it. -/
structure Call.Harmless (int : Str → Option Int) (base : Mapping) (call : Call) : Prop where
  loads : Settable call.file (call.env.overrides int)
  unchanged : ∀ config, call.expected int base = some config → ∀ k ∈ base.map Prod.fst,
    ¬ Replaces call.file.user_config k → entry k config = entry k base

section

variable {int : Str → Option Int} {base : Mapping} {heap : Memory} {own : Finset Nat}

theorem fresh_iff_harmless (hsections : Sections int base)
    (h : Holds heap (.dict DEFAULT_CONFIG) (.dict base) own) (call : Call) :
    call.Fresh int base heap ↔ call.Harmless int base := by
  by_cases hloads : Settable call.file (call.env.overrides int)
  · obtain ⟨c, heap', s', hexec, hloaded⟩ := load_config_returns hsections h hloads
    obtain ⟨own', horiginal⟩ := hloaded.shares.holds_original
    constructor
    · rintro ⟨c', heap'', config, hexec', hexpected, hshows, hdefaults⟩
      cases hexec.symm.trans hexec'
      have hsame : s'.original = base := by
        have hunique := horiginal.shows.unique hdefaults
        simpa using hunique
      refine ⟨hloads, fun config' hconfig' k hk hkeeps => ?_⟩
      cases hloaded.expected.symm.trans hconfig'
      rw [← hloaded.shared k hk hkeeps, hsame]
    · intro hharmless
      have hsame : s'.original = base := by
        refine eq_of_entries hloaded.copyOf.keys ?_ ?_
        · rw [hloaded.copyOf.keys]
          exact hsections.nodup
        · rw [hloaded.copyOf.keys]
          intro k hk
          by_cases hreplaces : Replaces call.file.user_config k
          · exact hloaded.kept k hk hreplaces
          · rw [hloaded.shared k hk hreplaces]
            exact hharmless.unchanged s'.shown hloaded.expected k hk hreplaces
      rw [hsame] at horiginal
      exact ⟨c, heap', s'.shown, hexec, hloaded.expected, hloaded.shares.shows_copy,
        horiginal.shows⟩
  · obtain ⟨e, heap', hexec⟩ := load_config_raises hsections h hloads
    constructor
    · rintro ⟨c', heap'', config, hexec', -⟩
      cases hexec.symm.trans hexec'
    · exact fun hharmless => absurd hharmless.loads hloads

/-- The next call finds the defaults in memory again. -/
theorem Call.Fresh.holds (hsections : Sections int base)
    (h : Holds heap (.dict DEFAULT_CONFIG) (.dict base) own) {call : Call}
    (hfresh : call.Fresh int base heap) :
    ∃ own', Holds (exec (load_config int call.file call.env) heap).2 (.dict DEFAULT_CONFIG)
      (.dict base) own' := by
  have hloads := ((fresh_iff_harmless hsections h call).mp hfresh).loads
  obtain ⟨c, heap', s', hexec, hloaded⟩ := load_config_returns hsections h hloads
  obtain ⟨own', horiginal⟩ := hloaded.shares.holds_original
  obtain ⟨c', heap'', config, hexec', -, -, hdefaults⟩ := hfresh
  cases hexec.symm.trans hexec'
  rw [hexec, ← horiginal.shows.unique hdefaults]
  exact ⟨own', horiginal⟩

/-- The calls, one after the other. -/
def run (int : Str → Option Int) (calls : List Call) (heap : Memory) : Memory :=
  calls.foldl (fun heap call => (exec (load_config int call.file call.env) heap).2) heap

theorem run_append_singleton (calls : List Call) (call : Call) (heap : Memory) :
    run int (calls ++ [call]) heap =
      (exec (load_config int call.file call.env) (run int calls heap)).2 := by
  simp [run, List.foldl_append]

/-- While all calls were fresh, the defaults are in memory. -/
theorem holds_run_of_fresh (hsections : Sections int base)
    (h : Holds heap (.dict DEFAULT_CONFIG) (.dict base) own) (calls : List Call)
    (hfresh : ∀ before call after, calls = before ++ call :: after →
      call.Fresh int base (run int before heap)) :
    ∃ own', Holds (run int calls heap) (.dict DEFAULT_CONFIG) (.dict base) own' := by
  induction calls using List.reverseRecOn with
  | nil => exact ⟨own, h⟩
  | append_singleton calls call ih =>
    obtain ⟨own', hholds⟩ := ih fun before c after heq =>
      hfresh before c (after ++ [call]) (by simp [heq])
    rw [run_append_singleton]
    exact (hfresh calls call [] rfl).holds hsections hholds

theorem holds_run_of_harmless (hsections : Sections int base)
    (h : Holds heap (.dict DEFAULT_CONFIG) (.dict base) own) (calls : List Call)
    (hharmless : ∀ call ∈ calls, call.Harmless int base) :
    ∃ own', Holds (run int calls heap) (.dict DEFAULT_CONFIG) (.dict base) own' := by
  induction calls using List.reverseRecOn with
  | nil => exact ⟨own, h⟩
  | append_singleton calls call ih =>
    obtain ⟨own', hholds⟩ := ih fun c hc => hharmless c (List.mem_append_left _ hc)
    have hfresh := (fresh_iff_harmless hsections hholds call).mpr
      (hharmless call (by simp))
    rw [run_append_singleton]
    exact hfresh.holds hsections hholds

end

theorem sections_defaults (int : Str → Option Int) (data_dir : Str) :
    Sections int (defaults data_dir) where
  nodup := by
    simp only [defaults, List.map_cons, List.map_nil]
    decide
  mappings k hk := by
    simp only [defaults, List.map_cons, List.map_nil, List.mem_cons, List.not_mem_nil,
      or_false] at hk
    rcases hk with rfl | rfl | rfl | rfl | rfl <;> exact ⟨_, rfl⟩
  parts env o ho := by
    have hkeys : (defaults data_dir).map Prod.fst =
      [key "node", key "mesh", key "discovery", key "api", key "logging"] := rfl
    rw [hkeys]
    simp only [Environ.overrides, List.mem_append, List.mem_map, List.mem_flatMap,
      Option.mem_toList, List.mem_cons, List.not_mem_nil, or_false] at ho
    rcases ho with (((⟨s, -, rfl⟩ | ⟨s, -, rfl | rfl⟩) | ⟨s, -, rfl⟩) | ⟨s, -, rfl⟩) |
      ⟨s, -, rfl⟩ <;> simp

/-- For every sequence of calls, each call returns the defaults with its own
file and its own environment laid over them, and leaves the defaults as they
were, if and only if no call of the sequence changes a section of them. -/
theorem each_call_returns_its_own_configuration_iff (int : Str → Option Int) (data_dir : Str)
    (calls : List Call) :
    (∀ before call after, calls = before ++ call :: after →
        call.Fresh int (defaults data_dir) (run int before (imported data_dir))) ↔
      ∀ call ∈ calls, call.Harmless int (defaults data_dir) := by
  have hsections := sections_defaults int data_dir
  obtain ⟨own, hholds⟩ := holds_imported data_dir
  constructor
  · intro hfresh call hcall
    obtain ⟨before, after, hsplit⟩ := List.append_of_mem hcall
    obtain ⟨own', hbefore⟩ := holds_run_of_fresh hsections hholds before fun b c a heq =>
      hfresh b c (a ++ call :: after) (by simp [hsplit, heq])
    exact (fresh_iff_harmless hsections hbefore call).mp (hfresh before call after hsplit)
  · intro hharmless before call after hsplit
    obtain ⟨own', hbefore⟩ := holds_run_of_harmless hsections hholds before fun c hc =>
      hharmless c (by simp [hsplit, hc])
    exact (fresh_iff_harmless hsections hbefore call).mpr (hharmless call (by simp [hsplit]))

end daemon.config

/-! ## A port that stays -/

namespace daemon.config.standIn

open python python.heap

/-- `int` of digits. -/
def int (s : Str) : Option Int :=
  if s ≠ [] ∧ s.all Char.isDigit then
    some (s.foldl (fun n c => 10 * n + (c.toNat - 48)) 0 : Nat)
  else none

/-- A file that sets the port of the node, and no variable. -/
def port_9000 : Call where
  file := .mapping [(key "node", .dict [(key "port", .leaf (.int 9000))])] <| by
    refine .dict (by decide) fun e he => ?_
    rw [List.mem_singleton.mp he]
    refine .dict (by decide) fun e he => ?_
    rw [List.mem_singleton.mp he]
    exact .leaf _
  env := ⟨fun _ => none⟩

/-- Neither a file nor a variable. -/
def nothing : Call := ⟨.absent, ⟨fun _ => none⟩⟩

def port_path : List Key := [key "node", key "port"]

/-- The call without a file returns the port of the file that the call before
it read, and not that of the defaults. -/
theorem the_next_call_returns_the_port_of_another_file :
    (match exec (load_config int nothing.file nothing.env) (run int [port_9000] (imported [])) with
      | (.ok c, heap) => (heap.read 3 (.dict c)).bind (at_path · port_path)
      | (.error _, _) => none) = some (.leaf (.int 9000)) ∧
    (nothing.expected int (defaults [])).bind (fun config => at_path (.dict config) port_path) =
      some (.leaf (.int 8765)) ∧
    ¬ ∀ before call after, [port_9000, nothing] = before ++ call :: after →
      call.Fresh int (defaults []) (run int before (imported [])) := by
  refine ⟨rfl, rfl, fun hfresh => ?_⟩
  obtain ⟨own, hholds⟩ := holds_imported []
  have hharmless := (fresh_iff_harmless (sections_defaults int []) hholds port_9000).mp
    (hfresh [] port_9000 [nothing] rfl)
  have hkeeps : ¬ Replaces port_9000.file.user_config (key "node") := by
    rintro ⟨x, hx, hentry⟩
    cases hentry
  have hnode := hharmless.unchanged _ rfl (key "node") (by decide) hkeeps
  have hport := congrArg (fun v => v.bind (at_path · [key "port"])) hnode
  cases hport

end daemon.config.standIn
