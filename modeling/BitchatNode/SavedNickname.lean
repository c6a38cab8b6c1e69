-- `daemon/__main__.py` up to the node of the daemon: the nickname comes from
-- the configuration, which always has one, and never from the saved state.
import BitchatNode.Config
import BitchatNode.Restart
import BitchatNode.Runs

namespace daemon.config

open python python.heap

/-! ## The command line -/

/-- What `argparse` makes of the command line. The path of the file is not
among it. -/
structure Args where
  port : Option Int
  api_port : Option Int
  nickname : Option Str
  debug : Bool

/-- A call of `main`, and what it finds. -/
structure Invocation extends Call where
  args : Args

/-- The overrides of `main`, in the order of the source. -/
def Args.overrides (args : Args) : List Override :=
  ((args.port.filter (· ≠ 0)).toList.map fun n => ⟨"node", "port", some (.int n)⟩) ++
  ((args.api_port.filter (· ≠ 0)).toList.flatMap fun n =>
    [⟨"api", "rest_port", some (.int n)⟩, ⟨"api", "ws_port", some (.int n)⟩]) ++
  ((args.nickname.filter (· ≠ [])).toList.map fun s => ⟨"node", "nickname", some (.str s)⟩) ++
  (if args.debug then [⟨"logging", "level", some (.str "DEBUG".toList)⟩] else [])

/-- `config.get(part, {}).get(name)`. -/
def get_in (heap : Memory) (config : Nat) (part name : String) :
    Except ConfigError (Option (Ref Leaf)) :=
  match heap.item config (key part) with
  | none => .ok none
  | some (.leaf _) => .error .AttributeError
  | some (.dict a) => .ok (heap.item a (key name))

section

-- Whether the logging module takes a level and can open a file, `null` for none
variable (takes : Str → Leaf → Bool)

/-- The level where the configuration has none. -/
def INFO : Leaf := .str "INFO".toList

/-- `setup_logging`. -/
def setup_logging (heap : Memory) (config : Nat) : Except ConfigError Unit := do
  let level ← get_in heap config "logging" "level"
  match level.getD (.leaf INFO) with
  | .leaf (.str level) =>
    let file ← get_in heap config "logging" "file"
    match file.getD (.leaf .null) with
    | .leaf file => if takes level file then .ok () else .error .ValueError
    -- an empty dictionary counts as false, and another one is no path
    | .dict a =>
      if (heap[a]?.getD []).isEmpty && takes level .null then .ok () else .error .TypeError
  -- no other value can be made upper case
  | _ => .error .AttributeError

variable (int : Str → Option Int)

/-- `main` up to `setup_logging`. -/
def configure (call : Invocation) : Py ConfigError Memory Nat := do
  let config ← load_config int call.file call.env
  set_each config call.args.overrides
  return config

end

/-- `config.get("node", {}).get("nickname")`. The nicknames of the model are
strings, and any other value counts as an error here. -/
def config_nickname (heap : Memory) (config : Nat) : Except ConfigError (Option Str) := do
  let nickname ← get_in heap config "node" "nickname"
  match nickname.getD (.leaf .null) with
  | .leaf .null => .ok none
  | .leaf (.str s) => .ok (some s)
  | _ => .error .TypeError

/-! ## What is read -/

section

variable {heap : Memory} {d c : Nat} {s : Sharing Key Leaf} {part name : String} {inner : Mapping}

/-- What is read in a section, with a default, holds what the section shows. -/
theorem get_in_getD (h : Shares heap d c s)
    (hentry : entry (key part) s.shown = some (.dict inner)) (name : String) (x : Leaf) :
    ∃ o own, get_in heap c part name = .ok o ∧
      Holds heap (o.getD (.leaf x)) ((entry (key name) inner).getD (.leaf x)) own := by
  rcases h.focus (key part) with ⟨-, hnone⟩ | ⟨r, t, own, hitem, hentry', hholds, -⟩
  · rw [hentry] at hnone
    cases hnone
  · rw [hentry] at hentry'
    cases hentry'
    rcases r with y | a
    · cases hholds
    · have hget : get_in heap c part name = .ok (heap.item a (key name)) := by
        unfold get_in
        rw [hitem]
      rcases hholds.item (key name) with ⟨hname, hnone⟩ | ⟨r, t, own', hname, hsome, hvalue⟩
      · refine ⟨none, ∅, hget.trans (by rw [hname]), ?_⟩
        rw [hnone]
        exact .leaf x
      · refine ⟨some r, own', hget.trans (by rw [hname]), ?_⟩
        rw [hsome]
        exact hvalue

theorem get_in_error (h : Shares heap d c s) {x : Leaf}
    (hentry : entry (key part) s.shown = some (.leaf x)) (name : String) :
    get_in heap c part name = .error .AttributeError := by
  unfold get_in
  rcases h.focus (key part) with ⟨-, hnone⟩ | ⟨r, t, own, hitem, hentry', hholds, -⟩
  · rw [hentry] at hnone
    cases hnone
  · rw [hentry] at hentry'
    cases hentry'
    cases hholds
    rw [hitem]

/-- What `setup_logging` asks of a configuration. -/
def TakesLogging (takes : Str → Leaf → Bool) (config : Mapping) : Prop :=
  ∃ inner level, entry (key "logging") config = some (.dict inner) ∧
    (entry (key "level") inner).getD (.leaf INFO) = .leaf (.str level) ∧
    match (entry (key "file") inner).getD (.leaf .null) with
    | .leaf file => takes level file
    | .dict entries => entries = [] ∧ takes level .null

theorem holds_leaf {r : Ref Leaf} {x : Leaf} {own : Finset Nat} (h : Holds heap r (.leaf x) own) :
    r = .leaf x := by
  cases h
  rfl

/-- A dictionary is empty if its tree is. -/
theorem holds_dict {r : Ref Leaf} {entries : Mapping} {own : Finset Nat}
    (h : Holds heap r (.dict entries) own) :
    ∃ a, r = .dict a ∧ ((heap[a]?.getD []).isEmpty = true ↔ entries = []) := by
  cases h with
  | dict read all apart =>
    refine ⟨_, rfl, ?_⟩
    rw [read, Option.getD_some]
    cases all <;> simp

theorem setup_logging_iff (h : Shares heap d c s) (takes : Str → Leaf → Bool)
    (hthere : entry (key "logging") s.shown ≠ none) :
    setup_logging takes heap c = .ok () ↔ TakesLogging takes s.shown := by
  obtain ⟨t, hentry⟩ := Option.ne_none_iff_exists'.mp hthere
  unfold setup_logging TakesLogging
  cases t with
  | leaf x =>
    rw [get_in_error h hentry]
    simp [hentry]
  | dict inner =>
    obtain ⟨level, own, hlevel, hholds⟩ :=
      get_in_getD h hentry "level" INFO
    obtain ⟨file, own', hfile, hholds'⟩ := get_in_getD h hentry "file" .null
    rw [hlevel, hfile]
    simp only [ok_bind, hentry, Option.some.injEq, Tree.dict.injEq, exists_and_left]
    rcases ht : (entry (key "level") inner).getD (.leaf INFO) with x | entries
    · rw [ht] at hholds
      rw [holds_leaf hholds]
      cases x with
      | str level =>
        rcases ht' : (entry (key "file") inner).getD (.leaf .null) with y | entries
        · rw [ht'] at hholds'
          rw [holds_leaf hholds']
          simp [ht, ht']
        · rw [ht'] at hholds'
          obtain ⟨a, hr, hempty⟩ := holds_dict hholds'
          rw [hr]
          simp [ht, ht', hempty]
      | _ => simp [ht]
    · rw [ht] at hholds
      obtain ⟨a, hr, -⟩ := holds_dict hholds
      rw [hr]
      simp [ht]

end

/-! ## What is configured -/

theorem exec_set_each_append (c : Nat) (xs ys : List Override) (heap : Memory) :
    exec (set_each c (xs ++ ys)) heap = exec (do set_each c xs; set_each c ys) heap := by
  induction xs generalizing heap with
  | nil => rfl
  | cons o xs ih =>
    simp only [List.cons_append, set_each, bind_assoc]
    rw [exec_bind, exec_bind]
    rcases exec (o.set c) heap with ⟨r, heap'⟩
    cases r with
    | ok _ => exact ih heap'
    | error _ => rfl

/-- All overrides, in the order in which they are made. -/
def Invocation.overrides (int : Str → Option Int) (self : Invocation) : List Override :=
  self.env.overrides int ++ self.args.overrides

/-- The configuration as it should be. -/
def Invocation.configuration (int : Str → Option Int) (base : Mapping) (self : Invocation) :
    Option Mapping := overridden (self.overrides int) (overlay base self.file.user_config)

section

variable {int : Str → Option Int} (data_dir : Str)

/-- The command line, too, writes into sections of the defaults. -/
theorem part_mem_defaults (int : Str → Option Int) (call : Invocation) :
    ∀ o ∈ call.overrides int, key o.part ∈ (defaults data_dir).map Prod.fst := by
  intro o ho
  rcases List.mem_append.mp ho with ho | ho
  · exact (sections_defaults int data_dir).parts call.env o ho
  · have hkeys : (defaults data_dir).map Prod.fst =
      [key "node", key "mesh", key "discovery", key "api", key "logging"] := rfl
    rw [hkeys]
    simp only [Args.overrides, List.mem_append, List.mem_map, List.mem_flatMap,
      Option.mem_toList, List.mem_cons, List.not_mem_nil, or_false] at ho
    rcases ho with ((⟨n, -, rfl⟩ | ⟨n, -, rfl | rfl⟩) | ⟨s, -, rfl⟩) | ho
    · simp
    · simp
    · simp
    · simp
    · split at ho
      · rw [List.mem_singleton.mp ho]
        simp
      · cases ho

theorem exec_configure (call : Invocation) :
    ∃ c heap₁, Shares heap₁ DEFAULT_CONFIG c
        (merged (copied (defaults data_dir)) call.file.user_config) ∧
      exec (configure int call) (imported data_dir) =
        exec (do set_each c (call.overrides int); return c) heap₁ := by
  obtain ⟨own, hholds⟩ := holds_imported data_dir
  obtain ⟨c, heap₁, hshares, hload⟩ :=
    exec_load_config (sections_defaults int data_dir) hholds call.toCall
  refine ⟨c, heap₁, hshares, ?_⟩
  unfold configure Invocation.overrides
  rw [exec_bind, hload, exec_bind, exec_bind, exec_set_each_append, exec_bind]
  rcases exec (set_each c (call.env.overrides int)) heap₁ with ⟨r, heap₂⟩
  cases r with
  | ok _ => simp only [exec_pure, exec_bind]
  | error _ => rfl

theorem configure_returns {call : Invocation}
    (hsettable : Settable call.file (call.overrides int)) :
    ∃ c heap' s', exec (configure int call) (imported data_dir) = (.ok c, heap') ∧
      Shares heap' DEFAULT_CONFIG c s' ∧
      call.configuration int (defaults data_dir) = some s'.shown := by
  have hsections := sections_defaults int data_dir
  obtain ⟨c, heap₁, hshares, hexec⟩ := exec_configure data_dir call
  obtain ⟨heap', s', hset, hafter⟩ :=
    exec_set_each_merged hsections hshares (part_mem_defaults data_dir int call) hsettable
  refine ⟨c, heap', s', ?_, hafter.shares, ?_⟩
  · rw [hexec, exec_bind_ok _ hset]
    rfl
  · unfold Invocation.configuration
    rw [← shown_merged_copied hsections]
    exact hafter.shown

theorem configure_raises {call : Invocation}
    (hfails : ¬ Settable call.file (call.overrides int)) :
    ∃ e heap', exec (configure int call) (imported data_dir) = (.error e, heap') := by
  have hsections := sections_defaults int data_dir
  obtain ⟨c, heap₁, hshares, hexec⟩ := exec_configure data_dir call
  obtain ⟨e, heap', hset⟩ :=
    exec_set_each_merged_raises hsections hshares (part_mem_defaults data_dir int call) hfails
  refine ⟨e, heap', ?_⟩
  rw [hexec, exec_bind_error _ hset]

end

/-! ## A nickname that is not named -/

def nickname_path : List Key := [key "node", key "nickname"]

/-- Neither the file nor the environment nor the command line names one. -/
structure Unnamed (call : Invocation) : Prop where
  file : ∀ v, at_path (.dict call.file.user_config) nickname_path = some v → v = .leaf .null
  env : call.env.true? "BITCHAT_NICKNAME" = none
  args : call.args.nickname.getD [] = []

/-- It sets something else. -/
def Override.Elsewhere (override : Override) : Prop :=
  override.part ≠ "node" ∨ override.name ≠ "nickname"

theorem Unnamed.elsewhere {call : Invocation} (h : Unnamed call) (int : Str → Option Int) :
    ∀ o ∈ call.overrides int, o.Elsewhere := by
  intro o ho
  have hargs : call.args.nickname.filter (· ≠ []) = none := by
    have hempty := h.args
    rcases hn : call.args.nickname with _ | n
    · rfl
    · rw [hn, Option.getD_some] at hempty
      simp [hempty]
  unfold Override.Elsewhere
  rcases List.mem_append.mp ho with ho | ho
  · simp only [Environ.overrides, h.env, List.mem_append, List.mem_map, List.mem_flatMap,
      Option.mem_toList, List.mem_cons, List.not_mem_nil, or_false] at ho
    rcases ho with (((⟨s, -, rfl⟩ | ⟨s, -, rfl | rfl⟩) | ⟨s, hs, -⟩) | ⟨s, -, rfl⟩) | ⟨s, -, rfl⟩
    · simp
    · simp
    · simp
    · cases hs
    · simp
    · simp
  · simp only [Args.overrides, hargs, List.mem_append, List.mem_map, List.mem_flatMap,
      Option.mem_toList, List.mem_cons, List.not_mem_nil, or_false] at ho
    rcases ho with ((⟨n, -, rfl⟩ | ⟨n, -, rfl | rfl⟩) | ⟨s, hs, -⟩) | ho
    · simp
    · simp
    · simp
    · cases hs
    · split at ho
      · rw [List.mem_singleton.mp ho]
        simp
      · cases ho

theorem key_inj {name name' : String} : key name = key name' ↔ name = name' := by
  unfold key
  rw [Key.str.injEq]
  exact String.toList_inj

theorem passes_setting {o : Override} (h : o.Elsewhere) (v : Value) :
    Passes [(key o.part, .dict [(key o.name, v)])] nickname_path := by
  by_cases hpart : o.part = "node"
  · have hname : o.name ≠ "nickname" := h.resolve_left fun hne => hne hpart
    have hnode : entry (key "node") [(key o.part, Tree.dict [(key o.name, v)])] =
        some (.dict [(key o.name, v)]) := by
      simp [entry, hpart]
    refine .inside hnode (.absent ?_)
    simp [entry, key_inj, hname]
  · refine .absent ?_
    simp [entry, key_inj, hpart]

theorem at_path_overridden {overrides : List Override} (h : ∀ o ∈ overrides, o.Elsewhere)
    {config config' : Mapping} (hover : overridden overrides config = some config') {x : Leaf}
    (hpath : at_path (.dict config) nickname_path = some (.leaf x)) :
    at_path (.dict config') nickname_path = some (.leaf x) := by
  induction overrides generalizing config with
  | nil =>
    cases hover
    exact hpath
  | cons o overrides ih =>
    rcases hvalue : o.value with _ | y
    · rw [overridden, hvalue] at hover
      cases hover
    · rw [overridden, hvalue, Option.bind_eq_bind, Option.bind_some] at hover
      apply ih (fun o' ho' => h o' (List.mem_cons_of_mem _ ho')) hover
      have htidy : Tidy (.dict [(key o.part, .dict [(key o.name, .leaf y.leaf)])]) := by
        refine .dict (by simp) fun e he => ?_
        rw [List.mem_singleton.mp he]
        refine .dict (by simp) fun e he => ?_
        rw [List.mem_singleton.mp he]
        exact .leaf _
      exact at_path_overlay_of_passes htidy (passes_setting (h o List.mem_cons_self) _) hpath

theorem Unnamed.passes {call : Invocation} (h : Unnamed call)
    (hkeeps : ¬ Replaces call.file.user_config (key "node")) :
    Passes call.file.user_config nickname_path := by
  have hfile := h.file
  rcases hnode : entry (key "node") call.file.user_config with _ | x | inner
  · exact .absent hnode
  · have hnull : x = .null := by
      by_contra hx
      exact hkeeps ⟨x, hx, hnode⟩
    rw [hnull] at hnode
    exact .null hnode
  · refine .inside hnode ?_
    rcases hname : entry (key "nickname") inner with _ | v
    · exact .absent hname
    · have hpath : at_path (.dict call.file.user_config) nickname_path = some v := by
        simp [nickname_path, at_path, hnode, hname]
      rw [hfile v hpath] at hname
      exact .null hname

/-- Then the configuration has the one of the defaults, unless the file puts
something else in the place of the section. -/
theorem Unnamed.at_path_configuration {call : Invocation} (h : Unnamed call)
    (hkeeps : ¬ Replaces call.file.user_config (key "node")) {int : Str → Option Int}
    {data_dir : Str} {config : Mapping}
    (hconfig : call.configuration int (defaults data_dir) = some config) :
    at_path (.dict config) nickname_path = some (.leaf (.str "bitchat-node".toList)) := by
  apply at_path_overridden (h.elsewhere int) hconfig
  exact at_path_overlay_of_passes call.file.tidy (h.passes hkeeps) rfl

/-! ## Reading the configuration -/

theorem entry_overlay_entry_ne_none {base : Mapping} {k : Key} (h : entry k base ≠ none) (k' : Key)
    (v : Value) : entry k (overlay_entry base k' v) ≠ none := by
  have hwrite : ∀ w : Value, entry k (Dict.write k' w base) ≠ none := fun w => by
    rw [entry_write]
    split
    · simp
    · exact h
  cases v with
  | leaf x =>
    unfold overlay_entry
    split
    · exact h
    · exact hwrite _
  | dict above =>
    unfold overlay_entry
    split
    · exact hwrite _
    · exact hwrite _

/-- An overlay takes no key away. -/
theorem entry_overlay_ne_none {base : Mapping} {k : Key} (h : entry k base ≠ none)
    (above : Mapping) : entry k (overlay base above) ≠ none := by
  induction above generalizing base with
  | nil => exact h
  | cons e above ih =>
    rw [overlay]
    exact ih (entry_overlay_entry_ne_none h e.1 e.2)

theorem entry_overridden_ne_none {overrides : List Override} {config config' : Mapping}
    (hover : overridden overrides config = some config') {k : Key} (h : entry k config ≠ none) :
    entry k config' ≠ none := by
  induction overrides generalizing config with
  | nil =>
    cases hover
    exact h
  | cons o overrides ih =>
    rcases hvalue : o.value with _ | x
    · rw [overridden, hvalue] at hover
      cases hover
    · rw [overridden, hvalue, Option.bind_eq_bind, Option.bind_some] at hover
      exact ih hover (entry_overlay_ne_none h _)

/-- Overrides that work leave what is a mapping a mapping, and nothing else. -/
theorem isMapping_overridden_iff {overrides : List Override} {config config' : Mapping}
    (hworks : ∀ o ∈ overrides, o.Works config) (hover : overridden overrides config = some config')
    (k : Key) : IsMapping config' k ↔ IsMapping config k := by
  induction overrides generalizing config with
  | nil =>
    cases hover
    rfl
  | cons o overrides ih =>
    obtain ⟨hparses, hmapping⟩ := hworks o List.mem_cons_self
    obtain ⟨x, hx⟩ := Option.ne_none_iff_exists'.mp hparses
    obtain ⟨inner, hentry⟩ := hmapping
    rw [overridden, hx, Option.bind_eq_bind, Option.bind_some, overlay_setting hentry] at hover
    rw [ih _ hover, isMapping_write ⟨inner, hentry⟩]
    intro o' ho'
    rw [works_write ⟨inner, hentry⟩]
    exact hworks o' (List.mem_cons_of_mem _ ho')

theorem isMapping_configuration_iff {int : Str → Option Int} {data_dir : Str} {call : Invocation}
    (hsettable : Settable call.file (call.overrides int)) {config : Mapping}
    (hconfig : call.configuration int (defaults data_dir) = some config) {k : Key}
    (hk : k ∈ (defaults data_dir).map Prod.fst) :
    IsMapping config k ↔ ¬ Replaces call.file.user_config k := by
  have hsections := sections_defaults int data_dir
  rw [isMapping_overridden_iff _ hconfig,
    isMapping_overlay_iff call.file.nodup (hsections.mappings k hk)]
  intro o ho
  have hpart := part_mem_defaults data_dir int call o ho
  exact (works_overlay_iff hsections call.file hpart).mpr (hsettable o ho)

section

variable {heap : Memory} {d c : Nat} {s : Sharing Key Leaf}

theorem config_nickname_of_at_path (h : Shares heap d c s) {nickname : Str}
    (hpath : at_path (.dict s.shown) nickname_path = some (.leaf (.str nickname))) :
    config_nickname heap c = .ok (some nickname) := by
  simp only [nickname_path, at_path] at hpath
  rcases hnode : entry (key "node") s.shown with _ | x | inner
  · rw [hnode] at hpath
    cases hpath
  · rw [hnode] at hpath
    cases hpath
  · rw [hnode, Option.bind_some, at_path] at hpath
    rcases hname : entry (key "nickname") inner with _ | v
    · rw [hname] at hpath
      cases hpath
    · rw [hname, Option.bind_some, at_path] at hpath
      cases hpath
      obtain ⟨o, own, hget, hholds⟩ := get_in_getD h hnode "nickname" .null
      rw [hname, Option.getD_some] at hholds
      unfold config_nickname
      rw [hget, ok_bind, holds_leaf hholds]

theorem config_nickname_raises (h : Shares heap d c s)
    (hthere : entry (key "node") s.shown ≠ none) (hno : ¬ IsMapping s.shown (key "node")) :
    config_nickname heap c = .error .AttributeError := by
  obtain ⟨t, hnode⟩ := Option.ne_none_iff_exists'.mp hthere
  cases t with
  | leaf x =>
    unfold config_nickname
    rw [get_in_error h hnode, error_bind]
  | dict inner => exact absurd ⟨inner, hnode⟩ hno

end

end daemon.config

namespace daemon

open python python.heap bitchat bitchat.protocol config

variable [Packages]

/-! ## The start of a daemon -/

section

variable (takes : Str → Leaf → Bool) (int : Str → Option Int)

/-- `main` up to the node of the daemon. `saved` is the state file it finds. -/
def start (call : Invocation) (saved : Option StateFile) (my_peer_id : PeerId) (generated : Bytes)
    (static_identity_key : Crypto.PrivateKey) : Py ConfigError Memory MeshNode := do
  let config ← configure int call
  let heap ← get
  outcome (setup_logging takes heap config)
  let nickname ← outcome (config_nickname heap config)
  return .init my_peer_id nickname (load_state saved generated) static_identity_key

/-- Nothing that is set goes wrong, and there is a section `node`. -/
structure Starts (data_dir : Str) (call : Invocation) : Prop where
  settable : Settable call.file (call.overrides int)
  node : ¬ Replaces call.file.user_config (key "node")
  logging : ∀ config, call.configuration int (defaults data_dir) = some config →
    TakesLogging takes config

end

omit [Packages] in
theorem starting_nickname_some {nickname : Str} (h : nickname ≠ []) (saved : Option Str) :
    starting_nickname (some nickname) saved = nickname := by
  simp [starting_nickname, h]

section

variable {takes : Str → Leaf → Bool} {int : Str → Option Int} {data_dir : Str} {call : Invocation}

omit [Packages] in
theorem there_after_configure {config : Mapping}
    (hconfig : call.configuration int (defaults data_dir) = some config) {k : Key}
    (hk : k ∈ (defaults data_dir).map Prod.fst) : entry k config ≠ none :=
  entry_overridden_ne_none hconfig (entry_overlay_ne_none (entry_ne_none hk) _)

theorem exec_start {c : Nat} {heap' : Memory}
    (hexec : exec (configure int call) (imported data_dir) = (.ok c, heap'))
    (saved : Option StateFile) (my_peer_id : PeerId) (generated : Bytes)
    (key' : Crypto.PrivateKey) :
    exec (start takes int call saved my_peer_id generated key') (imported data_dir) =
      exec (do
        outcome (setup_logging takes heap' c)
        let nickname ← outcome (config_nickname heap' c)
        return .init my_peer_id nickname (load_state saved generated) key') heap' := by
  unfold start
  rw [exec_bind_ok _ hexec, exec_bind_ok _ (exec_get heap')]

/-- A node that is named nowhere starts with the nickname of the defaults,
whatever was saved. -/
theorem start_unnamed (hunnamed : Unnamed call) (hstarts : Starts takes int data_dir call)
    (saved : Option StateFile) (my_peer_id : PeerId) (generated : Bytes)
    (key' : Crypto.PrivateKey) :
    ∃ n, (exec (start takes int call saved my_peer_id generated key') (imported data_dir)).1 =
      .ok n ∧ n.nickname = "bitchat-node".toList := by
  obtain ⟨c, heap', s', hexec, hshares, hconfig⟩ := configure_returns data_dir hstarts.settable
  have hlogging : setup_logging takes heap' c = .ok () :=
    (setup_logging_iff hshares takes (there_after_configure hconfig (by simp [defaults]))).mpr
      (hstarts.logging _ hconfig)
  have hnickname := config_nickname_of_at_path hshares
    (hunnamed.at_path_configuration hstarts.node hconfig)
  have hname : "bitchat-node".toList ≠ [] := by decide
  rw [exec_start hexec, hlogging, exec_bind_ok _ (exec_outcome (.ok ()) heap'), hnickname,
    exec_bind_ok _ (exec_outcome (.ok _) heap')]
  exact ⟨_, rfl, starting_nickname_some hname (load_state saved generated).nickname⟩

/-- A daemon that something goes wrong for has no node. -/
theorem start_raises (hfails : ¬ Starts takes int data_dir call) (saved : Option StateFile)
    (my_peer_id : PeerId) (generated : Bytes) (key' : Crypto.PrivateKey) :
    ∃ e, (exec (start takes int call saved my_peer_id generated key') (imported data_dir)).1 =
      .error e := by
  by_cases hsettable : Settable call.file (call.overrides int)
  · obtain ⟨c, heap', s', hexec, hshares, hconfig⟩ := configure_returns data_dir hsettable
    rw [exec_start hexec]
    have hlogging := setup_logging_iff hshares takes
      (there_after_configure hconfig (k := key "logging") (by simp [defaults]))
    rcases hsetup : setup_logging takes heap' c with e | _
    · exact ⟨e, by rw [exec_bind_error _ (exec_outcome (.error e) heap')]⟩
    · have hnode : Replaces call.file.user_config (key "node") := by
        by_contra hkeeps
        refine hfails ⟨hsettable, hkeeps, fun config hconfig' => ?_⟩
        cases hconfig.symm.trans hconfig'
        exact hlogging.mp hsetup
      have hmem : key "node" ∈ (defaults data_dir).map Prod.fst := by simp [defaults]
      have hno : ¬ IsMapping s'.shown (key "node") := by
        rw [isMapping_configuration_iff hsettable hconfig hmem]
        exact fun hkeeps => hkeeps hnode
      refine ⟨.AttributeError, ?_⟩
      rw [exec_bind_ok _ (exec_outcome (.ok ()) heap'),
        config_nickname_raises hshares (there_after_configure hconfig hmem) hno,
        exec_bind_error _ (exec_outcome (.error ConfigError.AttributeError) heap')]
  · obtain ⟨e, heap', hexec⟩ := configure_raises data_dir hsettable
    refine ⟨e, ?_⟩
    unfold start
    rw [exec_bind_error _ hexec]

theorem start_unnamed_iff (hunnamed : Unnamed call) (saved : Option StateFile)
    (my_peer_id : PeerId) (generated : Bytes) (key' : Crypto.PrivateKey) (nickname : Str) :
    (∃ n, (exec (start takes int call saved my_peer_id generated key') (imported data_dir)).1 =
        .ok n ∧ n.nickname = nickname) ↔
      nickname = "bitchat-node".toList ∧ Starts takes int data_dir call := by
  by_cases hstarts : Starts takes int data_dir call
  · obtain ⟨n, hn, hname⟩ := start_unnamed hunnamed hstarts saved my_peer_id generated key'
    constructor
    · rintro ⟨n', hn', rfl⟩
      cases hn.symm.trans hn'
      exact ⟨hname, hstarts⟩
    · rintro ⟨rfl, -⟩
      exact ⟨n, hn, hname⟩
  · obtain ⟨e, hraises⟩ := start_raises hstarts saved my_peer_id generated key'
    constructor
    · rintro ⟨n, hn, -⟩
      cases hraises.symm.trans hn
    · exact fun h => absurd h.2 hstarts

end

/-! ## What is saved -/

/-- The states that were saved. -/
def saves (out : List Action) : List AppState :=
  out.filterMap fun
    | .saved state => some state
    | _ => none

/-- The state file after the last save. -/
def World.state_file (w : World) (listing : Listing) : Option StateFile :=
  (saves w.out).getLast?.map (daemon.state_file listing)

theorem saves_append (out out' : List Action) : saves (out ++ out') = saves out ++ saves out' := by
  simp [saves]

/-- The node has the same nickname, and nothing was saved. -/
structure KeepsName (w w' : World) : Prop where
  nickname : w'.node.nickname = w.node.nickname
  saves : saves w'.out = saves w.out

instance : IsPreorder World KeepsName where
  refl _ := ⟨rfl, rfl⟩
  trans _ _ _ h g := ⟨g.nickname.trans h.nickname, g.saves.trans h.saves⟩

theorem keepsName_emit {action : Action} (h : saves [action] = []) :
    Moves KeepsName (emit action) := by
  intro w
  refine ⟨rfl, ?_⟩
  show saves (w.out ++ [action]) = saves w.out
  rw [saves_append, h, List.append_nil]

theorem keepsName_modifyNode {f : MeshNode → MeshNode} (h : ∀ n, (f n).nickname = n.nickname) :
    Moves KeepsName (modifyNode f) := fun w => ⟨h w.node, rfl⟩

theorem keepsName_remove_peer (peer_id : Str) : Moves KeepsName (remove_peer peer_id) := by
  unfold remove_peer
  refine Moves.bind moves_node fun self => ?_
  refine Moves.bind (keepsName_modifyNode fun _ => rfl) fun _ => ?_
  apply Moves.ite
  · exact keepsName_emit (by simp [saves])
  · exact Moves.pure ()

theorem keepsName_send_announce (env : Env) : Moves KeepsName (send_announce env) := by
  unfold send_announce
  refine Moves.bind moves_node fun self => ?_
  refine Moves.bind (Moves.outcome _) fun packet => ?_
  refine moves_raw_send (fun conn _ => ?_) (fun _ _ => keepsName_emit (by simp [saves])) _
  unfold on_read_done
  refine Moves.bind (keepsName_modifyNode fun _ => rfl) fun _ => ?_
  exact moves_on_peer_disconnected keepsName_remove_peer conn

/-- The node has the nickname, and so has the last state it saved. -/
def SavedAs (nickname : Str) (w : World) : Prop :=
  w.node.nickname = nickname ∧
    ∃ state, (saves w.out).getLast? = some state ∧ state.nickname = some nickname

theorem KeepsName.savedAs {w w' : World} (h : KeepsName w w') {nickname : Str}
    (hsaved : SavedAs nickname w) : SavedAs nickname w' := by
  unfold SavedAs
  rw [h.nickname, h.saves]
  exact hsaved

theorem savedAs_save_state (w : World) : SavedAs w.node.nickname (exec save_state w).2 := by
  refine ⟨rfl, ((exec save_state w).2.node.app_state), ?_, rfl⟩
  show (saves (w.out ++ [_])).getLast? = _
  rw [saves_append]
  exact List.getLast?_concat

/-- What comes after a name was set: the node saves its state, or does
anything else that neither gives it another name nor saves. -/
inductive LaterSaves : World → World → Prop
  | refl (w : World) : LaterSaves w w
  | save {w w' : World} (h : LaterSaves w w') : LaterSaves w (exec save_state w').2
  | other {w w' w'' : World} (h : LaterSaves w w') (hkeeps : KeepsName w' w'') : LaterSaves w w''

theorem LaterSaves.savedAs {w w' : World} (h : LaterSaves w w') {nickname : Str}
    (hsaved : SavedAs nickname w) : SavedAs nickname w' := by
  induction h with
  | refl => exact hsaved
  | @save w' h ih =>
    rw [← ih.1]
    exact savedAs_save_state w'
  | other h hkeeps ih => exact hkeeps.savedAs ih

/-- An announced channel is saved among others. -/
theorem laterSaves_handle_channel_announce (packet : BitchatPacket) (w : World) :
    LaterSaves w (exec (handle_channel_announce packet) w).2 := by
  unfold handle_channel_announce
  generalize (decodeIgnore packet.payload).splitOn '|' = parts
  rcases parts with _ | ⟨channel, _ | ⟨is_protected, _ | ⟨creator_id, rest⟩⟩⟩
  · exact .refl w
  · exact .refl w
  · exact .refl w
  · rw [exec_bind_ok _ (exec_modifyNode _ w)]
    exact .save (.other (.refl w) ⟨rfl, rfl⟩)

/-- A name that is accepted is set and saved. -/
theorem savedAs_handle_set_name (env : Env) {name : Str} (hname : strip name ≠ [])
    (hlength : (strip name).length ≤ 20) (w : World) :
    SavedAs (strip name) (exec (handle_set_name env name) w).2 := by
  have hvalid : ¬ (strip name = [] ∨ 20 < (strip name).length) := by
    rw [not_or, not_lt]
    exact ⟨hname, hlength⟩
  unfold handle_set_name
  rw [if_neg hvalid, exec_bind_ok _ (exec_modifyNode _ w)]
  have hsaved := savedAs_save_state { w with node := { w.node with nickname := strip name } }
  rw [exec_bind_ok _ (show exec save_state _ = (.ok (), _) from rfl)]
  exact (keepsName_send_announce env _).savedAs hsaved

/-- The nickname that was set is in the state file after any later saves, and
yet a daemon that starts with it and is named nowhere has that nickname if and
only if it is the one of the defaults. -/
theorem a_saved_nickname_survives_iff (w : World) (env : Env) {name : Str}
    (hname : strip name ≠ []) (hlength : (strip name).length ≤ 20) {w' : World}
    (hlater : LaterSaves (exec (handle_set_name env name) w).2 w') (listing : Listing)
    (takes : Str → Leaf → Bool) (int : Str → Option Int) (data_dir : Str) {call : Invocation}
    (hunnamed : Unnamed call) (my_peer_id : PeerId) (generated : Bytes)
    (static_identity_key : Crypto.PrivateKey) :
    (w'.state_file listing).bind StateFile.nickname = some (strip name) ∧
      ((∃ n, (exec (start takes int call (w'.state_file listing) my_peer_id generated
          static_identity_key) (imported data_dir)).1 = .ok n ∧ n.nickname = strip name) ↔
        strip name = "bitchat-node".toList ∧ Starts takes int data_dir call) := by
  have hsaved := hlater.savedAs (savedAs_handle_set_name env hname hlength w)
  obtain ⟨-, state, hlast, hnickname⟩ := hsaved
  refine ⟨?_, start_unnamed_iff hunnamed _ my_peer_id generated static_identity_key _⟩
  unfold World.state_file
  rw [hlast]
  exact hnickname

end daemon

/-! ## Two names -/

namespace daemon.config.standIn

open python python.heap

/-- No file and no command line, and a variable that sets the port. -/
def call : Invocation where
  file := .absent
  env := ⟨fun name => if name = "BITCHAT_PORT" then some "9000".toList else none⟩
  args := ⟨none, none, none, false⟩

theorem unnamed_call : Unnamed call where
  file v hv := by cases hv
  env := rfl
  args := rfl

/-- A logging module that takes everything. -/
def takes : Str → Leaf → Bool := fun _ _ => true

theorem overrides_call :
    call.overrides int = [⟨"node", "port", some (.int 9000)⟩] := by
  decide +kernel

theorem starts_call : Starts takes int [] call where
  settable o ho := by
    rw [overrides_call, List.mem_singleton] at ho
    subst ho
    refine ⟨by simp, ?_⟩
    rintro ⟨x, hx, hentry⟩
    cases hentry
  node := by
    rintro ⟨x, hx, hentry⟩
    cases hentry
  logging config hconfig := by
    unfold Invocation.configuration at hconfig
    rw [overrides_call] at hconfig
    cases hconfig
    exact ⟨_, "INFO".toList, rfl, rfl, rfl⟩

end daemon.config.standIn

namespace daemon.standIn

open python python.heap bitchat bitchat.protocol config config.standIn

attribute [local instance] bitchat.standIn.packages

/-- The id of the node, before and after the restart. -/
def own_id : PeerId := ⟨[1, 2, 3, 4, 5, 6, 7, 8], PeerId.length_counted⟩

/-- The world of a node that is called `name`. -/
def world_named (name : String) : @World bitchat.standIn.packages :=
  (exec (handle_set_name (env 0) name.toList)
    ⟨node own_id 1, []⟩).2

/-- The nickname of a daemon that starts with the state file. -/
def nickname_after_restart (file : Option StateFile) : Option Str :=
  match (exec (start takes int call file own_id [1]
    (bitchat.standIn.key 1)) (imported [])).1 with
  | .ok n => some n.nickname
  | .error _ => none

theorem the_nickname_of_the_defaults_survives :
    ((world_named " bitchat-node ").state_file sorted).bind StateFile.nickname =
        some "bitchat-node".toList ∧
      ∃ n, (exec (start takes int call ((world_named " bitchat-node ").state_file sorted)
        own_id [1] (bitchat.standIn.key 1)) (imported [])).1 = .ok n ∧
        n.nickname = "bitchat-node".toList := by
  have hstrip : strip " bitchat-node ".toList = "bitchat-node".toList := by decide +kernel
  have hname : strip " bitchat-node ".toList ≠ [] := by
    rw [hstrip]
    decide
  have hlength : (strip " bitchat-node ".toList).length ≤ 20 := by
    rw [hstrip]
    decide
  have h := a_saved_nickname_survives_iff ⟨node own_id 1, []⟩ (env 0)
    hname hlength (.refl _) sorted takes int [] unnamed_call
    own_id [1] (bitchat.standIn.key 1)
  rw [hstrip] at h
  exact ⟨h.1, h.2.mpr ⟨rfl, starts_call⟩⟩

/-- The file has the name, and the daemon that starts with it has another. -/
theorem a_nickname_is_lost_by_a_restart :
    ((world_named "bob").state_file sorted).bind StateFile.nickname = some "bob".toList ∧
      Unnamed call ∧
      nickname_after_restart ((world_named "bob").state_file sorted) = some "bitchat-node".toList ∧
      ¬ ∃ n, (exec (start takes int call ((world_named "bob").state_file sorted)
        own_id [1] (bitchat.standIn.key 1)) (imported [])).1 = .ok n ∧
        n.nickname = "bob".toList := by
  have hfile : ((world_named "bob").state_file sorted).bind StateFile.nickname =
      some "bob".toList := by
    decide +kernel
  have hrestart : nickname_after_restart ((world_named "bob").state_file sorted) =
      some "bitchat-node".toList := by
    decide +kernel
  refine ⟨hfile, unnamed_call, hrestart, ?_⟩
  rintro ⟨n, hn, hnickname⟩
  unfold nickname_after_restart at hrestart
  rw [hn] at hrestart
  have hname : some n.nickname = some "bitchat-node".toList := hrestart
  rw [hnickname] at hname
  exact absurd hname (by decide)

end daemon.standIn
