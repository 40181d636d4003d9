import Conductor.Proofs.Documents
import Conductor.Proofs.Fields
import Mathlib.Data.List.Forall2
import Mathlib.Data.List.TakeWhile

/-!
# Which documents are settings

What a document says is a `Toml.Tree`, in which the order of keys and the way in which they were
written are lost. `Describes` tells which settings a tree stands for, and `parse_eq_ok_iff` that
exactly these are read.
-/

namespace Conductor

namespace Toml

/-- A value without the order of its keys: a table is a map. -/
inductive Tree
  | string (text : String)
  | integer (value : Int)
  | float (value : Number.Binary64)
  | boolean (value : Bool)
  | dateTime (written : String)
  | array (elements : List Tree)
  | table (find? : String → Option Tree)

mutual

def Value.tree : Value → Tree
  | .string text => .string text
  | .integer n => .integer n
  | .float x => .float x
  | .boolean b => .boolean b
  | .dateTime written => .dateTime written
  | .array elements => .array (trees elements)
  | .table entries => .table (entryTree? entries)

def trees : List Value → List Tree
  | [] => []
  | value :: rest => value.tree :: trees rest

def entryTree? : List (String × Value) → String → Option Tree
  | [], _ => none
  | (key, value) :: rest, name => if name = key then some value.tree else entryTree? rest name

end

theorem trees_eq_map (elements : List Value) : trees elements = elements.map Value.tree := by
  induction elements with
  | nil => rfl
  | cons value rest ih => rw [trees, ih, List.map_cons]

theorem entryTree?_eq (entries : Table) (name : String) :
    entryTree? entries name = (List.lookup name entries).map Value.tree := by
  induction entries with
  | nil => rfl
  | cons entry rest ih =>
    obtain ⟨key, value⟩ := entry
    rw [entryTree?, List.lookup_cons]
    by_cases h : name = key
    · simp [h]
    · rw [if_neg h, ih, beq_false_of_ne h]

end Toml

open Toml (Tree)

/-- The fields of a group with the given names. The group may be missing, or a table of no other
keys, or an array of its fields in their order with whatever may follow them. -/
inductive Fields (names : List String) : Option Tree → (String → Option Tree) → Prop
  | absent : Fields names none fun _ => none
  | table {find? : String → Option Tree} (h : ∀ key, (find? key).isSome → key ∈ names) :
      Fields names (some (.table find?)) find?
  | array (elements : List Tree) :
      Fields names (some (.array elements)) fun name => List.lookup name (names.zip elements)

/-- A field has the value that is given for it, and its default if none is. -/
def Given {α : Type} (stands : Tree → α → Prop) (default : α) : Option Tree → α → Prop
  | none, result => result = default
  | some tree, result => stands tree result

def IsText (tree : Tree) (text : String) : Prop :=
  tree = .string text

def IsCount (tree : Tree) (count : Nat) : Prop :=
  tree = .integer count

def IsList {α : Type} (stands : Tree → α → Prop) (tree : Tree) (results : List α) : Prop :=
  ∃ elements, tree = .array elements ∧ List.Forall₂ stands elements results

/-- Both compilers of a toolchain are given, and nothing else by name. -/
def IsToolchain (tree : Tree) (toolchain : Toolchain) : Prop :=
  ∃ field?, Fields ["cc", "cxx"] (some tree) field? ∧
    field? "cc" = some (.string toolchain.cc) ∧ field? "cxx" = some (.string toolchain.cxx)

/-- The settings for which a document stands. -/
structure Describes (find? : String → Option Tree) (settings : Settings) : Prop where
  known : ∀ key, (find? key).isSome → key ∈ ["build", "toolchains", "lint"]
  build : ∃ field?, Fields ["dir", "generator", "jobs", "log_file"] (find? "build") field? ∧
    Given IsText "build" (field? "dir") settings.dir ∧
    Given IsText "Ninja" (field? "generator") settings.generator ∧
    Given IsCount 4 (field? "jobs") settings.jobs ∧
    Given IsText "build.log" (field? "log_file") settings.logFile
  toolchains : Given (IsList IsToolchain) [⟨"gcc-11", "g++-11"⟩, ⟨"gcc", "g++"⟩]
    (find? "toolchains") settings.toolchains
  lint : ∃ field?, Fields ["format_dirs"] (find? "lint") field? ∧
    Given (IsList IsText) ["src/core", "src/eugene-api"] (field? "format_dirs") settings.formatDirs

/-- There is a toolchain, jobs may run, and the build directory has a name. -/
structure Settings.Usable (settings : Settings) : Prop where
  toolchains : settings.toolchains ≠ []
  jobs : 1 ≤ settings.jobs
  dir : ∃ c ∈ settings.dir.toList, Text.isBlank c = false

namespace Decode

theorem string_eq_ok_iff (value : Toml.Value) (text : String) :
    string value = .ok text ↔ IsText value.tree text := by
  cases value <;> simp [string, IsText, Toml.Value.tree]

theorem count_eq_ok_iff (value : Toml.Value) (n : Nat) :
    count value = .ok n ↔ IsCount value.tree n := by
  cases value with
  | integer m =>
    by_cases h : m < 0
    · simp only [count, if_pos h, IsCount, Toml.Value.tree]
      constructor
      · intro hcount
        cases hcount
      · intro htree
        cases htree
        omega
    · simp only [count, if_neg h, IsCount, Toml.Value.tree, Except.ok.injEq, Tree.integer.injEq]
      omega
  | _ => simp [count, IsCount, Toml.Value.tree]

theorem mapM_eq_ok_iff {α β : Type} {f : α → Except Fault β} {items : List α} {results : List β} :
    items.mapM f = .ok results ↔
      List.Forall₂ (fun item result => f item = .ok result) items results := by
  induction items generalizing results with
  | nil =>
    rw [List.mapM_nil, List.forall₂_nil_left_iff]
    constructor
    · intro h
      cases h
      rfl
    · rintro rfl
      rfl
  | cons item items ih =>
    rw [List.mapM_cons, except_bind_eq_ok_iff, List.forall₂_cons_left_iff]
    constructor
    · rintro ⟨result, hresult, hrest⟩
      obtain ⟨later, hlater, heq⟩ := except_bind_eq_ok_iff.mp hrest
      cases heq
      exact ⟨result, later, hresult, ih.mp hlater, rfl⟩
    · rintro ⟨result, later, hresult, hlater, rfl⟩
      refine ⟨result, hresult, except_bind_eq_ok_iff.mpr ⟨later, ih.mpr hlater, rfl⟩⟩

theorem list_eq_ok_iff {α : Type} {element : Toml.Value → Except Fault α} {stands : Tree → α → Prop}
    {value : Toml.Value} (hvalue : value.WellFormed)
    (h : ∀ item result, item.WellFormed → (element item = .ok result ↔ stands item.tree result))
    (results : List α) :
    list element value = .ok results ↔ IsList stands value.tree results := by
  cases value with
  | array elements =>
    have helements := Toml.wellFormed_array_iff.mp hvalue
    rw [list, mapM_eq_ok_iff, Toml.Value.tree, Toml.trees_eq_map]
    simp only [IsList, Tree.array.injEq, exists_eq_left', List.forall₂_map_left_iff]
    clear hvalue
    induction elements generalizing results with
    | nil => simp only [List.forall₂_nil_left_iff]
    | cons first elements ih =>
      obtain ⟨hfirst, hrest⟩ := List.forall_mem_cons.mp helements
      simp only [List.forall₂_cons_left_iff, h first _ hfirst, ih _ hrest]
  | _ => simp [list, IsList, Toml.Value.tree]

def fieldOf (names : List String) : Option Toml.Value → String → Option Toml.Value
  | some (.table entries), name => List.lookup name entries
  | some (.array elements), name => List.lookup name (names.zip elements)
  | _, _ => none

def treeOf (names : List String) (given : Option Toml.Value) (name : String) : Option Tree :=
  (fieldOf names given name).map (·.tree)

theorem lookup_zip_map (names : List String) (elements : List Toml.Value) (name : String) :
    List.lookup name (names.zip (elements.map (·.tree))) =
      (List.lookup name (names.zip elements)).map (·.tree) := by
  induction names generalizing elements with
  | nil => rfl
  | cons first names ih =>
    cases elements with
    | nil => rfl
    | cons element elements =>
      simp only [List.map_cons, List.zip_cons_cons, List.lookup_cons]
      cases name == first with
      | true => rfl
      | false => exact ih elements

theorem fields_array (names : List String) (elements : List Toml.Value) :
    Fields names ((some (Toml.Value.array elements)).map (·.tree))
      (treeOf names (some (.array elements))) := by
  have heq : treeOf names (some (.array elements)) =
      fun name => List.lookup name (names.zip (elements.map (·.tree))) :=
    funext fun name => (lookup_zip_map names elements name).symm
  rw [heq, Option.map_some, Toml.Value.tree, Toml.trees_eq_map]
  exact .array _

theorem known_iff (names : List String) (entries : Toml.Table) :
    (∀ key, (Toml.entryTree? entries key).isSome → key ∈ names) ↔
      ∀ entry ∈ entries, entry.1 ∈ names := by
  simp only [Toml.entryTree?_eq, Option.isSome_map, List.lookup_isSome_iff]
  constructor
  · intro h entry hmem
    exact h entry.1 ⟨entry, hmem, beq_self_eq_true _⟩
  · rintro h key ⟨entry, hmem, heq⟩
    rw [eq_of_beq heq]
    exact h entry hmem

theorem fields_table_iff (names : List String) (entries : Toml.Table) :
    Fields names ((some (Toml.Value.table entries)).map (·.tree))
        (treeOf names (some (.table entries))) ↔
      ∀ entry ∈ entries, entry.1 ∈ names := by
  have heq : treeOf names (some (.table entries)) = Toml.entryTree? entries :=
    funext fun name => (Toml.entryTree?_eq entries name).symm
  rw [heq, Option.map_some, Toml.Value.tree, ← known_iff]
  constructor
  · intro h
    cases h with
    | table hknown => exact hknown
  · exact .table

/-- A group says about its fields only one thing. -/
theorem eq_treeOf_of_fields {names : List String} {given : Option Toml.Value}
    {field? : String → Option Tree} (h : Fields names (given.map (·.tree)) field?) :
    field? = treeOf names given := by
  rcases given with _ | value
  · cases h
    rfl
  · funext name
    cases value with
    | table entries =>
      rw [Option.map_some, Toml.Value.tree] at h
      cases h
      exact Toml.entryTree?_eq entries name
    | array elements =>
      rw [Option.map_some, Toml.Value.tree, Toml.trees_eq_map] at h
      cases h
      exact lookup_zip_map names elements name
    | _ => cases h

theorem exists_fields_iff (names : List String) (given : Option Toml.Value)
    {P : (String → Option Tree) → Prop} :
    (∃ field?, Fields names (given.map (·.tree)) field? ∧ P field?) ↔
      Fields names (given.map (·.tree)) (treeOf names given) ∧ P (treeOf names given) := by
  constructor
  · rintro ⟨field?, hfields, h⟩
    obtain rfl := eq_treeOf_of_fields hfields
    exact ⟨hfields, h⟩
  · rintro ⟨hfields, h⟩
    exact ⟨_, hfields, h⟩

theorem wellFormed_of_lookup {entries : Toml.Table} (h : (Toml.Value.table entries).WellFormed)
    {name : String} {found : Toml.Value} (hfound : List.lookup name entries = some found) :
    found.WellFormed := by
  obtain ⟨before, after, rfl, -⟩ := List.lookup_eq_some_iff.mp hfound
  exact (Toml.wellFormed_table_iff.mp h).2 (name, found) (by simp)

theorem wellFormed_fieldOf {names : List String} {given : Option Toml.Value}
    (h : ∀ value, given = some value → value.WellFormed) {name : String} {found : Toml.Value}
    (hfound : fieldOf names given name = some found) : found.WellFormed := by
  cases given with
  | none => cases hfound
  | some value =>
    have hvalue := h value rfl
    cases value with
    | table entries => exact wellFormed_of_lookup hvalue hfound
    | array elements =>
      obtain ⟨before, after, hzip, -⟩ := List.lookup_eq_some_iff.mp hfound
      have hmem : (name, found) ∈ names.zip elements := by rw [hzip]; simp
      exact Toml.wellFormed_array_iff.mp hvalue found (List.of_mem_zip hmem).2
    | _ => cases hfound

variable {σ α : Type}

theorem group_eq_ok_iff {wanted : String} {fields : List (Field σ)}
    (hnodup : (fields.map (·.name)).Nodup) (hfields : Independent fields)
    (hdate : dateKey ∉ fields.map (·.name)) {value : Toml.Value} (hvalue : value.WellFormed)
    (start result : σ) :
    group wanted fields value start = .ok result ↔
      Fields (fields.map (·.name)) ((some value).map (·.tree))
          (treeOf (fields.map (·.name)) (some value)) ∧
        setAll fields (fieldOf (fields.map (·.name)) (some value)) start = .ok result := by
  cases value with
  | table entries =>
    rw [fields_table_iff]
    exact setEntries_eq_ok_iff hnodup hfields (Toml.wellFormed_table_iff.mp hvalue).1 start result
  | array elements =>
    simp only [fields_array, true_and]
    rw [group, setElements_eq hnodup]
    rfl
  | dateTime written =>
    -- A date shows itself as a table with one key, which is no field.
    constructor
    · intro h
      rw [group, setEntries_eq_ok_iff hnodup hfields (by simp)] at h
      exact absurd (h.1 (dateKey, .string written) (by simp)) hdate
    · rintro ⟨h, -⟩
      cases h
  | _ =>
    constructor
    · intro h
      cases h
    · rintro ⟨h, -⟩
      cases h

theorem apply_group_eq_ok_iff {name wanted : String} {fields : List (Field σ)}
    (hnodup : (fields.map (·.name)).Nodup) (hfields : Independent fields)
    (hdate : dateKey ∉ fields.map (·.name)) {given : Option Toml.Value}
    (hgiven : ∀ value, given = some value → value.WellFormed) (start result : σ) :
    Field.apply ⟨name, group wanted fields⟩ given start = .ok result ↔
      Fields (fields.map (·.name)) (given.map (·.tree)) (treeOf (fields.map (·.name)) given) ∧
        setAll fields (fieldOf (fields.map (·.name)) given) start = .ok result := by
  cases given with
  | none =>
    have hnone : setAll fields (fieldOf (fields.map (·.name)) none) start = .ok start :=
      setAll_none fields start
    have habsent : Fields (fields.map (·.name)) none (treeOf (fields.map (·.name)) none) := .absent
    simp only [Option.map_none, habsent, hnone, true_and]
    rfl
  | some value => exact group_eq_ok_iff hnodup hfields hdate (hgiven value rfl) start result

theorem apply_put_eq_ok_iff (given : Option Toml.Value) (field : Field σ) (get : σ → α)
    (put : α → σ → σ) {read : Toml.Value → Except Fault α} {stands : Tree → α → Prop}
    (hset : ∀ value state, field.set value state = read value >>= fun a => pure (put a state))
    (hput : ∀ state, put (get state) state = state)
    (hread : ∀ value a, given = some value → (read value = .ok a ↔ stands value.tree a))
    (start result : σ) :
    field.apply given start = .ok result ↔
      ∃ a, Given stands (get start) (given.map (·.tree)) a ∧ result = put a start := by
  cases given with
  | none => simp [Field.apply, Given, hput, eq_comm]
  | some value =>
    rw [Field.apply, hset, except_bind_eq_ok_iff]
    simp [Given, hread, eq_comm, pure, Except.pure]

theorem independent_buildFields : Independent buildFields := by
  intro f hf g hg hne v w
  simp only [buildFields, List.mem_cons, List.not_mem_nil, or_false] at hf hg
  rcases hf with rfl | rfl | rfl | rfl <;> rcases hg with rfl | rfl | rfl | rfl <;>
    first
      | exact absurd rfl hne
      | exact commutes_put fun _ _ _ => rfl

theorem independent_toolchainFields : Independent toolchainFields := by
  intro f hf g hg hne v w
  simp only [toolchainFields, List.mem_cons, List.not_mem_nil, or_false] at hf hg
  rcases hf with rfl | rfl <;> rcases hg with rfl | rfl <;>
    first
      | exact absurd rfl hne
      | exact commutes_put fun _ _ _ => rfl

theorem independent_lintFields : Independent lintFields := by
  intro f hf g hg hne
  simp only [lintFields, List.mem_singleton] at hf hg
  rw [hf, hg] at hne
  exact absurd rfl hne

/-- A group commutes with what each of its fields commutes with. -/
theorem independent_rootFields : Independent rootFields := by
  have hbuildToolchains (v w : Toml.Value) : Commutes (group "struct BuildConfig" buildFields v)
      fun state => list toolchain w >>= fun found => pure { state with toolchains := found } := by
    refine commutes_group (fun f hf v => ?_) v
    simp only [buildFields, List.mem_cons, List.not_mem_nil, or_false] at hf
    rcases hf with rfl | rfl | rfl | rfl <;> exact commutes_put fun _ _ _ => rfl
  have hlintToolchains (v w : Toml.Value) : Commutes (group "struct LintConfig" lintFields v)
      fun state => list toolchain w >>= fun found => pure { state with toolchains := found } := by
    refine commutes_group (fun f hf v => ?_) v
    obtain rfl := List.mem_singleton.mp hf
    exact commutes_put fun _ _ _ => rfl
  have hbuildLint (v w : Toml.Value) : Commutes (group "struct BuildConfig" buildFields v)
      (group "struct LintConfig" lintFields w) := by
    refine commutes_group (fun f hf v => (commutes_group (fun g hg w => ?_) w).symm) v
    obtain rfl := List.mem_singleton.mp hg
    simp only [buildFields, List.mem_cons, List.not_mem_nil, or_false] at hf
    rcases hf with rfl | rfl | rfl | rfl <;> exact commutes_put fun _ _ _ => rfl
  intro f hf g hg hne v w
  simp only [rootFields, List.mem_cons, List.not_mem_nil, or_false] at hf hg
  rcases hf with rfl | rfl | rfl <;> rcases hg with rfl | rfl | rfl
  case inl.inl => exact absurd rfl hne
  case inl.inr.inl => exact hbuildToolchains v w
  case inl.inr.inr => exact hbuildLint v w
  case inr.inl.inl => exact (hbuildToolchains w v).symm
  case inr.inl.inr.inl => exact absurd rfl hne
  case inr.inl.inr.inr => exact (hlintToolchains w v).symm
  case inr.inr.inl => exact (hbuildLint w v).symm
  case inr.inr.inr.inl => exact hlintToolchains v w
  case inr.inr.inr.inr => exact absurd rfl hne

theorem setAll_nil_eq_ok_iff (given : String → Option Toml.Value) (start result : σ) :
    setAll [] given start = .ok result ↔ result = start := by
  simp [setAll, pure, Except.pure, eq_comm]

/-- A compiler that was given, or none. -/
def IsCompiler (tree : Tree) (compiler : Option String) : Prop :=
  ∃ text, IsText tree text ∧ compiler = some text

theorem setAll_toolchainFields_iff (given : String → Option Toml.Value)
    (result : PartialToolchain) :
    setAll toolchainFields given {} = .ok result ↔
      Given IsCompiler none ((given "cc").map (·.tree)) result.cc ∧
      Given IsCompiler none ((given "cxx").map (·.tree)) result.cxx := by
  have hread (value : Toml.Value) (compiler : Option String) :
      (string value >>= fun text => pure (some text)) = .ok compiler ↔
        IsCompiler value.tree compiler := by
    rw [except_bind_eq_ok_iff]
    simp only [string_eq_ok_iff, IsCompiler, pure, Except.pure, Except.ok.injEq]
    simp only [eq_comm]
  have hcc := apply_put_eq_ok_iff (given "cc")
    ⟨"cc", fun value state => return { state with cc := some (← string value) }⟩
    PartialToolchain.cc (fun cc state => { state with cc := cc })
    (fun _ _ => by simp) (fun _ => rfl) (fun value a _ => hread value a)
  have hcxx := apply_put_eq_ok_iff (given "cxx")
    ⟨"cxx", fun value state => return { state with cxx := some (← string value) }⟩
    PartialToolchain.cxx (fun cxx state => { state with cxx := cxx })
    (fun _ _ => by simp) (fun _ => rfl) (fun value a _ => hread value a)
  simp only [toolchainFields, setAll_cons, except_bind_eq_ok_iff, hcc, hcxx, setAll_nil_eq_ok_iff]
  constructor
  · rintro ⟨_, ⟨cc, hgiven, rfl⟩, _, ⟨cxx, hgiven', rfl⟩, rfl⟩
    exact ⟨hgiven, hgiven'⟩
  · rintro ⟨hgiven, hgiven'⟩
    exact ⟨_, ⟨result.cc, hgiven, rfl⟩, _, ⟨result.cxx, hgiven', rfl⟩, rfl⟩

theorem given_isCompiler_iff {given : Option Tree} {text : String} :
    Given IsCompiler none given (some text) ↔ given = some (.string text) := by
  cases given with
  | none => simp [Given]
  | some tree => simp [Given, IsCompiler, IsText]

theorem toolchain_eq_ok_iff {value : Toml.Value} (hvalue : value.WellFormed)
    (result : Toolchain) :
    toolchain value = .ok result ↔ IsToolchain value.tree result := by
  have hgroup (state : PartialToolchain) :
      group "struct Toolchain" toolchainFields value {} = .ok state ↔
        Fields ["cc", "cxx"] (some value.tree) (treeOf ["cc", "cxx"] (some value)) ∧
        Given IsCompiler none (treeOf ["cc", "cxx"] (some value) "cc") state.cc ∧
        Given IsCompiler none (treeOf ["cc", "cxx"] (some value) "cxx") state.cxx := by
    rw [group_eq_ok_iff (by decide) independent_toolchainFields (by decide) hvalue,
      setAll_toolchainFields_iff]
    rfl
  have hexists := exists_fields_iff ["cc", "cxx"] (some value)
    (P := fun field? => field? "cc" = some (.string result.cc) ∧
      field? "cxx" = some (.string result.cxx))
  rw [Option.map_some] at hexists
  rw [IsToolchain, hexists, toolchain, except_bind_eq_ok_iff]
  constructor
  · rintro ⟨state, hstate, hmatch⟩
    obtain ⟨hfields, hcc, hcxx⟩ := (hgroup _).mp hstate
    split at hmatch
    case h_1 heqcc heqcxx =>
      cases hmatch
      rw [heqcc] at hcc
      rw [heqcxx] at hcxx
      exact ⟨hfields, given_isCompiler_iff.mp hcc, given_isCompiler_iff.mp hcxx⟩
    all_goals cases hmatch
  · rintro ⟨hfields, hcc, hcxx⟩
    refine ⟨⟨some result.cc, some result.cxx⟩, (hgroup _).mpr ⟨hfields, ?_, ?_⟩, rfl⟩
    · exact given_isCompiler_iff.mpr hcc
    · exact given_isCompiler_iff.mpr hcxx

theorem setAll_buildFields_iff (given : String → Option Toml.Value) (start result : Settings) :
    setAll buildFields given start = .ok result ↔
      ∃ dir generator jobs logFile,
        Given IsText start.dir ((given "dir").map (·.tree)) dir ∧
        Given IsText start.generator ((given "generator").map (·.tree)) generator ∧
        Given IsCount start.jobs ((given "jobs").map (·.tree)) jobs ∧
        Given IsText start.logFile ((given "log_file").map (·.tree)) logFile ∧
        result = { start with dir, generator, jobs, logFile } := by
  have hdir := apply_put_eq_ok_iff (given "dir")
    ⟨"dir", fun value state => return { state with dir := ← string value }⟩
    Settings.dir (fun dir state => { state with dir := dir })
    (fun _ _ => rfl) (fun _ => rfl) (fun value a _ => string_eq_ok_iff value a)
  have hgenerator := apply_put_eq_ok_iff (given "generator")
    ⟨"generator", fun value state => return { state with generator := ← string value }⟩
    Settings.generator (fun generator state => { state with generator := generator })
    (fun _ _ => rfl) (fun _ => rfl) (fun value a _ => string_eq_ok_iff value a)
  have hjobs := apply_put_eq_ok_iff (given "jobs")
    ⟨"jobs", fun value state => return { state with jobs := ← count value }⟩
    Settings.jobs (fun jobs state => { state with jobs := jobs })
    (fun _ _ => rfl) (fun _ => rfl) (fun value a _ => count_eq_ok_iff value a)
  have hlogFile := apply_put_eq_ok_iff (given "log_file")
    ⟨"log_file", fun value state => return { state with logFile := ← string value }⟩
    Settings.logFile (fun logFile state => { state with logFile := logFile })
    (fun _ _ => rfl) (fun _ => rfl) (fun value a _ => string_eq_ok_iff value a)
  simp only [buildFields, setAll_cons, except_bind_eq_ok_iff, hdir, hgenerator, hjobs, hlogFile,
    setAll_nil_eq_ok_iff]
  constructor
  · rintro ⟨_, ⟨dir, hdir, rfl⟩, _, ⟨generator, hgenerator, rfl⟩, _, ⟨jobs, hjobs, rfl⟩, _,
      ⟨logFile, hlogFile, rfl⟩, rfl⟩
    exact ⟨dir, generator, jobs, logFile, hdir, hgenerator, hjobs, hlogFile, rfl⟩
  · rintro ⟨dir, generator, jobs, logFile, hdir, hgenerator, hjobs, hlogFile, rfl⟩
    exact ⟨_, ⟨dir, hdir, rfl⟩, _, ⟨generator, hgenerator, rfl⟩, _, ⟨jobs, hjobs, rfl⟩, _,
      ⟨logFile, hlogFile, rfl⟩, rfl⟩

theorem setAll_lintFields_iff (given : String → Option Toml.Value)
    (hgiven : ∀ value, given "format_dirs" = some value → value.WellFormed)
    (start result : Settings) :
    setAll lintFields given start = .ok result ↔
      ∃ formatDirs,
        Given (IsList IsText) start.formatDirs ((given "format_dirs").map (·.tree)) formatDirs ∧
        result = { start with formatDirs } := by
  have hformat := apply_put_eq_ok_iff (given "format_dirs")
    ⟨"format_dirs", fun value state => return { state with formatDirs := ← list string value }⟩
    Settings.formatDirs (fun formatDirs state => { state with formatDirs := formatDirs })
    (fun _ _ => rfl) (fun _ => rfl)
    (fun value a heq => list_eq_ok_iff (hgiven value heq) (fun item text _ =>
      string_eq_ok_iff item text) a)
  simp only [lintFields, setAll_cons, except_bind_eq_ok_iff, hformat, setAll_nil_eq_ok_iff]
  constructor
  · rintro ⟨_, ⟨formatDirs, h, rfl⟩, rfl⟩
    exact ⟨formatDirs, h, rfl⟩
  · rintro ⟨formatDirs, h, rfl⟩
    exact ⟨_, ⟨formatDirs, h, rfl⟩, rfl⟩

variable {given : Option Toml.Value} (hgiven : ∀ value, given = some value → value.WellFormed)

include hgiven

theorem apply_build_eq_ok_iff (start result : Settings) :
    Field.apply ⟨"build", group "struct BuildConfig" buildFields⟩ given start = .ok result ↔
      ∃ field?, Fields ["dir", "generator", "jobs", "log_file"] (given.map (·.tree)) field? ∧
        ∃ dir generator jobs logFile,
          Given IsText start.dir (field? "dir") dir ∧
          Given IsText start.generator (field? "generator") generator ∧
          Given IsCount start.jobs (field? "jobs") jobs ∧
          Given IsText start.logFile (field? "log_file") logFile ∧
          result = { start with dir, generator, jobs, logFile } := by
  rw [apply_group_eq_ok_iff (by decide) independent_buildFields (by decide) hgiven,
    setAll_buildFields_iff, exists_fields_iff]
  rfl

theorem apply_lint_eq_ok_iff (start result : Settings) :
    Field.apply ⟨"lint", group "struct LintConfig" lintFields⟩ given start = .ok result ↔
      ∃ field?, Fields ["format_dirs"] (given.map (·.tree)) field? ∧
        ∃ formatDirs, Given (IsList IsText) start.formatDirs (field? "format_dirs") formatDirs ∧
          result = { start with formatDirs } := by
  rw [apply_group_eq_ok_iff (by decide) independent_lintFields (by decide) hgiven,
    setAll_lintFields_iff _ (fun _ => wellFormed_fieldOf hgiven), exists_fields_iff]
  rfl

theorem apply_toolchains_eq_ok_iff (start result : Settings) :
    Field.apply ⟨"toolchains", fun value state =>
        return { state with toolchains := ← list toolchain value }⟩ given start = .ok result ↔
      ∃ toolchains, Given (IsList IsToolchain) start.toolchains (given.map (·.tree)) toolchains ∧
        result = { start with toolchains } :=
  apply_put_eq_ok_iff given _ Settings.toolchains
    (fun toolchains state => { state with toolchains := toolchains })
    (fun _ _ => rfl) (fun _ => rfl)
    (fun value found heq => list_eq_ok_iff (hgiven value heq)
      (fun _ _ hitem => toolchain_eq_ok_iff hitem _) found) start result

end Decode

/-- The settings of a table are those for which it stands. -/
theorem ofTable_eq_ok_iff {table : Toml.Table} (htable : (Toml.Value.table table).WellFormed)
    (settings : Settings) :
    Settings.ofTable table = .ok settings ↔ Describes (Toml.entryTree? table) settings := by
  have hgiven (name : String) (value : Toml.Value) (h : List.lookup name table = some value) :
      value.WellFormed := Decode.wellFormed_of_lookup htable h
  rw [Settings.ofTable, Decode.setEntries_eq_ok_iff (by decide) Decode.independent_rootFields
    (Toml.wellFormed_table_iff.mp htable).1, ← Decode.known_iff]
  simp only [Decode.rootFields, Decode.setAll_cons, except_bind_eq_ok_iff,
    Decode.apply_build_eq_ok_iff (hgiven "build"), Decode.apply_lint_eq_ok_iff (hgiven "lint"),
    Decode.apply_toolchains_eq_ok_iff (hgiven "toolchains"), Decode.setAll_nil_eq_ok_iff,
    ← Toml.entryTree?_eq]
  constructor
  · rintro ⟨hknown, _, ⟨field?, hfields, dir, generator, jobs, logFile, hdir, hgenerator, hjobs,
      hlogFile, rfl⟩, _, ⟨toolchains, htoolchains, rfl⟩, _, ⟨field?', hfields', formatDirs,
      hformatDirs, rfl⟩, rfl⟩
    exact ⟨hknown, ⟨field?, hfields, hdir, hgenerator, hjobs, hlogFile⟩, htoolchains,
      ⟨field?', hfields', hformatDirs⟩⟩
  · rintro ⟨hknown, ⟨field?, hfields, hdir, hgenerator, hjobs, hlogFile⟩, htoolchains,
      ⟨field?', hfields', hformatDirs⟩⟩
    exact ⟨hknown, _, ⟨field?, hfields, _, _, _, _, hdir, hgenerator, hjobs, hlogFile, rfl⟩, _,
      ⟨_, htoolchains, rfl⟩, _, ⟨field?', hfields', _, hformatDirs, rfl⟩, rfl⟩

/-- Nothing is left of a text by trimming if all of it is blank. -/
theorem isEmpty_trim (text : String) :
    (Text.trim text).isEmpty = true ↔ ∀ c ∈ text.toList, Text.isBlank c = true := by
  have hleft : (Text.trim text).isEmpty = true ↔
      ∀ c ∈ text.toList.dropWhile Text.isBlank, Text.isBlank c = true := by
    rw [Text.trim, String.isEmpty_iff, ← String.toList_eq_nil_iff, String.toList_ofList,
      Text.dropEndWhile, List.reverse_eq_nil_iff, List.dropWhile_eq_nil_iff]
    simp only [List.mem_reverse]
  rw [hleft]
  constructor
  · intro h
    refine List.dropWhile_eq_nil_iff.mp ?_
    cases hcs : text.toList.dropWhile Text.isBlank with
    | nil => rfl
    | cons c rest =>
      have hblank : Text.isBlank c = true := h c (by simp [hcs])
      have hfirst : Text.isBlank c = false := by
        have hhead := List.head?_dropWhile_not Text.isBlank text.toList
        rwa [hcs] at hhead
      rw [hblank] at hfirst
      cases hfirst
  · intro h c hmem
    exact h c ((List.dropWhile_sublist _).mem hmem)

theorem validate_eq_ok_iff (settings : Settings) :
    settings.validate = .ok () ↔ settings.Usable := by
  have hdir : (Text.trim settings.dir).isEmpty = false ↔
      ∃ c ∈ settings.dir.toList, Text.isBlank c = false := by
    rw [← Bool.not_eq_true, isEmpty_trim]
    simp
  have husable : settings.Usable ↔ settings.toolchains.isEmpty = false ∧ settings.jobs ≠ 0 ∧
      (Text.trim settings.dir).isEmpty = false := by
    rw [hdir, List.isEmpty_eq_false_iff, ← Nat.one_le_iff_ne_zero]
    exact ⟨fun ⟨h, h', h''⟩ => ⟨h, h', h''⟩, fun ⟨h, h', h''⟩ => ⟨h, h', h''⟩⟩
  rw [husable, Settings.validate]
  split
  · simp [*]
  split
  · simp [*]
  split <;> simp [*]

theorem parse_eq_ok_iff_of_parse? {text : String} {table : Toml.Table}
    (h : Toml.parse? text = some table) (settings : Settings) :
    Settings.parse text = .ok settings ↔
      Describes (Toml.entryTree? table) settings ∧ settings.Usable := by
  rw [Settings.parse, h]
  change (Settings.ofTable table >>= _) = _ ↔ _
  simp only [except_bind_eq_ok_iff, ofTable_eq_ok_iff (Toml.wellFormed_of_parse? h)]
  constructor
  · rintro ⟨found, hfound, ⟨⟩, hvalid, heq⟩
    cases heq
    exact ⟨hfound, (validate_eq_ok_iff _).mp hvalid⟩
  · rintro ⟨hdescribes, husable⟩
    exact ⟨settings, hdescribes, (), (validate_eq_ok_iff settings).mpr husable, rfl⟩

theorem exists_parse?_of_parse {text : String} {settings : Settings}
    (h : Settings.parse text = .ok settings) : ∃ table, Toml.parse? text = some table := by
  rw [Settings.parse] at h
  split at h
  case h_1 => cases h
  case h_2 table hparse => exact ⟨table, hparse⟩

/-- A text is read as settings exactly if it is a document that stands for them and they can be
used. -/
theorem parse_eq_ok_iff (text : String) (settings : Settings) :
    Settings.parse text = .ok settings ↔
      ∃ table, Toml.parse? text = some table ∧ Describes (Toml.entryTree? table) settings ∧
        settings.Usable := by
  constructor
  · intro h
    obtain ⟨table, hparse⟩ := exists_parse?_of_parse h
    exact ⟨table, hparse, (parse_eq_ok_iff_of_parse? hparse settings).mp h⟩
  · rintro ⟨table, hparse, h⟩
    exact (parse_eq_ok_iff_of_parse? hparse settings).mpr h

end Conductor
