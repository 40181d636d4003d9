import Conductor.Proofs.Decoding

/-!
# Faults of a document

What can be wrong in a document of settings, and where: a position is made of the numbers of the
entries and elements on the way down to the fault, so that the order of positions is that of the
document. Reading stops at the first fault (`reports_ofTable`).
-/

namespace Conductor

/-- The numbers of the entries and elements on the way down to a part of a value. -/
abbrev Position := List Nat

abbrev Faults := Position → Fault → Prop

structure IsFirst (faults : Faults) (position : Position) (fault : Fault) : Prop where
  found : faults position fault
  before : ∀ other otherFault, faults other otherFault →
    (other = position ∧ otherFault = fault) ∨ position < other

inductive TextFaults : Toml.Value → Faults
  | wrongType {value : Toml.Value} (h : ∀ text, value ≠ .string text) :
      TextFaults value [] (.wrongType value "a string")

inductive CountFaults : Toml.Value → Faults
  | wrongType {value : Toml.Value} (h : ∀ n, value ≠ .integer n) :
      CountFaults value [] (.wrongType value "usize")
  | negative {n : Int} (h : n < 0) : CountFaults (.integer n) [] (.negative n)

inductive Along {ι : Type} (faults : ι → Faults) (items : List ι) : Faults
  | item {number : Nat} {item : ι} {position : Position} {fault : Fault}
      (hitem : items[number]? = some item) (h : faults item position fault) :
      Along faults items (number :: position) fault

inductive ListFaults (faults : Toml.Value → Faults) : Toml.Value → Faults
  | wrongType {value : Toml.Value} (h : ∀ elements, value ≠ .array elements) :
      ListFaults faults value [] (.wrongType value "a sequence")
  | elements {elements : List Toml.Value} {position : Position} {fault : Fault}
      (h : Along faults elements position fault) :
      ListFaults faults (.array elements) position fault

/-- The fields of a group, each with what can be wrong in its value. -/
abbrev Schema := List (String × (Toml.Value → Faults))

def Schema.names (schema : Schema) : List String :=
  schema.map (·.1)

/-- An entry has a key that names no field, or a value that does not fit the field. -/
inductive EntryFaults (schema : Schema) : String × Toml.Value → Faults
  | unknown {key : String} {value : Toml.Value} (h : List.lookup key schema = none) :
      EntryFaults schema (key, value) [] (.unknownField key schema.names)
  | value {key : String} {value : Toml.Value} {faults : Toml.Value → Faults} {position : Position}
      {fault : Fault} (hkey : List.lookup key schema = some faults)
      (h : faults value position fault) : EntryFaults schema (key, value) position fault

def FieldFaults (given : (String × (Toml.Value → Faults)) × Toml.Value) : Faults :=
  given.1.2 given.2

/-- A table gives its fields by name, an array by their order; a date is a table with a key of its
own. -/
inductive GroupFaults (wanted : String) (schema : Schema) : Toml.Value → Faults
  | wrongType {value : Toml.Value} (htable : ∀ entries, value ≠ .table entries)
      (harray : ∀ elements, value ≠ .array elements)
      (hdate : ∀ written, value ≠ .dateTime written) :
      GroupFaults wanted schema value [] (.wrongType value wanted)
  | date {written : String} : GroupFaults wanted schema (.dateTime written) []
      (.unknownField Decode.dateKey schema.names)
  | entries {entries : Toml.Table} {position : Position} {fault : Fault}
      (h : Along (EntryFaults schema) entries position fault) :
      GroupFaults wanted schema (.table entries) position fault
  | elements {elements : List Toml.Value} {position : Position} {fault : Fault}
      (h : Along FieldFaults (schema.zip elements) position fault) :
      GroupFaults wanted schema (.array elements) position fault

def toolchainSchema : Schema :=
  [("cc", TextFaults), ("cxx", TextFaults)]

/-- What a toolchain lacks shows at its end. -/
inductive LackFaults : Toml.Value → Faults
  | missing {entries : Toml.Table} {number : Nat} {name : String}
      (hname : toolchainSchema.names[number]? = some name) (h : name ∉ entries.map (·.1)) :
      LackFaults (.table entries) [entries.length + number] (.missingField name)
  | short {elements : List Toml.Value} (h : elements.length < 2) :
      LackFaults (.array elements) [elements.length] (.tooShort elements.length)

def ToolchainFaults (value : Toml.Value) : Faults := fun position fault =>
  GroupFaults "struct Toolchain" toolchainSchema value position fault ∨
    LackFaults value position fault

def buildSchema : Schema :=
  [("dir", TextFaults), ("generator", TextFaults), ("jobs", CountFaults), ("log_file", TextFaults)]

def lintSchema : Schema :=
  [("format_dirs", ListFaults TextFaults)]

def rootSchema : Schema :=
  [("build", GroupFaults "struct BuildConfig" buildSchema),
    ("toolchains", ListFaults ToolchainFaults),
    ("lint", GroupFaults "struct LintConfig" lintSchema)]

def DocumentFaults (table : Toml.Table) : Faults :=
  Along (EntryFaults rootSchema) table

/-! ## Stopping at the first fault -/

/-- Without faults there is a result, and otherwise the first one is reported. -/
inductive Reports {α : Type} (faults : Faults) : Except Fault α → Prop
  | ok {result : α} (h : ∀ position fault, ¬ faults position fault) : Reports faults (.ok result)
  | error {position : Position} {fault : Fault} (h : IsFirst faults position fault) :
      Reports faults (.error fault)

section

variable {α β ι σ : Type} {faults early late : Faults} {result : Except Fault α}

theorem Reports.congr {others : Faults} (h : Reports faults result)
    (hfaults : ∀ position fault, faults position fault ↔ others position fault) :
    Reports others result := by
  obtain rfl : faults = others := funext fun position => funext fun fault =>
    propext (hfaults position fault)
  exact h

theorem Reports.exists_first (h : Reports faults result) {position : Position} {fault : Fault}
    (hfault : faults position fault) :
    ∃ position first, IsFirst faults position first ∧ result = .error first := by
  cases h with
  | ok hnone => exact absurd hfault (hnone position fault)
  | error hfirst => exact ⟨_, _, hfirst, rfl⟩

theorem Reports.exists_ok (h : Reports faults result)
    (hnone : ∀ position fault, ¬ faults position fault) : ∃ a, result = .ok a := by
  cases h with
  | ok => exact ⟨_, rfl⟩
  | error hfirst => exact absurd hfirst.found (hnone _ _)

theorem Reports.map (h : Reports faults result) (f : α → β) :
    Reports faults (result >>= fun a => pure (f a)) := by
  cases h with
  | ok hnone => exact .ok hnone
  | error hfirst => exact .error hfirst

/-- A single fault that is found. -/
theorem reports_single {position : Position} {fault : Fault} (hfound : faults position fault)
    (honly : ∀ other otherFault, faults other otherFault →
      other = position ∧ otherFault = fault) :
    Reports faults (.error fault : Except Fault α) :=
  .error ⟨hfound, fun other otherFault h => .inl (honly other otherFault h)⟩

/-- Faults that are moved without changing their order. -/
theorem Reports.image {move : Position → Position} (h : Reports faults result)
    (hmove : ∀ position other, position < other → move position < move other) :
    Reports (fun position fault => ∃ inner, position = move inner ∧ faults inner fault) result := by
  cases h with
  | ok hnone => exact .ok fun position fault ⟨inner, _, hinner⟩ => hnone inner fault hinner
  | error hfirst =>
    refine .error ⟨⟨_, rfl, hfirst.found⟩, ?_⟩
    rintro _ otherFault ⟨inner, rfl, hinner⟩
    rcases hfirst.before inner otherFault hinner with ⟨rfl, rfl⟩ | hlt
    · exact .inl ⟨rfl, rfl⟩
    · exact .inr (hmove _ _ hlt)

/-- The faults of a second step come behind those of the first one. -/
theorem Reports.bind {rest : α → Except Fault β} (h : Reports early result)
    (hrest : ∀ a, result = .ok a → Reports late (rest a))
    (horder : ∀ position fault other otherFault, early position fault → late other otherFault →
      position < other) :
    Reports (fun position fault => early position fault ∨ late position fault)
      (result >>= rest) := by
  cases h with
  | @ok a hnone =>
    refine (hrest a rfl).congr fun position fault => ?_
    exact (or_iff_right (hnone position fault)).symm
  | @error position fault hfirst =>
    refine .error ⟨.inl hfirst.found, fun other otherFault hother => ?_⟩
    rcases hother with hearly | hlate
    · exact hfirst.before other otherFault hearly
    · exact .inr (horder _ _ _ _ hfirst.found hlate)

variable {faultsOf : ι → Faults}

/-- The position as seen with one more item before. -/
def shift : Position → Position
  | [] => []
  | number :: position => (number + 1) :: position

theorem shift_lt {position other : Position} (h : position < other) :
    shift position < shift other := by
  cases other with
  | nil => cases h
  | cons number other =>
    cases position with
    | nil => exact List.nil_lt_cons _ _
    | cons number' position =>
      rcases List.cons_lt_cons_iff.mp h with hlt | ⟨rfl, hlt⟩
      · exact List.cons_lt_cons_iff.mpr (.inl (Nat.succ_lt_succ hlt))
      · exact List.cons_lt_cons_iff.mpr (.inr ⟨rfl, hlt⟩)

theorem not_along_nil (position : Position) (fault : Fault) :
    ¬ Along faultsOf [] position fault := by
  rintro ⟨hitem, _⟩
  cases hitem

theorem along_cons_iff {item : ι} {items : List ι} {position : Position} {fault : Fault} :
    Along faultsOf (item :: items) position fault ↔
      (∃ inner, position = 0 :: inner ∧ faultsOf item inner fault) ∨
        ∃ inner, position = shift inner ∧ Along faultsOf items inner fault := by
  constructor
  · rintro ⟨hitem, h⟩
    rename_i number found position
    cases number with
    | zero =>
      cases hitem
      exact .inl ⟨position, rfl, h⟩
    | succ number => exact .inr ⟨number :: position, rfl, hitem, h⟩
  · rintro (⟨inner, rfl, h⟩ | ⟨_, rfl, hitem, h⟩)
    · exact .item rfl h
    · exact .item hitem h

/-- The first item is read before the others. -/
theorem Reports.along_cons {item : ι} {items : List ι} {rest : α → Except Fault β}
    (h : Reports (faultsOf item) result)
    (hrest : ∀ a, result = .ok a → Reports (Along faultsOf items) (rest a)) :
    Reports (Along faultsOf (item :: items)) (result >>= rest) := by
  have hitem : Reports (fun position fault => ∃ inner, position = 0 :: inner ∧
      faultsOf item inner fault) result :=
    h.image fun position other hlt => List.cons_lt_cons_iff.mpr (.inr ⟨rfl, hlt⟩)
  have hitems (a : α) (ha : result = .ok a) := (hrest a ha).image fun _ _ => shift_lt
  refine (hitem.bind hitems ?_).congr fun position fault => along_cons_iff.symm
  rintro _ fault _ otherFault ⟨inner, rfl, -⟩ ⟨_, rfl, ⟨-, -⟩⟩
  exact List.cons_lt_cons_iff.mpr (.inl (Nat.succ_pos _))

theorem reports_foldlM {step : σ → ι → Except Fault σ} {items : List ι}
    (h : ∀ item ∈ items, ∀ state, Reports (faultsOf item) (step state item)) (start : σ) :
    Reports (Along faultsOf items) (items.foldlM step start) := by
  induction items generalizing start with
  | nil => exact .ok not_along_nil
  | cons item items ih =>
    obtain ⟨hitem, hitems⟩ := List.forall_mem_cons.mp h
    rw [List.foldlM_cons]
    exact (hitem start).along_cons fun state _ => ih hitems state

theorem reports_mapM {read : ι → Except Fault β} {items : List ι}
    (h : ∀ item ∈ items, Reports (faultsOf item) (read item)) :
    Reports (Along faultsOf items) (items.mapM read) := by
  induction items with
  | nil => exact .ok not_along_nil
  | cons item items ih =>
    obtain ⟨hitem, hitems⟩ := List.forall_mem_cons.mp h
    rw [List.mapM_cons]
    exact hitem.along_cons fun b _ => (ih hitems).map (b :: ·)

end

/-! ## Reading values -/

namespace Decode

variable {σ : Type}

theorem reports_string (value : Toml.Value) : Reports (TextFaults value) (string value) := by
  cases value with
  | string text =>
    refine .ok fun position fault h => ?_
    cases h with
    | wrongType hne => exact hne text rfl
  | _ =>
    refine reports_single (.wrongType (by simp)) fun other otherFault h => ?_
    cases h
    exact ⟨rfl, rfl⟩

theorem reports_count (value : Toml.Value) : Reports (CountFaults value) (count value) := by
  cases value with
  | integer n =>
    rw [count]
    split
    case isTrue hneg =>
      refine reports_single (.negative hneg) fun other otherFault h => ?_
      cases h with
      | wrongType hne => exact absurd rfl (hne n)
      | negative => exact ⟨rfl, rfl⟩
    case isFalse hneg =>
      refine .ok fun position fault h => ?_
      cases h with
      | wrongType hne => exact hne n rfl
      | negative hneg' => exact hneg hneg'
  | _ =>
    refine reports_single (.wrongType (by simp)) fun other otherFault h => ?_
    cases h
    exact ⟨rfl, rfl⟩

theorem reports_list {α : Type} {faults : Toml.Value → Faults}
    {element : Toml.Value → Except Fault α}
    (h : ∀ value, value.WellFormed → Reports (faults value) (element value)) {value : Toml.Value}
    (hvalue : value.WellFormed) : Reports (ListFaults faults value) (list element value) := by
  cases value with
  | array elements =>
    have helements := reports_mapM fun item hmem =>
      h item (Toml.wellFormed_array_iff.mp hvalue item hmem)
    refine helements.congr fun position fault => ⟨.elements, fun hfault => ?_⟩
    cases hfault with
    | wrongType hne => exact absurd rfl (hne elements)
    | elements hfault => exact hfault
  | _ =>
    refine reports_single (.wrongType (by simp)) fun other otherFault h => ?_
    cases h
    exact ⟨rfl, rfl⟩

/-- A field has the name of the kind, and setting it reports what is wrong in its value. -/
structure Field.Checks (field : Field σ) (kind : String × (Toml.Value → Faults)) : Prop where
  name : field.name = kind.1
  reports (value : Toml.Value) (state : σ) (h : value.WellFormed) :
    Reports (kind.2 value) (field.set value state)

section

variable {fields : List (Field σ)} {schema : Schema}
  (hfields : List.Forall₂ Field.Checks fields schema)

include hfields

theorem names_of_checks : fields.map (·.name) = schema.names := by
  induction hfields with
  | nil => rfl
  | cons hfield _ ih =>
    rw [List.map_cons, hfield.name, ih, Schema.names, Schema.names, List.map_cons]

/-- A key that is looked up in the fields and in their schema. -/
theorem find?_of_checks (key : String) :
    (fields.find? (·.name = key) = none ∧ List.lookup key schema = none) ∨
      ∃ field faults, fields.find? (·.name = key) = some field ∧
        List.lookup key schema = some faults ∧ field.Checks (key, faults) := by
  induction hfields with
  | nil => exact .inl ⟨rfl, rfl⟩
  | @cons field kind fields schema hfield _ ih =>
    obtain ⟨name, faults⟩ := kind
    by_cases hname : name = key
    · subst hname
      refine .inr ⟨field, faults, ?_, List.lookup_cons_self, hfield⟩
      rw [List.find?_cons_of_pos (by simpa using hfield.name)]
    · rw [List.find?_cons_of_neg (by simpa [hfield.name] using hname), List.lookup_cons,
        beq_false_of_ne (Ne.symm hname)]
      exact ih

theorem reports_setEntries {entries : Toml.Table}
    (hentries : ∀ entry ∈ entries, entry.2.WellFormed) (start : σ) :
    Reports (Along (EntryFaults schema) entries) (setEntries fields entries start) := by
  refine reports_foldlM (fun entry hmem state => ?_) start
  obtain ⟨key, value⟩ := entry
  rcases find?_of_checks hfields key with ⟨hfind, hlookup⟩ | ⟨field, faults, hfind, hlookup, hfield⟩
  · simp only [hfind, names_of_checks hfields]
    refine reports_single (.unknown hlookup) fun other otherFault h => ?_
    cases h with
    | unknown => exact ⟨rfl, rfl⟩
    | value hkey =>
      rw [hlookup] at hkey
      cases hkey
  · simp only [hfind]
    refine (hfield.reports value state (hentries _ hmem)).congr fun position fault => ?_
    refine ⟨.value hlookup, fun h => ?_⟩
    cases h with
    | unknown hnone =>
      rw [hlookup] at hnone
      cases hnone
    | value hkey h =>
      rw [hlookup] at hkey
      cases hkey
      exact h

theorem reports_setElements {elements : List Toml.Value}
    (helements : ∀ value ∈ elements, value.WellFormed) (start : σ) :
    Reports (Along FieldFaults (schema.zip elements))
      (setElements fields elements start) := by
  induction hfields generalizing elements start with
  | nil => exact .ok not_along_nil
  | @cons field kind _ _ hfield _ ih =>
    cases elements with
    | nil => exact .ok not_along_nil
    | cons element elements =>
      obtain ⟨helement, hrest⟩ := List.forall_mem_cons.mp helements
      have hfirst : Reports (FieldFaults (kind, element)) (field.set element start) :=
        hfield.reports element start helement
      rw [setElements, List.zip_cons_cons, List.zip_cons_cons, List.foldlM_cons]
      exact hfirst.along_cons fun state _ => ih hrest state

theorem reports_group {wanted : String} (hdate : List.lookup dateKey schema = none)
    {value : Toml.Value} (hvalue : value.WellFormed) (start : σ) :
    Reports (GroupFaults wanted schema value) (group wanted fields value start) := by
  cases value with
  | table entries =>
    have hentries := reports_setEntries hfields (Toml.wellFormed_table_iff.mp hvalue).2 start
    refine hentries.congr fun position fault => ⟨.entries, fun h => ?_⟩
    cases h with
    | wrongType hne => exact absurd rfl (hne entries)
    | entries h => exact h
  | array elements =>
    have helements := reports_setElements hfields (Toml.wellFormed_array_iff.mp hvalue) start
    refine helements.congr fun position fault => ⟨.elements, fun h => ?_⟩
    cases h with
    | wrongType _ hne => exact absurd rfl (hne elements)
    | elements h => exact h
  | dateTime written =>
    have hset : group wanted fields (.dateTime written) start =
        .error (.unknownField dateKey schema.names) := by
      rcases find?_of_checks hfields dateKey with ⟨hfind, -⟩ | ⟨_, _, -, hlookup, -⟩
      · rw [group, setEntries, List.foldlM_cons, hfind, names_of_checks hfields]
        rfl
      · rw [hdate] at hlookup
        cases hlookup
    rw [hset]
    refine reports_single .date fun other otherFault h => ?_
    cases h with
    | wrongType _ _ hne => exact absurd rfl (hne written)
    | date => exact ⟨rfl, rfl⟩
  | _ =>
    refine reports_single (.wrongType (by simp) (by simp) (by simp)) fun other otherFault h => ?_
    cases h
    exact ⟨rfl, rfl⟩

end

theorem checks_string {name : String} {set : Toml.Value → σ → Except Fault σ}
    (put : String → σ → σ)
    (hset : ∀ value state, set value state = string value >>= fun text => pure (put text state)) :
    Field.Checks ⟨name, set⟩ (name, TextFaults) := by
  refine ⟨rfl, fun value state _ => ?_⟩
  change Reports (TextFaults value) (set value state)
  rw [hset]
  exact (reports_string value).map fun text => put text state

theorem checks_toolchainFields : List.Forall₂ Field.Checks toolchainFields toolchainSchema :=
  .cons (checks_string (fun text state => { state with cc := some text }) fun _ _ => rfl) <|
    .cons (checks_string (fun text state => { state with cxx := some text }) fun _ _ => rfl) .nil

theorem checks_buildFields : List.Forall₂ Field.Checks buildFields buildSchema :=
  .cons (checks_string (fun text state => { state with dir := text }) fun _ _ => rfl) <|
    .cons (checks_string (fun text state => { state with generator := text }) fun _ _ => rfl) <|
    .cons ⟨rfl, fun value state _ => (reports_count value).map fun n => { state with jobs := n }⟩ <|
    .cons (checks_string (fun text state => { state with logFile := text }) fun _ _ => rfl) .nil

theorem checks_lintFields : List.Forall₂ Field.Checks lintFields lintSchema :=
  .cons ⟨rfl, fun _ state hvalue => (reports_list (fun value _ => reports_string value) hvalue).map
    fun formatDirs => { state with formatDirs }⟩ .nil

/-- What a toolchain lacks comes behind all that it has. -/
theorem lt_of_lackFaults {value : Toml.Value} {position other : Position} {fault otherFault : Fault}
    (h : GroupFaults "struct Toolchain" toolchainSchema value position fault)
    (hother : LackFaults value other otherFault) : position < other := by
  cases hother with
  | @missing entries number name hname habsent =>
    cases h with
    | wrongType hne => exact absurd rfl (hne entries)
    | entries h =>
      obtain ⟨hitem, -⟩ := h
      obtain ⟨hlt, -⟩ := List.getElem?_eq_some_iff.mp hitem
      exact List.cons_lt_cons_iff.mpr (.inl (by omega))
  | @short elements hshort =>
    cases h with
    | wrongType _ hne => exact absurd rfl (hne elements)
    | elements h =>
      obtain ⟨hitem, -⟩ := h
      obtain ⟨hlt, -⟩ := List.getElem?_eq_some_iff.mp hitem
      rw [List.length_zip] at hlt
      exact List.cons_lt_cons_iff.mpr (.inl (by omega))

theorem eq_none_iff_of_given {given : Option Toml.Tree} {compiler : Option String}
    (h : Given IsCompiler none given compiler) : compiler = none ↔ given = none := by
  cases given with
  | none => simpa [Given] using h
  | some tree =>
    obtain ⟨text, -, rfl⟩ := h
    simp

/-- The compilers that are found are those that are given. -/
theorem group_toolchain_eq_none {value : Toml.Value} (hvalue : value.WellFormed)
    {state : PartialToolchain}
    (h : group "struct Toolchain" toolchainFields value {} = .ok state) :
    (state.cc = none ↔ fieldOf ["cc", "cxx"] (some value) "cc" = none) ∧
      (state.cxx = none ↔ fieldOf ["cc", "cxx"] (some value) "cxx" = none) := by
  rw [group_eq_ok_iff (by decide) independent_toolchainFields (by decide) hvalue,
    setAll_toolchainFields_iff] at h
  obtain ⟨-, hcc, hcxx⟩ := h
  have hcc' := eq_none_iff_of_given hcc
  have hcxx' := eq_none_iff_of_given hcxx
  rw [Option.map_eq_none_iff] at hcc' hcxx'
  exact ⟨hcc', hcxx'⟩

theorem lackFaults_table_iff {entries : Toml.Table} {position : Position} {fault : Fault} :
    LackFaults (.table entries) position fault ↔
      ("cc" ∉ entries.map (·.1) ∧ position = [entries.length] ∧ fault = .missingField "cc") ∨
      ("cxx" ∉ entries.map (·.1) ∧ position = [entries.length + 1] ∧
        fault = .missingField "cxx") := by
  constructor
  · rintro ⟨hname, habsent⟩
    rename_i number name
    match number, hname with
    | 0, hname =>
      cases hname
      exact .inl ⟨habsent, rfl, rfl⟩
    | 1, hname =>
      cases hname
      exact .inr ⟨habsent, rfl, rfl⟩
  · rintro (⟨habsent, rfl, rfl⟩ | ⟨habsent, rfl, rfl⟩)
    · have hfirst : toolchainSchema.names[0]? = some "cc" := rfl
      exact .missing hfirst habsent
    · exact .missing rfl habsent

/-- A toolchain of the compilers that were found, unless one is missing. -/
def complete (value : Toml.Value) (state : PartialToolchain) : Except Fault Toolchain :=
  match state.cc, state.cxx, value with
  | some cc, some cxx, _ => return ⟨cc, cxx⟩
  | _, _, .array elements => throw (.tooShort elements.length)
  | none, _, _ => throw (.missingField "cc")
  | _, none, _ => throw (.missingField "cxx")

theorem toolchain_eq (value : Toml.Value) :
    toolchain value = group "struct Toolchain" toolchainFields value {} >>= complete value :=
  rfl

theorem reports_complete_table {entries : Toml.Table} {state : PartialToolchain}
    (hcc : state.cc = none ↔ "cc" ∉ entries.map (·.1))
    (hcxx : state.cxx = none ↔ "cxx" ∉ entries.map (·.1)) :
    Reports (LackFaults (.table entries)) (complete (.table entries) state) := by
  obtain ⟨cc, cxx⟩ := state
  cases cc with
  | none =>
    refine .error ⟨lackFaults_table_iff.mpr (.inl ⟨hcc.mp rfl, rfl, rfl⟩), ?_⟩
    intro other otherFault hother
    rcases lackFaults_table_iff.mp hother with ⟨-, rfl, rfl⟩ | ⟨-, rfl, rfl⟩
    · exact .inl ⟨rfl, rfl⟩
    · exact .inr (List.cons_lt_cons_iff.mpr (.inl (Nat.lt_succ_self _)))
  | some cc =>
    have hpresent : "cc" ∈ entries.map (·.1) := by simpa using hcc
    cases cxx with
    | none =>
      refine reports_single (lackFaults_table_iff.mpr (.inr ⟨hcxx.mp rfl, rfl, rfl⟩)) ?_
      intro other otherFault hother
      rcases lackFaults_table_iff.mp hother with ⟨habsent, -⟩ | ⟨-, rfl, rfl⟩
      · exact absurd hpresent habsent
      · exact ⟨rfl, rfl⟩
    | some cxx =>
      have hpresent' : "cxx" ∈ entries.map (·.1) := by simpa using hcxx
      refine .ok fun position fault h => ?_
      rcases lackFaults_table_iff.mp h with ⟨habsent, -⟩ | ⟨habsent, -⟩
      · exact habsent hpresent
      · exact habsent hpresent'

theorem reports_complete_array {elements : List Toml.Value} {state : PartialToolchain}
    (hstate : state.cc = none ∨ state.cxx = none ↔ elements.length < 2) :
    Reports (LackFaults (.array elements)) (complete (.array elements) state) := by
  have hshort (hlength : elements.length < 2) :
      Reports (LackFaults (.array elements)) (.error (.tooShort elements.length) :
        Except Fault Toolchain) := by
    refine reports_single (.short hlength) fun other otherFault hother => ?_
    cases hother
    exact ⟨rfl, rfl⟩
  obtain ⟨cc, cxx⟩ := state
  cases cc with
  | none => exact hshort (hstate.mp (.inl rfl))
  | some cc =>
    cases cxx with
    | none => exact hshort (hstate.mp (.inr rfl))
    | some cxx =>
      refine .ok fun position fault h => ?_
      cases h with
      | short hlength => simpa using hstate.mpr hlength

theorem reports_toolchain {value : Toml.Value} (hvalue : value.WellFormed) :
    Reports (ToolchainFaults value) (toolchain value) := by
  have hgroup : Reports (GroupFaults "struct Toolchain" toolchainSchema value) _ :=
    reports_group checks_toolchainFields rfl hvalue {}
  rw [toolchain_eq]
  refine hgroup.bind (fun state hstate => ?_) fun _ _ _ _ => lt_of_lackFaults
  obtain ⟨hcc, hcxx⟩ := group_toolchain_eq_none hvalue hstate
  cases value with
  | table entries =>
    simp only [fieldOf, Toml.lookup_eq_none_iff_not_mem] at hcc hcxx
    exact reports_complete_table hcc hcxx
  | array elements =>
    refine reports_complete_array ?_
    rw [hcc, hcxx]
    match elements with
    | [] => simp [fieldOf]
    | [_] => simp [fieldOf, List.lookup_cons]
    | _ :: _ :: _ => simp [fieldOf, List.lookup_cons]
  | _ => cases hstate

theorem checks_rootFields : List.Forall₂ Field.Checks rootFields rootSchema :=
  .cons ⟨rfl, fun _ state hvalue => reports_group checks_buildFields rfl hvalue state⟩ <|
    .cons ⟨rfl, fun _ state hvalue =>
      (reports_list (fun _ => reports_toolchain) hvalue).map
        fun toolchains => { state with toolchains }⟩ <|
    .cons ⟨rfl, fun _ state hvalue => reports_group checks_lintFields rfl hvalue state⟩ .nil

end Decode

/-- Reading a document reports its first fault. -/
theorem reports_ofTable {table : Toml.Table} (htable : (Toml.Value.table table).WellFormed) :
    Reports (DocumentFaults table) (Settings.ofTable table) :=
  Decode.reports_setEntries Decode.checks_rootFields (Toml.wellFormed_table_iff.mp htable).2 {}

/-! ## Faults of the document itself -/

/-- None of the faults is about what the document says. -/
def Faults.OfDocument (faults : Faults) : Prop :=
  ∀ position fault, faults position fault → fault.ofDocument = true

theorem ofDocument_text (value : Toml.Value) : Faults.OfDocument (TextFaults value) := by
  rintro _ _ ⟨-⟩
  rfl

theorem ofDocument_count (value : Toml.Value) : Faults.OfDocument (CountFaults value) := by
  rintro _ _ (- | -) <;> rfl

theorem ofDocument_along {ι : Type} {faults : ι → Faults} {items : List ι}
    (h : ∀ item ∈ items, (faults item).OfDocument) : (Along faults items).OfDocument := by
  rintro _ fault ⟨hitem, hfault⟩
  exact h _ (List.mem_of_getElem? hitem) _ fault hfault

theorem ofDocument_list {faults : Toml.Value → Faults} (h : ∀ value, (faults value).OfDocument)
    (value : Toml.Value) : Faults.OfDocument (ListFaults faults value) := by
  rintro position fault (- | helements)
  · rfl
  · exact ofDocument_along (fun item _ => h item) position fault helements

def Schema.OfDocument (schema : Schema) : Prop :=
  ∀ kind ∈ schema, ∀ value, (kind.2 value).OfDocument

theorem ofDocument_entry {schema : Schema} (h : schema.OfDocument) (entry : String × Toml.Value) :
    Faults.OfDocument (EntryFaults schema entry) := by
  rintro position fault (- | ⟨hkey, hfault⟩)
  · rfl
  · obtain ⟨before, after, rfl, -⟩ := List.lookup_eq_some_iff.mp hkey
    exact h _ (List.mem_append_right before List.mem_cons_self) _ position fault hfault

theorem ofDocument_group {wanted : String} {schema : Schema} (h : schema.OfDocument)
    (value : Toml.Value) : Faults.OfDocument (GroupFaults wanted schema value) := by
  rintro position fault (- | - | hentries | helements)
  · rfl
  · rfl
  · exact ofDocument_along (fun entry _ => ofDocument_entry h entry) position fault hentries
  · refine ofDocument_along (fun given hmem => ?_) position fault helements
    exact h given.1 (List.of_mem_zip hmem).1 given.2

theorem ofDocument_toolchain (value : Toml.Value) :
    Faults.OfDocument (ToolchainFaults value) := by
  have hschema : toolchainSchema.OfDocument := by
    simp [Schema.OfDocument, toolchainSchema, ofDocument_text]
  rintro position fault (hgroup | hlack)
  · exact ofDocument_group hschema value position fault hgroup
  · cases hlack <;> rfl

theorem ofDocument_documentFaults (table : Toml.Table) : (DocumentFaults table).OfDocument := by
  have hbuild : buildSchema.OfDocument := by
    simp [Schema.OfDocument, buildSchema, ofDocument_text, ofDocument_count]
  have hlint : lintSchema.OfDocument := by
    simpa [Schema.OfDocument, lintSchema] using ofDocument_list ofDocument_text
  have hroot : rootSchema.OfDocument := by
    simpa [Schema.OfDocument, rootSchema] using ⟨ofDocument_group hbuild,
      ofDocument_list ofDocument_toolchain, ofDocument_group hlint⟩
  exact ofDocument_along fun entry _ => ofDocument_entry hroot entry

end Conductor
