import Conductor.Settings.Basic
import Conductor.Settings.Fault
import Conductor.Text.Blank
import Conductor.Toml.Document

/-! # Reading settings

A document sets fields of the default settings. A group of fields may be given as a table or as an
array of its fields in order. The first fault in the order of the document is reported, and
whether the result can be used is looked at last.
-/

namespace Conductor

namespace Decode

def string : Toml.Value → Except Fault String
  | .string text => .ok text
  | value => .error (.wrongType value "a string")

def count : Toml.Value → Except Fault Nat
  | .integer n => if n < 0 then .error (.negative n) else .ok n.toNat
  | value => .error (.wrongType value "usize")

def list {α : Type} (element : Toml.Value → Except Fault α) : Toml.Value → Except Fault (List α)
  | .array values => values.mapM element
  | value => .error (.wrongType value "a sequence")

structure Field (σ : Type) where
  name : String
  set : Toml.Value → σ → Except Fault σ

/-- The key under which a date shows itself where a table is wanted. -/
def dateKey : String := "$__toml_private_datetime"

def setEntries {σ : Type} (fields : List (Field σ)) (entries : Toml.Table) (start : σ) :
    Except Fault σ :=
  entries.foldlM (fun state entry =>
    match fields.find? (·.name = entry.1) with
    | some field => field.set entry.2 state
    | none => .error (.unknownField entry.1 (fields.map (·.name)))) start

/-- Sets the fields by position; surplus elements are ignored. -/
def setElements {σ : Type} (fields : List (Field σ)) (elements : List Toml.Value) (start : σ) :
    Except Fault σ :=
  (fields.zip elements).foldlM (fun state pair => pair.1.set pair.2 state) start

/-- A group of fields that keep their defaults when they are not given. -/
def group {σ : Type} (wanted : String) (fields : List (Field σ)) (value : Toml.Value)
    (start : σ) : Except Fault σ :=
  match value with
  | .table entries => setEntries fields entries start
  | .array elements => setElements fields elements start
  | .dateTime written => setEntries fields [(dateKey, .string written)] start
  | value => .error (.wrongType value wanted)

/-- A toolchain of which a compiler may still be missing. -/
structure PartialToolchain where
  cc : Option String := none
  cxx : Option String := none

def toolchainFields : List (Field PartialToolchain) :=
  [⟨"cc", fun value state => return { state with cc := some (← string value) }⟩,
    ⟨"cxx", fun value state => return { state with cxx := some (← string value) }⟩]

/-- A toolchain, of which both compilers must be given. -/
def toolchain (value : Toml.Value) : Except Fault Toolchain := do
  let state ← group "struct Toolchain" toolchainFields value {}
  match state.cc, state.cxx, value with
  | some cc, some cxx, _ => return ⟨cc, cxx⟩
  | _, _, .array elements => throw (.tooShort elements.length)
  | none, _, _ => throw (.missingField "cc")
  | _, none, _ => throw (.missingField "cxx")

def buildFields : List (Field Settings) :=
  [⟨"dir", fun value state => return { state with dir := ← string value }⟩,
    ⟨"generator", fun value state => return { state with generator := ← string value }⟩,
    ⟨"jobs", fun value state => return { state with jobs := ← count value }⟩,
    ⟨"log_file", fun value state => return { state with logFile := ← string value }⟩]

def lintFields : List (Field Settings) :=
  [⟨"format_dirs", fun value state => return { state with formatDirs := ← list string value }⟩]

def rootFields : List (Field Settings) :=
  [⟨"build", group "struct BuildConfig" buildFields⟩,
    ⟨"toolchains", fun value state => return { state with toolchains := ← list toolchain value }⟩,
    ⟨"lint", group "struct LintConfig" lintFields⟩]

end Decode

namespace Settings

def ofTable (table : Toml.Table) : Except Fault Settings :=
  Decode.setEntries Decode.rootFields table {}

def validate (settings : Settings) : Except Fault Unit :=
  if settings.toolchains.isEmpty then .error .noToolchain
  else if settings.jobs = 0 then .error .noJobs
  else if (Text.trim settings.dir).isEmpty then .error .blankDir
  else .ok ()

def parse (text : String) : Except Fault Settings :=
  match Toml.parse? text with
  | none => .error .malformed
  | some table => do
    let settings ← ofTable table
    settings.validate
    return settings

end Settings

end Conductor
