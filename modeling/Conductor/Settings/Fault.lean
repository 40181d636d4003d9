import Conductor.Failure
import Conductor.Number.Shortest
import Conductor.Text.Quoted
import Conductor.Toml.Value

/-! # Faults of settings

What can be wrong with a file of settings: its syntax, its shape, or what it says.
-/

namespace Conductor

inductive Fault
  /-- The text is no document. -/
  | malformed
  /-- A table has a key that is not among the known ones. -/
  | unknownField (name : String) (known : List String)
  /-- A table lacks a key that it must have. -/
  | missingField (name : String)
  /-- A value is not of the kind that is wanted. -/
  | wrongType (found : Toml.Value) (wanted : String)
  /-- A number is negative where a count is wanted. -/
  | negative (value : Int)
  /-- An array stands for a toolchain and has too few elements. -/
  | tooShort (length : Nat)
  | noToolchain
  | noJobs
  | blankDir

namespace Fault

def ticked (word : String) : String := "`" ++ word ++ "`"

/-- The kind of a value and, where it is short, the value itself. A date counts as a table. -/
def found : Toml.Value → String
  | .string text => "string " ++ Text.quoted text
  | .integer n => "integer " ++ ticked (toString n)
  | .float x => "floating point " ++ ticked x.text
  | .boolean b => "boolean " ++ ticked (if b then "true" else "false")
  | .dateTime _ => "map"
  | .array _ => "sequence"
  | .table _ => "map"

def expected : List String → String
  | [] => "there are no fields"
  | [a] => "expected " ++ ticked a
  | [a, b] => "expected " ++ ticked a ++ " or " ++ ticked b
  | names => "expected one of " ++ ", ".intercalate (names.map ticked)

def message : Fault → String
  | .malformed => "<toml syntax error>"
  | .unknownField name known => "unknown field " ++ ticked name ++ ", " ++ expected known
  | .missingField name => "missing field " ++ ticked name
  | .wrongType value wanted => "invalid type: " ++ found value ++ ", expected " ++ wanted
  | .negative n => "invalid value: integer " ++ ticked (toString n) ++ ", expected usize"
  | .tooShort length =>
    "invalid length " ++ toString length ++ ", expected struct Toolchain with 2 elements"
  | .noToolchain => "at least one [[toolchains]] entry is required"
  | .noJobs => "build.jobs must be greater than 0"
  | .blankDir => "build.dir must not be empty"

/-- Whether the document itself is at fault, and not what it says. -/
def ofDocument : Fault → Bool
  | .noToolchain => false
  | .noJobs => false
  | .blankDir => false
  | _ => true

def failure (fault : Fault) : Failure :=
  let failure := Failure.ofCause (.invalidConfig fault.message)
  if fault.ofDocument then failure.within "Failed to parse Eugene.toml" else failure

end Fault

end Conductor
