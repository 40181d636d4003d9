import Conductor.Number.Binary64

/-! # TOML values

What a TOML document denotes. The entries of a table stand in the order of the document.
-/

namespace Conductor.Toml

inductive Value
  | string (text : String)
  | integer (value : Int)
  | float (value : Number.Binary64)
  | boolean (value : Bool)
  /-- A date, a time, or both, as it is written. -/
  | dateTime (written : String)
  | array (elements : List Value)
  | table (entries : List (String × Value))

/-- The entries of a table: keys with their values, each key once. -/
abbrev Table := List (String × Value)

end Conductor.Toml
