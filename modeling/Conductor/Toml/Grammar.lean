import Conductor.Toml.Scalars
import Conductor.Toml.Section

/-! # The grammar of TOML

Keys, values and statements. Brackets nest at most 79 deep, and a dotted key has at most 79 parts.
A repetition goes on only while text is used up.
-/

namespace Conductor.Toml

/-- The deepest nesting of brackets, and the most parts of a key. -/
def maxDepth : Nat := 79

/-- A key without dots: bare, or a string of one line. -/
def simpleKey (cs : List Char) : Option (String × List Char) :=
  match cs with
  | '"' :: _ | '\'' :: _ => (lineString cs).map fun (text, rest) => (String.ofList text, rest)
  | cs =>
    let key := cs.takeWhile isBareKeyChar
    if key.isEmpty then none else some (String.ofList key, cs.dropWhile isBareKeyChar)

def keyParts (cs : List Char) : Option (List String × List Char) :=
  match simpleKey (dropSpaces cs) with
  | none => none
  | some (part, rest) =>
    match dropSpaces rest with
    | '.' :: more =>
      if more.length < cs.length then (keyParts more).map fun (parts, rest) => (part :: parts, rest)
      else none
    | rest => some ([part], rest)
termination_by cs.length

/-- A dotted key: the path to a table, and the key in it. -/
def dottedKey (cs : List Char) : Option ((List String × String) × List Char) :=
  match keyParts cs with
  | none => none
  | some (parts, rest) =>
    match parts.getLast? with
    | some key => if parts.length ≤ maxDepth then some ((parts.dropLast, key), rest) else none
    | none => none

def keyValue (value : Scan Value) (cs : List Char) :
    Option ((List String × String × Value) × List Char) :=
  match dottedKey cs with
  | some ((path, key), '=' :: rest) =>
    (value (dropSpaces rest)).map fun (value, rest) => ((path, key, value), dropSpaces rest)
  | _ => none

/-- The rest of an array after its opening bracket or a comma. -/
def arrayRest (value : Scan Value) (cs : List Char) : Option (List Value × List Char) :=
  match skipLines false cs with
  | none => none
  | some (']' :: rest) => some ([], rest)
  | some start =>
    match value start with
    | none => none
    | some (element, rest) =>
      match skipLines false rest with
      | some (',' :: more) =>
        if more.length < cs.length then
          (arrayRest value more).map fun (elements, rest) => (element :: elements, rest)
        else none
      | some (']' :: more) => some ([element], more)
      | _ => none
termination_by cs.length

/-- The pairs of an inline table up to its closing bracket, at least one. -/
def inlinePairs (value : Scan Value) (cs : List Char) :
    Option (List (List String × String × Value) × List Char) :=
  match keyValue value cs with
  | some (pair, ',' :: more) =>
    if more.length < cs.length then
      (inlinePairs value more).map fun (pairs, rest) => (pair :: pairs, rest)
    else none
  | some (pair, '}' :: more) => some ([pair], more)
  | _ => none
termination_by cs.length

def inlineRest (value : Scan Value) (cs : List Char) : Option (Value × List Char) :=
  match dropSpaces cs with
  | '}' :: rest => some (.table [], rest)
  | start =>
    match inlinePairs value start with
    | none => none
    | some (pairs, rest) =>
      (Entries.insertAll pairs []).map fun entries => (.table (Entries.values entries), rest)

/-- A value in which brackets nest at most `depth` deep. -/
def value (depth : Nat) (cs : List Char) : Option (Value × List Char) :=
  match cs with
  | '"' :: _ | '\'' :: _ =>
    (anyString cs).map fun (text, rest) => (.string (String.ofList text), rest)
  | '[' :: rest =>
    match depth with
    | 0 => none
    | depth + 1 => (arrayRest (value depth) rest).map fun (elements, rest) =>
      (.array elements, rest)
  | '{' :: rest =>
    match depth with
    | 0 => none
    | depth + 1 => inlineRest (value depth) rest
  | cs => scalar cs

inductive Statement
  /-- The header of a table. -/
  | table (path : List String) (key : String)
  /-- The header of one more table of an array. -/
  | element (path : List String) (key : String)
  | pair (path : List String) (key : String) (value : Value)

/-- A statement without the end of its line. -/
def statement (cs : List Char) : Option (Statement × List Char) :=
  match cs with
  | '[' :: '[' :: rest =>
    match dottedKey rest with
    | some ((path, key), ']' :: ']' :: rest) => some (.element path key, rest)
    | _ => none
  | '[' :: rest =>
    match dottedKey rest with
    | some ((path, key), ']' :: rest) => some (.table path key, rest)
    | _ => none
  | cs =>
    (keyValue (value maxDepth) cs).map fun ((path, key, value), rest) =>
      (.pair path key value, rest)

def statements (cs : List Char) : Option (List Statement) :=
  match skipLines false cs with
  | none => none
  | some [] => some []
  | some start =>
    match statement start with
    | none => none
    | some (first, rest) =>
      match lineEnd? rest with
      | none => none
      | some more =>
        if more.length < cs.length then (statements more).map (first :: ·) else none
termination_by cs.length

end Conductor.Toml
