import Conductor.Toml.Value

/-! # Tables under construction

A document adds to its tables by headers and by dotted keys, and the way in which a table came
into being decides what may still be added to it. No value is ever replaced.
-/

namespace Conductor.Toml

inductive Origin
  /-- By a header of its own, or as the document itself. -/
  | opened
  /-- By the header of a table below it. -/
  | implied
  /-- By a dotted key. -/
  | dotted
  deriving DecidableEq

/-- A value of a document under construction: finished, a table, or an array of the tables whose
headers stand between double brackets. -/
inductive Node
  | leaf (value : Value)
  | table (origin : Origin) (entries : List (String × Node))
  | tables (elements : List (List (String × Node)))

abbrev Entries := List (String × Node)

namespace Entries

/-- The entries with the node of `key` exchanged in its place. -/
def replace (entries : Entries) (key : String) (node : Node) : Entries :=
  entries.map fun entry => if entry.1 = key then (key, node) else entry

def erase (entries : Entries) (key : String) : Entries :=
  entries.filter (·.1 ≠ key)

/-- Changes the table at the end of the path by `change`. Tables that are missing on the way are
made with the origin `made`; a dotted key does not enter a table that has a header. In an array of
tables the way leads into the last one. -/
def descend (made : Origin) (change : Origin → Entries → Option Entries) :
    List String → Origin → Entries → Option Entries
  | [], origin, entries => change origin entries
  | key :: path, _, entries =>
    match List.lookup key entries with
    | none =>
      (descend made change path made []).map fun below => entries ++ [(key, .table made below)]
    | some (.leaf _) => none
    | some (.table origin below) =>
      if made = .dotted && origin = .opened then none
      else (descend made change path origin below).map fun below =>
        entries.replace key (.table origin below)
    | some (.tables elements) =>
      match elements.getLast? with
      | none => none
      | some last =>
        (descend made change path .opened last).map fun last =>
          entries.replace key (.tables (elements.dropLast ++ [last]))

/-- Adds a value under a dotted key. The table that takes it must be the one at hand or have come
from dotted keys, and must not have the key. -/
def insert (path : List String) (key : String) (value : Value) (entries : Entries) :
    Option Entries :=
  descend .dotted (fun origin below =>
    if !path.isEmpty && origin ≠ .dotted then none
    else if (List.lookup key below).isSome then none
    else some (below ++ [(key, .leaf value)])) path .opened entries

def insertAll (pairs : List (List String × String × Value)) (entries : Entries) :
    Option Entries :=
  pairs.foldlM (fun entries pair => entries.insert pair.1 pair.2.1 pair.2.2) entries

/-- Adds the table of a header. A table that only headers below it implied is taken up again, and
moves behind its siblings. -/
def addTable (path : List String) (key : String) (pairs : List (List String × String × Value))
    (entries : Entries) : Option Entries :=
  descend .implied (fun _ siblings =>
    match List.lookup key siblings with
    | none => (insertAll pairs []).map fun body => siblings ++ [(key, .table .opened body)]
    | some (.table .implied below) =>
      (insertAll pairs below).map fun body => siblings.erase key ++ [(key, .table .opened body)]
    | some _ => none) path .opened entries

def addElement (path : List String) (key : String) (pairs : List (List String × String × Value))
    (entries : Entries) : Option Entries :=
  descend .implied (fun _ siblings =>
    match List.lookup key siblings with
    | none => (insertAll pairs []).map fun body => siblings ++ [(key, .tables [body])]
    | some (.tables elements) =>
      (insertAll pairs []).map fun body => siblings.replace key (.tables (elements ++ [body]))
    | some _ => none) path .opened entries

end Entries

mutual

def Node.value : Node → Value
  | .leaf value => value
  | .table _ entries => .table (Entries.values entries)
  | .tables elements => .array (Entries.arrayValues elements)

def Entries.values : List (String × Node) → Table
  | [] => []
  | (key, node) :: rest => (key, node.value) :: Entries.values rest

def Entries.arrayValues : List (List (String × Node)) → List Value
  | [] => []
  | entries :: rest => .table (Entries.values entries) :: Entries.arrayValues rest

end

end Conductor.Toml
