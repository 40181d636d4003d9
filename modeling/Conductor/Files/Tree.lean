import Conductor.Files.Path

/-! # File trees

Files, links and directories. A place in a tree is the list of names that lead to it from the
root, without links. Names are texts, so a file whose name is not UTF-8 is in no tree.
-/

namespace Conductor.Files

inductive Content
  | bytes (data : ByteArray)
  /-- That many zero bytes. -/
  | zeros (count : Nat)

namespace Content

def size : Content → Nat
  | .bytes data => data.size
  | .zeros count => count

def text? : Content → Option String
  | .bytes data => String.fromUTF8? data
  | .zeros count => some ("".pushn '\x00' count)

def ofText (text : String) : Content :=
  .bytes text.toUTF8

end Content

inductive Node
  | file (content : Content)
  | link (target : String)
  | directory (entries : List (String × Node))

/-- The entries of a directory: names with what they stand for. -/
abbrev Entries := List (String × Node)

abbrev Place := List String

def Entries.put (entries : Entries) (name : String) (node : Node) : Entries :=
  if (List.lookup name entries).isSome then
    entries.map fun entry => if entry.1 = name then (name, node) else entry
  else entries ++ [(name, node)]

def Entries.remove (entries : Entries) (name : String) : Entries :=
  entries.filter (·.1 ≠ name)

namespace Node

def isDirectory : Node → Bool
  | .directory _ => true
  | _ => false

def isFile : Node → Bool
  | .file _ => true
  | _ => false

/-- The entries of a directory; all else has none. -/
def entries : Node → Entries
  | .directory entries => entries
  | _ => []

def get? (node : Node) : Place → Option Node
  | [] => some node
  | name :: rest =>
    match node with
    | .directory entries =>
      match List.lookup name entries with
      | some below => below.get? rest
      | none => none
    | _ => none

def modify (change : Node → Node) (node : Node) : Place → Node
  | [] => change node
  | name :: rest =>
    match node with
    | .directory entries =>
      .directory (entries.map fun entry =>
        if entry.1 = name then (entry.1, entry.2.modify change rest) else entry)
    | node => node

def put (node : Node) (place : Place) (name : String) (below : Node) : Node :=
  node.modify (fun here => .directory (here.entries.put name below)) place

def remove (node : Node) (place : Place) (name : String) : Node :=
  node.modify (fun here => .directory (here.entries.remove name)) place

def clear (node : Node) (place : Place) : Node :=
  node.modify (fun _ => .directory []) place

mutual

/-- The lines that list what stands below a directory whose path, with a slash, is `above`. -/
def list (above : String) : Node → List String
  | .file content => [above ++ " " ++ toString content.size]
  | .link target => [above ++ " -> " ++ target]
  | .directory entries => (above ++ "/") :: listEntries (above ++ "/") entries

def listEntries (above : String) : List (String × Node) → List String
  | [] => []
  | (name, node) :: rest => node.list (above ++ name) ++ listEntries above rest

end

/-- The lines that list all that stands below a directory, in ascending order. -/
def listing (node : Node) : List String :=
  (listEntries "" node.entries).mergeSort (fun a b => a ≤ b)

end Node

end Conductor.Files
