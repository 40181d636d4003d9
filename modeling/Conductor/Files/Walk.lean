import Conductor.Files.Resolve

/-! # Walking through directories

What stands below a directory, without following links. A link is followed only where the walk
begins, and what cannot be reached is passed over.
-/

namespace Conductor.Files

def isShortPath (path : String) : Bool :=
  path.utf8ByteSize < pathSizeLimit

mutual

/-- The bytes of all files at or below a node whose path is `path`. All is asked for by its path, so
nothing is seen where that is too long. -/
def Node.sizeFrom (path : String) : Node → Nat
  | .file content => if isShortPath path then content.size else 0
  | .link _ => 0
  | .directory entries => if isShortPath path then Entries.sizeFrom path entries else 0

def Entries.sizeFrom (path : String) : List (String × Node) → Nat
  | [] => 0
  | (name, node) :: rest => node.sizeFrom (Path.join path name) + Entries.sizeFrom path rest

end

/-- The bytes of all files at or below a path, as a number of 64 bits. -/
def sizeAt (root : Node) (path : String) : UInt64 :=
  match findSelf? root path with
  | .ok (.file content) => UInt64.ofNat ((Node.file content).sizeFrom path)
  | .ok (.directory entries) => UInt64.ofNat ((Node.directory entries).sizeFrom path)
  | .ok (.link _) =>
    match find? root path with
    | .ok (.directory entries) => UInt64.ofNat ((Node.directory entries).sizeFrom path)
    | _ => 0
  | .error _ => 0

mutual

/-- The paths of the files named `wanted` at or below a node; its own path is `here`. Entries that
`enter` refuses are left out with all that is below them, nothing is seen of a directory that `read`
refuses, and names are taken in order. -/
def Node.search (wanted : String) (enter read : Place → Bool) (here : Place) : Node → List Place
  | .file _ => if here.getLast? = some wanted then [here] else []
  | .link _ => []
  | .directory entries =>
    if read here then
      ((Entries.searchEach wanted enter read here entries).mergeSort
        fun a b => a.1 ≤ b.1).flatMap (·.2)
    else []

def Entries.searchEach (wanted : String) (enter read : Place → Bool) (here : Place) :
    List (String × Node) → List (String × List Place)
  | [] => []
  | (name, node) :: rest =>
    let more := Entries.searchEach wanted enter read here rest
    if enter (here ++ [name]) then (name, node.search wanted enter read (here ++ [name])) :: more
    else more

end

def listsName : String := "CMakeLists.txt"

/-- Whether a walk from `base` enters a place: neither a hidden one nor the build directory. -/
def entersFrom (base buildDir : String) (place : Place) : Bool :=
  !((place.getLastD "").toList.head? = some '.') &&
    Path.components base ++ place ≠ Path.components (Path.join base buildDir)

/-- Whether a walk from `base` can read what is at a place, which it asks for by its path. -/
def readsFrom (base : String) (place : Place) : Bool :=
  isShortPath (place.foldl Path.join base)

/-- The paths, as seen from `base`, of all lists of build targets outside of hidden directories
and the build directory. -/
def findLists (root : Node) (base buildDir : String) : List String :=
  let search (node : Node) : List String :=
    (node.search listsName (entersFrom base buildDir) (readsFrom base) []).map Path.ofNames
  match findSelf? root base with
  | .ok (.file _) => if (Path.components base).getLast? = some listsName then [""] else []
  | .ok (.directory entries) => search (.directory entries)
  | .ok (.link _) =>
    match find? root base with
    | .ok (.directory entries) => search (.directory entries)
    | _ => []
  | .error _ => []

end Conductor.Files
