import Conductor.Files.Remove

/-! # Filling a tree

Directories, files and links are put into a tree one after the other, each with the directories
that lead to it. What cannot be put leaves the tree as it is.
-/

namespace Conductor.Files

inductive Item
  | directory (path : String)
  | file (path : String) (content : Content)
  | link (path target : String)

def keepOr (root : Node) : Except SystemError Node → Node
  | .ok changed => changed
  | .error _ => root

/-- The tree with the directories below the place `above` that the names lead through. -/
def makeEach (root : Node) (above : List String) : List String → Node
  | [] => root
  | name :: rest =>
    let path := above ++ [name]
    makeEach (keepOr root (makeDirectory root ("/" ++ Path.ofNames path))) path rest

/-- The tree with the directory at a path and all that lead to it. -/
def makeDirectories (root : Node) (path : String) : Node :=
  makeEach root [] (Path.names path)

def parentPath (path : String) : String :=
  "/" ++ Path.ofNames (Path.names path).dropLast

/-- The tree with a new entry that is no directory. -/
def addEntry (root : Node) (path : String) (node : Node) : Except SystemError Node := do
  match ← locateParent root path with
  | (_, none) => throw .isDirectory
  | (place, some name) =>
    if maxNameSize < name.utf8ByteSize then throw .nameTooLong
    else return root.put place name node

/-- The tree with another content of the file at an absolute path; the file need not be there. At
most `links` links are followed at the end. -/
def writeFile (root : Node) (content : Content) : Nat → String → Except SystemError Node
  | 0, _ => .error .tooManyLinks
  | links + 1, path =>
    match findSelf? root path with
    | .ok (.link target) => do
      let place ← locateSelf root path
      writeFile root content links (Path.join ("/" ++ Path.ofNames place.dropLast) target)
    | .ok (.directory _) => .error .isDirectory
    | .ok (.file _) => addEntry root path (.file content)
    | .error .notFound => addEntry root path (.file content)
    | .error error => .error error

/-- The tree with a new link; nothing may be there yet. -/
def makeLink (root : Node) (path target : String) : Except SystemError Node :=
  match findSelf? root path with
  | .ok _ => .error .alreadyExists
  | .error _ => addEntry root path (.link target)

def Item.put (root : Node) : Item → Node
  | .directory path => makeDirectories root path
  | .file path content =>
    let root := makeDirectories root (parentPath path)
    keepOr root (writeFile root content maxLinks path)
  | .link path target =>
    let root := makeDirectories root (parentPath path)
    keepOr root (makeLink root path target)

def populate (root : Node) (items : List Item) : Node :=
  items.foldl Item.put root

/-- The tree without what stands at an absolute path, and whether something stood there. -/
def discard (root : Node) (path : String) : Bool × Node :=
  match removeTree root path with
  | .ok root => (true, root)
  | .error _ => (false, root)

end Conductor.Files
