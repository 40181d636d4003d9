import Conductor.Failure
import Conductor.Files.Tree

/-! # Following paths

A path is followed name by name. Links on the way are replaced by what they point to, at most
forty of them; a link at the end is followed or kept, as the caller wants.
-/

namespace Conductor.Files

/-- The longest name, in bytes. -/
def maxNameSize : Nat := 255

/-- The size in bytes that no path may reach. -/
def pathSizeLimit : Nat := 4096

def maxLinks : Nat := 40

/-- A way through a tree: the entries that it leads through, the last one first. -/
abbrev Trail := List (String × Node)

namespace Trail

def here (root : Node) : Trail → Node
  | [] => root
  | (_, node) :: _ => node

def place (trail : Trail) : Place :=
  (trail.map (·.1)).reverse

end Trail

/-- Goes on by the steps from the end of a way; `jump` goes on where a link leads. -/
def followSteps (root : Node) (throughLast : Bool)
    (jump : Trail → List String → Except SystemError Trail) :
    Trail → List String → Except SystemError Trail
  | trail, [] => .ok trail
  | trail, step :: rest =>
    match trail.here root with
    | .directory entries =>
      if step = "." then followSteps root throughLast jump trail rest
      else if step = ".." then followSteps root throughLast jump trail.tail rest
      else if maxNameSize < step.utf8ByteSize then .error .nameTooLong
      else
        match List.lookup step entries with
        | none => .error .notFound
        | some (.link target) =>
          if rest.isEmpty && !throughLast then .ok ((step, .link target) :: trail)
          else
            jump (if Path.isAbsolute target then [] else trail) (Path.steps target ++ rest)
        | some node => followSteps root throughLast jump ((step, node) :: trail) rest
    | _ => .error .notDirectory

def follow (root : Node) (throughLast : Bool) :
    Nat → Trail → List String → Except SystemError Trail
  | 0 => followSteps root throughLast fun _ _ => .error .tooManyLinks
  | links + 1 => followSteps root throughLast (follow root throughLast links)

def checkPath (path : String) : Except SystemError Unit :=
  if path.toList.contains '\x00' then .error .nulInPath
  else if path.isEmpty then .error .notFound
  else if pathSizeLimit ≤ path.utf8ByteSize then .error .nameTooLong
  else .ok ()

/-- The way that an absolute path describes, through a link at its end as well. -/
def trailTo (root : Node) (path : String) : Except SystemError Trail := do
  checkPath path
  follow root true maxLinks [] (Path.steps path)

/-- The way that an absolute path describes; a link at its end is kept. -/
def trailToSelf (root : Node) (path : String) : Except SystemError Trail := do
  checkPath path
  follow root false maxLinks [] (Path.steps path)

def locate (root : Node) (path : String) : Except SystemError Place :=
  return (← trailTo root path).place

def locateSelf (root : Node) (path : String) : Except SystemError Place :=
  return (← trailToSelf root path).place

/-- What an absolute path leads to, through a link at its end as well. -/
def find? (root : Node) (path : String) : Except SystemError Node :=
  return (← trailTo root path).here root

/-- What an absolute path leads to; a link at its end is kept. -/
def findSelf? (root : Node) (path : String) : Except SystemError Node :=
  return (← trailToSelf root path).here root

/-- Whether the path leads to something, links followed. -/
def exists? (root : Node) (path : String) : Bool :=
  (locate root path).isOk

/-- Whether the path leads to a file, links followed. -/
def isFile (root : Node) (path : String) : Bool :=
  match find? root path with
  | .ok node => node.isFile
  | .error _ => false

def readText (root : Node) (path : String) : Except SystemError String := do
  match ← find? root path with
  | .file content =>
    match content.text? with
    | some text => return text
    | none => throw .notText
  | _ => throw .isDirectory

/-- The directory in which the last name of a path stands, and that name. A path that ends where a
directory stands already has none. -/
def locateParent (root : Node) (path : String) : Except SystemError (Place × Option String) := do
  checkPath path
  let names := Path.names path
  let trail ← follow root true maxLinks [] names.dropLast
  match trail.here root with
  | .directory _ =>
    match names.getLast? with
    | some name =>
      return (trail.place, if name = "." || name = ".." then none else some name)
    | none => return (trail.place, none)
  | _ => throw .notDirectory

/-- The tree with one more directory, which must not exist and whose parent must. -/
def makeDirectory (root : Node) (path : String) : Except SystemError Node := do
  match ← locateParent root path with
  | (_, none) => throw .alreadyExists
  | (place, some name) =>
    if maxNameSize < name.utf8ByteSize then throw .nameTooLong
    else if (root.get? (place ++ [name])).isSome then throw .alreadyExists
    else return root.put place name (.directory [])

end Conductor.Files
