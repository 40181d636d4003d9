import Conductor.Files.Resolve

/-! # Removing files

What a careful tool removes: never anything outside of its directory, and never that directory.
A link is removed itself, and not what it points to.
-/

namespace Conductor.Files

def hasTwoPoints : List Char → Bool
  | '.' :: '.' :: _ => true
  | _ :: rest => hasTwoPoints rest
  | [] => false

/-- The paths that are never removed: those that name the directory itself, those that may lead out
of it, and those that look like an option. -/
def isProtected (path : String) : Bool :=
  (Path.names path).all (· = ".") || path.toList.head? = some '/' ||
    path.toList.head? = some '-' || hasTwoPoints path.toList

def endsInPoint (path : String) : Bool :=
  (splitSlash path.toList).getLast? = some ['.']

/-- The tree without what stands at an absolute path. A directory is emptied first, and stays when
its path ends in no name of its own. -/
def removeTree (root : Node) (path : String) : Except SystemError Node := do
  let place ← locateSelf root path
  let parent ← locateParent root path
  match root.get? place, parent with
  | some (.directory _), (place', some name) =>
    if place' ++ [name] = place then return root.remove place' name
    else throw .notDirectory
  | some _, (place', some name) => return root.remove place' name
  | _, _ => throw .notDirectory

/-- The tree without what stands at an absolute path, or with the directory there emptied if it
cannot be removed itself. -/
def removeOrClear (root : Node) (path : String) : Node :=
  match removeTree root path, locate root path with
  | .ok root, _ => root
  | .error _, .ok place => root.clear place
  | .error _, .error _ => root

/-- The tree and whether the removal went well, for a tool that runs in the directory `base`.
With `whole` directories are removed too, but not by a point that stands for them. What is not
there, or no longer there, counts as removed. -/
def removeIn (root : Node) (base : String) (whole : Bool) (path : String) : Bool × Node :=
  if isProtected path then (false, root)
  else
    let full := Path.join base path
    match findSelf? root full with
    | .error _ => (true, root)
    | .ok (.directory _) =>
      if whole && !endsInPoint path then
        let after := removeOrClear root full
        ((removeTree root full).isOk || !(findSelf? after full).isOk, after)
      else (false, root)
    | .ok _ => ((removeTree root full).isOk, removeOrClear root full)

/-- Whether a look-up says that there is nothing to be removed, so that a remover need not worry. -/
def isNoObstacle : Except SystemError Node → Bool
  | .ok _ => true
  | .error .notFound => true
  | .error .notDirectory => true
  | .error _ => false

/-- The same for the remover of an operating system. It does not take a point for a name, with
slashes after it or without, and worries if it cannot find out whether something is there. -/
def systemRemoveIn (root : Node) (base : String) (whole : Bool) (path : String) : Bool × Node :=
  if isProtected path then (false, root)
  else
    let full := Path.join base path
    match findSelf? root full with
    | .error _ => (isNoObstacle (findSelf? root ("/" ++ Path.ofNames (Path.names full))), root)
    | .ok (.directory _) =>
      if whole && (Path.names path).getLast? ≠ some "." then (true, removeOrClear root full)
      else (false, root)
    | .ok _ => (true, removeOrClear root full)

end Conductor.Files
