/-! # Paths

A path is a text whose names are parted by slashes; several slashes count as one. A slash at the
end asks for a directory, so it counts as one more step that stays where it is.
-/

namespace Conductor.Files

/-- The pieces of a text between its slashes, empty ones included. -/
def splitSlash : List Char → List (List Char)
  | [] => [[]]
  | c :: rest =>
    if c = '/' then [] :: splitSlash rest
    else
      match splitSlash rest with
      | [] => [[c]]
      | piece :: pieces => (c :: piece) :: pieces

namespace Path

def isAbsolute (path : String) : Bool :=
  path.toList.head? = some '/'

def asksDirectory (path : String) : Bool :=
  path.toList.getLast? = some '/'

def names (path : String) : List String :=
  ((splitSlash path.toList).filter (! ·.isEmpty)).map String.ofList

/-- The names of the path as steps of a walk. -/
def steps (path : String) : List String :=
  if asksDirectory path then names path ++ ["."] else names path

/-- The path seen from `base`; an absolute path stays what it is. -/
def join (base path : String) : String :=
  if isAbsolute path then path
  else if base.isEmpty || asksDirectory base then base ++ path
  else base ++ "/" ++ path

/-- The parts by which paths are compared: where the path begins, and its names. Names that stay in
place count only at the beginning of a relative path. -/
def components (path : String) : List String :=
  let start :=
    if isAbsolute path then ["/"] else if (names path).head? = some "." then ["."] else []
  start ++ (names path).filter (· ≠ ".")

def ofNames (names : List String) : String :=
  "/".intercalate names

end Path

end Conductor.Files
