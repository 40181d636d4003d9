import Conductor.Files.Remove
import Conductor.Tools

/-! # Scripted tools

A host whose tools follow rules instead of doing work, and a remover that acts on the files.
-/

namespace Conductor.Scripted

/-- How a tool behaves while a variable has a value; an unset variable counts as empty. -/
structure Rule where
  condition : Option (String × String)
  code : Option Int
  printed : String
  deriving DecidableEq, Repr

inductive Behaviour
  /-- The first rule that applies decides; if none does, the tool succeeds in silence. -/
  | rules (rules : List Rule)
  | notExecutable
  /-- Removes files and directories of the project. -/
  | remover
  deriving DecidableEq, Repr

abbrev Table := List (String × Behaviour)

def Rule.applies (rule : Rule) (environment : Environment) : Bool :=
  match rule.condition with
  | none => true
  | some (name, value) => (List.lookup name environment.assigned).getD "" = value

def followRules (rules : List Rule) (environment : Environment) : Response :=
  match rules.find? (·.applies environment) with
  | some rule => .ended rule.code rule.printed
  | none => .ended (some 0) ""

/-- How a remover acts on the files in a directory: whether it removes directories too, the path
it is given, and whether that went well. -/
abbrev Remover := Files.Node → String → Bool → String → Bool × Files.Node

def remove (remover : Remover) (project : String) (arguments : List String)
    (files : Files.Node) : Response × Files.Node :=
  let report (result : Bool × Files.Node) : Response × Files.Node :=
    (.ended (some (if result.1 then 0 else 1)) "", result.2)
  match arguments with
  | ["-rf", path] => report (remover files project true path)
  | ["-f", path] => report (remover files project false path)
  | _ => (.ended (some 1) "", files)

def runTool (remover : Remover) (table : Table) (project : String) (line : CommandLine)
    (environment : Environment) (files : Files.Node) : Response × Files.Node :=
  match List.lookup line.program table with
  | none => (.refused .notFound, files)
  | some .notExecutable => (.refused .permissionDenied, files)
  | some (.rules rules) => (followRules rules environment, files)
  | some .remover => remove remover project line.arguments files

def finds (table : Table) (program : String) : Bool :=
  match List.lookup program table with
  | none => false
  | some .notExecutable => false
  | some _ => true

/-- A host with the tools of the table, which takes every text. -/
def host (table : Table) (project : String) : Host where
  finds := finds table
  accepts _ := true
  run := runTool Files.removeIn table project

/-- Why an operating system does not even look for a program in the table. A program with a slash
in its name is looked for among the files of the project, of which none can be run, and a point or
two stand for directories. -/
def refusal? (project : String) (line : CommandLine) (files : Files.Node) : Option SystemError :=
  if hasNul line.program || line.arguments.any hasNul then some .nulInArgument
  else if line.program.toList.contains '/' then
    match Files.find? files (Files.Path.join project line.program) with
    | .ok _ => some .permissionDenied
    | .error error => some error
  else if line.program = "." || line.program = ".." then some .permissionDenied
  else if Files.maxNameSize < line.program.utf8ByteSize then some .nameTooLong
  else none

/-- The longest text in bytes that a process can be given. -/
def maxTextSize : Nat := 131071

/-- Whether an argument, or a variable with its value, is too long for a process. -/
def isOversized (line : CommandLine) (environment : Environment) : Bool :=
  (line.program :: line.arguments).any (maxTextSize < ·.utf8ByteSize) ||
    environment.assigned.any fun (name, value) =>
      maxTextSize < name.utf8ByteSize + 1 + value.utf8ByteSize

/-- What an operating system makes of a run: it refuses a process that is given too much, and of
an exit code it keeps one byte. -/
def systemRun (table : Table) (project : String) (line : CommandLine) (environment : Environment)
    (files : Files.Node) : Response × Files.Node :=
  match runTool Files.systemRemoveIn table project line environment files with
  | (.refused error, files) => (.refused error, files)
  | (.ended code printed, changed) =>
    if isOversized line environment then (.refused .oversizedArgument, files)
    else (.ended (code.map (· % 256)) printed, changed)

/-- A host with the tools of the table that is as strict as an operating system. -/
def systemHost (table : Table) (project : String) : Host where
  finds := finds table
  accepts value := !hasNul value
  run line environment files :=
    match refusal? project line files with
    | some error => (.refused error, files)
    | none => systemRun table project line environment files

end Conductor.Scripted
