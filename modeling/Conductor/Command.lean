import Conductor.Failure
import Conductor.Text.Lowercase

/-! # Commands

The words of a command line in lower case, and the command that they name. What follows the
command is searched for flags, so that a flag may stand anywhere in it.
-/

namespace Conductor

/-- A command name and the words after it, in lower case. -/
structure Invocation where
  command : String
  arguments : List String
  deriving DecidableEq, Repr

namespace Invocation

/-- The invocation that the words denote; without a word there is none. -/
def ofTokens : List String → Option Invocation
  | [] => none
  | command :: arguments => some ⟨Text.lowercase command, arguments.map Text.lowercase⟩

/-- At most one word may follow the command. -/
def checkArity (invocation : Invocation) : Except Cause Unit :=
  if 1 < invocation.arguments.length then
    .error (.tooManyArguments invocation.arguments.length)
  else .ok ()

end Invocation

/-- Whether `word` occurs in `text` without a gap. -/
def occursIn (word text : List Char) : Bool :=
  match text with
  | [] => word.isEmpty
  | c :: rest => word.isPrefixOf (c :: rest) || occursIn word rest

def hasFlag (flag : String) (argument : Option String) : Bool :=
  match argument with
  | some text => occursIn flag.toList text.toList
  | none => false

inductive Command
  | build (tests docs : Bool)
  | config
  | test (run : Bool)
  | clean (forced kind : Bool)
  | lint
  | doc (upload : Bool)
  | version
  deriving DecidableEq, Repr

namespace Command

/-- The command, unless it has an argument and takes none. -/
def alone (name : String) (argument : Option String) (command : Command) :
    Except Cause (Option Command) :=
  match argument with
  | some text => .error (.unexpectedArgument name text)
  | none => .ok (some command)

/-- The command of a name with at most one argument; an unknown name is none. -/
def ofName (name : String) (argument : Option String) : Except Cause (Option Command) :=
  match name with
  | "build" => .ok (some (.build (hasFlag "test" argument) (hasFlag "doc" argument)))
  | "config" => alone name argument .config
  | "test" => .ok (some (.test (hasFlag "run" argument)))
  | "clean" | "mrproper" =>
    .ok (some (.clean (hasFlag "force" argument || argument.isNone) (hasFlag "kind" argument)))
  | "lint" => alone name argument .lint
  | "doc" => .ok (some (.doc (hasFlag "up" argument)))
  | "version" => .ok (some .version)
  | _ => .ok none

def parse (name : String) (arguments : List String) : Except Cause (Option Command) :=
  if 1 < arguments.length then .error (.tooManyArguments arguments.length)
  else ofName name arguments.head?

def needsSettings : Command → Bool
  | .version => false
  | _ => true

/-- Whether a clean asks before each removal: only a kind one that is not forced. -/
def asksFirst (forced kind : Bool) : Bool :=
  kind && !forced

end Command

end Conductor
