import Conductor.CommandLine
import Conductor.Failure
import Conductor.Files.Tree

/-! # Tools

How the tools that do the work are reached: the variables that they see, what a run of one
answers, and a host, which stands for all of them together.
-/

namespace Conductor

inductive Variable
  | cc
  | cxx
  /-- Asks the build files for test targets. -/
  | buildTests
  deriving DecidableEq, Repr

def Variable.name : Variable → String
  | .cc => "CC"
  | .cxx => "CXX"
  | .buildTests => "EUGENE_BUILD_TESTS"

/-- The values of the variables, none for one that is not set. -/
structure Environment where
  cc : Option String := none
  cxx : Option String := none
  buildTests : Option String := none
  deriving DecidableEq, Repr

namespace Environment

def get (environment : Environment) : Variable → Option String
  | .cc => environment.cc
  | .cxx => environment.cxx
  | .buildTests => environment.buildTests

def set (environment : Environment) (key : Variable) (value : String) : Environment :=
  match key with
  | .cc => { environment with cc := some value }
  | .cxx => { environment with cxx := some value }
  | .buildTests => { environment with buildTests := some value }

def assigned (environment : Environment) : List (String × String) :=
  [Variable.cc, .cxx, .buildTests].filterMap fun key =>
    (environment.get key).map fun value => (key.name, value)

end Environment

inductive Output
  /-- To the same place as that of the program. -/
  | inherit
  | discard
  deriving DecidableEq, Repr

inductive Response
  /-- It ended, with an exit code unless it was killed, and wrote something. -/
  | ended (code : Option Int) (printed : String)
  /-- It could not be started. -/
  | refused (error : SystemError)
  deriving DecidableEq, Repr

/-- Whether a text holds a NUL, which neither a variable nor an argument of a tool can hold. -/
def hasNul (text : String) : Bool :=
  text.toList.contains '\x00'

/-- The tools of a machine. A run may look at the variables and the files and may change the
files. -/
structure Host where
  /-- Whether a program is found. -/
  finds : String → Bool
  /-- Whether a variable can have a value; trying to give it another one is fatal. -/
  accepts : String → Bool
  run : CommandLine → Environment → Files.Node → Response × Files.Node

end Conductor
