/-! # Failures

What can go wrong, as causes under the contexts in which they happened, and the hints that help
against them.
-/

namespace Conductor

/-- An error of the operating system, or of handing it a text that it cannot take. -/
inductive SystemError
  | notFound
  | permissionDenied
  | alreadyExists
  | notDirectory
  | isDirectory
  | nameTooLong
  | tooManyLinks
  /-- A path with a NUL in it. -/
  | nulInPath
  /-- An argument of a command with a NUL in it. -/
  | nulInArgument
  /-- An argument that is too long for a process. -/
  | oversizedArgument
  /-- Bytes that are no text. -/
  | notText
  deriving DecidableEq, Repr

def SystemError.message : SystemError → String
  | .notFound => "No such file or directory (os error 2)"
  | .oversizedArgument => "Argument list too long (os error 7)"
  | .permissionDenied => "Permission denied (os error 13)"
  | .alreadyExists => "File exists (os error 17)"
  | .notDirectory => "Not a directory (os error 20)"
  | .isDirectory => "Is a directory (os error 21)"
  | .nameTooLong => "File name too long (os error 36)"
  | .tooManyLinks => "Too many levels of symbolic links (os error 40)"
  | .nulInPath => "file name contained an unexpected NUL byte"
  | .nulInArgument => "nul byte found in provided data"
  | .notText => "stream did not contain valid UTF-8"

/-- The exit code of a tool as messages show it; a killed tool has none. -/
def codeText : Option Int → String
  | some code => "Some(" ++ toString code ++ ")"
  | none => "None"

inductive Cause
  /-- More than one word after the command. -/
  | tooManyArguments (count : Nat)
  /-- A word after a command that takes none. -/
  | unexpectedArgument (command argument : String)
  /-- A tool that had to succeed did not. -/
  | commandFailed (command : String) (code : Option Int)
  /-- No toolchain could be configured. -/
  | configurationFailed (attempts : Nat)
  /-- Something known that cannot be done yet. -/
  | unsupported (feature : String)
  /-- The user did not let a missing tool be installed. -/
  | setupDeclined (tool : String)
  /-- The settings cannot be used. -/
  | invalidConfig (problem : String)
  | system (error : SystemError)
  | other (message : String)
  deriving DecidableEq, Repr

namespace Cause

def message : Cause → String
  | .tooManyArguments count => "expected at most one sub-argument, got " ++ toString count
  | .unexpectedArgument command argument =>
    "'" ++ command ++ "' does not take a sub-argument (got '" ++ argument ++ "')"
  | .commandFailed command code => "'" ++ command ++ "' failed with exit code " ++ codeText code
  | .configurationFailed attempts =>
    "Configuration failed with all " ++ toString attempts ++ " toolchain candidates"
  | .unsupported feature => feature ++ " is not yet supported"
  | .setupDeclined tool => "'" ++ tool ++ "' is required but was not installed"
  | .invalidConfig problem => "Configuration error: " ++ problem
  | .system error => error.message
  | .other message => message

/-- Whether the command line itself was wrong. -/
def isMisuse : Cause → Bool
  | .tooManyArguments _ => true
  | .unexpectedArgument _ _ => true
  | _ => false

/-- Whether the cause is one that the program names, not one that it only passes on. -/
def isOwn : Cause → Bool
  | .system _ => false
  | .other _ => false
  | _ => true

def usageHint : String :=
  "Usage: eugene <command> [<subflag>]\n" ++
    "Run `eugene` without arguments to list commands and their sub-flags."

def configurationHint : String :=
  "Both conan and cmake must succeed for at least one toolchain. Check:\n" ++
    "• conan and cmake are installed and on PATH\n" ++
    "• the compilers listed under [[toolchains]] in Eugene.toml exist\n" ++
    "• conanfile and CMakeLists.txt are present in the project root"

def settingsHint : String :=
  "Eugene.toml is invalid. Common issues:\n" ++
    "• Invalid TOML syntax (check quotes, brackets, commas)\n" ++
    "• Empty [[toolchains]] list\n" ++
    "• build.jobs set to 0"

def hint : Cause → Option String
  | .tooManyArguments _ => some usageHint
  | .unexpectedArgument _ _ => some usageHint
  | .configurationFailed _ => some configurationHint
  | .invalidConfig _ => some settingsHint
  | _ => none

end Cause

/-- A cause under the contexts in which it happened, outermost first. -/
structure Failure where
  contexts : List String
  cause : Cause
  deriving DecidableEq, Repr

namespace Failure

def ofCause (cause : Cause) : Failure := ⟨[], cause⟩

def within (failure : Failure) (context : String) : Failure :=
  ⟨context :: failure.contexts, failure.cause⟩

def message (failure : Failure) : String :=
  ": ".intercalate (failure.contexts ++ [failure.cause.message])

end Failure

end Conductor
