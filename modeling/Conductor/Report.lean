import Conductor.Console
import Conductor.Failure

/-! # Reporting failures

What the user is told about a failure, and how the program ends because of it.
-/

namespace Conductor

inductive Exit
  | code (value : Int)
  | abort
  deriving DecidableEq, Repr

def configurationFailedCode : Int := -1

def Cause.explain (cause : Cause) : StyledText :=
  .plain "\n" :: StyledText.labelled .red "ERROR:" " " cause.message ++
    match cause.hint with
    | some hint => .plain "\n" :: StyledText.labelled .yellow "HINT:" " " hint
    | none => []

/-- What is written about a failure. Of a cause that the program names the contexts are left out;
that the user declined is not worth a word. -/
def Failure.report (failure : Failure) : StyledText :=
  match failure.cause with
  | .setupDeclined _ => []
  | cause => if cause.isOwn then cause.explain else StyledText.error failure.message

def Failure.exit (failure : Failure) : Exit :=
  if failure.cause.isMisuse then .abort
  else
    match failure.cause with
    | .setupDeclined _ => .code 0
    | .configurationFailed _ => .code configurationFailedCode
    | _ => .code 1

end Conductor
