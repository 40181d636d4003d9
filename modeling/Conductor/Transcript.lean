import Conductor.Act

/-! # Transcripts

How events are shown: what of them reaches the two outputs, and which tools have run.
-/

namespace Conductor

structure View where
  showStyles : Bool
  /-- Whether the setting of variables and the runs of tools are told. -/
  verbose : Bool
  /-- Whether questions are shown on the output. -/
  showQuestions : Bool
  deriving DecidableEq, Repr

def durationMark : String := "<duration>"

namespace Event

def out (view : View) : Event → String
  | .wrote .out text => text.render view.showStyles
  | .asked question _ => if view.showQuestions then question.render view.showStyles else ""
  | .ran _ .inherit _ (.ended _ printed) => printed
  | _ => ""

def runReport (line : CommandLine) : Response → String
  | .ended code _ =>
    "Running: " ++ line.display ++ "\nFinished: " ++ line.program ++ " (exit code " ++
      codeText code ++ ", " ++ durationMark ++ ")\n"
  | .refused error =>
    "Running: " ++ line.display ++ "\nFailed: Failed to execute " ++ line.program ++ ": " ++
      error.message ++ "\n"

def err (view : View) : Event → String
  | .wrote .err text => text.render view.showStyles
  | .assigned key value =>
    if view.verbose then "Setting " ++ key.name ++ "=" ++ value ++ "\n" else ""
  | .ran line _ _ response => if view.verbose then runReport line response else ""
  | _ => ""

def call? : Event → Option (CommandLine × Environment)
  | .ran line _ environment (.ended _ _) => some (line, environment)
  | _ => none

end Event

namespace Transcript

def out (view : View) (events : List Event) : String :=
  String.join (events.map (Event.out view))

def err (view : View) (events : List Event) : String :=
  String.join (events.map (Event.err view))

def calls (events : List Event) : List (CommandLine × Environment) :=
  events.filterMap Event.call?

end Transcript

end Conductor
