import Conductor.Act
import Conductor.Confirmation

/-! # Running tools

Three ways to run a tool: it must succeed, its success does not matter, or the user is asked
before.
-/

namespace Conductor

def runChecked (line : CommandLine) : Act Unit := do
  let code ← Act.launch line .inherit
  if code = some 0 then pure ()
  else Act.fail (.ofCause (.commandFailed line.display code))

def runUnchecked (line : CommandLine) (output : Output) : Act Unit := do
  let _ ← Act.attempt (Act.launch line output)

/-- Runs a tool, after asking if that is wanted, and tells whether it was run. -/
def runOptional (line : CommandLine) (message : String) (asksFirst : Bool) : Act Bool := do
  if asksFirst then
    let answer ← Act.ask [.plain (message ++ " Ok? ")]
    if isYesOrDefault answer then
      runUnchecked line .inherit
      return true
    else return false
  else
    runUnchecked line .inherit
    return true

end Conductor
