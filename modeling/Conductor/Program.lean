import Conductor.Dispatch
import Conductor.Options
import Conductor.Report
import Conductor.Transcript

/-! # The program as a whole

A command line is carried out in a workspace, and a failure is reported at the end. The project
directory is presupposed: a run begins in a directory that exists and whose path can be asked for.
-/

namespace Conductor

/-- A run of the program: how it ended, what the world is after it, and how it is shown. -/
structure Run where
  exit : Exit
  world : World
  view : View

namespace Program

def carryOut (place : Workspace) (world : World) (tokens : List String) : Exit × World :=
  match (obey tokens).run place world with
  | (.done _, world) => (.code 0, world)
  | (.failed failure, world) =>
    (failure.exit, { world with events := world.events ++ [.wrote .err failure.report] })
  | (.broken, world) => (.abort, world)

/-- Runs the program with the words of its command line, the files and the input. Styles are shown
if the console wants them and no option forbids them. -/
def run (place : Workspace) (files : Files.Node) (input : List UInt8) (styled : Bool)
    (words : List String) : Except Refusal Run := do
  let (options, tokens) ← Options.parse words
  let (exit, world) := carryOut place { files := files, answers := .stream input } tokens
  return ⟨exit, world, ⟨styled && !options.noColor, options.verbose, true⟩⟩

end Program

end Conductor
