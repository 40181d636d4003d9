import Conductor.Files.Populate
import Conductor.Program

/-! # A rehearsal on the command line

The words of the command line are carried out with the settings of the current directory, but
every tool counts as found and as successful, and nothing on the disk is changed. With verbose
output it can be seen which tools would run.
-/

namespace Conductor.Rehearsal

def project : String := "/project"

/-- A host on which every tool is found and succeeds in silence. -/
def host : Host where
  finds _ := true
  accepts value := !hasNul value
  run _ _ files := (.ended (some 0) "", files)

def files (settings : Option String) : Files.Node :=
  Files.populate (.directory []) <| .directory project ::
    match settings with
    | some text => [.file (Files.Path.join project settingsFile) (.ofText text)]
    | none => []

def status : Exit → UInt32
  | .code value => (value % 256).toNat.toUInt32
  | .abort => 134

def readSettings : IO (Option String) := do
  try
    return some (← IO.FS.readFile settingsFile)
  catch _ => return none

/-- All bytes that are left of a stream. -/
partial def readInput (stream : IO.FS.Stream) (bytes : ByteArray) : IO ByteArray := do
  let more ← stream.read 65536
  if more.isEmpty then return bytes else readInput stream (bytes ++ more)

end Conductor.Rehearsal

open Conductor in
/-- Rehearses a command line. -/
def main (words : List String) : IO UInt32 := do
  let settings ← Rehearsal.readSettings
  let input ← Rehearsal.readInput (← IO.getStdin) .empty
  let place : Workspace := ⟨Rehearsal.project, Rehearsal.host⟩
  match Program.run place (Rehearsal.files settings) input.toList true words with
  | .error refusal =>
    IO.eprintln ("error: " ++ refusal.name)
    return refusal.exitCode.toUInt32
  | .ok run =>
    IO.print (Transcript.out run.view run.world.events)
    IO.eprint (Transcript.err run.view run.world.events)
    return Rehearsal.status run.exit
