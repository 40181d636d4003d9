import Conductor.Actions.Configure
import Conductor.Command
import Conductor.Files.Walk
import Conductor.Size

/-! # Cleaning

The build directory and the build log are removed, each after a question if that is wanted, and
the space that became free is told.
-/

namespace Conductor

def clean (settings : Settings) (asksFirst : Bool) : Act Unit := do
  let path := buildPath (← Act.workspace).project settings
  let size := Files.sizeAt (← Act.world).files path
  let removed ← runOptional (.removeTree settings.dir) "Removing build directory" asksFirst
  if removed && 0 < size && !Files.exists? (← Act.world).files path then
    Act.write .out (.info ("Freed " ++ Size.format size.toNat))
  let _ ← runOptional (.removeFile settings.logFile) "Removing build logs" asksFirst
  Act.banner "Clean without scratching"

end Conductor
