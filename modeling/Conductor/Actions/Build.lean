import Conductor.Actions.Configure

/-! # Building, testing and documenting

Each of them configures first and then builds; whether the build succeeds is left to the user to
see.
-/

namespace Conductor

/-- Builds the project, on request with its tests. Documentation cannot be built yet. -/
def build (settings : Settings) (tests docs : Bool) : Act Unit := do
  configure settings
  if tests then Act.assign .buildTests "1"
  Act.banner ("Building project" ++ if tests then " and tests" else "")
  runUnchecked (.ninja settings.dir settings.jobs) .inherit
  if docs then Act.fail (.ofCause (.unsupported "Building doc"))

def test (settings : Settings) (run : Bool) : Act Unit := do
  build settings true false
  if run then
    Act.banner "Running tests"
    runUnchecked (.ctest settings.dir) .inherit

def document (settings : Settings) (upload : Bool) : Act Unit := do
  build settings false true
  if upload then Act.line "Uploading docs"

end Conductor
