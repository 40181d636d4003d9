import Conductor.Files.Walk
import Conductor.Running
import Conductor.Settings.Basic

/-! # Formatting

Sources and lists of build targets are formatted. The tool for the lists is looked for before, and
its installation offered if it is missing.
-/

namespace Conductor

def setupPackage : String := "cmake-format"

def defaultInstaller : String := "pip"

/-- The installer in an answer, without the blanks around it. -/
def installerOf (answer : String) : String :=
  let spelled := Text.trim answer
  if spelled.isEmpty then defaultInstaller else spelled

/-- Makes sure that a tool is found, and offers to install it if it is not. -/
def ensureTool (tool : String) : Act Unit := do
  if (← Act.workspace).host.finds tool then pure ()
  else
    Act.write .err (.warning ("'" ++ tool ++ "' not found in PATH"))
    let answer ← Act.ask [.plain "Install missing modules? Y/n "]
    if isYes answer then
      let answer ← Act.ask
        [.plain "How is `pip` spelled - pip2, pip3, etc.? [default: `pip`] "]
      let installer := installerOf answer
      Act.line ("Entered '" ++ installer ++ "'")
      match CommandLine.parse? (installer ++ " install " ++ setupPackage) with
      | some line =>
        Act.line line.display
        runUnchecked line .inherit
      | none => pure ()
    else Act.fail (.ofCause (.setupDeclined tool))

def lint (settings : Settings) : Act Unit := do
  Act.line "Linting"
  ensureTool "cmake-format"
  runUnchecked (.formatSources settings.formatDirs) .inherit
  let project := (← Act.workspace).project
  let lists := Files.findLists (← Act.world).files project settings.dir
  if lists.isEmpty then pure ()
  else runUnchecked (.formatLists lists) .discard

end Conductor
