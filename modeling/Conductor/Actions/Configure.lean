import Conductor.Files.Resolve
import Conductor.Running
import Conductor.Settings.Basic

/-! # Configuring a project

The build directory is made and the toolchains are tried in order until one of them installs the
dependencies and writes the build files.
-/

namespace Conductor

def buildPath (project : String) (settings : Settings) : String :=
  Files.Path.join project settings.dir

/-- Makes the build directory unless something stands there already. -/
def prepareBuildDir (settings : Settings) : Act Unit := do
  let path := buildPath (← Act.workspace).project settings
  match Files.makeDirectory (← Act.world).files path with
  | .ok files =>
    Act.change fun world => { world with files := files }
    Act.line ("INFO: Created '" ++ settings.dir ++ "/' directory")
  | .error .alreadyExists =>
    Act.banner ("INFO: '" ++ settings.dir ++ "/' directory already exists")
  | .error error =>
    Act.fail ((Failure.ofCause (.system error)).within ("Failed to create " ++ path))

/-- Installs the dependencies and writes the build files; the second only after the first. -/
def configureSteps (settings : Settings) (toolchain : Toolchain) : Act Unit := do
  runChecked (.conanInstall settings.dir)
  runChecked (.cmakeGenerate settings.dir settings.generator toolchain.cc toolchain.cxx)

def configureWith (settings : Settings) (toolchain : Toolchain) : Act Bool := do
  Act.assign .cc toolchain.cc
  Act.assign .cxx toolchain.cxx
  Act.banner "Trying to configure project ..."
  match ← Act.attempt (configureSteps settings toolchain) with
  | .ok () =>
    Act.banner "Configuration successful!"
    return true
  | .error failure =>
    Act.write .err (.warning failure.message)
    Act.banner "Configuration failed :("
    return false

def configureAny (settings : Settings) : List Toolchain → Act Bool
  | [] => return false
  | toolchain :: rest => do
    if ← configureWith settings toolchain then return true
    else configureAny settings rest

def configure (settings : Settings) : Act Unit := do
  prepareBuildDir settings
  if ← configureAny settings settings.toolchains then pure ()
  else Act.fail (.ofCause (.configurationFailed settings.toolchains.length))

end Conductor
