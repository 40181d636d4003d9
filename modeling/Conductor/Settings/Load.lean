import Conductor.Files.Resolve
import Conductor.Settings.Decode

/-! # Loading settings

The settings of a project stand in a file of its directory. Without such a file the defaults hold.
-/

namespace Conductor.Settings

def ofText (text : String) : Except Failure Settings :=
  match parse text with
  | .ok settings => .ok settings
  | .error fault => .error fault.failure

def loadFile (root : Files.Node) (path : String) : Except Failure Settings :=
  match Files.readText root path with
  | .ok text => ofText text
  | .error error =>
    .error ((Failure.ofCause (.system error)).within
      ("Failed to read configuration from " ++ path))

def load (root : Files.Node) (directory : String) : Except Failure Settings :=
  let path := Files.Path.join directory settingsFile
  if Files.isFile root path then loadFile root path else .ok {}

end Conductor.Settings
