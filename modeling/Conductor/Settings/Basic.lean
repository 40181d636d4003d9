/-! # Settings

How a project is configured, built and formatted. Every setting has a default, so that a project
needs no file of settings.
-/

namespace Conductor

structure Toolchain where
  cc : String
  cxx : String
  deriving DecidableEq, Repr

structure Settings where
  /-- The build directory, as seen from the project. -/
  dir : String := "build"
  /-- The kind of build files. -/
  generator : String := "Ninja"
  /-- How many jobs build at a time. -/
  jobs : Nat := 4
  /-- The log that a clean removes. -/
  logFile : String := "build.log"
  /-- The toolchains, tried in this order. -/
  toolchains : List Toolchain := [⟨"gcc-11", "g++-11"⟩, ⟨"gcc", "g++"⟩]
  /-- The directories whose sources are formatted. -/
  formatDirs : List String := ["src/core", "src/eugene-api"]
  deriving DecidableEq, Repr

def settingsFile : String := "Eugene.toml"

end Conductor
