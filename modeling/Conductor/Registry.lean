/-! # The commands that are offered

The order counts: the usage lists the commands in it, and of several commands that are close to a
mistyped word the first is suggested.
-/

namespace Conductor

structure CommandInfo where
  name : String
  purpose : String
  /-- What may follow the command, each with its effect. -/
  options : List String
  deriving DecidableEq, Repr

def registry : List CommandInfo := [
  ⟨"build", "build project only", ["test: builds tests", "doc: builds doc"]⟩,
  ⟨"test", "build tests", ["run: runs tests"]⟩,
  ⟨"lint", "run local linters", []⟩,
  ⟨"doc", "build local documentation", ["up: uploads to gh-pages"]⟩,
  ⟨"clean", "clean metadata",
    ["force: removes build artifacts without asking (default)",
      "kind: asks before removing each item"]⟩,
  ⟨"config", "configure the project", []⟩,
  ⟨"version", "print the version", []⟩]

end Conductor
