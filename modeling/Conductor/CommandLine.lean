import Conductor.Text.Blank

/-! # Command lines

A program with its arguments. A line of text is cut at its blanks; there is no quoting, so an
argument with a blank in it has no such form.
-/

namespace Conductor

structure CommandLine where
  program : String
  arguments : List String
  deriving DecidableEq, Repr

namespace CommandLine

/-- The program and the arguments that a line names, unless it is blank. -/
def parse? (line : String) : Option CommandLine :=
  match Text.words line with
  | [] => none
  | program :: arguments => some ⟨program, arguments⟩

def display (line : CommandLine) : String :=
  " ".intercalate (line.program :: line.arguments)

def ninja (dir : String) (jobs : Nat) : CommandLine :=
  ⟨"ninja", ["-C" ++ dir, "-j" ++ toString jobs]⟩

/-- Runs the tests, those that failed before first, and shows what failing ones print. -/
def ctest (dir : String) : CommandLine :=
  ⟨"ctest", ["--rerun-failed", "--output-on-failure", "--test-dir", dir ++ "/"]⟩

def conanInstall (dir : String) : CommandLine :=
  ⟨"conan", ["install", ".", "-if", dir, "--build=missing"]⟩

def cmakeGenerate (dir generator cc cxx : String) : CommandLine :=
  ⟨"cmake", ["-S.", "-B" ++ dir, "-G" ++ generator, "-DCMAKE_C_COMPILER=" ++ cc,
    "-DCMAKE_CXX_COMPILER=" ++ cxx]⟩

def removeTree (path : String) : CommandLine :=
  ⟨"rm", ["-rf", path]⟩

def removeFile (path : String) : CommandLine :=
  ⟨"rm", ["-f", path]⟩

def formatSources (dirs : List String) : CommandLine :=
  ⟨"clang-format-all", dirs⟩

/-- Formats the given lists of build targets in place. -/
def formatLists (paths : List String) : CommandLine :=
  ⟨"cmake-format", "-i" :: paths⟩

end CommandLine

end Conductor
