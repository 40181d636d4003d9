import Conductor.Actions.Configure
import Conductor.Proofs.Acts

/-!
# Trying toolchains

An `Attempt` is a toolchain with what the tools answered while it was tried, and `Attempt.all` are
the attempts that a host gives rise to, up to the first that succeeds. They are read off the host
alone. `run_configureAny` says that the program makes exactly these attempts.
-/

namespace Conductor

def Event.isOutput : Event → Bool
  | .wrote .out _ => true
  | _ => false

def beyondOutput (events : List Event) : List Event :=
  events.filter fun event => !event.isOutput

theorem beyondOutput_append (a b : List Event) :
    beyondOutput (a ++ b) = beyondOutput a ++ beyondOutput b := List.filter_append ..

@[simp] theorem beyondOutput_wrote (world : World) (text : StyledText) :
    beyondOutput (world.wrote .out text).events = beyondOutput world.events := by
  simp [World.wrote, beyondOutput, Event.isOutput]

/-- Whether both compilers of a toolchain can be the value of a variable. -/
def Host.takes (host : Host) (toolchain : Toolchain) : Bool :=
  host.accepts toolchain.cc && host.accepts toolchain.cxx

/-- A toolchain that was tried, with what the tools answered. Build files are wanted only, and
always, after the installation of the dependencies went well. -/
structure Attempt where
  toolchain : Toolchain
  install : Response
  generate : Option Response
  generate_isSome : generate.isSome = install.succeeded

namespace Attempt

def succeeded (attempt : Attempt) : Bool :=
  attempt.generate.any Response.succeeded

/-- What tools see while a toolchain is tried. -/
def environment (tests : Option String) (toolchain : Toolchain) : Environment :=
  ⟨some toolchain.cc, some toolchain.cxx, tests⟩

variable (host : Host) (settings : Settings) (tests : Option String)

def runs (attempt : Attempt) : List Event :=
  .ran ⟨"conan", ["install", ".", "-if", settings.dir, "--build=missing"]⟩ .inherit
      (environment tests attempt.toolchain) attempt.install ::
    attempt.generate.toList.map fun response =>
      .ran ⟨"cmake", ["-S.", "-B" ++ settings.dir, "-G" ++ settings.generator,
          "-DCMAKE_C_COMPILER=" ++ attempt.toolchain.cc,
          "-DCMAKE_CXX_COMPILER=" ++ attempt.toolchain.cxx]⟩ .inherit
        (environment tests attempt.toolchain) response

def failure? (attempt : Attempt) : Option Failure :=
  match attempt.generate with
  | none => attempt.install.failure? (.conanInstall settings.dir)
  | some response =>
    response.failure? (.cmakeGenerate settings.dir settings.generator attempt.toolchain.cc
      attempt.toolchain.cxx)

/-- What an attempt does: it sets the two variables, runs its tools and, if it fails, warns. -/
def trace (attempt : Attempt) : List Event :=
  [.assigned .cc attempt.toolchain.cc, .assigned .cxx attempt.toolchain.cxx] ++
    attempt.runs settings tests ++
    (attempt.failure? settings).toList.map fun failure =>
      .wrote .err (.warning failure.message)

theorem failure?_eq_none_iff (attempt : Attempt) :
    attempt.failure? settings = none ↔ attempt.succeeded = true := by
  obtain ⟨toolchain, install, generate, h⟩ := attempt
  cases generate with
  | none =>
    have hinstall : install.succeeded = false := by simpa using h.symm
    simp [failure?, succeeded, Response.failure?_eq_none_iff, hinstall]
  | some response => simp [failure?, succeeded, Response.failure?_eq_none_iff]

/-- What a host makes of the installation of the dependencies, and the files after it. -/
def installed (files : Files.Node) (toolchain : Toolchain) : Response × Files.Node :=
  host.run (.conanInstall settings.dir) (environment tests toolchain) files

/-- What a host makes of the writing of build files after that, and the files after it. -/
def generated (files : Files.Node) (toolchain : Toolchain) : Response × Files.Node :=
  host.run (.cmakeGenerate settings.dir settings.generator toolchain.cc toolchain.cxx)
    (environment tests toolchain) (installed host settings tests files toolchain).2

def make (files : Files.Node) (toolchain : Toolchain) : Attempt × Files.Node :=
  if h : (installed host settings tests files toolchain).1.succeeded then
    (⟨toolchain, (installed host settings tests files toolchain).1,
      some (generated host settings tests files toolchain).1, by simp [h]⟩,
      (generated host settings tests files toolchain).2)
  else
    (⟨toolchain, (installed host settings tests files toolchain).1, none, by simp [h]⟩,
      (installed host settings tests files toolchain).2)

variable {host settings tests} in
theorem make_of_succeeded {files : Files.Node} {toolchain : Toolchain}
    (h : (installed host settings tests files toolchain).1.succeeded = true) :
    make host settings tests files toolchain =
      (⟨toolchain, (installed host settings tests files toolchain).1,
        some (generated host settings tests files toolchain).1, by simp [h]⟩,
        (generated host settings tests files toolchain).2) :=
  dif_pos h

variable {host settings tests} in
theorem make_of_failed {files : Files.Node} {toolchain : Toolchain}
    (h : ¬ (installed host settings tests files toolchain).1.succeeded = true) :
    make host settings tests files toolchain =
      (⟨toolchain, (installed host settings tests files toolchain).1, none, by simp [h]⟩,
        (installed host settings tests files toolchain).2) :=
  dif_neg h

@[simp] theorem make_toolchain (files : Files.Node) (toolchain : Toolchain) :
    (make host settings tests files toolchain).1.toolchain = toolchain := by
  rw [make]
  split <;> rfl

/-- The attempts to find a toolchain that works, up to the first success. A toolchain that cannot
be set ends them too. -/
def all : Files.Node → List Toolchain → List Attempt
  | _, [] => []
  | files, toolchain :: rest =>
    if host.takes toolchain then
      let (attempt, files) := make host settings tests files toolchain
      if attempt.succeeded then [attempt] else attempt :: all files rest
    else []

variable {host} in
theorem all_of_takes {toolchain : Toolchain} (h : host.takes toolchain = true)
    (files : Files.Node) (rest : List Toolchain) :
    all host settings tests files (toolchain :: rest) =
      (make host settings tests files toolchain).1 ::
        if (make host settings tests files toolchain).1.succeeded then []
        else all host settings tests (make host settings tests files toolchain).2 rest := by
  simp only [all, h, if_true]
  split <;> rfl

/-- Only the last attempt can have succeeded. -/
theorem all_dropLast_failed (files : Files.Node) (toolchains : List Toolchain) :
    ∀ attempt ∈ (all host settings tests files toolchains).dropLast,
      attempt.succeeded = false := by
  induction toolchains generalizing files with
  | nil => simp [all]
  | cons toolchain rest ih =>
    by_cases htakes : host.takes toolchain = true
    · rw [all_of_takes _ _ htakes]
      split
      · simp
      · rename_i hfailed
        intro attempt hmem
        cases hrest : all host settings tests (make host settings tests files toolchain).2 rest with
        | nil => simp [hrest] at hmem
        | cons next more =>
          rw [hrest, List.dropLast_cons_cons, ← hrest] at hmem
          rcases List.mem_cons.mp hmem with rfl | hmem
          · simpa using hfailed
          · exact ih _ attempt hmem
    · simp [all, htakes]

/-- An attempt that succeeded is the last one. -/
theorem getLast?_of_succeeded {files : Files.Node} {toolchains : List Toolchain}
    (h : ∃ attempt ∈ all host settings tests files toolchains, attempt.succeeded = true) :
    ∃ first, (all host settings tests files toolchains).getLast? = some first ∧
      first.succeeded = true := by
  obtain ⟨attempt, hmem, hsucceeded⟩ := h
  have hdropLast := all_dropLast_failed host settings tests files toolchains
  rcases List.eq_nil_or_concat (all host settings tests files toolchains) with
    hnil | ⟨rest, last, hall⟩
  · rw [hnil] at hmem
    cases hmem
  · rw [hall, List.concat_eq_append] at hmem hdropLast ⊢
    rw [List.dropLast_concat] at hdropLast
    refine ⟨last, by simp, ?_⟩
    rcases List.mem_append.mp hmem with hrest | hlast
    · rw [hdropLast attempt hrest] at hsucceeded
      cases hsucceeded
    · rwa [← List.mem_singleton.mp hlast]

end Attempt

end Conductor
