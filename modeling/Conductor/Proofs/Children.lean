import Conductor.Proofs.ExitStatus

/-!
# What tools see

Variables are shared by all tools of a run and change while it goes on. Still each tool sees exactly
what is meant for it: while a toolchain is tried its own compilers, while the project is built those
of the toolchain that worked, and otherwise nothing. The main result is `children_environment`.
-/

namespace Conductor

/-- Without a launch no tool is run. -/
theorem Steps.toolRuns_eq {place : Workspace} {deeds : List Deed} {a b : World}
    (h : Steps place deeds a b) (hl : .launch ∉ deeds) :
    toolRuns b.events = toolRuns a.events := by
  obtain ⟨new, hnew, hall⟩ := h.events_eq
  have hnone : toolRuns new = [] := by
    refine List.filter_eq_nil_iff.mpr fun event hmem => ?_
    cases event with
    | ran line output seen response => exact absurd (hall _ hmem).1 hl
    | _ => simp [Event.isRun]
  rw [hnew, toolRuns_append, hnone, List.append_nil]

/-- The runs of a build after the attempts: the builder and the test runner see the compilers of the
toolchain that worked. -/
def BuiltWith (settings : Settings) (tried : List Attempt) (tests : Option String)
    (event : Event) : Prop :=
  ∃ first line output response, tried.getLast? = some first ∧ first.succeeded = true ∧
    (line = ⟨"ninja", ["-C" ++ settings.dir, "-j" ++ toString settings.jobs]⟩ ∨
      line = ⟨"ctest",
        ["--rerun-failed", "--output-on-failure", "--test-dir", settings.dir ++ "/"]⟩) ∧
    event = .ran line output ⟨some first.toolchain.cc, some first.toolchain.cxx, tests⟩ response

variable (place : Workspace) (settings : Settings) (world : World)

theorem toolRuns_perform_of_configures {command : Command} (h : command.configures = true)
    (htests : world.environment.buildTests = none) :
    (∃ error, readied place.project settings world.files = .error error ∧
      toolRuns ((perform settings command).run place world).2.events = toolRuns world.events) ∨
    ∃ ready later, readied place.project settings world.files = .ok ready ∧
      let tried := Attempt.all place.host settings none ready settings.toolchains
      tried.map (·.toolchain) <+: settings.toolchains ∧
      toolRuns ((perform settings command).run place world).2.events =
        toolRuns world.events ++ (tried.flatMap (Attempt.runs settings none) ++ later) ∧
      ∀ event ∈ later,
        BuiltWith settings tried (if command.makesTests then some "1" else none) event := by
  rw [perform_eq_of_configures settings h]
  rcases run_configure place settings world with
    ⟨error, hreadied, hrun⟩ | ⟨ready, found, after, untouched, cut, hreadied, hrun, hsearched⟩
  · refine .inl ⟨error, hreadied, ?_⟩
    rw [Act.run_bind_of_failed _ _ hrun]
  · have hruns := hsearched.toolRuns_eq
    have hsplit := hsearched.toolchains_eq
    have hends := hsearched.ends
    have henv := hsearched.environment_eq
    rw [htests] at hruns hsplit hends henv
    have hgiven : (Attempt.all place.host settings none ready settings.toolchains).map
        (·.toolchain) <+: settings.toolchains := ⟨untouched, hsplit.symm⟩
    refine .inr ?_
    cases hends with
    | found hsome =>
      obtain ⟨first, hfirst, hsucceeded⟩ := Attempt.getLast?_of_succeeded _ _ _ hsome
      obtain ⟨later, hlater, hseen⟩ := toolRuns_afterwards settings place after command
      -- each attempt sets both compilers anew, so those of the last one are left for the build
      have hbuild : after.environment =
          ⟨some first.toolchain.cc, some first.toolchain.cxx, none⟩ := by
        rw [henv (by simp), Attempt.environmentAfter, hfirst, htests]
        rfl
      refine ⟨ready, later, hreadied, hgiven, ?_, fun event hmem => ?_⟩
      · rw [Act.run_bind_of_done _ _ hrun, hlater, hruns, List.append_assoc]
      · obtain ⟨line, output, response, hline, hevent⟩ := hseen event hmem
        refine ⟨first, line, output, response, hfirst, hsucceeded, hline, ?_⟩
        rw [hevent, hbuild]
        cases command.makesTests <;> rfl
    | exhausted =>
      refine ⟨ready, [], hreadied, hgiven, ?_, by simp⟩
      rw [Act.run_bind_of_failed _ _ hrun, hruns, List.append_nil]
    | stuck =>
      refine ⟨ready, [], hreadied, hgiven, ?_, by simp⟩
      rw [Act.run_bind_of_broken _ _ hrun, hruns, List.append_nil]

theorem toolRuns_carryOut (tokens : List String) :
    toolRuns (Program.carryOut place world tokens).2.events =
      toolRuns ((obey tokens).run place world).2.events := by
  rw [carryOut_snd]
  split
  · exact toolRuns_wrote _ .err _
  · rfl

/-- Steps of a resolution run no tool. -/
theorem toolRuns_of_resolving {world after : World} (h : Steps place Deed.resolving world after) :
    toolRuns after.events = toolRuns world.events :=
  h.toolRuns_eq (by decide)

/-- A command that does not configure sets no variable, from the first word on. -/
theorem steps_carryOut_of_not_configures {tokens : List String} {command : Command}
    (hgate : world.gate = true) (h : meaningOf tokens world.answers.next.1 = some command)
    (hconfigures : command.configures = false) :
    Steps place (.shut :: Deed.tidying) world (Program.carryOut place world tokens).2 := by
  obtain ⟨after, hsteps, hrun⟩ := run_obey_of_meaning place world hgate h
  have hfulfil : (fulfil command).TakesOnly (.shut :: Deed.tidying) := by
    refine .bind (takesOnly_settingsFor command) fun settings => ?_
    refine .bind ?_ fun _ => Act.takesOnly_pure _
    exact (takesOnly_perform_of_not_configures settings hconfigures).mono (by decide)
  refine steps_carryOut (by decide) ?_
  rw [hrun]
  exact (hsteps.mono (by decide)).trans (hfulfil place after)

/-- Of the tools that one run of the program starts, each sees what is meant for it. Without a
meaning no tool is run, and neither if the settings or the build directory fail. A command that does
not configure shows its tools no variable. Of one that does, the attempts come first, each with its
own compilers, and then the build with those of the toolchain that worked; the tests are asked for
exactly if the words want them. -/
theorem children_environment {words tokens : List String} {options : Options}
    (files : Files.Node) (input : List UInt8) (styled : Bool)
    (hwords : Options.parse words = .ok (options, tokens)) :
    let answer := (Answers.stream input).next.1
    ∃ run, Program.run place files input styled words = .ok run ∧
      (meaningOf tokens answer = none → toolRuns run.world.events = []) ∧
      (∀ command, meaningOf tokens answer = some command → command.configures = false →
        ∀ line output seen response, .ran line output seen response ∈ run.world.events →
          seen = {}) ∧
      (∀ command, meaningOf tokens answer = some command → command.configures = true →
        (∀ failure, Settings.load files place.project = .error failure →
          toolRuns run.world.events = []) ∧
        ∀ settings, Settings.load files place.project = .ok settings →
          (∀ error, readied place.project settings files = .error error →
            toolRuns run.world.events = []) ∧
          ∀ ready, readied place.project settings files = .ok ready →
            let tried := Attempt.all place.host settings none ready settings.toolchains
            ∃ tests later,
              (tests = some "1" ∧ wants tokens answer "test" "test" ∨
                tests = none ∧ ¬ wants tokens answer "test" "test") ∧
              tried.map (·.toolchain) <+: settings.toolchains ∧
              (∀ attempt ∈ tried.dropLast, attempt.succeeded = false) ∧
              toolRuns run.world.events =
                tried.flatMap (Attempt.runs settings none) ++ later ∧
              ∀ event ∈ later, BuiltWith settings tried tests event) := by
  intro answer
  let world : World := { files := files, answers := .stream input }
  refine ⟨_, run_eq place files input styled hwords, fun hmeaning => ?_,
    fun command hmeaning hconfigures => ?_, fun command hmeaning hconfigures => ?_⟩
  · rw [toolRuns_carryOut]
    exact toolRuns_of_resolving place (steps_obey_of_no_meaning place world rfl hmeaning)
  · intro line output seen response hmem
    have hsteps := steps_carryOut_of_not_configures place world rfl hmeaning hconfigures
    obtain ⟨new, hnew, hall⟩ := hsteps.events_eq
    rw [List.nil_append] at hnew
    rw [hnew] at hmem
    exact (hall _ hmem).2 (by decide) line output seen response rfl
  · have hneeds := Command.needsSettings_of_configures hconfigures
    refine ⟨fun failure hload => ?_, fun settings hload => ?_⟩
    · rw [toolRuns_carryOut]
      exact toolRuns_of_resolving place
        (steps_obey_of_unusable place world rfl hmeaning hneeds hload)
    · obtain ⟨after, hsteps, hafter⟩ := run_obey_of_usable place world rfl hmeaning hneeds hload
      have hfiles : after.files = files := hsteps.files_eq (by decide) (by decide)
      have htests : after.environment.buildTests = none := by
        rw [hsteps.environment_eq (by decide)]
      have hnone : toolRuns after.events = [] := toolRuns_of_resolving place hsteps
      have hperform := toolRuns_perform_of_configures place settings after hconfigures htests
      rw [hfiles, hnone] at hperform
      rw [toolRuns_carryOut, hafter]
      refine ⟨fun error hready => ?_, fun ready hready => ?_⟩
      · rcases hperform with ⟨other, -, hruns⟩ | ⟨ready, later, hother, -⟩
        · exact hruns
        · rw [hready] at hother
          cases hother
      · rcases hperform with ⟨error, hother, -⟩ | ⟨other, later, hother, hgiven, hruns, hlater⟩
        · rw [hready] at hother
          cases hother
        · obtain rfl : ready = other := Except.ok.inj (hready.symm.trans hother)
          refine ⟨_, later, ?_, hgiven, Attempt.all_dropLast_failed _ _ _ _ _, hruns, hlater⟩
          rw [← makesTests_iff_wants hmeaning]
          cases command.makesTests <;> simp

/-- A host on which no build files can be written with the first of the usual compilers. -/
def fallbackHost : Host :=
  { Rehearsal.host with
    run := fun line environment files =>
      (if line.program = "cmake" ∧ environment.cc = some "gcc-11" then .ended (some 1) ""
        else .ended (some 0) "", files) }

/-- After the first toolchain has failed the tests are built with the second alone. -/
theorem children_environment_fallback :
    Options.parse ["build", "test"] = .ok ({}, ["build", "test"]) ∧
      ∃ run later, Program.run ⟨Rehearsal.project, fallbackHost⟩ (Rehearsal.files none) [] false
          ["build", "test"] = .ok run ∧
        toolRuns run.world.events = [
          .ran ⟨"conan", ["install", ".", "-if", "build", "--build=missing"]⟩ .inherit
            ⟨some "gcc-11", some "g++-11", none⟩ (.ended (some 0) ""),
          .ran ⟨"cmake", ["-S.", "-Bbuild", "-GNinja", "-DCMAKE_C_COMPILER=gcc-11",
              "-DCMAKE_CXX_COMPILER=g++-11"]⟩ .inherit
            ⟨some "gcc-11", some "g++-11", none⟩ (.ended (some 1) ""),
          .ran ⟨"conan", ["install", ".", "-if", "build", "--build=missing"]⟩ .inherit
            ⟨some "gcc", some "g++", none⟩ (.ended (some 0) ""),
          .ran ⟨"cmake", ["-S.", "-Bbuild", "-GNinja", "-DCMAKE_C_COMPILER=gcc",
              "-DCMAKE_CXX_COMPILER=g++"]⟩ .inherit
            ⟨some "gcc", some "g++", none⟩ (.ended (some 0) "")] ++ later ∧
        ∀ event ∈ later, ∃ line output response,
          event = .ran line output ⟨some "gcc", some "g++", some "1"⟩ response := by
  have hwords : Options.parse ["build", "test"] = .ok ({}, ["build", "test"]) := rfl
  have hmeaning : meaningOf ["build", "test"] (Answers.stream []).next.1 =
      some (.build true false) := by
    decide
  have hwants : wants ["build", "test"] (Answers.stream []).next.1 "test" "test" :=
    ⟨⟨"build", ["test"]⟩, rfl, .inr ⟨rfl, "test", rfl, List.infix_refl _⟩⟩
  obtain ⟨ready, hready, -⟩ := isConfigurable_rehearsal
  obtain ⟨run, hrun, -, -, hbuild⟩ := children_environment ⟨Rehearsal.project, fallbackHost⟩
    (Rehearsal.files none) [] false hwords
  obtain ⟨tests, later, htests, -, -, hruns, hlater⟩ :=
    ((hbuild _ hmeaning rfl).2 {} load_rehearsal).2 ready hready
  obtain rfl : tests = some "1" := by
    rcases htests with ⟨h, -⟩ | ⟨-, h⟩
    · exact h
    · exact absurd hwants h
  refine ⟨hwords, run, later, hrun, hruns, fun event hmem => ?_⟩
  obtain ⟨first, line, output, response, hfirst, -, -, hevent⟩ := hlater event hmem
  obtain rfl : _ = first := Option.some.inj hfirst
  exact ⟨line, output, response, hevent⟩

end Conductor
