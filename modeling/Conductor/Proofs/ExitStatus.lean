import Conductor.Main
import Conductor.Proofs.Building
import Conductor.Proofs.Obeying
import Conductor.Proofs.Prompts

/-!
# The exit status

How a run of the program ends is decided by the words, the first answer, the settings and the
tools. The main result is `exit_status`.
-/

namespace Conductor

theorem Fault.failure_exit (fault : Fault) : fault.failure.exit = .code 1 := by
  rw [Fault.failure]
  split <;> rfl

theorem exit_of_load {files : Files.Node} {project : String} {failure : Failure}
    (h : Settings.load files project = .error failure) : failure.exit = .code 1 := by
  simp only [Settings.load, Settings.loadFile, Settings.ofText] at h
  split at h
  · split at h
    · split at h
      · cases h
      · cases h
        exact Fault.failure_exit _
    · cases h
      rfl
  · cases h

theorem failedPrompts_carryOut (place : Workspace) (world : World) (tokens : List String) :
    failedPrompts (Program.carryOut place world tokens).2.events =
      failedPrompts ((obey tokens).run place world).2.events := by
  rw [carryOut_snd]
  split
  · exact failedPrompts_wrote _ .err _
  · rfl

variable (place : Workspace) (settings : Settings) (files : Files.Node) (world : World)

/-- There can be a build directory, and a toolchain works. -/
def isConfigurable : Prop :=
  ∃ ready, readied place.project settings files = .ok ready ∧
    ∃ attempt ∈ Attempt.all place.host settings none ready settings.toolchains,
      attempt.succeeded = true

/-- There can be a build directory, but no toolchain works. -/
def isUnconfigurable : Prop :=
  ∃ ready, readied place.project settings files = .ok ready ∧
    ∀ attempt ∈ Attempt.all place.host settings none ready settings.toolchains,
      attempt.succeeded = false

/-- Which texts can be the value of a variable. -/
def Host.takesTexts (host : Host) : Prop :=
  ∀ value, hasNul value = false → host.accepts value = true

def Settings.isNulFree (settings : Settings) : Prop :=
  ∀ toolchain ∈ settings.toolchains, hasNul toolchain.cc = false ∧ hasNul toolchain.cxx = false

def Command.exitAfter (command : Command) : Outcome Bool → Exit
  | .done true => if command.makesDocs then .code 1 else .code 0
  | .done false => .code (-1)
  | .failed failure => failure.exit
  | .broken => .abort

/-- A command that configures ends as the search for a toolchain makes it end. -/
theorem exit_perform_of_configures {command : Command} (h : command.configures = true)
    (haccepts : place.host.accepts "1" = true) (htests : world.environment.buildTests = none) :
    let exit := ((perform settings command).run place world).1.exit
    (∃ error, readied place.project settings world.files = .error error ∧ exit = .code 1) ∨
    ∃ ready untouched cut found, readied place.project settings world.files = .ok ready ∧
      let tried := Attempt.all place.host settings none ready settings.toolchains
      settings.toolchains = tried.map (·.toolchain) ++ untouched ∧
        Search place.host tried untouched cut found ∧ exit = command.exitAfter found := by
  rw [perform_eq_of_configures settings h]
  rcases run_configure place settings world with
    ⟨error, hreadied, hrun⟩ | ⟨ready, found, after, untouched, cut, hreadied, hrun, hsearched⟩
  · refine .inl ⟨error, hreadied, ?_⟩
    rw [Act.run_bind_of_failed _ _ hrun]
    rfl
  · have hends := hsearched.ends
    have hsplit := hsearched.toolchains_eq
    rw [htests] at hends hsplit
    refine .inr ⟨ready, untouched, cut, found, hreadied, hsplit, hends, ?_⟩
    cases hends with
    | found =>
      rw [Act.run_bind_of_done _ _ hrun, outcome_afterwards _ _ _ h haccepts, Command.exitAfter]
      split <;> rfl
    | exhausted =>
      rw [Act.run_bind_of_failed _ _ hrun]
      rfl
    | stuck =>
      rw [Act.run_bind_of_broken _ _ hrun]
      rfl

/-- How a command that configures ends. -/
theorem exit_of_configures {command : Command} (h : command.configures = true)
    (hhost : place.host.takesTexts) (hnul : settings.isNulFree)
    (htests : world.environment.buildTests = none) :
    let exit := ((perform settings command).run place world).1.exit
    (∃ error, readied place.project settings world.files = .error error ∧ exit = .code 1) ∨
    (isUnconfigurable place settings world.files ∧ exit = .code (-1)) ∨
    (isConfigurable place settings world.files ∧
      exit = if command.makesDocs then .code 1 else .code 0) := by
  have haccepts : place.host.accepts "1" = true := hhost "1" (by decide)
  rcases exit_perform_of_configures place settings world h haccepts htests with
    hunready | ⟨ready, untouched, cut, found, hreadied, hsplit, hends, hexit⟩
  · exact .inl hunready
  · rw [hexit]
    generalize htried : Attempt.all place.host settings none ready settings.toolchains = tried
      at hends hsplit
    cases hends with
    | found hsome => exact .inr (.inr ⟨⟨ready, hreadied, htried ▸ hsome⟩, rfl⟩)
    | exhausted hnone => exact .inr (.inl ⟨⟨ready, hreadied, htried ▸ hnone⟩, rfl⟩)
    | @stuck toolchain rest _ hstuck =>
      -- the search stops only at a compiler that cannot be set, and those have a NUL
      obtain ⟨hcc, hcxx⟩ := hnul toolchain (by rw [hsplit]; simp)
      rw [Host.takes, hhost _ hcc, hhost _ hcxx] at hstuck
      cases hstuck

/-- A command that does not configure fails only if a question fails or a setup is declined. -/
theorem heeds_perform_of_not_configures {command : Command} (h : command.configures = false) :
    (perform settings command).Heeds isDecline := by
  cases command with
  | clean forced kind => exact heeds_clean settings _
  | lint => exact heeds_lint settings
  | version => exact Act.heeds_line versionText
  | build => cases h
  | config => cases h
  | test => cases h
  | doc => cases h

/-- How a command that is meant ends, with the failures of the questions that it takes. -/
inductive Fulfils (place : Workspace) (files : Files.Node) (command : Command) :
    Exit → List Failure → Prop
  | told (hneeds : command.needsSettings = false) : Fulfils place files command (.code 0) []
  | unusable {failure : Failure} (hneeds : command.needsSettings = true)
      (hload : Settings.load files place.project = .error failure) :
      Fulfils place files command (.code 1) []
  | tidied {settings : Settings} (hload : Settings.load files place.project = .ok settings)
      (hconfigures : command.configures = false) : Fulfils place files command (.code 0) []
  | unanswered {settings : Settings} {failure : Failure}
      (hload : Settings.load files place.project = .ok settings)
      (hconfigures : command.configures = false) : Fulfils place files command (.code 1) [failure]
  | unready {settings : Settings} {error : SystemError}
      (hload : Settings.load files place.project = .ok settings)
      (hconfigures : command.configures = true)
      (hready : readied place.project settings files = .error error) :
      Fulfils place files command (.code 1) []
  | unconfigured {settings : Settings} (hload : Settings.load files place.project = .ok settings)
      (hconfigures : command.configures = true)
      (hunconfigurable : isUnconfigurable place settings files) :
      Fulfils place files command (.code (-1)) []
  | configured {settings : Settings} (hload : Settings.load files place.project = .ok settings)
      (hconfigures : command.configures = true)
      (hconfigurable : isConfigurable place settings files) :
      Fulfils place files command (if command.makesDocs then .code 1 else .code 0) []

/-- A command that is meant ends as its settings and tools make it end. -/
theorem fulfil_fulfils (command : Command) (hhost : place.host.takesTexts)
    (hnul : ∀ settings, Settings.load world.files place.project = .ok settings →
      settings.isNulFree)
    (hstreamed : world.IsStreamed) (htests : world.environment.buildTests = none)
    (hprompts : failedPrompts world.events = []) :
    Fulfils place world.files command ((fulfil command).run place world).1.exit
      (failedPrompts ((fulfil command).run place world).2.events) := by
  by_cases hneeds : command.needsSettings = true
  · cases hload : Settings.load world.files place.project with
    | error failure =>
      rw [fulfil, Act.run_bind_of_failed _ _ (run_settingsFor_of_error _ _ hneeds hload), hprompts,
        Outcome.exit, exit_of_load hload]
      exact .unusable hneeds hload
    | ok settings =>
      obtain ⟨hexit, hworld⟩ := run_fulfil_of_ok place world hneeds hload
      rw [hexit, hworld]
      by_cases hconfigures : command.configures = true
      · have hnone : failedPrompts ((perform settings command).run place world).2.events = [] := by
          rw [Steps.failedPrompts_eq (takesOnly_perform_of_configures settings hconfigures place
            world) (by decide), hprompts]
        rw [hnone]
        rcases exit_of_configures place settings world hconfigures hhost (hnul settings hload)
          htests with ⟨error, hready, hcode⟩ | ⟨hunconfigurable, hcode⟩ | ⟨hconfigurable, hcode⟩
        · rw [hcode]
          exact .unready hload hconfigures hready
        · rw [hcode]
          exact .unconfigured hload hconfigures hunconfigurable
        · rw [hcode]
          exact .configured hload hconfigures hconfigurable
      · rw [Bool.not_eq_true] at hconfigures
        rcases heeds_perform_of_not_configures settings hconfigures place world with
          ⟨value, after, hrun, hafter⟩ | ⟨failure, after, hrun, ⟨tool, rfl⟩, hafter⟩ |
          ⟨failure, after, hrun, hafter⟩
        · rw [hrun, hafter, hprompts]
          exact .tidied hload hconfigures
        · rw [hrun, hafter, hprompts]
          exact .tidied hload hconfigures
        · -- the failure is that of a question, and those from a stream are general errors
          have hsteps := takesOnly_perform_of_not_configures settings hconfigures place world
          rw [hrun] at hsteps
          rw [hprompts, List.nil_append] at hafter
          have hexit := (hsteps.isStreamed hstreamed).exit_eq failure (by simp [hafter])
          rw [hrun, hafter, Outcome.exit, hexit]
          exact .unanswered hload hconfigures
  · rw [Bool.not_eq_true] at hneeds
    obtain rfl : command = .version := by
      cases command <;> first | rfl | cases hneeds
    have hrun : (fulfil .version).run place world = (.done (.performed .version),
        world.wrote .out [.plain (versionText ++ "\n")]) := rfl
    rw [hrun, failedPrompts_wrote, hprompts]
    exact .told hneeds

/-- How the program ends, with the failures of the questions that it takes. -/
inductive Ends (place : Workspace) (files : Files.Node) (tokens : List String) (answer : Answer) :
    Exit → List Failure → Prop
  | misused (h : isMisused tokens answer) : Ends place files tokens answer .abort []
  | nothing (hfit : ¬ isMisused tokens answer) (hmeaning : meaningOf tokens answer = none) :
      Ends place files tokens answer (.code 0) []
  | unanswered {failure : Failure} (hfit : ¬ isMisused tokens answer)
      (hmeaning : meaningOf tokens answer = none) :
      Ends place files tokens answer (.code 1) [failure]
  | fulfilled {command : Command} {exit : Exit} {failures : List Failure}
      (hmeaning : meaningOf tokens answer = some command)
      (h : Fulfils place files command exit failures) :
      Ends place files tokens answer exit failures

/-- The program ends as the words, the first answer, the settings and the tools make it end. -/
theorem carryOut_ends (tokens : List String) (hhost : place.host.takesTexts)
    (hnul : ∀ settings, Settings.load world.files place.project = .ok settings →
      settings.isNulFree)
    (hstreamed : world.IsStreamed) (htests : world.environment.buildTests = none)
    (hgate : world.gate = true) (hprompts : failedPrompts world.events = []) :
    Ends place world.files tokens world.answers.next.1
      (Program.carryOut place world tokens).1
      (failedPrompts (Program.carryOut place world tokens).2.events) := by
  rw [carryOut_fst, failedPrompts_carryOut]
  cases htokens : Invocation.ofTokens tokens with
  | none =>
    have hnothing : meaningOf tokens world.answers.next.1 = none := by
      rw [meaningOf, htokens, Option.bind_none]
    have hfit : ¬ isMisused tokens world.answers.next.1 := by
      rintro ⟨invocation, hsome, -⟩
      rw [htokens] at hsome
      cases hsome
    have hrun : (obey tokens).run place world = (.done .usage, world.instructed) := by
      rw [obey, htokens, Act.run_bind_of_done _ _ (Act.run_showUsage place world)]
      rfl
    rw [hrun, World.instructed, failedPrompts_wrote]
    simp only [hprompts]
    exact .nothing hfit hnothing
  | some invocation =>
    obtain ⟨outcome, after, failures, hrun, hresolves, hafter⟩ :=
      run_resolve place world invocation hgate
    have hsteps := takesOnly_resolve invocation place world
    rw [hrun] at hsteps
    rw [hprompts, List.nil_append] at hafter
    have hmeaning : meaningOf tokens world.answers.next.1 =
        invocation.meaning world.answers.next.1 := by
      rw [meaningOf, htokens, Option.bind_some]
    have hfit (h : ¬ invocation.isMisuse world.answers.next.1) :
        ¬ isMisused tokens world.answers.next.1 := by
      rintro ⟨other, hother, hmisuse⟩
      obtain rfl : invocation = other := Option.some.inj (htokens.symm.trans hother)
      exact h hmisuse
    cases hresolves with
    | surplus h =>
      rw [run_obey_of_failed _ _ htokens hrun, hafter]
      exact .misused ⟨invocation, htokens, .inl h⟩
    | unfit hname hargument halone =>
      rw [run_obey_of_failed _ _ htokens hrun, hafter]
      exact .misused ⟨invocation, htokens, .inr ⟨by rw [hargument]; rfl, _, hname, halone⟩⟩
    | @meant command h =>
      rw [run_obey_of_meant _ _ htokens hrun]
      have hfiles : after.files = world.files := hsteps.files_eq (by decide) (by decide)
      have htestsAfter : after.environment.buildTests = none := by
        rw [hsteps.environment_eq (by decide), htests]
      have hfulfils := fulfil_fulfils place after command hhost (by rwa [hfiles])
        (hsteps.isStreamed hstreamed) htestsAfter hafter
      rw [hfiles] at hfulfils
      exact .fulfilled (hmeaning.trans h) hfulfils
    | @unanswered failure hlength hname h =>
      have hexit := (hsteps.isStreamed hstreamed).exit_eq failure (by simp [hafter])
      rw [run_obey_of_failed _ _ htokens hrun, hafter, Outcome.exit, hexit]
      exact .unanswered (hfit (Invocation.not_isMisuse_of_not_named hlength hname))
        (hmeaning.trans (Invocation.meaning_of_not_named hname))
    | nothing hlength hname =>
      rw [run_obey_of_nothing _ _ htokens hrun, hafter]
      exact .nothing (hfit (Invocation.not_isMisuse_of_not_named hlength hname))
        (hmeaning.trans (Invocation.meaning_of_not_named hname))

theorem not_isUnconfigurable_of_readied_error {error : SystemError}
    (h : readied place.project settings files = .error error) :
    ¬ isUnconfigurable place settings files := by
  rintro ⟨ready, hready, -⟩
  rw [h] at hready
  cases hready

theorem not_readied_error_of_isUnconfigurable (h : isUnconfigurable place settings files)
    (error : SystemError) : readied place.project settings files ≠ .error error :=
  fun hready => not_isUnconfigurable_of_readied_error _ _ _ hready h

theorem not_readied_error_of_isConfigurable (h : isConfigurable place settings files)
    (error : SystemError) : readied place.project settings files ≠ .error error := by
  obtain ⟨ready, hready, -⟩ := h
  rw [hready]
  simp

/-- Either a toolchain works or none does. -/
theorem not_isUnconfigurable_of_isConfigurable (h : isConfigurable place settings files) :
    ¬ isUnconfigurable place settings files := by
  rintro ⟨ready, hready, hnone⟩
  obtain ⟨other, hother, attempt, hmem, hsome⟩ := h
  obtain rfl : ready = other := Except.ok.inj (hready.symm.trans hother)
  rw [hnone attempt hmem] at hsome
  cases hsome

namespace Fulfils

variable {place files} {command : Command} {exit : Exit} {failures : List Failure}

theorem exit_ne_abort (h : Fulfils place files command exit failures) : exit ≠ .abort := by
  cases h with
  | configured => split <;> simp
  | _ => simp

theorem exit_eq_unconfigured_iff (h : Fulfils place files command exit failures) :
    exit = .code (-1) ↔ ∃ settings, command.configures = true ∧
      Settings.load files place.project = .ok settings ∧
      isUnconfigurable place settings files := by
  cases h with
  | told hneeds =>
    have hconfigures : command.configures = false := by
      cases command <;> first | rfl | cases hneeds
    simp [hconfigures]
  | unusable hneeds hload => simp [hload]
  | tidied hload hconfigures => simp [hconfigures]
  | unanswered hload hconfigures => simp [hconfigures]
  | unready hload hconfigures hready =>
    simp [hload, not_isUnconfigurable_of_readied_error _ _ _ hready]
  | unconfigured hload hconfigures hunconfigurable =>
    simp [hload, hconfigures, hunconfigurable]
  | configured hload hconfigures hconfigurable =>
    have hnot := not_isUnconfigurable_of_isConfigurable _ _ _ hconfigurable
    cases command.makesDocs <;> simp [hload, hnot]

theorem exit_eq_general_iff (h : Fulfils place files command exit failures) :
    exit = .code 1 ↔ failures ≠ [] ∨
      (command.needsSettings = true ∧
        ∃ failure, Settings.load files place.project = .error failure) ∨
      ∃ settings, command.configures = true ∧
        Settings.load files place.project = .ok settings ∧
        ((∃ error, readied place.project settings files = .error error) ∨
          (command.makesDocs = true ∧ isConfigurable place settings files)) := by
  cases h with
  | told hneeds =>
    have hconfigures : command.configures = false := by
      cases command <;> first | rfl | cases hneeds
    simp [hneeds, hconfigures]
  | unusable hneeds hload => simp [hneeds, hload]
  | tidied hload hconfigures => simp [hload, hconfigures]
  | unanswered hload hconfigures => simp
  | unready hload hconfigures hready => simp [hload, hconfigures, hready]
  | @unconfigured settings hload hconfigures hunconfigurable =>
    have hready := not_readied_error_of_isUnconfigurable _ _ _ hunconfigurable
    have hnot : ¬ isConfigurable place settings files := fun h =>
      not_isUnconfigurable_of_isConfigurable _ _ _ h hunconfigurable
    simp [hload, hready, hnot]
  | configured hload hconfigures hconfigurable =>
    have hready := not_readied_error_of_isConfigurable _ _ _ hconfigurable
    cases command.makesDocs <;> simp [hload, hconfigures, hconfigurable, hready]

theorem exit_mem (h : Fulfils place files command exit failures) :
    exit = .code (-1) ∨ exit = .code 1 ∨ exit = .code 0 := by
  cases h with
  | configured => split <;> simp
  | _ => simp

end Fulfils

namespace Ends

variable {place files} {tokens : List String} {answer : Answer} {exit : Exit}
  {failures : List Failure}

theorem exit_eq_abort_iff (h : Ends place files tokens answer exit failures) :
    exit = .abort ↔ isMisused tokens answer := by
  cases h with
  | misused h => simp [h]
  | nothing hfit hmeaning => simp [hfit]
  | unanswered hfit hmeaning => simp [hfit]
  | fulfilled hmeaning h =>
    refine ⟨fun heq => absurd heq h.exit_ne_abort, fun hmisused => ?_⟩
    rw [meaningOf_of_isMisused hmisused] at hmeaning
    cases hmeaning

theorem exit_eq_unconfigured_iff (h : Ends place files tokens answer exit failures) :
    exit = .code (-1) ↔ ∃ command settings, meaningOf tokens answer = some command ∧
      command.configures = true ∧ Settings.load files place.project = .ok settings ∧
      isUnconfigurable place settings files := by
  cases h with
  | misused h => simp [meaningOf_of_isMisused h]
  | nothing hfit hmeaning => simp [hmeaning]
  | unanswered hfit hmeaning => simp [hmeaning]
  | fulfilled hmeaning h =>
    rw [h.exit_eq_unconfigured_iff, hmeaning]
    simp

theorem exit_eq_general_iff (h : Ends place files tokens answer exit failures) :
    exit = .code 1 ↔ failures ≠ [] ∨
      ∃ command, meaningOf tokens answer = some command ∧
        ((command.needsSettings = true ∧
          ∃ failure, Settings.load files place.project = .error failure) ∨
        ∃ settings, command.configures = true ∧
          Settings.load files place.project = .ok settings ∧
          ((∃ error, readied place.project settings files = .error error) ∨
            (wants tokens answer "doc" "doc" ∧ isConfigurable place settings files))) := by
  cases h with
  | misused h => simp [meaningOf_of_isMisused h]
  | nothing hfit hmeaning => simp [hmeaning]
  | unanswered hfit hmeaning => simp
  | fulfilled hmeaning h =>
    rw [h.exit_eq_general_iff, hmeaning, makesDocs_iff_wants hmeaning]
    simp

theorem exit_mem (h : Ends place files tokens answer exit failures) :
    exit = .abort ∨ exit = .code (-1) ∨ exit = .code 1 ∨ exit = .code 0 := by
  cases h with
  | fulfilled _ h => exact .inr h.exit_mem
  | _ => simp

end Ends

/-- The program aborts only on misuse. It ends with the code of a failed configuration if no
toolchain works, and with that of a general error if a question fails, the settings cannot be used,
there can be no build directory, or documentation is wanted of a project that was configured. In all
other cases it ends well, whatever the tools did. -/
theorem exit_status {input : List UInt8} {styled : Bool} {words tokens : List String}
    {options : Options} (hwords : Options.parse words = .ok (options, tokens))
    (hhost : place.host.takesTexts)
    (hnul : ∀ settings, Settings.load files place.project = .ok settings → settings.isNulFree) :
    let answer := (Answers.stream input).next.1
    ∃ run, Program.run place files input styled words = .ok run ∧
      (run.exit = .abort ↔ isMisused tokens answer) ∧
      (run.exit = .code (-1) ↔ ∃ command settings, meaningOf tokens answer = some command ∧
        command.configures = true ∧ Settings.load files place.project = .ok settings ∧
        isUnconfigurable place settings files) ∧
      (run.exit = .code 1 ↔
        (∃ question failure, Event.asked question (.error failure) ∈ run.world.events) ∨
        ∃ command, meaningOf tokens answer = some command ∧
          ((command.needsSettings = true ∧
            ∃ failure, Settings.load files place.project = .error failure) ∨
          ∃ settings, command.configures = true ∧
            Settings.load files place.project = .ok settings ∧
            ((∃ error, readied place.project settings files = .error error) ∨
              (wants tokens answer "doc" "doc" ∧ isConfigurable place settings files)))) ∧
      (run.exit = .abort ∨ run.exit = .code (-1) ∨ run.exit = .code 1 ∨ run.exit = .code 0) := by
  intro answer
  refine ⟨_, run_eq place files input styled hwords, ?_⟩
  have hends := carryOut_ends place { files := files, answers := .stream input } tokens hhost hnul
    ⟨⟨input, rfl⟩, by simp [failedPrompts]⟩ rfl rfl rfl
  rw [← failedPrompts_ne_nil_iff]
  exact ⟨hends.exit_eq_abort_iff, hends.exit_eq_unconfigured_iff, hends.exit_eq_general_iff,
    hends.exit_mem⟩

theorem takesTexts_rehearsal : Rehearsal.host.takesTexts := by
  intro value h
  simp [Rehearsal.host, h]

theorem load_rehearsal : Settings.load (Rehearsal.files none) Rehearsal.project = .ok {} := by
  have h : Files.isFile (Rehearsal.files none)
      (Files.Path.join Rehearsal.project settingsFile) = false := by
    decide +kernel
  simp [Settings.load, h]

theorem isNulFree_rehearsal (settings : Settings)
    (h : Settings.load (Rehearsal.files none) Rehearsal.project = .ok settings) :
    settings.isNulFree := by
  rw [load_rehearsal] at h
  cases h
  unfold Settings.isNulFree
  decide

theorem isConfigurable_rehearsal :
    isConfigurable ⟨Rehearsal.project, Rehearsal.host⟩ {} (Rehearsal.files none) := by
  have hmake : (Files.makeDirectory (Rehearsal.files none)
      (buildPath Rehearsal.project {})).isOk = true := by
    decide +kernel
  cases hready : Files.makeDirectory (Rehearsal.files none) (buildPath Rehearsal.project {}) with
  | error error =>
    rw [hready] at hmake
    cases hmake
  | ok ready =>
    refine ⟨ready, by rw [readied, hready, orExisting], ?_⟩
    refine ⟨(Attempt.make Rehearsal.host {} none ready ⟨"gcc-11", "g++-11"⟩).1, ?_, rfl⟩
    rw [Attempt.all_of_takes {} none (by decide)]
    exact List.mem_cons_self

/-- Documentation of a project without settings is built in vain, though all tools succeed. -/
theorem exit_status_doc :
    Options.parse ["doc"] = .ok ({}, ["doc"]) ∧ Rehearsal.host.takesTexts ∧
      (∀ settings, Settings.load (Rehearsal.files none) Rehearsal.project = .ok settings →
        settings.isNulFree) ∧
      ∃ run, Program.run ⟨Rehearsal.project, Rehearsal.host⟩ (Rehearsal.files none) [] false
        ["doc"] = .ok run ∧ run.exit = .code 1 := by
  have hwords : Options.parse ["doc"] = .ok ({}, ["doc"]) := rfl
  have hmeaning : meaningOf ["doc"] (Answers.stream []).next.1 = some (.doc false) := rfl
  refine ⟨hwords, takesTexts_rehearsal, isNulFree_rehearsal, ?_⟩
  obtain ⟨run, hrun, -, -, hone, -⟩ :=
    @exit_status ⟨Rehearsal.project, Rehearsal.host⟩ (Rehearsal.files none) [] false _ _ _ hwords
      takesTexts_rehearsal isNulFree_rehearsal
  refine ⟨run, hrun, hone.mpr (.inr ⟨.doc false, hmeaning, .inr ⟨{}, rfl, load_rehearsal, ?_⟩⟩)⟩
  exact .inr ⟨⟨⟨"doc", []⟩, rfl, .inl rfl⟩, isConfigurable_rehearsal⟩

end Conductor
