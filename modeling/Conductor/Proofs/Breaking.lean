import Conductor.Proofs.Children
import Conductor.Proofs.Loading

/-!
# When the program breaks down

A variable can have no value with a NUL in it, and an attempt to give it one is fatal. The settings
may give any names of compilers (`parse_render_of_usable`), so a search for a toolchain can end the
program. It does so exactly if no toolchain before the first such name works
(`abort_iff_untried_nul`).
-/

namespace Conductor

/-- A variable of the process can be given a value: its name is not empty and has neither an equals
sign nor a NUL, and the value has no NUL. -/
structure CanBeSet (name value : String) : Prop where
  ne_empty : name ≠ ""
  noEquals : '=' ∉ name.toList
  nameNulFree : hasNul name = false
  valueNulFree : hasNul value = false

/-- A host whose variables are those of the process. -/
def Host.SetsAsSystem (host : Host) : Prop :=
  ∀ (key : Variable) (value : String), host.accepts value = true ↔ CanBeSet key.name value

def Toolchain.HasNul (toolchain : Toolchain) : Prop :=
  hasNul toolchain.cc = true ∨ hasNul toolchain.cxx = true

/-- All names of variables are fit, so it depends on the value alone. -/
theorem canBeSet_iff (key : Variable) (value : String) :
    CanBeSet key.name value ↔ hasNul value = false := by
  refine ⟨CanBeSet.valueNulFree, fun h => ?_⟩
  cases key <;> exact ⟨by decide, by decide, by decide, h⟩

theorem Host.SetsAsSystem.accepts_iff {host : Host} (h : host.SetsAsSystem) (value : String) :
    host.accepts value = true ↔ hasNul value = false :=
  (h .cc value).trans (canBeSet_iff .cc value)

theorem Host.SetsAsSystem.takes_eq_false_iff {host : Host} (h : host.SetsAsSystem)
    (toolchain : Toolchain) : host.takes toolchain = false ↔ toolchain.HasNul := by
  rw [Host.takes, Bool.and_eq_false_iff, Toolchain.HasNul, ← Bool.not_eq_true, ← Bool.not_eq_true,
    h.accepts_iff, h.accepts_iff, Bool.not_eq_false, Bool.not_eq_false]

theorem setsAsSystem_rehearsal : Rehearsal.host.SetsAsSystem := by
  intro key value
  rw [canBeSet_iff]
  simp [Rehearsal.host]

/-- Usable settings can be given, whatever the names of their compilers are. -/
theorem parse_render_of_usable {settings : Settings} (husable : settings.Usable)
    (hjobs : settings.jobs ≤ 9223372036854775807) :
    Settings.parse settings.render = .ok settings :=
  (parse_eq_ok_iff_of_parse? (parse?_render hjobs husable.toolchains) settings).mpr
    ⟨describes_table settings, husable⟩

variable {place : Workspace} {settings : Settings} {command : Command}

/-- How the program ends is how the command ends after the resolution, and so are its runs of
tools. -/
theorem exit_carryOut_of_configures {tokens : List String} (world : World)
    (hgate : world.gate = true)
    (hmeaning : meaningOf tokens world.answers.next.1 = some command)
    (hconfigures : command.configures = true)
    (hload : Settings.load world.files place.project = .ok settings) :
    ∃ after, Steps place Deed.resolving world after ∧
      (Program.carryOut place world tokens).1 =
        ((perform settings command).run place after).1.exit ∧
      toolRuns (Program.carryOut place world tokens).2.events =
        toolRuns ((perform settings command).run place after).2.events := by
  obtain ⟨after, hsteps, hobey⟩ := run_obey_of_meaning place world hgate hmeaning
  have hfiles : after.files = world.files := hsteps.files_eq (by decide) (by decide)
  rw [← hfiles] at hload
  obtain ⟨hexit, hworld⟩ := run_fulfil_of_ok place after
    (Command.needsSettings_of_configures hconfigures) hload
  refine ⟨after, hsteps, ?_, ?_⟩
  · rw [carryOut_fst, hobey, hexit]
  · rw [toolRuns_carryOut, hobey, hworld]

theorem exitAfter_eq_abort_iff (command : Command) {host : Host} {tried : List Attempt}
    {untouched : List Toolchain} {cut : List Event} {found : Outcome Bool}
    (h : Search host tried untouched cut found) (hhost : host.SetsAsSystem) :
    command.exitAfter found = .abort ↔ (∀ attempt ∈ tried, attempt.succeeded = false) ∧
      ∃ toolchain rest, untouched = toolchain :: rest ∧ toolchain.HasNul := by
  cases h with
  | found hsome =>
    obtain ⟨attempt, hmem, hs⟩ := hsome
    refine iff_of_false ?_ fun hnone => ?_
    · rw [Command.exitAfter]
      split <;> simp
    · rw [hnone.1 attempt hmem] at hs
      cases hs
  | exhausted => exact iff_of_false (by simp [Command.exitAfter]) (by simp)
  | stuck hnone hstuck =>
    exact iff_of_true rfl ⟨hnone, _, _, rfl, (hhost.takes_eq_false_iff _).mp hstuck⟩

/-- A search that does not break down leaves a toolchain out only after a success. -/
theorem Search.untouched_eq {host : Host} {tried : List Attempt} {untouched : List Toolchain}
    {cut : List Event} {found : Outcome Bool} (h : Search host tried untouched cut found)
    (hexit : command.exitAfter found ≠ .abort) :
    untouched = [] ∨ ∃ attempt ∈ tried, attempt.succeeded = true := by
  cases h with
  | found hsome => exact .inr hsome
  | exhausted => exact .inl rfl
  | stuck => exact absurd rfl hexit

/-- What a command that configures comes to in a run of the program. Without a build directory that
failure is the end; with one the toolchains are searched, and the exit is that of the search. -/
theorem run_of_configures {words tokens : List String} {options : Options}
    (files : Files.Node) (input : List UInt8) (styled : Bool)
    (haccepts : place.host.accepts "1" = true)
    (hwords : Options.parse words = .ok (options, tokens))
    (hmeaning : meaningOf tokens (Answers.stream input).next.1 = some command)
    (hconfigures : command.configures = true)
    (hload : Settings.load files place.project = .ok settings) :
    ∃ run, Program.run place files input styled words = .ok run ∧
      (∀ error, readied place.project settings files = .error error →
        run.exit = .code 1 ∧ toolRuns run.world.events = []) ∧
      ∀ ready, readied place.project settings files = .ok ready →
        let tried := Attempt.all place.host settings none ready settings.toolchains
        ∃ untouched cut found tests later,
          settings.toolchains = tried.map (·.toolchain) ++ untouched ∧
          Search place.host tried untouched cut found ∧ run.exit = command.exitAfter found ∧
          toolRuns run.world.events = tried.flatMap (Attempt.runs settings none) ++ later ∧
          ∀ event ∈ later, BuiltWith settings tried tests event := by
  let start : World := { files := files, answers := .stream input }
  obtain ⟨after, hsteps, hexit, hruns⟩ :=
    exit_carryOut_of_configures start rfl hmeaning hconfigures hload
  have hfiles : after.files = files := hsteps.files_eq (by decide) (by decide)
  have htests : after.environment.buildTests = none := by
    rw [hsteps.environment_eq (by decide)]
  have hnone : toolRuns after.events = [] := toolRuns_of_resolving place hsteps
  have hperform := toolRuns_perform_of_configures place settings after hconfigures htests
  have hends := exit_perform_of_configures place settings after hconfigures haccepts htests
  rw [hfiles, hnone, ← hruns] at hperform
  rw [hfiles, ← hexit] at hends
  refine ⟨_, run_eq place files input styled hwords, fun error hready => ?_,
    fun ready hready => ?_⟩
  · simp only [hready, reduceCtorEq, false_and, exists_const, exists_false, or_false,
      Except.error.injEq, exists_eq_left'] at hends hperform
    exact ⟨hends, hperform⟩
  · simp only [hready, reduceCtorEq, false_and, exists_false, false_or, Except.ok.injEq]
      at hends hperform
    obtain ⟨_, untouched, cut, found, rfl, hsplit, hsearch, hcode⟩ := hends
    obtain ⟨_, later, rfl, -, hruns, hlater⟩ := hperform
    exact ⟨untouched, cut, found, _, later, hsplit, hsearch, hcode, hruns, hlater⟩

/-- The program breaks down only in a search, and exactly if no attempt worked before a toolchain
with a NUL in its names came next. Otherwise each toolchain is tried or comes after one that
worked, and the program ends with a code. -/
theorem abort_iff_untried_nul {words tokens : List String} {options : Options}
    (files : Files.Node) (input : List UInt8) (styled : Bool) (hhost : place.host.SetsAsSystem)
    (hwords : Options.parse words = .ok (options, tokens))
    (hmeaning : meaningOf tokens (Answers.stream input).next.1 = some command)
    (hconfigures : command.configures = true)
    (hload : Settings.load files place.project = .ok settings) :
    ∃ run, Program.run place files input styled words = .ok run ∧
      (∀ error, readied place.project settings files = .error error →
        run.exit = .code 1 ∧ toolRuns run.world.events = []) ∧
      ∀ ready, readied place.project settings files = .ok ready →
        let tried := Attempt.all place.host settings none ready settings.toolchains
        ∃ untouched tests later,
          settings.toolchains = tried.map (·.toolchain) ++ untouched ∧
          toolRuns run.world.events = tried.flatMap (Attempt.runs settings none) ++ later ∧
          (∀ event ∈ later, BuiltWith settings tried tests event) ∧
          (run.exit = .abort ↔ (∀ attempt ∈ tried, attempt.succeeded = false) ∧
            ∃ toolchain rest, untouched = toolchain :: rest ∧ toolchain.HasNul) ∧
          (run.exit ≠ .abort → untouched = [] ∨ ∃ attempt ∈ tried, attempt.succeeded = true) ∧
          (settings.isNulFree → run.exit ≠ .abort) := by
  have haccepts : place.host.accepts "1" = true := (hhost.accepts_iff "1").mpr (by decide)
  obtain ⟨run, hrun, hunready, hsearched⟩ :=
    run_of_configures files input styled haccepts hwords hmeaning hconfigures hload
  refine ⟨run, hrun, hunready, fun ready hready => ?_⟩
  obtain ⟨untouched, cut, found, tests, later, hsplit, hsearch, hexit, hruns, hlater⟩ :=
    hsearched ready hready
  have habort := exitAfter_eq_abort_iff command hsearch hhost
  rw [← hexit] at habort
  refine ⟨untouched, tests, later, hsplit, hruns, hlater, habort, ?_, fun hfree hend => ?_⟩
  · rw [hexit]
    exact hsearch.untouched_eq
  · obtain ⟨-, toolchain, rest, rfl, hnul⟩ := habort.mp hend
    obtain ⟨hcc, hcxx⟩ := hfree toolchain (by rw [hsplit]; simp)
    rw [Toolchain.HasNul, hcc, hcxx] at hnul
    rcases hnul with h | h <;> cases h

/-- A machine on which all tools succeed. -/
def Sample.willing : Workspace := ⟨"/p", Rehearsal.host⟩

/-- The files of a project whose settings give nothing but toolchains. -/
def Sample.choosing (toolchains : List Toolchain) : Files.Node :=
  Settings.projectWith (.file (.ofText ({ toolchains } : Settings).render))

def Sample.unfit : Toolchain := ⟨"a\x00b", "g++"⟩

theorem Sample.parse_choosing {toolchains : List Toolchain} (h : toolchains ≠ []) :
    Settings.parse ({ toolchains } : Settings).render = .ok { toolchains } := by
  have hdir : ∃ c ∈ "build".toList, Text.isBlank c = false := ⟨'b', by decide, by decide⟩
  exact parse_render_of_usable ⟨h, by simp, hdir⟩ (by simp)

theorem Sample.load_choosing {toolchains : List Toolchain} (h : toolchains ≠ []) :
    Settings.load (Sample.choosing toolchains) Sample.willing.project = .ok { toolchains } := by
  have hfile : Files.LeadsToFile (Sample.choosing toolchains)
      (Files.Path.join Sample.willing.project settingsFile)
      (.ofText ({ toolchains } : Settings).render) := rfl
  rw [Settings.load_of_file hfile, Settings.ofContent, Files.Content.text?_ofText]
  dsimp only
  rw [Settings.ofText, Sample.parse_choosing h]

theorem Sample.readied_choosing (toolchains : List Toolchain) :
    ∃ ready, readied Sample.willing.project { toolchains } (Sample.choosing toolchains) =
      .ok ready := by
  have hcheck : Files.checkPath "/p/build" = .ok () := by decide
  have hnames : Files.Path.names "/p/build" = ["p", "build"] := by decide
  have hmade : (Files.makeDirectory (Sample.choosing toolchains) "/p/build").isOk = true := by
    rw [Files.makeDirectory, Files.locateParent, hcheck, hnames]
    rfl
  have hpath : buildPath Sample.willing.project { toolchains } = "/p/build" := by
    show Files.Path.join "/p" "build" = "/p/build"
    decide
  rw [readied, hpath]
  cases hready : Files.makeDirectory (Sample.choosing toolchains) "/p/build" with
  | ok ready => exact ⟨ready, rfl⟩
  | error error =>
    rw [hready] at hmade
    cases hmade

/-- A toolchain that cannot be set does no harm behind one that works. -/
theorem abort_iff_untried_nul_last :
    let toolchains : List Toolchain := [⟨"gcc", "g++"⟩, Sample.unfit]
    Sample.willing.host.SetsAsSystem ∧ Options.parse ["config"] = .ok ({}, ["config"]) ∧
      meaningOf ["config"] (Answers.stream []).next.1 = some .config ∧
      Settings.load (Sample.choosing toolchains) Sample.willing.project = .ok { toolchains } ∧
      ∃ run, Program.run Sample.willing (Sample.choosing toolchains) [] false ["config"] = .ok run ∧
        run.exit ≠ .abort := by
  intro toolchains
  have hhost : Sample.willing.host.SetsAsSystem := setsAsSystem_rehearsal
  have hwords : Options.parse ["config"] = .ok ({}, ["config"]) := rfl
  have hmeaning : meaningOf ["config"] (Answers.stream []).next.1 = some .config := by decide
  have hload := @Sample.load_choosing toolchains (by simp [toolchains])
  obtain ⟨run, hrun, -, hsearched⟩ := @abort_iff_untried_nul Sample.willing { toolchains } .config
    ["config"] ["config"] {} (Sample.choosing toolchains) [] false hhost hwords hmeaning rfl hload
  obtain ⟨ready, hready⟩ := Sample.readied_choosing toolchains
  obtain ⟨untouched, tests, later, -, -, -, habort, -⟩ := hsearched ready hready
  -- the first attempt works, so the search cannot have broken down
  let attempt := (Attempt.make Sample.willing.host { toolchains } none ready ⟨"gcc", "g++"⟩).1
  have hmem : attempt ∈ Attempt.all Sample.willing.host { toolchains } none ready toolchains := by
    rw [Attempt.all_of_takes _ none (by decide)]
    exact List.mem_cons_self
  have hworks : attempt.succeeded = true := rfl
  refine ⟨hhost, hwords, hmeaning, hload, run, hrun, fun hend => ?_⟩
  rw [(habort.mp hend).1 attempt hmem] at hworks
  cases hworks

/-- A toolchain that cannot be set is accepted. Before one that works it ends the program, and no
tool is run. -/
theorem config_aborts_at_unfit :
    let toolchains : List Toolchain := [Sample.unfit, ⟨"gcc", "g++"⟩]
    Settings.parse ({ toolchains } : Settings).render = .ok { toolchains } ∧
      ∃ run, Program.run Sample.willing (Sample.choosing toolchains) [] false ["config"] = .ok run ∧
        run.exit = .abort ∧ toolRuns run.world.events = [] := by
  intro toolchains
  have hne : toolchains ≠ [] := by simp [toolchains]
  refine ⟨Sample.parse_choosing hne, ?_⟩
  obtain ⟨run, hrun, -, hsearched⟩ := @run_of_configures Sample.willing { toolchains } .config
    ["config"] ["config"] {} (Sample.choosing toolchains) [] false rfl rfl (by decide) rfl
    (Sample.load_choosing hne)
  obtain ⟨ready, hready⟩ := Sample.readied_choosing toolchains
  obtain ⟨untouched, cut, found, tests, later, hsplit, hsearch, hexit, hruns, hlater⟩ :=
    hsearched ready hready
  have hunfit : Sample.willing.host.takes Sample.unfit = false := by decide
  have htried : Attempt.all Sample.willing.host { toolchains } none ready toolchains = [] := by
    simp [toolchains, Attempt.all, hunfit]
  simp only [htried, List.map_nil, List.nil_append, List.flatMap_nil] at hsplit hsearch hruns hlater
  have hlater : later = [] := by
    refine List.eq_nil_iff_forall_not_mem.mpr fun event hmem => ?_
    obtain ⟨first, -, -, -, hfirst, -⟩ := hlater event hmem
    cases hfirst
  refine ⟨run, hrun, ?_, hruns.trans hlater⟩
  rw [hexit]
  cases hsearch with
  | found hsome => simp at hsome
  | exhausted => exact absurd hsplit hne
  | stuck => rfl

end Conductor
