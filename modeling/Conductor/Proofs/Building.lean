import Conductor.Proofs.Configuring
import Conductor.Proofs.Frames
import Conductor.Proofs.Meaning

/-!
# After configuring

Building, testing and documenting configure first. What they do afterwards is in `afterwards`, and
what tools see then in `run_afterwards`.
-/

namespace Conductor

def Event.isRun : Event → Bool
  | .ran _ _ _ _ => true
  | _ => false

def toolRuns (events : List Event) : List Event :=
  events.filter Event.isRun

theorem toolRuns_append (a b : List Event) : toolRuns (a ++ b) = toolRuns a ++ toolRuns b :=
  List.filter_append ..

/-- Texts on the output are no runs. -/
theorem toolRuns_beyondOutput (events : List Event) :
    toolRuns (beyondOutput events) = toolRuns events := by
  rw [toolRuns, beyondOutput, List.filter_filter, toolRuns]
  refine List.filter_congr fun event _ => ?_
  cases event <;> rfl

section

variable (world : World)

@[simp] theorem toolRuns_wrote (channel : Channel) (text : StyledText) :
    toolRuns (world.wrote channel text).events = toolRuns world.events := by
  simp [World.wrote, toolRuns, Event.isRun]

@[simp] theorem toolRuns_announced (message : String) :
    toolRuns (world.announced message).events = toolRuns world.events :=
  toolRuns_wrote world.painted .out _

@[simp] theorem toolRuns_assigned (key : Variable) (value : String) :
    toolRuns (world.assigned key value).events = toolRuns world.events := by
  simp [World.assigned, toolRuns, Event.isRun]

@[simp] theorem toolRuns_proposed (key : Variable) (value : String) :
    toolRuns (world.proposed key value).events = toolRuns world.events := by
  simp [World.proposed, toolRuns, Event.isRun]

@[simp] theorem toolRuns_launched (host : Host) (line : CommandLine) (output : Output) :
    toolRuns (world.launched host line output).events =
      toolRuns world.events ++ [.ran line output world.environment (world.response host line)] := by
  simp [World.launched, toolRuns, Event.isRun]

end

namespace Attempt

variable (settings : Settings) (tests : Option String)

theorem toolRuns_trace (attempt : Attempt) :
    toolRuns (attempt.trace settings tests) = attempt.runs settings tests := by
  obtain ⟨toolchain, install, generate, h⟩ := attempt
  cases generate <;> cases hf : failure? settings ⟨toolchain, install, _, h⟩ <;>
    simp only [trace, hf] <;> rfl

theorem toolRuns_flatMap_trace (tried : List Attempt) :
    toolRuns (tried.flatMap (trace settings tests)) = tried.flatMap (runs settings tests) := by
  induction tried with
  | nil => rfl
  | cons attempt tried ih =>
    rw [List.flatMap_cons, toolRuns_append, toolRuns_trace, ih, List.flatMap_cons]

end Attempt

/-- The tools that a search runs are those of its attempts. -/
theorem Searched.toolRuns_eq {host : Host} {settings : Settings} {toolchains : List Toolchain}
    {world after : World} {tried : List Attempt} {untouched : List Toolchain} {cut : List Event}
    {found : Outcome Bool}
    (h : Searched host settings toolchains world after tried untouched cut found) :
    toolRuns after.events = toolRuns world.events ++
      tried.flatMap (Attempt.runs settings world.environment.buildTests) := by
  have hcut : toolRuns cut = [] := by
    cases h.ends with
    | found => rfl
    | exhausted => rfl
    | stuck =>
      rw [Host.cut]
      split <;> rfl
  rw [← toolRuns_beyondOutput, h.events_eq, toolRuns_append, toolRuns_append, toolRuns_beyondOutput,
    Attempt.toolRuns_flatMap_trace, hcut, List.append_nil]

open Act

variable (settings : Settings)

/-- What a command that configures does once the project is configured. -/
def afterwards : Command → Act Unit
  | .build tests docs => assemble settings tests docs
  | .test run => do
    assemble settings true false
    if run then
      banner "Running tests"
      runUnchecked (.ctest settings.dir) .inherit
  | .doc upload => do
    assemble settings false true
    if upload then line "Uploading docs"
  | _ => pure ()

theorem perform_eq_of_configures {command : Command} (h : command.configures = true) :
    perform settings command = configure settings >>= fun _ => afterwards settings command := by
  cases command with
  | build tests docs => rfl
  | config => exact (bind_pure (configure settings)).symm
  | test run =>
    rw [perform, test, build_eq, bind_assoc]
    rfl
  | doc upload =>
    rw [perform, document, build_eq, bind_assoc]
    rfl
  | clean => cases h
  | lint => cases h
  | version => cases h

variable (place : Workspace) (world : World)

def Environment.forBuild (environment : Environment) (tests : Bool) : Environment :=
  if tests then environment.set .buildTests "1" else environment

def World.equipped (tests : Bool) : World :=
  if tests then world.assigned .buildTests "1" else world

theorem equipped_environment (tests : Bool) :
    (world.equipped tests).environment = world.environment.forBuild tests := by
  cases tests <;> rfl

theorem toolRuns_equipped (tests : Bool) :
    toolRuns (world.equipped tests).events = toolRuns world.events := by
  cases tests <;> simp [World.equipped]

def World.built (host : Host) (tests : Bool) : World :=
  ((world.equipped tests).announced
    ("Building project" ++ if tests then " and tests" else "")).launched host
      (.ninja settings.dir settings.jobs) .inherit

theorem built_environment (host : Host) (tests : Bool) :
    (world.built settings host tests).environment = world.environment.forBuild tests :=
  equipped_environment world tests

theorem toolRuns_built (host : Host) (tests : Bool) : ∃ response,
    toolRuns (world.built settings host tests).events = toolRuns world.events ++
      [.ran (.ninja settings.dir settings.jobs) .inherit (world.environment.forBuild tests)
        response] := by
  rw [World.built, toolRuns_launched, toolRuns_announced, toolRuns_equipped,
    ← equipped_environment]
  exact ⟨_, rfl⟩

def World.tested (host : Host) : World :=
  ((world.built settings host true).announced "Running tests").launched host
    (.ctest settings.dir) .inherit

theorem toolRuns_tested (host : Host) : ∃ response result,
    toolRuns (world.tested settings host).events = toolRuns world.events ++
      [.ran (.ninja settings.dir settings.jobs) .inherit (world.environment.forBuild true) response,
        .ran (.ctest settings.dir) .inherit (world.environment.forBuild true) result] := by
  obtain ⟨response, hbuilt⟩ := toolRuns_built settings world host true
  rw [World.tested, toolRuns_launched, toolRuns_announced, hbuilt, List.append_assoc,
    ← built_environment settings world host true]
  exact ⟨response, _, rfl⟩

/-- The builder is run if the tests can be asked for. -/
theorem run_assemble (tests docs : Bool) :
    (assemble settings tests docs).run place world =
      if tests && !place.host.accepts "1" then (.broken, world.proposed .buildTests "1")
      else
        (if docs then .failed (.ofCause (.unsupported "Building doc")) else .done (),
          world.built settings place.host tests) := by
  cases tests <;> cases docs <;> cases h : place.host.accepts "1" <;>
    simp [assemble, World.built, World.equipped, run_bind, run_assign, h]

/-- After the project was configured only documentation can be a reason to fail. -/
theorem outcome_afterwards {command : Command} (h : command.configures = true)
    (haccepts : place.host.accepts "1" = true) :
    ((afterwards settings command).run place world).1 =
      if command.makesDocs then .failed (.ofCause (.unsupported "Building doc")) else .done () := by
  cases command with
  | build tests docs =>
    cases docs <;> simp [afterwards, run_assemble, haccepts, Command.makesDocs]
  | config => rfl
  | test run =>
    cases run <;> simp [afterwards, run_bind, run_assemble, haccepts, Command.makesDocs]
  | doc upload =>
    cases upload <;> simp [afterwards, run_bind, run_assemble, haccepts, Command.makesDocs]
  | clean => cases h
  | lint => cases h
  | version => cases h

/-- The only tools that are run then are the builder and the test runner, and they see the
environment that the command makes of that of the configured project. -/
theorem toolRuns_afterwards (command : Command) :
    ∃ later, toolRuns ((afterwards settings command).run place world).2.events =
        toolRuns world.events ++ later ∧
      ∀ event ∈ later, ∃ line output response,
        (line = .ninja settings.dir settings.jobs ∨ line = .ctest settings.dir) ∧
        event = .ran line output (world.environment.forBuild command.makesTests) response := by
  have hassemble (tests docs : Bool) :
      ∃ later, toolRuns ((assemble settings tests docs).run place world).2.events =
          toolRuns world.events ++ later ∧
        ∀ event ∈ later, ∃ line output response,
          (line = .ninja settings.dir settings.jobs ∨ line = .ctest settings.dir) ∧
          event = .ran line output (world.environment.forBuild tests) response := by
    rw [run_assemble]
    split
    · exact ⟨[], by simp, by simp⟩
    · obtain ⟨response, hbuilt⟩ := toolRuns_built settings world place.host tests
      exact ⟨_, hbuilt, by simp⟩
  cases command with
  | build tests docs => exact hassemble tests docs
  | test run =>
    by_cases haccepts : place.host.accepts "1" = true
    · cases run with
      | false =>
        obtain ⟨response, hbuilt⟩ := toolRuns_built settings world place.host true
        have hrun : (afterwards settings (.test false)).run place world =
            (.done (), world.built settings place.host true) := by
          simp [afterwards, run_assemble, haccepts]
        rw [hrun]
        exact ⟨_, hbuilt, by simp [Command.makesTests]⟩
      | true =>
        obtain ⟨response, result, htested⟩ := toolRuns_tested settings world place.host
        have hrun : (afterwards settings (.test true)).run place world =
            (.done (), world.tested settings place.host) := by
          simp [afterwards, run_bind, run_assemble, haccepts, World.tested]
        rw [hrun]
        exact ⟨_, htested, by simp [Command.makesTests]⟩
    · exact ⟨[], by simp [afterwards, run_bind, run_assemble, haccepts], by simp⟩
  | doc upload =>
    obtain ⟨response, hbuilt⟩ := toolRuns_built settings world place.host false
    have hworld : ((afterwards settings (.doc upload)).run place world).2 =
        world.built settings place.host false := by
      simp [afterwards, run_bind, run_assemble]
    rw [hworld]
    exact ⟨_, hbuilt, by simp [Command.makesTests]⟩
  | _ => exact ⟨[], by simp [afterwards], by simp⟩

theorem takesOnly_afterwards (command : Command) :
    (afterwards settings command).TakesOnly Deed.building := by
  cases command with
  | build tests docs => exact takesOnly_assemble settings tests docs
  | test run =>
    refine .bind (takesOnly_assemble settings true false) fun _ => ?_
    split
    · exact .bind (takesOnly_banner (by decide) (by decide) _) fun _ =>
        takesOnly_runUnchecked (by decide) _ _
    · exact takesOnly_pure ()
  | doc upload =>
    refine .bind (takesOnly_assemble settings false true) fun _ => ?_
    split
    · exact takesOnly_line (by decide) _
    · exact takesOnly_pure ()
  | _ => exact takesOnly_pure ()

theorem takesOnly_perform_of_configures {command : Command} (h : command.configures = true) :
    (perform settings command).TakesOnly Deed.configuring := by
  rw [perform_eq_of_configures settings h]
  exact .bind (takesOnly_configure settings) fun _ =>
    (takesOnly_afterwards settings command).mono (by decide)

theorem takesOnly_perform_of_not_configures {command : Command} (h : command.configures = false) :
    (perform settings command).TakesOnly Deed.tidying := by
  cases command with
  | clean forced kind => exact takesOnly_clean settings (fun _ => by decide) (by decide)
  | lint => exact takesOnly_lint settings
  | version => exact takesOnly_line (by decide) versionText
  | build => cases h
  | config => cases h
  | test => cases h
  | doc => cases h

end Conductor
