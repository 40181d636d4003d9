import Conductor.Program
import Conductor.Proofs.Resolving

/-!
# From the words of a command line to a run

The words are resolved, the settings that the command needs are read, and the command is done. Each
of these may be the end of the run.
-/

namespace Conductor

variable (place : Workspace) (world : World)

def Outcome.exit {α : Type} : Outcome α → Exit
  | .done _ => .code 0
  | .failed failure => failure.exit
  | .broken => .abort

def fulfil (command : Command) : Act Reply := do
  let settings ← settingsFor command
  perform settings command
  return .performed command

variable {tokens : List String} {invocation : Invocation} {after : World}

theorem run_obey_of_meant {command : Command} (h : Invocation.ofTokens tokens = some invocation)
    (hrun : (resolve invocation).run place world = (.done (some command), after)) :
    (obey tokens).run place world = (fulfil command).run place after := by
  rw [obey, h]
  exact Act.run_bind_of_done _ _ hrun

theorem run_obey_of_nothing (h : Invocation.ofTokens tokens = some invocation)
    (hrun : (resolve invocation).run place world = (.done none, after)) :
    (obey tokens).run place world = (.done .nothing, after) := by
  rw [obey, h]
  exact Act.run_bind_of_done _ _ hrun

theorem run_obey_of_failed {failure : Failure} (h : Invocation.ofTokens tokens = some invocation)
    (hrun : (resolve invocation).run place world = (.failed failure, after)) :
    (obey tokens).run place world = (.failed failure, after) := by
  rw [obey, h]
  exact Act.run_bind_of_failed _ _ hrun

theorem run_settingsFor_of_ok {command : Command} {settings : Settings}
    (hneeds : command.needsSettings = true)
    (h : Settings.load world.files place.project = .ok settings) :
    (settingsFor command).run place world = (.done settings, world) := by
  simp only [settingsFor, hneeds, if_true, Act.run_bind, Act.run_workspace, Act.run_world, h,
    Act.run_pure]

theorem run_settingsFor_of_error {command : Command} {failure : Failure}
    (hneeds : command.needsSettings = true)
    (h : Settings.load world.files place.project = .error failure) :
    (settingsFor command).run place world = (.failed failure, world) := by
  simp only [settingsFor, hneeds, if_true, Act.run_bind, Act.run_workspace, Act.run_world, h,
    Act.run_fail]

/-- With usable settings a command ends as its own act does. -/
theorem run_fulfil_of_ok {command : Command} {settings : Settings}
    (hneeds : command.needsSettings = true)
    (h : Settings.load world.files place.project = .ok settings) :
    ((fulfil command).run place world).1.exit =
        ((perform settings command).run place world).1.exit ∧
      ((fulfil command).run place world).2 = ((perform settings command).run place world).2 := by
  rw [fulfil, Act.run_bind_of_done _ _ (run_settingsFor_of_ok _ _ hneeds h), Act.run_bind]
  rcases (perform settings command).run place world with ⟨_ | _ | _, _⟩ <;> exact ⟨rfl, rfl⟩

/-- There are no words, the resolution ends the run without a meaning, or it finds the command that
is meant. -/
theorem run_obey_cases (tokens : List String) (hgate : world.gate = true) :
    Invocation.ofTokens tokens = none ∨
    ∃ invocation outcome after, Invocation.ofTokens tokens = some invocation ∧
      (resolve invocation).run place world = (outcome, after) ∧
      ((meaningOf tokens world.answers.next.1 = none ∧
          (outcome = .done none ∨ ∃ failure, outcome = .failed failure)) ∨
        ∃ command, meaningOf tokens world.answers.next.1 = some command ∧
          outcome = .done (some command)) := by
  cases htokens : Invocation.ofTokens tokens with
  | none => exact .inl rfl
  | some invocation =>
    obtain ⟨outcome, after, failures, hrun, hresolves, -⟩ :=
      run_resolve place world invocation hgate
    refine .inr ⟨invocation, outcome, after, rfl, hrun, ?_⟩
    rw [meaningOf, htokens, Option.bind_some]
    cases hresolves with
    | surplus h => exact .inl ⟨Invocation.meaning_of_isMisuse (.inl h), .inr ⟨_, rfl⟩⟩
    | unfit hname hargument halone =>
      have hmisuse : invocation.isMisuse world.answers.next.1 :=
        .inr ⟨by rw [hargument]; rfl, _, hname, halone⟩
      exact .inl ⟨Invocation.meaning_of_isMisuse hmisuse, .inr ⟨_, rfl⟩⟩
    | @meant command h => exact .inr ⟨command, h, rfl⟩
    | unanswered hlength hname h =>
      exact .inl ⟨Invocation.meaning_of_not_named hname, .inr ⟨_, rfl⟩⟩
    | nothing hlength hname => exact .inl ⟨Invocation.meaning_of_not_named hname, .inl rfl⟩

/-- Words without a meaning are only talked about. -/
theorem steps_obey_of_no_meaning {tokens : List String} (hgate : world.gate = true)
    (h : meaningOf tokens world.answers.next.1 = none) :
    Steps place Deed.resolving world ((obey tokens).run place world).2 := by
  rcases run_obey_cases place world tokens hgate with hnone |
    ⟨invocation, outcome, after, htokens, hrun, ⟨-, hcases⟩ | ⟨command, hmeaning, -⟩⟩
  · rw [obey, hnone]
    refine Act.TakesOnly.bind (Act.takesOnly_showUsage (by decide) (by decide)) (fun _ => ?_)
      place world
    exact Act.takesOnly_pure _
  · have hsteps := takesOnly_resolve invocation place world
    rw [hrun] at hsteps
    rcases hcases with rfl | ⟨failure, rfl⟩
    · rw [run_obey_of_nothing _ _ htokens hrun]
      exact hsteps
    · rw [run_obey_of_failed _ _ htokens hrun]
      exact hsteps
  · rw [h] at hmeaning
    cases hmeaning

/-- A command that is meant is done after the resolution. -/
theorem run_obey_of_meaning {tokens : List String} {command : Command}
    (hgate : world.gate = true)
    (h : meaningOf tokens world.answers.next.1 = some command) :
    ∃ after, Steps place Deed.resolving world after ∧
      (obey tokens).run place world = (fulfil command).run place after := by
  rcases run_obey_cases place world tokens hgate with hnone |
    ⟨invocation, outcome, after, htokens, hrun, ⟨hmeaning, -⟩ | ⟨found, hmeaning, rfl⟩⟩
  · rw [meaningOf, hnone] at h
    cases h
  · rw [h] at hmeaning
    cases hmeaning
  · obtain rfl : command = found := Option.some.inj (h.symm.trans hmeaning)
    have hsteps := takesOnly_resolve invocation place world
    rw [hrun] at hsteps
    exact ⟨after, hsteps, run_obey_of_meant _ _ htokens hrun⟩

/-- Without usable settings a command that needs them is not begun. -/
theorem steps_obey_of_unusable {tokens : List String} {command : Command} {failure : Failure}
    (hgate : world.gate = true) (h : meaningOf tokens world.answers.next.1 = some command)
    (hneeds : command.needsSettings = true)
    (hload : Settings.load world.files place.project = .error failure) :
    Steps place Deed.resolving world ((obey tokens).run place world).2 := by
  obtain ⟨after, hsteps, hrun⟩ := run_obey_of_meaning place world hgate h
  have hfiles : after.files = world.files := hsteps.files_eq (by decide) (by decide)
  rw [← hfiles] at hload
  rw [hrun, fulfil, Act.run_bind_of_failed _ _ (run_settingsFor_of_error _ _ hneeds hload)]
  exact hsteps

/-- With usable settings a command is done in a world that only the resolution has changed. -/
theorem run_obey_of_usable {tokens : List String} {command : Command} {settings : Settings}
    (hgate : world.gate = true) (h : meaningOf tokens world.answers.next.1 = some command)
    (hneeds : command.needsSettings = true)
    (hload : Settings.load world.files place.project = .ok settings) :
    ∃ after, Steps place Deed.resolving world after ∧
      ((obey tokens).run place world).2 = ((perform settings command).run place after).2 := by
  obtain ⟨after, hsteps, hrun⟩ := run_obey_of_meaning place world hgate h
  have hfiles : after.files = world.files := hsteps.files_eq (by decide) (by decide)
  rw [← hfiles] at hload
  refine ⟨after, hsteps, ?_⟩
  rw [hrun, (run_fulfil_of_ok place after hneeds hload).2]

theorem carryOut_fst (tokens : List String) :
    (Program.carryOut place world tokens).1 = ((obey tokens).run place world).1.exit := by
  rw [Program.carryOut]
  rcases (obey tokens).run place world with ⟨_ | _ | _, _⟩ <;> rfl

/-- A failure is reported after all that was done. -/
theorem carryOut_snd (tokens : List String) :
    (Program.carryOut place world tokens).2 =
      match ((obey tokens).run place world).1 with
      | .failed failure => ((obey tokens).run place world).2.wrote .err failure.report
      | _ => ((obey tokens).run place world).2 := by
  rw [Program.carryOut]
  rcases (obey tokens).run place world with ⟨_ | _ | _, _⟩ <;> rfl

/-- A report takes no other step than a text. -/
theorem steps_carryOut {place : Workspace} {start world : World} {deeds : List Deed}
    {tokens : List String} (hw : .write ∈ deeds)
    (h : Steps place deeds start ((obey tokens).run place world).2) :
    Steps place deeds start (Program.carryOut place world tokens).2 := by
  rw [carryOut_snd]
  split
  · exact h.trans (Steps.single (.write .err _) hw)
  · exact h

/-- A run of the program, given that its words are accepted. -/
theorem run_eq {words tokens : List String} {options : Options} (files : Files.Node)
    (input : List UInt8) (styled : Bool) (h : Options.parse words = .ok (options, tokens)) :
    Program.run place files input styled words =
      .ok ⟨(Program.carryOut place { files := files, answers := .stream input } tokens).1,
        (Program.carryOut place { files := files, answers := .stream input } tokens).2,
        ⟨styled && !options.noColor, options.verbose, true⟩⟩ := by
  rw [Program.run, h]
  rfl

end Conductor
