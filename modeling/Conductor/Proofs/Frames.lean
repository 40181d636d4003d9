import Conductor.Dispatch
import Conductor.Proofs.Steps

/-!
# The kinds of steps of each act

Resolving only talks to the user, configuring sets variables and runs tools but never asks, and
cleaning and linting ask and run tools but set no variable.
-/

namespace Conductor

def Deed.resolving : List Deed := [.shut, .paint, .ask, .write]

def Deed.configuring : List Deed := [.make, .write, .paint, .assign, .launch]

/-- The kinds of steps that configuring and building take once there is a build directory. -/
def Deed.building : List Deed := [.write, .paint, .assign, .launch]

/-- The kinds of steps that cleaning takes if nothing is asked. -/
def Deed.sweeping : List Deed := [.launch, .write, .paint]

def Deed.tidying : List Deed := [.ask, .launch, .write, .paint]

open Act

theorem takesOnly_runChecked {deeds : List Deed} (hl : .launch ∈ deeds) (line : CommandLine) :
    (runChecked line).TakesOnly deeds := by
  refine .bind (takesOnly_launch hl line .inherit) fun code => ?_
  split
  · exact takesOnly_pure _
  · exact takesOnly_fail _

theorem takesOnly_runUnchecked {deeds : List Deed} (hl : .launch ∈ deeds) (line : CommandLine)
    (output : Output) : (runUnchecked line output).TakesOnly deeds :=
  .bind (TakesOnly.attempt (takesOnly_launch hl line output)) fun _ => takesOnly_pure _

theorem takesOnly_runOptional {deeds : List Deed} {asksFirst : Bool}
    (ha : asksFirst = true → .ask ∈ deeds) (hl : .launch ∈ deeds) (line : CommandLine)
    (message : String) : (runOptional line message asksFirst).TakesOnly deeds := by
  have hrun : (runUnchecked line .inherit >>= fun _ => pure true).TakesOnly deeds :=
    .bind (takesOnly_runUnchecked hl line .inherit) fun _ => takesOnly_pure true
  rw [runOptional]
  split
  next hasks =>
    refine .bind (takesOnly_ask (ha hasks) _) fun answer => ?_
    split
    · exact hrun
    · exact takesOnly_pure false
  next => exact hrun

variable (settings : Settings)

theorem takesOnly_prepareBuildDir {deeds : List Deed} (hm : .make ∈ deeds) (hw : .write ∈ deeds)
    (hp : .paint ∈ deeds) : (prepareBuildDir settings).TakesOnly deeds := by
  intro place world
  simp only [prepareBuildDir, run_bind, run_workspace, run_world]
  split
  · rename_i files hmake
    have hstep : Steps place deeds world { world with files := files } := .single (.make hmake) hm
    exact hstep.trans (takesOnly_line hw _ place _)
  · exact takesOnly_banner hp hw _ place world
  · exact .refl

theorem takesOnly_configureWith (toolchain : Toolchain) :
    (configureWith settings toolchain).TakesOnly Deed.building := by
  have hbanner (message : String) : (banner message).TakesOnly Deed.building :=
    takesOnly_banner (by decide) (by decide) message
  have hsteps : (configureSteps settings toolchain).TakesOnly Deed.building :=
    .bind (takesOnly_runChecked (by decide) _) fun _ => takesOnly_runChecked (by decide) _
  refine .bind (takesOnly_assign (by decide) _ _) fun _ => ?_
  refine .bind (takesOnly_assign (by decide) _ _) fun _ => ?_
  refine .bind (hbanner _) fun _ => .bind hsteps.attempt fun result => ?_
  cases result with
  | ok value => exact .bind (hbanner _) fun _ => takesOnly_pure true
  | error failure =>
    refine .bind (takesOnly_write (by decide) _ _) fun _ => ?_
    exact .bind (hbanner _) fun _ => takesOnly_pure false

theorem takesOnly_configureAny (toolchains : List Toolchain) :
    (configureAny settings toolchains).TakesOnly Deed.building := by
  induction toolchains with
  | nil => exact takesOnly_pure false
  | cons toolchain rest ih =>
    refine .bind (takesOnly_configureWith settings toolchain) fun found => ?_
    split
    · exact takesOnly_pure true
    · exact ih

/-- What a configuration does once there is a build directory. -/
def search : Act Unit := do
  if ← configureAny settings settings.toolchains then pure ()
  else fail (.ofCause (.configurationFailed settings.toolchains.length))

theorem configure_eq : configure settings = prepareBuildDir settings >>= fun _ => search settings :=
  rfl

theorem takesOnly_search : (search settings).TakesOnly Deed.building := by
  refine .bind (takesOnly_configureAny settings _) fun found => ?_
  split
  · exact takesOnly_pure ()
  · exact takesOnly_fail _

theorem takesOnly_configure : (configure settings).TakesOnly Deed.configuring := by
  rw [configure_eq]
  exact .bind (takesOnly_prepareBuildDir settings (by decide) (by decide) (by decide)) fun _ =>
    (takesOnly_search settings).mono (by decide)

/-- What a build does once the project is configured. -/
def assemble (tests docs : Bool) : Act Unit := do
  if tests then assign .buildTests "1"
  banner ("Building project" ++ if tests then " and tests" else "")
  runUnchecked (.ninja settings.dir settings.jobs) .inherit
  if docs then fail (.ofCause (.unsupported "Building doc"))

theorem build_eq (tests docs : Bool) :
    build settings tests docs = configure settings >>= fun _ => assemble settings tests docs := rfl

theorem takesOnly_assemble (tests docs : Bool) :
    (assemble settings tests docs).TakesOnly Deed.building := by
  have hrest (message : String) : (do
      banner message
      runUnchecked (.ninja settings.dir settings.jobs) .inherit
      if docs then fail (.ofCause (.unsupported "Building doc")) : Act Unit).TakesOnly
        Deed.building := by
    refine .bind (takesOnly_banner (by decide) (by decide) _) fun _ => ?_
    refine .bind (takesOnly_runUnchecked (by decide) _ _) fun _ => ?_
    split
    · exact takesOnly_fail _
    · exact takesOnly_pure ()
  rw [assemble]
  split
  · exact .bind (takesOnly_assign (by decide) _ _) fun _ => hrest _
  · exact hrest _

/-- Only a clean that asks first takes steps of asking. -/
theorem takesOnly_clean {deeds : List Deed} {asksFirst : Bool}
    (ha : asksFirst = true → .ask ∈ deeds) (hsub : Deed.sweeping ⊆ deeds) :
    (clean settings asksFirst).TakesOnly deeds := by
  have hl : .launch ∈ deeds := hsub (by decide)
  have hw : .write ∈ deeds := hsub (by decide)
  have hp : .paint ∈ deeds := hsub (by decide)
  refine .bind takesOnly_workspace fun place => .bind takesOnly_world fun before => ?_
  refine .bind (takesOnly_runOptional ha hl _ _) fun removed => ?_
  refine .bind takesOnly_world fun world => ?_
  have hrest : (do
      let _ ← runOptional (.removeFile settings.logFile) "Removing build logs" asksFirst
      banner "Clean without scratching" : Act Unit).TakesOnly deeds :=
    .bind (takesOnly_runOptional ha hl _ _) fun _ => takesOnly_banner hp hw _
  split
  · exact .bind (takesOnly_write hw _ _) fun _ => hrest
  · exact hrest

theorem takesOnly_ensureTool (tool : String) : (ensureTool tool).TakesOnly Deed.tidying := by
  refine .bind takesOnly_workspace fun place => ?_
  split
  · exact takesOnly_pure ()
  · refine .bind (takesOnly_write (by decide) _ _) fun _ => ?_
    refine .bind (takesOnly_ask (by decide) _) fun answer => ?_
    split
    · refine .bind (takesOnly_ask (by decide) _) fun answer => ?_
      refine .bind (takesOnly_line (by decide) _) fun _ => ?_
      split
      · exact .bind (takesOnly_line (by decide) _) fun _ => takesOnly_runUnchecked (by decide) _ _
      · exact takesOnly_pure ()
    · exact takesOnly_fail _

theorem takesOnly_lint : (lint settings).TakesOnly Deed.tidying := by
  refine .bind (takesOnly_line (by decide) _) fun _ => ?_
  refine .bind (takesOnly_ensureTool _) fun _ => ?_
  refine .bind (takesOnly_runUnchecked (by decide) _ _) fun _ => ?_
  refine .bind takesOnly_workspace fun place => .bind takesOnly_world fun world => ?_
  dsimp only
  split
  · exact takesOnly_pure ()
  · exact takesOnly_runUnchecked (by decide) _ _

theorem takesOnly_suggest (word : String) : (suggest word).TakesOnly Deed.resolving := by
  refine .bind (takesOnly_takeGate (by decide)) fun taken => ?_
  split
  · split
    · exact .bind (takesOnly_line (by decide) _) fun _ => takesOnly_pure none
    · refine .bind (takesOnly_nextColor (by decide)) fun color => ?_
      refine .bind (takesOnly_ask (by decide) _) fun answer => ?_
      exact .bind (takesOnly_line (by decide) _) fun _ => takesOnly_pure _
  · exact takesOnly_pure none

theorem takesOnly_resolve (invocation : Invocation) :
    (resolve invocation).TakesOnly Deed.resolving := by
  refine .bind (takesOnly_ofExcept _) fun _ => .bind (takesOnly_ofExcept _) fun found => ?_
  cases found with
  | some command => exact takesOnly_pure _
  | none =>
    refine .bind (takesOnly_showUsage (by decide) (by decide)) fun _ => ?_
    refine .bind (takesOnly_line (by decide) _) fun _ => ?_
    refine .bind (takesOnly_suggest _) fun name => ?_
    cases name with
    | some name => exact takesOnly_ofExcept _
    | none => exact takesOnly_pure none

theorem takesOnly_settingsFor {deeds : List Deed} (command : Command) :
    (settingsFor command).TakesOnly deeds := by
  rw [settingsFor]
  split
  · refine .bind takesOnly_workspace fun place => .bind takesOnly_world fun world => ?_
    split
    · exact takesOnly_pure _
    · exact takesOnly_fail _
  · exact takesOnly_pure _

end Conductor
