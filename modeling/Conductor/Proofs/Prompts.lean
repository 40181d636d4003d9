import Conductor.Proofs.Resolving
import Conductor.Report

/-!
# Questions that fail

An act heeds its questions if the first that fails ends it, with the same failure. Cleaning and
linting do, and apart from that only linting can fail, when a setup is declined. On a stream of
bytes all questions fail with the general error (`Steps.isStreamed`).
-/

namespace Conductor

namespace Act

variable {α β : Type} {causes : Failure → Prop}

/-- A failing question ends the act, and it fails on its own only for some causes. -/
def Heeds (causes : Failure → Prop) (act : Act α) : Prop :=
  ∀ place world,
    (∃ value after, act.run place world = (.done value, after) ∧
      failedPrompts after.events = failedPrompts world.events) ∨
    (∃ failure after, act.run place world = (.failed failure, after) ∧ causes failure ∧
      failedPrompts after.events = failedPrompts world.events) ∨
    (∃ failure after, act.run place world = (.failed failure, after) ∧
      failedPrompts after.events = failedPrompts world.events ++ [failure])

theorem heeds_of_done {act : Act α} (h : ∀ place world, ∃ value after,
    act.run place world = (.done value, after) ∧
      failedPrompts after.events = failedPrompts world.events) : act.Heeds causes :=
  fun place world => .inl (h place world)

theorem heeds_pure (value : α) : (pure value : Act α).Heeds causes :=
  heeds_of_done fun _ world => ⟨value, world, rfl, rfl⟩

theorem heeds_fail {failure : Failure} (h : causes failure) : (fail failure : Act α).Heeds causes :=
  fun _ world => .inr (.inl ⟨failure, world, rfl, h, rfl⟩)

/-- The second act is only done if no question of the first failed. -/
theorem Heeds.bind {act : Act α} {next : α → Act β} (h : act.Heeds causes)
    (hnext : ∀ value, (next value).Heeds causes) : (act >>= next).Heeds causes := by
  intro place world
  rcases h place world with ⟨value, after, hrun, hprompts⟩ |
    ⟨failure, after, hrun, hcause, hprompts⟩ | ⟨failure, after, hrun, hprompts⟩
  · rw [run_bind_of_done _ _ hrun, ← hprompts]
    exact hnext value place after
  · exact .inr (.inl ⟨failure, after, run_bind_of_failed _ _ hrun, hcause, hprompts⟩)
  · exact .inr (.inr ⟨failure, after, run_bind_of_failed _ _ hrun, hprompts⟩)

theorem heeds_workspace : workspace.Heeds causes :=
  heeds_of_done fun place world => ⟨place, world, rfl, rfl⟩

theorem heeds_world : Act.world.Heeds causes :=
  heeds_of_done fun _ world => ⟨world, world, rfl, rfl⟩

theorem heeds_write (channel : Channel) (text : StyledText) : (write channel text).Heeds causes :=
  heeds_of_done fun _ world => ⟨(), world.wrote channel text, rfl, failedPrompts_wrote ..⟩

theorem heeds_line (text : String) : (line text).Heeds causes := heeds_write _ _

theorem heeds_banner (message : String) : (banner message).Heeds causes :=
  heeds_of_done fun _ world =>
    ⟨(), world.announced message, rfl, failedPrompts_wrote world.painted _ _⟩

theorem heeds_ask (question : StyledText) : (ask question).Heeds causes := by
  intro place world
  rw [run_ask]
  cases h : world.answers.next.1 with
  | ok text =>
    refine .inl ⟨text, world.asked question, rfl, ?_⟩
    simp [World.asked, h, failedPrompts]
  | error failure =>
    refine .inr (.inr ⟨failure, world.asked question, rfl, ?_⟩)
    simp [World.asked, h, failedPrompts]

end Act

open Act

variable {causes : Failure → Prop}

theorem heeds_runUnchecked (line : CommandLine) (output : Output) :
    (runUnchecked line output).Heeds causes := by
  refine heeds_of_done fun place world => ⟨(), world.launched place.host line output, ?_, ?_⟩
  · exact run_runUnchecked place world line output
  · simp [World.launched, failedPrompts]

theorem heeds_runOptional (line : CommandLine) (message : String) (asksFirst : Bool) :
    (runOptional line message asksFirst).Heeds causes := by
  have hrun : (runUnchecked line .inherit >>= fun _ => pure true).Heeds causes :=
    .bind (heeds_runUnchecked line .inherit) fun _ => heeds_pure true
  rw [runOptional]
  split
  · refine .bind (heeds_ask _) fun answer => ?_
    split
    · exact hrun
    · exact heeds_pure false
  · exact hrun

variable (settings : Settings)

theorem heeds_clean (asksFirst : Bool) : (clean settings asksFirst).Heeds causes := by
  refine .bind heeds_workspace fun place => .bind heeds_world fun before => ?_
  refine .bind (heeds_runOptional _ _ _) fun removed => .bind heeds_world fun world => ?_
  have hrest : (do
      let _ ← runOptional (.removeFile settings.logFile) "Removing build logs" asksFirst
      banner "Clean without scratching" : Act Unit).Heeds causes :=
    .bind (heeds_runOptional _ _ _) fun _ => heeds_banner _
  split
  · exact .bind (heeds_write _ _) fun _ => hrest
  · exact hrest

def isDecline (failure : Failure) : Prop :=
  ∃ tool, failure = .ofCause (.setupDeclined tool)

theorem heeds_ensureTool (tool : String) : (ensureTool tool).Heeds isDecline := by
  refine .bind heeds_workspace fun place => ?_
  split
  · exact heeds_pure ()
  · refine .bind (heeds_write _ _) fun _ => .bind (heeds_ask _) fun answer => ?_
    split
    · refine .bind (heeds_ask _) fun answer => .bind (heeds_line _) fun _ => ?_
      split
      · exact .bind (heeds_line _) fun _ => heeds_runUnchecked _ _
      · exact heeds_pure ()
    · exact heeds_fail ⟨tool, rfl⟩

theorem heeds_lint : (lint settings).Heeds isDecline := by
  refine .bind (heeds_line _) fun _ => .bind (heeds_ensureTool _) fun _ => ?_
  refine .bind (heeds_runUnchecked _ _) fun _ => ?_
  refine .bind heeds_workspace fun place => .bind heeds_world fun world => ?_
  dsimp only
  split
  · exact heeds_pure ()
  · exact heeds_runUnchecked _ _

theorem exit_of_answerOfLine {bytes : List UInt8} {failure : Failure}
    (h : answerOfLine bytes = .error failure) : failure.exit = .code 1 := by
  unfold answerOfLine at h
  split at h
  · cases h
  · cases h
    rfl

/-- The answers come from a stream, and all questions that failed end the program with the general
error. -/
structure World.IsStreamed (world : World) : Prop where
  answers_eq : ∃ bytes, world.answers = .stream bytes
  exit_eq : ∀ failure ∈ failedPrompts world.events, failure.exit = .code 1

/-- Only questions take answers, and a failing one fails with the general error. -/
theorem Step.isStreamed {place : Workspace} {a b : World} {deed : Deed} (h : Step place a deed b)
    (ha : a.IsStreamed) : b.IsStreamed := by
  obtain ⟨⟨bytes, hbytes⟩, hexit⟩ := ha
  cases h with
  | write channel text => exact ⟨⟨bytes, hbytes⟩, by rwa [failedPrompts_wrote]⟩
  | ask question =>
    refine ⟨⟨(cutLine bytes).2, ?_⟩, fun failure hmem => ?_⟩
    · simp [World.asked, hbytes, Answers.next]
    · rw [World.asked, failedPrompts_append] at hmem
      rcases List.mem_append.mp hmem with hmem | hmem
      · exact hexit failure hmem
      · rw [hbytes, Answers.next] at hmem
        cases hanswer : answerOfLine (cutLine bytes).1 with
        | ok text => simp [failedPrompts, hanswer] at hmem
        | error error =>
          obtain rfl : failure = error := by simpa [failedPrompts, hanswer] using hmem
          exact exit_of_answerOfLine hanswer
  | assign => exact ⟨⟨bytes, hbytes⟩, by simpa [World.assigned, failedPrompts] using hexit⟩
  | refuse => exact ⟨⟨bytes, hbytes⟩, by simpa [World.proposed, failedPrompts] using hexit⟩
  | launch => exact ⟨⟨bytes, hbytes⟩, by simpa [World.launched, failedPrompts] using hexit⟩
  | make => exact ⟨⟨bytes, hbytes⟩, hexit⟩
  | paint => exact ⟨⟨bytes, hbytes⟩, hexit⟩
  | shut => exact ⟨⟨bytes, hbytes⟩, hexit⟩

theorem Steps.isStreamed {place : Workspace} {deeds : List Deed} {a b : World}
    (h : Steps place deeds a b) (ha : a.IsStreamed) : b.IsStreamed :=
  h.keeps (I := World.IsStreamed) (fun _ _ _ _ hstep => hstep.isStreamed) ha

/-- Without a question none fails. -/
theorem Steps.failedPrompts_eq {place : Workspace} {deeds : List Deed} {a b : World}
    (h : Steps place deeds a b) (ha : .ask ∉ deeds) :
    failedPrompts b.events = failedPrompts a.events := by
  obtain ⟨new, hnew, hall⟩ := h.events_eq
  have hnone : failedPrompts new = [] := by
    refine List.filterMap_eq_nil_iff.mpr fun event hmem => ?_
    cases event with
    | asked question answer => exact absurd (hall _ hmem).1 ha
    | _ => rfl
  rw [hnew, failedPrompts_append, hnone, List.append_nil]

theorem failedPrompts_ne_nil_iff (events : List Event) :
    failedPrompts events ≠ [] ↔
      ∃ question failure, Event.asked question (.error failure) ∈ events := by
  constructor
  · intro h
    obtain ⟨failure, hmem⟩ := List.exists_mem_of_ne_nil _ h
    obtain ⟨event, hevent, hfailure⟩ := List.mem_filterMap.mp hmem
    split at hfailure
    · cases hfailure
      exact ⟨_, _, hevent⟩
    · cases hfailure
  · rintro ⟨question, failure, hmem⟩ hnil
    have h : failure ∈ failedPrompts events := List.mem_filterMap.mpr ⟨_, hmem, rfl⟩
    rw [hnil] at h
    cases h

end Conductor
