import Conductor.Dispatch
import Conductor.Proofs.Toolchains

/-!
# What a clean removes

A clean runs at most two tools, for the build directory and then for the log. A kind one that is not
forced runs each of them only right after its own question, and only if the answer approves.
`Cleaned` tells everything that a clean does, and `run_clean` that it does this.
-/

namespace Conductor

/-- The answers that let a removal be done. -/
def Approves (answer : String) : Prop :=
  Text.trim answer = "" ∨ Text.trim answer = "y" ∨ Text.trim answer = "Y"

theorem isYesOrDefault_iff (answer : String) :
    isYesOrDefault answer = true ↔ Approves answer := by
  simp [isYesOrDefault, isLetterY, Approves]

/-- What is done about a removal, with the answer if one was asked for. -/
inductive Removal (line : CommandLine) (message : String) : Option String → List Event → Prop
  | unasked (environment : Environment) (response : Response) :
      Removal line message none [.ran line .inherit environment response]
  | approved {answer : String} (h : Approves answer) (environment : Environment)
      (response : Response) :
      Removal line message (some answer)
        [.asked (permission message) (.ok answer), .ran line .inherit environment response]
  | refused {answer : String} (h : ¬ Approves answer) :
      Removal line message (some answer) [.asked (permission message) (.ok answer)]

/-- What is heard from the user, who may not be asked. -/
def heard (asksFirst : Bool) (answer : Answer) : Except Failure (Option String) :=
  if asksFirst then answer.map some else .ok none

/-- How a clean ends and what it does, by what is heard before each of its two removals. Whatever
else it does is to tell about it. -/
inductive Cleaned (settings : Settings) : Except Failure (Option String) →
    Except Failure (Option String) → Outcome Unit → List Event → Prop
  | unheard (failure : Failure) (second : Except Failure (Option String)) :
      Cleaned settings (.error failure) second (.failed failure)
        [.asked (permission "Removing build directory") (.error failure)]
  | halfway {first : Option String} (failure : Failure) {removal told : List Event}
      (h : Removal ⟨"rm", ["-rf", settings.dir]⟩ "Removing build directory" first removal)
      (htold : ∀ event ∈ told, event.isOutput = true) :
      Cleaned settings (.ok first) (.error failure) (.failed failure)
        (removal ++ told ++ [.asked (permission "Removing build logs") (.error failure)])
  | whole {first second : Option String} {removal told removal' told' : List Event}
      (h : Removal ⟨"rm", ["-rf", settings.dir]⟩ "Removing build directory" first removal)
      (htold : ∀ event ∈ told, event.isOutput = true)
      (h' : Removal ⟨"rm", ["-f", settings.logFile]⟩ "Removing build logs" second removal')
      (htold' : ∀ event ∈ told', event.isOutput = true) :
      Cleaned settings (.ok first) (.ok second) (.done ()) (removal ++ told ++ removal' ++ told')

section

variable (place : Workspace) (world : World)

theorem run_runOptional_of_error (line : CommandLine) (message : String) {asksFirst : Bool}
    {failure : Failure} (h : heard asksFirst world.answers.next.1 = .error failure) :
    ∃ after, (runOptional line message asksFirst).run place world = (.failed failure, after) ∧
      after.events = world.events ++ [.asked (permission message) (.error failure)] := by
  cases asksFirst with
  | false => cases h
  | true =>
    cases hanswer : world.answers.next.1 with
    | ok answer =>
      rw [hanswer] at h
      cases h
    | error other =>
      rw [hanswer] at h
      cases h
      rw [run_runOptional_asked, hanswer]
      exact ⟨_, rfl, by rw [World.asked, hanswer]⟩

theorem run_runOptional_of_ok (line : CommandLine) (message : String) {asksFirst : Bool}
    {answer : Option String} (h : heard asksFirst world.answers.next.1 = .ok answer) :
    ∃ removed after events, (runOptional line message asksFirst).run place world =
        (.done removed, after) ∧ Removal line message answer events ∧
      after.events = world.events ++ events ∧
      heard asksFirst after.answers.next.1 = heard asksFirst world.answers.next.2.next.1 := by
  cases asksFirst with
  | false =>
    cases h
    rw [run_runOptional_unasked]
    exact ⟨_, _, _, rfl, .unasked _ _, rfl, rfl⟩
  | true =>
    cases hanswer : world.answers.next.1 with
    | error failure =>
      rw [hanswer] at h
      cases h
    | ok text =>
      rw [hanswer] at h
      cases h
      rw [run_runOptional_asked, hanswer]
      have hasked : (world.asked (permission message)).events =
          world.events ++ [.asked (permission message) (.ok text)] := by
        rw [World.asked, hanswer]
      by_cases happroves : isYesOrDefault text = true
      · let response := (world.asked (permission message)).response place.host line
        have hran :
            ((world.asked (permission message)).launched place.host line .inherit).events =
              world.events ++ [.asked (permission message) (.ok text),
                .ran line .inherit world.environment response] := by
          rw [World.launched, hasked, List.append_assoc]
          rfl
        simp only [if_pos happroves]
        exact ⟨_, _, _, rfl, .approved ((isYesOrDefault_iff text).mp happroves) _ _, hran, rfl⟩
      · have hrefuses : ¬ Approves text := fun h => happroves ((isYesOrDefault_iff text).mpr h)
        simp only [if_neg happroves]
        exact ⟨_, _, _, rfl, .refused hrefuses, hasked, rfl⟩

/-- The log is removed in a world that differs from the one after the first removal only by what
was told. -/
theorem run_clean_of_removed {settings : Settings} {asksFirst removed : Bool} {after : World}
    (h : (runOptional (.removeTree settings.dir) "Removing build directory" asksFirst).run place
      world = (.done removed, after)) :
    ∃ later told, (clean settings asksFirst).run place world = (do
        let _ ← runOptional (.removeFile settings.logFile) "Removing build logs" asksFirst
        Act.banner "Clean without scratching" : Act Unit).run place later ∧
      (∀ event ∈ told, event.isOutput = true) ∧ later.events = after.events ++ told ∧
      later.answers = after.answers := by
  rw [clean, Act.run_bind, Act.run_workspace]
  dsimp only
  rw [Act.run_bind, Act.run_world]
  dsimp only
  rw [Act.run_bind_of_done _ _ h, Act.run_bind, Act.run_world]
  dsimp only
  split
  · exact ⟨after.wrote .out _, [.wrote .out _], rfl, by simp [Event.isOutput], rfl, rfl⟩
  · exact ⟨after, [], rfl, by simp, by simp, rfl⟩

theorem run_clean_of_failed {settings : Settings} {asksFirst : Bool} {failure : Failure}
    {after : World}
    (h : (runOptional (.removeTree settings.dir) "Removing build directory" asksFirst).run place
      world = (.failed failure, after)) :
    (clean settings asksFirst).run place world = (.failed failure, after) := by
  rw [clean, Act.run_bind, Act.run_workspace]
  dsimp only
  rw [Act.run_bind, Act.run_world]
  dsimp only
  rw [Act.run_bind_of_failed _ _ h]

theorem run_clean (settings : Settings) (asksFirst : Bool) :
    ∃ outcome after events, (clean settings asksFirst).run place world = (outcome, after) ∧
      after.events = world.events ++ events ∧
      Cleaned settings (heard asksFirst world.answers.next.1)
        (heard asksFirst world.answers.next.2.next.1) outcome events := by
  cases hfirst : heard asksFirst world.answers.next.1 with
  | error failure =>
    obtain ⟨after, hfailed, hevents⟩ := run_runOptional_of_error place world
      (.removeTree settings.dir) "Removing build directory" hfirst
    exact ⟨_, after, _, run_clean_of_failed place world hfailed, hevents, .unheard failure _⟩
  | ok first =>
    obtain ⟨removed, after, removal, hremoved, hremoval, hevents, hheard⟩ :=
      run_runOptional_of_ok place world (.removeTree settings.dir) "Removing build directory" hfirst
    obtain ⟨later, told, hclean, htold, hlater, hanswers⟩ :=
      run_clean_of_removed place world hremoved
    rw [← hheard, ← hanswers, hclean]
    cases hsecond : heard asksFirst later.answers.next.1 with
    | error failure =>
      obtain ⟨last, hfailed, hlast⟩ := run_runOptional_of_error place later
        (.removeFile settings.logFile) "Removing build logs" hsecond
      refine ⟨_, last, _, Act.run_bind_of_failed _ _ hfailed, ?_, .halfway failure hremoval htold⟩
      rw [hlast, hlater, hevents, List.append_assoc, List.append_assoc, List.append_assoc]
    | ok second =>
      obtain ⟨removed', last, removal', hremoved', hremoval', hlast, -⟩ := run_runOptional_of_ok
        place later (.removeFile settings.logFile) "Removing build logs" hsecond
      let farewell : Event := .wrote .out (.banner last.palette.color "Clean without scratching")
      have hend : (last.announced "Clean without scratching").events = last.events ++ [farewell] :=
        rfl
      have hfarewell : ∀ event ∈ [farewell], event.isOutput = true := by
        simp [farewell, Event.isOutput]
      rw [Act.run_bind_of_done _ _ hremoved', Act.run_banner]
      refine ⟨_, _, _, rfl, ?_, .whole hremoval htold hremoval' hfarewell⟩
      rw [hend, hlast, hlater, hevents]
      simp only [List.append_assoc]

end

def linesRun (events : List Event) : List CommandLine :=
  events.filterMap fun
    | .ran line .. => some line
    | _ => none

theorem linesRun_append (a b : List Event) : linesRun (a ++ b) = linesRun a ++ linesRun b :=
  List.filterMap_append ..

theorem linesRun_of_output {told : List Event} (h : ∀ event ∈ told, event.isOutput = true) :
    linesRun told = [] := by
  refine List.filterMap_eq_nil_iff.mpr fun event hmem => ?_
  have houtput := h event hmem
  cases event <;> first | rfl | cases houtput

theorem Removal.linesRun {line : CommandLine} {message : String} {answer : Option String}
    {events : List Event} (h : Removal line message answer events) :
    (Conductor.linesRun events).Sublist [line] := by
  cases h with
  | unasked => exact .refl _
  | approved => exact .refl _
  | refused => exact List.nil_sublist _

theorem Cleaned.linesRun {settings : Settings} {first second : Except Failure (Option String)}
    {outcome : Outcome Unit} {events : List Event}
    (h : Cleaned settings first second outcome events) :
    (Conductor.linesRun events).Sublist
      [⟨"rm", ["-rf", settings.dir]⟩, ⟨"rm", ["-f", settings.logFile]⟩] := by
  cases h with
  | unheard => exact List.nil_sublist _
  | halfway failure h htold =>
    rw [linesRun_append, linesRun_append, linesRun_of_output htold, List.append_nil]
    exact h.linesRun.append (List.nil_sublist _)
  | whole h htold h' htold' =>
    rw [linesRun_append, linesRun_append, linesRun_append, linesRun_of_output htold,
      linesRun_of_output htold', List.append_nil, List.append_nil]
    exact h.linesRun.append h'.linesRun

/-- A clean asks before each removal if it is kind and not forced, and then each is done exactly if
it was approved. Without asking both are done. A question that fails ends it at once, and otherwise
it ends well, whatever the tools do. -/
theorem clean_removes_approved (settings : Settings) (forced kind : Bool) (place : Workspace)
    (world : World) :
    let asksFirst := kind && !forced
    let run := (perform settings (.clean forced kind)).run place world
    ∃ events, run.2.events = world.events ++ events ∧
      Cleaned settings (heard asksFirst world.answers.next.1)
        (heard asksFirst world.answers.next.2.next.1) run.1 events ∧
      (linesRun events).Sublist
        [⟨"rm", ["-rf", settings.dir]⟩, ⟨"rm", ["-f", settings.logFile]⟩] := by
  intro asksFirst run
  obtain ⟨outcome, after, events, hrun, hevents, hcleaned⟩ :=
    run_clean place world settings asksFirst
  have heq : run = (outcome, after) := hrun
  rw [heq]
  exact ⟨events, hevents, hcleaned, hcleaned.linesRun⟩

end Conductor
