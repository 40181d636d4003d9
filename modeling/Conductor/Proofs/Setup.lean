import Conductor.Proofs.Cleaning
import Conductor.Proofs.Passes
import Conductor.Proofs.Sparing
import Conductor.Proofs.Words

/-!
# Formatting with the offer to install

A lint looks for the tool for the lists, and offers to install it if it is not found. `SetUp` tells
what may become of that, and `lint_formats_after_setup` that both formatters follow unless the
offer is declined or a question fails.
-/

namespace Conductor

/-- The words of the command that installs the tools, by the answer that spells the installer. -/
def installWords (answer : String) : List String :=
  (if Text.words answer = [] then ["pip"] else Text.words answer) ++ ["install", "cmake-format"]

theorem words_installerOf (answer : String) :
    Text.words (installerOf answer) =
      if Text.words answer = [] then ["pip"] else Text.words answer := by
  rw [installerOf]
  by_cases h : (Text.trim answer).isEmpty = true
  · have hnone : Text.words answer = [] := Text.words_eq_nil_iff.mpr ((isEmpty_trim answer).mp h)
    rw [if_pos h, if_pos hnone]
    decide
  · have hsome : Text.words answer ≠ [] := fun hnone =>
      h ((isEmpty_trim answer).mpr (Text.words_eq_nil_iff.mp hnone))
    rw [if_neg h, if_neg hsome, Text.words_trim]

/-- Whatever the answer is, there is a command to install the tools. -/
theorem exists_installLine (answer : String) : ∃ line : CommandLine,
    CommandLine.parse? (installerOf answer ++ " install cmake-format") = some line ∧
      line.words = installWords answer := by
  have hwords : Text.words (installerOf answer ++ " install cmake-format") =
      installWords answer := by
    have hend : Text.words "install cmake-format" = ["install", "cmake-format"] := by decide
    have htext : installerOf answer ++ " install cmake-format" =
        installerOf answer ++ " " ++ "install cmake-format" := by
      rw [String.append_assoc]
      rfl
    rw [htext, Text.words_append_space, hend, words_installerOf, installWords]
  have hne : installWords answer ≠ [] := by simp [installWords]
  obtain ⟨program, arguments, hcons⟩ := List.exists_cons_of_ne_nil hne
  rw [CommandLine.parse?, hwords, hcons]
  exact ⟨⟨program, arguments⟩, rfl, rfl⟩

abbrev setupQuestion : StyledText :=
  [.plain "Install missing modules? Y/n "]

abbrev installerQuestion : StyledText :=
  [.plain "How is `pip` spelled - pip2, pip3, etc.? [default: `pip`] "]

namespace World

variable (world : World)

abbrev toldMissing (tool : String) : World :=
  world.wrote .err (.warning ("'" ++ tool ++ "' not found in PATH"))

def offeredSetup (tool : String) : World :=
  (world.toldMissing tool).asked setupQuestion

def toldSetup (answer : String) (line : CommandLine) : World :=
  (world.wrote .out [.plain ("Entered '" ++ installerOf answer ++ "'" ++ "\n")]).wrote .out
    [.plain (line.display ++ "\n")]

end World

/-- What becomes of a tool that is needed, and the world after it. -/
inductive SetUp (place : Workspace) (tool : String) (world : World) : Outcome Unit → World → Prop
  | found (htool : place.host.finds tool = true) : SetUp place tool world (.done ()) world
  | unheard {failure : Failure} (htool : place.host.finds tool = false)
      (hanswer : world.answers.next.1 = .error failure) :
      SetUp place tool world (.failed failure) (world.offeredSetup tool)
  | declined {answer : String} (htool : place.host.finds tool = false)
      (hanswer : world.answers.next.1 = .ok answer) (hno : ¬ Accepts answer) :
      SetUp place tool world (.failed (.ofCause (.setupDeclined tool))) (world.offeredSetup tool)
  | unspelled {answer : String} {failure : Failure} (htool : place.host.finds tool = false)
      (hanswer : world.answers.next.1 = .ok answer) (hyes : Accepts answer)
      (hspelled : world.answers.next.2.next.1 = .error failure) :
      SetUp place tool world (.failed failure) ((world.offeredSetup tool).asked installerQuestion)
  | installed {answer spelled : String} {line : CommandLine}
      (htool : place.host.finds tool = false) (hanswer : world.answers.next.1 = .ok answer)
      (hyes : Accepts answer) (hspelled : world.answers.next.2.next.1 = .ok spelled)
      (hline : line.words = installWords spelled) :
      SetUp place tool world (.done ())
        ((((world.offeredSetup tool).asked installerQuestion).toldSetup spelled line).launched
          place.host line .inherit)

section

variable (place : Workspace) (world : World)

theorem run_ask_of_ok {text : String} (question : StyledText)
    (h : world.answers.next.1 = .ok text) :
    (Act.ask question).run place world = (.done text, world.asked question) := by
  rw [Act.run_ask, h]

theorem run_ask_of_error {failure : Failure} (question : StyledText)
    (h : world.answers.next.1 = .error failure) :
    (Act.ask question).run place world = (.failed failure, world.asked question) := by
  rw [Act.run_ask, h]

theorem setUp_ensureTool (tool : String) : ∃ outcome after,
    (ensureTool tool).run place world = (outcome, after) ∧
      SetUp place tool world outcome after := by
  rw [ensureTool, Act.run_bind, Act.run_workspace]
  dsimp only
  cases htool : place.host.finds tool with
  | true => exact ⟨_, _, rfl, .found htool⟩
  | false =>
    rw [if_neg Bool.false_ne_true, Act.run_bind, Act.run_write]
    dsimp only
    cases hanswer : world.answers.next.1 with
    | error failure =>
      have hasked := run_ask_of_error place (world.toldMissing tool) setupQuestion hanswer
      exact ⟨_, _, Act.run_bind_of_failed _ _ hasked, .unheard htool hanswer⟩
    | ok answer =>
      have hasked := run_ask_of_ok place (world.toldMissing tool) setupQuestion hanswer
      rw [Act.run_bind_of_done _ _ hasked]
      by_cases hyes : isYes answer = true
      · have hyes' : Accepts answer := (isYes_iff answer).mp hyes
        rw [if_pos hyes]
        cases hspelled : world.answers.next.2.next.1 with
        | error failure =>
          have hasked' :=
            run_ask_of_error place (world.offeredSetup tool) installerQuestion hspelled
          exact ⟨_, _, Act.run_bind_of_failed _ _ hasked', .unspelled htool hanswer hyes' hspelled⟩
        | ok spelled =>
          have hasked' :=
            run_ask_of_ok place (world.offeredSetup tool) installerQuestion hspelled
          obtain ⟨line, hparse, hline⟩ := exists_installLine spelled
          have htext : installerOf spelled ++ " install " ++ setupPackage =
              installerOf spelled ++ " install cmake-format" := by
            rw [String.append_assoc]
            rfl
          refine ⟨_, _, ?_, .installed htool hanswer hyes' hspelled hline⟩
          refine (Act.run_bind_of_done _ _ hasked').trans ?_
          simp only [htext, hparse, Act.run_bind, Act.run_line, run_runUnchecked]
          rfl
      · rw [if_neg hyes]
        exact ⟨_, _, rfl, .declined htool hanswer fun h => hyes ((isYes_iff answer).mpr h)⟩

end

theorem linesRun_wrote (world : World) (channel : Channel) (text : StyledText) :
    linesRun (world.wrote channel text).events = linesRun world.events := by
  simp [World.wrote, linesRun]

theorem linesRun_asked (world : World) (question : StyledText) :
    linesRun (world.asked question).events = linesRun world.events := by
  simp [World.asked, linesRun]

/-- Without the tool nothing was run. -/
theorem SetUp.linesRun_eq_of_failed {place : Workspace} {tool : String} {world after : World}
    {failure : Failure} (h : SetUp place tool world (.failed failure) after) :
    linesRun after.events = linesRun world.events := by
  cases h with
  | unheard => rw [World.offeredSetup, linesRun_asked, linesRun_wrote]
  | declined => rw [World.offeredSetup, linesRun_asked, linesRun_wrote]
  | unspelled => rw [World.offeredSetup, linesRun_asked, linesRun_asked, linesRun_wrote]

/-- A lint that has got its tool formats the sources and then the lists that are found after that,
if there are any. Otherwise it ends as the attempt to get the tool did, and has run nothing. -/
theorem lint_formats_after_setup (settings : Settings) (place : Workspace) (world : World) :
    (∀ answer, ∃ line : CommandLine,
      CommandLine.parse? (installerOf answer ++ " install cmake-format") = some line ∧
        line.words = installWords answer) ∧
    ∃ outcome ready,
      SetUp place "cmake-format" (world.wrote .out [.plain ("Linting" ++ "\n")]) outcome ready ∧
      match outcome with
      | .done _ =>
        let before := ready.launched place.host ⟨"clang-format-all", settings.formatDirs⟩ .inherit
        let lists := Files.findLists before.files place.project settings.dir
        (lint settings).run place world = (.done (), if lists = [] then before else
          before.launched place.host ⟨"cmake-format", "-i" :: lists⟩ .discard)
      | .failed failure =>
        (lint settings).run place world = (.failed failure, ready) ∧
          linesRun ready.events = linesRun world.events
      | .broken => False := by
  refine ⟨exists_installLine, ?_⟩
  let begun := world.wrote .out [.plain ("Linting" ++ "\n")]
  obtain ⟨outcome, ready, hrun, hsetup⟩ := setUp_ensureTool place begun "cmake-format"
  refine ⟨outcome, ready, hsetup, ?_⟩
  cases outcome with
  | done value =>
    have hlint : (lint settings).run place world = _ := run_lint hrun
    simpa only [World.sourcesFormatted, World.listsFormatted, List.isEmpty_iff] using hlint
  | failed failure =>
    refine ⟨?_, ?_⟩
    · rw [lint, Act.run_bind, Act.run_line]
      exact Act.run_bind_of_failed _ _ hrun
    · rw [hsetup.linesRun_eq_of_failed, linesRun_wrote]
  | broken => cases hsetup

end Conductor
