import Conductor.Main
import Conductor.Proofs.Building
import Conductor.Proofs.Obeying
import Conductor.Proofs.Repeating
import Conductor.Proofs.Words

/-!
# Colours over a whole run

Every act of the program passes the turn on, from the resolution of the words to the last tool, so
that in a whole run no colour is left out and none comes twice. The main result is
`items_take_turns`.
-/

namespace Conductor

open Act

theorem passesTurn_runChecked (line : CommandLine) : (runChecked line).PassesTurn := by
  refine .bind (passesTurn_launch line .inherit) fun code => ?_
  split
  · exact passesTurn_pure _
  · exact passesTurn_fail _

theorem passesTurn_runUnchecked (line : CommandLine) (output : Output) :
    (runUnchecked line output).PassesTurn :=
  .bind (passesTurn_launch line output).attempt fun _ => passesTurn_pure _

theorem passesTurn_runOptional (line : CommandLine) {message : String} (asksFirst : Bool)
    (h : (Span.plain (message ++ " Ok? ")).isItem = false) :
    (runOptional line message asksFirst).PassesTurn := by
  have hrun : (runUnchecked line .inherit >>= fun _ => pure true).PassesTurn :=
    .bind (passesTurn_runUnchecked line .inherit) fun _ => passesTurn_pure true
  rw [runOptional]
  split
  · refine .bind (passesTurn_ask fun _ => .other h (Span.not_isPainted_plain _) .nil) fun _ => ?_
    split
    · exact hrun
    · exact passesTurn_pure false
  · exact hrun

variable (settings : Settings)

/-- A directory that is made is told of in a plain line, one that is there already in colour. -/
theorem passesTurn_prepareBuildDir : (prepareBuildDir settings).PassesTurn := by
  intro place world
  simp only [prepareBuildDir, run_bind, run_workspace, run_world]
  split
  · rename_i files hmake
    exact passesTurn_line ("INFO: Created '" ++ settings.dir ++ "/' directory") (by simp)
      place { world with files := files }
  · exact passesTurn_banner _ place world
  · exact passesTurn_fail (α := Unit) _ place world

theorem passesTurn_configureWith (toolchain : Toolchain) :
    (configureWith settings toolchain).PassesTurn := by
  have hsteps : (configureSteps settings toolchain).PassesTurn :=
    .bind (passesTurn_runChecked _) fun _ => passesTurn_runChecked _
  refine .bind (passesTurn_assign _ _) fun _ => .bind (passesTurn_assign _ _) fun _ => ?_
  refine .bind (passesTurn_banner _) fun _ => .bind hsteps.attempt fun result => ?_
  cases result with
  | ok value => exact .bind (passesTurn_banner _) fun _ => passesTurn_pure true
  | error failure =>
    refine .bind (passesTurn_write_err _) fun _ => ?_
    exact .bind (passesTurn_banner _) fun _ => passesTurn_pure false

theorem passesTurn_configureAny (toolchains : List Toolchain) :
    (configureAny settings toolchains).PassesTurn := by
  induction toolchains with
  | nil => exact passesTurn_pure false
  | cons toolchain rest ih =>
    refine .bind (passesTurn_configureWith settings toolchain) fun found => ?_
    split
    · exact passesTurn_pure true
    · exact ih

theorem passesTurn_configure : (configure settings).PassesTurn := by
  refine .bind (passesTurn_prepareBuildDir settings) fun _ => ?_
  refine .bind (passesTurn_configureAny settings _) fun found => ?_
  split
  · exact passesTurn_pure ()
  · exact passesTurn_fail _

theorem passesTurn_assemble (tests docs : Bool) : (assemble settings tests docs).PassesTurn := by
  have hrest (message : String) : (do
      banner message
      runUnchecked (.ninja settings.dir settings.jobs) .inherit
      if docs then fail (.ofCause (.unsupported "Building doc")) : Act Unit).PassesTurn := by
    refine .bind (passesTurn_banner _) fun _ => .bind (passesTurn_runUnchecked _ _) fun _ => ?_
    split
    · exact passesTurn_fail _
    · exact passesTurn_pure ()
  rw [assemble]
  split
  · exact .bind (passesTurn_assign _ _) fun _ => hrest _
  · exact hrest _

theorem passesTurn_build (tests docs : Bool) : (build settings tests docs).PassesTurn :=
  build_eq settings tests docs ▸
    .bind (passesTurn_configure settings) fun _ => passesTurn_assemble settings tests docs

theorem passesTurn_clean (asksFirst : Bool) : (clean settings asksFirst).PassesTurn := by
  refine .bind passesTurn_workspace fun place => .bind passesTurn_world fun before => ?_
  refine .bind (passesTurn_runOptional _ _ (by decide)) fun removed => ?_
  refine .bind passesTurn_world fun world => ?_
  have hrest : (do
      let _ ← runOptional (.removeFile settings.logFile) "Removing build logs" asksFirst
      banner "Clean without scratching" : Act Unit).PassesTurn :=
    .bind (passesTurn_runOptional _ _ (by decide)) fun _ => passesTurn_banner _
  split
  · exact .bind (passesTurn_write fun _ => inTurn_info _) fun _ => hrest
  · exact hrest

theorem passesTurn_ensureTool (tool : String) : (ensureTool tool).PassesTurn := by
  refine .bind passesTurn_workspace fun place => ?_
  split
  · exact passesTurn_pure ()
  · refine .bind (passesTurn_write_err _) fun _ => ?_
    refine .bind (passesTurn_ask fun _ => ?_) fun answer => ?_
    · exact .other (by decide) (Span.not_isPainted_plain _) .nil
    split
    · refine .bind (passesTurn_ask fun _ => ?_) fun answer => ?_
      · exact .other (by decide) (Span.not_isPainted_plain _) .nil
      refine .bind (passesTurn_line _ (by simp)) fun _ => ?_
      split
      · rename_i line hline
        exact .bind (passesTurn_line _ (head?_display hline)) fun _ => passesTurn_runUnchecked _ _
      · exact passesTurn_pure ()
    · exact passesTurn_fail _

theorem passesTurn_lint : (lint settings).PassesTurn := by
  refine .bind (passesTurn_line _ (by decide)) fun _ => .bind (passesTurn_ensureTool _) fun _ => ?_
  refine .bind (passesTurn_runUnchecked _ _) fun _ => ?_
  refine .bind passesTurn_workspace fun place => .bind passesTurn_world fun world => ?_
  dsimp only
  split
  · exact passesTurn_pure ()
  · exact passesTurn_runUnchecked _ _

theorem passesTurn_perform (command : Command) : (perform settings command).PassesTurn := by
  cases command with
  | build tests docs => exact passesTurn_build settings tests docs
  | config => exact passesTurn_configure settings
  | test run =>
    refine .bind (passesTurn_build settings true false) fun _ => ?_
    split
    · exact .bind (passesTurn_banner _) fun _ => passesTurn_runUnchecked _ _
    · exact passesTurn_pure ()
  | clean forced kind => exact passesTurn_clean settings _
  | lint => exact passesTurn_lint settings
  | doc upload =>
    refine .bind (passesTurn_build settings false true) fun _ => ?_
    split
    · exact passesTurn_line _ (by decide)
    · exact passesTurn_pure ()
  | version => exact passesTurn_line _ (by decide)

/-- An offer takes the turn after the usage. -/
theorem passesTurn_suggest (word : String) : (suggest word).PassesTurn := by
  intro place world
  obtain ⟨outcome, after, hrun, hadvice⟩ := advice_suggest place world word
  rw [hrun]
  cases hadvice with
  | shut => exact ⟨[], by simp, .nil⟩
  | helpless => exact ⟨[emptyLine], rfl, inTurn_line "" (by simp)⟩
  | @unheard info failure _ _ hanswer =>
    refine ⟨_, world.offered_events info, ?_⟩
    rw [List.flatMap_singleton]
    exact inTurn_suggestion world.palette info.name
  | @heard info text _ _ hanswer =>
    have hevents := world.replied_events info
    rw [world.offered_events, List.append_assoc] at hevents
    refine ⟨_, hevents, ?_⟩
    exact (inTurn_suggestion world.palette info.name).append (inTurn_line "" (by simp))

theorem passesTurn_resolve (invocation : Invocation) : (resolve invocation).PassesTurn := by
  refine .bind (passesTurn_ofExcept _) fun _ => .bind (passesTurn_ofExcept _) fun found => ?_
  cases found with
  | some command => exact passesTurn_pure _
  | none =>
    refine .bind passesTurn_showUsage fun _ => .bind (passesTurn_line _ (by decide)) fun _ => ?_
    refine .bind (passesTurn_suggest _) fun name => ?_
    cases name with
    | some name => exact passesTurn_ofExcept _
    | none => exact passesTurn_pure none

theorem passesTurn_settingsFor (command : Command) : (settingsFor command).PassesTurn := by
  rw [settingsFor]
  split
  · refine .bind passesTurn_workspace fun place => .bind passesTurn_world fun world => ?_
    split
    · exact passesTurn_pure _
    · exact passesTurn_fail _
  · exact passesTurn_pure _

/-- The command that is done at last goes on with the colours where the resolution stopped. -/
theorem passesTurn_obey (tokens : List String) : (obey tokens).PassesTurn := by
  rw [obey]
  split
  · exact .bind passesTurn_showUsage fun _ => passesTurn_pure _
  · refine .bind (passesTurn_resolve _) fun found => ?_
    cases found with
    | none => exact passesTurn_pure _
    | some command =>
      refine .bind (passesTurn_settingsFor command) fun settings => ?_
      exact .bind (passesTurn_perform settings command) fun _ => passesTurn_pure _

/-- What an event of the program itself shows on the output is its spans. -/
theorem Event.out_eq_render {view : View} (hquestions : view.showQuestions = true) {event : Event}
    (h : event.isRun = false) : event.out view = StyledText.render view.showStyles event.spans := by
  cases event with
  | wrote channel text => cases channel <;> rfl
  | asked question answer => rw [Event.out, if_pos hquestions, Event.spans]
  | assigned key value => rfl
  | ran => cases h

/-- In a fresh palette the colours follow their rotation, as long as the turns can be counted. -/
theorem color_after_fresh {i : Nat} (h : i < UInt64.size) :
    Palette.rotation[i % 5]? = some (Palette.fresh.after i).color := by
  have hindex : (Palette.fresh.after i).index.toNat = i := by
    rw [Palette.index_after_fresh, Nat.mod_eq_of_lt h]
  have hlength : i % 5 < Palette.rotation.length := Nat.mod_lt i (by decide)
  rw [Palette.color, hindex, List.getD_eq_getElem?_getD, List.getElem?_eq_getElem hlength]
  rfl

/-- In a whole run the items on the output have the colours of the rotation in turn, from its first
colour on, and no other span has one. Items are the names of commands in the usage and all that
stands behind a pointer: the offer of a command, and what a command announces. Apart from the texts
of tools all that is shown on the output is made of these spans. -/
theorem items_take_turns (place : Workspace) (files : Files.Node) (input : List UInt8)
    (styled : Bool) {words tokens : List String} {options : Options}
    (hwords : Options.parse words = .ok (options, tokens)) :
    ∃ run, Program.run place files input styled words = .ok run ∧
      let spans := run.world.events.flatMap Event.spans
      (∀ event ∈ run.world.events, event.isRun = false →
        event.out run.view = StyledText.render run.view.showStyles event.spans) ∧
      (∀ span ∈ spans, span.isItem = true ↔ ∃ color, span.style = some ⟨color, false⟩) ∧
      ∀ i item, (spans.filter Span.isItem)[i]? = some item → i < UInt64.size →
        ∃ color, Palette.rotation[i % 5]? = some color ∧ item.style = some ⟨color, false⟩ := by
  let world : World := { files := files, answers := .stream input }
  obtain ⟨new, hnew, hturn⟩ := passesTurn_obey tokens place world
  rw [show world.events = [] from rfl, List.nil_append] at hnew
  -- a report goes to the output for errors, so it adds no span
  have hspans : (Program.carryOut place world tokens).2.events.flatMap Event.spans =
      new.flatMap Event.spans := by
    rw [carryOut_snd]
    split
    · rw [World.wrote, hnew, List.flatMap_append]
      exact List.append_nil _
    · rw [hnew]
  refine ⟨_, run_eq place files input styled hwords, fun event _ => Event.out_eq_render rfl,
    fun span hmem => ?_, fun i item hitem hi => ?_⟩
  · rw [hspans] at hmem
    exact hturn.isItem_iff hmem
  · rw [hspans] at hitem
    exact ⟨_, color_after_fresh hi, hturn.style_eq hitem⟩

/-- After the usage and an accepted offer the first step of a build is announced in the ninth
colour. -/
theorem items_take_turns_biuld :
    let place : Workspace := ⟨Rehearsal.project, Rehearsal.host⟩
    Options.parse ["biuld"] = .ok ({}, ["biuld"]) ∧ 8 < UInt64.size ∧
      ∃ run, Program.run place (Rehearsal.files none) [121, 10] true ["biuld"] = .ok run ∧
        ((run.world.events.flatMap Event.spans).filter Span.isItem)[8]? =
          some (.colored .magenta " > Trying to configure project ...") := by
  intro place
  have hwords : Options.parse ["biuld"] = .ok ({}, ["biuld"]) := rfl
  obtain ⟨run, hrun, -, -, hturns⟩ :=
    items_take_turns place (Rehearsal.files none) [121, 10] true hwords
  have htext : (Program.run place (Rehearsal.files none) [121, 10] true ["biuld"]).toOption.bind
      (fun run => (((run.world.events.flatMap Event.spans).filter Span.isItem)[8]?).map (·.text)) =
        some " > Trying to configure project ..." := by
    decide +kernel
  rw [hrun] at htext
  obtain ⟨item, hitem, htext⟩ := Option.map_eq_some_iff.mp htext
  obtain ⟨color, hcolor, hstyle⟩ := hturns 8 item hitem (by decide)
  have hmagenta : color = .magenta := (Option.some.inj hcolor).symm
  obtain ⟨style, text⟩ := item
  refine ⟨hwords, by decide, run, hrun, ?_⟩
  rw [hitem, Span.colored, ← hmagenta, ← hstyle, ← htext]

end Conductor
