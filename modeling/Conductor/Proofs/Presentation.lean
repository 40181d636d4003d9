import Conductor.Main
import Conductor.Proofs.InFront
import Conductor.Proofs.Obeying
import Mathlib.Data.List.Nodup

/-!
# What the options of presentation change

Two options concern only what is shown: one leaves styles out, the other tells of the tools and of
their variables. What a run shows is cut into pieces that do not depend on either, and the options
only decide how the pieces are shown and which. The main result is
`presentation_options_only_change_what_is_shown`.
-/

namespace Conductor

/-- The options that concern only what is shown. -/
def presentationFlags : List String := ["--verbose", "--no-color"]

def Options.withFlags (options : Options) (flags : List String) : Options :=
  ⟨options.verbose || decide ("--verbose" ∈ flags),
    options.noColor || decide ("--no-color" ∈ flags)⟩

def Options.areNew (options : Options) (flags : List String) : Prop :=
  ("--verbose" ∈ flags → options.verbose = false) ∧ ("--no-color" ∈ flags → options.noColor = false)

/-- The flags in front of the words are set, each of them once. The induction is on the flags, for
all options that leave room for them. -/
theorem parseFrom_flags {flags tail : List String}
    (htail : ∀ word ∈ tail.head?, word.toList.head? ≠ some '-') (hsub : flags ⊆ presentationFlags)
    (hnodup : flags.Nodup) (options : Options) (hnew : options.areNew flags) :
    options.parseFrom (flags ++ tail) = .ok (options.withFlags flags, tail) := by
  induction flags generalizing options with
  | nil => simp [Options.parseFrom_of_tail htail, Options.withFlags]
  | cons flag flags ih =>
    obtain ⟨hflag, hnodup⟩ := List.nodup_cons.mp hnodup
    obtain ⟨hverbose, hcolor⟩ := hnew
    have hrest := ih (List.subset_of_cons_subset hsub) hnodup
    have hmem : flag = "--verbose" ∨ flag = "--no-color" := by
      simpa [presentationFlags] using hsub (List.mem_cons_self ..)
    rcases hmem with rfl | rfl
    · have hset : options.set .verbose = .ok { options with verbose := true } := by
        simp [Options.set, hverbose]
      have hnext : ({ options with verbose := true } : Options).areNew flags :=
        ⟨fun hmem => absurd hmem hflag, fun hmem => hcolor (List.mem_cons_of_mem _ hmem)⟩
      rw [List.cons_append, Options.parseFrom_cons_of_switch (by decide) hset, hrest _ hnext]
      simp [Options.withFlags]
    · have hset : options.set .noColor = .ok { options with noColor := true } := by
        simp [Options.set, hcolor]
      have hnext : ({ options with noColor := true } : Options).areNew flags :=
        ⟨fun hmem => hverbose (List.mem_cons_of_mem _ hmem), fun hmem => absurd hmem hflag⟩
      rw [List.cons_append, Options.parseFrom_cons_of_switch (by decide) hset, hrest _ hnext]
      simp [Options.withFlags]

/-- The options of a command line that begins with flags of presentation. -/
theorem parse_flags {flags tail : List String}
    (htail : ∀ word ∈ tail.head?, word.toList.head? ≠ some '-')
    (hsub : flags ⊆ presentationFlags) (hnodup : flags.Nodup) :
    Options.parse (flags ++ tail) =
      .ok (⟨decide ("--verbose" ∈ flags), decide ("--no-color" ∈ flags)⟩, tail) := by
  rw [Options.parse, parseFrom_flags htail hsub hnodup {} ⟨fun _ => rfl, fun _ => rfl⟩]
  simp [Options.withFlags]

structure Notice where
  text : StyledText
  /-- Whether it tells of a tool or of a variable, and not of the program. -/
  ofRunner : Bool

/-- A piece that tells of a tool or of a variable, under a label. -/
def Notice.runner (label rest : String) : Notice := ⟨[.plain (label ++ rest)], true⟩

def runnerLabels : List String := ["Setting ", "Running: ", "Finished: ", "Failed: "]

def Response.notice (line : CommandLine) : Response → Notice
  | .ended code _ =>
    .runner "Finished: " (line.program ++ " (exit code " ++ codeText code ++ ", " ++ durationMark ++
      ")\n")
  | .refused error =>
    .runner "Failed: " ("Failed to execute " ++ line.program ++ ": " ++ error.message ++ "\n")

namespace Event

/-- The pieces of text that an event shows on the output, if questions are shown there. -/
def shown : Event → List StyledText
  | .wrote .out text => [text]
  | .asked question _ => [question]
  | .ran _ .inherit _ (.ended _ printed) => [[.plain printed]]
  | _ => []

/-- All pieces of text that an event can show on the output for errors. -/
def told : Event → List Notice
  | .wrote .err text => [⟨text, false⟩]
  | .assigned key value => [.runner "Setting " (key.name ++ "=" ++ value ++ "\n")]
  | .ran line _ _ response => [.runner "Running: " (line.display ++ "\n"), response.notice line]
  | _ => []

end Event

theorem render_plain (showStyles : Bool) (text : String) :
    StyledText.render showStyles [.plain text] = text := by
  simp [StyledText.render, Span.render, Span.plain, String.join_cons]

/-- The pieces that are shown if tools and variables are told of or not. -/
def noticesFor (verbose : Bool) (notices : List Notice) : List Notice :=
  notices.filter fun notice => verbose || !notice.ofRunner

def renderAll (showStyles : Bool) (texts : List StyledText) : String :=
  String.join (texts.map (StyledText.render showStyles))

theorem renderAll_append (showStyles : Bool) (a b : List StyledText) :
    renderAll showStyles (a ++ b) = renderAll showStyles a ++ renderAll showStyles b := by
  rw [renderAll, List.map_append, String.join_append]
  rfl

/-- The pieces that tell of tools and variables stand under one of the labels. -/
theorem exists_label_of_told {event : Event} {notice : Notice} (h : notice ∈ event.told)
    (hrunner : notice.ofRunner = true) :
    ∃ label ∈ runnerLabels, ∃ rest, notice = .runner label rest := by
  cases event with
  | wrote channel text =>
    cases channel with
    | out => cases h
    | err =>
      obtain rfl := List.mem_singleton.mp h
      cases hrunner
  | asked question answer => cases h
  | assigned key value =>
    obtain rfl := List.mem_singleton.mp h
    exact ⟨"Setting ", by decide, _, rfl⟩
  | ran line output environment response =>
    rcases List.mem_pair.mp h with rfl | rfl
    · exact ⟨"Running: ", by decide, _, rfl⟩
    · cases response with
      | ended code printed => exact ⟨"Finished: ", by decide, _, rfl⟩
      | refused error => exact ⟨"Failed: ", by decide, _, rfl⟩

variable {view : View}

theorem Event.out_eq (hquestions : view.showQuestions = true) (event : Event) :
    event.out view = renderAll view.showStyles event.shown := by
  unfold Event.out Event.shown
  split <;> simp [renderAll, String.join_cons, hquestions, render_plain]

/-- What is told of a run is told in two pieces. -/
theorem runReport_eq (line : CommandLine) (response : Response) (showStyles : Bool) :
    Event.runReport line response =
      renderAll showStyles [[.plain ("Running: " ++ (line.display ++ "\n"))],
        (response.notice line).text] := by
  have hended : "\nFinished: " = "\n" ++ "Finished: " := by decide
  have hrefused : "\nFailed: Failed to execute " = "\n" ++ "Failed: " ++ "Failed to execute " := by
    decide
  have hpair (first second : StyledText) : renderAll showStyles [first, second] =
      first.render showStyles ++ second.render showStyles := by
    simp [renderAll, String.join_cons]
  cases response with
  | ended code printed =>
    show "Running: " ++ line.display ++ "\nFinished: " ++ line.program ++ " (exit code " ++
      codeText code ++ ", " ++ durationMark ++ ")\n" = _
    simp only [hpair, Response.notice, Notice.runner, render_plain, hended, String.append_assoc]
  | refused error =>
    show "Running: " ++ line.display ++ "\nFailed: Failed to execute " ++ line.program ++ ": " ++
      error.message ++ "\n" = _
    simp only [hpair, Response.notice, Notice.runner, render_plain, hrefused, String.append_assoc]

theorem Event.err_eq (event : Event) :
    event.err view =
      renderAll view.showStyles ((noticesFor view.verbose event.told).map Notice.text) := by
  obtain ⟨showStyles, verbose, showQuestions⟩ := view
  cases event with
  | wrote channel text =>
    cases channel <;> simp [Event.err, Event.told, noticesFor, renderAll, String.join_cons]
  | asked question answer => rfl
  | assigned key value =>
    cases verbose <;> simp [Event.err, Event.told, noticesFor, renderAll, Notice.runner,
      render_plain, String.join_cons, String.append_assoc]
  | ran line output environment response =>
    cases verbose with
    | false => cases response <;> rfl
    | true =>
      rw [Event.err, if_pos rfl, runReport_eq line response showStyles]
      rfl

theorem transcript_out_eq (hquestions : view.showQuestions = true) (events : List Event) :
    Transcript.out view events = renderAll view.showStyles (events.flatMap Event.shown) := by
  induction events with
  | nil => rfl
  | cons event events ih =>
    rw [List.flatMap_cons, renderAll_append, ← ih, ← Event.out_eq hquestions, Transcript.out,
      List.map_cons, String.join_cons]
    rfl

theorem transcript_err_eq (events : List Event) :
    Transcript.err view events =
      renderAll view.showStyles
        ((noticesFor view.verbose (events.flatMap Event.told)).map Notice.text) := by
  induction events with
  | nil => rfl
  | cons event events ih =>
    rw [List.flatMap_cons, noticesFor, List.filter_append, List.map_append, renderAll_append]
    rw [noticesFor] at ih
    rw [← ih, Transcript.err, List.map_cons, String.join_cons, Event.err_eq]
    rfl

/-- Flags of presentation change neither how a run ends nor what it does to the world, and so
neither the tools that are run, with their arguments and variables, nor the files. On the output the
same pieces are shown, with styles or without. On the output for errors the pieces are shown that
tell of tools and variables, each under its label, or they are left out; the others are the same. -/
theorem presentation_options_only_change_what_is_shown (place : Workspace) (files : Files.Node)
    (input : List UInt8) (styled : Bool) (tail : List String)
    (htail : ∀ word ∈ tail.head?, word.toList.head? ≠ some '-') :
    ∃ (exit : Exit) (calls : List (CommandLine × Environment)) (tree : Files.Node)
        (shown : List StyledText) (notices : List Notice),
      (∀ notice ∈ notices, notice.ofRunner = true →
        ∃ label ∈ ["Setting ", "Running: ", "Finished: ", "Failed: "], ∃ rest,
          notice.text = [.plain (label ++ rest)]) ∧
      ∀ flags : List String, flags ⊆ ["--verbose", "--no-color"] → flags.Nodup →
        ∃ run, Program.run place files input styled (flags ++ tail) = .ok run ∧
          run.exit = exit ∧ Transcript.calls run.world.events = calls ∧ run.world.files = tree ∧
          let showStyles := styled && decide ("--no-color" ∉ flags)
          Transcript.out run.view run.world.events =
              String.join (shown.map (StyledText.render showStyles)) ∧
            Transcript.err run.view run.world.events =
              String.join ((notices.filter fun notice =>
                "--verbose" ∈ flags ∨ notice.ofRunner = false).map fun notice =>
                  notice.text.render showStyles) := by
  let ended := Program.carryOut place { files := files, answers := .stream input } tail
  refine ⟨ended.1, Transcript.calls ended.2.events, ended.2.files,
    ended.2.events.flatMap Event.shown, ended.2.events.flatMap Event.told,
    fun notice hmem hrunner => ?_, fun flags hsub hnodup => ?_⟩
  · obtain ⟨event, -, htold⟩ := List.mem_flatMap.mp hmem
    obtain ⟨label, hlabel, rest, rfl⟩ := exists_label_of_told htold hrunner
    exact ⟨label, hlabel, rest, rfl⟩
  · have hrun := run_eq place files input styled (parse_flags htail hsub hnodup)
    have hstyles : (styled && !decide ("--no-color" ∈ flags)) =
        (styled && decide ("--no-color" ∉ flags)) := by
      rw [decide_not]
    refine ⟨_, hrun, rfl, rfl, rfl, ?_, ?_⟩
    · rw [transcript_out_eq rfl, hstyles]
      rfl
    · rw [transcript_err_eq, hstyles, noticesFor, renderAll, List.map_map]
      simp [ended, Function.comp_def]

/-- A configuration that is rehearsed with both flags runs the same tools as one without. -/
theorem presentation_options_only_change_what_is_shown_config :
    let place : Workspace := ⟨Rehearsal.project, Rehearsal.host⟩
    (∀ word ∈ ["config"].head?, word.toList.head? ≠ some '-') ∧
      ∃ plain told, Program.run place (Rehearsal.files none) [] true ["config"] = .ok plain ∧
        Program.run place (Rehearsal.files none) [] true ["--no-color", "--verbose", "config"] =
          .ok told ∧
        plain.exit = told.exit ∧
        Transcript.calls plain.world.events = Transcript.calls told.world.events ∧
        plain.world.files = told.world.files := by
  intro place
  have htail : ∀ word ∈ ["config"].head?, word.toList.head? ≠ some '-' := by decide
  obtain ⟨exit, calls, tree, shown, notices, -, hruns⟩ :=
    presentation_options_only_change_what_is_shown place (Rehearsal.files none) [] true ["config"]
      htail
  obtain ⟨plain, hplain, hexit, hcalls, htree, -⟩ := hruns [] (by simp) (by simp)
  obtain ⟨told, htold, hexit', hcalls', htree', -⟩ :=
    hruns ["--no-color", "--verbose"] (by simp) (by simp)
  exact ⟨htail, plain, told, hplain, htold, hexit.trans hexit'.symm, hcalls.trans hcalls'.symm,
    htree.trans htree'.symm⟩

end Conductor
