import Conductor.Proofs.Building
import Conductor.Proofs.SideBySide
import Conductor.Tools.Scripted
import Conductor.Transcript
import Mathlib.Data.List.Forall2

/-!
# Answers that are not looked at

Only what the tools that configure a project answer is looked at. Of all other tools it does not
matter how they end, or whether they can be started, as long as they leave the same files. The main
result is `ignored_answers_do_not_matter`: two runs on hosts that differ in this alone are the same
but for those answers.
-/

namespace Conductor

inductive Event.SameButAnswer : Event → Event → Prop
  | same (event : Event) : SameButAnswer event event
  | ran (line : CommandLine) (output : Output) (environment : Environment)
      (response response' : Response) :
      SameButAnswer (.ran line output environment response)
        (.ran line output environment response')

def World.SameButAnswers (a b : World) : Prop :=
  ∃ events, b = { a with events := events } ∧ List.Forall₂ Event.SameButAnswer a.events events

/-- Two hosts that differ at most in what the tools answer that do not configure. They leave the
same files, and either both find the tool that may be installed or none does. -/
structure Host.DiffersInIgnored (host host' : Host) : Prop where
  accepts_eq : host.accepts = host'.accepts
  finds_eq : host.finds "cmake-format" = host'.finds "cmake-format"
  files_eq : ∀ line environment files,
    (host.run line environment files).2 = (host'.run line environment files).2
  answer_eq : ∀ line environment files, line.program = "conan" ∨ line.program = "cmake" →
    (host.run line environment files).1 = (host'.run line environment files).1

section

variable {a b : World}

theorem World.SameButAnswers.wrote (h : World.SameButAnswers a b) (channel : Channel)
    (text : StyledText) : World.SameButAnswers (a.wrote channel text) (b.wrote channel text) := by
  obtain ⟨events, rfl, hevents⟩ := h
  exact ⟨_, rfl, List.rel_append hevents (.cons (.same _) .nil)⟩

theorem World.SameButAnswers.asked (h : World.SameButAnswers a b) (question : StyledText) :
    World.SameButAnswers (a.asked question) (b.asked question) := by
  obtain ⟨events, rfl, hevents⟩ := h
  exact ⟨_, rfl, List.rel_append hevents (.cons (.same _) .nil)⟩

theorem World.SameButAnswers.assigned (h : World.SameButAnswers a b) (key : Variable)
    (value : String) : World.SameButAnswers (a.assigned key value) (b.assigned key value) := by
  obtain ⟨events, rfl, hevents⟩ := h
  exact ⟨_, rfl, List.rel_append hevents (.cons (.same _) .nil)⟩

theorem World.SameButAnswers.proposed (h : World.SameButAnswers a b) (key : Variable)
    (value : String) : World.SameButAnswers (a.proposed key value) (b.proposed key value) := by
  obtain ⟨events, rfl, hevents⟩ := h
  exact ⟨_, rfl, List.rel_append hevents (.cons (.same _) .nil)⟩

theorem World.SameButAnswers.announced (h : World.SameButAnswers a b) (message : String) :
    World.SameButAnswers (a.announced message) (b.announced message) := by
  obtain ⟨events, rfl, hevents⟩ := h
  exact ⟨_, rfl, List.rel_append hevents (.cons (.same _) .nil)⟩

/-- A tool may be run on either host: what it answers is the only difference. -/
theorem World.SameButAnswers.launched {host host' : Host} (hhost : host.DiffersInIgnored host')
    (h : World.SameButAnswers a b) (line : CommandLine) (output : Output) :
    World.SameButAnswers (a.launched host line output) (b.launched host' line output) := by
  obtain ⟨events, rfl, hevents⟩ := h
  refine ⟨events ++ [.ran line output a.environment (a.response host' line)], ?_,
    List.rel_append hevents (.cons (.ran _ _ _ _ _) .nil)⟩
  rw [World.launched, World.launched, hhost.files_eq]
  rfl

theorem World.SameButAnswers.files_eq (h : World.SameButAnswers a b) : a.files = b.files := by
  obtain ⟨events, rfl, -⟩ := h
  rfl

theorem World.SameButAnswers.withFiles (h : World.SameButAnswers a b) (files : Files.Node) :
    World.SameButAnswers { a with files := files } { b with files := files } := by
  obtain ⟨events, rfl, hevents⟩ := h
  exact ⟨events, rfl, hevents⟩

end

open Act

abbrev Act.GoesAlike {α : Type} (host host' : Host) (project : String) (act : Act α) : Prop :=
  GoAlike World.SameButAnswers ⟨project, host⟩ ⟨project, host'⟩ act act

section

variable {host host' : Host} {project : String}

theorem goesAlike_write (channel : Channel) (text : StyledText) :
    (write channel text).GoesAlike host host' project :=
  fun _ _ h => ⟨rfl, h.wrote channel text⟩

theorem goesAlike_line (text : String) : (line text).GoesAlike host host' project :=
  goesAlike_write _ _

theorem goesAlike_banner (message : String) : (banner message).GoesAlike host host' project :=
  fun _ _ h => ⟨rfl, h.announced message⟩

theorem goesAlike_ask (question : StyledText) : (ask question).GoesAlike host host' project := by
  intro a b h
  obtain ⟨events, rfl, -⟩ := id h
  rw [run_ask, run_ask]
  exact ⟨rfl, h.asked question⟩

variable (hhost : host.DiffersInIgnored host')

include hhost

theorem goesAlike_assign (key : Variable) (value : String) :
    (assign key value).GoesAlike host host' project := by
  intro a b h
  rw [run_assign, run_assign, hhost.accepts_eq]
  dsimp only
  split
  · exact ⟨rfl, h.assigned key value⟩
  · exact ⟨rfl, h.proposed key value⟩

/-- A run whose end is not looked at. -/
theorem goesAlike_runUnchecked (line : CommandLine) (output : Output) :
    (runUnchecked line output).GoesAlike host host' project := by
  intro a b h
  rw [run_runUnchecked, run_runUnchecked]
  exact ⟨rfl, h.launched hhost line output⟩

/-- A run whose end is looked at, which therefore has to be the same on both hosts. -/
theorem goesAlike_runChecked {line : CommandLine}
    (hline : line.program = "conan" ∨ line.program = "cmake") :
    (runChecked line).GoesAlike host host' project := by
  intro a b h
  have hanswer : a.response host line = b.response host' line := by
    obtain ⟨events, rfl, -⟩ := h
    exact hhost.answer_eq _ _ _ hline
  rw [run_runChecked, run_runChecked, hanswer]
  exact ⟨rfl, h.launched hhost line .inherit⟩

theorem goesAlike_runOptional (line : CommandLine) (message : String) (asksFirst : Bool) :
    (runOptional line message asksFirst).GoesAlike host host' project := by
  have hrun : (runUnchecked line .inherit >>= fun _ => pure true).GoesAlike host host' project :=
    .bind (goesAlike_runUnchecked hhost line .inherit) fun _ => goAlike_pure true
  rw [runOptional]
  split
  · refine .bind (goesAlike_ask _) fun answer => ?_
    split
    · exact hrun
    · exact goAlike_pure false
  · exact hrun

variable (settings : Settings)

omit hhost in
theorem goesAlike_prepareBuildDir : (prepareBuildDir settings).GoesAlike host host' project := by
  refine .workspace_bind (.world_bind fun a b h => ?_)
  dsimp only
  rw [h.files_eq]
  split
  · rename_i files _
    exact .bind (fun _ _ h => ⟨rfl, h.withFiles files⟩) fun _ => goesAlike_line _
  · exact goesAlike_banner _
  · exact goAlike_fail _

theorem goesAlike_configureWith (toolchain : Toolchain) :
    (configureWith settings toolchain).GoesAlike host host' project := by
  have hsteps : (configureSteps settings toolchain).GoesAlike host host' project :=
    .bind (goesAlike_runChecked hhost (.inl rfl)) fun _ => goesAlike_runChecked hhost (.inr rfl)
  refine .bind (goesAlike_assign hhost _ _) fun _ => .bind (goesAlike_assign hhost _ _) fun _ => ?_
  refine .bind (goesAlike_banner _) fun _ => .bind hsteps.attempt fun result => ?_
  cases result with
  | ok value => exact .bind (goesAlike_banner _) fun _ => goAlike_pure true
  | error failure =>
    refine .bind (goesAlike_write _ _) fun _ => ?_
    exact .bind (goesAlike_banner _) fun _ => goAlike_pure false

theorem goesAlike_configureAny (toolchains : List Toolchain) :
    (configureAny settings toolchains).GoesAlike host host' project := by
  induction toolchains with
  | nil => exact goAlike_pure false
  | cons toolchain rest ih =>
    refine .bind (goesAlike_configureWith hhost settings toolchain) fun found => ?_
    split
    · exact goAlike_pure true
    · exact ih

theorem goesAlike_configure : (configure settings).GoesAlike host host' project := by
  refine .bind (goesAlike_prepareBuildDir settings) fun _ => ?_
  refine .bind (goesAlike_configureAny hhost settings _) fun found => ?_
  split
  · exact goAlike_pure ()
  · exact goAlike_fail _

theorem goesAlike_assemble (tests docs : Bool) :
    (assemble settings tests docs).GoesAlike host host' project := by
  have hrest (message : String) : (do
      banner message
      runUnchecked (.ninja settings.dir settings.jobs) .inherit
      if docs then fail (.ofCause (.unsupported "Building doc")) : Act Unit).GoesAlike host host'
        project := by
    refine .bind (goesAlike_banner _) fun _ => .bind (goesAlike_runUnchecked hhost _ _) fun _ => ?_
    split
    · exact goAlike_fail _
    · exact goAlike_pure ()
  rw [assemble]
  split
  · exact .bind (goesAlike_assign hhost _ _) fun _ => hrest _
  · exact hrest _

theorem goesAlike_afterwards (command : Command) :
    (afterwards settings command).GoesAlike host host' project := by
  cases command with
  | build tests docs => exact goesAlike_assemble hhost settings tests docs
  | test run =>
    refine .bind (goesAlike_assemble hhost settings true false) fun _ => ?_
    split
    · exact .bind (goesAlike_banner _) fun _ => goesAlike_runUnchecked hhost _ _
    · exact goAlike_pure ()
  | doc upload =>
    refine .bind (goesAlike_assemble hhost settings false true) fun _ => ?_
    split
    · exact goesAlike_line _
    · exact goAlike_pure ()
  | _ => exact goAlike_pure ()

/-- A clean looks at the files after the removal, and these are the same on both hosts. -/
theorem goesAlike_clean (asksFirst : Bool) :
    (clean settings asksFirst).GoesAlike host host' project := by
  refine .workspace_bind (.world_bind fun a b h => ?_)
  dsimp only
  rw [h.files_eq]
  refine .bind (goesAlike_runOptional hhost _ _ _) fun removed => .world_bind fun a b h => ?_
  have hrest : (do
      let _ ← runOptional (.removeFile settings.logFile) "Removing build logs" asksFirst
      banner "Clean without scratching" : Act Unit).GoesAlike host host' project :=
    .bind (goesAlike_runOptional hhost _ _ _) fun _ => goesAlike_banner _
  rw [h.files_eq]
  split
  · exact .bind (goesAlike_write _ _) fun _ => hrest
  · exact hrest

theorem goesAlike_ensureTool : (ensureTool "cmake-format").GoesAlike host host' project := by
  refine .workspace_bind ?_
  dsimp only
  rw [hhost.finds_eq]
  split
  · exact goAlike_pure ()
  · refine .bind (goesAlike_write _ _) fun _ => .bind (goesAlike_ask _) fun answer => ?_
    split
    · refine .bind (goesAlike_ask _) fun answer => .bind (goesAlike_line _) fun _ => ?_
      split
      · exact .bind (goesAlike_line _) fun _ => goesAlike_runUnchecked hhost _ _
      · exact goAlike_pure ()
    · exact goAlike_fail _

theorem goesAlike_lint : (lint settings).GoesAlike host host' project := by
  refine .bind (goesAlike_line _) fun _ => .bind (goesAlike_ensureTool hhost) fun _ => ?_
  refine .bind (goesAlike_runUnchecked hhost _ _) fun _ => .workspace_bind ?_
  refine .world_bind fun a b h => ?_
  dsimp only
  rw [h.files_eq]
  split
  · exact goAlike_pure ()
  · exact goesAlike_runUnchecked hhost _ _

theorem goesAlike_perform (command : Command) :
    (perform settings command).GoesAlike host host' project := by
  by_cases hconfigures : command.configures = true
  · rw [perform_eq_of_configures settings hconfigures]
    exact .bind (goesAlike_configure hhost settings) fun _ =>
      goesAlike_afterwards hhost settings command
  · cases command with
    | clean forced kind => exact goesAlike_clean hhost settings _
    | lint => exact goesAlike_lint hhost settings
    | version => exact goesAlike_line versionText
    | build => exact absurd rfl hconfigures
    | config => exact absurd rfl hconfigures
    | test => exact absurd rfl hconfigures
    | doc => exact absurd rfl hconfigures

end

/-- The events that are no runs of tools: what was written, what was asked and what was set. -/
def ownEvents (events : List Event) : List Event :=
  events.filter fun event => !event.isRun

theorem ownEvents_eq_of_sameButAnswer {events events' : List Event}
    (h : List.Forall₂ Event.SameButAnswer events events') :
    ownEvents events = ownEvents events' := by
  induction h with
  | nil => rfl
  | cons hevent _ ih =>
    cases hevent with
    | same event =>
      rw [ownEvents, ownEvents] at ih ⊢
      rw [List.filter_cons, List.filter_cons, ih]
    | ran => exact ih

/-- What a command does is the same on two hosts that differ only in what tools answer that do not
configure: it ends alike, the same tools are run in the same way, the same is asked and set, the
program itself writes the same texts, and the same files are left. -/
theorem ignored_answers_do_not_matter {host host' : Host} (hhost : host.DiffersInIgnored host')
    (project : String) (settings : Settings) (command : Command) (world : World) :
    let run := (perform settings command).run ⟨project, host⟩ world
    let run' := (perform settings command).run ⟨project, host'⟩ world
    run.1 = run'.1 ∧ run.2.files = run'.2.files ∧ run.2.environment = run'.2.environment ∧
      run.2.answers = run'.2.answers ∧ run.2.palette = run'.2.palette ∧
      run.2.gate = run'.2.gate ∧
      List.Forall₂ Event.SameButAnswer run.2.events run'.2.events ∧
      ∀ view,
        Transcript.out view (ownEvents run.2.events) =
          Transcript.out view (ownEvents run'.2.events) ∧
        Transcript.err view (ownEvents run.2.events) =
          Transcript.err view (ownEvents run'.2.events) := by
  intro run run'
  have hrefl : List.Forall₂ Event.SameButAnswer world.events world.events :=
    List.forall₂_same.mpr fun event _ => .same event
  have halike : (perform settings command).GoesAlike host host' project :=
    goesAlike_perform hhost settings command
  obtain ⟨houtcome, events, hworld, hevents⟩ := halike world world ⟨_, rfl, hrefl⟩
  have hown : ownEvents run.2.events = ownEvents run'.2.events := by
    rw [show run'.2 = { run.2 with events := events } from hworld]
    exact ownEvents_eq_of_sameButAnswer hevents
  refine ⟨houtcome, ?_⟩
  rw [hown, show run'.2 = { run.2 with events := events } from hworld]
  exact ⟨rfl, rfl, rfl, rfl, rfl, hevents, fun view => ⟨rfl, rfl⟩⟩

namespace Scripted

/-- Two tables give rise to such hosts if the same programs remove files and the tools that
configure follow the same rules. -/
theorem differsInIgnored {table table' : Table} (project : String)
    (hfinds : finds table "cmake-format" = finds table' "cmake-format")
    (hchecked : ∀ program, program = "conan" ∨ program = "cmake" →
      List.lookup program table = List.lookup program table')
    (hremover : ∀ program, List.lookup program table = some .remover ↔
      List.lookup program table' = some .remover) :
    (host table project).DiffersInIgnored (host table' project) where
  accepts_eq := rfl
  finds_eq := hfinds
  files_eq line environment files := by
    have hkeeps (table : Table) (h : List.lookup line.program table ≠ some .remover) :
        (runTool Files.removeIn table project line environment files).2 = files := by
      rw [runTool]
      split <;> first | rfl | exact absurd ‹_› h
    by_cases h : List.lookup line.program table = some .remover
    · simp only [host, runTool, h, (hremover _).mp h]
    · exact (hkeeps table h).trans (hkeeps table' (mt (hremover _).mpr h)).symm
  answer_eq line environment files h := by
    simp only [host, runTool, hchecked _ h]

def willing : Table :=
  [("conan", .rules []), ("cmake", .rules []), ("ninja", .rules []), ("ctest", .rules []),
    ("rm", .remover)]

/-- Tools like these, but the builder cannot be started and the test runner is killed. -/
def unwilling : Table :=
  [("conan", .rules []), ("cmake", .rules []), ("ninja", .notExecutable),
    ("ctest", .rules [⟨none, none, ""⟩]), ("rm", .remover)]

end Scripted

/-- Whether the tests can be built and run does not show in how running them ends. -/
theorem ignored_answers_do_not_matter_unwilling :
    let host := Scripted.host Scripted.willing "/p"
    let host' := Scripted.host Scripted.unwilling "/p"
    let run (host : Host) (world : World) := (perform {} (.test true)).run ⟨"/p", host⟩ world
    let world : World := { files := .directory [("p", .directory [])], answers := .queue [] }
    host.DiffersInIgnored host' ∧ (run host world).1 = (run host' world).1 ∧
      (run host world).2.files = (run host' world).2.files ∧
      List.Forall₂ Event.SameButAnswer (run host world).2.events (run host' world).2.events := by
  intro host host' run world
  have hhost : host.DiffersInIgnored host' := by
    refine Scripted.differsInIgnored "/p" rfl (by rintro program (rfl | rfl) <;> rfl) ?_
    intro program
    by_cases hrm : program = "rm"
    · subst hrm
      exact ⟨fun _ => rfl, fun _ => rfl⟩
    · simp only [Scripted.willing, Scripted.unwilling, List.lookup_cons, beq_false_of_ne hrm]
      cases program == "conan" <;> cases program == "cmake" <;> cases program == "ninja" <;>
        cases program == "ctest" <;> simp
  obtain ⟨houtcome, hfiles, -, -, -, -, hevents, -⟩ :=
    ignored_answers_do_not_matter hhost "/p" {} (.test true) world
  dsimp only [run]
  exact ⟨hhost, houtcome, hfiles, hevents⟩

end Conductor
