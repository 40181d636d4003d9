import Conductor.Proofs.Obeying
import Conductor.Proofs.SideBySide

/-!
# What resolving does not look at

Resolving looks neither at the files nor at the tools, so two runs that differ only in these cannot
be told apart. The main result is `resolution_is_blind`.
-/

namespace Conductor

/-- Two worlds that differ at most in their files. -/
def World.Alike (a b : World) : Prop :=
  ∃ files, b = { a with files := files }

namespace Act

variable {α β : Type}

/-- In worlds that differ only in their files, and wherever it is done, the act does the same. -/
def IsBlind (act : Act α) : Prop :=
  ∀ place place' a b, World.Alike a b →
    (act.run place a).1 = (act.run place' b).1 ∧
      World.Alike (act.run place a).2 (act.run place' b).2

theorem isBlind_pure (value : α) : (pure value : Act α).IsBlind :=
  fun _ _ _ _ h => ⟨rfl, h⟩

theorem isBlind_fail (failure : Failure) : (fail failure : Act α).IsBlind :=
  fun _ _ _ _ h => ⟨rfl, h⟩

theorem isBlind_ofExcept (result : Except Cause α) : (ofExcept result).IsBlind := by
  cases result with
  | ok value => exact isBlind_pure value
  | error cause => exact isBlind_fail _

theorem IsBlind.bind {act : Act α} {next : α → Act β} (h : act.IsBlind)
    (hnext : ∀ value, (next value).IsBlind) : (act >>= next).IsBlind := by
  intro place place'
  have hfirst : GoAlike World.Alike place place' act act := h place place'
  exact hfirst.bind fun value => hnext value place place'

theorem isBlind_write (channel : Channel) (text : StyledText) : (write channel text).IsBlind := by
  rintro place place' a _ ⟨files, rfl⟩
  exact ⟨rfl, files, rfl⟩

theorem isBlind_line (text : String) : (line text).IsBlind := isBlind_write _ _

theorem isBlind_ask (question : StyledText) : (ask question).IsBlind := by
  rintro place place' a _ ⟨files, rfl⟩
  rw [run_ask, run_ask]
  exact ⟨rfl, files, rfl⟩

theorem isBlind_nextColor : nextColor.IsBlind := by
  rintro place place' a _ ⟨files, rfl⟩
  exact ⟨rfl, files, rfl⟩

theorem isBlind_showUsage : showUsage.IsBlind := by
  rintro place place' a _ ⟨files, rfl⟩
  rw [run_showUsage, run_showUsage]
  exact ⟨rfl, files, rfl⟩

theorem isBlind_takeGate : takeGate.IsBlind := by
  rintro place place' a _ ⟨files, rfl⟩
  exact ⟨rfl, files, rfl⟩

end Act

open Act

theorem isBlind_suggest (word : String) : (suggest word).IsBlind := by
  refine .bind isBlind_takeGate fun taken => ?_
  split
  · split
    · exact .bind (isBlind_line _) fun _ => isBlind_pure none
    · refine .bind isBlind_nextColor fun color => .bind (isBlind_ask _) fun answer => ?_
      exact .bind (isBlind_line _) fun _ => isBlind_pure _
  · exact isBlind_pure none

theorem isBlind_resolve (invocation : Invocation) : (resolve invocation).IsBlind := by
  refine .bind (isBlind_ofExcept _) fun _ => .bind (isBlind_ofExcept _) fun found => ?_
  cases found with
  | some command => exact isBlind_pure _
  | none =>
    refine .bind isBlind_showUsage fun _ => .bind (isBlind_line _) fun _ => ?_
    refine .bind (isBlind_suggest _) fun name => ?_
    cases name with
    | some name => exact isBlind_ofExcept _
    | none => exact isBlind_pure none

/-- The version is told without a look at the settings. -/
theorem isBlind_fulfil_version : (fulfil .version).IsBlind :=
  .bind (isBlind_pure _) fun _ => .bind (isBlind_line _) fun _ => isBlind_pure _

theorem takesOnly_fulfil_version : (fulfil .version).TakesOnly Deed.resolving :=
  .bind (takesOnly_pure _) fun _ =>
    .bind (takesOnly_line (by decide) _) fun _ => takesOnly_pure _

/-- The words lead to no command, or only to the version. -/
def isDetached (tokens : List String) (answer : Answer) : Prop :=
  tokens = [] ∨ isMisused tokens answer ∨
    (∃ invocation, Invocation.ofTokens tokens = some invocation ∧
      effectiveName invocation.command answer = none) ∨
    meaningOf tokens answer = some .version

theorem meaningOf_of_isDetached {tokens : List String} {answer : Answer}
    (h : isDetached tokens answer) :
    meaningOf tokens answer = none ∨ meaningOf tokens answer = some .version := by
  rcases h with rfl | hmisused | ⟨invocation, htokens, hname⟩ | hversion
  · exact .inl rfl
  · exact .inl (meaningOf_of_isMisused hmisused)
  · refine .inl ?_
    rw [meaningOf, htokens, Option.bind_some, Invocation.meaning_of_not_named hname]
  · exact .inr hversion

/-- Detached words are carried out without a look at files and tools. -/
theorem alike_obey_of_isDetached {tokens : List String} (place place' : Workspace) {a b : World}
    (hab : World.Alike a b) (hgate : a.gate = true)
    (hdetached : isDetached tokens a.answers.next.1) :
    ((obey tokens).run place a).1 = ((obey tokens).run place' b).1 ∧
      World.Alike ((obey tokens).run place a).2 ((obey tokens).run place' b).2 := by
  rcases run_obey_cases place a tokens hgate with hnone |
    ⟨invocation, outcome, after, htokens, hrun, hcases⟩
  · have hobey : obey tokens = Act.showUsage >>= fun _ => pure .usage := by
      rw [obey, hnone]
    rw [hobey]
    exact (isBlind_showUsage.bind fun _ => isBlind_pure Reply.usage) place place' a b hab
  · obtain ⟨houtcome, hafter⟩ := isBlind_resolve invocation place place' a b hab
    rcases hrun' : (resolve invocation).run place' b with ⟨outcome', after'⟩
    rw [hrun, hrun'] at houtcome hafter
    obtain rfl : outcome = outcome' := houtcome
    rcases hcases with ⟨-, rfl | ⟨failure, rfl⟩⟩ | ⟨command, hmeaning, rfl⟩
    · rw [run_obey_of_nothing _ _ htokens hrun, run_obey_of_nothing _ _ htokens hrun']
      exact ⟨rfl, hafter⟩
    · rw [run_obey_of_failed _ _ htokens hrun, run_obey_of_failed _ _ htokens hrun']
      exact ⟨rfl, hafter⟩
    · obtain rfl : command = .version := by
        rcases meaningOf_of_isDetached hdetached with h | h
        · rw [h] at hmeaning
          cases hmeaning
        · exact Option.some.inj (hmeaning.symm.trans h)
      rw [run_obey_of_meant _ _ htokens hrun, run_obey_of_meant _ _ htokens hrun']
      exact isBlind_fulfil_version place place' after after' hafter

/-- Detached words are only talked about, and of a version too no more is done than telling it. -/
theorem steps_obey_of_isDetached {tokens : List String} (place : Workspace) (world : World)
    (hgate : world.gate = true) (hdetached : isDetached tokens world.answers.next.1) :
    Steps place Deed.resolving world ((obey tokens).run place world).2 := by
  rcases meaningOf_of_isDetached hdetached with hnone | hversion
  · exact steps_obey_of_no_meaning place world hgate hnone
  · obtain ⟨after, hsteps, hrun⟩ := run_obey_of_meaning place world hgate hversion
    rw [hrun]
    exact hsteps.trans (takesOnly_fulfil_version place after)

theorem alike_carryOut {place place' : Workspace} {a b : World} {tokens : List String}
    (houtcome : ((obey tokens).run place a).1 = ((obey tokens).run place' b).1)
    (hafter : World.Alike ((obey tokens).run place a).2 ((obey tokens).run place' b).2) :
    (Program.carryOut place a tokens).1 = (Program.carryOut place' b tokens).1 ∧
      (Program.carryOut place a tokens).2.events = (Program.carryOut place' b tokens).2.events := by
  obtain ⟨files, hfiles⟩ := hafter
  rw [carryOut_fst, carryOut_fst, carryOut_snd, carryOut_snd, ← houtcome, hfiles]
  refine ⟨rfl, ?_⟩
  cases ((obey tokens).run place a).1 <;> rfl

/-- Steps of a resolution run no tool and set no variable. -/
theorem Steps.not_mem_events {place : Workspace} {world : World} {files : Files.Node}
    {input : List UInt8}
    (h : Steps place Deed.resolving { files := files, answers := .stream input } world) :
    (∀ line output seen response, .ran line output seen response ∉ world.events) ∧
      (∀ key value, .assigned key value ∉ world.events) := by
  obtain ⟨new, hnew, hall⟩ := h.events_eq
  rw [List.nil_append] at hnew
  rw [hnew]
  have hlaunch : Deed.launch ∉ Deed.resolving := by decide
  have hassign : Deed.assign ∉ Deed.resolving := by decide
  exact ⟨fun _ _ _ _ hmem => hlaunch (hall _ hmem).1, fun _ _ hmem => hassign (hall _ hmem).1⟩

theorem calls_eq_nil {events : List Event}
    (h : ∀ line output seen response, .ran line output seen response ∉ events) :
    Transcript.calls events = [] := by
  refine List.filterMap_eq_nil_iff.mpr fun event hmem => ?_
  cases event with
  | ran line output seen response => exact absurd hmem (h line output seen response)
  | _ => rfl

/-- Nothing outside the program is read or changed before a command is known and its settings are
loaded. Detached words lead to the same run for all trees, tools and places. With more than one word
after the command nothing is said on the output and no answer is taken. If the settings that a
command needs cannot be used, no tool is run, no variable is set and no file is changed. -/
theorem resolution_is_blind {words tokens : List String} {options : Options} (input : List UInt8)
    (styled : Bool) (hwords : Options.parse words = .ok (options, tokens)) :
    let answer := (Answers.stream input).next.1
    (isDetached tokens answer → ∀ place place' files files', ∃ run run',
      Program.run place files input styled words = .ok run ∧
      Program.run place' files' input styled words = .ok run' ∧
      run.exit = run'.exit ∧
      Transcript.out run.view run.world.events = Transcript.out run'.view run'.world.events ∧
      Transcript.err run.view run.world.events = Transcript.err run'.view run'.world.events ∧
      Transcript.calls run.world.events = [] ∧ Transcript.calls run'.world.events = [] ∧
      run.world.files = files ∧ run'.world.files = files') ∧
    (∀ invocation, Invocation.ofTokens tokens = some invocation →
      1 < invocation.arguments.length → ∀ place files, ∃ run,
        Program.run place files input styled words = .ok run ∧
        Transcript.out run.view run.world.events = "" ∧ run.world.answers = .stream input) ∧
    (∀ command, meaningOf tokens answer = some command → command ≠ .version →
      ∀ place files failure, Settings.load files place.project = .error failure → ∃ run,
        Program.run place files input styled words = .ok run ∧
        (∀ line output seen response, .ran line output seen response ∉ run.world.events) ∧
        (∀ key value, .assigned key value ∉ run.world.events) ∧ run.world.files = files) := by
  intro answer
  refine ⟨fun hdetached place place' files files' => ?_,
    fun invocation htokens hsurplus place files => ?_,
    fun command hmeaning hversion place files failure hload => ?_⟩
  · refine ⟨_, _, run_eq place files input styled hwords, run_eq place' files' input styled hwords,
      ?_⟩
    let a : World := { files := files, answers := .stream input }
    let b : World := { files := files', answers := .stream input }
    have hab : World.Alike a b := ⟨files', rfl⟩
    obtain ⟨houtcome, hafter⟩ := alike_obey_of_isDetached place place' hab rfl hdetached
    obtain ⟨hexit, hevents⟩ := alike_carryOut houtcome hafter
    have hcarry := steps_carryOut (by decide) (steps_obey_of_isDetached place a rfl hdetached)
    have hcarry' := steps_carryOut (by decide) (steps_obey_of_isDetached place' b rfl hdetached)
    exact ⟨hexit, by rw [hevents], by rw [hevents], calls_eq_nil hcarry.not_mem_events.1,
      calls_eq_nil hcarry'.not_mem_events.1, hcarry.files_eq (by decide) (by decide),
      hcarry'.files_eq (by decide) (by decide)⟩
  · have hobey := run_obey_of_failed place { files := files, answers := .stream input } htokens
      (run_resolve_of_surplus place _ hsurplus)
    refine ⟨_, run_eq place files input styled hwords, ?_⟩
    rw [carryOut_snd, hobey]
    exact ⟨rfl, rfl⟩
  · have hneeds : command.needsSettings = true := by
      cases command <;> first | rfl | exact absurd rfl hversion
    let world : World := { files := files, answers := .stream input }
    have hobey : Steps place Deed.resolving world ((obey tokens).run place world).2 :=
      steps_obey_of_unusable place world rfl hmeaning hneeds hload
    have hcarry := steps_carryOut (by decide) hobey
    exact ⟨_, run_eq place files input styled hwords, hcarry.not_mem_events.1,
      hcarry.not_mem_events.2, hcarry.files_eq (by decide) (by decide)⟩

/-- A mistyped version that is offered and accepted is told beside any file of settings. -/
theorem resolution_is_blind_versoin :
    Options.parse ["versoin"] = .ok ({}, ["versoin"]) ∧
      meaningOf ["versoin"] (Answers.stream [121, 10]).next.1 = some .version ∧
      ∀ place place' files files', ∃ run run',
        Program.run place files [121, 10] true ["versoin"] = .ok run ∧
        Program.run place' files' [121, 10] true ["versoin"] = .ok run' ∧
        run.exit = run'.exit ∧ run.world.files = files ∧ run'.world.files = files' := by
  have hwords : Options.parse ["versoin"] = .ok ({}, ["versoin"]) := rfl
  have hmeaning : meaningOf ["versoin"] (Answers.stream [121, 10]).next.1 = some .version := by
    decide
  refine ⟨hwords, hmeaning, fun place place' files files' => ?_⟩
  obtain ⟨hsame, -, -⟩ := resolution_is_blind [121, 10] true hwords
  obtain ⟨run, run', hrun, hrun', hexit, -, -, -, -, hfiles, hfiles'⟩ :=
    hsame (.inr (.inr (.inr hmeaning))) place place' files files'
  exact ⟨run, run', hrun, hrun', hexit, hfiles, hfiles'⟩

end Conductor
