import Conductor.Proofs.Resolving
import Conductor.Tools.Scripted

/-!
# How often a name is looked at

Resolving is a loop: a name that is no command may be replaced by one that is offered, and then the
new name is looked at. An offer closes the gate and only commands are offered, so two passes are
enough. `resolve_in_two_passes` tells what is said, asked and given on each way through the loop.
-/

namespace Conductor

/-- One pass: what a name stands for, or the name to be looked at next. -/
def lookAt (arguments : List String) (name : String) : Act (Option Command ⊕ String) := do
  match ← Act.ofExcept (Command.parse name arguments) with
  | some command => return .inl (some command)
  | none =>
    Act.showUsage
    Act.line "\n"
    match ← suggest name with
    | some next => return .inr next
    | none => return .inl none

/-- How an act ends that only looks at what was parsed. -/
def Outcome.ofExcept {α : Type} : Except Cause α → Outcome α
  | .ok value => .done value
  | .error cause => .failed (.ofCause cause)

theorem Act.run_ofExcept {α : Type} (place : Workspace) (world : World) (result : Except Cause α) :
    (Act.ofExcept result).run place world = (Outcome.ofExcept result, world) := by
  cases result <;> rfl

/-- How the loop ends after a pass, unless there is a name to be looked at next. -/
def conclusion? : Outcome (Option Command ⊕ String) → Option (Outcome (Option Command))
  | .done (.inl found) => some (.done found)
  | .done (.inr _) => none
  | .failed failure => some (.failed failure)
  | .broken => some .broken

/-- Passes are made until one of them leaves no name to be looked at. -/
inductive Passes (place : Workspace) (arguments : List String) :
    String → World → Nat → Outcome (Option Command) × World → Prop
  | last {name : String} {world after : World} {outcome : Outcome (Option Command ⊕ String)}
      {ending : Outcome (Option Command)}
      (h : (lookAt arguments name).run place world = (outcome, after))
      (hlast : conclusion? outcome = some ending) :
      Passes place arguments name world 1 (ending, after)
  | again {name next : String} {world between : World} {n : Nat}
      {result : Outcome (Option Command) × World}
      (h : (lookAt arguments name).run place world = (.done (.inr next), between))
      (hrest : Passes place arguments next between n result) :
      Passes place arguments name world (n + 1) result

section

variable (place : Workspace) (world : World) {arguments : List String} {name : String}

/-- How many passes are made, and what comes of them, depends on nothing else. -/
theorem Passes.unique {place : Workspace} {world : World} {m n : Nat}
    {a b : Outcome (Option Command) × World} (h : Passes place arguments name world m a)
    (h' : Passes place arguments name world n b) : m = n ∧ a = b := by
  induction h generalizing n b with
  | last h hlast =>
    cases h' with
    | last h' hlast' =>
      cases h.symm.trans h'
      cases hlast.symm.trans hlast'
      exact ⟨rfl, rfl⟩
    | again h' =>
      cases h.symm.trans h'
      cases hlast
  | again h hrest ih =>
    cases h' with
    | last h' hlast' =>
      cases h.symm.trans h'
      cases hlast'
    | again h' hrest' =>
      cases h.symm.trans h'
      obtain ⟨rfl, rfl⟩ := ih hrest'
      exact ⟨rfl, rfl⟩

/-- At a closed gate nothing is offered. -/
theorem run_suggest_of_shut (word : String) (hgate : world.gate = false) :
    (suggest word).run place world = (.done none, world) := by
  have hworld : ({ world with gate := false } : World) = world := by
    rw [← hgate]
  simp only [suggest, Act.run_bind, Act.run_takeGate, hgate, Bool.false_eq_true, if_false,
    Act.run_pure, hworld]

def succession : Option String → Act (Option Command ⊕ String)
  | some next => pure (.inr next)
  | none => pure (.inl none)

theorem passes_of_known (hlength : ¬ 1 < arguments.length)
    (hknown : Command.isKnown name = true) :
    Passes place arguments name world 1
      ((Act.ofExcept (Command.parse name arguments)).run place world) := by
  rcases Command.parse_of_known hknown hlength with ⟨text, -, -, hparse⟩ | ⟨command, -, hparse⟩
  · have hrun : (lookAt arguments name).run place world =
        (.failed (.ofCause (.unexpectedArgument name text)), world) := by
      rw [lookAt, hparse]
      rfl
    rw [hparse]
    exact .last hrun rfl
  · have hrun : (lookAt arguments name).run place world = (.done (.inl (some command)), world) := by
      rw [lookAt, hparse]
      rfl
    rw [hparse]
    exact .last hrun rfl

theorem run_lookAt_of_unknown (hlength : ¬ 1 < arguments.length)
    (hknown : Command.isKnown name = false) :
    (lookAt arguments name).run place world =
      (suggest name >>= succession).run place world.advised := by
  have hadvised (next : Unit → Act (Option Command ⊕ String)) :
      (Act.showUsage >>= fun _ => Act.line "\n" >>= next).run place world =
        (next ()).run place world.advised := by
    simp only [Act.run_bind, Act.run_showUsage, Act.run_line, World.advised]
  rw [lookAt, Command.parse_of_unknown hknown hlength,
    Act.run_bind_of_done _ _ (Act.run_ofExcept_ok ..), hadvised, Act.run_bind, Act.run_bind]
  rcases (suggest name).run place world.advised with ⟨(_ | _) | _ | _, _⟩ <;> rfl

/-- What becomes of a word that is offered a command, and the world after it. -/
inductive Advice (world : World) (word : String) : Outcome (Option String) → World → Prop
  | shut (hgate : world.gate = false) : Advice world word (.done none) world
  | helpless (hgate : world.gate = true) (hclosest : closest? word = none) :
      Advice world word (.done none) ({ world with gate := false }.wrote .out [.plain ("" ++ "\n")])
  | unheard {info : CommandInfo} {failure : Failure} (hgate : world.gate = true)
      (hclosest : closest? word = some info) (hanswer : world.answers.next.1 = .error failure) :
      Advice world word (.failed failure) (world.offered info)
  | heard {info : CommandInfo} {text : String} (hgate : world.gate = true)
      (hclosest : closest? word = some info) (hanswer : world.answers.next.1 = .ok text) :
      Advice world word (.done (if isYes text then some info.name else none)) (world.replied info)

theorem advice_suggest (word : String) : ∃ outcome after,
    (suggest word).run place world = (outcome, after) ∧ Advice world word outcome after := by
  cases hgate : world.gate with
  | false => exact ⟨_, _, run_suggest_of_shut place world word hgate, .shut hgate⟩
  | true =>
    cases hclosest : closest? word with
    | none => exact ⟨_, _, run_suggest_of_none place world hgate hclosest, .helpless hgate hclosest⟩
    | some info =>
      have hrun := run_suggest_of_some place world hgate hclosest
      cases hanswer : world.answers.next.1 with
      | error failure =>
        rw [hanswer] at hrun
        exact ⟨_, _, hrun, .unheard hgate hclosest hanswer⟩
      | ok text =>
        rw [hanswer] at hrun
        exact ⟨_, _, hrun, .heard hgate hclosest hanswer⟩

/-- Only commands are offered. -/
theorem Advice.isKnown {world after : World} {word name : String}
    (h : Advice world word (.done (some name)) after) : Command.isKnown name = true := by
  generalize hfound : Outcome.done (some name) = outcome at h
  cases h with
  | shut => cases hfound
  | helpless => cases hfound
  | unheard => cases hfound
  | @heard info text _ hclosest =>
    by_cases hyes : isYes text = true
    · rw [if_pos hyes] at hfound
      cases hfound
      exact isKnown_of_closest hclosest
    · rw [if_neg hyes] at hfound
      cases hfound

variable {invocation : Invocation}

/-- The loop comes to an end in the first pass, or in a second one that an accepted offer starts. -/
theorem passes_resolve (hlength : ¬ 1 < invocation.arguments.length) :
    ∃ n ≤ 2, Passes place invocation.arguments invocation.command world n
      ((resolve invocation).run place world) := by
  cases hknown : Command.isKnown invocation.command with
  | true =>
    rw [run_resolve_of_known place world hlength hknown]
    exact ⟨1, by omega, passes_of_known place world hlength hknown⟩
  | false =>
    have hlook := run_lookAt_of_unknown place world hlength hknown
    obtain ⟨outcome, after, hsuggest, hadvice⟩ :=
      advice_suggest place world.advised invocation.command
    rw [run_resolve_of_unknown place world hlength hknown]
    rcases outcome with (_ | name) | failure | _
    · rw [Act.run_bind_of_done _ _ hsuggest] at hlook ⊢
      exact ⟨1, by omega, .last hlook rfl⟩
    · rw [Act.run_bind_of_done _ _ hsuggest] at hlook ⊢
      exact ⟨2, by omega, .again hlook (passes_of_known place after hlength hadvice.isKnown)⟩
    · rw [Act.run_bind_of_failed _ _ hsuggest] at hlook ⊢
      exact ⟨1, by omega, .last hlook rfl⟩
    · rw [Act.run_bind_of_broken _ _ hsuggest] at hlook ⊢
      exact ⟨1, by omega, .last hlook rfl⟩

end

def Palette.after (palette : Palette) (turns : Nat) : Palette :=
  ⟨palette.index + UInt64.ofNat turns⟩

theorem Palette.after_advance (palette : Palette) (turns : Nat) :
    palette.advance.after turns = palette.after (turns + 1) := by
  rw [after, after, advance, UInt64.add_assoc, UInt64.add_comm 1, UInt64.ofNat_add]
  rfl

theorem Palette.advance_after (palette : Palette) (turns : Nat) :
    (palette.after turns).advance = palette.after (turns + 1) := by
  rw [after, after, advance, UInt64.ofNat_add, UInt64.add_assoc]
  rfl

theorem usageLines_snd (palette : Palette) (infos : List CommandInfo) :
    (usageLines palette infos).2 = palette.after infos.length := by
  induction infos generalizing palette with
  | nil => simp [usageLines, Palette.after]
  | cons info rest ih =>
    rw [List.length_cons, ← Palette.after_advance, ← ih]
    rfl

theorem usage_snd (palette : Palette) : (usage palette).2 = palette.after 7 :=
  usageLines_snd palette registry

def usageEvents (palette : Palette) : List Event :=
  [.wrote .out ((usage palette).1 ++ [.plain "\n"]), .wrote .out [.plain "\n\n"]]

def emptyLine : Event := .wrote .out [.plain "\n"]

def Accepts (answer : String) : Prop :=
  Text.trim answer = "y" ∨ Text.trim answer = "Y"

theorem isYes_iff (answer : String) : isYes answer = true ↔ Accepts answer := by
  simp [isYes, isLetterY, Accepts]

namespace World

variable (world : World)

theorem advised_events : world.advised.events = world.events ++ usageEvents world.palette := by
  simp [advised, instructed, wrote, usageEvents]

theorem advised_palette : world.advised.palette = world.palette.after 7 :=
  usage_snd world.palette

@[simp] theorem wrote_palette (channel : Channel) (text : StyledText) :
    (world.wrote channel text).palette = world.palette := rfl

theorem offered_events (info : CommandInfo) : (world.offered info).events = world.events ++
    [.asked (.suggestion world.palette.color info.name) world.answers.next.1] := rfl

theorem offered_palette (info : CommandInfo) :
    (world.offered info).palette = world.palette.advance := rfl

theorem replied_events (info : CommandInfo) :
    (world.replied info).events = (world.offered info).events ++ [emptyLine] := rfl

theorem replied_palette (info : CommandInfo) :
    (world.replied info).palette = (world.offered info).palette := rfl

end World

section

variable (place : Workspace) (world : World) {invocation : Invocation}

/-- Resolving a known name only parses. -/
theorem run_resolve_of_isKnown (hlength : ¬ 1 < invocation.arguments.length)
    (hknown : Command.isKnown invocation.command = true) :
    (resolve invocation).run place world =
      (.ofExcept (Command.parse invocation.command invocation.arguments), world) := by
  rw [run_resolve_of_known place world hlength hknown, Act.run_ofExcept]

/-- Without an offer an unknown name gets the usage and nothing else. -/
theorem run_resolve_of_unoffered (hlength : ¬ 1 < invocation.arguments.length)
    (hknown : Command.isKnown invocation.command = false)
    (hoffer : (if world.gate then closest? invocation.command else none) = none) :
    ∃ after, (resolve invocation).run place world = (.done none, after) ∧ after.gate = false ∧
      after.palette = world.palette.after 7 ∧
      after.events = world.events ++ usageEvents world.palette ++
        (if world.gate then [emptyLine] else []) := by
  rw [run_resolve_of_unknown place world hlength hknown]
  cases hgate : world.gate with
  | false =>
    have hadvised : world.advised.gate = false := by rw [World.advised_gate, hgate]
    have hsuggest := run_suggest_of_shut place world.advised invocation.command hadvised
    rw [Act.run_bind_of_done _ _ hsuggest]
    refine ⟨world.advised, rfl, hadvised, world.advised_palette, ?_⟩
    rw [world.advised_events]
    simp
  | true =>
    have hadvised : world.advised.gate = true := by rw [World.advised_gate, hgate]
    rw [hgate, if_pos rfl] at hoffer
    have hsuggest := run_suggest_of_none place world.advised hadvised hoffer
    rw [Act.run_bind_of_done _ _ hsuggest]
    refine ⟨_, rfl, rfl, ?_, ?_⟩
    · rw [World.wrote_palette]
      exact world.advised_palette
    · rw [← world.advised_events]
      rfl

/-- An offer is one question, and its answer decides what an unknown name comes to. -/
theorem run_resolve_of_offered (hlength : ¬ 1 < invocation.arguments.length)
    (hknown : Command.isKnown invocation.command = false) (hgate : world.gate = true)
    {info : CommandInfo} (hclosest : closest? invocation.command = some info) :
    ∃ outcome after, (resolve invocation).run place world = (outcome, after) ∧
      after.gate = false ∧ after.palette = world.palette.after 8 ∧
      after.events = world.events ++ usageEvents world.palette ++
        [.asked (.suggestion (world.palette.after 7).color info.name) world.answers.next.1] ++
        (if world.answers.next.1.isOk then [emptyLine] else []) ∧
      match world.answers.next.1 with
      | .error failure => outcome = .failed failure
      | .ok text =>
        outcome = if isYes text then .ofExcept (Command.parse info.name invocation.arguments)
          else .done none := by
  have hadvised : world.advised.gate = true := by rw [World.advised_gate, hgate]
  have hsuggest := run_suggest_of_some place world.advised hadvised hclosest
  have hpalette : (world.advised.offered info).palette = world.palette.after 8 := by
    rw [World.offered_palette, world.advised_palette]
    exact world.palette.advance_after 7
  have hevents : (world.advised.offered info).events = world.events ++ usageEvents world.palette ++
      [.asked (.suggestion (world.palette.after 7).color info.name) world.answers.next.1] := by
    rw [World.offered_events, world.advised_events, world.advised_palette, World.advised_answers]
  rw [World.advised_answers] at hsuggest
  rw [run_resolve_of_unknown place world hlength hknown]
  cases hanswer : world.answers.next.1 with
  | error failure =>
    rw [hanswer] at hsuggest hevents
    rw [Act.run_bind_of_failed _ _ hsuggest]
    refine ⟨.failed failure, _, rfl, rfl, hpalette, ?_, rfl⟩
    rw [hevents]
    exact (List.append_nil _).symm
  | ok text =>
    rw [hanswer] at hsuggest hevents
    have hreplied := world.advised.replied_events info
    have hpalette' := (world.advised.replied_palette info).trans hpalette
    rw [hevents] at hreplied
    rw [Act.run_bind_of_done _ _ hsuggest]
    by_cases hyes : isYes text = true
    · simp only [if_pos hyes, followUp, Act.run_ofExcept]
      exact ⟨_, _, rfl, rfl, hpalette', hreplied, rfl⟩
    · simp only [if_neg hyes, followUp]
      exact ⟨_, _, rfl, rfl, hpalette', hreplied, rfl⟩

end

/-- What is offered is a command, which can at most refuse what follows it. -/
theorem ofExcept_parse_of_offered (info : CommandInfo) {arguments : List String}
    (hlength : ¬ 1 < arguments.length) (hknown : Command.isKnown info.name = true) :
    (∃ command, Outcome.ofExcept (Command.parse info.name arguments) = .done (some command)) ∨
      ∃ text, Outcome.ofExcept (Command.parse info.name arguments) =
        .failed (.ofCause (.unexpectedArgument info.name text)) := by
  rcases Command.parse_of_known hknown hlength with ⟨text, -, -, hparse⟩ | ⟨command, -, hparse⟩
  · exact .inr ⟨text, by rw [hparse]; rfl⟩
  · exact .inl ⟨command, by rw [hparse]; rfl⟩

/-- Resolving takes at most two passes. A known name is only parsed. For any other the usage is
written once and the gate is closed; at an open gate the closest command is offered in one question,
and if it is accepted, all goes on as if it had been typed. -/
theorem resolve_in_two_passes (place : Workspace) (world : World) {invocation : Invocation}
    (hlength : invocation.arguments.length ≤ 1) :
    let run := (resolve invocation).run place world
    let answer := world.answers.next.1
    (∃ passes ≤ 2, ∀ n result,
      Passes place invocation.arguments invocation.command world n result ↔
        n = passes ∧ result = run) ∧
    (Command.isKnown invocation.command = true →
      run = (.ofExcept (Command.parse invocation.command invocation.arguments), world)) ∧
    (Command.isKnown invocation.command = false → run.2.gate = false ∧
      match if world.gate then closest? invocation.command else none with
      | none =>
        run.1 = .done none ∧ run.2.palette = world.palette.after 7 ∧
        run.2.events = world.events ++ usageEvents world.palette ++
          (if world.gate then [emptyLine] else [])
      | some info =>
        let question := StyledText.suggestion (world.palette.after 7).color info.name
        run.2.palette = world.palette.after 8 ∧
        run.2.events = world.events ++ usageEvents world.palette ++ [.asked question answer] ++
          (if answer.isOk then [emptyLine] else []) ∧
        match answer with
        | .error failure => run.1 = .failed failure
        | .ok text =>
          (¬ Accepts text → run.1 = .done none) ∧
          (Accepts text →
            (∀ place' world', run.1 =
              ((resolve ⟨info.name, invocation.arguments⟩).run place' world').1) ∧
            ((∃ command, run.1 = .done (some command)) ∨
              ∃ text, run.1 = .failed (.ofCause (.unexpectedArgument info.name text))))) := by
  have hfits : ¬ 1 < invocation.arguments.length := by omega
  intro run answer
  refine ⟨?_, fun hknown => run_resolve_of_isKnown place world hfits hknown, fun hknown => ?_⟩
  · obtain ⟨passes, hle, hpasses⟩ := passes_resolve place world hfits
    refine ⟨passes, hle, fun n result => ⟨fun h => h.unique hpasses, ?_⟩⟩
    rintro ⟨rfl, rfl⟩
    exact hpasses
  · cases hoffer : if world.gate then closest? invocation.command else none with
    | none =>
      obtain ⟨after, hrun, hgate, hpalette, hevents⟩ :=
        run_resolve_of_unoffered place world hfits hknown hoffer
      have heq : run = (.done none, after) := hrun
      rw [heq]
      exact ⟨hgate, rfl, hpalette, hevents⟩
    | some info =>
      have hopen : world.gate = true := by
        cases h : world.gate with
        | true => rfl
        | false =>
          rw [h] at hoffer
          cases hoffer
      rw [if_pos hopen] at hoffer
      have hname := isKnown_of_closest hoffer
      obtain ⟨outcome, after, hrun, hgate, hpalette, hevents, hends⟩ :=
        run_resolve_of_offered place world hfits hknown hopen hoffer
      have heq : run = (outcome, after) := hrun
      have hanswer : world.answers.next.1 = answer := rfl
      rw [hanswer] at hevents hends
      rw [heq]
      refine ⟨hgate, hpalette, hevents, ?_⟩
      clear_value answer
      cases answer with
      | error failure => exact hends
      | ok text =>
        dsimp only at hends
        refine ⟨fun hrefuses => ?_, fun haccepts => ?_⟩
        · rw [hends, if_neg (fun hyes => hrefuses ((isYes_iff text).mp hyes))]
        · rw [if_pos ((isYes_iff text).mpr haccepts)] at hends
          rw [hends]
          refine ⟨fun place' world' => ?_, ofExcept_parse_of_offered info hfits hname⟩
          rw [@run_resolve_of_isKnown place' world' ⟨info.name, invocation.arguments⟩ hfits hname]

/-- A mistyped build with tests, whose correction is accepted. -/
theorem resolve_in_two_passes_biuld :
    let place : Workspace := ⟨"/work", Scripted.host [] "/work"⟩
    let world : World := { files := .directory [], answers := .queue [.ok " Y "] }
    let run := (resolve ⟨"biuld", ["test"]⟩).run place world
    ["test"].length ≤ 1 ∧ run.1 = .done (some (.build true false)) ∧ run.2.gate = false ∧
      run.2.palette = Palette.fresh.after 8 := by
  intro place world run
  have hlength : ["test"].length ≤ 1 := by decide
  have hknown : Command.isKnown "biuld" = false := by decide
  have hclosest : closest? "biuld" = registry[0]? := by decide
  obtain ⟨-, -, hunknown⟩ :=
    @resolve_in_two_passes place world ⟨"biuld", ["test"]⟩ hlength
  obtain ⟨hgate, hoffered⟩ := hunknown hknown
  rw [if_pos rfl, hclosest] at hoffered
  obtain ⟨hpalette, -, -, haccepted⟩ := hoffered
  have haccepts : Accepts " Y " := .inr (by decide)
  obtain ⟨htyped, -⟩ := haccepted haccepts
  refine ⟨hlength, ?_, hgate, hpalette⟩
  exact htyped place world

end Conductor
