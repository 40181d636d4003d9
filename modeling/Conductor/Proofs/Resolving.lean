import Conductor.Proofs.Frames
import Conductor.Proofs.Meaning

/-!
# Resolving

`run_resolve` says that resolving comes to what the invocation means, and which questions fail on
the way.
-/

namespace Conductor

def failedPrompts (events : List Event) : List Failure :=
  events.filterMap fun
    | .asked _ (.error failure) => some failure
    | _ => none

theorem failedPrompts_append (a b : List Event) :
    failedPrompts (a ++ b) = failedPrompts a ++ failedPrompts b := List.filterMap_append ..

@[simp] theorem failedPrompts_wrote (world : World) (channel : Channel) (text : StyledText) :
    failedPrompts (world.wrote channel text).events = failedPrompts world.events := by
  simp [World.wrote, failedPrompts]

/-- How an invocation is resolved, with the failures of the questions that it takes. -/
inductive Resolves (invocation : Invocation) (answer : Answer) :
    Outcome (Option Command) → List Failure → Prop
  | surplus (h : 1 < invocation.arguments.length) :
      Resolves invocation answer
        (.failed (.ofCause (.tooManyArguments invocation.arguments.length))) []
  | unfit {name text : String} (hname : effectiveName invocation.command answer = some name)
      (hargument : invocation.arguments = [text]) (halone : Command.standsAlone name) :
      Resolves invocation answer (.failed (.ofCause (.unexpectedArgument name text))) []
  | meant {command : Command} (h : invocation.meaning answer = some command) :
      Resolves invocation answer (.done (some command)) []
  | unanswered {failure : Failure} (hlength : ¬ 1 < invocation.arguments.length)
      (hname : effectiveName invocation.command answer = none) (h : answer = .error failure) :
      Resolves invocation answer (.failed failure) [failure]
  | nothing (hlength : ¬ 1 < invocation.arguments.length)
      (hname : effectiveName invocation.command answer = none) :
      Resolves invocation answer (.done none) []

namespace World

variable (world : World)

def advised : World := world.instructed.wrote .out [.plain ("\n" ++ "\n")]

@[simp] theorem advised_gate : world.advised.gate = world.gate := by
  simp only [advised, instructed, wrote]

@[simp] theorem advised_answers : world.advised.answers = world.answers := by
  simp only [advised, instructed, wrote]

/-- The world after a command was offered, which closes the gate. -/
def offered (info : CommandInfo) : World :=
  ({ world with gate := false }.painted).asked (.suggestion world.palette.color info.name)

def replied (info : CommandInfo) : World :=
  (world.offered info).wrote .out [.plain ("" ++ "\n")]

end World

variable (place : Workspace) (world : World)

theorem run_suggest_of_none {word : String} (hgate : world.gate = true)
    (h : closest? word = none) :
    (suggest word).run place world =
      (.done none, { world with gate := false }.wrote .out [.plain ("" ++ "\n")]) := by
  simp only [suggest, Act.run_bind, Act.run_takeGate, hgate, if_true, h, Act.run_line, Act.run_pure]

theorem run_suggest_of_some {word : String} {info : CommandInfo} (hgate : world.gate = true)
    (h : closest? word = some info) :
    (suggest word).run place world =
      match world.answers.next.1 with
      | .error failure => (.failed failure, world.offered info)
      | .ok text =>
        (.done (if isYes text then some info.name else none), world.replied info) := by
  have hanswer : ({ world with gate := false } : World).painted.answers.next.1 =
      world.answers.next.1 := rfl
  simp only [suggest, Act.run_bind, Act.run_takeGate, hgate, if_true, h, Act.run_nextColor,
    Act.run_ask, hanswer]
  cases world.answers.next.1 <;> rfl

variable {invocation : Invocation}

/-- Surplus words end the resolution before anything is done. -/
theorem run_resolve_of_surplus (h : 1 < invocation.arguments.length) :
    (resolve invocation).run place world =
      (.failed (.ofCause (.tooManyArguments invocation.arguments.length)), world) := by
  rw [resolve, Invocation.checkArity, if_pos h]
  rfl

theorem run_resolve_of_known (hlength : ¬ 1 < invocation.arguments.length)
    (hknown : Command.isKnown invocation.command = true) :
    (resolve invocation).run place world =
      (Act.ofExcept (Command.parse invocation.command invocation.arguments)).run place world := by
  have harity : invocation.checkArity = .ok () := if_neg hlength
  rw [resolve, harity, Act.run_bind_of_done _ _ (Act.run_ofExcept_ok ..)]
  rcases Command.parse_of_known hknown hlength with ⟨text, -, -, hparse⟩ | ⟨command, -, hparse⟩
  · rw [hparse]
    rfl
  · rw [hparse]
    rfl

/-- What follows an offer: an accepted name counts as typed. -/
def followUp (arguments : List String) : Option String → Act (Option Command)
  | some name => Act.ofExcept (Command.parse name arguments)
  | none => pure none

/-- The usage is shown before a command is offered. -/
theorem run_resolve_of_unknown (hlength : ¬ 1 < invocation.arguments.length)
    (hknown : Command.isKnown invocation.command = false) :
    (resolve invocation).run place world =
      (suggest invocation.command >>= followUp invocation.arguments).run place world.advised := by
  have harity : invocation.checkArity = .ok () := if_neg hlength
  have hadvised (next : Unit → Act (Option Command)) :
      (Act.showUsage >>= fun _ => Act.line "\n" >>= next).run place world =
        (next ()).run place world.advised := by
    simp only [Act.run_bind, Act.run_showUsage, Act.run_line, World.advised]
  rw [resolve, harity, Act.run_bind_of_done _ _ (Act.run_ofExcept_ok ..),
    Command.parse_of_unknown hknown hlength, Act.run_bind_of_done _ _ (Act.run_ofExcept_ok ..),
    hadvised, Act.run_bind, Act.run_bind]
  rcases (suggest invocation.command).run place world.advised with ⟨(_ | _) | _ | _, _⟩ <;> rfl

/-- A name that is found ends the resolution, be it with a refusal or with a command. -/
theorem Resolves.of_name {answer : Answer} {name : String}
    (hlength : ¬ 1 < invocation.arguments.length)
    (hname : effectiveName invocation.command answer = some name) :
    ∃ outcome, Resolves invocation answer outcome [] ∧
      ∀ world, (Act.ofExcept (Command.parse name invocation.arguments)).run place world =
        (outcome, world) := by
  rcases Command.parse_of_known (isKnown_of_effectiveName hname) hlength with
    ⟨text, halone, hargument, hparse⟩ | ⟨command, -, hparse⟩
  · rw [hparse]
    exact ⟨_, .unfit hname hargument halone, fun _ => rfl⟩
  · have hmeaning : invocation.meaning answer = some command := by
      rw [Invocation.meaning, hname, Option.bind_some, hparse]
      rfl
    rw [hparse]
    exact ⟨_, .meant hmeaning, fun _ => rfl⟩

theorem failedPrompts_advised :
    failedPrompts world.advised.events = failedPrompts world.events := by
  rw [World.advised, failedPrompts_wrote, World.instructed, failedPrompts_wrote]

theorem failedPrompts_offered (info : CommandInfo) :
    failedPrompts (world.offered info).events = failedPrompts world.events ++
      match world.answers.next.1 with
      | .ok _ => []
      | .error failure => [failure] := by
  simp only [World.offered, World.asked, World.painted, failedPrompts_append]
  cases world.answers.next.1 <;> rfl

/-- How an unknown word is resolved: nothing is close to it, or the answer to the offer decides. -/
theorem resolves_of_unknown (hlength : ¬ 1 < invocation.arguments.length)
    (hknown : Command.isKnown invocation.command = false) (hgate : world.gate = true) :
    ∃ outcome after failures, (resolve invocation).run place world = (outcome, after) ∧
      Resolves invocation world.answers.next.1 outcome failures ∧
      failedPrompts after.events = failedPrompts world.events ++ failures := by
  have hname : effectiveName invocation.command world.answers.next.1 =
      acceptedName invocation.command world.answers.next.1 := by
    rw [effectiveName, hknown, if_neg Bool.false_ne_true]
  have hgateAdvised : world.advised.gate = true := by rw [World.advised_gate, hgate]
  rw [run_resolve_of_unknown place world hlength hknown]
  cases hclosest : closest? invocation.command with
  | none =>
    have hsuggest := run_suggest_of_none place world.advised hgateAdvised hclosest
    rw [acceptedName_of_none hclosest] at hname
    rw [Act.run_bind_of_done _ _ hsuggest]
    refine ⟨.done none, _, [], rfl, .nothing hlength hname, ?_⟩
    rw [failedPrompts_wrote, List.append_nil]
    exact failedPrompts_advised world
  | some info =>
    have hsuggest := run_suggest_of_some place world.advised hgateAdvised hclosest
    have hprompts := failedPrompts_offered world.advised info
    -- the usage takes no answer, so the offer gets the first one
    rw [World.advised_answers] at hsuggest
    rw [failedPrompts_advised, World.advised_answers] at hprompts
    cases h : world.answers.next.1 with
    | error failure =>
      rw [h] at hname hprompts hsuggest
      rw [acceptedName_error] at hname
      rw [Act.run_bind_of_failed _ _ hsuggest]
      exact ⟨.failed failure, world.advised.offered info, [failure], rfl,
        .unanswered hlength hname rfl, hprompts⟩
    | ok text =>
      rw [h] at hname hprompts hsuggest
      rw [acceptedName_ok hclosest] at hname
      rw [Act.run_bind_of_done _ _ hsuggest]
      have hreplied : failedPrompts (world.advised.replied info).events =
          failedPrompts world.events ++ [] := by
        rw [World.replied, failedPrompts_wrote]
        exact hprompts
      by_cases hyes : isYes text = true
      · rw [if_pos hyes] at hname ⊢
        obtain ⟨outcome, hresolves, hrun⟩ := Resolves.of_name place hlength hname
        exact ⟨outcome, world.advised.replied info, [], hrun _, hresolves, hreplied⟩
      · rw [if_neg hyes] at hname ⊢
        exact ⟨.done none, world.advised.replied info, [], rfl, .nothing hlength hname, hreplied⟩

/-- Resolving comes to what the invocation means. -/
theorem run_resolve (invocation : Invocation) (hgate : world.gate = true) :
    ∃ outcome after failures, (resolve invocation).run place world = (outcome, after) ∧
      Resolves invocation world.answers.next.1 outcome failures ∧
      failedPrompts after.events = failedPrompts world.events ++ failures := by
  by_cases hlength : 1 < invocation.arguments.length
  · exact ⟨_, world, [], run_resolve_of_surplus place world hlength, .surplus hlength, by simp⟩
  by_cases hknown : Command.isKnown invocation.command = true
  · have hname : effectiveName invocation.command world.answers.next.1 =
        some invocation.command := if_pos hknown
    obtain ⟨outcome, hresolves, hrun⟩ := Resolves.of_name place hlength hname
    refine ⟨outcome, world, [], ?_, hresolves, by simp⟩
    rw [run_resolve_of_known place world hlength hknown, hrun]
  · rw [Bool.not_eq_true] at hknown
    exact resolves_of_unknown place world hlength hknown hgate

end Conductor
