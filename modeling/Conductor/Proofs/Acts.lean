import Conductor.Running

/-!
# What single acts do to the world

Every act is put together from a few single ones. Each of these changes the world in one way, which
has a name here, and its run is an equation between worlds. The three ways to run a tool follow.
-/

namespace Conductor

namespace World

def wrote (world : World) (channel : Channel) (text : StyledText) : World :=
  { world with events := world.events ++ [.wrote channel text] }

def asked (world : World) (question : StyledText) : World :=
  { world with
    answers := world.answers.next.2
    events := world.events ++ [.asked question world.answers.next.1] }

def assigned (world : World) (key : Variable) (value : String) : World :=
  { world with
    environment := world.environment.set key value
    events := world.events ++ [.assigned key value] }

/-- The world after it was told that a variable is going to be set, and it was not. -/
def proposed (world : World) (key : Variable) (value : String) : World :=
  { world with events := world.events ++ [.assigned key value] }

def response (world : World) (host : Host) (line : CommandLine) : Response :=
  (host.run line world.environment world.files).1

def launched (world : World) (host : Host) (line : CommandLine) (output : Output) : World :=
  { world with
    files := (host.run line world.environment world.files).2
    events := world.events ++ [.ran line output world.environment (world.response host line)] }

def painted (world : World) : World :=
  { world with palette := world.palette.advance }

def announced (world : World) (message : String) : World :=
  world.painted.wrote .out (.banner world.palette.color message)

def instructed (world : World) : World :=
  { world with palette := (usage world.palette).2 }.wrote .out
    ((usage world.palette).1 ++ [Span.plain "\n"])

end World

namespace Response

def succeeded : Response → Bool
  | .ended code _ => code = some 0
  | .refused _ => false

def failure? (line : CommandLine) : Response → Option Failure
  | .ended code _ =>
    if code = some 0 then none else some (.ofCause (.commandFailed line.display code))
  | .refused error =>
    some ((Failure.ofCause (.system error)).within ("Failed to execute " ++ line.program))

theorem failure?_eq_none_iff (line : CommandLine) (response : Response) :
    response.failure? line = none ↔ response.succeeded = true := by
  cases response <;> simp [failure?, succeeded]

end Response

/-- The end of an act that fails for a reason, if there is one. -/
def Outcome.ofFailure? : Option Failure → Outcome Unit
  | none => .done ()
  | some failure => .failed failure

namespace Act

variable {α β : Type} (place : Workspace) (world : World)

theorem run_bind_of_done {act : Act α} {next : α → Act β} {value : α} {after : World}
    (h : act.run place world = (.done value, after)) :
    (act >>= next).run place world = (next value).run place after := by
  rw [run_bind, h]

theorem run_bind_of_failed {act : Act α} {next : α → Act β} {failure : Failure} {after : World}
    (h : act.run place world = (.failed failure, after)) :
    (act >>= next).run place world = (.failed failure, after) := by
  rw [run_bind, h]

theorem run_bind_of_broken {act : Act α} {next : α → Act β} {after : World}
    (h : act.run place world = (.broken, after)) :
    (act >>= next).run place world = (.broken, after) := by
  rw [run_bind, h]

@[simp] theorem run_fail (failure : Failure) :
    (fail failure : Act α).run place world = (.failed failure, world) := rfl

@[simp] theorem run_ofExcept_ok (value : α) :
    (ofExcept (.ok value)).run place world = (.done value, world) := rfl

@[simp] theorem run_ofExcept_error (cause : Cause) :
    (ofExcept (.error cause : Except Cause α)).run place world =
      (.failed (.ofCause cause), world) := rfl

@[simp] theorem run_workspace : workspace.run place world = (.done place, world) := rfl

@[simp] theorem run_world : Act.world.run place world = (.done world, world) := rfl

@[simp] theorem run_write (channel : Channel) (text : StyledText) :
    (write channel text).run place world = (.done (), world.wrote channel text) := rfl

@[simp] theorem run_line (text : String) :
    (line text).run place world = (.done (), world.wrote .out [.plain (text ++ "\n")]) := rfl

theorem run_ask (question : StyledText) :
    (ask question).run place world =
      (match world.answers.next.1 with
        | .ok text => .done text
        | .error failure => .failed failure, world.asked question) := by
  rcases h : world.answers.next with ⟨_ | _, _⟩ <;> simp [ask, World.asked, h]

theorem run_assign (key : Variable) (value : String) :
    (assign key value).run place world =
      if place.host.accepts value then (.done (), world.assigned key value)
      else (.broken, world.proposed key value) := rfl

theorem run_launch (line : CommandLine) (output : Output) :
    (launch line output).run place world =
      (match world.response place.host line with
        | .ended code _ => .done code
        | .refused error =>
          .failed ((Failure.ofCause (.system error)).within ("Failed to execute " ++ line.program)),
        world.launched place.host line output) := by
  rcases h : place.host.run line world.environment world.files with ⟨_ | _, _⟩ <;>
    simp [launch, World.launched, World.response, h]

@[simp] theorem run_nextColor :
    nextColor.run place world = (.done world.palette.color, world.painted) := rfl

@[simp] theorem run_banner (message : String) :
    (banner message).run place world = (.done (), world.announced message) := rfl

@[simp] theorem run_showUsage : showUsage.run place world = (.done (), world.instructed) := rfl

@[simp] theorem run_takeGate :
    takeGate.run place world = (.done world.gate, { world with gate := false }) := rfl

/-- A failure is handed on as a value, and the world is what the act left. -/
theorem run_attempt (act : Act α) :
    act.attempt.run place world =
      (match (act.run place world).1 with
        | .done value => .done (.ok value)
        | .failed failure => .done (.error failure)
        | .broken => .broken, (act.run place world).2) := by
  simp only [attempt]
  rcases act.run place world with ⟨_ | _ | _, _⟩ <;> rfl

end Act

variable (place : Workspace) (world : World)

theorem run_runChecked (line : CommandLine) :
    (runChecked line).run place world =
      (.ofFailure? ((world.response place.host line).failure? line),
        world.launched place.host line .inherit) := by
  rw [runChecked, Act.run_bind, Act.run_launch]
  cases world.response place.host line with
  | refused error => rfl
  | ended code printed =>
    by_cases h : code = some 0 <;> simp [h, Response.failure?, Outcome.ofFailure?]

@[simp] theorem run_runUnchecked (line : CommandLine) (output : Output) :
    (runUnchecked line output).run place world =
      (.done (), world.launched place.host line output) := by
  rw [runUnchecked, Act.run_bind, Act.run_attempt, Act.run_launch]
  cases world.response place.host line <;> rfl

def permission (message : String) : StyledText := [.plain (message ++ " Ok? ")]

theorem run_runOptional_unasked (line : CommandLine) (message : String) :
    (runOptional line message false).run place world =
      (.done true, world.launched place.host line .inherit) := by
  simp only [runOptional, Bool.false_eq_true, if_false, Act.run_bind, run_runUnchecked,
    Act.run_pure]

/-- An optional run asks once, and runs the tool only if the answer agrees. -/
theorem run_runOptional_asked (line : CommandLine) (message : String) :
    (runOptional line message true).run place world =
      match world.answers.next.1 with
      | .error failure => (.failed failure, world.asked (permission message))
      | .ok text =>
        if isYesOrDefault text then
          (.done true, (world.asked (permission message)).launched place.host line .inherit)
        else (.done false, world.asked (permission message)) := by
  simp only [runOptional, if_true, Act.run_bind, Act.run_ask, permission]
  cases world.answers.next.1 with
  | error failure => rfl
  | ok text =>
    by_cases h : isYesOrDefault text <;>
      simp only [h, if_true, if_false, Bool.false_eq_true, Act.run_bind, run_runUnchecked,
        Act.run_pure]

end Conductor
