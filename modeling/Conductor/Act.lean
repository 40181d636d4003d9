import Conductor.Answers
import Conductor.Console
import Conductor.Tools

/-! # Acts

An act changes files, variables and palette, asks, runs tools and writes. All that it does towards
the outside is kept as a list of events, so that what is shown of it can be decided later.
-/

namespace Conductor

inductive Channel
  | out
  | err
  deriving DecidableEq, Repr

/-- What an act does towards the outside. -/
inductive Event
  | wrote (channel : Channel) (text : StyledText)
  | asked (question : StyledText) (answer : Answer)
  /-- A variable was given a value, or the program broke down at a value that it cannot have. -/
  | assigned (key : Variable) (value : String)
  /-- A tool was run, or could not be, in this environment. -/
  | ran (line : CommandLine) (output : Output) (environment : Environment) (response : Response)

/-- What stays the same while an act runs. -/
structure Workspace where
  /-- The absolute path of the project directory. -/
  project : String
  host : Host

/-- What an act may change. -/
structure World where
  /-- The root of the file system. -/
  files : Files.Node
  environment : Environment := {}
  answers : Answers
  palette : Palette := Palette.fresh
  /-- Whether a command may still be suggested. -/
  gate : Bool := true
  /-- What has been done so far, first things first. -/
  events : List Event := []

inductive Outcome (α : Type)
  | done (value : α)
  | failed (failure : Failure)
  /-- The program itself broke down, and nothing can follow. -/
  | broken

/-- Something to be done in a workspace. -/
structure Act (α : Type) where
  run : Workspace → World → Outcome α × World

namespace Act

variable {α β : Type}

theorem eq_of_run {a b : Act α} (h : ∀ place world, a.run place world = b.run place world) :
    a = b := by
  cases a
  cases b
  congr
  funext place world
  exact h place world

def bind (act : Act α) (next : α → Act β) : Act β where
  run place world :=
    match act.run place world with
    | (.done value, world) => (next value).run place world
    | (.failed failure, world) => (.failed failure, world)
    | (.broken, world) => (.broken, world)

instance : Monad Act where
  pure value := ⟨fun _ world => (.done value, world)⟩
  bind := bind

@[simp] theorem run_pure (value : α) (place : Workspace) (world : World) :
    (pure value : Act α).run place world = (.done value, world) := rfl

theorem run_bind (act : Act α) (next : α → Act β) (place : Workspace) (world : World) :
    (act >>= next).run place world =
      match act.run place world with
      | (.done value, world) => (next value).run place world
      | (.failed failure, world) => (.failed failure, world)
      | (.broken, world) => (.broken, world) := rfl

instance : LawfulMonad Act := LawfulMonad.mk' Act
  (by
    intro α act
    refine eq_of_run fun place world => ?_
    change (act >>= fun value => pure value).run place world = _
    rw [run_bind]
    rcases act.run place world with ⟨_ | _ | _, _⟩ <;> rfl)
  (by intros; rfl)
  (by
    intro α β γ act f g
    refine eq_of_run fun place world => ?_
    simp only [run_bind]
    rcases act.run place world with ⟨_ | _ | _, _⟩ <;> rfl)

def fail (failure : Failure) : Act α :=
  ⟨fun _ world => (.failed failure, world)⟩

def ofExcept : Except Cause α → Act α
  | .ok value => pure value
  | .error cause => fail (.ofCause cause)

/-- Does an act and goes on whether it fails or not. -/
def attempt (act : Act α) : Act (Except Failure α) where
  run place world :=
    match act.run place world with
    | (.done value, world) => (.done (.ok value), world)
    | (.failed failure, world) => (.done (.error failure), world)
    | (.broken, world) => (.broken, world)

def workspace : Act Workspace :=
  ⟨fun place world => (.done place, world)⟩

def world : Act World :=
  ⟨fun _ world => (.done world, world)⟩

def change (f : World → World) : Act Unit :=
  ⟨fun _ world => (.done (), f world)⟩

def record (event : Event) : Act Unit :=
  change fun world => { world with events := world.events ++ [event] }

def write (channel : Channel) (text : StyledText) : Act Unit :=
  record (.wrote channel text)

def line (text : String) : Act Unit :=
  write .out [.plain (text ++ "\n")]

def ask (question : StyledText) : Act String where
  run _ world :=
    let (answer, answers) := world.answers.next
    let world := { world with
      answers := answers, events := world.events ++ [.asked question answer] }
    match answer with
    | .ok text => (.done text, world)
    | .error failure => (.failed failure, world)

/-- Sets a variable for all tools to come. What is going to be set is told before, so a value that
cannot be set leaves the event, too. -/
def assign (key : Variable) (value : String) : Act Unit where
  run place world :=
    let world := { world with events := world.events ++ [.assigned key value] }
    if place.host.accepts value then
      (.done (), { world with environment := world.environment.set key value })
    else (.broken, world)

def launch (line : CommandLine) (output : Output) : Act (Option Int) where
  run place world :=
    let (response, files) := place.host.run line world.environment world.files
    let world := { world with
      files := files
      events := world.events ++ [.ran line output world.environment response] }
    match response with
    | .ended code _ => (.done code, world)
    | .refused error =>
      (.failed ((Failure.ofCause (.system error)).within ("Failed to execute " ++ line.program)),
        world)

def nextColor : Act Color where
  run _ world := (.done world.palette.color, { world with palette := world.palette.advance })

def banner (message : String) : Act Unit := do
  write .out (.banner (← nextColor) message)

def showUsage : Act Unit where
  run place world :=
    let (text, palette) := usage world.palette
    (write .out (text ++ [.plain "\n"])).run place { world with palette := palette }

def takeGate : Act Bool where
  run _ world := (.done world.gate, { world with gate := false })

/-- Does an act with an open gate of its own. -/
def withFreshGate (act : Act α) : Act α where
  run place world :=
    let (outcome, after) := act.run place { world with gate := true }
    (outcome, { after with gate := world.gate })

end Act

end Conductor
