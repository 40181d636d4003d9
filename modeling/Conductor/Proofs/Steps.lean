import Conductor.Files.Resolve
import Conductor.Proofs.Acts
import Mathlib.Logic.Relation

/-!
# Runs as sequences of steps

A step is one change of the world, and it is of one of seven kinds. Of an act it is said once which
kinds of steps it takes (`Act.TakesOnly`); what no step of these kinds can change, a run of the act
cannot change (`Steps.keeps`). So each law about a whole run is a law about one step.
-/

namespace Conductor

inductive Deed
  | write
  | ask
  | assign
  | launch
  /-- A directory is made. -/
  | make
  /-- Colours are taken. -/
  | paint
  /-- The gate is closed. -/
  | shut
  deriving DecidableEq, Repr

def Event.deed : Event → Deed
  | .wrote _ _ => .write
  | .asked _ _ => .ask
  | .assigned _ _ => .assign
  | .ran _ _ _ _ => .launch

inductive Step (place : Workspace) (world : World) : Deed → World → Prop
  | write (channel : Channel) (text : StyledText) :
      Step place world .write (world.wrote channel text)
  | ask (question : StyledText) : Step place world .ask (world.asked question)
  | assign {key : Variable} {value : String} (h : place.host.accepts value = true) :
      Step place world .assign (world.assigned key value)
  | refuse {key : Variable} {value : String} (h : place.host.accepts value = false) :
      Step place world .assign (world.proposed key value)
  | launch (line : CommandLine) (output : Output) :
      Step place world .launch (world.launched place.host line output)
  | make {path : String} {files : Files.Node}
      (h : Files.makeDirectory world.files path = .ok files) :
      Step place world .make { world with files := files }
  | paint (palette : Palette) : Step place world .paint { world with palette := palette }
  | shut : Step place world .shut { world with gate := false }

abbrev Steps (place : Workspace) (deeds : List Deed) : World → World → Prop :=
  Relation.ReflTransGen fun a b => ∃ deed ∈ deeds, Step place a deed b

/-- A step adds at most one event, one of its own kind, and a tool sees the variables of the world
in which it is run. -/
theorem Step.events_eq {place : Workspace} {a b : World} {deed : Deed}
    (h : Step place a deed b) :
    ∃ new, b.events = a.events ++ new ∧ ∀ event ∈ new, event.deed = deed ∧
      ∀ line output seen response, event = .ran line output seen response →
        seen = a.environment := by
  cases h with
  | write channel text => exact ⟨_, rfl, by simp [Event.deed]⟩
  | ask question => exact ⟨_, rfl, by simp [Event.deed]⟩
  | assign => exact ⟨_, rfl, by simp [Event.deed]⟩
  | refuse => exact ⟨_, rfl, by simp [Event.deed]⟩
  | launch line output =>
    refine ⟨_, rfl, fun event hmem => ?_⟩
    obtain rfl := List.mem_singleton.mp hmem
    refine ⟨rfl, fun _ _ _ _ he => ?_⟩
    cases he
    rfl
  | make => exact ⟨[], by simp, by simp⟩
  | paint => exact ⟨[], by simp, by simp⟩
  | shut => exact ⟨[], by simp, by simp⟩

namespace Steps

variable {place : Workspace} {deeds : List Deed} {a b : World}

theorem single {deed : Deed} (h : Step place a deed b) (hd : deed ∈ deeds) :
    Steps place deeds a b :=
  Relation.ReflTransGen.single ⟨deed, hd, h⟩

theorem mono {more : List Deed} (h : Steps place deeds a b) (hsub : deeds ⊆ more) :
    Steps place more a b :=
  Relation.ReflTransGen.mono (fun _ _ ⟨deed, hd, hs⟩ => ⟨deed, hsub hd, hs⟩) _ _ h

/-- What every step of the kinds keeps, a sequence of such steps keeps. -/
theorem keeps {I : World → Prop} (h : Steps place deeds a b)
    (hstep : ∀ deed ∈ deeds, ∀ c d, Step place c deed d → I c → I d) (hI : I a) : I b := by
  induction h with
  | refl => exact hI
  | tail _ step ih =>
    obtain ⟨deed, hd, hs⟩ := step
    exact hstep deed hd _ _ hs ih

theorem files_eq (h : Steps place deeds a b) (hl : .launch ∉ deeds) (hm : .make ∉ deeds) :
    b.files = a.files := by
  refine h.keeps (I := fun world => world.files = a.files) ?_ rfl
  intro deed hd c d hs hc
  cases hs with
  | launch => exact absurd hd hl
  | make => exact absurd hd hm
  | _ => exact hc

theorem environment_eq (h : Steps place deeds a b) (ha : .assign ∉ deeds) :
    b.environment = a.environment := by
  refine h.keeps (I := fun world => world.environment = a.environment) ?_ rfl
  intro deed hd c d hs hc
  cases hs with
  | assign => exact absurd hd ha
  | _ => exact hc

theorem answers_eq (h : Steps place deeds a b) (ha : .ask ∉ deeds) : b.answers = a.answers := by
  refine h.keeps (I := fun world => world.answers = a.answers) ?_ rfl
  intro deed hd c d hs hc
  cases hs with
  | ask => exact absurd hd ha
  | _ => exact hc

/-- Events are only added. They come from steps of the kinds, and as long as no variable is set all
tools see the variables of the beginning. -/
theorem events_eq (h : Steps place deeds a b) :
    ∃ new, b.events = a.events ++ new ∧ ∀ event ∈ new, event.deed ∈ deeds ∧
      (.assign ∉ deeds → ∀ line output seen response, event = .ran line output seen response →
        seen = a.environment) := by
  induction h with
  | refl => exact ⟨[], by simp, by simp⟩
  | @tail c d hc step ih =>
    obtain ⟨new, hnew, hall⟩ := ih
    obtain ⟨deed, hd, hs⟩ := step
    obtain ⟨more, hmore, hmoreAll⟩ := hs.events_eq
    refine ⟨new ++ more, by rw [hmore, hnew, List.append_assoc], fun event hmem => ?_⟩
    rcases List.mem_append.mp hmem with hmem | hmem
    · exact hall event hmem
    · obtain ⟨hdeed, hsee⟩ := hmoreAll event hmem
      refine ⟨hdeed ▸ hd, fun ha line output seen response he => ?_⟩
      rw [hsee line output seen response he, environment_eq hc ha]

end Steps

namespace Act

variable {α β : Type} {deeds : List Deed}

/-- Wherever the act is run, it takes only steps of the given kinds. -/
def TakesOnly (deeds : List Deed) (act : Act α) : Prop :=
  ∀ place world, Steps place deeds world (act.run place world).2

theorem TakesOnly.mono {more : List Deed} {act : Act α} (h : act.TakesOnly deeds)
    (hsub : deeds ⊆ more) : act.TakesOnly more :=
  fun place world => (h place world).mono hsub

theorem takesOnly_pure (value : α) : (pure value : Act α).TakesOnly deeds := fun _ _ => .refl

theorem TakesOnly.bind {act : Act α} {next : α → Act β} (h : act.TakesOnly deeds)
    (hnext : ∀ value, (next value).TakesOnly deeds) : (act >>= next).TakesOnly deeds := by
  intro place world
  have hfirst := h place world
  rcases hrun : act.run place world with ⟨value | failure | _, after⟩
  · rw [run_bind_of_done _ _ hrun]
    rw [hrun] at hfirst
    exact hfirst.trans (hnext value place after)
  · rw [run_bind_of_failed _ _ hrun]
    rwa [hrun] at hfirst
  · rw [run_bind_of_broken _ _ hrun]
    rwa [hrun] at hfirst

theorem TakesOnly.attempt {act : Act α} (h : act.TakesOnly deeds) :
    act.attempt.TakesOnly deeds := by
  intro place world
  rw [run_attempt]
  exact h place world

theorem takesOnly_fail (failure : Failure) : (fail failure : Act α).TakesOnly deeds :=
  fun _ _ => .refl

theorem takesOnly_ofExcept (result : Except Cause α) : (ofExcept result).TakesOnly deeds := by
  cases result with
  | ok value => exact takesOnly_pure value
  | error cause => exact takesOnly_fail _

theorem takesOnly_workspace : workspace.TakesOnly deeds := fun _ _ => .refl

theorem takesOnly_world : Act.world.TakesOnly deeds := fun _ _ => .refl

theorem takesOnly_write (hd : .write ∈ deeds) (channel : Channel) (text : StyledText) :
    (write channel text).TakesOnly deeds :=
  fun _ _ => .single (.write channel text) hd

theorem takesOnly_line (hd : .write ∈ deeds) (text : String) : (line text).TakesOnly deeds :=
  takesOnly_write hd _ _

theorem takesOnly_ask (hd : .ask ∈ deeds) (question : StyledText) :
    (ask question).TakesOnly deeds := by
  intro place world
  rw [run_ask]
  exact .single (.ask question) hd

theorem takesOnly_assign (hd : .assign ∈ deeds) (key : Variable) (value : String) :
    (assign key value).TakesOnly deeds := by
  intro place world
  rw [run_assign]
  cases h : place.host.accepts value with
  | true => exact .single (.assign h) hd
  | false => exact .single (.refuse h) hd

theorem takesOnly_launch (hd : .launch ∈ deeds) (line : CommandLine) (output : Output) :
    (launch line output).TakesOnly deeds := by
  intro place world
  rw [run_launch]
  exact .single (.launch line output) hd

theorem takesOnly_nextColor (hd : .paint ∈ deeds) : nextColor.TakesOnly deeds :=
  fun _ world => .single (.paint world.palette.advance) hd

theorem takesOnly_banner (hp : .paint ∈ deeds) (hw : .write ∈ deeds) (message : String) :
    (banner message).TakesOnly deeds :=
  .bind (takesOnly_nextColor hp) fun _ => takesOnly_write hw _ _

theorem takesOnly_showUsage (hp : .paint ∈ deeds) (hw : .write ∈ deeds) :
    showUsage.TakesOnly deeds := by
  intro place world
  rw [run_showUsage]
  have hpaint : Steps place deeds world { world with palette := (usage world.palette).2 } :=
    .single (.paint _) hp
  exact hpaint.trans (Steps.single (.write .out _) hw)

theorem takesOnly_takeGate (hd : .shut ∈ deeds) : takeGate.TakesOnly deeds :=
  fun _ _ => .single .shut hd

end Act

end Conductor
