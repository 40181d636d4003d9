import Conductor.Proofs.Passes

/-!
# One offer at a gate

The gate may be used again and again, by taking it, by asking for a suggestion or by resolving, and
between two uses anything else may happen. `one_offer_per_gate` says that only the first use that
closes the gate can lead to an offer, and what becomes of all later ones.
-/

namespace Conductor

inductive GateUse
  | take
  | suggest (word : String)
  | resolve (invocation : Invocation)

inductive GateReply
  | taken (wasOpen : Bool)
  | suggested (name : Option String)
  | resolved (command : Option Command)

namespace GateUse

def act : GateUse → Act GateReply
  | .take => do return .taken (← Act.takeGate)
  | .suggest word => do return .suggested (← Conductor.suggest word)
  | .resolve invocation => do return .resolved (← Conductor.resolve invocation)

/-- Whether the gate is closed afterwards in any case: by a resolution, if the name is unknown and
not too much follows it. -/
def closes : GateUse → Bool
  | .take => true
  | .suggest _ => true
  | .resolve invocation =>
    decide (invocation.arguments.length ≤ 1) && !Command.isKnown invocation.command

/-- The command that is close to the word that is looked for, if there is such a word. -/
def candidate? : GateUse → Option CommandInfo
  | .take => none
  | .suggest word => closest? word
  | .resolve invocation => closest? invocation.command

/-- The reply that needs no open gate. -/
def lateReply : GateUse → GateReply
  | .take => .taken false
  | .suggest _ => .suggested none
  | .resolve _ => .resolved none

end GateUse

def questionsIn (events : List Event) : List StyledText :=
  events.filterMap fun
    | .asked question _ => some question
    | _ => none

section

variable (place : Workspace) (world : World) {use : GateUse}

theorem resolve_closes_iff (invocation : Invocation) :
    (GateUse.resolve invocation).closes = true ↔
      ¬ 1 < invocation.arguments.length ∧ Command.isKnown invocation.command = false := by
  simp [GateUse.closes]

/-- A use that does not close the gate changes nothing at all. -/
theorem run_use_of_not_closes (h : use.closes = false) :
    ∃ outcome, use.act.run place world = (outcome, world) := by
  cases use with
  | take => cases h
  | suggest word => cases h
  | resolve invocation =>
    by_cases hlength : 1 < invocation.arguments.length
    · have hrun := run_resolve_of_surplus place world hlength
      exact ⟨_, Act.run_bind_of_failed _ _ hrun⟩
    · have hknown : Command.isKnown invocation.command = true := by
        cases hname : Command.isKnown invocation.command with
        | true => rfl
        | false =>
          rw [(resolve_closes_iff invocation).mpr ⟨hlength, hname⟩] at h
          cases h
      have hrun := run_resolve_of_isKnown place world hlength hknown
      cases hparse : Command.parse invocation.command invocation.arguments with
      | ok command =>
        rw [hparse] at hrun
        exact ⟨_, Act.run_bind_of_done _ _ hrun⟩
      | error cause =>
        rw [hparse] at hrun
        exact ⟨_, Act.run_bind_of_failed _ _ hrun⟩

/-- At a closed gate nobody is asked, and nothing is found. -/
theorem run_use_of_shut (h : use.closes = true) (hgate : world.gate = false) :
    ∃ after new, use.act.run place world = (.done use.lateReply, after) ∧ after.gate = false ∧
      after.events = world.events ++ new ∧ questionsIn new = [] := by
  cases use with
  | take =>
    have hrun : (GateUse.act .take).run place world =
        (.done (.taken world.gate), { world with gate := false }) := rfl
    rw [hgate] at hrun
    exact ⟨_, [], hrun, rfl, by simp, rfl⟩
  | suggest word =>
    have hrun := run_suggest_of_shut place world word hgate
    exact ⟨world, [], Act.run_bind_of_done _ _ hrun, hgate, by simp, rfl⟩
  | resolve invocation =>
    obtain ⟨hlength, hknown⟩ := (resolve_closes_iff invocation).mp h
    obtain ⟨after, hrun, hafter, -, hevents⟩ :=
      run_resolve_of_unoffered place world hlength hknown (by rw [hgate, if_neg Bool.false_ne_true])
    rw [hgate, List.append_assoc] at hevents
    exact ⟨after, _, Act.run_bind_of_done _ _ hrun, hafter, hevents, rfl⟩

/-- At an open gate a suggestion offers the candidate, if there is one. -/
theorem run_suggest_of_open (word : String) (hgate : world.gate = true) :
    ∃ outcome after new, (suggest word).run place world = (outcome, after) ∧ after.gate = false ∧
      after.events = world.events ++ new ∧ questionsIn new =
        (closest? word).toList.map fun info => .suggestion world.palette.color info.name := by
  obtain ⟨outcome, after, hrun, hadvice⟩ := advice_suggest place world word
  cases hadvice with
  | shut hshut =>
    rw [hgate] at hshut
    cases hshut
  | helpless _ hclosest => exact ⟨_, _, [emptyLine], hrun, rfl, rfl, by rw [hclosest]; rfl⟩
  | @unheard info failure _ hclosest hanswer =>
    refine ⟨_, _, _, hrun, rfl, world.offered_events info, ?_⟩
    rw [hclosest]
    rfl
  | @heard info text _ hclosest hanswer =>
    have hevents := world.replied_events info
    rw [world.offered_events, List.append_assoc] at hevents
    refine ⟨_, _, _, hrun, rfl, hevents, ?_⟩
    rw [hclosest]
    rfl

/-- At an open gate the resolution of an unknown name offers the candidate, if there is one. -/
theorem run_resolve_of_open {invocation : Invocation} (hlength : ¬ 1 < invocation.arguments.length)
    (hknown : Command.isKnown invocation.command = false) (hgate : world.gate = true) :
    ∃ outcome after new, (resolve invocation).run place world = (outcome, after) ∧
      after.gate = false ∧ after.events = world.events ++ new ∧ questionsIn new =
        (closest? invocation.command).toList.map fun info =>
          .suggestion (world.palette.after 7).color info.name := by
  cases hclosest : closest? invocation.command with
  | none =>
    obtain ⟨after, hrun, hafter, -, hevents⟩ :=
      run_resolve_of_unoffered place world hlength hknown (by rw [if_pos hgate, hclosest])
    rw [if_pos hgate, List.append_assoc] at hevents
    exact ⟨_, after, _, hrun, hafter, hevents, rfl⟩
  | some info =>
    obtain ⟨outcome, after, hrun, hafter, -, hevents, -⟩ :=
      run_resolve_of_offered place world hlength hknown hgate hclosest
    rw [List.append_assoc, List.append_assoc] at hevents
    refine ⟨outcome, after, _, hrun, hafter, hevents, ?_⟩
    cases world.answers.next.1 <;> rfl

/-- At an open gate the candidate is offered, if there is one. -/
theorem run_use_of_open (h : use.closes = true) (hgate : world.gate = true) :
    ∃ outcome after new color, use.act.run place world = (outcome, after) ∧ after.gate = false ∧
      after.events = world.events ++ new ∧
      questionsIn new = use.candidate?.toList.map fun info => .suggestion color info.name := by
  cases use with
  | take => exact ⟨_, _, [], .green, rfl, rfl, by simp, rfl⟩
  | suggest word =>
    obtain ⟨outcome, after, new, hrun, hafter, hevents, hquestions⟩ :=
      run_suggest_of_open place world word hgate
    rcases outcome with name | failure | _
    · exact ⟨_, after, new, _, Act.run_bind_of_done _ _ hrun, hafter, hevents, hquestions⟩
    · exact ⟨_, after, new, _, Act.run_bind_of_failed _ _ hrun, hafter, hevents, hquestions⟩
    · exact ⟨_, after, new, _, Act.run_bind_of_broken _ _ hrun, hafter, hevents, hquestions⟩
  | resolve invocation =>
    obtain ⟨hlength, hknown⟩ := (resolve_closes_iff invocation).mp h
    obtain ⟨outcome, after, new, hrun, hafter, hevents, hquestions⟩ :=
      run_resolve_of_open place world hlength hknown hgate
    rcases outcome with command | failure | _
    · exact ⟨_, after, new, _, Act.run_bind_of_done _ _ hrun, hafter, hevents, hquestions⟩
    · exact ⟨_, after, new, _, Act.run_bind_of_failed _ _ hrun, hafter, hevents, hquestions⟩
    · exact ⟨_, after, new, _, Act.run_bind_of_broken _ _ hrun, hafter, hevents, hquestions⟩

end

/-- A use of the gate, in a world in which all but the gate may be anything. -/
structure Turn where
  use : GateUse
  place : Workspace
  world : World

/-- What comes of a turn: its result, the questions asked in it, and the gate after it. -/
structure Played where
  result : Outcome GateReply
  questions : List StyledText
  gate : Bool

def Turn.play (turn : Turn) (gate : Bool) : Played :=
  let (result, after) := turn.use.act.run turn.place { turn.world with gate := gate }
  ⟨result, questionsIn (after.events.drop turn.world.events.length), after.gate⟩

def playAll (gate : Bool) : List Turn → List Played
  | [] => []
  | turn :: rest => turn.play gate :: playAll (turn.play gate).gate rest

namespace Turn

variable (turn : Turn)

theorem play_of_run {gate : Bool} {result : Outcome GateReply} {after : World} {new : List Event}
    (hrun : turn.use.act.run turn.place { turn.world with gate := gate } = (result, after))
    (hevents : after.events = turn.world.events ++ new) :
    turn.play gate = ⟨result, questionsIn new, after.gate⟩ := by
  rw [play, hrun]
  dsimp only
  rw [hevents, List.drop_left]

theorem play_of_not_closes (h : turn.use.closes = false) (gate : Bool) :
    (turn.play gate).questions = [] ∧ (turn.play gate).gate = gate := by
  obtain ⟨outcome, hrun⟩ :=
    run_use_of_not_closes turn.place { turn.world with gate := gate } h
  rw [turn.play_of_run hrun (List.append_nil _).symm]
  exact ⟨rfl, rfl⟩

theorem play_of_shut (h : turn.use.closes = true) :
    turn.play false = ⟨.done turn.use.lateReply, [], false⟩ := by
  obtain ⟨after, new, hrun, hgate, hevents, hquestions⟩ :=
    run_use_of_shut turn.place { turn.world with gate := false } h rfl
  rw [turn.play_of_run hrun hevents, hquestions, hgate]

theorem play_of_open (h : turn.use.closes = true) : (turn.play true).gate = false ∧
    ∃ color, (turn.play true).questions =
      turn.use.candidate?.toList.map fun info => .suggestion color info.name := by
  obtain ⟨outcome, after, new, color, hrun, hgate, hevents, hquestions⟩ :=
    run_use_of_open turn.place { turn.world with gate := true } h rfl
  rw [turn.play_of_run hrun hevents]
  exact ⟨hgate, color, hquestions⟩

/-- What a turn does to the gate depends on nothing else. -/
theorem play_gate (gate : Bool) : (turn.play gate).gate = (gate && !turn.use.closes) := by
  cases h : turn.use.closes with
  | false => rw [(turn.play_of_not_closes h gate).2, Bool.not_false, Bool.and_true]
  | true =>
    rw [Bool.not_true, Bool.and_false]
    cases gate with
    | false => rw [turn.play_of_shut h]
    | true => exact (turn.play_of_open h).1

/-- A closed gate stays closed and nobody is asked. -/
theorem questions_of_shut : (turn.play false).questions = [] := by
  cases h : turn.use.closes with
  | false => exact (turn.play_of_not_closes h false).1
  | true => rw [turn.play_of_shut h]

end Turn

theorem questions_playAll_of_shut (turns : List Turn) :
    (playAll false turns).flatMap (·.questions) = [] := by
  induction turns with
  | nil => rfl
  | cons turn rest ih =>
    rw [playAll, turn.play_gate, Bool.false_and, List.flatMap_cons, turn.questions_of_shut, ih]
    rfl

/-- All questions of an open gate come from the first turn that closes it. -/
theorem questions_playAll_of_open (turns : List Turn) : ∃ color,
    (playAll true turns).flatMap (·.questions) =
      ((turns.find? (·.use.closes)).bind (·.use.candidate?)).toList.map fun info =>
        .suggestion color info.name := by
  induction turns with
  | nil => exact ⟨.green, rfl⟩
  | cons turn rest ih =>
    cases h : turn.use.closes with
    | false =>
      obtain ⟨color, hrest⟩ := ih
      refine ⟨color, ?_⟩
      rw [playAll, turn.play_gate, h, List.flatMap_cons, (turn.play_of_not_closes h true).1,
        List.find?_cons_of_neg (by rw [h]; exact Bool.false_ne_true)]
      exact hrest
    | true =>
      obtain ⟨color, hquestions⟩ := (turn.play_of_open h).2
      have hfirst : (turn :: rest).find? (·.use.closes) = some turn := List.find?_cons_of_pos h
      refine ⟨color, ?_⟩
      rw [playAll, turn.play_gate, h, List.flatMap_cons, hquestions, Bool.not_true, Bool.and_false,
        questions_playAll_of_shut, hfirst, List.append_nil]
      rfl

/-- The turn after some others is played at a gate that is open unless one of them closes it. -/
theorem playAll_append (gate : Bool) (before after : List Turn) : playAll gate (before ++ after) =
    playAll gate before ++ playAll (gate && !before.any (·.use.closes)) after := by
  induction before generalizing gate with
  | nil => simp [playAll]
  | cons turn rest ih =>
    rw [List.cons_append, playAll, playAll, ih, turn.play_gate, List.any_cons, Bool.not_or,
      Bool.and_assoc, List.cons_append]

theorem length_playAll (gate : Bool) (turns : List Turn) :
    (playAll gate turns).length = turns.length := by
  induction turns generalizing gate with
  | nil => rfl
  | cons turn rest ih => rw [playAll, List.length_cons, ih, List.length_cons]

/-- In any sequence of turns at an open gate at most one question is asked: the offer of the first
turn that closes the gate, if it has a candidate. Every turn after that finds a closed gate, asks
nothing and gets its late reply. A known name, or too many words, leave the gate as it is. -/
theorem one_offer_per_gate (turns : List Turn) :
    let asked := (playAll true turns).flatMap (·.questions)
    asked.length ≤ 1 ∧
    (∃ color, asked = ((turns.find? (·.use.closes)).bind (·.use.candidate?)).toList.map fun info =>
      .suggestion color info.name) ∧
    ∀ before turn after, turns = before ++ turn :: after →
      let gate := !before.any (·.use.closes)
      (playAll true turns)[before.length]? = some (turn.play gate) ∧
      (turn.use.closes = false → (turn.play gate).questions = [] ∧ (turn.play gate).gate = gate) ∧
      (turn.use.closes = true → (turn.play gate).gate = false ∧
        (gate = false → (turn.play gate).questions = [] ∧
          (turn.play gate).result = .done turn.use.lateReply)) := by
  obtain ⟨color, hasked⟩ := questions_playAll_of_open turns
  refine ⟨?_, ⟨color, hasked⟩, ?_⟩
  · rw [hasked, List.length_map]
    cases (turns.find? (·.use.closes)).bind (·.use.candidate?) <;> simp
  · rintro before turn after rfl gate
    refine ⟨?_, fun h => turn.play_of_not_closes h gate, fun h => ⟨?_, fun hshut => ?_⟩⟩
    · rw [playAll_append, Bool.true_and, playAll,
        List.getElem?_append_right (Nat.le_of_eq (length_playAll ..)), length_playAll, Nat.sub_self]
      rfl
    · rw [turn.play_gate, h, Bool.not_true, Bool.and_false]
    · rw [hshut, turn.play_of_shut h]
      exact ⟨rfl, rfl⟩

end Conductor
