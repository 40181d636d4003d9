import Conductor.Proofs.Acts

/-!
# Two runs side by side

Two acts that are done in two workspaces go alike if, from related worlds on, they end alike and
leave related worlds. Acts that are put together from such acts go alike as well, so that for each
relation only the single acts have to be looked at.
-/

namespace Conductor.Act

variable {α β : Type}

/-- From related worlds on the two acts end alike, and the worlds after them are related. -/
def GoAlike (R : World → World → Prop) (place place' : Workspace) (act act' : Act α) : Prop :=
  ∀ a b, R a b →
    (act.run place a).1 = (act'.run place' b).1 ∧ R (act.run place a).2 (act'.run place' b).2

variable {R : World → World → Prop} {place place' : Workspace}

theorem goAlike_pure (value : α) : GoAlike R place place' (pure value) (pure value) :=
  fun _ _ h => ⟨rfl, h⟩

theorem goAlike_fail (failure : Failure) :
    GoAlike R place place' (fail failure : Act α) (fail failure) :=
  fun _ _ h => ⟨rfl, h⟩

theorem GoAlike.bind {act act' : Act α} {next next' : α → Act β}
    (h : GoAlike R place place' act act')
    (hnext : ∀ value, GoAlike R place place' (next value) (next' value)) :
    GoAlike R place place' (act >>= next) (act' >>= next') := by
  intro a b hab
  obtain ⟨houtcome, hafter⟩ := h a b hab
  rw [run_bind, run_bind]
  rcases hrun : act.run place a with ⟨value | failure | _, after⟩ <;>
    rcases hrun' : act'.run place' b with ⟨value' | failure' | _, after'⟩ <;>
    rw [hrun, hrun'] at houtcome hafter <;> cases houtcome
  -- unlike outcomes are excluded, so the second acts start from equal values
  · exact hnext value after after' hafter
  · exact ⟨rfl, hafter⟩
  · exact ⟨rfl, hafter⟩

theorem GoAlike.attempt {act act' : Act α} (h : GoAlike R place place' act act') :
    GoAlike R place place' act.attempt act'.attempt := by
  intro a b hab
  obtain ⟨houtcome, hafter⟩ := h a b hab
  rw [run_attempt, run_attempt, houtcome]
  exact ⟨rfl, hafter⟩

/-- The workspaces need not be the same if what follows goes alike in spite of that. -/
theorem GoAlike.workspace_bind {next next' : Workspace → Act β}
    (h : GoAlike R place place' (next place) (next' place')) :
    GoAlike R place place' (workspace >>= next) (workspace >>= next') :=
  h

/-- The worlds need not be the same if what follows goes alike for related ones. -/
theorem GoAlike.world_bind {next next' : World → Act β}
    (h : ∀ a b, R a b → GoAlike R place place' (next a) (next' b)) :
    GoAlike R place place' (Act.world >>= next) (Act.world >>= next') :=
  fun a b hab => h a b hab a b hab

end Conductor.Act
