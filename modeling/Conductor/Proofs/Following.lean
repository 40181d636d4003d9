import Conductor.Files.Resolve
import Conductor.Proofs.Trees

/-!
# Where a path leads

`Follows` tells step by step how a path is followed to its end, and `follow_eq_ok_iff` that it is
followed like this. The end is what stands in the tree at the place that the way leads to
(`Follows.sound`). If the last name is kept, all before it is a way of its own
(`Follows.exists_before`).
-/

namespace Conductor.Files

/-- The way leads through entries of the tree, each in the directory before it. -/
def Trail.Sound (root : Node) : Trail → Prop
  | [] => True
  | (name, node) :: before =>
    Trail.Sound root before ∧
      ∃ entries, Trail.here root before = .directory entries ∧ List.lookup name entries = some node

namespace Trail

variable {root : Node} {trail : Trail}

theorem place_cons (name : String) (node : Node) (before : Trail) :
    place ((name, node) :: before) = before.place ++ [name] := by
  simp [place]

theorem Sound.tail (h : trail.Sound root) : Sound root trail.tail := by
  cases trail with
  | nil => exact h
  | cons entry before => exact h.1

/-- At the place of a way stands what it ends at. -/
theorem Sound.get?_place (h : trail.Sound root) :
    root.get? trail.place = some (trail.here root) := by
  induction trail with
  | nil => rfl
  | cons entry before ih =>
    obtain ⟨name, node⟩ := entry
    obtain ⟨hbefore, entries, hhere, hlookup⟩ := h
    rw [place_cons, Node.get?_append, ih hbefore, hhere, Option.bind_some, Node.get?_cons, hlookup]
    rfl

/-- A way back ends in a directory. -/
theorem Sound.here_tail (h : trail.Sound root) {entries : Entries}
    (hhere : trail.here root = .directory entries) :
    ∃ entries, here root trail.tail = .directory entries := by
  cases trail with
  | nil => exact ⟨entries, hhere⟩
  | cons entry before =>
    obtain ⟨-, above, habove, -⟩ := h
    exact ⟨above, habove⟩

end Trail

/-- Whether a name is that of an entry, and not one that stays or goes back. -/
def IsEntryName (name : String) : Prop :=
  name ≠ "." ∧ name ≠ ".."

instance : DecidablePred IsEntryName := fun name =>
  inferInstanceAs (Decidable (name ≠ "." ∧ name ≠ ".."))

/-- The steps lead from one way to another, through at most that many links. -/
inductive Follows (root : Node) (throughLast : Bool) : Nat → Trail → List String → Trail → Prop
  | done {links : Nat} {trail : Trail} : Follows root throughLast links trail [] trail
  | stay {links : Nat} {trail after : Trail} {rest : List String} {entries : Entries}
      (hhere : trail.here root = .directory entries)
      (h : Follows root throughLast links trail rest after) :
      Follows root throughLast links trail ("." :: rest) after
  | back {links : Nat} {trail after : Trail} {rest : List String} {entries : Entries}
      (hhere : trail.here root = .directory entries)
      (h : Follows root throughLast links trail.tail rest after) :
      Follows root throughLast links trail (".." :: rest) after
  | enter {links : Nat} {trail after : Trail} {name : String} {rest : List String}
      {entries : Entries} {node : Node} (hhere : trail.here root = .directory entries)
      (hname : IsEntryName name) (hsize : name.utf8ByteSize ≤ maxNameSize)
      (hlookup : List.lookup name entries = some node) (hnode : ∀ target, node ≠ .link target)
      (h : Follows root throughLast links ((name, node) :: trail) rest after) :
      Follows root throughLast links trail (name :: rest) after
  | keep {links : Nat} {trail : Trail} {name : String} {entries : Entries} {target : String}
      (hhere : trail.here root = .directory entries) (hname : IsEntryName name)
      (hsize : name.utf8ByteSize ≤ maxNameSize)
      (hlookup : List.lookup name entries = some (.link target)) (hlast : throughLast = false) :
      Follows root throughLast links trail [name] ((name, .link target) :: trail)
  | jump {links : Nat} {trail after : Trail} {name : String} {rest : List String}
      {entries : Entries} {target : String} (hhere : trail.here root = .directory entries)
      (hname : IsEntryName name) (hsize : name.utf8ByteSize ≤ maxNameSize)
      (hlookup : List.lookup name entries = some (.link target))
      (hgo : rest ≠ [] ∨ throughLast = true)
      (h : Follows root throughLast links (if Path.isAbsolute target then [] else trail)
        (Path.steps target ++ rest) after) :
      Follows root throughLast (links + 1) trail (name :: rest) after

section

variable {root : Node} {throughLast : Bool}

def jumpWith (root : Node) (throughLast : Bool) : Nat → Trail → List String →
    Except SystemError Trail
  | 0 => fun _ _ => .error .tooManyLinks
  | links + 1 => follow root throughLast links

theorem follow_eq_followSteps (links : Nat) :
    follow root throughLast links =
      followSteps root throughLast (jumpWith root throughLast links) := by
  cases links <;> rfl

section

variable {jump : Trail → List String → Except SystemError Trail} {trail : Trail} {entries : Entries}
  (hhere : trail.here root = .directory entries) {name : String} (rest : List String)

include hhere

theorem followSteps_stay : followSteps root throughLast jump trail ("." :: rest) =
    followSteps root throughLast jump trail rest := by
  rw [followSteps, hhere]
  rfl

theorem followSteps_back : followSteps root throughLast jump trail (".." :: rest) =
    followSteps root throughLast jump trail.tail rest := by
  rw [followSteps, hhere]
  rfl

theorem followSteps_entry (hname : IsEntryName name) (hsize : name.utf8ByteSize ≤ maxNameSize) :
    followSteps root throughLast jump trail (name :: rest) =
      match List.lookup name entries with
      | none => .error .notFound
      | some (.link target) =>
        if rest.isEmpty && !throughLast then .ok ((name, .link target) :: trail)
        else jump (if Path.isAbsolute target then [] else trail) (Path.steps target ++ rest)
      | some node => followSteps root throughLast jump ((name, node) :: trail) rest := by
  have hshort : ¬ maxNameSize < name.utf8ByteSize := by omega
  rw [followSteps, hhere]
  refine (if_neg hname.1).trans ((if_neg hname.2).trans ((if_neg hshort).trans ?_))
  rcases List.lookup name entries with _ | (_ | _ | _) <;> rfl

theorem followSteps_oversized (hname : IsEntryName name) (hsize : maxNameSize < name.utf8ByteSize) :
    followSteps root throughLast jump trail (name :: rest) = .error .nameTooLong := by
  rw [followSteps, hhere]
  dsimp only
  rw [if_neg hname.1, if_neg hname.2, if_pos hsize]

end

theorem followSteps_of_not_directory {jump : Trail → List String → Except SystemError Trail}
    {trail : Trail} (h : ∀ entries, trail.here root ≠ .directory entries) (step : String)
    (rest : List String) :
    followSteps root throughLast jump trail (step :: rest) = .error .notDirectory := by
  rw [followSteps]
  cases hhere : trail.here root with
  | directory entries => exact absurd hhere (h entries)
  | _ => rfl

theorem isEmpty_and_not_iff {rest : List String} :
    (rest.isEmpty && !throughLast) = false ↔ rest ≠ [] ∨ throughLast = true := by
  cases rest <;> cases throughLast <;> simp

theorem follows_of_followSteps {links : Nat} {trail after : Trail} {steps : List String}
    (hjump : ∀ trail steps after, jumpWith root throughLast links trail steps = .ok after →
      ∃ fewer, links = fewer + 1 ∧ Follows root throughLast fewer trail steps after)
    (h : followSteps root throughLast (jumpWith root throughLast links) trail steps = .ok after) :
    Follows root throughLast links trail steps after := by
  induction steps generalizing trail with
  | nil =>
    cases h
    exact .done
  | cons name rest ih =>
    by_cases hdir : ∃ entries, trail.here root = .directory entries
    · obtain ⟨entries, hhere⟩ := hdir
      by_cases hstay : name = "."
      · subst hstay
        rw [followSteps_stay hhere] at h
        exact .stay hhere (ih h)
      by_cases hback : name = ".."
      · subst hback
        rw [followSteps_back hhere] at h
        exact .back hhere (ih h)
      by_cases hsize : name.utf8ByteSize ≤ maxNameSize
      · have hname : IsEntryName name := ⟨hstay, hback⟩
        rw [followSteps_entry hhere rest hname hsize] at h
        split at h
        · cases h
        · rename_i target hlookup
          split at h
          · rename_i hkeep
            cases h
            obtain ⟨rfl, hlast⟩ : rest = [] ∧ throughLast = false := by simpa using hkeep
            exact .keep hhere hname hsize hlookup hlast
          · rename_i hgo
            obtain ⟨fewer, rfl, hfewer⟩ := hjump _ _ _ h
            rw [Bool.not_eq_true, isEmpty_and_not_iff] at hgo
            exact .jump hhere hname hsize hlookup hgo hfewer
        · rename_i node hnode hlookup
          exact .enter hhere hname hsize hlookup hnode (ih h)
      · rw [followSteps_oversized hhere rest ⟨hstay, hback⟩ (by omega)] at h
        cases h
    · rw [followSteps_of_not_directory (fun entries hhere => hdir ⟨entries, hhere⟩)] at h
      cases h

/-- A path is followed exactly as the steps say. -/
theorem follow_eq_ok_iff {links : Nat} {trail after : Trail} {steps : List String} :
    follow root throughLast links trail steps = .ok after ↔
      Follows root throughLast links trail steps after := by
  constructor
  · intro h
    induction links generalizing trail steps after with
    | zero =>
      rw [follow_eq_followSteps] at h
      refine follows_of_followSteps (fun _ _ _ h => ?_) h
      cases h
    | succ links ih =>
      rw [follow_eq_followSteps] at h
      exact follows_of_followSteps (fun _ _ _ h => ⟨links, rfl, ih h⟩) h
  · intro h
    induction h with
    | done =>
      rw [follow_eq_followSteps]
      rfl
    | stay hhere _ ih =>
      rw [follow_eq_followSteps] at ih ⊢
      rw [followSteps_stay hhere, ih]
    | back hhere _ ih =>
      rw [follow_eq_followSteps] at ih ⊢
      rw [followSteps_back hhere, ih]
    | enter hhere hname hsize hlookup hnode _ ih =>
      rw [follow_eq_followSteps] at ih ⊢
      rw [followSteps_entry hhere _ hname hsize, hlookup]
      split
      · rename_i heq
        cases heq
      · rename_i target heq
        cases heq
        exact absurd rfl (hnode target)
      · rename_i heq
        cases heq
        exact ih
    | keep hhere hname hsize hlookup hlast =>
      rw [follow_eq_followSteps, followSteps_entry hhere _ hname hsize, hlookup, hlast]
      rfl
    | jump hhere hname hsize hlookup hgo _ ih =>
      rw [follow_eq_followSteps, followSteps_entry hhere _ hname hsize, hlookup]
      dsimp only
      rw [isEmpty_and_not_iff.mpr hgo, if_neg Bool.false_ne_true]
      exact ih

namespace Follows

variable {links : Nat} {trail after : Trail} {steps : List String}

theorem sound (h : Follows root throughLast links trail steps after) (htrail : trail.Sound root) :
    after.Sound root := by
  induction h with
  | done => exact htrail
  | stay _ _ ih => exact ih htrail
  | back _ _ ih => exact ih htrail.tail
  | enter hhere _ _ hlookup _ _ ih => exact ih ⟨htrail, _, hhere, hlookup⟩
  | keep hhere _ _ hlookup _ => exact ⟨htrail, _, hhere, hlookup⟩
  | jump _ _ _ _ _ _ ih =>
    refine ih ?_
    split
    · trivial
    · exact htrail

/-- The last name, if it is kept, is that of an entry of the directory that all others lead to. -/
theorem exists_before {last : String} (hlast : IsEntryName last)
    (h : Follows root false links trail (steps ++ [last]) after) :
    ∃ before entries node, Follows root true links trail steps before ∧
      before.here root = .directory entries ∧ last.utf8ByteSize ≤ maxNameSize ∧
      List.lookup last entries = some node ∧ after = (last, node) :: before := by
  generalize hall : steps ++ [last] = all at h
  induction h generalizing steps with
  | done => simp at hall
  | stay hhere _ ih =>
    cases steps with
    | nil =>
      cases hall
      exact absurd rfl hlast.1
    | cons step steps =>
      cases hall
      obtain ⟨before, entries, node, hbefore, hrest⟩ := ih rfl
      exact ⟨before, entries, node, .stay hhere hbefore, hrest⟩
  | back hhere _ ih =>
    cases steps with
    | nil =>
      cases hall
      exact absurd rfl hlast.2
    | cons step steps =>
      cases hall
      obtain ⟨before, entries, node, hbefore, hrest⟩ := ih rfl
      exact ⟨before, entries, node, .back hhere hbefore, hrest⟩
  | enter hhere hname hsize hlookup hnode h ih =>
    cases steps with
    | nil =>
      cases hall
      cases h
      exact ⟨_, _, _, .done, hhere, hsize, hlookup, rfl⟩
    | cons step steps =>
      cases hall
      obtain ⟨before, entries, node, hbefore, hrest⟩ := ih rfl
      exact ⟨before, entries, node, .enter hhere hname hsize hlookup hnode hbefore, hrest⟩
  | keep hhere hname hsize hlookup _ =>
    cases steps with
    | nil =>
      cases hall
      exact ⟨_, _, _, .done, hhere, hsize, hlookup, rfl⟩
    | cons step steps => simp at hall
  | jump hhere hname hsize hlookup hgo _ ih =>
    cases steps with
    | nil =>
      cases hall
      rcases hgo with h | h
      · exact absurd rfl h
      · cases h
    | cons step steps =>
      cases hall
      obtain ⟨before, entries, node, hbefore, hrest⟩ := ih (List.append_assoc ..)
      exact ⟨before, entries, node,
        .jump hhere hname hsize hlookup (.inr rfl) hbefore, hrest⟩

/-- Whether links are kept at the end does not matter unless there is one. -/
theorem through (h : Follows root false links trail steps after)
    (hend : ∀ target, after.here root ≠ .link target) :
    Follows root true links trail steps after := by
  induction h with
  | done => exact .done
  | stay hhere _ ih => exact .stay hhere (ih hend)
  | back hhere _ ih => exact .back hhere (ih hend)
  | enter hhere hname hsize hlookup hnode _ ih =>
    exact .enter hhere hname hsize hlookup hnode (ih hend)
  | keep => exact absurd rfl (hend _)
  | jump hhere hname hsize hlookup _ _ ih =>
    exact .jump hhere hname hsize hlookup (.inr rfl) (ih hend)

/-- A way through a link at its end can stop at that link. -/
theorem exists_kept (h : Follows root true links trail steps after) :
    ∃ kept, Follows root false links trail steps kept ∧
      (kept = after ∨ ∃ target, kept.here root = .link target) := by
  generalize hthrough : true = throughLast at h
  induction h with
  | done => exact ⟨_, .done, .inl rfl⟩
  | stay hhere _ ih =>
    obtain ⟨kept, hkept, hend⟩ := ih
    exact ⟨kept, .stay hhere hkept, hend⟩
  | back hhere _ ih =>
    obtain ⟨kept, hkept, hend⟩ := ih
    exact ⟨kept, .back hhere hkept, hend⟩
  | enter hhere hname hsize hlookup hnode _ ih =>
    obtain ⟨kept, hkept, hend⟩ := ih
    exact ⟨kept, .enter hhere hname hsize hlookup hnode hkept, hend⟩
  | keep _ _ _ _ hlast =>
    rw [← hthrough] at hlast
    cases hlast
  | @jump _ _ _ _ rest _ target hhere hname hsize hlookup _ _ ih =>
    by_cases hrest : rest = []
    · subst hrest
      exact ⟨_, .keep hhere hname hsize hlookup rfl, .inr ⟨target, rfl⟩⟩
    · obtain ⟨kept, hkept, hend⟩ := ih
      exact ⟨kept, .jump hhere hname hsize hlookup (.inl hrest) hkept, hend⟩

/-- A last step that enters nothing ends in a directory. -/
theorem here_of_getLast? {last : String} (h : Follows root throughLast links trail steps after)
    (htrail : trail.Sound root) (hlast : steps.getLast? = some last) (hname : ¬ IsEntryName last) :
    ∃ entries, after.here root = .directory entries := by
  induction h with
  | done => cases hlast
  | @stay _ trail after rest entries hhere h ih =>
    cases rest with
    | nil =>
      cases h
      exact ⟨entries, hhere⟩
    | cons step rest => exact ih htrail (by rwa [List.getLast?_cons_cons] at hlast)
  | @back _ trail after rest entries hhere h ih =>
    cases rest with
    | nil =>
      cases h
      exact htrail.here_tail hhere
    | cons step rest => exact ih htrail.tail (by rwa [List.getLast?_cons_cons] at hlast)
  | @enter _ trail after name rest entries node hhere hentry _ hlookup _ h ih =>
    cases rest with
    | nil =>
      cases hlast
      exact absurd hentry hname
    | cons step rest =>
      exact ih ⟨htrail, entries, hhere, hlookup⟩ (by rwa [List.getLast?_cons_cons] at hlast)
  | keep _ hentry =>
    cases hlast
    exact absurd hentry hname
  | @jump _ trail after name rest entries target hhere hentry _ _ _ h ih =>
    cases rest with
    | nil =>
      cases hlast
      exact absurd hentry hname
    | cons step rest =>
      rw [List.getLast?_cons_cons] at hlast
      refine ih ?_ ?_
      · split
        · trivial
        · exact htrail
      · rw [List.getLast?_append, hlast]
        rfl

end Follows

end

end Conductor.Files
