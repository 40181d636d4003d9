import Conductor.Proofs.Naming
import Conductor.Proofs.Removing

/-!
# Where a path leads by the way it is spelled

Names that stay in place can be left out (`Follows.leaveOut`), and a way along some steps and then
others comes by the place that the first ones lead to (`Follows.exists_middle`). So a path that
is spelled as another one with the names of a place behind it leads to this place, unless there is
a link (`place_of_components`).
-/

namespace Conductor.Files

namespace Follows

variable {root : Node} {links : Nat} {trail after : Trail} {steps rest : List String}

/-- Names that stay in place can be left out of the last steps. -/
theorem leaveOut (h : Follows root true links trail (steps ++ rest) after) :
    Follows root true links trail (steps ++ rest.filter (· ≠ ".")) after := by
  generalize hall : steps ++ rest = all at h
  induction h generalizing steps rest with
  | done =>
    obtain ⟨rfl, rfl⟩ := List.append_eq_nil_iff.mp hall
    exact .done
  | stay hhere _ ih =>
    cases steps with
    | nil =>
      cases hall
      rw [List.nil_append, List.filter_cons_of_neg (by simp)]
      exact @ih [] _ rfl
    | cons step steps =>
      cases hall
      exact .stay hhere (ih rfl)
  | back hhere _ ih =>
    cases steps with
    | nil =>
      cases hall
      exact .back hhere (@ih [] _ rfl)
    | cons step steps =>
      cases hall
      exact .back hhere (ih rfl)
  | enter hhere hname hsize hlookup hnode _ ih =>
    cases steps with
    | nil =>
      cases hall
      rw [List.nil_append, List.filter_cons_of_pos (by simpa using hname.1)]
      exact .enter hhere hname hsize hlookup hnode (@ih [] _ rfl)
    | cons step steps =>
      cases hall
      exact .enter hhere hname hsize hlookup hnode (ih rfl)
  | keep _ _ _ _ hlast => cases hlast
  | jump hhere hname hsize hlookup _ _ ih =>
    cases steps with
    | nil =>
      cases hall
      rw [List.nil_append, List.filter_cons_of_pos (by simpa using hname.1)]
      exact .jump hhere hname hsize hlookup (.inr rfl) (ih rfl)
    | cons step steps =>
      cases hall
      have hrest := ih (List.append_assoc ..)
      rw [List.append_assoc] at hrest
      exact .jump hhere hname hsize hlookup (.inr rfl) hrest

/-- The way comes by the place that its first steps lead to. -/
theorem exists_middle (h : Follows root true links trail (steps ++ rest) after) :
    ∃ middle fewer, Follows root true links trail steps middle ∧
      Follows root true fewer middle rest after := by
  generalize hall : steps ++ rest = all at h
  induction h generalizing steps with
  | done =>
    obtain ⟨rfl, rfl⟩ := List.append_eq_nil_iff.mp hall
    exact ⟨_, _, .done, @Follows.done root true links _⟩
  | @stay links trail _ _ _ hhere h ih =>
    cases steps with
    | nil =>
      cases hall
      exact ⟨trail, links, .done, .stay hhere h⟩
    | cons step steps =>
      cases hall
      obtain ⟨middle, fewer, hfirst, hlast⟩ := ih rfl
      exact ⟨middle, fewer, .stay hhere hfirst, hlast⟩
  | @back links trail _ _ _ hhere h ih =>
    cases steps with
    | nil =>
      cases hall
      exact ⟨trail, links, .done, .back hhere h⟩
    | cons step steps =>
      cases hall
      obtain ⟨middle, fewer, hfirst, hlast⟩ := ih rfl
      exact ⟨middle, fewer, .back hhere hfirst, hlast⟩
  | @enter links trail _ _ _ _ _ hhere hname hsize hlookup hnode h ih =>
    cases steps with
    | nil =>
      cases hall
      exact ⟨trail, links, .done, .enter hhere hname hsize hlookup hnode h⟩
    | cons step steps =>
      cases hall
      obtain ⟨middle, fewer, hfirst, hlast⟩ := ih rfl
      exact ⟨middle, fewer, .enter hhere hname hsize hlookup hnode hfirst, hlast⟩
  | keep _ _ _ _ hlast => cases hlast
  | @jump links trail _ _ _ _ _ hhere hname hsize hlookup hgo h ih =>
    cases steps with
    | nil =>
      cases hall
      exact ⟨trail, links + 1, .done, .jump hhere hname hsize hlookup hgo h⟩
    | cons step steps =>
      cases hall
      obtain ⟨middle, fewer, hfirst, hlast⟩ := ih (List.append_assoc ..)
      exact ⟨middle, fewer, .jump hhere hname hsize hlookup (.inr rfl) hfirst, hlast⟩

theorem unique {throughLast : Bool} {other : Trail}
    (h : Follows root throughLast links trail steps after)
    (hother : Follows root throughLast links trail steps other) : after = other := by
  have hsame := follow_eq_ok_iff.mpr hother
  rw [follow_eq_ok_iff.mpr h] at hsame
  exact Except.ok.inj hsame

/-- Along the names of a place a way leads to this place, unless there is a link. -/
theorem place_eq_of_get? {place : Place} {node : Node}
    (h : Follows root true links trail place after)
    (hget : (trail.here root).get? place = some node) (hnode : ∀ target, node ≠ .link target)
    (hnames : ∀ name ∈ place, IsEntryName name) : after.place = trail.place ++ place := by
  induction h with
  | done => exact (List.append_nil _).symm
  | stay => exact absurd rfl (hnames _ (List.mem_cons_self ..)).1
  | back => exact absurd rfl (hnames _ (List.mem_cons_self ..)).2
  | enter hhere _ _ hlookup _ _ ih =>
    rw [hhere, Node.get?_cons, hlookup] at hget
    rw [ih hget (List.forall_mem_cons.mp hnames).2, Trail.place_cons]
    exact List.append_assoc ..
  | keep _ _ _ _ hlast => cases hlast
  | @jump _ _ _ _ rest _ target hhere _ _ hlookup _ _ _ =>
    rw [hhere, Node.get?_cons, hlookup] at hget
    cases rest with
    | nil =>
      cases hget
      exact absurd rfl (hnode target)
    | cons => cases hget

end Follows

/-- The names of a path that do not stay in place. -/
def movingNames (path : String) : List String :=
  (Path.names path).filter (· ≠ ".")

theorem filter_steps (path : String) : (Path.steps path).filter (· ≠ ".") = movingNames path := by
  rw [Path.steps, movingNames]
  split <;> simp

variable {root : Node} {base path : String}

theorem follows_movingNames {trail : Trail} (h : trailTo root path = .ok trail) :
    Follows root true maxLinks [] (movingNames path) trail := by
  rw [← filter_steps]
  exact @Follows.leaveOut root maxLinks [] trail [] _ (trailTo_eq_ok_iff.mp h).2

theorem components_of_isAbsolute (h : Path.isAbsolute path = true) :
    Path.components path = "/" :: movingNames path := by
  simp [Path.components, h, movingNames]

theorem movingNames_of_components {place : Place} (hbase : base ≠ "")
    (habsolute : Path.isAbsolute base = true)
    (h : Path.components (Path.join base path) = Path.components base ++ place) :
    movingNames (Path.join base path) = movingNames base ++ place := by
  have hjoin : Path.isAbsolute (Path.join base path) = true := by
    cases hpath : Path.isAbsolute path with
    | true => rwa [Path.join, if_pos hpath]
    | false => rw [Path.isAbsolute_join hbase hpath, habsolute]
  rw [components_of_isAbsolute hjoin, components_of_isAbsolute habsolute, List.cons_append] at h
  exact List.tail_eq_of_cons_eq h

/-- A path that is spelled as the base with the names of a place behind it leads from where the base
leads to this place, unless there is a link. -/
theorem place_of_components {trail after : Trail} {place : Place} {node : Node}
    (hbase : trailTo root base = .ok trail)
    (hpath : trailTo root (Path.join base path) = .ok after)
    (habsolute : Path.isAbsolute base = true)
    (h : Path.components (Path.join base path) = Path.components base ++ place)
    (hget : (trail.here root).get? place = some node) (hnode : ∀ target, node ≠ .link target)
    (hnames : ∀ name ∈ place, IsEntryName name) : after.place = trail.place ++ place := by
  have hempty : base ≠ "" := by
    rintro rfl
    cases hbase
  have hall := follows_movingNames hpath
  rw [movingNames_of_components hempty habsolute h] at hall
  obtain ⟨middle, fewer, hmiddle, hrest⟩ := hall.exists_middle
  obtain rfl := hmiddle.unique (follows_movingNames hbase)
  exact hrest.place_eq_of_get? hget hnode hnames

end Conductor.Files
