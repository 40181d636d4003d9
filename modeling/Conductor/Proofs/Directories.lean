import Conductor.Proofs.Removing

/-!
# When a directory can be made

A directory is made where a path leads if the place is vacant. If it is taken, or if it cannot be
reached, nothing is made. Where a path leads is told by `Follows` for all names but the last, which
is looked up in the directory that they lead to.
-/

namespace Conductor.Files

/-- The last name of the path, if it is that of an entry. -/
def Path.lastEntry (path : String) : Option String :=
  (Path.names path).getLast?.filter fun name => IsEntryName name

/-- The system takes the path, and all names but the last lead to a directory. -/
structure LeadsInto (root : Node) (path : String) (above : Place) (entries : Entries) : Prop where
  noNul : '\x00' ∉ path.toList
  ne_empty : path ≠ ""
  size_lt : path.utf8ByteSize < pathSizeLimit
  follows : ∃ before, Follows root true maxLinks [] (Path.names path).dropLast before ∧
    before.place = above ∧ before.here root = .directory entries

/-- A directory can be made where the path leads: what it leads into exists, and its last name is
free there and not too long. -/
structure IsVacant (root : Node) (path : String) (above : Place) (name : String) : Prop where
  lastEntry : Path.lastEntry path = some name
  size_le : name.utf8ByteSize ≤ maxNameSize
  free : ∃ entries, LeadsInto root path above entries ∧ List.lookup name entries = none

/-- Something stands where the path leads: an entry of its last name, or the directory itself that
it leads into if it has no such name. -/
def IsTaken (root : Node) (path : String) : Prop :=
  ∃ above entries, LeadsInto root path above entries ∧ ∀ name, Path.lastEntry path = some name →
    name.utf8ByteSize ≤ maxNameSize ∧ (List.lookup name entries).isSome

variable {root : Node} {path : String}

theorem checkPath_eq_ok_iff : checkPath path = .ok () ↔
    '\x00' ∉ path.toList ∧ path ≠ "" ∧ path.utf8ByteSize < pathSizeLimit := by
  unfold checkPath
  split
  · simp_all
  split
  · simp_all
  split
  · simp_all
  · simp_all

theorem checkPath_ne_alreadyExists : checkPath path ≠ .error .alreadyExists := by
  unfold checkPath
  split
  · simp
  split
  · simp
  split <;> simp

theorem followSteps_ne_alreadyExists {throughLast : Bool}
    {jump : Trail → List String → Except SystemError Trail}
    (hjump : ∀ trail steps, jump trail steps ≠ .error .alreadyExists) (trail : Trail)
    (steps : List String) :
    followSteps root throughLast jump trail steps ≠ .error .alreadyExists := by
  induction steps generalizing trail with
  | nil => simp [followSteps]
  | cons step rest ih =>
    by_cases hdir : ∃ entries, trail.here root = .directory entries
    · obtain ⟨entries, hhere⟩ := hdir
      by_cases hstay : step = "."
      · subst hstay
        rw [followSteps_stay hhere]
        exact ih trail
      by_cases hback : step = ".."
      · subst hback
        rw [followSteps_back hhere]
        exact ih trail.tail
      by_cases hsize : step.utf8ByteSize ≤ maxNameSize
      · rw [followSteps_entry hhere rest ⟨hstay, hback⟩ hsize]
        split
        · simp
        · split
          · simp
          · exact hjump _ _
        · exact ih _
      · rw [followSteps_oversized hhere rest ⟨hstay, hback⟩ (by omega)]
        simp
    · rw [followSteps_of_not_directory fun entries hhere => hdir ⟨entries, hhere⟩]
      simp

theorem follow_ne_alreadyExists {throughLast : Bool} (links : Nat) (trail : Trail)
    (steps : List String) : follow root throughLast links trail steps ≠ .error .alreadyExists := by
  induction links generalizing trail steps with
  | zero => exact followSteps_ne_alreadyExists (fun _ _ => by simp) trail steps
  | succ links ih => exact followSteps_ne_alreadyExists ih trail steps

theorem lastEntry_of_getLast? {name : String} (h : (Path.names path).getLast? = some name) :
    Path.lastEntry path = if name = "." || name = ".." then none else some name := by
  rw [Path.lastEntry, h]
  by_cases hstay : name = "."
  · subst hstay
    rfl
  by_cases hback : name = ".."
  · subst hback
    rfl
  simp [IsEntryName, hstay, hback]

/-- The parent is found, with the last name if it is that of an entry, or it is missing for a reason
other than that something is there. -/
theorem locateParent_cases (root : Node) (path : String) :
    (∃ above entries, LeadsInto root path above entries ∧
      locateParent root path = .ok (above, Path.lastEntry path)) ∨
    (∀ above entries, ¬ LeadsInto root path above entries) ∧
      ∃ error, error ≠ .alreadyExists ∧ locateParent root path = .error error := by
  have hleads (above : Place) (entries : Entries) : LeadsInto root path above entries ↔
      checkPath path = .ok () ∧
        ∃ before, follow root true maxLinks [] (Path.names path).dropLast = .ok before ∧
          before.place = above ∧ before.here root = .directory entries := by
    simp only [follow_eq_ok_iff, checkPath_eq_ok_iff]
    exact ⟨fun h => ⟨⟨h.noNul, h.ne_empty, h.size_lt⟩, h.follows⟩,
      fun ⟨⟨hnul, hempty, hsize⟩, hfollows⟩ => ⟨hnul, hempty, hsize, hfollows⟩⟩
  simp only [hleads]
  rw [locateParent]
  cases hcheck : checkPath path with
  | error error =>
    refine .inr ⟨by simp, error, ?_, rfl⟩
    rintro rfl
    exact checkPath_ne_alreadyExists hcheck
  | ok done =>
    cases hfollow : follow root true maxLinks [] (Path.names path).dropLast with
    | error error =>
      refine .inr ⟨by simp, error, ?_, by simp only [bind, Except.bind, hfollow]⟩
      rintro rfl
      exact follow_ne_alreadyExists _ _ _ hfollow
    | ok before =>
      cases hhere : before.here root with
      | directory entries =>
        refine .inl ⟨before.place, entries, ⟨rfl, before, rfl, rfl, hhere⟩, ?_⟩
        simp only [bind, Except.bind, hfollow, hhere]
        cases hlast : (Path.names path).getLast? with
        | none =>
          rw [Path.lastEntry, hlast]
          rfl
        | some name =>
          rw [lastEntry_of_getLast? hlast]
          rfl
      | file content =>
        refine .inr ⟨by simp [hhere], .notDirectory, by decide, ?_⟩
        simp only [bind, Except.bind, hfollow, hhere]
        rfl
      | link target =>
        refine .inr ⟨by simp [hhere], .notDirectory, by decide, ?_⟩
        simp only [bind, Except.bind, hfollow, hhere]
        rfl

theorem LeadsInto.get? {above : Place} {entries : Entries}
    (h : LeadsInto root path above entries) : root.get? above = some (.directory entries) := by
  obtain ⟨before, hbefore, rfl, hhere⟩ := h.follows
  rw [(hbefore.sound trivial).get?_place, hhere]

theorem LeadsInto.unique {above other : Place} {entries more : Entries}
    (h : LeadsInto root path above entries) (h' : LeadsInto root path other more) :
    above = other ∧ entries = more := by
  obtain ⟨before, hbefore, rfl, hhere⟩ := h.follows
  obtain ⟨after, hafter, rfl, hthere⟩ := h'.follows
  have hsame : before = after := by
    rw [← follow_eq_ok_iff] at hbefore hafter
    exact Except.ok.inj (hbefore.symm.trans hafter)
  subst hsame
  exact ⟨rfl, Node.directory.inj (hhere.symm.trans hthere)⟩

/-- In the directory that a path leads into an empty directory is made if that is possible. -/
theorem makeDirectory_of_leadsInto {above : Place} {entries : Entries}
    (h : LeadsInto root path above entries) :
    makeDirectory root path =
      match Path.lastEntry path with
      | none => .error .alreadyExists
      | some name =>
        if maxNameSize < name.utf8ByteSize then .error .nameTooLong
        else if (List.lookup name entries).isSome then .error .alreadyExists
        else .ok (root.put above name (.directory [])) := by
  rcases locateParent_cases root path with ⟨other, more, hother, hparent⟩ | ⟨hnone, -⟩
  · obtain ⟨rfl, rfl⟩ := h.unique hother
    rw [makeDirectory, hparent]
    simp only [bind, Except.bind]
    cases Path.lastEntry path with
    | none => rfl
    | some name =>
      have hget : root.get? (above ++ [name]) = List.lookup name entries := by
        rw [Node.get?_append, h.get?, Option.bind_some, Node.get?_cons]
        cases List.lookup name entries <;> rfl
      dsimp only
      rw [hget]
      rfl
  · exact absurd h (hnone above entries)

theorem makeDirectory_of_isVacant {above : Place} {name : String}
    (h : IsVacant root path above name) :
    makeDirectory root path = .ok (root.put above name (.directory [])) := by
  obtain ⟨entries, hleads, hfree⟩ := h.free
  have hsize : ¬ maxNameSize < name.utf8ByteSize := Nat.not_lt.mpr h.size_le
  rw [makeDirectory_of_leadsInto hleads, h.lastEntry]
  dsimp only
  rw [if_neg hsize, hfree]
  rfl

theorem makeDirectory_of_isTaken (h : IsTaken root path) :
    makeDirectory root path = .error .alreadyExists := by
  obtain ⟨above, entries, hleads, htaken⟩ := h
  rw [makeDirectory_of_leadsInto hleads]
  cases hlast : Path.lastEntry path with
  | none => rfl
  | some name =>
    obtain ⟨hsize, hsome⟩ := htaken name hlast
    dsimp only
    rw [if_neg (by omega), if_pos hsome]

/-- Where nothing stands and nothing can be made, something is in the way of it. -/
theorem makeDirectory_of_neither (hvacant : ∀ above name, ¬ IsVacant root path above name)
    (htaken : ¬ IsTaken root path) :
    ∃ error, error ≠ .alreadyExists ∧ makeDirectory root path = .error error := by
  rcases locateParent_cases root path with ⟨above, entries, hleads, -⟩ | ⟨-, error, hne, hparent⟩
  · cases hlast : Path.lastEntry path with
    | none =>
      refine absurd ⟨above, entries, hleads, fun name hname => ?_⟩ htaken
      rw [hlast] at hname
      cases hname
    | some name =>
      have hlong : maxNameSize < name.utf8ByteSize := by
        by_contra hshort
        have hsize : name.utf8ByteSize ≤ maxNameSize := by omega
        cases hlookup : List.lookup name entries with
        | none => exact hvacant above name ⟨hlast, hsize, entries, hleads, hlookup⟩
        | some node =>
          refine htaken ⟨above, entries, hleads, fun other hother => ?_⟩
          obtain rfl : name = other := Option.some.inj (hlast.symm.trans hother)
          exact ⟨hsize, by rw [hlookup]; rfl⟩
      refine ⟨.nameTooLong, by decide, ?_⟩
      rw [makeDirectory_of_leadsInto hleads, hlast]
      dsimp only
      rw [if_pos hlong]
  · refine ⟨error, hne, ?_⟩
    rw [makeDirectory, hparent]
    rfl

end Conductor.Files
