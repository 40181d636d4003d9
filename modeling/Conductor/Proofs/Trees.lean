import Conductor.Files.Tree

/-!
# What a change of a tree changes

What stands at a place after a change is what stood there before, unless the change was made at the
place or above it (`Node.bareAt_modify`). The removal of an entry takes away all that is at or below
its place, and emptying a directory all that is below it. An empty directory that is put where
nothing was is the only thing that is new.
-/

namespace Conductor.Files

namespace Node

/-- What stands at the root of a tree, without what is below it. -/
def bare : Node → Node
  | .directory _ => .directory []
  | node => node

def bareAt (node : Node) (place : Place) : Option Node :=
  (node.get? place).map bare

theorem get?_cons (entries : Entries) (name : String) (rest : Place) :
    (directory entries).get? (name :: rest) =
      (List.lookup name entries).bind (·.get? rest) := by
  rw [get?]
  cases List.lookup name entries <;> rfl

theorem get?_append (node : Node) (place rest : Place) :
    node.get? (place ++ rest) = (node.get? place).bind (·.get? rest) := by
  induction place generalizing node with
  | nil => rfl
  | cons name below ih =>
    cases node with
    | file content => rfl
    | link target => rfl
    | directory entries =>
      rw [List.cons_append, get?_cons, get?_cons]
      cases List.lookup name entries with
      | none => rfl
      | some node => exact ih node

/-- Above what stands somewhere there are only directories. -/
theorem isDirectory_of_get? {node : Node} {place : Place} {name : String} {rest : Place}
    (h : (node.get? (place ++ name :: rest)).isSome) :
    ∃ entries, node.get? place = some (.directory entries) := by
  rw [get?_append] at h
  cases hhere : node.get? place with
  | none =>
    rw [hhere] at h
    cases h
  | some here =>
    rw [hhere] at h
    cases here with
    | file content => cases h
    | link target => cases h
    | directory entries => exact ⟨entries, rfl⟩

theorem lookup_cons_eq (name key : String) (node : Node) (rest : Entries) :
    List.lookup name ((key, node) :: rest) =
      if name = key then some node else List.lookup name rest := by
  by_cases h : name = key
  · subst h
    rw [List.lookup_cons_self, if_pos rfl]
  · rw [if_neg h, List.lookup_cons, beq_false_of_ne h]

theorem lookup_map (change : Node → Node) (key name : String) (entries : Entries) :
    List.lookup name (entries.map fun entry =>
        if entry.1 = key then (entry.1, change entry.2) else entry) =
      if name = key then (List.lookup name entries).map change else List.lookup name entries := by
  induction entries with
  | nil => split <;> rfl
  | cons entry rest ih =>
    obtain ⟨here, node⟩ := entry
    rw [List.map_cons, lookup_cons_eq]
    by_cases hkey : here = key
    · rw [if_pos hkey, lookup_cons_eq, ih]
      by_cases hname : name = here
      · rw [if_pos hname, if_pos (hname.trans hkey), if_pos hname]
        rfl
      · rw [if_neg hname, if_neg hname]
    · rw [if_neg hkey, lookup_cons_eq, ih]
      by_cases hname : name = here
      · rw [if_pos hname, if_pos hname, if_neg (fun h => hkey (hname.symm.trans h))]
      · rw [if_neg hname, if_neg hname]

theorem lookup_remove (key name : String) (entries : Entries) :
    List.lookup name (entries.remove key) =
      if name = key then none else List.lookup name entries := by
  induction entries with
  | nil => split <;> rfl
  | cons entry rest ih =>
    obtain ⟨here, node⟩ := entry
    rw [Entries.remove] at ih ⊢
    by_cases hkey : here = key
    · rw [List.filter_cons_of_neg (by simpa using hkey), ih, lookup_cons_eq]
      by_cases hname : name = key
      · rw [if_pos hname, if_pos hname]
      · rw [if_neg hname, if_neg hname, if_neg (fun h => hname (h.trans hkey))]
    · rw [List.filter_cons_of_pos (by simpa using hkey), lookup_cons_eq, ih, lookup_cons_eq]
      by_cases hname : name = here
      · rw [if_pos hname, if_pos hname, if_neg (fun h => hkey (hname.symm.trans h))]
      · rw [if_neg hname, if_neg hname]

/-- The change is made at the place. -/
theorem get?_modify (change : Node → Node) (node : Node) (place rest : Place) :
    (node.modify change place).get? (place ++ rest) =
      (node.get? place).bind fun here => (change here).get? rest := by
  induction place generalizing node with
  | nil => rfl
  | cons name below ih =>
    cases node with
    | file content => rfl
    | link target => rfl
    | directory entries =>
      rw [modify, List.cons_append, get?_cons, get?_cons, lookup_map (modify change · below),
        if_pos rfl]
      cases List.lookup name entries with
      | none => rfl
      | some node => exact ih node

/-- Nothing else is changed, but for what is below the places on the way. -/
theorem bareAt_modify (change : Node → Node) (node : Node) {place other : Place}
    (h : ¬ place <+: other) : (node.modify change place).bareAt other = node.bareAt other := by
  induction place generalizing node other with
  | nil => exact absurd List.nil_prefix h
  | cons name below ih =>
    cases node with
    | file content => rfl
    | link target => rfl
    | directory entries =>
      cases other with
      | nil => rfl
      | cons step rest =>
        rw [modify, bareAt, bareAt, get?_cons, get?_cons, lookup_map (modify change · below)]
        by_cases hstep : step = name
        · subst hstep
          rw [if_pos rfl]
          cases List.lookup step entries with
          | none => rfl
          | some node => exact ih node (fun hbelow => h (List.cons_prefix_cons.mpr ⟨rfl, hbelow⟩))
        · rw [if_neg hstep]

variable {root : Node} {place : Place} {name : String} {entries : Entries}

theorem get?_remove (hplace : root.get? place = some (.directory entries)) (rest : Place) :
    (root.remove place name).get? (place ++ rest) =
      (directory (entries.remove name)).get? rest := by
  rw [remove, get?_modify, hplace]
  rfl

/-- Nothing is left at or below the place of an entry that was removed. -/
theorem get?_remove_below (hplace : root.get? place = some (.directory entries)) {other : Place}
    (h : place ++ [name] <+: other) : (root.remove place name).get? other = none := by
  obtain ⟨rest, rfl⟩ := h
  rw [List.append_assoc, get?_remove hplace, List.singleton_append, get?_cons, lookup_remove,
    if_pos rfl]
  rfl

/-- All else is as before the removal of an entry. -/
theorem bareAt_remove (hplace : root.get? place = some (.directory entries)) {other : Place}
    (h : ¬ place ++ [name] <+: other) :
    (root.remove place name).bareAt other = root.bareAt other := by
  by_cases hbelow : place <+: other
  · obtain ⟨rest, rfl⟩ := hbelow
    rw [bareAt, bareAt, get?_remove hplace, get?_append, hplace, Option.bind_some]
    cases rest with
    | nil => rfl
    | cons step rest =>
      have hstep : step ≠ name := by
        rintro rfl
        exact h (by simp)
      rw [get?_cons, get?_cons, lookup_remove, if_neg hstep]
  · exact bareAt_modify _ _ hbelow

/-- Nothing is left below the place of a directory that was emptied. -/
theorem get?_clear_below (h : (root.get? place).isSome) (step : String) (rest : Place) :
    (root.clear place).get? (place ++ step :: rest) = none := by
  obtain ⟨here, hhere⟩ := Option.isSome_iff_exists.mp h
  rw [clear, get?_modify, hhere]
  rfl

/-- All that is not below a directory is as before it was emptied. -/
theorem bareAt_clear (hplace : root.get? place = some (.directory entries)) {other : Place}
    (h : ¬ place <+: other ∨ other = place) :
    (root.clear place).bareAt other = root.bareAt other := by
  rcases h with h | rfl
  · exact bareAt_modify _ _ h
  · have hhere := get?_modify (fun _ => directory []) root other []
    rw [List.append_nil, hplace] at hhere
    rw [bareAt, bareAt, clear, hhere, hplace]
    rfl

theorem lookup_put (h : List.lookup name entries = none) (below : Node) (key : String) :
    List.lookup key (entries.put name below) =
      if key = name then some below else List.lookup key entries := by
  rw [Entries.put, h, Option.isSome_none, if_neg Bool.false_ne_true, List.lookup_append]
  by_cases hkey : key = name
  · subst hkey
    rw [h, if_pos rfl, Option.none_or, List.lookup_cons_self]
  · rw [if_neg hkey, lookup_cons_eq, if_neg hkey]
    exact Option.or_none

theorem get?_put (hplace : root.get? place = some (.directory entries)) (below : Node)
    (rest : Place) : (root.put place name below).get? (place ++ rest) =
      (directory (entries.put name below)).get? rest := by
  rw [put, get?_modify, hplace]
  rfl

/-- The new entry stands where it was put. -/
theorem get?_put_self (hplace : root.get? place = some (.directory entries))
    (h : List.lookup name entries = none) (below : Node) :
    (root.put place name below).get? (place ++ [name]) = some below := by
  rw [get?_put hplace, get?_cons, lookup_put h, if_pos rfl]
  rfl

/-- All else is as it was before an empty directory was put. -/
theorem bareAt_put (hplace : root.get? place = some (.directory entries))
    (h : List.lookup name entries = none) {other : Place} (hother : other ≠ place ++ [name]) :
    (root.put place name (.directory [])).bareAt other = root.bareAt other := by
  by_cases hbelow : place <+: other
  · obtain ⟨rest, rfl⟩ := hbelow
    rw [bareAt, bareAt, get?_put hplace, get?_append, hplace, Option.bind_some]
    cases rest with
    | nil => rfl
    | cons step rest =>
      rw [get?_cons, get?_cons, lookup_put h]
      by_cases hstep : step = name
      · -- below the new directory there is nothing, as there was nothing before
        subst hstep
        cases rest with
        | nil => exact absurd rfl hother
        | cons next rest =>
          rw [if_pos rfl, h]
          rfl
      · rw [if_neg hstep]
  · exact bareAt_modify _ _ hbelow

end Node

end Conductor.Files
