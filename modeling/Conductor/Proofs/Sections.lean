import Conductor.Proofs.Documents

/-!
# What sections build

A header with pairs of new keys adds a table with just these entries, or one more to an array of
tables.
-/

namespace Conductor.Toml

def pairs (entries : Table) : List Statement :=
  entries.map fun entry => .pair [] entry.1 entry.2

/-- The entries of a table of which nothing has to be built. -/
def leaves (entries : Table) : Entries :=
  entries.map fun entry => (entry.1, .leaf entry.2)

theorem values_leaves (entries : Table) : Entries.values (leaves entries) = entries := by
  induction entries with
  | nil => rfl
  | cons entry entries ih =>
    change (entry.1, entry.2) :: Entries.values (leaves entries) = _
    rw [ih]

theorem arrayValues_leaves (elements : List Table) :
    Entries.arrayValues (elements.map leaves) = elements.map .table := by
  induction elements with
  | nil => rfl
  | cons entries elements ih =>
    rw [List.map_cons, Entries.arrayValues, values_leaves, ih, List.map_cons]

theorem leadingPairs_pairs (entries : Table) {rest : List Statement}
    (h : leadingPairs rest = ([], rest)) :
    leadingPairs (pairs entries ++ rest) =
      (entries.map fun entry => ([], entry.1, entry.2), rest) := by
  induction entries with
  | nil => exact h
  | cons entry entries ih =>
    change leadingPairs (.pair [] entry.1 entry.2 :: (pairs entries ++ rest)) = _
    rw [leadingPairs, ih]
    rfl

namespace Entries

theorem insertAll_eq_append {entries : Table} {before : Entries}
    (h : (before.map (·.1) ++ entries.map (·.1)).Nodup) :
    insertAll (entries.map fun entry => ([], entry.1, entry.2)) before =
      some (before ++ leaves entries) := by
  induction entries generalizing before with
  | nil => exact congrArg some (List.append_nil before).symm
  | cons entry entries ih =>
    have hfresh : List.lookup entry.1 before = none := by
      refine lookup_eq_none_iff_not_mem.mpr fun hmem => ?_
      exact (List.nodup_append.mp h).2.2 entry.1 hmem entry.1 (by simp) rfl
    have hinsert : insert [] entry.1 entry.2 before =
        some (before ++ [(entry.1, .leaf entry.2)]) := by
      simp [insert, descend, hfresh]
    have hrest : insertAll (entries.map fun entry => ([], entry.1, entry.2))
        (before ++ [(entry.1, .leaf entry.2)]) =
        some (before ++ [(entry.1, .leaf entry.2)] ++ leaves entries) :=
      ih (by simpa using h)
    rw [List.append_assoc] at hrest
    rw [List.map_cons, insertAll, List.foldlM_cons, hinsert]
    exact hrest

theorem replace_append {before : Entries} {key : String} (h : List.lookup key before = none)
    (old new : Node) : replace (before ++ [(key, old)]) key new = before ++ [(key, new)] := by
  have hbefore :
      before.map (fun entry => if entry.1 = key then (key, new) else entry) = before := by
    refine (List.map_congr_left fun entry hmem => if_neg ?_).trans (List.map_id before)
    exact ne_of_lookup_eq_none h hmem
  rw [replace, List.map_append, hbefore]
  simp

theorem lookup_append_self {before : Entries} {key : String} (h : List.lookup key before = none)
    (node : Node) : List.lookup key (before ++ [(key, node)]) = some node := by
  rw [List.lookup_append, h, List.lookup_cons_self]
  rfl

end Entries

def elements (key : String) (tables : List Table) : List Statement :=
  tables.flatMap fun entries => .element [] key :: pairs entries

theorem addSections_element {before after : Entries} {key : String} {entries : Table}
    (hadd : before.addElement [] key (entries.map fun entry => ([], entry.1, entry.2)) = some after)
    (tables : List Table) {rest : List Statement} (hrest : leadingPairs rest = ([], rest)) :
    addSections before (elements key (entries :: tables) ++ rest) =
      addSections after (elements key tables ++ rest) := by
  have hfirst : elements key (entries :: tables) ++ rest =
      .element [] key :: (pairs entries ++ (elements key tables ++ rest)) := by
    simp [elements]
  have hlater : leadingPairs (elements key tables ++ rest) = ([], elements key tables ++ rest) := by
    cases tables with
    | nil => exact hrest
    | cons => rfl
  rw [hfirst, addSections, leadingPairs_pairs entries hlater, hadd, Option.bind_some]

variable {before : Entries} {key : String} (hfresh : List.lookup key before = none)

include hfresh

theorem addSections_table {entries : Table} (hnodup : (entries.map (·.1)).Nodup)
    {rest : List Statement} (hrest : leadingPairs rest = ([], rest)) :
    addSections before (.table [] key :: (pairs entries ++ rest)) =
      addSections (before ++ [(key, .table .opened (leaves entries))]) rest := by
  have hbody : Entries.insertAll (entries.map fun entry => ([], entry.1, entry.2)) [] =
      some (leaves entries) := Entries.insertAll_eq_append hnodup
  have hadd : before.addTable [] key (entries.map fun entry => ([], entry.1, entry.2)) =
      some (before ++ [(key, .table .opened (leaves entries))]) := by
    simp [Entries.addTable, Entries.descend, hfresh, hbody]
  rw [addSections, leadingPairs_pairs entries hrest, hadd, Option.bind_some]

variable {tables : List Table} (hnodup : ∀ entries ∈ tables, (entries.map (·.1)).Nodup)
  {rest : List Statement} (hrest : leadingPairs rest = ([], rest))

include hnodup hrest

/-- The tables come behind those that the array has. -/
theorem addSections_more (done : List Entries) :
    addSections (before ++ [(key, .tables done)]) (elements key tables ++ rest) =
      addSections (before ++ [(key, .tables (done ++ tables.map leaves))]) rest := by
  induction tables generalizing done with
  | nil => rw [elements, List.flatMap_nil, List.nil_append, List.map_nil, List.append_nil]
  | cons entries tables ih =>
    obtain ⟨hentries, htables⟩ := List.forall_mem_cons.mp hnodup
    have hbody : Entries.insertAll (entries.map fun entry => ([], entry.1, entry.2)) [] =
        some (leaves entries) := Entries.insertAll_eq_append hentries
    have hadd : Entries.addElement [] key (entries.map fun entry => ([], entry.1, entry.2))
        (before ++ [(key, .tables done)]) =
        some (before ++ [(key, .tables (done ++ [leaves entries]))]) := by
      simp [Entries.addElement, Entries.descend, Entries.lookup_append_self hfresh, hbody,
        Entries.replace_append hfresh]
    rw [addSections_element hadd tables hrest, ih htables, List.append_assoc, List.map_cons,
      List.singleton_append]

/-- The first header makes the array. -/
theorem addSections_elements (hne : tables ≠ []) :
    addSections before (elements key tables ++ rest) =
      addSections (before ++ [(key, .tables (tables.map leaves))]) rest := by
  cases tables with
  | nil => exact absurd rfl hne
  | cons entries tables =>
    obtain ⟨hentries, htables⟩ := List.forall_mem_cons.mp hnodup
    have hbody : Entries.insertAll (entries.map fun entry => ([], entry.1, entry.2)) [] =
        some (leaves entries) := Entries.insertAll_eq_append hentries
    have hadd : before.addElement [] key (entries.map fun entry => ([], entry.1, entry.2)) =
        some (before ++ [(key, .tables [leaves entries])]) := by
      simp [Entries.addElement, Entries.descend, hfresh, hbody]
    rw [addSections_element hadd tables hrest, addSections_more hfresh htables hrest]
    rfl

end Conductor.Toml
