import Conductor.Proofs.Following
import Conductor.Proofs.Paths

/-!
# Paths made of names

Names as they stand in directories make up a path that has exactly these names
(`Path.names_ofNames`). Behind another path they are added to the parts by which that path is
compared (`Path.components_join_ofNames`).
-/

namespace Conductor.Files

def IsFileName (name : String) : Prop :=
  name ≠ "" ∧ '/' ∉ name.toList ∧ IsEntryName name

instance : DecidablePred IsFileName := fun name =>
  inferInstanceAs (Decidable (name ≠ "" ∧ '/' ∉ name.toList ∧ IsEntryName name))

namespace Path

theorem names_of_isFileName {name : String} (h : IsFileName name) : names name = [name] := by
  obtain ⟨hempty, hslash, -⟩ := h
  simp [names, splitSlash_of_not_mem hslash, hempty]

variable {place : List String}

theorem names_ofNames (h : ∀ name ∈ place, IsFileName name) : names (ofNames place) = place := by
  induction place with
  | nil => rfl
  | cons name rest ih =>
    obtain ⟨hname, hrest⟩ := List.forall_mem_cons.mp h
    cases rest with
    | nil => exact names_of_isFileName hname
    | cons next rest =>
      rw [ofNames, String.intercalate_cons_cons, names_append, names_of_isFileName hname,
        ← ofNames, ih hrest]
      rfl

theorem isAbsolute_ofNames (h : ∀ name ∈ place, IsFileName name) :
    isAbsolute (ofNames place) = false := by
  cases place with
  | nil => rfl
  | cons name rest =>
    obtain ⟨hempty, hslash, -⟩ := h name (List.mem_cons_self ..)
    obtain ⟨c, cs, hname⟩ := List.exists_cons_of_ne_nil (mt String.toList_eq_nil_iff.mp hempty)
    have hc : c ≠ '/' := by
      rintro rfl
      exact hslash (hname ▸ List.mem_cons_self ..)
    have hfirst : (ofNames (name :: rest)).toList.head? = some c := by
      cases rest with
      | nil => simp [ofNames, hname]
      | cons next rest => simp [ofNames, String.intercalate_cons_cons, hname]
    simpa [isAbsolute, hfirst] using hc

variable {base : String}

theorem isAbsolute_join {path : String} (hbase : base ≠ "") (h : isAbsolute path = false) :
    isAbsolute (join base path) = isAbsolute base := by
  obtain ⟨c, cs, hcs⟩ := List.exists_cons_of_ne_nil (mt String.toList_eq_nil_iff.mp hbase)
  rw [join, h, if_neg Bool.false_ne_true]
  split <;> simp [isAbsolute, hcs]

/-- A path that does not begin with a slash begins with a name. -/
theorem names_ne_nil (hbase : base ≠ "") (h : isAbsolute base = false) : names base ≠ [] := by
  obtain ⟨c, cs, hcs⟩ := List.exists_cons_of_ne_nil (mt String.toList_eq_nil_iff.mp hbase)
  have hc : c ≠ '/' := by simpa [isAbsolute, hcs] using h
  obtain ⟨piece, pieces, hpieces⟩ := List.exists_cons_of_ne_nil (splitSlash_ne_nil cs)
  simp [names, hcs, splitSlash, hc, hpieces]

theorem components_join_ofNames (hbase : base ≠ "") (h : ∀ name ∈ place, IsFileName name) :
    components (join base (ofNames place)) = components base ++ place := by
  have hfilter : place.filter (· ≠ ".") = place :=
    List.filter_eq_self.mpr fun name hname => by simpa using (h name hname).2.2.1
  have hrelative := isAbsolute_ofNames h
  simp only [components, isAbsolute_join hbase hrelative, names_join hrelative, names_ofNames h,
    List.filter_append, hfilter, List.append_assoc]
  congr 1
  cases habsolute : isAbsolute base with
  | true => rfl
  | false =>
    obtain ⟨first, more, hnames⟩ := List.exists_cons_of_ne_nil (names_ne_nil hbase habsolute)
    simp [hnames]

end Path

end Conductor.Files
