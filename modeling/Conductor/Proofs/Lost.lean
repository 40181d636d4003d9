import Conductor.Proofs.Trees
import Mathlib.Algebra.GroupWithZero.Nat

/-!
# Files that are lost

The files of a tree are listed with their places, so that two trees can be compared: what was a file
before and is none afterwards is lost. If all at or below one place is gone and all else is as
before, the size of what is lost is the size of what stood at the place (`lostSize_eq`).
-/

namespace Conductor.Files

mutual

/-- Whether the names in each directory of a tree are different from each other. -/
def Node.Proper : Node → Prop
  | .file _ => True
  | .link _ => True
  | .directory entries => Entries.Proper entries

def Entries.Proper : List (String × Node) → Prop
  | [] => True
  | (name, node) :: rest => List.lookup name rest = none ∧ node.Proper ∧ Entries.Proper rest

end

mutual

def Node.totalSize : Node → Nat
  | .file content => content.size
  | .link _ => 0
  | .directory entries => Entries.totalSize entries

def Entries.totalSize : List (String × Node) → Nat
  | [] => 0
  | (_, node) :: rest => node.totalSize + Entries.totalSize rest

end

mutual

/-- The files of a tree with their places. -/
def Node.files : Node → List (Place × Content)
  | .file content => [([], content)]
  | .link _ => []
  | .directory entries => Entries.files entries

def Entries.files : List (String × Node) → List (Place × Content)
  | [] => []
  | (name, node) :: rest =>
    node.files.map (fun file => (name :: file.1, file.2)) ++ Entries.files rest

end

def sizeOf (files : List (Place × Content)) : Nat :=
  (files.map (·.2.size)).sum

/-- The files of a tree at whose places another tree has no file. -/
def lostFiles (before after : Node) : List (Place × Content) :=
  before.files.filter fun file => !(after.get? file.1).any Node.isFile

def lostSize (before after : Node) : Nat :=
  sizeOf (lostFiles before after)

theorem sizeOf_append (a b : List (Place × Content)) : sizeOf (a ++ b) = sizeOf a + sizeOf b := by
  simp [sizeOf]

theorem sizeOf_map (name : String) (files : List (Place × Content)) :
    sizeOf (files.map fun file => (name :: file.1, file.2)) = sizeOf files := by
  simp [sizeOf, Function.comp_def]

mutual

theorem Node.sizeOf_files : (node : Node) → sizeOf node.files = node.totalSize
  | .file content => by simp [Node.files, Node.totalSize, sizeOf]
  | .link target => by simp [Node.files, Node.totalSize, sizeOf]
  | .directory entries => by
    rw [Node.files, Node.totalSize]
    exact Entries.sizeOf_files entries

theorem Entries.sizeOf_files :
    (entries : List (String × Node)) → sizeOf (Entries.files entries) = Entries.totalSize entries
  | [] => rfl
  | (name, node) :: rest => by
    rw [Entries.files, Entries.totalSize, sizeOf_append, sizeOf_map, Node.sizeOf_files node,
      Entries.sizeOf_files rest]

end

mutual

theorem Node.mem_files_iff : (node : Node) → node.Proper → (place : Place) → (content : Content) →
    ((place, content) ∈ node.files ↔ node.get? place = some (.file content))
  | .file here, _, place, content => by
    cases place <;> simp [Node.files, Node.get?, eq_comm]
  | .link target, _, place, content => by
    cases place <;> simp [Node.files, Node.get?]
  | .directory entries, h, place, content => by
    rw [Node.files, Entries.mem_files_iff entries h]

theorem Entries.mem_files_iff : (entries : List (String × Node)) → Entries.Proper entries →
    (place : Place) → (content : Content) →
    ((place, content) ∈ Entries.files entries ↔
      (Node.directory entries).get? place = some (.file content))
  | [], _, place, content => by cases place <;> simp [Entries.files, Node.get?]
  | (name, node) :: rest, h, place, content => by
    have hrest := Entries.mem_files_iff rest h.2.2 place content
    rw [Entries.files, List.mem_append, hrest]
    cases place with
    | nil => simp [Node.get?]
    | cons step below =>
      have hnode := Node.mem_files_iff node h.2.1 below content
      rw [Node.get?_cons, Node.get?_cons, Node.lookup_cons_eq]
      by_cases hstep : step = name
      · subst hstep
        rw [h.1, if_pos rfl]
        simpa using hnode
      · rw [if_neg hstep]
        simp [Ne.symm hstep]

end

def filesBelow (place : Place) (files : List (Place × Content)) : List (Place × Content) :=
  files.filter fun file => place.isPrefixOf file.1

theorem filesBelow_map (name step : String) (rest : Place) (files : List (Place × Content)) :
    filesBelow (step :: rest) (files.map fun file => (name :: file.1, file.2)) =
      if step = name then (filesBelow rest files).map fun file => (name :: file.1, file.2)
      else [] := by
  rw [filesBelow, List.filter_map]
  by_cases h : step = name
  · subst h
    rw [if_pos rfl, filesBelow]
    simp [Function.comp_def]
  · rw [if_neg h]
    simp [Function.comp_def, h]

theorem filesBelow_of_lookup_eq_none {name : String} {entries : Entries} (rest : Place)
    (h : List.lookup name entries = none) :
    filesBelow (name :: rest) (Entries.files entries) = [] := by
  induction entries with
  | nil => rfl
  | cons entry more ih =>
    obtain ⟨key, node⟩ := entry
    rw [Node.lookup_cons_eq] at h
    split at h
    · cases h
    · rename_i hkey
      have hmore := ih h
      rw [filesBelow] at hmore
      rw [Entries.files, filesBelow, List.filter_append, hmore, ← filesBelow, filesBelow_map,
        if_neg hkey]
      rfl

theorem filesBelow_append (place : Place) (a b : List (Place × Content)) :
    filesBelow place (a ++ b) = filesBelow place a ++ filesBelow place b :=
  List.filter_append ..

theorem sizeOf_filesBelow_of_lookup {name : String} {entries : Entries} {node : Node}
    (rest : Place) (hproper : Entries.Proper entries) (h : List.lookup name entries = some node) :
    sizeOf (filesBelow (name :: rest) (Entries.files entries)) =
      sizeOf (filesBelow rest node.files) := by
  induction entries with
  | nil => cases h
  | cons entry more ih =>
    obtain ⟨key, here⟩ := entry
    rw [Node.lookup_cons_eq] at h
    rw [Entries.files, filesBelow_append, filesBelow_map, sizeOf_append]
    by_cases hkey : name = key
    · subst hkey
      rw [if_pos rfl] at h ⊢
      cases h
      rw [sizeOf_map, filesBelow_of_lookup_eq_none rest hproper.1]
      rfl
    · rw [if_neg hkey] at h ⊢
      rw [ih hproper.2.2 h]
      exact Nat.zero_add _

theorem proper_of_lookup {name : String} {entries : Entries} {node : Node}
    (hproper : Entries.Proper entries) (h : List.lookup name entries = some node) :
    node.Proper := by
  induction entries with
  | nil => cases h
  | cons entry more ih =>
    rw [Node.lookup_cons_eq] at h
    split at h
    · cases h
      exact hproper.2.1
    · exact ih hproper.2.2 h

/-- The files at or below a place are those of the tree that stands there. -/
theorem sizeOf_filesBelow {node below : Node} {place : Place} (hproper : node.Proper)
    (h : node.get? place = some below) :
    sizeOf (filesBelow place node.files) = below.totalSize := by
  induction place generalizing node with
  | nil =>
    cases h
    rw [← Node.sizeOf_files]
    exact congrArg sizeOf (List.filter_eq_self.mpr fun _ _ => rfl)
  | cons name rest ih =>
    cases node with
    | file content => cases h
    | link target => cases h
    | directory entries =>
      rw [Node.get?_cons] at h
      obtain ⟨child, hlookup, hchild⟩ := Option.bind_eq_some_iff.mp h
      rw [Node.files, sizeOf_filesBelow_of_lookup rest hproper hlookup]
      exact ih (proper_of_lookup hproper hlookup) hchild

section

variable {before after : Node} {place : Place}

/-- If all at or below a place is gone and nothing else, the files below the place are lost. -/
theorem lostFiles_eq (hproper : before.Proper)
    (hgone : ∀ other, place <+: other → (after.get? other).any Node.isFile = false)
    (hkept : ∀ other, ¬ place <+: other → after.bareAt other = before.bareAt other) :
    lostFiles before after = filesBelow place before.files := by
  refine List.filter_congr fun file hmem => ?_
  obtain ⟨other, content⟩ := file
  have hbefore := (before.mem_files_iff hproper other content).mp hmem
  by_cases hbelow : place <+: other
  · rw [hgone other hbelow, List.isPrefixOf_iff_prefix.mpr hbelow]
    rfl
  · have hsame := hkept other hbelow
    have hprefix : place.isPrefixOf other = false := by
      rw [← Bool.not_eq_true, List.isPrefixOf_iff_prefix]
      exact hbelow
    rw [Node.bareAt, Node.bareAt, hbefore] at hsame
    obtain ⟨here, hhere, hbare⟩ := Option.map_eq_some_iff.mp hsame
    obtain rfl : here = .file content := by
      cases here <;> first | exact hbare | cases hbare
    rw [hhere, hprefix]
    rfl

/-- The size of what is lost is that of what stood at the place. -/
theorem lostSize_eq {below : Node} (hproper : before.Proper)
    (hplace : before.get? place = some below)
    (hgone : ∀ other, place <+: other → (after.get? other).any Node.isFile = false)
    (hkept : ∀ other, ¬ place <+: other → after.bareAt other = before.bareAt other) :
    lostSize before after = below.totalSize := by
  rw [lostSize, lostFiles_eq hproper hgone hkept, sizeOf_filesBelow hproper hplace]

variable {name : String} {entries : Entries}

/-- With an entry all files at or below its place are lost. -/
theorem lostSize_remove {below : Node} (hproper : before.Proper)
    (hplace : before.get? place = some (.directory entries))
    (hbelow : before.get? (place ++ [name]) = some below) :
    lostSize before (before.remove place name) = below.totalSize :=
  lostSize_eq hproper hbelow
    (fun _ h => by rw [Node.get?_remove_below hplace h]; rfl)
    (fun _ h => Node.bareAt_remove hplace h)

/-- With what a directory holds all files below it are lost. -/
theorem lostSize_clear (hproper : before.Proper)
    (hplace : before.get? place = some (.directory entries)) :
    lostSize before (before.clear place) = Entries.totalSize entries := by
  refine (lostSize_eq hproper hplace ?_ fun _ h => Node.bareAt_clear hplace (.inl h)).trans
    (by rw [Node.totalSize])
  rintro other ⟨rest, rfl⟩
  cases rest with
  | nil =>
    have hhere := Node.get?_modify (fun _ => .directory []) before place []
    rw [hplace] at hhere
    rw [Node.clear, hhere]
    rfl
  | cons step rest =>
    rw [Node.get?_clear_below (by rw [hplace]; rfl)]
    rfl

end

end Conductor.Files
