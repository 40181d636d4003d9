import Conductor.Files.Path
import Mathlib.Data.List.Basic

/-!
# Paths resolved by their names

A path is confined if it is relative and its names lead to somewhere else without ever leading out.
Exactly such a path is inside of everything that it is joined to (`isInside_join_iff`).
-/

namespace Conductor.Files

theorem splitSlash_ne_nil (cs : List Char) : splitSlash cs ≠ [] := by
  cases cs with
  | nil => simp [splitSlash]
  | cons c rest =>
    rw [splitSlash]
    split
    · simp
    · split <;> simp

theorem splitSlash_append (a b : List Char) :
    splitSlash (a ++ '/' :: b) = splitSlash a ++ splitSlash b := by
  induction a with
  | nil => simp [splitSlash]
  | cons c a ih =>
    rw [List.cons_append, splitSlash, splitSlash, ih]
    by_cases h : c = '/'
    · rw [if_pos h, if_pos h, List.cons_append]
    · rw [if_neg h, if_neg h]
      obtain ⟨piece, pieces, hpieces⟩ := List.exists_cons_of_ne_nil (splitSlash_ne_nil a)
      rw [hpieces]
      rfl

theorem splitSlash_of_not_mem {cs : List Char} (h : '/' ∉ cs) : splitSlash cs = [cs] := by
  induction cs with
  | nil => rfl
  | cons c cs ih =>
    obtain ⟨hc, hcs⟩ := List.ne_and_not_mem_of_not_mem_cons h
    rw [splitSlash, if_neg (Ne.symm hc), ih hcs]

theorem length_le_of_mem_splitSlash {cs piece : List Char} (h : piece ∈ splitSlash cs) :
    piece.length ≤ cs.length := by
  induction cs generalizing piece with
  | nil => simp [splitSlash] at h; simp [h]
  | cons c cs ih =>
    rw [splitSlash] at h
    split at h
    · rcases List.mem_cons.mp h with rfl | h
      · simp
      · exact Nat.le_succ_of_le (ih h)
    · obtain ⟨first, pieces, hpieces⟩ := List.exists_cons_of_ne_nil (splitSlash_ne_nil cs)
      rw [hpieces] at h ih
      rcases List.mem_cons.mp h with rfl | h
      · exact Nat.succ_le_succ (ih (by simp))
      · exact Nat.le_succ_of_le (ih (List.mem_cons_of_mem _ h))

namespace Path

theorem names_append (a b : String) : names (a ++ "/" ++ b) = names a ++ names b := by
  simp [names, splitSlash_append]

/-- A relative path adds its names to those of the base. -/
theorem names_join {path : String} (h : isAbsolute path = false) (base : String) :
    names (join base path) = names base ++ names path := by
  simp only [join, h, Bool.false_eq_true, if_false]
  split
  case isFalse => exact names_append base path
  case isTrue hend =>
    rcases Bool.or_eq_true_iff.mp hend with hempty | hslash
    · rw [String.isEmpty_iff.mp hempty, String.empty_append]
      rfl
    · obtain ⟨cs, hcs⟩ := List.getLast?_eq_some_iff.mp (of_decide_eq_true hslash)
      have hbase : base = String.ofList cs ++ "/" := by
        rw [← String.toList_inj, hcs]
        simp
      have hnames : names base = names (String.ofList cs) := by
        have hend := names_append (String.ofList cs) ""
        rwa [String.append_empty, ← hbase, show names "" = [] from rfl, List.append_nil] at hend
      rw [hnames, hbase, names_append]

/-- One name further from a place, which is the list of the names that lead to it. -/
def onward (place : List String) (name : String) : List String :=
  if name = "." then place else if name = ".." then place.dropLast else place ++ [name]

/-- The place of an absolute path if no name on the way is a link. -/
def lexical (path : String) : List String :=
  (names path).foldl onward []

/-- One name further, but never out of the place where the way begins. -/
def inward (place : List String) (name : String) : Option (List String) :=
  if place = [] ∧ name = ".." then none else some (onward place name)

/-- Whether the path is below `base` in any tree without links. -/
def IsInside (base path : String) : Prop :=
  ∃ below, below ≠ [] ∧ lexical path = lexical base ++ below

/-- A relative path that leads to somewhere else, and never out. -/
structure IsConfined (path : String) : Prop where
  relative : isAbsolute path = false
  inside : ∃ below, below ≠ [] ∧ (names path).foldlM inward [] = some below

theorem onward_append {place : List String} {name : String} (h : ¬ (place = [] ∧ name = ".."))
    (base : List String) : onward (base ++ place) name = base ++ onward place name := by
  rw [onward, onward]
  split
  · rfl
  split
  case isTrue hparent =>
    have hplace : place ≠ [] := fun heq => h ⟨heq, hparent⟩
    exact List.dropLast_append_of_ne_nil hplace
  case isFalse => exact List.append_assoc ..

theorem foldl_onward_of_inward {names place below : List String}
    (h : names.foldlM inward place = some below) (base : List String) :
    names.foldl onward (base ++ place) = base ++ below := by
  induction names generalizing place with
  | nil =>
    cases h
    rfl
  | cons name names ih =>
    obtain ⟨next, hnext, hrest⟩ := Option.bind_eq_some_iff.mp h
    obtain ⟨hin, heq⟩ := Option.ite_none_left_eq_some.mp hnext
    cases heq
    rw [List.foldl_cons, onward_append hin, ih hrest]

theorem head?_onward {place : List String} {name first : String} (h : place.head? ≠ some first)
    (hname : name ≠ first) : (onward place name).head? ≠ some first := by
  rw [onward]
  split
  · exact h
  split
  · cases place with
    | nil => exact h
    | cons other place =>
      cases place with
      | nil => simp
      | cons next place => exact h
  · cases place with
    | nil => simpa using hname
    | cons other place => exact h

/-- What is left below by the way does not come back under a name that is not on it. -/
theorem head?_foldl_onward {names place : List String} {first : String}
    (h : place.head? ≠ some first) (hnames : first ∉ names) :
    (names.foldl onward place).head? ≠ some first := by
  induction names generalizing place with
  | nil => exact h
  | cons name names ih =>
    obtain ⟨hname, hnames⟩ := List.ne_and_not_mem_of_not_mem_cons hnames
    exact ih (head?_onward h (Ne.symm hname)) hnames

theorem head?_foldl_onward_of_out {names place : List String} {first : String}
    (h : names.foldlM inward place = none) (hnames : first ∉ names) :
    (names.foldl onward (first :: place)).head? ≠ some first := by
  induction names generalizing place with
  | nil => cases h
  | cons name names ih =>
    obtain ⟨-, hlater⟩ := List.ne_and_not_mem_of_not_mem_cons hnames
    rw [List.foldl_cons]
    by_cases hout : place = [] ∧ name = ".."
    · obtain ⟨rfl, rfl⟩ := hout
      exact head?_foldl_onward (by simp [onward]) hlater
    · have hin : inward place name = some (onward place name) := if_neg hout
      rw [List.foldlM_cons, hin] at h
      have happend : onward (first :: place) name = first :: onward place name :=
        onward_append hout [first]
      rw [happend]
      exact ih h hlater

theorem lexical_join {path : String} (h : isAbsolute path = false) (base : String) :
    lexical (join base path) = (names path).foldl onward (lexical base) := by
  rw [lexical, names_join h, List.foldl_append]
  rfl

/-- A name that is longer than a path is not on it. -/
theorem exists_lexical_eq (path : String) :
    ∃ base name, lexical base = [name] ∧ name ∉ names path := by
  let cs : List Char := List.replicate (path.toList.length + 3) 'a'
  have hslash : '/' ∉ cs := by simp [cs]
  have hnames : names (String.ofList ('/' :: cs)) = [String.ofList cs] := by
    have hne : cs ≠ [] := by simp [cs]
    simp [names, splitSlash, splitSlash_of_not_mem hslash, hne]
  refine ⟨String.ofList ('/' :: cs), String.ofList cs, ?_, fun hmem => ?_⟩
  · have hshort (short : String) (h : short.length < 3) : String.ofList cs ≠ short := by
      rintro rfl
      rw [String.length_ofList, List.length_replicate] at h
      omega
    have hdot := hshort "." (by decide)
    have hdots := hshort ".." (by decide)
    rw [lexical, hnames, List.foldl_cons, List.foldl_nil, onward, if_neg hdot, if_neg hdots]
    rfl
  · obtain ⟨piece, hpiece, heq⟩ := List.mem_map.mp hmem
    have hlength := length_le_of_mem_splitSlash (List.mem_filter.mp hpiece).1
    have hcs : piece = cs := String.ofList_injective heq
    rw [hcs] at hlength
    simp only [cs, List.length_replicate] at hlength
    omega

/-- Exactly the confined paths are inside of everything that they are joined to. -/
theorem isInside_join_iff (path : String) :
    (∀ base, IsInside base (join base path)) ↔ IsConfined path := by
  constructor
  · intro h
    have hrelative : isAbsolute path = false := by
      by_contra habsolute
      obtain ⟨below, hbelow, heq⟩ := h path
      rw [join, if_pos (by simpa using habsolute)] at heq
      exact hbelow (List.append_cancel_left (heq.symm.trans (List.append_nil _).symm))
    -- A way that leads out of a place with a name of its own cannot come back to it.
    obtain ⟨base, name, hbase, hname⟩ := exists_lexical_eq path
    obtain ⟨below, hbelow, heq⟩ := h base
    rw [lexical_join hrelative, hbase] at heq
    refine ⟨hrelative, ?_⟩
    cases hway : (names path).foldlM inward [] with
    | none =>
      have hout := head?_foldl_onward_of_out hway hname
      rw [heq] at hout
      exact absurd rfl hout
    | some place =>
      have hplace := foldl_onward_of_inward hway [name]
      rw [List.append_nil, heq] at hplace
      exact ⟨place, fun hempty => hbelow ((List.append_cancel_left hplace).trans hempty), rfl⟩
  · rintro ⟨hrelative, below, hbelow, hway⟩ base
    refine ⟨below, hbelow, ?_⟩
    have hplace := foldl_onward_of_inward hway (lexical base)
    rw [List.append_nil] at hplace
    rw [lexical_join hrelative, hplace]

end Path

end Conductor.Files
