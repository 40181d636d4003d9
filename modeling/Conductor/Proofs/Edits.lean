import Conductor.Similar
import Mathlib.Data.List.Basic

/-!
# The least number of edits

A word is edited into another by inserting, deleting and substituting single characters. Laid side
by side, two words differ in some places, and one can be edited into the other by as many edits
(`editsTo_iff`). The row of distances holds the least such numbers, for all beginnings of the second
word (`editDistance_eq`), so that it tells which commands are close to a mistyped word
(`closest_is_first_within_half`).
-/

namespace Conductor

inductive Edit : List Char → List Char → Prop
  | insert (front back : List Char) (c : Char) : Edit (front ++ back) (front ++ c :: back)
  | delete (front back : List Char) (c : Char) : Edit (front ++ c :: back) (front ++ back)
  | substitute (front back : List Char) (c d : Char) :
      Edit (front ++ c :: back) (front ++ d :: back)

/-- A word becomes another one by exactly that many edits, one after the other. -/
inductive EditsTo : Nat → List Char → List Char → Prop
  | done (word : List Char) : EditsTo 0 word word
  | step {count : Nat} {first next last : List Char} (h : Edit first next)
      (hrest : EditsTo count next last) : EditsTo (count + 1) first last

/-- Two words can be laid side by side, with gaps, so that they differ in that many places. -/
inductive Aligned : Nat → List Char → List Char → Prop
  | nil : Aligned 0 [] []
  | keep {count : Nat} {a b : List Char} (c : Char) (h : Aligned count a b) :
      Aligned count (c :: a) (c :: b)
  | insert {count : Nat} {a b : List Char} (c : Char) (h : Aligned count a b) :
      Aligned (count + 1) a (c :: b)
  | delete {count : Nat} {a b : List Char} (c : Char) (h : Aligned count a b) :
      Aligned (count + 1) (c :: a) b
  | substitute {count : Nat} {a b : List Char} (c d : Char) (h : Aligned count a b) :
      Aligned (count + 1) (c :: a) (d :: b)

/-- The least number of places in which two words differ, by their first characters. -/
def leastEdits : List Char → List Char → Nat
  | [], target => target.length
  | source, [] => source.length
  | c :: source, d :: target =>
    min (min (leastEdits (c :: source) target + 1) (leastEdits source (d :: target) + 1))
      (if c = d then leastEdits source target else leastEdits source target + 1)

/-! ### Words side by side -/

namespace Aligned

variable {m n : Nat} {a b c a' b' : List Char}

theorem refl (a : List Char) : Aligned 0 a a := by
  induction a with
  | nil => exact .nil
  | cons x a ih => exact .keep x ih

theorem append (h : Aligned m a b) (h' : Aligned n a' b') :
    Aligned (m + n) (a ++ a') (b ++ b') := by
  induction h with
  | nil => simpa using h'
  | keep x _ ih => exact .keep x ih
  | insert x _ ih => exact Nat.succ_add .. ▸ .insert x ih
  | delete x _ ih => exact Nat.succ_add .. ▸ .delete x ih
  | substitute x y _ ih => exact Nat.succ_add .. ▸ .substitute x y ih

/-- It does not matter from which end the words are read. -/
theorem reverse (h : Aligned n a b) : Aligned n a.reverse b.reverse := by
  induction h with
  | nil => exact .nil
  | keep x _ ih =>
    rw [List.reverse_cons, List.reverse_cons]
    exact ih.append (.keep x .nil)
  | insert x _ ih =>
    rw [List.reverse_cons]
    simpa using ih.append (.insert x .nil)
  | delete x _ ih =>
    rw [List.reverse_cons]
    simpa using ih.append (.delete x .nil)
  | substitute x y _ ih =>
    rw [List.reverse_cons, List.reverse_cons]
    exact ih.append (.substitute x y .nil)

/-- Words in two parts: what the parts are laid beside. -/
theorem split (h : Aligned n (a ++ b) c) :
    ∃ c₁ c₂ n₁ n₂, c = c₁ ++ c₂ ∧ n = n₁ + n₂ ∧ Aligned n₁ a c₁ ∧ Aligned n₂ b c₂ := by
  generalize hword : a ++ b = word at h
  induction h generalizing a with
  | nil =>
    obtain ⟨rfl, rfl⟩ := List.append_eq_nil_iff.mp hword
    exact ⟨[], [], 0, 0, rfl, rfl, .nil, .nil⟩
  | insert x _ ih =>
    obtain ⟨c₁, c₂, n₁, n₂, rfl, rfl, h₁, h₂⟩ := ih hword
    exact ⟨x :: c₁, c₂, n₁ + 1, n₂, rfl, by omega, .insert x h₁, h₂⟩
  | keep x h ih =>
    cases a with
    | nil =>
      cases hword
      exact ⟨[], _, 0, _, rfl, (Nat.zero_add _).symm, .nil, .keep x h⟩
    | cons y a =>
      cases hword
      obtain ⟨c₁, c₂, n₁, n₂, rfl, rfl, h₁, h₂⟩ := ih rfl
      exact ⟨x :: c₁, c₂, n₁, n₂, rfl, rfl, .keep x h₁, h₂⟩
  | delete x h ih =>
    cases a with
    | nil =>
      cases hword
      exact ⟨[], _, 0, _, rfl, (Nat.zero_add _).symm, .nil, .delete x h⟩
    | cons y a =>
      cases hword
      obtain ⟨c₁, c₂, n₁, n₂, rfl, rfl, h₁, h₂⟩ := ih rfl
      exact ⟨c₁, c₂, n₁ + 1, n₂, rfl, by omega, .delete x h₁, h₂⟩
  | substitute x z h ih =>
    cases a with
    | nil =>
      cases hword
      exact ⟨[], _, 0, _, rfl, (Nat.zero_add _).symm, .nil, .substitute x z h⟩
    | cons y a =>
      cases hword
      obtain ⟨c₁, c₂, n₁, n₂, rfl, rfl, h₁, h₂⟩ := ih rfl
      exact ⟨z :: c₁, c₂, n₁ + 1, n₂, rfl, by omega, .substitute x z h₁, h₂⟩

/-- Without its first character a word differs in one more place at most. -/
theorem behead (x : Char) (h : Aligned n (x :: a) b) : ∃ l ≤ n + 1, Aligned l a b := by
  generalize hword : x :: a = word at h
  induction h with
  | nil => cases hword
  | keep y h _ =>
    cases hword
    exact ⟨_, Nat.le_refl _, .insert x h⟩
  | insert y _ ih =>
    obtain ⟨l, hl, h⟩ := ih hword
    exact ⟨l + 1, by omega, .insert y h⟩
  | delete y h _ =>
    cases hword
    exact ⟨_, by omega, h⟩
  | substitute y z h _ =>
    cases hword
    exact ⟨_, Nat.le_succ _, .insert z h⟩

/-- With another first character too. -/
theorem exchange (x y : Char) (h : Aligned n (x :: a) b) : ∃ l ≤ n + 1, Aligned l (y :: a) b := by
  generalize hword : x :: a = word at h
  induction h with
  | nil => cases hword
  | keep z h _ =>
    cases hword
    exact ⟨_, Nat.le_refl _, .substitute y x h⟩
  | insert z _ ih =>
    obtain ⟨l, hl, h⟩ := ih hword
    exact ⟨l + 1, by omega, .insert z h⟩
  | delete z h _ =>
    cases hword
    exact ⟨_, Nat.le_succ _, .delete y h⟩
  | substitute z w h _ =>
    cases hword
    exact ⟨_, Nat.le_succ _, .substitute y w h⟩

/-- Before an edit a word differs in one more place at most than after it. -/
theorem of_edit (hedit : Edit a b) (h : Aligned n b c) : ∃ l ≤ n + 1, Aligned l a c := by
  cases hedit with
  | insert front back x =>
    obtain ⟨c₁, c₂, n₁, n₂, rfl, rfl, h₁, h₂⟩ := h.split
    obtain ⟨l, hl, h₂⟩ := h₂.behead x
    exact ⟨n₁ + l, by omega, h₁.append h₂⟩
  | delete front back x =>
    obtain ⟨c₁, c₂, n₁, n₂, rfl, rfl, h₁, h₂⟩ := h.split
    exact ⟨n₁ + (n₂ + 1), by omega, h₁.append (.delete x h₂)⟩
  | substitute front back x y =>
    obtain ⟨c₁, c₂, n₁, n₂, rfl, rfl, h₁, h₂⟩ := h.split
    obtain ⟨l, hl, h₂⟩ := h₂.exchange y x
    exact ⟨n₁ + l, by omega, h₁.append h₂⟩

end Aligned

namespace EditsTo

variable {n : Nat} {a b : List Char}

theorem cons (x : Char) (h : EditsTo n a b) : EditsTo n (x :: a) (x :: b) := by
  induction h with
  | done word => exact .done _
  | step hedit _ ih =>
    refine .step ?_ ih
    cases hedit with
    | insert front back y => exact .insert (x :: front) back y
    | delete front back y => exact .delete (x :: front) back y
    | substitute front back y z => exact .substitute (x :: front) back y z

/-- In each place in which two words differ an edit can be made. -/
theorem of_aligned (h : Aligned n a b) : EditsTo n a b := by
  induction h with
  | nil => exact .done []
  | keep x _ ih => exact ih.cons x
  | insert x _ ih => exact .step (.insert [] _ x) (ih.cons x)
  | delete x _ ih => exact .step (.delete [] _ x) ih
  | substitute x y _ ih => exact .step (.substitute [] _ x y) (ih.cons y)

/-- Edits make words differ in as many places at most. -/
theorem aligned (h : EditsTo n a b) : ∃ l ≤ n, Aligned l a b := by
  induction h with
  | done word => exact ⟨0, Nat.le_refl 0, .refl word⟩
  | step hedit _ ih =>
    obtain ⟨l, hl, h⟩ := ih
    obtain ⟨l', hl', h⟩ := h.of_edit hedit
    exact ⟨l', by omega, h⟩

/-- An edit changes the length of a word by one at most. -/
theorem length_le (h : EditsTo n a b) : a.length ≤ b.length + n ∧ b.length ≤ a.length + n := by
  induction h with
  | done word => simp
  | step hedit _ ih =>
    cases hedit <;> simp only [List.length_append, List.length_cons] at ih ⊢ <;> omega

end EditsTo

/-! ### The least number -/

theorem leastEdits_nil_left (target : List Char) : leastEdits [] target = target.length := by
  rw [leastEdits]

theorem leastEdits_nil_right (source : List Char) : leastEdits source [] = source.length := by
  cases source <;> simp [leastEdits]

theorem aligned_nil_left (b : List Char) : Aligned b.length [] b := by
  induction b with
  | nil => exact .nil
  | cons d b ih => exact .insert d ih

theorem aligned_nil_right (a : List Char) : Aligned a.length a [] := by
  induction a with
  | nil => exact .nil
  | cons c a ih => exact .delete c ih

/-- The words can be laid side by side like this. -/
theorem aligned_leastEdits (a b : List Char) : Aligned (leastEdits a b) a b := by
  induction a, b using leastEdits.induct with
  | case1 b =>
    rw [leastEdits_nil_left]
    exact aligned_nil_left b
  | case2 a _ =>
    rw [leastEdits_nil_right]
    exact aligned_nil_right a
  | case3 c a d b hinsert hdelete hboth =>
    have hdiagonal : Aligned (if c = d then leastEdits a b else leastEdits a b + 1)
        (c :: a) (d :: b) := by
      split
      · subst_vars
        exact .keep _ hboth
      · exact .substitute c d hboth
    rw [leastEdits]
    rcases Nat.le_total (min (leastEdits (c :: a) b + 1) (leastEdits a (d :: b) + 1))
      (if c = d then leastEdits a b else leastEdits a b + 1) with h | h
    · rw [Nat.min_eq_left h]
      rcases Nat.le_total (leastEdits (c :: a) b + 1) (leastEdits a (d :: b) + 1) with h | h
      · rw [Nat.min_eq_left h]
        exact .insert d hinsert
      · rw [Nat.min_eq_right h]
        exact .delete c hdelete
    · rw [Nat.min_eq_right h]
      exact hdiagonal

theorem leastEdits_insert_le (a b : List Char) (d : Char) :
    leastEdits a (d :: b) ≤ leastEdits a b + 1 := by
  cases a with
  | nil => simp [leastEdits_nil_left]
  | cons c a =>
    rw [leastEdits]
    exact Nat.le_trans (Nat.min_le_left _ _) (Nat.min_le_left _ _)

theorem leastEdits_delete_le (a b : List Char) (c : Char) :
    leastEdits (c :: a) b ≤ leastEdits a b + 1 := by
  cases b with
  | nil => simp [leastEdits_nil_right]
  | cons d b =>
    rw [leastEdits]
    exact Nat.le_trans (Nat.min_le_left _ _) (Nat.min_le_right _ _)

theorem leastEdits_both_le (a b : List Char) (c d : Char) : leastEdits (c :: a) (d :: b) ≤
    if c = d then leastEdits a b else leastEdits a b + 1 := by
  rw [leastEdits]
  exact Nat.min_le_right _ _

/-- However the words are laid side by side, they differ in as many places. -/
theorem leastEdits_le {n : Nat} {a b : List Char} (h : Aligned n a b) : leastEdits a b ≤ n := by
  induction h with
  | nil => simp [leastEdits_nil_left]
  | @keep n a b c _ ih =>
    have hstep := leastEdits_both_le a b c c
    rw [if_pos rfl] at hstep
    omega
  | @insert n a b d _ ih =>
    have hstep := leastEdits_insert_le a b d
    omega
  | @delete n a b c _ ih =>
    have hstep := leastEdits_delete_le a b c
    omega
  | @substitute n a b c d _ ih =>
    have hstep := leastEdits_both_le a b c d
    split at hstep <;> omega

/-! ### The row of distances -/

/-- The least numbers of edits to `front` and to all words that go on from it along another one.
The words are read from behind, as the row grows at their ends. -/
def distances (source front : List Char) : List Char → List Nat
  | [] => [leastEdits source front]
  | d :: rest => leastEdits source front :: distances source (d :: front) rest

theorem distances_eq_cons (source front rest : List Char) :
    distances source front rest =
      leastEdits source front :: (distances source front rest).tail := by
  cases rest <;> rfl

theorem distances_nil (front rest : List Char) :
    distances [] front rest = List.range' front.length (rest.length + 1) := by
  induction rest generalizing front with
  | nil => simp [distances, leastEdits_nil_left]
  | cons d rest ih =>
    rw [distances, ih, leastEdits_nil_left, List.length_cons, List.length_cons]
    exact List.range'_succ.symm

theorem getLastD_distances (source front rest : List Char) :
    (distances source front rest).getLastD 0 = leastEdits source (rest.reverse ++ front) := by
  induction rest generalizing front with
  | nil => rfl
  | cons d rest ih =>
    have hlast := ih (d :: front)
    rw [distances_eq_cons] at hlast
    rw [distances, distances_eq_cons source (d :: front) rest, List.reverse_cons, List.append_assoc]
    exact hlast

/-- The new entries are the distances after one more character. -/
theorem nextEntries_distances (source front rest : List Char) (c : Char) :
    nextEntries c rest (leastEdits (c :: source) front) (distances source front rest) =
      (distances (c :: source) front rest).tail := by
  induction rest generalizing front with
  | nil => rfl
  | cons d rest ih =>
    have hentry :
        min (min (leastEdits (c :: source) front + 1) (leastEdits source (d :: front) + 1))
          (if c = d then leastEdits source front else leastEdits source front + 1) =
        leastEdits (c :: source) (d :: front) := by
      rw [leastEdits]
    have hrest := ih (d :: front)
    rw [distances_eq_cons source] at hrest
    rw [distances, distances_eq_cons source (d :: front) rest, nextEntries, hentry, hrest,
      distances, List.tail_cons, ← distances_eq_cons]

theorem nextRow_distances (source target : List Char) (c : Char) :
    nextRow target (distances source [] target) c = distances (c :: source) [] target := by
  have hfirst : (distances source [] target).headD 0 + 1 = leastEdits (c :: source) [] := by
    rw [distances_eq_cons, leastEdits_nil_right, leastEdits_nil_right]
    rfl
  rw [nextRow, hfirst, nextEntries_distances, ← distances_eq_cons]

theorem foldl_nextRow (source before target : List Char) :
    source.foldl (nextRow target) (distances before [] target) =
      distances (source.reverse ++ before) [] target := by
  induction source generalizing before with
  | nil => rfl
  | cons c source ih =>
    rw [List.foldl_cons, nextRow_distances, ih, List.reverse_cons, List.append_assoc]
    rfl

/-- The rows lead to the least number of edits. -/
theorem editDistance_eq (source target : List Char) :
    editDistance source target = leastEdits source.reverse target.reverse := by
  have hfirst : List.range (target.length + 1) = distances [] [] target := by
    rw [distances_nil, List.range_eq_range']
    rfl
  rw [editDistance, hfirst, foldl_nextRow, getLastD_distances, List.append_nil, List.append_nil]

/-- A word is edited into another one by as many edits as the distance tells, and not by fewer. -/
theorem editDistance_le_iff {source target : List Char} {n : Nat} :
    editDistance source target ≤ n ↔ ∃ k ≤ n, EditsTo k source target := by
  rw [editDistance_eq]
  constructor
  · intro h
    have haligned := (aligned_leastEdits source.reverse target.reverse).reverse
    rw [List.reverse_reverse, List.reverse_reverse] at haligned
    exact ⟨_, h, .of_aligned haligned⟩
  · rintro ⟨k, hk, hedits⟩
    obtain ⟨l, hl, haligned⟩ := hedits.aligned
    have hleast := leastEdits_le haligned.reverse
    omega

/-! ### Commands close to a word -/

/-- Half as many edits as a word has characters suffice to make it another one. -/
def IsHalfway (word name : String) : Prop :=
  ∃ k, 2 * k ≤ word.toList.length ∧ EditsTo k word.toList name.toList

theorem isClose_iff (word name : String) : isClose word name = true ↔ IsHalfway word name := by
  rw [isClose, decide_eq_true_eq, IsHalfway]
  constructor
  · intro h
    obtain ⟨k, hk, hedits⟩ := editDistance_le_iff.mp (Nat.le_refl _)
    exact ⟨k, by omega, hedits⟩
  · rintro ⟨k, hk, hedits⟩
    have hle := editDistance_le_iff.mpr ⟨k, Nat.le_refl k, hedits⟩
    omega

/-- Names have at least three and at most seven characters. -/
theorem length_name_of_mem {info : CommandInfo} (h : info ∈ registry) :
    3 ≤ info.name.toList.length ∧ info.name.toList.length ≤ 7 := by
  revert info
  decide

theorem length_of_isHalfway {word : String} {info : CommandInfo} (h : info ∈ registry)
    (hword : IsHalfway word info.name) :
    2 ≤ word.toList.length ∧ word.toList.length ≤ 14 := by
  obtain ⟨k, hk, hedits⟩ := hword
  have hname := length_name_of_mem h
  have hlength := hedits.length_le
  omega

/-- A name is close to a word exactly if the word can be edited into it by half as many insertions,
deletions and substitutions of single characters as the word has characters. Of the commands with
such a name the first is chosen, and none if there is none; for a word of one character or less, or
of more than fourteen, there is none. -/
theorem closest_is_first_within_half (word : String) :
    (∀ name, isClose word name = true ↔
      ∃ k, 2 * k ≤ word.toList.length ∧ EditsTo k word.toList name.toList) ∧
    (∀ info, closest? word = some info ↔ IsHalfway word info.name ∧
      ∃ before after, registry = before ++ info :: after ∧
        ∀ other ∈ before, ¬ IsHalfway word other.name) ∧
    (closest? word = none ↔ ∀ info ∈ registry, ¬ IsHalfway word info.name) ∧
    (word.toList.length < 2 ∨ 14 < word.toList.length → closest? word = none) := by
  have hnone : closest? word = none ↔ ∀ info ∈ registry, ¬ IsHalfway word info.name := by
    simp only [closest?, List.find?_eq_none, isClose_iff]
  refine ⟨isClose_iff word, fun info => ?_, hnone, fun hlength => ?_⟩
  · simp only [closest?, List.find?_eq_some_iff_append, isClose_iff, Bool.not_eq_true',
      ← Bool.not_eq_true]
  · refine hnone.mpr fun info hmem hword => ?_
    have hlengths := length_of_isHalfway hmem hword
    omega

/-- Of two names that are close to a word the one that stands first is chosen. -/
example : isClose "tint" "test" = true ∧ isClose "tint" "lint" = true ∧
    (closest? "tint").map (·.name) = some "test" := by decide

end Conductor
