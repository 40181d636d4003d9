import Conductor.Program
import Conductor.Text.Lowercase
import Mathlib.Data.List.Forall2

/-!
# The case of letters

Lower case leaves nothing that it would change again, because the form that it gives to a character
is never one that has another form (`lowercase_lowercase`). A capital and its small letter are alike
to everything that the lower case of a text depends on, also to a sigma that looks at its neighbours
(`lowercase_eq_of_sameButCase`). So an invocation does not depend on the case of letters.
-/

namespace Conductor

namespace Text

/-- The runs of characters that lower case changes. The dotted capital I is a run of its own. -/
def changingRuns : List CaseRun :=
  ⟨0x130, 0x130, 1, 0x69⟩ :: caseRuns

/-- Whether lower case leaves a character as it is, whatever stands around it. -/
def IsSmall (c : Char) : Prop :=
  ∀ run ∈ changingRuns, run.holds c.toNat = false

instance (c : Char) : Decidable (IsSmall c) :=
  inferInstanceAs (Decidable (∀ run ∈ changingRuns, _))

/-- Whether no lower-case form of a run is held by another run. Most runs are too far apart to look
at each form. -/
def CaseRun.keepsOutOf (run other : CaseRun) : Bool :=
  run.target + (run.last - run.first) < other.first || other.last < run.target ||
    (List.range (run.last - run.first + 1)).all fun k =>
      k % run.step != 0 || !other.holds (run.target + k)

theorem CaseRun.holds_eq_false_of_keepsOutOf {run other : CaseRun} {n : Nat}
    (h : run.keepsOutOf other = true) (hn : run.holds n = true) :
    other.holds (run.target + (n - run.first)) = false := by
  simp only [holds, Bool.and_eq_true, decide_eq_true_eq, beq_iff_eq] at hn
  obtain ⟨⟨hfirst, hlast⟩, hstep⟩ := hn
  have hle : n - run.first ≤ run.last - run.first := by omega
  simp only [keepsOutOf, Bool.or_eq_true, decide_eq_true_eq, List.all_eq_true, List.mem_range] at h
  rcases h with (hbelow | habove) | hall
  · have hout : ¬ other.first ≤ run.target + (n - run.first) := by omega
    simp [holds, hout]
  · have hout : ¬ run.target + (n - run.first) ≤ other.last := by omega
    simp [holds, hout]
  · simpa [hstep] using hall (n - run.first) (by omega)

theorem keepsOutOf_changingRuns {run other : CaseRun} (hrun : run ∈ caseRuns)
    (hother : other ∈ changingRuns) : run.keepsOutOf other = true := by
  have hall : (caseRuns.all fun run => changingRuns.all run.keepsOutOf) = true := by
    decide +kernel
  exact List.all_eq_true.mp (List.all_eq_true.mp hall run hrun) other hother

/-- No character changes to NUL, for which a number that is no character would stand. -/
theorem isSmall_nul : IsSmall '\x00' := by
  decide +kernel

theorem isSmall_lowercaseChar {c : Char} (h : c ≠ 'İ') : IsSmall (lowercaseChar c) := by
  rw [lowercaseChar]
  split
  next run hfind =>
    have hrun := List.mem_of_find?_eq_some hfind
    have hholds : run.holds c.toNat = true := by simpa using List.find?_some hfind
    intro other hother
    by_cases hvalid : (run.target + (c.toNat - run.first)).isValidChar
    · rw [Char.ofNat, dif_pos hvalid]
      exact CaseRun.holds_eq_false_of_keepsOutOf (keepsOutOf_changingRuns hrun hother) hholds
    · rw [Char.ofNat, dif_neg hvalid]
      exact isSmall_nul other hother
  next hfind =>
    refine List.forall_mem_cons.mpr ⟨?_, fun run hrun => ?_⟩
    · have hne : c.toNat ≠ 0x130 := fun heq => h (Char.toNat_inj.mp heq)
      simp only [CaseRun.holds, Bool.and_eq_false_iff, decide_eq_false_iff_not]
      exact .inl (by omega)
    · simpa using List.find?_eq_none.mp hfind run hrun

theorem isSmall_of_mem_lowercaseAt {before after : List Char} {c d : Char}
    (h : d ∈ lowercaseAt before c after) : IsSmall d := by
  have hall : (['ς', 'σ', 'i', '\u0307'].all fun d => decide (IsSmall d)) = true := by
    decide +kernel
  have hforms (d : Char) (hmem : d ∈ ['ς', 'σ', 'i', '\u0307']) : IsSmall d :=
    of_decide_eq_true (List.all_eq_true.mp hall d hmem)
  rw [lowercaseAt] at h
  split at h
  · refine hforms d ?_
    split at h <;> simp [List.mem_singleton.mp h]
  split at h
  · exact hforms d (List.mem_of_mem_drop (i := 2) h)
  next hdotted =>
    rw [List.mem_singleton.mp h]
    exact isSmall_lowercaseChar hdotted

theorem isSmall_of_mem_lowercaseFrom {before cs : List Char} {d : Char}
    (h : d ∈ lowercaseFrom before cs) : IsSmall d := by
  induction cs generalizing before with
  | nil => cases h
  | cons c cs ih =>
    rw [lowercaseFrom] at h
    rcases List.mem_append.mp h with h | h
    · exact isSmall_of_mem_lowercaseAt h
    · exact ih h

theorem lowercaseAt_of_isSmall {c : Char} (h : IsSmall c) (before after : List Char) :
    lowercaseAt before c after = [c] := by
  have hsigma : c ≠ 'Σ' := by
    rintro rfl
    exact absurd h (by decide +kernel)
  have hdotted : c ≠ 'İ' := by
    rintro rfl
    exact absurd h (by decide +kernel)
  have hfind : caseRuns.find? (·.holds c.toNat) = none :=
    List.find?_eq_none.mpr fun run hrun => by simpa using h run (List.mem_cons_of_mem _ hrun)
  rw [lowercaseAt, if_neg hsigma, if_neg hdotted, lowercaseChar, hfind]

theorem lowercaseFrom_of_isSmall {cs : List Char} (h : ∀ c ∈ cs, IsSmall c) (before : List Char) :
    lowercaseFrom before cs = cs := by
  induction cs generalizing before with
  | nil => rfl
  | cons c cs ih =>
    obtain ⟨hc, hcs⟩ := List.forall_mem_cons.mp h
    rw [lowercaseFrom, lowercaseAt_of_isSmall hc, ih hcs]
    rfl

/-- What is in lower case stays as it is. -/
theorem lowercase_lowercase (text : String) : lowercase (lowercase text) = lowercase text := by
  have hsmall : ∀ c ∈ lowercaseFrom [] text.toList, IsSmall c :=
    fun _ => isSmall_of_mem_lowercaseFrom
  rw [lowercase, lowercase, String.toList_ofList, lowercaseFrom_of_isSmall hsmall]

/-- The letters from A to Z. -/
def capitals : List Char :=
  (List.range 26).map fun k => Char.ofNat (0x41 + k)

theorem mem_capitals_of_isUpper {c : Char} (h : c.isUpper = true) : c ∈ capitals := by
  have hrange : 0x41 ≤ c.toNat ∧ c.toNat ≤ 0x5a := of_decide_eq_true h
  refine List.mem_map.mpr ⟨c.toNat - 0x41, List.mem_range.mpr (by omega), ?_⟩
  rw [Nat.add_sub_cancel' hrange.1, Char.ofNat_toNat]

/-- Whatever treats each capital like its small letter treats all characters so. -/
theorem apply_toLower {α : Type} [DecidableEq α] {f : Char → α}
    (h : (capitals.all fun c => decide (f c.toLower = f c)) = true) (c : Char) :
    f c.toLower = f c := by
  by_cases hc : c.isUpper = true
  · exact of_decide_eq_true (List.all_eq_true.mp h c (mem_capitals_of_isUpper hc))
  · have hlower : c.toLower = c := dif_neg fun hrange => hc (decide_eq_true hrange)
    rw [hlower]

theorem isCased_toLower (c : Char) : isCased c.toLower = isCased c :=
  apply_toLower (by decide +kernel) c

theorem isCaseIgnorable_toLower (c : Char) : isCaseIgnorable c.toLower = isCaseIgnorable c :=
  apply_toLower (by decide +kernel) c

theorem lowercaseChar_toLower (c : Char) : lowercaseChar c.toLower = lowercaseChar c :=
  apply_toLower (by decide +kernel) c

theorem toLower_eq_iff {d : Char}
    (h : (capitals.all fun c => decide ((c.toLower == d) = (c == d))) = true) (c : Char) :
    c.toLower = d ↔ c = d := by
  have hequal : (c.toLower == d) = (c == d) := apply_toLower (f := (· == d)) h c
  rw [← beq_iff_eq, hequal, beq_iff_eq]

theorem startsCased_toLower (cs : List Char) :
    startsCased (cs.map Char.toLower) = startsCased cs := by
  induction cs with
  | nil => rfl
  | cons c cs ih =>
    rw [startsCased, startsCased, List.map_cons, List.dropWhile_cons, List.dropWhile_cons,
      isCaseIgnorable_toLower]
    cases isCaseIgnorable c with
    | true => exact ih
    | false => exact isCased_toLower c

theorem lowercaseAt_toLower (before : List Char) (c : Char) (after : List Char) :
    lowercaseAt (before.map Char.toLower) c.toLower (after.map Char.toLower) =
      lowercaseAt before c after := by
  have hsigma : c.toLower = 'Σ' ↔ c = 'Σ' := toLower_eq_iff (by decide) c
  have hdotted : c.toLower = 'İ' ↔ c = 'İ' := toLower_eq_iff (by decide) c
  rw [lowercaseAt, lowercaseAt, endsWord, endsWord, startsCased_toLower, startsCased_toLower,
    lowercaseChar_toLower]
  simp only [hsigma, hdotted]

theorem lowercaseFrom_toLower (before cs : List Char) :
    lowercaseFrom (before.map Char.toLower) (cs.map Char.toLower) = lowercaseFrom before cs := by
  induction cs generalizing before with
  | nil => rfl
  | cons c cs ih =>
    rw [List.map_cons, lowercaseFrom, lowercaseAt_toLower, ← List.map_cons, ih, lowercaseFrom]

def SameButCase (a b : String) : Prop :=
  a.toList.map Char.toLower = b.toList.map Char.toLower

instance (a b : String) : Decidable (SameButCase a b) :=
  inferInstanceAs (Decidable (_ = _))

theorem lowercase_eq_of_sameButCase {a b : String} (h : SameButCase a b) :
    lowercase a = lowercase b := by
  rw [lowercase, lowercase, ← lowercaseFrom_toLower [] a.toList, h]
  exact congrArg String.ofList (lowercaseFrom_toLower [] b.toList)

end Text

namespace Invocation

def words (invocation : Invocation) : List String :=
  invocation.command :: invocation.arguments

theorem ofTokens_words {tokens : List String} {invocation : Invocation}
    (h : ofTokens tokens = some invocation) : ofTokens invocation.words = some invocation := by
  cases tokens with
  | nil => cases h
  | cons command arguments =>
    obtain rfl := Option.some.inj h
    simp [words, ofTokens, Function.comp_def, Text.lowercase_lowercase]

theorem ofTokens_eq_of_sameButCase {tokens tokens' : List String}
    (h : List.Forall₂ Text.SameButCase tokens tokens') : ofTokens tokens = ofTokens tokens' := by
  have hwords : tokens.map Text.lowercase = tokens'.map Text.lowercase := by
    induction h with
    | nil => rfl
    | cons hfirst _ ih =>
      rw [List.map_cons, List.map_cons, Text.lowercase_eq_of_sameButCase hfirst, ih]
  cases h with
  | nil => rfl
  | cons =>
    obtain ⟨hcommand, harguments⟩ := List.cons.inj hwords
    rw [ofTokens, ofTokens, hcommand, harguments]

end Invocation

/-- The command that the words on a command line mean, if there is one. -/
def resolveTokens (tokens : List String) : Act (Option Command) :=
  match Invocation.ofTokens tokens with
  | none => pure none
  | some invocation => resolve invocation

/-- The words of an invocation give the same invocation again. Words that differ only in the case of
letters give equal invocations, so that resolving them, and obeying them as a whole, ends in the
same way and in the same world, with the same questions asked. -/
theorem case_does_not_matter :
    (∀ tokens, (Invocation.ofTokens tokens).bind (fun invocation =>
      Invocation.ofTokens invocation.words) = Invocation.ofTokens tokens) ∧
    ∀ tokens tokens', List.Forall₂ Text.SameButCase tokens tokens' →
      Invocation.ofTokens tokens = Invocation.ofTokens tokens' ∧
      ∀ place world,
        (resolveTokens tokens).run place world = (resolveTokens tokens').run place world ∧
        Program.carryOut place world tokens = Program.carryOut place world tokens' := by
  refine ⟨fun tokens => ?_, fun tokens tokens' h => ?_⟩
  · cases htokens : Invocation.ofTokens tokens with
    | none => rfl
    | some invocation => exact Invocation.ofTokens_words htokens
  · have hequal := Invocation.ofTokens_eq_of_sameButCase h
    refine ⟨hequal, fun place world => ⟨?_, ?_⟩⟩
    · rw [resolveTokens, hequal, resolveTokens]
    · rw [Program.carryOut, Program.carryOut, obey, hequal, obey]

/-- A sigma at the end of a word is told from others by the letters before it, in either case. -/
theorem case_does_not_matter_sigma :
    let tokens := ["CLEAN", "kindΣ"]
    let tokens' := ["clean", "KIndΣ"]
    List.Forall₂ Text.SameButCase tokens tokens' ∧
      Invocation.ofTokens tokens = some ⟨"clean", ["kindς"]⟩ ∧
      Invocation.ofTokens tokens' = some ⟨"clean", ["kindς"]⟩ := by
  intro tokens tokens'
  have hsame : List.Forall₂ Text.SameButCase tokens tokens' :=
    .cons (by decide) (.cons (by decide) .nil)
  have hfirst : Invocation.ofTokens tokens = some ⟨"clean", ["kindς"]⟩ := by decide +kernel
  exact ⟨hsame, hfirst, (case_does_not_matter.2 tokens tokens' hsame).1 ▸ hfirst⟩

end Conductor
