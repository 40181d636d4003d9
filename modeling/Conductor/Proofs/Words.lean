import Conductor.CommandLine
import Mathlib.Data.List.TakeWhile

/-!
# Words of a command line

A text is cut at its blanks into words. Showing a command line and reading it again are inverse
exactly where its words are words of a text, and those of a line that was read always are
(`reading_inverts_showing`).
-/

namespace Conductor

namespace Text

def IsWord (cs : List Char) : Prop :=
  cs ≠ [] ∧ ∀ c ∈ cs, isBlank c = false

/-- The words of a text in their order. There may be blanks around them, and there is at least one
between two of them. -/
inductive Cut : List Char → List (List Char) → Prop
  | blank {gap : List Char} (hgap : ∀ c ∈ gap, isBlank c = true) : Cut gap []
  | last {gap word : List Char} (hgap : ∀ c ∈ gap, isBlank c = true) (hword : IsWord word) :
      Cut (gap ++ word) [word]
  | more {gap word rest : List Char} {c : Char} {words : List (List Char)}
      (hgap : ∀ c ∈ gap, isBlank c = true) (hword : IsWord word) (hc : isBlank c = true)
      (hrest : Cut rest words) : Cut (gap ++ (word ++ c :: rest)) (word :: words)

section

variable {c d : Char} {cs rest : List Char} {word : List Char} {words : List (List Char)}

theorem wordLists_cons_of_blank (hc : isBlank c = true) (rest : List Char) :
    wordLists (c :: rest) = wordLists rest := by
  cases rest <;> simp [wordLists, hc]

theorem wordLists_single (hc : isBlank c = false) : wordLists [c] = [[c]] := by
  simp [wordLists, hc]

theorem wordLists_cons_cons_of_blank (hc : isBlank c = false) (hd : isBlank d = true)
    (rest : List Char) : wordLists (c :: d :: rest) = [c] :: wordLists rest := by
  rw [wordLists, hc, wordLists_cons_of_blank hd, if_neg Bool.false_ne_true, if_pos hd]

theorem wordLists_cons_cons (hc : isBlank c = false) (hd : isBlank d = false)
    (h : wordLists (d :: rest) = word :: words) :
    wordLists (c :: d :: rest) = (c :: word) :: words := by
  rw [wordLists, hc, hd, h, if_neg Bool.false_ne_true, if_neg Bool.false_ne_true]

theorem wordLists_gap_append {gap : List Char} (h : ∀ c ∈ gap, isBlank c = true)
    (cs : List Char) : wordLists (gap ++ cs) = wordLists cs := by
  induction gap with
  | nil => rfl
  | cons c gap ih =>
    obtain ⟨hc, hgap⟩ := List.forall_mem_cons.mp h
    rw [List.cons_append, wordLists_cons_of_blank hc, ih hgap]

/-- A blank ends a word. -/
theorem wordLists_word_append (h : IsWord word) (hc : isBlank c = true) (rest : List Char) :
    wordLists (word ++ c :: rest) = word :: wordLists rest := by
  obtain ⟨hne, hall⟩ := h
  induction word with
  | nil => exact absurd rfl hne
  | cons d word ih =>
    obtain ⟨hd, hword⟩ := List.forall_mem_cons.mp hall
    cases word with
    | nil => exact wordLists_cons_cons_of_blank hd hc rest
    | cons e word => exact wordLists_cons_cons hd (hword e (by simp)) (ih (by simp) hword)

theorem wordLists_of_isWord (h : IsWord word) : wordLists word = [word] := by
  obtain ⟨hne, hall⟩ := h
  induction word with
  | nil => exact absurd rfl hne
  | cons d word ih =>
    obtain ⟨hd, hword⟩ := List.forall_mem_cons.mp hall
    cases word with
    | nil => exact wordLists_single hd
    | cons e word => exact wordLists_cons_cons hd (hword e (by simp)) (ih (by simp) hword)

theorem Cut.wordLists_eq (h : Cut cs words) : wordLists cs = words := by
  induction h with
  | @blank gap hgap =>
    have hwords := wordLists_gap_append hgap []
    rwa [List.append_nil] at hwords
  | last hgap hword => rw [wordLists_gap_append hgap, wordLists_of_isWord hword]
  | more hgap hword hc _ ih => rw [wordLists_gap_append hgap, wordLists_word_append hword hc, ih]

theorem Cut.isWord (h : Cut cs words) : ∀ word ∈ words, IsWord word := by
  induction h with
  | blank => simp
  | last _ hword => simpa using hword
  | more _ hword _ _ ih => exact List.forall_mem_cons.mpr ⟨hword, ih⟩

theorem Cut.cons_blank (hc : isBlank c = true) (h : Cut cs words) : Cut (c :: cs) words := by
  have hwider {gap : List Char} (hgap : ∀ d ∈ gap, isBlank d = true) :
      ∀ d ∈ c :: gap, isBlank d = true := List.forall_mem_cons.mpr ⟨hc, hgap⟩
  cases h with
  | blank hgap => exact .blank (hwider hgap)
  | last hgap hword => exact .last (hwider hgap) hword
  | more hgap hword hd hrest => exact .more (hwider hgap) hword hd hrest

theorem isWord_single (hc : isBlank c = false) : IsWord [c] := by
  simpa [IsWord] using hc

theorem IsWord.cons (hc : isBlank c = false) (h : IsWord word) : IsWord (c :: word) :=
  ⟨List.cons_ne_nil c word, List.forall_mem_cons.mpr ⟨hc, h.2⟩⟩

/-- A character that is not blank begins a word, or the one that follows becomes longer by it. -/
theorem Cut.exists_cons (hc : isBlank c = false) (h : Cut cs words) :
    ∃ words, Cut (c :: cs) words := by
  have hsingle := isWord_single hc
  have hgap : ∀ d ∈ [], isBlank d = true := by simp
  cases h with
  | blank hblank =>
    cases cs with
    | nil => exact ⟨_, .last hgap hsingle⟩
    | cons d gap =>
      obtain ⟨hd, hrest⟩ := List.forall_mem_cons.mp hblank
      exact ⟨_, .more hgap hsingle hd (.blank hrest)⟩
  | @last gap word hblank hword =>
    cases gap with
    | nil => exact ⟨_, .last hgap (hword.cons hc)⟩
    | cons d gap =>
      obtain ⟨hd, hrest⟩ := List.forall_mem_cons.mp hblank
      exact ⟨_, .more hgap hsingle hd (.last hrest hword)⟩
  | @more gap word rest d words hblank hword hd hmore =>
    cases gap with
    | nil => exact ⟨_, .more hgap (hword.cons hc) hd hmore⟩
    | cons e gap =>
      obtain ⟨he, hrest⟩ := List.forall_mem_cons.mp hblank
      exact ⟨_, .more hgap hsingle he (.more hrest hword hd hmore)⟩

/-- Every text has its words. -/
theorem cut_wordLists (cs : List Char) : Cut cs (wordLists cs) := by
  have hexists : ∃ words, Cut cs words := by
    induction cs with
    | nil => exact ⟨[], .blank (by simp)⟩
    | cons c cs ih =>
      obtain ⟨words, hwords⟩ := ih
      cases hc : isBlank c with
      | true => exact ⟨words, hwords.cons_blank hc⟩
      | false => exact hwords.exists_cons hc
  obtain ⟨words, hwords⟩ := hexists
  rwa [hwords.wordLists_eq]

theorem cut_iff : Cut cs words ↔ wordLists cs = words := by
  constructor
  · exact Cut.wordLists_eq
  · rintro rfl
    exact cut_wordLists cs

theorem wordLists_eq_nil_iff : wordLists cs = [] ↔ ∀ c ∈ cs, isBlank c = true := by
  constructor
  · intro h
    have hcut := cut_wordLists cs
    rw [h] at hcut
    cases hcut with
    | blank hgap => exact hgap
  · exact fun h => (Cut.blank h).wordLists_eq

/-- Words with a space between them are the words of what they make up. -/
theorem cut_intercalate (h : ∀ word ∈ words, IsWord word) :
    Cut ([' '].intercalate words) words := by
  induction words with
  | nil => exact .blank (by simp)
  | cons word words ih =>
    obtain ⟨hword, hrest⟩ := List.forall_mem_cons.mp h
    have hgap : ∀ c ∈ [], isBlank c = true := by simp
    cases words with
    | nil =>
      rw [List.intercalate_singleton]
      exact .last hgap hword
    | cons next words =>
      have hspace : isBlank ' ' = true := by decide
      have hmore := Cut.more hgap hword hspace (ih hrest)
      rwa [List.intercalate_cons_cons, List.append_assoc]

/-- A blank keeps the words before it and those after it apart. -/
theorem Cut.append {words' : List (List Char)} (h : Cut cs words) (hc : isBlank c = true)
    (h' : Cut rest words') : Cut (cs ++ c :: rest) (words ++ words') := by
  induction h with
  | @blank gap hgap =>
    induction gap with
    | nil => exact h'.cons_blank hc
    | cons d gap ih =>
      obtain ⟨hd, hgap⟩ := List.forall_mem_cons.mp hgap
      exact (ih hgap).cons_blank hd
  | last hgap hword =>
    rw [List.append_assoc]
    exact .more hgap hword hc h'
  | more hgap hword hd _ ih =>
    simp only [List.append_assoc, List.cons_append]
    exact .more hgap hword hd ih

theorem wordLists_append (hc : isBlank c = true) (cs rest : List Char) :
    wordLists (cs ++ c :: rest) = wordLists cs ++ wordLists rest :=
  ((cut_wordLists cs).append hc (cut_wordLists rest)).wordLists_eq

theorem wordLists_append_gap (cs : List Char) {gap : List Char}
    (h : ∀ c ∈ gap, isBlank c = true) : wordLists (cs ++ gap) = wordLists cs := by
  cases gap with
  | nil => rw [List.append_nil]
  | cons c gap =>
    obtain ⟨hc, hgap⟩ := List.forall_mem_cons.mp h
    rw [wordLists_append hc, wordLists_eq_nil_iff.mpr hgap, List.append_nil]

theorem wordLists_dropWhile (cs : List Char) :
    wordLists (cs.dropWhile isBlank) = wordLists cs := by
  have hgap : ∀ c ∈ cs.takeWhile isBlank, isBlank c = true := fun _ => List.mem_takeWhile_imp
  rw [← wordLists_gap_append hgap, List.takeWhile_append_dropWhile]

theorem wordLists_dropEndWhile (cs : List Char) :
    wordLists (dropEndWhile isBlank cs) = wordLists cs := by
  have hgap : ∀ c ∈ (cs.reverse.takeWhile isBlank).reverse, isBlank c = true := fun c hmem =>
    List.mem_takeWhile_imp (List.mem_reverse.mp hmem)
  rw [← wordLists_append_gap _ hgap, dropEndWhile, ← List.reverse_append,
    List.takeWhile_append_dropWhile, List.reverse_reverse]

end

/-- The blanks around a text belong to no word. -/
theorem words_trim (text : String) : words (trim text) = words text := by
  rw [words, words, trim, String.toList_ofList, wordLists_dropEndWhile, wordLists_dropWhile]

theorem words_append_space (text rest : String) :
    words (text ++ " " ++ rest) = words text ++ words rest := by
  have htexts : (text ++ " " ++ rest).toList = text.toList ++ ' ' :: rest.toList := by simp
  rw [words, htexts, wordLists_append (by decide), List.map_append, words, words]

theorem words_eq_nil_iff {text : String} :
    words text = [] ↔ ∀ c ∈ text.toList, isBlank c = true := by
  rw [words, List.map_eq_nil_iff, wordLists_eq_nil_iff]

end Text

namespace CommandLine

def words (line : CommandLine) : List String :=
  line.program :: line.arguments

theorem toList_display (line : CommandLine) :
    line.display.toList = [' '].intercalate (line.words.map String.toList) :=
  String.toList_intercalate

theorem parse?_eq_some_iff {text : String} {line : CommandLine} :
    parse? text = some line ↔ Text.Cut text.toList (line.words.map String.toList) := by
  have hwords : Text.words text = line.words ↔
      Text.wordLists text.toList = line.words.map String.toList := by
    constructor
    · intro h
      rw [← h, Text.words, List.map_map]
      simp
    · intro h
      rw [Text.words, h, List.map_map]
      simp
  rw [Text.cut_iff, ← hwords, parse?]
  cases line
  cases h : Text.words text <;> simp [words]

theorem parse?_eq_none_iff {text : String} :
    parse? text = none ↔ ∀ c ∈ text.toList, Text.isBlank c = true := by
  rw [← Text.wordLists_eq_nil_iff, parse?, Text.words]
  cases Text.wordLists text.toList <;> simp

/-- Reading what is shown of a command line gives the line back exactly if its words have characters
and no blanks. A text is read unless it is blank, and then as a line of just its own words in their
order, so that what is shown of this line has the same words again and is read as the same line. -/
theorem reading_inverts_showing :
    (∀ line : CommandLine, parse? line.display = some line ↔
      ∀ word ∈ line.words, Text.IsWord word.toList) ∧
    ∀ text : String, (parse? text = none ↔ ∀ c ∈ text.toList, Text.isBlank c = true) ∧
      ∀ line : CommandLine,
        (parse? text = some line ↔ Text.Cut text.toList (line.words.map String.toList)) ∧
        (parse? text = some line →
          (∀ word ∈ line.words, Text.IsWord word.toList) ∧
          Text.Cut line.display.toList (line.words.map String.toList) ∧
          parse? line.display = some line) := by
  have hwords {line : CommandLine} {text : String} (h : parse? text = some line) :
      ∀ word ∈ line.words, Text.IsWord word.toList := fun word hmem =>
    (parse?_eq_some_iff.mp h).isWord _ (List.mem_map_of_mem hmem)
  have hshown {line : CommandLine} (h : ∀ word ∈ line.words, Text.IsWord word.toList) :
      Text.Cut line.display.toList (line.words.map String.toList) := by
    rw [toList_display]
    exact Text.cut_intercalate (List.forall_mem_map.mpr h)
  refine ⟨fun line => ⟨hwords, fun h => parse?_eq_some_iff.mpr (hshown h)⟩, fun text =>
    ⟨parse?_eq_none_iff, fun line => ⟨parse?_eq_some_iff, fun h => ?_⟩⟩⟩
  exact ⟨hwords h, hshown (hwords h), parse?_eq_some_iff.mpr (hshown (hwords h))⟩

/-- Blanks of any kind are read, and single spaces are shown. -/
theorem reading_inverts_showing_spaced :
    let line : CommandLine := ⟨"ninja", ["-Cbuild", "-j4"]⟩
    parse? "  ninja\t-Cbuild\u2003 -j4\n" = some line ∧ line.display = "ninja -Cbuild -j4" ∧
      parse? line.display = some line := by
  intro line
  have hread : parse? "  ninja\t-Cbuild\u2003 -j4\n" = some line := by decide
  obtain ⟨-, -, hagain⟩ := ((reading_inverts_showing.2 _).2 line).2 hread
  exact ⟨hread, by decide, hagain⟩

end CommandLine

/-- A command line that was read begins with its program, and that with no blank. -/
theorem head?_display {text : String} {line : CommandLine}
    (h : CommandLine.parse? text = some line) : line.display.toList.head? ≠ some ' ' := by
  obtain ⟨hne, hblank⟩ := (CommandLine.parse?_eq_some_iff.mp h).isWord line.program.toList
    (by simp [CommandLine.words])
  obtain ⟨c, rest, hprogram⟩ := List.exists_cons_of_ne_nil hne
  have hc : Text.isBlank c = false := hblank c (by simp [hprogram])
  have hspace : c ≠ ' ' := by
    rintro rfl
    exact absurd hc (by decide)
  rw [CommandLine.toList_display, CommandLine.words]
  cases line.arguments <;> simpa [List.intercalate, hprogram] using hspace

end Conductor
