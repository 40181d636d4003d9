import Conductor.Proofs.Literals
import Conductor.Toml.Document
import Mathlib.Data.List.Forall2

/-!
# Writing lines

Lists of strings, keys with their values, and headers, each on a line of its own. A text of such
lines denotes what the statements of its lines build (`parse?_ofLines`).
-/

namespace Conductor.Toml

/-! ## Lists -/

/-- Something that is not skipped comes first. -/
def Visible (cs : List Char) : Prop :=
  ∃ c rest, cs = c :: rest ∧ c ∉ [' ', '\t', '\n', '\r', '#', '\ufeff']

theorem Visible.append {cs : List Char} (h : Visible cs) (rest : List Char) :
    Visible (cs ++ rest) := by
  obtain ⟨c, more, rfl, hc⟩ := h
  exact ⟨c, more ++ rest, rfl, hc⟩

theorem Visible.dropSpaces {cs : List Char} (h : Visible cs) : dropSpaces cs = cs := by
  obtain ⟨c, rest, rfl, hc⟩ := h
  simp only [List.mem_cons, not_or] at hc
  simp [Toml.dropSpaces, isSpace, hc]

theorem Visible.skipLines {cs : List Char} (h : Visible cs) :
    skipLines false cs = some cs := by
  obtain ⟨c, rest, rfl, hc⟩ := h
  simp only [List.mem_cons, not_or] at hc
  obtain ⟨hspace, htab, hline, hreturn, hcomment, -⟩ := hc
  rw [skipLines.eq_def]
  split
  case h_1 heq => cases heq
  case h_2 heq =>
    cases heq
    exact absurd rfl hline
  case h_3 heq =>
    cases heq
    exact absurd rfl hreturn
  case h_4 heq =>
    cases heq
    simp [isSpace, hspace, htab, hcomment]

theorem length_skipLines_le {inComment : Bool} {cs rest : List Char}
    (h : skipLines inComment cs = some rest) : rest.length ≤ cs.length := by
  fun_induction skipLines inComment cs with
  | case1 =>
    cases h
    exact Nat.le_refl _
  | case2 inComment more ih => exact Nat.le_succ_of_le (ih h)
  | case3 inComment more ih => exact Nat.le_succ_of_le (Nat.le_succ_of_le (ih h))
  | case4 c more _ _ _ ih => exact Nat.le_succ_of_le (ih h)
  | case5 => cases h
  | case6 inComment c more _ _ _ _ ih => exact Nat.le_succ_of_le (ih h)
  | case7 inComment more _ _ _ _ ih => exact Nat.le_succ_of_le (ih h)
  | case8 =>
    cases h
    exact Nat.le_refl _

theorem visible_quoted (text : String) : Visible (quoted text).toList :=
  ⟨'"', _, toList_quoted text, by decide⟩

def joined (texts : List String) : String :=
  ", ".intercalate (texts.map quoted)

def listed (texts : List String) : String :=
  "[" ++ joined texts ++ "]"

theorem toList_joined_cons (text next : String) (texts : List String) :
    (joined (text :: next :: texts)).toList =
      (quoted text).toList ++ ',' :: ' ' :: (joined (next :: texts)).toList := by
  simp [joined, String.toList_intercalate]

theorem visible_joined (text : String) (texts : List String) :
    Visible (joined (text :: texts)).toList := by
  cases texts with
  | nil =>
    have hjoined : joined [text] = quoted text := by simp [joined]
    rw [hjoined]
    exact visible_quoted text
  | cons next texts =>
    rw [toList_joined_cons]
    exact (visible_quoted text).append _

section

variable {scan : Scan Value} {cs start more : List Char} {element : Value}
  (hskip : skipLines false cs = some start) (hstart : start.head? ≠ some ']')

include hskip hstart

theorem arrayRest_last (hread : scan start = some (element, ']' :: more)) :
    arrayRest scan cs = some ([element], more) := by
  have hend : Visible (']' :: more) := ⟨']', more, rfl, by decide⟩
  rw [arrayRest, hskip]
  split
  case h_1 heq => cases heq
  case h_2 heq =>
    cases heq
    exact absurd rfl hstart
  case h_3 heq =>
    cases heq
    simp [hread, hend.skipLines]

theorem arrayRest_more (hread : scan start = some (element, ',' :: more))
    (hlength : more.length < cs.length) :
    arrayRest scan cs =
      (arrayRest scan more).map fun (elements, rest) => (element :: elements, rest) := by
  have hcomma : Visible (',' :: more) := ⟨',', more, rfl, by decide⟩
  rw [arrayRest, hskip]
  split
  case h_1 heq => cases heq
  case h_2 heq =>
    cases heq
    exact absurd rfl hstart
  case h_3 heq =>
    cases heq
    simp [hread, hcomma.skipLines, hlength]

end

/-- The elements of a list, from where the first of them comes next. -/
theorem arrayRest_joined (depth : Nat) (text : String) (texts : List String) (rest : List Char)
    {cs : List Char}
    (h : skipLines false cs = some ((joined (text :: texts)).toList ++ ']' :: rest)) :
    arrayRest (value depth) cs = some ((text :: texts).map .string, rest) := by
  have hquote (text : String) (more : List Char) :
      ((quoted text).toList ++ more).head? ≠ some ']' := by
    simp [toList_quoted]
  induction texts generalizing text cs with
  | nil =>
    have hjoined : joined [text] = quoted text := by simp [joined]
    rw [hjoined] at h
    exact arrayRest_last h (hquote text _) (value_quoted depth text (by simp))
  | cons next texts ih =>
    rw [toList_joined_cons, List.append_assoc] at h
    have hlength := length_skipLines_le h
    have hread : value depth
        ((quoted text).toList ++ (',' :: ' ' :: (joined (next :: texts)).toList ++ ']' :: rest)) =
        some (.string text, ',' :: ' ' :: ((joined (next :: texts)).toList ++ ']' :: rest)) :=
      value_quoted depth text (by simp)
    have hnext : skipLines false (' ' :: ((joined (next :: texts)).toList ++ ']' :: rest)) =
        some ((joined (next :: texts)).toList ++ ']' :: rest) :=
      ((visible_joined next texts).append _).skipLines
    rw [arrayRest_more h (hquote text _) hread, ih next hnext]
    · rfl
    · simp at hlength ⊢
      omega

theorem visible_listed (texts : List String) : Visible (listed texts).toList :=
  ⟨'[', (joined texts).toList ++ [']'], by simp [listed], by decide⟩

theorem value_listed (depth : Nat) (texts : List String) (rest : List Char) :
    value (depth + 1) ((listed texts).toList ++ rest) =
      some (.array (texts.map .string), rest) := by
  have hlisted : (listed texts).toList ++ rest =
      '[' :: ((joined texts).toList ++ ']' :: rest) := by
    simp [listed]
  rw [hlisted, value.eq_def]
  change (arrayRest (value depth) _).map _ = _
  cases texts with
  | nil =>
    have hend : Visible (']' :: rest) := ⟨']', rest, rfl, by decide⟩
    have hjoined : joined [] = "" := rfl
    rw [hjoined, arrayRest]
    simp [hend.skipLines]
  | cons text texts =>
    rw [arrayRest_joined depth text texts rest ((visible_joined text texts).append _).skipLines]
    rfl

/-! ## Lines -/

structure IsBare (key : String) : Prop where
  visible : key ≠ ""
  chars : ∀ c ∈ key.toList, isBareKeyChar c = true

instance (key : String) : Decidable (IsBare key) :=
  decidable_of_iff (key ≠ "" ∧ key.toList.all isBareKeyChar = true)
    ⟨fun ⟨h, h'⟩ => ⟨h, List.all_eq_true.mp h'⟩, fun ⟨h, h'⟩ => ⟨h, List.all_eq_true.mpr h'⟩⟩

theorem IsBare.toList {key : String} (h : IsBare key) :
    ∃ c cs, key.toList = c :: cs ∧ isBareKeyChar c = true := by
  cases hkey : key.toList with
  | nil => exact absurd (String.toList_eq_nil_iff.mp hkey) h.visible
  | cons c cs => exact ⟨c, cs, rfl, h.chars c (by simp [hkey])⟩

theorem IsBare.visible_append {key : String} (h : IsBare key) (rest : List Char) :
    Visible (key.toList ++ rest) := by
  obtain ⟨c, cs, hkey, hc⟩ := h.toList
  refine ⟨c, cs ++ rest, by rw [hkey, List.cons_append], fun hmem => ?_⟩
  simp only [List.mem_cons, List.not_mem_nil, or_false] at hmem
  rcases hmem with rfl | rfl | rfl | rfl | rfl | rfl <;> cases hc

theorem simpleKey_bare {key : String} (h : IsBare key) {c : Char} (hc : isBareKeyChar c = false)
    (rest : List Char) : simpleKey (key.toList ++ c :: rest) = some (key, c :: rest) := by
  have htake : (key.toList ++ c :: rest).takeWhile isBareKeyChar = key.toList := by
    simp [List.takeWhile_append_of_pos h.chars, hc]
  have hdrop : (key.toList ++ c :: rest).dropWhile isBareKeyChar = c :: rest := by
    simp [List.dropWhile_append_of_pos h.chars, hc]
  have hne : key.toList ≠ [] := fun heq => h.visible (String.toList_eq_nil_iff.mp heq)
  obtain ⟨d, ds, hkey, hd⟩ := h.toList
  rw [simpleKey.eq_def]
  split
  case h_1 heq =>
    rw [hkey] at heq
    cases heq
    cases hd
  case h_2 heq =>
    rw [hkey] at heq
    cases heq
    cases hd
  case h_3 => simp [htake, hdrop, hne]

section

variable {key : String} (h : IsBare key) {c : Char} {rest : List Char}
  (hc : isBareKeyChar c = false) (hdot : (dropSpaces (c :: rest)).head? ≠ some '.')

include h hc hdot

/-- A bare key before something else than a dot. -/
theorem keyParts_bare {cs : List Char} (hstart : dropSpaces cs = key.toList ++ c :: rest) :
    keyParts cs = some ([key], dropSpaces (c :: rest)) := by
  rw [keyParts, hstart, simpleKey_bare h hc]
  dsimp only
  split
  case h_1 more heq => simp [heq] at hdot
  case h_2 => rfl

theorem dottedKey_bare {cs : List Char} (hstart : dropSpaces cs = key.toList ++ c :: rest) :
    dottedKey cs = some (([], key), dropSpaces (c :: rest)) := by
  rw [dottedKey, keyParts_bare h hc hdot hstart]
  rfl

/-- Two bare keys with a dot between them. -/
theorem dottedKey_pair {first : String} (hfirst : IsBare first) :
    dottedKey (first.toList ++ '.' :: (key.toList ++ c :: rest)) =
      some (([first], key), dropSpaces (c :: rest)) := by
  have hdropped : dropSpaces ('.' :: (key.toList ++ c :: rest)) =
      '.' :: (key.toList ++ c :: rest) := rfl
  have hparts : keyParts (first.toList ++ '.' :: (key.toList ++ c :: rest)) =
      some ([first, key], dropSpaces (c :: rest)) := by
    rw [keyParts, (hfirst.visible_append _).dropSpaces, simpleKey_bare hfirst (by decide)]
    simp only [hdropped]
    rw [if_pos (by simp; omega), keyParts_bare h hc hdot (h.visible_append _).dropSpaces]
    rfl
  rw [dottedKey, hparts]
  rfl

end

def entry (key written : String) : String := key ++ " = " ++ written

theorem visible_entry {key : String} (hkey : IsBare key) (written : String) :
    Visible (entry key written).toList := by
  have hentry : (entry key written).toList = key.toList ++ (" = ".toList ++ written.toList) := by
    simp [entry]
  rw [hentry]
  exact hkey.visible_append _

theorem keyValue_entry {scan : Scan Value} (key written : String) {found : Value}
    {cs rest : List Char} (hkey : IsBare key) (hwritten : Visible written.toList)
    (hstart : dropSpaces cs = (entry key written).toList ++ rest)
    (hread : scan (written.toList ++ rest) = some (found, rest)) :
    keyValue scan cs = some (([], key, found), dropSpaces rest) := by
  have hentry : (entry key written).toList ++ rest =
      key.toList ++ ' ' :: '=' :: ' ' :: (written.toList ++ rest) := by
    simp [entry]
  have hequals : dropSpaces (' ' :: '=' :: ' ' :: (written.toList ++ rest)) =
      '=' :: ' ' :: (written.toList ++ rest) := rfl
  have hspace : dropSpaces (' ' :: (written.toList ++ rest)) = written.toList ++ rest :=
    (hwritten.append _).dropSpaces
  rw [hentry] at hstart
  rw [keyValue, dottedKey_bare hkey (by decide) (by simp [hequals]) hstart, hequals]
  simp [hspace, hread]

section

variable {scan : Scan Value} {cs more : List Char} {pair : List String × String × Value}

theorem inlinePairs_last (hread : keyValue scan cs = some (pair, '}' :: more)) :
    inlinePairs scan cs = some ([pair], more) := by
  rw [inlinePairs, hread]
  rfl

theorem inlinePairs_more (hread : keyValue scan cs = some (pair, ',' :: more))
    (hlength : more.length < cs.length) :
    inlinePairs scan cs =
      (inlinePairs scan more).map fun (pairs, rest) => (pair :: pairs, rest) := by
  rw [inlinePairs, hread]
  exact if_pos hlength

/-- A table between braces. -/
theorem value_inline {depth : Nat} {start : List Char} {entries : Entries}
    {pairs : List (List String × String × Value)} (hstart : dropSpaces cs = start)
    (hbrace : start.head? ≠ some '}')
    (hread : inlinePairs (value depth) start = some (pairs, more))
    (hinsert : Entries.insertAll pairs [] = some entries) :
    value (depth + 1) ('{' :: cs) = some (.table (Entries.values entries), more) := by
  rw [value.eq_def]
  change inlineRest (value depth) cs = _
  rw [inlineRest, hstart]
  split
  case h_1 => exact absurd rfl hbrace
  case h_2 =>
    rw [hread]
    simp only [hinsert, Option.map_some]

end

/-- A line that reads as the statement. -/
structure Reads (line : String) (found : Statement) : Prop where
  visible : Visible line.toList
  read (rest : List Char) :
    statement (line.toList ++ '\n' :: rest) = some (found, '\n' :: rest)

theorem reads_entry (key written : String) {found : Value} (hkey : IsBare key)
    (hwritten : Visible written.toList)
    (hread : ∀ rest, value maxDepth (written.toList ++ '\n' :: rest) = some (found, '\n' :: rest)) :
    Reads (entry key written) (.pair [] key found) := by
  have hbracket (rest more : List Char) :
      (entry key written).toList ++ '\n' :: rest ≠ '[' :: more := by
    obtain ⟨c, cs, hcs, hc⟩ := hkey.toList
    have hentry : (entry key written).toList = c :: (cs ++ (" = ".toList ++ written.toList)) := by
      simp [entry, hcs]
    rw [hentry]
    intro heq
    rw [(List.cons.inj heq).1] at hc
    cases hc
  have hvisible := visible_entry hkey written
  refine ⟨hvisible, fun rest => ?_⟩
  rw [statement.eq_def]
  split
  case h_1 heq => exact absurd heq (hbracket rest _)
  case h_2 heq => exact absurd heq (hbracket rest _)
  case h_3 =>
    rw [keyValue_entry key written hkey hwritten (hvisible.append _).dropSpaces (hread rest)]
    rfl

/-- The header of a table. -/
theorem reads_header (written : String) {path : List String} {key : String}
    (hbracket : written.toList.head? ≠ some '[')
    (hread : ∀ rest, dottedKey (written.toList ++ ']' :: rest) =
      some ((path, key), ']' :: rest)) :
    Reads ("[" ++ written ++ "]") (.table path key) := by
  have hline (rest : List Char) : ("[" ++ written ++ "]").toList ++ '\n' :: rest =
      '[' :: (written.toList ++ ']' :: '\n' :: rest) := by
    simp
  refine ⟨⟨'[', written.toList ++ [']'], by simp, by decide⟩, fun rest => ?_⟩
  rw [hline, statement.eq_def]
  split
  case h_1 heq =>
    cases hcs : written.toList with
    | nil =>
      rw [hcs] at heq
      cases heq
    | cons c cs =>
      rw [hcs] at heq hbracket
      cases heq
      exact absurd rfl hbracket
  case h_2 more _ heq =>
    obtain rfl := (List.cons.inj heq).2
    rw [hread]
    rfl
  case h_3 _ h => exact absurd rfl (h _)

theorem IsBare.head?_ne {key : String} (h : IsBare key) : key.toList.head? ≠ some '[' := by
  obtain ⟨c, cs, hcs, hc⟩ := h.toList
  rw [hcs]
  intro heq
  cases heq
  cases hc

theorem reads_table (key : String) (hkey : IsBare key) :
    Reads ("[" ++ key ++ "]") (.table [] key) :=
  reads_header key hkey.head?_ne fun _ =>
    dottedKey_bare hkey (by decide) (by simp [dropSpaces, isSpace])
      (hkey.visible_append _).dropSpaces

theorem reads_subtable (first key : String) (hfirst : IsBare first) (hkey : IsBare key) :
    Reads ("[" ++ (first ++ "." ++ key) ++ "]") (.table [first] key) := by
  have hwritten (rest : List Char) :
      (first ++ "." ++ key).toList ++ rest = first.toList ++ '.' :: (key.toList ++ rest) := by
    simp
  refine reads_header _ ?_ fun rest => ?_
  · obtain ⟨c, cs, hcs, -⟩ := hfirst.toList
    have hhead := hfirst.head?_ne
    rw [hcs] at hhead
    simpa [hcs] using hhead
  · rw [hwritten]
    exact dottedKey_pair hkey (by decide) (by simp [dropSpaces, isSpace]) hfirst

theorem reads_element (key : String) (hkey : IsBare key) :
    Reads ("[[" ++ key ++ "]]") (.element [] key) := by
  have hline (rest : List Char) : ("[[" ++ key ++ "]]").toList ++ '\n' :: rest =
      '[' :: '[' :: (key.toList ++ ']' :: ']' :: '\n' :: rest) := by
    simp
  refine ⟨⟨'[', '[' :: (key.toList ++ [']', ']']), by simp, by decide⟩, fun rest => ?_⟩
  have hread : dottedKey (key.toList ++ ']' :: ']' :: '\n' :: rest) =
      some (([], key), ']' :: ']' :: '\n' :: rest) :=
    dottedKey_bare hkey (by decide) (by simp [dropSpaces, isSpace])
      (hkey.visible_append _).dropSpaces
  rw [hline, statement.eq_def]
  simp only [hread]

theorem statements_line {line : String} {found : Statement} (h : Reads line found)
    (rest : List Char) :
    statements (line.toList ++ '\n' :: rest) = (statements rest).map (found :: ·) := by
  have hstart := (h.visible.append ('\n' :: rest)).skipLines
  have hend : lineEnd? ('\n' :: rest) = some rest := rfl
  obtain ⟨c, cs, hcs, -⟩ := h.visible
  have hread := h.read rest
  rw [statements.eq_def, hstart]
  rw [hcs, List.cons_append] at hread ⊢
  simp only [hread, hend]
  rw [if_pos (by simp; omega)]

def ofLines (lines : List String) : String :=
  String.join (lines.map (· ++ "\n"))

theorem toList_ofLines (lines : List String) :
    (ofLines lines).toList = lines.flatMap fun line => line.toList ++ ['\n'] := by
  rw [ofLines, String.toList_join, List.flatMap_map]
  simp

/-- A text of lines is read line by line. -/
theorem statements_ofLines {lines : List String} {found : List Statement}
    (h : List.Forall₂ Reads lines found) : statements (ofLines lines).toList = some found := by
  rw [toList_ofLines]
  induction h with
  | nil =>
    rw [List.flatMap_nil, statements]
    rfl
  | cons hline _ ih =>
    rw [List.flatMap_cons, List.append_assoc, List.singleton_append, statements_line hline, ih]
    rfl

/-- A text without a mark denotes what its statements build. -/
theorem parse?_of_statements {text : String} {found : List Statement}
    (hmark : dropMark text.toList = text.toList) (h : statements text.toList = some found) :
    parse? text = (build? found).map Entries.values := by
  rw [parse?_eq_parseChars?, parseChars?, hmark, h, Option.bind_some]

theorem parse?_ofLines {lines : List String} {found : List Statement}
    (h : List.Forall₂ Reads lines found) :
    parse? (ofLines lines) = (build? found).map Entries.values := by
  have hmark : dropMark (ofLines lines).toList = (ofLines lines).toList := by
    cases h with
    | nil => rfl
    | cons hline _ =>
      obtain ⟨c, rest, hcs, hc⟩ := hline.visible
      rw [toList_ofLines, List.flatMap_cons, hcs, dropMark.eq_def]
      split
      case h_1 heq =>
        cases heq
        exact absurd (by decide) hc
      case h_2 => rfl
  exact parse?_of_statements hmark (statements_ofLines h)

end Conductor.Toml
