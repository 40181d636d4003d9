import Conductor.Toml.Grammar

/-! # TOML documents

A document is a table. Its statements fall into sections: the pairs before the first header, and
each header with the pairs that follow it.
-/

namespace Conductor.Toml

/-- The pairs at the start of a document, and the statements from the first header on. -/
def leadingPairs : List Statement → List (List String × String × Value) × List Statement
  | .pair path key value :: rest =>
    let (pairs, rest) := leadingPairs rest
    ((path, key, value) :: pairs, rest)
  | rest => ([], rest)

theorem leadingPairs_length (statements : List Statement) :
    (leadingPairs statements).2.length ≤ statements.length := by
  fun_induction leadingPairs statements with
  | case1 path key value rest pairs rest' h ih =>
    rw [h] at ih
    exact Nat.le_succ_of_le ih
  | case2 => exact Nat.le_refl _

def addSections (entries : Entries) : List Statement → Option Entries
  | [] => some entries
  | .table path key :: rest =>
    (entries.addTable path key (leadingPairs rest).1).bind fun entries =>
      addSections entries (leadingPairs rest).2
  | .element path key :: rest =>
    (entries.addElement path key (leadingPairs rest).1).bind fun entries =>
      addSections entries (leadingPairs rest).2
  | .pair _ _ _ :: _ => none
termination_by statements => statements.length
decreasing_by
  all_goals exact Nat.lt_succ_of_le (leadingPairs_length rest)

/-- The table that the statements build, unless one of them redefines something. -/
def build? (statements : List Statement) : Option Entries :=
  let (pairs, sections) := leadingPairs statements
  (Entries.insertAll pairs []).bind fun entries => addSections entries sections

def dropMark : List Char → List Char
  | '\ufeff' :: rest => rest
  | cs => cs

def parseChars? (cs : List Char) : Option Table :=
  ((statements (dropMark cs)).bind build?).map Entries.values

/-- The table that a text denotes, or `none` when it is no document. A text that begins with a NUL,
such as a large file that was never written to, is refused before it is taken apart. -/
def parse? (text : String) : Option Table :=
  if text.front? = some '\x00' then none else parseChars? text.toList

theorem statements_nul (rest : List Char) : statements ('\x00' :: rest) = none := by
  rw [statements]
  simp [skipLines, isSpace, statement, keyValue, dottedKey, keyParts, simpleKey, dropSpaces,
    isBareKeyChar]

/-- Whether a text begins with a NUL makes no difference to what it denotes. -/
theorem parse?_eq_parseChars? (text : String) : parse? text = parseChars? text.toList := by
  unfold parse?
  split
  next h =>
    rw [String.front?_eq, List.head?_eq_some_iff] at h
    obtain ⟨rest, h⟩ := h
    simp [h, parseChars?, dropMark, statements_nul]
  next => rfl

end Conductor.Toml
