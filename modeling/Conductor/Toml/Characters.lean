/-! # Characters of TOML

The classes of characters that the grammar names, and the digits of numbers.
-/

namespace Conductor.Toml

/-- A space or a tab, the only blanks inside a line. -/
def isSpace (c : Char) : Bool :=
  c = ' ' || c = '\t'

/-- A character that may stand in a comment, or in a string when it has no meaning there. -/
def isTextChar (c : Char) : Bool :=
  c = '\t' || (0x20 ≤ c.toNat && c.toNat ≠ 0x7f)

def isBareKeyChar (c : Char) : Bool :=
  c.isAlphanum || c = '_' || c = '-'

/-- A character of a number, a date or a word such as a boolean. -/
def isScalarChar (c : Char) : Bool :=
  isBareKeyChar c || c = '+' || c = '.' || c = ':'

def hexValue? (c : Char) : Option Nat :=
  if c.isDigit then some (c.toNat - '0'.toNat)
  else if 'a' ≤ c && c ≤ 'f' then some (c.toNat - 'a'.toNat + 10)
  else if 'A' ≤ c && c ≤ 'F' then some (c.toNat - 'A'.toNat + 10)
  else none

def digitValue? (base : Nat) (c : Char) : Option Nat :=
  (hexValue? c).filter (· < base)

/-- The number that the digits denote, or `none` when there is none or one is no digit. -/
def number? (base : Nat) : List Char → Option Nat
  | [] => none
  | digits => digits.foldlM (fun n c => (digitValue? base c).map (base * n + ·)) 0

def dropSpaces (cs : List Char) : List Char :=
  cs.dropWhile isSpace

/-- The text after the end of a line, if it begins with one. -/
def newline? : List Char → Option (List Char)
  | '\n' :: rest => some rest
  | '\r' :: '\n' :: rest => some rest
  | _ => none

/-- What is skipped between statements and inside arrays: blanks, ends of lines, and comments. A
comment ends with its line or with the text. -/
def skipLines (inComment : Bool) : List Char → Option (List Char)
  | [] => some []
  | '\n' :: rest => skipLines false rest
  | '\r' :: '\n' :: rest => skipLines false rest
  | c :: rest =>
    if inComment then if isTextChar c then skipLines true rest else none
    else if isSpace c then skipLines false rest
    else if c = '#' then skipLines true rest
    else some (c :: rest)

/-- The text after what may follow a statement on its line. -/
def lineEnd? (cs : List Char) : Option (List Char) :=
  match dropSpaces cs with
  | [] => some []
  | '#' :: rest =>
    match rest.dropWhile isTextChar with
    | [] => some []
    | more => newline? more
  | more => newline? more

end Conductor.Toml
