import Conductor.Toml.Characters

/-! # TOML strings

Basic strings have escapes, literal strings have none; both come in one line or in a block between
triple quotes. A block drops a newline right after its opening, ends its lines with a line feed
however they are written, and may have one or two quotes just before its closing.
-/

namespace Conductor.Toml

/-- What is read and what is left after it. -/
abbrev Scan (α : Type) := List Char → Option (α × List Char)

def simpleEscape? : Char → Option Char
  | 'b' => some '\x08'
  | 't' => some '\t'
  | 'n' => some '\n'
  | 'f' => some '\x0c'
  | 'r' => some '\r'
  | '"' => some '"'
  | '\\' => some '\\'
  | _ => none

/-- The character with the code point that the digits of base sixteen denote. -/
def scalar? (digits : List Char) : Option Char :=
  match number? 16 digits with
  | some n => if n.isValidChar then some (Char.ofNat n) else none
  | none => none

def consTo (c : Char) (scanned : Option (List Char × List Char)) :
    Option (List Char × List Char) :=
  scanned.map fun (text, rest) => (c :: text, rest)

/-- What a backslash at the end of a line makes a block skip. -/
inductive Skip
  | nothing
  /-- Blanks up to the end of the line, and all that follows it. -/
  | lineEnd
  /-- Blanks and ends of lines. -/
  | lines
  deriving DecidableEq

/-- The rest of a basic string after its opening quotes. -/
def basicBody (block : Bool) : Skip → Scan (List Char)
  | _, [] => none
  | skip, '"' :: rest =>
    if skip = .lineEnd then none
    else if block then
      match rest with
      | '"' :: '"' :: '"' :: '"' :: rest => some (['"', '"'], rest)
      | '"' :: '"' :: '"' :: rest => some (['"'], rest)
      | '"' :: '"' :: rest => some ([], rest)
      | _ => consTo '"' (basicBody block .nothing rest)
    else some ([], rest)
  | skip, '\\' :: c :: rest =>
    if skip = .lineEnd then none
    else
      match simpleEscape? c with
      | some d => consTo d (basicBody block .nothing rest)
      | none =>
        if c = 'u' then
          match rest with
          | x₁ :: x₂ :: x₃ :: x₄ :: rest =>
            (scalar? [x₁, x₂, x₃, x₄]).bind fun d => consTo d (basicBody block .nothing rest)
          | _ => none
        else if c = 'U' then
          match rest with
          | x₁ :: x₂ :: x₃ :: x₄ :: x₅ :: x₆ :: x₇ :: x₈ :: rest =>
            (scalar? [x₁, x₂, x₃, x₄, x₅, x₆, x₇, x₈]).bind fun d =>
              consTo d (basicBody block .nothing rest)
          | _ => none
        else if !block then none
        else if isSpace c then basicBody block .lineEnd rest
        else if c = '\n' then basicBody block .lines rest
        else if c = '\r' then
          match rest with
          | '\n' :: rest => basicBody block .lines rest
          | _ => none
        else none
  | skip, '\r' :: '\n' :: rest =>
    if !block then none
    else if skip = .nothing then consTo '\n' (basicBody block .nothing rest)
    else basicBody block .lines rest
  | skip, '\n' :: rest =>
    if !block then none
    else if skip = .nothing then consTo '\n' (basicBody block .nothing rest)
    else basicBody block .lines rest
  | skip, c :: rest =>
    if skip ≠ .nothing && isSpace c then basicBody block skip rest
    else if skip = .lineEnd then none
    else if isTextChar c then consTo c (basicBody block .nothing rest)
    else none

/-- The rest of a literal string after its opening quotes. -/
def literalBody (block : Bool) : Scan (List Char)
  | [] => none
  | '\'' :: rest =>
    if block then
      match rest with
      | '\'' :: '\'' :: '\'' :: '\'' :: rest => some (['\'', '\''], rest)
      | '\'' :: '\'' :: '\'' :: rest => some (['\''], rest)
      | '\'' :: '\'' :: rest => some ([], rest)
      | _ => consTo '\'' (literalBody block rest)
    else some ([], rest)
  | '\r' :: '\n' :: rest => if block then consTo '\n' (literalBody block rest) else none
  | '\n' :: rest => if block then consTo '\n' (literalBody block rest) else none
  | c :: rest => if isTextChar c then consTo c (literalBody block rest) else none

def dropNewline (cs : List Char) : List Char :=
  (newline? cs).getD cs

def lineString : Scan (List Char)
  | '"' :: rest => basicBody false .nothing rest
  | '\'' :: rest => literalBody false rest
  | _ => none

/-- A string of any of the four kinds. -/
def anyString : Scan (List Char)
  | '"' :: '"' :: '"' :: rest => basicBody true .nothing (dropNewline rest)
  | '\'' :: '\'' :: '\'' :: rest => literalBody true (dropNewline rest)
  | cs => lineString cs

end Conductor.Toml
