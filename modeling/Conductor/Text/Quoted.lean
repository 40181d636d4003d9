import Conductor.Text.PrintTable

/-! # Quoted text

A text between double quotes in which every character that could be misread is escaped.
-/

namespace Conductor.Text

def hexDigits (n : Nat) : List Char :=
  Nat.toDigits 16 n

def quoteChar (c : Char) : List Char :=
  match c with
  | '\x00' => ['\\', '0']
  | '\t' => ['\\', 't']
  | '\r' => ['\\', 'r']
  | '\n' => ['\\', 'n']
  | '\\' => ['\\', '\\']
  | '"' => ['\\', '"']
  | c =>
    if inRanges graphemeExtendRanges c.toNat || inRanges unprintableRanges c.toNat then
      ['\\', 'u', '{'] ++ hexDigits c.toNat ++ ['}']
    else [c]

def quoted (text : String) : String :=
  String.ofList ('"' :: text.toList.flatMap quoteChar ++ ['"'])

end Conductor.Text
