import Conductor.Text.CaseTable

/-! # Lower case

Each character is replaced by its lower-case form. A capital sigma takes the final form at the
end of a word, so it needs to see its neighbours; the dotted capital I becomes two characters.
-/

namespace Conductor.Text

def isCased (c : Char) : Bool :=
  inRanges casedRanges c.toNat

def isCaseIgnorable (c : Char) : Bool :=
  inRanges caseIgnorableRanges c.toNat

def CaseRun.holds (run : CaseRun) (n : Nat) : Bool :=
  run.first ≤ n && n ≤ run.last && (n - run.first) % run.step == 0

/-- The lower-case form of a character, whatever stands around it. -/
def lowercaseChar (c : Char) : Char :=
  match caseRuns.find? (·.holds c.toNat) with
  | some run => Char.ofNat (run.target + (c.toNat - run.first))
  | none => c

/-- Whether the first character that is not passed over is a letter with case. -/
def startsCased (cs : List Char) : Bool :=
  match cs.dropWhile isCaseIgnorable with
  | [] => false
  | c :: _ => isCased c

/-- Whether a letter ends a word: a letter stands before it and none after it. -/
def endsWord (before after : List Char) : Bool :=
  startsCased before && !startsCased after

/-- The lower-case form of a character that stands between `before`, nearest first, and
`after`. -/
def lowercaseAt (before : List Char) (c : Char) (after : List Char) : List Char :=
  if c = 'Σ' then [if endsWord before after then 'ς' else 'σ']
  else if c = 'İ' then ['i', '\u0307']
  else [lowercaseChar c]

def lowercaseFrom (before : List Char) : List Char → List Char
  | [] => []
  | c :: after => lowercaseAt before c after ++ lowercaseFrom (c :: before) after

def lowercase (text : String) : String :=
  String.ofList (lowercaseFrom [] text.toList)

end Conductor.Text
