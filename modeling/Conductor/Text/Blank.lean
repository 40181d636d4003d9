import Conductor.Text.Ranges

/-! # Blank characters

The characters with the property White_Space, trimming them from the ends of a text, and the
words that stand between them.
-/

namespace Conductor.Text

/-- The characters with the property White_Space. -/
def blankRanges : List (Nat × Nat) :=
  [(0x9, 0xd), (0x20, 0x20), (0x85, 0x85), (0xa0, 0xa0), (0x1680, 0x1680), (0x2000, 0x200a),
    (0x2028, 0x2029), (0x202f, 0x202f), (0x205f, 0x205f), (0x3000, 0x3000)]

def isBlank (c : Char) : Bool :=
  inRanges blankRanges c.toNat

def dropEndWhile (p : Char → Bool) (cs : List Char) : List Char :=
  (cs.reverse.dropWhile p).reverse

def trim (text : String) : String :=
  String.ofList (dropEndWhile isBlank (text.toList.dropWhile isBlank))

/-- The maximal runs of characters that are not blank, in order. -/
def wordLists : List Char → List (List Char)
  | [] => []
  | c :: rest =>
    if isBlank c then wordLists rest
    else
      match rest, wordLists rest with
      | [], _ => [[c]]
      | d :: _, words =>
        if isBlank d then [c] :: words
        else
          match words with
          | [] => [[c]]
          | word :: more => (c :: word) :: more

def words (text : String) : List String :=
  (wordLists text.toList).map String.ofList

end Conductor.Text
