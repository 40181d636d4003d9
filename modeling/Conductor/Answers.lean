import Conductor.Failure

/-! # Answers to questions

Where answers come from: a list that is given beforehand, or a stream of bytes that is read line by
line. When nothing is left, every answer is empty.
-/

namespace Conductor

abbrev Answer := Except Failure String

/-- The bytes up to the first line feed, that included, and the bytes after it. -/
def cutLine : List UInt8 → List UInt8 × List UInt8
  | [] => ([], [])
  | b :: rest =>
    if b = 10 then ([b], rest)
    else
      let (line, more) := cutLine rest
      (b :: line, more)

def isLineEnd (c : Char) : Bool :=
  c = '\r' || c = '\n'

/-- The answer in a line of bytes, without the end of the line. -/
def answerOfLine (line : List UInt8) : Answer :=
  match String.fromUTF8? ⟨line.toArray⟩ with
  | some text => .ok (String.ofList ((text.toList.reverse.dropWhile isLineEnd).reverse))
  | none =>
    .error ((Failure.ofCause (.system .notText)).within "Failed to read answer from stdin")

inductive Answers
  | queue (answers : List Answer)
  | stream (bytes : List UInt8)

/-- The next answer, and where the ones after it come from. -/
def Answers.next : Answers → Answer × Answers
  | .queue [] => (.ok "", .queue [])
  | .queue (answer :: rest) => (answer, .queue rest)
  | .stream bytes =>
    let (line, rest) := cutLine bytes
    (answerOfLine line, .stream rest)

def Answers.take (answers : Answers) : Nat → List Answer
  | 0 => []
  | count + 1 => answers.next.1 :: answers.next.2.take count

end Conductor
