import Conductor.Toml.Strings
import Conductor.Toml.Value

/-! # TOML numbers, dates and booleans

These are written without quotes, in one run of characters; only a date and its time may have a
space between them. The run as a whole decides which of them it is.
-/

namespace Conductor.Toml

/-- The digits of a group in which single underscores may stand between digits. -/
def digitGroup? (base : Nat) : List Char → Option (List Char)
  | [] => none
  | [c] => if (digitValue? base c).isSome then some [c] else none
  | c :: '_' :: rest =>
    if (digitValue? base c).isSome then (digitGroup? base rest).map (c :: ·) else none
  | c :: rest =>
    if (digitValue? base c).isSome then (digitGroup? base rest).map (c :: ·) else none

/-- A decimal group that is `0` or has no zero in front. -/
def wholeGroup? (cs : List Char) : Option (List Char) :=
  match cs with
  | ['0'] => some ['0']
  | '0' :: _ => none
  | cs => digitGroup? 10 cs

def splitSign : List Char → Bool × List Char
  | '-' :: rest => (true, rest)
  | '+' :: rest => (false, rest)
  | cs => (false, cs)

def signed (negative : Bool) (n : Nat) : Int :=
  if negative then -n else n

def splitAtFirst (p : Char → Bool) (cs : List Char) : List Char × Option (List Char) :=
  match cs.dropWhile (! p ·) with
  | [] => (cs, none)
  | _ :: rest => (cs.takeWhile (! p ·), some rest)

def inIntegerRange (n : Int) : Bool :=
  -9223372036854775808 ≤ n && n ≤ 9223372036854775807

/-- The digits of an integer after its sign, to the base that its start names. -/
def magnitude? (isSigned : Bool) (cs : List Char) : Option Nat :=
  match cs with
  | '0' :: 'x' :: rest => if isSigned then none else (digitGroup? 16 rest).bind (number? 16)
  | '0' :: 'o' :: rest => if isSigned then none else (digitGroup? 8 rest).bind (number? 8)
  | '0' :: 'b' :: rest => if isSigned then none else (digitGroup? 2 rest).bind (number? 2)
  | cs => (wholeGroup? cs).bind (number? 10)

def integer? (cs : List Char) : Option Int :=
  let (negative, body) := splitSign cs
  (magnitude? (body.length < cs.length) body).bind fun n =>
    let value := signed negative n
    if inIntegerRange value then some value else none

def exponent? (cs : List Char) : Option Int :=
  let (negative, body) := splitSign cs
  ((digitGroup? 10 body).bind (number? 10)).map (signed negative)

/-- A decimal with a fraction, an exponent or both. Beyond the greatest number only a negative one
is accepted, as negative infinity. -/
def decimal? (cs : List Char) : Option Number.Binary64 := do
  let (negative, body) := splitSign cs
  let (mantissa, power) := splitAtFirst (fun c => c = 'e' || c = 'E') body
  let (whole, fraction) := splitAtFirst (· = '.') mantissa
  if power.isNone && fraction.isNone then none
  let whole ← wholeGroup? whole
  let places ← match fraction with
    | none => some []
    | some group => digitGroup? 10 group
  let power ← match power with
    | none => some 0
    | some exponent => exponent? exponent
  let digits ← number? 10 (whole ++ places)
  let value := Number.Binary64.ofDecimal negative digits (power - places.length)
  if value = .infinite false then none
  return value

/-- The words for infinity and for what is no number. -/
def special? (cs : List Char) : Option Number.Binary64 :=
  let (negative, body) := splitSign cs
  if body = ['i', 'n', 'f'] then some (.infinite negative)
  else if body = ['n', 'a', 'n'] then some .nan
  else none

def isLeapYear (year : Nat) : Bool :=
  year % 4 == 0 && (year % 100 != 0 || year % 400 == 0)

/-- The number of days of a month, none for a month that there is not. -/
def daysInMonth (year month : Nat) : Nat :=
  if month = 2 then if isLeapYear year then 29 else 28
  else if month = 4 || month = 6 || month = 9 || month = 11 then 30
  else if 1 ≤ month && month ≤ 12 then 31
  else 0

def afterDate? : List Char → Option (List Char)
  | y₁ :: y₂ :: y₃ :: y₄ :: '-' :: m₁ :: m₂ :: '-' :: d₁ :: d₂ :: rest => do
    let year ← number? 10 [y₁, y₂, y₃, y₄]
    let month ← number? 10 [m₁, m₂]
    let day ← number? 10 [d₁, d₂]
    if 1 ≤ day && day ≤ daysInMonth year month then some rest else none
  | _ => none

def afterPlaces? : List Char → Option (List Char)
  | '.' :: c :: rest => if c.isDigit then some (rest.dropWhile Char.isDigit) else none
  | '.' :: [] => none
  | rest => some rest

def afterMinutes? : List Char → Option (List Char)
  | h₁ :: h₂ :: ':' :: m₁ :: m₂ :: rest => do
    let hour ← number? 10 [h₁, h₂]
    let minute ← number? 10 [m₁, m₂]
    if hour < 24 && minute < 60 then some rest else none
  | _ => none

/-- What follows a time at the start of the text; a minute may have a leap second. -/
def afterTime? (cs : List Char) : Option (List Char) :=
  match afterMinutes? cs with
  | some (':' :: s₁ :: s₂ :: rest) => do
    let second ← number? 10 [s₁, s₂]
    if second ≤ 60 then afterPlaces? rest else none
  | _ => none

/-- Whether the text is empty or a distance from universal time. -/
def isOffset : List Char → Bool
  | [] => true
  | ['Z'] => true
  | ['z'] => true
  | '+' :: rest => afterMinutes? rest = some []
  | '-' :: rest => afterMinutes? rest = some []
  | _ => false

def isOffsetTime (cs : List Char) : Bool :=
  match afterTime? cs with
  | some rest => isOffset rest
  | none => false

def isDateTime (cs : List Char) : Bool :=
  match afterDate? cs with
  | some [] => true
  | some (c :: rest) => (c = 'T' || c = 't' || c = ' ') && isOffsetTime rest
  | none => afterTime? cs = some []

def scalarValue? (run : List Char) : Option Value :=
  if run = ['t', 'r', 'u', 'e'] then some (.boolean true)
  else if run = ['f', 'a', 'l', 's', 'e'] then some (.boolean false)
  else if isDateTime run then some (.dateTime (String.ofList run))
  else
    match integer? run with
    | some n => some (.integer n)
    | none => ((special? run).or (decimal? run)).map .float

/-- A number, a date or a boolean. A date takes in the run after one space when that run begins
with a digit. -/
def scalar (cs : List Char) : Option (Value × List Char) :=
  let run := cs.takeWhile isScalarChar
  let rest := cs.dropWhile isScalarChar
  match rest with
  | ' ' :: c :: more =>
    if c.isDigit && afterDate? run = some [] then
      let time := (c :: more).takeWhile isScalarChar
      (scalarValue? (run ++ ' ' :: time)).map fun value =>
        (value, (c :: more).dropWhile isScalarChar)
    else (scalarValue? run).map fun value => (value, rest)
  | _ => (scalarValue? run).map fun value => (value, rest)

end Conductor.Toml
