import Conductor.Number.Binary64

/-! # The shortest decimal of a floating-point number

Of all decimals that read back as the number, the one with the fewest digits is written, of those
the nearest, and the larger at a tie. It is written without an exponent and always with a point.
-/

namespace Conductor.Number

/-- The reals that read back as `mantissa * 2 ^ exponent`, in units of `2 ^ (exponent - 2)`: the
lower end, the upper end, and whether the ends belong to them. -/
def readBack (mantissa : Nat) (exponent : Int) : Nat × Nat × Bool :=
  let below := if mantissa = mantissaLimit / 2 && minExponent < exponent then 1 else 2
  (4 * mantissa - below, 4 * mantissa + 2, mantissa % 2 == 0)

def readsBack (mantissa : Nat) (exponent : Int) (digits : Nat) (power : Int) : Bool :=
  let (low, high, closed) := readBack mantissa exponent
  let (num, den) := scaleDown 10 digits 1 (-power)
  let (num, den) := scaleDown 2 num den (exponent - 2)
  if closed then low * den ≤ num && num ≤ high * den
  else low * den < num && num < high * den

/-- The multiple of `10 ^ power` that reads back and is nearest, if one reads back. -/
def onGrid (mantissa : Nat) (exponent : Int) (power : Int) : Option Nat :=
  let (num, den) := scaleDown 2 mantissa 1 (-exponent)
  let (num, den) := scaleDown 10 num den power
  let low := num / den
  let high := low + 1
  let lowFits := 0 < low && readsBack mantissa exponent low power
  let highFits := readsBack mantissa exponent high power
  if lowFits && highFits then
    some (if 2 * (num % den) < den then low else high)
  else if lowFits then some low
  else if highFits then some high
  else none

/-- The first grid from `10 ^ power` downwards that holds a decimal reading back. -/
def firstGrid (mantissa : Nat) (exponent : Int) : Nat → Int → Option (Nat × Int)
  | 0, _ => none
  | fuel + 1, power =>
    match onGrid mantissa exponent power with
    | some digits => some (digits, power)
    | none => firstGrid mantissa exponent fuel (power - 1)

/-- The digits and the power of ten of the shortest decimal of a positive number. -/
def shortest (mantissa : Nat) (exponent : Int) : Nat × Int :=
  let size : Int := mantissa.log2 + exponent
  (firstGrid mantissa exponent 40 (size * 30103 / 100000 + 2)).getD (mantissa, 0)

/-- The decimal `digits * 10 ^ power` without an exponent, with at least one place. -/
def positional (digits : Nat) (power : Int) : String :=
  let ds := Nat.toDigits 10 digits
  match power with
  | .ofNat k => String.ofList (ds ++ List.replicate k '0' ++ ['.', '0'])
  | .negSucc k =>
    let padded := List.replicate (k + 2 - ds.length) '0' ++ ds
    let whole := padded.length - (k + 1)
    String.ofList (padded.take whole ++ '.' :: padded.drop whole)

def Binary64.text : Binary64 → String
  | .nan => "NaN"
  | .infinite negative => if negative then "-inf" else "inf"
  | .finite negative mantissa exponent =>
    let sign := if negative then "-" else ""
    if mantissa = 0 then sign ++ "0.0"
    else
      let (digits, power) := shortest mantissa exponent
      sign ++ positional digits power

end Conductor.Number
