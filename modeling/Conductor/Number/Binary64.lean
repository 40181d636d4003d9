/-! # Binary floating point of 64 bits

A finite number is an integer below `2 ^ 53` times a power of two. Reading a ratio or a decimal
takes the nearest such number, and of two equally near ones the one with an even integer.
-/

namespace Conductor.Number

/-- A floating-point number; the finite ones are `mantissa * 2 ^ exponent`. -/
inductive Binary64
  | nan
  | infinite (negative : Bool)
  | finite (negative : Bool) (mantissa : Nat) (exponent : Int)
  deriving DecidableEq, Repr

/-- The integer nearest to `num / den`, the even one at a tie. -/
def roundHalfEven (num den : Nat) : Nat :=
  let q := num / den
  let r := num % den
  if 2 * r < den then q
  else if den < 2 * r then q + 1
  else if q % 2 = 0 then q
  else q + 1

/-- The ratio `num / den` divided by `base ^ power`, as a ratio. -/
def scaleDown (base num den : Nat) (power : Int) : Nat × Nat :=
  match power with
  | .ofNat k => (num, den * Nat.pow base k)
  | .negSucc k => (num * Nat.pow base (k + 1), den)

/-- What every mantissa stays below: two to the power of 53. -/
def mantissaLimit : Nat := 9007199254740992

def minExponent : Int := -1074

def maxExponent : Int := 971

/-- The exponent at which the ratio has an integer part of 53 bits, or the least exponent. -/
def fittingExponent (num den : Nat) : Int :=
  let low : Int := (num.log2 : Int) - (den.log2 : Int) - 53
  let (n, d) := scaleDown 2 num den low
  max minExponent (if n / d < mantissaLimit then low else low + 1)

/-- The finite number nearest to `num / den` as integer and exponent, or `none` when that is
beyond the greatest one. -/
def nearest (num den : Nat) : Option (Nat × Int) :=
  if num = 0 then some (0, minExponent)
  else
    let e := fittingExponent num den
    let (n, d) := scaleDown 2 num den e
    let m := roundHalfEven n d
    let (m, e) := if m = mantissaLimit then (mantissaLimit / 2, e + 1) else (m, e)
    if maxExponent < e then none else some (m, e)

namespace Binary64

def ofRatio (negative : Bool) (num den : Nat) : Binary64 :=
  match nearest num den with
  | some (m, e) => .finite negative m e
  | none => .infinite negative

/-- The number nearest to `digits * 10 ^ power`. Decimals far outside the range are decided by
their length alone. -/
def ofDecimal (negative : Bool) (digits : Nat) (power : Int) : Binary64 :=
  let size : Int := (Nat.toDigits 10 digits).length + power
  if digits = 0 || size < -330 then .finite negative 0 minExponent
  else if 310 < size then .infinite negative
  else
    let (num, den) := scaleDown 10 digits 1 (-power)
    ofRatio negative num den

end Binary64

end Conductor.Number
