import Conductor.Number.Binary64

/-! # Sizes for people

A number of bytes is written with two decimals in the largest unit that it fills, each unit 1024
times the one before. The number is first taken to the nearest floating-point number.
-/

namespace Conductor.Size

def units : List String := ["B", "KB", "MB", "GB", "TB"]

/-- The number of bytes as a floating-point number, which is an integer again. -/
def approximate (bytes : Nat) : Nat :=
  match Number.nearest bytes 1 with
  | some (m, .ofNat k) => m * Nat.pow 2 k
  | some (m, .negSucc k) => m / Nat.pow 2 (k + 1)
  | none => bytes

/-- The number of the unit that `x` bytes fill, at most `top`. -/
def unitIndex (x : Nat) : Nat → Nat
  | 0 => 0
  | top + 1 => if Nat.pow 1024 (top + 1) ≤ x then top + 1 else unitIndex x top

/-- The hundredths of unit `unit` in `x` bytes, the even number at a tie. -/
def hundredths (x unit : Nat) : Nat :=
  Number.roundHalfEven (100 * x) (Nat.pow 1024 unit)

def twoPlaces (n : Nat) : String :=
  let rest := n % 100
  toString (n / 100) ++ "." ++ (if rest < 10 then "0" else "") ++ toString rest

def format (bytes : Nat) : String :=
  let x := approximate bytes
  let unit := unitIndex x 4
  twoPlaces (hundredths x unit) ++ " " ++ units.getD unit "TB"

end Conductor.Size
