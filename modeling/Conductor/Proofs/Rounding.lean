import Conductor.Number.Binary64
import Mathlib.Algebra.Order.Field.Rat
import Mathlib.Algebra.Order.Group.Int
import Mathlib.Algebra.Ring.Parity
import Mathlib.Data.Nat.Cast.Order.Field
import Mathlib.Tactic.FieldSimp
import Mathlib.Tactic.Linarith
import Mathlib.Tactic.Positivity
import Mathlib.Tactic.Ring

/-!
# Rounding to the nearest

A ratio that is rounded is at most half a unit away from the result, and no integer is nearer. An
integer below `2 ^ 64` is taken to the floating-point number that is nearest to it, and of two to
the even one (`isNearest_round`). Rounding keeps the order (`IsNearest.le_of_lt`).
-/

namespace Conductor.Number

/-- What is nearest to the greater of two numbers is not below what is nearest to the smaller. -/
theorem le_of_nearest {R : Type*} [CommRing R] [LinearOrder R] [IsStrictOrderedRing R]
    {a b x y : R} (h : a < b) (hx : |x - a| ≤ |y - a|) (hy : |y - b| ≤ |x - b|) : x ≤ y := by
  by_contra hlt
  have hprod : 0 < (x - y) * (b - a) := mul_pos (by linarith) (by linarith)
  have hxs := sq_le_sq.mpr hx
  have hys := sq_le_sq.mpr hy
  linarith

/-! ## Integers -/

section

variable {num den : Nat} (hden : 0 < den)

/-- Two integers are a unit apart, so the errors of both make up a unit. -/
theorem le_abs_add_abs {k : Int} (h : k ≠ roundHalfEven num den) :
    (den : Int) ≤ |k * den - num| + |(roundHalfEven num den * den : Int) - num| := by
  have hone : 1 ≤ |k - roundHalfEven num den| := Int.one_le_abs (sub_ne_zero.mpr h)
  calc (den : Int) ≤ |k - roundHalfEven num den| * den :=
        le_mul_of_one_le_left (Int.natCast_nonneg den) hone
    _ = |k * den - roundHalfEven num den * den| := by rw [← sub_mul, abs_mul, Nat.abs_cast]
    _ ≤ |k * den - num| + |(num : Int) - roundHalfEven num den * den| := abs_sub_le ..
    _ = _ := by rw [abs_sub_comm (num : Int)]

include hden

/-- The error is at most half a unit, and at half a unit the result is even. -/
theorem roundHalfEven_error (num : Nat) :
    2 * |(roundHalfEven num den * den : Int) - num| ≤ den ∧
      (2 * |(roundHalfEven num den * den : Int) - num| = den → Even (roundHalfEven num den)) := by
  have hrest : num % den < den := Nat.mod_lt num hden
  have hsplit : ((num / den : Nat) * den : Int) + (num % den : Nat) = num := by
    exact_mod_cast Nat.div_add_mod' num den
  have hdown : |((num / den : Nat) * den : Int) - num| = (num % den : Nat) := by
    rw [abs_of_nonpos (by linarith)]
    linarith
  have hup : |((num / den + 1 : Nat) * den : Int) - num| = den - (num % den : Nat) := by
    push_cast at hsplit ⊢
    rw [abs_of_nonneg (by linarith)]
    linarith
  simp only [roundHalfEven]
  split
  · rw [hdown]
    omega
  split
  · rw [hup]
    omega
  split
  · rw [hdown]
    exact ⟨by omega, fun _ => Nat.even_iff.mpr ‹_›⟩
  · rw [hup]
    exact ⟨by omega, fun _ => Nat.even_iff.mpr (by omega)⟩

/-- No integer is nearer. -/
theorem abs_roundHalfEven_le (num : Nat) (k : Int) :
    |(roundHalfEven num den * den : Int) - num| ≤ |k * den - num| := by
  rcases eq_or_ne k (roundHalfEven num den) with rfl | hne
  · exact le_refl _
  · have hhalf := (roundHalfEven_error hden num).1
    have hunit := le_abs_add_abs hne
    omega

/-- If another integer is as near, the result is even. -/
theorem even_roundHalfEven {k : Int} (hne : k ≠ roundHalfEven num den)
    (h : |k * den - num| = |(roundHalfEven num den * den : Int) - num|) :
    Even (roundHalfEven num den) := by
  have hhalf := roundHalfEven_error hden num
  have hunit := le_abs_add_abs hne
  exact hhalf.2 (by omega)

theorem roundHalfEven_mono {other : Nat} (h : num ≤ other) :
    roundHalfEven num den ≤ roundHalfEven other den := by
  rcases h.eq_or_lt with rfl | hlt
  · exact le_refl _
  · have hle := le_of_nearest (R := Int) (by exact_mod_cast hlt)
      (abs_roundHalfEven_le hden num (roundHalfEven other den))
      (abs_roundHalfEven_le hden other (roundHalfEven num den))
    exact_mod_cast le_of_mul_le_mul_right hle (by exact_mod_cast hden)

theorem roundHalfEven_mul (k : Nat) : roundHalfEven (k * den) den = k := by
  have hnear := abs_roundHalfEven_le hden (k * den) k
  rw [Nat.cast_mul, sub_self, abs_zero, abs_nonpos_iff, sub_eq_zero] at hnear
  exact Nat.eq_of_mul_eq_mul_right hden (by exact_mod_cast hnear)

theorem le_roundHalfEven {k : Nat} (h : k * den ≤ num) : k ≤ roundHalfEven num den := by
  have hmono := roundHalfEven_mono hden h
  rwa [roundHalfEven_mul hden] at hmono

theorem roundHalfEven_le {k : Nat} (h : num ≤ k * den) : roundHalfEven num den ≤ k := by
  have hmono := roundHalfEven_mono hden h
  rwa [roundHalfEven_mul hden] at hmono

end

theorem roundHalfEven_one (n : Nat) : roundHalfEven n 1 = n := by
  have hexact := roundHalfEven_mul Nat.one_pos n
  rwa [mul_one] at hexact

/-! ## Floating-point numbers -/

/-- The value of an integer times a power of two with the precision and the exponents of 64 bits. -/
structure IsForm (mantissa exponent : Int) (x : ℚ) : Prop where
  abs_lt : |mantissa| < mantissaLimit
  le_exponent : minExponent ≤ exponent
  exponent_le : exponent ≤ maxExponent
  eq : x = mantissa * 2 ^ exponent

def IsBinary64 (x : ℚ) : Prop :=
  ∃ mantissa exponent, IsForm mantissa exponent x

/-- The floating-point numbers whose integer is even when it has all bits that it can have. -/
def IsEven64 (x : ℚ) : Prop :=
  ∃ mantissa exponent, IsForm mantissa exponent x ∧ Even mantissa ∧
    (2 ^ 52 ≤ |mantissa| ∨ exponent = minExponent)

/-- The floating-point number nearest to a number, the even one if there are two. -/
structure IsNearest (a x : ℚ) : Prop where
  isBinary64 : IsBinary64 x
  le : ∀ y, IsBinary64 y → |x - a| ≤ |y - a|
  even : ∀ y, IsBinary64 y → y ≠ x → |y - a| = |x - a| → IsEven64 x

theorem IsNearest.le_of_lt {a b x y : ℚ} (hx : IsNearest a x) (hy : IsNearest b y) (h : a < b) :
    x ≤ y :=
  le_of_nearest h (hx.le y hy.isBinary64) (hy.le x hx.isBinary64)

theorem isForm_of_lt {mantissa exponent : Nat} (hmantissa : mantissa < 2 ^ 53)
    (hexponent : exponent ≤ 971) :
    IsForm mantissa exponent ((mantissa * 2 ^ exponent : Nat) : ℚ) := by
  refine ⟨?_, ?_, ?_, ?_⟩
  · rw [Nat.abs_cast, mantissaLimit]
    exact_mod_cast hmantissa
  · rw [minExponent]
    omega
  · rw [maxExponent]
    omega
  · push_cast
    rw [zpow_natCast]

/-- With one bit more there is still a form if the integer is a power of two. -/
theorem exists_isForm {mantissa exponent : Nat} (hmantissa : mantissa ≤ 2 ^ 53)
    (hexponent : exponent < 971) : ∃ m e : Int,
      IsForm m e ((mantissa * 2 ^ exponent : Nat) : ℚ) ∧ 0 ≤ e ∧ (Even mantissa → Even m) ∧
        (2 ^ 52 ≤ mantissa → 2 ^ 52 ≤ |m|) := by
  rcases hmantissa.lt_or_eq with hlt | rfl
  · refine ⟨mantissa, exponent, isForm_of_lt hlt hexponent.le, Int.natCast_nonneg _, ?_, ?_⟩
    · exact fun heven => (Int.even_coe_nat _).mpr heven
    · rw [Nat.abs_cast]
      exact fun hle => by exact_mod_cast hle
  · have hshift : 2 ^ 53 * 2 ^ exponent = 2 ^ 52 * 2 ^ (exponent + 1) := by ring
    rw [hshift]
    refine ⟨_, _, isForm_of_lt (by norm_num) hexponent, Int.natCast_nonneg _, fun _ => ?_,
      fun _ => ?_⟩
    · decide
    · decide

/-- The quotient by a power of two is exact as long as the exponent can be lowered. -/
theorem IsForm.div_two_pow {m e : Int} {x : ℚ} (h : IsForm m e x) {shift : Nat}
    (hshift : minExponent ≤ e - shift) : IsForm m (e - shift) (x / 2 ^ shift) := by
  refine ⟨h.abs_lt, hshift, ?_, ?_⟩
  · have hle := h.exponent_le
    omega
  · rw [h.eq, zpow_sub₀ two_ne_zero, zpow_natCast, mul_div_assoc]

/-- A number of this size has no bits below the unit. -/
theorem IsBinary64.exists_eq_mul {y : ℚ} (hy : IsBinary64 y) {exponent : Nat}
    (h : 2 ^ 52 * 2 ^ exponent ≤ |y|) : ∃ k : Int, y = k * 2 ^ exponent := by
  obtain ⟨m, e, hform⟩ := hy
  have htwo : (0 : ℚ) < 2 ^ e := zpow_pos two_pos e
  have hm : |(m : ℚ)| < 2 ^ 53 := by
    have hlt := hform.abs_lt
    rw [mantissaLimit] at hlt
    exact_mod_cast hlt
  have hpow : (2 : ℚ) ^ (52 + exponent : Int) < 2 ^ (53 + e) := by
    calc (2 : ℚ) ^ (52 + exponent : Int) = 2 ^ 52 * 2 ^ exponent := by
          rw [zpow_add₀ two_ne_zero, zpow_natCast]
          norm_num
      _ ≤ |(m : ℚ)| * 2 ^ e := by rwa [hform.eq, abs_mul, abs_of_pos htwo] at h
      _ < 2 ^ 53 * 2 ^ e := by gcongr
      _ = 2 ^ (53 + e) := by
          rw [zpow_add₀ two_ne_zero]
          norm_num
  have hle : (exponent : Int) ≤ e := by
    have hlt := (zpow_lt_zpow_iff_right₀ one_lt_two).mp hpow
    omega
  obtain ⟨shift, rfl⟩ := Int.le.dest hle
  refine ⟨m * 2 ^ shift, ?_⟩
  rw [hform.eq, zpow_add₀ two_ne_zero, zpow_natCast, zpow_natCast]
  push_cast
  ring

section

variable {n exponent : Nat} (hlow : exponent = 0 ∨ 2 ^ 52 * 2 ^ exponent ≤ n)

include hlow

/-- Among the floating-point numbers only multiples of the unit can be as near as the nearest
multiple: below the least number of this size all are farther away than that number, which is a
multiple itself. -/
theorem lt_or_exists_eq_mul {y : ℚ} (hy : IsBinary64 y) :
    |((roundHalfEven n (2 ^ exponent) * 2 ^ exponent : Nat) : ℚ) - n| < |y - n| ∨
      ∃ k : Int, y = k * 2 ^ exponent := by
  rcases hlow with rfl | hlow
  · rcases eq_or_ne y n with rfl | hne
    · exact .inr ⟨n, by simp⟩
    · rw [pow_zero, mul_one, roundHalfEven_one, sub_self, abs_zero]
      exact .inl (abs_pos.mpr (sub_ne_zero.mpr hne))
  · rcases le_or_gt (2 ^ 52 * 2 ^ exponent : ℚ) |y| with hle | hlt
    · exact .inr (hy.exists_eq_mul hle)
    · have hleast : (2 ^ 52 * 2 ^ exponent : ℚ) ≤ n := by exact_mod_cast hlow
      have hnear := abs_roundHalfEven_le (Nat.two_pow_pos exponent) n (2 ^ 52)
      left
      calc |((roundHalfEven n (2 ^ exponent) * 2 ^ exponent : Nat) : ℚ) - n|
          ≤ |2 ^ 52 * 2 ^ exponent - (n : ℚ)| := by exact_mod_cast hnear
        _ = n - 2 ^ 52 * 2 ^ exponent := by
          rw [abs_sub_comm]
          exact abs_of_nonneg (by linarith)
        _ < n - y := by linarith [le_abs_self y]
        _ ≤ |y - n| := by
          rw [abs_sub_comm]
          exact le_abs_self _

/-- An integer is rounded to a multiple of the unit that leaves it 53 bits. -/
theorem isNearest_round (hhigh : n ≤ 2 ^ 53 * 2 ^ exponent) (hexponent : exponent < 971) :
    IsNearest n ((roundHalfEven n (2 ^ exponent) * 2 ^ exponent : Nat) : ℚ) := by
  have hunit : 0 < 2 ^ exponent := Nat.two_pow_pos exponent
  obtain ⟨m, e, hform, -, heven, hbits⟩ :=
    exists_isForm (roundHalfEven_le hunit hhigh) hexponent
  refine ⟨⟨m, e, hform⟩, fun y hy => ?_, fun y hy hne htie => ?_⟩
  · rcases lt_or_exists_eq_mul hlow hy with hlt | ⟨k, rfl⟩
    · exact hlt.le
    · exact_mod_cast abs_roundHalfEven_le hunit n k
  · rcases lt_or_exists_eq_mul hlow hy with hlt | ⟨k, rfl⟩
    · exact absurd htie hlt.ne'
    · have hk : k ≠ roundHalfEven n (2 ^ exponent) := by
        rintro rfl
        exact hne (by push_cast; rfl)
      have htie' : |k * ((2 ^ exponent : Nat) : Int) - n| =
          |(roundHalfEven n (2 ^ exponent) * (2 ^ exponent : Nat) : Int) - n| := by
        exact_mod_cast htie
      refine ⟨m, e, hform, heven (even_roundHalfEven hunit hk htie'), .inl (hbits ?_)⟩
      rcases hlow with rfl | hlow
      · rw [pow_zero, roundHalfEven_one, Nat.cast_one, mul_one, mul_one, sub_self, abs_zero,
          abs_eq_zero, sub_eq_zero] at htie'
        rw [pow_zero, roundHalfEven_one] at hk
        exact absurd htie' hk
      · exact le_roundHalfEven hunit hlow

end

end Conductor.Number
