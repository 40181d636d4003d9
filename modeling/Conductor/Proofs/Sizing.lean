import Conductor.Proofs.Rounding
import Conductor.Size
import Mathlib.Order.Bounds.Defs

/-!
# Sizes as they are written

A number of bytes is taken to the nearest floating-point number, the unit is the largest that this
fills, and what is written is at most half a hundredth of the unit away
(`format_is_close_and_ordered`).

* `divideDown_eq`: the unit is the one at which dividing by 1024 over and over comes to its end, and
  no division is rounded (`isBinary64_div`).
* `shown_mono`: a greater number of bytes is never written as a smaller size, also where the unit
  changes. Below the boundary at most the boundary itself is written (`shown_le`), and from there on
  at least that (`le_shown`).
-/

namespace Conductor.Size

open Number

/-! ## The number of bytes -/

/-- The exponent that leaves an integer 53 bits. -/
theorem fittingExponent_one {n : Nat} (h : n ≠ 0) : fittingExponent n 1 = n.log2 - 52 := by
  have hpow := Nat.log2_self_le h
  have hlow : (n.log2 : Int) - (Nat.log2 1 : Int) - 53 = n.log2 - 53 := by
    rw [show Nat.log2 1 = 0 by decide, Nat.cast_zero, sub_zero]
  have hlarge : ¬ (scaleDown 2 n 1 (n.log2 - 53)).1 / (scaleDown 2 n 1 (n.log2 - 53)).2 <
      mantissaLimit := by
    rw [mantissaLimit, Nat.not_lt]
    rcases Nat.lt_or_ge n.log2 53 with hlt | hle
    · obtain ⟨k, hk⟩ := Nat.exists_eq_add_of_lt hlt
      have hexponent : (n.log2 : Int) - 53 = Int.negSucc k := by
        rw [Int.negSucc_eq]
        omega
      rw [hexponent, scaleDown, Nat.div_one, Nat.pow_eq]
      calc 9007199254740992 = 2 ^ (n.log2 + (k + 1)) := by rw [← add_assoc, ← hk]; norm_num
        _ = 2 ^ n.log2 * 2 ^ (k + 1) := pow_add ..
        _ ≤ n * 2 ^ (k + 1) := Nat.mul_le_mul_right _ hpow
    · obtain ⟨k, hk⟩ := Nat.exists_eq_add_of_le hle
      have hexponent : (n.log2 : Int) - 53 = Int.ofNat k := by
        rw [hk, Int.ofNat_eq_natCast]
        omega
      rw [hexponent, scaleDown, one_mul, Nat.pow_eq, Nat.le_div_iff_mul_le (Nat.two_pow_pos k)]
      rwa [hk, pow_add] at hpow
  simp only [fittingExponent, hlow, if_neg hlarge, minExponent]
  omega

/-- The exponent of the unit in which an integer is counted as a floating-point number. -/
def grain (n : Nat) : Nat :=
  n.log2 - 52

theorem approximate_of_ofNat {n m k : Nat} (h : nearest n 1 = some (m, Int.ofNat k)) :
    approximate n = m * 2 ^ k := by
  rw [approximate, h]
  rfl

theorem approximate_of_negSucc {n m k : Nat} (h : nearest n 1 = some (m, Int.negSucc k)) :
    approximate n = m / 2 ^ (k + 1) := by
  rw [approximate, h]
  rfl

/-- An integer with fewer than 53 bits is exact. -/
theorem approximate_of_log2_lt {n k : Nat} (hn : n ≠ 0) (hk : n.log2 + k + 1 = 52) :
    approximate n = n := by
  have hexponent : (n.log2 : Int) - 52 = Int.negSucc k := by
    rw [Int.negSucc_eq]
    omega
  have hbits : n * 2 ^ (k + 1) < mantissaLimit := by
    calc n * 2 ^ (k + 1) < 2 ^ (n.log2 + 1) * 2 ^ (k + 1) :=
          Nat.mul_lt_mul_of_pos_right Nat.lt_log2_self (Nat.two_pow_pos _)
      _ = 2 ^ (n.log2 + k + 1 + 1) := by ring
      _ = mantissaLimit := by rw [hk, mantissaLimit]; norm_num
  have hrange : ¬ maxExponent < Int.negSucc k := by
    rw [maxExponent, Int.negSucc_eq]
    omega
  have hnearest : nearest n 1 = some (n * 2 ^ (k + 1), Int.negSucc k) := by
    simp only [nearest, if_neg hn, fittingExponent_one hn, hexponent, scaleDown, Nat.pow_eq,
      roundHalfEven_one, if_neg hbits.ne, if_neg hrange]
  rw [approximate_of_negSucc hnearest, Nat.mul_div_cancel n (Nat.two_pow_pos (k + 1))]

/-- With more bits an integer is rounded to 53 of them. If they are all carried, the count is halved
and the exponent is one more, which is the same number. -/
theorem approximate_of_log2_eq {n k : Nat} (hn : n ≠ 0) (hk : n.log2 = 52 + k) (h : k < 12) :
    approximate n = roundHalfEven n (2 ^ k) * 2 ^ k := by
  have hexponent : (n.log2 : Int) - 52 = Int.ofNat k := by
    rw [hk, Int.ofNat_eq_natCast]
    omega
  have hrange : ¬ maxExponent < Int.ofNat k ∧ ¬ maxExponent < Int.ofNat k + 1 := by
    rw [maxExponent, Int.ofNat_eq_natCast]
    omega
  rcases eq_or_ne (roundHalfEven n (2 ^ k)) mantissaLimit with hfull | hfull
  · have hnearest : nearest n 1 = some (mantissaLimit / 2, Int.ofNat (k + 1)) := by
      simp only [nearest, if_neg hn, fittingExponent_one hn, hexponent, scaleDown, Nat.pow_eq,
        one_mul, if_pos hfull]
      exact if_neg hrange.2
    rw [approximate_of_ofNat hnearest, hfull, pow_succ, mantissaLimit]
    ring
  · have hnearest : nearest n 1 = some (roundHalfEven n (2 ^ k), Int.ofNat k) := by
      simp only [nearest, if_neg hn, fittingExponent_one hn, hexponent, scaleDown, Nat.pow_eq,
        one_mul, if_neg hfull, if_neg hrange.1]
    rw [approximate_of_ofNat hnearest]

/-- An integer is counted in units of its size, and the count is rounded. -/
theorem approximate_eq {n : Nat} (h : n < 2 ^ 64) :
    approximate n = roundHalfEven n (2 ^ grain n) * 2 ^ grain n := by
  rcases eq_or_ne n 0 with rfl | hn
  · have hnearest : nearest 0 1 = some (0, Int.negSucc 1073) := rfl
    have hgrain : grain 0 = 0 := rfl
    rw [approximate_of_negSucc hnearest, hgrain, pow_zero, roundHalfEven_one, mul_one, Nat.zero_div]
  rcases Nat.lt_or_ge n.log2 52 with hlt | hle
  · obtain ⟨k, hk⟩ := Nat.exists_eq_add_of_lt hlt
    have hgrain : grain n = 0 := Nat.sub_eq_zero_of_le hlt.le
    rw [approximate_of_log2_lt hn hk.symm, hgrain, pow_zero, roundHalfEven_one, mul_one]
  · obtain ⟨k, hk⟩ := Nat.exists_eq_add_of_le hle
    have hlog : n.log2 < 64 := (Nat.log2_lt hn).mpr h
    have hgrain : grain n = k := by
      rw [grain, hk, Nat.add_sub_cancel_left]
    rw [hgrain, approximate_of_log2_eq hn hk (by omega)]

theorem grain_lt {n : Nat} (h : n < 2 ^ 64) : grain n < 12 := by
  rcases eq_or_ne n 0 with rfl | hn
  · decide
  · have hlog : n.log2 < 64 := (Nat.log2_lt hn).mpr h
    rw [grain]
    omega

/-- The count takes 53 bits, unless the integer has fewer. -/
theorem grain_eq_zero_or_le (n : Nat) : grain n = 0 ∨ 2 ^ 52 * 2 ^ grain n ≤ n := by
  rcases Nat.eq_zero_or_pos (grain n) with hzero | hpos
  · exact .inl hzero
  · have hn : n ≠ 0 := by
      rintro rfl
      cases hpos
    have hlog : 52 + grain n = n.log2 := by
      rw [grain] at hpos ⊢
      omega
    rw [← pow_add, hlog]
    exact .inr (Nat.log2_self_le hn)

theorem lt_grain (n : Nat) : n < 2 ^ 53 * 2 ^ grain n := by
  rw [← pow_add]
  refine Nat.lt_of_lt_of_le Nat.lt_log2_self (Nat.pow_le_pow_right two_pos ?_)
  rw [grain]
  omega

section

variable {n : Nat} (hn : n < 2 ^ 64)

include hn

/-- A number of bytes is taken to the nearest floating-point number. -/
theorem isNearest_approximate : IsNearest n (approximate n) := by
  have hgrain := grain_lt hn
  rw [approximate_eq hn]
  exact isNearest_round (grain_eq_zero_or_le n) (lt_grain n).le (by omega)

theorem approximate_mono {m : Nat} (hm : m < 2 ^ 64) (h : n ≤ m) :
    approximate n ≤ approximate m := by
  rcases h.eq_or_lt with rfl | hlt
  · exact le_refl _
  · have hle := (isNearest_approximate hn).le_of_lt (isNearest_approximate hm)
      (by exact_mod_cast hlt)
    exact_mod_cast hle

/-- Dividing by units stays exact. -/
theorem isBinary64_div {unit : Nat} (hunit : unit ≤ 4) :
    IsBinary64 (approximate n / 1024 ^ unit) := by
  have hgrain : grain n < 971 := (grain_lt hn).trans (by decide)
  have hmantissa := roundHalfEven_le (Nat.two_pow_pos (grain n)) (lt_grain n).le
  obtain ⟨m, e, hform, hpos, -⟩ := exists_isForm hmantissa hgrain
  have hpow : (1024 : ℚ) ^ unit = 2 ^ (10 * unit) := by
    rw [pow_mul]
    norm_num
  rw [approximate_eq hn, hpow]
  refine ⟨m, _, hform.div_two_pow ?_⟩
  rw [minExponent]
  omega

end

/-- Below `2 ^ 53` every integer is a floating-point number. -/
theorem approximate_eq_self {n : Nat} (h : n < 2 ^ 53) : approximate n = n := by
  have hgrain : grain n = 0 := by
    rcases grain_eq_zero_or_le n with hzero | hle
    · exact hzero
    · rcases Nat.eq_zero_or_pos (grain n) with hzero | hpos
      · exact hzero
      · have htwo : 2 ^ 1 ≤ 2 ^ grain n := Nat.pow_le_pow_right two_pos hpos
        omega
  rw [approximate_eq (by omega), hgrain, pow_zero, roundHalfEven_one, mul_one]

/-! ## The unit and the number in it -/

/-- The unit is the largest that is filled. -/
theorem isGreatest_unitIndex (x top : Nat) :
    IsGreatest {unit | unit ≤ top ∧ (unit = 0 ∨ 1024 ^ unit ≤ x)} (unitIndex x top) := by
  induction top with
  | zero => exact ⟨⟨le_refl _, .inl rfl⟩, fun unit h => h.1⟩
  | succ top ih =>
    rw [unitIndex]
    split
    · rename_i hfilled
      exact ⟨⟨le_refl _, .inr hfilled⟩, fun unit h => h.1⟩
    · rename_i hnot
      obtain ⟨⟨hle, hfilled⟩, hgreatest⟩ := ih
      refine ⟨⟨Nat.le_succ_of_le hle, hfilled⟩, fun unit h => hgreatest ⟨?_, h.2⟩⟩
      rcases h.1.eq_or_lt with rfl | hlt
      · exact absurd (h.2.resolve_left (Nat.succ_ne_zero top)) hnot
      · exact Nat.le_of_lt_succ hlt

theorem unitIndex_lt (x : Nat) : unitIndex x 4 < units.length :=
  Nat.lt_succ_of_le (isGreatest_unitIndex x 4).1.1

theorem lt_pow_of_unitIndex_lt {x unit : Nat} (h : unitIndex x 4 < unit) (hunit : unit ≤ 4) :
    x < 1024 ^ unit := by
  by_contra hle
  have hmem := (isGreatest_unitIndex x 4).2 ⟨hunit, .inr (Nat.le_of_not_lt hle)⟩
  omega

/-- Dividing by 1024 as long as at least 1024 is left and there is room, and counting. -/
def divideDown (size : ℚ) (unit : Nat) : Nat → ℚ × Nat
  | 0 => (size, unit)
  | room + 1 => if 1024 ≤ size then divideDown (size / 1024) (unit + 1) room else (size, unit)

theorem pow_unit_pos (unit : Nat) : 0 < 1024 ^ unit := Nat.pow_pos (by decide)

/-- From a unit that is filled the division goes on to the largest one. -/
theorem divideDown_div_pow {x unit : Nat} (h : unit = 0 ∨ 1024 ^ unit ≤ x) (room : Nat) :
    divideDown (x / 1024 ^ unit) unit room =
      ((x : ℚ) / 1024 ^ unitIndex x (unit + room), unitIndex x (unit + room)) := by
  induction room generalizing unit with
  | zero =>
    have hunit : unitIndex x unit = unit :=
      (isGreatest_unitIndex x unit).unique ⟨⟨le_refl _, h⟩, fun _ hother => hother.1⟩
    rw [divideDown, add_zero, hunit]
  | succ room ih =>
    have hfilled : (1024 : ℚ) ≤ x / 1024 ^ unit ↔ 1024 ^ (unit + 1) ≤ x := by
      rw [le_div_iff₀ (by positivity), ← pow_succ']
      exact_mod_cast Iff.rfl
    rw [divideDown]
    split
    · rename_i hle
      rw [div_div, ← pow_succ, ih (.inr (hfilled.mp hle)), add_right_comm, add_assoc]
    · rename_i hnot
      have hunit : unitIndex x (unit + (room + 1)) = unit := by
        refine (isGreatest_unitIndex x _).unique ⟨⟨Nat.le_add_right .., h⟩, fun other hother => ?_⟩
        by_contra hlt
        refine hnot (hfilled.mpr ((Nat.pow_le_pow_right (by decide) ?_).trans
          (hother.2.resolve_left ?_)))
        · omega
        · omega
      rw [hunit]

/-- The division arrives at the unit that is written. -/
theorem divideDown_eq (x : Nat) :
    divideDown x 0 4 = ((x : ℚ) / 1024 ^ unitIndex x 4, unitIndex x 4) := by
  have hall := divideDown_div_pow (.inl rfl : 0 = 0 ∨ 1024 ^ 0 ≤ x) 4
  rwa [pow_zero, div_one, zero_add] at hall

/-- The size that is written, in hundredths of a byte. -/
def shown (x : Nat) : Nat :=
  hundredths x (unitIndex x 4) * 1024 ^ unitIndex x 4


/-- What is written is at most half a hundredth of the unit away. -/
theorem two_mul_abs_shown_sub_le (x : Nat) :
    2 * |(shown x : Int) - (100 * x : Nat)| ≤ 1024 ^ unitIndex x 4 := by
  have herror := (roundHalfEven_error (pow_unit_pos (unitIndex x 4)) (100 * x)).1
  rw [shown, hundredths, Nat.pow_eq]
  exact_mod_cast herror

/-- At least one of the unit is written, unless it is the first. -/
theorem le_shown {x : Nat} (hpos : 0 < unitIndex x 4) : 100 * 1024 ^ unitIndex x 4 ≤ shown x := by
  obtain ⟨⟨-, hfilled⟩, -⟩ := isGreatest_unitIndex x 4
  have hle : 100 * 1024 ^ unitIndex x 4 ≤ 100 * x :=
    Nat.mul_le_mul_left 100 (hfilled.resolve_left hpos.ne')
  exact Nat.mul_le_mul_right _ (le_roundHalfEven (pow_unit_pos _) hle)

/-- At most one of the next unit is written, if there is a next one. -/
theorem shown_le {x unit : Nat} (h : unitIndex x 4 < unit) (hunit : unit ≤ 4) :
    shown x ≤ 100 * 1024 ^ unit := by
  have hnext : x < 1024 ^ (unitIndex x 4 + 1) :=
    lt_pow_of_unitIndex_lt (Nat.lt_succ_self _) (by omega)
  have hround : hundredths x (unitIndex x 4) ≤ 100 * 1024 := by
    refine roundHalfEven_le (pow_unit_pos _) ?_
    rw [pow_succ] at hnext
    linarith
  calc shown x ≤ 100 * 1024 * 1024 ^ unitIndex x 4 := Nat.mul_le_mul_right _ hround
    _ = 100 * 1024 ^ (unitIndex x 4 + 1) := by ring
    _ ≤ 100 * 1024 ^ unit :=
      Nat.mul_le_mul_left 100 (Nat.pow_le_pow_right (by decide) h)

/-- What is written keeps the order. Within a unit rounding does, and between two units their
boundary stands. -/
theorem shown_mono {x y : Nat} (h : x ≤ y) : shown x ≤ shown y := by
  obtain ⟨⟨hle, hfilled⟩, -⟩ := isGreatest_unitIndex x 4
  have hunits : unitIndex x 4 ≤ unitIndex y 4 :=
    (isGreatest_unitIndex y 4).2 ⟨hle, hfilled.imp_right fun hx => hx.trans h⟩
  rcases hunits.eq_or_lt with heq | hlt
  · rw [shown, shown, ← heq]
    exact Nat.mul_le_mul_right _ (roundHalfEven_mono (pow_unit_pos _) (by omega))
  · exact (shown_le hlt (isGreatest_unitIndex y 4).1.1).trans (le_shown (by omega))

/-! ## The text -/

/-- A size as it is written: a number with two decimals, and a unit. -/
structure Written where
  whole : Nat
  tenths : Fin 10
  hundredths : Fin 10
  unit : Fin units.length

namespace Written

def text (written : Written) : String :=
  toString written.whole ++ "." ++ toString written.tenths.val ++
    toString written.hundredths.val ++ " " ++ units[written.unit]

def value (written : Written) : ℚ :=
  written.whole + written.tenths / 10 + written.hundredths / 100

def quantity (written : Written) : ℚ :=
  written.value * 1024 ^ written.unit.val

theorem toList_text (written : Written) :
    written.text.toList = Nat.toDigits 10 written.whole ++ '.' :: Nat.digitChar written.tenths ::
      Nat.digitChar written.hundredths :: ' ' :: units[written.unit].toList := by
  have hdigit (digit : Fin 10) : (toString digit.val).toList = [Nat.digitChar digit] := by
    rw [Nat.toString_eq_repr, Nat.toList_repr, Nat.toDigits_of_lt_base digit.isLt]
  have hwhole : (toString written.whole).toList = Nat.toDigits 10 written.whole := Nat.toList_repr
  have hpoint : ".".toList = ['.'] := rfl
  have hspace : " ".toList = [' '] := rfl
  simp only [text, String.toList_append, hdigit, hwhole, hpoint, hspace, List.append_assoc,
    List.cons_append, List.nil_append]

/-- The point ends the whole number, and the space comes two characters later. -/
theorem text_injective {a b : Written} (h : a.text = b.text) : a = b := by
  have hpoint (written : Written) :
      written.text.toList.takeWhile Char.isDigit = Nat.toDigits 10 written.whole := by
    have hdigits : ∀ c ∈ Nat.toDigits 10 written.whole, c.isDigit = true :=
      fun _ => Nat.isDigit_of_mem_toDigits (by decide) (by decide)
    rw [toList_text, List.takeWhile_append_of_pos hdigits,
      List.takeWhile_cons_of_neg (by decide), List.append_nil]
  have hwhole : Nat.toDigits 10 a.whole = Nat.toDigits 10 b.whole := by rw [← hpoint, ← hpoint, h]
  have hchars := congrArg String.toList h
  rw [toList_text, toList_text, hwhole, List.append_cancel_left_eq] at hchars
  injection hchars with _ hchars
  injection hchars with htenths hchars
  injection hchars with hhundredths hchars
  injection hchars with _ hunit
  have hdigit : ∀ c d : Fin 10, Nat.digitChar c = Nat.digitChar d → c = d := by decide
  have hname : ∀ u v : Fin units.length, units[u].toList = units[v].toList → u = v := by decide
  obtain ⟨whole, tenths, hundredths, unit⟩ := a
  congr
  · have hnumber := congrArg (Nat.ofDigitChars 10 · 0) hwhole
    rwa [Nat.ofDigitChars_ten_toDigits, Nat.ofDigitChars_ten_toDigits] at hnumber
  · exact hdigit _ _ htenths
  · exact hdigit _ _ hhundredths
  · exact hname _ _ hunit

def ofHundredths (count : Nat) (unit : Fin units.length) : Written where
  whole := count / 100
  tenths := Fin.ofNat 10 (count / 10)
  hundredths := Fin.ofNat 10 count
  unit := unit

theorem value_ofHundredths (count : Nat) (unit : Fin units.length) :
    (ofHundredths count unit).value = count / 100 := by
  have hsplit : count = 100 * (count / 100) + 10 * (count / 10 % 10) + count % 10 := by omega
  have hcast : (count : ℚ) =
      100 * (count / 100 : Nat) + 10 * (count / 10 % 10 : Nat) + (count % 10 : Nat) := by
    exact_mod_cast hsplit
  simp only [value, ofHundredths, Fin.val_ofNat]
  linarith

theorem text_ofHundredths (count : Nat) (unit : Fin units.length) :
    (ofHundredths count unit).text = twoPlaces count ++ " " ++ units[unit] := by
  have hall : ∀ rest < 100, (if rest < 10 then "0" else "") ++ toString rest =
      toString (rest / 10) ++ toString (rest % 10) := by decide +kernel
  have hrest := hall (count % 100) (Nat.mod_lt count (by decide))
  have htenths : count % 100 / 10 = count / 10 % 10 := by omega
  have hhundredths : count % 100 % 10 = count % 10 := by omega
  rw [htenths, hhundredths] at hrest
  have hdecimals (front : String) :
      front ++ (if count % 100 < 10 then "0" else "") ++ toString (count % 100) =
        front ++ toString (count / 10 % 10) ++ toString (count % 10) := by
    rw [String.append_assoc, hrest, ← String.append_assoc]
  simp only [text, twoPlaces, ofHundredths, Fin.val_ofNat, hdecimals, Fin.getElem_fin]

end Written

def written (n : Nat) : Written :=
  .ofHundredths (hundredths (approximate n) (unitIndex (approximate n) 4))
    ⟨unitIndex (approximate n) 4, unitIndex_lt _⟩

theorem text_written (n : Nat) : (written n).text = format n := by
  rw [written, Written.text_ofHundredths]
  simp only [format, List.getD_eq_getElem?_getD, List.getElem?_eq_getElem (unitIndex_lt _),
    Option.getD_some, Fin.getElem_fin]

/-- The text is that of no other size. -/
theorem text_eq_format_iff (n : Nat) (other : Written) :
    other.text = format n ↔ other = written n :=
  ⟨fun h => Written.text_injective (h.trans (text_written n).symm), fun h => h ▸ text_written n⟩

theorem quantity_written (n : Nat) : (written n).quantity = shown (approximate n) / 100 := by
  rw [Written.quantity, written, Written.value_ofHundredths, shown]
  push_cast
  exact div_mul_eq_mul_div ..

/-- Half a hundredth of the unit is what the written size may be off by. -/
theorem abs_quantity_sub_le (n : Nat) :
    |(written n).quantity - approximate n| ≤ 5 / 1000 * 1024 ^ (written n).unit.val := by
  have herror : 2 * |(shown (approximate n) : ℚ) - (100 * approximate n : Nat)| ≤
      1024 ^ (written n).unit.val := by
    exact_mod_cast two_mul_abs_shown_sub_le (approximate n)
  have hscale : (written n).quantity - approximate n =
      ((shown (approximate n) : ℚ) - (100 * approximate n : Nat)) / 100 := by
    rw [quantity_written]
    push_cast
    ring
  rw [hscale, abs_div, abs_of_pos (by norm_num : (0 : ℚ) < 100)]
  linarith

theorem quantity_mono {n m : Nat} (hm : m < 2 ^ 64) (h : n ≤ m) :
    (written n).quantity ≤ (written m).quantity := by
  have hshown : (shown (approximate n) : ℚ) ≤ shown (approximate m) := by
    exact_mod_cast shown_mono (approximate_mono (h.trans_lt hm) hm h)
  rw [quantity_written, quantity_written]
  linarith

/-- For every number of bytes the text is that of one size, and for more bytes no smaller size is
written. It is at most half a hundredth of the unit away from the nearest floating-point number. The
unit is the largest that this fills, and dividing by 1024 over and over comes to its end there. -/
theorem format_is_close_and_ordered (n : UInt64) :
    ∃ size : Written, (∀ other : Written, other.text = format n.toNat ↔ other = size) ∧
      (∀ m : UInt64, n ≤ m → ∀ later : Written, later.text = format m.toNat →
        size.quantity ≤ later.quantity) ∧
      let x := approximate n.toNat
      IsNearest n.toNat x ∧ (n.toNat < 2 ^ 53 → x = n.toNat) ∧
        (∀ unit ≤ 4, IsBinary64 (x / 1024 ^ unit)) ∧
        divideDown x 0 4 = ((x : ℚ) / 1024 ^ size.unit.val, size.unit.val) ∧
        IsGreatest {unit : Nat | unit ≤ 4 ∧ (unit = 0 ∨ 1024 ^ unit ≤ x)} size.unit ∧
        |size.quantity - x| ≤ 5 / 1000 * 1024 ^ size.unit.val := by
  have hn : n.toNat < 2 ^ 64 := n.toNat_lt
  refine ⟨written n.toNat, text_eq_format_iff n.toNat, fun m h later hlater => ?_,
    isNearest_approximate hn, approximate_eq_self, fun unit => isBinary64_div hn,
    divideDown_eq _, isGreatest_unitIndex _ 4, abs_quantity_sub_le n.toNat⟩
  rw [(text_eq_format_iff m.toNat later).mp hlater]
  exact quantity_mono m.toNat_lt (UInt64.le_iff_toNat_le.mp h)

end Conductor.Size
