import Conductor.Proofs.Sizing

/-!
# Sizes just below the next unit

The unit is chosen before the number in it is rounded. So just below the next unit the number may be
rounded up to 1024, and this happens from 1023.995 of the unit on (`hundredths_eq_iff`). All other
sizes are written as less than 1024 of their unit, unless that is the last one, and every size as at
least one of it, unless that is the first (`format_fits_unless_just_below`).
-/

namespace Conductor

/-- An even integer is reached from half a unit below it on, since the tie goes to it. -/
theorem Number.le_roundHalfEven_iff {num den k : Nat} (hden : 0 < den) (hk : Even k) :
    k ≤ roundHalfEven num den ↔ 2 * (k * den) ≤ 2 * num + den := by
  obtain ⟨hnear, htie⟩ := roundHalfEven_error hden num
  constructor
  · intro hle
    have hmul : k * den ≤ roundHalfEven num den * den := Nat.mul_le_mul_right den hle
    have habs := le_abs_self ((roundHalfEven num den * den : Int) - num)
    zify at hmul ⊢
    omega
  · intro hhalf
    by_contra hlt
    have hnext : (roundHalfEven num den + 1) * den ≤ k * den :=
      Nat.mul_le_mul_right den (by omega)
    have habs := neg_le_abs ((roundHalfEven num den * den : Int) - num)
    rw [add_mul, one_mul] at hnext
    zify at hnext hhalf
    -- the number is just in the middle, so the result is even, and the integer after it is not
    have heven := htie (by omega)
    have hmul : (k * den : Int) = (roundHalfEven num den + 1) * den := by
      rw [add_mul, one_mul]
      omega
    have hsucc : k = roundHalfEven num den + 1 := by
      exact_mod_cast mul_right_cancel₀ (by exact_mod_cast hden.ne') hmul
    rw [hsucc, Nat.even_add_one] at hk
    exact hk heven

namespace Size

open Number

/-! ## The unit of a number of bytes -/

/-- Rounding a number of bytes never takes it into another unit. -/
theorem pow_le_approximate_iff {n unit : Nat} (hn : n < 2 ^ 64) (hunit : unit ≤ 4) :
    1024 ^ unit ≤ approximate n ↔ 1024 ^ unit ≤ n := by
  have hpow : 1024 ^ unit ≤ 1024 ^ 4 := Nat.pow_le_pow_right (by decide) hunit
  constructor
  · intro hle
    by_contra hlt
    rw [approximate_eq_self (by omega)] at hle
    exact hlt hle
  · intro hle
    calc 1024 ^ unit = approximate (1024 ^ unit) := (approximate_eq_self (by omega)).symm
      _ ≤ approximate n := approximate_mono (by omega) hn hle

/-- Below the last unit no number of bytes is rounded. -/
theorem approximate_eq_of_unitIndex_lt {n : Nat} (hn : n < 2 ^ 64)
    (h : unitIndex (approximate n) 4 < 4) : approximate n = n := by
  have hlt := lt_pow_of_unitIndex_lt h (le_refl 4)
  rw [← not_le, pow_le_approximate_iff hn (le_refl 4)] at hlt
  exact approximate_eq_self (by omega)

/-! ## The number in the unit -/

/-- At least one of the unit is written, unless it is the first. -/
theorem le_hundredths {x : Nat} (h : 0 < unitIndex x 4) : 100 ≤ hundredths x (unitIndex x 4) :=
  Nat.le_of_mul_le_mul_right (le_shown h) (pow_unit_pos _)

/-- At most 1024 of the unit are written, unless it is the last. -/
theorem hundredths_le {x : Nat} (h : unitIndex x 4 < 4) :
    hundredths x (unitIndex x 4) ≤ 102400 := by
  have hnext := shown_le (Nat.lt_succ_self (unitIndex x 4)) h
  refine Nat.le_of_mul_le_mul_right (hnext.trans_eq ?_) (pow_unit_pos (unitIndex x 4))
  rw [Nat.succ_eq_add_one, pow_succ]
  ring

/-- They are 1024 from half a hundredth below that on. -/
theorem hundredths_eq_iff {x : Nat} (h : unitIndex x 4 < 4) :
    hundredths x (unitIndex x 4) = 102400 ↔ 204799 * 1024 ^ unitIndex x 4 ≤ 200 * x := by
  have heven : 102400 ≤ roundHalfEven (100 * x) (1024 ^ unitIndex x 4) ↔ _ :=
    le_roundHalfEven_iff (pow_unit_pos _) (by decide)
  rw [le_antisymm_iff, and_iff_right (hundredths_le h), hundredths, Nat.pow_eq, heven]
  omega

/-- Whether a number of bytes is at least 1023.995 of a unit, and less than one of the next. -/
def IsJustBelow (n : Nat) : Prop :=
  ∃ unit ∈ [1, 2, 3], 204799 * 1024 ^ unit ≤ 200 * n ∧ n < 1024 ^ (unit + 1)

instance : DecidablePred IsJustBelow := fun n =>
  inferInstanceAs (Decidable
    (∃ unit ∈ [1, 2, 3], 204799 * 1024 ^ unit ≤ 200 * n ∧ n < 1024 ^ (unit + 1)))

theorem unitIndex_eq {x unit : Nat} (hunit : unit ≤ 4) (hle : 1024 ^ unit ≤ x)
    (hlt : x < 1024 ^ (unit + 1)) : unitIndex x 4 = unit := by
  obtain ⟨⟨-, hfilled⟩, hgreatest⟩ := isGreatest_unitIndex x 4
  refine le_antisymm ?_ (hgreatest ⟨hunit, .inr hle⟩)
  by_contra hgt
  have hpow : 1024 ^ (unit + 1) ≤ 1024 ^ unitIndex x 4 :=
    Nat.pow_le_pow_right (by decide) (by omega)
  exact absurd (hpow.trans (hfilled.resolve_left (by omega))) (by omega)

/-- Of the first unit whole numbers are written, so none of them is just below the next. -/
theorem isJustBelow_iff {x : Nat} (h : unitIndex x 4 < 4) :
    IsJustBelow x ↔ 204799 * 1024 ^ unitIndex x 4 ≤ 200 * x := by
  have hnext : x < 1024 ^ (unitIndex x 4 + 1) := lt_pow_of_unitIndex_lt (Nat.lt_succ_self _) h
  constructor
  · rintro ⟨unit, hmem, hle, hlt⟩
    have hunit : unit ≤ 4 := by
      simp only [List.mem_cons, List.not_mem_nil, or_false] at hmem
      omega
    rwa [unitIndex_eq hunit (by omega) hlt]
  · intro hle
    refine ⟨unitIndex x 4, ?_, hle, hnext⟩
    have hpos : unitIndex x 4 ≠ 0 := by
      intro hzero
      rw [hzero] at hle hnext
      omega
    simp only [List.mem_cons, List.not_mem_nil, or_false]
    omega

/-! ## The text -/

theorem value_written (n : Nat) :
    (written n).value = hundredths (approximate n) (unitIndex (approximate n) 4) / 100 := by
  rw [written, Written.value_ofHundredths]

def Written.unitName (written : Written) : String :=
  units.get written.unit

theorem unitName_ne_iff (n : Nat) :
    ((written n).unitName ≠ "B" ↔ 0 < unitIndex (approximate n) 4) ∧
      ((written n).unitName ≠ "TB" ↔ unitIndex (approximate n) 4 < 4) := by
  have hall : ∀ unit : Fin units.length,
      (units.get unit ≠ "B" ↔ 0 < unit.val) ∧ (units.get unit ≠ "TB" ↔ unit.val < 4) := by decide
  exact hall (written n).unit

/-- For every number of bytes the text is that of one size. At least one of its unit is written,
unless that is the first, and at most 1024 of it, unless that is the last. It is 1024 exactly for
the numbers just below the next unit. -/
theorem format_fits_unless_just_below (n : UInt64) :
    ∃ size : Written, (∀ other : Written, other.text = format n.toNat ↔ other = size) ∧
      (size.unitName ≠ "B" → 1 ≤ size.value) ∧
      (size.unitName ≠ "TB" →
        size.value ≤ 1024 ∧ (size.value = 1024 ↔ IsJustBelow n.toNat)) := by
  have hn : n.toNat < 2 ^ 64 := n.toNat_lt
  obtain ⟨hfirst, hlast⟩ := unitName_ne_iff n.toNat
  refine ⟨written n.toNat, text_eq_format_iff n.toNat, fun hunit => ?_, fun hunit => ?_⟩
  · rw [value_written, le_div_iff₀ (by norm_num), one_mul]
    exact_mod_cast le_hundredths (hfirst.mp hunit)
  · have hlt := hlast.mp hunit
    have hexact := approximate_eq_of_unitIndex_lt hn hlt
    rw [hexact] at hlt
    rw [value_written, hexact, isJustBelow_iff hlt, ← hundredths_eq_iff hlt,
      div_le_iff₀ (by norm_num), div_eq_iff (by norm_num)]
    norm_num
    exact_mod_cast And.intro (hundredths_le hlt) Iff.rfl

example : IsJustBelow 1048571 ∧ ¬ IsJustBelow 1048570 := by decide

/-- One byte less than a megabyte is written as 1024 kilobytes. -/
theorem kilobytes_reach_a_megabyte :
    format 1048575 = "1024.00 KB" ∧ ∃ size : Written, size.text = format 1048575 ∧
      size.unitName = "KB" ∧ size.value = 1024 := by
  have htext : format 1048575 = "1024.00 KB" := by decide +kernel
  refine ⟨htext, ⟨1024, 0, 0, ⟨1, by decide⟩⟩, ?_, rfl, ?_⟩
  · rw [htext]
    decide +kernel
  · simp [Written.value]

end Size

end Conductor
