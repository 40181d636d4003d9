import Conductor.Proofs.Turns
import Mathlib.Data.List.GetD
import Mathlib.Data.List.Nodup

/-!
# Neighbours in the rotation

The turns of a palette are counted in 64 bits. As long as the count does not run over, a colour is
another one than the colour before it. After `2 ^ 64` turns the count begins anew, and since the
rotation has not come to its end by then, its first colour is taken twice in a row
(`neighbours_differ_unless_run_over`).
-/

namespace Conductor

namespace Palette

/-- Colours are drawn one turn after the other. -/
theorem colors_eq (palette : Palette) (count : Nat) :
    palette.colors count =
      ((List.range count).map fun turns => (palette.after turns).color, palette.after count) := by
  induction count generalizing palette with
  | zero => simp [colors, after]
  | succ count ih =>
    have hfirst : palette.after 0 = palette := by simp [after]
    rw [colors, ih palette.advance, List.range_succ_eq_map, List.map_cons, List.map_map, hfirst]
    simp only [after_advance, Function.comp_def]

theorem colors_getElem? (palette : Palette) {count turns : Nat} (h : turns < count) :
    (palette.colors count).1[turns]? = some (palette.after turns).color := by
  rw [colors_eq, List.getElem?_map, List.getElem?_range h, Option.map_some]

theorem index_after_fresh (turns : Nat) :
    (fresh.after turns).index.toNat = turns % UInt64.size := by
  rw [after, fresh, UInt64.zero_add, UInt64.toNat_ofNat']

theorem nodup_rotation : rotation.Nodup := by decide

/-- Two palettes have the same colour if their counts agree up to whole rotations. -/
theorem color_eq_iff (a b : Palette) :
    a.color = b.color ↔ a.index.toNat % 5 = b.index.toNat % 5 := by
  have hlength (palette : Palette) : palette.index.toNat % 5 < rotation.length :=
    Nat.mod_lt _ (by decide)
  rw [color, color, List.getD_eq_getElem _ _ (hlength a), List.getD_eq_getElem _ _ (hlength b),
    List.Nodup.getElem_inj_iff nodup_rotation]

/-- Where the count runs over, a colour ends one rotation and begins the next: there is one colour
more to `2 ^ 64` turns than whole rotations. -/
theorem count_mod_eq_iff (turns : Nat) :
    turns % UInt64.size % 5 = (turns + 1) % UInt64.size % 5 ↔ UInt64.size ∣ turns + 1 := by
  have hlt : turns % UInt64.size < UInt64.size := Nat.mod_lt _ (by decide)
  have hsize : UInt64.size = 5 * 3689348814741910323 + 1 := rfl
  have hone : 1 % UInt64.size = 1 := rfl
  rw [Nat.dvd_iff_mod_eq_zero, Nat.add_mod_eq_ite, hone]
  generalize turns % UInt64.size = count at *
  generalize UInt64.size = size at *
  split <;> omega

theorem color_after_eq_iff (turns : Nat) :
    (fresh.after turns).color = (fresh.after (turns + 1)).color ↔ UInt64.size ∣ turns + 1 := by
  rw [color_eq_iff, index_after_fresh, index_after_fresh, count_mod_eq_iff]

/-- When the count has just run over, it stands for the first colour. -/
theorem color_after_of_dvd {turns : Nat} (h : UInt64.size ∣ turns) :
    (fresh.after turns).color = .green := by
  have hzero : (fresh.after turns).index.toNat % 5 = fresh.index.toNat % 5 := by
    rw [index_after_fresh, Nat.mod_eq_zero_of_dvd h]
    rfl
  rw [(color_eq_iff _ fresh).mpr hzero]
  rfl

end Palette

/-- After any number of turns of a fresh palette the next two colours are the same if and only if
the count of the turns runs over between them, and then both are the first colour. -/
theorem neighbours_differ_unless_run_over (turns : Nat) :
    ∃ color next,
      (Palette.fresh.colors (turns + 2)).1[turns]? = some color ∧
      (Palette.fresh.colors (turns + 2)).1[turns + 1]? = some next ∧
      (color = next ↔ UInt64.size ∣ turns + 1) ∧
      (color = next → next = .green) := by
  have hiff := Palette.color_after_eq_iff turns
  refine ⟨_, _, Palette.colors_getElem? _ (by omega), Palette.colors_getElem? _ (by omega), hiff,
    fun heq => ?_⟩
  exact Palette.color_after_of_dvd (hiff.mp heq)

/-- The first colour is the last that is drawn before the count runs over, and the first after. -/
theorem green_twice_in_a_row :
    (Palette.fresh.colors (UInt64.size + 1)).1[UInt64.size - 1]? = some .green ∧
      (Palette.fresh.colors (UInt64.size + 1)).1[UInt64.size]? = some .green := by
  have hsize : 0 < UInt64.size := by decide
  have hsucc : UInt64.size - 1 + 1 = UInt64.size := Nat.sub_add_cancel hsize
  have hlast : (Palette.fresh.after UInt64.size).color = .green :=
    Palette.color_after_of_dvd (Nat.dvd_refl _)
  have hbefore : (Palette.fresh.after (UInt64.size - 1)).color = .green := by
    rw [← hlast]
    have hiff := Palette.color_after_eq_iff (UInt64.size - 1)
    rw [hsucc] at hiff
    exact hiff.mpr (Nat.dvd_refl _)
  rw [Palette.colors_getElem? _ (by omega), Palette.colors_getElem? _ (by omega), hbefore, hlast]
  exact ⟨rfl, rfl⟩

end Conductor
