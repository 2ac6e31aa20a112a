import HostScript.Number.Exact
import Mathlib.Algebra.Order.Field.Power
import Mathlib.Data.Rat.Floor
import Mathlib.Tactic.Positivity

/-!
# Numbers rounded toward zero

A finite number has an exact value (`value?`). `truncate?` gives the integer that is next to this
value in the direction of zero (`truncate?_eq`).
-/

namespace HostScript.Number

open Float.Model.UnpackedFloat (Sign)

/-- The exact value of a number, if it is finite. -/
def value? (x : Float) : Option ℚ :=
  match x.toModel.unpack with
  | .notANumber => none
  | .infinity _ => none
  | .zero _ => some 0
  | .finite sign m e _ => some (signed sign m * 2 ^ e)

/-- The integer next to a value in the direction of zero. -/
def towardZero (q : ℚ) : ℤ := if 0 ≤ q then ⌊q⌋ else ⌈q⌉

theorem floor_eq_wholePart (m : ℕ) (e : ℤ) : ⌊(m : ℚ) * 2 ^ e⌋ = wholePart m e := by
  unfold wholePart
  by_cases he : 0 ≤ e
  · obtain ⟨k, rfl⟩ := Int.eq_ofNat_of_zero_le he
    rw [if_pos he, zpow_natCast, Int.toNat_natCast]
    exact_mod_cast Int.floor_natCast (R := ℚ) (m * 2 ^ k)
  · obtain ⟨k, rfl⟩ : ∃ k : ℕ, e = -k := ⟨(-e).toNat, by omega⟩
    rw [if_neg he, neg_neg, Int.toNat_natCast, zpow_neg, zpow_natCast, ← div_eq_mul_inv]
    exact_mod_cast Rat.floor_natCast_div_natCast m (2 ^ k)

theorem towardZero_signed (sign : Sign) {m : ℕ} (hm : 0 < m) (e : ℤ) :
    towardZero (signed sign m * 2 ^ e) = signed sign (wholePart m e) := by
  have hpos : (0 : ℚ) < m * 2 ^ e := by positivity
  unfold towardZero
  cases sign with
  | positive =>
    simp only [signed, Int.cast_natCast]
    rw [if_pos hpos.le, floor_eq_wholePart]
  | negative =>
    simp only [signed, Int.cast_neg, Int.cast_natCast, neg_mul]
    rw [if_neg (by simpa using hpos), Int.ceil_neg, floor_eq_wholePart]

/-- A finite number is rounded toward zero. -/
theorem truncate?_eq (x : Float) : truncate? x = (value? x).map towardZero := by
  unfold truncate? value?
  generalize x.toModel.unpack = u
  cases u with
  | notANumber => rfl
  | infinity sign => rfl
  | zero sign => exact congrArg some (Int.floor_zero (R := ℚ)).symm
  | finite sign m e hm => exact congrArg some (towardZero_signed sign hm e).symm

end HostScript.Number
