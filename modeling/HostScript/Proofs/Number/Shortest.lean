import HostScript.Proofs.Number.Decimals

/-!
# The shortest decimal

Whatever is written for a number reads back as the number (`Decimal.toFloat_shortest`): a decimal
that the search finds has been read back by it, and the decimal that is taken if it finds none is
the number exactly. The zeros that are taken off in the end do not change it (`Decimal.value_trim`).
-/

namespace HostScript

open Float.Model.UnpackedFloat (Sign)
open Float.Model
open Packing (Canonical)
open Rounding (Rounds)

variable {m : ℕ} {e : ℤ}

/-! ## Equal numbers -/

theorem Rounding.round_of_canonical (hc : Canonical m e) (s : Sign) :
    UnpackedFloat.round .binary64 s m e = .finite s m e hc.pos := by
  have hunit := unit_of_canonical hc
  have htarget := (reads_exact hc.pos hunit.ge).targetExponent_eq
  rw [hunit] at htarget
  simp only [UnpackedFloat.round, htarget, UnpackedFloat.decreaseExponent, sub_self, Int.toNat_zero,
    Nat.shiftLeft_zero, Nat.cast_zero, sub_zero]
  exact roundWithAccuracy_of_canonical hc s

/-- Numbers that compare equal are equal if one of them is not zero. -/
theorem Packing.eq_of_beq {x : Float} (hc : Canonical m e)
    (h : (x == .ofModel (.pack (.finite .positive m e hc.pos))) = true) :
    x = .ofModel (.pack (.finite .positive m e hc.pos)) := by
  obtain ⟨model⟩ := x
  refine congrArg Float.ofModel ?_
  have hbeq : model.unpack.beq (.finite .positive m e hc.pos) = true := by
    rw [← unpack_pack hc]
    exact h
  rw [← pack_unpack model]
  have hshape := shape_unpack model
  generalize model.unpack = u at hbeq hshape
  cases hshape with
  | infinity s => cases s <;> exact nomatch hbeq
  | notANumber => exact nomatch hbeq
  | zero s => exact nomatch hbeq
  | @finite s m' e' hc' =>
    cases s with
    | negative => exact nomatch hbeq
    | positive =>
      simp only [UnpackedFloat.beq, UnpackedFloat.compare, beq_iff_eq, Option.some.injEq,
        Ordering.then_eq_eq, Int.compare_eq_eq, Nat.compare_eq_eq] at hbeq
      obtain ⟨rfl, rfl⟩ := hbeq
      rfl

namespace Decimal

/-- What reads back as a positive number has digits. -/
theorem digits_pos {d : Decimal} (hc : Canonical m e)
    (h : d.toFloat = .ofModel (.pack (.finite .positive m e hc.pos))) : 0 < d.digits := by
  obtain ⟨digits, k⟩ := d
  refine Nat.pos_of_ne_zero ?_
  rintro rfl
  rw [toFloat_zero, Float.ofModel.injEq] at h
  have hunpack := congrArg Float.Model.unpack h
  rw [Packing.unpack_pack hc, Packing.unpack_zero] at hunpack
  exact nomatch hunpack

/-- The decimal that is taken if no shorter one is found is the number. -/
theorem value_exact (m : ℕ) (e : ℤ) :
    value ⟨m * 5 ^ (-e).toNat * 2 ^ e.toNat, min e 0⟩ = m * 2 ^ e := by
  rcases le_total 0 e with h | h
  · obtain ⟨k, rfl⟩ := Int.eq_ofNat_of_zero_le h
    simp [value]
  · obtain ⟨k, rfl⟩ := Int.exists_eq_neg_ofNat h
    have hten : (10 : ℚ) ^ k = 5 ^ k * 2 ^ k := by
      rw [← mul_pow]
      norm_num
    simp only [value, neg_neg, Int.toNat_natCast, Int.toNat_neg_natCast, pow_zero, mul_one,
      min_eq_left h, zpow_neg, zpow_natCast, hten, Nat.cast_mul, Nat.cast_pow, Nat.cast_ofNat]
    field_simp

/-- What is written for a number reads back as the number. -/
theorem toFloat_shortest (hc : Canonical m e) :
    0 < (shortest m e).digits ∧
      (shortest m e).toFloat = .ofModel (.pack (.finite .positive m e hc.pos)) := by
  simp only [shortest, Rounding.round_of_canonical hc]
  cases hsearch : search (.ofModel (.pack (.finite .positive m e hc.pos))) m e
      (leadingExponent m e) 17 1 with
  | some d =>
    have heq := Packing.eq_of_beq hc (toFloat_search hsearch)
    exact ⟨digits_pos hc heq, heq⟩
  | none =>
    have hpos : 0 < m * 5 ^ (-e).toNat * 2 ^ e.toNat := by
      have := hc.pos
      positivity
    have hrounds := rounds_toFloat (d := ⟨_, min e 0⟩) hpos
    rw [value_exact] at hrounds
    exact ⟨hpos, hrounds.eq (Rounding.rounds_of_canonical hc)⟩

/-! ## Zeros at the end -/

theorem value_trim (fuel : ℕ) (d : Decimal) : (d.trim fuel).value = d.value := by
  induction fuel generalizing d with
  | zero => rfl
  | succ fuel ih =>
    rw [trim]
    split_ifs with h
    · have hdigits : (d.digits : ℚ) = (d.digits / 10 : ℕ) * 10 := by
        exact_mod_cast (Nat.div_mul_cancel (Nat.dvd_of_mod_eq_zero h.1)).symm
      rw [ih, value, value, zpow_add_one₀ (by norm_num), hdigits]
      ring
    · rfl

theorem digits_trim_pos (fuel : ℕ) {d : Decimal} (h : 0 < d.digits) :
    0 < (d.trim fuel).digits := by
  induction fuel generalizing d with
  | zero => exact h
  | succ fuel ih =>
    rw [trim]
    split_ifs with hzero
    · refine ih (d := ⟨_, _⟩) ?_
      dsimp only
      omega
    · exact h

end Decimal

end HostScript
