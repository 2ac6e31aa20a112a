import HostScript.Proofs.Number.Packing
import Mathlib.Data.Int.Log
import Mathlib.Data.Rat.Floor
import Mathlib.Tactic.FieldSimp
import Mathlib.Tactic.Linarith
import Mathlib.Tactic.NormNum
import Mathlib.Tactic.Positivity
import Mathlib.Tactic.Ring

/-!
# Rounding

Rounding keeps of a positive number a count of units in the last place and two bits for what is left
over. These are determined by the number (`Stands.eq`), and so is the unit (`unit`). It does not
matter therefore by which mantissa and exponent a number is given to be rounded
(`roundWithAccuracy_congr`), as long as the exponent is not above the one of the unit.
-/

namespace HostScript.Rounding

open Float.Model Float.Model.UnpackedFloat
open Packing (Canonical)

/-! ## Residual bits -/

/-- A mantissa with its residual bits stands for a number of units. -/
def Stands : ExtendedMantissa → ℚ → Prop
  | ⟨m, false, false⟩, u => u = m
  | ⟨m, false, true⟩, u => m < u ∧ u < m + 1 / 2
  | ⟨m, true, false⟩, u => u = m + 1 / 2
  | ⟨m, true, true⟩, u => m + 1 / 2 < u ∧ u < m + 1

theorem Stands.bounds {em : ExtendedMantissa} {u : ℚ} (h : Stands em u) :
    (em.mantissa : ℚ) ≤ u ∧ u < em.mantissa + 1 := by
  obtain ⟨m, r, s⟩ := em
  cases r <;> cases s <;> simp only [Stands] at h
  · rw [h]
    constructor <;> linarith
  · constructor <;> linarith
  · rw [h]
    constructor <;> linarith
  · constructor <;> linarith

/-- A number of units leaves no choice of the mantissa and its residual bits. -/
theorem Stands.eq {em em' : ExtendedMantissa} {u : ℚ} (h : Stands em u) (h' : Stands em' u) :
    em = em' := by
  have hlt : (em.mantissa : ℚ) < em'.mantissa + 1 := h.bounds.1.trans_lt h'.bounds.2
  have hlt' : (em'.mantissa : ℚ) < em.mantissa + 1 := h'.bounds.1.trans_lt h.bounds.2
  have hm : em.mantissa = em'.mantissa := by
    have h₁ : em.mantissa < em'.mantissa + 1 := by exact_mod_cast hlt
    have h₂ : em'.mantissa < em.mantissa + 1 := by exact_mod_cast hlt'
    omega
  obtain ⟨m, r, s⟩ := em
  obtain ⟨m', r', s'⟩ := em'
  obtain rfl : m = m' := hm
  cases r <;> cases s <;> cases r' <;> cases s' <;> simp only [Stands] at h h' <;>
    first | rfl | (exfalso; linarith)

theorem Stands.shiftRightOne {em : ExtendedMantissa} {u : ℚ} (h : Stands em u) :
    Stands em.shiftRightOne (u / 2) := by
  obtain ⟨m, r, s⟩ := em
  have hm : (m : ℚ) = 2 * (m / 2 : ℕ) + (m % 2 : ℕ) := by exact_mod_cast (Nat.div_add_mod m 2).symm
  have hone : (1 != 0) = true := rfl
  rcases Nat.mod_two_eq_zero_or_one m with hb | hb <;> rw [hb] at hm <;> push_cast at hm <;>
    cases r <;> cases s <;> simp only [Stands, hm] at h <;>
    simp only [ExtendedMantissa.shiftRightOne, hb, Stands, bne_self_eq_false, hone, Bool.or_false,
      Bool.or_true] <;>
    first | linarith | (constructor <;> linarith)

theorem Stands.shiftRight {em : ExtendedMantissa} {u : ℚ} (h : Stands em u) (k : ℕ) :
    Stands (em >>> k) (u / 2 ^ k) := by
  change Stands (k.repeat ExtendedMantissa.shiftRightOne em) _
  induction k with
  | zero => simpa [Nat.repeat] using h
  | succ k ih =>
    rw [Nat.repeat, pow_succ, ← div_div]
    exact ih.shiftRightOne

theorem stands_exact (m : ℕ) : Stands (.ofMantissaAndAccuracy m .exact) m := rfl

/-- The accuracy of a remainder says what is left over of a division. -/
theorem stands_accuracyOfFraction (m : ℕ) {num den : ℕ} (h : num < den) :
    Stands (.ofMantissaAndAccuracy m (accuracyOfFraction num den)) (m + num / den) := by
  have hden : (0 : ℚ) < den := by exact_mod_cast (Nat.zero_le num).trans_lt h
  unfold accuracyOfFraction
  split
  · next hnum =>
    subst hnum
    simp [ExtendedMantissa.ofMantissaAndAccuracy, Stands]
  · next hnum =>
    have hpos : (0 : ℚ) < num / den := by
      have : (0 : ℚ) < num := by exact_mod_cast Nat.pos_of_ne_zero hnum
      positivity
    have hone : (num : ℚ) / den < 1 := by
      rw [div_lt_one hden]
      exact_mod_cast h
    rcases Nat.lt_trichotomy (2 * num) den with hlt | heq | hgt
    · have hhalf : (num : ℚ) / den < 1 / 2 := by
        rw [div_lt_div_iff₀ hden two_pos]
        have : (2 * num : ℚ) < den := by exact_mod_cast hlt
        linarith
      rw [Nat.compare_eq_lt.mpr hlt]
      simp only [ExtendedMantissa.ofMantissaAndAccuracy, Stands]
      constructor <;> linarith
    · have hhalf : (num : ℚ) / den = 1 / 2 := by
        rw [div_eq_div_iff hden.ne' two_ne_zero]
        have : (2 * num : ℚ) = den := by exact_mod_cast heq
        linarith
      rw [Nat.compare_eq_eq.mpr heq]
      simp only [ExtendedMantissa.ofMantissaAndAccuracy, Stands, hhalf]
    · have hhalf : 1 / 2 < (num : ℚ) / den := by
        rw [div_lt_div_iff₀ two_pos hden]
        have : (den : ℚ) < 2 * num := by exact_mod_cast hgt
        linarith
      rw [Nat.compare_eq_gt.mpr hgt]
      simp only [ExtendedMantissa.ofMantissaAndAccuracy, Stands]
      constructor <;> linarith

/-! ## The unit in the last place -/

/-- The power of two of the unit in the last place of a positive number. -/
def unit (q : ℚ) : ℤ := max (Int.log 2 q - 52) (-1074)

theorem targetExponent_eq (m : ℕ) (e : ℤ) :
    Format.binary64.targetExponent (totalExponent m e) = max (m.log2 + e - 52) (-1074) := by
  simp only [Format.targetExponent, totalExponent, Format.mantissaBits, Format.minExponent]
  norm_num
  omega

theorem log_eq_of_bounds {q : ℚ} {k : ℤ} (hle : (2 : ℚ) ^ k ≤ q) (hlt : q < 2 ^ (k + 1)) :
    Int.log 2 q = k := by
  have hq : 0 < q := (zpow_pos two_pos k).trans_le hle
  have h₁ : k ≤ Int.log 2 q := (Int.zpow_le_iff_le_log Nat.one_lt_two hq).mp (by exact_mod_cast hle)
  have h₂ : Int.log 2 q < k + 1 :=
    (Int.lt_zpow_iff_log_lt Nat.one_lt_two hq).mp (by exact_mod_cast hlt)
  omega

/-- The leading bit of a count of units is that of its mantissa. -/
theorem log_eq {m : ℕ} (hm : m ≠ 0) {e : ℤ} {q : ℚ} (hle : (m : ℚ) ≤ q / 2 ^ e)
    (hlt : q / 2 ^ e < m + 1) : Int.log 2 q = m.log2 + e := by
  have he : (0 : ℚ) < 2 ^ e := zpow_pos two_pos e
  rw [le_div_iff₀ he] at hle
  rw [div_lt_iff₀ he] at hlt
  refine log_eq_of_bounds ?_ ?_
  · rw [zpow_add₀ two_ne_zero, zpow_natCast]
    refine le_trans (mul_le_mul_of_nonneg_right ?_ he.le) hle
    exact_mod_cast Nat.log2_self_le hm
  · refine hlt.trans_le ?_
    rw [add_right_comm, zpow_add₀ two_ne_zero]
    refine mul_le_mul_of_nonneg_right ?_ he.le
    have hpow : m + 1 ≤ 2 ^ (m.log2 + 1) := Nat.lt_log2_self
    exact_mod_cast hpow

/-- A mantissa with an exponent and an accuracy is a positive number, cut off below its unit or
exactly. -/
structure Reads (q : ℚ) (m : ℕ) (e : ℤ) (a : Accuracy) : Prop where
  pos : 0 < q
  le : e ≤ unit q
  stands : Stands (.ofMantissaAndAccuracy m a) (q / 2 ^ e)

theorem mantissa_ofMantissaAndAccuracy (m : ℕ) (a : Accuracy) :
    (ExtendedMantissa.ofMantissaAndAccuracy m a).mantissa = m := by
  unfold ExtendedMantissa.ofMantissaAndAccuracy
  split <;> rfl

variable {q : ℚ} {m : ℕ} {e : ℤ} {a : Accuracy}

theorem Reads.targetExponent_eq (h : Reads q m e a) :
    Format.binary64.targetExponent (totalExponent m e) = unit q := by
  obtain ⟨hle, hlt⟩ := h.stands.bounds
  rw [mantissa_ofMantissaAndAccuracy] at hle hlt
  rw [Rounding.targetExponent_eq, unit]
  by_cases hm : m = 0
  · -- the number is less than its cut, so it has the least unit
    subst hm
    have hlog : Int.log 2 q < e := by
      rw [div_lt_iff₀ (zpow_pos two_pos e)] at hlt
      refine (Int.lt_zpow_iff_log_lt Nat.one_lt_two h.pos).mp ?_
      simpa using hlt
    have hunit := h.le
    rw [unit] at hunit
    simp only [Nat.log2_zero]
    omega
  · rw [log_eq hm hle hlt]

/-- Shifting finds the units of the number and what is left over. -/
theorem Reads.shift (h : Reads q m e a) :
    ∃ em, shiftToTargetExponent .binary64 m e a = (em, unit q) ∧ Stands em (q / 2 ^ unit q) := by
  obtain ⟨k, hk⟩ : ∃ k : ℕ, unit q = e + k := ⟨(unit q - e).toNat, by have := h.le; omega⟩
  have hshift := h.stands.shiftRight k
  rw [div_div, ← zpow_natCast, ← zpow_add₀ two_ne_zero, ← hk] at hshift
  refine ⟨_, ?_, hshift⟩
  rw [shiftToTargetExponent, h.targetExponent_eq, shiftToExponent, hk]
  simp

/-- It does not matter how a number is given to be rounded. -/
theorem roundWithAccuracy_congr {m' : ℕ} {e' : ℤ} {a' : Accuracy} (h : Reads q m e a)
    (h' : Reads q m' e' a') (s : Sign) :
    roundWithAccuracy .binary64 s m e a = roundWithAccuracy .binary64 s m' e' a' := by
  obtain ⟨em, hem, hstands⟩ := h.shift
  obtain ⟨em', hem', hstands'⟩ := h'.shift
  obtain rfl := hstands.eq hstands'
  rw [roundWithAccuracy, roundWithAccuracy, hem, hem']

/-! ## What a number is rounded to -/

/-- A positive number is rounded to this one. -/
def Rounds (q : ℚ) (x : Float) : Prop :=
  ∃ m e a, Reads q m e a ∧ x = .ofModel (.pack (roundWithAccuracy .binary64 .positive m e a))

theorem Rounds.eq {x y : Float} (h : Rounds q x) (h' : Rounds q y) : x = y := by
  obtain ⟨m, e, a, hreads, rfl⟩ := h
  obtain ⟨m', e', a', hreads', rfl⟩ := h'
  rw [roundWithAccuracy_congr hreads hreads']

/-- A whole number of units is shifted by whole units only. -/
theorem reads_exact (hm : 0 < m) (he : e ≤ unit ((m : ℚ) * 2 ^ e)) :
    Reads ((m : ℚ) * 2 ^ e) m e .exact := by
  have hpos : (0 : ℚ) < 2 ^ e := zpow_pos two_pos e
  refine ⟨mul_pos (by exact_mod_cast hm) hpos, he, ?_⟩
  rw [mul_div_cancel_right₀ _ hpos.ne']
  exact stands_exact m

theorem log_mul (hm : 0 < m) (e : ℤ) : Int.log 2 ((m : ℚ) * 2 ^ e) = m.log2 + e := by
  have hpos : (0 : ℚ) < 2 ^ e := zpow_pos two_pos e
  refine log_eq hm.ne' ?_ ?_ <;> rw [mul_div_cancel_right₀ _ hpos.ne']
  exact lt_add_one _

theorem unit_mul (hm : 0 < m) (e : ℤ) :
    unit ((m : ℚ) * 2 ^ e) = max (m.log2 + e - 52) (-1074) := by
  rw [unit, log_mul hm]

theorem unit_of_canonical (hc : Canonical m e) : unit ((m : ℚ) * 2 ^ e) = e := by
  obtain ⟨hpos, hlt, hle, -, hfull⟩ := hc
  have hlog : m.log2 < 53 := (Nat.log2_lt hpos.ne').mpr hlt
  rw [unit_mul hpos]
  rcases hfull with hfull | rfl
  · rw [Packing.log2_eq hfull hlt]
    omega
  · omega

theorem shift_of_canonical (hc : Canonical m e) :
    shiftToTargetExponent .binary64 m e .exact = (⟨m, false, false⟩, e) := by
  have hunit := unit_of_canonical hc
  obtain ⟨em, hem, hstands⟩ := (reads_exact hc.pos hunit.ge).shift
  rw [hunit] at hem hstands
  rw [mul_div_cancel_right₀ _ (zpow_pos two_pos e).ne'] at hstands
  rw [hem, hstands.eq (stands_exact m)]
  rfl

/-- What a finite number can be is rounded to itself. -/
theorem roundWithAccuracy_of_canonical (hc : Canonical m e) (s : Sign) :
    roundWithAccuracy .binary64 s m e .exact = .finite s m e hc.pos := by
  have hrounded : (⟨m, false, false⟩ : ExtendedMantissa).roundedMantissa = m := rfl
  simp only [roundWithAccuracy, shift_of_canonical hc, hrounded]
  rw [dif_neg hc.pos.ne']

theorem rounds_of_canonical (hc : Canonical m e) :
    Rounds ((m : ℚ) * 2 ^ e) (.ofModel (.pack (.finite .positive m e hc.pos))) := by
  refine ⟨m, e, .exact, reads_exact hc.pos (unit_of_canonical hc).ge, ?_⟩
  rw [roundWithAccuracy_of_canonical hc]

/-- Every positive number can be rounded. -/
theorem exists_reads {q : ℚ} (hq : 0 < q) : ∃ m a, Reads q m (unit q) a := by
  have hu : 0 ≤ q / 2 ^ unit q := (div_pos hq (zpow_pos two_pos _)).le
  have hle := Nat.floor_le hu
  have hlt := Nat.lt_floor_add_one (q / 2 ^ unit q)
  set u := q / 2 ^ unit q with hdef
  set m := ⌊u⌋₊
  rcases hle.eq_or_lt with heq | hpos
  · exact ⟨m, .exact, hq, le_rfl, heq.symm⟩
  · rcases lt_trichotomy u (m + 1 / 2) with h | h | h
    · exact ⟨m, .inexact .lt, hq, le_rfl, hpos, h⟩
    · exact ⟨m, .inexact .eq, hq, le_rfl, h⟩
    · exact ⟨m, .inexact .gt, hq, le_rfl, h, hlt⟩

theorem le_roundedMantissa (em : ExtendedMantissa) : em.mantissa ≤ em.roundedMantissa := by
  obtain ⟨m, r, s⟩ := em
  cases r <;> cases s <;>
    simp [ExtendedMantissa.roundedMantissa, ExtendedMantissa.accuracy, Accuracy.roundToNearestEven]

/-- The mantissa is full unless the number has the least unit. -/
theorem Stands.full {em : ExtendedMantissa} (hq : 0 < q) (h : Stands em (q / 2 ^ unit q))
    (hunit : -1074 < unit q) : 2 ^ 52 ≤ em.mantissa := by
  have hlog : unit q = Int.log 2 q - 52 := by
    rw [unit] at hunit ⊢
    omega
  have hle : (2 : ℚ) ^ (52 : ℕ) ≤ q / 2 ^ unit q := by
    rw [le_div_iff₀ (zpow_pos two_pos _), ← zpow_natCast, ← zpow_add₀ two_ne_zero, hlog]
    have hself := Int.zpow_log_le_self Nat.one_lt_two hq
    norm_num at hself ⊢
    exact hself
  have hlt : (2 : ℚ) ^ (52 : ℕ) < em.mantissa + 1 := hle.trans_lt h.bounds.2
  have hnat : 2 ^ 52 < em.mantissa + 1 := by exact_mod_cast hlt
  omega

theorem pack_of_large (hm : 0 < m) (he : 972 ≤ e) :
    Float.Model.pack (.finite .positive m e hm) = Float.Model.pack (.infinity .positive) := by
  have hlarge : 2 ^ Format.binary64.exponentBits ≤ (e + (Format.binary64.exponentBias : ℤ) +
      (Format.binary64.mantissaBitsWithoutImplicit : ℤ)).toNat + 1 := by
    simp [Format.exponentBias]
    omega
  have hpack : UnpackedFloat.pack .binary64 (.finite .positive m e hm) =
      UnpackedFloat.pack .binary64 (.infinity .positive) := by
    simp only [UnpackedFloat.pack]
    rw [if_pos hlarge]
  simp only [Float.Model.pack, hpack]

/-- A number that is too large is rounded to infinity. -/
theorem Rounds.eq_infinity {x : Float} (h : Rounds q x) (hq : 2 ^ (1024 : ℤ) ≤ q) :
    x = .ofModel (.pack (.infinity .positive)) := by
  obtain ⟨m, e, a, hreads, rfl⟩ := h
  obtain ⟨em, hem, hstands⟩ := hreads.shift
  have hlog : 1024 ≤ Int.log 2 q :=
    (Int.zpow_le_iff_le_log Nat.one_lt_two hreads.pos).mp (by exact_mod_cast hq)
  have hunit : 972 ≤ unit q := by
    rw [unit]
    omega
  have hfull : 2 ^ 52 ≤ em.roundedMantissa :=
    (hstands.full hreads.pos (by omega)).trans (le_roundedMantissa em)
  have hpos : 0 < em.roundedMantissa := by omega
  have hlog2 : 52 ≤ em.roundedMantissa.log2 := (Nat.le_log2 hpos.ne').mpr hfull
  -- rounding may have filled the mantissa up, which only makes its exponent larger
  have hunit' := unit_mul hpos (unit q)
  have hreads' : Reads _ em.roundedMantissa (unit q) .exact := reads_exact hpos (by omega)
  obtain ⟨em', hem', hstands'⟩ := hreads'.shift
  have hfull' := hstands'.full hreads'.pos (by omega)
  simp only [roundWithAccuracy, hem, hem']
  rw [dif_neg (by omega)]
  exact congrArg Float.ofModel (pack_of_large _ (by omega))

theorem shift_zero (e : ℤ) :
    (shiftToTargetExponent .binary64 0 e .exact).1.mantissa = 0 := by
  have hle := ((stands_exact 0).shiftRight
    (Format.binary64.targetExponent (totalExponent 0 e) - e).toNat).bounds.1
  rw [Nat.cast_zero, zero_div] at hle
  exact_mod_cast le_antisymm hle (Nat.cast_nonneg _)

/-- A number that is too small is rounded to zero. -/
theorem Rounds.eq_zero {x : Float} (h : Rounds q x) (hq : q < 2 ^ (-1075 : ℤ)) :
    x = .ofModel (.pack (.zero .positive)) := by
  obtain ⟨m, e, a, hreads, rfl⟩ := h
  obtain ⟨em, hem, hstands⟩ := hreads.shift
  have hlog : Int.log 2 q < -1075 :=
    (Int.lt_zpow_iff_log_lt Nat.one_lt_two hreads.pos).mp (by exact_mod_cast hq)
  have hunit : unit q = -1074 := by
    rw [unit]
    omega
  rw [hunit] at hem hstands
  have hhalf : q / 2 ^ (-1074 : ℤ) < 1 / 2 := by
    have hstep : (2 : ℚ) ^ (-1075 : ℤ) = 1 / 2 * 2 ^ (-1074 : ℤ) := by
      rw [show (-1075 : ℤ) = -1 + -1074 by norm_num, zpow_add₀ two_ne_zero, zpow_neg_one, one_div]
    rwa [div_lt_iff₀ (zpow_pos two_pos _), ← hstep]
  have hrounded : em.roundedMantissa = 0 := by
    have hlt : (em.mantissa : ℚ) < 1 := by linarith [hstands.bounds.1]
    have hzero : em.mantissa = 0 := by
      have : em.mantissa < 1 := by exact_mod_cast hlt
      omega
    obtain ⟨m, r, s⟩ := em
    obtain rfl : m = 0 := hzero
    cases r <;> cases s <;> simp only [Stands] at hstands <;> first | rfl | (exfalso; linarith)
  simp only [roundWithAccuracy, hem, hrounded]
  rw [dif_pos (shift_zero _)]

end HostScript.Rounding
