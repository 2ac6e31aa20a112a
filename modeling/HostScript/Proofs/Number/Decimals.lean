import HostScript.Number.Decimal
import HostScript.Proofs.Number.Rounding

/-!
# Reading decimals

Reading a decimal rounds its value (`Decimal.rounds_toFloat`): by one operation on two numbers if
the digits and the power of ten are numbers, and on larger mantissas otherwise. What is read depends
on the value of a decimal only (`Decimal.toFloat_congr`).
-/

namespace HostScript

namespace Rounding

open Float.Model Float.Model.UnpackedFloat
open Packing (Canonical)

variable {m m₁ m₂ n : ℕ} {e e₁ e₂ : ℤ} {q : ℚ}

/-! ## Operations -/

/-- The leading bit of a quotient is at most one below the difference of the leading bits. -/
theorem le_log_div (h₁ : 0 < m₁) (h₂ : 0 < m₂) (e₁ e₂ : ℤ) :
    (m₁.log2 : ℤ) + e₁ - (m₂.log2 + e₂) - 1 ≤ Int.log 2 ((m₁ : ℚ) * 2 ^ e₁ / (m₂ * 2 ^ e₂)) := by
  have hpos₁ : (0 : ℚ) < m₁ * 2 ^ e₁ := mul_pos (by exact_mod_cast h₁) (zpow_pos two_pos e₁)
  have hpos₂ : (0 : ℚ) < m₂ * 2 ^ e₂ := mul_pos (by exact_mod_cast h₂) (zpow_pos two_pos e₂)
  have hle : (2 : ℚ) ^ (m₁.log2 + e₁ : ℤ) ≤ m₁ * 2 ^ e₁ := by
    rw [← log_mul h₁]
    exact_mod_cast Int.zpow_log_le_self Nat.one_lt_two hpos₁
  have hlt : (m₂ : ℚ) * 2 ^ e₂ < 2 ^ (m₂.log2 + e₂ + 1 : ℤ) := by
    rw [← log_mul h₂]
    exact_mod_cast Int.lt_zpow_succ_log_self Nat.one_lt_two ((m₂ : ℚ) * 2 ^ e₂)
  refine (Int.zpow_le_iff_le_log Nat.one_lt_two (div_pos hpos₁ hpos₂)).mp ?_
  rw [le_div_iff₀ hpos₂, show (m₁.log2 : ℤ) + e₁ - (m₂.log2 + e₂) - 1 =
    m₁.log2 + e₁ - (m₂.log2 + e₂ + 1) by ring, Nat.cast_ofNat, zpow_sub₀ two_ne_zero]
  calc (2 : ℚ) ^ (m₁.log2 + e₁ : ℤ) / 2 ^ (m₂.log2 + e₂ + 1 : ℤ) * (m₂ * 2 ^ e₂)
      ≤ 2 ^ (m₁.log2 + e₁ : ℤ) / 2 ^ (m₂.log2 + e₂ + 1 : ℤ) * 2 ^ (m₂.log2 + e₂ + 1 : ℤ) :=
        mul_le_mul_of_nonneg_left hlt.le (div_pos (zpow_pos two_pos _) (zpow_pos two_pos _)).le
    _ = 2 ^ (m₁.log2 + e₁ : ℤ) := div_mul_cancel₀ _ (zpow_pos two_pos _).ne'
    _ ≤ m₁ * 2 ^ e₁ := hle

/-- A quotient is rounded correctly. -/
theorem rounds_div (h₁ : 0 < m₁) (h₂ : 0 < m₂) (e₁ e₂ : ℤ) :
    Rounds ((m₁ : ℚ) * 2 ^ e₁ / (m₂ * 2 ^ e₂)) (.ofModel (.pack (div .binary64
      (.finite .positive m₁ e₁ h₁) (.finite .positive m₂ e₂ h₂)))) := by
  have hpos₁ : (0 : ℚ) < m₁ := by exact_mod_cast h₁
  have hpos₂ : (0 : ℚ) < m₂ := by exact_mod_cast h₂
  have hlog := le_log_div h₁ h₂ e₁ e₂
  obtain ⟨t, ht⟩ : ∃ t, t = min (e₁ - e₂) (Format.binary64.targetExponent
    (totalExponent m₁ e₁ - totalExponent m₂ e₂)) := ⟨_, rfl⟩
  have htarget : Format.binary64.targetExponent (totalExponent m₁ e₁ - totalExponent m₂ e₂) =
      max (m₁.log2 + e₁ - (m₂.log2 + e₂) - 53) (-1074) := by
    simp only [Format.targetExponent, totalExponent, Format.mantissaBits, Format.minExponent]
    norm_num
    omega
  obtain ⟨k, hk⟩ : ∃ k : ℕ, e₁ - e₂ = t + k := ⟨(e₁ - e₂ - t).toNat, by omega⟩
  refine ⟨(m₁ <<< k) / m₂, t, accuracyOfFraction ((m₁ <<< k) % m₂) m₂, ⟨?_, ?_, ?_⟩, ?_⟩
  · exact div_pos (mul_pos hpos₁ (zpow_pos two_pos _)) (mul_pos hpos₂ (zpow_pos two_pos _))
  · rw [unit]
    omega
  · -- the digits in front of the point and the fraction behind it
    have hparts : (m₁ : ℚ) * 2 ^ e₁ / (m₂ * 2 ^ e₂) / 2 ^ t =
        ((m₁ <<< k) / m₂ : ℕ) + ((m₁ <<< k) % m₂ : ℕ) / m₂ := by
      have hdivmod : ((m₁ <<< k : ℕ) : ℚ) = m₂ * ((m₁ <<< k) / m₂ : ℕ) + ((m₁ <<< k) % m₂ : ℕ) := by
        exact_mod_cast (Nat.div_add_mod (m₁ <<< k) m₂).symm
      have hshift : ((m₁ <<< k : ℕ) : ℚ) = m₁ * 2 ^ k := by
        rw [Nat.shiftLeft_eq]
        push_cast
        rfl
      have hpow : (2 : ℚ) ^ e₁ = 2 ^ k * 2 ^ t * 2 ^ e₂ := by
        rw [← zpow_natCast, ← zpow_add₀ two_ne_zero, ← zpow_add₀ two_ne_zero]
        congr 1
        omega
      rw [add_div' _ _ _ hpos₂.ne', mul_comm (((m₁ <<< k) / m₂ : ℕ) : ℚ), ← hdivmod, hshift, hpow]
      field_simp
    rw [hparts]
    exact stands_accuracyOfFraction _ (Nat.mod_lt _ h₂)
  · have hsign : Sign.positive / Sign.positive = Sign.positive := rfl
    simp only [UnpackedFloat.div, divCore, hsign]
    rw [← ht, show (e₁ - e₂ - t).toNat = k by omega]

/-- A product is rounded correctly if there are enough digits. -/
theorem rounds_mul (h₁ : 0 < m₁) (h₂ : 0 < m₂) (e₁ e₂ : ℤ) (hfull : 2 ^ 52 ≤ m₁ * m₂) :
    Rounds ((m₁ : ℚ) * 2 ^ e₁ * (m₂ * 2 ^ e₂)) (.ofModel (.pack (mul .binary64
      (.finite .positive m₁ e₁ h₁) (.finite .positive m₂ e₂ h₂)))) := by
  have hpos : 0 < m₁ * m₂ := Nat.mul_pos h₁ h₂
  have hlog : 52 ≤ (m₁ * m₂).log2 := (Nat.le_log2 hpos.ne').mpr hfull
  have hvalue : (m₁ : ℚ) * 2 ^ e₁ * (m₂ * 2 ^ e₂) = (m₁ * m₂ : ℕ) * 2 ^ (e₁ + e₂) := by
    rw [zpow_add₀ two_ne_zero]
    push_cast
    ring
  rw [hvalue]
  refine ⟨m₁ * m₂, e₁ + e₂, .exact, reads_exact hpos ?_, rfl⟩
  rw [unit_mul hpos]
  omega

/-- A float is this positive number, with a full mantissa. -/
def Stores (x : Float) (q : ℚ) : Prop :=
  ∃ m e, ∃ hc : Canonical m e, 2 ^ 52 ≤ m ∧ q = m * 2 ^ e ∧
    x = .ofModel (.pack (.finite .positive m e hc.pos))

/-- A number with few enough digits is rounded to itself. -/
theorem stores_round (hn : 0 < n) (hlt : n < 2 ^ 53) (hle : -1000 ≤ e) (hge : e ≤ 900) :
    Stores (.ofModel (.pack (UnpackedFloat.round .binary64 .positive n e))) (n * 2 ^ e) := by
  have hlog : n.log2 < 53 := (Nat.log2_lt hn.ne').mpr hlt
  obtain ⟨k, hk⟩ : ∃ k, n.log2 + k = 52 := ⟨52 - n.log2, by omega⟩
  have htarget : Format.binary64.targetExponent (totalExponent n e) = e - k := by
    rw [targetExponent_eq]
    omega
  have hlow : 2 ^ 52 ≤ n <<< k := by
    rw [Nat.shiftLeft_eq, ← hk, Nat.pow_add]
    exact Nat.mul_le_mul_right _ (Nat.log2_self_le hn.ne')
  have hhigh : n <<< k < 2 ^ 53 := by
    rw [Nat.shiftLeft_eq]
    calc n * 2 ^ k < 2 ^ (n.log2 + 1) * 2 ^ k :=
          Nat.mul_lt_mul_of_pos_right Nat.lt_log2_self (Nat.two_pow_pos k)
      _ = 2 ^ 53 := by rw [← Nat.pow_add, show n.log2 + 1 + k = 53 by omega]
  have hc : Canonical (n <<< k) (e - k) := ⟨by omega, hhigh, by omega, by omega, .inl hlow⟩
  refine ⟨_, _, hc, hlow, ?_, ?_⟩
  · rw [Nat.shiftLeft_eq, zpow_sub₀ two_ne_zero, zpow_natCast]
    push_cast
    field_simp
  · simp only [UnpackedFloat.round, htarget, decreaseExponent]
    rw [show e - (e - (k : ℤ)) = k by omega, Int.toNat_natCast, roundWithAccuracy_of_canonical hc]

theorem Stores.rounds_mul {x y : Float} {q r : ℚ} (hx : Stores x q) (hy : Stores y r) :
    Rounds (q * r) (x * y) := by
  obtain ⟨m₁, e₁, hc₁, hfull, rfl, rfl⟩ := hx
  obtain ⟨m₂, e₂, hc₂, -, rfl, rfl⟩ := hy
  have hmul := Rounding.rounds_mul hc₁.pos hc₂.pos e₁ e₂
    (hfull.trans (Nat.le_mul_of_pos_right m₁ hc₂.pos))
  rw [← Packing.unpack_pack hc₁, ← Packing.unpack_pack hc₂] at hmul
  exact hmul

theorem Stores.rounds_div {x y : Float} {q r : ℚ} (hx : Stores x q) (hy : Stores y r) :
    Rounds (q / r) (x / y) := by
  obtain ⟨m₁, e₁, hc₁, -, rfl, rfl⟩ := hx
  obtain ⟨m₂, e₂, hc₂, -, rfl, rfl⟩ := hy
  have hdiv := Rounding.rounds_div hc₁.pos hc₂.pos e₁ e₂
  rw [← Packing.unpack_pack hc₁, ← Packing.unpack_pack hc₂] at hdiv
  exact hdiv

theorem Stores.zero_mul {x : Float} (hx : Stores x q) :
    .ofModel (.pack (.zero .positive)) * x = Float.ofModel (.pack (.zero .positive)) := by
  obtain ⟨m, e, hc, -, -, rfl⟩ := hx
  change Float.ofModel (.pack (UnpackedFloat.mul .binary64 _ _)) = _
  rw [Packing.unpack_zero, Packing.unpack_pack hc]
  rfl

theorem Stores.zero_div {x : Float} (hx : Stores x q) :
    .ofModel (.pack (.zero .positive)) / x = Float.ofModel (.pack (.zero .positive)) := by
  obtain ⟨m, e, hc, -, -, rfl⟩ := hx
  change Float.ofModel (.pack (UnpackedFloat.div .binary64 _ _)) = _
  rw [Packing.unpack_zero, Packing.unpack_pack hc]
  rfl

/-! ## Decimals -/

theorem stores_toFloat (hn : 0 < n) (hlt : n < 2 ^ 53) : Stores n.toUInt64.toFloat n := by
  have hword : n.toUInt64.toNat = n := Nat.mod_eq_of_lt (by omega)
  have hround : n.toUInt64.toFloat =
      .ofModel (.pack (UnpackedFloat.round .binary64 .positive n 0)) := by
    simp only [Nat.toUInt64, UInt64.toFloat, Float.Model.ofUInt64, UnpackedFloat.ofUInt64,
      UnpackedFloat.ofNat, UnpackedFloat.ofInt, UnpackedFloat.normalize] at hword ⊢
    rw [hword, Int.compare_eq_gt.mpr (by omega)]
    rfl
  rw [hround]
  have hstores := stores_round (e := 0) hn hlt (by omega) (by omega)
  rwa [zpow_zero, mul_one] at hstores

/-- The tabulated powers of ten are powers of five, shifted. -/
theorem exactlyRepresentablePowersOfTen_eq :
    ∀ i : Fin Float.exactlyRepresentablePowersOfTen.size,
      Float.exactlyRepresentablePowersOfTen[i].toModel =
        .pack (UnpackedFloat.round .binary64 .positive (5 ^ i.val) i) := by
  decide +kernel

theorem stores_powerOfTen (hn : n < Float.exactlyRepresentablePowersOfTen.size) :
    Stores Float.exactlyRepresentablePowersOfTen[n] (10 ^ n) := by
  have hround : Float.exactlyRepresentablePowersOfTen[n] =
      .ofModel (.pack (UnpackedFloat.round .binary64 .positive (5 ^ n) n)) :=
    congrArg Float.ofModel (exactlyRepresentablePowersOfTen_eq ⟨n, hn⟩)
  have hn' : n < 23 := hn
  have hlt : 5 ^ n < 2 ^ 53 :=
    (Nat.pow_le_pow_right (by norm_num) (Nat.le_of_lt_succ hn')).trans_lt
      (by norm_num : 5 ^ 22 < 2 ^ 53)
  have hvalue : (10 : ℚ) ^ n = (5 ^ n : ℕ) * 2 ^ (n : ℤ) := by
    rw [zpow_natCast, Nat.cast_pow, ← mul_pow]
    norm_num
  rw [hround, hvalue]
  exact stores_round (Nat.pow_pos (by norm_num)) hlt (by omega) (by omega)

theorem rounds_infinity (hq : 2 ^ (1024 : ℤ) ≤ q) :
    Rounds q (.ofModel (.pack (.infinity .positive))) := by
  obtain ⟨m, a, hreads⟩ := exists_reads ((zpow_pos two_pos 1024).trans_le hq)
  have hrounds : Rounds q _ := ⟨m, unit q, a, hreads, rfl⟩
  rwa [hrounds.eq_infinity hq] at hrounds

theorem rounds_zero (hpos : 0 < q) (hq : q < 2 ^ (-1075 : ℤ)) :
    Rounds q (.ofModel (.pack (.zero .positive))) := by
  obtain ⟨m, a, hreads⟩ := exists_reads hpos
  have hrounds : Rounds q _ := ⟨m, unit q, a, hreads, rfl⟩
  rwa [hrounds.eq_zero hq] at hrounds

/-- Reading a decimal rounds it, past the guards against large powers of ten as well. -/
theorem rounds_model (hn : 0 < n) (k : ℤ) :
    Rounds (n * 10 ^ k) (.ofModel (Float.Model.ofScientific n k)) := by
  have hpos : (0 : ℚ) < n := by exact_mod_cast hn
  have hten : (0 : ℚ) < 10 ^ k := zpow_pos (by norm_num) k
  have hmantissa : Format.binary64.mantissaBits = 53 := rfl
  simp only [Float.Model.ofScientific, UnpackedFloat.ofScientific, hmantissa]
  rw [dif_neg hn.ne']
  split_ifs with hlarge hsmall hsign
  · refine rounds_infinity ?_
    have hone : (1 : ℚ) ≤ n := by exact_mod_cast hn
    calc (2 : ℚ) ^ (1024 : ℤ) ≤ 2 ^ k := zpow_le_zpow_right₀ one_le_two (by omega)
      _ ≤ 10 ^ k := zpow_le_zpow_left₀ (by omega) (by norm_num) (by norm_num)
      _ ≤ n * 10 ^ k := le_mul_of_one_le_left hten.le hone
  · refine rounds_zero (mul_pos hpos hten) ?_
    have hlt : (n : ℚ) < 2 ^ (n.log2 + 1) := by exact_mod_cast Nat.lt_log2_self
    have hten' : (10 : ℚ) ^ k ≤ 2 ^ k := by
      obtain ⟨j, rfl⟩ : ∃ j : ℕ, k = -j := ⟨(-k).toNat, by omega⟩
      rw [zpow_neg, zpow_neg, zpow_natCast, zpow_natCast]
      exact inv_anti₀ (by positivity) (pow_le_pow_left₀ two_pos.le (by norm_num) j)
    calc (n : ℚ) * 10 ^ k ≤ n * 2 ^ k := mul_le_mul_of_nonneg_left hten' hpos.le
      _ < 2 ^ (n.log2 + 1) * 2 ^ k := mul_lt_mul_of_pos_right hlt (zpow_pos two_pos k)
      _ = 2 ^ (n.log2 + 1 + k : ℤ) := by
        rw [zpow_add₀ two_ne_zero]
        norm_cast
      _ ≤ 2 ^ (-1075 : ℤ) := zpow_le_zpow_right₀ one_le_two (by omega)
  · -- enough digits are put behind the point for the product to be long
    have hlong : 2 ^ 52 ≤ (n <<< 53) * 10 ^ k.toNat := by
      rw [Nat.shiftLeft_eq]
      calc 2 ^ 52 ≤ 1 * 2 ^ 53 := by norm_num
        _ ≤ n * 2 ^ 53 := Nat.mul_le_mul_right _ hn
        _ ≤ n * 2 ^ 53 * 10 ^ k.toNat := Nat.le_mul_of_pos_right _ (by positivity)
    have hpow : (10 : ℚ) ^ k = (10 ^ k.toNat : ℕ) := by
      rw [Nat.cast_pow, ← zpow_natCast, Int.toNat_of_nonneg hsign]
      norm_num
    have hvalue : (n : ℚ) * (10 : ℚ) ^ k =
        (n <<< 53 : ℕ) * 2 ^ (-(53 : ℕ) : ℤ) * ((10 ^ k.toNat : ℕ) * 2 ^ (0 : ℤ)) := by
      rw [hpow, Nat.shiftLeft_eq, zpow_neg, zpow_natCast, zpow_zero, mul_one, Nat.cast_mul]
      norm_num
      ring
    rw [hvalue]
    exact rounds_mul _ _ _ _ hlong
  · have hpow : (10 : ℚ) ^ k = ((10 ^ (-k).toNat : ℕ) : ℚ)⁻¹ := by
      rw [Nat.cast_pow, ← zpow_natCast, Int.toNat_of_nonneg (by omega), ← zpow_neg, neg_neg]
      norm_num
    have hvalue : (n : ℚ) * (10 : ℚ) ^ k =
        n * 2 ^ (0 : ℤ) / ((10 ^ (-k).toNat : ℕ) * 2 ^ (0 : ℤ)) := by
      rw [hpow, zpow_zero, mul_one, mul_one, div_eq_mul_inv]
    rw [hvalue]
    exact rounds_div _ _ _ _

theorem rounds_ofScientific (hn : 0 < n) (s : Bool) (k : ℕ) :
    Rounds (n * 10 ^ (if s then -(k : ℤ) else k)) (Float.ofScientific n s k) := by
  unfold Float.ofScientific
  by_cases hfast : n < 2 ^ 53 ∧ k ≤ 22
  · rw [dif_pos hfast]
    have hn' := stores_toFloat hn hfast.1
    have hten := stores_powerOfTen (Nat.lt_succ_of_le hfast.2)
    cases s with
    | true =>
      simp only [if_true, zpow_neg, ← div_eq_mul_inv, zpow_natCast]
      exact hn'.rounds_div hten
    | false =>
      simp only [Bool.false_eq_true, if_false, zpow_natCast]
      exact hn'.rounds_mul hten
  · rw [dif_neg hfast]
    have hmodel := rounds_model hn (if s then -(k : ℤ) else k)
    cases s with
    | true => simpa [Int.negOfNat_eq] using hmodel
    | false => simpa using hmodel

/-- Zero is read if there are no digits but zeros. -/
theorem ofScientific_zero (s : Bool) (k : ℕ) :
    Float.ofScientific 0 s k = .ofModel (.pack (.zero .positive)) := by
  unfold Float.ofScientific
  by_cases hfast : 0 < 2 ^ 53 ∧ k ≤ 22
  · rw [dif_pos hfast]
    have hten := stores_powerOfTen (Nat.lt_succ_of_le hfast.2)
    cases s with
    | true => exact hten.zero_div
    | false => exact hten.zero_mul
  · rw [dif_neg hfast]
    cases s <;> rfl

end Rounding

open Rounding (Rounds)

/-- The number a decimal is. -/
def Decimal.value (d : Decimal) : ℚ := d.digits * 10 ^ d.exponent

theorem Decimal.value_eq_zero {d : Decimal} : d.value = 0 ↔ d.digits = 0 := by
  have hten : (10 : ℚ) ^ d.exponent ≠ 0 := zpow_ne_zero _ (by norm_num)
  simp [value, hten]

/-- Reading a decimal rounds its value. -/
theorem Decimal.rounds_toFloat {d : Decimal} (h : 0 < d.digits) : Rounds d.value d.toFloat := by
  unfold Decimal.toFloat Decimal.value
  split_ifs with hsign
  · have hrounds := Rounding.rounds_ofScientific h false d.exponent.toNat
    simpa [Int.toNat_of_nonneg hsign] using hrounds
  · have hrounds := Rounding.rounds_ofScientific h true (-d.exponent).toNat
    simpa [Int.toNat_of_nonneg (show 0 ≤ -d.exponent by omega)] using hrounds

theorem Decimal.toFloat_zero (k : ℤ) : toFloat ⟨0, k⟩ = .ofModel (.pack (.zero .positive)) := by
  unfold toFloat
  split_ifs <;> exact Rounding.ofScientific_zero _ _

/-- What is read depends on the value of a decimal only. -/
theorem Decimal.toFloat_congr {d d' : Decimal} (hvalue : d.value = d'.value) :
    d.toFloat = d'.toFloat := by
  obtain ⟨n, e⟩ := d
  obtain ⟨n', e'⟩ := d'
  rcases Nat.eq_zero_or_pos n with rfl | hn
  · have hzero : n' = 0 := value_eq_zero.mp (hvalue ▸ value_eq_zero.mpr rfl)
    rw [hzero, toFloat_zero, toFloat_zero]
  · have hn' : 0 < n' := Nat.pos_of_ne_zero fun h =>
      hn.ne' (value_eq_zero.mp (hvalue.trans (value_eq_zero.mpr h)))
    exact (rounds_toFloat hn).eq (hvalue ▸ rounds_toFloat hn')

end HostScript
