import HostScript.Proofs.Number.Integers
import HostScript.Value.Access

/-!
# Counting

A loop that counts in numbers counts correctly up to `2 ^ 53`: each natural number up to there is a
number (`stores_ofNat`), adding one gives the next (`ofNat_add_one`), and comparing two of them
compares what they stand for (`le_iff_of_isInteger`).
-/

namespace HostScript

open Float.Model Float.Model.UnpackedFloat

/-! ## Sums -/

namespace Rounding

open Packing (Canonical)

variable {m n : ℕ} {e : ℤ}

theorem Stores.rounds {x : Float} {q : ℚ} (h : Stores x q) : Rounds q x := by
  obtain ⟨m, e, hc, -, rfl, rfl⟩ := h
  exact rounds_of_canonical hc

/-- Rounding does not depend on how far the mantissa is shifted first. -/
theorem rounds_round (hm : 0 < m) (e : ℤ) :
    Rounds (m * 2 ^ e) (.ofModel (.pack (UnpackedFloat.round .binary64 .positive m e))) := by
  obtain ⟨k, hk⟩ : ∃ k : ℕ, (e - max (m.log2 + e - 52) (-1074)).toNat = k := ⟨_, rfl⟩
  have hround : UnpackedFloat.round .binary64 .positive m e =
      roundWithAccuracy .binary64 .positive (m <<< k) (e - k) .exact := by
    simp only [UnpackedFloat.round, decreaseExponent, targetExponent_eq, hk]
  have hvalue : (m : ℚ) * 2 ^ e = (m <<< k : ℕ) * 2 ^ (e - k : ℤ) := by
    rw [Nat.shiftLeft_eq, zpow_sub₀ two_ne_zero, zpow_natCast]
    push_cast
    field_simp
  have hunit : unit ((m <<< k : ℕ) * 2 ^ (e - k : ℤ)) = max (m.log2 + e - 52) (-1074) := by
    rw [← hvalue, unit_mul hm]
  have hpos : 0 < m <<< k := by
    rw [Nat.shiftLeft_eq]
    exact Nat.mul_pos hm (Nat.two_pow_pos k)
  rw [hround, hvalue]
  refine ⟨_, _, _, reads_exact hpos ?_, rfl⟩
  rw [hunit]
  omega

/-- A sum is rounded correctly. -/
theorem Stores.rounds_add {x y : Float} {q r : ℚ} (hx : Stores x q) (hy : Stores y r) :
    Rounds (q + r) (x + y) := by
  obtain ⟨m₁, e₁, hc₁, -, rfl, rfl⟩ := hx
  obtain ⟨m₂, e₂, hc₂, -, rfl, rfl⟩ := hy
  obtain ⟨k₁, hk₁⟩ : ∃ k : ℕ, e₁ = min e₁ e₂ + k := ⟨(e₁ - min e₁ e₂).toNat, by omega⟩
  obtain ⟨k₂, hk₂⟩ : ∃ k : ℕ, e₂ = min e₁ e₂ + k := ⟨(e₂ - min e₁ e₂).toNat, by omega⟩
  generalize hlow : min e₁ e₂ = low at hk₁ hk₂
  have hpos : 0 < m₁ <<< k₁ + m₂ <<< k₂ := by
    rw [Nat.shiftLeft_eq]
    exact Nat.add_pos_left (Nat.mul_pos hc₁.pos (Nat.two_pow_pos k₁)) _
  have hsum : UnpackedFloat.add .binary64 (.finite .positive m₁ e₁ hc₁.pos)
      (.finite .positive m₂ e₂ hc₂.pos) =
        UnpackedFloat.round .binary64 .positive (m₁ <<< k₁ + m₂ <<< k₂) low := by
    have hk₁' : (e₁ - low).toNat = k₁ := by omega
    have hk₂' : (e₂ - low).toNat = k₂ := by omega
    simp only [UnpackedFloat.add, decreaseExponent, hlow, hk₁', hk₂', Sign.apply,
      UnpackedFloat.normalize]
    rw [Int.compare_eq_gt.mpr (by exact_mod_cast hpos)]
    rfl
  have hvalue : (m₁ : ℚ) * 2 ^ e₁ + m₂ * 2 ^ e₂ = (m₁ <<< k₁ + m₂ <<< k₂ : ℕ) * 2 ^ low := by
    rw [hk₁, hk₂, zpow_add₀ two_ne_zero, zpow_add₀ two_ne_zero, zpow_natCast, zpow_natCast]
    push_cast [Nat.shiftLeft_eq]
    ring
  rw [hvalue]
  have hrounds := rounds_round hpos low
  rw [← hsum, ← Packing.unpack_pack hc₁, ← Packing.unpack_pack hc₂] at hrounds
  exact hrounds

end Rounding

namespace Number

open Packing Rounding

variable {x y : Float} {m n : ℕ} {e : ℤ}

/-! ## Natural numbers -/

/-- Up to `2 ^ 53` a natural number is rounded to itself. -/
theorem stores_ofNat (hn : 0 < n) (hle : n ≤ 2 ^ 53) : Stores (Float.ofNat n) n := by
  rcases hle.lt_or_eq with hlt | rfl
  · have hstores := stores_toFloat hn hlt
    rwa [(rounds_ofNat hn).eq hstores.rounds]
  · have hfull : Canonical (2 ^ 52) 1 := ⟨by decide, by decide, by decide, by decide, .inl le_rfl⟩
    exact ⟨2 ^ 52, 1, hfull, le_rfl, by norm_num, ofNat_two_pow (k := 53) (by decide)⟩

theorem ofNat_add_one (hn : n < 2 ^ 53) : Float.ofNat n + Float.ofNat 1 = Float.ofNat (n + 1) := by
  rcases n.eq_zero_or_pos with rfl | hpos
  · decide +kernel
  · have hsum := (stores_ofNat hpos hn.le).rounds_add (stores_ofNat Nat.one_pos (by decide))
    have hnext := rounds_ofNat n.succ_pos
    push_cast at hsum hnext
    exact hsum.eq hnext

/-! ## Exact values -/

/-- An integer loses nothing when it is cut off. -/
theorem wholePart_eq (hwhole : isWhole m e = true) : (wholePart m e : ℚ) = m * 2 ^ e := by
  unfold wholePart
  unfold isWhole at hwhole
  split
  · next he =>
    obtain ⟨k, rfl⟩ := Int.eq_ofNat_of_zero_le he
    simp
  · next he =>
    obtain ⟨k, rfl⟩ : ∃ k : ℕ, e = -k := ⟨(-e).toNat, by omega⟩
    obtain ⟨n, rfl⟩ : 2 ^ k ∣ m := by
      rcases k.eq_zero_or_pos with rfl | hk
      · simp
      · simpa [hk.ne', Nat.dvd_iff_mod_eq_zero] using hwhole
    simp only [neg_neg, Int.toNat_natCast, zpow_neg, zpow_natCast]
    rw [Nat.mul_div_cancel_left n (Nat.two_pow_pos k)]
    push_cast
    field_simp

theorem isWhole_of_eq (h : (n : ℚ) = m * 2 ^ e) : isWhole m e = true := by
  rw [isWhole, Bool.or_eq_true, decide_eq_true_iff, or_iff_not_imp_left]
  intro he
  obtain ⟨k, rfl⟩ : ∃ k : ℕ, e = -k := ⟨(-e).toNat, by omega⟩
  rw [zpow_neg, zpow_natCast, eq_mul_inv_iff_mul_eq₀ (by positivity)] at h
  have hm : m = n * 2 ^ k := by exact_mod_cast h.symm
  simp [hm]

theorem Stores.isInteger (h : Stores x n) : isInteger x = true := by
  obtain ⟨m, e, hc, -, hn, rfl⟩ := h
  unfold Number.isInteger
  rw [unpack_pack hc]
  exact isWhole_of_eq hn

theorem Stores.truncate? (h : Stores x n) : truncate? x = some n := by
  obtain ⟨m, e, hc, -, hn, rfl⟩ := h
  have hwhole : (wholePart m e : ℚ) = n := by rw [wholePart_eq (isWhole_of_eq hn), hn]
  unfold Number.truncate?
  rw [unpack_pack hc]
  have hnat : wholePart m e = n := by exact_mod_cast hwhole
  exact congrArg (fun k : ℕ => some (k : ℤ)) hnat

theorem isInteger_ofNat (hle : n ≤ 2 ^ 53) : isInteger (Float.ofNat n) = true := by
  rcases n.eq_zero_or_pos with rfl | hpos
  · decide +kernel
  · exact Stores.isInteger (stores_ofNat hpos hle)

theorem truncate?_ofNat (hle : n ≤ 2 ^ 53) : truncate? (Float.ofNat n) = some n := by
  rcases n.eq_zero_or_pos with rfl | hpos
  · decide +kernel
  · exact Stores.truncate? (stores_ofNat hpos hle)

theorem position?_ofNat (hle : n ≤ 2 ^ 53) : position? (Float.ofNat n) = some n := by
  simp [position?, truncate?_ofNat hle]

/-! ## Comparison -/

/-- Of two positive numbers the one with the larger exponent, then the one with the larger mantissa
is larger. -/
theorem isLE_compare_iff {m₁ m₂ : ℕ} {e₁ e₂ : ℤ} (hc₁ : Canonical m₁ e₁) (hc₂ : Canonical m₂ e₂) :
    ((compare e₁ e₂).then (compare m₁ m₂)).isLE = true ↔ (m₁ : ℚ) * 2 ^ e₁ ≤ m₂ * 2 ^ e₂ := by
  have hless {m m' : ℕ} {e e' : ℤ} (hc : Canonical m e) (hc' : Canonical m' e') (he : e < e') :
      (m : ℚ) * 2 ^ e < m' * 2 ^ e' := by
    have hfull : 2 ^ 52 ≤ m' := hc'.full.resolve_right fun h => by have := hc.le; omega
    have hm : m < m' * 2 := by have := hc.lt; omega
    calc (m : ℚ) * 2 ^ e < (m' * 2 : ℕ) * 2 ^ e :=
          mul_lt_mul_of_pos_right (by exact_mod_cast hm) (zpow_pos two_pos e)
      _ = m' * 2 ^ (e + 1) := by
        rw [zpow_add_one₀ two_ne_zero]
        push_cast
        ring
      _ ≤ m' * 2 ^ e' :=
        mul_le_mul_of_nonneg_left (zpow_le_zpow_right₀ one_le_two he) (Nat.cast_nonneg m')
  rcases lt_trichotomy e₁ e₂ with he | rfl | he
  · rw [Int.compare_eq_lt.mpr he]
    exact iff_of_true rfl (hless hc₁ hc₂ he).le
  · have hscale : (0 : ℚ) < 2 ^ e₁ := zpow_pos two_pos e₁
    rw [Int.compare_eq_eq.mpr rfl, mul_le_mul_iff_left₀ hscale, Nat.cast_le]
    exact Nat.isLE_compare
  · rw [Int.compare_eq_gt.mpr he]
    exact iff_of_false nofun (hless hc₂ hc₁ he).not_ge

theorem le_iff (x y : Float) : x ≤ y ↔ x.toModel.unpack.le y.toModel.unpack = true := by
  change decide (x.toModel ≤ y.toModel) = true ↔ _
  rw [decide_eq_true_iff]
  rfl

/-- A number that is a natural number is a zero or positive. -/
theorem natural_cases (hx : isInteger x = true) (hn : truncate? x = some (n : ℤ)) :
    (∃ s, x.toModel.unpack = .zero s) ∧ n = 0 ∨
      ∃ m e, ∃ hc : Canonical m e, x.toModel.unpack = .finite .positive m e hc.pos ∧
        (n : ℚ) = m * 2 ^ e := by
  unfold isInteger at hx
  unfold truncate? at hn
  have hshape := shape_unpack x.toModel
  generalize x.toModel.unpack = u at hx hn hshape ⊢
  cases hshape with
  | infinity s => exact nomatch hx
  | notANumber => exact nomatch hx
  | zero s =>
    have hzero : (0 : ℤ) = n := Option.some.inj hn
    exact .inl ⟨⟨s, rfl⟩, by omega⟩
  | @finite s m e hc =>
    have hpos := wholePart_pos hc.pos hx
    have hsign : signed s (wholePart m e) = n := Option.some.inj hn
    cases s with
    | negative =>
      simp only [signed] at hsign
      omega
    | positive =>
      have hwhole : wholePart m e = n := Int.ofNat.inj hsign
      exact .inr ⟨m, e, hc, rfl, by rw [← hwhole, wholePart_eq hx]⟩

/-- Natural numbers are compared by what they stand for. A zero may have either sign. -/
theorem le_iff_of_isInteger (hx : isInteger x = true) (hm : truncate? x = some (m : ℤ))
    (hy : isInteger y = true) (hn : truncate? y = some (n : ℤ)) : x ≤ y ↔ m ≤ n := by
  have hpos {n m : ℕ} {e : ℤ} (hc : Canonical m e) (h : (n : ℚ) = m * 2 ^ e) : 0 < n := by
    have hq : (0 : ℚ) < n := by
      rw [h]
      exact mul_pos (by exact_mod_cast hc.pos) (zpow_pos two_pos e)
    exact_mod_cast hq
  rw [le_iff]
  rcases natural_cases hx hm with ⟨⟨s, hu⟩, rfl⟩ | ⟨m₁, e₁, hc₁, hu, hm₁⟩ <;>
    rcases natural_cases hy hn with ⟨⟨t, hv⟩, rfl⟩ | ⟨m₂, e₂, hc₂, hv, hm₂⟩ <;>
    rw [hu, hv]
  · exact iff_of_true rfl le_rfl
  · exact iff_of_true rfl (Nat.zero_le n)
  · exact iff_of_false nofun (Nat.not_le_of_lt (hpos hc₁ hm₁))
  · rw [← Nat.cast_le (α := ℚ), hm₁, hm₂]
    exact isLE_compare_iff hc₁ hc₂

/-- Only the first natural number is not above zero. -/
theorem zero_lt_ofNat_iff (hle : n ≤ 2 ^ 53) : Float.ofNat 0 < Float.ofNat n ↔ 0 < n := by
  rcases n.eq_zero_or_pos with rfl | hpos
  · decide +kernel
  · obtain ⟨m, e, hc, -, -, hx⟩ := stores_ofNat hpos hle
    have hunpack : (Float.ofNat n).toModel.unpack = .finite .positive m e hc.pos := by
      rw [hx]
      exact unpack_pack hc
    refine iff_of_true ?_ hpos
    change decide ((Float.ofNat 0).toModel < (Float.ofNat n).toModel) = true
    rw [decide_eq_true_iff]
    change UnpackedFloat.lt (Float.ofNat 0).toModel.unpack (Float.ofNat n).toModel.unpack = true
    rw [hunpack]
    rfl

end Number

end HostScript
