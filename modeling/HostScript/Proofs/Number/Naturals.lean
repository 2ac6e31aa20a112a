import HostScript.Proofs.Number.Counting

/-!
# Natural numbers among numbers

A natural number is rounded to itself if it has few enough bits in front of its last zero bits
(`Fits`), and to another natural number if it has more (`exists_of_ofInt?`).
-/

namespace HostScript

open Float.Model Float.Model.UnpackedFloat
open Packing (Canonical)

/-! ## Rounding to whole numbers -/

namespace Rounding

variable {q : ℚ} {x : Float}

theorem not_isFinite_infinity (s : Sign) :
    (Float.ofModel (.pack (.infinity s))).isFinite = false := by
  cases s <;> rfl

/-- The mantissa has no more bits than there is room for. -/
theorem Stands.lt {em : ExtendedMantissa} (h : Stands em (q / 2 ^ unit q)) :
    em.mantissa < 2 ^ 53 := by
  have hlt : q / 2 ^ unit q < 2 ^ (53 : ℕ) := by
    rw [div_lt_iff₀ (zpow_pos two_pos _), ← zpow_natCast, ← zpow_add₀ two_ne_zero]
    have hlog := Int.lt_zpow_succ_log_self Nat.one_lt_two q
    refine lt_of_lt_of_le (by exact_mod_cast hlog) (zpow_le_zpow_right₀ one_le_two ?_)
    rw [unit]
    omega
  have hle := h.bounds.1.trans_lt hlt
  exact_mod_cast hle

/-- What is rounded to whole units of at least one is infinite or a mantissa with an exponent that
is not negative. -/
theorem Rounds.exists_canonical (h : Rounds q x) (hunit : 0 ≤ unit q) (hx : x.isFinite = true) :
    ∃ m e, ∃ hc : Canonical m e, 0 ≤ e ∧ x = .ofModel (.pack (.finite .positive m e hc.pos)) := by
  obtain ⟨m, e, a, hreads, rfl⟩ := h
  obtain ⟨em, hem, hstands⟩ := hreads.shift
  have hfull : 2 ^ 52 ≤ em.roundedMantissa :=
    (hstands.full hreads.pos (by omega)).trans (le_roundedMantissa em)
  have hpos : 0 < em.roundedMantissa := by omega
  have hlog : 52 ≤ em.roundedMantissa.log2 := (Nat.le_log2 hpos.ne').mpr hfull
  -- rounding may have filled the mantissa up, which makes the exponent larger by one
  have hunit' := unit_mul hpos (unit q)
  have hreads' : Reads _ em.roundedMantissa (unit q) .exact := reads_exact hpos (by omega)
  obtain ⟨em', hem', hstands'⟩ := hreads'.shift
  have hfull' := hstands'.full hreads'.pos (by omega)
  have hpos' : em'.mantissa ≠ 0 := by omega
  have hround : roundWithAccuracy .binary64 .positive m e a =
      .finite .positive em'.mantissa (unit (em.roundedMantissa * 2 ^ unit q))
        (Nat.pos_of_ne_zero hpos') := by
    simp only [roundWithAccuracy, hem, hem']
    rw [dif_neg hpos']
  rw [hround] at hx ⊢
  have hlarge : unit (em.roundedMantissa * 2 ^ unit q) ≤ 971 := by
    by_contra hgt
    rw [pack_of_large _ (by omega), not_isFinite_infinity] at hx
    cases hx
  exact ⟨_, _, ⟨by omega, hstands'.lt, by omega, hlarge, .inl hfull'⟩, by omega, rfl⟩

end Rounding

namespace Number

open Rounding

variable {m n k : ℕ} {e : ℤ} {x : Float}

/-! ## Natural numbers with few bits -/

/-- In front of its last zero bits a natural number has at most as many bits as a mantissa. -/
def Fits (n : ℕ) : Prop := ∃ m j, m < 2 ^ 53 ∧ n = m * 2 ^ j

theorem fits_zero : Fits 0 := ⟨0, 0, by decide, by decide⟩

/-- A mantissa can be filled up. -/
theorem Fits.exists_canonical (h : Fits n) (hpos : 0 < n) (hn : n < 2 ^ 1024) :
    ∃ m e, Canonical m e ∧ (n : ℚ) = m * 2 ^ e := by
  obtain ⟨m, j, hm, rfl⟩ := h
  have hm0 : 0 < m := Nat.pos_of_mul_pos_right hpos
  have hlog : m.log2 < 53 := (Nat.log2_lt hm0.ne').mpr hm
  obtain ⟨i, hi⟩ : ∃ i, m.log2 + i = 52 := ⟨52 - m.log2, by omega⟩
  have hlow : 2 ^ 52 ≤ m * 2 ^ i := by
    rw [← hi, pow_add]
    exact Nat.mul_le_mul_right _ (Nat.log2_self_le hm0.ne')
  have hhigh : m * 2 ^ i < 2 ^ 53 := by
    rw [show 53 = m.log2 + 1 + i by omega, pow_add]
    exact Nat.mul_lt_mul_of_pos_right Nat.lt_log2_self (Nat.two_pow_pos i)
  have hexponent : m.log2 + j < 1024 := by
    by_contra hge
    refine hn.not_ge ?_
    calc 2 ^ 1024 ≤ 2 ^ (m.log2 + j) := pow_le_pow_right₀ (by decide) (Nat.le_of_not_lt hge)
      _ = 2 ^ m.log2 * 2 ^ j := pow_add 2 _ _
      _ ≤ m * 2 ^ j := Nat.mul_le_mul_right _ (Nat.log2_self_le hm0.ne')
  refine ⟨m * 2 ^ i, j - i, ⟨by omega, hhigh, by omega, by omega, .inl hlow⟩, ?_⟩
  rw [zpow_sub₀ two_ne_zero, zpow_natCast, zpow_natCast]
  push_cast
  field_simp

/-- The integral part of a finite number fits. -/
theorem Fits.of_canonical (hc : Canonical m e) : Fits (wholePart m e) := by
  unfold wholePart
  split
  · exact ⟨m, e.toNat, hc.lt, rfl⟩
  · exact ⟨m / 2 ^ (-e).toNat, 0, (Nat.div_le_self _ _).trans_lt hc.lt, by simp⟩

/-! ## Rounding natural numbers -/

theorem ofInt?_natCast (n : ℕ) :
    ofInt? n = if (Float.ofNat n).isFinite then some (Float.ofNat n) else none :=
  rfl

/-- A number that is a natural number is what this number is rounded to. -/
theorem natural_of_canonical (hc : Canonical m e) (hk : (k : ℚ) = m * 2 ^ e)
    (hx : x = .ofModel (.pack (.finite .positive m e hc.pos))) :
    Fits k ∧ isInteger x = true ∧ truncate? x = some (k : ℤ) ∧ ofInt? k = some x := by
  have hunpack : x.toModel.unpack = .finite .positive m e hc.pos := by
    rw [hx]
    exact Packing.unpack_pack hc
  have hwhole : isWhole m e = true := isWhole_of_eq hk
  have hpart : wholePart m e = k := by
    have hcast : (wholePart m e : ℚ) = k := (wholePart_eq hwhole).trans hk.symm
    exact_mod_cast hcast
  have hrounds : Rounds k x := by
    rw [hk, hx]
    exact rounds_of_canonical hc
  have hfinite : x.isFinite = true := by
    change x.toModel.unpack.isFinite = true
    rw [hunpack]
    rfl
  have hpos : 0 < k := hpart ▸ wholePart_pos hc.pos hwhole
  refine ⟨hpart ▸ .of_canonical hc, ?_, ?_, ?_⟩
  · rwa [isInteger, hunpack]
  · rw [truncate?, hunpack]
    exact congrArg (fun k : ℕ => some (k : ℤ)) hpart
  · rw [ofInt?_natCast, (rounds_ofNat hpos).eq hrounds, if_pos hfinite]

/-- What has a number is below a power of two. -/
theorem lt_of_ofInt? (h : ofInt? n = some x) : n < 2 ^ 1024 := by
  by_contra hlarge
  have hpos : 0 < n := (pow_pos two_pos 1024).trans_le (Nat.le_of_not_lt hlarge)
  have hle : (2 : ℚ) ^ (1024 : ℤ) ≤ n := by
    rw [zpow_ofNat]
    exact (Nat.cast_pow 2 1024).symm.trans_le (Nat.cast_le.mpr (Nat.le_of_not_lt hlarge))
  rw [ofInt?_natCast, (rounds_ofNat hpos).eq_infinity hle, not_isFinite_infinity] at h
  exact nomatch h

/-- The number for a natural number is a natural number that fits: the same one if that fits too,
and otherwise another, to which the same number belongs. -/
theorem exists_of_ofInt? (h : ofInt? n = some x) : ∃ k : ℕ, Fits k ∧ (Fits n → k = n) ∧
    isInteger x = true ∧ truncate? x = some (k : ℤ) ∧ ofInt? k = some x := by
  rcases n.eq_zero_or_pos with rfl | hpos
  · obtain rfl : Float.ofNat 0 = x := Option.some.inj h
    exact ⟨0, fits_zero, fun _ => rfl, by decide +kernel, by decide +kernel, h⟩
  have hrounds := rounds_ofNat hpos
  have hfinite : (Float.ofNat n).isFinite = true := by
    by_contra hinfinite
    rw [ofInt?_natCast, if_neg hinfinite] at h
    exact nomatch h
  obtain rfl : Float.ofNat n = x := by
    rw [ofInt?_natCast, if_pos hfinite] at h
    exact Option.some.inj h
  by_cases hfits : Fits n
  · obtain ⟨m, e, hc, hvalue⟩ := hfits.exists_canonical hpos (lt_of_ofInt? h)
    rw [hvalue] at hrounds
    obtain ⟨-, hnatural⟩ := natural_of_canonical hc hvalue (hrounds.eq (rounds_of_canonical hc))
    exact ⟨n, hfits, fun _ => rfl, hnatural⟩
  · have hlarge : 2 ^ 53 ≤ n := by
      by_contra hsmall
      exact hfits ⟨n, 0, Nat.lt_of_not_le hsmall, by simp⟩
    have hunit : 0 ≤ unit n := by
      have hlog : 53 ≤ Int.log 2 (n : ℚ) := by
        refine (Int.zpow_le_iff_le_log Nat.one_lt_two (by exact_mod_cast hpos)).mp ?_
        exact_mod_cast hlarge
      rw [unit]
      omega
    obtain ⟨m, e, hc, he, hx⟩ := hrounds.exists_canonical hunit hfinite
    obtain ⟨hk, hnatural⟩ :=
      natural_of_canonical hc (wholePart_eq (by simp [isWhole, he])) hx
    exact ⟨wholePart m e, hk, fun h => absurd h hfits, hnatural⟩

/-- A natural number that fits and is not too large has a number. -/
theorem exists_ofInt?_eq_some (h : Fits n) (hn : n < 2 ^ 1024) : ∃ x, ofInt? n = some x := by
  rcases n.eq_zero_or_pos with rfl | hpos
  · exact ⟨Float.ofNat 0, rfl⟩
  · obtain ⟨m, e, hc, hvalue⟩ := h.exists_canonical hpos hn
    obtain ⟨-, -, -, hx⟩ := natural_of_canonical hc hvalue rfl
    exact ⟨_, hx⟩

end Number

end HostScript
