import HostScript.Proofs.Number.Decimals

/-!
# Integers among numbers

The sign of a number that is an integer, and how large it can be; and which powers of two are too
large for a number.
-/

namespace HostScript.Number

open Float.Model Float.Model.UnpackedFloat Packing

variable {x : Float} {n : ℤ} {m : ℕ} {e : ℤ}

theorem lt_zero_iff (x : Float) :
    x < 0 ↔ x.toModel.unpack.lt (.zero .positive) = true := by
  have hzero : (0 : Float).toModel.unpack = .zero .positive := rfl
  rw [← hzero]
  change decide (x.toModel < (0 : Float).toModel) = true ↔ _
  rw [decide_eq_true_iff]
  rfl

theorem wholePart_pos (hm : 0 < m) (hwhole : isWhole m e = true) : 0 < wholePart m e := by
  unfold wholePart
  unfold isWhole at hwhole
  split
  · exact Nat.mul_pos hm (by positivity)
  · next he =>
    have hmod : m % 2 ^ (-e).toNat = 0 := by simpa [he] using hwhole
    exact Nat.div_pos (Nat.le_of_dvd hm (Nat.dvd_of_mod_eq_zero hmod)) (by positivity)

/-- A number that is an integer has the integer's sign. -/
theorem lt_zero_iff_of_isInteger (hwhole : isInteger x = true) (h : truncate? x = some n) :
    x < 0 ↔ n < 0 := by
  rw [lt_zero_iff]
  unfold isInteger at hwhole
  unfold truncate? at h
  have hshape := shape_unpack x.toModel
  generalize x.toModel.unpack = u at hwhole h hshape ⊢
  cases hshape with
  | infinity s => exact nomatch hwhole
  | notANumber => exact nomatch hwhole
  | zero s =>
    obtain rfl : 0 = n := Option.some.inj h
    cases s <;> decide
  | @finite s m e hc =>
    have hpos := wholePart_pos hc.pos hwhole
    obtain rfl := Option.some.inj h
    cases s with
    | positive => exact iff_of_false nofun (by simp [signed])
    | negative => exact iff_of_true rfl (by simpa [signed] using hpos)

/-- The integral part of a number is below a power of two. -/
theorem natAbs_lt_of_truncate? (h : truncate? x = some n) : n.natAbs < 2 ^ 1024 := by
  unfold truncate? at h
  have hshape := shape_unpack x.toModel
  generalize x.toModel.unpack = u at h hshape
  cases hshape with
  | infinity s => exact nomatch h
  | notANumber => exact nomatch h
  | zero s =>
    obtain rfl : 0 = n := Option.some.inj h
    rw [Int.natAbs_zero]
    positivity
  | @finite s m e hc =>
    have hwhole : wholePart m e < 2 ^ 1024 := by
      unfold wholePart
      split
      · have hge : 53 + e.toNat ≤ 1024 := by have := hc.ge; omega
        calc m * 2 ^ e.toNat < 2 ^ 53 * 2 ^ e.toNat :=
              Nat.mul_lt_mul_of_pos_right hc.lt (by positivity)
          _ = 2 ^ (53 + e.toNat) := (pow_add 2 53 _).symm
          _ ≤ 2 ^ 1024 := pow_le_pow_right₀ (by decide) hge
      · calc m / 2 ^ (-e).toNat ≤ m := Nat.div_le_self _ _
          _ < 2 ^ 53 := hc.lt
          _ ≤ 2 ^ 1024 := pow_le_pow_right₀ (by decide) (by decide)
    obtain rfl := Option.some.inj h
    cases s with
    | positive => exact hwhole
    | negative => rwa [signed, Int.natAbs_neg]

/-! ## Powers of two -/

theorem rounds_ofNat {n : ℕ} (hn : 0 < n) : Rounding.Rounds n (Float.ofNat n) := by
  have h : Rounding.Rounds (n * 10 ^ (0 : ℤ)) (Float.ofNat n) :=
    Rounding.rounds_ofScientific hn false 0
  rwa [zpow_zero, mul_one] at h

theorem canonical_two_pow {k : ℕ} (hk : k < 1024) : Canonical (2 ^ 52) (k - 52) :=
  ⟨by decide, by decide, by omega, by omega, .inl le_rfl⟩

/-- A power of two below the largest number is this power. -/
theorem ofNat_two_pow {k : ℕ} (hk : k < 1024) :
    Float.ofNat (2 ^ k) =
      .ofModel (.pack (.finite .positive (2 ^ 52) (k - 52) (canonical_two_pow hk).pos)) := by
  have hvalue : ((2 ^ k : ℕ) : ℚ) = ((2 ^ 52 : ℕ) : ℚ) * 2 ^ ((k : ℤ) - 52) := by
    rw [zpow_sub₀ two_ne_zero, zpow_natCast]
    push_cast
    field_simp
  have hrounds := rounds_ofNat (Nat.two_pow_pos k)
  rw [hvalue] at hrounds
  exact hrounds.eq (Rounding.rounds_of_canonical (canonical_two_pow hk))

theorem ofNat_two_pow_eq_infinity {k : ℕ} (hk : 1024 ≤ k) :
    Float.ofNat (2 ^ k) = .ofModel (.pack (.infinity .positive)) := by
  have hle : (2 : ℚ) ^ (1024 : ℤ) ≤ (2 ^ k : ℕ) := by
    rw [Nat.cast_pow, Nat.cast_ofNat, ← zpow_natCast]
    exact zpow_le_zpow_right₀ one_le_two (by omega)
  exact (rounds_ofNat (Nat.two_pow_pos k)).eq_infinity hle

theorem isFinite_ofNat_two_pow {k : ℕ} (hk : k < 1024) :
    (Float.ofNat (2 ^ k)).isFinite = true := by
  rw [ofNat_two_pow hk]
  change (Float.Model.pack _).unpack.isFinite = true
  rw [unpack_pack (canonical_two_pow hk)]
  rfl

theorem ofInt?_two_pow (k : ℕ) : ofInt? (2 ^ k) =
    if (Float.ofNat (2 ^ k)).isFinite then some (Float.ofNat (2 ^ k)) else none := by
  have hcast : Float.ofInt (2 ^ k) = Float.ofNat (2 ^ k) := by
    rw [show (2 : ℤ) ^ k = ((2 ^ k : ℕ) : ℤ) by push_cast; rfl]
    rfl
  rw [ofInt?, hcast]

/-- The powers of two below the 1024th are numbers. -/
theorem ofInt?_two_pow_of_lt {k : ℕ} (hk : k < 1024) :
    ofInt? (2 ^ k) = some (Float.ofNat (2 ^ k)) := by
  rw [ofInt?_two_pow, if_pos (isFinite_ofNat_two_pow hk)]

/-- The powers of two that are no numbers are those from the 1024th on. -/
theorem ofInt?_two_pow_eq_none_iff {k : ℕ} : ofInt? (2 ^ k) = none ↔ 1024 ≤ k := by
  by_cases hk : k < 1024
  · rw [ofInt?_two_pow_of_lt hk]
    exact iff_of_false nofun (Nat.not_le_of_lt hk)
  · refine iff_of_true ?_ (Nat.le_of_not_lt hk)
    rw [ofInt?_two_pow, ofNat_two_pow_eq_infinity (Nat.le_of_not_lt hk)]
    rfl

end HostScript.Number
