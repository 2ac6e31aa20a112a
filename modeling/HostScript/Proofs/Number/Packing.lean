import HostScript.Number.Exact
import Mathlib

/-!
# Numbers and their bits

A number is a sign, an exponent and a mantissa in 64 bits. Packing and unpacking lose nothing: all
numbers come back from being unpacked (`pack_unpack`), and so do the mantissas and exponents that a
finite number can have (`unpack_pack`).
-/

namespace HostScript.Packing

open Float.Model Float.Model.UnpackedFloat

/-! ## The three parts -/

theorem toBitVec_ofBitVec (v : BitVec 1) : (Sign.ofBitVec v).toBitVec = v := by
  revert v
  decide

theorem ofBitVec_toBitVec (s : Sign) : Sign.ofBitVec s.toBitVec = s := by
  cases s <;> rfl

/-- Bits are put together from their parts. -/
theorem packComponents_unpack (b : BitVec 64) : packComponents .binary64
    (.ofBitVec (@unpackSign .binary64 b)) (unpackExponent b) (unpackMantissa b) = b := by
  rw [packComponents, toBitVec_ofBitVec]
  ext i hi
  simp only [unpackSign, unpackExponent, unpackMantissa]
  grind

theorem unpackSign_packComponents (s : Sign) (exponent : BitVec 11) (mantissa : BitVec 52) :
    unpackSign (packComponents .binary64 s exponent mantissa) = s.toBitVec := by
  ext i hi
  simp only [unpackSign, packComponents]
  grind

/-! ## Finite numbers -/

/-- The mantissas and exponents of finite numbers other than zero. -/
structure Canonical (m : ℕ) (e : ℤ) : Prop where
  pos : 0 < m
  lt : m < 2 ^ 53
  le : -1074 ≤ e
  ge : e ≤ 971
  full : 2 ^ 52 ≤ m ∨ e = -1074

variable {s : Sign} {m : ℕ} {e : ℤ}

theorem finite_congr {m' : ℕ} {e' : ℤ} (hm : m = m') (he : e = e') (h : 0 < m) (h' : 0 < m') :
    UnpackedFloat.finite s m e h = .finite s m' e' h' := by
  subst hm he
  rfl

theorem log2_eq (h : 2 ^ 52 ≤ m) (h' : m < 2 ^ 53) : m.log2 = 52 :=
  (Nat.log2_eq_iff (by omega)).mpr ⟨h, h'⟩

theorem pack_normal (h : 0 < m) (hm : 2 ^ 52 ≤ m) (hm' : m < 2 ^ 53) (he : -1074 ≤ e)
    (he' : e ≤ 971) : UnpackedFloat.pack .binary64 (.finite s m e h) =
      packComponents .binary64 s (.ofNat 11 (e + 1075).toNat) (.ofNat 52 m) := by
  have hbiased : (e + (Format.binary64.exponentBias : ℤ) +
      (Format.binary64.mantissaBitsWithoutImplicit : ℤ)).toNat = (e + 1075).toNat := by
    simp [Format.exponentBias]
    omega
  simp only [UnpackedFloat.pack, hbiased, log2_eq hm hm']
  rw [if_neg (by norm_num; omega), if_pos (by decide)]

theorem pack_subnormal (h : 0 < m) (hm : m < 2 ^ 52) :
    UnpackedFloat.pack .binary64 (.finite s m (-1074) h) =
      packComponents .binary64 s 0#11 (.ofNat 52 m) := by
  have hlog : m.log2 < 52 := (Nat.log2_lt h.ne').mpr hm
  have hne : m.log2 + 1 ≠ Format.binary64.mantissaBits := by
    simp only [Format.mantissaBits]
    omega
  simp only [UnpackedFloat.pack]
  rw [if_neg (by decide), if_neg hne]

theorem unpack_normal {exponent : BitVec 11} (mantissa : BitVec 52) (hones : exponent ≠ -1#11)
    (hzero : exponent ≠ 0#11) :
    UnpackedFloat.unpack .binary64 (packComponents .binary64 s exponent mantissa) =
      .finite s (2 ^ 52 + mantissa.toNat) (exponent.toNat - 1075) (by positivity) := by
  have hmantissa : (1#1 ++ mantissa).toNat = 2 ^ 52 + mantissa.toNat := by
    rw [BitVec.toNat_append, ← Nat.shiftLeft_add_eq_or_of_lt mantissa.isLt]
    rfl
  simp only [UnpackedFloat.unpack, unpackMantissa_packComponents, unpackExponent_packComponents,
    unpackSign_packComponents, ofBitVec_toBitVec]
  rw [if_neg hones, if_neg hzero]
  exact finite_congr hmantissa rfl _ _

theorem unpack_subnormal {mantissa : BitVec 52} (hzero : mantissa ≠ 0#52)
    (hpos : 0 < mantissa.toNat) :
    UnpackedFloat.unpack .binary64 (packComponents .binary64 s 0#11 mantissa) =
      .finite s mantissa.toNat (-1074) hpos := by
  simp only [UnpackedFloat.unpack, unpackMantissa_packComponents, unpackExponent_packComponents,
    unpackSign_packComponents, ofBitVec_toBitVec]
  rw [if_neg (by decide), if_pos trivial, dif_neg hzero]
  exact finite_congr rfl (by decide) _ _

/-- What a finite number can be comes back from being packed. -/
theorem unpack_pack (hc : Canonical m e) :
    (Float.Model.pack (.finite s m e hc.pos)).unpack = .finite s m e hc.pos := by
  change UnpackedFloat.unpack .binary64 (UnpackedFloat.pack .binary64 _) = _
  obtain ⟨hpos, hlt, hle, hge, hfull⟩ := hc
  by_cases hm : 2 ^ 52 ≤ m
  · have hexponent : (BitVec.ofNat 11 (e + 1075).toNat).toNat = (e + 1075).toNat := by
      rw [BitVec.toNat_ofNat, Nat.mod_eq_of_lt (by omega)]
    rw [pack_normal hpos hm hlt hle hge, unpack_normal]
    · refine finite_congr ?_ ?_ _ _
      · rw [BitVec.toNat_ofNat]
        omega
      · rw [hexponent]
        omega
    · refine BitVec.toNat_ne.mpr ?_
      change _ ≠ 2047
      omega
    · refine BitVec.toNat_ne.mpr ?_
      change _ ≠ 0
      omega
  · obtain rfl : e = -1074 := hfull.resolve_left hm
    have hmantissa : (BitVec.ofNat 52 m).toNat = m := by
      rw [BitVec.toNat_ofNat, Nat.mod_eq_of_lt (by omega)]
    rw [pack_subnormal hpos (by omega), unpack_subnormal]
    · exact finite_congr hmantissa rfl _ _
    · refine BitVec.toNat_ne.mpr ?_
      change _ ≠ 0
      omega
    · rwa [hmantissa]

theorem unpack_zero (s : Sign) : (Float.Model.pack (.zero s)).unpack = .zero s := by
  cases s <;> rfl

theorem neg_finite (hc : Canonical m e) :
    -Float.ofModel (.pack (.finite .positive m e hc.pos)) =
      .ofModel (.pack (.finite .negative m e hc.pos)) := by
  change Float.ofModel (.pack (UnpackedFloat.neg _)) = _
  rw [unpack_pack hc]
  rfl

theorem neg_zero :
    -Float.ofModel (.pack (.zero .positive)) = .ofModel (.pack (.zero .negative)) := by
  change Float.ofModel (.pack (UnpackedFloat.neg _)) = _
  rw [unpack_zero]
  rfl

/-- What numbers are unpacked to. -/
inductive Shape : UnpackedFloat → Prop
  | infinity (s : Sign) : Shape (.infinity s)
  | notANumber : Shape .notANumber
  | zero (s : Sign) : Shape (.zero s)
  | finite (s : Sign) {m : ℕ} {e : ℤ} (hc : Canonical m e) : Shape (.finite s m e hc.pos)

theorem packComponents_eq {s : Sign} {exponent : BitVec 11} {mantissa : BitVec 52}
    (hvalid : Format.binary64.Valid (packComponents .binary64 s exponent mantissa)) :
    UnpackedFloat.pack .binary64
        (UnpackedFloat.unpack .binary64 (packComponents .binary64 s exponent mantissa)) =
      packComponents .binary64 s exponent mantissa ∧
    Shape (UnpackedFloat.unpack .binary64 (packComponents .binary64 s exponent mantissa)) := by
  have hmantissa := mantissa.isLt
  have hexponent := exponent.isLt
  by_cases hones : exponent = -1#11
  · subst hones
    have hunpack : UnpackedFloat.unpack .binary64 (packComponents .binary64 s (-1#11) mantissa) =
        if mantissa = 0#52 then .infinity s else .notANumber := by
      simp only [UnpackedFloat.unpack, unpackMantissa_packComponents,
        unpackExponent_packComponents, unpackSign_packComponents, ofBitVec_toBitVec]
      rw [if_pos trivial]
    rw [hunpack]
    split
    · next hzero =>
      subst hzero
      exact ⟨rfl, .infinity s⟩
    · next hzero =>
      have hcanonical := hvalid.eq_packedNaN (by simp) (by simpa using hzero)
      exact ⟨hcanonical.symm, .notANumber⟩
  · by_cases hzero : exponent = 0#11
    · subst hzero
      by_cases hnone : mantissa = 0#52
      · subst hnone
        have hunpack : UnpackedFloat.unpack .binary64 (packComponents .binary64 s 0#11 0#52) =
            .zero s := by
          cases s <;> rfl
        rw [hunpack]
        exact ⟨rfl, .zero s⟩
      · have hpos : 0 < mantissa.toNat := Nat.pos_of_ne_zero fun h =>
          hnone (BitVec.eq_of_toNat_eq h)
        rw [unpack_subnormal hnone hpos, pack_subnormal hpos hmantissa, BitVec.ofNat_toNat,
          BitVec.setWidth_eq]
        exact ⟨rfl, .finite s ⟨hpos, by omega, by omega, by omega, .inr rfl⟩⟩
    · have hle : 0 < exponent.toNat := Nat.pos_of_ne_zero fun h =>
        hzero (BitVec.eq_of_toNat_eq h)
      have hlt : exponent.toNat ≠ 2047 := fun h => hones (BitVec.eq_of_toNat_eq h)
      have hc : Canonical (2 ^ 52 + mantissa.toNat) (exponent.toNat - 1075) :=
        ⟨by positivity, by omega, by omega, by omega, .inl (by omega)⟩
      rw [unpack_normal _ hones hzero, pack_normal hc.pos (by omega) hc.lt hc.le hc.ge]
      refine ⟨?_, .finite s hc⟩
      congr 1
      · rw [sub_add_cancel, Int.toNat_natCast, BitVec.ofNat_toNat, BitVec.setWidth_eq]
      · refine BitVec.eq_of_toNat_eq ?_
        rw [BitVec.toNat_ofNat]
        omega

theorem pack_unpack_and_shape (f : Float.Model) :
    Float.Model.pack f.unpack = f ∧ Shape f.unpack := by
  obtain ⟨bits, hvalid⟩ := f
  have hparts := packComponents_unpack bits.toBitVec
  obtain ⟨hpack, hshape⟩ := packComponents_eq (hparts ▸ hvalid)
  rw [hparts] at hpack hshape
  refine ⟨?_, hshape⟩
  simp only [Float.Model.pack, Float.Model.unpack, hpack]

/-- A number comes back from being unpacked. -/
theorem pack_unpack (f : Float.Model) : Float.Model.pack f.unpack = f :=
  (pack_unpack_and_shape f).1

theorem shape_unpack (f : Float.Model) : Shape f.unpack := (pack_unpack_and_shape f).2

end HostScript.Packing
