import HostScript.Number.Numeral
import Mathlib.Tactic.Ring

/-!
# Rows of digits

The digits of a natural number write it (`natOfDigits_ofNat`), and they begin with a zero for zero
only (`ofNat_eq_cons`). Zeros in front of a row do not count, and zeros behind it are powers of ten
(`natOfDigits_append`).
-/

namespace HostScript

open Number

/-- A row of digits. -/
def Text.AreDigits (t : Text) : Prop := ∀ c ∈ t, c.isDigit = true

namespace Text

variable {s t : Text} {n : ℕ}

theorem areDigits_append : AreDigits (s ++ t) ↔ AreDigits s ∧ AreDigits t :=
  List.forall_mem_append

theorem AreDigits.drop (h : AreDigits t) (n : ℕ) : AreDigits (t.drop n) :=
  fun c hc => h c (List.mem_of_mem_drop hc)

theorem areDigits_replicate (n : ℕ) : AreDigits (replicate n '0') := fun c hc => by
  rw [List.eq_of_mem_replicate hc]
  rfl

theorem ofNat_eq_map (n : ℕ) : ofNat n = (Nat.toDigits 10 n).map .scalar := by
  rw [ofNat, ofString]
  exact congrArg (List.map CodePoint.scalar) Nat.toList_repr

theorem areDigits_ofNat (n : ℕ) : AreDigits (ofNat n) := fun c hc => by
  rw [ofNat_eq_map] at hc
  obtain ⟨d, hd, rfl⟩ := List.mem_map.mp hc
  exact Nat.isDigit_of_mem_toDigits (by norm_num) le_rfl hd

theorem ofNat_ne_nil (n : ℕ) : ofNat n ≠ [] := by
  rw [ofNat_eq_map]
  simp

theorem length_ofNat_le_iff {k : ℕ} (hk : 0 < k) : (ofNat n).length ≤ k ↔ n < 10 ^ k := by
  rw [ofNat_eq_map, List.length_map]
  exact Nat.length_toDigits_le_iff (by norm_num) hk

end Text

namespace Number

open Text

theorem foldl_digits (t : Text) (n : ℕ) :
    t.foldl (fun n c => n * 10 + digitValue c) n = n * 10 ^ t.length + natOfDigits t := by
  induction t generalizing n with
  | nil => simp [natOfDigits]
  | cons c t ih =>
    rw [natOfDigits, List.foldl_cons, List.foldl_cons, ih, ih (0 * 10 + digitValue c)]
    simp only [List.length_cons, pow_succ]
    ring

theorem natOfDigits_append (s t : Text) :
    natOfDigits (s ++ t) = natOfDigits s * 10 ^ t.length + natOfDigits t := by
  rw [natOfDigits, List.foldl_append, foldl_digits]
  rfl

theorem natOfDigits_cons (c : CodePoint) (t : Text) :
    natOfDigits (c :: t) = digitValue c * 10 ^ t.length + natOfDigits t := by
  rw [natOfDigits, List.foldl_cons, foldl_digits, zero_mul, zero_add]

@[simp] theorem natOfDigits_replicate_zero (n : ℕ) : natOfDigits (replicate n '0') = 0 := by
  induction n with
  | zero => rfl
  | succ n ih =>
    rw [replicate] at ih ⊢
    rw [List.replicate_succ, natOfDigits_cons, ih, add_zero]
    exact zero_mul _

/-- The digits of a number write it. -/
@[simp] theorem natOfDigits_ofNat (n : ℕ) : natOfDigits (ofNat n) = n := by
  rw [ofNat_eq_map, natOfDigits, List.foldl_map]
  simpa [Nat.ofDigitChars, digitValue, mul_comm] using Nat.ofDigitChars_ten_toDigits

theorem digitValue_lt {c : CodePoint} (h : c.isDigit = true) : digitValue c < 10 := by
  cases c with
  | surrogate => simp [CodePoint.isDigit] at h
  | scalar c =>
    simp only [CodePoint.isDigit, Char.isDigit, Bool.and_eq_true, decide_eq_true_eq] at h
    have hle : c.toNat ≤ 57 := h.2
    simp only [digitValue, Char.reduceToNat]
    omega

/-- A row of digits writes a number below the power of ten of its length. -/
theorem natOfDigits_lt {t : Text} (h : AreDigits t) : natOfDigits t < 10 ^ t.length := by
  induction t with
  | nil => simp [natOfDigits]
  | cons c t ih =>
    have hc := digitValue_lt (h c List.mem_cons_self)
    have ht := ih fun d hd => h d (List.mem_cons_of_mem _ hd)
    rw [natOfDigits_cons, List.length_cons, pow_succ]
    calc digitValue c * 10 ^ t.length + natOfDigits t
        < digitValue c * 10 ^ t.length + 10 ^ t.length := Nat.add_lt_add_left ht _
      _ = (digitValue c + 1) * 10 ^ t.length := by ring
      _ ≤ 10 * 10 ^ t.length := Nat.mul_le_mul_right _ (by omega)
      _ = 10 ^ t.length * 10 := mul_comm _ _

/-- The digits of a positive number do not begin with a zero. -/
theorem exists_ofNat_eq_cons {n : ℕ} (hn : 0 < n) :
    ∃ c rest, ofNat n = c :: rest ∧ c.isDigit = true ∧ c ≠ .scalar '0' := by
  obtain ⟨c, rest, hcons⟩ := List.exists_cons_of_ne_nil (ofNat_ne_nil n)
  have hdigits := areDigits_ofNat n
  rw [hcons] at hdigits
  refine ⟨c, rest, hcons, hdigits c List.mem_cons_self, ?_⟩
  rintro rfl
  have hlt := natOfDigits_lt (t := rest) fun d hd => hdigits d (List.mem_cons_of_mem _ hd)
  have hvalue := natOfDigits_ofNat n
  rw [hcons, natOfDigits_cons, show digitValue (.scalar '0') = 0 from rfl, zero_mul, zero_add]
    at hvalue
  rw [hvalue] at hlt
  -- a zero in front would leave room for fewer digits
  cases rest with
  | nil => simp at hlt; omega
  | cons d rest =>
    have hlength := (length_ofNat_le_iff (by simp)).mpr hlt
    rw [hcons] at hlength
    simp at hlength

end Number

end HostScript
