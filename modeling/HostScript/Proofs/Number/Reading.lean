import HostScript.Proofs.Number.Digits
import HostScript.Proofs.Text.Runs

/-!
# Reading plain numerals

The free forms of numerals allow blanks around, a sign and underscores. A row of digits, with or
without a point and more digits, needs none of them and is read as it stands (`float?_whole`,
`float?_decimal`), and so is a row of digits in base sixteen (`hexInteger?_digits`).
-/

namespace HostScript.Number

open Text

variable {c : CodePoint} {t digits fraction : Text}

/-- A code point that is kept in a numeral: it is in ASCII and neither a blank nor an underscore. -/
def IsKept (c : CodePoint) : Prop := 0x20 < c.toNat ∧ c.toNat < 0x80 ∧ c ≠ .scalar '_'

theorem toNat_of_isDigit (h : c.isDigit = true) : 0x30 ≤ c.toNat ∧ c.toNat ≤ 0x39 := by
  cases c with
  | surrogate s => contradiction
  | scalar c =>
    simp only [CodePoint.isDigit, Char.isDigit, Bool.and_eq_true, decide_eq_true_eq] at h
    exact h

/-- The digits of base sixteen stand in three rows of ASCII. -/
theorem hexDigit?_cases {d : ℕ} (h : c.hexDigit? = some d) : d < 16 ∧
    (0x30 ≤ c.toNat ∧ c.toNat ≤ 0x39 ∨ 0x61 ≤ c.toNat ∧ c.toNat ≤ 0x66 ∨
      0x41 ≤ c.toNat ∧ c.toNat ≤ 0x46) := by
  cases c with
  | surrogate s => contradiction
  | scalar c =>
    simp only [CodePoint.hexDigit?, Char.reduceToNat] at h
    rw [CodePoint.toNat_scalar]
    split_ifs at h with h₁ h₂ h₃
    · have hrange : 0x30 ≤ c.toNat ∧ c.toNat ≤ 0x39 := h₁
      have hd := Option.some.inj h
      exact ⟨by omega, .inl hrange⟩
    · have hrange : 0x61 ≤ c.toNat ∧ c.toNat ≤ 0x66 := h₂
      have hd := Option.some.inj h
      exact ⟨by omega, .inr (.inl hrange)⟩
    · have hrange : 0x41 ≤ c.toNat ∧ c.toNat ≤ 0x46 := h₃
      have hd := Option.some.inj h
      exact ⟨by omega, .inr (.inr hrange)⟩

/-- Only the code point of a number has it. -/
theorem ne_of_toNat_ne {d : CodePoint} (h : c.toNat ≠ d.toNat) : c ≠ d := fun heq => h (heq ▸ rfl)

theorem isKept_of_isDigit (h : c.isDigit = true) : IsKept c := by
  have hrange := toNat_of_isDigit h
  refine ⟨by omega, by omega, ne_of_toNat_ne ?_⟩
  simp only [CodePoint.toNat_scalar, Char.reduceToNat]
  omega

theorem isKept_of_hexDigit? {d : ℕ} (h : c.hexDigit? = some d) : IsKept c := by
  have hrange := (hexDigit?_cases h).2
  refine ⟨by omega, by omega, ne_of_toNat_ne ?_⟩
  simp only [CodePoint.toNat_scalar, Char.reduceToNat]
  omega

theorem dropWhile_numeralBlank (h : ∀ c ∈ t, IsKept c) : t.dropWhile isNumeralBlank = t := by
  cases t with
  | nil => rfl
  | cons c t =>
    have hc := h c List.mem_cons_self
    have hnot : isNumeralBlank c = false := by
      simp only [isNumeralBlank, Bool.or_eq_false_iff, Bool.and_eq_false_iff,
        decide_eq_false_iff_not]
      exact ⟨by have := hc.1; omega, .inr (by have := hc.1; omega)⟩
    rw [List.dropWhile_cons_of_neg (by simp [hnot])]

theorem plain_of_isKept (h : ∀ c ∈ t, IsKept c) : plain t = t := by
  have hmap : t.map (CodePoint.asciiNumeral CodePoint.isBlank) = t :=
    (List.map_congr_left fun c hc => if_pos (h c hc).2.1).trans (List.map_id t)
  have hreverse : ∀ c ∈ t.reverse, IsKept c := fun c hc => h c (List.mem_reverse.mp hc)
  rw [plain, hmap, dropWhile_numeralBlank h, dropEndWhile, dropWhile_numeralBlank hreverse,
    List.reverse_reverse]

theorem dropUnderscores?_of_isKept (p : CodePoint → Bool) (previous : Option CodePoint)
    (h : ∀ c ∈ t, IsKept c) : dropUnderscores? p previous t = some t := by
  induction t generalizing previous with
  | nil => rfl
  | cons c t ih =>
    obtain ⟨hc, ht⟩ := List.forall_mem_cons.mp h
    rw [dropUnderscores?, ih _ ht]
    · rfl
    · exact fun _ _ heq => absurd heq hc.2.2
    · exact fun heq => absurd heq hc.2.2

/-- Signs stand in front of the digits and the letters of ASCII. -/
theorem sign_of_toNat (h : 0x30 ≤ c.toNat) (t : Text) : sign (c :: t) = (false, c :: t) := by
  unfold sign
  split
  · next heq =>
    obtain ⟨rfl, -⟩ := List.cons.inj heq
    exact absurd h (by decide)
  · next heq =>
    obtain ⟨rfl, -⟩ := List.cons.inj heq
    exact absurd h (by decide)
  · rfl

/-! ## Decimal numerals -/

theorem lowerAscii_of_isDigit (h : c.isDigit = true) : c.lowerAscii = c := by
  cases c with
  | surrogate s => rfl
  | scalar c =>
    have hrange := toNat_of_isDigit h
    have hupper : ¬ (c.val ≥ 'A'.val ∧ c.val ≤ 'Z'.val) := fun hupper => by
      have hle : 0x41 ≤ c.toNat := hupper.1
      have hle' : c.toNat ≤ 0x39 := hrange.2
      omega
    exact congrArg CodePoint.scalar (dif_neg hupper)

/-- A numeral that begins with a digit has no sign and is no word. -/
theorem float?_of_isDigit (hc : c.isDigit = true) (h : ∀ d ∈ c :: t, IsKept d) :
    float? (c :: t) = unsigned? (c :: t) := by
  have hrange := toNat_of_isDigit hc
  have hword {d : CodePoint} {rest word : Text} (hd : 0x39 < d.toNat) : c :: rest ≠ d :: word :=
    fun heq => by
      obtain ⟨rfl, -⟩ := List.cons.inj heq
      omega
  have hinf (rest : Text) : ¬ (c :: rest = "inf" ∨ c :: rest = "infinity") := by
    rintro (heq | heq)
    · exact hword (by decide) heq
    · exact hword (by decide) heq
  have hnan (rest : Text) : c :: rest ≠ "nan" := fun heq => hword (by decide) heq
  rw [float?, plain_of_isKept h, dropUnderscores?_of_isKept _ _ h]
  simp only [Option.bind_eq_bind, Option.bind_some, sign_of_toNat hrange.1, List.map_cons,
    lowerAscii_of_isDigit hc, if_neg (hinf _), if_neg (hnan _)]
  cases unsigned? (c :: t) <;> rfl

theorem unsigned?_whole (hne : digits ≠ []) (hdigits : AreDigits digits) :
    unsigned? digits = some (ofDigits digits [] 0) := by
  have hrun := takeWhile_append_of_stops hdigits (stops_nil CodePoint.isDigit)
  rw [List.append_nil] at hrun
  simp only [unsigned?, hrun, List.drop_length]
  simp [hne, exponent?]

theorem unsigned?_decimal (hne : digits ≠ []) (hdigits : AreDigits digits)
    (hfraction : AreDigits fraction) :
    unsigned? (digits ++ .scalar '.' :: fraction) = some (ofDigits digits fraction 0) := by
  have hrun : (digits ++ .scalar '.' :: fraction).takeWhile CodePoint.isDigit = digits :=
    takeWhile_append_of_stops hdigits (stops_cons.mpr rfl)
  have hrest := takeWhile_append_of_stops hfraction (stops_nil CodePoint.isDigit)
  rw [List.append_nil] at hrest
  simp only [unsigned?, hrun, List.drop_left, hrest, List.drop_length]
  simp [hne, exponent?]

/-- A row of digits is read as the number that it writes. -/
theorem float?_whole (hne : digits ≠ []) (hdigits : AreDigits digits) :
    float? digits = some (ofDigits digits [] 0) := by
  rw [← unsigned?_whole hne hdigits]
  obtain ⟨c, rest, rfl⟩ := List.exists_cons_of_ne_nil hne
  exact float?_of_isDigit (hdigits c List.mem_cons_self) fun d hd => isKept_of_isDigit (hdigits d hd)

/-- Digits with a point between them are read as the number that they write. -/
theorem float?_decimal (hne : digits ≠ []) (hdigits : AreDigits digits)
    (hfraction : AreDigits fraction) :
    float? (digits ++ .scalar '.' :: fraction) = some (ofDigits digits fraction 0) := by
  rw [← unsigned?_decimal hne hdigits hfraction]
  obtain ⟨c, rest, rfl⟩ := List.exists_cons_of_ne_nil hne
  have hpoint : IsKept (.scalar '.') := ⟨by decide, by decide, by decide⟩
  refine float?_of_isDigit (hdigits c List.mem_cons_self) fun d hd => ?_
  rcases List.mem_append.mp (List.cons_append ▸ hd) with hd | hd
  · exact isKept_of_isDigit (hdigits d hd)
  · rcases List.mem_cons.mp hd with rfl | hd
    · exact hpoint
    · exact isKept_of_isDigit (hfraction d hd)

/-! ## Base sixteen -/

/-- A row of digits in base sixteen. -/
def AreHexDigits (t : Text) : Prop := ∀ c ∈ t, c.hexDigit?.isSome = true

theorem AreHexDigits.exists_digit (h : AreHexDigits t) (hc : c ∈ t) :
    ∃ d, c.hexDigit? = some d :=
  Option.isSome_iff_exists.mp (h c hc)

/-- No digit of base sixteen stands behind a zero as the letter of the base does. -/
theorem dropBase_sixteen (h : AreHexDigits t) : dropBase 16 t = t := by
  unfold dropBase
  split
  · next letter rest =>
    obtain ⟨d, hd⟩ := h.exists_digit (c := .scalar letter) (by simp)
    have hletter := (hexDigit?_cases hd).2
    rw [CodePoint.toNat_scalar] at hletter
    have hx : letter.toLower ≠ 'x' := by
      by_cases hupper : letter.val ≥ 'A'.val ∧ letter.val ≤ 'Z'.val
      · intro heq
        replace heq := (dif_pos hupper).symm.trans heq
        have hval : (letter.val + 32).toNat = 120 := congrArg Char.toNat heq
        have hsmall : letter.val.toNat = letter.toNat := rfl
        rw [UInt32.toNat_add, hsmall] at hval
        simp only [UInt32.reduceToNat] at hval
        omega
      · intro heq
        obtain rfl := (dif_neg hupper).symm.trans heq
        revert hletter
        decide
    exact if_neg fun heq => hx (Option.some.inj heq).symm
  · rfl

/-- A row of digits in base sixteen is read as the number that it writes. -/
theorem hexInteger?_digits (hne : t ≠ []) (h : AreHexDigits t) :
    hexInteger? t = some (natInBase 16 t) := by
  have hkept : ∀ c ∈ t, IsKept c := fun c hc =>
    (h.exists_digit hc).elim fun _ hd => isKept_of_hexDigit? hd
  have hsign : sign t = (false, t) := by
    obtain ⟨c, rest, rfl⟩ := List.exists_cons_of_ne_nil hne
    obtain ⟨d, hd⟩ := h.exists_digit List.mem_cons_self
    have hrange := (hexDigit?_cases hd).2
    exact sign_of_toNat (by omega) rest
  have hdigit : ∀ c ∈ t, (decide (c = .scalar '_') || isDigitOf 16 c) = true := fun c hc => by
    obtain ⟨d, hd⟩ := h.exists_digit hc
    simp [isDigitOf, hd, (hexDigit?_cases hd).1]
  have hrun := takeWhile_append_of_stops hdigit (stops_nil _)
  rw [List.append_nil] at hrun
  simp only [hexInteger?, integer, plain_of_isKept hkept, hsign, dropBase_sixteen h, hrun,
    dropUnderscores?_of_isKept _ _ hkept]
  simp [hne, Except.toOption]

end HostScript.Number
