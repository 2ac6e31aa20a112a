import HostScript.Json.Read
import HostScript.Proofs.Number.Digits
import HostScript.Proofs.Number.Shortest
import HostScript.Proofs.Text.Runs

/-!
# Numbers in documents

The text of a finite number is read back as the number (`readNumber_text`). Every layout spells the
decimal that it is given (`spells_write`), whatever follows, as long as that does not continue a
numeral.
-/

namespace HostScript.Json

open Number
open Text (AreDigits)

/-! ## Parts of a numeral -/

/-- Whether a numeral can go on with a code point. -/
def continuesNumeral (c : CodePoint) : Bool :=
  c.isDigit || c = .scalar '.' || c.lowerAscii = .scalar 'e'

/-- The text of a sign. -/
def signText : Bool → Text
  | true => [.scalar '-']
  | false => []

/-- Digits without a zero in front of others. -/
def IsWhole (t : Text) : Prop :=
  AreDigits t ∧ (t = [.scalar '0'] ∨ ∃ c rest, t = c :: rest ∧ c ≠ .scalar '0')

variable {t rest digits whole : Text} {negative : Bool}

theorem IsWhole.ne_nil (h : IsWhole t) : t ≠ [] := by
  obtain ⟨-, rfl | ⟨c, rest, rfl, -⟩⟩ := h <;> exact List.cons_ne_nil _ _

theorem isWhole_zero : IsWhole [.scalar '0'] := ⟨by simp [AreDigits, CodePoint.isDigit], .inl rfl⟩

theorem isWhole_of_isPrefix {n : ℕ} (hn : 0 < n) (ht : t ≠ []) (h : t <+: Text.ofNat n) :
    IsWhole t := by
  obtain ⟨c, rest, hcons, -, hc⟩ := exists_ofNat_eq_cons hn
  obtain ⟨d, more, rfl⟩ := List.exists_cons_of_ne_nil ht
  refine ⟨fun a ha => Text.areDigits_ofNat n a (h.subset ha), .inr ⟨d, more, rfl, ?_⟩⟩
  rw [hcons, List.cons_prefix_cons] at h
  exact h.1 ▸ hc

theorem fraction_append (hd : AreDigits digits) (hne : digits ≠ [])
    (hstop : rest.Stops CodePoint.isDigit) :
    fraction (.scalar '.' :: (digits ++ rest)) = (digits, rest) := by
  simp [fraction, Text.takeWhile_append_of_stops hd hstop, hne]

theorem fraction_of_stops (h : t.Stops (· = .scalar '.')) : fraction t = ([], t) := by
  unfold fraction
  split
  · simp at h
  · rfl

theorem power_append (hd : AreDigits digits) (hne : digits ≠ [])
    (hstop : rest.Stops CodePoint.isDigit) (negative : Bool) :
    power (.scalar 'e' :: .scalar (if negative then '-' else '+') :: (digits ++ rest)) =
      (some (if negative then -(natOfDigits digits : ℤ) else natOfDigits digits), rest) := by
  have htake := Text.takeWhile_append_of_stops hd hstop
  cases negative <;>
    simp [power, CodePoint.lowerAscii, Number.sign, htake, hne]

theorem power_of_stops (h : t.Stops (CodePoint.lowerAscii · = .scalar 'e')) :
    power t = (none, t) := by
  unfold power
  split
  · next c rest =>
    rw [if_neg (by simpa using h)]
  · rfl

/-- Splits off a minus. -/
def takeMinus : Text → Bool × Text
  | .scalar '-' :: rest => (true, rest)
  | t => (false, t)

/-- The digits at the head of a numeral: a zero, or all that follow each other. -/
def wholeOf : Text → Text
  | .scalar '0' :: _ => [.scalar '0']
  | t => t.takeWhile CodePoint.isDigit

theorem numeral?_eq (t : Text) : numeral? t =
    let body := (takeMinus t).2
    let whole := wholeOf body
    let behind := fraction (body.drop whole.length)
    if whole.isEmpty then none
    else some (⟨(takeMinus t).1, whole, behind.1, (power behind.2).1⟩, (power behind.2).2) := rfl

theorem takeMinus_append (hw : IsWhole whole) (negative : Bool) :
    takeMinus (signText negative ++ (whole ++ rest)) = (negative, whole ++ rest) := by
  obtain ⟨c, more, rfl⟩ := List.exists_cons_of_ne_nil hw.ne_nil
  have hc := hw.1 c List.mem_cons_self
  cases negative with
  | true => rfl
  | false =>
    simp only [signText, List.nil_append, List.cons_append]
    unfold takeMinus
    split
    · next heq =>
      -- a minus is not a digit
      rw [List.cons.injEq] at heq
      rw [heq.1] at hc
      exact nomatch hc
    · rfl

theorem wholeOf_append (hw : IsWhole whole) (hstop : rest.Stops CodePoint.isDigit) :
    wholeOf (whole ++ rest) = whole := by
  obtain ⟨hd, rfl | ⟨c, more, rfl, hc⟩⟩ := hw
  · rfl
  · unfold wholeOf
    split
    · next heq =>
      rw [List.cons_append, List.cons.injEq] at heq
      exact absurd heq.1 hc
    · exact Text.takeWhile_append_of_stops hd hstop

/-- A numeral is its digits in front of the point and whatever follows them. -/
theorem numeral?_append (hw : IsWhole whole) (hstop : rest.Stops CodePoint.isDigit)
    (negative : Bool) :
    numeral? (signText negative ++ (whole ++ rest)) =
      some (⟨negative, whole, (fraction rest).1, (power (fraction rest).2).1⟩,
        (power (fraction rest).2).2) := by
  simp only [numeral?_eq, takeMinus_append hw, wholeOf_append hw hstop, List.drop_left]
  rw [if_neg (by simpa using hw.ne_nil)]

/-! ## Spelling a number -/

/-- A text is read as a numeral of this value, with either sign, and not as one of an integer. -/
def Spells (t : Text) (q : ℚ) : Prop :=
  ∃ whole fraction power, (fraction ≠ [] ∨ power ≠ none) ∧
    (Decimal.mk (natOfDigits (whole ++ fraction)) (power.getD 0 - fraction.length)).value = q ∧
    ∀ negative rest, rest.Stops continuesNumeral →
      numeral? (signText negative ++ (t ++ rest)) = some (⟨negative, whole, fraction, power⟩, rest)

theorem stops_isDigit (h : t.Stops continuesNumeral) : t.Stops CodePoint.isDigit :=
  h.of_imp fun c hc => by simp [continuesNumeral, hc]

theorem stops_power (h : t.Stops continuesNumeral) :
    t.Stops (CodePoint.lowerAscii · = .scalar 'e') :=
  h.of_imp fun c hc => by simp [continuesNumeral, of_decide_eq_true hc]

theorem spells_fraction (hw : IsWhole whole) (hd : AreDigits digits) (hne : digits ≠ []) :
    Spells (whole ++ .scalar '.' :: digits)
      (Decimal.value ⟨natOfDigits (whole ++ digits), -digits.length⟩) := by
  refine ⟨whole, digits, none, .inl hne, by simp, fun negative rest hstop => ?_⟩
  rw [List.append_assoc, List.cons_append,
    numeral?_append hw (Text.stops_cons.mpr rfl),
    fraction_append hd hne (stops_isDigit hstop), power_of_stops (stops_power hstop)]

theorem spells_power (hw : IsWhole whole) (hd : AreDigits digits) {k : Text} (hk : AreDigits k)
    (hne : k ≠ []) (negative : Bool) :
    Spells (whole ++ ((if digits = [] then [] else .scalar '.' :: digits) ++
        .scalar 'e' :: .scalar (if negative then '-' else '+') :: k))
      (Decimal.value ⟨natOfDigits (whole ++ digits),
        (if negative then -(natOfDigits k : ℤ) else natOfDigits k) - digits.length⟩) := by
  refine ⟨whole, digits, some (if negative then -(natOfDigits k : ℤ) else natOfDigits k),
    .inr (Option.some_ne_none _), by simp, fun sign rest hstop => ?_⟩
  have hpower := power_append hk hne (stops_isDigit hstop) negative
  have hstop' : Text.Stops CodePoint.isDigit
      (.scalar 'e' :: .scalar (if negative then '-' else '+') :: (k ++ rest)) :=
    Text.stops_cons.mpr rfl
  by_cases hnone : digits = []
  · subst hnone
    simp only [if_true, List.nil_append, List.append_assoc, List.cons_append]
    rw [numeral?_append hw hstop', fraction_of_stops (Text.stops_cons.mpr rfl), hpower]
  · simp only [if_neg hnone, List.append_assoc, List.cons_append]
    rw [numeral?_append hw (Text.stops_cons.mpr rfl), fraction_append hd hnone hstop', hpower]

/-! ## Layouts -/

theorem areDigits_digitsOf (least n : ℕ) : AreDigits (digitsOf least n) :=
  Text.areDigits_append.mpr ⟨Text.areDigits_replicate _, Text.areDigits_ofNat n⟩

theorem natOfDigits_digitsOf (least n : ℕ) : natOfDigits (digitsOf least n) = n := by
  rw [digitsOf, natOfDigits_append, natOfDigits_replicate_zero, natOfDigits_ofNat, zero_mul,
    zero_add]

theorem digitsOf_ne_nil (least n : ℕ) : digitsOf least n ≠ [] :=
  List.append_ne_nil_of_right_ne_nil _ (Text.ofNat_ne_nil n)

theorem length_ofNat_pos (n : ℕ) : 0 < (Text.ofNat n).length :=
  List.length_pos_of_ne_nil (Text.ofNat_ne_nil n)

theorem isWhole_take {n k : ℕ} (hn : 0 < n) (hk : 0 < k) : IsWhole ((Text.ofNat n).take k) := by
  have hlength := length_ofNat_pos n
  refine isWhole_of_isPrefix hn (List.ne_nil_of_length_pos ?_) (List.take_prefix k _)
  rw [List.length_take]
  omega

/-- Zeros may stand between the point and the digits. -/
theorem spells_below (n k : ℕ) :
    Spells ("0." ++ Text.replicate k '0' ++ Text.ofNat n)
      (Decimal.value ⟨n, -(k + (Text.ofNat n).length : ℕ)⟩) := by
  have hspells := spells_fraction isWhole_zero
    (Text.areDigits_append.mpr ⟨Text.areDigits_replicate k, Text.areDigits_ofNat n⟩)
    (List.append_ne_nil_of_right_ne_nil _ (Text.ofNat_ne_nil n))
  rw [natOfDigits_append, natOfDigits_append, natOfDigits_replicate_zero, natOfDigits_ofNat,
    show natOfDigits [.scalar '0'] = 0 from rfl, zero_mul, zero_mul, zero_add, zero_add,
    List.length_append, Text.replicate, List.length_replicate] at hspells
  rw [List.append_assoc]
  exact hspells

/-- Zeros may stand between the digits and the point. -/
theorem spells_whole {n : ℕ} (hn : 0 < n) (k : ℕ) :
    Spells (Text.ofNat n ++ Text.replicate k '0' ++ ".0") (Decimal.value ⟨n, k⟩) := by
  obtain ⟨c, rest, hcons, -, hc⟩ := exists_ofNat_eq_cons hn
  have hwhole : IsWhole (Text.ofNat n ++ Text.replicate k '0') :=
    ⟨Text.areDigits_append.mpr ⟨Text.areDigits_ofNat n, Text.areDigits_replicate k⟩,
      .inr ⟨c, rest ++ Text.replicate k '0', by rw [hcons]; rfl, hc⟩⟩
  have hspells := spells_fraction hwhole isWhole_zero.1 isWhole_zero.ne_nil
  have hvalue : Decimal.value
      ⟨natOfDigits (Text.ofNat n ++ Text.replicate k '0' ++ [.scalar '0']), -(1 : ℕ)⟩ =
        Decimal.value ⟨n, k⟩ := by
    rw [natOfDigits_append, natOfDigits_append, natOfDigits_replicate_zero, natOfDigits_ofNat,
      show natOfDigits [.scalar '0'] = 0 from rfl, Text.replicate, List.length_replicate]
    simp [Decimal.value]
  exact hvalue ▸ hspells

/-- The point may stand between the digits. -/
theorem spells_between {n k : ℕ} (hn : 0 < n) (hk : 0 < k) (hlt : k < (Text.ofNat n).length) :
    Spells ((Text.ofNat n).take k ++ "." ++ (Text.ofNat n).drop k)
      (Decimal.value ⟨n, -((Text.ofNat n).length - k : ℕ)⟩) := by
  have hspells := spells_fraction (isWhole_take hn hk) ((Text.areDigits_ofNat n).drop k)
    (List.ne_nil_of_length_pos (by rw [List.length_drop]; omega))
  rw [List.take_append_drop, natOfDigits_ofNat, List.length_drop] at hspells
  rw [List.append_assoc]
  exact hspells

/-- The digits may have a power of ten behind them. -/
theorem spells_scientific {n : ℕ} (hn : 0 < n) (least : ℕ) (lead : ℤ) :
    Spells ((Text.ofNat n).take 1 ++
        (if (Text.ofNat n).length ≤ 1 then [] else .scalar '.' :: (Text.ofNat n).drop 1) ++
        (.scalar 'e' :: .scalar (if lead < 0 then '-' else '+') :: []) ++
        digitsOf least lead.natAbs)
      (Decimal.value ⟨n, lead - ((Text.ofNat n).length - 1 : ℕ)⟩) := by
  have hspells := spells_power (isWhole_take hn one_pos) ((Text.areDigits_ofNat n).drop 1)
    (areDigits_digitsOf least lead.natAbs) (digitsOf_ne_nil least lead.natAbs) (decide (lead < 0))
  have hlead : (if decide (lead < 0) = true then -(natOfDigits (digitsOf least lead.natAbs) : ℤ)
      else natOfDigits (digitsOf least lead.natAbs)) = lead := by
    rw [natOfDigits_digitsOf]
    split_ifs with h <;> simp only [decide_eq_true_eq] at h <;> omega
  rw [List.take_append_drop, natOfDigits_ofNat, List.length_drop, hlead] at hspells
  simp only [List.drop_eq_nil_iff, decide_eq_true_eq] at hspells
  simpa only [List.append_assoc, List.cons_append, List.nil_append] using hspells

/-- Every layout spells the decimal that it is given. -/
theorem spells_write (l : Layout) {d : Decimal} (hd : 0 < d.digits) :
    Spells (l.write d) d.value := by
  rw [← d.value_trim 20]
  have hn := d.digits_trim_pos 20 hd
  unfold Layout.write
  generalize d.trim 20 = d' at hn
  obtain ⟨n, e⟩ := d'
  dsimp only at hn ⊢
  have hlength := length_ofNat_pos n
  split
  · split
    · obtain ⟨k, hk⟩ : ∃ k : ℕ, e = -(k + (Text.ofNat n).length : ℕ) :=
        ⟨(-(e + (Text.ofNat n).length - 1) - 1).toNat, by omega⟩
      rw [show (-(e + (Text.ofNat n).length - 1) - 1).toNat = k by omega, hk]
      exact spells_below n k
    · split
      · obtain ⟨k, rfl⟩ : ∃ k : ℕ, e = k := ⟨e.toNat, by omega⟩
        exact spells_whole hn k
      · obtain ⟨k, hk⟩ : ∃ k : ℕ, e + (Text.ofNat n).length = k :=
          ⟨(e + (Text.ofNat n).length).toNat, by omega⟩
        have hspells := spells_between (k := k) hn (by omega) (by omega)
        rw [show -((Text.ofNat n).length - k : ℕ) = e by omega] at hspells
        rw [show (e + (Text.ofNat n).length - 1 + 1).toNat = k by omega]
        exact hspells
  · have hspells := spells_scientific hn l.exponentDigits (e + (Text.ofNat n).length - 1)
    rw [show e + (Text.ofNat n).length - 1 - ((Text.ofNat n).length - 1 : ℕ) = e by omega]
      at hspells
    exact hspells

/-! ## Reading a number back -/

theorem isWhole_ofNat (n : ℕ) : IsWhole (Text.ofNat n) := by
  by_cases hn : n = 0
  · subst hn
    exact isWhole_zero
  · exact isWhole_of_isPrefix (Nat.pos_of_ne_zero hn) (Text.ofNat_ne_nil n) (List.prefix_refl _)

/-- The text of an integer is read back as the integer, up to a number of digits. -/
theorem readNumber_ofInt {n : ℤ} (hn : (Text.ofNat n.natAbs).length ≤ digitLimit)
    (hrest : rest.Stops continuesNumeral) :
    readNumber .wire (Text.ofInt n ++ rest) = .ok (.integer n, rest) := by
  have hsigned : Text.ofInt n ++ rest =
      signText (decide (n < 0)) ++ (Text.ofNat n.natAbs ++ rest) := by
    unfold Text.ofInt
    by_cases hneg : n < 0 <;> simp [hneg, signText]
  have hnumeral := numeral?_append (isWhole_ofNat n.natAbs) (stops_isDigit hrest) (decide (n < 0))
  have hpoint : rest.Stops (· = .scalar '.') :=
    hrest.of_imp fun c hc => by simp [continuesNumeral, of_decide_eq_true hc]
  rw [fraction_of_stops hpoint, power_of_stops (stops_power hrest)] at hnumeral
  have hvalue : (if decide (n < 0) = true then -(n.natAbs : ℤ) else n.natAbs) = n := by
    by_cases hneg : n < 0
    · rw [if_pos (by simpa using hneg)]
      omega
    · rw [if_neg (by simpa using hneg)]
      omega
  simp only [hsigned, readNumber, hnumeral, Numeral.document, Dialect.wire, List.isEmpty_nil,
    Option.isNone_none, and_self, if_true, if_neg (Nat.not_lt.mpr hn), natOfDigits_ofNat, hvalue]
  rfl

theorem readNumber_of_spells {d : Decimal} (ht : Spells t d.value) (dialect : Dialect)
    (negative : Bool) (hrest : rest.Stops continuesNumeral) :
    readNumber dialect (signText negative ++ (t ++ rest)) =
      .ok (.number (if negative then -d.toFloat else d.toFloat), rest) := by
  obtain ⟨whole, fraction, power, hparts, hvalue, hnumeral⟩ := ht
  have hfloat : ofDigits whole fraction (power.getD 0) = d.toFloat := Decimal.toFloat_congr hvalue
  have hnot : ¬ (dialect.integers = true ∧ fraction.isEmpty = true ∧ power.isNone = true) := by
    rintro ⟨-, hfraction, hpower⟩
    rcases hparts with h | h
    · exact h (List.isEmpty_iff.mp hfraction)
    · exact h (Option.isNone_iff_eq_none.mp hpower)
  simp only [readNumber, hnumeral negative rest hrest, Numeral.document, if_neg hnot, hfloat]
  rfl

theorem writeNumber_of_isFinite {x : Float} (hx : x.isFinite = true) :
    writeNumber x = Number.text x := by
  have hnan : x.isNaN = false := by
    change x.toModel.unpack.isNaN = false
    change x.toModel.unpack.isFinite = true at hx
    generalize x.toModel.unpack = u at hx
    cases u with
    | notANumber => exact nomatch hx
    | _ => rfl
  have hinf : x.isInf = false := by
    change x.toModel.unpack.isInf = false
    change x.toModel.unpack.isFinite = true at hx
    generalize x.toModel.unpack = u at hx
    cases u with
    | infinity => exact nomatch hx
    | _ => rfl
  simp only [writeNumber, hnan, hinf, Bool.false_eq_true, if_false]

/-- The text of a finite number is read back as the number. -/
theorem readNumber_text {x : Float} (hx : x.isFinite = true) (dialect : Dialect)
    (hrest : rest.Stops continuesNumeral) :
    readNumber dialect (Number.text x ++ rest) = .ok (.number x, rest) := by
  obtain ⟨model⟩ := x
  have hfinite : model.unpack.isFinite = true := hx
  have hshape := Packing.shape_unpack model
  have hmodel := Packing.pack_unpack model
  simp only [Number.text]
  generalize model.unpack = u at hfinite hshape hmodel
  subst hmodel
  cases hshape with
  | infinity s => exact nomatch hfinite
  | notANumber => exact nomatch hfinite
  | zero s =>
    have hspells := spells_fraction isWhole_zero isWhole_zero.1 isWhole_zero.ne_nil
    have hread (negative : Bool) := readNumber_of_spells hspells dialect negative hrest
    have hfloat := Decimal.toFloat_zero (-List.length [CodePoint.scalar '0'])
    rw [show natOfDigits ([.scalar '0'] ++ [.scalar '0']) = 0 from rfl, hfloat] at hread
    cases s with
    | positive => exact hread false
    | negative =>
      rw [← Packing.neg_zero]
      exact hread true
  | @finite s m e hc =>
    obtain ⟨hpos, hfloat⟩ := Decimal.toFloat_shortest hc
    have hread (negative : Bool) :=
      readNumber_of_spells (spells_write layout hpos) dialect negative hrest
    rw [hfloat] at hread
    cases s with
    | positive => exact hread false
    | negative =>
      rw [← Packing.neg_finite hc]
      exact hread true

end HostScript.Json
