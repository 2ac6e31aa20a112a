import HostScript.Number.Exact

/-!
# Shortest decimals

A finite number is written with the fewest digits that read back as the same number, and among
those with the digits nearest to it (`Decimal.shortest`). How the digits are laid out is fixed by
one record (`Layout`). Reading a decimal rounds it correctly (`Decimal.toFloat`).
-/

namespace HostScript

/-- The decimal `digits · 10 ^ exponent`. -/
structure Decimal where
  digits : Nat
  exponent : Int
deriving DecidableEq

namespace Decimal

-- powers of natural numbers mean the same whatever else is imported
attribute [local instance (2000)] instPowNat

/-- The number nearest to a decimal, infinite past the largest one. -/
def toFloat (d : Decimal) : Float :=
  if 0 ≤ d.exponent then Float.ofScientific d.digits false d.exponent.toNat
  else Float.ofScientific d.digits true (-d.exponent).toNat

/-- `m · 2 ^ e / 10 ^ k` as a numerator and a denominator. -/
def scaled (m : Nat) (e k : Int) : Nat × Nat :=
  (m * 2 ^ e.toNat * 10 ^ (-k).toNat, 2 ^ (-e).toNat * 10 ^ k.toNat)

/-- Whether `10 ^ k ≤ m · 2 ^ e`. -/
def reaches (m : Nat) (e k : Int) : Bool :=
  let (num, den) := scaled m e k
  den ≤ num

/-- The exponent of the leading digit of `m · 2 ^ e`. The logarithm of two is near 1233 / 4096, so
the guess is off by at most one. -/
def leadingExponent (m : Nat) (e : Int) : Int :=
  let guess := ((m.log2 : Int) + e) * 1233 / 4096
  if reaches m e (guess + 1) then guess + 1
  else if reaches m e guess then guess
  else guess - 1

/-- The two neighbours of `m · 2 ^ e` among the multiples of `10 ^ k`, the nearer one first; in the
middle the even one comes first. -/
def neighbours (m : Nat) (e k : Int) : List Decimal :=
  let (num, den) := scaled m e k
  let below := num / den
  let rest := num % den
  if 2 * rest < den ∨ (2 * rest = den ∧ below % 2 = 0) then [⟨below, k⟩, ⟨below + 1, k⟩]
  else [⟨below + 1, k⟩, ⟨below, k⟩]

/-- Tries `n`, `n + 1`, … digits and takes the first neighbour that reads back as `x`. -/
def search (x : Float) (m : Nat) (e lead : Int) : (tries n : Nat) → Option Decimal
  | 0, _ => none
  | tries + 1, n =>
    match (neighbours m e (lead + 1 - n)).find? (·.toFloat == x) with
    | some d => some d
    | none => search x m e lead tries (n + 1)

/-- The decimal with the fewest digits that reads back as `m · 2 ^ e`. Seventeen digits tell any
two numbers apart. -/
def shortest (m : Nat) (e : Int) : Decimal :=
  let x := Float.ofModel (.pack (Float.Model.UnpackedFloat.round .binary64 .positive m e))
  (search x m e (leadingExponent m e) 17 1).getD ⟨m * 5 ^ (-e).toNat * 2 ^ e.toNat, min e 0⟩

/-- What a search finds reads back. -/
theorem toFloat_search {x : Float} {m : Nat} {e lead : Int} {tries n : Nat} {d : Decimal}
    (h : search x m e lead tries n = some d) : (d.toFloat == x) = true := by
  induction tries generalizing n with
  | zero => simp [search] at h
  | succ tries ih =>
    simp only [search] at h
    split at h
    · next found =>
      obtain rfl := Option.some.inj h
      simpa using List.find?_some found
    · exact ih h

/-- Moves the zeros at the end of the digits into the exponent. -/
def trim (fuel : Nat) (d : Decimal) : Decimal :=
  match fuel with
  | 0 => d
  | fuel + 1 =>
    if d.digits % 10 = 0 ∧ d.digits ≠ 0 then trim fuel ⟨d.digits / 10, d.exponent + 1⟩ else d

end Decimal

namespace Number

/-- How numbers are laid out: which exponents of the leading digit are written without a power of
ten, and the least count of digits of a power of ten. -/
structure Layout where
  lowest : Int
  highest : Int
  exponentDigits : Nat

/-- Numbers are written in full from 0.0001 to below 10 ^ 16, always with a point. Others have a
power of ten with a sign and at least two digits. -/
def layout : Layout := ⟨-4, 15, 2⟩

/-- The digits of a natural number, with zeros in front up to a least count. -/
def digitsOf (least n : Nat) : Text :=
  let digits := Text.ofNat n
  Text.replicate (least - digits.length) '0' ++ digits

/-- Writes a decimal by a layout. -/
def Layout.write (l : Layout) (decimal : Decimal) : Text :=
  let d := decimal.trim 20
  let digits := Text.ofNat d.digits
  let lead := d.exponent + digits.length - 1
  if l.lowest ≤ lead ∧ lead ≤ l.highest then
    if lead < 0 then "0." ++ Text.replicate (-lead - 1).toNat '0' ++ digits
    else if d.exponent ≥ 0 then digits ++ Text.replicate d.exponent.toNat '0' ++ ".0"
    else digits.take (lead + 1).toNat ++ "." ++ digits.drop (lead + 1).toNat
  else
    let fraction : Text := if digits.length ≤ 1 then [] else .scalar '.' :: digits.drop 1
    let power : Text := .scalar 'e' :: .scalar (if lead < 0 then '-' else '+') :: []
    digits.take 1 ++ fraction ++ power ++ digitsOf l.exponentDigits lead.natAbs

/-- The text of a number: the shortest decimal that reads back, `inf` or `nan`. -/
def text (x : Float) : Text :=
  match x.toModel.unpack with
  | .notANumber => "nan"
  | .infinity .positive => "inf"
  | .infinity .negative => "-inf"
  | .zero .positive => "0.0"
  | .zero .negative => "-0.0"
  | .finite .positive m e _ => layout.write (Decimal.shortest m e)
  | .finite .negative m e _ => "-" ++ layout.write (Decimal.shortest m e)

end Number

end HostScript
