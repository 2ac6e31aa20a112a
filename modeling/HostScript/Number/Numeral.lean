import HostScript.Number.Decimal
import HostScript.Text.Category

/-!
# Reading numerals

`ofDigits` reads the parts of a plain decimal numeral, as scripts and JSON documents have them.
`float?` and `integer` read the free forms of settings and escapes: blanks around, a sign, single
underscores between digits, decimal digits of any script.
-/

namespace HostScript.Number

/-- The value of a digit from `0` to `9`. -/
def digitValue : CodePoint → Nat
  | .scalar c => c.toNat - '0'.toNat
  | .surrogate _ => 0

/-- The number that a row of decimal digits writes. -/
def natOfDigits (digits : Text) : Nat := digits.foldl (fun n c => n * 10 + digitValue c) 0

/-- The number written by digits before and after a point and a power of ten. -/
def ofDigits (whole fraction : Text) (exponent : Int) : Float :=
  Decimal.toFloat ⟨natOfDigits (whole ++ fraction), exponent - fraction.length⟩

/-- Blanks that may surround a numeral once other scripts are mapped to ASCII. -/
def isNumeralBlank (c : CodePoint) : Bool := c.toNat = 0x20 || (9 ≤ c.toNat && c.toNat ≤ 13)

/-- A numeral in ASCII without the blanks around it. -/
def plain (t : Text) : Text :=
  Text.dropEndWhile isNumeralBlank
    ((t.map (CodePoint.asciiNumeral CodePoint.isBlank)).dropWhile isNumeralBlank)

/-- Removes underscores, each of which must stand between two digits. -/
def dropUnderscores? (isDigit : CodePoint → Bool) (previous : Option CodePoint) :
    Text → Option Text
  | [] => some []
  | .scalar '_' :: next :: rest =>
    if previous.any isDigit && isDigit next then
      (dropUnderscores? isDigit (some next) rest).map (next :: ·)
    else none
  | [.scalar '_'] => none
  | c :: rest => (dropUnderscores? isDigit (some c) rest).map (c :: ·)

/-- Splits off a sign; `true` stands for minus. -/
def sign : Text → Bool × Text
  | .scalar '-' :: rest => (true, rest)
  | .scalar '+' :: rest => (false, rest)
  | t => (false, t)

/-- The exponent of a numeral: nothing, or `e` with a sign and at least one digit. -/
def exponent? : Text → Option Int
  | [] => some 0
  | c :: rest =>
    let (negative, digits) := sign rest
    if c.lowerAscii = .scalar 'e' ∧ digits ≠ [] ∧ digits.all CodePoint.isDigit then
      some (if negative then -natOfDigits digits else natOfDigits digits)
    else none

/-- A numeral without a sign: digits with an optional point and an optional exponent. -/
def unsigned? (t : Text) : Option Float :=
  let whole := t.takeWhile CodePoint.isDigit
  let rest := t.drop whole.length
  let (fraction, tail) := match rest with
    | .scalar '.' :: more =>
      let digits := more.takeWhile CodePoint.isDigit
      (digits, more.drop digits.length)
    | rest => ([], rest)
  if whole.isEmpty && fraction.isEmpty then none
  else (exponent? tail).map (ofDigits whole fraction)

/-- The number that a text in the free form writes, infinities and NaN included. -/
def float? (t : Text) : Option Float := do
  let bare ← dropUnderscores? CodePoint.isDigit none (plain t)
  let (negative, body) := sign bare
  let word := body.map CodePoint.lowerAscii
  let x ←
    if word = "inf" ∨ word = "infinity" then some infinity
    else if word = "nan" then some nan
    else unsigned? body
  return if negative then -x else x

/-- Why a text is no integer. -/
inductive IntegerFault
  | malformed
  | tooLong (digits : Nat)
deriving DecidableEq

/-- The most digits that an integer in base ten may have, read or written. -/
def digitLimit : Nat := 4300

/-- The letter that may stand behind a zero in front of the digits of a base. -/
def baseLetter? (base : Nat) : Option Char :=
  [(2, 'b'), (8, 'o'), (16, 'x')].lookup base

/-- The digits behind a zero and the letter of their base. An underscore may follow the letter. -/
def dropBase (base : Nat) (t : Text) : Text :=
  match t with
  | .scalar '0' :: .scalar letter :: rest =>
    if baseLetter? base = some letter.toLower then
      if rest.head? = some (.scalar '_') then rest.drop 1 else rest
    else t
  | t => t

/-- Whether a code point is a digit of a base, which is at most sixteen. -/
def isDigitOf (base : Nat) (c : CodePoint) : Bool := c.hexDigit?.any (· < base)

/-- The natural number that digits write in a base. -/
def natInBase (base : Nat) (digits : Text) : Nat :=
  digits.foldl (fun n c => n * base + c.hexDigit?.getD 0) 0

/-- The integer that a text in the free form writes in a base. -/
def integer (base : Nat) (t : Text) : Except IntegerFault Int :=
  let (negative, body) := sign (plain t)
  let digits := dropBase base body
  let run := digits.takeWhile fun c => c = .scalar '_' || isDigitOf base c
  match dropUnderscores? (isDigitOf base) none run with
  | none => .error .malformed
  | some bare =>
    if bare.isEmpty then .error .malformed
    else if base = 10 ∧ digitLimit < bare.length then .error (.tooLong bare.length)
    else if run.length < digits.length then .error .malformed
    else
      let n : Nat := natInBase base bare
      .ok (if negative then -(n : Int) else n)

/-- The integer that a text in the free form writes in base sixteen. -/
def hexInteger? (t : Text) : Option Int := (integer 16 t).toOption

end HostScript.Number
