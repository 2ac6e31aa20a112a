import HostScript.Text.CodePoint

/-!
# Exact values of numbers

A finite number is a sign, a mantissa and a power of two. What needs the exact value (integral
parts, the remainder of a division, the test for integers) is computed on that form in `Nat` and
`Int`, so no rounding enters.
-/

namespace HostScript.Number

open Float.Model.UnpackedFloat (Sign)
open Float.Model (UnpackedFloat)

-- powers of natural numbers mean the same whatever else is imported
attribute [local instance (2000)] instPowNat

/-- The number that is no number. -/
def nan : Float := 0.0 / 0.0

/-- The positive infinity. -/
def infinity : Float := 1.0 / 0.0

/-- A magnitude with a sign. -/
def signed : Sign → Nat → Int
  | .positive, n => n
  | .negative, n => -n

/-- The integral part of `m · 2 ^ e`. -/
def wholePart (m : Nat) (e : Int) : Nat :=
  if 0 ≤ e then m * 2 ^ e.toNat else m / 2 ^ (-e).toNat

/-- Whether `m · 2 ^ e` is an integer. -/
def isWhole (m : Nat) (e : Int) : Bool := 0 ≤ e || m % 2 ^ (-e).toNat == 0

/-- The number rounded toward zero, if it is finite. -/
def truncate? (x : Float) : Option Int :=
  match x.toModel.unpack with
  | .notANumber => none
  | .infinity _ => none
  | .zero _ => some 0
  | .finite sign m e _ => some (signed sign (wholePart m e))

/-- Whether a number is a finite integer. -/
def isInteger (x : Float) : Bool :=
  match x.toModel.unpack with
  | .notANumber => false
  | .infinity _ => false
  | .zero _ => true
  | .finite _ m e _ => isWhole m e

/-- The largest integer that is not above the number, if the number is finite. -/
def floor? (x : Float) : Option Int :=
  match x.toModel.unpack with
  | .notANumber => none
  | .infinity _ => none
  | .zero _ => some 0
  | .finite .positive m e _ => some (wholePart m e)
  | .finite .negative m e _ =>
    some (if isWhole m e then -wholePart m e else -wholePart m e - 1)

/-- The number nearest to an integer, unless the integer is out of range. -/
def ofInt? (n : Int) : Option Float :=
  let x := Float.ofInt n
  if x.isFinite then some x else none

/-- What is left of `x` after taking away `y` as often as it goes, with the sign of `x`. -/
def remainder (x y : Float) : Float :=
  match x.toModel.unpack, y.toModel.unpack with
  | .notANumber, _ => nan
  | _, .notANumber => nan
  | .infinity _, _ => nan
  | _, .zero _ => nan
  | _, .infinity _ => x
  | .zero _, _ => x
  | .finite sign m e _, .finite _ n f _ =>
    let unit := min e f
    let rest := (m * 2 ^ (e - unit).toNat) % (n * 2 ^ (f - unit).toNat)
    let result : UnpackedFloat :=
      if rest = 0 then .zero sign else UnpackedFloat.round .binary64 sign rest unit
    .ofModel (.pack result)

end HostScript.Number
