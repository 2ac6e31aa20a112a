import HostScript.Text.CodePoint

/-!
# Blanks and decimal digits

White space in the sense of the Unicode bidirectional classes WS, B and S and the separators Zs, and
the decimal digits of all scripts, which stand in runs of ten, each beginning with a zero.
-/

namespace HostScript

/-- The blank code points. -/
def blankRanges : Ranges :=
  [(0x9, 0xD), (0x1C, 0x20), (0x85, 0x85), (0xA0, 0xA0), (0x1680, 0x1680), (0x2000, 0x200A),
   (0x2028, 0x2029), (0x202F, 0x202F), (0x205F, 0x205F), (0x3000, 0x3000)]

/-- Whether a code point is blank. -/
def CodePoint.isBlank (c : CodePoint) : Bool := blankRanges.has c.toNat

/-- The text without blanks at its ends. -/
def Text.trim (t : Text) : Text :=
  Text.dropEndWhile CodePoint.isBlank (t.dropWhile CodePoint.isBlank)

/-- The zeros of the runs of decimal digits. -/
def digitZeros : List Nat :=
  [0x30, 0x660, 0x6F0, 0x7C0, 0x966, 0x9E6, 0xA66, 0xAE6, 0xB66, 0xBE6, 0xC66, 0xCE6, 0xD66,
   0xDE6, 0xE50, 0xED0, 0xF20, 0x1040, 0x1090, 0x17E0, 0x1810, 0x1946, 0x19D0, 0x1A80, 0x1A90,
   0x1B50, 0x1BB0, 0x1C40, 0x1C50, 0xA620, 0xA8D0, 0xA900, 0xA9D0, 0xA9F0, 0xAA50, 0xABF0,
   0xFF10, 0x104A0, 0x10D30, 0x11066, 0x110F0, 0x11136, 0x111D0, 0x112F0, 0x11450, 0x114D0,
   0x11650, 0x116C0, 0x11730, 0x118E0, 0x11950, 0x11C50, 0x11D50, 0x11DA0, 0x16A60, 0x16AC0,
   0x16B50, 0x1D7CE, 0x1D7D8, 0x1D7E2, 0x1D7EC, 0x1D7F6, 0x1E140, 0x1E2F0, 0x1E950, 0x1FBF0]

/-- The value of a decimal digit of any script. -/
def CodePoint.decimalDigit? (c : CodePoint) : Option Nat :=
  (digitZeros.find? fun z => z ≤ c.toNat && c.toNat < z + 10).map (c.toNat - ·)

/-- Replaces the decimal digits of other scripts by `0` to `9`, and blanks outside ASCII by
spaces, so that a numeral in any script reads like one in ASCII. -/
def CodePoint.asciiNumeral (isBlank : CodePoint → Bool) (c : CodePoint) : CodePoint :=
  if c.toNat < 0x80 then c
  else if isBlank c then .scalar ' '
  else match c.decimalDigit? with
    | some d => Text.hexDigit d
    | none => c

end HostScript
