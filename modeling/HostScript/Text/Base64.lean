import HostScript.Text.Utf8

/-!
# Bytes in base sixty-four

Four characters write three bytes; an equals sign stands for one that is missing at the end.
Characters that are neither are passed over, and reading ends where the last group is complete.
-/

namespace HostScript.Base64

/-- Why a text writes no bytes: characters from position `first` to `last`, of which `c` is the
first, are not ASCII; there is one character too many behind the bytes so far; or too few. -/
inductive Fault
  | notAscii (first last : Nat) (c : CodePoint)
  | lone (bytes : Nat)
  | unpadded
deriving DecidableEq

/-- How a character that is not ASCII is shown. -/
def shownCode (c : CodePoint) : Text :=
  let n := c.toNat
  if n < 0x100 then "\\x" ++ Text.hex 2 n
  else if n < 0x10000 then "\\u" ++ Text.hex 4 n
  else "\\U" ++ Text.hex 8 n

/-- The wording of a fault. -/
def Fault.message : Fault → Text
  | notAscii first last c =>
    "failed to convert base64 data into ascii: 'ascii' codec can't encode character"
      ++ (if first = last then " '" ++ shownCode c ++ "' in position " ++ Text.ofNat first
        else "s in position " ++ Text.ofNat first ++ "-" ++ Text.ofNat last)
      ++ ": ordinal not in range(128)"
  | lone bytes =>
    "failed to decode base64 data: Invalid base64-encoded string: number of data characters ("
      ++ Text.ofNat (bytes / 3 * 4 + 1) ++ ") cannot be 1 more than a multiple of 4"
  | unpadded => "failed to decode base64 data: Incorrect padding"

/-- Whether a code point is ASCII. -/
def isAscii (c : CodePoint) : Bool := c.toNat < 0x80

/-- The value of a character. -/
def digit? : CodePoint → Option Nat
  | .surrogate _ => none
  | .scalar c =>
    if c.isUpper then some (c.toNat - 'A'.toNat)
    else if c.isLower then some (c.toNat - 'a'.toNat + 26)
    else if c.isDigit then some (c.toNat - '0'.toNat + 52)
    else if c = '+' then some 62
    else if c = '/' then some 63
    else none

/-- Reads on after `count` characters of a group, which write the number `group`, and `pads` equals
signs behind them. -/
def decodeFrom (seen : Bytes) (count group pads : Nat) : Text → Except Fault Bytes
  | [] =>
    if count = 0 then .ok seen
    else if count = 1 then .error (.lone seen.length)
    else .error .unpadded
  | c :: rest =>
    if c = .scalar '=' then
      if 2 ≤ count then
        if 4 ≤ count + pads + 1 then .ok seen else decodeFrom seen count group (pads + 1) rest
      else decodeFrom seen count group pads rest
    else match digit? c with
      | none => decodeFrom seen count group pads rest
      | some d =>
        let group := group * 64 + d
        let byte (shift : Nat) : Bytes := [UInt8.ofNat (group / 2 ^ shift % 256)]
        match count with
        | 0 => decodeFrom seen 1 group 0 rest
        | 1 => decodeFrom (seen ++ byte 4) 2 group 0 rest
        | 2 => decodeFrom (seen ++ byte 2) 3 group 0 rest
        | _ => decodeFrom (seen ++ byte 0) 0 0 0 rest

/-- The bytes that a text writes. -/
def decode (t : Text) : Except Fault Bytes :=
  let before := t.takeWhile isAscii
  match t.drop before.length with
  | [] => decodeFrom [] 0 0 0 t
  | c :: rest =>
    .error (.notAscii before.length (before.length + (rest.takeWhile (!isAscii ·)).length) c)

end HostScript.Base64
