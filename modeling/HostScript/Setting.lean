import HostScript.Calendar
import HostScript.Number.Decimal
import HostScript.Text.Utf8

/-!
# Settings

The values that settings files write. Their kinds are not checked when they are read; what a setting
is used for decides what it must be.
-/

namespace HostScript

/-- The value of a setting. -/
inductive Setting
  | null
  | boolean (b : Bool)
  | integer (n : Int)
  | number (x : Float)
  | string (t : Text)
  | bytes (b : Bytes)
  | date (d : Date)
  | moment (m : Moment)
  | list (items : List Setting)
  | set (members : List Text)
  | mapping (entries : List (Text × Setting))

instance : Inhabited Setting := ⟨.null⟩

namespace Setting

/-- The name of the kind of a setting. -/
def shortName : Setting → String
  | null => "NoneType"
  | boolean _ => "bool"
  | integer _ => "int"
  | number _ => "float"
  | string _ => "str"
  | bytes _ => "bytes"
  | date _ => "date"
  | moment _ => "datetime"
  | list _ => "list"
  | set _ => "set"
  | mapping _ => "dict"

/-- The name of the kind of a setting, with the part of the library that it comes from. -/
def kindName : Setting → String
  | date _ => "datetime.date"
  | moment _ => "datetime.datetime"
  | s => s.shortName

/-- Whether a setting counts as switched on: everything but null, false, zero and what is empty. -/
def isOn : Setting → Bool
  | null => false
  | boolean b => b
  | integer n => n != 0
  | number x => x != 0
  | string t => !t.isEmpty
  | bytes b => !b.isEmpty
  | date _ => true
  | moment _ => true
  | list items => !items.isEmpty
  | set members => !members.isEmpty
  | mapping entries => !entries.isEmpty

/-- How a setting compares to zero, if it is a number or a truth value: whether it is below zero,
and whether it is zero. -/
def signOf? : Setting → Option (Bool × Bool)
  | boolean b => some (false, !b)
  | integer n => some (n < 0, n = 0)
  | number x => some (x < 0, x == 0)
  | _ => none

/-- How a byte is written between the given quotes. -/
def byteText (quote : Char) (b : UInt8) : Text :=
  let n := b.toNat
  if n = quote.toNat ∨ n = '\\'.toNat then [.scalar '\\', .scalar (Char.ofNat n)]
  else if n = 9 then "\\t"
  else if n = 10 then "\\n"
  else if n = 13 then "\\r"
  else if 32 ≤ n ∧ n < 127 then [.scalar (Char.ofNat n)]
  else "\\x" ++ Text.hex 2 n

/-- The text of bytes between quotes. -/
def bytesText (b : Bytes) : Text :=
  let quote := if b.contains 0x27 && !b.contains 0x22 then '"' else '\''
  .scalar 'b' :: .scalar quote :: (b.flatMap (byteText quote) ++ [.scalar quote])

/-- The text that a setting without members has as a key and in messages. -/
def text : Setting → Text
  | null => "None"
  | boolean b => if b then "True" else "False"
  | integer n => Text.ofInt n
  | number x => Number.text x
  | string t => t
  | bytes b => bytesText b
  | date d => d.text
  | moment m => m.text
  | list _ => "[]"
  | set _ => "set()"
  | mapping _ => "\x7b\x7d"

end Setting

end HostScript
