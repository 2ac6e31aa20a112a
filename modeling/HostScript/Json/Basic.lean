import HostScript.Dict
import HostScript.Number.Numeral
import HostScript.Text.Printable

/-!
# JSON documents

A document keeps integers apart from other numbers and lists members in order. `write` prints it on
one line; a `Style` says whether characters outside ASCII are escaped. Numbers that JSON has no form
for are written as the words `NaN`, `Infinity` and `-Infinity`.
-/

namespace HostScript

/-- A JSON document. -/
inductive Json
  | null
  | boolean (b : Bool)
  | integer (n : Int)
  | number (x : Float)
  | string (t : Text)
  | array (items : List Json)
  | object (members : List (Text × Json))

instance : Inhabited Json := ⟨.null⟩

namespace Json

/-! ## Writing -/

/-- Whether everything but the printable characters of ASCII is written as escapes. -/
inductive Style
  | plain
  | ascii
deriving DecidableEq

/-- A code unit of UTF-16 as an escape. -/
def unitEscape (n : Nat) : Text := "\\u" ++ Text.hex 4 n

/-- The escape of a code point: one UTF-16 unit, or a pair of surrogates past U+FFFF. -/
def escape (c : CodePoint) : Text :=
  let n := c.toNat
  if n < 0x10000 then unitEscape n
  else unitEscape (0xD800 + (n - 0x10000) / 0x400) ++ unitEscape (0xDC00 + (n - 0x10000) % 0x400)

/-- How a code point is written inside a string. -/
def writePoint (style : Style) (c : CodePoint) : Text :=
  if c = .scalar '"' then "\\\""
  else if c = .scalar '\\' then "\\\\"
  else if c = .scalar '\n' then "\\n"
  else if c = .scalar '\r' then "\\r"
  else if c = .scalar '\t' then "\\t"
  else if c = .scalar '\x0c' then "\\f"
  else if c = .scalar '\x08' then "\\b"
  else if c.toNat < 0x20 then escape c
  else if style = .ascii ∧ 0x7F ≤ c.toNat then escape c
  else [c]

/-- A string between double quotes. -/
def writeString (style : Style) (t : Text) : Text :=
  .scalar '"' :: (t.flatMap (writePoint style) ++ [.scalar '"'])

/-- A number: its text, or a word if it is not finite. -/
def writeNumber (x : Float) : Text :=
  if x.isNaN then "NaN"
  else if x.isInf then (if x < 0 then "-Infinity" else "Infinity")
  else Number.text x

mutual

/-- A document on one line, with a blank behind commas and colons. -/
def write (style : Style) : Json → Text
  | null => "null"
  | boolean b => if b then "true" else "false"
  | integer n => Text.ofInt n
  | number x => writeNumber x
  | string t => writeString style t
  | array items => "[" ++ Text.join ", " (writeItems style items) ++ "]"
  | object members => "\x7b" ++ Text.join ", " (writeMembers style members) ++ "\x7d"

/-- The items of an array. -/
def writeItems (style : Style) : List Json → List Text
  | [] => []
  | item :: rest => write style item :: writeItems style rest

/-- The members of an object. -/
def writeMembers (style : Style) : List (Text × Json) → List Text
  | [] => []
  | (key, value) :: rest =>
    (writeString style key ++ ": " ++ write style value) :: writeMembers style rest

end

/-! ## Numbers that are not finite -/

mutual

/-- The document with null for every number that is not finite. -/
def finite : Json → Json
  | number x => if x.isFinite then number x else null
  | array items => array (finiteItems items)
  | object members => object (finiteMembers members)
  | document => document

/-- The items with null for numbers that are not finite. -/
def finiteItems : List Json → List Json
  | [] => []
  | item :: rest => finite item :: finiteItems rest

/-- The members with null for numbers that are not finite. -/
def finiteMembers : List (Text × Json) → List (Text × Json)
  | [] => []
  | (key, value) :: rest => (key, finite value) :: finiteMembers rest

end

/-! ## Long integers -/

mutual

/-- Whether an integer with more digits than are written stands somewhere in a document. -/
def hasLongInteger : Json → Bool
  | integer n => Number.digitLimit < (Text.ofNat n.natAbs).length
  | array items => hasLongIntegers items
  | object members => hasLongMembers members
  | _ => false

/-- Whether a long integer stands in one of some items. -/
def hasLongIntegers : List Json → Bool
  | [] => false
  | item :: rest => hasLongInteger item || hasLongIntegers rest

/-- Whether a long integer stands in one of some members. -/
def hasLongMembers : List (Text × Json) → Bool
  | [] => false
  | (_, value) :: rest => hasLongInteger value || hasLongMembers rest

end

/-! ## Documents in messages -/

/-- The name of the kind of a document in messages. -/
def kindName : Json → String
  | null => "NoneType"
  | boolean _ => "bool"
  | integer _ => "int"
  | number _ => "float"
  | string _ => "str"
  | array _ => "list"
  | object _ => "dict"

mutual

/-- A document as it stands inside another one in messages. -/
def inspect : Json → Text
  | null => "None"
  | boolean b => if b then "True" else "False"
  | integer n => Text.ofInt n
  | number x => Number.text x
  | string t => t.quoted
  | array items => "[" ++ Text.join ", " (inspectItems items) ++ "]"
  | object members => "\x7b" ++ Text.join ", " (inspectMembers members) ++ "\x7d"

/-- The items of an array in messages. -/
def inspectItems : List Json → List Text
  | [] => []
  | item :: rest => inspect item :: inspectItems rest

/-- The members of an object in messages. -/
def inspectMembers : List (Text × Json) → List Text
  | [] => []
  | (key, value) :: rest => (key.quoted ++ ": " ++ inspect value) :: inspectMembers rest

end

/-- A document on its own in a message: a string as it is, everything else inspected. -/
def shown : Json → Text
  | string t => t
  | document => document.inspect

/-- The value of a member. -/
def member? (key : Text) : Json → Option Json
  | object members => (Dict.mk members).get? key
  | _ => none

end Json

end HostScript
