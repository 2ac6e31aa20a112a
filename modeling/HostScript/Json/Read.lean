import HostScript.Json.Basic
import HostScript.Number.Numeral

/-!
# Reading JSON documents

`Json.read` reads one document with nothing but blanks around it. A `Dialect` says whether numerals
without fraction and exponent are integers, and whether the words for numbers that are not finite
are allowed. Faults carry the place at which they are blamed, counted in code points. Nesting is
bounded: beyond the bound reading stops with `tooDeep`.
-/

namespace HostScript.Json

/-! ## Faults -/

/-- Why a text is no document, at a place of the text. -/
inductive ReadCause
  | expectingValue
  | extraData
  | expectingComma
  | expectingColon
  | expectingName
  | unterminatedString
  | controlCharacter
  | invalidEscape
  | invalidUnitEscape
  | byteOrderMark
deriving DecidableEq

/-- The wording of a cause. -/
def ReadCause.message : ReadCause → String
  | expectingValue => "Expecting value"
  | extraData => "Extra data"
  | expectingComma => "Expecting ',' delimiter"
  | expectingColon => "Expecting ':' delimiter"
  | expectingName => "Expecting property name enclosed in double quotes"
  | unterminatedString => "Unterminated string starting at"
  | controlCharacter => "Invalid control character at"
  | invalidEscape => "Invalid \\escape"
  | invalidUnitEscape => "Invalid \\uXXXX escape"
  | byteOrderMark => "Unexpected UTF-8 BOM (decode using utf-8-sig)"

/-- Why a text is not read as a document. Places are given by the number of code points that were
left to read. -/
inductive ReadFault
  | atPlace (cause : ReadCause) (left : Nat)
  | constant (word : String)
  | longInteger (digits : Nat)
deriving DecidableEq

/-- How reading ends early. -/
inductive ReadHalt
  | fault (cause : ReadFault)
  | tooDeep
deriving DecidableEq

/-- The wording of a place: line, column and offset. Lines end with line feeds. -/
def place (document : Text) (offset : Nat) : Text :=
  let seen := document.take offset
  let line := seen.count (.scalar '\n') + 1
  let column := (seen.reverse.takeWhile (· ≠ .scalar '\n')).length + 1
  "line " ++ Text.ofNat line ++ " column " ++ Text.ofNat column
    ++ " (char " ++ Text.ofNat offset ++ ")"

/-- The wording of a fault in a document. -/
def ReadFault.message (document : Text) : ReadFault → Text
  | atPlace cause left =>
    Text.ofString cause.message ++ ": " ++ place document (document.length - left)
  | constant word => "invalid JSON constant " ++ Text.ofString word
  | longInteger digits =>
    "Exceeds the limit (4300 digits) for integer string conversion: value has "
      ++ Text.ofNat digits ++ " digits; use sys.set_int_max_str_digits() to increase the limit"

/-- What a reader allows. -/
structure Dialect where
  integers : Bool
  constants : Bool

/-- Documents of scripts: all numbers are floating-point, and all are finite or overflow. -/
def Dialect.script : Dialect := ⟨false, false⟩

/-- Documents on the wire to the host: integers are kept, and words for other numbers allowed. -/
def Dialect.wire : Dialect := ⟨true, true⟩

/-- A fault at the place where the given text is left. -/
def faultAt {α : Type} (cause : ReadCause) (rest : Text) : Except ReadHalt (α × Text) :=
  .error (.fault (.atPlace cause rest.length))

/-- The blanks between the parts of a document. -/
def isBlank (c : CodePoint) : Bool :=
  c = .scalar ' ' || c = .scalar '\t' || c = .scalar '\n' || c = .scalar '\r'

/-- The text behind the blanks at its head. -/
def skip (t : Text) : Text := t.dropWhile isBlank

/-! ## Strings -/

/-- The number written by four hexadecimal digits. One more code point must follow them. -/
def unit? (t : Text) : Option (Nat × Text) :=
  match t with
  | a :: b :: c :: d :: rest => do
    let a ← a.hexDigit?
    let b ← b.hexDigit?
    let c ← c.hexDigit?
    let d ← d.hexDigit?
    if rest.isEmpty then none else some (((a * 16 + b) * 16 + c) * 16 + d, rest)
  | _ => none

/-- The low surrogate that an escape at the head of a text writes, if there is one; `none` inside
means that the escape is broken at its `u`. An escape counts only if one more code point follows. -/
def lowUnit? (t : Text) : Option (Option (Nat × Text)) :=
  match t with
  | .scalar '\\' :: .scalar 'u' :: rest =>
    if rest.length ≤ 4 then none
    else match unit? rest with
      | none => some none
      | some (n, more) => if 0xDC00 ≤ n ∧ n < 0xE000 then some (some (n, more)) else none
  | _ => none

/-- The code points that are written by one letter behind a backslash. -/
def simpleEscape? : CodePoint → Option CodePoint
  | .scalar '"' => some (.scalar '"')
  | .scalar '\\' => some (.scalar '\\')
  | .scalar '/' => some (.scalar '/')
  | .scalar 'b' => some (.scalar '\x08')
  | .scalar 'f' => some (.scalar '\x0c')
  | .scalar 'n' => some (.scalar '\n')
  | .scalar 'r' => some (.scalar '\r')
  | .scalar 't' => some (.scalar '\t')
  | _ => none

/-- Reads an escape behind its `\u`, of which the text from the `u` on is given: one unit, or two
that make a pair of surrogates. -/
def readUnits (fromU digits : Text) : Except ReadHalt (CodePoint × Text) :=
  match unit? digits with
  | none => faultAt .invalidUnitEscape fromU
  | some (n, rest) =>
    let single : Except ReadHalt (CodePoint × Text) := .ok ((CodePoint.ofNat? n).getD default, rest)
    if 0xD800 ≤ n ∧ n < 0xDC00 then
      match lowUnit? rest with
      | none => single
      | some none => faultAt .invalidUnitEscape (rest.drop 1)
      | some (some (low, more)) =>
        .ok ((CodePoint.ofNat? (0x10000 + (n - 0xD800) * 0x400 + (low - 0xDC00))).getD default,
          more)
    else single

/-- Reads a string behind its opening quote, from which the text `opening` runs. The code points
`seen` have been read, the last one first. -/
def readString (opening seen : Text) : Text → Except ReadHalt (Text × Text)
  | [] => faultAt .unterminatedString opening
  | .scalar '"' :: rest => .ok (seen.reverse, rest)
  | [.scalar '\\'] => faultAt .unterminatedString opening
  | .scalar '\\' :: .scalar 'u' :: rest =>
    match readUnits (.scalar 'u' :: rest) rest with
    | .error h => .error h
    | .ok (c, more) =>
      if more.length < rest.length then readString opening (c :: seen) more else .error .tooDeep
  | .scalar '\\' :: c :: rest =>
    match simpleEscape? c with
    | some value => readString opening (value :: seen) rest
    | none => faultAt .invalidEscape (.scalar '\\' :: c :: rest)
  | c :: rest =>
    if c.toNat < 0x20 then faultAt .controlCharacter (c :: rest)
    else readString opening (c :: seen) rest
termination_by t => t.length
decreasing_by all_goals (simp only [List.length_cons]; omega)

/-! ## Numbers -/

/-- The longest number at the head of a text: an optional minus, digits without a leading zero, and
an optional fraction and exponent. -/
structure Numeral where
  negative : Bool
  whole : Text
  fraction : Text
  power : Option Int

/-- Splits off a fraction: a point and at least one digit. -/
def fraction (t : Text) : Text × Text :=
  match t with
  | .scalar '.' :: rest =>
    let digits := rest.takeWhile CodePoint.isDigit
    if digits.isEmpty then ([], t) else (digits, rest.drop digits.length)
  | _ => ([], t)

/-- Splits off an exponent: an `e` with an optional sign and at least one digit. -/
def power (t : Text) : Option Int × Text :=
  match t with
  | c :: rest =>
    if c.lowerAscii = .scalar 'e' then
      let (negative, unsigned) := Number.sign rest
      let digits := unsigned.takeWhile CodePoint.isDigit
      if digits.isEmpty then (none, t)
      else
        let n : Int := Number.natOfDigits digits
        (some (if negative then -n else n), unsigned.drop digits.length)
    else (none, t)
  | [] => (none, t)

/-- The number at the head of a text. -/
def numeral? (t : Text) : Option (Numeral × Text) :=
  let (negative, body) := match t with
    | .scalar '-' :: rest => (true, rest)
    | t => (false, t)
  let whole : Text := match body with
    | .scalar '0' :: _ => [.scalar '0']
    | body => body.takeWhile CodePoint.isDigit
  if whole.isEmpty then none
  else
    let (fraction, rest) := fraction (body.drop whole.length)
    let (power, rest) := power rest
    some (⟨negative, whole, fraction, power⟩, rest)

/-- The document that a numeral writes. -/
def Numeral.document (dialect : Dialect) (n : Numeral) : Except ReadHalt Json :=
  if dialect.integers ∧ n.fraction.isEmpty ∧ n.power.isNone then
    if Number.digitLimit < n.whole.length then .error (.fault (.longInteger n.whole.length))
    else
      let value : Int := Number.natOfDigits n.whole
      .ok (.integer (if n.negative then -value else value))
  else
    let value := Number.ofDigits n.whole n.fraction (n.power.getD 0)
    .ok (.number (if n.negative then -value else value))

/-- Reads a number, which is all that may still stand here. -/
def readNumber (dialect : Dialect) (t : Text) : Except ReadHalt (Json × Text) :=
  match numeral? t with
  | none => faultAt .expectingValue t
  | some (n, rest) => do
    let document ← n.document dialect
    return (document, rest)

/-! ## Documents -/

/-- The words for numbers that are not finite. -/
def constants : List (String × Float) :=
  [("NaN", Number.nan), ("Infinity", Number.infinity), ("-Infinity", -Number.infinity)]

/-- The words of JSON. -/
def words : List (String × Json) :=
  [("null", .null), ("true", .boolean true), ("false", .boolean false)]

/-- The first of the given words that stands at the head of a text, and what follows it. -/
def word? {α : Type} (table : List (String × α)) (t : Text) : Option (String × α × Text) :=
  table.findSome? fun (word, value) =>
    let spelled := Text.ofString word
    if spelled.isPrefixOf t then some (word, value, t.drop spelled.length) else none

/-- Reads a word or a number. -/
def readAtom (dialect : Dialect) (t : Text) : Except ReadHalt (Json × Text) :=
  match word? words t with
  | some (_, value, rest) => .ok (value, rest)
  | none =>
    match word? constants t with
    | some (word, value, rest) =>
      if dialect.constants then .ok (.number value, rest) else .error (.fault (.constant word))
    | none => readNumber dialect t

/-- Reads the items of an array, of which at least one follows, up to the closing bracket. -/
def readItems (value : Text → Except ReadHalt (Json × Text)) (t : Text) :
    Except ReadHalt (List Json × Text) :=
  match value t with
  | .error h => .error h
  | .ok (item, rest) =>
    match skip rest with
    | .scalar ']' :: more => .ok ([item], more)
    | .scalar ',' :: more =>
      if (skip more).length < t.length then do
        let (items, rest) ← readItems value (skip more)
        return (item :: items, rest)
      else .error .tooDeep
    | rest => faultAt .expectingComma rest
termination_by t.length

/-- Reads the members of an object, of which at least one follows, up to the closing brace. -/
def readMembers (value : Text → Except ReadHalt (Json × Text)) :
    Text → Except ReadHalt (List (Text × Json) × Text)
  | .scalar '"' :: name =>
    match readString (.scalar '"' :: name) [] name with
    | .error h => .error h
    | .ok (key, rest) =>
      match skip rest with
      | .scalar ':' :: rest =>
        match value (skip rest) with
        | .error h => .error h
        | .ok (member, rest) =>
          match skip rest with
          | .scalar '\x7d' :: more => .ok ([(key, member)], more)
          | .scalar ',' :: more =>
            if (skip more).length < name.length then do
              let (members, rest) ← readMembers value (skip more)
              return ((key, member) :: members, rest)
            else .error .tooDeep
          | rest => faultAt .expectingComma rest
      | rest => faultAt .expectingColon rest
  | t => faultAt .expectingName t
termination_by t => t.length
decreasing_by simp only [List.length_cons]; omega

/-- Reads an array behind its bracket. -/
def readArray (value : Text → Except ReadHalt (Json × Text)) (t : Text) :
    Except ReadHalt (Json × Text) :=
  match skip t with
  | .scalar ']' :: rest => .ok (.array [], rest)
  | t => do
    let (items, rest) ← readItems value t
    return (.array items, rest)

/-- Reads an object behind its brace. Of several members with one name the last one counts, in the
place of the first one. -/
def readObject (value : Text → Except ReadHalt (Json × Text)) (t : Text) :
    Except ReadHalt (Json × Text) :=
  match skip t with
  | .scalar '\x7d' :: rest => .ok (.object [], rest)
  | t => do
    let (members, rest) ← readMembers value t
    return (.object (Dict.ofList members).entries, rest)

/-- Reads the document at the head of a text, nested no deeper than the bound. -/
def readValue (dialect : Dialect) : (depth : Nat) → Text → Except ReadHalt (Json × Text)
  | _, .scalar '"' :: rest => do
    let (t, rest) ← readString (.scalar '"' :: rest) [] rest
    return (.string t, rest)
  | 0, .scalar '[' :: _ => .error .tooDeep
  | 0, .scalar '\x7b' :: _ => .error .tooDeep
  | depth + 1, .scalar '[' :: rest => readArray (readValue dialect depth) rest
  | depth + 1, .scalar '\x7b' :: rest => readObject (readValue dialect depth) rest
  | _, t => readAtom dialect t

/-- Reads a text that is one document. -/
def read (dialect : Dialect) (depth : Nat) (t : Text) : Except ReadHalt Json :=
  if t.head? = some (.scalar '\ufeff') then .error (.fault (.atPlace .byteOrderMark t.length))
  else do
    let (document, rest) ← readValue dialect depth (skip t)
    if (skip rest).isEmpty then return document
    else .error (.fault (.atPlace .extraData (skip rest).length))

end HostScript.Json
