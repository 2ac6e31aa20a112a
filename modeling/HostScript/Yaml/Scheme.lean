import HostScript.Number.Numeral
import HostScript.Text.Base64
import HostScript.Text.LowerCase
import HostScript.Yaml.Timestamp

/-!
# Tags of scalars

A scalar without quotes and without a tag gets its tag by its form (`Tag.ofPlain`): the words for
null and truth values, integers in four bases and in base sixty, numbers with a point, timestamps.
`Tag.scalar` is the value of a scalar under a tag, which may have been given for a text of any form.
-/

namespace HostScript.Yaml

/-- What a node is. -/
inductive Tag
  | null
  | boolean
  | integer
  | number
  | timestamp
  | binary
  | string
  | sequence
  | mapping
  | set
  | orderedMapping
  | pairs
  | merge
  | value
  | other (name : Text)
deriving DecidableEq

namespace Tag

/-- What the names of the common tags begin with. -/
def commonStart : Text := "tag:yaml.org,2002:"

/-- The common tags by the ends of their names. -/
def common : List (String × Tag) :=
  [("null", null), ("bool", boolean), ("int", integer), ("float", number),
    ("timestamp", timestamp), ("binary", binary), ("str", string), ("seq", sequence),
    ("map", mapping), ("set", set), ("omap", orderedMapping), ("pairs", pairs), ("merge", merge),
    ("value", value)]

/-- The tag of a name. -/
def ofName (name : Text) : Tag :=
  match common.find? fun entry => commonStart ++ Text.ofString entry.1 = name with
  | some (_, tag) => tag
  | none => other name

/-- The name of a tag. -/
def name : Tag → Text
  | other name => name
  | tag =>
    match common.find? (·.2 = tag) with
    | some (ending, _) => commonStart ++ Text.ofString ending
    | none => []

/-- Whether a tag is one of a collection. -/
def isCollection : Tag → Bool
  | sequence => true
  | mapping => true
  | set => true
  | orderedMapping => true
  | pairs => true
  | _ => false

end Tag

/-! ## Forms of plain scalars -/

/-- Whether a text is one of some words. -/
def isWord (words : List String) (t : Text) : Bool := words.any fun word => Text.ofString word = t

/-- The words for null. -/
def nullWords : List String := ["", "~", "null", "Null", "NULL"]

/-- The words for true. -/
def trueWords : List String := ["yes", "Yes", "YES", "true", "True", "TRUE", "on", "On", "ON"]

/-- The words for false. -/
def falseWords : List String := ["no", "No", "NO", "false", "False", "FALSE", "off", "Off", "OFF"]

/-- Whether a code point is an underscore or satisfies `p`. -/
def orUnderscore (p : CodePoint → Bool) (c : CodePoint) : Bool := c = .scalar '_' || p c

/-- Whether a text is made of digits of a base and underscores. -/
def isRow (base : Nat) (t : Text) : Bool :=
  !t.isEmpty && t.all (orUnderscore (Number.isDigitOf base))

/-- Whether a text begins with a digit and goes on with digits and underscores. -/
def isDecimalRow (t : Text) : Bool := t.head?.any CodePoint.isDigit && isRow 10 t

/-- Whether a text is a digit group of a number in base sixty: one digit, or two below sixty. -/
def isSixtieth : Text → Bool
  | [c] => c.isDigit
  | [c, d] => Number.isDigitOf 6 c && d.isDigit
  | _ => false

/-- Whether a text without a sign is an integer. -/
def isNatural (t : Text) : Bool :=
  match t with
  | [.scalar '0'] => true
  | .scalar '0' :: .scalar 'b' :: digits => isRow 2 digits
  | .scalar '0' :: .scalar 'x' :: digits => isRow 16 digits
  | .scalar '0' :: digits => isRow 8 digits
  | t =>
    match Text.splitOn (.scalar ':') t with
    | first :: groups => isDecimalRow first && groups.all isSixtieth
    | [] => false

/-- Whether a text is an integer. -/
def isInteger (t : Text) : Bool := isNatural (Number.sign t).2

/-- Whether a text is nothing, or an exponent with a sign. -/
def isExponent : Text → Bool
  | [] => true
  | c :: .scalar s :: digits =>
    c.lowerAscii = .scalar 'e' && (s = '+' || s = '-') && !digits.isEmpty
      && digits.all CodePoint.isDigit
  | _ => false

/-- Whether a text without a sign is digits with a point and an optional exponent. There may be no
digit before the point unless a sign was there. -/
def hasPoint (signed : Bool) (t : Text) : Bool :=
  let whole := t.takeWhile (orUnderscore CodePoint.isDigit)
  match t.drop whole.length with
  | .scalar '.' :: rest =>
    let fraction := rest.takeWhile (orUnderscore CodePoint.isDigit)
    (isDecimalRow whole || whole.isEmpty && !signed && isDecimalRow fraction)
      && isExponent (rest.drop fraction.length)
  | _ => false

/-- Whether a text without a sign is a number in base sixty, of which the last group has a point. -/
def hasSixtiesPoint (t : Text) : Bool :=
  match (Text.splitOn (.scalar ':') t).reverse with
  | last :: before =>
    match Text.splitOn (.scalar '.') last, before.reverse with
    | [whole, fraction], first :: groups =>
      isDecimalRow first && groups.all isSixtieth && isSixtieth whole
        && fraction.all (orUnderscore CodePoint.isDigit)
    | _, _ => false
  | [] => false

/-- Whether a text is a number with a point, or one of the words for numbers that are not finite. -/
def isNumber (t : Text) : Bool :=
  let body := (Number.sign t).2
  let signed := body.length < t.length
  isWord [".inf", ".Inf", ".INF"] body || !signed && isWord [".nan", ".NaN", ".NAN"] body
    || hasPoint signed body || hasSixtiesPoint body

/-- The tag of a scalar without quotes. -/
def Tag.ofPlain (t : Text) : Tag :=
  if isWord nullWords t then null
  else if isWord (trueWords ++ falseWords) t then boolean
  else if isNumber t then number
  else if isInteger t then integer
  else if isWord ["<<"] t then merge
  else if Timestamp.isPlain t then timestamp
  else if isWord ["="] t then value
  else string

/-! ## Values of scalars -/

/-- The text without underscores. -/
def withoutUnderscores (t : Text) : Text := t.filter (· ≠ .scalar '_')

/-- The number that digit groups write in base sixty, the last group first. -/
def sixties {α : Type} [Add α] [Mul α] (zero one sixty : α) (groups : List α) : α :=
  (groups.foldl (fun (sum, unit) x => (sum + x * unit, unit * sixty)) (zero, one)).1

/-- The integer that a text writes in a base. -/
def integerIn (base : Nat) (t : Text) : Except ScalarFault Int :=
  match Number.integer base t with
  | .ok n => .ok n
  | .error .malformed => .error (.notInteger base t)
  | .error (.tooLong digits) => .error (.longInteger digits)

/-- The natural number of a text without a sign: a zero in front, alone or with a letter, says in
which base it is. -/
def naturalOf (t : Text) : Except ScalarFault Int :=
  match t with
  | [] => .error .emptyNumeral
  | [.scalar '0'] => .ok 0
  | .scalar '0' :: .scalar 'b' :: digits => integerIn 2 digits
  | .scalar '0' :: .scalar 'x' :: digits => integerIn 16 digits
  | .scalar '0' :: _ => integerIn 8 t
  | t =>
    if t.contains (.scalar ':') then do
      let groups ← (Text.splitOn (.scalar ':') t).mapM (integerIn 10)
      return sixties 0 1 60 groups.reverse
    else integerIn 10 t

/-- The integer of a scalar. -/
def integerOf (t : Text) : Except ScalarFault Int := do
  let (negative, body) := Number.sign (withoutUnderscores t)
  let n ← naturalOf body
  return if negative then -n else n

/-- The floating-point number that a text writes. -/
def floatOf (t : Text) : Except ScalarFault Float :=
  match Number.float? t with
  | some x => .ok x
  | none => .error (.notNumber t)

/-- The floating-point number of a scalar. -/
def numberOf (t : Text) : Except ScalarFault Float :=
  let bare := (withoutUnderscores t).toLower
  let (negative, body) := Number.sign bare
  let signed (x : Float) : Float := if negative then -x else x
  if bare.isEmpty then .error .emptyNumeral
  else if isWord [".inf"] body then .ok (signed Number.infinity)
  else if isWord [".nan"] body then .ok Number.nan
  else if body.contains (.scalar ':') then do
    let groups ← (Text.splitOn (.scalar ':') body).mapM floatOf
    return signed (sixties 0 1 60 groups.reverse)
  else (floatOf body).map signed

/-- The truth value of a scalar. -/
def booleanOf (t : Text) : Except ScalarFault Bool :=
  let word := t.toLower
  if isWord trueWords word then .ok true
  else if isWord falseWords word then .ok false
  else .error (.notTruthValue word)

/-- The day or the moment of a scalar. -/
def timestampOf (t : Text) : Except ScalarFault Setting :=
  match Timestamp.ofLine? t with
  | none => .error .notTimestamp
  | some stamp => stamp.setting.mapError .calendar

/-- The bytes of a scalar that begins at the given place. -/
def bytesOf (t : Text) (m : Mark) : Except Fault Bytes :=
  match Base64.decode t with
  | .ok bytes => .ok bytes
  | .error fault => failAlone (.badBase64 fault) m

/-- The value of a scalar that begins at the given place, under a tag. The tags of collections and
those that are not known have no values. -/
def Tag.scalar (tag : Tag) (t : Text) (m : Mark) : Except Fault Setting :=
  match tag with
  | null => .ok .null
  | boolean => ((booleanOf t).map .boolean).mapError .scalar
  | integer => ((integerOf t).map .integer).mapError .scalar
  | number => ((numberOf t).map .number).mapError .scalar
  | timestamp => (timestampOf t).mapError .scalar
  | string => .ok (.string t)
  | binary => (bytesOf t m).map .bytes
  | tag => failAlone (.unknownTag tag.name) m

end HostScript.Yaml
