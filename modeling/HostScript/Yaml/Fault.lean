import HostScript.Calendar
import HostScript.Text.Base64
import HostScript.Text.Printable
import HostScript.Yaml.Cursor

/-!
# Faults of documents

Why a text cannot be read as a document. Most faults are a `Problem` at a mark, found while doing
something (`Activity`) that began at another mark; their wording shows the lines of both. Faults of
single scalars, whose form does not fit their tag, have no mark.
-/

namespace HostScript.Yaml

/-! ## Marked faults -/

/-- The stages in which faults are found. -/
inductive Stage
  | scanning
  | parsing
  | composing
  | constructing
deriving DecidableEq

/-- The kind of fault that a stage raises. -/
def Stage.kind : Stage → String
  | scanning => "ScannerError"
  | parsing => "ParserError"
  | composing => "ComposerError"
  | constructing => "ConstructorError"

/-- What was being done when a problem came up. -/
inductive Activity
  | scanning (what : String)
  | parsing (what : String)
  | constructingMapping
  | constructingOrderedMapping
  | constructingPairs
  | repeatedAnchor (name : Text)
  | singleDocument
deriving DecidableEq

/-- The wording of an activity. -/
def Activity.label : Activity → Text
  | scanning what => "while scanning " ++ Text.ofString what
  | parsing what => "while parsing " ++ Text.ofString what
  | constructingMapping => "while constructing a mapping"
  | constructingOrderedMapping => "while constructing an ordered map"
  | constructingPairs => "while constructing pairs"
  | repeatedAnchor name => "found duplicate anchor " ++ name.quoted ++ "; first occurrence"
  | singleDocument => "expected a single document in the stream"

/-- What is wrong with a document at a place. -/
inductive Problem
  | noTokenStart (c : Option CodePoint)
  | noColon
  | notAllowed (what : String)
  | expectedCharacter (wanted : String) (found : Option CodePoint)
  | zeroIndentation
  | unknownEscape (found : Option CodePoint)
  | endOfStream
  | separatorInside
  | notUtf8 (reason : Text)
  | repeatedVersion
  | wrongVersion
  | repeatedHandle (handle : Text)
  | unknownHandle (handle : Text)
  | expectedToken (wanted found : String)
  | gotToken (wanted found : String)
  | unknownAlias (name : Text)
  | secondAnchor
  | secondDocument
  | unknownTag (tag : Text)
  | expectedNode (wanted found : String)
  | badBase64 (fault : Base64.Fault)
  | unhashableKey
deriving DecidableEq

namespace Problem

/-- The stage in which a problem is found. -/
def stage : Problem → Stage
  | repeatedVersion => .parsing
  | wrongVersion => .parsing
  | repeatedHandle _ => .parsing
  | unknownHandle _ => .parsing
  | expectedToken _ _ => .parsing
  | gotToken _ _ => .parsing
  | unknownAlias _ => .composing
  | secondAnchor => .composing
  | secondDocument => .composing
  | unknownTag _ => .constructing
  | expectedNode _ _ => .constructing
  | badBase64 _ => .constructing
  | unhashableKey => .constructing
  | _ => .scanning

/-- How a character that was found is shown. The end of the document is shown as a null. -/
def shownCharacter (c : Option CodePoint) : Text := Text.quoted [c.getD (.scalar '\x00')]

/-- The wording of a problem. -/
def message : Problem → Text
  | noTokenStart c => "found character " ++ shownCharacter c ++ " that cannot start any token"
  | noColon => "could not find expected ':'"
  | notAllowed what => Text.ofString what ++ " are not allowed here"
  | expectedCharacter wanted found =>
    "expected " ++ Text.ofString wanted ++ ", but found " ++ shownCharacter found
  | zeroIndentation => "expected indentation indicator in the range 1-9, but found 0"
  | unknownEscape found => "found unknown escape character " ++ shownCharacter found
  | endOfStream => "found unexpected end of stream"
  | separatorInside => "found unexpected document separator"
  | notUtf8 reason => reason
  | repeatedVersion => "found duplicate YAML directive"
  | wrongVersion => "found incompatible YAML document (version 1.* is required)"
  | repeatedHandle handle => "duplicate tag handle " ++ handle.quoted
  | unknownHandle handle => "found undefined tag handle " ++ handle.quoted
  | expectedToken wanted found =>
    "expected " ++ Text.ofString wanted ++ ", but found " ++ (Text.ofString found).quoted
  | gotToken wanted found =>
    "expected " ++ Text.ofString wanted ++ ", but got " ++ (Text.ofString found).quoted
  | unknownAlias name => "found undefined alias " ++ name.quoted
  | secondAnchor => "second occurrence"
  | secondDocument => "but found another document"
  | unknownTag tag => "could not determine a constructor for the tag " ++ tag.quoted
  | expectedNode wanted found =>
    "expected " ++ Text.ofString wanted ++ ", but found " ++ Text.ofString found
  | badBase64 fault => fault.message
  | unhashableKey => "found unhashable key"

end Problem

/-! ## Faults of scalars -/

/-- Why a scalar has no value under its tag. -/
inductive ScalarFault
  | notInteger (base : Nat) (t : Text)
  | longInteger (digits : Nat)
  | notNumber (t : Text)
  | emptyNumeral
  | notTruthValue (t : Text)
  | notTimestamp
  | calendar (fault : CalendarFault)
  | codePointRange
  | codePointWidth
deriving DecidableEq

/-- The kind of a fault of a scalar. -/
def ScalarFault.kind : ScalarFault → String
  | emptyNumeral => "IndexError"
  | notTruthValue _ => "KeyError"
  | notTimestamp => "AttributeError"
  | codePointWidth => "OverflowError"
  | _ => "ValueError"

/-- The wording of a fault of a scalar. What is no integer is shown up to two hundred characters. -/
def ScalarFault.message : ScalarFault → Text
  | notInteger base t =>
    "invalid literal for int() with base " ++ Text.ofNat base ++ ": " ++ t.quoted.take 200
  | longInteger digits =>
    "Exceeds the limit (4300 digits) for integer string conversion: value has "
      ++ Text.ofNat digits ++ " digits; use sys.set_int_max_str_digits() to increase the limit"
  | notNumber t => "could not convert string to float: " ++ t.quoted
  | emptyNumeral => "string index out of range"
  | notTruthValue t => t.quoted
  | notTimestamp => "'NoneType' object has no attribute 'groupdict'"
  | calendar fault => fault.message
  | codePointRange => "chr() arg not in range(0x110000)"
  | codePointWidth => "Python int too large to convert to C int"

/-! ## Faults -/

/-- Why a text cannot be read as a document. -/
inductive Fault
  | unprintable (c : CodePoint) (index : Nat)
  | marked (activity : Option (Activity × Option Mark)) (problem : Problem) (mark : Mark)
  | scalar (fault : ScalarFault)
deriving DecidableEq

/-- How many characters an excerpt may show on each side of a place. -/
def excerptReach : Nat := 36

/-- How many characters an excerpt shows on a side where it is cut. -/
def excerptRest : Nat := 32

/-- The line of a place with a caret below it. Long lines are cut around the place. -/
def excerpt (document : Text) (m : Mark) : Text :=
  let before := ((document.take m.index).reverse.takeWhile (!isBreak ·)).reverse
  let after := (document.drop m.index).takeWhile (!isBreak ·)
  let left : Text :=
    if excerptReach < before.length then
      " ... " ++ before.drop (before.length - excerptRest)
    else before
  let right : Text :=
    if excerptReach < after.length then after.take excerptRest ++ " ... " else after
  Text.replicate 4 ' ' ++ left ++ right ++ "\n" ++ Text.replicate (4 + left.length) ' ' ++ "^"

/-- The wording of a place in a document. -/
def Mark.message (document : Text) (m : Mark) : Text :=
  "  in \"<unicode string>\", line " ++ Text.ofNat (m.line + 1) ++ ", column "
    ++ Text.ofNat (m.column + 1) ++ ":\n" ++ excerpt document m

/-- The wording of a marked fault. A place is not shown twice. -/
def markedMessage (document : Text) (activity : Option (Activity × Option Mark))
    (problem : Problem) (mark : Mark) : Text :=
  let start : List Text := match activity with
    | none => []
    | some (a, none) => [a.label]
    | some (a, some m) =>
      if m.line = mark.line ∧ m.column = mark.column then [a.label]
      else [a.label, m.message document]
  Text.join "\n" (start ++ [problem.message, mark.message document])

/-- The wording of a fault in a document. -/
def Fault.message (document : Text) : Fault → Text
  | unprintable c index =>
    "unacceptable character #x" ++ Text.hex 4 c.toNat
      ++ ": special characters are not allowed\n  in \"<unicode string>\", position "
      ++ Text.ofNat index
  | marked activity problem mark => markedMessage document activity problem mark
  | scalar fault => fault.message

/-- The kind of a fault in a document. -/
def Fault.kind : Fault → String
  | unprintable _ _ => "ReaderError"
  | marked _ problem _ => problem.stage.kind
  | scalar fault => fault.kind

/-- Ends reading at a problem. -/
def fail {α : Type} (activity : Activity) (start : Mark) (problem : Problem) (mark : Mark) :
    Except Fault α :=
  .error (.marked (some (activity, some start)) problem mark)

/-- Ends reading at a problem that is not part of a larger activity. -/
def failAlone {α : Type} (problem : Problem) (mark : Mark) : Except Fault α :=
  .error (.marked none problem mark)

end HostScript.Yaml
