import HostScript.Http.Basic
import HostScript.Text.Utf8

/-!
# A platform with three character sets

A platform for requests (`Platform.usual`) whose codecs are UTF-8, Latin-1 and ASCII, and the
responses that a library for requests makes where these are all the encodings there are
(`HttpReply.ofBody`). Bytes are read strictly, so that bad ones are reported, or with U+FFFD in
place of bad ones.
-/

namespace HostScript

/-- A way of writing texts as bytes. -/
inductive Charset
  | utf8
  | latin1
  | ascii
deriving DecidableEq

namespace Charset

/-- The names of a character set, in the form of `canonical`. -/
def names : Charset → List String
  | utf8 => ["utf-8", "utf8", "u8", "utf"]
  | latin1 =>
    ["latin-1", "latin1", "latin", "l1", "iso-8859-1", "iso8859-1", "iso8859", "8859", "cp819"]
  | ascii => ["ascii", "us-ascii", "us", "646", "cp367"]

/-- A name with small letters and minus signs for underscores and blanks. -/
def canonical (name : Text) : Text :=
  name.map fun c => if c = .scalar '_' ∨ c = .scalar ' ' then .scalar '-' else c.lowerAscii

/-- The character set of a name. -/
def ofName? (name : Text) : Option Charset :=
  [utf8, latin1, ascii].find? fun charset =>
    charset.names.any fun known => Text.ofString known = canonical name

/-- A text without blanks at its ends. -/
def strip (t : Text) : Text :=
  Text.dropEndWhile (· = .scalar ' ') (t.dropWhile (· = .scalar ' '))

/-- The value of a parameter of a content type: what follows `name=`, without double quotes. -/
def parameter? (name : Text) (part : Text) : Option Text :=
  let key := strip (part.takeWhile (· ≠ .scalar '='))
  match part.dropWhile (· ≠ .scalar '=') with
  | _ :: value =>
    if key.map CodePoint.lowerAscii = name then
      some ((strip value).filter (· ≠ .scalar '"'))
    else none
  | [] => none

/-- The character set that a content type declares. -/
def declared? (contentType : Text) : Option Charset := do
  let parts := (Text.splitOn (.scalar ';') contentType).drop 1
  ofName? (← parts.findSome? (parameter? "charset"))

/-- The character set of a body: the declared one if it is known, otherwise UTF-8. -/
def ofContentType (contentType : Option Text) : Charset := (contentType.bind declared?).getD utf8

/-- The character of a byte that stands for itself. -/
def ofByte (b : UInt8) : CodePoint := .scalar (Char.ofNat b.toNat)

/-- The wording for a byte that is not ASCII, at its position. -/
def notAscii (b : UInt8) (position : Nat) : Text :=
  "'ascii' codec can't decode byte 0x" ++ Text.hex 2 b.toNat ++ " in position "
    ++ Text.ofNat position ++ ": ordinal not in range(128)"

/-- The text of some bytes, or the reason why there is none. -/
def decode (charset : Charset) (bytes : Bytes) : Except Text Text :=
  match charset with
  | utf8 => (Utf8.decode bytes).mapError (·.message)
  | latin1 => .ok (bytes.map ofByte)
  | ascii =>
    let good := bytes.takeWhile (· < 0x80)
    match bytes.drop good.length with
    | b :: _ => .error (notAscii b good.length)
    | [] => .ok (bytes.map ofByte)

/-- The text of some bytes, with U+FFFD for bad ones. -/
def decodeLossy (charset : Charset) (bytes : Bytes) : Text :=
  match charset with
  | utf8 => Utf8.decodeLossy bytes
  | latin1 => bytes.map ofByte
  | ascii => bytes.map fun b => if b < 0x80 then ofByte b else .scalar '\ufffd'

/-- The text of some bytes in the character set of a name. -/
def decodeNamed (name : Text) (bytes : Bytes) : Except DecodeFault Text :=
  match ofName? name with
  | some charset => (charset.decode bytes).mapError .malformed
  | none => .error (.malformed ("unknown encoding: " ++ name))

end Charset

/-- A platform with three character sets, on which clients are always made and the clock waits as
long as it is asked to. -/
def Platform.usual : Platform where
  clientFault? _ _ := none
  decode := Charset.decodeNamed
  sleepFault? _ := none

/-- The response with some content and its type. -/
def HttpReply.ofBody (status : Int) (contentType : Option Text) (content : Bytes) : HttpReply :=
  let charset := Charset.ofContentType contentType
  .response ⟨status, charset.names.head?.map Text.ofString, content,
    .ok (charset.decodeLossy content)⟩

end HostScript
