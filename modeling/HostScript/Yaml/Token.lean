import HostScript.Text.Utf8
import HostScript.Yaml.Scalar

/-!
# Tokens

The parts that documents are made of, and the reading of those whose form does not depend on what
stands around them: directives, anchors, aliases and tags.
-/

namespace HostScript.Yaml

/-- A line in front of a document. -/
inductive Directive
  | version (major minor : Nat)
  | handle (handle start : Text)
  | other
deriving DecidableEq

/-- The kinds of tokens. -/
inductive Form
  | directive (d : Directive)
  | documentStart
  | documentEnd
  | streamEnd
  | blockSequenceStart
  | blockMappingStart
  | blockEnd
  | flowSequenceStart
  | flowSequenceEnd
  | flowMappingStart
  | flowMappingEnd
  | key
  | value
  | blockEntry
  | flowEntry
  | reference (name : Text)
  | anchor (name : Text)
  | tag (handle : Option Text) (suffix : Text)
  | scalar (t : Text) (isPlain : Bool)
deriving DecidableEq

/-- The name of a kind of tokens in messages. -/
def Form.label : Form → String
  | directive _ => "<directive>"
  | documentStart => "<document start>"
  | documentEnd => "<document end>"
  | streamEnd => "<stream end>"
  | blockSequenceStart => "<block sequence start>"
  | blockMappingStart => "<block mapping start>"
  | blockEnd => "<block end>"
  | flowSequenceStart => "["
  | flowSequenceEnd => "]"
  | flowMappingStart => "\x7b"
  | flowMappingEnd => "\x7d"
  | key => "?"
  | value => ":"
  | blockEntry => "-"
  | flowEntry => ","
  | reference _ => "<alias>"
  | anchor _ => "<anchor>"
  | tag _ _ => "<tag>"
  | scalar _ _ => "<scalar>"

/-- A token and the places where it starts and ends. -/
structure Token where
  form : Form
  start : Mark
  stop : Mark
deriving DecidableEq

/-! ## Names -/

/-- Ends reading where some character was wanted and another one stands. -/
def failAt {α : Type} (activity : Activity) (start : Mark) (wanted : String) (c : Cursor) :
    Except Fault α :=
  fail activity start (.expectedCharacter wanted c.head) c.mark

/-- Reads a name, which must not be empty. -/
def readWord (activity : Activity) (start : Mark) (c : Cursor) : Except Fault (Text × Cursor) :=
  let (name, after) := c.takeWhile isWordPart
  if name.isEmpty then failAt activity start "alphabetic or numeric character" c
  else .ok (name, after)

/-- Reads the name of an anchor or an alias behind its mark, which stands at `start`. -/
def readAnchor (activity : Activity) (start : Mark) (c : Cursor) : Except Fault (Text × Cursor) :=
  do
    let (name, after) ← readWord activity start c
    if isGap after.head || after.head.any (isOneOf "?:,]\x7d%@\x60") then return (name, after)
    else failAt activity start "alphabetic or numeric character" after

/-! ## Tags -/

/-- What tags are made of besides escapes. -/
def isTagPart (c : CodePoint) : Bool := isWordPart c || isOneOf ";/?:@&=+$,.!~*'()[]" c

/-- Reads bytes that are written by a percent sign and two digits each. -/
def readBytes (activity : Activity) (start : Mark) :
    (bound : Nat) → Cursor → Except Fault (Bytes × Cursor)
  | 0, c => .ok ([], c)
  | bound + 1, c =>
    if c.at? '%' then
      let digits := (c.next.rest.take 2).takeWhile (·.hexDigit?.isSome)
      if digits.length < 2 then
        fail activity start
          (.expectedCharacter "URI escape sequence of 2 hexadecimal numbers"
            (c.next.peek digits.length)) c.next.mark
      else do
        let (more, after) ← readBytes activity start bound (c.skip 3)
        return (UInt8.ofNat (hexValue digits) :: more, after)
    else .ok ([], c)

/-- Reads the parts of a tag: characters, and characters written by their bytes. -/
def tagParts (what : String) (start : Mark) : (bound : Nat) → Cursor → Except Fault (Text × Cursor)
  | 0, c => .ok ([], c)
  | bound + 1, c => do
    let (part, after) := c.takeWhile isTagPart
    if after.at? '%' then
      let (bytes, last) ← readBytes (.scanning what) start after.rest.length after
      match Utf8.decode bytes with
      | .error fault => fail (.scanning what) start (.notUtf8 fault.message) after.mark
      | .ok written =>
        let (more, last) ← tagParts what start bound last
        return (part ++ written ++ more, last)
    else return (part, after)

/-- Reads what follows the handle of a tag, or what a handle stands for; neither may be empty. -/
def readTagText (what : String) (start : Mark) (c : Cursor) : Except Fault (Text × Cursor) := do
  let (t, after) ← tagParts what start (c.rest.length + 1) c
  if after.mark = c.mark then failAt (.parsing what) start "URI" after else return (t, after)

/-- Reads a handle: an exclamation mark, and perhaps a name with another one behind it. -/
def readHandle (what : String) (start : Mark) (c : Cursor) : Except Fault (Text × Cursor) :=
  if !c.at? '!' then failAt (.scanning what) start "'!'" c
  else
    let (name, after) := c.next.takeWhile isWordPart
    if c.next.at? ' ' then .ok ([.scalar '!'], c.next)
    else if after.at? '!' then .ok (.scalar '!' :: (name ++ [.scalar '!']), after.next)
    else failAt (.scanning what) start "'!'" after

/-- Whether another exclamation mark follows before the next space or line end. -/
def hasHandle (c : Cursor) : Bool :=
  let word := c.rest.takeWhile fun x => !isSpaceOrEnd (some x)
  word.contains (.scalar '!')

/-- Reads the handle and the rest of a tag. A tag between angle brackets has no handle, and an
exclamation mark alone is a tag of its own. -/
def readTagParts (start : Mark) (c : Cursor) : Except Fault ((Option Text × Text) × Cursor) := do
  let behind := c.next
  if behind.at? '<' then
    let (t, after) ← readTagText "a tag" start behind.next
    if after.at? '>' then return ((none, t), after.next)
    else failAt (.parsing "a tag") start "'>'" after
  else if isGap behind.head then
    return ((none, [.scalar '!']), behind)
  else if hasHandle behind then
    let (handle, after) ← readHandle "a tag" start c
    let (t, after) ← readTagText "a tag" start after
    return ((some handle, t), after)
  else
    let (t, after) ← readTagText "a tag" start behind
    return ((some [.scalar '!'], t), after)

/-- Reads a tag from its exclamation mark on. -/
def readTag (c : Cursor) : Except Fault ((Option Text × Text) × Cursor) := do
  let (parts, after) ← readTagParts c.mark c
  if isSpaceOrEnd after.head then return (parts, after)
  else failAt (.scanning "a tag") c.mark "' '" after

/-! ## Directives -/

/-- Reads a number of a version. -/
def readVersionNumber (start : Mark) (c : Cursor) : Except Fault (Nat × Cursor) :=
  let (digits, after) := c.takeWhile CodePoint.isDigit
  if digits.isEmpty then failAt (.scanning "a directive") start "a digit" c
  else .ok (digits.foldl (fun n d => n * 10 + d.hexDigit?.getD 0) 0, after)

/-- Reads a version: two numbers with a point between them. -/
def readVersion (start : Mark) (c : Cursor) : Except Fault (Directive × Cursor) := do
  let (major, c) ← readVersionNumber start c.skipSpaces
  if !c.at? '.' then failAt (.scanning "a directive") start "a digit or '.'" c
  else
    let (minor, c) ← readVersionNumber start c.next
    if isSpaceOrEnd c.head then return (.version major minor, c)
    else failAt (.scanning "a directive") start "a digit or ' '" c

/-- Reads a handle and what it stands for. -/
def readHandleMeaning (start : Mark) (c : Cursor) : Except Fault (Directive × Cursor) := do
  let (handle, c) ← readHandle "a directive" start c.skipSpaces
  if !c.at? ' ' then failAt (.scanning "a directive") start "' '" c
  else
    let (meaning, c) ← readTagText "a directive" start c.skipSpaces
    if isSpaceOrEnd c.head then return (.handle handle meaning, c)
    else failAt (.scanning "a directive") start "' '" c

/-- Reads a directive from its percent sign on. -/
def readDirective (c : Cursor) : Except Fault (Directive × Cursor) := do
  let start := c.mark
  let (name, c) ← readWord (.scanning "a directive") start c.next
  if !isSpaceOrEnd c.head then
    failAt (.scanning "a directive") start "alphabetic or numeric character" c
  else
    let (directive, c) ←
      if name = "YAML" then readVersion start c
      else if name = "TAG" then readHandleMeaning start c
      else pure (.other, c.skipLine)
    let c ← skipToLineEnd (.scanning "a directive") start c
    return (directive, c)

end HostScript.Yaml
