import HostScript.Yaml.Fault

/-!
# Scalars

The three ways of writing a scalar: plain, between quotes, and as a block of lines. A line end
inside a plain or quoted scalar is folded: alone it becomes a space, and of several the first is
dropped.
-/

namespace HostScript.Yaml

/-- What a row of line ends stands for in a folded scalar. -/
def foldBreaks (first : CodePoint) (more : Text) : Text :=
  if first ≠ .scalar '\n' then first :: more
  else if more.isEmpty then [.scalar ' ']
  else more

/-! ## Plain scalars -/

/-- Whether a plain scalar may begin here. Inside brackets fewer characters may begin one. -/
def startsPlain (inFlow : Bool) (c : Cursor) : Bool :=
  match c.head with
  | none => false
  | some x =>
    !isGap (some x) && !isOneOf "-?:,[]\x7b\x7d#&*!|>'\"%@\x60" x
      || !isGap (c.peek 1) && (x = .scalar '-' || !inFlow && isOneOf "?:" x)

/-- Whether a code point with the given one behind it ends a piece of a plain scalar. -/
def endsPiece (inFlow : Bool) (x : CodePoint) (following : Option CodePoint) : Bool :=
  isGap (some x)
    || x = .scalar ':' && (isGap following || inFlow && following.any (isOneOf ",[]\x7b\x7d"))
    || inFlow && isOneOf ",?[]\x7b\x7d" x

/-- The number of code points in the piece of a plain scalar at the head of a text. -/
def pieceLength (inFlow : Bool) : Text → Nat
  | [] => 0
  | x :: rest => if endsPiece inFlow x rest.head? then 0 else pieceLength inFlow rest + 1

/-- The line ends that follow, with spaces between them, from the given mark on. There are none if
a mark between documents follows one of them. -/
def plainBreaks (m : Mark) : Text → Option Text × Cursor
  | [] => (some [], ⟨[], m⟩)
  | x :: rest =>
    if x = .scalar ' ' then plainBreaks (m.next x) rest
    else if isBreak x then
      if Cursor.isSeparator ⟨rest, m.next x⟩ then (none, ⟨rest, m.next x⟩)
      else
        let (more, c) := plainBreaks (m.next x) rest
        (more.map (foldedBreak x :: ·), c)
    else (some [], ⟨x :: rest, m⟩)

/-- What stands between two pieces of a plain scalar: what it is folded to unless the scalar ends
here, whether a line ends in it, and the cursor behind it. -/
def plainGap (c : Cursor) : Option Text × Bool × Cursor :=
  let (spaces, c) := c.takeWhile (· = .scalar ' ')
  match c.rest with
  | [] => (if spaces.isEmpty then none else some spaces, false, c)
  | x :: rest =>
    if isBreak x then
      if c.next.isSeparator then (none, true, c.next)
      else
        let (breaks, c) := plainBreaks (c.mark.next x) rest
        (breaks.map (foldBreaks (foldedBreak x)), true, c)
    else (if spaces.isEmpty then none else some spaces, false, c)

/-- A scalar that was read: its text, whether the last thing read was a line end, and the marks at
its end and behind what was read. -/
structure PlainScalar where
  text : Text
  broken : Bool
  stop : Mark
  cursor : Cursor

/-- Reads the pieces of a plain scalar, of which `read` has been read and `gap` stands in front of
the next. The lines after the first are indented by `indent` at least. -/
def plainPieces (inFlow : Bool) (indent : Nat) :
    (bound : Nat) → (read : PlainScalar) → (gap : Text) → PlainScalar
  | 0, read, _ => read
  | bound + 1, read, gap =>
    let c := read.cursor
    let n := if c.at? '#' then 0 else pieceLength inFlow c.rest
    if n = 0 then read
    else
      let behind := c.skip n
      let text := read.text ++ gap ++ c.rest.take n
      match plainGap behind with
      | (none, broken, after) => ⟨text, broken, behind.mark, after⟩
      | (some gap, broken, after) =>
        let read := ⟨text, broken, behind.mark, after⟩
        if after.at? '#' || !inFlow && after.mark.column < indent then read
        else plainPieces inFlow indent bound read gap

/-- Reads a plain scalar. -/
def readPlain (inFlow : Bool) (indent : Nat) (c : Cursor) : PlainScalar :=
  plainPieces inFlow indent (c.rest.length + 1) ⟨[], false, c.mark, c⟩ []

/-! ## Quoted scalars -/

/-- The line ends that follow, with blanks between them, and the cursor behind them. A mark between
documents must not stand at the start of a line. -/
def quotedBreaks (start : Mark) (lineStart : Bool) (m : Mark) (t : Text) :
    Except Fault (Text × Cursor) :=
  if lineStart && Cursor.isSeparator ⟨t, m⟩ then
    fail (.scanning "a quoted scalar") start .separatorInside m
  else match t with
    | [] => .ok ([], ⟨[], m⟩)
    | x :: rest =>
      if x = .scalar ' ' ∨ x = .scalar '\t' then quotedBreaks start false (m.next x) rest
      else if isBreak x then do
        let (more, c) ← quotedBreaks start true (m.next x) rest
        return (foldedBreak x :: more, c)
      else .ok ([], ⟨x :: rest, m⟩)

/-- Reads the blanks and line ends between two parts of a quoted scalar. -/
def quotedGap (start : Mark) (c : Cursor) : Except Fault (Text × Cursor) :=
  let (blanks, c) := c.takeWhile (isOneOf " \t")
  match c.rest with
  | [] => fail (.scanning "a quoted scalar") start .endOfStream c.mark
  | x :: rest =>
    if isBreak x then do
      let (breaks, c) ← quotedBreaks start true (c.mark.next x) rest
      return (foldBreaks (foldedBreak x) breaks, c)
    else .ok (blanks, c)

/-- The characters that are written by one letter behind a backslash. -/
def escapes : List (Char × Char) :=
  [('0', '\x00'), ('a', '\x07'), ('b', '\x08'), ('t', '\t'), ('\t', '\t'), ('n', '\n'),
    ('v', '\x0b'), ('f', '\x0c'), ('r', '\r'), ('e', '\x1b'), (' ', ' '), ('"', '"'),
    ('\\', '\\'), ('/', '/'), ('N', '\x85'), ('_', '\xa0'), ('L', '\u2028'), ('P', '\u2029')]

/-- How many digits follow a letter that begins an escape by number. -/
def escapeWidths : List (Char × Nat) := [('x', 2), ('u', 4), ('U', 8)]

/-- The number that hexadecimal digits write. -/
def hexValue (digits : Text) : Nat := digits.foldl (fun n c => n * 16 + c.hexDigit?.getD 0) 0

/-- Reads an escape by number behind its letter. -/
def readCode (start : Mark) (width : Nat) (c : Cursor) : Except Fault (Text × Cursor) :=
  let digits := (c.rest.take width).takeWhile (·.hexDigit?.isSome)
  if digits.length < width then
    fail (.scanning "a double-quoted scalar") start
      (.expectedCharacter ("escape sequence of " ++ toString width ++ " hexadecimal numbers")
        (c.peek digits.length)) c.mark
  else
    let n := hexValue digits
    match CodePoint.ofNat? n with
    | some x => .ok ([x], c.skip width)
    | none => .error (.scalar (if n < 0x80000000 then .codePointRange else .codePointWidth))

/-- Reads an escape behind its backslash. A line end behind it is left out. -/
def readEscape (start : Mark) (c : Cursor) : Except Fault (Text × Cursor) :=
  let unknown := fail (.scanning "a double-quoted scalar") start (.unknownEscape c.head) c.mark
  match c.head with
  | some (.scalar x) =>
    match escapes.lookup x, escapeWidths.lookup x with
    | some value, _ => .ok ([.scalar value], c.next)
    | none, some width => readCode start width c.next
    | none, none =>
      if isBreak (.scalar x) then quotedBreaks start true c.next.mark c.next.rest else unknown
  | _ => unknown

/-- Whether a quoted scalar ends here. An apostrophe that is written twice ends none. -/
def isClosing (double : Bool) (c : Cursor) : Bool :=
  if double then c.at? '"' else c.at? '\'' && c.peek 1 != some (.scalar '\'')

/-- Reads what is next inside a quoted scalar. -/
def quotedPart (start : Mark) (double : Bool) (c : Cursor) : Except Fault (Text × Cursor) :=
  if isGap c.head then quotedGap start c
  else if double && c.at? '\\' then readEscape start c.next
  else if !double && c.at? '\'' then .ok ([.scalar '\''], c.skip 2)
  else .ok (c.rest.take 1, c.next)

/-- Reads a scalar up to its closing quote, behind which the cursor comes to stand. -/
def quotedBody (start : Mark) (double : Bool) :
    (bound : Nat) → Cursor → Except Fault (Text × Cursor)
  | 0, c => fail (.scanning "a quoted scalar") start .endOfStream c.mark
  | bound + 1, c =>
    if isClosing double c then .ok ([], c.next)
    else do
      let (part, c) ← quotedPart start double c
      let (more, c) ← quotedBody start double bound c
      return (part ++ more, c)

/-- Reads a quoted scalar from its opening quote on. -/
def readQuoted (double : Bool) (c : Cursor) : Except Fault (Text × Cursor) :=
  quotedBody c.mark double (c.rest.length + 1) c.next

/-! ## Block scalars -/

/-- What stands behind the mark of a block scalar: whether the line ends at its end are all kept or
all dropped, and how far its lines are indented. -/
structure BlockHeader where
  keepEnd : Option Bool
  increment : Option Nat

/-- What the sign of a header says about the line ends at the end. -/
def keepEndOf? (c : Option CodePoint) : Option Bool :=
  if c = some (.scalar '+') then some true
  else if c = some (.scalar '-') then some false
  else none

/-- The digit at a cursor. -/
def digitAt? (c : Cursor) : Option Nat :=
  match c.head with
  | some x => if x.isDigit then x.hexDigit? else none
  | none => none

/-- Reads the digit of a header, which must not be zero. -/
def readIncrement (start : Mark) (c : Cursor) : Except Fault (Option Nat × Cursor) :=
  match digitAt? c with
  | none => .ok (none, c)
  | some 0 => fail (.scanning "a block scalar") start .zeroIndentation c.mark
  | some n => .ok (some n, c.next)

/-- Reads the header of a block scalar: a sign and a digit in either order. -/
def readHeader (start : Mark) (c : Cursor) : Except Fault (BlockHeader × Cursor) := do
  let first := keepEndOf? c.head
  let (increment, c) ← readIncrement start (if first.isSome then c.next else c)
  let second := if first.isNone && increment.isSome then keepEndOf? c.head else none
  let c := if second.isSome then c.next else c
  if isSpaceOrEnd c.head then
    return (⟨first.orElse fun _ => second, increment⟩, c)
  else
    fail (.scanning "a block scalar") start
      (.expectedCharacter "chomping or indentation indicators" c.head) c.mark

/-- Skips spaces and a comment up to the end of the line, which must follow. -/
def skipToLineEnd (activity : Activity) (start : Mark) (c : Cursor) : Except Fault Cursor :=
  let c := c.skipSpaces
  let c := if c.at? '#' then c.skipLine else c
  if isLineEnd c.head then .ok c.next
  else fail activity start (.expectedCharacter "a comment or a line break" c.head) c.mark

/-- The line ends at the head of a block, and the largest number of spaces on a line up to the first
that holds anything else. -/
def blockIndentation (m : Mark) (largest : Nat) : Text → Text × Nat × Cursor
  | [] => ([], largest, ⟨[], m⟩)
  | x :: rest =>
    if isBreak x then
      let (more, found, c) := blockIndentation (m.next x) largest rest
      (foldedBreak x :: more, found, c)
    else if x = .scalar ' ' then
      blockIndentation (m.next x) (max largest (m.next x).column) rest
    else ([], largest, ⟨x :: rest, m⟩)

/-- The line ends of empty lines, up to the given column of the first line that is not empty. -/
def blockBreaks (indent : Nat) (m : Mark) : Text → Text × Cursor
  | [] => ([], ⟨[], m⟩)
  | x :: rest =>
    if isBreak x then
      let (more, c) := blockBreaks indent (m.next x) rest
      (foldedBreak x :: more, c)
    else if x = .scalar ' ' && m.column < indent then blockBreaks indent (m.next x) rest
    else ([], ⟨x :: rest, m⟩)

/-- The lines of a block: their text, the last line end, the line ends of the empty lines behind it,
and the cursor. -/
structure BlockLines where
  text : Text
  lineEnd : Text
  breaks : Text
  cursor : Cursor

/-- Whether a line of a block begins here. -/
def isBlockLine (indent : Nat) (c : Cursor) : Bool := c.mark.column = indent && !c.rest.isEmpty

/-- What stands for a line end between two lines of a block. -/
def blockJoint (folded : Bool) (line : Text) (lineEnd breaks : Text) (c : Cursor) : Text :=
  let isText (x : Option CodePoint) : Bool := x.any (!isOneOf " \t" ·)
  if folded && lineEnd = [.scalar '\n'] && isText line.head? && isText c.head then
    if breaks.isEmpty then [.scalar ' '] else []
  else lineEnd

/-- Reads the lines of a block, in front of which the line ends `breaks` stand. -/
def blockLines (folded : Bool) (indent : Nat) :
    (bound : Nat) → (breaks : Text) → Cursor → BlockLines
  | 0, breaks, c => ⟨[], [], breaks, c⟩
  | bound + 1, breaks, c =>
    if isBlockLine indent c then
      let (line, c) := c.takeWhile (!isBreak ·)
      let lineEnd : Text := match c.head with
        | some x => [foldedBreak x]
        | none => []
      let (after, c) := blockBreaks indent c.next.mark c.next.rest
      if isBlockLine indent c then
        let more := blockLines folded indent bound after c
        { more with text := breaks ++ line ++ blockJoint folded line lineEnd after c ++ more.text }
      else ⟨breaks ++ line, lineEnd, after, c⟩
    else ⟨[], [], breaks, c⟩

/-- Reads a block scalar from its mark on. Its lines are indented by more than `parent`, the number
of columns that the block around it leaves free. -/
def readBlock (folded : Bool) (parent : Nat) (c : Cursor) : Except Fault (Text × Cursor) := do
  let start := c.mark
  let (header, c) ← readHeader start c.next
  let c ← skipToLineEnd (.scanning "a block scalar") start c
  let least := max parent 1
  let (indent, breaks, c) := match header.increment with
    | none =>
      let (breaks, found, c) := blockIndentation c.mark 0 c.rest
      (max least found, breaks, c)
    | some n =>
      let indent := least + n - 1
      let (breaks, c) := blockBreaks indent c.mark c.rest
      (indent, breaks, c)
  let lines := blockLines folded indent (c.rest.length + 1) breaks c
  let ending : Text := match header.keepEnd with
    | none => lines.lineEnd
    | some true => lines.lineEnd ++ lines.breaks
    | some false => []
  return (lines.text ++ ending, lines.cursor)

end HostScript.Yaml
