import HostScript.Number.Numeral
import HostScript.Syntax.Token

/-!
# From source text to tokens

`Piece.read` looks at the head of a text and says what stands there: a gap (a blank or a comment),
a lexeme, or a fault. It knows nothing of positions, only how many code points it has read.
`scanFrom` turns pieces into tokens with spans by advancing a `Position` over what was read. A
surrogate cannot be part of UTF-8 source, so it stops the scan as soon as it is read.
-/

namespace HostScript

/-! ## Positions -/

/-- A place in a source: the bytes before it and its line, counted from one. -/
structure Position where
  byte : Nat
  line : Nat
deriving DecidableEq

namespace Position

/-- The start of a source. -/
def start : Position := ⟨0, 1⟩

/-- The position behind a code point. -/
def next (p : Position) (c : CodePoint) : Position :=
  ⟨p.byte + c.utf8Size, if c = .scalar '\n' then p.line + 1 else p.line⟩

/-- The position behind a text. -/
def advance (p : Position) (t : Text) : Position := t.foldl next p

/-- The span from one position to another. -/
def spanTo (first last : Position) : Span := ⟨first.byte, last.byte, first.line⟩

@[simp] theorem advance_nil (p : Position) : p.advance [] = p := rfl

@[simp] theorem advance_cons (p : Position) (c : CodePoint) (t : Text) :
    p.advance (c :: t) = (p.next c).advance t := rfl

theorem advance_append (p : Position) (s t : Text) :
    p.advance (s ++ t) = (p.advance s).advance t := List.foldl_append

theorem advance_byte (p : Position) (t : Text) : (p.advance t).byte = p.byte + Utf8.size t := by
  induction t generalizing p with
  | nil => simp
  | cons c rest ih => rw [advance_cons, ih, Utf8.size_cons]; simp only [next]; omega

theorem advance_line (p : Position) (t : Text) :
    (p.advance t).line = p.line + t.count (.scalar '\n') := by
  induction t generalizing p with
  | nil => simp
  | cons c rest ih =>
    rw [advance_cons, ih]
    by_cases h : c = .scalar '\n'
    · simp [next, h]; omega
    · simp [next, h]

end Position

/-! ## Faults -/

/-- Why a text is no sequence of tokens. -/
inductive ScanFault
  | unexpectedCharacter (c : CodePoint)
  | unterminatedString
  | invalidEscape (c : CodePoint)
deriving DecidableEq

/-- The wording of a scanning fault. -/
def ScanFault.message : ScanFault → Text
  | unexpectedCharacter c => "unexpected character " ++ Text.quoted [c]
  | unterminatedString => "unterminated string"
  | invalidEscape c => "invalid escape sequence \\" ++ [c]

/-- How a scan ends early: at a fault with its span, or at a surrogate. -/
inductive ScanHalt
  | fault (cause : ScanFault) (span : Span)
  | unencodable (fault : Utf8.EncodeFault)
deriving DecidableEq

/-! ## Pieces -/

/-- The letters and the underscore, which begin identifiers. -/
def CodePoint.isNameStart : CodePoint → Bool
  | .scalar c => c = '_' || c.isAlpha
  | .surrogate _ => false

/-- What identifiers go on with. -/
def CodePoint.isNamePart (c : CodePoint) : Bool := c.isNameStart || c.isDigit

/-- An escape sequence behind its backslash: the code point it stands for, or the letter that
begins no valid escape; and how many code points were read behind that letter. -/
inductive Escape
  | point (value : CodePoint) (more : Nat)
  | invalid (more : Nat)
deriving DecidableEq

/-- Reads an escape by number behind its `u`: up to seven code points between braces, which write
a code point in base sixteen. -/
def Escape.readNumber : Text → Escape
  | .scalar '\x7b' :: rest =>
    let digits := (rest.take 7).takeWhile (· ≠ .scalar '\x7d')
    match rest.drop digits.length with
    | .scalar '\x7d' :: _ =>
      let value? := do
        let n ← Number.hexInteger? digits
        if n < 0 then none else CodePoint.ofNat? n.toNat
      match value? with
      | some value => .point value (digits.length + 2)
      | none => .invalid (digits.length + 2)
    | _ => .invalid (digits.length + 1)
  | _ => .invalid 0

/-- Reads an escape that begins with the letter `c` behind its backslash. -/
def Escape.read (c : CodePoint) (rest : Text) : Escape :=
  match c with
  | .scalar 'n' => .point (.scalar '\n') 0
  | .scalar 't' => .point (.scalar '\t') 0
  | .scalar 'r' => .point (.scalar '\r') 0
  | .scalar '0' => .point (.scalar '\x00') 0
  | .scalar '\\' => .point c 0
  | .scalar '"' => .point c 0
  | .scalar '\'' => .point c 0
  | .scalar 'u' => readNumber rest
  | _ => .invalid 0

/-- What stands at the head of a text. Every form says how many code points it reads behind the
first one. The span of a fault leaves out the first `skip` of them; if it leaves out any, its line
is the one on which reading stopped. -/
inductive Piece
  | gap (more : Nat)
  | lexeme (value : Lexeme) (more : Nat)
  | fault (cause : ScanFault) (skip more : Nat)
deriving DecidableEq

namespace Piece

/-- How many code points a piece reads behind the first one. -/
def more : Piece → Nat
  | gap more => more
  | lexeme _ more => more
  | fault _ _ more => more

/-- Reads the inside of a string, of which `taken` code points have been read. They stand for the
code points `seen`, the last one first. -/
def readString (seen : Text) (taken : Nat) : Text → Piece
  | [] => fault .unterminatedString 0 taken
  | .scalar '"' :: _ => lexeme (.string seen.reverse) (taken + 1)
  | [.scalar '\\'] => fault .unterminatedString 0 (taken + 1)
  | .scalar '\\' :: c :: rest =>
    match Escape.read c rest with
    | .point point more => readString (point :: seen) (taken + 2 + more) (rest.drop more)
    | .invalid more => fault (.invalidEscape c) (taken + 1) (taken + 2 + more)
  | c :: rest => readString (c :: seen) (taken + 1) rest
termination_by t => t.length
decreasing_by all_goals (simp only [List.length_drop, List.length_cons]; omega)

/-- Reads a number that begins with the digit `c`. A point belongs to it if a digit follows. -/
def readNumber (c : CodePoint) (rest : Text) : Piece :=
  let whole := rest.takeWhile CodePoint.isDigit
  let fraction := match rest.drop whole.length with
    | .scalar '.' :: more => more.takeWhile CodePoint.isDigit
    | _ => []
  let value := Number.ofDigits (c :: whole) fraction 0
  lexeme (.number value)
    (whole.length + if fraction.isEmpty then 0 else fraction.length + 1)

/-- Reads the keyword or identifier that begins with `c`. -/
def readWord (c : CodePoint) (rest : Text) : Piece :=
  let tail := rest.takeWhile CodePoint.isNamePart
  let value := match Symbol.ofWord? (c :: tail) with
    | some s => .symbol s
    | none => .identifier (c :: tail)
  lexeme value tail.length

/-- Reads the piece that begins with `c`. -/
def read (c : CodePoint) (rest : Text) : Piece :=
  match c with
  | .surrogate _ => fault (.unexpectedCharacter c) 0 0
  | .scalar char =>
    if char = ' ' ∨ char = '\r' ∨ char = '\t' ∨ char = '\n' then gap 0
    else if char = '#' then gap (rest.takeWhile (· ≠ .scalar '\n')).length
    else if char = '"' then readString [] 0 rest
    else match Symbol.ofPair? char with
      | some (long, short) =>
        if rest.head? = some (.scalar '=') then lexeme long 1 else lexeme short 0
      | none =>
        match Symbol.ofChar? char with
        | some s => lexeme s 0
        | none =>
          if c.isDigit then readNumber c rest
          else if c.isNameStart then readWord c rest
          else fault (.unexpectedCharacter c) 0 0

end Piece

/-! ## Scanning -/

/-- The span of a fault in what was read from position `p` on. -/
def faultSpan (p : Position) (read : Text) (skip : Nat) : Span :=
  let last := p.advance read
  if skip = 0 then p.spanTo last else ⟨(p.advance (read.take skip)).byte, last.byte, last.line⟩

/-- The tokens of a text that begins at position `p`. -/
def scanFrom (p : Position) : Text → Except ScanHalt (List Token)
  | [] => .ok [⟨.endOfInput, p.spanTo p⟩]
  | c :: rest =>
    let piece := Piece.read c rest
    let read := c :: rest.take piece.more
    match read.find? CodePoint.isSurrogate with
    | some (.surrogate code) => .error (.unencodable ⟨0, 0, code⟩)
    | _ =>
      match piece with
      | .gap more => scanFrom (p.advance read) (rest.drop more)
      | .lexeme value more => do
        let tokens ← scanFrom (p.advance read) (rest.drop more)
        return ⟨value, p.spanTo (p.advance read)⟩ :: tokens
      | .fault cause skip _ => .error (.fault cause (faultSpan p read skip))
termination_by t => t.length
decreasing_by all_goals (simp only [List.length_drop, List.length_cons]; omega)

/-- The tokens of a source. The last one, and no other, is the end of the input. -/
def scan (source : Text) : Except ScanHalt (List Token) := scanFrom .start source

end HostScript
