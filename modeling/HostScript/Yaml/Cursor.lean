import HostScript.Text.CodePoint

/-!
# Places in a document

A `Cursor` is what is left to read of a YAML document, together with the `Mark` where it begins.
Everything is read by skipping a number of code points (`Cursor.skip`), so the marks follow from the
text that was read, and what is taken and what is left make up the text (`takeWhile_append_rest`).
Line ends of two characters have been made one before.
-/

namespace HostScript.Yaml

/-- A place: the number of code points before it, its line and its column, counted from zero. -/
structure Mark where
  index : Nat
  line : Nat
  column : Nat
deriving DecidableEq, Inhabited

/-- The characters that end a line. -/
def isBreak (c : CodePoint) : Bool := [0x0A, 0x0D, 0x85, 0x2028, 0x2029].contains c.toNat

/-- What a line end stands for in a scalar. -/
def foldedBreak (c : CodePoint) : CodePoint :=
  if c.toNat = 0x2028 ∨ c.toNat = 0x2029 then c else .scalar '\n'

/-- The mark that may stand in front of a document and takes no column. -/
def byteOrderMark : CodePoint := .scalar '\ufeff'

namespace Mark

/-- The start of a document. -/
def start : Mark := ⟨0, 0, 0⟩

/-- The place behind a code point. -/
def next (m : Mark) (c : CodePoint) : Mark :=
  if isBreak c then ⟨m.index + 1, m.line + 1, 0⟩
  else ⟨m.index + 1, m.line, if c = byteOrderMark then m.column else m.column + 1⟩

end Mark

/-! ## Classes of what may come next -/

/-- Whether a line ends here. -/
def isLineEnd : Option CodePoint → Bool
  | none => true
  | some c => isBreak c

/-- Whether a line ends or a space follows. -/
def isSpaceOrEnd : Option CodePoint → Bool
  | none => true
  | some c => c = .scalar ' ' || isBreak c

/-- Whether a line ends or a blank follows. -/
def isGap : Option CodePoint → Bool
  | none => true
  | some c => c = .scalar ' ' || c = .scalar '\t' || isBreak c

/-- Whether a code point is one of the given characters. -/
def isOneOf (characters : String) (c : CodePoint) : Bool :=
  (Text.ofString characters).contains c

/-- What the names of anchors, handles and directives are made of. -/
def isWordPart : CodePoint → Bool
  | .scalar c => c.isAlphanum || c = '-' || c = '_'
  | .surrogate _ => false

/-! ## Cursors -/

/-- What is left to read, and where it begins. -/
structure Cursor where
  rest : Text
  mark : Mark

namespace Cursor

/-- The cursor at the start of a document. -/
def ofText (t : Text) : Cursor := ⟨t, .start⟩

/-- The cursor behind the next code point. -/
def next (c : Cursor) : Cursor :=
  match c.rest with
  | [] => c
  | x :: rest => ⟨rest, c.mark.next x⟩

/-- The cursor behind the next `n` code points. -/
def skip : (n : Nat) → Cursor → Cursor
  | 0, c => c
  | n + 1, c => skip n c.next

/-- The code point at a distance from the cursor. -/
def peek (c : Cursor) (n : Nat) : Option CodePoint := c.rest[n]?

/-- The next code point. -/
def head (c : Cursor) : Option CodePoint := c.rest.head?

/-- Whether the given character is next. -/
def at? (c : Cursor) (x : Char) : Bool := c.head = some (.scalar x)

/-- The code points up to the first that does not satisfy `p`, and the cursor behind them. -/
def takeWhile (p : CodePoint → Bool) (c : Cursor) : Text × Cursor :=
  let taken := c.rest.takeWhile p
  (taken, c.skip taken.length)

/-- The cursor behind the code points that satisfy `p`. -/
def skipWhile (p : CodePoint → Bool) (c : Cursor) : Cursor := (c.takeWhile p).2

/-- The cursor behind spaces. -/
def skipSpaces (c : Cursor) : Cursor := c.skipWhile (· = .scalar ' ')

/-- The cursor at the end of the line. -/
def skipLine (c : Cursor) : Cursor := c.skipWhile (!isBreak ·)

/-- Whether the three given characters are next, with a gap behind them. -/
def isMarker (marker : String) (c : Cursor) : Bool :=
  (Text.ofString marker).isPrefixOf c.rest && isGap (c.peek 3)

/-- Whether a mark between documents is next. -/
def isSeparator (c : Cursor) : Bool := c.isMarker "---" || c.isMarker "..."

theorem rest_next (c : Cursor) : c.next.rest = c.rest.drop 1 := by
  obtain ⟨rest, mark⟩ := c
  cases rest <;> rfl

@[simp] theorem rest_skip (n : Nat) (c : Cursor) : (c.skip n).rest = c.rest.drop n := by
  induction n generalizing c with
  | zero => rfl
  | succ n ih => rw [skip, ih, rest_next, List.drop_drop, Nat.add_comm]

theorem takeWhile_append_rest (p : CodePoint → Bool) (c : Cursor) :
    (c.takeWhile p).1 ++ (c.takeWhile p).2.rest = c.rest := by
  simp only [takeWhile, rest_skip]
  generalize c.rest = t
  induction t with
  | nil => rfl
  | cons x rest ih => cases h : p x <;> simp [List.takeWhile, h, ih]

end Cursor

end HostScript.Yaml
