import HostScript.Text.Width

/-!
# Lines and windows

Fitting a text into a rectangle of columns and lines: the longest beginning that fits
(`truncate`), the lines of a text (`lines`), lines broken where the next character would not fit
(`wrap`), and the window of wrapped lines that a viewport shows (`viewport`). Widths are integers,
so that a width below one is a case like any other.
-/

namespace HostScript.Text

-- the natural number zero means the same whatever else is imported
attribute [local instance (2000)] Zero.ofOfNat0

/-- The columns that a text takes. -/
def width (t : Text) : Nat := (t.map CodePoint.width).sum

@[simp] theorem width_nil : width [] = 0 := rfl

@[simp] theorem width_cons (c : CodePoint) (t : Text) : width (c :: t) = c.width + width t := rfl

@[simp] theorem width_append (s t : Text) : width (s ++ t) = width s + width t := by
  simp [width]

/-! ## The longest beginning that fits -/

/-- The longest beginning that fits into what is left of `limit` columns after `used`. -/
def truncateAfter (limit : Int) (used : Nat) : Text → Text
  | [] => []
  | c :: rest =>
    if limit < (used + c.width : Nat) then [] else c :: truncateAfter limit (used + c.width) rest

/-- The longest beginning of a text that takes at most `limit` columns. -/
def truncate (limit : Int) (t : Text) : Text := truncateAfter limit 0 t

/-! ## Lines -/

/-- A line without one carriage return at its end. -/
def dropReturn (line : Text) : Text :=
  if line.getLast? = some (.scalar '\r') then line.dropLast else line

/-- The lines of a text. A line ends with a line feed, and a carriage return before that belongs
to the line end; nothing after the last line feed makes no line. -/
def lines (t : Text) : List Text :=
  let parts := splitOn (.scalar '\n') t
  (if parts.getLast? = some [] then parts.dropLast else parts).map dropReturn

/-! ## Wrapping -/

/-- Breaks a line that goes on after `current`, which takes `used` columns: a piece ends where the
next character does not fit, and a character wider than a line is a piece of its own. -/
def wrapAfter (limit : Int) (current : Text) (used : Nat) : Text → List Text
  | [] => if current.isEmpty then [] else [current]
  | c :: rest =>
    if limit < c.width then
      (if current.isEmpty then [] else [current]) ++ [c] :: wrapAfter limit [] 0 rest
    else if limit < (used + c.width : Nat) then
      current :: wrapAfter limit [c] c.width rest
    else
      wrapAfter limit (current ++ [c]) (used + c.width) rest

/-- The pieces of a line. An empty line is one empty piece. -/
def wrapLine (limit : Int) (line : Text) : List Text :=
  if line.isEmpty then [[]] else wrapAfter limit [] 0 line

/-- The lines of a text, each broken into pieces of at most `limit` columns. -/
def wrap (limit : Int) (t : Text) : List Text :=
  if limit ≤ 0 then [] else (lines t).flatMap (wrapLine limit)

/-! ## Windows -/

/-- The last `n` elements of a list. -/
def takeLast (n : Nat) (xs : List Text) : List Text := xs.drop (xs.length - n)

/-- The lines of a window of the given height. A scroll from zero on skips that many lines from the
top; a scroll below zero leaves out one line fewer than its size at the bottom. -/
def window (height : Nat) (scroll : Int) (rows : List Text) : List Text :=
  if 0 ≤ scroll then (rows.drop scroll.toNat).take height
  else takeLast height (rows.take (rows.length - (-scroll - 1).toNat))

/-- The text that a viewport of the given size shows. -/
def viewport (width height scroll : Int) (t : Text) : Text :=
  if width ≤ 0 ∨ height ≤ 0 then []
  else join [.scalar '\n'] (window height.toNat scroll (wrap width t))

end HostScript.Text
