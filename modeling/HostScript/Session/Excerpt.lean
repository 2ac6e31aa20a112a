import HostScript.Syntax.Token
import HostScript.Text.Utf8

/-!
# Excerpts

The lines of a source around a span, with a caret under the place where the span starts. Spans count
bytes and the caret counts characters, so the column is found by reading the bytes between the start
of the line and the start of the span.
-/

namespace HostScript

namespace Excerpt

/-- How many lines are shown before and after the one that is marked. -/
def radius : Nat := 2

/-- The lines of a source as an excerpt counts them: parts between line feeds. -/
def lines (source : Text) : List Text := Text.splitOn (.scalar '\n') source

/-- The bytes of a line before a place among the bytes of a source. -/
def lineBefore (bytes : Bytes) (place : Nat) : Bytes :=
  ((bytes.take place).reverse.takeWhile (· ≠ 0x0A)).reverse

/-- The number of characters between the start of a line and a place, both given in bytes. -/
def column (bytes : Bytes) (place : Nat) : Nat :=
  (Utf8.decodeLossy (lineBefore bytes place)).length

/-- A line of an excerpt, with its number on the given width. -/
def line (width number : Nat) (marked : Bool) (t : Text) : Text :=
  (if marked then ">" else " ") ++ " " ++ Text.padLeft width (Text.ofNat number) ++ " | "
    ++ Text.dropEndWhile (· = .scalar '\r') t

/-- The line with the caret. -/
def caret (width column : Nat) : Text :=
  "  " ++ Text.replicate width ' ' ++ " | " ++ Text.replicate column ' ' ++ "^"

/-- The rows of an excerpt: the given lines, of which the first has the number `first`, and the
caret below the marked one. -/
def rows (width marked column first : Nat) : List Text → List Text
  | [] => []
  | t :: rest =>
    let shown := line width first (first = marked) t
    if first = marked then shown :: caret width column :: rows width marked column (first + 1) rest
    else shown :: rows width marked column (first + 1) rest

end Excerpt

/-- The excerpt of a source for a span, with line feeds between its rows. There is none if the
source has no such line. -/
def excerpt (source : Text) (span : Span) : Except Utf8.EncodeFault (Option Text) :=
  let all := Excerpt.lines source
  if span.line < 1 ∨ all.length < span.line then .ok none
  else do
    let bytes ← Utf8.encode source
    let first := max 1 (span.line - Excerpt.radius)
    let last := min all.length (span.line + Excerpt.radius)
    let width := (Text.ofNat last).length
    let shown := (all.drop (first - 1)).take (last + 1 - first)
    return some (Text.join "\n"
      (Excerpt.rows width span.line (Excerpt.column bytes span.startByte) first shown))

end HostScript
