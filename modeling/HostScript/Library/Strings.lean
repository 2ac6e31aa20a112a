import HostScript.Number.Exact
import HostScript.Text.Layout
import HostScript.Text.LowerCase
import HostScript.Value.Heap

/-!
# Strings and numbers of the standard library

The functions on strings that need no state, and rounding. Widths, heights and scroll positions
given as numbers are rounded toward zero.
-/

namespace HostScript

namespace Heap

/-- A new array of the lines of a text. -/
def splitLines (h : Heap) (t : Text) : Value × Heap :=
  let (id, h) := h.newArray (t.lines.map .string).toArray
  (.array id, h)

end Heap

namespace Value

/-- The longest beginning of a text that fits into a width. -/
def truncated (t : Text) (width : Float) : Value :=
  match Number.truncate? width with
  | some limit => .string (t.truncate limit)
  | none =>
    if width.isNaN then .error "stringTruncateToWidth: width is NaN"
    else if 0 < width then .string t
    else .string []

/-- The part of a text that a viewport shows. -/
def rendered (t : Text) (width height scroll : Float) : Value :=
  match Number.truncate? width, Number.truncate? height, Number.truncate? scroll with
  | some w, some h, some s => .string (t.viewport w h s)
  | _, _, _ => .error "renderViewport: width, height and scroll must be finite"

/-- The largest integer that is not above a number; a number that is not finite stays. -/
def floored (x : Float) : Value :=
  match Number.floor? x with
  | some n => .number (Float.ofInt n)
  | none => .number x

end Value

end HostScript
