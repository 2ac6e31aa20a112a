import HostScript.Number.Decimal
import HostScript.Number.Exact
import HostScript.Text.Printable
import HostScript.Value.Heap

/-!
# The display form of values

What `print` and `toString` make of a value. Composites are written out member by member; a
reference back to a composite that is being written is cut short, so the text is finite in every
heap. `active` holds the composites that are being written. Nesting is bounded: where the bound is
reached there is no text.
-/

namespace HostScript

/-- The display form of a number: an integer in full, any other number by its shortest decimal. -/
def Number.display (x : Float) : Text :=
  if x.isNaN then "NaN"
  else if Number.isInteger x then Text.ofInt ((Number.truncate? x).getD 0)
  else Number.text x

/-- What stands for a composite inside itself. -/
def Composite.cut : Composite → Text
  | .array _ => "[...]"
  | .table _ => "\x7b...\x7d"

namespace Value

/-- The display form of a value without members. -/
def displayAtom : Value → Text
  | null => "null"
  | boolean b => if b then "true" else "false"
  | number x => Number.display x
  | string t => t
  | error message => "error: " ++ message
  | function f => f.display
  | array _ => "[]"
  | table _ => "\x7b\x7d"

/-- The display form of an entry of a table. -/
def displayEntry (display : Value → Option Text) (entry : Text × Value) : Option Text :=
  (display entry.2).map fun value => entry.1 ++ ": " ++ value

/-- The display form of a value inside the composites `active`. -/
def displayIn (h : Heap) : (depth : Nat) → (active : List Composite) → Value → Option Text
  | 0, _, array _ => none
  | 0, _, table _ => none
  | depth + 1, active, array id =>
    if active.contains (.array id) then some (Composite.cut (.array id))
    else do
      let items ← (h.array id).toList.mapM (displayIn h depth (.array id :: active))
      return "[" ++ Text.join ", " items ++ "]"
  | depth + 1, active, table id =>
    if active.contains (.table id) then some (Composite.cut (.table id))
    else do
      let entries ←
        (h.table id).entries.mapM (displayEntry (displayIn h depth (.table id :: active)))
      return "\x7b" ++ Text.join ", " entries ++ "\x7d"
  | _, _, value => some value.displayAtom

/-- The display form of a value, unless it is nested too deeply. -/
def display (h : Heap) (depth : Nat) (v : Value) : Option Text := v.displayIn h depth []

/-- The form of a value in listings, which tells strings from other values. -/
def inspect (h : Heap) (depth : Nat) : Value → Option Text
  | null => some "None"
  | boolean b => some (if b then "True" else "False")
  | number x => some (Number.text x)
  | string t => some t.quoted
  | error message => some ("Error(" ++ message.quoted ++ ")")
  | function (.native f) => some ("<native " ++ f.name ++ ">")
  | function (.closure c) =>
    some ("<fn " ++ c.name.getD [] ++ "(" ++ Text.join ", " c.parameters ++ ")>")
  | array id => display h depth (array id)
  | table id => display h depth (table id)

end Value

end HostScript
