import HostScript.Value.Display

/-!
# Indexes of arrays and tables

What an index reads and writes. A number is a position of an array if it is finite and its integral
part, rounded toward zero, is a position. What cannot be done gives an error value and changes
nothing.
-/

namespace HostScript

/-- The position that a number stands for, if it stands for any. -/
def Number.position? (x : Float) : Option Nat :=
  match Number.truncate? x with
  | some n => if n < 0 then none else some n.toNat
  | none => none

namespace Heap

/-- The member of a value at an index. -/
def index (h : Heap) (target index : Value) : Value :=
  match target, index with
  | .array id, .number x =>
    let items := h.array id
    let missing : Value := .error ("index " ++ Number.display x
      ++ " out of bounds for array of length " ++ Text.ofNat items.size)
    match Number.position? x with
    | none => missing
    | some i => if beyond : items.size ≤ i then missing else items[i]
  | .array _, i => .error ("array index must be a number, got " ++ Text.ofString i.kindName)
  | .table id, .string key =>
    match (h.table id).get? key with
    | some v => v
    | none => .null
  | .table _, i => .error ("table key must be a string, got " ++ Text.ofString i.kindName)
  | v, _ => .error ("cannot index into " ++ Text.ofString v.kindName)

/-- Writes the member of a value at an index. -/
def assignIndex (h : Heap) (target index v : Value) : Value × Heap :=
  match target, index with
  | .array id, .number x =>
    let length := (h.array id).size
    let missing : Value := .error ("index " ++ Number.display x
      ++ " out of bounds for array of length " ++ Text.ofNat length)
    match Number.position? x with
    | none => (missing, h)
    | some i =>
      if length ≤ i then (missing, h)
      else (.null, h.modifyArray id fun items => items.set! i v)
  | .array _, i => (.error ("array index must be a number, got " ++ Text.ofString i.kindName), h)
  | .table id, .string key => (.null, h.modifyTable id fun entries => entries.put key v)
  | .table _, i => (.error ("table key must be a string, got " ++ Text.ofString i.kindName), h)
  | t, _ => (.error ("cannot assign an index on " ++ Text.ofString t.kindName), h)

end Heap

end HostScript
