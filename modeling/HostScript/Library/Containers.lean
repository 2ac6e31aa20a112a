import HostScript.Value.Access

/-!
# Arrays and tables of the standard library

The functions on arrays and on tables. Each answers with a value and the heap after it, if it may
change the heap; an error value means that nothing was changed. Merging tables never changes what a
table already has.
-/

namespace HostScript

/-- The error of a number that is no position of an array. -/
def Value.outOfBounds (x : Float) (length : Nat) : Value :=
  .error ("index " ++ Number.display x ++ " out of bounds for array of length "
    ++ Text.ofNat length)

namespace Heap

/-! ## Arrays -/

/-- A new array with the given elements. -/
def createArray (h : Heap) (items : List Value) : Value × Heap :=
  let (id, h) := h.newArray items.toArray
  (.array id, h)

/-- The number of elements. -/
def arrayLen (h : Heap) (id : ArrayId) : Value := .number (Float.ofNat (h.array id).size)

/-- The element of an array at a number. -/
def arrayGet (h : Heap) (id : ArrayId) (x : Float) : Value :=
  let items := h.array id
  match Number.position? x with
  | some i => if bound : i < items.size then items[i] else Value.outOfBounds x items.size
  | none => Value.outOfBounds x items.size

/-- Writes the element of an array at a number. -/
def arraySet (h : Heap) (id : ArrayId) (x : Float) (v : Value) : Value × Heap :=
  let items := h.array id
  match Number.position? x with
  | some i =>
    if i < items.size then (.null, h.modifyArray id (·.setIfInBounds i v))
    else (Value.outOfBounds x items.size, h)
  | none => (Value.outOfBounds x items.size, h)

/-- Adds an element behind all others. -/
def arrayPushBack (h : Heap) (id : ArrayId) (v : Value) : Value × Heap :=
  (.null, h.modifyArray id (·.push v))

/-- Takes out the last element. -/
def arrayPopBack (h : Heap) (id : ArrayId) : Value × Heap :=
  match (h.array id).back? with
  | some v => (v, h.modifyArray id (·.pop))
  | none => (.error "array is empty", h)

/-- Puts an element in front of the one at a number, or behind all others at the length. -/
def arrayInsert (h : Heap) (id : ArrayId) (x : Float) (v : Value) : Value × Heap :=
  let items := h.array id
  match Number.position? x with
  | some i =>
    if i ≤ items.size then (.null, h.modifyArray id (·.insertIdxIfInBounds i v))
    else (Value.outOfBounds x items.size, h)
  | none => (Value.outOfBounds x items.size, h)

/-- Takes out the element at a number. -/
def arrayRemove (h : Heap) (id : ArrayId) (x : Float) : Value × Heap :=
  let items := h.array id
  match Number.position? x with
  | some i =>
    if bound : i < items.size then (items[i], h.modifyArray id (·.eraseIdxIfInBounds i))
    else (Value.outOfBounds x items.size, h)
  | none => (Value.outOfBounds x items.size, h)

/-! ## Tables -/

/-- A new table without entries. -/
def createTable (h : Heap) : Value × Heap :=
  let (id, h) := h.newTable .empty
  (.table id, h)

/-- Writes the value of a table under a key. -/
def tableSet (h : Heap) (id : TableId) (key : Text) (v : Value) : Heap :=
  h.modifyTable id (·.put key v)

/-- The value of a table under a key. A key that is not there has the value null. -/
def tableGet (h : Heap) (id : TableId) (key : Text) : Value := ((h.table id).get? key).getD .null

/-- A new array of the keys of a table, in their order. -/
def tableKeys (h : Heap) (id : TableId) : Value × Heap :=
  let (keys, h) := h.newArray ((h.table id).keys.map .string).toArray
  (.array keys, h)

/-- Adds the entries of `source` whose keys `destination` lacks. -/
def tableMerge (h : Heap) (destination source : TableId) : Value × Heap :=
  (.null, h.modifyTable destination (·.merge (h.table source)))

end Heap

end HostScript
