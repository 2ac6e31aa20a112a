import HostScript.Json.Basic
import HostScript.Value.Heap

/-!
# Values and documents

Turning a value into a JSON document (`Value.document`) and loading a document into a heap
(`Heap.load`). A composite inside itself has no document; one that is merely shared is written out
wherever it occurs. All composites that loading makes are new.
-/

namespace HostScript

/-- Why a value has no document. -/
inductive DocumentFault
  | selfReference
  | tooDeep
deriving DecidableEq

namespace Value

/-- The document of a value without members. Errors become objects, functions strings. -/
def documentOfAtom : Value → Json
  | null => .null
  | boolean b => .boolean b
  | number x => .number x
  | string t => .string t
  | error message => .object [("error", .string message)]
  | function f => .string f.display
  | array _ => .array []
  | table _ => .object []

/-- The document of an entry of a table. -/
def documentEntry (document : Value → Except DocumentFault Json) (entry : Text × Value) :
    Except DocumentFault (Text × Json) :=
  (document entry.2).map (entry.1, ·)

/-- The document of a value inside the composites `active`. -/
def documentIn (h : Heap) :
    (depth : Nat) → (active : List Composite) → Value → Except DocumentFault Json
  | 0, _, array _ => .error .tooDeep
  | 0, _, table _ => .error .tooDeep
  | depth + 1, active, array id =>
    if active.contains (.array id) then .error .selfReference
    else do
      return .array (← (h.array id).toList.mapM (documentIn h depth (.array id :: active)))
  | depth + 1, active, table id =>
    if active.contains (.table id) then .error .selfReference
    else do
      return .object
        (← (h.table id).entries.mapM (documentEntry (documentIn h depth (.table id :: active))))
  | _, _, value => .ok value.documentOfAtom

/-- The document of a value. -/
def document (h : Heap) (depth : Nat) (v : Value) : Except DocumentFault Json :=
  v.documentIn h depth []

end Value

namespace Heap

mutual

/-- Loads a document as a value. Integers become numbers, infinite ones if they are out of range. -/
def load (h : Heap) : Json → Value × Heap
  | .null => (.null, h)
  | .boolean b => (.boolean b, h)
  | .integer n => (.number (Float.ofInt n), h)
  | .number x => (.number x, h)
  | .string t => (.string t, h)
  | .array items =>
    let (values, h) := h.loadItems items
    let (id, h) := h.newArray values.toArray
    (.array id, h)
  | .object members =>
    let (entries, h) := h.loadMembers members
    let (id, h) := h.newTable (.ofList entries)
    (.table id, h)

/-- Loads the items of an array. -/
def loadItems (h : Heap) : List Json → List Value × Heap
  | [] => ([], h)
  | item :: rest =>
    let (value, h) := h.load item
    let (values, h) := h.loadItems rest
    (value :: values, h)

/-- Loads the members of an object. -/
def loadMembers (h : Heap) : List (Text × Json) → List (Text × Value) × Heap
  | [] => ([], h)
  | (key, item) :: rest =>
    let (value, h) := h.load item
    let (entries, h) := h.loadMembers rest
    ((key, value) :: entries, h)

end

end Heap

end HostScript
