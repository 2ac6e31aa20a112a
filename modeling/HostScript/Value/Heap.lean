import HostScript.Value.Basic

/-!
# The heap

The arrays and tables of an interpreter. They are only ever added; a place that was handed out keeps
its array or table for good. `modifyArray` and `modifyTable` change one of them and nothing else.
-/

namespace HostScript

/-- All arrays and tables. -/
structure Heap where
  arrays : Array (Array Value)
  tables : Array (Dict Value)

/-- The place of an array or a table. -/
inductive Composite
  | array (id : ArrayId)
  | table (id : TableId)
deriving DecidableEq

namespace Heap

/-- The heap without arrays and tables. -/
def empty : Heap := ⟨#[], #[]⟩

instance : Inhabited Heap := ⟨empty⟩

/-- The elements of an array. -/
def array (h : Heap) (id : ArrayId) : Array Value := h.arrays[id]?.getD #[]

/-- The entries of a table. -/
def table (h : Heap) (id : TableId) : Dict Value := h.tables[id]?.getD .empty

/-- Adds an array. -/
def newArray (h : Heap) (items : Array Value) : ArrayId × Heap :=
  (h.arrays.size, { h with arrays := h.arrays.push items })

/-- Adds a table. -/
def newTable (h : Heap) (entries : Dict Value) : TableId × Heap :=
  (h.tables.size, { h with tables := h.tables.push entries })

/-- Changes the elements of an array. -/
def modifyArray (h : Heap) (id : ArrayId) (f : Array Value → Array Value) : Heap :=
  { h with arrays := h.arrays.modify id f }

/-- Changes the entries of a table. -/
def modifyTable (h : Heap) (id : TableId) (f : Dict Value → Dict Value) : Heap :=
  { h with tables := h.tables.modify id f }

@[simp] theorem table_newArray (h : Heap) (items : Array Value) (id : TableId) :
    (h.newArray items).2.table id = h.table id := rfl

@[simp] theorem array_newTable (h : Heap) (entries : Dict Value) (id : ArrayId) :
    (h.newTable entries).2.array id = h.array id := rfl

@[simp] theorem table_modifyArray (h : Heap) (changed : ArrayId) (f : Array Value → Array Value)
    (id : TableId) : (h.modifyArray changed f).table id = h.table id := rfl

@[simp] theorem array_modifyTable (h : Heap) (changed : TableId) (f : Dict Value → Dict Value)
    (id : ArrayId) : (h.modifyTable changed f).array id = h.array id := rfl

theorem array_newArray (h : Heap) (items : Array Value) (id : ArrayId) :
    (h.newArray items).2.array id = if id = h.arrays.size then items else h.array id := by
  simp only [newArray, array, Array.getElem?_push]
  split <;> rfl

theorem table_newTable (h : Heap) (entries : Dict Value) (id : TableId) :
    (h.newTable entries).2.table id = if id = h.tables.size then entries else h.table id := by
  simp only [newTable, table, Array.getElem?_push]
  split <;> rfl

theorem array_modifyArray (h : Heap) (changed : ArrayId) (f : Array Value → Array Value)
    (id : ArrayId) :
    (h.modifyArray changed f).array id =
      if id = changed ∧ changed < h.arrays.size then f (h.array changed) else h.array id := by
  simp only [modifyArray, array, Array.getElem?_modify]
  by_cases hid : id = changed
  · subst hid
    by_cases hb : id < h.arrays.size <;> simp [hb]
  · simp [hid, Ne.symm hid]

theorem table_modifyTable (h : Heap) (changed : TableId) (f : Dict Value → Dict Value)
    (id : TableId) :
    (h.modifyTable changed f).table id =
      if id = changed ∧ changed < h.tables.size then f (h.table changed) else h.table id := by
  simp only [modifyTable, table, Array.getElem?_modify]
  by_cases hid : id = changed
  · subst hid
    by_cases hb : id < h.tables.size <;> simp [hb]
  · simp [hid, Ne.symm hid]

/-- The values that an array or a table holds, in order. -/
def members (h : Heap) : Composite → List Value
  | .array id => (h.array id).toList
  | .table id => (h.table id).entries.map (·.2)

end Heap

end HostScript
