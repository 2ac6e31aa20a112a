import HostScript.Library.Containers

/-!
# Indexes and the functions of the library

An index tests a position, words the error of a number that is none, and reads or writes a member;
so do `arrayGet`, `arraySet`, `tableGet` and `tableSet`, each on its own. They do the same for every
number, whether it is finite or not, for every key and for every heap.
-/

namespace HostScript.Heap

/-- A number is an index of an array and a string is one of a table. Everything else is an error,
whatever the heap is, and changes nothing. -/
theorem access_cases (target i : Value) :
    (∃ id x, target = .array id ∧ i = .number x) ∨
    (∃ id key, target = .table id ∧ i = .string key) ∨
    ∃ unread unwritten, ∀ h : Heap, h.index target i = .error unread ∧
      ∀ v, h.assignIndex target i v = (.error unwritten, h) := by
  cases target with
  | array id =>
    cases i with
    | number x => exact .inl ⟨id, x, rfl, rfl⟩
    | _ => exact .inr (.inr ⟨_, _, fun h => ⟨rfl, fun v => rfl⟩⟩)
  | table id =>
    cases i with
    | string key => exact .inr (.inl ⟨id, key, rfl, rfl⟩)
    | _ => exact .inr (.inr ⟨_, _, fun h => ⟨rfl, fun v => rfl⟩⟩)
  | _ => exact .inr (.inr ⟨_, _, fun h => ⟨rfl, fun v => rfl⟩⟩)

variable (h : Heap)

/-- An index reads the element that the function of the library reads. -/
theorem index_array (id : ArrayId) (x : Float) :
    h.index (.array id) (.number x) = h.arrayGet id x := by
  simp only [index, arrayGet, Value.outOfBounds]
  cases Number.position? x with
  | none => rfl
  | some i =>
    by_cases hi : i < (h.array id).size
    · simp only [dif_pos hi, dif_neg (Nat.not_le.mpr hi)]
    · simp only [dif_neg hi, dif_pos (Nat.not_lt.mp hi)]

/-- An assignment to an index writes the element that the function of the library writes. -/
theorem assignIndex_array (id : ArrayId) (x : Float) (v : Value) :
    h.assignIndex (.array id) (.number x) v = h.arraySet id x v := by
  simp only [assignIndex, arraySet, Value.outOfBounds]
  cases Number.position? x with
  | none => rfl
  | some i =>
    by_cases hi : i < (h.array id).size
    · simp only [if_pos hi, if_neg (Nat.not_le.mpr hi), Array.set!_eq_setIfInBounds]
    · simp only [if_neg hi, if_pos (Nat.not_lt.mp hi)]

/-- A key reads the value that the function of the library reads. -/
theorem index_table (id : TableId) (key : Text) :
    h.index (.table id) (.string key) = h.tableGet id key := by
  simp only [index, tableGet]
  cases (h.table id).get? key with
  | none => rfl
  | some v => rfl

/-- An assignment to a key writes the value that the function of the library writes. -/
theorem assignIndex_table (id : TableId) (key : Text) (v : Value) :
    h.assignIndex (.table id) (.string key) v = (.null, h.tableSet id key v) := rfl

end HostScript.Heap
