import HostScript.Library.Call
import HostScript.Proofs.Run.Places
import HostScript.Proofs.Value.Access

/-!
# Heaps without dangling references

A heap is closed if the arrays and tables that its members refer to are there, and so are the scopes.
Each operation on arrays and tables that is given values of this kind leaves a closed heap in which
nothing is gone (`Heap.Grown`), and answers with such a value.
-/

namespace HostScript

/-! ## What is there -/

/-- The bounds of all that is there, where there are so many scopes. -/
def Heap.extent (h : Heap) (scopes : Nat) : Bounds where
  place
    | .scope id => id < scopes
    | .composite c => h.Has c
  span _ := True
  code _ := True

/-- Members refer to nothing that is not there. -/
def Heap.Closed (h : Heap) (scopes : Nat) : Prop :=
  ∀ c, ∀ v ∈ h.members c, v.Within (h.extent scopes)

/-- A closed heap in which everything is there that was there before. -/
structure Heap.Grown (scopes : Nat) (h h' : Heap) : Prop where
  has : ∀ c, h.Has c → h'.Has c
  closed : h'.Closed scopes

theorem Env.Within.mono {b b' : Bounds} {e : Env} (he : e.Within b)
    (hp : ∀ p, b.place p → b'.place p) : e.Within b' :=
  fun id hid => hp _ (he id hid)

/-- A value stays within bounds that get wider. -/
theorem Value.Within.mono {b b' : Bounds} {v : Value} (hv : v.Within b)
    (hp : ∀ p, b.place p → b'.place p) (hc : ∀ c, b'.code c) : v.Within b' := by
  cases v with
  | array id => exact hp _ hv
  | table id => exact hp _ hv
  | function f =>
    cases f with
    | native f => trivial
    | closure c => exact ⟨hv.1.mono hp, hc c⟩
  | _ => trivial

namespace Heap

variable {n : Nat} {h h' : Heap}

/-- What was there before is still there. -/
theorem Grown.within (hg : h.Grown n h') {v : Value} (hv : v.Within (h.extent n)) :
    v.Within (h'.extent n) := by
  refine hv.mono (fun p hp => ?_) fun _ => trivial
  cases p with
  | scope id => exact hp
  | composite c => exact hg.has c hp

theorem Grown.trans {h'' : Heap} (hg : h.Grown n h') (hg' : h'.Grown n h'') : h.Grown n h'' :=
  ⟨fun c hc => hg'.has c (hg.has c hc), hg'.closed⟩

namespace Closed

theorem grown (hc : h.Closed n) : h.Grown n h := ⟨fun _ hd => hd, hc⟩

theorem within_of_mem_array (hc : h.Closed n) {id : ArrayId} {v : Value} (hv : v ∈ h.array id) :
    v.Within (h.extent n) :=
  hc (.array id) v (by simpa [Heap.members] using hv)

theorem within_of_mem_table (hc : h.Closed n) {id : TableId} {entry : Text × Value}
    (he : entry ∈ (h.table id).entries) : entry.2.Within (h.extent n) :=
  hc (.table id) entry.2 (List.mem_map.mpr ⟨entry, he, rfl⟩)

/-- A heap stays closed if only one array or table changes or comes in, and holds values that refer
to what is there. -/
theorem changedAt (hc : h.Closed n) (c : Composite) (hhas : ∀ d, h.Has d → h'.Has d)
    (hother : ∀ d, d ≠ c → h.SameAt h' d) (hm : ∀ v ∈ h'.members c, v.Within (h.extent n)) :
    h.Grown n h' := by
  have hlater (v : Value) (hv : v.Within (h.extent n)) : v.Within (h'.extent n) := by
    refine hv.mono (fun p hp => ?_) fun _ => trivial
    cases p with
    | scope id => exact hp
    | composite c => exact hhas c hp
  refine ⟨hhas, fun d v hv => ?_⟩
  by_cases hdc : d = c
  · subst hdc
    exact hlater v (hm v hv)
  · rw [members_eq_of_sameAt (hother d hdc)] at hv
    exact hlater v (hc d v hv)

theorem newArray (hc : h.Closed n) {items : Array Value}
    (hi : ∀ v ∈ items, v.Within (h.extent n)) :
    h.Grown n (h.newArray items).2 ∧
      (Value.array (h.newArray items).1).Within ((h.newArray items).2.extent n) := by
  refine ⟨hc.changedAt (.array h.arrays.size) (fun d hd => ?_) (fun d hd => ?_) fun v hv => ?_, ?_⟩
  · cases d with
    | array id => simpa [Has, Heap.newArray] using Nat.lt_succ_of_lt hd
    | table id => exact hd
  · cases d with
    | array id =>
      have hne : id ≠ h.arrays.size := fun heq => hd (heq ▸ rfl)
      simp [SameAt, array_newArray, hne]
    | table id => rfl
  · exact hi v (by simpa [Heap.members, array_newArray] using hv)
  · simp [Value.Within, extent, Has, Heap.newArray]

theorem newTable (hc : h.Closed n) {entries : Dict Value}
    (he : ∀ entry ∈ entries.entries, entry.2.Within (h.extent n)) :
    h.Grown n (h.newTable entries).2 ∧
      (Value.table (h.newTable entries).1).Within ((h.newTable entries).2.extent n) := by
  refine ⟨hc.changedAt (.table h.tables.size) (fun d hd => ?_) (fun d hd => ?_) fun v hv => ?_, ?_⟩
  · cases d with
    | array id => exact hd
    | table id => simpa [Has, Heap.newTable] using Nat.lt_succ_of_lt hd
  · cases d with
    | array id => rfl
    | table id =>
      have hne : id ≠ h.tables.size := fun heq => hd (heq ▸ rfl)
      simp [SameAt, table_newTable, hne]
  · simp only [Heap.members, table_newTable, if_true, List.mem_map] at hv
    obtain ⟨entry, hentry, rfl⟩ := hv
    exact he entry hentry
  · simp [Value.Within, extent, Has, Heap.newTable]

theorem modifyArray (hc : h.Closed n) (id : ArrayId) {f : Array Value → Array Value}
    (hf : ∀ v ∈ f (h.array id), v ∈ h.array id ∨ v.Within (h.extent n)) :
    h.Grown n (h.modifyArray id f) := by
  refine hc.changedAt (.array id) (fun d hd => ?_) (fun d hd => ?_) fun v hv => ?_
  · cases d with
    | array other => simpa [Has, Heap.modifyArray] using hd
    | table other => exact hd
  · cases d with
    | array other =>
      have hne : other ≠ id := fun heq => hd (heq ▸ rfl)
      simp [SameAt, array_modifyArray, hne]
    | table other => rfl
  · simp only [Heap.members, array_modifyArray, true_and, Array.mem_toList_iff] at hv
    split at hv
    · rcases hf v hv with hold | hnew
      · exact hc.within_of_mem_array hold
      · exact hnew
    · exact hc.within_of_mem_array hv

theorem modifyTable (hc : h.Closed n) (id : TableId) {f : Dict Value → Dict Value}
    (hf : ∀ entry ∈ (f (h.table id)).entries, entry.2.Within (h.extent n)) :
    h.Grown n (h.modifyTable id f) := by
  refine hc.changedAt (.table id) (fun d hd => ?_) (fun d hd => ?_) fun v hv => ?_
  · cases d with
    | array other => exact hd
    | table other => simpa [Has, Heap.modifyTable] using hd
  · cases d with
    | array other => rfl
    | table other =>
      have hne : other ≠ id := fun heq => hd (heq ▸ rfl)
      simp [SameAt, table_modifyTable, hne]
  · simp only [Heap.members, table_modifyTable, true_and, List.mem_map] at hv
    obtain ⟨entry, hentry, rfl⟩ := hv
    split at hentry
    · exact hf entry hentry
    · exact hc.within_of_mem_table hentry

/-! ## Access -/

theorem arrayGet (hc : h.Closed n) (id : ArrayId) (x : Float) :
    (h.arrayGet id x).Within (h.extent n) := by
  simp only [Heap.arrayGet]
  split
  · split
    · exact hc.within_of_mem_array (Array.getElem_mem _)
    · trivial
  · trivial

theorem tableGet (hc : h.Closed n) (id : TableId) (key : Text) :
    (h.tableGet id key).Within (h.extent n) := by
  simp only [Heap.tableGet]
  cases hv : (h.table id).get? key with
  | none => trivial
  | some v => exact hc.within_of_mem_table (Dict.mem_of_get? hv)

theorem index (hc : h.Closed n) (target index : Value) :
    (h.index target index).Within (h.extent n) := by
  rcases Heap.access_cases target index with
    ⟨id, x, rfl, rfl⟩ | ⟨id, key, rfl, rfl⟩ | ⟨_, _, hfails⟩
  · rw [h.index_array]
    exact hc.arrayGet id x
  · rw [h.index_table]
    exact hc.tableGet id key
  · rw [(hfails h).1]
    trivial

theorem arraySet (hc : h.Closed n) (id : ArrayId) (x : Float) {v : Value}
    (hv : v.Within (h.extent n)) :
    h.Grown n (h.arraySet id x v).2 ∧
      (h.arraySet id x v).1.Within ((h.arraySet id x v).2.extent n) := by
  simp only [Heap.arraySet]
  split
  · split
    · refine ⟨hc.modifyArray id fun u hu => ?_, trivial⟩
      rcases Array.mem_or_eq_of_mem_setIfInBounds hu with hu | rfl
      · exact .inl hu
      · exact .inr hv
    · exact ⟨hc.grown, trivial⟩
  · exact ⟨hc.grown, trivial⟩

theorem tableSet (hc : h.Closed n) (id : TableId) (key : Text) {v : Value}
    (hv : v.Within (h.extent n)) : h.Grown n (h.tableSet id key v) := by
  refine hc.modifyTable id fun entry he => ?_
  rcases Dict.mem_put he with rfl | he
  · exact hv
  · exact hc.within_of_mem_table he

theorem assignIndex (hc : h.Closed n) (target index : Value) {v : Value}
    (hv : v.Within (h.extent n)) : h.Grown n (h.assignIndex target index v).2 := by
  rcases Heap.access_cases target index with
    ⟨id, x, rfl, rfl⟩ | ⟨id, key, rfl, rfl⟩ | ⟨_, _, hfails⟩
  · rw [h.assignIndex_array]
    exact (hc.arraySet id x hv).1
  · rw [h.assignIndex_table]
    exact hc.tableSet id key hv
  · rw [(hfails h).2]
    exact hc.grown

/-! ## The library -/

theorem createArray (hc : h.Closed n) {items : List Value}
    (hi : ∀ v ∈ items, v.Within (h.extent n)) :
    h.Grown n (h.createArray items).2 ∧
      (h.createArray items).1.Within ((h.createArray items).2.extent n) :=
  hc.newArray fun v hv => hi v (by simpa using hv)

theorem arrayPushBack (hc : h.Closed n) (id : ArrayId) {v : Value} (hv : v.Within (h.extent n)) :
    h.Grown n (h.arrayPushBack id v).2 := by
  refine hc.modifyArray id fun u hu => ?_
  rcases Array.mem_push.mp hu with hu | rfl
  · exact .inl hu
  · exact .inr hv

theorem arrayPopBack (hc : h.Closed n) (id : ArrayId) :
    h.Grown n (h.arrayPopBack id).2 ∧
      (h.arrayPopBack id).1.Within ((h.arrayPopBack id).2.extent n) := by
  simp only [Heap.arrayPopBack]
  split
  · next v hv =>
    have hgrown : h.Grown n (h.modifyArray id (·.pop)) := by
      refine hc.modifyArray id fun u hu => .inl ?_
      rw [← Array.mem_toList_iff, Array.toList_pop] at hu
      exact Array.mem_toList_iff.mp (List.dropLast_subset _ hu)
    exact ⟨hgrown, hgrown.within (hc.within_of_mem_array (Array.mem_of_back? hv))⟩
  · exact ⟨hc.grown, trivial⟩

theorem arrayInsert (hc : h.Closed n) (id : ArrayId) (x : Float) {v : Value}
    (hv : v.Within (h.extent n)) :
    h.Grown n (h.arrayInsert id x v).2 ∧
      (h.arrayInsert id x v).1.Within ((h.arrayInsert id x v).2.extent n) := by
  simp only [Heap.arrayInsert]
  split
  · next i _ =>
    split
    · next hi =>
      refine ⟨hc.modifyArray id fun u hu => ?_, trivial⟩
      rw [Array.insertIdxIfInBounds, dif_pos hi] at hu
      rcases Array.mem_insertIdx.mp hu with rfl | hu
      · exact .inr hv
      · exact .inl hu
    · exact ⟨hc.grown, trivial⟩
  · exact ⟨hc.grown, trivial⟩

theorem arrayRemove (hc : h.Closed n) (id : ArrayId) (x : Float) :
    h.Grown n (h.arrayRemove id x).2 ∧
      (h.arrayRemove id x).1.Within ((h.arrayRemove id x).2.extent n) := by
  simp only [Heap.arrayRemove]
  split
  · next i _ =>
    split
    · next hi =>
      have hgrown : h.Grown n (h.modifyArray id (·.eraseIdxIfInBounds i)) := by
        refine hc.modifyArray id fun u hu => .inl ?_
        rw [Array.eraseIdxIfInBounds, dif_pos hi] at hu
        exact Array.mem_of_mem_eraseIdx hu
      exact ⟨hgrown, hgrown.within (hc.within_of_mem_array (Array.getElem_mem _))⟩
    · exact ⟨hc.grown, trivial⟩
  · exact ⟨hc.grown, trivial⟩

/-- An array of strings refers to nothing. -/
theorem newArray_strings (hc : h.Closed n) (texts : List Text) :
    h.Grown n (h.newArray (texts.map Value.string).toArray).2 ∧
      (Value.array (h.newArray (texts.map Value.string).toArray).1).Within
        ((h.newArray (texts.map Value.string).toArray).2.extent n) := by
  refine hc.newArray fun v hv => ?_
  obtain ⟨t, -, rfl⟩ : ∃ t ∈ texts, Value.string t = v := by simpa using hv
  trivial

theorem createTable (hc : h.Closed n) :
    h.Grown n h.createTable.2 ∧ h.createTable.1.Within (h.createTable.2.extent n) :=
  hc.newTable (by simp [Dict.empty])

theorem tableMerge (hc : h.Closed n) (destination source : TableId) :
    h.Grown n (h.tableMerge destination source).2 := by
  refine hc.modifyTable destination fun entry he => ?_
  rcases Dict.mem_merge he with he | he
  · exact hc.within_of_mem_table he
  · exact hc.within_of_mem_table he

/-! ## Documents -/

mutual

theorem load {h : Heap} (hc : h.Closed n) :
    (document : Json) → h.Grown n (h.load document).2 ∧
      (h.load document).1.Within ((h.load document).2.extent n)
  | .null => ⟨hc.grown, trivial⟩
  | .boolean _ => ⟨hc.grown, trivial⟩
  | .integer _ => ⟨hc.grown, trivial⟩
  | .number _ => ⟨hc.grown, trivial⟩
  | .string _ => ⟨hc.grown, trivial⟩
  | .array items => by
    obtain ⟨hgrown, hvalues⟩ := hc.loadItems items
    obtain ⟨hmade, hid⟩ := hgrown.closed.createArray hvalues
    rw [Heap.load]
    exact ⟨hgrown.trans hmade, hid⟩
  | .object members => by
    obtain ⟨hgrown, hentries⟩ := hc.loadMembers members
    obtain ⟨hmade, hid⟩ := hgrown.closed.newTable fun entry he => hentries entry (Dict.mem_ofList he)
    rw [Heap.load]
    exact ⟨hgrown.trans hmade, hid⟩

theorem loadItems {h : Heap} (hc : h.Closed n) :
    (items : List Json) → h.Grown n (h.loadItems items).2 ∧
      ∀ v ∈ (h.loadItems items).1, v.Within ((h.loadItems items).2.extent n)
  | [] => ⟨hc.grown, by simp [Heap.loadItems]⟩
  | item :: rest => by
    obtain ⟨hfirst, hvalue⟩ := hc.load item
    obtain ⟨hrest, hvalues⟩ := hfirst.closed.loadItems rest
    rw [Heap.loadItems]
    exact ⟨hfirst.trans hrest, List.forall_mem_cons.mpr ⟨hrest.within hvalue, hvalues⟩⟩

theorem loadMembers {h : Heap} (hc : h.Closed n) :
    (members : List (Text × Json)) → h.Grown n (h.loadMembers members).2 ∧
      ∀ entry ∈ (h.loadMembers members).1,
        entry.2.Within ((h.loadMembers members).2.extent n)
  | [] => ⟨hc.grown, by simp [Heap.loadMembers]⟩
  | (key, item) :: rest => by
    obtain ⟨hfirst, hvalue⟩ := hc.load item
    obtain ⟨hrest, hentries⟩ := hfirst.closed.loadMembers rest
    rw [Heap.loadMembers]
    exact ⟨hfirst.trans hrest, List.forall_mem_cons.mpr ⟨hrest.within hvalue, hentries⟩⟩

end

end Closed

end Heap

end HostScript
