import HostScript.Library.Call
import HostScript.Proofs.Run.Places
import HostScript.Proofs.Value.Access

/-!
# Operations on a confined heap

Each operation on arrays and tables that is given values within bounds changes only what lies within
bounds and answers with a value within bounds. Arrays and tables that it makes lie within bounds
because everything that is still to be made does.
-/

namespace HostScript

variable {b : Bounds} {h₀ h : Heap}

/-! ## Arrays and tables -/

namespace Heap.Confined

theorem within_of_mem_array (hc : h₀.Confined b h) {id : ArrayId}
    (hid : b.place (.composite (.array id))) {v : Value} (hv : v ∈ h.array id) : v.Within b :=
  hc.members (.array id) hid v (by simpa [Heap.members] using hv)

theorem within_of_mem_table (hc : h₀.Confined b h) {id : TableId}
    (hid : b.place (.composite (.table id))) {entry : Text × Value}
    (he : entry ∈ (h.table id).entries) : entry.2.Within b :=
  hc.members (.table id) hid entry.2 (List.mem_map.mpr ⟨entry, he, rfl⟩)

theorem array_size_within (hc : h₀.Confined b h) : b.place (.composite (.array h.arrays.size)) :=
  hc.fresh (.array _) (Nat.lt_irrefl _)

theorem table_size_within (hc : h₀.Confined b h) : b.place (.composite (.table h.tables.size)) :=
  hc.fresh (.table _) (Nat.lt_irrefl _)

/-- A heap stays confined if only one array or table within bounds changes or comes in, and holds
values within bounds. -/
theorem changedAt {h' : Heap} {c : Composite} (hc : h₀.Confined b h) (hp : b.place (.composite c))
    (hhas : ∀ d, h.Has d → h'.Has d) (hother : ∀ d, d ≠ c → h.SameAt h' d)
    (hm : ∀ v ∈ h'.members c, v.Within b) : h₀.Confined b h' where
  members d hd v hv := by
    by_cases hdc : d = c
    · subst hdc
      exact hm v hv
    · rw [members_eq_of_sameAt (hother d hdc)] at hv
      exact hc.members d hd v hv
  fresh d hd := hc.fresh d fun hold => hd (hhas d hold)
  same d hd := by
    have hdc : d ≠ c := by
      rintro rfl
      exact hd hp
    exact (hc.same d hd).trans (hother d hdc)

theorem newArray (hc : h₀.Confined b h) {items : Array Value} (hi : ∀ v ∈ items, v.Within b) :
    h₀.Confined b (h.newArray items).2 := by
  refine hc.changedAt hc.array_size_within (fun d hd => ?_) (fun d hd => ?_) fun v hv => ?_
  · cases d with
    | array id => simpa [Has, Heap.newArray] using Nat.lt_succ_of_lt hd
    | table id => exact hd
  · cases d with
    | array id =>
      have hne : id ≠ h.arrays.size := fun heq => hd (heq ▸ rfl)
      simp [SameAt, array_newArray, hne]
    | table id => rfl
  · exact hi v (by simpa [Heap.members, array_newArray] using hv)

theorem newTable (hc : h₀.Confined b h) {entries : Dict Value}
    (he : ∀ entry ∈ entries.entries, entry.2.Within b) :
    h₀.Confined b (h.newTable entries).2 := by
  refine hc.changedAt hc.table_size_within (fun d hd => ?_) (fun d hd => ?_) fun v hv => ?_
  · cases d with
    | array id => exact hd
    | table id => simpa [Has, Heap.newTable] using Nat.lt_succ_of_lt hd
  · cases d with
    | array id => rfl
    | table id =>
      have hne : id ≠ h.tables.size := fun heq => hd (heq ▸ rfl)
      simp [SameAt, table_newTable, hne]
  · simp only [Heap.members, table_newTable, if_true, List.mem_map] at hv
    obtain ⟨entry, hentry, rfl⟩ := hv
    exact he entry hentry

theorem modifyArray (hc : h₀.Confined b h) {id : ArrayId} {f : Array Value → Array Value}
    (hid : b.place (.composite (.array id))) (hf : ∀ v ∈ f (h.array id), v.Within b) :
    h₀.Confined b (h.modifyArray id f) := by
  refine hc.changedAt hid (fun d hd => ?_) (fun d hd => ?_) fun v hv => ?_
  · cases d with
    | array other => simpa [Has, Heap.modifyArray] using hd
    | table other => exact hd
  · cases d with
    | array other =>
      have hne : other ≠ id := fun heq => hd (heq ▸ rfl)
      simp [SameAt, array_modifyArray, hne]
    | table other => rfl
  · simp only [Heap.members, array_modifyArray, true_and, Array.mem_toList_iff] at hv
    split at hv
    · exact hf v hv
    · exact hc.within_of_mem_array hid hv

theorem modifyTable (hc : h₀.Confined b h) {id : TableId} {f : Dict Value → Dict Value}
    (hid : b.place (.composite (.table id)))
    (hf : ∀ entry ∈ (f (h.table id)).entries, entry.2.Within b) :
    h₀.Confined b (h.modifyTable id f) := by
  refine hc.changedAt hid (fun d hd => ?_) (fun d hd => ?_) fun v hv => ?_
  · cases d with
    | array other => exact hd
    | table other => simpa [Has, Heap.modifyTable] using hd
  · cases d with
    | array other => rfl
    | table other =>
      have hne : other ≠ id := fun heq => hd (heq ▸ rfl)
      simp [SameAt, table_modifyTable, hne]
  · simp only [Heap.members, table_modifyTable, true_and, List.mem_map] at hv
    obtain ⟨entry, hentry, rfl⟩ := hv
    split at hentry
    · exact hf entry hentry
    · exact hc.within_of_mem_table hid hentry

/-! ## Access -/

theorem arrayGet (hc : h₀.Confined b h) {id : ArrayId} (hid : b.place (.composite (.array id)))
    (x : Float) : (h.arrayGet id x).Within b := by
  simp only [Heap.arrayGet]
  split
  · split
    · exact hc.within_of_mem_array hid (Array.getElem_mem _)
    · trivial
  · trivial

theorem tableGet (hc : h₀.Confined b h) {id : TableId} (hid : b.place (.composite (.table id)))
    (key : Text) : (h.tableGet id key).Within b := by
  simp only [Heap.tableGet]
  cases hv : (h.table id).get? key with
  | none => trivial
  | some v => exact hc.within_of_mem_table hid (Dict.mem_of_get? hv)

theorem index (hc : h₀.Confined b h) {target index : Value} (ht : target.Within b) :
    (h.index target index).Within b := by
  rcases Heap.access_cases target index with
    ⟨id, x, rfl, rfl⟩ | ⟨id, key, rfl, rfl⟩ | ⟨_, _, hfails⟩
  · rw [h.index_array]
    exact hc.arrayGet ht x
  · rw [h.index_table]
    exact hc.tableGet ht key
  · rw [(hfails h).1]
    trivial

theorem arraySet (hc : h₀.Confined b h) {id : ArrayId} (hid : b.place (.composite (.array id)))
    (x : Float) {v : Value} (hv : v.Within b) :
    (h.arraySet id x v).1.Within b ∧ h₀.Confined b (h.arraySet id x v).2 := by
  simp only [Heap.arraySet]
  split
  · split
    · refine ⟨trivial, hc.modifyArray hid fun u hu => ?_⟩
      rcases Array.mem_or_eq_of_mem_setIfInBounds hu with hu | rfl
      · exact hc.within_of_mem_array hid hu
      · exact hv
    · exact ⟨trivial, hc⟩
  · exact ⟨trivial, hc⟩

theorem tableSet (hc : h₀.Confined b h) {id : TableId} (hid : b.place (.composite (.table id)))
    (key : Text) {v : Value} (hv : v.Within b) : h₀.Confined b (h.tableSet id key v) := by
  refine hc.modifyTable hid fun entry he => ?_
  rcases Dict.mem_put he with rfl | he
  · exact hv
  · exact hc.within_of_mem_table hid he

theorem assignIndex (hc : h₀.Confined b h) {target index v : Value} (ht : target.Within b)
    (hv : v.Within b) : h₀.Confined b (h.assignIndex target index v).2 := by
  rcases Heap.access_cases target index with
    ⟨id, x, rfl, rfl⟩ | ⟨id, key, rfl, rfl⟩ | ⟨_, _, hfails⟩
  · rw [h.assignIndex_array]
    exact (hc.arraySet ht x hv).2
  · rw [h.assignIndex_table]
    exact hc.tableSet ht key hv
  · rw [(hfails h).2]
    exact hc

/-! ## Arrays of the library -/

theorem createArray (hc : h₀.Confined b h) {items : List Value} (hi : ∀ v ∈ items, v.Within b) :
    (h.createArray items).1.Within b ∧ h₀.Confined b (h.createArray items).2 :=
  ⟨hc.array_size_within, hc.newArray fun v hv => hi v (by simpa using hv)⟩

theorem arrayPushBack (hc : h₀.Confined b h) {id : ArrayId}
    (hid : b.place (.composite (.array id))) {v : Value} (hv : v.Within b) :
    h₀.Confined b (h.arrayPushBack id v).2 := by
  refine hc.modifyArray hid fun u hu => ?_
  rcases Array.mem_push.mp hu with hu | rfl
  · exact hc.within_of_mem_array hid hu
  · exact hv

theorem arrayPopBack (hc : h₀.Confined b h) {id : ArrayId}
    (hid : b.place (.composite (.array id))) :
    (h.arrayPopBack id).1.Within b ∧ h₀.Confined b (h.arrayPopBack id).2 := by
  simp only [Heap.arrayPopBack]
  split
  · next v hv =>
    refine ⟨hc.within_of_mem_array hid (Array.mem_of_back? hv), ?_⟩
    refine hc.modifyArray hid fun u hu => hc.within_of_mem_array hid ?_
    rw [← Array.mem_toList_iff, Array.toList_pop] at hu
    exact Array.mem_toList_iff.mp (List.dropLast_subset _ hu)
  · exact ⟨trivial, hc⟩

theorem arrayInsert (hc : h₀.Confined b h) {id : ArrayId} (hid : b.place (.composite (.array id)))
    (x : Float) {v : Value} (hv : v.Within b) :
    (h.arrayInsert id x v).1.Within b ∧ h₀.Confined b (h.arrayInsert id x v).2 := by
  simp only [Heap.arrayInsert]
  split
  · next i _ =>
    split
    · next hi =>
      refine ⟨trivial, hc.modifyArray hid fun u hu => ?_⟩
      rw [Array.insertIdxIfInBounds, dif_pos hi] at hu
      rcases Array.mem_insertIdx.mp hu with rfl | hu
      · exact hv
      · exact hc.within_of_mem_array hid hu
    · exact ⟨trivial, hc⟩
  · exact ⟨trivial, hc⟩

theorem arrayRemove (hc : h₀.Confined b h) {id : ArrayId} (hid : b.place (.composite (.array id)))
    (x : Float) : (h.arrayRemove id x).1.Within b ∧ h₀.Confined b (h.arrayRemove id x).2 := by
  simp only [Heap.arrayRemove]
  split
  · next i _ =>
    split
    · next hi =>
      refine ⟨hc.within_of_mem_array hid (Array.getElem_mem _), ?_⟩
      refine hc.modifyArray hid fun u hu => hc.within_of_mem_array hid ?_
      rw [Array.eraseIdxIfInBounds, dif_pos hi] at hu
      exact Array.mem_of_mem_eraseIdx hu
    · exact ⟨trivial, hc⟩
  · exact ⟨trivial, hc⟩

theorem splitLines (hc : h₀.Confined b h) (t : Text) :
    (h.splitLines t).1.Within b ∧ h₀.Confined b (h.splitLines t).2 := by
  refine ⟨hc.array_size_within, hc.newArray fun v hv => ?_⟩
  obtain ⟨line, -, rfl⟩ : ∃ line ∈ t.lines, Value.string line = v := by simpa using hv
  trivial

/-! ## Tables of the library -/

theorem createTable (hc : h₀.Confined b h) :
    h.createTable.1.Within b ∧ h₀.Confined b h.createTable.2 :=
  ⟨hc.table_size_within, hc.newTable (by simp [Dict.empty])⟩

theorem tableKeys (hc : h₀.Confined b h) (id : TableId) :
    (h.tableKeys id).1.Within b ∧ h₀.Confined b (h.tableKeys id).2 := by
  refine ⟨hc.array_size_within, hc.newArray fun v hv => ?_⟩
  obtain ⟨key, -, rfl⟩ : ∃ key ∈ (h.table id).keys, Value.string key = v := by simpa using hv
  trivial

theorem tableMerge (hc : h₀.Confined b h) {destination source : TableId}
    (hd : b.place (.composite (.table destination))) (hs : b.place (.composite (.table source))) :
    h₀.Confined b (h.tableMerge destination source).2 := by
  refine hc.modifyTable hd fun entry he => ?_
  rcases Dict.mem_merge he with he | he
  · exact hc.within_of_mem_table hd he
  · exact hc.within_of_mem_table hs he

/-! ## Documents -/

mutual

theorem load {h : Heap} (hc : h₀.Confined b h) :
    (document : Json) → (h.load document).1.Within b ∧ h₀.Confined b (h.load document).2
  | .null => ⟨trivial, hc⟩
  | .boolean _ => ⟨trivial, hc⟩
  | .integer _ => ⟨trivial, hc⟩
  | .number _ => ⟨trivial, hc⟩
  | .string _ => ⟨trivial, hc⟩
  | .array items => by
    obtain ⟨hvalues, hc⟩ := hc.loadItems items
    rw [Heap.load]
    exact ⟨hc.array_size_within, hc.newArray fun v hv => hvalues v (by simpa using hv)⟩
  | .object members => by
    obtain ⟨hentries, hc⟩ := hc.loadMembers members
    rw [Heap.load]
    exact ⟨hc.table_size_within, hc.newTable fun entry he => hentries entry (Dict.mem_ofList he)⟩

theorem loadItems {h : Heap} (hc : h₀.Confined b h) :
    (items : List Json) →
      (∀ v ∈ (h.loadItems items).1, v.Within b) ∧ h₀.Confined b (h.loadItems items).2
  | [] => ⟨by simp [Heap.loadItems], hc⟩
  | item :: rest => by
    obtain ⟨hvalue, hc⟩ := hc.load item
    obtain ⟨hvalues, hc⟩ := hc.loadItems rest
    rw [Heap.loadItems]
    exact ⟨List.forall_mem_cons.mpr ⟨hvalue, hvalues⟩, hc⟩

theorem loadMembers {h : Heap} (hc : h₀.Confined b h) :
    (members : List (Text × Json)) →
      (∀ entry ∈ (h.loadMembers members).1, entry.2.Within b) ∧
        h₀.Confined b (h.loadMembers members).2
  | [] => ⟨by simp [Heap.loadMembers], hc⟩
  | (key, item) :: rest => by
    obtain ⟨hvalue, hc⟩ := hc.load item
    obtain ⟨hentries, hc⟩ := hc.loadMembers rest
    rw [Heap.loadMembers]
    exact ⟨List.forall_mem_cons.mpr ⟨hvalue, hentries⟩, hc⟩

end

end Heap.Confined

end HostScript
