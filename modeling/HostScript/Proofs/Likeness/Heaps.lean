import HostScript.Proofs.Likeness.Values
import HostScript.Proofs.Value.Access

/-!
# Heaps that are alike

Dictionaries and heaps stay alike under all that scripts do to them: whatever is read from two of
them, or written to them, is alike if what goes in is. Display forms and documents are the same.
-/

namespace HostScript

variable {b : Likeness} {kinds more : List ScopeKind} {region : Region}

theorem EntryLike.mono (h : kinds <+: more) {e e' : Text × Value}
    (he : EntryLike b kinds region e e') : EntryLike b more region e e' :=
  ⟨he.1, he.2.1, he.2.2.mono h⟩

/-! ## Dictionaries -/

namespace Dict.Like

variable {d d' : Dict Value} {n : Name} {v v' : Value}

theorem mono (h : kinds <+: more) (hd : d.Like b kinds region d') : d.Like b more region d' :=
  List.Forall₂.imp (fun _ _ he => he.mono h) hd

theorem empty : Dict.empty.Like b kinds region Dict.empty := .nil

theorem findEntry {entries entries' : List (Text × Value)} (hn : b.Admits region n)
    (h : List.Forall₂ (EntryLike b kinds region) entries entries') :
    Option.Rel (Value.Like b kinds) (Dict.findEntry n entries)
      (Dict.findEntry (b.name region n) entries') := by
  induction h with
  | nil => exact .none
  | @cons e e' rest rest' he hrest ih =>
    obtain ⟨k, v⟩ := e
    obtain ⟨k', v'⟩ := e'
    obtain ⟨hk, rfl, hv⟩ := he
    simp only [Dict.findEntry, Likeness.name_inj hk hn]
    split
    · exact .some hv
    · exact ih

theorem get? (hd : d.Like b kinds region d') (hn : b.Admits region n) :
    Option.Rel (Value.Like b kinds) (d.get? n) (d'.get? (b.name region n)) :=
  findEntry hn hd

theorem has (hd : d.Like b kinds region d') (hn : b.Admits region n) :
    d'.has (b.name region n) = d.has n := by
  have hget := hd.get? hn
  simp only [Dict.has]
  revert hget
  generalize d.get? n = x
  generalize d'.get? (b.name region n) = y
  rintro (⟨-⟩ | -) <;> rfl

theorem putEntry {entries entries' : List (Text × Value)} (hn : b.Admits region n)
    (hv : v.Like b kinds v') (h : List.Forall₂ (EntryLike b kinds region) entries entries') :
    List.Forall₂ (EntryLike b kinds region) (Dict.putEntry n v entries)
      (Dict.putEntry (b.name region n) v' entries') := by
  induction h with
  | nil => exact .cons ⟨hn, rfl, hv⟩ .nil
  | @cons e e' rest rest' he hrest ih =>
    obtain ⟨k, u⟩ := e
    obtain ⟨k', u'⟩ := e'
    obtain ⟨hk, rfl, hu⟩ := he
    simp only [Dict.putEntry, Likeness.name_inj hk hn]
    split
    · exact .cons ⟨hk, rfl, hv⟩ hrest
    · exact .cons ⟨hk, rfl, hu⟩ ih

theorem put (hd : d.Like b kinds region d') (hn : b.Admits region n) (hv : v.Like b kinds v') :
    (d.put n v).Like b kinds region (d'.put (b.name region n) v') :=
  putEntry hn hv hd

theorem keys (hd : d.Like b kinds .outside d') : d'.keys = d.keys := by
  obtain ⟨entries⟩ := d
  obtain ⟨entries'⟩ := d'
  simp only [Dict.Like] at hd
  simp only [Dict.keys]
  induction hd with
  | nil => rfl
  | cons he _ ih => rw [List.map_cons, List.map_cons, he.2.1, ih, Likeness.name]

theorem putAbsent (hd : d.Like b kinds .outside d') (n : Name) (hv : v.Like b kinds v') :
    (d.putAbsent n v).Like b kinds .outside (d'.putAbsent n v') := by
  have hhas : d'.has n = d.has n := hd.has Likeness.admits_outside
  unfold Dict.putAbsent
  rw [hhas]
  split
  · exact hd
  · exact hd.put Likeness.admits_outside hv

/-- Entries that are alike may be written one after another, in any way that keeps dictionaries
alike. -/
theorem foldl {put : Dict Value → Text × Value → Dict Value}
    (hput : ∀ {d d' : Dict Value} {e e' : Text × Value}, d.Like b kinds region d' →
      EntryLike b kinds region e e' → (put d e).Like b kinds region (put d' e'))
    {entries entries' : List (Text × Value)}
    (h : List.Forall₂ (EntryLike b kinds region) entries entries')
    (hd : d.Like b kinds region d') :
    (entries.foldl put d).Like b kinds region (entries'.foldl put d') := by
  induction h generalizing d d' with
  | nil => exact hd
  | cons he _ ih => exact ih (hput hd he)

theorem merge {e e' : Dict Value} (hd : d.Like b kinds .outside d')
    (he : e.Like b kinds .outside e') : (d.merge e).Like b kinds .outside (d'.merge e') := by
  refine foldl (fun hd he => ?_) he hd
  obtain ⟨-, hkey, hv⟩ := he
  rw [hkey]
  exact hd.putAbsent _ hv

theorem ofList {entries entries' : List (Text × Value)}
    (h : List.Forall₂ (EntryLike b kinds region) entries entries') :
    (Dict.ofList entries).Like b kinds region (Dict.ofList entries') := by
  refine foldl (fun hd he => ?_) h empty
  obtain ⟨hn, hkey, hv⟩ := he
  rw [hkey]
  exact hd.put hn hv

end Dict.Like

/-! ## Arrays -/

/-- Arrays with elements that are alike. -/
def RowLike (b : Likeness) (kinds : List ScopeKind) (xs ys : Array Value) : Prop :=
  List.Forall₂ (Value.Like b kinds) xs.toList ys.toList

namespace RowLike

variable {xs ys : Array Value} {u v : Value}

theorem mono (h : kinds <+: more) (hr : RowLike b kinds xs ys) : RowLike b more xs ys :=
  List.Forall₂.imp (fun _ _ hv => hv.mono h) hr

theorem size (hr : RowLike b kinds xs ys) : ys.size = xs.size := by
  simpa using hr.length_eq.symm

theorem getElem (hr : RowLike b kinds xs ys) {i : Nat} (hi : i < xs.size) (hi' : i < ys.size) :
    xs[i].Like b kinds ys[i] := by
  simpa using List.Forall₂.get hr (i := i) (by simpa using hi) (by simpa using hi')

theorem push (hr : RowLike b kinds xs ys) (hv : u.Like b kinds v) :
    RowLike b kinds (xs.push u) (ys.push v) := by
  simpa [RowLike] using List.rel_append hr (.cons hv .nil)

theorem pop (hr : RowLike b kinds xs ys) : RowLike b kinds xs.pop ys.pop := by
  simp only [RowLike, Array.toList_pop, List.dropLast_eq_take, hr.length_eq]
  exact List.forall₂_take _ hr

theorem back? (hr : RowLike b kinds xs ys) :
    Option.Rel (Value.Like b kinds) xs.back? ys.back? := by
  rw [Array.back?_eq_getElem?, Array.back?_eq_getElem?, hr.size]
  by_cases hlt : xs.size - 1 < xs.size
  · have hlt' : xs.size - 1 < ys.size := hr.size ▸ hlt
    rw [Array.getElem?_eq_getElem hlt, Array.getElem?_eq_getElem hlt']
    exact .some (hr.getElem hlt hlt')
  · have hlt' : ¬ xs.size - 1 < ys.size := hr.size ▸ hlt
    rw [Array.getElem?_eq_none (Nat.le_of_not_lt hlt), Array.getElem?_eq_none (Nat.le_of_not_lt hlt')]
    exact .none

theorem setIfInBounds (hr : RowLike b kinds xs ys) (i : Nat) (hv : u.Like b kinds v) :
    RowLike b kinds (xs.setIfInBounds i u) (ys.setIfInBounds i v) := by
  simp only [RowLike, Array.toList_setIfInBounds, List.set_eq_take_append_cons_drop, hr.length_eq]
  split
  · exact List.rel_append (List.forall₂_take i hr) (.cons hv (List.forall₂_drop (i + 1) hr))
  · exact hr

theorem insertIdx {us vs : List Value} (hr : List.Forall₂ (Value.Like b kinds) us vs) (i : Nat)
    (hv : u.Like b kinds v) :
    List.Forall₂ (Value.Like b kinds) (us.insertIdx i u) (vs.insertIdx i v) := by
  induction i generalizing us vs with
  | zero => exact .cons hv hr
  | succ i ih =>
    cases hr with
    | nil => exact .nil
    | cons hfirst hrest => exact .cons hfirst (ih hrest)

theorem insertIdxIfInBounds (hr : RowLike b kinds xs ys) (i : Nat) (hv : u.Like b kinds v) :
    RowLike b kinds (xs.insertIdxIfInBounds i u) (ys.insertIdxIfInBounds i v) := by
  simp only [Array.insertIdxIfInBounds, hr.size]
  split
  · simp only [RowLike, Array.toList_insertIdx]
    exact insertIdx hr i hv
  · exact hr

theorem eraseIdxIfInBounds (hr : RowLike b kinds xs ys) (i : Nat) :
    RowLike b kinds (xs.eraseIdxIfInBounds i) (ys.eraseIdxIfInBounds i) := by
  simp only [RowLike, Array.toList_eraseIdxIfInBounds, List.eraseIdx_eq_take_drop_succ]
  exact List.rel_append (List.forall₂_take i hr) (List.forall₂_drop (i + 1) hr)

end RowLike

/-! ## Heaps -/

/-- Heaps that are alike, place by place. -/
structure Heap.Like (b : Likeness) (kinds : List ScopeKind) (h h' : Heap) : Prop where
  arrays : h'.arrays.size = h.arrays.size
  tables : h'.tables.size = h.tables.size
  array : ∀ id, RowLike b kinds (h.array id) (h'.array id)
  table : ∀ id, (h.table id).Like b kinds .outside (h'.table id)

namespace Heap

/-- What an operation on a heap answers and leaves behind. -/
def OutcomeLike (b : Likeness) (kinds : List ScopeKind) (x y : Value × Heap) : Prop :=
  x.1.Like b kinds y.1 ∧ x.2.Like b kinds y.2

namespace Like

variable {h h' : Heap} {u v : Value}

theorem mono (hm : kinds <+: more) (hl : h.Like b kinds h') : h.Like b more h' :=
  ⟨hl.arrays, hl.tables, fun id => (hl.array id).mono hm, fun id => (hl.table id).mono hm⟩

theorem newArray (hl : h.Like b kinds h') {xs ys : Array Value} (hr : RowLike b kinds xs ys) :
    (h.newArray xs).2.Like b kinds (h'.newArray ys).2 where
  arrays := by simpa [Heap.newArray] using hl.arrays
  tables := hl.tables
  array other := by
    simp only [array_newArray, hl.arrays]
    split
    · exact hr
    · exact hl.array other
  table := hl.table

theorem newTable (hl : h.Like b kinds h') {d d' : Dict Value} (hd : d.Like b kinds .outside d') :
    (h.newTable d).2.Like b kinds (h'.newTable d').2 where
  arrays := hl.arrays
  tables := by simpa [Heap.newTable] using hl.tables
  array := hl.array
  table other := by
    simp only [table_newTable, hl.tables]
    split
    · exact hd
    · exact hl.table other

theorem modifyArray (hl : h.Like b kinds h') (id : ArrayId) {f g : Array Value → Array Value}
    (hf : ∀ {xs ys}, RowLike b kinds xs ys → RowLike b kinds (f xs) (g ys)) :
    (h.modifyArray id f).Like b kinds (h'.modifyArray id g) where
  arrays := by simpa [Heap.modifyArray] using hl.arrays
  tables := hl.tables
  array other := by
    simp only [array_modifyArray, hl.arrays]
    split
    · exact hf (hl.array id)
    · exact hl.array other
  table := hl.table

theorem modifyTable (hl : h.Like b kinds h') (id : TableId) {f g : Dict Value → Dict Value}
    (hf : ∀ {d d'}, d.Like b kinds .outside d' → (f d).Like b kinds .outside (g d')) :
    (h.modifyTable id f).Like b kinds (h'.modifyTable id g) where
  arrays := hl.arrays
  tables := by simpa [Heap.modifyTable] using hl.tables
  array := hl.array
  table other := by
    simp only [table_modifyTable, hl.tables]
    split
    · exact hf (hl.table id)
    · exact hl.table other

/-! ### Access -/

theorem arrayGet (hl : h.Like b kinds h') (id : ArrayId) (x : Float) :
    (h.arrayGet id x).Like b kinds (h'.arrayGet id x) := by
  have hrow := hl.array id
  simp only [Heap.arrayGet, hrow.size]
  split
  · split
    · exact hrow.getElem _ _
    · rfl
  · rfl

theorem arraySet (hl : h.Like b kinds h') (id : ArrayId) (x : Float) (hv : u.Like b kinds v) :
    OutcomeLike b kinds (h.arraySet id x u) (h'.arraySet id x v) := by
  simp only [Heap.arraySet, (hl.array id).size]
  split
  · split
    · exact ⟨rfl, hl.modifyArray id fun hr => hr.setIfInBounds _ hv⟩
    · exact ⟨rfl, hl⟩
  · exact ⟨rfl, hl⟩

theorem tableGet (hl : h.Like b kinds h') (id : TableId) (key : Text) :
    (h.tableGet id key).Like b kinds (h'.tableGet id key) := by
  have hget : Option.Rel (Value.Like b kinds) _ ((h'.table id).get? key) :=
    (hl.table id).get? (n := key) Likeness.admits_outside
  simp only [Heap.tableGet]
  generalize (h.table id).get? key = x at hget ⊢
  generalize (h'.table id).get? key = y at hget ⊢
  cases hget with
  | none => rfl
  | some hv => exact hv

theorem tableSet (hl : h.Like b kinds h') (id : TableId) (key : Text) (hv : u.Like b kinds v) :
    (h.tableSet id key u).Like b kinds (h'.tableSet id key v) :=
  hl.modifyTable id fun hd => hd.put (n := key) Likeness.admits_outside hv

variable {t t' i i' : Value}

theorem index (hl : h.Like b kinds h') (ht : t.Like b kinds t') (hi : i.Like b kinds i') :
    (h.index t i).Like b kinds (h'.index t' i') := by
  rcases ht.cases with rfl | ⟨c, d, rfl, rfl, -⟩
  · rcases hi.cases with rfl | ⟨c, d, rfl, rfl, -⟩
    · rcases Heap.access_cases t' i' with
        ⟨id, x, rfl, rfl⟩ | ⟨id, key, rfl, rfl⟩ | ⟨_, _, hfails⟩
      · rw [h.index_array, h'.index_array]
        exact hl.arrayGet id x
      · rw [h.index_table, h'.index_table]
        exact hl.tableGet id key
      · rw [(hfails h).1, (hfails h').1]
        rfl
    · cases t' <;> rfl
  · rfl

theorem assignIndex (hl : h.Like b kinds h') (ht : t.Like b kinds t') (hi : i.Like b kinds i')
    (hv : u.Like b kinds v) :
    OutcomeLike b kinds (h.assignIndex t i u) (h'.assignIndex t' i' v) := by
  rcases ht.cases with rfl | ⟨c, d, rfl, rfl, -⟩
  · rcases hi.cases with rfl | ⟨c, d, rfl, rfl, -⟩
    · rcases Heap.access_cases t' i' with
        ⟨id, x, rfl, rfl⟩ | ⟨id, key, rfl, rfl⟩ | ⟨_, _, hfails⟩
      · rw [h.assignIndex_array, h'.assignIndex_array]
        exact hl.arraySet id x hv
      · rw [h.assignIndex_table, h'.assignIndex_table]
        exact ⟨rfl, hl.tableSet id key hv⟩
      · rw [(hfails h).2, (hfails h').2]
        exact ⟨rfl, hl⟩
    · cases t' <;> exact ⟨rfl, hl⟩
  · exact ⟨rfl, hl⟩

/-! ### The library -/

theorem createArray (hl : h.Like b kinds h') {us vs : List Value}
    (hv : List.Forall₂ (Value.Like b kinds) us vs) :
    OutcomeLike b kinds (h.createArray us) (h'.createArray vs) :=
  ⟨congrArg Value.array hl.arrays, hl.newArray hv⟩

theorem arrayLen (hl : h.Like b kinds h') (id : ArrayId) :
    (h.arrayLen id).Like b kinds (h'.arrayLen id) := by
  simp only [Heap.arrayLen, (hl.array id).size, Value.like_number]

theorem arrayPushBack (hl : h.Like b kinds h') (id : ArrayId) (hv : u.Like b kinds v) :
    OutcomeLike b kinds (h.arrayPushBack id u) (h'.arrayPushBack id v) :=
  ⟨rfl, hl.modifyArray id fun hr => hr.push hv⟩

theorem arrayPopBack (hl : h.Like b kinds h') (id : ArrayId) :
    OutcomeLike b kinds (h.arrayPopBack id) (h'.arrayPopBack id) := by
  have hback := (hl.array id).back?
  simp only [Heap.arrayPopBack]
  generalize (h.array id).back? = x at hback ⊢
  generalize (h'.array id).back? = y at hback ⊢
  cases hback with
  | none => exact ⟨rfl, hl⟩
  | some hv => exact ⟨hv, hl.modifyArray id fun hr => hr.pop⟩

theorem arrayInsert (hl : h.Like b kinds h') (id : ArrayId) (x : Float) (hv : u.Like b kinds v) :
    OutcomeLike b kinds (h.arrayInsert id x u) (h'.arrayInsert id x v) := by
  simp only [Heap.arrayInsert, (hl.array id).size]
  split
  · split
    · exact ⟨rfl, hl.modifyArray id fun hr => hr.insertIdxIfInBounds _ hv⟩
    · exact ⟨rfl, hl⟩
  · exact ⟨rfl, hl⟩

theorem arrayRemove (hl : h.Like b kinds h') (id : ArrayId) (x : Float) :
    OutcomeLike b kinds (h.arrayRemove id x) (h'.arrayRemove id x) := by
  simp only [Heap.arrayRemove, (hl.array id).size]
  split
  · split
    · exact ⟨(hl.array id).getElem _ _, hl.modifyArray id fun hr => hr.eraseIdxIfInBounds _⟩
    · exact ⟨rfl, hl⟩
  · exact ⟨rfl, hl⟩

theorem strings (texts : List Text) :
    List.Forall₂ (Value.Like b kinds) (texts.map .string) (texts.map .string) := by
  induction texts with
  | nil => exact .nil
  | cons t rest ih => exact .cons rfl ih

theorem splitLines (hl : h.Like b kinds h') (t : Text) :
    OutcomeLike b kinds (h.splitLines t) (h'.splitLines t) :=
  hl.createArray (strings t.lines)

theorem createTable (hl : h.Like b kinds h') :
    OutcomeLike b kinds h.createTable h'.createTable :=
  ⟨congrArg Value.table hl.tables, hl.newTable .empty⟩

theorem tableKeys (hl : h.Like b kinds h') (id : TableId) :
    OutcomeLike b kinds (h.tableKeys id) (h'.tableKeys id) := by
  simp only [Heap.tableKeys, (hl.table id).keys]
  exact hl.createArray (strings (h.table id).keys)

theorem tableMerge (hl : h.Like b kinds h') (destination source : TableId) :
    OutcomeLike b kinds (h.tableMerge destination source) (h'.tableMerge destination source) :=
  ⟨rfl, hl.modifyTable destination fun hd => hd.merge (hl.table source)⟩

end Like

/-! ### Documents -/

mutual

theorem Like.load {h h' : Heap} (hl : h.Like b kinds h') :
    ∀ d : Json, OutcomeLike b kinds (h.load d) (h'.load d)
  | .null => ⟨rfl, hl⟩
  | .boolean _ => ⟨rfl, hl⟩
  | .integer _ => ⟨rfl, hl⟩
  | .number _ => ⟨rfl, hl⟩
  | .string _ => ⟨rfl, hl⟩
  | .array items => by
    obtain ⟨hitems, hheap⟩ := hl.loadItems items
    simp only [Heap.load]
    exact ⟨congrArg Value.array hheap.arrays, hheap.newArray hitems⟩
  | .object members => by
    obtain ⟨hmembers, hheap⟩ := hl.loadMembers members
    simp only [Heap.load]
    exact ⟨congrArg Value.table hheap.tables, hheap.newTable (.ofList hmembers)⟩

theorem Like.loadItems {h h' : Heap} (hl : h.Like b kinds h') :
    ∀ items : List Json,
      List.Forall₂ (Value.Like b kinds) (h.loadItems items).1 (h'.loadItems items).1 ∧
        (h.loadItems items).2.Like b kinds (h'.loadItems items).2
  | [] => ⟨.nil, hl⟩
  | item :: rest => by
    obtain ⟨hitem, hheap⟩ := hl.load item
    obtain ⟨hrest, hheap⟩ := hheap.loadItems rest
    exact ⟨.cons hitem hrest, hheap⟩

theorem Like.loadMembers {h h' : Heap} (hl : h.Like b kinds h') :
    ∀ members : List (Text × Json),
      List.Forall₂ (EntryLike b kinds .outside) (h.loadMembers members).1
          (h'.loadMembers members).1 ∧
        (h.loadMembers members).2.Like b kinds (h'.loadMembers members).2
  | [] => ⟨.nil, hl⟩
  | (key, item) :: rest => by
    obtain ⟨hitem, hheap⟩ := hl.load item
    obtain ⟨hrest, hheap⟩ := hheap.loadMembers rest
    exact ⟨.cons ⟨trivial, rfl, hitem⟩ hrest, hheap⟩

end

end Heap

/-! ## Display forms and documents -/

theorem mapM_eq_of_forall₂ {m : Type → Type} [Monad m] [LawfulMonad m] {α β γ : Type} {r : α → β → Prop}
    {f : α → m γ} {g : β → m γ} (hfg : ∀ {x y}, r x y → g y = f x) {xs : List α} {ys : List β}
    (h : List.Forall₂ r xs ys) : ys.mapM g = xs.mapM f := by
  induction h with
  | nil => rfl
  | cons hxy _ ih => rw [List.mapM_cons, List.mapM_cons, hfg hxy, ih]

namespace Value

variable {h h' : Heap} {u v : Value}

theorem Like.displayIn (hl : h.Like b kinds h') (depth : Nat) (active : List Composite)
    (hv : u.Like b kinds v) : v.displayIn h' depth active = u.displayIn h depth active := by
  induction depth generalizing active u v with
  | zero =>
    rcases hv.cases with rfl | ⟨c, d, rfl, rfl, -⟩
    · cases v <;> rfl
    · exact congrArg some hv.displayAtom
  | succ depth ih =>
    rcases hv.cases with rfl | ⟨c, d, rfl, rfl, -⟩
    · cases v with
      | array id =>
        have hitems := mapM_eq_of_forall₂ (m := Option) (r := Value.Like b kinds)
          (fun hv => ih (.array id :: active) hv) (hl.array id)
        simp only [Value.displayIn, hitems]
      | table id =>
        have hentries := mapM_eq_of_forall₂ (m := Option)
          (f := displayEntry (Value.displayIn h depth (.table id :: active)))
          (g := displayEntry (Value.displayIn h' depth (.table id :: active)))
          (fun ⟨_, hkey, hvalue⟩ => by
            simp only [displayEntry, ih _ hvalue, hkey, Likeness.name]) (hl.table id)
        simp only [Value.displayIn, hentries]
      | _ => rfl
    · exact congrArg some hv.displayAtom

theorem Like.display (hl : h.Like b kinds h') (depth : Nat) (hv : u.Like b kinds v) :
    v.display h' depth = u.display h depth :=
  hv.displayIn hl depth []

theorem Like.documentIn (hl : h.Like b kinds h') (depth : Nat) (active : List Composite)
    (hv : u.Like b kinds v) : v.documentIn h' depth active = u.documentIn h depth active := by
  induction depth generalizing active u v with
  | zero =>
    rcases hv.cases with rfl | ⟨c, d, rfl, rfl, -⟩
    · cases v <;> rfl
    · exact congrArg Except.ok hv.documentOfAtom
  | succ depth ih =>
    rcases hv.cases with rfl | ⟨c, d, rfl, rfl, -⟩
    · cases v with
      | array id =>
        have hitems := mapM_eq_of_forall₂ (m := Except DocumentFault) (r := Value.Like b kinds)
          (fun hv => ih (.array id :: active) hv) (hl.array id)
        simp only [Value.documentIn, hitems]
      | table id =>
        have hentries := mapM_eq_of_forall₂ (m := Except DocumentFault)
          (f := documentEntry (Value.documentIn h depth (.table id :: active)))
          (g := documentEntry (Value.documentIn h' depth (.table id :: active)))
          (fun ⟨_, hkey, hvalue⟩ => by
            simp only [documentEntry, ih _ hvalue, hkey, Likeness.name]) (hl.table id)
        simp only [Value.documentIn, hentries]
      | _ => rfl
    · exact congrArg Except.ok hv.documentOfAtom

theorem Like.document (hl : h.Like b kinds h') (depth : Nat) (hv : u.Like b kinds v) :
    v.document h' depth = u.document h depth :=
  hv.documentIn hl depth []

end Value

end HostScript
