import HostScript.Proofs.Json.Documents
import HostScript.Proofs.Run.Places
import HostScript.Proofs.Value.Nesting
import HostScript.Value.Document

/-!
# Documents of values

A value that is data unfolds to a tree, in which what it shares is written out wherever it occurs
(`Value.tree?`). The tree is the document that is made of the value (`Value.documentIn_eq_ok`), and
loading a document gives a value that unfolds to it again (`Heap.tree?_load`).
-/

namespace HostScript

/-! ## Data -/

namespace Heap

/-- A value consists of null, booleans, numbers and strings in arrays and tables, no more than `n`
of which stand inside each other. It does not matter how often one of them occurs. -/
inductive Data (h : Heap) : ℕ → Value → Prop
  | null {n : ℕ} : Data h n .null
  | boolean {n : ℕ} (b : Bool) : Data h n (.boolean b)
  | number {n : ℕ} (x : Float) : Data h n (.number x)
  | string {n : ℕ} (t : Text) : Data h n (.string t)
  | array {n : ℕ} {id : ArrayId} (hitems : ∀ v ∈ (h.array id).toList, Data h n v) :
      Data h (n + 1) (.array id)
  | table {n : ℕ} {id : TableId} (hkeys : (h.table id).keys.Nodup)
      (hentries : ∀ entry ∈ (h.table id).entries, Data h n entry.2) : Data h (n + 1) (.table id)

theorem Data.mono {h : Heap} {n m : ℕ} {v : Value} (hd : h.Data n v) (hn : n ≤ m) :
    h.Data m v := by
  induction hd generalizing m with
  | null => exact .null
  | boolean b => exact .boolean b
  | number x => exact .number x
  | string t => exact .string t
  | array hitems ih =>
    obtain ⟨m, rfl⟩ : ∃ k, m = k + 1 := ⟨m - 1, by omega⟩
    exact .array fun v hv => ih v hv (by omega)
  | table hkeys hentries ih =>
    obtain ⟨m, rfl⟩ : ∃ k, m = k + 1 := ⟨m - 1, by omega⟩
    exact .table hkeys fun entry hentry => ih entry hentry (by omega)

/-- A value in one heap and a value in another are alike through and through, but for numbers that
are not finite, in whose place there is null: the same arrays item by item, the same tables key by
key in the same order, and the same booleans, numbers and strings. -/
inductive Copies (h h' : Heap) : Value → Value → Prop
  | null : Copies h h' .null .null
  | boolean (b : Bool) : Copies h h' (.boolean b) (.boolean b)
  | number {x : Float} (hx : x.isFinite = true) : Copies h h' (.number x) (.number x)
  | unbounded {x : Float} (hx : x.isFinite = false) : Copies h h' (.number x) .null
  | string (t : Text) : Copies h h' (.string t) (.string t)
  | array {id id' : ArrayId}
      (hitems : List.Forall₂ (Copies h h') (h.array id).toList (h'.array id').toList) :
      Copies h h' (.array id) (.array id')
  | table {id id' : TableId} (hkeys : (h.table id).keys = (h'.table id').keys)
      (hvalues : List.Forall₂ (Copies h h') (h.members (.table id)) (h'.members (.table id'))) :
      Copies h h' (.table id) (.table id')

/-- A heap has grown into another: its arrays and tables are there and hold what they held. -/
def Grows (h h' : Heap) : Prop := ∀ c, h.Has c → h'.Has c ∧ h.SameAt h' c

theorem Grows.refl (h : Heap) : h.Grows h := fun c hc => ⟨hc, by cases c <;> rfl⟩

theorem Grows.trans {h₁ h₂ h₃ : Heap} (h : h₁.Grows h₂) (h' : h₂.Grows h₃) : h₁.Grows h₃ :=
  fun c hc => ⟨(h' c (h c hc).1).1, (h c hc).2.trans (h' c (h c hc).1).2⟩

end Heap

namespace Value

/-- The tree that a value unfolds to, if it is data of no more than `n` levels. -/
def tree? (h : Heap) : (n : ℕ) → Value → Option Json
  | _, null => some .null
  | _, boolean b => some (.boolean b)
  | _, number x => some (.number x)
  | _, string t => some (.string t)
  | n + 1, array id => do
    return .array (← (h.array id).toList.mapM (tree? h n))
  | n + 1, table id => do
    return .object (← (h.table id).entries.mapM fun entry => (tree? h n entry.2).map (entry.1, ·))
  | _, _ => none

end Value

/-! ## Lists -/

section Lists

variable {α β : Type} {r : α → β → Prop} {xs : List α} {ys : List β}

theorem mapM_eq_some_iff {f : α → Option β} :
    xs.mapM f = some ys ↔ List.Forall₂ (fun x y => f x = some y) xs ys := by
  induction xs generalizing ys with
  | nil => simp [eq_comm]
  | cons x xs ih =>
    rw [List.mapM_cons]
    cases ys with
    | nil => simp [Option.bind_eq_some_iff]
    | cons y ys =>
      rw [List.forall₂_cons, ← ih]
      simp [Option.bind_eq_some_iff]

theorem mapM_eq_ok {ε : Type} {f : α → Except ε β}
    (h : List.Forall₂ (fun x y => f x = .ok y) xs ys) : xs.mapM f = .ok ys := by
  induction h with
  | nil => rfl
  | cons hx hxs ih => simp [List.mapM_cons, hx, ih, bind, Except.bind, pure, Except.pure]

theorem exists_forall₂ (h : ∀ x ∈ xs, ∃ y, r x y) : ∃ ys, List.Forall₂ r xs ys := by
  induction xs with
  | nil => exact ⟨[], .nil⟩
  | cons x xs ih =>
    obtain ⟨y, hy⟩ := h x List.mem_cons_self
    obtain ⟨ys, hys⟩ := ih fun x hx => h x (List.mem_cons_of_mem _ hx)
    exact ⟨y :: ys, .cons hy hys⟩

theorem forall₂_of_common {γ : Type} {r' : γ → β → Prop} {q : α → γ → Prop} {zs : List γ}
    (h : List.Forall₂ r xs ys) (h' : List.Forall₂ r' zs ys)
    (hq : ∀ x y z, r x y → r' z y → q x z) : List.Forall₂ q xs zs := by
  induction h generalizing zs with
  | nil =>
    cases h'
    exact .nil
  | cons hxy _ ih =>
    cases h' with
    | cons hzy hrest => exact .cons (hq _ _ _ hxy hzy) (ih hrest)

theorem map_eq_of_forall₂ {γ : Type} {f : α → γ} {g : β → γ} (h : List.Forall₂ r xs ys)
    (hr : ∀ x y, r x y → f x = g y) : xs.map f = ys.map g := by
  rw [← List.forall₂_eq_eq_eq, List.forall₂_map_left_iff, List.forall₂_map_right_iff]
  exact h.imp hr

theorem forall_mem_of_forall₂ {p : β → Prop} (h : List.Forall₂ r xs ys)
    (hp : ∀ x y, r x y → p y) : ∀ y ∈ ys, p y := by
  induction h with
  | nil => exact List.forall_mem_nil p
  | cons hxy _ ih => exact List.forall_mem_cons.mpr ⟨hp _ _ hxy, ih⟩

end Lists

/-! ## Trees -/

namespace Value

variable {h h' : Heap} {n : ℕ} {v v' : Value} {d : Json}

theorem tree?_array {id : ArrayId} :
    (array id).tree? h (n + 1) = some d ↔
      ∃ items, List.Forall₂ (fun u item => u.tree? h n = some item) (h.array id).toList items ∧
        d = .array items := by
  simp only [tree?, ← mapM_eq_some_iff]
  cases (h.array id).toList.mapM (tree? h n) <;> simp [eq_comm]

theorem tree?_table {id : TableId} :
    (table id).tree? h (n + 1) = some d ↔
      ∃ members, List.Forall₂ (fun entry member => entry.1 = member.1 ∧
        entry.2.tree? h n = some member.2) (h.table id).entries members ∧ d = .object members := by
  have hentry (entry : Text × Value) (member : Text × Json) :
      (tree? h n entry.2).map (entry.1, ·) = some member ↔
        entry.1 = member.1 ∧ entry.2.tree? h n = some member.2 := by
    obtain ⟨key, document⟩ := member
    simp [and_comm]
  simp only [tree?, ← hentry, ← mapM_eq_some_iff]
  cases (h.table id).entries.mapM fun entry => (tree? h n entry.2).map (entry.1, ·) <;>
    simp [eq_comm]

/-- More levels than there are make no difference. -/
theorem tree?_succ (ht : v.tree? h n = some d) : v.tree? h (n + 1) = some d := by
  induction n generalizing v d with
  | zero =>
    cases v with
    | array | table | error | function => exact nomatch ht
    | _ => exact ht
  | succ n ih =>
    cases v with
    | array id =>
      obtain ⟨items, hitems, rfl⟩ := tree?_array.mp ht
      exact tree?_array.mpr ⟨items, hitems.imp fun _ _ hu => ih hu, rfl⟩
    | table id =>
      obtain ⟨members, hmembers, rfl⟩ := tree?_table.mp ht
      exact tree?_table.mpr ⟨members, hmembers.imp fun _ _ hm => ⟨hm.1, ih hm.2⟩, rfl⟩
    | _ => exact ht

end Value

/-- What is data has a tree. -/
theorem Heap.Data.exists_tree {h : Heap} {n : ℕ} {v : Value} (hd : h.Data n v) :
    ∃ d, v.tree? h n = some d ∧ d.Shaped n := by
  induction hd with
  | @null n => exact ⟨.null, by cases n <;> rfl, .null⟩
  | @boolean n b => exact ⟨.boolean b, by cases n <;> rfl, .boolean b⟩
  | @number n x => exact ⟨.number x, by cases n <;> rfl, .number x⟩
  | @string n t => exact ⟨.string t, by cases n <;> rfl, .string t⟩
  | array hitems ih =>
    obtain ⟨items, hforall⟩ := exists_forall₂ ih
    refine ⟨.array items, Value.tree?_array.mpr ⟨items, hforall.imp fun _ _ h => h.1, rfl⟩, ?_⟩
    exact .array (forall_mem_of_forall₂ hforall fun _ _ h => h.2)
  | @table n id hkeys hentries ih =>
    have hmembers : ∀ entry ∈ (h.table id).entries, ∃ member : Text × Json,
        (entry.1 = member.1 ∧ entry.2.tree? h n = some member.2) ∧ member.2.Shaped n := by
      intro entry hentry
      obtain ⟨d, htree, hshaped⟩ := ih entry hentry
      exact ⟨(entry.1, d), ⟨rfl, htree⟩, hshaped⟩
    obtain ⟨members, hforall⟩ := exists_forall₂ hmembers
    have hnames : (h.table id).keys = members.map (·.1) :=
      map_eq_of_forall₂ hforall fun _ _ h => h.1.1
    refine ⟨.object members, Value.tree?_table.mpr ⟨members, hforall.imp fun _ _ h => h.1, rfl⟩, ?_⟩
    exact .object (hnames ▸ hkeys) (forall_mem_of_forall₂ hforall fun _ _ h => h.2)

namespace Value

variable {h h' : Heap} {n : ℕ} {v v' : Value} {d : Json}

/-! ## Making the document -/

theorem composite?_inj {u : Value} {c : Composite} (hv : v.composite? = some c)
    (hu : u.composite? = some c) : u = v := by
  cases v <;> cases u <;> grind [composite?]

theorem documentIn_of_not_composite (hv : v.composite? = none) (ht : v.tree? h n = some d)
    (depth : ℕ) (active : List Composite) : v.documentIn h depth active = .ok d := by
  cases v with
  | array | table => exact nomatch hv
  | error | function => cases n <;> exact nomatch ht
  | _ =>
    cases n <;> obtain rfl := Option.some.inj ht <;> cases depth <;> rfl

/-- The tree of a value is made of it as a document. A composite that is being made never stands in
its own tree, since that would have fewer levels. -/
theorem documentIn_eq_ok (ht : v.tree? h n = some d) {depth : ℕ} (hn : n ≤ depth)
    {active : List Composite}
    (hactive : ∀ c ∈ active, ∀ u : Value, u.composite? = some c → u.tree? h n = none) :
    v.documentIn h depth active = .ok d := by
  cases hv : v.composite? with
  | none => exact documentIn_of_not_composite hv ht depth active
  | some c =>
    induction n generalizing v d depth active c with
    | zero =>
      cases v with
      | array | table => exact nomatch ht
      | _ => exact nomatch hv
    | succ n ih =>
      have hlower : ∀ c ∈ active, ∀ u : Value, u.composite? = some c → u.tree? h n = none := by
        intro c hc u hu
        cases htree : u.tree? h n with
        | none => rfl
        | some d => exact nomatch (hactive c hc u hu).symm.trans (tree?_succ htree)
      cases htree : v.tree? h n with
      | some d' =>
        obtain rfl : d = d' := Option.some.inj (ht.symm.trans (tree?_succ htree))
        exact ih htree (by omega) hlower _ hv
      | none =>
        obtain ⟨depth, rfl⟩ : ∃ k, depth = k + 1 := ⟨depth - 1, by omega⟩
        have hnot : c ∉ active := fun hc => nomatch (hactive c hc v hv).symm.trans ht
        have hinside : ∀ c' ∈ c :: active, ∀ u : Value,
            u.composite? = some c' → u.tree? h n = none := by
          refine List.forall_mem_cons.mpr ⟨fun u hu => ?_, hlower⟩
          rw [composite?_inj hv hu]
          exact htree
        have hmember {u : Value} {d' : Json} (hu : u.tree? h n = some d') :
            u.documentIn h depth (c :: active) = .ok d' := by
          cases hc : u.composite? with
          | none => exact documentIn_of_not_composite hc hu _ _
          | some c' => exact ih hu (by omega) hinside _ hc
        cases v with
        | array id =>
          obtain rfl := Option.some.inj hv
          obtain ⟨items, hitems, rfl⟩ := tree?_array.mp ht
          have hmap := mapM_eq_ok (hitems.imp fun _ _ hu => hmember hu)
          simp only [documentIn, List.contains_iff_mem, hnot, if_false, hmap]
          rfl
        | table id =>
          obtain rfl := Option.some.inj hv
          obtain ⟨members, hmembers, rfl⟩ := tree?_table.mp ht
          have hmap := mapM_eq_ok (f := documentEntry (documentIn h depth (.table id :: active)))
            (hmembers.imp fun entry member hm => by
              rw [documentEntry, hmember hm.2, hm.1]
              rfl)
          simp only [documentIn, List.contains_iff_mem, hnot, if_false, hmap]
          rfl
        | _ => exact nomatch hv

/-! ## Alike -/

theorem tree?_eq_null : v.tree? h n = some .null ↔ v = .null := by
  cases v <;> cases n <;> simp [tree?, Option.bind_eq_some_iff]

theorem tree?_eq_boolean {b : Bool} : v.tree? h n = some (.boolean b) ↔ v = .boolean b := by
  cases v <;> cases n <;> simp [tree?, Option.bind_eq_some_iff]

theorem tree?_eq_number {x : Float} : v.tree? h n = some (.number x) ↔ v = .number x := by
  cases v <;> cases n <;> simp [tree?, Option.bind_eq_some_iff]

theorem tree?_eq_string {t : Text} : v.tree? h n = some (.string t) ↔ v = .string t := by
  cases v <;> cases n <;> simp [tree?, Option.bind_eq_some_iff]

theorem tree?_ne_integer {i : Int} : v.tree? h n ≠ some (.integer i) := by
  cases v <;> cases n <;> simp [tree?, Option.bind_eq_some_iff]

theorem exists_of_tree?_eq_array {items : List Json} (ht : v.tree? h n = some (.array items)) :
    ∃ m id, n = m + 1 ∧ v = .array id ∧
      List.Forall₂ (fun u item => u.tree? h m = some item) (h.array id).toList items := by
  cases n with
  | zero => cases v <;> simp [tree?] at ht
  | succ m =>
    cases v with
    | array id =>
      obtain ⟨items', hitems, heq⟩ := tree?_array.mp ht
      exact ⟨m, id, rfl, rfl, Json.array.inj heq ▸ hitems⟩
    | _ => simp [tree?, Option.bind_eq_some_iff] at ht

theorem exists_of_tree?_eq_object {members : List (Text × Json)}
    (ht : v.tree? h n = some (.object members)) :
    ∃ m id, n = m + 1 ∧ v = .table id ∧ List.Forall₂ (fun entry member => entry.1 = member.1 ∧
      entry.2.tree? h m = some member.2) (h.table id).entries members := by
  cases n with
  | zero => cases v <;> simp [tree?] at ht
  | succ m =>
    cases v with
    | table id =>
      obtain ⟨members', hmembers, heq⟩ := tree?_table.mp ht
      exact ⟨m, id, rfl, rfl, Json.object.inj heq ▸ hmembers⟩
    | _ => simp [tree?, Option.bind_eq_some_iff] at ht

/-- Values that unfold to the same tree are alike, up to numbers that are not finite. -/
theorem copies_of_tree? (ht : v.tree? h n = some d) (ht' : v'.tree? h' n = some d.finite) :
    h.Copies h' v v' := by
  induction n using Nat.strong_induction_on generalizing v v' d with
  | _ n ih =>
    cases d with
    | null =>
      obtain rfl := tree?_eq_null.mp ht
      obtain rfl := tree?_eq_null.mp ht'
      exact .null
    | boolean b =>
      obtain rfl := tree?_eq_boolean.mp ht
      obtain rfl := tree?_eq_boolean.mp ht'
      exact .boolean b
    | integer i => exact absurd ht tree?_ne_integer
    | number x =>
      obtain rfl := tree?_eq_number.mp ht
      rw [Json.finite] at ht'
      split at ht'
      · next hx =>
        obtain rfl := tree?_eq_number.mp ht'
        exact .number hx
      · next hx =>
        obtain rfl := tree?_eq_null.mp ht'
        exact .unbounded (by simpa using hx)
    | string t =>
      obtain rfl := tree?_eq_string.mp ht
      obtain rfl := tree?_eq_string.mp ht'
      exact .string t
    | array items =>
      obtain ⟨m, id, rfl, rfl, hitems⟩ := exists_of_tree?_eq_array ht
      rw [Json.finite, Json.finiteItems_eq_map] at ht'
      obtain ⟨_, id', hm, rfl, hitems'⟩ := exists_of_tree?_eq_array ht'
      obtain rfl := Nat.succ.inj hm
      rw [List.forall₂_map_right_iff] at hitems'
      exact .array (forall₂_of_common hitems hitems' fun _ _ _ h h' =>
        ih m (Nat.lt_succ_self m) h h')
    | object members =>
      obtain ⟨m, id, rfl, rfl, hmembers⟩ := exists_of_tree?_eq_object ht
      rw [Json.finite, Json.finiteMembers_eq_map] at ht'
      obtain ⟨_, id', hm, rfl, hmembers'⟩ := exists_of_tree?_eq_object ht'
      obtain rfl := Nat.succ.inj hm
      rw [List.forall₂_map_right_iff] at hmembers'
      have hentries := forall₂_of_common hmembers hmembers' fun _ _ _ h h' =>
        And.intro (h.1.trans h'.1.symm) (ih m (Nat.lt_succ_self m) h.2 h'.2)
      refine .table (map_eq_of_forall₂ hentries fun _ _ h => h.1) ?_
      rw [Heap.members, Heap.members, List.forall₂_map_left_iff, List.forall₂_map_right_iff]
      exact hentries.imp fun _ _ h => h.2

end Value

/-! ## Loading the document -/

namespace Heap

variable {n : ℕ}

/-- Loading an item makes a value that unfolds to it, however the heap goes on to grow. -/
def Loads (n : ℕ) (h : Heap) (item : Json) : Prop :=
  h.Grows (h.load item).2 ∧
    ∀ h', (h.load item).2.Grows h' → (h.load item).1.tree? h' n = some item

theorem loads_items {items : List Json} (hitems : ∀ item ∈ items, ∀ h : Heap, h.Loads n item)
    (h : Heap) : h.Grows (h.loadItems items).2 ∧ ∀ h', (h.loadItems items).2.Grows h' →
      List.Forall₂ (fun v item => v.tree? h' n = some item) (h.loadItems items).1 items := by
  induction items generalizing h with
  | nil => exact ⟨.refl h, fun h' _ => .nil⟩
  | cons item items ih =>
    obtain ⟨hitem, hitems⟩ := List.forall_mem_cons.mp hitems
    obtain ⟨hgrows, htree⟩ := hitem h
    obtain ⟨hgrows', htrees⟩ := ih hitems (h.load item).2
    rw [loadItems]
    exact ⟨hgrows.trans hgrows', fun h' hh' => .cons (htree h' (hgrows'.trans hh')) (htrees h' hh')⟩

theorem loads_members {members : List (Text × Json)}
    (hmembers : ∀ member ∈ members, ∀ h : Heap, h.Loads n member.2) (h : Heap) :
    h.Grows (h.loadMembers members).2 ∧ ∀ h', (h.loadMembers members).2.Grows h' →
      List.Forall₂ (fun entry member => entry.1 = member.1 ∧ entry.2.tree? h' n = some member.2)
        (h.loadMembers members).1 members := by
  induction members generalizing h with
  | nil => exact ⟨.refl h, fun h' _ => .nil⟩
  | cons member members ih =>
    obtain ⟨hmember, hmembers⟩ := List.forall_mem_cons.mp hmembers
    obtain ⟨hgrows, htree⟩ := hmember h
    obtain ⟨hgrows', htrees⟩ := ih hmembers (h.load member.2).2
    rw [loadMembers]
    exact ⟨hgrows.trans hgrows',
      fun h' hh' => .cons ⟨rfl, htree h' (hgrows'.trans hh')⟩ (htrees h' hh')⟩

theorem grows_newArray (h : Heap) (items : Array Value) : h.Grows (h.newArray items).2 := by
  intro c hc
  cases c with
  | array id =>
    have hlt : id < h.arrays.size := hc
    refine ⟨?_, ?_⟩
    · change id < (h.arrays.push items).size
      rw [Array.size_push]
      exact Nat.lt_succ_of_lt hlt
    · change (h.newArray items).2.array id = h.array id
      rw [array_newArray, if_neg (Nat.ne_of_lt hlt)]
  | table id => exact ⟨hc, rfl⟩

theorem grows_newTable (h : Heap) (entries : Dict Value) : h.Grows (h.newTable entries).2 := by
  intro c hc
  cases c with
  | array id => exact ⟨hc, rfl⟩
  | table id =>
    have hlt : id < h.tables.size := hc
    refine ⟨?_, ?_⟩
    · change id < (h.tables.push entries).size
      rw [Array.size_push]
      exact Nat.lt_succ_of_lt hlt
    · change (h.newTable entries).2.table id = h.table id
      rw [table_newTable, if_neg (Nat.ne_of_lt hlt)]

/-- A new array is there and stays as it was made. -/
theorem array_of_grows_newArray {h h' : Heap} {items : Array Value}
    (hg : (h.newArray items).2.Grows h') : h'.array (h.newArray items).1 = items := by
  have hhas : (h.newArray items).2.Has (.array h.arrays.size) := by
    change h.arrays.size < (h.arrays.push items).size
    rw [Array.size_push]
    omega
  have hsame : h'.array h.arrays.size = (h.newArray items).2.array h.arrays.size := (hg _ hhas).2
  exact hsame.trans ((array_newArray h items _).trans (if_pos rfl))

theorem table_of_grows_newTable {h h' : Heap} {entries : Dict Value}
    (hg : (h.newTable entries).2.Grows h') : h'.table (h.newTable entries).1 = entries := by
  have hhas : (h.newTable entries).2.Has (.table h.tables.size) := by
    change h.tables.size < (h.tables.push entries).size
    rw [Array.size_push]
    omega
  have hsame : h'.table h.tables.size = (h.newTable entries).2.table h.tables.size := (hg _ hhas).2
  exact hsame.trans ((table_newTable h entries _).trans (if_pos rfl))

/-- A document is loaded as a value that unfolds to it. -/
theorem loads {d : Json} (hs : d.Shaped n) (h : Heap) : h.Loads n d := by
  induction hs generalizing h with
  | @null n => exact ⟨.refl h, fun h' _ => by cases n <;> rfl⟩
  | @boolean n b => exact ⟨.refl h, fun h' _ => by cases n <;> rfl⟩
  | @number n x => exact ⟨.refl h, fun h' _ => by cases n <;> rfl⟩
  | @string n t => exact ⟨.refl h, fun h' _ => by cases n <;> rfl⟩
  | @array n items hitems ih =>
    obtain ⟨hgrows, htrees⟩ := loads_items ih h
    rw [Loads, load]
    refine ⟨hgrows.trans (grows_newArray _ _), fun h' hh' => Value.tree?_array.mpr ⟨items, ?_, rfl⟩⟩
    rw [array_of_grows_newArray hh']
    exact htrees h' ((grows_newArray _ _).trans hh')
  | @object n members hnames hmembers ih =>
    obtain ⟨hgrows, htrees⟩ := loads_members ih h
    rw [Loads, load]
    refine ⟨hgrows.trans (grows_newTable _ _),
      fun h' hh' => Value.tree?_table.mpr ⟨members, ?_, rfl⟩⟩
    have hentries := htrees h' ((grows_newTable _ _).trans hh')
    have hkeys : (h.loadMembers members).1.map (·.1) = members.map (·.1) :=
      map_eq_of_forall₂ hentries fun _ _ h => h.1
    rw [table_of_grows_newTable hh', Dict.ofList_of_nodup (hkeys ▸ hnames)]
    exact hentries

end Heap

end HostScript
