import HostScript.Http.Charset
import HostScript.Proofs.Library.Arrays
import HostScript.Proofs.Run.Growth
import HostScript.Proofs.Run.Serialization

/-!
# What the standard library touches

A call changes no scope and at most one array or table, which is its first argument; a call that
answers with an error of its own changes none. What a call makes is new (`call_footprint`).
`Heap.Footprint` says this of the heaps before and after a call. It is shown once for calls that
leave what there was as it was (`Heap.footprint_of_grows`) and once for those that change their first
argument (`Heap.footprint_of_change`), so that each function only has to say which of the two it does.
-/

namespace HostScript

namespace StandardFunction

/-- The functions that change the array or the table that is their first argument. -/
def changers : List StandardFunction :=
  [arraySet, arrayPushBack, arrayPopBack, arrayInsert, arrayRemove, tableSet, tableMerge]

/-- The functions that answer with a new array or table. -/
def makers : List StandardFunction := [createArray, createTable, tableKeys, stringSplitLines]

/-- The functions that answer with what an array or a table holds. -/
def accessors : List StandardFunction := [arrayGet, arrayPopBack, arrayRemove, tableGet]

/-- The kinds of values that these functions take. -/
def accessKinds : StandardFunction → List Kind
  | arrayGet | arrayRemove => [.array, .number]
  | arrayPopBack => [.array]
  | tableGet => [.table, .string]
  | _ => []

theorem not_mem_of_mem_changers :
    ∀ f ∈ changers, f ∉ makers ∧ f ≠ fromJson := by
  decide

theorem not_mem_of_mem_makers :
    ∀ f ∈ makers, f ∉ accessors ∧ f ≠ fromJson := by
  decide

end StandardFunction

open StandardFunction

namespace Heap

variable {h h' h₁ h₂ h₃ : Heap} {f : StandardFunction} {values : List Value} {u v : Value}

/-! ## Footprints -/

/-- The member of an array or a table that a call hands out. It may be an error that a script had put
there, which is then not one that the call made. -/
def handed? (h : Heap) : StandardFunction → List Value → Option Value
  | .arrayGet, [.array id, .number x] => do (h.array id)[← Number.place? x]?
  | .arrayRemove, [.array id, .number x] => do (h.array id)[← Number.place? x]?
  | .arrayPopBack, [.array id] => (h.array id).back?
  | .tableGet, [.table id, .string key] => (h.table id).get? key
  | _, _ => none

/-- The arrays and tables in a value, each as often as it occurs: the one that the value is, and
those in its members. -/
inductive Inside (h : Heap) : Value → List Composite → Prop
  | atom {v : Value} (hv : v.composite? = none) : Inside h v []
  | composite {v : Value} {c : Composite} {parts : List (List Composite)}
      (hv : v.composite? = some c) (hparts : List.Forall₂ (Inside h) (h.members c) parts) :
      Inside h v (c :: parts.flatten)

/-- Arrays and tables that are in the second heap and not in the first, no two of them the same. -/
structure Fresh (h h' : Heap) (made : List Composite) : Prop where
  nodup : made.Nodup
  absent : ∀ c ∈ made, ¬ h.Has c
  has : ∀ c ∈ made, h'.Has c

/-- What a call that gives `v` does to the arrays and tables. -/
structure Footprint (h : Heap) (f : StandardFunction) (values : List Value) (v : Value)
    (h' : Heap) : Prop where
  /-- What is handed out is the result. -/
  handed : ∀ u, h.handed? f values = some u → v = u
  /-- An array or a table stays there. -/
  kept : ∀ c, h.Has c → h'.Has c
  /-- If the result is an error that the call made, nothing is changed. -/
  refused : ∀ message, v = .error message → h.handed? f values = none →
    ∀ c, h.Has c → h.SameAt h' c
  /-- What is changed is the first argument, and only some functions change it. -/
  changed : ∀ c, h.Has c → ¬ h.SameAt h' c →
    f ∈ changers ∧ ∃ first rest, values = first :: rest ∧ first.composite? = some c
  /-- What some functions answer with is new, unless they refuse their arguments. One of them takes
  any. -/
  made : f ∈ makers → (f ≠ .createArray ∧ ∃ message, v = .error message) ∨
    ∃ c, v.composite? = some c ∧ h.Fresh h' [c]
  /-- All that is made of a document is new. -/
  loaded : f = .fromJson → ∃ cs, h'.Inside v cs ∧ h.Fresh h' cs

theorem handed?_eq_none (hf : f ∉ accessors) : h.handed? f values = none := by
  cases f with
  | arrayGet | arrayPopBack | arrayRemove | tableGet => exact absurd (by decide) hf
  | _ => rfl

theorem handed?_eq_none_of_forall_ne
    (hne : ∀ arguments : Arguments f.accessKinds, values ≠ arguments.values) :
    h.handed? f values = none := by
  fun_cases handed? h f values with
  | case1 id x => exact absurd rfl (hne (id, x, ()))
  | case2 id x => exact absurd rfl (hne (id, x, ()))
  | case3 id => exact absurd rfl (hne (id, ()))
  | case4 id key => exact absurd rfl (hne (id, key, ()))
  | case5 => rfl

/-- A call that changes nothing of what there was. -/
theorem footprint_of_grows (hg : h.Grows h') (hhanded : ∀ u, h.handed? f values = some u → v = u)
    (hmade : f ∈ makers → (f ≠ .createArray ∧ ∃ message, v = .error message) ∨
      ∃ c, v.composite? = some c ∧ h.Fresh h' [c])
    (hloaded : f = .fromJson → ∃ cs, h'.Inside v cs ∧ h.Fresh h' cs) :
    h.Footprint f values v h' where
  handed := hhanded
  kept c hc := (hg c hc).1
  refused _ _ _ c hc := (hg c hc).2
  changed c hc hne := absurd (hg c hc).2 hne
  made := hmade
  loaded := hloaded

/-- A call that answers with an error of its own. -/
theorem footprint_error (message : Text) (hf : f ≠ .createArray)
    (hhanded : h.handed? f values = none) : h.Footprint f values (.error message) h := by
  apply footprint_of_grows (.refl h)
  · intro u hu
    rw [hhanded] at hu
    exact nomatch hu
  · exact fun _ => .inl ⟨hf, message, rfl⟩
  · exact fun _ => ⟨[], .atom rfl, List.nodup_nil, nofun, nofun⟩

/-- A call that changes nothing at all. -/
theorem footprint_self (hhanded : ∀ u, h.handed? f values = some u → v = u) (hm : f ∉ makers)
    (hj : f ≠ .fromJson) : h.Footprint f values v h :=
  footprint_of_grows (.refl h) hhanded (fun hf => absurd hf hm) fun hf => absurd hf hj

/-- A call that changes its first argument. Its result is what it hands out, or no error. -/
theorem footprint_of_change {c : Composite} {first : Value} {rest : List Value}
    (hf : f ∈ changers) (hvalues : values = first :: rest) (hfirst : first.composite? = some c)
    (hhas : ∀ d, h.Has d → h'.Has d) (hsame : ∀ d, d ≠ c → h.SameAt h' d)
    (hv : h.handed? f values = some v ∨ h.handed? f values = none ∧ v = .null) :
    h.Footprint f values v h' where
  handed u hu := by
    rcases hv with hv | ⟨hnone, -⟩
    · exact Option.some.inj (hv.symm.trans hu)
    · exact nomatch hnone.symm.trans hu
  kept := hhas
  refused message hmessage hnone := by
    rcases hv with hv | ⟨-, hnull⟩
    · exact nomatch hv.symm.trans hnone
    · exact nomatch hnull.symm.trans hmessage
  changed d hd hne := by
    by_cases hdc : d = c
    · subst hdc
      exact ⟨hf, first, rest, hvalues, hfirst⟩
    · exact absurd (hsame d hdc) hne
  made hm := absurd hm (not_mem_of_mem_changers f hf).1
  loaded hj := absurd hj (not_mem_of_mem_changers f hf).2

/-! ## Changes -/

theorem has_modifyArray {id : ArrayId} {g : Array Value → Array Value} {c : Composite} :
    (h.modifyArray id g).Has c ↔ h.Has c := by
  cases c <;> simp [Has, modifyArray]

theorem has_modifyTable {id : TableId} {g : Dict Value → Dict Value} {c : Composite} :
    (h.modifyTable id g).Has c ↔ h.Has c := by
  cases c <;> simp [Has, modifyTable]

theorem sameAt_modifyArray {id : ArrayId} {g : Array Value → Array Value} {c : Composite}
    (hc : c ≠ .array id) : h.SameAt (h.modifyArray id g) c := by
  cases c with
  | array other =>
    have hother : other ≠ id := fun heq => hc (congrArg _ heq)
    simp [SameAt, array_modifyArray, hother]
  | table other => exact rfl

theorem sameAt_modifyTable {id : TableId} {g : Dict Value → Dict Value} {c : Composite}
    (hc : c ≠ .table id) : h.SameAt (h.modifyTable id g) c := by
  cases c with
  | array other => exact rfl
  | table other =>
    have hother : other ≠ id := fun heq => hc (congrArg _ heq)
    simp [SameAt, table_modifyTable, hother]

theorem footprint_modifyArray {id : ArrayId} {rest : List Value} (hf : f ∈ changers)
    (g : Array Value → Array Value) (hv : h.handed? f (.array id :: rest) = some v ∨
      h.handed? f (.array id :: rest) = none ∧ v = .null) :
    h.Footprint f (.array id :: rest) v (h.modifyArray id g) :=
  footprint_of_change hf rfl rfl (fun _ => has_modifyArray.mpr) (fun _ => sameAt_modifyArray) hv

theorem footprint_modifyTable {id : TableId} {rest : List Value} (hf : f ∈ changers)
    (g : Dict Value → Dict Value) (hnone : h.handed? f (.table id :: rest) = none) :
    h.Footprint f (.table id :: rest) .null (h.modifyTable id g) :=
  footprint_of_change hf rfl rfl (fun _ => has_modifyTable.mpr) (fun _ => sameAt_modifyTable)
    (.inr ⟨hnone, rfl⟩)

theorem footprint_arrayGet {id : ArrayId} {x : Float} :
    h.Footprint .arrayGet [.array id, .number x] (h.arrayGet id x) h := by
  have hget : h.arrayGet id x = (h.handed? .arrayGet [.array id, .number x]).getD
      (Value.outOfBounds x (h.array id).size) := by
    rw [arrayGet, Number.position?_eq_place?, handed?]
    cases Number.place? x with
    | none => rfl
    | some i => by_cases hi : i < (h.array id).size <;> simp [hi]
  cases hhanded : h.handed? .arrayGet [.array id, .number x] with
  | none =>
    rw [hget, hhanded]
    exact footprint_error _ (by decide) hhanded
  | some u =>
    rw [hget, hhanded]
    refine footprint_self ?_ (by decide) (by decide)
    intro u' hu'
    exact Option.some.inj (hhanded.symm.trans hu')

theorem footprint_arraySet {id : ArrayId} {x : Float} :
    h.Footprint .arraySet [.array id, .number x, v] (h.arraySet id x v).1
      (h.arraySet id x v).2 := by
  unfold arraySet
  dsimp only
  split
  · split
    · exact footprint_modifyArray (by decide) _ (.inr ⟨rfl, rfl⟩)
    · exact footprint_error _ (by decide) rfl
  · exact footprint_error _ (by decide) rfl

theorem footprint_arrayInsert {id : ArrayId} {x : Float} :
    h.Footprint .arrayInsert [.array id, .number x, v] (h.arrayInsert id x v).1
      (h.arrayInsert id x v).2 := by
  unfold arrayInsert
  dsimp only
  split
  · split
    · exact footprint_modifyArray (by decide) _ (.inr ⟨rfl, rfl⟩)
    · exact footprint_error _ (by decide) rfl
  · exact footprint_error _ (by decide) rfl

theorem footprint_arrayPopBack {id : ArrayId} :
    h.Footprint .arrayPopBack [.array id] (h.arrayPopBack id).1 (h.arrayPopBack id).2 := by
  unfold arrayPopBack
  split
  · next hlast => exact footprint_modifyArray (by decide) _ (.inl hlast)
  · next hempty => exact footprint_error _ (by decide) hempty

theorem footprint_arrayRemove {id : ArrayId} {x : Float} :
    h.Footprint .arrayRemove [.array id, .number x] (h.arrayRemove id x).1
      (h.arrayRemove id x).2 := by
  rw [arrayRemove, Number.position?_eq_place?]
  cases hplace : Number.place? x with
  | none =>
    refine footprint_error _ (by decide) ?_
    simp [handed?, hplace]
  | some i =>
    by_cases hi : i < (h.array id).size
    · simp only [hi, dite_true]
      refine footprint_modifyArray (by decide) _ (.inl ?_)
      simp [handed?, hplace, hi]
    · simp only [hi, dite_false]
      refine footprint_error _ (by decide) ?_
      simpa [handed?, hplace] using hi

theorem footprint_tableGet {id : TableId} {key : Text} :
    h.Footprint .tableGet [.table id, .string key] (h.tableGet id key) h := by
  refine footprint_self ?_ (by decide) (by decide)
  intro u hu
  have hget : (h.table id).get? key = some u := hu
  rw [tableGet, hget, Option.getD_some]

/-! ## New arrays and tables -/

theorem Fresh.append {made more : List Composite} (hmade : h₁.Fresh h₂ made)
    (hmore : h₂.Fresh h₃ more) (hg : h₁.Grows h₂) (hg' : h₂.Grows h₃) :
    h₁.Fresh h₃ (made ++ more) where
  nodup := by
    refine List.nodup_append.mpr ⟨hmade.nodup, hmore.nodup, ?_⟩
    rintro c hc _ hc' rfl
    exact hmore.absent c hc' (hmade.has c hc)
  absent c hc := by
    rcases List.mem_append.mp hc with hc | hc
    · exact hmade.absent c hc
    · exact fun hold => hmore.absent c hc (hg c hold).1
  has c hc := by
    rcases List.mem_append.mp hc with hc | hc
    · exact (hg' c (hmade.has c hc)).1
    · exact hmore.has c hc

/-- A call that makes an array or a table. -/
theorem footprint_of_fresh {c : Composite} (hf : f ∈ makers) (hg : h.Grows h')
    (hc : v.composite? = some c) (hfresh : h.Fresh h' [c]) : h.Footprint f values v h' := by
  have hapart : f ∉ accessors ∧ f ≠ .fromJson := not_mem_of_mem_makers f hf
  apply footprint_of_grows hg
  · intro u hu
    rw [handed?_eq_none hapart.1] at hu
    exact nomatch hu
  · exact fun _ => .inr ⟨c, hc, hfresh⟩
  · exact fun hj => absurd hj hapart.2

theorem Fresh.perm {made more : List Composite} (hmade : h.Fresh h' made)
    (hp : made.Perm more) : h.Fresh h' more where
  nodup := hp.nodup_iff.mp hmade.nodup
  absent c hc := hmade.absent c (hp.mem_iff.mpr hc)
  has c hc := hmade.has c (hp.mem_iff.mpr hc)

theorem fresh_newArray (h : Heap) (items : Array Value) :
    h.Fresh (h.newArray items).2 [.array (h.newArray items).1] where
  nodup := List.nodup_singleton _
  absent := by simp [Has, newArray]
  has := by simp [Has, newArray]

theorem fresh_newTable (h : Heap) (entries : Dict Value) :
    h.Fresh (h.newTable entries).2 [.table (h.newTable entries).1] where
  nodup := List.nodup_singleton _
  absent := by simp [Has, newTable]
  has := by simp [Has, newTable]

/-- Loading an item makes a value in which everything is new, however the heap goes on to grow. -/
def Makes (h : Heap) (item : Json) : Prop :=
  ∃ made, h.Fresh (h.load item).2 made ∧
    ∀ h', (h.load item).2.Grows h' → h'.Inside (h.load item).1 made

theorem makes_of_load_eq {item : Json} (hload : h.load item = (v, h)) (hv : v.composite? = none) :
    h.Makes item := by
  refine ⟨[], ⟨List.nodup_nil, nofun, nofun⟩, fun h' _ => ?_⟩
  rw [hload]
  exact .atom hv

theorem makes_items {n : ℕ} {items : List Json} (hs : ∀ item ∈ items, item.Shaped n)
    (hitems : ∀ item ∈ items, ∀ h : Heap, h.Makes item) (h : Heap) :
    ∃ parts : List (List Composite), h.Fresh (h.loadItems items).2 parts.flatten ∧
      ∀ h', (h.loadItems items).2.Grows h' →
        List.Forall₂ h'.Inside (h.loadItems items).1 parts := by
  induction items generalizing h with
  | nil => exact ⟨[], ⟨List.nodup_nil, nofun, nofun⟩, fun _ _ => .nil⟩
  | cons item items ih =>
    obtain ⟨hshaped, hs⟩ := List.forall_mem_cons.mp hs
    obtain ⟨hitem, hitems⟩ := List.forall_mem_cons.mp hitems
    obtain ⟨made, hfresh, hinside⟩ := hitem h
    obtain ⟨parts, hrest, hparts⟩ := ih hs hitems (h.load item).2
    have hgrows := (loads hshaped h).1
    have hgrows' := (loads_items (fun item hitem => loads (hs item hitem)) (h.load item).2).1
    rw [loadItems]
    refine ⟨made :: parts, ?_, fun h' hh' => ?_⟩
    · exact hfresh.append hrest hgrows hgrows'
    · exact .cons (hinside h' (hgrows'.trans hh')) (hparts h' hh')

theorem makes_members {n : ℕ} {members : List (Text × Json)}
    (hs : ∀ member ∈ members, member.2.Shaped n)
    (hmembers : ∀ member ∈ members, ∀ h : Heap, h.Makes member.2) (h : Heap) :
    ∃ parts : List (List Composite), h.Fresh (h.loadMembers members).2 parts.flatten ∧
      ∀ h', (h.loadMembers members).2.Grows h' →
        List.Forall₂ h'.Inside ((h.loadMembers members).1.map (·.2)) parts := by
  induction members generalizing h with
  | nil => exact ⟨[], ⟨List.nodup_nil, nofun, nofun⟩, fun _ _ => .nil⟩
  | cons member members ih =>
    obtain ⟨hshaped, hs⟩ := List.forall_mem_cons.mp hs
    obtain ⟨hmember, hmembers⟩ := List.forall_mem_cons.mp hmembers
    obtain ⟨made, hfresh, hinside⟩ := hmember h
    obtain ⟨parts, hrest, hparts⟩ := ih hs hmembers (h.load member.2).2
    have hgrows := (loads hshaped h).1
    have hgrows' :=
      (loads_members (fun member hmember => loads (hs member hmember)) (h.load member.2).2).1
    rw [loadMembers]
    refine ⟨made :: parts, ?_, fun h' hh' => ?_⟩
    · exact hfresh.append hrest hgrows hgrows'
    · exact .cons (hinside h' (hgrows'.trans hh')) (hparts h' hh')

/-- What is made of a document is new. The parts come before the whole, which is made of them. -/
theorem makes {n : ℕ} {d : Json} (hs : d.Shaped n) (h : Heap) : h.Makes d := by
  induction hs generalizing h with
  | null | boolean | number | string => exact makes_of_load_eq rfl rfl
  | @array n items hitems ih =>
    obtain ⟨parts, hfresh, hparts⟩ := makes_items hitems ih h
    have hgrows := (loads_items (fun item hitem => loads (hitems item hitem)) h).1
    have hnew := grows_newArray (h.loadItems items).2 (h.loadItems items).1.toArray
    have hboth := hfresh.append (fresh_newArray _ (h.loadItems items).1.toArray) hgrows hnew
    rw [Makes, load]
    refine ⟨_, hboth.perm (List.perm_append_singleton _ _), fun h' hh' => ?_⟩
    refine .composite rfl ?_
    rw [members, array_of_grows_newArray hh']
    exact hparts h' (hnew.trans hh')
  | @object n members hnames hmembers ih =>
    obtain ⟨parts, hfresh, hparts⟩ := makes_members hmembers ih h
    obtain ⟨hgrows, htrees⟩ := loads_members (fun member hmember => loads (hmembers member hmember)) h
    have hnew := grows_newTable (h.loadMembers members).2 (.ofList (h.loadMembers members).1)
    have hboth := hfresh.append (fresh_newTable _ (.ofList (h.loadMembers members).1)) hgrows hnew
    have hkeys : (h.loadMembers members).1.map (·.1) = members.map (·.1) :=
      map_eq_of_forall₂ (htrees _ (.refl _)) fun _ _ h => h.1
    rw [Makes, load]
    refine ⟨_, hboth.perm (List.perm_append_singleton _ _), fun h' hh' => ?_⟩
    refine .composite rfl ?_
    rw [Heap.members, table_of_grows_newTable hh', Dict.ofList_of_nodup (hkeys ▸ hnames)]
    exact hparts h' (hnew.trans hh')

theorem footprint_load {n : ℕ} {d : Json} (hs : d.Shaped n) :
    h.Footprint .fromJson values (h.load d).1 (h.load d).2 := by
  apply footprint_of_grows (loads hs h).1
  · intro u hu
    exact nomatch hu
  · exact fun hm => absurd hm (by decide)
  · intro _
    obtain ⟨made, hfresh, hinside⟩ := makes hs h
    exact ⟨made, hinside _ (.refl _), hfresh⟩

end Heap

/-! ## Calls -/

namespace Run

variable {f : StandardFunction} {values : List Value} {w : World} {m : Run Value}

/-- A run that calls a function leaves the scopes as they are, however it ends. If it gives a value,
it leaves the arrays and tables as they are but for the footprint of the call. -/
def Leaves (f : StandardFunction) (values : List Value) (w : World) (m : Run Value) : Prop :=
  (m.run w).2.scopes = w.scopes ∧
    ∀ v, (m.run w).1 = .ok v → w.heap.Footprint f values v (m.run w).2.heap

theorem leaves_pure {v : Value} (hv : w.heap.Footprint f values v w.heap) :
    Leaves f values w (pure v) := by
  refine ⟨rfl, ?_⟩
  rintro _ ⟨⟩
  exact hv

theorem leaves_halt (halt : Halt) : Leaves f values w (Run.halt halt) := ⟨rfl, nofun⟩

theorem leaves_onHeap {g : Heap → Value × Heap}
    (hg : w.heap.Footprint f values (g w.heap).1 (g w.heap).2) :
    Leaves f values w (onHeap g) := by
  refine ⟨rfl, ?_⟩
  rintro _ ⟨⟩
  exact hg

/-- A run that changes no array or table, for a function that makes none and hands nothing out. -/
theorem leaves_of_spares {Q : Value → Prop} (hm : ∀ scopes heap, Spares scopes heap m Q)
    (ha : f ∉ accessors) (hnew : f ∉ makers) (hj : f ≠ .fromJson) : Leaves f values w m := by
  obtain ⟨⟨hscopes, hheap⟩, -⟩ := hm w.scopes w.heap w ⟨rfl, rfl⟩
  refine ⟨hscopes, fun v _ => ?_⟩
  rw [hheap]
  refine Heap.footprint_self (fun u hu => ?_) hnew hj
  exact nomatch (Heap.handed?_eq_none ha).symm.trans hu

theorem leaves_withArguments {name : Text} {kinds : List Kind} {body : Arguments kinds → Run Value}
    (hb : ∀ arguments, values = arguments.values → Leaves f values w (body arguments))
    (hnone : (∀ arguments : Arguments kinds, values ≠ arguments.values) →
      w.heap.handed? f values = none) (hf : f ≠ .createArray) :
    Leaves f values w (withArguments name kinds values body) := by
  by_cases hfit : ∃ arguments : Arguments kinds, values = arguments.values
  · obtain ⟨arguments, harguments⟩ := hfit
    have hread := readArguments_eq_ok_iff.mpr harguments
    unfold withArguments
    rw [hread]
    exact hb arguments harguments
  · have hne : ∀ arguments : Arguments kinds, values ≠ arguments.values :=
      fun arguments harguments => hfit ⟨arguments, harguments⟩
    obtain ⟨message, hrun⟩ := @run_withArguments_of_forall_ne name kinds values w body hne
    rw [Leaves, hrun]
    refine ⟨rfl, ?_⟩
    rintro _ ⟨⟩
    exact Heap.footprint_error message hf (hnone hne)

end Run

namespace StandardFunction

open Run Heap

variable {setup : Setup} {w : World} {values : List Value}

theorem leaves_readJson (t : Text) : Leaves .fromJson values w (readJson setup t) := by
  unfold readJson
  split
  · next d hread => exact leaves_onHeap (footprint_load (Json.shaped_of_read hread))
  · exact leaves_pure (footprint_error _ (by decide) rfl)
  · unfold nestedTooDeeply
    split
    · exact leaves_pure (footprint_error _ (by decide) rfl)
    · exact leaves_halt _

/-- A function of the library is quiet if it makes nothing, changes nothing and hands nothing out. -/
def quiet : List StandardFunction :=
  [print, toString, toJson, arrayLen, stringLen, stringContains, stringToLower, stringWidth,
    stringTruncateToWidth, renderViewport, floor]

theorem spares_of_quiet {f : StandardFunction} (hf : f ∈ quiet) (scopes : Scopes Value)
    (heap : Heap) : Spares scopes heap (f.call setup values) Value.Plain := by
  have hread {g : Heap → Value} (hg : ∀ h, (g h).Plain) :
      Spares scopes heap (do return g (← Run.heap)) Value.Plain :=
    ensures_bind (ensures_bind ensures_get fun _ _ => ensures_pure trivial) fun h (_ : True) =>
      ensures_pure (hg h)
  cases f with
  | print => exact spares_printLine setup values
  | toString =>
    refine spares_withArguments fun (v, _) => ?_
    exact ensures_bind (spares_displayText setup v) fun _ _ => ensures_pure fun _ => trivial
  | toJson => exact spares_withArguments fun (v, _) => spares_writeJson setup v
  | arrayLen => exact spares_withArguments fun _ => hread fun _ _ => trivial
  | stringLen | stringContains | stringToLower | stringWidth =>
    exact spares_withArguments fun _ => ensures_pure fun _ => trivial
  | stringTruncateToWidth =>
    exact spares_withArguments fun (t, x, _) => ensures_pure fun _ => truncated_within t x
  | renderViewport =>
    exact spares_withArguments fun (t, x, y, z, _) => ensures_pure fun _ => rendered_within t x y z
  | floor => exact spares_withArguments fun (x, _) => ensures_pure fun _ => floored_within x
  | _ => exact absurd hf (by decide)

theorem leaves_call (setup : Setup) (f : StandardFunction) (values : List Value) (w : World) :
    Leaves f values w (f.call setup values) := by
  by_cases hquiet : f ∈ quiet
  · have hapart : ∀ f ∈ quiet, f ∉ accessors ∧ f ∉ makers ∧ f ≠ fromJson := by decide
    obtain ⟨haccess, hmakes, hjson⟩ := hapart f hquiet
    exact leaves_of_spares (spares_of_quiet hquiet) haccess hmakes hjson
  cases f with
  | fromJson =>
    apply leaves_withArguments
    · rintro ⟨t, _⟩ _
      exact leaves_readJson t
    · exact fun _ => rfl
    · decide
  | createArray =>
    change Leaves .createArray values w (onHeap (·.createArray values))
    apply leaves_onHeap
    exact footprint_of_fresh (by decide) (grows_newArray _ _) rfl (fresh_newArray _ _)
  | createTable =>
    apply leaves_withArguments
    · intro _ _
      exact leaves_onHeap (footprint_of_fresh (by decide) (grows_newTable _ _) rfl
        (fresh_newTable _ _))
    · exact fun _ => rfl
    · decide
  | tableKeys | stringSplitLines =>
    apply leaves_withArguments
    · rintro ⟨_, _⟩ _
      exact leaves_onHeap (footprint_of_fresh (by decide) (grows_newArray _ _) rfl
        (fresh_newArray _ _))
    · exact fun _ => rfl
    · decide
  | arraySet =>
    apply leaves_withArguments
    · rintro ⟨id, x, v, _⟩ rfl
      exact leaves_onHeap footprint_arraySet
    · exact fun _ => rfl
    · decide
  | arrayPushBack =>
    apply leaves_withArguments
    · rintro ⟨id, v, _⟩ rfl
      exact leaves_onHeap (footprint_modifyArray (by decide) _ (.inr ⟨rfl, rfl⟩))
    · exact fun _ => rfl
    · decide
  | arrayInsert =>
    apply leaves_withArguments
    · rintro ⟨id, x, v, _⟩ rfl
      exact leaves_onHeap footprint_arrayInsert
    · exact fun _ => rfl
    · decide
  | tableSet =>
    apply leaves_withArguments
    · rintro ⟨id, key, v, _⟩ rfl
      exact leaves_onHeap (footprint_modifyTable (by decide) _ rfl)
    · exact fun _ => rfl
    · decide
  | tableMerge =>
    apply leaves_withArguments
    · rintro ⟨destination, source, _⟩ rfl
      exact leaves_onHeap (footprint_modifyTable (by decide) _ rfl)
    · exact fun _ => rfl
    · decide
  | arrayGet =>
    apply leaves_withArguments
    · rintro ⟨id, x, _⟩ rfl
      exact leaves_pure footprint_arrayGet
    · exact handed?_eq_none_of_forall_ne (f := .arrayGet)
    · decide
  | arrayPopBack =>
    apply leaves_withArguments
    · rintro ⟨id, _⟩ rfl
      exact leaves_onHeap footprint_arrayPopBack
    · exact handed?_eq_none_of_forall_ne (f := .arrayPopBack)
    · decide
  | arrayRemove =>
    apply leaves_withArguments
    · rintro ⟨id, x, _⟩ rfl
      exact leaves_onHeap footprint_arrayRemove
    · exact handed?_eq_none_of_forall_ne (f := .arrayRemove)
    · decide
  | tableGet =>
    apply leaves_withArguments
    · rintro ⟨id, key, _⟩ rfl
      exact leaves_pure footprint_tableGet
    · exact handed?_eq_none_of_forall_ne (f := .tableGet)
    · decide
  | _ => exact absurd (by decide) hquiet

/-- A call of the standard library that answers, on whatever values and whatever the heap holds,
leaves all scopes as they are. It changes no array or table but its first argument, none at all if it
answers with an error of its own, and what it makes is not what was there before. -/
theorem call_footprint {setup : Setup} {f : StandardFunction} {values : List Value} {w w' : World}
    {v : Value} (hrun : (f.call setup values).run w = (.ok v, w')) :
    w'.scopes = w.scopes ∧ w.heap.Footprint f values v w'.heap := by
  obtain ⟨hscopes, hfootprint⟩ := leaves_call setup f values w
  rw [hrun] at hscopes hfootprint
  exact ⟨hscopes, hfootprint v rfl⟩

/-- A world with an array that holds itself and, behind that, an error. -/
def harbouring : World where
  scopes := ⟨#[]⟩
  heap := ⟨#[#[.array 0, .error "lost"]], #[]⟩
  closures := 0
  events := #[]
  link := none
  replies := []

theorem call_footprint_harbouring :
    (arrayPopBack.call ⟨9, 9, true, .default, .usual⟩ [.array 0]).run harbouring =
      (.ok (.error "lost"), { harbouring with heap := ⟨#[#[.array 0]], #[]⟩ }) ∧
    harbouring.heap.Footprint .arrayPopBack [.array 0] (.error "lost") ⟨#[#[.array 0]], #[]⟩ ∧
    ∃ v w cs, (fromJson.call ⟨9, 9, true, .default, .usual⟩ [.string roundabout]).run harbouring =
        (.ok v, w) ∧
      w.heap.Inside v cs ∧ harbouring.heap.Fresh w.heap cs := by
  have hpop : (arrayPopBack.call ⟨9, 9, true, .default, .usual⟩ [.array 0]).run harbouring =
      (.ok (.error "lost"), { harbouring with heap := ⟨#[#[.array 0]], #[]⟩ }) := rfl
  have hread : (fromJson.call ⟨9, 9, true, .default, .usual⟩ [.string roundabout]).run
      harbouring = _ := run_fromJson_of_read read_roundabout harbouring
  obtain ⟨cs, hinside, hfresh⟩ := (call_footprint hread).2.loaded rfl
  exact ⟨hpop, (call_footprint hpop).2, _, _, cs, hread, hinside, hfresh⟩

end StandardFunction

end HostScript
