import HostScript.Proofs.Run.Steps
import HostScript.Proofs.Session.Ending

/-!
# A script whose value cannot be shown

A loop puts an array into another one again and again. Nothing in it is recursive, so the script
succeeds; it stops as soon as `toJson` refuses the array. Inside of the loop and the call `toJson`
has a little less than the whole bound, so a few more arrays are put around that one; then it cannot
be shown at all. A worker that has run the script ends with scripts left in its queue
(`deepSource_ends`).
-/

namespace HostScript

/-! ## Towers -/

/-- The arrays of a heap up to number `n` form a tower: each holds the one before and nothing else.
There is an empty table besides. -/
structure Heap.Tower (n : Nat) (h : Heap) : Prop where
  size : h.arrays.size = n + 1
  base : h.array 0 = #[]
  step : ∀ i < n, h.array (i + 1) = #[.array i]
  table : h.table 0 = .empty

namespace Heap.Tower

variable {n : Nat} {h : Heap}

theorem grow (ht : h.Tower n) : (h.createArray [.array n]).2.Tower (n + 1) := by
  have hnew (id : Nat) : (h.createArray [.array n]).2.array id =
      if id = n + 1 then #[.array n] else h.array id := by
    rw [← ht.size]
    exact array_newArray h _ id
  refine ⟨?_, ?_, fun i hi => ?_, ht.table⟩
  · rw [← ht.size]
    exact Array.size_push _
  · rw [hnew, if_neg (by omega), ht.base]
  · rw [hnew]
    by_cases hin : i = n
    · rw [if_pos (by omega), hin]
    · rw [if_neg (by omega), ht.step i (by omega)]

theorem createArray_fst (ht : h.Tower n) : (h.createArray [.array n]).1 = .array (n + 1) := by
  rw [← ht.size]
  rfl

/-- A storey has a document if the bound admits more levels than there are below it. -/
theorem documentIn (ht : h.Tower n) {i : Nat} (hi : i ≤ n) (depth : Nat)
    {active : List Composite} (ha : ∀ j ≤ i, Composite.array j ∉ active) :
    (i < depth → ∃ document, (Value.array i).documentIn h depth active = .ok document) ∧
      (depth ≤ i → (Value.array i).documentIn h depth active = .error .tooDeep) := by
  induction i generalizing depth active with
  | zero =>
    cases depth with
    | zero => exact ⟨fun h => absurd h (Nat.lt_irrefl 0), fun _ => rfl⟩
    | succ depth =>
      refine ⟨fun _ => ⟨.array [], ?_⟩, fun h => absurd h (by omega)⟩
      simp [Value.documentIn, ha 0 (Nat.le_refl 0), ht.base, bind, Except.bind, pure,
        Except.pure]
  | succ i ih =>
    cases depth with
    | zero => exact ⟨fun h => absurd h (by omega), fun _ => rfl⟩
    | succ depth =>
      have hbelow : ∀ j ≤ i, Composite.array j ∉ Composite.array (i + 1) :: active := by
        intro j hj hmem
        rcases List.mem_cons.mp hmem with heq | hmem
        · have hji : (j : Nat) = i + 1 := Composite.array.inj heq
          omega
        · exact ha j (by omega) hmem
      obtain ⟨hok, herror⟩ := ih (by omega) depth hbelow
      have hunfold : (Value.array (i + 1)).documentIn h (depth + 1) active = (do
          return .array (← [Value.array i].mapM
            (Value.documentIn h depth (.array (i + 1) :: active)))) := by
        simp [Value.documentIn, ha (i + 1) (Nat.le_refl _), ht.step i (by omega)]
      rw [hunfold]
      refine ⟨fun hlt => ?_, fun hle => ?_⟩
      · obtain ⟨document, hd⟩ := hok (by omega)
        exact ⟨.array [document], by simp [hd, bind, Except.bind, pure, Except.pure]⟩
      · simp [herror (by omega), bind, Except.bind]

/-- A storey with as many levels below it as the bound cannot be shown. -/
theorem displayIn (ht : h.Tower n) {i : Nat} (hi : i ≤ n) {depth : Nat} (hd : depth ≤ i)
    {active : List Composite} (ha : ∀ j ≤ i, Composite.array j ∉ active) :
    (Value.array i).displayIn h depth active = none := by
  induction depth generalizing i active with
  | zero => rfl
  | succ depth ih =>
    obtain ⟨i, rfl⟩ : ∃ j, i = j + 1 := ⟨i - 1, by omega⟩
    rw [Value.displayIn_succ_eq_none_iff (c := .array (i + 1)) rfl]
    refine ⟨ha _ (Nat.le_refl _), .array i, ?_, ih (by omega) (by omega) ?_⟩
    · simp [Heap.members, ht.step i (by omega)]
    · intro j hj hmem
      rcases List.mem_cons.mp hmem with heq | hmem
      · have hji : (j : Nat) = i + 1 := Composite.array.inj heq
        omega
      · exact ha j (by omega) hmem

end Heap.Tower

/-! ## The loop -/

/-- A script that builds a tower. -/
def deepSource : Text :=
  "let a = []; let t = createTable(); loop \x7b if t[toJson(a)] \x7b break \x7d a = [a] \x7d" ++
    " [[[[[a]]]]]"

/-- The condition on which its loop is left: an entry of a table under the document of the array. It
is null if there is a document, and an error otherwise. -/
def refused : Expr :=
  .index (.variable "t" ⟨45, 46, 1⟩)
    (.call (.variable "toJson" ⟨47, 53, 1⟩) [.variable "a" ⟨54, 55, 1⟩] ⟨53, 54, 1⟩) ⟨46, 47, 1⟩

/-- The body of its loop. -/
def storey : List Stmt :=
  [.branch refused [.leave ⟨60, 65, 1⟩] none ⟨42, 44, 1⟩,
    .assign "a" (.array [.variable "a" ⟨73, 74, 1⟩] ⟨72, 73, 1⟩) ⟨68, 69, 1⟩]

/-- The arrays that are put around the array in the end. -/
def capped : Expr :=
  .array [.array [.array [.array [.array [.variable "a" ⟨83, 84, 1⟩] ⟨82, 83, 1⟩] ⟨81, 82, 1⟩]
    ⟨80, 81, 1⟩] ⟨79, 80, 1⟩] ⟨78, 79, 1⟩

/-- Its statements. -/
def deepProgram : List Stmt :=
  [.declare "a" (.array [] ⟨8, 9, 1⟩) ⟨0, 3, 1⟩,
    .declare "t" (.call (.variable "createTable" ⟨20, 31, 1⟩) [] ⟨31, 32, 1⟩) ⟨12, 15, 1⟩,
    .loop storey ⟨35, 39, 1⟩,
    .expression capped ⟨78, 79, 1⟩]

/-- A world in which the tower has grown to number `n`. -/
structure World.Building (n : Nat) (w : World) : Prop where
  size : 0 < w.scopes.frames.size
  array : (w.scopes.bindings 0).get? "a" = some (.array n)
  table : (w.scopes.bindings 0).get? "t" = some (.table 0)
  toJson : (w.scopes.bindings 0).get? "toJson" = some (.function (.native (.standard .toJson)))
  tower : w.heap.Tower n

namespace Run

variable {setup : Setup} {n : Nat} {w : World}

/-- The world inside a new scope. -/
def inner (w : World) (env : Env) : World := { w with scopes := (w.scopes.child env).2 }

theorem run_writeJson_of_ok {v : Value} {document : Json}
    (hd : v.document w.heap setup.depth = .ok document) :
    (StandardFunction.writeJson setup v).run w =
      (.ok (.string (document.finite.write .plain)), w) := by
  rw [StandardFunction.writeJson, run_bind, run_heap]
  simp only [hd, run_pure]

theorem run_writeJson_of_tooDeep {v : Value} (hl : setup.lenient = true)
    (hd : v.document w.heap setup.depth = .error .tooDeep) :
    ∃ message, (StandardFunction.writeJson setup v).run w = (.ok (.error message), w) := by
  refine ⟨"toJson: value is nested too deeply", ?_⟩
  rw [StandardFunction.writeJson, run_bind, run_heap]
  simp only [hd, StandardFunction.nestedTooDeeply, hl, if_true, run_pure]

theorem run_refused (hl : setup.lenient = true) (depth : Nat) (hb : w.Building n) :
    ∃ v, (evaluate setup (depth + 3) (w.scopes.child ⟨0, []⟩).1 refused).run (inner w ⟨0, []⟩) =
      (.ok v, inner w ⟨0, []⟩) ∧ (n < depth → v.truthy = false) ∧
        (depth ≤ n → v.truthy = true) := by
  have hlookup (name : Name) (v : Value) (hv : (w.scopes.bindings 0).get? name = some v)
      (span : Span) : (lookup (w.scopes.child ⟨0, []⟩).1 name span).run (inner w ⟨0, []⟩) =
        (.ok v, inner w ⟨0, []⟩) := by
    refine run_lookup_of_get? ?_ span
    rw [inner, Scopes.get?_child]
    exact Scopes.get?_of_bindings hv
  have harguments (body : Arguments [.any] → Run Value) :
      withArguments (Text.ofString StandardFunction.toJson.name) [.any] [.array n] body =
        body (.array n, ()) := rfl
  simp only [refused, evaluate, run_bind, hlookup _ _ hb.table, hlookup _ _ hb.toJson,
    List.mapM_cons, hlookup _ _ hb.array, List.mapM_nil, run_pure, callFunction, callNative,
    StandardFunction.call, harguments]
  have hnothing : ∀ j ≤ n, Composite.array j ∉ [] := fun _ _ => List.not_mem_nil
  obtain ⟨hok, htooDeep⟩ := hb.tower.documentIn (Nat.le_refl n) depth hnothing
  by_cases hn : n < depth
  · obtain ⟨document, hd⟩ := hok hn
    have hwritten : (StandardFunction.writeJson { setup with depth } (.array n)).run
        (inner w ⟨0, []⟩) = _ := run_writeJson_of_ok hd
    rw [hwritten]
    refine ⟨_, rfl, fun _ => ?_, fun h => absurd hn (by omega)⟩
    have hempty : (inner w ⟨0, []⟩).heap.table 0 = .empty := hb.tower.table
    simp [Heap.index, hempty, Value.truthy]
  · obtain ⟨message, hrefused⟩ : ∃ message, (StandardFunction.writeJson { setup with depth }
        (.array n)).run (inner w ⟨0, []⟩) = (.ok (.error message), inner w ⟨0, []⟩) :=
      run_writeJson_of_tooDeep hl (htooDeep (by omega))
    rw [hrefused]
    exact ⟨_, rfl, fun h => absurd h hn, fun _ => rfl⟩

/-- A turn of the loop. -/
def turn (setup : Setup) (depth : Nat) : Run Flow := do
  block (execute setup depth (← enter ⟨0, []⟩)) storey

theorem run_enter_inner (env : Env) (w : World) :
    (enter env).run w = (.ok (w.scopes.child env).1, inner w env) := rfl

theorem building_inner (hb : w.Building n) (env : Env) : (inner w env).Building n where
  size := by
    have hsize : (w.scopes.child env).2.frames.size = w.scopes.frames.size + 1 := Array.size_push _
    rw [inner, hsize]
    exact Nat.succ_pos _
  array := by rw [inner, Scopes.bindings_child, hb.array]
  table := by rw [inner, Scopes.bindings_child, hb.table]
  toJson := by rw [inner, Scopes.bindings_child, hb.toJson]
  tower := hb.tower

/-- At the bound a turn leaves the loop. -/
theorem run_turn_leaves (hl : setup.lenient = true) (depth : Nat) (hb : w.Building n)
    (hn : depth ≤ n) :
    ∃ w', (turn setup (depth + 4)).run w = (.ok .leave, w') ∧ w'.Building n := by
  obtain ⟨v, hv, -, htrue⟩ := run_refused hl depth hb
  refine ⟨inner (inner w ⟨0, []⟩) (w.scopes.child ⟨0, []⟩).1, ?_, building_inner (building_inner hb _) _⟩
  simp only [turn, storey, block, execute, run_bind, run_enter_inner, hv, htrue hn, run_pure]

/-- The world after the array has been put into a new one. -/
def grown (w : World) : World :=
  { w with
    scopes := w.scopes.bind 0 "a" (.array w.heap.arrays.size)
    heap := (w.heap.createArray [.array (w.heap.arrays.size - 1)]).2 }

theorem building_grown (hb : w.Building n) : (grown w).Building (n + 1) where
  size := by simpa [grown, Scopes.bind] using hb.size
  array := by
    rw [grown, Scopes.bindings_bind, if_pos ⟨rfl, hb.size⟩, Dict.get?_put_self, hb.tower.size]
  table := by
    rw [grown, Scopes.bindings_bind, if_pos ⟨rfl, hb.size⟩, Dict.get?_put_of_ne _ _ (by decide),
      hb.table]
  toJson := by
    rw [grown, Scopes.bindings_bind, if_pos ⟨rfl, hb.size⟩, Dict.get?_put_of_ne _ _ (by decide),
      hb.toJson]
  tower := by
    have ht := hb.tower.grow
    simpa [grown, hb.tower.size] using ht

/-- Below the bound a turn adds one storey. -/
theorem run_turn_grows (hl : setup.lenient = true) (depth : Nat) (hb : w.Building n)
    (hn : n < depth) :
    ∃ w', (turn setup (depth + 4)).run w = (.ok .normal, w') ∧ w'.Building (n + 1) := by
  obtain ⟨v, hv, hfalse, -⟩ := run_refused hl depth hb
  have hin := building_inner hb ⟨0, []⟩
  refine ⟨grown (inner w ⟨0, []⟩), ?_, building_grown hin⟩
  have harray (span : Span) : (lookup (w.scopes.child ⟨0, []⟩).1 "a" span).run (inner w ⟨0, []⟩) =
      (.ok (.array n), inner w ⟨0, []⟩) := by
    refine run_lookup_of_get? ?_ span
    rw [inner, Scopes.get?_child]
    exact Scopes.get?_of_bindings hb.array
  have howner : (w.scopes.child ⟨0, []⟩).2.owner? "a" (w.scopes.child ⟨0, []⟩).1.path = some 0 := by
    rw [Scopes.owner?_child]
    exact Scopes.owner?_cons_of_get? hb.array
  have hwrap (first second : Span) :
      (evaluate setup (depth + 3) (w.scopes.child ⟨0, []⟩).1 (.array [.variable "a" first] second)).run
        (inner w ⟨0, []⟩) = (.ok (.array (n + 1)),
          { inner w ⟨0, []⟩ with heap := ((inner w ⟨0, []⟩).heap.createArray [.array n]).2 }) := by
    simp only [evaluate, run_bind, List.mapM_cons, List.mapM_nil, harray, run_pure, run_onHeap]
    rw [hin.tower.createArray_fst]
  simp only [turn, storey, block, execute, run_bind, run_enter_inner, hv, hfalse hn, run_pure, hwrap]
  rw [run_assign_of_owner? (w := { inner w ⟨0, []⟩ with
    heap := ((inner w ⟨0, []⟩).heap.createArray [.array n]).2 }) howner]
  simp only [grown, hin.tower.size, Nat.add_sub_cancel]
  rfl

/-- The loop goes on until the tower has as many storeys as the bound admits. -/
theorem run_loop (hl : setup.lenient = true) (depth : Nat) {k bound : Nat} (hb : w.Building n)
    (hk : n + k = depth) (hbound : k < bound) :
    ∃ w', (iterate (turn setup (depth + 4)) bound).run w = (.ok .normal, w') ∧
      w'.Building depth := by
  induction k generalizing n w bound with
  | zero =>
    obtain ⟨bound, rfl⟩ := Nat.exists_eq_add_of_lt hbound
    obtain ⟨w', hr, hb'⟩ := run_turn_leaves hl depth hb (by omega)
    refine ⟨w', ?_, by rwa [← hk]⟩
    rw [Nat.zero_add, iterate, run_bind, hr]
    rfl
  | succ k ih =>
    obtain ⟨bound, rfl⟩ : ∃ more, bound = more + 1 := ⟨bound - 1, by omega⟩
    obtain ⟨w₁, hr, hb₁⟩ := run_turn_grows hl depth hb (by omega)
    have hshort : k < bound := by omega
    obtain ⟨w', hrest, hb'⟩ := ih hb₁ (by omega) hshort
    refine ⟨w', ?_, hb'⟩
    rw [iterate, run_bind, hr]
    exact hrest

/-- An array around one in which a tower ends is the next storey. -/
theorem run_wrap {depth : Nat} {env : Env} {e : Expr} {w' : World}
    (he : (evaluate setup depth env e).run w = (.ok (.array n), w')) (ht : w'.heap.Tower n)
    (span : Span) :
    ∃ w'', (evaluate setup (depth + 1) env (.array [e] span)).run w = (.ok (.array (n + 1)), w'') ∧
      w''.heap.Tower (n + 1) := by
  refine ⟨{ w' with heap := (w'.heap.createArray [.array n]).2 }, ?_, ht.grow⟩
  simp only [evaluate, run_bind, List.mapM_cons, List.mapM_nil, he, run_pure, run_onHeap]
  rw [ht.createArray_fst]

theorem run_capped {depth : Nat} {env : Env}
    (ha : ∀ span, (evaluate setup (depth + 1) env (.variable "a" span)).run w = (.ok (.array n), w))
    (ht : w.heap.Tower n) :
    ∃ w', (evaluate setup (depth + 6) env capped).run w = (.ok (.array (n + 5)), w') ∧
      w'.heap.Tower (n + 5) := by
  obtain ⟨w₁, h₁, ht₁⟩ := run_wrap (ha _) ht ⟨82, 83, 1⟩
  obtain ⟨w₂, h₂, ht₂⟩ := run_wrap h₁ ht₁ ⟨81, 82, 1⟩
  obtain ⟨w₃, h₃, ht₃⟩ := run_wrap h₂ ht₂ ⟨80, 81, 1⟩
  obtain ⟨w₄, h₄, ht₄⟩ := run_wrap h₃ ht₃ ⟨79, 80, 1⟩
  exact run_wrap h₄ ht₄ ⟨78, 79, 1⟩

/-! ## The script -/

/-- The world after the array has been bound. -/
def begun (w : World) : World :=
  { w with scopes := w.scopes.bind 0 "a" (.array 0), heap := (w.heap.createArray []).2 }

/-- The world after the table has been bound too. -/
def furnished (w : World) : World :=
  { begun w with
    scopes := (begun w).scopes.bind 0 "t" (.table 0)
    heap := (begun w).heap.createTable.2 }

section

variable (hheap : w.heap = .empty)

include hheap

theorem run_declare_array (depth : Nat) (first second : Span) :
    (execute setup (depth + 2) ⟨0, []⟩ (.declare "a" (.array [] first) second)).run w =
      (.ok .normal, begun w) := by
  have harray : (evaluate setup (depth + 1) ⟨0, []⟩ (.array [] first)).run w =
      (.ok (.array 0), { w with heap := (w.heap.createArray []).2 }) := by
    simp only [evaluate, run_bind, List.mapM_nil, run_pure, run_onHeap]
    rw [hheap]
    rfl
  rw [execute, run_bind, harray]
  rfl

variable (hsize : 0 < w.scopes.frames.size)

include hsize

theorem run_declare_table
    (hcreate : (w.scopes.bindings 0).get? "createTable" =
      some (.function (.native (.standard .createTable))))
    (depth : Nat) (first second third : Span) :
    (execute setup (depth + 3) ⟨0, []⟩
      (.declare "t" (.call (.variable "createTable" first) [] second) third)).run (begun w) =
        (.ok .normal, furnished w) := by
  have hbound : ((begun w).scopes.bindings 0).get? "createTable" =
      some (.function (.native (.standard .createTable))) := by
    rw [begun, Scopes.bindings_bind, if_pos ⟨rfl, hsize⟩, Dict.get?_put_of_ne _ _ (by decide),
      hcreate]
  have hget : (begun w).scopes.get? ⟨0, []⟩ "createTable" =
      some (.function (.native (.standard .createTable))) := Scopes.get?_of_bindings hbound
  have hlookup := run_lookup_of_get? hget first
  have hmade : (begun w).heap.createTable.1 = .table 0 := by
    simp only [begun, hheap]
    rfl
  have htable : (evaluate setup (depth + 2) ⟨0, []⟩
      (.call (.variable "createTable" first) [] second)).run (begun w) =
        (.ok (.table 0), { begun w with heap := (begun w).heap.createTable.2 }) := by
    simp only [evaluate, run_bind, hlookup, List.mapM_nil, run_pure, callFunction, callNative]
    rw [← hmade]
    rfl
  rw [execute, run_bind, htable]
  rfl

theorem building_furnished
    (hjson : (w.scopes.bindings 0).get? "toJson" =
      some (.function (.native (.standard .toJson)))) :
    (furnished w).Building 0 := by
  have hsize' : 0 < (begun w).scopes.frames.size := by simpa [begun, Scopes.bind] using hsize
  have hbindings : (furnished w).scopes.bindings 0 =
      ((w.scopes.bindings 0).put "a" (.array 0)).put "t" (.table 0) := by
    rw [furnished, Scopes.bindings_bind, if_pos ⟨rfl, hsize'⟩, begun, Scopes.bindings_bind,
      if_pos ⟨rfl, hsize⟩]
  refine ⟨by simpa [furnished, begun, Scopes.bind] using hsize, ?_, ?_, ?_, ?_⟩
  · rw [hbindings, Dict.get?_put_of_ne _ _ (by decide), Dict.get?_put_self]
  · rw [hbindings, Dict.get?_put_self]
  · rw [hbindings, Dict.get?_put_of_ne _ _ (by decide), Dict.get?_put_of_ne _ _ (by decide), hjson]
  · simp only [furnished, begun, hheap]
    exact ⟨rfl, rfl, fun i hi => absurd hi (Nat.not_lt_zero i), rfl⟩

end

theorem run_deepProgram {depth : Nat} (hd : setup.depth = depth + 6) (hl : setup.lenient = true)
    (hi : setup.depth < setup.iterations) (hsize : 0 < w.scopes.frames.size)
    (hheap : w.heap = .empty)
    (hcreate : (w.scopes.bindings 0).get? "createTable" =
      some (.function (.native (.standard .createTable))))
    (hjson : (w.scopes.bindings 0).get? "toJson" =
      some (.function (.native (.standard .toJson)))) :
    ∃ w', (program setup ⟨0, []⟩ .null deepProgram).run w = (.ok (.array setup.depth), w') ∧
      w'.heap.Tower setup.depth := by
  have harray := @run_declare_array setup w hheap (depth + 4)
  have htable := @run_declare_table setup w hheap hsize hcreate (depth + 3)
  -- the loop lets the tower grow to the storey that `toJson` refuses
  have hshort : depth + 1 < setup.iterations := by omega
  obtain ⟨w', hloop, hb⟩ :=
    run_loop hl (depth + 1) (building_furnished hheap hsize hjson) (Nat.zero_add _) hshort
  have hleft (span : Span) : (execute setup (depth + 6) ⟨0, []⟩ (.loop storey span)).run
      (furnished w) = (.ok .normal, w') := by
    rw [execute]
    exact hloop
  have hvariable (span : Span) : (evaluate setup (depth + 1) ⟨0, []⟩ (.variable "a" span)).run w' =
      (.ok (.array (depth + 1)), w') := by
    rw [evaluate]
    exact run_lookup_of_get? (Scopes.get?_of_bindings hb.array) span
  obtain ⟨w'', hresult, htower⟩ := run_capped hvariable hb.tower
  refine ⟨w'', ?_, by rwa [hd]⟩
  simp only [deepProgram, program, hd, run_bind, harray, htable, hleft, hresult, run_pure]

end Run

/-! ## The worker -/

namespace Session

theorem compile_deepSource : compile 1500 deepSource = .ok deepProgram := by
  cbv

/-- The script succeeds in a session in which nothing has run, with a value that cannot be shown. -/
theorem run_deepSource {s : Session} (hroot : s.root = ⟨0, []⟩) (hdepth : s.setup.depth = 1500)
    (hl : s.setup.lenient = true) (hi : s.setup.depth < s.setup.iterations)
    (hsize : 0 < s.world.scopes.frames.size) (hheap : s.world.heap = .empty)
    (hcreate : (s.world.scopes.bindings 0).get? "createTable" =
      some (.function (.native (.standard .createTable))))
    (hjson : (s.world.scopes.bindings 0).get? "toJson" =
      some (.function (.native (.standard .toJson)))) :
    ∃ t, s.run deepSource = (.success (.array 1500), t) ∧ t.display (.array 1500) = none := by
  have hcompile : compile s.setup.depth deepSource = .ok deepProgram := by
    rw [hdepth, compile_deepSource]
  obtain ⟨w', hrun, htower⟩ := Run.run_deepProgram (w := (s.announced deepSource).world) hdepth hl hi
    hsize hheap hcreate hjson
  rw [hdepth] at hrun htower
  refine ⟨{ s with world := w' }, ?_, ?_⟩
  · rw [run_of_compile_ok hcompile, runStatements_of_run (s := s.announced deepSource) hroot hrun]
    rfl
  · have hnothing : ∀ j ≤ 1500, Composite.array j ∉ [] := fun _ _ => List.not_mem_nil
    change (Value.array 1500).displayIn w'.heap s.setup.depth [] = none
    rw [hdepth]
    exact htower.displayIn (Nat.le_refl 1500) (Nat.le_refl 1500) hnothing

/-- A session without a bootstrap script in the thread of a worker. -/
def started : Session :=
  (fresh quiet .bare).log .info "runtime thread started"

theorem run_deepSource_started : ∃ t, started.run deepSource = (.success (.array 1500), t) ∧
    t.display (.array 1500) = none := by
  have hsize : (⟨0, []⟩ : Env).here < (⟨#[.empty]⟩ : Scopes Value).frames.size := Nat.one_pos
  refine run_deepSource rfl rfl rfl (by decide) ?_ rfl (get?_fresh quiet rfl .createTable)
    (get?_fresh quiet rfl .toJson)
  exact Nat.lt_of_lt_of_eq hsize (size_bindNatives _ _ _).symm

end Session

namespace Worker

/-- A worker that has taken nothing from its queue, in which the script stands before another one
and the mark that closing leaves. -/
def beforeDeepSource : Worker :=
  (new Session.quiet .bare).perform
    [.submit deepSource, .submit "print(1)", .start, .close]

theorem beforeDeepSource_eq :
    beforeDeepSource = ⟨Session.quiet, .bare,
      [.script deepSource, .script "print(1)", .stop], true, .running Session.started⟩ := by
  simp only [beforeDeepSource, perform, List.foldl_cons, List.foldl_nil, act, new, submit?,
    hasEnded, Bool.or_self, Bool.false_eq_true, if_false, Option.getD_some, List.nil_append,
    List.cons_append, start?, Session.prepare, Session.quiet, Setting.isOn, close, Session.started]

end Worker

end HostScript
