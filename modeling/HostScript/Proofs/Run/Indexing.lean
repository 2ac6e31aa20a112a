import HostScript.Http.Charset
import HostScript.Proofs.Run.Forward
import HostScript.Proofs.Value.Access
import HostScript.Proofs.Value.Arguments
import HostScript.Proofs.Value.Nesting

/-!
# Indexes and calls

A member can be read and written by an index or by a call of a function of the library. Both evaluate
the same operands in the same order, whatever that does to the array or the table, and then do the
same with their values (`Run.index_call`). The written-out call is one level deeper than the
statement that writes to an index, so it is looked at under a bound that is larger by one.
-/

namespace HostScript

namespace Composite

/-- The function that reads members of a composite of this kind. -/
def reader : Composite → StandardFunction
  | array _ => .arrayGet
  | table _ => .tableGet

/-- The function that writes members of a composite of this kind. -/
def writer : Composite → StandardFunction
  | array _ => .arraySet
  | table _ => .tableSet

/-- A value is of the kind that stands for members: a number for an array, a string for a table. -/
def Takes : Composite → Value → Prop
  | array _, .number _ => True
  | table _, .string _ => True
  | _, _ => False

end Composite

/-- A name of the library means its function in an environment. -/
def World.Binds (w : World) (env : Env) (f : StandardFunction) : Prop :=
  w.scopes.get? env f.name = some (.function (.native (.standard f)))

/-- The functions that read members. -/
def StandardFunction.readers : List StandardFunction := [.arrayGet, .tableGet]

/-- The functions that write members. -/
def StandardFunction.writers : List StandardFunction := [.arraySet, .tableSet]

variable {setup : Setup} {w w₁ w₂ w₃ : World} {t i v : Value} {c : Composite} {f : StandardFunction}

/-! ## Values -/

namespace Composite

theorem reader_mem (c : Composite) : c.reader ∈ StandardFunction.readers := by
  cases c <;> simp [reader, StandardFunction.readers]

theorem writer_mem (c : Composite) : c.writer ∈ StandardFunction.writers := by
  cases c <;> simp [writer, StandardFunction.writers]

theorem run_reader (ht : t.composite? = some c) (hi : c.Takes i) :
    (c.reader.call setup [t, i]).run w = (.ok (w.heap.index t i), w) := by
  cases t with
  | array id =>
    obtain rfl := Option.some.inj ht
    cases i with
    | number x =>
      rw [w.heap.index_array]
      rfl
    | _ => exact hi.elim
  | table id =>
    obtain rfl := Option.some.inj ht
    cases i with
    | string key =>
      rw [w.heap.index_table]
      rfl
    | _ => exact hi.elim
  | _ => simp [Value.composite?] at ht

theorem run_writer (ht : t.composite? = some c) (hi : c.Takes i) :
    (c.writer.call setup [t, i, v]).run w =
      (.ok (w.heap.assignIndex t i v).1, { w with heap := (w.heap.assignIndex t i v).2 }) := by
  cases t with
  | array id =>
    obtain rfl := Option.some.inj ht
    cases i with
    | number x =>
      rw [w.heap.assignIndex_array]
      rfl
    | _ => exact hi.elim
  | table id =>
    obtain rfl := Option.some.inj ht
    cases i with
    | string key =>
      rw [w.heap.assignIndex_table]
      rfl
    | _ => exact hi.elim
  | _ => simp [Value.composite?] at ht

end Composite

section Mismatch

variable (hnot : ∀ c, t.composite? = some c → ¬ c.Takes i)

include hnot

theorem Heap.index_of_not_takes (h : Heap) : ∃ message, h.index t i = .error message := by
  unfold index
  split
  · exact absurd trivial (hnot _ rfl)
  · exact ⟨_, rfl⟩
  · exact absurd trivial (hnot _ rfl)
  · exact ⟨_, rfl⟩
  · exact ⟨_, rfl⟩

theorem Heap.assignIndex_of_not_takes (h : Heap) (v : Value) : (h.assignIndex t i v).2 = h := by
  unfold assignIndex
  split
  · exact absurd trivial (hnot _ rfl)
  · rfl
  · exact absurd trivial (hnot _ rfl)
  · rfl
  · rfl

theorem StandardFunction.run_reader_of_not_takes (hf : f ∈ readers) :
    ∃ message, (f.call setup [t, i]).run w = (.ok (.error message), w) := by
  simp only [readers, List.mem_cons, List.not_mem_nil, or_false] at hf
  rcases hf with rfl | rfl
  · apply run_withArguments_of_forall_ne
    rintro ⟨id, x, ⟨⟩⟩ heq
    simp only [Arguments.values, Kind.value, List.cons.injEq, and_true] at heq
    obtain ⟨rfl, rfl⟩ := heq
    exact hnot _ rfl trivial
  · apply run_withArguments_of_forall_ne
    rintro ⟨id, key, ⟨⟩⟩ heq
    simp only [Arguments.values, Kind.value, List.cons.injEq, and_true] at heq
    obtain ⟨rfl, rfl⟩ := heq
    exact hnot _ rfl trivial

theorem StandardFunction.run_writer_of_not_takes (hf : f ∈ writers) (v : Value) :
    ∃ message, (f.call setup [t, i, v]).run w = (.ok (.error message), w) := by
  simp only [writers, List.mem_cons, List.not_mem_nil, or_false] at hf
  rcases hf with rfl | rfl
  · apply run_withArguments_of_forall_ne
    rintro ⟨id, x, u, ⟨⟩⟩ heq
    simp only [Arguments.values, Kind.value, List.cons.injEq, and_true] at heq
    obtain ⟨rfl, rfl, rfl⟩ := heq
    exact hnot _ rfl trivial
  · apply run_withArguments_of_forall_ne
    rintro ⟨id, key, u, ⟨⟩⟩ heq
    simp only [Arguments.values, Kind.value, List.cons.injEq, and_true] at heq
    obtain ⟨rfl, rfl, rfl⟩ := heq
    exact hnot _ rfl trivial

end Mismatch

/-! ## Expressions and statements -/

/-- A call of a function by its name. -/
def Expr.callOf (f : StandardFunction) (arguments : List Expr) (name span : Span) : Expr :=
  .call (.variable f.name name) arguments span

namespace Run

variable {depth : Nat} {env : Env} {target index value : Expr}

theorem depth_pos_of_evaluate_ok {e : Expr}
    (h : (evaluate setup depth env e).run w = (.ok v, w₁)) : ∃ n, depth = n + 1 := by
  cases depth with
  | zero => exact nomatch h
  | succ n => exact ⟨n, rfl⟩

/-- A call of a function of the library by its name. -/
theorem evaluate_callOf {arguments : List Expr} {values : List Value} (hf : w.Binds env f)
    (ha : (arguments.mapM (evaluate setup (depth + 1) env)).run w = (.ok values, w₁))
    (name span : Span) :
    (evaluate setup (depth + 2) env (.callOf f arguments name span)).run w =
      (f.call { setup with depth } values).run w₁ := by
  rw [Expr.callOf, evaluate_call (evaluate_variable hf name) ha, callFunction_standard]

/-- It ends where one of its arguments does. -/
theorem evaluate_callOf_of_error {arguments : List Expr} {halt : Halt} (hf : w.Binds env f)
    (ha : (arguments.mapM (evaluate setup (depth + 1) env)).run w = (.error halt, w₁))
    (name span : Span) :
    (evaluate setup (depth + 2) env (.callOf f arguments name span)).run w =
      (.error halt, w₁) := by
  rw [Expr.callOf, evaluate, run_bind_of_ok (evaluate_variable hf name), run_bind, ha]

theorem execute_expression_of_error {e : Expr} {halt : Halt}
    (h : (evaluate setup depth env e).run w = (.error halt, w₁)) (span : Span) :
    (execute setup (depth + 1) env (.expression e span)).run w = (.error halt, w₁) := by
  have hdiscard : (discard (evaluate setup depth env e)).run w = (.error halt, w₁) := by
    rw [run_discard, h]
  rw [execute, run_bind, hdiscard]

section Operands

variable (ht : (evaluate setup depth env target).run w = (.ok t, w₁))
  (hi : (evaluate setup depth env index).run w₁ = (.ok i, w₂))

include ht hi

theorem run_mapM_operands :
    ([target, index].mapM (evaluate setup depth env)).run w = (.ok [t, i], w₂) :=
  run_mapM_cons ht (run_mapM_cons hi rfl)

/-- What is evaluated for writing: the target, the index and then the value. -/
theorem run_mapM_written {result : Except Halt Value}
    (hv : (evaluate setup depth env value).run w₂ = (result, w₃)) :
    ([target, index, value].mapM (evaluate setup depth env)).run w =
      (result.map fun v => [t, i, v], w₃) := by
  rw [List.mapM_cons, run_bind_of_ok ht, List.mapM_cons, bind_assoc, run_bind_of_ok hi,
    List.mapM_cons, bind_assoc, bind_assoc, run_bind, hv]
  cases result <;> rfl

theorem execute_assignIndex (hv : (evaluate setup depth env value).run w₂ = (.ok v, w₃))
    (span : Span) :
    (execute setup (depth + 1) env (.assignIndex target index value span)).run w =
      (.ok .normal, { w₃ with heap := (w₃.heap.assignIndex t i v).2 }) := by
  rw [execute, run_bind_of_ok ht, run_bind_of_ok hi, run_bind_of_ok hv,
    run_bind_of_ok (run_discard _ _)]
  rfl

theorem execute_assignIndex_of_error {halt : Halt}
    (hv : (evaluate setup depth env value).run w₂ = (.error halt, w₃)) (span : Span) :
    (execute setup (depth + 1) env (.assignIndex target index value span)).run w =
      (.error halt, w₃) := by
  rw [execute, run_bind_of_ok ht, run_bind_of_ok hi, run_bind, hv]

end Operands

/-- An index and a call by name. Where the target is an array and the index a number, or the target a
table and the index a string, reading gives the same value and leaves the same world either way, and
so does writing, however the operands and the value to be written come about and also where they end
the run. Where the index does not fit the target, reading gives an error either way, and writing
leaves the world that evaluating the operands and the value leaves. -/
theorem index_call (hf : ∀ f ∈ StandardFunction.readers ++ StandardFunction.writers, w.Binds env f)
    (ht : (evaluate setup depth env target).run w = (.ok t, w₁))
    (hi : (evaluate setup depth env index).run w₁ = (.ok i, w₂)) (place name span : Span) :
    (∀ c, t.composite? = some c → c.Takes i →
      (evaluate setup (depth + 1) env (.index target index place)).run w =
        (evaluate setup (depth + 1) env (.callOf c.reader [target, index] name span)).run w ∧
      ∀ value, (execute setup (depth + 1) env (.assignIndex target index value place)).run w =
        (execute setup (depth + 2) env
          (.expression (.callOf c.writer [target, index, value] name span) place)).run w) ∧
    ((∀ c, t.composite? = some c → ¬ c.Takes i) →
      (∃ message, (evaluate setup (depth + 1) env (.index target index place)).run w =
        (.ok (.error message), w₂)) ∧
      (∀ f ∈ StandardFunction.readers, ∃ message,
        (evaluate setup (depth + 1) env (.callOf f [target, index] name span)).run w =
          (.ok (.error message), w₂)) ∧
      ∀ value result w₃, (evaluate setup depth env value).run w₂ = (result, w₃) →
        (execute setup (depth + 1) env (.assignIndex target index value place)).run w =
          (result.map fun _ => .normal, w₃) ∧
        ∀ f ∈ StandardFunction.writers, (execute setup (depth + 2) env
          (.expression (.callOf f [target, index, value] name span) place)).run w =
            (result.map fun _ => .normal, w₃)) := by
  obtain ⟨depth, rfl⟩ := depth_pos_of_evaluate_ok ht
  have hread := run_mapM_operands ht hi
  constructor
  · intro c hc htakes
    constructor
    · have hreader := hf c.reader (List.mem_append_left _ c.reader_mem)
      rw [evaluate_index ht hi, evaluate_callOf hreader hread, Composite.run_reader hc htakes]
    · intro value
      have hwriter := hf c.writer (List.mem_append_right _ c.writer_mem)
      rcases hv : (evaluate setup (depth + 1) env value).run w₂ with ⟨halt | v, w₃⟩
      · have hcall := evaluate_callOf_of_error hwriter (run_mapM_written ht hi hv) name span
        rw [execute_assignIndex_of_error ht hi hv, execute_expression_of_error hcall]
      · have hcall := evaluate_callOf hwriter (run_mapM_written ht hi hv) name span
        rw [Composite.run_writer hc htakes] at hcall
        rw [execute_assignIndex ht hi hv, execute_expression hcall]
  · intro hnot
    refine ⟨?_, ?_, ?_⟩
    · obtain ⟨message, hmessage⟩ := Heap.index_of_not_takes hnot w₂.heap
      exact ⟨message, by rw [evaluate_index ht hi, hmessage]⟩
    · intro f hreader
      obtain ⟨message, hcall⟩ : ∃ message, (f.call { setup with depth } [t, i]).run w₂ =
          (.ok (.error message), w₂) := StandardFunction.run_reader_of_not_takes hnot hreader
      exact ⟨message, by rw [evaluate_callOf (hf f (List.mem_append_left _ hreader)) hread, hcall]⟩
    · intro value result w₃ hv
      have hwritten := run_mapM_written ht hi hv
      cases result with
      | ok v =>
        constructor
        · rw [execute_assignIndex ht hi hv, Heap.assignIndex_of_not_takes hnot]
          rfl
        · intro f hwriter
          have hbound := hf f (List.mem_append_right _ hwriter)
          obtain ⟨message, hcall⟩ : ∃ message, (f.call { setup with depth } [t, i, v]).run w₃ =
              (.ok (.error message), w₃) := StandardFunction.run_writer_of_not_takes hnot hwriter v
          rw [execute_expression ((evaluate_callOf hbound hwritten name span).trans hcall)]
          rfl
      | error halt =>
        constructor
        · exact execute_assignIndex_of_error ht hi hv place
        · intro f hwriter
          have hbound := hf f (List.mem_append_right _ hwriter)
          exact execute_expression_of_error (evaluate_callOf_of_error hbound hwritten name span)
            place

/-- A world in which a name is bound to an array that holds a string and a number. -/
def shrinkingWorld : World where
  scopes := ⟨#[⟨[("arrayGet", .function (.native (.standard .arrayGet))),
    ("arraySet", .function (.native (.standard .arraySet))),
    ("tableGet", .function (.native (.standard .tableGet))),
    ("tableSet", .function (.native (.standard .tableSet))),
    ("arrayPopBack", .function (.native (.standard .arrayPopBack))), ("a", .array 0)]⟩]⟩
  heap := ⟨#[#[.string "kept", .number 1]], #[]⟩
  closures := 0
  events := #[]
  link := none
  replies := []

/-- The world after the number has been taken out. -/
def shrunkWorld : World := { shrinkingWorld with heap := ⟨#[#[.string "kept"]], #[]⟩ }

/-- An index that takes the last element out of the array that it is an index of. -/
def poppedIndex : Expr := .callOf .arrayPopBack [.variable "a" default] default default

theorem index_call_shrinking :
    (∀ f ∈ StandardFunction.readers ++ StandardFunction.writers, shrinkingWorld.Binds ⟨0, []⟩ f) ∧
      (evaluate ⟨9, 9, true, .default, .usual⟩ 3 ⟨0, []⟩ (.variable "a" default)).run shrinkingWorld =
        (.ok (.array 0), shrinkingWorld) ∧
      (evaluate ⟨9, 9, true, .default, .usual⟩ 3 ⟨0, []⟩ poppedIndex).run shrinkingWorld =
        (.ok (.number 1), shrunkWorld) ∧
      (evaluate ⟨9, 9, true, .default, .usual⟩ 4 ⟨0, []⟩
          (.index (.variable "a" default) poppedIndex default)).run shrinkingWorld =
        (evaluate ⟨9, 9, true, .default, .usual⟩ 4 ⟨0, []⟩ (.callOf .arrayGet
          [.variable "a" default, poppedIndex] default default)).run shrinkingWorld ∧
      (execute ⟨9, 9, true, .default, .usual⟩ 4 ⟨0, []⟩ (.assignIndex (.variable "a" default)
          poppedIndex (.literal .null default) default)).run shrinkingWorld =
        (execute ⟨9, 9, true, .default, .usual⟩ 5 ⟨0, []⟩ (.expression (.callOf .arraySet
          [.variable "a" default, poppedIndex, .literal .null default] default default)
          default)).run shrinkingWorld := by
  have hf : ∀ f ∈ StandardFunction.readers ++ StandardFunction.writers,
      shrinkingWorld.Binds ⟨0, []⟩ f := by
    simp only [StandardFunction.readers, StandardFunction.writers, List.cons_append,
      List.nil_append, List.forall_mem_cons]
    exact ⟨rfl, rfl, rfl, rfl, List.forall_mem_nil _⟩
  have ht : (evaluate ⟨9, 9, true, .default, .usual⟩ 3 ⟨0, []⟩ (.variable "a" default)).run
      shrinkingWorld = (.ok (.array 0), shrinkingWorld) := evaluate_variable rfl default
  have hi : (evaluate ⟨9, 9, true, .default, .usual⟩ 3 ⟨0, []⟩ poppedIndex).run shrinkingWorld =
      (.ok (.number 1), shrunkWorld) := by
    have hargument : ([Expr.variable "a" default].mapM
        (evaluate ⟨9, 9, true, .default, .usual⟩ 2 ⟨0, []⟩)).run shrinkingWorld =
          (.ok [.array 0], shrinkingWorld) := run_mapM_cons (evaluate_variable rfl default) rfl
    have hpop : shrinkingWorld.Binds ⟨0, []⟩ .arrayPopBack := rfl
    exact evaluate_callOf hpop hargument default default
  obtain ⟨hread, hwrite⟩ := (index_call hf ht hi default default default).1 (.array 0) rfl trivial
  exact ⟨hf, ht, hi, hread, hwrite _⟩

end Run

end HostScript
