import HostScript.Proofs.Run.Ensures

/-!
# What single operations do

The outcome of each operation on worlds as an equation, so that a run can be followed step by step
through a world of which only some bindings are known.
-/

namespace HostScript

theorem Dict.has_put {α : Type} (d : Dict α) (key other : Text) (value : α) :
    (d.put key value).has other = (decide (other = key) || d.has other) := by
  by_cases h : other = key
  · simp [has, h]
  · simp [has, get?_put_of_ne _ _ h, h]

namespace Scopes

variable {α : Type}

theorem bindings_eq_empty {s : Scopes α} {id : ScopeId} (h : s.frames.size ≤ id) :
    s.bindings id = .empty := by
  have : s.frames[id]? = none := by simpa using h
  simp [bindings, this]

theorem bindings_push (s : Scopes α) (d : Dict α) (id : ScopeId) :
    (⟨s.frames.push d⟩ : Scopes α).bindings id =
      if id = s.frames.size then d else s.bindings id := by
  simp only [bindings, Array.getElem?_push]
  split <;> rfl

/-- A scope that does not bind a name leaves it to those around. -/
theorem owner?_cons_of_not_has {s : Scopes α} {name : Text} {id : ScopeId} {path : List ScopeId}
    (h : (s.bindings id).has name = false) : s.owner? name (id :: path) = s.owner? name path := by
  simp [owner?, h]

theorem owner?_cons_of_get? {s : Scopes α} {name : Text} {id : ScopeId} {path : List ScopeId}
    {value : α} (h : (s.bindings id).get? name = some value) :
    s.owner? name (id :: path) = some id := by
  simp [owner?, Dict.has, h]

/-- A path has the same owner in two stores if the names are bound in the same scopes on it. -/
theorem owner?_congr {s s' : Scopes α} {name name' : Text} {path : List ScopeId}
    (h : ∀ id ∈ path, (s'.bindings id).has name' = (s.bindings id).has name) :
    s'.owner? name' path = s.owner? name path := by
  induction path with
  | nil => rfl
  | cons id rest ih =>
    simp only [owner?, List.find?_cons, h id List.mem_cons_self]
    split
    · rfl
    · exact ih fun other hother => h other (List.mem_cons_of_mem _ hother)

theorem get?_of_bindings {s : Scopes α} {env : Env} {name : Text} {value : α}
    (h : (s.bindings env.here).get? name = some value) : s.get? env name = some value := by
  simp [get?, Env.path, owner?_cons_of_get? h, h]

theorem get?_eq_none {s : Scopes α} {env : Env} {name : Text}
    (h : s.owner? name env.path = none) : s.get? env name = none := by
  simp [get?, h]

/-- A new scope binds nothing, so names mean what they mean around it. -/
theorem owner?_child (s : Scopes α) (env : Env) (name : Text) :
    (s.child env).2.owner? name (s.child env).1.path = s.owner? name env.path := by
  have hnew : (s.bindings s.frames.size).has name = false := by
    rw [bindings_eq_empty (Nat.le_refl _)]
    rfl
  have hpath : (s.child env).1.path = s.frames.size :: env.path := rfl
  rw [hpath]
  simp only [owner?, bindings_child, List.find?_cons, hnew]

theorem get?_child (s : Scopes α) (env : Env) (name : Text) :
    (s.child env).2.get? (s.child env).1 name = s.get? env name := by
  simp only [get?, owner?_child, bindings_child]

end Scopes

namespace Run

variable {α : Type}

@[simp] theorem run_pure (a : α) (w : World) : (pure a : Run α).run w = (.ok a, w) := rfl

@[simp] theorem run_halt (h : Halt) (w : World) : (halt h : Run α).run w = (.error h, w) := rfl

@[simp] theorem run_heap (w : World) : heap.run w = (.ok w.heap, w) := rfl

@[simp] theorem run_onHeap (f : Heap → α × Heap) (w : World) :
    (onHeap f).run w = (.ok (f w.heap).1, { w with heap := (f w.heap).2 }) := rfl

@[simp] theorem run_enter (env : Env) (w : World) :
    (enter env).run w = (.ok (w.scopes.child env).1, { w with scopes := (w.scopes.child env).2 }) :=
  rfl

theorem run_discard (m : Run α) (w : World) :
    (discard m).run w = match m.run w with
      | (.ok _, w') => (.ok (), w')
      | (.error h, w') => (.error h, w') := by
  rw [discard_eq_bind, run_bind]
  rfl

theorem run_lookup_of_get? {env : Env} {name : Name} {w : World} {v : Value}
    (h : w.scopes.get? env name = some v) (span : Span) :
    (lookup env name span).run w = (.ok v, w) := by
  rw [lookup, run_bind, run_get]
  dsimp only
  rw [h, run_pure]

theorem run_lookup_of_not_bound {env : Env} {name : Name} {w : World}
    (h : w.scopes.get? env name = none) (span : Span) :
    (lookup env name span).run w = (.error (.fault (.undefinedVariable name) (some span)), w) := by
  rw [lookup, run_bind, run_get]
  dsimp only
  rw [h, run_halt]

theorem run_assign_of_owner? {env : Env} {name : Name} {w : World} {id : ScopeId}
    (h : w.scopes.owner? name env.path = some id) (v : Value) (span : Span) :
    (assign env name v span).run w = (.ok (), { w with scopes := w.scopes.bind id name v }) := by
  rw [assign, run_bind, run_get]
  dsimp only
  rw [h]
  rfl

theorem run_assign_of_not_bound {env : Env} {name : Name} {w : World}
    (h : w.scopes.owner? name env.path = none) (v : Value) (span : Span) :
    (assign env name v span).run w = (.error (.fault (.undefinedTarget name) (some span)), w) := by
  rw [assign, run_bind, run_get]
  dsimp only
  rw [h, run_halt]

/-- Defining names one after another in the last scope is the same as binding them there at once. -/
theorem run_defineAll (w : World) (frames : Array (Dict Value)) (outer : List ScopeId)
    (d : Dict Value) (entries : List (Name × Value)) :
    (forIn entries PUnit.unit fun (n, v) _ => do
        define ⟨frames.size, outer⟩ n v
        pure (ForInStep.yield PUnit.unit) : Run PUnit).run
      { w with scopes := ⟨frames.push d⟩ } =
        (.ok ⟨⟩, { w with
          scopes := ⟨frames.push (entries.foldl (fun d e => d.put e.1 e.2) d)⟩ }) := by
  induction entries generalizing d with
  | nil => rfl
  | cons e rest ih =>
    rw [List.forIn_cons, List.foldl_cons, ← ih (d.put e.1 e.2)]
    have hput : (⟨frames.push d⟩ : Scopes Value).define ⟨frames.size, outer⟩ e.1 e.2 =
        ⟨frames.push (d.put e.1 e.2)⟩ := by
      simp only [Scopes.define, Scopes.bind, Scopes.mk.injEq]
      ext i hi hi'
      · simp
      · simp only [Array.getElem_modify, Array.getElem_push]
        grind
    have hdefine : (define ⟨frames.size, outer⟩ e.1 e.2).run { w with scopes := ⟨frames.push d⟩ } =
        (.ok (), { w with scopes := ⟨frames.push (d.put e.1 e.2)⟩ }) := by
      rw [← hput]
      rfl
    simp only [run_bind, hdefine, run_pure]

theorem run_enterCall (c : Closure) (values : List Value) (w : World) :
    (enterCall c values).run w =
      (.ok (c.env.enter w.scopes.frames.size),
        { w with
          scopes := ⟨w.scopes.frames.push (.ofList (c.parameters.zip values))⟩ }) := by
  have hall := run_defineAll w w.scopes.frames c.env.path .empty (c.parameters.zip values)
  simp only [enterCall, run_bind, run_enter, Scopes.child, Env.enter, hall]
  rfl

end Run

end HostScript
