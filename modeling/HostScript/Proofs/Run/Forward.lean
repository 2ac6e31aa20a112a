import HostScript.Proofs.Run.Steps

/-!
# Following a run forward

What an expression, a statement or a call comes to, as an equation under what its parts come to. Only
runs that go well are followed here. A loop that counts its turns is followed with an invariant
(`iterate_counts`).
-/

namespace HostScript

namespace Scopes

variable {α : Type} {s : Scopes α} {env : Env} {name : Text}

/-- In a scope that does not bind a name it means what it means around it. -/
theorem get?_enter {id : ScopeId} (h : (s.bindings id).has name = false) :
    s.get? (env.enter id) name = s.get? env name := by
  rw [get?, get?, Env.enter, Env.path, owner?_cons_of_not_has h]

end Scopes

/-- What a function gives whose body ends in some way. -/
def Flow.given : Flow → Value
  | .give v => v
  | _ => .null

namespace World

/-- A world with one more scope. -/
def push (w : World) (d : Dict Value) : World := { w with scopes := ⟨w.scopes.frames.push d⟩ }

/-- A world in which a scope binds a name anew. -/
def bind (w : World) (id : ScopeId) (name : Name) (v : Value) : World :=
  { w with scopes := w.scopes.bind id name v }

/-- A world with one more array. -/
def newArray (w : World) (items : Array Value) : World :=
  { w with heap := (w.heap.newArray items).2 }

/-- A world in which an array has one more element. -/
def pushBack (w : World) (id : ArrayId) (v : Value) : World :=
  { w with heap := w.heap.modifyArray id (·.push v) }

/-- The number of scopes, which is the place of the next one. -/
def next (w : World) : ScopeId := w.scopes.frames.size

variable {w : World} {id : ScopeId} {d : Dict Value} {name : Name} {v : Value}

@[simp] theorem heap_push : (w.push d).heap = w.heap := rfl

@[simp] theorem heap_bind : (w.bind id name v).heap = w.heap := rfl

@[simp] theorem scopes_newArray {items : Array Value} : (w.newArray items).scopes = w.scopes := rfl

@[simp] theorem scopes_pushBack {id : ArrayId} : (w.pushBack id v).scopes = w.scopes := rfl

theorem array_newArray_size (w : World) (items : Array Value) :
    (w.newArray items).heap.array w.heap.arrays.size = items := by
  rw [newArray, Heap.array_newArray, if_pos rfl]

theorem array_pushBack_self {id : ArrayId} (h : id < w.heap.arrays.size) (v : Value) :
    (w.pushBack id v).heap.array id = (w.heap.array id).push v := by
  rw [pushBack, Heap.array_modifyArray, if_pos ⟨rfl, h⟩]

@[simp] theorem next_push : (w.push d).next = w.next + 1 := by simp [next, push]

@[simp] theorem next_bind : (w.bind id name v).next = w.next := by simp [next, bind, Scopes.bind]

theorem bindings_push (w : World) (d : Dict Value) (id : ScopeId) :
    (w.push d).scopes.bindings id = if id = w.next then d else w.scopes.bindings id :=
  Scopes.bindings_push w.scopes d id

@[simp] theorem bindings_push_next : (w.push d).scopes.bindings w.next = d := by
  rw [bindings_push, if_pos rfl]

theorem bindings_push_of_lt (h : id < w.next) (d : Dict Value) :
    (w.push d).scopes.bindings id = w.scopes.bindings id := by
  rw [bindings_push, if_neg (Nat.ne_of_lt h)]

theorem bindings_bind_self (h : id < w.next) (name : Name) (v : Value) :
    (w.bind id name v).scopes.bindings id = (w.scopes.bindings id).put name v := by
  rw [bind, Scopes.bindings_bind, if_pos ⟨rfl, h⟩]

theorem bindings_bind_of_ne {other : ScopeId} (h : other ≠ id) (name : Name) (v : Value) :
    (w.bind id name v).scopes.bindings other = w.scopes.bindings other := by
  rw [bind, Scopes.bindings_bind, if_neg fun hid => h hid.1]

end World

namespace Run

variable {setup : Setup} {depth : Nat} {env : Env} {w w₁ w₂ w₃ : World}

/-! ## Sequences -/

theorem run_bind_of_ok {α β : Type} {m : Run α} {a : α} (h : m.run w = (.ok a, w₁))
    (f : α → Run β) : (m >>= f).run w = (f a).run w₁ := by
  rw [run_bind, h]

theorem run_enter_bind {α : Type} (env : Env) (f : Env → Run α) :
    (enter env >>= f).run w = (f (env.enter w.next)).run (w.push .empty) := by
  rw [run_bind_of_ok (run_enter env w)]
  rfl

theorem run_mapM_cons {α β : Type} {f : α → Run β} {x : α} {xs : List α} {y : β} {ys : List β}
    (hx : (f x).run w = (.ok y, w₁)) (hxs : (xs.mapM f).run w₁ = (.ok ys, w₂)) :
    ((x :: xs).mapM f).run w = (.ok (y :: ys), w₂) := by
  rw [List.mapM_cons, run_bind_of_ok hx, run_bind_of_ok hxs, run_pure]

theorem run_block_cons {step : Stmt → Run Flow} {s : Stmt} {rest : List Stmt}
    (h : (step s).run w = (.ok .normal, w₁)) :
    (block step (s :: rest)).run w = (block step rest).run w₁ := by
  rw [block, run_bind_of_ok h]

/-- A block ends where a statement gives the result of the function around it. -/
theorem run_block_give {step : Stmt → Run Flow} {s : Stmt} {rest : List Stmt} {v : Value}
    (h : (step s).run w = (.ok (.give v), w₁)) :
    (block step (s :: rest)).run w = (.ok (.give v), w₁) := by
  rw [block, run_bind_of_ok h]
  rfl

/-- A block goes on behind statements that end normally. -/
theorem run_block_append {step : Stmt → Run Flow} {first rest : List Stmt}
    (h : (block step first).run w = (.ok .normal, w₁)) :
    (block step (first ++ rest)).run w = (block step rest).run w₁ := by
  induction first generalizing w with
  | nil =>
    obtain ⟨-, rfl⟩ := Prod.mk.inj h
    rfl
  | cons s first ih =>
    rw [block, run_bind] at h
    rw [List.cons_append, block, run_bind]
    rcases hs : (step s).run w with ⟨_ | flow, u⟩
    · rw [hs] at h
      cases h
    · rw [hs] at h
      cases flow with
      | normal => exact ih h
      | leave => cases h
      | give v => cases h

/-- In a new scope that binds nothing yet, names mean what they mean around it. -/
theorem get?_push_empty (w : World) (env : Env) (name : Name) :
    (w.push .empty).scopes.get? (env.enter w.next) name = w.scopes.get? env name :=
  Scopes.get?_child w.scopes env name

/-! ## Expressions -/

theorem evaluate_literal (value : Literal) (span : Span) :
    (evaluate setup (depth + 1) env (.literal value span)).run w = (.ok (.ofLiteral value), w) := rfl

theorem evaluate_variable {name : Name} {v : Value} (h : w.scopes.get? env name = some v)
    (span : Span) : (evaluate setup (depth + 1) env (.variable name span)).run w = (.ok v, w) :=
  run_lookup_of_get? h span

theorem evaluate_binary {left right : Expr} {op : BinaryOp} {l r : Value}
    (hl : (evaluate setup depth env left).run w = (.ok l, w₁))
    (hr : (evaluate setup depth env right).run w₁ = (.ok r, w₂)) (span : Span) :
    (evaluate setup (depth + 1) env (.binary left op right span)).run w =
      (.ok (.applyBinary op l r), w₂) := by
  rw [evaluate, run_bind_of_ok hl, run_bind_of_ok hr, run_pure]

theorem evaluate_index {target index : Expr} {t i : Value}
    (ht : (evaluate setup depth env target).run w = (.ok t, w₁))
    (hi : (evaluate setup depth env index).run w₁ = (.ok i, w₂)) (span : Span) :
    (evaluate setup (depth + 1) env (.index target index span)).run w =
      (.ok (w₂.heap.index t i), w₂) := by
  rw [evaluate, run_bind_of_ok ht, run_bind_of_ok hi, run_bind_of_ok (run_heap w₂), run_pure]

theorem evaluate_array_nil (span : Span) :
    (evaluate setup (depth + 1) env (.array [] span)).run w =
      (.ok (.array w.heap.arrays.size), w.newArray #[]) := rfl

theorem evaluate_function (parameters : List Name) (body : List Stmt) (span : Span) :
    (evaluate setup (depth + 1) env (.function parameters body span)).run w =
      (.ok (.function (.closure ⟨w.closures, none, parameters, body, env⟩)),
        { w with closures := w.closures + 1 }) := rfl

theorem evaluate_call {callee : Expr} {arguments : List Expr} {f : Value} {values : List Value}
    (hf : (evaluate setup depth env callee).run w = (.ok f, w₁))
    (ha : (arguments.mapM (evaluate setup depth env)).run w₁ = (.ok values, w₂)) (span : Span) :
    (evaluate setup (depth + 1) env (.call callee arguments span)).run w =
      (callFunction setup depth f values (some span)).run w₂ := by
  rw [evaluate, run_bind_of_ok hf, run_bind_of_ok ha]

/-! ## Calls -/

theorem callFunction_standard (f : StandardFunction) (values : List Value) (span : Option Span) :
    callFunction setup (depth + 1) (.function (.native (.standard f))) values span =
      f.call { setup with depth } values := rfl

theorem callFunction_arrayLen (id : ArrayId) (span : Option Span) :
    (callFunction setup (depth + 1) (.function (.native (.standard .arrayLen))) [.array id] span).run
      w = (.ok (.number (Float.ofNat (w.heap.array id).size)), w) := rfl

theorem callFunction_arrayPushBack (id : ArrayId) (v : Value) (span : Option Span) :
    (callFunction setup (depth + 1) (.function (.native (.standard .arrayPushBack)))
      [.array id, v] span).run w = (.ok .null, w.pushBack id v) := rfl

theorem callFunction_closure {c : Closure} {values : List Value} {flow : Flow}
    (hcount : values.length = c.parameters.length)
    (hbody : (block (execute setup depth (c.env.enter w.next)) c.body).run
      (w.push (.ofList (c.parameters.zip values))) = (.ok flow, w₁)) (span : Option Span) :
    (callFunction setup (depth + 1) (.function (.closure c)) values span).run w =
      (.ok flow.given, w₁) := by
  have henter : (enterCall c values).run w =
      (.ok (c.env.enter w.next), w.push (.ofList (c.parameters.zip values))) :=
    run_enterCall c values w
  rw [callFunction, if_pos hcount, run_bind_of_ok henter, run_bind_of_ok hbody]
  cases flow <;> rfl

theorem callFunction_normal {c : Closure} {values : List Value}
    (hcount : values.length = c.parameters.length)
    (hbody : (block (execute setup depth (c.env.enter w.next)) c.body).run
      (w.push (.ofList (c.parameters.zip values))) = (.ok .normal, w₁)) (span : Option Span) :
    (callFunction setup (depth + 1) (.function (.closure c)) values span).run w = (.ok .null, w₁) :=
  callFunction_closure hcount hbody span

theorem callFunction_give {c : Closure} {values : List Value} {v : Value}
    (hcount : values.length = c.parameters.length)
    (hbody : (block (execute setup depth (c.env.enter w.next)) c.body).run
      (w.push (.ofList (c.parameters.zip values))) = (.ok (.give v), w₁)) (span : Option Span) :
    (callFunction setup (depth + 1) (.function (.closure c)) values span).run w = (.ok v, w₁) :=
  callFunction_closure hcount hbody span

/-- A call that goes well does not depend on the place that a fault would be blamed on. -/
theorem callFunction_ok_iff (f : Value) (values : List Value) (span span' : Option Span) {v : Value} :
    (callFunction setup depth f values span).run w = (.ok v, w₁) ↔
      (callFunction setup depth f values span').run w = (.ok v, w₁) := by
  cases depth with
  | zero => exact iff_of_false nofun nofun
  | succ depth =>
    unfold callFunction
    split
    · rfl
    · split
      · rfl
      · exact iff_of_false nofun nofun
    · exact iff_of_false nofun nofun

/-! ## Statements -/

theorem execute_expression {e : Expr} {v : Value}
    (h : (evaluate setup depth env e).run w = (.ok v, w₁)) (span : Span) :
    (execute setup (depth + 1) env (.expression e span)).run w = (.ok .normal, w₁) := by
  have hdiscard : (discard (evaluate setup depth env e)).run w = (.ok (), w₁) := by
    rw [run_discard, h]
  rw [execute, run_bind_of_ok hdiscard, run_pure]

theorem execute_declare {name : Name} {e : Expr} {v : Value}
    (h : (evaluate setup depth env e).run w = (.ok v, w₁)) (span : Span) :
    (execute setup (depth + 1) env (.declare name e span)).run w =
      (.ok .normal, w₁.bind env.here name v) := by
  rw [execute, run_bind_of_ok h]
  rfl

theorem execute_assign {name : Name} {e : Expr} {v : Value} {id : ScopeId}
    (h : (evaluate setup depth env e).run w = (.ok v, w₁))
    (ho : w₁.scopes.owner? name env.path = some id) (span : Span) :
    (execute setup (depth + 1) env (.assign name e span)).run w =
      (.ok .normal, w₁.bind id name v) := by
  rw [execute, run_bind_of_ok h, run_bind_of_ok (run_assign_of_owner? ho v span), run_pure, World.bind]

theorem execute_branch_true {condition : Expr} {consequent : List Stmt} {v : Value}
    (h : (evaluate setup depth env condition).run w = (.ok v, w₁)) (hv : v.truthy = true)
    (alternative : Option (List Stmt)) (span : Span) :
    (execute setup (depth + 1) env (.branch condition consequent alternative span)).run w =
      (block (execute setup depth (env.enter w₁.next)) consequent).run (w₁.push .empty) := by
  rw [execute, run_bind_of_ok h, hv]
  exact run_enter_bind env _

theorem execute_branch_false {condition : Expr} {consequent : List Stmt} {v : Value}
    (h : (evaluate setup depth env condition).run w = (.ok v, w₁)) (hv : v.truthy = false)
    (span : Span) :
    (execute setup (depth + 1) env (.branch condition consequent none span)).run w =
      (.ok .normal, w₁) := by
  rw [execute, run_bind_of_ok h, hv]
  rfl

theorem execute_give {e : Expr} {v : Value}
    (h : (evaluate setup depth env e).run w = (.ok v, w₁)) (span : Span) :
    (execute setup (depth + 1) env (.give (some e) span)).run w = (.ok (.give v), w₁) := by
  rw [execute, run_bind_of_ok h, run_pure]

/-! ## Loops -/

/-- A loop that keeps an invariant for a number of turns, and leaves after them, ends normally. -/
theorem iterate_counts {body : Run Flow} {bound n : Nat} {J : Nat → World → Prop}
    {Q : World → Prop} (hn : n < bound)
    (hturn : ∀ k < n, ∀ w, J k w → ∃ w', body.run w = (.ok .normal, w') ∧ J (k + 1) w')
    (hlast : ∀ w, J n w → ∃ w', body.run w = (.ok .leave, w') ∧ Q w') (hw : J 0 w) :
    ∃ w', (iterate body bound).run w = (.ok .normal, w') ∧ Q w' := by
  suffices hfrom : ∀ left k bound w, k + left = n → left < bound → J k w →
      ∃ w', (iterate body bound).run w = (.ok .normal, w') ∧ Q w' from
    hfrom n 0 bound w (Nat.zero_add n) hn hw
  intro left
  induction left with
  | zero =>
    intro k bound w hk hbound hw
    obtain rfl : k = n := hk
    obtain ⟨bound, rfl⟩ := Nat.exists_eq_add_one_of_ne_zero (Nat.ne_zero_of_lt hbound)
    obtain ⟨w', hrun, hq⟩ := hlast w hw
    refine ⟨w', ?_, hq⟩
    rw [iterate, run_bind_of_ok hrun, run_pure]
  | succ left ih =>
    intro k bound w hk hbound hw
    obtain ⟨bound, rfl⟩ := Nat.exists_eq_add_one_of_ne_zero (Nat.ne_zero_of_lt hbound)
    obtain ⟨w₁, hrun, hw₁⟩ := hturn k (by omega) w hw
    obtain ⟨w', hrest, hq⟩ := ih (k + 1) bound w₁ (by omega) (Nat.lt_of_succ_lt_succ hbound) hw₁
    refine ⟨w', ?_, hq⟩
    rw [iterate, run_bind_of_ok hrun]
    exact hrest

end Run

end HostScript
