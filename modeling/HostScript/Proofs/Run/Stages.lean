import HostScript.Proofs.Run.Forward
import HostScript.Proofs.Run.Programs
import HostScript.Proofs.Session.Scripts
import Mathlib.Logic.Relation

/-!
# Stages of a run

While a script runs, expressions are evaluated, values are called and statements are executed, one
inside the other. A `Stage` is the beginning of such a task, with the world at that time, and
`Begins` says which tasks a task begins by itself. So the closure of `Begins` leads from a stage to
all that comes to pass in its run.

Evaluating an expression and executing a statement both begin with their operands, which are
evaluated in order, and go on with the values of these (`evaluate_eq_conclude`,
`execute_eq_proceed`). What is said of all expressions, or of all statements, needs to be shown for
evaluation in order once and then for what follows.
-/

namespace HostScript

/-! ## Operands -/

/-- The expressions that are evaluated first, in order, wherever an expression is evaluated. The
right operand of a logical operator is none of them, since it may be left alone. -/
def Expr.operands : Expr → List Expr
  | .literal _ _ | .variable _ _ | .function _ _ _ => []
  | .grouping inner _ => [inner]
  | .unary _ operand _ => [operand]
  | .binary left _ right _ => [left, right]
  | .logical left _ _ _ => [left]
  | .index target i _ => [target, i]
  | .array items _ => items
  | .call callee arguments _ => callee :: arguments

/-- The expressions that are evaluated first, in order, wherever a statement is executed. -/
def Stmt.operands : Stmt → List Expr
  | .expression e _ | .declare _ e _ | .publish _ e _ | .assign _ e _ | .give (some e) _ => [e]
  | .assignIndex target i e _ => [target, i, e]
  | .branch condition _ _ _ => [condition]
  | .function _ _ _ _ _ | .loop _ _ | .leave _ | .give none _ => []

/-- The scope in which a statement binds a name, and the name. -/
def Stmt.binding? (env : Env) : Stmt → Option (ScopeId × Name)
  | .declare name _ _ | .function name _ _ false _ => some (env.here, name)
  | .publish name _ _ | .function name _ _ true _ => some (env.root, name)
  | _ => none

namespace Run

/-- Runs statements in a new scope. -/
def enclosed (setup : Setup) (depth : Nat) (env : Env) (statements : List Stmt) : Run Flow := do
  block (execute setup depth (← enter env)) statements

/-- Goes on to evaluate an expression whose operands have these values. Lists of another length than
that of the operands do not occur. -/
def conclude (setup : Setup) (depth : Nat) (env : Env) : Expr → List Value → Run Value
  | .literal value _, _ => return .ofLiteral value
  | .variable name span, _ => lookup env name span
  | .grouping _ _, [v] => return v
  | .unary op _ _, [v] => return .applyUnary op v
  | .binary _ op _ _, [l, r] => return .applyBinary op l r
  | .logical _ op right _, [l] => do
    match op, l.truthy with
    | .or, true => return .boolean true
    | .and, false => return .boolean false
    | _, _ => return .boolean (← evaluate setup depth env right).truthy
  | .index _ _ _, [t, i] => return (← heap).index t i
  | .array _ _, values => onHeap (·.createArray values)
  | .function parameters body _, _ => newFunction none parameters body env
  | .call _ _ span, f :: values => callFunction setup depth f values (some span)
  | _, _ => halt .tooDeep

/-- Goes on to execute a statement whose operands have these values. -/
def proceed (setup : Setup) (depth : Nat) (env : Env) : Stmt → List Value → Run Flow
  | .expression _ _, _ => return .normal
  | .declare name _ _, [v] => do
    define env name v
    return .normal
  | .publish name _ _, [v] => do
    define env.rootEnv name v
    return .normal
  | .assign name _ span, [v] => do
    assign env name v span
    return .normal
  | .assignIndex _ _ _ _, [t, i, v] => do
    discard (onHeap (·.assignIndex t i v))
    return .normal
  | .function name parameters body exported _, _ => do
    let f ← newFunction (some name) parameters body env
    define (if exported then env.rootEnv else env) name f
    return .normal
  | .branch _ consequent alternative _, [c] =>
    match c.truthy, alternative with
    | true, _ => enclosed setup depth env consequent
    | false, some statements => enclosed setup depth env statements
    | false, none => return .normal
  | .loop body _, _ => iterate (enclosed setup depth env body) setup.iterations
  | .leave _, _ => return .leave
  | .give none _, _ => return .give .null
  | .give (some _) _, [v] => return .give v
  | _, _ => halt .tooDeep

theorem evaluate_eq_conclude (setup : Setup) (depth : Nat) (env : Env) (e : Expr) :
    evaluate setup (depth + 1) env e =
      e.operands.mapM (evaluate setup depth env) >>= conclude setup depth env e := by
  cases e with
  | array items span => rfl
  | logical left op right span =>
    simp only [evaluate, Expr.operands, List.mapM_cons, List.mapM_nil, bind_assoc, pure_bind]
    rfl
  | _ => simp [evaluate, Expr.operands, conclude]

theorem execute_eq_proceed (setup : Setup) (depth : Nat) (env : Env) (s : Stmt) :
    execute setup (depth + 1) env s =
      s.operands.mapM (evaluate setup depth env) >>= proceed setup depth env s := by
  cases s with
  | give value span => cases value <;> simp [execute, Stmt.operands, proceed]
  | branch condition consequent alternative span =>
    simp only [execute, Stmt.operands, List.mapM_cons, List.mapM_nil, bind_assoc, pure_bind]
    rfl
  | _ => simp [execute, Stmt.operands, proceed, enclosed, discard_eq_bind]

theorem run_execute_of_operands {setup : Setup} {depth : Nat} {env : Env} {s : Stmt}
    {values : List Value} {w w' : World}
    (h : (s.operands.mapM (evaluate setup depth env)).run w = (.ok values, w')) :
    (execute setup (depth + 1) env s).run w = (proceed setup depth env s values).run w' := by
  rw [execute_eq_proceed, run_bind_of_ok h]

/-- There are as many values as operands. -/
theorem length_of_run_mapM {α β : Type} {f : α → Run β} {xs : List α} {ys : List β} {w w' : World}
    (h : (xs.mapM f).run w = (.ok ys, w')) : ys.length = xs.length := by
  induction xs generalizing ys w with
  | nil =>
    cases h
    rfl
  | cons x xs ih =>
    rw [List.mapM_cons, run_bind] at h
    rcases hx : (f x).run w with ⟨_ | y, w₁⟩
    · rw [hx] at h
      cases h
    · rw [hx] at h
      dsimp only at h
      rw [run_bind] at h
      rcases hxs : (xs.mapM f).run w₁ with ⟨_ | rest, w₂⟩
      · rw [hxs] at h
        cases h
      · rw [hxs] at h
        cases h
        rw [List.length_cons, List.length_cons, ih hxs]

/-- A logical operator goes on to its right operand where the left one does not decide. -/
theorem conclude_logical (setup : Setup) (depth : Nat) (env : Env) (left right : Expr)
    (op : LogicalOp) (span : Span) (l : Value) :
    conclude setup depth env (.logical left op right span) [l] =
      if l.truthy = decide (op = .and) then do
        return .boolean (← evaluate setup depth env right).truthy
      else return .boolean l.truthy := by
  cases op <;> cases hl : l.truthy <;> simp [conclude, hl]

/-! ## Stages -/

/-- What the evaluator can have to do. -/
inductive Task
  | evaluate (env : Env) (e : Expr)
  | call (f : Value) (values : List Value) (span : Option Span)
  | execute (env : Env) (s : Stmt)

/-- The beginning of a task: how deep it may nest, and the world at that time. -/
structure Stage where
  depth : Nat
  task : Task
  world : World

namespace Stage

/-- The world when the task has ended, in whichever way. -/
def after (setup : Setup) : Stage → World
  | ⟨depth, .evaluate env e, w⟩ => ((evaluate setup depth env e).run w).2
  | ⟨depth, .call f values span, w⟩ => ((callFunction setup depth f values span).run w).2
  | ⟨depth, .execute env s, w⟩ => ((execute setup depth env s).run w).2

/-- The task of a statement of a script. An expression that stands as a statement of its own is
evaluated, because its value may be the result of the script. -/
def ofStmt (setup : Setup) (env : Env) (w : World) : Stmt → Stage
  | .expression e _ => ⟨setup.depth, .evaluate env e, w⟩
  | s => ⟨setup.depth, .execute env s, w⟩

theorem ofStmt_eq {s : Stmt} (hs : ∀ e σ, s ≠ .expression e σ) (setup : Setup) (env : Env)
    (w : World) : ofStmt setup env w s = ⟨setup.depth, .execute env s, w⟩ := by
  cases s with
  | expression e σ => exact absurd rfl (hs e σ)
  | _ => rfl

@[simp] theorem world_ofStmt (setup : Setup) (env : Env) (w : World) (s : Stmt) :
    (ofStmt setup env w s).world = w := by
  cases s <;> rfl

end Stage

/-- The body of a loop has been run so many times and has ended normally each time. -/
inductive Turns (body : Run Flow) : Nat → World → World → Prop
  | none {w : World} : Turns body 0 w w
  | more {n : Nat} {w w₁ w₂ : World} (hfirst : body.run w = (.ok .normal, w₁))
    (hrest : Turns body n w₁ w₂) : Turns body (n + 1) w w₂

/-- A task begins another one by itself: it comes to an operand behind the ones before it, to the
right operand of a logical operator, to a call, or to a statement of the body of a function, a branch
or a loop, behind the ones before it. -/
inductive Begins (setup : Setup) : Stage → Stage → Prop
  | operand {depth : Nat} {env : Env} {e p : Expr} {before rest : List Expr} {values : List Value}
    {w w₁ : World} (hoperands : e.operands = before ++ p :: rest)
    (hbefore : (before.mapM (evaluate setup depth env)).run w = (.ok values, w₁)) :
    Begins setup ⟨depth + 1, .evaluate env e, w⟩ ⟨depth, .evaluate env p, w₁⟩
  | right {depth : Nat} {env : Env} {left right : Expr} {op : LogicalOp} {span : Span} {l : Value}
    {w w₁ : World} (hleft : ([left].mapM (evaluate setup depth env)).run w = (.ok [l], w₁))
    (hopen : l.truthy = decide (op = .and)) :
    Begins setup ⟨depth + 1, .evaluate env (.logical left op right span), w⟩
      ⟨depth, .evaluate env right, w₁⟩
  | apply {depth : Nat} {env : Env} {callee : Expr} {arguments : List Expr} {span : Span}
    {f : Value} {values : List Value} {w w₁ : World}
    (hoperands : ((callee :: arguments).mapM (evaluate setup depth env)).run w =
      (.ok (f :: values), w₁)) :
    Begins setup ⟨depth + 1, .evaluate env (.call callee arguments span), w⟩
      ⟨depth, .call f values (some span), w₁⟩
  | body {depth : Nat} {c : Closure} {values : List Value} {span : Option Span}
    {before rest : List Stmt} {s : Stmt} {w w₁ : World}
    (hcount : values.length = c.parameters.length) (hbody : c.body = before ++ s :: rest)
    (hbefore : (block (execute setup depth (c.env.enter w.next)) before).run
      (w.push (.ofList (c.parameters.zip values))) = (.ok .normal, w₁)) :
    Begins setup ⟨depth + 1, .call (.function (.closure c)) values span, w⟩
      ⟨depth, .execute (c.env.enter w.next) s, w₁⟩
  | part {depth : Nat} {env : Env} {s : Stmt} {p : Expr} {before rest : List Expr}
    {values : List Value} {w w₁ : World} (hoperands : s.operands = before ++ p :: rest)
    (hbefore : (before.mapM (evaluate setup depth env)).run w = (.ok values, w₁)) :
    Begins setup ⟨depth + 1, .execute env s, w⟩ ⟨depth, .evaluate env p, w₁⟩
  | branch {depth : Nat} {env : Env} {condition : Expr} {consequent : List Stmt}
    {alternative : Option (List Stmt)} {span : Span} {c : Value} {before rest : List Stmt}
    {s : Stmt} {w w₁ w₂ : World}
    (hcondition : ([condition].mapM (evaluate setup depth env)).run w = (.ok [c], w₁))
    (htaken : (if c.truthy then consequent else alternative.getD []) = before ++ s :: rest)
    (hbefore : (block (execute setup depth (env.enter w₁.next)) before).run (w₁.push .empty) =
      (.ok .normal, w₂)) :
    Begins setup ⟨depth + 1, .execute env (.branch condition consequent alternative span), w⟩
      ⟨depth, .execute (env.enter w₁.next) s, w₂⟩
  | turn {depth : Nat} {env : Env} {body : List Stmt} {span : Span} {n : Nat}
    {before rest : List Stmt} {s : Stmt} {w w₁ w₂ : World} (hn : n < setup.iterations)
    (hturns : Turns (enclosed setup depth env body) n w w₁) (hbody : body = before ++ s :: rest)
    (hbefore : (block (execute setup depth (env.enter w₁.next)) before).run (w₁.push .empty) =
      (.ok .normal, w₂)) :
    Begins setup ⟨depth + 1, .execute env (.loop body span), w⟩
      ⟨depth, .execute (env.enter w₁.next) s, w₂⟩

/-- All that comes to pass in the run of a task, the task itself included. -/
abbrev Within (setup : Setup) : Stage → Stage → Prop := Relation.ReflTransGen (Begins setup)

/-- What comes to pass while the statements of a script run. -/
def Comes (setup : Setup) (env : Env) (w : World) (statements : List Stmt) (m : Stage) : Prop :=
  ∃ before s rest w₁, statements = before ++ s :: rest ∧ Passes setup env w before w₁ ∧
    Within setup (.ofStmt setup env w₁ s) m

end Run

/-- What comes to pass while a session runs a source. -/
def Session.During (s : Session) (source : Text) (m : Run.Stage) : Prop :=
  ∃ statements, compile s.setup.depth source = .ok statements ∧
    Run.Comes s.setup s.root (s.announced source).world statements m

end HostScript
