import HostScript.Proofs.Run.Ensures

/-!
# Scripts that list their calls of the host

`Traced` runs do what runs do, and keep a list of the calls of functions of the host in the order in
which they are made (`ScriptCall`). The only step that adds to the list is `Traced.callNative`;
everything else is put together as it is for runs, from steps that are lifted as they are.
-/

namespace HostScript

/-- A call of a function of the host by a script: the method, the arguments, whether the link to the
host was open at the time, and what came of it. -/
structure ScriptCall where
  method : HostMethod
  arguments : List Value
  isOpen : Bool
  outcome : Except Halt Value

/-- There is an open link to a host. -/
def World.isLinked (w : World) : Bool := w.link.any (·.isOpen)

/-- A run that lists the calls of functions of the host. -/
abbrev Traced (α : Type) := ExceptT Halt (StateM (World × List ScriptCall)) α

namespace Traced

variable {α β : Type}

/-! ## Tracing the evaluator -/

/-- A run without calls of the host. -/
def lift (m : Run α) : Traced α := fun (w, calls) =>
  let (result, w') := m.run w
  (result, w', calls)

/-- Calls a native function, and lists the call if the function is one of the host. -/
def callNative (setup : Setup) (depth : Nat) (f : Native) (values : List Value) : Traced Value :=
  match f with
  | .host m => fun (w, calls) =>
    let (result, w') := (Run.callNative setup depth (.host m) values).run w
    (result, w', calls ++ [⟨m, values, w.isLinked, result⟩])
  | f => lift (Run.callNative setup depth f values)

/-- Runs statements up to the first one that does not end normally. -/
def block (step : Stmt → Traced Flow) : List Stmt → Traced Flow
  | [] => return .normal
  | s :: rest => do
    match ← step s with
    | .normal => block step rest
    | flow => return flow

/-- Runs the body of a loop until it leaves the loop or gives a result. -/
def iterate (body : Traced Flow) : (bound : Nat) → Traced Flow
  | 0 => lift (Run.halt .endless)
  | bound + 1 => do
    match ← body with
    | .normal => iterate body bound
    | .leave => return .normal
    | .give v => return .give v

mutual

/-- The value of an expression. -/
def evaluate (setup : Setup) : (depth : Nat) → Env → Expr → Traced Value
  | 0, _, _ => lift (Run.halt .tooDeep)
  | depth + 1, env, e =>
    match e with
    | .literal value _ => return .ofLiteral value
    | .variable name span => lift (Run.lookup env name span)
    | .grouping inner _ => evaluate setup depth env inner
    | .unary op operand _ => return .applyUnary op (← evaluate setup depth env operand)
    | .binary left op right _ => do
      let l ← evaluate setup depth env left
      let r ← evaluate setup depth env right
      return .applyBinary op l r
    | .logical left op right _ => do
      let l ← evaluate setup depth env left
      match op, l.truthy with
      | .or, true => return .boolean true
      | .and, false => return .boolean false
      | _, _ => return .boolean (← evaluate setup depth env right).truthy
    | .index target index _ => do
      let t ← evaluate setup depth env target
      let i ← evaluate setup depth env index
      return (← lift Run.heap).index t i
    | .array items _ => do
      let values ← items.mapM (evaluate setup depth env)
      lift (Run.onHeap (·.createArray values))
    | .function parameters body _ => lift (Run.newFunction none parameters body env)
    | .call callee arguments span => do
      let f ← evaluate setup depth env callee
      let values ← arguments.mapM (evaluate setup depth env)
      callFunction setup depth f values (some span)

/-- Calls a value. -/
def callFunction (setup : Setup) :
    (depth : Nat) → Value → List Value → Option Span → Traced Value
  | 0, _, _, _ => lift (Run.halt .tooDeep)
  | depth + 1, f, values, span =>
    match f with
    | .function (.native f) => callNative setup depth f values
    | .function (.closure c) =>
      if values.length = c.parameters.length then do
        let env ← lift (Run.enterCall c values)
        match ← block (execute setup depth env) c.body with
        | .give v => return v
        | _ => return .null
      else
        lift (Run.halt (.fault
          (.wrongArity (Function.closure c).name? c.parameters.length values.length) span))
    | v => lift (Run.halt (.fault (.notCallable v.kindName) span))

/-- Executes a statement. -/
def execute (setup : Setup) : (depth : Nat) → Env → Stmt → Traced Flow
  | 0, _, _ => lift (Run.halt .tooDeep)
  | depth + 1, env, s =>
    match s with
    | .expression e _ => do
      let _ ← evaluate setup depth env e
      return .normal
    | .declare name e _ => do
      let v ← evaluate setup depth env e
      lift (Run.define env name v)
      return .normal
    | .publish name e _ => do
      let v ← evaluate setup depth env e
      lift (Run.define env.rootEnv name v)
      return .normal
    | .assign name e span => do
      let v ← evaluate setup depth env e
      lift (Run.assign env name v span)
      return .normal
    | .assignIndex target index e _ => do
      let t ← evaluate setup depth env target
      let i ← evaluate setup depth env index
      let v ← evaluate setup depth env e
      lift (discard (Run.onHeap (·.assignIndex t i v)))
      return .normal
    | .function name parameters body exported _ => do
      let f ← lift (Run.newFunction (some name) parameters body env)
      lift (Run.define (if exported then env.rootEnv else env) name f)
      return .normal
    | .branch condition consequent alternative _ => do
      let c ← evaluate setup depth env condition
      match c.truthy, alternative with
      | true, _ => block (execute setup depth (← lift (Run.enter env))) consequent
      | false, some statements => block (execute setup depth (← lift (Run.enter env))) statements
      | false, none => return .normal
    | .loop body _ =>
      iterate (do block (execute setup depth (← lift (Run.enter env))) body) setup.iterations
    | .leave _ => return .leave
    | .give none _ => return .give .null
    | .give (some e) _ => return .give (← evaluate setup depth env e)

end

/-- Runs the statements of a script. -/
def program (setup : Setup) (env : Env) (result : Value) : List Stmt → Traced Value
  | [] => return result
  | .expression e _ :: rest => do
    let v ← evaluate setup setup.depth env e
    program setup env v rest
  | s :: rest => do
    match ← execute setup setup.depth env s with
    | .normal => program setup env result rest
    | .leave => return result
    | .give v => return v

/-! ## Sequences -/

theorem run_lift (m : Run α) (w : World) (calls : List ScriptCall) :
    (lift m).run (w, calls) = ((m.run w).1, (m.run w).2, calls) := rfl

theorem run_callNative_host (setup : Setup) (depth : Nat) (m : HostMethod) (values : List Value)
    (w : World) (calls : List ScriptCall) :
    (callNative setup depth (.host m) values).run (w, calls) =
      (((Host.call setup m values).run w).1, ((Host.call setup m values).run w).2,
        calls ++ [⟨m, values, w.isLinked, ((Host.call setup m values).run w).1⟩]) := rfl

/-- What a traced run does that goes on with the result of another one. -/
theorem run_bind (t : Traced α) (f : α → Traced β) (w : World) (calls : List ScriptCall) :
    (t >>= f).run (w, calls) = match t.run (w, calls) with
      | (.ok a, s) => (f a).run s
      | (.error h, s) => (.error h, s) := by
  change (match t.run (w, calls) with | (a, s) => ExceptT.bindCont f a s) = _
  rcases t.run (w, calls) with ⟨_ | _, _⟩ <;> rfl

end Traced

end HostScript
