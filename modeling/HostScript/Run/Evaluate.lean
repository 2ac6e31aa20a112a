import HostScript.Host.Client
import HostScript.Http.Request
import HostScript.Syntax.Tree
import HostScript.Value.Access
import HostScript.Value.Operator

/-!
# Evaluation

Running syntax trees. Expressions give values; statements give a `Flow`, which says whether the
statements around them go on. `evaluate`, `execute` and `callFunction` nest no deeper than their
bound; loops are run by `iterate`, which has a bound of its own. A value of the wrong kind gives an
error value; only unbound names, calls of what is no function and wrong counts of arguments are
faults.
-/

namespace HostScript

/-- How a statement ends: normally, by leaving the loop around it, or by giving the result of the
function around it. -/
inductive Flow
  | normal
  | leave
  | give (v : Value)

namespace Run

/-! ## Scopes and functions -/

/-- What a name is bound to. -/
def lookup (env : Env) (name : Name) (span : Span) : Run Value := do
  match (← get).scopes.get? env name with
  | some v => return v
  | none => halt (.fault (.undefinedVariable name) (some span))

/-- Changes the scopes. -/
def onScopes (f : Scopes Value → Scopes Value) : Run Unit :=
  modify fun w => { w with scopes := f w.scopes }

/-- Binds a name in the scope at hand. -/
def define (env : Env) (name : Name) (v : Value) : Run Unit := onScopes (·.define env name v)

/-- Binds a name anew where it is bound. -/
def assign (env : Env) (name : Name) (v : Value) (span : Span) : Run Unit := do
  match (← get).scopes.owner? name env.path with
  | some id => onScopes (·.bind id name v)
  | none => halt (.fault (.undefinedTarget name) (some span))

/-- Makes a scope inside an environment. -/
def enter (env : Env) : Run Env :=
  modifyGet fun ⟨scopes, heap, closures, events, link, replies⟩ =>
    let (inner, scopes) := scopes.child env
    (inner, ⟨scopes, heap, closures, events, link, replies⟩)

/-- Makes a function. -/
def newFunction (name : Option Name) (parameters : List Name) (body : List Stmt) (env : Env) :
    Run Value :=
  modifyGet fun w =>
    (.function (.closure ⟨w.closures, name, parameters, body, env⟩),
      { w with closures := w.closures + 1 })

/-- Makes the scope of a call, in which the parameters are bound to the arguments. -/
def enterCall (c : Closure) (values : List Value) : Run Env := do
  let env ← enter c.env
  for (name, v) in c.parameters.zip values do
    define env name v
  return env

/-- Calls a native function. What the library nests counts against what is left of the bound; a host
has a bound of its own. -/
def callNative (setup : Setup) (depth : Nat) (f : Native) (values : List Value) : Run Value :=
  match f with
  | .standard f => f.call { setup with depth } values
  | .http f => Http.call setup f values
  | .host m => Host.call setup m values

/-! ## Blocks and loops -/

/-- Runs statements up to the first one that does not end normally. -/
def block (step : Stmt → Run Flow) : List Stmt → Run Flow
  | [] => return .normal
  | s :: rest => do
    match ← step s with
    | .normal => block step rest
    | flow => return flow

/-- Runs the body of a loop until it leaves the loop or gives a result. -/
def iterate (body : Run Flow) : (bound : Nat) → Run Flow
  | 0 => halt .endless
  | bound + 1 => do
    match ← body with
    | .normal => iterate body bound
    | .leave => return .normal
    | .give v => return .give v

/-! ## Expressions and statements -/

mutual

/-- The value of an expression. -/
def evaluate (setup : Setup) : (depth : Nat) → Env → Expr → Run Value
  | 0, _, _ => halt .tooDeep
  | depth + 1, env, e =>
    match e with
    | .literal value _ => return .ofLiteral value
    | .variable name span => lookup env name span
    | .grouping inner _ => evaluate setup depth env inner
    | .unary op operand _ => return .applyUnary op (← evaluate setup depth env operand)
    | .binary left op right _ => do
      let l ← evaluate setup depth env left
      let r ← evaluate setup depth env right
      return .applyBinary op l r
    | .logical left op right _ => do
      let l ← evaluate setup depth env left
      match op, l.truthy with
      | .or, true => return .boolean true
      | .and, false => return .boolean false
      | _, _ => return .boolean (← evaluate setup depth env right).truthy
    | .index target index _ => do
      let t ← evaluate setup depth env target
      let i ← evaluate setup depth env index
      return (← heap).index t i
    | .array items _ => do
      let values ← items.mapM (evaluate setup depth env)
      onHeap (·.createArray values)
    | .function parameters body _ => newFunction none parameters body env
    | .call callee arguments span => do
      let f ← evaluate setup depth env callee
      let values ← arguments.mapM (evaluate setup depth env)
      callFunction setup depth f values (some span)

/-- Calls a value, which must be a function. A fault is blamed on the span. -/
def callFunction (setup : Setup) : (depth : Nat) → Value → List Value → Option Span → Run Value
  | 0, _, _, _ => halt .tooDeep
  | depth + 1, f, values, span =>
    match f with
    | .function (.native f) => callNative setup depth f values
    | .function (.closure c) =>
      if values.length = c.parameters.length then do
        let env ← enterCall c values
        match ← block (execute setup depth env) c.body with
        | .give v => return v
        | _ => return .null
      else
        halt (.fault (.wrongArity (Function.closure c).name? c.parameters.length values.length)
          span)
    | v => halt (.fault (.notCallable v.kindName) span)

/-- Executes a statement. -/
def execute (setup : Setup) : (depth : Nat) → Env → Stmt → Run Flow
  | 0, _, _ => halt .tooDeep
  | depth + 1, env, s =>
    match s with
    | .expression e _ => do
      discard (evaluate setup depth env e)
      return .normal
    | .declare name e _ => do
      define env name (← evaluate setup depth env e)
      return .normal
    | .publish name e _ => do
      define env.rootEnv name (← evaluate setup depth env e)
      return .normal
    | .assign name e span => do
      assign env name (← evaluate setup depth env e) span
      return .normal
    | .assignIndex target index e _ => do
      let t ← evaluate setup depth env target
      let i ← evaluate setup depth env index
      let v ← evaluate setup depth env e
      discard (onHeap (·.assignIndex t i v))
      return .normal
    | .function name parameters body exported _ => do
      let f ← newFunction (some name) parameters body env
      define (if exported then env.rootEnv else env) name f
      return .normal
    | .branch condition consequent alternative _ => do
      let c ← evaluate setup depth env condition
      match c.truthy, alternative with
      | true, _ => block (execute setup depth (← enter env)) consequent
      | false, some statements => block (execute setup depth (← enter env)) statements
      | false, none => return .normal
    | .loop body _ =>
      iterate (do block (execute setup depth (← enter env)) body) setup.iterations
    | .leave _ => return .leave
    | .give none _ => return .give .null
    | .give (some e) _ => return .give (← evaluate setup depth env e)

end

/-- Runs the statements of a script. The result is what it gives, or the value of the last
expression that stands as a statement of its own. -/
def program (setup : Setup) (env : Env) (result : Value) : List Stmt → Run Value
  | [] => return result
  | .expression e _ :: rest => do
    let v ← evaluate setup setup.depth env e
    program setup env v rest
  | s :: rest => do
    match ← execute setup setup.depth env s with
    | .normal => program setup env result rest
    | .leave => return result
    | .give v => return v

end Run

end HostScript
