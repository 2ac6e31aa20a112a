import HostScript.Syntax.Tree
import HostScript.Value.Native
import HostScript.Value.Scope

/-!
# Values

Scripts compute with eight kinds of values. Arrays and tables are references into a heap, so that
all holders of one see its changes; everything else is the value itself. Functions are compared by
identity, arrays and tables are never equal to anything, and the other kinds are compared by value
(`Value.equal`).
-/

namespace HostScript

/-- The place of an array in a heap. -/
abbrev ArrayId := Nat

/-- The place of a table in a heap. -/
abbrev TableId := Nat

/-- A function of a script with the environment in which it was made. No two of them have the same
`id`. -/
structure Closure where
  id : Nat
  name : Option Name
  parameters : List Name
  body : List Stmt
  env : Env

/-- What can be called. -/
inductive Function
  | native (f : Native)
  | closure (c : Closure)

namespace Function

/-- The name of a function, unless it has none or an empty one. -/
def name? : Function → Option Text
  | native f => some f.name
  | closure c => if c.name = some [] then none else c.name

/-- Whether two functions are one and the same. -/
def same : Function → Function → Bool
  | native f, native g => f = g
  | closure c, closure d => c.id = d.id
  | _, _ => false

/-- The short form of a function: its name between angle brackets. -/
def display (f : Function) : Text :=
  match f.name? with
  | some name => "<fn " ++ name ++ ">"
  | none => "<fn>"

end Function

/-- A value of a script. -/
inductive Value
  | null
  | boolean (b : Bool)
  | number (x : Float)
  | string (t : Text)
  | array (id : ArrayId)
  | table (id : TableId)
  | error (message : Text)
  | function (f : Function)

instance : Inhabited Value := ⟨.null⟩

namespace Value

/-- The name of the kind of a value. -/
def kindName : Value → String
  | null => "null"
  | boolean _ => "boolean"
  | number _ => "number"
  | string _ => "string"
  | array _ => "array"
  | table _ => "table"
  | error _ => "error"
  | function _ => "function"

/-- Everything but null and false counts as true. -/
def truthy : Value → Bool
  | null => false
  | boolean b => b
  | _ => true

/-- Whether two values are equal for a script. -/
def equal : Value → Value → Bool
  | null, null => true
  | boolean a, boolean b => a == b
  | number x, number y => x == y
  | string s, string t => s == t
  | error s, error t => s == t
  | function f, function g => f.same g
  | _, _ => false

/-- Whether two values are one and the same: references by their place, functions by identity,
numbers by their bits, all other kinds by value. -/
def identical : Value → Value → Bool
  | array a, array b => a = b
  | table a, table b => a = b
  | number x, number y => x.toBits == y.toBits
  | v, w => v.equal w

/-- The value of a literal. -/
def ofLiteral : Literal → Value
  | .null => null
  | .boolean b => boolean b
  | .number x => number x
  | .string t => string t

end Value

end HostScript
