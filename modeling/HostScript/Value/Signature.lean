import HostScript.Value.Basic

/-!
# Signatures of native functions

A native function states the kinds of its parameters and gets arguments of the matching types
(`readArguments`). The count of arguments is checked before their kinds, and the first argument of a
wrong kind is blamed.
-/

namespace HostScript

/-- What a parameter takes. -/
inductive Kind
  | number
  | string
  | boolean
  | table
  | array
  | function
  | error
  | any
deriving DecidableEq

namespace Kind

/-- The name of a kind in messages. -/
def label : Kind → String
  | number => "number"
  | string => "string"
  | boolean => "boolean"
  | table => "table"
  | array => "array"
  | function => "function"
  | error => "Error"
  | any => "any"

/-- What a function works with in place of an argument of a kind. -/
abbrev Payload : Kind → Type
  | number => Float
  | string => Text
  | boolean => Bool
  | table => TableId
  | array => ArrayId
  | function => Function
  | error => Text
  | any => Value

/-- What is in a value of a kind. -/
def read? : (k : Kind) → Value → Option k.Payload
  | number, .number x => some x
  | string, .string t => some t
  | boolean, .boolean b => some b
  | table, .table id => some id
  | array, .array id => some id
  | function, .function f => some f
  | error, .error message => some message
  | any, v => some v
  | _, _ => none

/-- The value that holds something of a kind. -/
def value : (k : Kind) → k.Payload → Value
  | number, x => .number x
  | string, t => .string t
  | boolean, b => .boolean b
  | table, id => .table id
  | array, id => .array id
  | function, f => .function f
  | error, message => .error message
  | any, v => v

theorem read?_eq_some_iff (k : Kind) (v : Value) (p : k.Payload) :
    k.read? v = some p ↔ v = k.value p := by
  cases k <;> cases v <;> simp [read?, value, eq_comm]

end Kind

/-- Arguments of the given kinds. -/
abbrev Arguments : List Kind → Type
  | [] => Unit
  | k :: kinds => k.Payload × Arguments kinds

/-- Why arguments do not fit a signature. -/
inductive ArgumentFault
  | missing (expected got : Nat)
  | excess (expected got : Nat)
  | mismatch (wanted : String) (position : Nat) (got : String)
  | invalidBuffer (position : Nat)
deriving DecidableEq

/-- The wording of an argument fault. -/
def ArgumentFault.message : ArgumentFault → Text
  | missing expected got =>
    "missing argument (expected " ++ Text.ofNat expected ++ ", got " ++ Text.ofNat got ++ ")"
  | excess expected got =>
    "too many arguments (expected " ++ Text.ofNat expected ++ ", got " ++ Text.ofNat got ++ ")"
  | mismatch wanted position got =>
    "expected " ++ Text.ofString wanted ++ " for argument " ++ Text.ofNat position ++ ", got "
      ++ Text.ofString got
  | invalidBuffer position =>
    "argument " ++ Text.ofNat position ++ " is not a valid buffer id"

/-- The fault of an argument count. -/
def countFault? (expected got : Nat) : Option ArgumentFault :=
  if got < expected then some (.missing expected got)
  else if expected < got then some (.excess expected got)
  else none

/-- Reads arguments of which the first has the given position. -/
def readKinds (position : Nat) :
    (kinds : List Kind) → List Value → Except ArgumentFault (Arguments kinds)
  | [], _ => .ok ()
  | _ :: kinds, [] => .error (.missing (position + kinds.length) (position - 1))
  | k :: kinds, v :: values =>
    match k.read? v with
    | none => .error (.mismatch k.label position v.kindName)
    | some payload => (readKinds (position + 1) kinds values).map (payload, ·)

/-- Reads arguments by a signature. -/
def readArguments (kinds : List Kind) (values : List Value) :
    Except ArgumentFault (Arguments kinds) :=
  match countFault? kinds.length values.length with
  | some fault => .error fault
  | none => readKinds 1 kinds values

end HostScript
