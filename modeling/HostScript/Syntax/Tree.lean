import HostScript.Syntax.Token

/-!
# Syntax trees

Expressions and statements of scripts. Every node has the span of the token that it is blamed by:
the operator of an operation, the opening parenthesis of a call, else the first token.
-/

namespace HostScript

/-- The name of a variable, parameter or function. -/
abbrev Name := Text

/-- Values that can be written down as one token. -/
inductive Literal
  | null
  | boolean (b : Bool)
  | number (x : Float)
  | string (t : Text)
deriving DecidableEq

/-- Operators in front of one operand. -/
inductive UnaryOp
  | not
  | negate
deriving DecidableEq

/-- Operators between two operands that are both evaluated. -/
inductive BinaryOp
  | add | subtract | multiply | divide | remainder
  | less | lessEqual | greater | greaterEqual | equal | notEqual
deriving DecidableEq

/-- Operators that may leave their right operand alone. -/
inductive LogicalOp
  | and
  | or
deriving DecidableEq

/-- The name of an operator. Both spellings of negation are called `not`. -/
def UnaryOp.symbol : UnaryOp → String
  | not => "not"
  | negate => "-"

/-- How an operator is written. -/
def BinaryOp.symbol : BinaryOp → String
  | add => "+"
  | subtract => "-"
  | multiply => "*"
  | divide => "/"
  | remainder => "%"
  | less => "<"
  | lessEqual => "<="
  | greater => ">"
  | greaterEqual => ">="
  | equal => "=="
  | notEqual => "!="

/-- How an operator is written. -/
def LogicalOp.symbol : LogicalOp → String
  | and => "and"
  | or => "or"

/-- The operators with two operands. -/
def BinaryOp.all : List BinaryOp :=
  [add, subtract, multiply, divide, remainder, less, lessEqual, greater, greaterEqual, equal,
    notEqual]

mutual

/-- Expressions. -/
inductive Expr
  | literal (value : Literal) (span : Span)
  | variable (name : Name) (span : Span)
  | unary (op : UnaryOp) (operand : Expr) (span : Span)
  | binary (left : Expr) (op : BinaryOp) (right : Expr) (span : Span)
  | logical (left : Expr) (op : LogicalOp) (right : Expr) (span : Span)
  | grouping (inner : Expr) (span : Span)
  | call (callee : Expr) (arguments : List Expr) (span : Span)
  | index (target index : Expr) (span : Span)
  | array (items : List Expr) (span : Span)
  | function (parameters : List Name) (body : List Stmt) (span : Span)

/-- Statements. -/
inductive Stmt
  | expression (value : Expr) (span : Span)
  | declare (name : Name) (value : Expr) (span : Span)
  | publish (name : Name) (value : Expr) (span : Span)
  | assign (name : Name) (value : Expr) (span : Span)
  | assignIndex (target index value : Expr) (span : Span)
  | function (name : Name) (parameters : List Name) (body : List Stmt) (exported : Bool)
      (span : Span)
  | branch (condition : Expr) (consequent : List Stmt) (alternative : Option (List Stmt))
      (span : Span)
  | loop (body : List Stmt) (span : Span)
  | leave (span : Span)
  | give (value : Option Expr) (span : Span)

end

instance : Inhabited Expr := ⟨.literal .null default⟩

instance : Inhabited Stmt := ⟨.leave default⟩

end HostScript
