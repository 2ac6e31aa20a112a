import HostScript.Value.Display

/-!
# Operators

What operators make of values. They never fail: an operator that does not apply gives an error
value, which names it and the kinds of its operands.
-/

namespace HostScript

/-- The operator written with a symbol. -/
def BinaryOp.ofSymbol? (symbol : Text) : Option BinaryOp :=
  BinaryOp.all.find? fun op => Text.ofString op.symbol = symbol

/-- The operator written with a symbol. -/
def UnaryOp.ofSymbol? (symbol : Text) : Option UnaryOp :=
  [UnaryOp.not, UnaryOp.negate].find? fun op => Text.ofString op.symbol = symbol

namespace Value

/-- The error of an operator that does not apply to its operands. -/
def mismatch (symbol : Text) (left right : Value) : Value :=
  .error ("cannot apply '" ++ symbol ++ "' to " ++ Text.ofString left.kindName ++ " and "
    ++ Text.ofString right.kindName)

/-- The error of an operator that does not apply to its operand. -/
def unaryMismatch (symbol : Text) (operand : Value) : Value :=
  .error ("cannot apply unary '" ++ symbol ++ "' to " ++ Text.ofString operand.kindName)

/-- An operator between numbers. -/
def onNumbers (op : BinaryOp) (x y : Float) : Value :=
  match op with
  | .add => number (x + y)
  | .subtract => number (x - y)
  | .multiply => number (x * y)
  | .divide => number (x / y)
  | .remainder => number (Number.remainder x y)
  | .less => boolean (x < y)
  | .lessEqual => boolean (x ≤ y)
  | .greater => boolean (y < x)
  | .greaterEqual => boolean (y ≤ x)
  | .equal => boolean (x == y)
  | .notEqual => boolean (x != y)

/-- An operator between strings: joining, and comparison by code points. -/
def onStrings (op : BinaryOp) (s t : Text) : Value :=
  match op with
  | .add => string (s ++ t)
  | .less => boolean (s.before t)
  | .lessEqual => boolean (!t.before s)
  | .greater => boolean (t.before s)
  | .greaterEqual => boolean (!s.before t)
  | .equal => boolean (s == t)
  | .notEqual => boolean (s != t)
  | op => mismatch op.symbol (string s) (string t)

/-- What a value adds to a string: only strings, numbers, booleans and null do. -/
def joinable? : Value → Option Text
  | null => some (displayAtom null)
  | boolean b => some (displayAtom (boolean b))
  | number x => some (displayAtom (number x))
  | string t => some t
  | _ => none

/-- The sum of two values of which one is a string. -/
def joined? : Value → Value → Option Text
  | string s, v => v.joinable?.map (s ++ ·)
  | v, string t => v.joinable?.map (· ++ t)
  | _, _ => none

/-- An operator between two values. -/
def applyBinary (op : BinaryOp) (left right : Value) : Value :=
  match op with
  | .equal => boolean (left.equal right)
  | .notEqual => boolean (!left.equal right)
  | op =>
    match left, right with
    | number x, number y => onNumbers op x y
    | string s, string t => onStrings op s t
    | left, right =>
      match op, joined? left right with
      | .add, some t => string t
      | op, _ => mismatch op.symbol left right

/-- An operator in front of a value. -/
def applyUnary (op : UnaryOp) (operand : Value) : Value :=
  match op, operand with
  | .not, v => boolean !v.truthy
  | .negate, number x => number (-x)
  | .negate, v => unaryMismatch (Text.ofString UnaryOp.negate.symbol) v

end Value

end HostScript
