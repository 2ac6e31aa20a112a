import HostScript.Syntax.Tree

/-!
# From tokens to syntax trees

The parser reads a token list from left to right through a `Cursor`, which remembers the line of
the token before it: a parenthesis or bracket continues an expression only on that line. The
procedures that nest (`expression`, `statement`, `block`, …) take a bound on the nesting and stop
with `tooDeep` beyond it; repetitions (`chain`, `separated`, `many`) go on while tokens are used up.
-/

namespace HostScript

/-! ## Faults -/

/-- Why a token list is no program. -/
inductive ParseFault
  | expected (wanted : String) (found : Lexeme)
  | expectedExpression (found : Lexeme)
  | duplicateParameter (name : Name)
  | invalidTarget
deriving DecidableEq

/-- The wording of a parsing fault. -/
def ParseFault.message : ParseFault → Text
  | expected wanted found => "expected " ++ Text.ofString wanted ++ ", found " ++ found.describe
  | expectedExpression found => "expected expression, found " ++ found.describe
  | duplicateParameter name => "duplicate parameter " ++ name
  | invalidTarget => "invalid assignment target"

/-- How parsing ends early: at a fault with the span that is blamed, or at the nesting bound. -/
inductive ParseHalt
  | fault (cause : ParseFault) (span : Span)
  | tooDeep
deriving DecidableEq

/-! ## Cursors -/

/-- The tokens that are still to be read, and the line of the last one that was. -/
structure Cursor where
  line : Nat
  rest : List Token

namespace Cursor

/-- The next token. Past the end it is the end of the input. -/
def peek (s : Cursor) : Token :=
  match s.rest with
  | t :: _ => t
  | [] => ⟨.endOfInput, default⟩

/-- The token after the next one, or the last one. -/
def second (s : Cursor) : Token :=
  match s.rest with
  | _ :: t :: _ => t
  | _ => s.peek

/-- The cursor behind the next token. The end of the input is never passed. -/
def next (s : Cursor) : Cursor :=
  match s.rest with
  | ⟨.endOfInput, _⟩ :: _ => s
  | t :: rest => ⟨t.span.line, rest⟩
  | [] => s

/-- Whether the next token is the given one. -/
def at? (s : Cursor) (l : Lexeme) : Bool := s.peek.lexeme = l

end Cursor

/-- A procedure that reads tokens. -/
abbrev Parser (α : Type) := StateT Cursor (Except ParseHalt) α

namespace Parser

/-- Stops at the nesting bound. -/
def tooDeep {α : Type} : Parser α := throw .tooDeep

/-- Stops at a fault. -/
def fail {α : Type} (cause : ParseFault) (span : Span) : Parser α := throw (.fault cause span)

/-- The next token, which stays the next one. -/
def peek : Parser Token := return (← get).peek

/-- Reads the next token. -/
def take : Parser Token := modifyGet fun s => (s.peek, s.next)

/-- Reads the next token if it is the given one, and says whether it was. -/
def accept (l : Lexeme) : Parser Bool :=
  modifyGet fun s => if s.at? l then (true, s.next) else (false, s)

/-- Reads the given symbol, which a fault calls `wanted`. -/
def expect (s : Symbol) (wanted : String) : Parser Unit := do
  let t ← peek
  if t.lexeme = .symbol s then discard take
  else fail (.expected wanted t.lexeme) t.span

/-- Reads an identifier and its span. -/
def identifier : Parser (Name × Span) := do
  let t ← peek
  match t.lexeme with
  | .identifier name =>
    discard take
    return (name, t.span)
  | found => fail (.expected "identifier" found) t.span

/-! ## Repetitions -/

/-- Goes on with a chain of operators behind `left`, grouping to the left. -/
def chainRest (build? : Token → Option (Expr → Expr → Expr)) (operand : Parser Expr) (left : Expr)
    (s : Cursor) : Except ParseHalt (Expr × Cursor) :=
  match build? s.peek with
  | none => .ok (left, s)
  | some build =>
    match operand s.next with
    | .error h => .error h
    | .ok (right, t) =>
      if t.rest.length < s.rest.length then chainRest build? operand (build left right) t
      else .error .tooDeep
termination_by s.rest.length

/-- Operands with operators between them, grouped to the left. -/
def chain (build? : Token → Option (Expr → Expr → Expr)) (operand : Parser Expr) : Parser Expr := do
  let left ← operand
  chainRest build? operand left

/-- One or more items with commas between them. An item may look at those before it. -/
def separated {α : Type} (item : List α → Parser α) (seen : List α) (s : Cursor) :
    Except ParseHalt (List α × Cursor) :=
  match item seen s with
  | .error h => .error h
  | .ok (x, t) =>
    if t.at? (.symbol .comma) then
      if t.next.rest.length < s.rest.length then separated item (seen ++ [x]) t.next
      else .error .tooDeep
    else .ok (seen ++ [x], t)
termination_by s.rest.length

/-- Statements up to the end of the input or to a lexeme that satisfies `stop`. -/
def many (stop : Lexeme → Bool) (item : Parser Stmt) (s : Cursor) :
    Except ParseHalt (List Stmt × Cursor) :=
  if stop s.peek.lexeme || s.at? .endOfInput then .ok ([], s)
  else
    match item s with
    | .error h => .error h
    | .ok (x, t) =>
      if t.rest.length < s.rest.length then do
        let (xs, u) ← many stop item t
        return (x :: xs, u)
      else .error .tooDeep
termination_by s.rest.length

/-- Items with commas between them up to a closing symbol, which may follow at once. -/
def items {α : Type} (item : List α → Parser α) (closing : Symbol) (wanted : String) :
    Parser (List α) := do
  let found ← if (← get).at? (.symbol closing) then pure [] else separated item []
  expect closing wanted
  return found

/-- A parameter, which must differ from those before it. -/
def parameter (seen : List Name) : Parser Name := do
  let (name, span) ← identifier
  if seen.contains name then fail (.duplicateParameter name) span else return name

/-- A list of parameters between parentheses. -/
def parameters : Parser (List Name) := do
  expect .leftParen "("
  items parameter .rightParen ")"

/-! ## Operators -/

/-- Makes a node of an operator between two operands, if the token is one of the given operators. -/
def binaryOf (ops : List (Symbol × BinaryOp)) (t : Token) : Option (Expr → Expr → Expr) :=
  match t.lexeme with
  | .symbol s => (ops.lookup s).map fun op left right => .binary left op right t.span
  | _ => none

/-- Makes a node of the given logical operator. -/
def logicalOf (symbol : Symbol) (op : LogicalOp) (t : Token) : Option (Expr → Expr → Expr) :=
  if t.lexeme = .symbol symbol then some fun left right => .logical left op right t.span else none

/-- The operators in front of an operand. -/
def unaryOf? : Lexeme → Option UnaryOp
  | .symbol .not => some .not
  | .symbol .minus => some .negate
  | _ => none

/-- The levels of operators between operands, the loosest first. -/
def levels (operand : Parser Expr) : Parser Expr :=
  chain (logicalOf .or .or) <|
  chain (logicalOf .and .and) <|
  chain (binaryOf [(.isEqual, .equal), (.notEqual, .notEqual)]) <|
  chain (binaryOf [(.lessThan, .less), (.lessThanEqual, .lessEqual), (.greaterThan, .greater),
    (.greaterThanEqual, .greaterEqual)]) <|
  chain (binaryOf [(.plus, .add), (.minus, .subtract)]) <|
  chain (binaryOf [(.asterisk, .multiply), (.slash, .divide), (.percent, .remainder)]) operand

/-- What goes on behind an expression with the given token: the arguments of a call, or an index. -/
def suffix? (inner : Parser Expr) (target : Expr) (t : Token) : Option (Parser Expr) :=
  match t.lexeme with
  | .symbol .leftParen => some do
    return .call target (← items (fun _ => inner) .rightParen ")") t.span
  | .symbol .leftBracket => some do
    let index ← inner
    expect .rightBracket "]"
    return .index target index t.span
  | _ => none

/-- Goes on with calls and indexes behind an expression. Each opens on the line of the token before
it. -/
def postfixRest (inner : Parser Expr) (target : Expr) (s : Cursor) :
    Except ParseHalt (Expr × Cursor) :=
  if s.peek.span.line ≠ s.line then .ok (target, s)
  else
    match suffix? inner target s.peek with
    | none => .ok (target, s)
    | some step =>
      match step s.next with
      | .error h => .error h
      | .ok (e, t) =>
        if t.rest.length < s.rest.length then postfixRest inner e t else .error .tooDeep
termination_by s.rest.length

/-- The assignment of a value to the variable or the place that an expression names. -/
def assign? (target value : Expr) (span : Span) : Option Stmt :=
  match target with
  | .variable name _ => some (.assign name value span)
  | .index container index _ => some (.assignIndex container index value span)
  | _ => none

/-- An expression, or an assignment to the variable or the place that it names. -/
def expressionOrAssignment (inner : Parser Expr) (span : Span) : Parser Stmt := do
  let target ← inner
  let equals ← peek
  if ← accept (.symbol .equals) then
    let value ← inner
    match assign? target value span with
    | some s => return s
    | none => fail .invalidTarget equals.span
  else
    return .expression target span

/-- A name and the value that it stands for. -/
def binding (inner : Parser Expr) : Parser (Name × Expr) := do
  let (name, _) ← identifier
  expect .equals "="
  return (name, ← inner)

/-- What stands behind an `else`, if there is one: a block, or without braces the one statement of
which `branch` reads what follows the `if`. -/
def alternative (branch : Span → Parser Stmt) (body : Parser (List Stmt)) :
    Parser (Option (List Stmt)) := do
  if ← accept (.symbol .else) then
    let t ← peek
    if ← accept (.symbol .if) then return some [← branch t.span]
    else return some (← body)
  else
    return none

/-! ## Expressions and statements -/

mutual

/-- An expression, with `depth` levels of nesting to go. -/
def expression : (depth : Nat) → Parser Expr
  | 0 => tooDeep
  | depth + 1 => levels (unary depth)

/-- An operand: unary operators in front of an expression with calls and indexes behind it. -/
def unary : (depth : Nat) → Parser Expr
  | 0 => tooDeep
  | depth + 1 => do
    let t ← peek
    match unaryOf? t.lexeme with
    | some op =>
      discard take
      return .unary op (← unary depth) t.span
    | none =>
      let e ← primary depth
      postfixRest (expression depth) e

/-- An expression that begins with the next token and has no operators around it. -/
def primary : (depth : Nat) → Parser Expr
  | 0 => tooDeep
  | depth + 1 => do
    let t ← take
    match t.lexeme with
    | .symbol .null => return .literal .null t.span
    | .symbol .true => return .literal (.boolean true) t.span
    | .symbol .false => return .literal (.boolean false) t.span
    | .number x => return .literal (.number x) t.span
    | .string value => return .literal (.string value) t.span
    | .identifier name => return .variable name t.span
    | .symbol .leftParen =>
      let inner ← expression depth
      expect .rightParen ")"
      return .grouping inner t.span
    | .symbol .leftBracket =>
      return .array (← items (fun _ => expression depth) .rightBracket "]") t.span
    | .symbol .fn =>
      let names ← parameters
      return .function names (← block depth) t.span
    | found => fail (.expectedExpression found) t.span

/-- Statements between braces. -/
def block : (depth : Nat) → Parser (List Stmt)
  | 0 => tooDeep
  | depth + 1 => do
    expect .leftBrace "\x7b"
    let body ← many (· = .symbol .rightBrace) (statement depth)
    expect .rightBrace "\x7d"
    return body

/-- The name, parameters and body of a function, of which the keyword has been read. -/
def functionRest : (depth : Nat) → (exported : Bool) → Span → Parser Stmt
  | 0, _, _ => tooDeep
  | depth + 1, exported, span => do
    let (name, _) ← identifier
    let names ← parameters
    return .function name names (← block depth) exported span

/-- The condition and the branches of a statement of which the `if` has been read. -/
def branchRest : (depth : Nat) → Span → Parser Stmt
  | 0, _ => tooDeep
  | depth + 1, span => do
    let condition ← expression depth
    let consequent ← block depth
    return .branch condition consequent (← alternative (branchRest depth) (block depth)) span

/-- A statement without a semicolon. -/
def bareStatement : (depth : Nat) → Parser Stmt
  | 0 => tooDeep
  | depth + 1 => do
    let t ← peek
    match t.lexeme with
    | .symbol .export =>
      discard take
      if ← accept (.symbol .fn) then functionRest depth true t.span
      else
        let (name, value) ← binding (expression depth)
        return .publish name value t.span
    | .symbol .let =>
      discard take
      let (name, value) ← binding (expression depth)
      return .declare name value t.span
    | .symbol .if =>
      discard take
      branchRest depth t.span
    | .symbol .loop =>
      discard take
      return .loop (← block depth) t.span
    | .symbol .break =>
      discard take
      return .leave t.span
    | .symbol .return =>
      discard take
      match (← peek).lexeme with
      | .symbol .semicolon => return .give none t.span
      | .symbol .rightBrace => return .give none t.span
      | .endOfInput => return .give none t.span
      | _ => return .give (some (← expression depth)) t.span
    | found =>
      let second := (← get).second
      match found, second.lexeme with
      | .symbol .fn, .identifier _ =>
        discard take
        functionRest depth false t.span
      | _, _ => expressionOrAssignment (expression depth) t.span

/-- A statement with the semicolon that may follow it. -/
def statement : (depth : Nat) → Parser Stmt
  | 0 => tooDeep
  | depth + 1 => do
    let s ← bareStatement depth
    discard (accept (.symbol .semicolon))
    return s

end

end Parser

/-- The statements that a token list spells, nested no deeper than the bound. -/
def parse (depth : Nat) (tokens : List Token) : Except ParseHalt (List Stmt) :=
  match Parser.many (fun _ => false) (Parser.statement depth) ⟨0, tokens⟩ with
  | .error h => .error h
  | .ok (program, _) => .ok program

end HostScript
