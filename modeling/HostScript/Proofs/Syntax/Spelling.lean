import HostScript.Syntax.Tree

/-!
# Spelling trees as tokens

A tree is spelled as the lexemes that it is made of: groupings give the parentheses, one semicolon
stands behind every statement, and the alternative of a branch is always a block. A token list may
be shorter than that: it may leave semicolons out, and write `else if` for a block of one branch
(`Shortens`).
-/

namespace HostScript

/-! ## Operators and literals -/

/-- The symbol of an operator in front of an operand. -/
def UnaryOp.sign : UnaryOp → Symbol
  | not => .not
  | negate => .minus

/-- The symbol of an operator between two operands. -/
def BinaryOp.sign : BinaryOp → Symbol
  | add => .plus
  | subtract => .minus
  | multiply => .asterisk
  | divide => .slash
  | remainder => .percent
  | less => .lessThan
  | lessEqual => .lessThanEqual
  | greater => .greaterThan
  | greaterEqual => .greaterThanEqual
  | equal => .isEqual
  | notEqual => .notEqual

/-- The symbol of a logical operator. -/
def LogicalOp.sign : LogicalOp → Symbol
  | and => .and
  | or => .or

/-- A literal as one lexeme. -/
def Literal.lexeme : Literal → Lexeme
  | null => .symbol .null
  | boolean true => .symbol .true
  | boolean false => .symbol .false
  | number x => .number x
  | string t => .string t

/-! ## Trees -/

/-- Spelled items with commas between them. -/
def commas (parts : List (List Lexeme)) : List Lexeme :=
  [.symbol .comma].intercalate parts

/-- A list of parameters between parentheses. -/
def spellParameters (names : List Name) : List Lexeme :=
  .symbol .leftParen :: (commas (names.map fun name => [.identifier name]) ++ [.symbol .rightParen])

mutual

/-- The lexemes of an expression. -/
def Expr.spell : Expr → List Lexeme
  | .literal value _ => [value.lexeme]
  | .variable name _ => [.identifier name]
  | .unary op operand _ => .symbol op.sign :: operand.spell
  | .binary left op right _ => left.spell ++ .symbol op.sign :: right.spell
  | .logical left op right _ => left.spell ++ .symbol op.sign :: right.spell
  | .grouping inner _ => .symbol .leftParen :: (inner.spell ++ [.symbol .rightParen])
  | .call callee arguments _ =>
    callee.spell ++ .symbol .leftParen :: (commas (spellExprs arguments) ++ [.symbol .rightParen])
  | .index target index _ =>
    target.spell ++ .symbol .leftBracket :: (index.spell ++ [.symbol .rightBracket])
  | .array items _ =>
    .symbol .leftBracket :: (commas (spellExprs items) ++ [.symbol .rightBracket])
  | .function parameters body _ =>
    .symbol .fn :: (spellParameters parameters ++
      .symbol .leftBrace :: (spellBlock body ++ [.symbol .rightBrace]))

/-- The lexemes of some expressions. -/
def spellExprs : List Expr → List (List Lexeme)
  | [] => []
  | e :: rest => e.spell :: spellExprs rest

/-- The lexemes of a statement without the semicolon behind it. -/
def Stmt.spell : Stmt → List Lexeme
  | .expression e _ => e.spell
  | .declare name e _ => .symbol .let :: .identifier name :: .symbol .equals :: e.spell
  | .publish name e _ => .symbol .export :: .identifier name :: .symbol .equals :: e.spell
  | .assign name e _ => .identifier name :: .symbol .equals :: e.spell
  | .assignIndex target index e _ =>
    target.spell ++ .symbol .leftBracket :: (index.spell ++ .symbol .rightBracket ::
      .symbol .equals :: e.spell)
  | .function name parameters body exported _ =>
    (if exported then [.symbol .export, .symbol .fn] else [.symbol .fn]) ++
      .identifier name :: (spellParameters parameters ++
        .symbol .leftBrace :: (spellBlock body ++ [.symbol .rightBrace]))
  | .branch condition consequent none _ =>
    .symbol .if :: (condition.spell ++
      .symbol .leftBrace :: (spellBlock consequent ++ [.symbol .rightBrace]))
  | .branch condition consequent (some alternative) _ =>
    .symbol .if :: (condition.spell ++
      .symbol .leftBrace :: (spellBlock consequent ++ .symbol .rightBrace ::
        .symbol .else :: .symbol .leftBrace :: (spellBlock alternative ++ [.symbol .rightBrace])))
  | .loop body _ =>
    .symbol .loop :: .symbol .leftBrace :: (spellBlock body ++ [.symbol .rightBrace])
  | .leave _ => [.symbol .break]
  | .give none _ => [.symbol .return]
  | .give (some e) _ => .symbol .return :: e.spell

/-- The lexemes of some statements, with a semicolon behind each. -/
def spellBlock : List Stmt → List Lexeme
  | [] => []
  | s :: rest => s.spell ++ .symbol .semicolon :: spellBlock rest

end

/-- The lexemes of statements between braces. -/
def spellBraces (body : List Stmt) : List Lexeme :=
  .symbol .leftBrace :: (spellBlock body ++ [.symbol .rightBrace])

/-- The lexemes of what stands behind an `else`, and of the `else`. -/
def spellAlternative : Option (List Stmt) → List Lexeme
  | none => []
  | some body => .symbol .else :: spellBraces body

theorem Stmt.spell_branch (condition : Expr) (consequent : List Stmt)
    (alternative : Option (List Stmt)) (span : Span) :
    (Stmt.branch condition consequent alternative span).spell =
      .symbol .if :: (condition.spell ++ (spellBraces consequent ++
        spellAlternative alternative)) := by
  cases alternative with
  | none | some => simp [spell, spellBraces, spellAlternative]

/-- The statement is a branch. -/
def Stmt.IsBranch : Stmt → Prop
  | .branch .. => True
  | _ => False

/-- The first lexemes become the second ones when the semicolons that were left out are put in, and
braces around every branch that stands behind an `else` without them. -/
inductive Shortens : List Lexeme → List Lexeme → Prop
  | nil : Shortens [] []
  | same {short long : List Lexeme} (l : Lexeme) :
    Shortens short long → Shortens (l :: short) (l :: long)
  | semicolon {short long : List Lexeme} :
    Shortens short long → Shortens short (.symbol .semicolon :: long)
  | elseIf {inner short long : List Lexeme} {s : Stmt} :
    s.IsBranch → Shortens inner s.spell → Shortens short long →
    Shortens (.symbol .else :: (inner ++ short)) (.symbol .else :: (spellBraces [s] ++ long))

/-! ## Trees without spans -/

mutual

/-- An expression with all its spans forgotten. -/
def Expr.bare : Expr → Expr
  | .literal value _ => .literal value default
  | .variable name _ => .variable name default
  | .unary op operand _ => .unary op operand.bare default
  | .binary left op right _ => .binary left.bare op right.bare default
  | .logical left op right _ => .logical left.bare op right.bare default
  | .grouping inner _ => .grouping inner.bare default
  | .call callee arguments _ => .call callee.bare (bareExprs arguments) default
  | .index target index _ => .index target.bare index.bare default
  | .array items _ => .array (bareExprs items) default
  | .function parameters body _ => .function parameters (bareBlock body) default

/-- Some expressions with all their spans forgotten. -/
def bareExprs : List Expr → List Expr
  | [] => []
  | e :: rest => e.bare :: bareExprs rest

/-- A statement with all its spans forgotten. -/
def Stmt.bare : Stmt → Stmt
  | .expression e _ => .expression e.bare default
  | .declare name e _ => .declare name e.bare default
  | .publish name e _ => .publish name e.bare default
  | .assign name e _ => .assign name e.bare default
  | .assignIndex target index e _ => .assignIndex target.bare index.bare e.bare default
  | .function name parameters body exported _ =>
    .function name parameters (bareBlock body) exported default
  | .branch condition consequent none _ =>
    .branch condition.bare (bareBlock consequent) none default
  | .branch condition consequent (some alternative) _ =>
    .branch condition.bare (bareBlock consequent) (some (bareBlock alternative)) default
  | .loop body _ => .loop (bareBlock body) default
  | .leave _ => .leave default
  | .give none _ => .give none default
  | .give (some e) _ => .give (some e.bare) default

/-- Some statements with all their spans forgotten. -/
def bareBlock : List Stmt → List Stmt
  | [] => []
  | s :: rest => s.bare :: bareBlock rest

end

theorem spellExprs_eq_map (es : List Expr) : spellExprs es = es.map Expr.spell := by
  induction es with
  | nil => rw [spellExprs, List.map_nil]
  | cons e rest ih => rw [spellExprs, ih, List.map_cons]

theorem bareExprs_eq_map (es : List Expr) : bareExprs es = es.map Expr.bare := by
  induction es with
  | nil => rw [bareExprs, List.map_nil]
  | cons e rest ih => rw [bareExprs, ih, List.map_cons]

theorem Stmt.bare_branch (condition : Expr) (consequent : List Stmt)
    (alternative : Option (List Stmt)) (span : Span) :
    (Stmt.branch condition consequent alternative span).bare =
      .branch condition.bare (bareBlock consequent) (alternative.map bareBlock) default := by
  cases alternative with
  | none | some => simp [bare]

theorem Stmt.bare_give (value : Option Expr) (span : Span) :
    (Stmt.give value span).bare = .give (value.map Expr.bare) default := by
  cases value with
  | none | some => simp [bare]

@[simp] theorem commas_nil : commas [] = [] := rfl

@[simp] theorem commas_singleton (part : List Lexeme) : commas [part] = part := by
  simp [commas]

@[simp] theorem commas_cons_cons (part next : List Lexeme) (rest : List (List Lexeme)) :
    commas (part :: next :: rest) = part ++ .symbol .comma :: commas (next :: rest) := by
  simp [commas]

/-! ## Left out lexemes -/

namespace Shortens

theorem append {short long short' long' : List Lexeme} (h : Shortens short long)
    (h' : Shortens short' long') : Shortens (short ++ short') (long ++ long') := by
  induction h with
  | nil => exact h'
  | same l _ ih => exact ih.same l
  | semicolon _ ih => exact ih.semicolon
  | elseIf hs hinner _ _ ih =>
    have hlong := Shortens.elseIf hs hinner ih
    simpa only [List.cons_append, List.append_assoc] using hlong

end Shortens

/-! ## First lexemes -/

/-- The lexemes that begin expressions. -/
def Lexeme.opensExpr : Lexeme → Bool
  | .symbol s =>
    s ∈ [.null, .true, .false, .not, .minus, .leftParen, .leftBracket, .fn]
  | .endOfInput => false
  | _ => true

/-- The lexemes that open a call or an index behind an expression. -/
def Lexeme.opensSuffix : Lexeme → Bool
  | .symbol s => s ∈ [.leftParen, .leftBracket]
  | _ => false

/-- The lexemes that end an expression wherever they stand behind one. -/
def Lexeme.endsExpr : Lexeme → Bool
  | .symbol s => s ∈ [.semicolon, .comma, .rightParen, .rightBracket, .leftBrace, .equals]
  | _ => false

/-- An expression begins as expressions do, and not as the declaration of a function. -/
structure OpensExpr (ls : List Lexeme) : Prop where
  opens : ∃ l rest, ls = l :: rest ∧ l.opensExpr
  notNamed : ∀ rest, ls = .symbol .fn :: rest → ∃ rest', rest = .symbol .leftParen :: rest'

theorem OpensExpr.of_cons {l : Lexeme} {rest : List Lexeme} (h : l.opensExpr)
    (hfn : l ≠ .symbol .fn) : OpensExpr (l :: rest) where
  opens := ⟨l, rest, rfl, h⟩
  notNamed _ heq := absurd (List.cons.inj heq).1 hfn

theorem OpensExpr.append {ls : List Lexeme} (h : OpensExpr ls) (ls' : List Lexeme) :
    OpensExpr (ls ++ ls') := by
  obtain ⟨l, rest, rfl, hl⟩ := h.opens
  refine ⟨⟨l, rest ++ ls', rfl, hl⟩, fun rest' heq => ?_⟩
  obtain ⟨rfl, rfl⟩ := List.cons.inj heq
  obtain ⟨more, rfl⟩ := h.notNamed rest rfl
  exact ⟨more ++ ls', rfl⟩

theorem Expr.spell_opens (e : Expr) : OpensExpr e.spell := by
  cases e with
  | literal value =>
    rw [spell]
    cases value with
    | boolean b => cases b <;> exact .of_cons rfl (by simp [Literal.lexeme])
    | null | number | string => exact .of_cons rfl (by simp [Literal.lexeme])
  | unary op =>
    rw [spell]
    cases op <;> exact .of_cons rfl (by simp [UnaryOp.sign])
  | binary left | logical left =>
    rw [spell]
    exact left.spell_opens.append _
  | call callee =>
    rw [spell]
    exact callee.spell_opens.append _
  | index target =>
    rw [spell]
    exact target.spell_opens.append _
  | function parameters =>
    rw [spell, spellParameters]
    exact ⟨⟨_, _, rfl, rfl⟩, fun rest heq => ⟨_, (List.cons.inj heq).2.symm⟩⟩
  | _ =>
    rw [spell]
    exact .of_cons rfl (by simp)

theorem Expr.exists_spell_cons (e : Expr) {l : Lexeme} (hl : l.opensExpr = false) :
    ∃ first rest, e.spell = first :: rest ∧ first ≠ l := by
  obtain ⟨first, rest, heq, hfirst⟩ := e.spell_opens.opens
  refine ⟨first, rest, heq, fun h => ?_⟩
  rw [h, hl] at hfirst
  contradiction

/-- Statements begin neither with a brace nor with the end of the input. -/
theorem Stmt.exists_spell_cons (x : Stmt) : ∃ first rest, x.spell = first :: rest ∧
    first ≠ .symbol .rightBrace ∧ first ≠ .endOfInput := by
  have hexpr (e : Expr) (more : List Lexeme) : ∃ first rest, e.spell ++ more = first :: rest ∧
      first ≠ .symbol .rightBrace ∧ first ≠ .endOfInput := by
    obtain ⟨first, rest, heq, hbrace⟩ := e.exists_spell_cons (l := .symbol .rightBrace) rfl
    obtain ⟨first', rest', heq', hend⟩ := e.exists_spell_cons (l := .endOfInput) rfl
    obtain ⟨rfl, -⟩ := List.cons.inj (heq.symm.trans heq')
    exact ⟨first, rest ++ more, by rw [heq, List.cons_append], hbrace, hend⟩
  cases x with
  | expression e =>
    obtain ⟨first, rest, heq, h⟩ := hexpr e []
    exact ⟨first, rest, by rw [spell, ← heq, List.append_nil], h⟩
  | assignIndex target =>
    rw [spell]
    exact hexpr target _
  | function name parameters body exported =>
    rw [spell]
    cases exported with
    | true | false => exact ⟨_, _, rfl, nofun, nofun⟩
  | branch condition consequent alternative =>
    cases alternative with
    | none | some =>
      rw [spell]
      exact ⟨_, _, rfl, nofun, nofun⟩
  | give value =>
    cases value with
    | none | some =>
      rw [spell]
      exact ⟨_, _, rfl, nofun, nofun⟩
  | declare | publish | assign | loop | leave =>
    rw [spell]
    exact ⟨_, _, rfl, nofun, nofun⟩

theorem Stmt.isBranch_of_spell {x : Stmt} {ls : List Lexeme} (h : x.spell = .symbol .if :: ls) :
    x.IsBranch := by
  have hexpr (e : Expr) (more : List Lexeme) : e.spell ++ more ≠ .symbol .if :: ls := by
    obtain ⟨first, rest, heq, hif⟩ := e.exists_spell_cons (l := .symbol .if) rfl
    rw [heq]
    exact fun h => hif (List.cons.inj h).1
  cases x with
  | branch => trivial
  | expression e =>
    rw [spell] at h
    exact absurd (by rw [List.append_nil, h]) (hexpr e [])
  | assignIndex target =>
    rw [spell] at h
    exact absurd h (hexpr target _)
  | function name parameters body exported =>
    rw [spell] at h
    cases exported with
    | true | false => nomatch h
  | give value =>
    cases value with
    | none | some =>
      rw [spell] at h
      nomatch h
  | declare | publish | assign | loop | leave =>
    rw [spell] at h
    nomatch h

end HostScript
