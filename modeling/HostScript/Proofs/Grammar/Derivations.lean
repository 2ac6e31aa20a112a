import HostScript.Proofs.Syntax.Spelling

/-!
# The grammar of scripts

The productions of the language, as derivations of token lists. What the grammar leaves open is how
a statement goes together with the one behind it when no semicolon stands between them, and what an
index assignment may index; a `Grammar` decides both. In `documented` statements follow each other
freely and only variables and their elements are indexed. `accepted` is what the parser takes:
a parenthesis or bracket that can go on with an expression does so, nothing but a semicolon, a
closing brace or the end of the input stands behind a `return` without a value, and whatever can be
indexed in an expression can be indexed to assign to it.
-/

namespace HostScript

/-! ## Lines -/

/-- The line of the last of some tokens, or the given one if there are none. -/
def lineAfter (line : Nat) (ts : List Token) : Nat := ts.foldl (fun _ t => t.span.line) line

@[simp] theorem lineAfter_nil (line : Nat) : lineAfter line [] = line := rfl

@[simp] theorem lineAfter_cons (line : Nat) (t : Token) (ts : List Token) :
    lineAfter line (t :: ts) = lineAfter t.span.line ts := rfl

theorem lineAfter_append (line : Nat) (ts us : List Token) :
    lineAfter line (ts ++ us) = lineAfter (lineAfter line ts) us := List.foldl_append

theorem lineAfter_of_ne_nil {ts : List Token} (h : ts ≠ []) (line line' : Nat) :
    lineAfter line ts = lineAfter line' ts := by
  cases ts with
  | nil => exact absurd rfl h
  | cons t ts => rfl

/-- A token can go on with an expression whose last token is on the given line. -/
def Token.Suffixes (t : Token) (line : Nat) : Prop := t.lexeme.opensSuffix ∧ t.span.line = line

/-- The lexemes that stand in front of an operand. -/
def Lexeme.isSign : Lexeme → Bool
  | .symbol s => s ∈ [.not, .minus]
  | _ => false

/-- The lexemes that begin statements. -/
def Lexeme.opensStmt (l : Lexeme) : Bool :=
  l.opensExpr || l ∈ [Symbol.export, .let, .if, .loop, .break, .return].map Lexeme.symbol

/-! ## Grammars -/

/-- How a statement ends: with a brace or a `break`, with an expression, or with a `return` that has
no value. -/
inductive StatementEnd
  | closed
  | expression
  | bareReturn

/-- What the productions leave open. -/
structure Grammar where
  /-- An index assignment may index whatever an expression may. -/
  anyPlace : Prop
  /-- A statement that ends in the given way on the given line may stand, without a semicolon, in
  front of the given token. -/
  follows : StatementEnd → Nat → Token → Prop

namespace Grammar

/-- The grammar as it is written down. -/
def documented : Grammar where
  anyPlace := False
  follows _ _ _ := True

/-- The grammar that the parser follows. -/
def accepted : Grammar where
  anyPlace := True
  follows
    | .closed, _, _ => True
    | .expression, line, t => ¬ t.Suffixes line
    | .bareReturn, _, _ => False

/-- The operators between operands in levels, the loosest first. -/
def operators : List (List Symbol) :=
  [[.or], [.and], [.isEqual, .notEqual],
    [.lessThan, .lessThanEqual, .greaterThan, .greaterThanEqual],
    [.plus, .minus], [.asterisk, .slash, .percent]]

/-- The kinds of phrases. -/
inductive Phrase
  /-- An operand, or operands of the first level with operators of that level between them. -/
  | chain (levels : List (List Symbol))
  | unary
  /-- A primary expression with calls and indexes behind it. -/
  | suffixed
  | primary
  /-- One or more expressions with commas between them. -/
  | items
  /-- What may stand between the parentheses of a call and the brackets of an array. -/
  | arguments
  /-- The parameters of a function and its body. -/
  | function
  | block
  /-- A statement that begins with `if`. -/
  | branch
  /-- What an index assignment indexes. -/
  | place
  | statement (ending : StatementEnd)
  | statements

/-- An expression has all levels of operators. -/
abbrev Phrase.expression : Phrase := .chain operators

/-- The token lists of the phrases. -/
inductive Derives (g : Grammar) : Phrase → List Token → Prop
  -- or := and ("or" and)*, and so on down to factor := unary (("*" | "/" | "%") unary)*
  | operand {ts : List Token} (h : Derives g .unary ts) : Derives g (.chain []) ts
  | single {ops : List Symbol} {rest : List (List Symbol)} {ts : List Token}
    (h : Derives g (.chain rest) ts) : Derives g (.chain (ops :: rest)) ts
  | more {ops : List Symbol} {rest : List (List Symbol)} {op : Symbol} {ts us : List Token}
    {σ : Span} (h : Derives g (.chain (ops :: rest)) ts) (hop : op ∈ ops)
    (h' : Derives g (.chain rest) us) :
    Derives g (.chain (ops :: rest)) (ts ++ ⟨.symbol op, σ⟩ :: us)
  -- unary := ("not" | "!" | "-") unary | postfix
  | signed {op : Symbol} {ts : List Token} {σ : Span} (hop : op = .not ∨ op = .minus)
    (h : Derives g .unary ts) : Derives g .unary (⟨.symbol op, σ⟩ :: ts)
  | unsigned {ts : List Token} (h : Derives g .suffixed ts) : Derives g .unary ts
  -- postfix := primary ( "(" args? ")" | "[" expr "]" )*
  | plain {ts : List Token} (h : Derives g .primary ts) : Derives g .suffixed ts
  | call {ts us : List Token} {σ σ' : Span} (h : Derives g .suffixed ts)
    (hline : σ.line = lineAfter 0 ts) (h' : Derives g .arguments us) :
    Derives g .suffixed (ts ++ ⟨.symbol .leftParen, σ⟩ :: (us ++ [⟨.symbol .rightParen, σ'⟩]))
  | index {ts us : List Token} {σ σ' : Span} (h : Derives g .suffixed ts)
    (hline : σ.line = lineAfter 0 ts) (h' : Derives g .expression us) :
    Derives g .suffixed (ts ++ ⟨.symbol .leftBracket, σ⟩ :: (us ++ [⟨.symbol .rightBracket, σ'⟩]))
  -- primary := NUMBER | STRING | "null" | "true" | "false" | IDENT
  --          | "(" expr ")" | "[" args? "]" | "fn" "(" params? ")" block
  | literal {value : Literal} {σ : Span} : Derives g .primary [⟨value.lexeme, σ⟩]
  | name {name : Name} {σ : Span} : Derives g .primary [⟨.identifier name, σ⟩]
  | grouping {ts : List Token} {σ σ' : Span} (h : Derives g .expression ts) :
    Derives g .primary (⟨.symbol .leftParen, σ⟩ :: (ts ++ [⟨.symbol .rightParen, σ'⟩]))
  | array {ts : List Token} {σ σ' : Span} (h : Derives g .arguments ts) :
    Derives g .primary (⟨.symbol .leftBracket, σ⟩ :: (ts ++ [⟨.symbol .rightBracket, σ'⟩]))
  | closure {ts : List Token} {σ : Span} (h : Derives g .function ts) :
    Derives g .primary (⟨.symbol .fn, σ⟩ :: ts)
  -- args := expr ("," expr)*
  | item {ts : List Token} (h : Derives g .expression ts) : Derives g .items ts
  | moreItems {ts us : List Token} {σ : Span} (h : Derives g .expression ts)
    (h' : Derives g .items us) : Derives g .items (ts ++ ⟨.symbol .comma, σ⟩ :: us)
  | noArguments : Derives g .arguments []
  | arguments {ts : List Token} (h : Derives g .items ts) : Derives g .arguments ts
  -- "(" params? ")" block with distinct parameters, and block := "{" statement* "}"
  | function {names : List Name} {ps ts : List Token} (hnames : names.Nodup)
    (hps : ps.map (·.lexeme) = spellParameters names) (h : Derives g .block ts) :
    Derives g .function (ps ++ ts)
  | block {ts : List Token} {σ σ' : Span} (h : Derives g .statements ts) :
    Derives g .block (⟨.symbol .leftBrace, σ⟩ :: (ts ++ [⟨.symbol .rightBrace, σ'⟩]))
  -- if_stmt := "if" expr block ( "else" ( if_stmt | block ) )?
  | ifThen {ts us : List Token} {σ : Span} (h : Derives g .expression ts)
    (h' : Derives g .block us) : Derives g .branch (⟨.symbol .if, σ⟩ :: (ts ++ us))
  | ifElse {ts us vs : List Token} {σ σ' : Span} (h : Derives g .expression ts)
    (h' : Derives g .block us) (h'' : Derives g .block vs) :
    Derives g .branch (⟨.symbol .if, σ⟩ :: (ts ++ (us ++ ⟨.symbol .else, σ'⟩ :: vs)))
  | elseIf {ts us vs : List Token} {σ σ' : Span} (h : Derives g .expression ts)
    (h' : Derives g .block us) (h'' : Derives g .branch vs) :
    Derives g .branch (⟨.symbol .if, σ⟩ :: (ts ++ (us ++ ⟨.symbol .else, σ'⟩ :: vs)))
  -- index_assign := IDENT ("[" expr "]")+ "=" expr
  | placeName {name : Name} {σ : Span} : Derives g .place [⟨.identifier name, σ⟩]
  | placeIndex {ts us : List Token} {σ σ' : Span} (h : Derives g .place ts)
    (hline : σ.line = lineAfter 0 ts) (h' : Derives g .expression us) :
    Derives g .place (ts ++ ⟨.symbol .leftBracket, σ⟩ :: (us ++ [⟨.symbol .rightBracket, σ'⟩]))
  | placeAny {ts : List Token} (hany : g.anyPlace) (h : Derives g .suffixed ts) :
    Derives g .place ts
  | assignIndex {ts us vs : List Token} {σ σ' σ'' : Span} (h : Derives g .place ts)
    (hline : σ.line = lineAfter 0 ts) (h' : Derives g .expression us)
    (h'' : Derives g .expression vs) :
    Derives g (.statement .expression) (ts ++ ⟨.symbol .leftBracket, σ⟩ ::
      (us ++ ⟨.symbol .rightBracket, σ'⟩ :: ⟨.symbol .equals, σ''⟩ :: vs))
  -- assign_stmt := IDENT "=" expr, let_stmt := "let" IDENT "=" expr
  | assign {name : Name} {ts : List Token} {σ σ' : Span} (h : Derives g .expression ts) :
    Derives g (.statement .expression) (⟨.identifier name, σ⟩ :: ⟨.symbol .equals, σ'⟩ :: ts)
  | declare {name : Name} {ts : List Token} {σ σ' σ'' : Span} (h : Derives g .expression ts) :
    Derives g (.statement .expression)
      (⟨.symbol .let, σ⟩ :: ⟨.identifier name, σ'⟩ :: ⟨.symbol .equals, σ''⟩ :: ts)
  -- fn_decl := "fn" IDENT "(" params? ")" block
  -- export_stmt := "export" ( "fn" IDENT "(" params? ")" block | IDENT "=" expr )
  | declareFunction {name : Name} {ts : List Token} {σ σ' : Span} (h : Derives g .function ts) :
    Derives g (.statement .closed) (⟨.symbol .fn, σ⟩ :: ⟨.identifier name, σ'⟩ :: ts)
  | exportFunction {name : Name} {ts : List Token} {σ σ' σ'' : Span}
    (h : Derives g .function ts) : Derives g (.statement .closed)
      (⟨.symbol .export, σ⟩ :: ⟨.symbol .fn, σ'⟩ :: ⟨.identifier name, σ''⟩ :: ts)
  | «export» {name : Name} {ts : List Token} {σ σ' σ'' : Span} (h : Derives g .expression ts) :
    Derives g (.statement .expression)
      (⟨.symbol .export, σ⟩ :: ⟨.identifier name, σ'⟩ :: ⟨.symbol .equals, σ''⟩ :: ts)
  -- statement := fn_decl | if_stmt | loop_stmt | "break" | return_stmt | … | expr
  | branch {ts : List Token} (h : Derives g .branch ts) : Derives g (.statement .closed) ts
  | loop {ts : List Token} {σ : Span} (h : Derives g .block ts) :
    Derives g (.statement .closed) (⟨.symbol .loop, σ⟩ :: ts)
  | leave {σ : Span} : Derives g (.statement .closed) [⟨.symbol .break, σ⟩]
  | giveNothing {σ : Span} : Derives g (.statement .bareReturn) [⟨.symbol .return, σ⟩]
  | give {ts : List Token} {σ : Span} (h : Derives g .expression ts) :
    Derives g (.statement .expression) (⟨.symbol .return, σ⟩ :: ts)
  | value {ts : List Token} (h : Derives g .expression ts) :
    Derives g (.statement .expression) ts
  -- (statement ";"?)*
  | nothing : Derives g .statements []
  | ended {e : StatementEnd} {ts us : List Token} {σ : Span} (h : Derives g (.statement e) ts)
    (h' : Derives g .statements us) :
    Derives g .statements (ts ++ ⟨.symbol .semicolon, σ⟩ :: us)
  | joined {e : StatementEnd} {ts us : List Token} (h : Derives g (.statement e) ts)
    (h' : Derives g .statements us) (hf : ∀ u ∈ us.head?, g.follows e (lineAfter 0 ts) u) :
    Derives g .statements (ts ++ us)

/-- A token list is a program: statements, and behind them the end of the input. -/
def Sentence (g : Grammar) (tokens : List Token) : Prop :=
  ∃ body last, tokens = body ++ [last] ∧ last.lexeme = .endOfInput ∧ g.Derives .statements body

/-! ## First lexemes -/

/-- How the lexemes of a phrase begin. -/
def Phrase.Begins : Phrase → List Lexeme → Prop
  | .chain _, ls | .unary, ls | .items, ls => OpensExpr ls
  | .suffixed, ls | .primary, ls | .place, ls => OpensExpr ls ∧ ∀ l ∈ ls.head?, l.isSign = false
  | .arguments, ls => ls = [] ∨ OpensExpr ls
  | .function, ls => ls.head? = some (.symbol .leftParen)
  | .block, ls => ls.head? = some (.symbol .leftBrace)
  | .branch, ls => ls.head? = some (.symbol .if)
  | .statement _, ls => ∃ l ∈ ls.head?, l.opensStmt
  | .statements, ls => ∀ l ∈ ls.head?, l.opensStmt

namespace Derives

variable {g : Grammar} {c : Phrase} {e : StatementEnd} {levels : List (List Symbol)}
  {ts : List Token}

theorem begins (h : g.Derives c ts) : c.Begins (ts.map (·.lexeme)) := by
  have happend {ls ls' : List Lexeme} (h : OpensExpr ls ∧ ∀ l ∈ ls.head?, l.isSign = false) :
      OpensExpr (ls ++ ls') ∧ ∀ l ∈ (ls ++ ls').head?, l.isSign = false := by
    obtain ⟨first, rest, rfl, -⟩ := h.1.opens
    exact ⟨h.1.append ls', h.2⟩
  have hopens {ls : List Lexeme} (h : OpensExpr ls) : ∃ l ∈ ls.head?, l.opensStmt := by
    obtain ⟨first, rest, rfl, hl⟩ := h.opens
    exact ⟨first, rfl, by rw [Lexeme.opensStmt, hl, Bool.true_or]⟩
  have hfirst {ls ls' : List Lexeme} (h : ∃ l ∈ ls.head?, l.opensStmt) :
      ∀ l ∈ (ls ++ ls').head?, l.opensStmt := by
    obtain ⟨l, hl, hopens⟩ := h
    rw [List.head?_append, hl, Option.some_or]
    intro l' hl'
    rwa [← Option.some.inj hl']
  induction h with
  | operand _ ih | single _ ih | plain _ ih | item _ ih | placeAny _ _ ih => exact ih
  | more _ _ _ ih | moreItems _ _ ih =>
    rw [List.map_append]
    exact ih.append _
  | signed hop =>
    obtain rfl | rfl := hop
    · exact .of_cons rfl (by simp)
    · exact .of_cons rfl (by simp)
  | unsigned _ ih => exact ih.1
  | call _ _ _ ih | index _ _ _ ih | placeIndex _ _ _ ih =>
    rw [List.map_append]
    exact happend ih
  | @literal value =>
    have hspell := (Expr.literal value default).spell_opens
    rw [Expr.spell] at hspell
    refine ⟨hspell, fun l hl => ?_⟩
    obtain rfl := Option.some.inj hl
    cases value with
    | boolean b => cases b <;> rfl
    | null | number | string => rfl
  | name | grouping | array | placeName =>
    exact ⟨.of_cons rfl (by simp), fun l hl => by rw [← Option.some.inj hl]; rfl⟩
  | @closure ts _ _ ih =>
    refine ⟨⟨⟨_, _, rfl, rfl⟩, fun rest heq => ?_⟩, fun l hl => by
      rw [← Option.some.inj hl]
      rfl⟩
    obtain rfl := (List.cons.inj heq).2
    exact List.head?_eq_some_iff.mp ih
  | noArguments => exact .inl rfl
  | arguments _ ih => exact .inr ih
  | function _ hps =>
    rw [Phrase.Begins, List.map_append, hps]
    rfl
  | block | ifThen | ifElse | elseIf => rfl
  | assignIndex _ _ _ _ ih =>
    rw [List.map_append]
    exact hopens (happend ih).1
  | assign | declare | declareFunction | exportFunction | «export» | loop | leave | giveNothing
  | give => exact ⟨_, rfl, rfl⟩
  | branch _ ih => exact ⟨_, ih, rfl⟩
  | value _ ih => exact hopens ih
  | nothing =>
    intro l hl
    cases hl
  | ended _ _ ih | joined _ _ _ ih =>
    rw [List.map_append]
    exact hfirst ih

theorem chain_ne_nil (h : g.Derives (.chain levels) ts) : ts ≠ [] := by
  rintro rfl
  obtain ⟨_, _, hnil, -⟩ := h.begins.opens
  contradiction

theorem suffixed_ne_nil (h : g.Derives .suffixed ts) : ts ≠ [] :=
  chain_ne_nil (.operand (.unsigned h))

theorem primary_ne_nil (h : g.Derives .primary ts) : ts ≠ [] := h.plain.suffixed_ne_nil

/-- What is indexed to assign to an element can be indexed in an expression. -/
theorem suffixed_of_place (h : g.Derives .place ts) : g.Derives .suffixed ts := by
  generalize hc : Phrase.place = c at h
  induction h with
  | placeName => exact .plain .name
  | placeIndex _ hline h' ih => exact .index (ih rfl) hline h'
  | placeAny _ h => exact h
  | _ => nomatch hc

theorem statement_ne_nil (h : g.Derives (.statement e) ts) : ts ≠ [] := by
  rintro rfl
  obtain ⟨l, hl, -⟩ := h.begins
  contradiction

end Derives

end Grammar

end HostScript
