import HostScript.Proofs.Syntax.Restoring
import Mathlib

/-!
# Parsing and spelling are inverse

What parsing reads shortens the spelling of what it finds, and the spelling is parsed again to the
same trees up to spans.
-/

namespace HostScript

namespace Parser

/-- The keywords that stand before the name of a function. -/
def functionWords (exported : Bool) : List Lexeme :=
  if exported then [.symbol .export, .symbol .fn] else [.symbol .fn]

/-- Everything that is parsed at one nesting depth is restored at another. -/
structure RestoresAt (depth deep : Nat) : Prop where
  expression : Restores (expression depth) (expression deep) Expr.spell Expr.bare
    fun l => l.endsExpr
  unary : Restores (unary depth) (unary deep) Expr.spell Expr.bare fun l => l.opensSuffix = false
  primary : Restores (primary depth) (primary deep) Expr.spell Expr.bare fun _ => True
  block : Restores (block depth) (block deep) spellBraces bareBlock fun _ => True
  functionRest : ∀ exported span, RestoresBehind (functionWords exported)
    (functionRest depth exported span) (functionRest deep exported) Stmt.spell Stmt.bare
    fun _ => True
  branchRest : ∀ span, RestoresBehind [.symbol .if] (branchRest depth span) (branchRest deep)
    Stmt.spell Stmt.bare fun l => l ≠ .symbol .else
  bareStatement : Restores (bareStatement depth) (bareStatement deep) Stmt.spell Stmt.bare
    fun l => l = .symbol .semicolon
  statement : Restores (statement depth) (statement deep) (fun x => x.spell ++ [.symbol .semicolon])
    Stmt.bare fun _ => True

namespace RestoresAt

variable {depth deep : Nat}

theorem zero (deep : Nat) : RestoresAt 0 deep where
  expression := restores_tooDeep
  unary := restores_tooDeep
  primary := restores_tooDeep
  block := restores_tooDeep
  functionRest _ _ := restoresBehind_tooDeep
  branchRest _ := restoresBehind_tooDeep
  bareStatement := restores_tooDeep
  statement := restores_tooDeep

/-! ### Expressions -/

theorem unaryOf?_eq_some {l : Lexeme} {op : UnaryOp} :
    unaryOf? l = some op ↔ l = .symbol op.sign := by
  constructor
  · intro h
    unfold unaryOf? at h
    split at h
    all_goals cases h
    all_goals rfl
  · rintro rfl
    cases op <;> rfl

theorem unary_succ (ih : RestoresAt depth deep) :
    Restores (Parser.unary (depth + 1)) (Parser.unary (deep + 1)) Expr.spell Expr.bare
      fun l => l.opensSuffix = false := by
  intro s e t h
  replace h := yields_peek_bind.mp h
  split at h
  · next op hop =>
    obtain ⟨operand, hr, rfl⟩ := yields_return.mp (yields_discard_take_bind.mp h)
    obtain ⟨hreads, hagain⟩ := ih.unary _ _ _ hr
    rw [Expr.spell]
    refine ⟨.cons (unaryOf?_eq_some.mp hop) (by simp) hreads, fun n => ?_⟩
    refine rereads_peek fun t' ht' => ?_
    rw [unaryOf?_eq_some.mpr ht']
    refine rereads_cons (rereads_discard (rereads_take (by simp))) fun _ _ => ?_
    refine rereads_return (hagain n) fun operand' ho => ?_
    simp only [Expr.bare, ho]
  · next hop =>
    obtain ⟨target, u, hr, h⟩ := yields_bind.mp h
    obtain ⟨hreads, hagain⟩ := ih.primary _ _ _ hr
    obtain ⟨ls, hspell, hreads', hagain'⟩ := postfixRest_restores ih.expression h
    obtain ⟨first, rest, hfirst, hne⟩ := target.exists_spell_cons (l := .symbol .semicolon) rfl
    have hpeek : s.peek.lexeme = first := (hfirst ▸ hreads).peek hne
    rw [hpeek] at hop
    rw [hspell]
    refine ⟨hreads.trans hreads', fun n => ?_⟩
    rw [hfirst] at hagain ⊢
    refine rereads_peek fun t' ht' => ?_
    rw [ht', hop]
    exact rereads_bind_on (hagain n) (List.cons_ne_nil first rest)
      (fun target' ht => hagain' n target' ht) fun _ _ => trivial

/-- An expression of one token. -/
theorem take_restores {f : Token → Parser Expr} {l : Lexeme} {make : Span → Expr} {s t : Cursor}
    {e : Expr} (h : (pure (make s.peek.span) : Parser Expr).Yields s.next e t)
    (hl : s.peek.lexeme = l) (hne : l ≠ .endOfInput) (hspell : ∀ span, (make span).spell = [l])
    (hbare : ∀ span, (make span).bare = make default)
    (hf : ∀ t, t.lexeme = l → f t = pure (make t.span)) :
    s.Reads e.spell t ∧ ∀ n, Rereads n (take >>= f) e.spell (fun _ => True)
      fun e' => e'.bare = e.bare := by
  obtain ⟨rfl, rfl⟩ := yields_pure.mp h
  rw [hspell, hbare]
  refine ⟨.next hl hne, fun n => rereads_cons (rereads_take hne) fun t ht => ?_⟩
  rw [hf t ht]
  exact rereads_pure (hbare t.span)

theorem literal_restores {f : Token → Parser Expr} {value : Literal} {s t : Cursor} {e : Expr}
    (h : (pure (.literal value s.peek.span) : Parser Expr).Yields s.next e t)
    (hl : s.peek.lexeme = value.lexeme)
    (hf : ∀ t, t.lexeme = value.lexeme → f t = pure (.literal value t.span)) :
    s.Reads e.spell t ∧ ∀ n, Rereads n (take >>= f) e.spell (fun _ => True)
      fun e' => e'.bare = e.bare := by
  have hne : value.lexeme ≠ .endOfInput := by
    cases value with
    | boolean b => cases b <;> nofun
    | null | number | string => nofun
  exact take_restores h hl hne (fun _ => by rw [Expr.spell]) (fun _ => by rw [Expr.bare]) hf

theorem primary_succ (ih : RestoresAt depth deep) :
    Restores (Parser.primary (depth + 1)) (Parser.primary (deep + 1)) Expr.spell Expr.bare
      fun _ => True := by
  intro s e t h
  replace h := yields_take_bind.mp h
  split at h
  · next hl => exact literal_restores h hl fun _ ht => by rw [ht]; rfl
  · next hl => exact literal_restores h hl fun _ ht => by rw [ht]; rfl
  · next hl => exact literal_restores h hl fun _ ht => by rw [ht]; rfl
  · next x hl => exact literal_restores h hl fun _ ht => by rw [ht]; rfl
  · next x hl => exact literal_restores h hl fun _ ht => by rw [ht]; rfl
  · next x hl =>
    exact take_restores h hl (by simp) (fun _ => by rw [Expr.spell])
      (fun _ => by rw [Expr.bare]) fun _ ht => by rw [ht]
  · next hl =>
    obtain ⟨inner, u, hr, h⟩ := yields_bind.mp h
    obtain ⟨hclose, h⟩ := yields_expect_bind.mp h
    obtain ⟨rfl, rfl⟩ := yields_pure.mp h
    obtain ⟨hreads, hagain⟩ := ih.expression _ _ _ hr
    rw [Expr.spell]
    refine ⟨.cons hl (by simp) (hreads.trans (.next hclose (by simp))), fun n => ?_⟩
    refine rereads_cons (rereads_take (by simp)) fun t' ht' => ?_
    rw [ht']
    refine rereads_bind (hagain n) (fun inner' hi => ?_) fun _ _ => rfl
    refine rereads_cons (rereads_expect _ _) fun _ _ => rereads_pure ?_
    simp only [Expr.bare, hi]
  · next hl =>
    obtain ⟨es, hr, rfl⟩ := yields_return.mp h
    obtain ⟨hreads, hagain⟩ := items_restores (fun _ _ _ => ih.expression) rfl rfl (by simp)
      (fun x => x.exists_spell_cons rfl) _ _ _ hr
    rw [Expr.spell, spellExprs_eq_map]
    refine ⟨.cons hl (by simp) hreads, fun n => ?_⟩
    refine rereads_cons (rereads_take (by simp)) fun t' ht' => ?_
    rw [ht']
    refine rereads_return (hagain n) fun es' hes => ?_
    simp only [Expr.bare, bareExprs_eq_map, hes]
  · next hl =>
    obtain ⟨names, u, hr, h⟩ := yields_bind.mp h
    obtain ⟨body, hr', rfl⟩ := yields_return.mp h
    obtain ⟨hreads, hagain⟩ := parameters_restores _ _ _ hr
    obtain ⟨hreads', hagain'⟩ := ih.block _ _ _ hr'
    rw [Expr.spell]
    refine ⟨.cons hl (by simp) (hreads.trans hreads'), fun n => ?_⟩
    refine rereads_cons (rereads_take (by simp)) fun t' ht' => ?_
    rw [ht']
    refine rereads_bind (hagain n) (fun names' hnames => ?_) fun _ _ => trivial
    refine rereads_return (hagain' n) fun body' hbody => ?_
    obtain rfl : names' = names := hnames
    simp only [Expr.bare, hbody]
  · cases h

/-! ### Statements -/

theorem rereads_statement {n : Nat} {ls : List Lexeme} {x : Stmt}
    (h : Rereads n (Parser.bareStatement deep) ls (fun l => l = .symbol .semicolon) fun x' =>
      x'.bare = x.bare) :
    Rereads n (Parser.statement (deep + 1)) (ls ++ [.symbol .semicolon]) (fun _ => True) fun x' =>
      x'.bare = x.bare := by
  refine rereads_bind h (fun x' hx => ?_) fun _ _ => rfl
  exact rereads_cons (rereads_discard (rereads_accept nofun)) fun _ _ => rereads_pure hx

theorem endsBlock_rightBrace (x : Stmt) (first : Lexeme) (rest : List Lexeme)
    (h : x.spell = first :: rest) :
    ¬ EndsBlock (fun l => decide (l = .symbol .rightBrace)) first := by
  obtain ⟨first', rest', heq, hbrace, hend⟩ := x.exists_spell_cons
  obtain ⟨rfl, -⟩ := List.cons.inj (h.symm.trans heq)
  simp [EndsBlock, hbrace, hend]

theorem rereads_block {n : Nat} {body : List Stmt}
    (h : Rereads n (many (· = .symbol .rightBrace) (Parser.statement deep)) (spellBlock body)
      (EndsBlock (· = .symbol .rightBrace)) fun body' => bareBlock body' = bareBlock body) :
    Rereads n (Parser.block (deep + 1)) (spellBraces body) (fun _ => True) fun body' =>
      bareBlock body' = bareBlock body := by
  refine rereads_cons (rereads_expect _ _) fun _ _ => ?_
  refine rereads_bind h (fun body' hbody => ?_) fun _ _ => .inl rfl
  exact rereads_cons (rereads_expect _ _) fun _ _ => rereads_pure hbody

theorem rereads_branch {n : Nat} {ls : List Lexeme} {x : Stmt}
    (h : ∀ span, Rereads n (Parser.branchRest deep span) ls (fun l => l ≠ .symbol .else) fun x' =>
      x'.bare = x.bare) :
    Rereads n (Parser.bareStatement (deep + 1)) (.symbol .if :: ls)
      (fun l => l = .symbol .semicolon) fun x' => x'.bare = x.bare := by
  refine rereads_keyword nofun (fun _ h => by rw [h]) fun t => ?_
  refine (h t.span).mono (fun l hl => ?_) fun _ hx => hx
  simp [hl]

/-- A branch that stands behind an `else` is read again as the only statement of a block. -/
theorem rereads_block_branch {n : Nat} {ls : List Lexeme} {x : Stmt}
    (hx : x.spell = .symbol .if :: ls)
    (h : ∀ span, Rereads n (Parser.branchRest deep span) ls (fun l => l ≠ .symbol .else) fun x' =>
      x'.bare = x.bare) :
    Rereads n (Parser.block (deep + 3)) (spellBraces [x]) (fun _ => True) fun body =>
      bareBlock body = bareBlock [x] := by
  have hstatement := rereads_statement (rereads_branch h)
  rw [← hx] at hstatement
  exact rereads_block (rereads_many_cons (endsBlock_rightBrace x) hstatement rereads_many_nil)

theorem statement_succ (ih : RestoresAt depth deep) :
    Restores (Parser.statement (depth + 1)) (Parser.statement (deep + 1))
      (fun x => x.spell ++ [.symbol .semicolon]) Stmt.bare fun _ => True := by
  intro s x t h
  obtain ⟨x, u, hr, h⟩ := yields_bind.mp h
  obtain ⟨_, v, hsemicolon, h⟩ := yields_bind.mp h
  obtain ⟨rfl, rfl⟩ := yields_pure.mp h
  obtain ⟨found, hfound⟩ := yields_discard.mp hsemicolon
  obtain ⟨hreads, hagain⟩ := ih.bareStatement _ _ _ hr
  refine ⟨hreads.trans ?_, fun n => rereads_statement (hagain n)⟩
  rcases yields_accept.mp hfound with ⟨hl, -, rfl⟩ | ⟨-, -, rfl⟩
  · exact .next hl nofun
  · exact .semicolon _

theorem block_succ (ih : RestoresAt depth deep) :
    Restores (Parser.block (depth + 1)) (Parser.block (deep + 1)) spellBraces bareBlock
      fun _ => True := by
  intro s body t h
  obtain ⟨hopen, h⟩ := yields_expect_bind.mp h
  obtain ⟨body, u, hr, h⟩ := yields_bind.mp h
  obtain ⟨hclose, h⟩ := yields_expect_bind.mp h
  obtain ⟨rfl, rfl⟩ := yields_pure.mp h
  obtain ⟨hreads, -, hagain⟩ := many_restores ih.statement endsBlock_rightBrace hr
  refine ⟨.cons hopen nofun (hreads.trans (.next hclose nofun)), fun n => ?_⟩
  exact rereads_block (hagain n)

theorem functionRest_succ (ih : RestoresAt depth deep) (exported : Bool) (span : Span) :
    RestoresBehind (functionWords exported) (Parser.functionRest (depth + 1) exported span)
      (Parser.functionRest (deep + 1) exported) Stmt.spell Stmt.bare fun _ => True := by
  intro s x t h
  obtain ⟨name, hname, h⟩ := yields_identifier_bind.mp h
  obtain ⟨names, u, hr, h⟩ := yields_bind.mp h
  obtain ⟨body, hr', rfl⟩ := yields_return.mp h
  obtain ⟨hreads, hagain⟩ := parameters_restores _ _ _ hr
  obtain ⟨hreads', hagain'⟩ := ih.block _ _ _ hr'
  refine ⟨_, Stmt.spell.eq_def _, .cons hname (by simp) (hreads.trans hreads'), fun n span' => ?_⟩
  refine rereads_cons (rereads_identifier name) fun r hr => ?_
  obtain ⟨_, span''⟩ := r
  obtain rfl : _ = name := hr
  refine rereads_bind (hagain n) (fun names' hnames => ?_) fun _ _ => trivial
  refine rereads_return (hagain' n) fun body' hbody => ?_
  obtain rfl : names' = names := hnames
  simp only [Stmt.bare, hbody]

/-- What stands behind an `else` is read again as a block. The depth left to a branch without braces
is less by the block, the statement and the keyword that are then read in front of it. -/
theorem alternative_restores (ih : RestoresAt depth (deep + 3)) (ihb : RestoresAt depth deep) :
    Restores (alternative (Parser.branchRest depth) (Parser.block depth))
      (alternative (Parser.branchRest (deep + 3)) (Parser.block (deep + 3))) spellAlternative
      (Option.map bareBlock) fun l => l ≠ .symbol .else := by
  intro s found t h
  have hagain {n : Nat} {body : List Stmt} (hblock : Rereads n (Parser.block (deep + 3))
      (spellBraces body) (fun _ => True) fun body' => bareBlock body' = bareBlock body) :
      Rereads n (alternative (Parser.branchRest (deep + 3)) (Parser.block (deep + 3)))
        (spellAlternative (some body)) (fun l => l ≠ .symbol .else) fun found' =>
        found'.map bareBlock = (some body).map bareBlock := by
    refine rereads_cons (rereads_accept nofun) fun found hfound => ?_
    rw [if_pos hfound]
    refine rereads_peek fun t' _ => ?_
    refine rereads_skip rereads_accept_other (fun found hfound => ?_) fun _ _ => nofun
    rw [hfound]
    exact rereads_return hblock.restrict fun body' hbody => congrArg some hbody
  obtain ⟨found', u, haccept, hend⟩ := yields_bind.mp h
  rcases yields_accept.mp haccept with ⟨helse, rfl, rfl⟩ | ⟨-, rfl, rfl⟩
  · obtain ⟨found', v, haccept', hend⟩ := yields_bind.mp (yields_peek_bind.mp hend)
    rcases yields_accept.mp haccept' with ⟨hif, rfl, rfl⟩ | ⟨-, rfl, rfl⟩
    · obtain ⟨inner, hr, rfl⟩ := yields_return.mp hend
      obtain ⟨ls, hspell, hreads, hinner⟩ := ihb.branchRest _ _ _ _ hr
      have hreads' : s.next.Reads inner.spell t := by
        rw [hspell]
        exact .cons hif nofun hreads
      refine ⟨.elseIf helse (Stmt.isBranch_of_spell hspell) hreads', fun n => hagain ?_⟩
      exact rereads_block_branch hspell (hinner n)
    · obtain ⟨body, hr, rfl⟩ := yields_return.mp hend
      obtain ⟨hreads, hblock⟩ := ih.block _ _ _ hr
      exact ⟨.cons helse nofun hreads, fun n => hagain (hblock n)⟩
  · obtain ⟨rfl, rfl⟩ := yields_pure.mp hend
    refine ⟨.refl _, fun n => ?_⟩
    refine rereads_skip rereads_accept_other (fun found hfound => ?_) fun _ hl => hl
    rw [hfound]
    exact rereads_pure rfl

theorem branchRest_succ (ih : RestoresAt depth (deep + 3)) (ihb : RestoresAt depth deep)
    (span : Span) :
    RestoresBehind [.symbol .if] (Parser.branchRest (depth + 1) span)
      (Parser.branchRest (deep + 4)) Stmt.spell Stmt.bare fun l => l ≠ .symbol .else := by
  intro s x t h
  obtain ⟨condition, u, hr, h⟩ := yields_bind.mp h
  obtain ⟨consequent, v, hr', h⟩ := yields_bind.mp h
  obtain ⟨found, hr'', rfl⟩ := yields_return.mp h
  obtain ⟨hcondition, hcondition'⟩ := ih.expression _ _ _ hr
  obtain ⟨hconsequent, hconsequent'⟩ := ih.block _ _ _ hr'
  obtain ⟨hfound, hfound'⟩ := alternative_restores ih ihb _ _ _ hr''
  rw [Stmt.spell_branch]
  refine ⟨_, rfl, hcondition.trans (hconsequent.trans hfound), fun n span' => ?_⟩
  refine rereads_bind (hcondition' n) (fun condition' hc => ?_) fun _ _ => rfl
  refine rereads_bind (hconsequent' n) (fun consequent' hq => ?_) fun _ _ => trivial
  refine rereads_return (hfound' n) fun found' ha => ?_
  rw [Stmt.bare_branch, Stmt.bare_branch, hc, hq, ha]

/-! ### Statements by their first lexeme -/

/-- The statement between two cursors is read, and read again, as it is spelled. -/
def Restated (deep : Nat) (s : Cursor) (x : Stmt) (t : Cursor) : Prop :=
  s.Reads x.spell t ∧ ∀ n, Rereads n (Parser.bareStatement (deep + 1)) x.spell
    (fun l => l = .symbol .semicolon) fun x' => x'.bare = x.bare

variable {s t : Cursor} {x : Stmt}

theorem export_restated (ih : RestoresAt depth deep) (hl : s.peek.lexeme = .symbol .export)
    {span : Span} (h : (do
      if ← accept (.symbol .fn) then Parser.functionRest depth true span
      else
        let (name, value) ← binding (Parser.expression depth)
        return .publish name value span : Parser Stmt).Yields s.next x t) :
    Restated deep s x t := by
  obtain ⟨found, u, haccept, hend⟩ := yields_bind.mp h
  rcases yields_accept.mp haccept with ⟨hfn, rfl, rfl⟩ | ⟨-, rfl, rfl⟩
  · obtain ⟨ls, hspell, hreads, hagain⟩ := ih.functionRest _ _ _ _ _ hend
    rw [Restated, hspell]
    refine ⟨.cons hl (by simp) (.cons hfn (by simp) hreads), fun n => ?_⟩
    refine rereads_keyword (by simp) (fun _ h => by rw [h]) fun t' => ?_
    refine rereads_cons (rereads_accept (by simp)) fun found hfound => ?_
    rw [if_pos hfound]
    exact (hagain n t'.span).restrict
  · obtain ⟨⟨name, e⟩, hr, rfl⟩ := yields_return.mp hend
    obtain ⟨hreads, hagain⟩ := binding_restores ih.expression _ _ _ hr
    rw [Restated, Stmt.spell]
    refine ⟨.cons hl (by simp) hreads, fun n => ?_⟩
    refine rereads_keyword (by simp) (fun _ h => by rw [h]) fun t' => ?_
    refine rereads_skip rereads_accept_other (fun found hfound => ?_) fun _ _ => by simp
    rw [hfound]
    refine rereads_return (hagain n).semicolon fun r hr' => ?_
    obtain ⟨rfl, he⟩ := Prod.mk.inj hr'
    simp only [Stmt.bare, he]

theorem return_restated (ih : RestoresAt depth deep) (hl : s.peek.lexeme = .symbol .return)
    {span : Span} (h : (do
      match (← peek).lexeme with
      | .symbol .semicolon => return .give none span
      | .symbol .rightBrace => return .give none span
      | .endOfInput => return .give none span
      | _ => return .give (some (← Parser.expression depth)) span : Parser Stmt).Yields s.next x t) :
    Restated deep s x t := by
  have hnone (h : (pure (.give none span) : Parser Stmt).Yields s.next x t) :
      Restated deep s x t := by
    obtain ⟨rfl, rfl⟩ := yields_pure.mp h
    rw [Restated, Stmt.spell]
    refine ⟨.next hl (by simp), fun n => ?_⟩
    refine rereads_keyword (by simp) (fun _ h => by rw [h]) fun t' => ?_
    refine rereads_peek_follow fun follow hfollow => ?_
    rw [hfollow]
    exact rereads_pure (by simp only [Stmt.bare])
  replace h := yields_peek_bind.mp h
  split at h
  · exact hnone h
  · exact hnone h
  · exact hnone h
  · obtain ⟨e, hr, rfl⟩ := yields_return.mp h
    obtain ⟨hreads, hagain⟩ := ih.expression _ _ _ hr
    rw [Restated, Stmt.spell]
    refine ⟨.cons hl (by simp) hreads, fun n => ?_⟩
    refine rereads_keyword (by simp) (fun _ h => by rw [h]) fun t' => ?_
    -- no expression begins like the end of a statement
    obtain ⟨first, rest, hfirst, hopens⟩ := e.spell_opens.opens
    have hagain' := (hagain n).semicolon
    rw [hfirst] at hagain' ⊢
    refine rereads_peek fun t'' ht'' => ?_
    rw [ht'']
    split
    · contradiction
    · contradiction
    · contradiction
    · exact rereads_return hagain' fun e' he => by simp only [Stmt.bare, he]

/-- The declaration of a function begins with `fn` and a name. -/
theorem exists_functionRest_spell {span : Span} {ls : List Lexeme}
    (h : (Parser.functionRest depth false span).Yields s x t)
    (hspell : x.spell = functionWords false ++ ls) :
    ∃ name rest, ls = .identifier name :: rest := by
  cases depth with
  | zero => exact absurd h not_yields_tooDeep
  | succ depth =>
    obtain ⟨name, -, h⟩ := yields_identifier_bind.mp h
    obtain ⟨names, u, -, h⟩ := yields_bind.mp h
    obtain ⟨body, -, rfl⟩ := yields_return.mp h
    rw [Stmt.spell] at hspell
    exact ⟨name, _, (List.append_cancel_left hspell).symm⟩

theorem function_restated (ih : RestoresAt depth deep) (hl : s.peek.lexeme = .symbol .fn)
    {span : Span} (h : (Parser.functionRest depth false span).Yields s.next x t) :
    Restated deep s x t := by
  obtain ⟨ls, hspell, hreads, hagain⟩ := ih.functionRest _ _ _ _ _ h
  obtain ⟨name, rest, rfl⟩ := exists_functionRest_spell h hspell
  rw [Restated, hspell]
  refine ⟨.cons hl nofun hreads, fun n => ?_⟩
  refine rereads_peek fun t' ht' => ?_
  rw [ht']
  refine rereads_get fun s' l follow hs _ => ?_
  have hsecond : s'.second.lexeme = .identifier name := hs.second
  dsimp only
  rw [hsecond]
  refine rereads_cons (rereads_discard (rereads_take nofun)) fun _ _ => ?_
  exact (hagain n t'.span).restrict

theorem expression_restated (ih : RestoresAt depth deep) {span : Span}
    (h : (expressionOrAssignment (Parser.expression depth) span).Yields s x t) :
    Restated deep s x t := by
  obtain ⟨hopens, hreads, hagain⟩ := expressionOrAssignment_restores ih.expression h
  refine ⟨hreads, fun n => ?_⟩
  obtain ⟨first, rest, hfirst, hopen⟩ := hopens.opens
  have hagain' := hagain n
  rw [hfirst] at hagain' ⊢
  refine rereads_peek fun t' ht' => ?_
  -- no expression begins with the keyword of a statement
  have hother {symbol : Symbol} (h : t'.lexeme = .symbol symbol) :
      (Lexeme.symbol symbol).opensExpr := by
    rw [← h, ht']
    exact hopen
  split
  · next heq => nomatch hother heq
  · next heq => nomatch hother heq
  · next heq => nomatch hother heq
  · next heq => nomatch hother heq
  · next heq => nomatch hother heq
  · next heq => nomatch hother heq
  · refine rereads_get fun s' l follow hs _ => ?_
    dsimp only
    split
    · next name hfn hsecond =>
      -- behind `fn`, an expression goes on with its parameters
      obtain rfl : first = .symbol .fn := ht'.symm.trans hfn
      obtain ⟨rest', rfl⟩ := hopens.notNamed rest hfirst
      rw [hs.second] at hsecond
      contradiction
    · exact hagain' t'.span

theorem bareStatement_succ (ih : RestoresAt depth deep) :
    Restores (Parser.bareStatement (depth + 1)) (Parser.bareStatement (deep + 1)) Stmt.spell
      Stmt.bare fun l => l = .symbol .semicolon := by
  intro s x t h
  replace h := yields_peek_bind.mp h
  split at h
  · next hl => exact ih.export_restated hl (yields_discard_take_bind.mp h)
  · next hl =>
    obtain ⟨⟨name, e⟩, hr, rfl⟩ := yields_return.mp (yields_discard_take_bind.mp h)
    obtain ⟨hreads, hagain⟩ := binding_restores ih.expression _ _ _ hr
    rw [Stmt.spell]
    refine ⟨.cons hl (by simp) hreads, fun n => ?_⟩
    refine rereads_keyword (by simp) (fun _ h => by rw [h]) fun t' => ?_
    refine rereads_return (hagain n).semicolon fun r hr' => ?_
    obtain ⟨rfl, he⟩ := Prod.mk.inj hr'
    simp only [Stmt.bare, he]
  · next hl =>
    replace h := yields_discard_take_bind.mp h
    obtain ⟨ls, hspell, hreads, hagain⟩ := ih.branchRest _ _ _ _ h
    rw [hspell]
    exact ⟨.cons hl (by simp) hreads, fun n => rereads_branch (hagain n)⟩
  · next hl =>
    obtain ⟨body, hr, rfl⟩ := yields_return.mp (yields_discard_take_bind.mp h)
    obtain ⟨hreads, hagain⟩ := ih.block _ _ _ hr
    rw [Stmt.spell]
    refine ⟨.cons hl (by simp) hreads, fun n => ?_⟩
    refine rereads_keyword (by simp) (fun _ h => by rw [h]) fun t' => ?_
    refine rereads_return (hagain n).restrict fun body' hbody => ?_
    simp only [Stmt.bare, hbody]
  · next hl =>
    replace h := yields_discard_take_bind.mp h
    obtain ⟨rfl, rfl⟩ := yields_pure.mp h
    rw [Stmt.spell]
    refine ⟨.next hl (by simp), fun n => ?_⟩
    refine rereads_keyword (by simp) (fun _ h => by rw [h]) fun t' => ?_
    exact rereads_pure (by simp only [Stmt.bare])
  · next hl => exact ih.return_restated hl (yields_discard_take_bind.mp h)
  · replace h := yields_get_bind.mp h
    dsimp only at h
    split at h
    · next hl _ => exact ih.function_restated hl (yields_discard_take_bind.mp h)
    · exact ih.expression_restated h

end RestoresAt

/-- Four times the depth is enough to read a spelling again, which has a block, a statement and a
keyword more for every branch that stood behind an `else`. -/
theorem restoresAt (depth deep : Nat) (h : 4 * depth ≤ deep) : RestoresAt depth deep := by
  induction depth generalizing deep with
  | zero => exact .zero deep
  | succ depth ih =>
    obtain ⟨rest, rfl⟩ : ∃ rest, deep = rest + 4 := ⟨deep - 4, by omega⟩
    have hrest := ih (rest + 3) (by omega)
    exact
      { expression := levels_restores hrest.unary
        unary := hrest.unary_succ
        primary := hrest.primary_succ
        block := hrest.block_succ
        functionRest := hrest.functionRest_succ
        branchRest := hrest.branchRest_succ (ih rest (by omega))
        bareStatement := hrest.bareStatement_succ
        statement := hrest.statement_succ }

end Parser

/-! ## Programs -/

/-- Parsing and spelling are inverse. The tokens before the end of the input shorten the spelling of
the program that they are parsed to: what they leave out is semicolons behind statements, and the
braces of branches behind an `else`. The spelling on one line is parsed again to the same program up
to spans. It may be nested deeper than the tokens were, by those braces, so the bound on nesting is
multiplied. -/
theorem parse_respells {depth : Nat} {tokens : List Token} {program : List Stmt}
    (h : parse depth tokens = .ok program) :
    Shortens ((tokens.map (·.lexeme)).takeWhile (· ≠ .endOfInput)) (spellBlock program) ∧
      ∀ (deep line : Nat) (spelled : List Token), 4 * depth ≤ deep →
        spelled.map (·.lexeme) = spellBlock program ++ [.endOfInput] →
        (∀ t ∈ spelled, t.span.line = line) →
        ∃ program', parse deep spelled = .ok program' ∧
          bareBlock program' = bareBlock program := by
  unfold parse at h
  cases hr : Parser.many (fun _ => false) (Parser.statement depth) ⟨0, tokens⟩ with
  | error halt =>
    rw [hr] at h
    contradiction
  | ok r =>
    obtain ⟨body, t⟩ := r
    rw [hr] at h
    obtain rfl := Except.ok.inj h
    have hgo (x : Stmt) (first : Lexeme) (rest : List Lexeme) (hx : x.spell = first :: rest) :
        ¬ Parser.EndsBlock (fun _ => false) first := by
      obtain ⟨first', rest', heq, -, hend⟩ := x.exists_spell_cons
      obtain ⟨rfl, -⟩ := List.cons.inj (hx.symm.trans heq)
      simp [Parser.EndsBlock, hend]
    have hmany {deep : Nat} (hdeep : 4 * depth ≤ deep) :=
      Parser.many_restores (Parser.restoresAt depth deep hdeep).statement hgo hr
    obtain ⟨hreads, hend, -⟩ := hmany (Nat.le_refl _)
    refine ⟨hreads.takeWhile (by simpa [Parser.EndsBlock] using hend), ?_⟩
    intro deep line spelled hdeep hlexemes hlines
    obtain ⟨-, -, hagain⟩ := hmany hdeep
    obtain ⟨program', u, hr', hbare, -⟩ :=
      hagain line ⟨0, spelled⟩ .endOfInput [] ⟨hlexemes, hlines⟩ (.inr rfl)
    refine ⟨program', ?_, hbare⟩
    rw [parse, hr']

/-- A branch behind an `else`, with no semicolon behind it, is spelled with both and read again. -/
theorem parse_respells_elseIf :
    let tokens : List Token := [.symbol .if, .identifier "a", .symbol .leftBrace,
      .symbol .rightBrace, .symbol .else, .symbol .if, .identifier "b", .symbol .leftBrace,
      .identifier "f", .symbol .leftParen, .symbol .rightParen, .symbol .rightBrace,
      .endOfInput].map (⟨·, default⟩)
    let program : List Stmt := [.branch (.variable "a" default) []
      (some [.branch (.variable "b" default)
        [.expression (.call (.variable "f" default) [] default) default] none default]) default]
    parse 10 tokens = .ok program ∧
      Shortens ((tokens.map (·.lexeme)).takeWhile (· ≠ .endOfInput)) (spellBlock program) ∧
      ∃ program', parse 40 ((spellBlock program ++ [Lexeme.endOfInput]).map (⟨·, default⟩)) =
        .ok program' ∧ bareBlock program' = bareBlock program := by
  intro tokens program
  have h : parse 10 tokens = .ok program := by cbv
  obtain ⟨hshort, hagain⟩ := parse_respells h
  refine ⟨h, hshort, hagain 40 0 _ (by decide) ?_ (List.forall_mem_map.mpr fun _ _ => rfl)⟩
  rw [List.map_map]
  exact List.map_id _

end HostScript
