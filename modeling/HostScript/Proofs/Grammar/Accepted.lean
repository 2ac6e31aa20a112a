import HostScript.Proofs.Grammar.Crossing

/-!
# What is parsed is derived

Every procedure of the parser reads a phrase of the accepted grammar (`Parser.findsAt`). Of an
expression it is known besides that no call and no index could have gone on with it, and, if it can
be assigned to, that its tokens are an identifier or end in an index.
-/

namespace HostScript

namespace Parser

open Grammar

variable {α : Type} {s t : Cursor} {ts us : List Token}

/-! ## Expressions -/

/-- The tokens of an expression to which can be assigned. -/
inductive Assignable : List Token → Prop
  | name {name : Name} {σ : Span} : Assignable [⟨.identifier name, σ⟩]
  | element {ts us : List Token} {σ σ' : Span} (h : accepted.Derives .suffixed ts)
    (hline : σ.line = lineAfter 0 ts) (h' : accepted.Derives .expression us) :
    Assignable (ts ++ ⟨.symbol .leftBracket, σ⟩ :: (us ++ [⟨.symbol .rightBracket, σ'⟩]))

theorem Assignable.assign (h : Assignable ts) (h' : accepted.Derives .expression us) {σ : Span} :
    accepted.Derives (.statement .expression) (ts ++ ⟨.symbol .equals, σ⟩ :: us) := by
  cases h with
  | name => exact .assign h'
  | element h hline hi =>
    simp only [List.append_assoc, List.cons_append, List.nil_append]
    exact .assignIndex (.placeAny trivial h) hline hi h'

/-- If something can be assigned to the expression, its tokens are of that kind. -/
def Fits (e : Expr) (ts : List Token) : Prop :=
  ∀ value span x, assign? e value span = some x → Assignable ts

theorem Fits.of_none {e : Expr} (h : ∀ value span, assign? e value span = none) : Fits e ts :=
  fun value span _ hx => nomatch (h value span).symm.trans hx

/-- The procedure reads a phrase. -/
def Finds (p : Parser α) (c : Phrase) : Prop :=
  ∀ s a t, p.Yields s a t → ∃ ts, s.Crosses ts t ∧ accepted.Derives c ts

/-- The procedure reads an expression to its end. -/
def FindsExpr (p : Parser Expr) (c : Phrase) : Prop :=
  ∀ s e t, p.Yields s e t → ∃ ts, s.Crosses ts t ∧ accepted.Derives c ts ∧ Fits e ts ∧ t.Settled

theorem FindsExpr.finds {p : Parser Expr} {c : Phrase} (h : FindsExpr p c) : Finds p c := by
  intro s e t hr
  obtain ⟨ts, hts, hd, -⟩ := h s e t hr
  exact ⟨ts, hts, hd⟩

theorem finds_tooDeep {c : Phrase} : Finds (tooDeep : Parser α) c :=
  fun _ _ _ h => absurd h not_yields_tooDeep

theorem findsExpr_tooDeep {c : Phrase} : FindsExpr tooDeep c :=
  fun _ _ _ h => absurd h not_yields_tooDeep

/-! ### Operators -/

section

variable {build? : Token → Option (Expr → Expr → Expr)} {ops : List Symbol}
  {rest : List (List Symbol)} {operand : Parser Expr}

theorem chainRest_finds (hs : Signs build? ops) (ho : FindsExpr operand (.chain rest))
    {left e : Expr} (hleft : accepted.Derives (.chain (ops :: rest)) ts) (hfits : Fits left ts)
    (hsettled : s.Settled) (h : chainRest build? operand left s = .ok (e, t)) :
    ∃ us, s.Crosses us t ∧ accepted.Derives (.chain (ops :: rest)) (ts ++ us) ∧
      Fits e (ts ++ us) ∧ t.Settled := by
  fun_induction chainRest build? operand left s generalizing ts with
  | case1 left s =>
    obtain ⟨rfl, rfl⟩ := Prod.mk.inj (Except.ok.inj h)
    refine ⟨[], .refl s, ?_⟩
    rw [List.append_nil]
    exact ⟨hleft, hfits, hsettled⟩
  | case2 => contradiction
  | case3 left s build hbuild right u hr hlt ih =>
    obtain ⟨op, hop, hl⟩ := (hs.isSome_iff s.peek).mp (by rw [hbuild]; rfl)
    obtain ⟨us, hus, hright, -, hsettled'⟩ := ho _ _ _ hr
    obtain ⟨vs, hvs, hd⟩ := ih (.more hleft hop hright)
      (.of_none (hs.assign?_eq_none hbuild left right)) hsettled' h
    rw [List.append_assoc] at hd
    exact ⟨_, (Cursor.Crosses.cons hl nofun hus).trans hvs, hd⟩
  | case4 => contradiction

theorem chain_finds (hs : Signs build? ops) (ho : FindsExpr operand (.chain rest)) :
    FindsExpr (chain build? operand) (.chain (ops :: rest)) := by
  intro s e t h
  obtain ⟨left, u, hr, hrest⟩ := yields_bind.mp h
  obtain ⟨ts, hts, hleft, hfits, hsettled⟩ := ho _ _ _ hr
  obtain ⟨us, hus, hd⟩ := chainRest_finds hs ho hleft.single hfits hsettled hrest
  exact ⟨ts ++ us, hts.trans hus, hd⟩

end

theorem levels_finds {operand : Parser Expr} (ho : FindsExpr operand .unary) :
    FindsExpr (levels operand) .expression := by
  have hnone : FindsExpr operand (.chain []) := by
    intro s e t h
    obtain ⟨ts, hts, hd, hfits⟩ := ho s e t h
    exact ⟨ts, hts, .operand hd, hfits⟩
  have hall {builders : List (Token → Option (Expr → Expr → Expr))} {ls : List (List Symbol)}
      (hs : List.Forall₂ Signs builders ls) :
      FindsExpr (builders.foldr chain operand) (.chain ls) := by
    induction hs with
    | nil => exact hnone
    | cons hs _ ih => exact chain_finds hs ih
  rw [levels_eq_foldr]
  exact hall signs_builders

/-! ### Arguments, calls and indexes -/

variable {inner : Parser Expr}

theorem separated_finds (hi : Finds inner .expression) {seen es : List Expr}
    (h : separated (fun _ => inner) seen s = .ok (es, t)) :
    ∃ ts, s.Crosses ts t ∧ accepted.Derives .items ts := by
  fun_induction separated (fun _ => inner) seen s with
  | case1 => contradiction
  | case2 seen s x u hr hcomma hlt ih =>
    obtain ⟨ts, hts, hx⟩ := hi _ _ _ hr
    obtain ⟨us, hus, hxs⟩ := ih h
    exact ⟨_, hts.trans (.cons (of_decide_eq_true hcomma) nofun hus), .moreItems hx hxs⟩
  | case3 => contradiction
  | case4 seen s x u hr hcomma =>
    obtain ⟨rfl, rfl⟩ := Prod.mk.inj (Except.ok.inj h)
    obtain ⟨ts, hts, hx⟩ := hi _ _ _ hr
    exact ⟨ts, hts, .item hx⟩

/-- Arguments are read with the symbol that closes them. -/
theorem items_finds (hi : Finds inner .expression) {closing : Symbol} {wanted : String}
    {es : List Expr} (h : (items (fun _ => inner) closing wanted).Yields s es t) :
    ∃ ts σ, s.Crosses (ts ++ [⟨.symbol closing, σ⟩]) t ∧ accepted.Derives .arguments ts := by
  rcases yields_items.mp h with ⟨hclose, -, rfl⟩ | ⟨-, u, hr, hclose, rfl⟩
  · exact ⟨[], _, .next hclose nofun, .noArguments⟩
  · obtain ⟨ts, hts, hd⟩ := separated_finds hi hr
    exact ⟨ts, _, hts.trans (.next hclose nofun), .arguments hd⟩

theorem suffix?_finds (hi : Finds inner .expression) {target e : Expr} {step : Parser Expr}
    (hd : accepted.Derives .suffixed ts) (hline : s.peek.span.line = lineAfter 0 ts)
    (hstep : suffix? inner target s.peek = some step) (h : step.Yields s.next e t) :
    ∃ us, s.Crosses us t ∧ accepted.Derives .suffixed (ts ++ us) ∧ Fits e (ts ++ us) := by
  unfold suffix? at hstep
  split at hstep
  · next hl =>
    obtain rfl := Option.some.inj hstep
    obtain ⟨es, hr, rfl⟩ := yields_return.mp h
    obtain ⟨us, σ, hus, hes⟩ := items_finds hi hr
    exact ⟨_, .cons hl nofun hus, .call hd hline hes, .of_none fun _ _ => rfl⟩
  · next hl =>
    obtain rfl := Option.some.inj hstep
    obtain ⟨index, u, hr, h⟩ := yields_bind.mp h
    obtain ⟨hclose, h⟩ := yields_expect_bind.mp h
    obtain ⟨rfl, rfl⟩ := yields_pure.mp h
    obtain ⟨us, hus, hindex⟩ := hi _ _ _ hr
    exact ⟨_, .cons hl nofun (hus.trans (.next hclose nofun)), .index hd hline hindex,
      fun _ _ _ _ => .element hd hline hindex⟩
  · contradiction

theorem postfixRest_finds (hi : Finds inner .expression) {target e : Expr}
    (hd : accepted.Derives .suffixed ts) (hfits : Fits target ts) (hne : ts ≠ [])
    (hline : s.line = lineAfter 0 ts) (h : postfixRest inner target s = .ok (e, t)) :
    ∃ us, s.Crosses us t ∧ accepted.Derives .suffixed (ts ++ us) ∧ Fits e (ts ++ us) ∧
      t.Settled := by
  fun_induction postfixRest inner target s generalizing ts with
  | case1 target s hother =>
    obtain ⟨rfl, rfl⟩ := Prod.mk.inj (Except.ok.inj h)
    refine ⟨[], .refl s, ?_⟩
    rw [List.append_nil]
    exact ⟨hd, hfits, fun hs => hother hs.2⟩
  | case2 target s _ hnone =>
    obtain ⟨rfl, rfl⟩ := Prod.mk.inj (Except.ok.inj h)
    refine ⟨[], .refl s, ?_⟩
    rw [List.append_nil]
    refine ⟨hd, hfits, fun hs => ?_⟩
    exact nomatch (suffix?_eq_none_iff.mp hnone).symm.trans hs.1
  | case3 => contradiction
  | case4 target s hsame step hstep e' u hr hlt ih =>
    have hpeek := (not_not.mp hsame).trans hline
    obtain ⟨us, hus, hd', hfits'⟩ := suffix?_finds hi hd hpeek hstep hr
    have hne' : ts ++ us ≠ [] := List.append_ne_nil_of_left_ne_nil hne us
    have hline' : u.line = lineAfter 0 (ts ++ us) := by
      rw [hus.line, hline, lineAfter_append]
    obtain ⟨vs, hvs, hrest⟩ := ih hd' hfits' hne' hline' h
    rw [List.append_assoc] at hrest
    exact ⟨us ++ vs, hus.trans hvs, hrest⟩
  | case5 => contradiction

/-! ## Parts of statements -/

theorem separated_parameter_finds {seen names : List Name} (hseen : seen.Nodup)
    (h : separated parameter seen s = .ok (names, t)) :
    ∃ more ts, names = seen ++ more ∧ more ≠ [] ∧ names.Nodup ∧ s.Crosses ts t ∧
      ts.map (·.lexeme) = commas (more.map fun name => [.identifier name]) := by
  have happend {seen : List Name} {name : Name} (hseen : seen.Nodup) (hnot : name ∉ seen) :
      (seen ++ [name]).Nodup := by
    rw [List.nodup_append]
    refine ⟨hseen, by simp, ?_⟩
    rintro a ha b hb rfl
    exact hnot (List.mem_singleton.mp hb ▸ ha)
  fun_induction separated parameter seen s with
  | case1 => contradiction
  | case2 seen s x u hr hcomma hlt ih =>
    obtain ⟨hl, hnot, rfl⟩ := yields_parameter.mp hr
    obtain ⟨more, ts, rfl, hne, hnames, hts, hls⟩ := ih (happend hseen hnot) h
    refine ⟨x :: more, _, by simp, nofun, hnames,
      .cons hl nofun (.cons (of_decide_eq_true hcomma) nofun hts), ?_⟩
    obtain ⟨name, more, rfl⟩ := List.exists_cons_of_ne_nil hne
    simp [hls]
  | case3 => contradiction
  | case4 seen s x u hr hcomma =>
    obtain ⟨rfl, rfl⟩ := Prod.mk.inj (Except.ok.inj h)
    obtain ⟨hl, hnot, rfl⟩ := yields_parameter.mp hr
    exact ⟨[x], _, rfl, nofun, happend hseen hnot, .next hl nofun, by simp⟩

theorem parameters_finds {names : List Name} (h : parameters.Yields s names t) :
    ∃ ts, s.Crosses ts t ∧ names.Nodup ∧ ts.map (·.lexeme) = spellParameters names := by
  obtain ⟨hopen, h⟩ := yields_expect_bind.mp h
  rcases yields_items.mp h with ⟨hclose, rfl, rfl⟩ | ⟨-, u, hr, hclose, rfl⟩
  · exact ⟨_, .cons hopen nofun (.next hclose nofun), List.nodup_nil, rfl⟩
  · obtain ⟨more, ts, rfl, -, hnames, hts, hls⟩ := separated_parameter_finds List.nodup_nil hr
    exact ⟨_, .cons hopen nofun (hts.trans (.next hclose nofun)), hnames, by
      simp [spellParameters, hls]⟩

theorem binding_finds (hi : FindsExpr inner .expression) {r : Name × Expr}
    (h : (binding inner).Yields s r t) :
    ∃ name σ σ' ts, s.Crosses (⟨.identifier name, σ⟩ :: ⟨.symbol .equals, σ'⟩ :: ts) t ∧
      accepted.Derives .expression ts ∧ t.Settled := by
  obtain ⟨name, hname, h⟩ := yields_identifier_bind.mp h
  obtain ⟨hequals, h⟩ := yields_expect_bind.mp h
  obtain ⟨e, hr, rfl⟩ := yields_return.mp h
  obtain ⟨ts, hts, hd, -, hsettled⟩ := hi _ _ _ hr
  exact ⟨name, _, _, ts, .cons hname nofun (.cons hequals nofun hts), hd, hsettled⟩

theorem expressionOrAssignment_finds (hi : FindsExpr inner .expression) {span : Span} {x : Stmt}
    (h : (expressionOrAssignment inner span).Yields s x t) :
    ∃ ts, s.Crosses ts t ∧ accepted.Derives (.statement .expression) ts ∧ t.Settled := by
  obtain ⟨target, u, hr, h⟩ := yields_bind.mp h
  obtain ⟨found, v, haccept, hend⟩ := yields_bind.mp (yields_peek_bind.mp h)
  obtain ⟨ts, hts, hd, hfits, hsettled⟩ := hi _ _ _ hr
  rcases yields_accept.mp haccept with ⟨hequals, rfl, rfl⟩ | ⟨-, rfl, rfl⟩
  · obtain ⟨value, w, hr', hend⟩ := yields_bind.mp hend
    obtain ⟨us, hus, hd', -, hsettled'⟩ := hi _ _ _ hr'
    split at hend
    · next hx =>
      obtain ⟨rfl, rfl⟩ := yields_pure.mp hend
      exact ⟨_, hts.trans (.cons hequals nofun hus), (hfits _ _ _ hx).assign hd', hsettled'⟩
    · cases hend
  · obtain ⟨rfl, rfl⟩ := yields_pure.mp hend
    exact ⟨ts, hts, .value hd, hsettled⟩

/-! ## One depth -/

/-- What has been read up to here may be all of a statement that ends in the given way. -/
def Completes : StatementEnd → Cursor → Prop
  | .closed, _ => True
  | .expression, t => t.Settled
  | .bareReturn, t =>
    t.peek.lexeme = .symbol .semicolon ∨ t.peek.lexeme = .symbol .rightBrace ∨
      t.peek.lexeme = .endOfInput

/-- The procedure reads a statement without a semicolon. -/
def FindsBare (p : Parser Stmt) : Prop :=
  ∀ s x t, p.Yields s x t → ∃ e ts, s.Crosses ts t ∧ accepted.Derives (.statement e) ts ∧
    Completes e t

/-- The procedure reads a statement, and the semicolon behind it if there is one. -/
def FindsStatement (p : Parser Stmt) : Prop :=
  ∀ s x t, p.Yields s x t → ∃ e ts, accepted.Derives (.statement e) ts ∧
    ((∃ σ, s.Crosses (ts ++ [⟨.symbol .semicolon, σ⟩]) t) ∨
      s.Crosses ts t ∧ Completes e t ∧ t.peek.lexeme ≠ .symbol .semicolon)

/-- Everything that is parsed at a nesting depth is derived. What is read of a function and of a
branch comes behind the keyword. -/
structure FindsAt (depth : Nat) : Prop where
  expression : FindsExpr (expression depth) .expression
  unary : FindsExpr (unary depth) .unary
  primary : ∀ s e t, (primary depth).Yields s e t →
    ∃ ts, s.Crosses ts t ∧ accepted.Derives .primary ts ∧ Fits e ts
  block : Finds (block depth) .block
  functionRest : ∀ exported span s x t, (functionRest depth exported span).Yields s x t →
    ∃ name σ ts, s.Crosses (⟨.identifier name, σ⟩ :: ts) t ∧ accepted.Derives .function ts
  branchRest : ∀ span s x t, (branchRest depth span).Yields s x t →
    ∃ ts, s.Crosses ts t ∧ ∀ σ, accepted.Derives .branch (⟨.symbol .if, σ⟩ :: ts)
  bareStatement : FindsBare (bareStatement depth)
  statement : FindsStatement (statement depth)

namespace FindsAt

variable {depth : Nat}

theorem zero : FindsAt 0 where
  expression := findsExpr_tooDeep
  unary := findsExpr_tooDeep
  primary _ _ _ h := absurd h not_yields_tooDeep
  block := finds_tooDeep
  functionRest _ _ _ _ _ h := absurd h not_yields_tooDeep
  branchRest _ _ _ _ h := absurd h not_yields_tooDeep
  bareStatement _ _ _ h := absurd h not_yields_tooDeep
  statement _ _ _ h := absurd h not_yields_tooDeep

theorem unary_succ (ih : FindsAt depth) : FindsExpr (Parser.unary (depth + 1)) .unary := by
  intro s e t h
  replace h := yields_peek_bind.mp h
  split at h
  · next op hop =>
    obtain ⟨operand, hr, rfl⟩ := yields_return.mp (yields_discard_take_bind.mp h)
    obtain ⟨ts, hts, hd, -, hsettled⟩ := ih.unary _ _ _ hr
    have hsign : ∃ sign, s.peek.lexeme = .symbol sign ∧ (sign = .not ∨ sign = .minus) := by
      unfold unaryOf? at hop
      split at hop
      · next hl => exact ⟨_, hl, .inl rfl⟩
      · next hl => exact ⟨_, hl, .inr rfl⟩
      · contradiction
    obtain ⟨sign, hl, hsign⟩ := hsign
    exact ⟨_, .cons hl nofun hts, .signed hsign hd, .of_none fun _ _ => rfl, hsettled⟩
  · obtain ⟨operand, u, hr, h⟩ := yields_bind.mp h
    obtain ⟨ts, hts, hd, hfits⟩ := ih.primary _ _ _ hr
    have hne := hd.primary_ne_nil
    obtain ⟨us, hus, hd', hrest⟩ :=
      postfixRest_finds ih.expression.finds hd.plain hfits hne (hts.line_eq hne) h
    exact ⟨_, hts.trans hus, .unsigned hd', hrest⟩

theorem primary_succ (ih : FindsAt depth) {e : Expr}
    (h : (Parser.primary (depth + 1)).Yields s e t) :
    ∃ ts, s.Crosses ts t ∧ accepted.Derives .primary ts ∧ Fits e ts := by
  replace h := yields_take_bind.mp h
  have hliteral (value : Literal) (hl : s.peek.lexeme = value.lexeme)
      (h : (pure (.literal value s.peek.span) : Parser Expr).Yields s.next e t) :
      ∃ ts, s.Crosses ts t ∧ accepted.Derives .primary ts ∧ Fits e ts := by
    obtain ⟨rfl, rfl⟩ := yields_pure.mp h
    have hne : value.lexeme ≠ .endOfInput := by
      cases value with
      | boolean b => cases b <;> nofun
      | null | number | string => nofun
    exact ⟨_, .next hl hne, .literal, .of_none fun _ _ => rfl⟩
  split at h
  · next hl => exact hliteral .null hl h
  · next hl => exact hliteral (.boolean true) hl h
  · next hl => exact hliteral (.boolean false) hl h
  · next x hl => exact hliteral (.number x) hl h
  · next value hl => exact hliteral (.string value) hl h
  · next hl =>
    obtain ⟨rfl, rfl⟩ := yields_pure.mp h
    exact ⟨_, .next hl nofun, .name, fun _ _ _ _ => .name⟩
  · next hl =>
    obtain ⟨inner, u, hr, h⟩ := yields_bind.mp h
    obtain ⟨hclose, h⟩ := yields_expect_bind.mp h
    obtain ⟨rfl, rfl⟩ := yields_pure.mp h
    obtain ⟨ts, hts, hd⟩ := ih.expression.finds _ _ _ hr
    exact ⟨_, .cons hl nofun (hts.trans (.next hclose nofun)), .grouping hd,
      .of_none fun _ _ => rfl⟩
  · next hl =>
    obtain ⟨es, hr, rfl⟩ := yields_return.mp h
    obtain ⟨ts, σ, hts, hd⟩ := items_finds ih.expression.finds hr
    exact ⟨_, .cons hl nofun hts, .array hd, .of_none fun _ _ => rfl⟩
  · next hl =>
    obtain ⟨names, u, hr, h⟩ := yields_bind.mp h
    obtain ⟨body, hbody, rfl⟩ := yields_return.mp h
    obtain ⟨ps, hps, hnames, hls⟩ := parameters_finds hr
    obtain ⟨ts, hts, hd⟩ := ih.block _ _ _ hbody
    exact ⟨_, .cons hl nofun (hps.trans hts), .closure (.function hnames hls hd),
      .of_none fun _ _ => rfl⟩
  · contradiction

/-- Statements one behind the other. -/
theorem many_finds (ih : FindsStatement (Parser.statement depth)) {stop : Lexeme → Bool}
    {xs : List Stmt} (h : ManyYield stop (Parser.statement depth) s xs t) :
    ∃ ts, s.Crosses ts t ∧ accepted.Derives .statements ts := by
  induction h with
  | stops => exact ⟨[], .refl _, .nothing⟩
  | @goes s u t x xs _ _ hx _ _ hrest =>
    obtain ⟨us, hus, hd'⟩ := hrest
    obtain ⟨e, ts, hd, ⟨σ, hts⟩ | ⟨hts, hcompletes, hnot⟩⟩ := ih _ _ _ hx
    · have hall := hts.trans hus
      rw [List.append_assoc] at hall
      exact ⟨_, hall, .ended hd hd'⟩
    · refine ⟨_, hts.trans hus, .joined hd hd' fun v hv => ?_⟩
      have hpeek : u.peek = v := by rw [hus.peek, hv, Option.getD_some]
      have hline := hts.line_eq hd.statement_ne_nil
      cases e with
      | closed => trivial
      | expression =>
        rw [← hpeek, ← hline]
        exact hcompletes
      | bareReturn =>
        -- what ends a block begins no statement
        have hopens := hd'.begins v.lexeme (by rw [List.head?_map, hv]; rfl)
        rw [← hpeek] at hopens
        rcases hcompletes with hl | hl | hl
        · exact absurd hl hnot
        · rw [hl] at hopens
          contradiction
        · rw [hl] at hopens
          contradiction

theorem block_succ (ih : FindsAt depth) : Finds (Parser.block (depth + 1)) .block := by
  intro s body t h
  obtain ⟨hopen, h⟩ := yields_expect_bind.mp h
  obtain ⟨xs, u, hr, h⟩ := yields_bind.mp h
  obtain ⟨hclose, h⟩ := yields_expect_bind.mp h
  obtain ⟨-, rfl⟩ := yields_pure.mp h
  obtain ⟨ts, hts, hd⟩ := many_finds ih.statement (many_eq_ok_iff.mp hr)
  exact ⟨_, .cons hopen nofun (hts.trans (.next hclose nofun)), .block hd⟩

theorem functionRest_succ (ih : FindsAt depth) {exported : Bool} {span : Span} {x : Stmt}
    (h : (Parser.functionRest (depth + 1) exported span).Yields s x t) :
    ∃ name σ ts, s.Crosses (⟨.identifier name, σ⟩ :: ts) t ∧ accepted.Derives .function ts := by
  obtain ⟨name, hname, h⟩ := yields_identifier_bind.mp h
  obtain ⟨names, u, hr, h⟩ := yields_bind.mp h
  obtain ⟨body, hbody, rfl⟩ := yields_return.mp h
  obtain ⟨ps, hps, hnames, hls⟩ := parameters_finds hr
  obtain ⟨ts, hts, hd⟩ := ih.block _ _ _ hbody
  exact ⟨name, _, _, .cons hname nofun (hps.trans hts), .function hnames hls hd⟩

theorem branchRest_succ (ih : FindsAt depth) {span : Span} {x : Stmt}
    (h : (Parser.branchRest (depth + 1) span).Yields s x t) :
    ∃ ts, s.Crosses ts t ∧ ∀ σ, accepted.Derives .branch (⟨.symbol .if, σ⟩ :: ts) := by
  obtain ⟨condition, u, hr, h⟩ := yields_bind.mp h
  obtain ⟨consequent, v, hr', h⟩ := yields_bind.mp h
  obtain ⟨found, halternative, rfl⟩ := yields_return.mp h
  obtain ⟨ts, hts, hd⟩ := ih.expression.finds _ _ _ hr
  obtain ⟨us, hus, hd'⟩ := ih.block _ _ _ hr'
  obtain ⟨_, w, haccept, hrest⟩ := yields_bind.mp halternative
  rcases yields_accept.mp haccept with ⟨helse, rfl, rfl⟩ | ⟨-, rfl, rfl⟩
  · replace hrest := yields_peek_bind.mp hrest
    obtain ⟨_, w, haccept, hrest⟩ := yields_bind.mp hrest
    rcases yields_accept.mp haccept with ⟨hif, rfl, rfl⟩ | ⟨-, rfl, rfl⟩
    · obtain ⟨inner, hinner, -⟩ := yields_return.mp hrest
      obtain ⟨vs, hvs, hd''⟩ := ih.branchRest _ _ _ _ hinner
      exact ⟨_, hts.trans (hus.trans (.cons helse nofun (.cons hif nofun hvs))),
        fun σ => .elseIf hd hd' (hd'' _)⟩
    · obtain ⟨inner, hinner, -⟩ := yields_return.mp hrest
      obtain ⟨vs, hvs, hd''⟩ := ih.block _ _ _ hinner
      exact ⟨_, hts.trans (hus.trans (.cons helse nofun hvs)), fun σ => .ifElse hd hd' hd''⟩
  · obtain ⟨-, rfl⟩ := yields_pure.mp hrest
    exact ⟨_, hts.trans hus, fun σ => .ifThen hd hd'⟩

theorem bareStatement_succ (ih : FindsAt depth) : FindsBare (Parser.bareStatement (depth + 1)) := by
  intro s x t h
  replace h := yields_peek_bind.mp h
  split at h
  · next hl =>
    replace h := yields_discard_take_bind.mp h
    obtain ⟨_, u, haccept, h⟩ := yields_bind.mp h
    rcases yields_accept.mp haccept with ⟨hfn, rfl, rfl⟩ | ⟨-, rfl, rfl⟩
    · obtain ⟨name, σ, ts, hts, hd⟩ := ih.functionRest _ _ _ _ _ h
      exact ⟨_, _, .cons hl nofun (.cons hfn nofun hts), .exportFunction hd, trivial⟩
    · obtain ⟨r, hr, -⟩ := yields_return.mp h
      obtain ⟨name, σ, σ', ts, hts, hd, hsettled⟩ := binding_finds ih.expression hr
      exact ⟨_, _, .cons hl nofun hts, .export hd, hsettled⟩
  · next hl =>
    obtain ⟨r, hr, -⟩ := yields_return.mp (yields_discard_take_bind.mp h)
    obtain ⟨name, σ, σ', ts, hts, hd, hsettled⟩ := binding_finds ih.expression hr
    exact ⟨_, _, .cons hl nofun hts, .declare hd, hsettled⟩
  · next hl =>
    obtain ⟨ts, hts, hd⟩ := ih.branchRest _ _ _ _ (yields_discard_take_bind.mp h)
    exact ⟨_, _, .cons hl nofun hts, .branch (hd _), trivial⟩
  · next hl =>
    obtain ⟨body, hr, -⟩ := yields_return.mp (yields_discard_take_bind.mp h)
    obtain ⟨ts, hts, hd⟩ := ih.block _ _ _ hr
    exact ⟨_, _, .cons hl nofun hts, .loop hd, trivial⟩
  · next hl =>
    replace h := yields_discard_take_bind.mp h
    obtain ⟨-, rfl⟩ := yields_pure.mp h
    exact ⟨_, _, .next hl nofun, .leave, trivial⟩
  · next hl =>
    replace h := yields_peek_bind.mp (yields_discard_take_bind.mp h)
    have hnothing {x' : Stmt} (hnext : s.next.peek.lexeme = .symbol .semicolon ∨
        s.next.peek.lexeme = .symbol .rightBrace ∨ s.next.peek.lexeme = .endOfInput)
        (h : (pure x' : Parser Stmt).Yields s.next x t) :
        ∃ e ts, s.Crosses ts t ∧ accepted.Derives (.statement e) ts ∧ Completes e t := by
      obtain ⟨-, rfl⟩ := yields_pure.mp h
      exact ⟨_, _, .next hl nofun, .giveNothing, hnext⟩
    split at h
    · next hnext => exact hnothing (.inl hnext) h
    · next hnext => exact hnothing (.inr (.inl hnext)) h
    · next hnext => exact hnothing (.inr (.inr hnext)) h
    · obtain ⟨e, hr, -⟩ := yields_return.mp h
      obtain ⟨ts, hts, hd, -, hsettled⟩ := ih.expression _ _ _ hr
      exact ⟨_, _, .cons hl nofun hts, .give hd, hsettled⟩
  · replace h := yields_get_bind.mp h
    dsimp only at h
    split at h
    · next hl hname =>
      obtain ⟨name, σ, ts, hts, hd⟩ := ih.functionRest _ _ _ _ _ (yields_discard_take_bind.mp h)
      exact ⟨_, _, .cons hl nofun hts, .declareFunction hd, trivial⟩
    · obtain ⟨ts, hts, hd, hsettled⟩ := expressionOrAssignment_finds ih.expression h
      exact ⟨_, ts, hts, hd, hsettled⟩

theorem statement_succ (ih : FindsAt depth) : FindsStatement (Parser.statement (depth + 1)) := by
  intro s x t h
  obtain ⟨x', u, hr, h⟩ := yields_bind.mp h
  obtain ⟨_, v, haccept, h⟩ := yields_bind.mp h
  obtain ⟨rfl, rfl⟩ := yields_pure.mp h
  obtain ⟨e, ts, hts, hd, hcompletes⟩ := ih.bareStatement _ _ _ hr
  obtain ⟨found, haccept⟩ := yields_discard.mp haccept
  rcases yields_accept.mp haccept with ⟨hl, -, rfl⟩ | ⟨hnot, -, rfl⟩
  · exact ⟨e, ts, hd, .inl ⟨_, hts.trans (.next hl nofun)⟩⟩
  · exact ⟨e, ts, hd, .inr ⟨hts, hcompletes, hnot⟩⟩

end FindsAt

/-! ## All depths -/

theorem findsAt (depth : Nat) : FindsAt depth := by
  induction depth with
  | zero => exact .zero
  | succ depth ih =>
    exact
      { expression := levels_finds ih.unary
        unary := ih.unary_succ
        primary := fun _ _ _ => ih.primary_succ
        block := ih.block_succ
        functionRest := fun _ _ _ _ _ => ih.functionRest_succ
        branchRest := fun _ _ _ _ => ih.branchRest_succ
        bareStatement := ih.bareStatement_succ
        statement := ih.statement_succ }

end Parser

end HostScript
