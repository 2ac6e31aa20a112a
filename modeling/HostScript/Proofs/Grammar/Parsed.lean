import HostScript.Proofs.Grammar.Crossing
import HostScript.Proofs.Grammar.Eager

/-!
# What is derived is parsed

The parser reads every phrase of the eager grammar, if what comes behind cannot go on with it
(`Parser.reads_of_derives`). `Parser.Reads` says so for each kind of phrase under a bound on nesting;
there is one lemma for each production. Behind operands that go on with operators, calls or indexes
the parser is in a loop, so of these it is said how the loop goes on.
-/

namespace HostScript

namespace Parser

open Grammar

variable {α β : Type} {s t u : Cursor} {ts us vs : List Token} {σ σ' : Span} {depth : Nat}

/-! ## Ends of expressions -/

/-- Nothing that comes next goes on with an expression of the given levels. -/
structure Stops (levels : List (List Symbol)) (t : Cursor) : Prop where
  settled : t.Settled
  operator : ∀ op ∈ levels.flatten, t.peek.lexeme ≠ .symbol op

theorem stops_of_endsExpr (h : t.peek.lexeme.endsExpr) : Stops operators t where
  settled hs := by
    have hnot (l : Lexeme) (hl : l.endsExpr) : l.opensSuffix = false := by
      cases l with
      | symbol s => cases s <;> first | rfl | contradiction
      | number | string | identifier | endOfInput => rfl
    exact nomatch (hnot _ h).symm.trans hs.1
  operator op hop hl := by
    have hnot : ∀ op ∈ operators.flatten, (Lexeme.symbol op).endsExpr = false := by decide
    rw [hl, hnot op hop] at h
    contradiction

/-- An operator of a level is no operator of the levels behind it, and it opens no call or index. -/
theorem stops_of_operator {ops : List Symbol} {rest : List (List Symbol)} {op : Symbol}
    (hsuffix : ops :: rest <:+ operators) (hop : op ∈ ops) (hl : t.peek.lexeme = .symbol op) :
    Stops rest t := by
  obtain ⟨before, hbefore⟩ := hsuffix
  have hflat : operators.flatten = before.flatten ++ (ops ++ rest.flatten) := by
    rw [← hbefore, List.flatten_append, List.flatten_cons]
  have hnodup : operators.flatten.Nodup := by decide
  have hopens : ∀ op ∈ operators.flatten, (Lexeme.symbol op).opensSuffix = false := by decide
  rw [hflat] at hnodup hopens
  have hmem : op ∈ before.flatten ++ (ops ++ rest.flatten) := by simp [hop]
  refine ⟨fun hs => ?_, fun op' hop' hl' => ?_⟩
  · have hno := hopens op hmem
    rw [← hl, hs.1] at hno
    contradiction
  · obtain rfl := Lexeme.symbol.inj (hl.symm.trans hl')
    have hapart := (List.nodup_append.mp (List.nodup_append.mp hnodup).2.1).2.2
    exact hapart op hop op hop' rfl

/-! ## Loops -/

theorem bind_of_yields {p : Parser α} {a : α} (h : p.Yields s a t) (f : α → Parser β) :
    (p >>= f) s = f a t := by
  have h : p s = .ok (a, t) := h
  change (p s >>= fun (a, t) => f a t) = f a t
  rw [h]
  rfl

/-! ## Phrases -/

/-- The levels of operators read the given tokens. With a level, they come to the end of its
loop. -/
def ReadsChain (operand : Parser Expr) (ts : List Token) : List (List Symbol) → Prop
  | [] => ∀ s t, s.Crosses ts t → t.Settled → ∃ e, operand.Yields s e t
  | ops :: rest => ∀ build? builders, Signs build? ops → List.Forall₂ Signs builders rest →
    ∀ s t, s.Crosses ts t → Stops rest t → ∃ left,
      chain build? (builders.foldr chain operand) s =
        chainRest build? (builders.foldr chain operand) left t

/-- What comes next does not go on with a statement that ends in the given way. -/
def Admits : StatementEnd → Cursor → Prop
  | .closed, t => t.peek.lexeme ≠ .symbol .else
  | .expression, t => Stops operators t ∧ t.peek.lexeme ≠ .symbol .equals
  | .bareReturn, t =>
    t.peek.lexeme = .symbol .semicolon ∨ t.peek.lexeme = .symbol .rightBrace ∨
      t.peek.lexeme = .endOfInput

/-- With a bound on nesting, the procedure for a kind of phrase reads the given tokens. -/
def Reads (depth : Nat) : Phrase → List Token → Prop
  | .chain levels, ts => levels <:+ operators → ReadsChain (unary depth) ts levels
  | .unary, ts => ∀ s t, s.Crosses ts t → t.Settled → ∃ e, (unary depth).Yields s e t
  | .suffixed, ts | .place, ts => ∀ s t, s.Crosses ts t → ∃ e,
    (primary depth >>= postfixRest (expression depth)) s = postfixRest (expression depth) e t
  | .primary, ts => ∀ s t, s.Crosses ts t → ∃ e, (primary depth).Yields s e t
  | .items, ts => ∀ seen s t, s.Crosses ts t → t.peek.lexeme.endsExpr →
    t.peek.lexeme ≠ .symbol .comma → ∃ es,
      separated (fun _ => expression (depth + 1)) seen s = .ok (es, t)
  | .arguments, ts => ∀ closing wanted σ s t, closing = .rightParen ∨ closing = .rightBracket →
    s.Crosses (ts ++ [⟨.symbol closing, σ⟩]) t → ∃ es,
      (items (fun _ => expression (depth + 1)) closing wanted).Yields s es t
  | .function, ts => ∀ s t, s.Crosses ts t → ∃ names u body,
    parameters.Yields s names u ∧ (block depth).Yields u body t
  | .block, ts => ∀ s t, s.Crosses ts t → ∃ body, (block depth).Yields s body t
  | .branch, ts => ∀ span (s t : Cursor), s.Crosses ts t → t.peek.lexeme ≠ .symbol .else →
    ∃ x, (branchRest depth span).Yields s.next x t
  | .statement e, ts => ∀ s t, s.Crosses ts t → Admits e t → ∃ x, (bareStatement depth).Yields s x t
  | .statements, ts => ∀ stop s t, (∀ l, stop l = true → l = .symbol .rightBrace) →
    s.Crosses ts t → stop t.peek.lexeme = true ∨ t.peek.lexeme = .endOfInput →
      ∃ xs, ManyYield stop (statement depth) s xs t

/-! ### Operators -/

theorem ReadsChain.yields {operand : Parser Expr} {levels : List (List Symbol)}
    (h : ReadsChain operand ts levels) {builders : List (Token → Option (Expr → Expr → Expr))}
    (hb : List.Forall₂ Signs builders levels) (hs : s.Crosses ts t) (ht : Stops levels t) :
    ∃ e, (builders.foldr chain operand).Yields s e t := by
  cases hb with
  | nil => exact h s t hs ht.settled
  | cons hb hrest =>
    obtain ⟨left, hleft⟩ := h _ _ hb hrest s t hs
      ⟨ht.settled, fun op hop => ht.operator op (List.mem_append_right _ hop)⟩
    have hnone := hb.eq_none fun op hop => ht.operator op (List.mem_append_left _ hop)
    exact ⟨left, hleft.trans (chainRest_stop _ left hnone)⟩

theorem reads_single {ops : List Symbol} {rest : List (List Symbol)}
    (h : Reads depth (.chain rest) ts) : Reads depth (.chain (ops :: rest)) ts := by
  intro hsuffix build? builders _ hrest s t hs ht
  obtain ⟨left, hleft⟩ :=
    (h ((List.suffix_cons _ _).trans hsuffix)).yields hrest hs ht
  exact ⟨left, bind_of_yields hleft _⟩

theorem reads_more {ops : List Symbol} {rest : List (List Symbol)} {op : Symbol}
    (h : Reads depth (.chain (ops :: rest)) ts) (hop : op ∈ ops)
    (h' : Reads depth (.chain rest) us) :
    Reads depth (.chain (ops :: rest)) (ts ++ ⟨.symbol op, σ⟩ :: us) := by
  intro hsuffix build? builders hb hrest s t hs ht
  obtain ⟨m, hm, hmore⟩ := Cursor.Crosses.append_iff.mp hs
  obtain ⟨hpeek, -, hnext⟩ := Cursor.Crosses.cons_iff.mp hmore
  have hl : m.peek.lexeme = .symbol op := by rw [hpeek]
  obtain ⟨left, hleft⟩ :=
    h hsuffix build? builders hb hrest s m hm (stops_of_operator hsuffix hop hl)
  obtain ⟨right, hright⟩ := (h' ((List.suffix_cons _ _).trans hsuffix)).yields hrest hnext ht
  obtain ⟨build, hbuild⟩ := Option.isSome_iff_exists.mp ((hb.isSome_iff m.peek).mpr ⟨op, hop, hl⟩)
  exact ⟨build left right,
    hleft.trans (chainRest_step left hbuild hright (hmore.length_lt nofun))⟩

/-- An expression is read in front of what ends it. -/
theorem Reads.expression (h : Reads depth .expression ts) (hs : s.Crosses ts t)
    (ht : Stops operators t) : ∃ e, (Parser.expression (depth + 1)).Yields s e t := by
  rw [Parser.expression, levels_eq_foldr]
  exact (h List.suffix_rfl).yields signs_builders hs ht

theorem reads_signed {op : Symbol} (hop : op = .not ∨ op = .minus) (h : Reads depth .unary ts) :
    Reads (depth + 1) .unary (⟨.symbol op, σ⟩ :: ts) := by
  intro s t hs ht
  obtain ⟨hpeek, -, hnext⟩ := Cursor.Crosses.cons_iff.mp hs
  obtain ⟨e, he⟩ := h s.next t hnext ht
  obtain ⟨uop, huop⟩ : ∃ uop, unaryOf? (.symbol op) = some uop := by
    obtain rfl | rfl := hop
    · exact ⟨_, rfl⟩
    · exact ⟨_, rfl⟩
  refine ⟨.unary uop e σ, yields_peek_bind.mpr ?_⟩
  rw [hpeek, huop]
  exact yields_discard_take_bind.mpr (yields_return.mpr ⟨e, he, rfl⟩)

/-- No sign stands in front of an operand. -/
theorem unaryOf?_eq_none {l : Lexeme} (h : l.isSign = false) : unaryOf? l = none := by
  unfold unaryOf?
  split
  · contradiction
  · contradiction
  · rfl

/-- An operand without signs is what its loop comes to. -/
theorem unary_yields {e : Expr} (hsign : s.peek.lexeme.isSign = false)
    (h : (primary depth >>= postfixRest (expression depth)).Yields s e t) :
    (unary (depth + 1)).Yields s e t := by
  refine yields_peek_bind.mpr ?_
  rw [unaryOf?_eq_none hsign]
  exact h

theorem reads_unsigned (hsign : ∀ l ∈ (ts.map (·.lexeme)).head?, l.isSign = false) (hne : ts ≠ [])
    (h : Reads depth .suffixed ts) : Reads (depth + 1) .unary ts := by
  intro s t hs ht
  obtain ⟨e, he⟩ := h s t hs
  obtain ⟨first, rest, rfl⟩ := List.exists_cons_of_ne_nil hne
  have hfirst : s.peek.lexeme.isSign = false := by
    rw [hs.peek_lexeme rfl]
    exact hsign _ rfl
  exact ⟨e, unary_yields hfirst (he.trans (postfixRest_stop _ e ht))⟩

/-- In front of what ends an expression, an operand is an expression. -/
theorem expression_yields {e : Expr} (h : (unary depth).Yields s e t) (ht : Stops operators t) :
    (expression (depth + 1)).Yields s e t := by
  have hall {builders : List (Token → Option (Expr → Expr → Expr))} {levels : List (List Symbol)}
      (hb : List.Forall₂ Signs builders levels)
      (hl : ∀ op ∈ levels.flatten, t.peek.lexeme ≠ .symbol op) :
      (builders.foldr chain (unary depth)).Yields s e t := by
    induction hb with
    | nil => exact h
    | cons hb _ ih =>
      have hrest := ih fun op hop => hl op (List.mem_append_right _ hop)
      have hnone := hb.eq_none fun op hop => hl op (List.mem_append_left _ hop)
      exact (bind_of_yields hrest _).trans (chainRest_stop _ e hnone)
  rw [Parser.expression, levels_eq_foldr]
  exact hall signs_builders ht.operator

/-! ### Calls and indexes -/

theorem reads_plain (h : Reads depth .primary ts) : Reads depth .suffixed ts := by
  intro s t hs
  obtain ⟨e, he⟩ := h s t hs
  exact ⟨e, bind_of_yields he _⟩

theorem reads_call (h : Reads (depth + 1) .suffixed ts) (hline : σ.line = lineAfter 0 ts)
    (hne : ts ≠ []) (h' : Reads depth .arguments us) :
    Reads (depth + 1) .suffixed
      (ts ++ ⟨.symbol .leftParen, σ⟩ :: (us ++ [⟨.symbol .rightParen, σ'⟩])) := by
  intro s t hs
  obtain ⟨m, hm, hmore⟩ := Cursor.Crosses.append_iff.mp hs
  obtain ⟨hpeek, -, hnext⟩ := Cursor.Crosses.cons_iff.mp hmore
  obtain ⟨callee, hcallee⟩ := h s m hm
  obtain ⟨es, hes⟩ := h' .rightParen ")" σ' m.next t (.inl rfl) hnext
  have hstep : suffix? (expression (depth + 1)) callee m.peek = some (do
      return .call callee (← items (fun _ => expression (depth + 1)) .rightParen ")") σ) := by
    rw [hpeek]
    rfl
  refine ⟨.call callee es σ, hcallee.trans (postfixRest_step ?_ hstep
    (yields_return.mpr ⟨es, hes, rfl⟩) (hmore.length_lt nofun))⟩
  rw [hpeek, hm.line_eq hne]
  exact hline

/-- An index behind an expression makes an index of it. -/
theorem postfixRest_index (target : Expr) (hline : σ.line = s.line)
    (hs : s.Crosses (⟨.symbol .leftBracket, σ⟩ :: (us ++ [⟨.symbol .rightBracket, σ'⟩])) t)
    (h : Reads depth .expression us) : ∃ index,
      postfixRest (expression (depth + 1)) target s =
        postfixRest (expression (depth + 1)) (.index target index σ) t := by
  obtain ⟨hpeek, -, hnext⟩ := Cursor.Crosses.cons_iff.mp hs
  obtain ⟨m, hm, hpeek', -, rfl⟩ := Cursor.Crosses.concat_iff.mp hnext
  obtain ⟨index, hindex⟩ := h.expression hm (stops_of_endsExpr (by rw [hpeek']; rfl))
  have hstep : suffix? (expression (depth + 1)) target s.peek = some (do
      let index ← expression (depth + 1)
      expect .rightBracket "]"
      return .index target index σ) := by
    rw [hpeek]
    rfl
  exact ⟨index, postfixRest_step (by rw [hpeek, hline]) hstep (yields_bind.mpr ⟨index, m, hindex,
    yields_expect_bind.mpr ⟨by rw [hpeek'], yields_pure.mpr ⟨rfl, rfl⟩⟩⟩) (hs.length_lt nofun)⟩

theorem reads_index (h : Reads (depth + 1) .suffixed ts) (hline : σ.line = lineAfter 0 ts)
    (hne : ts ≠ []) (h' : Reads depth .expression us) :
    Reads (depth + 1) .suffixed
      (ts ++ ⟨.symbol .leftBracket, σ⟩ :: (us ++ [⟨.symbol .rightBracket, σ'⟩])) := by
  intro s t hs
  obtain ⟨m, hm, hmore⟩ := Cursor.Crosses.append_iff.mp hs
  obtain ⟨target, htarget⟩ := h s m hm
  obtain ⟨index, hindex⟩ := postfixRest_index target (by rw [hline, hm.line_eq hne]) hmore h'
  exact ⟨_, htarget.trans hindex⟩

/-! ### Primary expressions -/

theorem reads_literal (value : Literal) : Reads (depth + 1) .primary [⟨value.lexeme, σ⟩] := by
  intro s t hs
  obtain ⟨hpeek, -, hnext⟩ := Cursor.Crosses.cons_iff.mp hs
  refine ⟨.literal value σ, yields_take_bind.mpr ?_⟩
  rw [hpeek]
  have hpure : (pure (.literal value σ) : Parser Expr).Yields s.next (.literal value σ) t :=
    yields_pure.mpr ⟨rfl, Cursor.Crosses.nil_iff.mp hnext⟩
  cases value with
  | boolean b =>
    cases b with
    | false | true => exact hpure
  | null | number | string => exact hpure

/-- A name is read as a variable. -/
theorem primary_name {name : Name} (hs : s.Crosses [⟨.identifier name, σ⟩] t) :
    (primary (depth + 1)).Yields s (.variable name σ) t := by
  obtain ⟨hpeek, -, hnext⟩ := Cursor.Crosses.cons_iff.mp hs
  refine yields_take_bind.mpr ?_
  rw [hpeek]
  exact yields_pure.mpr ⟨rfl, Cursor.Crosses.nil_iff.mp hnext⟩

theorem reads_name {name : Name} : Reads (depth + 1) .primary [⟨.identifier name, σ⟩] :=
  fun _ _ hs => ⟨_, primary_name hs⟩

theorem reads_grouping (h : Reads depth .expression ts) :
    Reads (depth + 2) .primary
      (⟨.symbol .leftParen, σ⟩ :: (ts ++ [⟨.symbol .rightParen, σ'⟩])) := by
  intro s t hs
  obtain ⟨hpeek, -, hnext⟩ := Cursor.Crosses.cons_iff.mp hs
  obtain ⟨m, hm, hpeek', -, rfl⟩ := Cursor.Crosses.concat_iff.mp hnext
  obtain ⟨inner, hinner⟩ := h.expression hm (stops_of_endsExpr (by rw [hpeek']; rfl))
  refine ⟨.grouping inner σ, yields_take_bind.mpr ?_⟩
  rw [hpeek]
  exact yields_bind.mpr ⟨inner, m, hinner, yields_expect_bind.mpr
    ⟨by rw [hpeek'], yields_pure.mpr ⟨rfl, rfl⟩⟩⟩

theorem reads_array (h : Reads depth .arguments ts) :
    Reads (depth + 2) .primary
      (⟨.symbol .leftBracket, σ⟩ :: (ts ++ [⟨.symbol .rightBracket, σ'⟩])) := by
  intro s t hs
  obtain ⟨hpeek, -, hnext⟩ := Cursor.Crosses.cons_iff.mp hs
  obtain ⟨es, hes⟩ := h .rightBracket "]" σ' s.next t (.inr rfl) hnext
  refine ⟨.array es σ, yields_take_bind.mpr ?_⟩
  rw [hpeek]
  exact yields_return.mpr ⟨es, hes, rfl⟩

theorem reads_closure (h : Reads depth .function ts) :
    Reads (depth + 1) .primary (⟨.symbol .fn, σ⟩ :: ts) := by
  intro s t hs
  obtain ⟨hpeek, -, hnext⟩ := Cursor.Crosses.cons_iff.mp hs
  obtain ⟨names, u, body, hnames, hbody⟩ := h s.next t hnext
  refine ⟨.function names body σ, yields_take_bind.mpr ?_⟩
  rw [hpeek]
  exact yields_bind.mpr ⟨names, u, hnames, yields_return.mpr ⟨body, hbody, rfl⟩⟩

/-! ### Items -/

theorem separated_last {item : List α → Parser α} {seen : List α} {x : α}
    (h : (item seen).Yields s x t) (ht : t.peek.lexeme ≠ .symbol .comma) :
    separated item seen s = .ok (seen ++ [x], t) := by
  have h : item seen s = .ok (x, t) := h
  have hnot : ¬ t.at? (.symbol .comma) = true := by simpa [Cursor.at?] using ht
  rw [separated, h]
  exact if_neg hnot

theorem separated_step {item : List α → Parser α} {seen : List α} {x : α}
    (h : (item seen).Yields s x t) (ht : t.peek.lexeme = .symbol .comma)
    (hlt : t.next.rest.length < s.rest.length) :
    separated item seen s = separated item (seen ++ [x]) t.next := by
  have h : item seen s = .ok (x, t) := h
  have hat : t.at? (.symbol .comma) = true := decide_eq_true ht
  rw [separated.eq_def item seen s, h]
  dsimp only
  rw [if_pos hat, if_pos hlt]

theorem reads_item (h : Reads depth .expression ts) : Reads depth .items ts := by
  intro seen s t hs ht hcomma
  obtain ⟨e, he⟩ := h.expression hs (stops_of_endsExpr ht)
  exact ⟨_, separated_last he hcomma⟩

theorem reads_moreItems (h : Reads depth .expression ts) (h' : Reads depth .items us) :
    Reads depth .items (ts ++ ⟨.symbol .comma, σ⟩ :: us) := by
  intro seen s t hs ht hcomma
  obtain ⟨m, hm, hmore⟩ := Cursor.Crosses.append_iff.mp hs
  obtain ⟨hpeek, hne, hnext⟩ := Cursor.Crosses.cons_iff.mp hmore
  obtain ⟨e, he⟩ := h.expression hm (stops_of_endsExpr (by rw [hpeek]; rfl))
  obtain ⟨es, hes⟩ := h' (seen ++ [e]) m.next t hnext ht hcomma
  have hlt : m.next.rest.length < s.rest.length :=
    (hm.trans (.next (by rw [hpeek]) hne)).length_lt (List.append_ne_nil_of_right_ne_nil _ nofun)
  exact ⟨es, (separated_step he (by rw [hpeek]) hlt).trans hes⟩

theorem reads_noArguments : Reads depth .arguments [] := by
  intro closing wanted σ s t _ hs
  obtain ⟨hpeek, -, hend⟩ := Cursor.Crosses.cons_iff.mp hs
  obtain rfl := Cursor.Crosses.nil_iff.mp hend
  exact ⟨[], yields_items.mpr (.inl ⟨by rw [hpeek], rfl, rfl⟩)⟩

theorem reads_arguments (hopens : OpensExpr (ts.map (·.lexeme))) (h : Reads depth .items ts) :
    Reads depth .arguments ts := by
  intro closing wanted σ s t hclosing hs
  obtain ⟨m, hm, hpeek, -, rfl⟩ := Cursor.Crosses.concat_iff.mp hs
  have hends : m.peek.lexeme.endsExpr ∧ m.peek.lexeme ≠ .symbol .comma := by
    rw [hpeek]
    obtain rfl | rfl := hclosing
    · exact ⟨rfl, nofun⟩
    · exact ⟨rfl, nofun⟩
  obtain ⟨es, hes⟩ := h [] s m hm hends.1 hends.2
  obtain ⟨l, rest, hmap, hl⟩ := hopens.opens
  have hnot : s.peek.lexeme ≠ .symbol closing := by
    rw [hm.peek_lexeme (by rw [hmap]; rfl)]
    rintro rfl
    obtain rfl | rfl := hclosing
    · contradiction
    · contradiction
  exact ⟨es, yields_items.mpr (.inr ⟨hnot, m, hes, by rw [hpeek], rfl⟩)⟩

/-! ### Functions and blocks -/

theorem separated_parameters {seen more : List Name} (hnames : (seen ++ more).Nodup)
    (hmore : more ≠ []) (hls : ts.map (·.lexeme) = commas (more.map fun name => [.identifier name]))
    (hs : s.Crosses ts t) (ht : t.peek.lexeme ≠ .symbol .comma) :
    separated parameter seen s = .ok (seen ++ more, t) := by
  induction more generalizing seen ts s with
  | nil => exact absurd rfl hmore
  | cons name more ih =>
    have hnot : name ∉ seen := fun hmem =>
      (List.nodup_append.mp hnames).2.2 name hmem name List.mem_cons_self rfl
    cases more with
    | nil =>
      rw [List.map_singleton, commas_singleton] at hls
      obtain ⟨⟨_, σ⟩, rfl, rfl⟩ := List.map_eq_singleton_iff.mp hls
      obtain ⟨hpeek, -, hend⟩ := Cursor.Crosses.cons_iff.mp hs
      obtain rfl := Cursor.Crosses.nil_iff.mp hend
      exact separated_last (yields_parameter.mpr ⟨by rw [hpeek], hnot, rfl⟩) ht
    | cons name' more =>
      rw [List.map_cons, List.map_cons, commas_cons_cons] at hls
      obtain ⟨⟨_, σ⟩, rest, rfl, rfl, hcomma⟩ := List.map_eq_cons_iff.mp hls
      obtain ⟨⟨_, σ'⟩, rest, rfl, rfl, hrest⟩ := List.map_eq_cons_iff.mp hcomma
      obtain ⟨hpeek, -, hnext⟩ := Cursor.Crosses.cons_iff.mp hs
      obtain ⟨hpeek', hne, hnext'⟩ := Cursor.Crosses.cons_iff.mp hnext
      rw [separated_step (yields_parameter.mpr ⟨by rw [hpeek], hnot, rfl⟩) (by rw [hpeek']) ?_,
        ih ?_ nofun hrest hnext', List.append_assoc, List.singleton_append]
      · rwa [List.append_assoc, List.singleton_append]
      · rw [hs.length, hnext'.length]
        simp only [List.length_cons]
        omega

theorem parameters_yields {names : List Name} (hnames : names.Nodup)
    (hls : ts.map (·.lexeme) = spellParameters names) (hs : s.Crosses ts t) :
    parameters.Yields s names t := by
  obtain ⟨⟨_, σ⟩, rest, rfl, rfl, hrest⟩ := List.map_eq_cons_iff.mp hls
  obtain ⟨ts, last, rfl, hts, hlast⟩ := List.map_eq_append_iff.mp hrest
  obtain ⟨⟨_, σ'⟩, rfl, rfl⟩ := List.map_eq_singleton_iff.mp hlast
  obtain ⟨hpeek, -, hnext⟩ := Cursor.Crosses.cons_iff.mp hs
  obtain ⟨m, hm, hpeek', -, rfl⟩ := Cursor.Crosses.concat_iff.mp hnext
  refine yields_expect_bind.mpr ⟨by rw [hpeek], yields_items.mpr ?_⟩
  by_cases hnone : names = []
  · subst hnone
    obtain rfl := List.map_eq_nil_iff.mp hts
    obtain hm := Cursor.Crosses.nil_iff.mp hm
    exact .inl ⟨by rw [hm, hpeek'], rfl, by rw [hm]⟩
  · refine .inr ⟨?_, m, separated_parameters hnames hnone hts hm (by rw [hpeek']; nofun),
      by rw [hpeek'], rfl⟩
    obtain ⟨name, more, rfl⟩ := List.exists_cons_of_ne_nil hnone
    have hfirst : (ts.map (·.lexeme)).head? = some (.identifier name) := by
      rw [hts]
      cases more <;> rfl
    rw [hm.peek_lexeme hfirst]
    nofun

theorem reads_function {names : List Name} (hnames : names.Nodup)
    (hls : ts.map (·.lexeme) = spellParameters names) (h : Reads depth .block us) :
    Reads depth .function (ts ++ us) := by
  intro s t hs
  obtain ⟨m, hm, hmore⟩ := Cursor.Crosses.append_iff.mp hs
  obtain ⟨body, hbody⟩ := h m t hmore
  exact ⟨names, m, body, parameters_yields hnames hls hm, hbody⟩

theorem reads_block (h : Reads depth .statements ts) :
    Reads (depth + 1) .block (⟨.symbol .leftBrace, σ⟩ :: (ts ++ [⟨.symbol .rightBrace, σ'⟩])) := by
  intro s t hs
  obtain ⟨hpeek, -, hnext⟩ := Cursor.Crosses.cons_iff.mp hs
  obtain ⟨m, hm, hpeek', -, rfl⟩ := Cursor.Crosses.concat_iff.mp hnext
  obtain ⟨body, hbody⟩ := h (· = .symbol .rightBrace) s.next m (fun _ => of_decide_eq_true) hm
    (.inl (by rw [hpeek']; rfl))
  exact ⟨body, yields_expect_bind.mpr ⟨by rw [hpeek], yields_bind.mpr ⟨body, m,
    many_eq_ok_iff.mpr hbody, yields_expect_bind.mpr ⟨by rw [hpeek'], yields_pure.mpr ⟨rfl, rfl⟩⟩⟩⟩⟩

/-! ### Branches -/

/-- A branch is read up to its alternative. -/
theorem branchRest_yields (h : Reads depth .expression ts)
    (hopens : (us.map (·.lexeme)).head? = some (.symbol .leftBrace))
    (h' : Reads (depth + 1) .block us) {span : Span} {found : Option (List Stmt)}
    (hs : s.Crosses (ts ++ us) u)
    (hrest : (alternative (branchRest (depth + 1)) (block (depth + 1))).Yields u found t) :
    ∃ x, (branchRest (depth + 2) span).Yields s x t := by
  obtain ⟨m, hm, hmore⟩ := Cursor.Crosses.append_iff.mp hs
  obtain ⟨condition, hcondition⟩ :=
    h.expression hm (stops_of_endsExpr (by rw [hmore.peek_lexeme hopens]; rfl))
  obtain ⟨consequent, hconsequent⟩ := h' m u hmore
  exact ⟨_, yields_bind.mpr ⟨condition, m, hcondition, yields_bind.mpr ⟨consequent, u, hconsequent,
    yields_return.mpr ⟨found, hrest, rfl⟩⟩⟩⟩

theorem reads_ifThen (h : Reads depth .expression ts)
    (hopens : (us.map (·.lexeme)).head? = some (.symbol .leftBrace))
    (h' : Reads (depth + 1) .block us) :
    Reads (depth + 2) .branch (⟨.symbol .if, σ⟩ :: (ts ++ us)) := by
  intro span s t hs ht
  obtain ⟨-, -, hnext⟩ := Cursor.Crosses.cons_iff.mp hs
  have hnone : (alternative (branchRest (depth + 1)) (block (depth + 1))).Yields t none t :=
    yields_bind.mpr ⟨false, t, yields_accept.mpr (.inr ⟨ht, rfl, rfl⟩), yields_pure.mpr ⟨rfl, rfl⟩⟩
  exact branchRest_yields h hopens h' hnext hnone

theorem reads_ifElse (h : Reads depth .expression ts)
    (hopens : (us.map (·.lexeme)).head? = some (.symbol .leftBrace))
    (h' : Reads (depth + 1) .block us)
    (hopens' : (vs.map (·.lexeme)).head? = some (.symbol .leftBrace))
    (h'' : Reads (depth + 1) .block vs) :
    Reads (depth + 2) .branch (⟨.symbol .if, σ⟩ :: (ts ++ (us ++ ⟨.symbol .else, σ'⟩ :: vs))) := by
  intro span s t hs ht
  obtain ⟨-, -, hnext⟩ := Cursor.Crosses.cons_iff.mp hs
  rw [← List.append_assoc] at hnext
  obtain ⟨m, hm, hmore⟩ := Cursor.Crosses.append_iff.mp hnext
  obtain ⟨hpeek, -, hrest⟩ := Cursor.Crosses.cons_iff.mp hmore
  obtain ⟨body, hbody⟩ := h'' m.next t hrest
  have hif : m.next.peek.lexeme ≠ .symbol .if := by
    rw [hrest.peek_lexeme hopens']
    nofun
  have hsome : (alternative (branchRest (depth + 1)) (block (depth + 1))).Yields m (some body) t :=
    yields_bind.mpr ⟨true, m.next, yields_accept.mpr (.inl ⟨by rw [hpeek], rfl, rfl⟩),
      yields_peek_bind.mpr (yields_bind.mpr ⟨false, m.next,
        yields_accept.mpr (.inr ⟨hif, rfl, rfl⟩), yields_return.mpr ⟨body, hbody, rfl⟩⟩)⟩
  exact branchRest_yields h hopens h' hm hsome

theorem reads_elseIf (h : Reads depth .expression ts)
    (hopens : (us.map (·.lexeme)).head? = some (.symbol .leftBrace))
    (h' : Reads (depth + 1) .block us)
    (hopens' : (vs.map (·.lexeme)).head? = some (.symbol .if))
    (h'' : Reads (depth + 1) .branch vs) :
    Reads (depth + 2) .branch (⟨.symbol .if, σ⟩ :: (ts ++ (us ++ ⟨.symbol .else, σ'⟩ :: vs))) := by
  intro span s t hs ht
  obtain ⟨-, -, hnext⟩ := Cursor.Crosses.cons_iff.mp hs
  rw [← List.append_assoc] at hnext
  obtain ⟨m, hm, hmore⟩ := Cursor.Crosses.append_iff.mp hnext
  obtain ⟨hpeek, -, hrest⟩ := Cursor.Crosses.cons_iff.mp hmore
  obtain ⟨x, hx⟩ := h'' m.next.peek.span m.next t hrest ht
  have hsome : (alternative (branchRest (depth + 1)) (block (depth + 1))).Yields m (some [x]) t :=
    yields_bind.mpr ⟨true, m.next, yields_accept.mpr (.inl ⟨by rw [hpeek], rfl, rfl⟩),
      yields_peek_bind.mpr (yields_bind.mpr ⟨true, m.next.next,
        yields_accept.mpr (.inl ⟨hrest.peek_lexeme hopens', rfl, rfl⟩),
        yields_return.mpr ⟨x, hx, rfl⟩⟩)⟩
  exact branchRest_yields h hopens h' hm hsome

/-! ### Statements that end in expressions -/

theorem binding_yields {name : Name} (h : Reads depth .expression ts)
    (hs : s.Crosses (⟨.identifier name, σ⟩ :: ⟨.symbol .equals, σ'⟩ :: ts) t)
    (ht : Stops operators t) : ∃ e, (binding (expression (depth + 1))).Yields s (name, e) t := by
  obtain ⟨hpeek, -, hnext⟩ := Cursor.Crosses.cons_iff.mp hs
  obtain ⟨hpeek', -, hnext'⟩ := Cursor.Crosses.cons_iff.mp hnext
  obtain ⟨e, he⟩ := h.expression hnext' ht
  exact ⟨e, yields_identifier_bind.mpr ⟨name, by rw [hpeek], yields_expect_bind.mpr
    ⟨by rw [hpeek'], yields_return.mpr ⟨e, he, rfl⟩⟩⟩⟩

theorem reads_declare {name : Name} {σ'' : Span} (h : Reads depth .expression ts) :
    Reads (depth + 2) (.statement .expression)
      (⟨.symbol .let, σ⟩ :: ⟨.identifier name, σ'⟩ :: ⟨.symbol .equals, σ''⟩ :: ts) := by
  intro s t hs ht
  obtain ⟨hpeek, -, hnext⟩ := Cursor.Crosses.cons_iff.mp hs
  obtain ⟨e, he⟩ := binding_yields h hnext ht.1
  refine ⟨.declare name e σ, yields_peek_bind.mpr ?_⟩
  rw [hpeek]
  exact yields_discard_take_bind.mpr (yields_return.mpr ⟨_, he, rfl⟩)

theorem reads_export {name : Name} {σ'' : Span} (h : Reads depth .expression ts) :
    Reads (depth + 2) (.statement .expression)
      (⟨.symbol .export, σ⟩ :: ⟨.identifier name, σ'⟩ :: ⟨.symbol .equals, σ''⟩ :: ts) := by
  intro s t hs ht
  obtain ⟨hpeek, -, hnext⟩ := Cursor.Crosses.cons_iff.mp hs
  obtain ⟨hpeek', -, -⟩ := Cursor.Crosses.cons_iff.mp hnext
  obtain ⟨e, he⟩ := binding_yields h hnext ht.1
  refine ⟨.publish name e σ, yields_peek_bind.mpr ?_⟩
  rw [hpeek]
  exact yields_discard_take_bind.mpr (yields_bind.mpr ⟨false, s.next,
    yields_accept.mpr (.inr ⟨by rw [hpeek']; nofun, rfl, rfl⟩), yields_return.mpr ⟨_, he, rfl⟩⟩)

theorem reads_give (hopens : OpensExpr (ts.map (·.lexeme))) (h : Reads depth .expression ts) :
    Reads (depth + 2) (.statement .expression) (⟨.symbol .return, σ⟩ :: ts) := by
  intro s t hs ht
  obtain ⟨hpeek, -, hnext⟩ := Cursor.Crosses.cons_iff.mp hs
  obtain ⟨e, he⟩ := h.expression hnext ht.1
  obtain ⟨l, rest, hmap, hl⟩ := hopens.opens
  refine ⟨.give (some e) σ, yields_peek_bind.mpr ?_⟩
  rw [hpeek]
  refine yields_discard_take_bind.mpr (yields_peek_bind.mpr ?_)
  rw [hnext.peek_lexeme (by rw [hmap]; rfl)]
  split
  · contradiction
  · contradiction
  · contradiction
  · exact yields_return.mpr ⟨e, he, rfl⟩

/-- No expression begins with the keyword of a statement, or with `fn` and a name. -/
theorem bareStatement_yields {x : Stmt} (hopens : OpensExpr (ts.map (·.lexeme)))
    (hs : s.Crosses ts u)
    (h : (expressionOrAssignment (expression depth) s.peek.span).Yields s x t) :
    (bareStatement (depth + 1)).Yields s x t := by
  obtain ⟨l, rest, hmap, hl⟩ := hopens.opens
  have hpeek : s.peek.lexeme = l := hs.peek_lexeme (by rw [hmap]; rfl)
  have hother {symbol : Symbol} (h : s.peek.lexeme = .symbol symbol) :
      (Lexeme.symbol symbol).opensExpr := by
    rw [← h, hpeek]
    exact hl
  refine yields_peek_bind.mpr ?_
  split
  · next heq => nomatch hother heq
  · next heq => nomatch hother heq
  · next heq => nomatch hother heq
  · next heq => nomatch hother heq
  · next heq => nomatch hother heq
  · next heq => nomatch hother heq
  · refine yields_get_bind.mpr ?_
    dsimp only
    split
    · next name hfn hsecond =>
      obtain rfl := hpeek.symm.trans hfn
      obtain ⟨rest', rfl⟩ := hopens.notNamed rest hmap
      obtain ⟨first, ts, rfl, -, hts⟩ := List.map_eq_cons_iff.mp hmap
      obtain ⟨second, ts, rfl, hparen, -⟩ := List.map_eq_cons_iff.mp hts
      have hrest : s.second = second := by
        rw [Cursor.second, hs.rest]
        rfl
      rw [hrest, hparen] at hsecond
      contradiction
    · exact h

theorem reads_value (hopens : OpensExpr (ts.map (·.lexeme))) (h : Reads depth .expression ts) :
    Reads (depth + 2) (.statement .expression) ts := by
  intro s t hs ht
  obtain ⟨e, he⟩ := h.expression hs ht.1
  refine ⟨.expression e s.peek.span, bareStatement_yields hopens hs (yields_bind.mpr
    ⟨e, t, he, yields_peek_bind.mpr (yields_bind.mpr ⟨false, t, ?_, yields_pure.mpr ⟨rfl, rfl⟩⟩)⟩)⟩
  exact yields_accept.mpr (.inr ⟨ht.2, rfl, rfl⟩)

/-- What can be assigned to is assigned to. -/
theorem assignment_yields {target : Expr} (hopens : OpensExpr (ts.map (·.lexeme)))
    (hs : s.Crosses ts u) (htarget : (unary depth).Yields s target u)
    (hassign : ∀ value span, ∃ x, assign? target value span = some x)
    (hmore : u.Crosses (⟨.symbol .equals, σ⟩ :: us) t) (h : Reads depth .expression us)
    (ht : Stops operators t) : ∃ x, (bareStatement (depth + 2)).Yields s x t := by
  obtain ⟨hpeek, -, hnext⟩ := Cursor.Crosses.cons_iff.mp hmore
  obtain ⟨value, hvalue⟩ := h.expression hnext ht
  obtain ⟨x, hx⟩ := hassign value s.peek.span
  have hequals : u.peek.lexeme = .symbol .equals := by rw [hpeek]
  have hexpr := expression_yields htarget (stops_of_endsExpr (by rw [hequals]; rfl))
  refine ⟨x, bareStatement_yields hopens hs (yields_bind.mpr ⟨target, u, hexpr,
    yields_peek_bind.mpr (yields_bind.mpr ⟨true, u.next, yields_accept.mpr (.inl
      ⟨hequals, rfl, rfl⟩), yields_bind.mpr ⟨value, t, hvalue, ?_⟩⟩)⟩)⟩
  rw [hx]
  exact yields_pure.mpr ⟨rfl, rfl⟩

theorem reads_assign {name : Name} (h : Reads (depth + 2) .expression ts) :
    Reads (depth + 4) (.statement .expression)
      (⟨.identifier name, σ⟩ :: ⟨.symbol .equals, σ'⟩ :: ts) := by
  intro s t hs ht
  rw [← List.singleton_append] at hs
  obtain ⟨m, hm, hmore⟩ := Cursor.Crosses.append_iff.mp hs
  obtain ⟨hpeek, -, -⟩ := Cursor.Crosses.cons_iff.mp hm
  obtain ⟨hpeek', -, -⟩ := Cursor.Crosses.cons_iff.mp hmore
  have hsettled : m.Settled := (stops_of_endsExpr (by rw [hpeek']; rfl)).settled
  have hname : (unary (depth + 2)).Yields s (.variable name σ) m :=
    unary_yields (by rw [hpeek]; rfl)
      ((bind_of_yields (primary_name hm) _).trans (postfixRest_stop _ _ hsettled))
  have hopens : OpensExpr ([⟨.identifier name, σ⟩].map Token.lexeme) := .of_cons rfl nofun
  exact assignment_yields hopens hm hname (fun _ _ => ⟨_, rfl⟩) hmore h ht.1

theorem reads_assignIndex {σ'' : Span} (hopens : OpensExpr (ts.map (·.lexeme)))
    (hsign : ∀ l ∈ (ts.map (·.lexeme)).head?, l.isSign = false) (hne : ts ≠ [])
    (h : Reads (depth + 1) .place ts) (hline : σ.line = lineAfter 0 ts)
    (h' : Reads depth .expression us) (h'' : Reads (depth + 2) .expression vs) :
    Reads (depth + 4) (.statement .expression) (ts ++ ⟨.symbol .leftBracket, σ⟩ ::
      (us ++ ⟨.symbol .rightBracket, σ'⟩ :: ⟨.symbol .equals, σ''⟩ :: vs)) := by
  intro s t hs ht
  have hsplit : ts ++ ⟨.symbol .leftBracket, σ⟩ ::
      (us ++ ⟨.symbol .rightBracket, σ'⟩ :: ⟨.symbol .equals, σ''⟩ :: vs) =
      (ts ++ ⟨.symbol .leftBracket, σ⟩ :: (us ++ [⟨.symbol .rightBracket, σ'⟩])) ++
        ⟨.symbol .equals, σ''⟩ :: vs := by simp
  rw [hsplit] at hs
  obtain ⟨m, hm, hmore⟩ := Cursor.Crosses.append_iff.mp hs
  obtain ⟨hpeek, -, -⟩ := Cursor.Crosses.cons_iff.mp hmore
  have hsettled : m.Settled := (stops_of_endsExpr (by rw [hpeek]; rfl)).settled
  obtain ⟨u, hu, hindexed⟩ := Cursor.Crosses.append_iff.mp hm
  obtain ⟨place, hplace⟩ := h s u hu
  obtain ⟨index, hindex⟩ := postfixRest_index place (by rw [hline, hu.line_eq hne]) hindexed h'
  obtain ⟨first, ts, rfl⟩ := List.exists_cons_of_ne_nil hne
  have hfirst : s.peek.lexeme.isSign = false := by
    rw [hu.peek_lexeme rfl]
    exact hsign _ rfl
  have htarget : (unary (depth + 2)).Yields s (.index place index σ) m :=
    unary_yields hfirst (hplace.trans (hindex.trans (postfixRest_stop _ _ hsettled)))
  have hopens' := hopens.append
    ((⟨.symbol .leftBracket, σ⟩ :: (us ++ [⟨.symbol .rightBracket, σ'⟩])).map Token.lexeme)
  rw [← List.map_append] at hopens'
  exact assignment_yields hopens' hm htarget (fun _ _ => ⟨_, rfl⟩) hmore h'' ht.1

/-! ### Statements that end otherwise -/

theorem functionRest_yields {name : Name} (h : Reads depth .function ts) (exported : Bool)
    (span : Span) (hs : s.Crosses (⟨.identifier name, σ⟩ :: ts) t) :
    ∃ x, (functionRest (depth + 1) exported span).Yields s x t := by
  obtain ⟨hpeek, -, hnext⟩ := Cursor.Crosses.cons_iff.mp hs
  obtain ⟨names, u, body, hnames, hbody⟩ := h s.next t hnext
  exact ⟨_, yields_identifier_bind.mpr ⟨name, by rw [hpeek], yields_bind.mpr ⟨names, u, hnames,
    yields_return.mpr ⟨body, hbody, rfl⟩⟩⟩⟩

theorem reads_declareFunction {name : Name} (h : Reads depth .function ts) :
    Reads (depth + 2) (.statement .closed)
      (⟨.symbol .fn, σ⟩ :: ⟨.identifier name, σ'⟩ :: ts) := by
  intro s t hs _
  obtain ⟨hpeek, -, hnext⟩ := Cursor.Crosses.cons_iff.mp hs
  obtain ⟨x, hx⟩ := functionRest_yields h false σ hnext
  have hsecond : s.second = ⟨.identifier name, σ'⟩ := by
    rw [Cursor.second, hs.rest]
    rfl
  refine ⟨x, yields_peek_bind.mpr ?_⟩
  rw [hpeek]
  refine yields_get_bind.mpr ?_
  rw [hsecond]
  exact yields_discard_take_bind.mpr hx

theorem reads_exportFunction {name : Name} {σ'' : Span} (h : Reads depth .function ts) :
    Reads (depth + 2) (.statement .closed)
      (⟨.symbol .export, σ⟩ :: ⟨.symbol .fn, σ'⟩ :: ⟨.identifier name, σ''⟩ :: ts) := by
  intro s t hs _
  obtain ⟨hpeek, -, hnext⟩ := Cursor.Crosses.cons_iff.mp hs
  obtain ⟨hpeek', -, hrest⟩ := Cursor.Crosses.cons_iff.mp hnext
  obtain ⟨x, hx⟩ := functionRest_yields h true σ hrest
  refine ⟨x, yields_peek_bind.mpr ?_⟩
  rw [hpeek]
  exact yields_discard_take_bind.mpr (yields_bind.mpr ⟨true, s.next.next,
    yields_accept.mpr (.inl ⟨by rw [hpeek'], rfl, rfl⟩), hx⟩)

theorem reads_branch (hopens : (ts.map (·.lexeme)).head? = some (.symbol .if))
    (h : Reads depth .branch ts) : Reads (depth + 1) (.statement .closed) ts := by
  intro s t hs ht
  obtain ⟨x, hx⟩ := h s.peek.span s t hs ht
  refine ⟨x, yields_peek_bind.mpr ?_⟩
  rw [hs.peek_lexeme hopens]
  exact yields_discard_take_bind.mpr hx

theorem reads_loop (h : Reads depth .block ts) :
    Reads (depth + 1) (.statement .closed) (⟨.symbol .loop, σ⟩ :: ts) := by
  intro s t hs _
  obtain ⟨hpeek, -, hnext⟩ := Cursor.Crosses.cons_iff.mp hs
  obtain ⟨body, hbody⟩ := h s.next t hnext
  refine ⟨.loop body σ, yields_peek_bind.mpr ?_⟩
  rw [hpeek]
  exact yields_discard_take_bind.mpr (yields_return.mpr ⟨body, hbody, rfl⟩)

theorem reads_leave : Reads (depth + 1) (.statement .closed) [⟨.symbol .break, σ⟩] := by
  intro s t hs _
  obtain ⟨hpeek, -, hnext⟩ := Cursor.Crosses.cons_iff.mp hs
  refine ⟨.leave σ, yields_peek_bind.mpr ?_⟩
  rw [hpeek]
  exact yields_discard_take_bind.mpr (yields_pure.mpr ⟨rfl, Cursor.Crosses.nil_iff.mp hnext⟩)

theorem reads_giveNothing : Reads (depth + 1) (.statement .bareReturn) [⟨.symbol .return, σ⟩] := by
  intro s t hs ht
  obtain ⟨hpeek, -, hnext⟩ := Cursor.Crosses.cons_iff.mp hs
  obtain hend := Cursor.Crosses.nil_iff.mp hnext
  refine ⟨.give none σ, yields_peek_bind.mpr ?_⟩
  rw [hpeek]
  refine yields_discard_take_bind.mpr (yields_peek_bind.mpr ?_)
  rw [hend]
  have hpure : (pure (.give none σ) : Parser Stmt).Yields t (.give none σ) t :=
    yields_pure.mpr ⟨rfl, rfl⟩
  rcases ht with hl | hl | hl <;> rw [hl] <;> exact hpure

/-! ### Statements one behind the other -/

/-- Nothing goes on with a statement in front of a semicolon, a closing brace or the end. -/
theorem admits_of_lexeme (e : StatementEnd)
    (h : t.peek.lexeme = .symbol .semicolon ∨ t.peek.lexeme = .symbol .rightBrace ∨
      t.peek.lexeme = .endOfInput) : Admits e t := by
  have hall : t.peek.lexeme.opensSuffix = false ∧
      (∀ op ∈ operators.flatten, t.peek.lexeme ≠ .symbol op) ∧
        t.peek.lexeme ≠ .symbol .else ∧ t.peek.lexeme ≠ .symbol .equals := by
    rcases h with h | h | h <;> rw [h] <;> decide
  cases e with
  | closed => exact hall.2.2.1
  | expression =>
    exact ⟨⟨fun hs => (nomatch hall.1.symm.trans hs.1), hall.2.1⟩, hall.2.2.2⟩
  | bareReturn => exact h

/-- What begins a statement goes on with none, if the eager grammar lets it follow. -/
theorem admits_of_follows {e : StatementEnd} (hopens : t.peek.lexeme.opensStmt)
    (h : eager.follows e t.line t.peek) : Admits e t := by
  have hnone : ∀ op ∈ operators.flatten, (Lexeme.symbol op).opensStmt = false ∨ op = .minus := by
    decide
  have hother {symbol : Symbol} (hsymbol : (Lexeme.symbol symbol).opensStmt = false) :
      t.peek.lexeme ≠ .symbol symbol := fun hl => by
    rw [hl, hsymbol] at hopens
    contradiction
  cases e with
  | closed => exact hother rfl
  | expression =>
    refine ⟨⟨h.1, fun op hop => ?_⟩, hother rfl⟩
    rcases hnone op hop with hop | rfl
    · exact hother hop
    · exact h.2
  | bareReturn => exact h.elim

theorem statement_yields {e : StatementEnd} (h : Reads depth (.statement e) ts)
    (hs : s.Crosses ts u) (hu : Admits e u) {found : Bool}
    (hsemicolon : (accept (.symbol .semicolon)).Yields u found t) :
    ∃ x, (statement (depth + 1)).Yields s x t := by
  obtain ⟨x, hx⟩ := h s u hs hu
  exact ⟨x, yields_bind.mpr ⟨x, u, hx, yields_bind.mpr ⟨⟨⟩, t,
    yields_discard.mpr ⟨found, hsemicolon⟩, yields_pure.mpr ⟨rfl, rfl⟩⟩⟩⟩

/-- Statements go on with a statement that is read. -/
theorem manyYield_cons {stop : Lexeme → Bool} {x : Stmt}
    (hstop : ∀ l, stop l = true → l = .symbol .rightBrace) (hopens : s.peek.lexeme.opensStmt)
    (hlt : u.rest.length < s.rest.length) (hx : (statement depth).Yields s x u)
    (h : ∃ xs, ManyYield stop (statement depth) u xs t) :
    ∃ xs, ManyYield stop (statement depth) s xs t := by
  obtain ⟨xs, hxs⟩ := h
  have hgo : stop s.peek.lexeme = false := by
    rw [Bool.eq_false_iff]
    intro hl
    rw [hstop _ hl] at hopens
    contradiction
  have hend : s.peek.lexeme ≠ .endOfInput := by
    intro hl
    rw [hl] at hopens
    contradiction
  exact ⟨x :: xs, .goes hgo hend hx hlt hxs⟩

theorem reads_nothing : Reads depth .statements [] := by
  intro stop s t _ hs hend
  obtain rfl := Cursor.Crosses.nil_iff.mp hs
  exact ⟨[], .stops hend⟩

theorem reads_ended {e : StatementEnd} (hopens : ∃ l ∈ (ts.map (·.lexeme)).head?, l.opensStmt)
    (h : Reads depth (.statement e) ts) (h' : Reads (depth + 1) .statements us) :
    Reads (depth + 1) .statements (ts ++ ⟨.symbol .semicolon, σ⟩ :: us) := by
  intro stop s t hstop hs hend
  obtain ⟨m, hm, hmore⟩ := Cursor.Crosses.append_iff.mp hs
  obtain ⟨hpeek, hne, hnext⟩ := Cursor.Crosses.cons_iff.mp hmore
  have hl : m.peek.lexeme = .symbol .semicolon := by rw [hpeek]
  obtain ⟨x, hx⟩ := statement_yields h hm (admits_of_lexeme e (.inl hl))
    (yields_accept.mpr (.inl ⟨hl, rfl, rfl⟩))
  obtain ⟨l, hfirst, hopens⟩ := hopens
  have hpeek' : s.peek.lexeme.opensStmt := hm.peek_lexeme hfirst ▸ hopens
  have hlt := (hm.trans (.next hl hne)).length_lt (List.append_ne_nil_of_right_ne_nil _ nofun)
  exact manyYield_cons hstop hpeek' hlt hx (h' stop m.next t hstop hnext hend)

theorem reads_joined {e : StatementEnd} (hne : ts ≠ [])
    (hopens : ∃ l ∈ (ts.map (·.lexeme)).head?, l.opensStmt)
    (hopens' : ∀ l ∈ (us.map (·.lexeme)).head?, l.opensStmt)
    (hf : ∀ u ∈ us.head?, eager.follows e (lineAfter 0 ts) u)
    (h : Reads depth (.statement e) ts) (h' : Reads (depth + 1) .statements us) :
    Reads (depth + 1) .statements (ts ++ us) := by
  intro stop s t hstop hs hend
  obtain ⟨m, hm, hmore⟩ := Cursor.Crosses.append_iff.mp hs
  have hbehind : Admits e m ∧ m.peek.lexeme ≠ .symbol .semicolon := by
    cases us with
    | nil =>
      obtain rfl := Cursor.Crosses.nil_iff.mp hmore
      have hends : m.peek.lexeme = .symbol .rightBrace ∨ m.peek.lexeme = .endOfInput :=
        hend.imp_left (hstop _)
      refine ⟨admits_of_lexeme e (.inr hends), ?_⟩
      rcases hends with hl | hl <;> rw [hl] <;> nofun
    | cons first us =>
      have hpeek : m.peek = first := hmore.peek
      have hfirst : first.lexeme.opensStmt := hopens' _ rfl
      have hfollows := hf _ rfl
      rw [← hpeek] at hfirst hfollows
      rw [← hm.line_eq hne] at hfollows
      refine ⟨admits_of_follows hfirst hfollows, fun hl => ?_⟩
      rw [hl] at hfirst
      contradiction
  obtain ⟨x, hx⟩ := statement_yields h hm hbehind.1
    (yields_accept.mpr (.inr ⟨hbehind.2, rfl, rfl⟩))
  obtain ⟨l, hfirst, hopens⟩ := hopens
  have hpeek : s.peek.lexeme.opensStmt := hm.peek_lexeme hfirst ▸ hopens
  exact manyYield_cons hstop hpeek (hm.length_lt hne) hx (h' stop m t hstop hmore hend)

/-! ## All phrases -/

/-- How much more than the bound on nesting five times the length of a phrase may be. -/
def slack : Phrase → Nat
  | .suffixed | .primary | .place | .function | .block | .branch => 4
  | .chain _ | .unary | .items | .arguments => 3
  | .statement _ => 1
  | .statements => 0

/-- A phrase is read under a bound on nesting of five times its length. -/
theorem reads_of_derives {c : Phrase} (h : eager.Derives c ts) (depth : Nat)
    (hdepth : 5 * ts.length ≤ depth + slack c) : Reads depth c ts := by
  induction h generalizing depth with simp only [List.length_append, List.length_cons,
    List.length_nil, slack] at *
  | operand _ ih => exact fun _ => ih depth hdepth
  | single _ ih => exact reads_single (ih depth hdepth)
  | more _ hop _ ih ih' => exact reads_more (ih depth (by omega)) hop (ih' depth (by omega))
  | signed hop _ ih =>
    obtain ⟨rest, rfl⟩ := Nat.exists_eq_add_of_le' (show 1 ≤ depth by omega)
    exact reads_signed hop (ih rest (by omega))
  | unsigned h ih =>
    have hpos := List.length_pos_iff.mpr h.suffixed_ne_nil
    obtain ⟨rest, rfl⟩ := Nat.exists_eq_add_of_le' (show 1 ≤ depth by omega)
    exact reads_unsigned h.begins.2 h.suffixed_ne_nil (ih rest (by omega))
  | plain _ ih => exact reads_plain (ih depth hdepth)
  | call h hline _ ih ih' =>
    obtain ⟨rest, rfl⟩ := Nat.exists_eq_add_of_le' (show 1 ≤ depth by omega)
    exact reads_call (ih (rest + 1) (by omega)) hline h.suffixed_ne_nil (ih' rest (by omega))
  | index h hline _ ih ih' =>
    obtain ⟨rest, rfl⟩ := Nat.exists_eq_add_of_le' (show 1 ≤ depth by omega)
    exact reads_index (ih (rest + 1) (by omega)) hline h.suffixed_ne_nil (ih' rest (by omega))
  | placeIndex h hline _ ih ih' =>
    obtain ⟨rest, rfl⟩ := Nat.exists_eq_add_of_le' (show 1 ≤ depth by omega)
    exact reads_index (ih (rest + 1) (by omega)) hline h.suffixed_of_place.suffixed_ne_nil
      (ih' rest (by omega))
  | placeAny _ _ ih => exact ih depth hdepth
  | literal =>
    obtain ⟨rest, rfl⟩ := Nat.exists_eq_add_of_le' (show 1 ≤ depth by omega)
    exact reads_literal _
  | name =>
    obtain ⟨rest, rfl⟩ := Nat.exists_eq_add_of_le' (show 1 ≤ depth by omega)
    exact reads_name
  | placeName =>
    obtain ⟨rest, rfl⟩ := Nat.exists_eq_add_of_le' (show 1 ≤ depth by omega)
    exact reads_plain reads_name
  | grouping _ ih =>
    obtain ⟨rest, rfl⟩ := Nat.exists_eq_add_of_le' (show 2 ≤ depth by omega)
    exact reads_grouping (ih rest (by omega))
  | array _ ih =>
    obtain ⟨rest, rfl⟩ := Nat.exists_eq_add_of_le' (show 2 ≤ depth by omega)
    exact reads_array (ih rest (by omega))
  | closure _ ih =>
    obtain ⟨rest, rfl⟩ := Nat.exists_eq_add_of_le' (show 1 ≤ depth by omega)
    exact reads_closure (ih rest (by omega))
  | item _ ih => exact reads_item (ih depth hdepth)
  | moreItems _ _ ih ih' => exact reads_moreItems (ih depth (by omega)) (ih' depth (by omega))
  | noArguments => exact reads_noArguments
  | arguments h ih => exact reads_arguments h.begins (ih depth hdepth)
  | function hnames hps _ ih => exact reads_function hnames hps (ih depth (by omega))
  | block _ ih =>
    obtain ⟨rest, rfl⟩ := Nat.exists_eq_add_of_le' (show 1 ≤ depth by omega)
    exact reads_block (ih rest (by omega))
  | ifThen h h' ih ih' =>
    have hpos := List.length_pos_iff.mpr h.chain_ne_nil
    obtain ⟨rest, rfl⟩ := Nat.exists_eq_add_of_le' (show 2 ≤ depth by omega)
    exact reads_ifThen (ih rest (by omega)) h'.begins (ih' (rest + 1) (by omega))
  | ifElse _ h' h'' ih ih' ih'' =>
    obtain ⟨rest, rfl⟩ := Nat.exists_eq_add_of_le' (show 2 ≤ depth by omega)
    exact reads_ifElse (ih rest (by omega)) h'.begins (ih' (rest + 1) (by omega)) h''.begins
      (ih'' (rest + 1) (by omega))
  | elseIf _ h' h'' ih ih' ih'' =>
    obtain ⟨rest, rfl⟩ := Nat.exists_eq_add_of_le' (show 2 ≤ depth by omega)
    exact reads_elseIf (ih rest (by omega)) h'.begins (ih' (rest + 1) (by omega)) h''.begins
      (ih'' (rest + 1) (by omega))
  | assignIndex h hline _ _ ih ih' ih'' =>
    obtain ⟨rest, rfl⟩ := Nat.exists_eq_add_of_le' (show 4 ≤ depth by omega)
    exact reads_assignIndex h.begins.1 h.begins.2 h.suffixed_of_place.suffixed_ne_nil
      (ih (rest + 1) (by omega)) hline (ih' rest (by omega)) (ih'' (rest + 2) (by omega))
  | assign _ ih =>
    obtain ⟨rest, rfl⟩ := Nat.exists_eq_add_of_le' (show 4 ≤ depth by omega)
    exact reads_assign (ih (rest + 2) (by omega))
  | declare _ ih =>
    obtain ⟨rest, rfl⟩ := Nat.exists_eq_add_of_le' (show 2 ≤ depth by omega)
    exact reads_declare (ih rest (by omega))
  | «export» _ ih =>
    obtain ⟨rest, rfl⟩ := Nat.exists_eq_add_of_le' (show 2 ≤ depth by omega)
    exact reads_export (ih rest (by omega))
  | declareFunction _ ih =>
    obtain ⟨rest, rfl⟩ := Nat.exists_eq_add_of_le' (show 2 ≤ depth by omega)
    exact reads_declareFunction (ih rest (by omega))
  | exportFunction _ ih =>
    obtain ⟨rest, rfl⟩ := Nat.exists_eq_add_of_le' (show 2 ≤ depth by omega)
    exact reads_exportFunction (ih rest (by omega))
  | branch h ih =>
    have hpos := List.length_pos_iff.mpr h.branch.statement_ne_nil
    obtain ⟨rest, rfl⟩ := Nat.exists_eq_add_of_le' (show 1 ≤ depth by omega)
    exact reads_branch h.begins (ih rest (by omega))
  | loop _ ih =>
    obtain ⟨rest, rfl⟩ := Nat.exists_eq_add_of_le' (show 1 ≤ depth by omega)
    exact reads_loop (ih rest (by omega))
  | leave =>
    obtain ⟨rest, rfl⟩ := Nat.exists_eq_add_of_le' (show 1 ≤ depth by omega)
    exact reads_leave
  | giveNothing =>
    obtain ⟨rest, rfl⟩ := Nat.exists_eq_add_of_le' (show 1 ≤ depth by omega)
    exact reads_giveNothing
  | give h ih =>
    obtain ⟨rest, rfl⟩ := Nat.exists_eq_add_of_le' (show 2 ≤ depth by omega)
    exact reads_give h.begins (ih rest (by omega))
  | value h ih =>
    have hpos := List.length_pos_iff.mpr h.chain_ne_nil
    obtain ⟨rest, rfl⟩ := Nat.exists_eq_add_of_le' (show 2 ≤ depth by omega)
    exact reads_value h.begins (ih rest (by omega))
  | nothing => exact reads_nothing
  | ended h _ ih ih' =>
    obtain ⟨rest, rfl⟩ := Nat.exists_eq_add_of_le' (show 1 ≤ depth by omega)
    exact reads_ended h.begins (ih rest (by omega)) (ih' (rest + 1) (by omega))
  | joined h h' hf ih ih' =>
    have hpos := List.length_pos_iff.mpr h.statement_ne_nil
    obtain ⟨rest, rfl⟩ := Nat.exists_eq_add_of_le' (show 1 ≤ depth by omega)
    exact reads_joined h.statement_ne_nil h.begins h'.begins hf (ih rest (by omega))
      (ih' (rest + 1) (by omega))

end Parser

end HostScript
