import HostScript.Proofs.Depth.Parsing
import HostScript.Proofs.Syntax.Verdicts
import HostScript.Session.Basic
import Mathlib

/-!
# Faults for good

A fault of a token list is at one of its tokens, and no list that has the same tokens up to this one
is a program, however it goes on (`parse_blames`). Nothing in front of the list or behind its end is
looked at. Lists that nest too deeply for the bound are neither programs nor have a fault
(`parse_openParens`); this takes a list that is longer than a third of the bound.
-/

namespace HostScript

namespace Parser

variable {α β : Type} {tokens : List Token}

/-! ## The line in front -/

/-- A procedure does the same in front of the tokens on whatever line the token before them is. -/
def Fresh (p : Parser α) (tokens : List Token) : Prop :=
  ∀ line line', p ⟨line, tokens⟩ = p ⟨line', tokens⟩

theorem Fresh.bind {p : Parser α} (h : Fresh p tokens) (f : α → Parser β) :
    Fresh (p >>= f) tokens := by
  intro line line'
  change (p _ >>= _) = (p _ >>= _)
  rw [h line line']

theorem fresh_take_bind {f : Token → Parser α}
    (hend : ∀ t, t.lexeme = .endOfInput → Fresh (f t) tokens) : Fresh (take >>= f) tokens := by
  intro line line'
  change f (Cursor.peek _) (Cursor.next _) = f (Cursor.peek _) (Cursor.next _)
  cases tokens with
  | nil => exact hend _ rfl line line'
  | cons t rest =>
    by_cases hl : t.lexeme = .endOfInput
    · obtain ⟨lexeme, span⟩ := t
      obtain rfl : lexeme = .endOfInput := hl
      exact hend _ rfl line line'
    · rw [Cursor.next_cons hl, Cursor.next_cons hl]
      rfl

theorem fresh_pass {f : PUnit → Parser α} (hne : (⟨0, tokens⟩ : Cursor).peek.lexeme ≠ .endOfInput) :
    Fresh (discard take >>= f) tokens := by
  intro line line'
  change f ⟨⟩ (Cursor.next _) = f ⟨⟩ (Cursor.next _)
  cases tokens with
  | nil => exact absurd rfl hne
  | cons t rest =>
    have hne : t.lexeme ≠ .endOfInput := hne
    rw [Cursor.next_cons hne, Cursor.next_cons hne]

theorem fresh_primary (depth : ℕ) : Fresh (primary depth) tokens := by
  cases depth with
  | zero => exact fun _ _ => rfl
  | succ depth =>
    refine fresh_take_bind fun t ht => ?_
    rw [ht]
    exact fun _ _ => rfl

theorem fresh_peek_bind {f : Token → Parser α}
    (h : Fresh (f (⟨0, tokens⟩ : Cursor).peek) tokens) : Fresh (peek >>= f) tokens :=
  fun line line' => h line line'

theorem fresh_get_bind {f : Cursor → Parser α} (hline : ∀ line, f ⟨line, tokens⟩ = f ⟨0, tokens⟩)
    (h : Fresh (f ⟨0, tokens⟩) tokens) : Fresh (get >>= f) tokens := by
  intro line line'
  change f ⟨line, tokens⟩ _ = f ⟨line', tokens⟩ _
  rw [hline line, hline line']
  exact h line line'

theorem fresh_unary (depth : ℕ) : Fresh (unary depth) tokens := by
  cases depth with
  | zero => exact fun _ _ => rfl
  | succ depth =>
    refine fresh_peek_bind ?_
    split
    · next op hop => exact fresh_pass fun hl => by simp [hl, unaryOf?] at hop
    · exact (fresh_primary depth).bind _

theorem fresh_expression (depth : ℕ) : Fresh (expression depth) tokens := by
  cases depth with
  | zero => exact fun _ _ => rfl
  | succ depth => exact ((((((fresh_unary depth).bind _).bind _).bind _).bind _).bind _).bind _

theorem fresh_bareStatement (depth : ℕ) : Fresh (bareStatement depth) tokens := by
  cases depth with
  | zero => exact fun _ _ => rfl
  | succ depth =>
    refine fresh_peek_bind ?_
    split
    · next hl => exact fresh_pass (by simp [hl])
    · next hl => exact fresh_pass (by simp [hl])
    · next hl => exact fresh_pass (by simp [hl])
    · next hl => exact fresh_pass (by simp [hl])
    · next hl => exact fresh_pass (by simp [hl])
    · next hl => exact fresh_pass (by simp [hl])
    · refine fresh_get_bind (fun _ => rfl) ?_
      dsimp only
      split
      · next hl _ => exact fresh_pass (by simp [hl])
      · exact (fresh_expression depth).bind _

theorem fresh_statement (depth : ℕ) : Fresh (statement depth) tokens := by
  cases depth with
  | zero => exact fun _ _ => rfl
  | succ depth => exact (fresh_bareStatement depth).bind _

/-- The program that the tokens spell is the same on whatever line the token before them is. -/
theorem many_line (stop : Lexeme → Bool) {item : Parser Stmt} (h : Fresh item tokens) (line : ℕ) :
    (many stop item ⟨line, tokens⟩).map (·.1) = (many stop item ⟨0, tokens⟩).map (·.1) := by
  have hpeek : (⟨line, tokens⟩ : Cursor).peek = (⟨0, tokens⟩ : Cursor).peek := rfl
  rw [many.eq_def stop item ⟨line, tokens⟩, many.eq_def stop item ⟨0, tokens⟩, h line 0, Cursor.at?,
    Cursor.at?, hpeek]
  split <;> rfl

end Parser

/-! ## Programs -/

section Programs

variable {tokens : List Token}

theorem parse_eq_map (depth : ℕ) (tokens : List Token) : parse depth tokens =
    (Parser.many (fun _ => false) (Parser.statement depth) ⟨0, tokens⟩).map (·.1) := by
  unfold parse
  cases Parser.many (fun _ => false) (Parser.statement depth) ⟨0, tokens⟩ <;> rfl

/-- Parsing comes to a program, to a fault at a token or to the bound on nesting, whatever stands
behind the end of the list. A fault stays one whatever stands behind its token. -/
theorem exists_outcome (h : Token.Ended tokens) (depth : ℕ) :
    ∃ outcome, (∀ later, parse depth (tokens ++ later) = outcome) ∧
      ((∃ program, outcome = .ok program) ∨
      (∃ front r rest cause, tokens = front ++ r :: rest ∧ outcome = .error (.fault cause r.span) ∧
        ∀ rest' program, parse depth (front ++ r :: rest') ≠ .ok program) ∨
      (depth < 3 * tokens.length + 2 ∧ outcome = .error .tooDeep)) := by
  simp only [parse_eq_map]
  cases Parser.verdict_program h depth with
  | gives front r rest program line hrest _ hok =>
    have hrest : tokens = front ++ r :: rest := hrest
    refine ⟨.ok program, fun later => ?_, .inl ⟨program, rfl⟩⟩
    rw [hrest, List.append_assoc, List.cons_append, hok]
    rfl
  | blames front r rest cause hrest _ hfault hne =>
    refine ⟨_, fun later => ?_, .inr (.inl ⟨front, r, rest, cause, hrest, rfl, ?_⟩)⟩
    · rw [hfault]
      rfl
    · intro rest' program hok
      cases hr : Parser.many (fun _ => false) (Parser.statement depth) ⟨0, front ++ r :: rest'⟩ with
      | error halt =>
        rw [hr] at hok
        contradiction
      | ok x => exact hne rest' x hr
  | stops hshort hdeep =>
    refine ⟨_, fun later => ?_, .inr (.inr ⟨hshort, rfl⟩)⟩
    rw [hdeep]
    rfl

theorem parse_append (h : Token.Ended tokens) (depth : ℕ) (later : List Token) :
    parse depth (tokens ++ later) = parse depth tokens := by
  obtain ⟨outcome, hsame, -⟩ := exists_outcome h depth
  calc parse depth (tokens ++ later) = outcome := hsame later
    _ = parse depth (tokens ++ []) := (hsame []).symm
    _ = parse depth tokens := by rw [List.append_nil]

theorem parse_cases (h : Token.Ended tokens) (depth : ℕ) :
    (∃ program, parse depth tokens = .ok program) ∨
    (∃ front r rest cause, tokens = front ++ r :: rest ∧
      parse depth tokens = .error (.fault cause r.span) ∧
      ∀ rest' program, parse depth (front ++ r :: rest') ≠ .ok program) ∨
    (depth < 3 * tokens.length + 2 ∧ parse depth tokens = .error .tooDeep) := by
  obtain ⟨outcome, hsame, hcases⟩ := exists_outcome h depth
  rwa [show parse depth tokens = outcome by simpa using hsame []]

/-- Behind a fault the list may go on in any way: under the same bound it is no program. -/
theorem exists_blamed (h : Token.Ended tokens) {depth : ℕ} {cause : ParseFault} {span : Span}
    (hfault : parse depth tokens = .error (.fault cause span)) :
    ∃ k t, tokens[k]? = some t ∧ t.span = span ∧
      ∀ tokens', tokens'.take (k + 1) = tokens.take (k + 1) → ∀ program,
        parse depth tokens' ≠ .ok program := by
  rcases parse_cases h depth with ⟨program, hok⟩ | ⟨front, r, rest, cause', htokens, hblame, hne⟩ |
    ⟨-, hdeep⟩
  · rw [hfault] at hok
    contradiction
  · rw [hfault] at hblame
    obtain ⟨-, rfl⟩ := ParseHalt.fault.inj (Except.error.inj hblame)
    refine ⟨front.length, r, by simp [htokens], rfl, fun tokens' htake => ?_⟩
    have htokens' : tokens' = front ++ r :: tokens'.drop (front.length + 1) := by
      conv_lhs => rw [← List.take_append_drop (front.length + 1) tokens', htake, htokens]
      simp [List.take_append, List.take_of_length_le]
    rw [htokens']
    exact hne _
  · rw [hfault] at hdeep
    exact nomatch Except.error.inj hdeep

theorem parse_ne_tooDeep (h : Token.Ended tokens) {depth : ℕ}
    (hdepth : 3 * tokens.length + 2 ≤ depth) : parse depth tokens ≠ .error .tooDeep := by
  intro htoo
  rcases parse_cases h depth with ⟨program, hok⟩ | ⟨_, _, _, _, -, hblame, -⟩ | ⟨hshort, -⟩
  · rw [htoo] at hok
    contradiction
  · rw [htoo] at hblame
    exact nomatch Except.error.inj hblame
  · omega

theorem parse_mono {depth depth' : ℕ} (hdepth : depth ≤ depth')
    {outcome : Except ParseHalt (List Stmt)} (h : parse depth tokens = outcome)
    (hne : outcome ≠ .error .tooDeep) : parse depth' tokens = outcome :=
  (parse_agrees hdepth tokens (h ▸ hne)).trans h

/-- Behind a fault the list may go on in any way: it is no program under any bound. -/
theorem exists_blamed_for_good (h : Token.Ended tokens) {depth : ℕ} {cause : ParseFault}
    {span : Span} (hfault : parse depth tokens = .error (.fault cause span)) :
    ∃ k t, tokens[k]? = some t ∧ t.span = span ∧
      ∀ tokens', tokens'.take (k + 1) = tokens.take (k + 1) → ∀ depth' program,
        parse depth' tokens' ≠ .ok program := by
  -- With a larger bound another token of the same span might be blamed, so take the last of them.
  let P (k : ℕ) : Prop := ∃ t, tokens[k]? = some t ∧ t.span = span
  have hbound {k : ℕ} (hk : P k) : k ≤ tokens.length := by
    obtain ⟨t, ht, -⟩ := hk
    exact Nat.le_of_lt (List.getElem?_eq_some_iff.mp ht).1
  classical
  obtain ⟨k₀, t₀, ht₀, hspan₀, -⟩ := exists_blamed h hfault
  obtain ⟨t, ht, hspan⟩ : P (Nat.findGreatest P tokens.length) :=
    Nat.findGreatest_spec (hbound ⟨t₀, ht₀, hspan₀⟩) ⟨t₀, ht₀, hspan₀⟩
  refine ⟨_, t, ht, hspan, fun tokens' htake depth' program hok => ?_⟩
  obtain ⟨k, u, hu, hspan', hne⟩ :=
    exists_blamed h (parse_mono (Nat.le_max_left depth depth') hfault (by nofun))
  have hk : k ≤ Nat.findGreatest P tokens.length :=
    Nat.le_findGreatest (hbound ⟨u, hu, hspan'⟩) ⟨u, hu, hspan'⟩
  refine hne tokens' ?_ program (parse_mono (Nat.le_max_right depth depth') hok (by nofun))
  simpa [List.take_take, Nat.min_eq_left (Nat.succ_le_succ hk)] using
    congrArg (List.take (k + 1)) htake

/-- Parsing comes to a program or to a fault, unless the bound on nesting is too small. A fault has
the span of a token, and no list with the same tokens up to this one is a program. Nothing in front
of the list or behind its end is looked at. -/
theorem parse_blames (h : Token.Ended tokens) (depth : ℕ) :
    (∀ cause span, parse depth tokens = .error (.fault cause span) →
      ∃ k t, tokens[k]? = some t ∧ t.span = span ∧
        ∀ tokens', tokens'.take (k + 1) = tokens.take (k + 1) →
          ∀ depth' program, parse depth' tokens' ≠ .ok program) ∧
    (3 * tokens.length + 2 ≤ depth → parse depth tokens ≠ .error .tooDeep) ∧
    (∀ later, parse depth (tokens ++ later) = parse depth tokens) ∧
    ∀ line, (Parser.many (fun _ => false) (Parser.statement depth) ⟨line, tokens⟩).map (·.1) =
      parse depth tokens := by
  refine ⟨fun cause span => exists_blamed_for_good h, parse_ne_tooDeep h, parse_append h depth,
    fun line => ?_⟩
  rw [parse_eq_map]
  exact Parser.many_line _ (Parser.fresh_statement depth) line

/-- The tokens of `null = null`. -/
def nullAssignment : List Token :=
  [⟨.symbol .null, ⟨0, 4, 1⟩⟩, ⟨.symbol .equals, ⟨5, 6, 1⟩⟩, ⟨.symbol .null, ⟨7, 11, 1⟩⟩,
    ⟨.endOfInput, ⟨11, 11, 1⟩⟩]

theorem parse_nullAssignment : parse 14 nullAssignment =
    .error (.fault .invalidTarget ⟨5, 6, 1⟩) := by cbv

theorem parse_blames_nullAssignment :
    Token.Ended nullAssignment ∧ parse 14 nullAssignment ≠ .error .tooDeep ∧
      ∀ rest depth program,
        parse depth (⟨.symbol .null, ⟨0, 4, 1⟩⟩ :: ⟨.symbol .equals, ⟨5, 6, 1⟩⟩ :: rest) ≠
          .ok program := by
  have hended : Token.Ended nullAssignment :=
    ⟨nullAssignment.dropLast, ⟨.endOfInput, ⟨11, 11, 1⟩⟩, rfl, rfl⟩
  obtain ⟨hblames, hdeep, -⟩ := parse_blames hended 14
  obtain ⟨k, t, ht, hspan, hne⟩ := hblames _ _ parse_nullAssignment
  refine ⟨hended, hdeep (Nat.le_refl 14), fun rest => hne _ ?_⟩
  obtain rfl : k = 1 := by
    match k, ht with
    | 0, ht =>
      obtain rfl := Option.some.inj ht
      exact nomatch hspan
    | 1, _ => rfl
    | 2, ht =>
      obtain rfl := Option.some.inj ht
      exact nomatch hspan
    | 3, ht =>
      obtain rfl := Option.some.inj ht
      exact nomatch hspan
  rfl

/-! ## Lists that nest too deeply -/

open HostScript.Parser (bind_of_error)

/-- The tokens of so many parentheses that are never closed. -/
def openParens (k : ℕ) : List Token :=
  List.replicate k ⟨.symbol .leftParen, default⟩ ++ [⟨.endOfInput, default⟩]

theorem expression_openParens {depth k : ℕ} (h : depth ≤ 3 * k) (line : ℕ) :
    Parser.expression depth ⟨line, openParens k⟩ = .error .tooDeep := by
  induction k generalizing depth line with
  | zero =>
    obtain rfl : depth = 0 := by omega
    rfl
  | succ k ih =>
    match depth, h with
    | 0, _ => rfl
    | 1, _ => rfl
    | 2, _ => rfl
    | depth + 3, h =>
      have hgroup : Parser.primary (depth + 1) ⟨line, openParens (k + 1)⟩ =
          (do let e ← Parser.expression depth; Parser.expect .rightParen ")";
              return .grouping e default : Parser Expr)
            ⟨(default : Span).line, openParens k⟩ := rfl
      have hprimary : Parser.primary (depth + 1) ⟨line, openParens (k + 1)⟩ = .error .tooDeep :=
        hgroup.trans (bind_of_error (ih (show depth ≤ 3 * k by omega) _) _)
      have hunary : Parser.unary (depth + 2) ⟨line, openParens (k + 1)⟩ = .error .tooDeep :=
        bind_of_error hprimary _
      exact bind_of_error (bind_of_error (bind_of_error (bind_of_error (bind_of_error
        (bind_of_error hunary _) _) _) _) _) _

/-- Whatever the bound on nesting is, enough parentheses go beyond it. -/
theorem parse_openParens {depth k : ℕ} (h : depth ≤ 3 * k + 2) (hk : 0 < k) :
    parse depth (openParens k) = .error .tooDeep := by
  obtain ⟨k, rfl⟩ : ∃ l, k = l + 1 := ⟨k - 1, by omega⟩
  have hstatement : Parser.statement depth ⟨0, openParens (k + 1)⟩ = .error .tooDeep := by
    match depth, h with
    | 0, _ => rfl
    | 1, _ => rfl
    | depth + 2, h =>
      have hbare : Parser.bareStatement (depth + 1) ⟨0, openParens (k + 1)⟩ =
          Parser.expressionOrAssignment (Parser.expression depth) default ⟨0, openParens (k + 1)⟩ :=
        rfl
      have hexpression := expression_openParens (show depth ≤ 3 * (k + 1) by omega) 0
      exact bind_of_error (hbare.trans (bind_of_error hexpression _)) _
  rw [parse_eq_map, Parser.many, hstatement]
  rfl

/-- A list that ends in its only end of the input need not be a program, nor have a fault. -/
theorem parse_openParens_tooDeep :
    Token.Ended (openParens 3000) ∧
      (∀ t ∈ (openParens 3000).dropLast, t.lexeme ≠ .endOfInput) ∧
      parse 1500 (openParens 3000) = .error .tooDeep := by
  refine ⟨⟨_, _, rfl, rfl⟩, fun t ht => ?_, parse_openParens (by decide) (by decide)⟩
  rw [openParens, List.dropLast_concat] at ht
  obtain rfl := List.eq_of_mem_replicate ht
  exact nofun

end Programs

end HostScript
