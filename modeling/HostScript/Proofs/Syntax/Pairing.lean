import HostScript.Proofs.Syntax.Reading
import HostScript.Proofs.Syntax.Spelling
import Mathlib.Data.List.Forall2

/-!
# Parsing token lists in pairs

Two token lists with the same lexemes are read in step (`Cursor.Paired`). Spans are looked at in one
place only: whether a call or an index is on the line of the token before it. If the lists agree on
that, parsing comes to the same tree but for its spans, or to the same fault at the same token
(`parse_pairs`). What it takes for two spans to belong to the same token is a parameter `R`.
-/

namespace HostScript

open scoped Function

variable {R : Span → Span → Prop}

/-! ## Cursors -/

/-- Tokens of one lexeme with paired spans. -/
structure Token.Paired (R : Span → Span → Prop) (t t' : Token) : Prop where
  lexeme : t.lexeme = t'.lexeme
  span : R t.span t'.span

/-- The tokens in front of two cursors are paired, and a token that can open a call or an index is
on the line of the token before it at both cursors or at neither. -/
inductive Cursor.Paired (R : Span → Span → Prop) : Cursor → Cursor → Prop
  | last {line line' : Nat} {t t' : Token} :
      t.lexeme = .endOfInput → t.Paired R t' → Paired R ⟨line, [t]⟩ ⟨line', [t']⟩
  | cons {line line' : Nat} {t t' : Token} {rest rest' : List Token} :
      t.Paired R t' →
      (t.lexeme.opensSuffix = true → (t.span.line = line ↔ t'.span.line = line')) →
      Paired R ⟨t.span.line, rest⟩ ⟨t'.span.line, rest'⟩ →
      Paired R ⟨line, t :: rest⟩ ⟨line', t' :: rest'⟩

namespace Cursor.Paired

variable {s s' t t' : Cursor}

theorem peek (h : s.Paired R s') : s.peek.Paired R s'.peek := by
  cases h with
  | last _ ht => exact ht
  | cons ht => exact ht

theorem at? (h : s.Paired R s') (l : Lexeme) : s.at? l = s'.at? l := by
  rw [Cursor.at?, Cursor.at?, h.peek.lexeme]

theorem line (h : s.Paired R s') (hopens : s.peek.lexeme.opensSuffix = true) :
    s.peek.span.line = s.line ↔ s'.peek.span.line = s'.line := by
  cases h with
  | last hend =>
    rw [Cursor.peek, hend] at hopens
    contradiction
  | cons _ htied => exact htied hopens

theorem next (h : s.Paired R s') : s.next.Paired R s'.next := by
  cases h with
  | @last _ _ t t' hend ht =>
    obtain ⟨lexeme, span⟩ := t
    obtain ⟨lexeme', span'⟩ := t'
    obtain rfl : lexeme = .endOfInput := hend
    obtain rfl : .endOfInput = lexeme' := ht.lexeme
    exact .last rfl ht
  | @cons _ _ t t' _ _ ht htied hrest =>
    by_cases hend : t.lexeme = .endOfInput
    · obtain ⟨lexeme, span⟩ := t
      obtain ⟨lexeme', span'⟩ := t'
      obtain rfl : lexeme = .endOfInput := hend
      obtain rfl : .endOfInput = lexeme' := ht.lexeme
      exact .cons ht htied hrest
    · rw [next_cons hend, next_cons (ht.lexeme ▸ hend)]
      exact hrest

theorem second (h : s.Paired R s') : s.second.lexeme = s'.second.lexeme := by
  cases h with
  | last _ ht => exact ht.lexeme
  | cons ht _ hrest =>
    cases hrest with
    | last _ ht => exact ht.lexeme
    | cons ht => exact ht.lexeme

theorem length (h : s.Paired R s') : s.rest.length = s'.rest.length := by
  induction h with
  | last => rfl
  | cons _ _ _ ih => exact congrArg (· + 1) ih

theorem length_lt (h : s.Paired R s') (ht : t.Paired R t') :
    t.rest.length < s.rest.length ↔ t'.rest.length < s'.rest.length := by
  rw [h.length, ht.length]

end Cursor.Paired

/-! ## Outcomes -/

/-- The same halt, at paired spans. -/
inductive ParseHalt.Paired (R : Span → Span → Prop) : ParseHalt → ParseHalt → Prop
  | fault {cause : ParseFault} {span span' : Span} :
      R span span' → Paired R (.fault cause span) (.fault cause span')
  | tooDeep : Paired R .tooDeep .tooDeep

/-- Two outcomes of parsing: results that are related, or the same halt at paired spans. -/
inductive ParsePaired {α : Type} (R : Span → Span → Prop) (Q : α → α → Prop) :
    Except ParseHalt α → Except ParseHalt α → Prop
  | ok {a a' : α} : Q a a' → ParsePaired R Q (.ok a) (.ok a')
  | error {halt halt' : ParseHalt} : halt.Paired R halt' → ParsePaired R Q (.error halt) (.error halt')

namespace ParsePaired

variable {α β : Type} {Q : α → α → Prop} {Q' : β → β → Prop}

theorem exists_ok {a : α} {r : Except ParseHalt α} (h : ParsePaired R Q (.ok a) r) :
    ∃ a', r = .ok a' ∧ Q a a' := by
  cases h with
  | ok ha => exact ⟨_, rfl, ha⟩

theorem exists_error {halt : ParseHalt} {r : Except ParseHalt α}
    (h : ParsePaired R Q (.error halt) r) : ∃ halt', r = .error halt' ∧ halt.Paired R halt' := by
  cases h with
  | error hhalt => exact ⟨_, rfl, hhalt⟩

theorem mono {Q₂ : α → α → Prop} {r r' : Except ParseHalt α} (h : ParsePaired R Q r r')
    (hQ : ∀ a a', Q a a' → Q₂ a a') : ParsePaired R Q₂ r r' := by
  cases h with
  | ok ha => exact .ok (hQ _ _ ha)
  | error hhalt => exact .error hhalt

theorem bind {r r' : Except ParseHalt α} {f f' : α → Except ParseHalt β} (h : ParsePaired R Q r r')
    (hf : ∀ a a', Q a a' → ParsePaired R Q' (f a) (f' a')) :
    ParsePaired R Q' (r >>= f) (r' >>= f') := by
  cases h with
  | ok ha => exact hf _ _ ha
  | error hhalt => exact .error hhalt

end ParsePaired

namespace Parser

variable {α β : Type} {Q : α → α → Prop} {Q' : β → β → Prop}

/-- What two procedures come to at paired cursors. -/
abbrev Ends (R : Span → Span → Prop) (Q : α → α → Prop) :
    Except ParseHalt (α × Cursor) → Except ParseHalt (α × Cursor) → Prop :=
  ParsePaired R fun r r' => Q r.1 r'.1 ∧ r.2.Paired R r'.2

/-- Two procedures come to paired outcomes from paired cursors. -/
def Pairs (R : Span → Span → Prop) (Q : α → α → Prop) (p p' : Parser α) : Prop :=
  ∀ s s', s.Paired R s' → Ends R Q (p s) (p' s')

theorem Pairs.mono {Q₂ : α → α → Prop} {p p' : Parser α} (h : Pairs R Q p p')
    (hQ : ∀ a a', Q a a' → Q₂ a a') : Pairs R Q₂ p p' :=
  fun s s' hs => (h s s' hs).mono fun _ _ ⟨ha, ht⟩ => ⟨hQ _ _ ha, ht⟩

theorem pairs_pure {a a' : α} (h : Q a a') : Pairs R Q (pure a) (pure a') :=
  fun _ _ hs => .ok ⟨h, hs⟩

theorem pairs_bind {p p' : Parser α} {f f' : α → Parser β} (hp : Pairs R Q p p')
    (hf : ∀ a a', Q a a' → Pairs R Q' (f a) (f' a')) : Pairs R Q' (p >>= f) (p' >>= f') :=
  fun s s' hs => (hp s s' hs).bind fun (a, t) (a', t') ⟨ha, ht⟩ => hf a a' ha t t' ht

theorem pairs_return {p p' : Parser α} {g g' : α → β} (hp : Pairs R Q p p')
    (hg : ∀ a a', Q a a' → Q' (g a) (g' a')) :
    Pairs R Q' (do return g (← p)) (do return g' (← p')) :=
  pairs_bind hp fun a a' ha => pairs_pure (hg a a' ha)

theorem pairs_tooDeep : Pairs R Q tooDeep tooDeep := fun _ _ _ => .error .tooDeep

theorem pairs_fail {cause cause' : ParseFault} {span span' : Span} (h : cause = cause')
    (hspan : R span span') : Pairs R Q (fail cause span) (fail cause' span') := by
  subst h
  exact fun _ _ _ => .error (.fault hspan)

theorem pairs_get : Pairs R (Cursor.Paired R) get get := fun _ _ hs => .ok ⟨hs, hs⟩

theorem pairs_peek : Pairs R (Token.Paired R) peek peek := fun _ _ hs => .ok ⟨hs.peek, hs⟩

theorem pairs_take : Pairs R (Token.Paired R) take take := fun _ _ hs => .ok ⟨hs.peek, hs.next⟩

theorem pairs_discard {p p' : Parser α} (h : Pairs R Q p p') :
    Pairs R (fun _ _ => True) (discard p) (discard p') :=
  pairs_bind h fun _ _ _ => pairs_pure trivial

theorem pairs_accept (l : Lexeme) : Pairs R Eq (accept l) (accept l) := by
  intro s s' hs
  simp only [accept, modifyGet, MonadStateOf.modifyGet, StateT.modifyGet, ← hs.at? l]
  split
  · exact .ok ⟨rfl, hs.next⟩
  · exact .ok ⟨rfl, hs⟩

theorem pairs_expect (s : Symbol) (wanted : String) :
    Pairs R (fun _ _ => True) (expect s wanted) (expect s wanted) := by
  refine pairs_bind pairs_peek fun t t' ht => ?_
  rw [← ht.lexeme]
  split
  · exact pairs_discard pairs_take
  · exact pairs_fail rfl ht.span

theorem pairs_identifier :
    Pairs R (fun r r' => r.1 = r'.1 ∧ R r.2 r'.2) identifier identifier := by
  refine pairs_bind pairs_peek fun t t' ht => ?_
  rw [← ht.lexeme]
  split
  · exact pairs_bind (pairs_discard pairs_take) fun _ _ _ => pairs_pure ⟨rfl, ht.span⟩
  · exact pairs_fail rfl ht.span

/-! ## Repetitions -/

/-- Tokens of one lexeme make the same nodes, but for spans, of operands that are the same but for
spans, or none of them makes any. -/
structure Builds (build? : Token → Option (Expr → Expr → Expr)) : Prop where
  none {t t' : Token} : t.lexeme = t'.lexeme → build? t = .none → build? t' = .none
  some {t t' : Token} {build : Expr → Expr → Expr} : t.lexeme = t'.lexeme → build? t = .some build →
    ∃ build', build? t' = .some build' ∧ ∀ left left' right right' : Expr,
      left.bare = left'.bare → right.bare = right'.bare →
      (build left right).bare = (build' left' right').bare

variable {operand operand' : Parser Expr}

theorem pairs_chainRest {build? : Token → Option (Expr → Expr → Expr)} (hb : Builds build?)
    (h : Pairs R (Eq on Expr.bare) operand operand') {left left' : Expr}
    (hleft : left.bare = left'.bare) {s s' : Cursor} (hs : s.Paired R s') :
    Ends R (Eq on Expr.bare) (chainRest build? operand left s)
      (chainRest build? operand' left' s') := by
  -- The second run of the loop takes the branch of the first one, on as many tokens.
  fun_induction chainRest build? operand left s generalizing left' s' with
  | case1 left s hnone =>
    rw [chainRest_stop operand' left' (hb.none hs.peek.lexeme hnone)]
    exact .ok ⟨hleft, hs⟩
  | case2 left s build hbuild halt hr =>
    obtain ⟨build', hbuild', -⟩ := hb.some hs.peek.lexeme hbuild
    obtain ⟨halt', hr', hhalt⟩ := (hr ▸ h _ _ hs.next).exists_error
    rw [chainRest, hbuild', hr']
    exact .error hhalt
  | case3 left s build hbuild right t hr hlt ih =>
    obtain ⟨build', hbuild', hnode⟩ := hb.some hs.peek.lexeme hbuild
    obtain ⟨⟨right', t'⟩, hr', hright, ht⟩ := (hr ▸ h _ _ hs.next).exists_ok
    rw [chainRest_step left' hbuild' hr' ((hs.length_lt ht).mp hlt)]
    exact ih (hnode _ _ _ _ hleft hright) ht
  | case4 left s build hbuild right t hr hlt =>
    obtain ⟨build', hbuild', -⟩ := hb.some hs.peek.lexeme hbuild
    obtain ⟨⟨right', t'⟩, hr', -, ht⟩ := (hr ▸ h _ _ hs.next).exists_ok
    rw [chainRest.eq_def build? operand', hbuild', hr']
    dsimp only
    rw [if_neg (mt (hs.length_lt ht).mpr hlt)]
    exact .error .tooDeep

theorem pairs_chain {build? : Token → Option (Expr → Expr → Expr)} (hb : Builds build?)
    (h : Pairs R (Eq on Expr.bare) operand operand') :
    Pairs R (Eq on Expr.bare) (chain build? operand) (chain build? operand') :=
  pairs_bind h fun _ _ hleft _ _ hs => pairs_chainRest hb h hleft hs

theorem pairs_separated {item item' : List α → Parser α}
    (h : ∀ seen seen', List.Forall₂ Q seen seen' → Pairs R Q (item seen) (item' seen'))
    {seen seen' : List α} (hseen : List.Forall₂ Q seen seen') {s s' : Cursor}
    (hs : s.Paired R s') :
    Ends R (List.Forall₂ Q) (separated item seen s) (separated item' seen' s') := by
  fun_induction separated item seen s generalizing seen' s' with
  | case1 seen s halt hr =>
    obtain ⟨halt', hr', hhalt⟩ := (hr ▸ h _ _ hseen _ _ hs).exists_error
    rw [separated, hr']
    exact .error hhalt
  | case2 seen s x t hr hat hlt ih =>
    obtain ⟨⟨x', t'⟩, hr', hx, ht⟩ := (hr ▸ h _ _ hseen _ _ hs).exists_ok
    rw [separated.eq_def item', hr']
    dsimp only
    rw [if_pos (ht.at? _ ▸ hat), if_pos ((hs.length_lt ht.next).mp hlt)]
    exact ih (List.rel_append hseen (.cons hx .nil)) ht.next
  | case3 seen s x t hr hat hlt =>
    obtain ⟨⟨x', t'⟩, hr', -, ht⟩ := (hr ▸ h _ _ hseen _ _ hs).exists_ok
    rw [separated.eq_def item', hr']
    dsimp only
    rw [if_pos (ht.at? _ ▸ hat), if_neg (mt (hs.length_lt ht.next).mpr hlt)]
    exact .error .tooDeep
  | case4 seen s x t hr hat =>
    obtain ⟨⟨x', t'⟩, hr', hx, ht⟩ := (hr ▸ h _ _ hseen _ _ hs).exists_ok
    rw [separated, hr']
    dsimp only
    rw [if_neg (ht.at? _ ▸ hat)]
    exact .ok ⟨List.rel_append hseen (.cons hx .nil), ht⟩

theorem pairs_many {item item' : Parser Stmt} (h : Pairs R (Eq on Stmt.bare) item item')
    (stop : Lexeme → Bool) : Pairs R (Eq on bareBlock) (many stop item) (many stop item') := by
  intro s s' hs
  fun_induction many stop item s generalizing s' with
  | case1 s hdone =>
    rw [many, if_pos (hs.peek.lexeme ▸ hs.at? _ ▸ hdone)]
    exact .ok ⟨rfl, hs⟩
  | case2 s hgo halt hr =>
    obtain ⟨halt', hr', hhalt⟩ := (hr ▸ h _ _ hs).exists_error
    rw [many, if_neg (hs.peek.lexeme ▸ hs.at? _ ▸ hgo), hr']
    exact .error hhalt
  | case3 s hgo x t hr hlt ih =>
    obtain ⟨⟨x', t'⟩, hr', hx, ht⟩ := (hr ▸ h _ _ hs).exists_ok
    rw [many.eq_def stop item', if_neg (hs.peek.lexeme ▸ hs.at? _ ▸ hgo), hr']
    dsimp only
    rw [if_pos ((hs.length_lt ht).mp hlt)]
    exact (ih _ ht).bind fun r r' hr => .ok ⟨congrArg₂ List.cons hx hr.1, hr.2⟩
  | case4 s hgo x t hr hlt =>
    obtain ⟨⟨x', t'⟩, hr', -, ht⟩ := (hr ▸ h _ _ hs).exists_ok
    rw [many.eq_def stop item', if_neg (hs.peek.lexeme ▸ hs.at? _ ▸ hgo), hr']
    dsimp only
    rw [if_neg (mt (hs.length_lt ht).mpr hlt)]
    exact .error .tooDeep

theorem pairs_items {item item' : List α → Parser α}
    (h : ∀ seen seen', List.Forall₂ Q seen seen' → Pairs R Q (item seen) (item' seen'))
    (closing : Symbol) (wanted : String) :
    Pairs R (List.Forall₂ Q) (items item closing wanted) (items item' closing wanted) := by
  have hclose (found found' : List α) (hfound : List.Forall₂ Q found found') :
      Pairs R (List.Forall₂ Q) (do expect closing wanted; return found)
        (do expect closing wanted; return found') :=
    pairs_bind (pairs_expect closing wanted) fun _ _ _ => pairs_pure hfound
  refine pairs_bind pairs_get fun s s' hs => ?_
  dsimp only
  rw [← hs.at? (.symbol closing)]
  split
  · exact hclose _ _ .nil
  · exact pairs_bind (fun _ _ hs => pairs_separated h .nil hs) hclose

theorem bareExprs_eq_of_forall₂ {es es' : List Expr} (h : List.Forall₂ (Eq on Expr.bare) es es') :
    bareExprs es = bareExprs es' := by
  induction h with
  | nil => rfl
  | cons he _ ih => exact congrArg₂ List.cons he ih

theorem pairs_exprs {inner inner' : Parser Expr} (h : Pairs R (Eq on Expr.bare) inner inner')
    (closing : Symbol) (wanted : String) :
    Pairs R (Eq on bareExprs) (items (fun _ => inner) closing wanted)
      (items (fun _ => inner') closing wanted) :=
  (pairs_items (fun _ _ _ => h) closing wanted).mono fun _ _ => bareExprs_eq_of_forall₂

theorem pairs_parameter {seen seen' : List Name} (h : List.Forall₂ Eq seen seen') :
    Pairs R Eq (parameter seen) (parameter seen') := by
  obtain rfl := List.forall₂_eq_eq_eq ▸ h
  refine pairs_bind pairs_identifier fun (name, span) (name', span') ⟨hname, hspan⟩ => ?_
  obtain rfl : name = name' := hname
  dsimp only
  split
  · exact pairs_fail rfl hspan
  · exact pairs_pure rfl

theorem pairs_parameters : Pairs R Eq parameters parameters := by
  refine pairs_bind (pairs_expect _ _) fun _ _ _ => ?_
  have h := pairs_items (R := R) (fun _ _ => pairs_parameter) .rightParen ")"
  rwa [List.forall₂_eq_eq_eq] at h

/-! ## Operators, suffixes and assignments -/

theorem builds_binaryOf (ops : List (Symbol × BinaryOp)) : Builds (binaryOf ops) where
  none {t t'} hl hnone := by
    unfold binaryOf at hnone ⊢
    rw [← hl]
    split at hnone
    · exact Option.map_eq_none_iff.mpr (Option.map_eq_none_iff.mp hnone)
    · rfl
  some {t t' build} hl hsome := by
    unfold binaryOf at hsome ⊢
    rw [← hl]
    split at hsome
    · next s _ =>
      obtain ⟨op, hop, rfl⟩ := Option.map_eq_some_iff.mp hsome
      refine ⟨_, by rw [hop]; rfl, fun left left' right right' hleft hright => ?_⟩
      exact congrArg₂ (Expr.binary · op · default) hleft hright
    · contradiction

theorem builds_logicalOf (symbol : Symbol) (op : LogicalOp) : Builds (logicalOf symbol op) where
  none {t t'} hl hnone := by
    unfold logicalOf at hnone ⊢
    rw [← hl]
    split at hnone
    · contradiction
    · next hne => rw [if_neg hne]
  some {t t' build} hl hsome := by
    unfold logicalOf at hsome ⊢
    rw [← hl]
    split at hsome
    · next heq =>
      obtain rfl := Option.some.inj hsome
      refine ⟨_, if_pos heq, fun left left' right right' hleft hright => ?_⟩
      exact congrArg₂ (Expr.logical · op · default) hleft hright
    · contradiction

theorem pairs_levels (h : Pairs R (Eq on Expr.bare) operand operand') :
    Pairs R (Eq on Expr.bare) (levels operand) (levels operand') :=
  pairs_chain (builds_logicalOf _ _) <| pairs_chain (builds_logicalOf _ _) <|
    pairs_chain (builds_binaryOf _) <| pairs_chain (builds_binaryOf _) <|
    pairs_chain (builds_binaryOf _) <| pairs_chain (builds_binaryOf _) h

variable {inner inner' : Parser Expr}

theorem pairs_suffix (h : Pairs R (Eq on Expr.bare) inner inner') {target target' : Expr}
    (htarget : target.bare = target'.bare) {t t' : Token} (hl : t.lexeme = t'.lexeme)
    {step : Parser Expr} (hstep : suffix? inner target t = some step) :
    t.lexeme.opensSuffix = true ∧ ∃ step', suffix? inner' target' t' = some step' ∧
      Pairs R (Eq on Expr.bare) step step' := by
  unfold suffix? at hstep ⊢
  rw [← hl]
  split at hstep
  · next heq =>
    obtain rfl := Option.some.inj hstep
    refine ⟨by rw [heq]; rfl, _, rfl, pairs_return (pairs_exprs h _ _) fun es es' hes => ?_⟩
    exact congrArg₂ (Expr.call · · default) htarget hes
  · next heq =>
    obtain rfl := Option.some.inj hstep
    refine ⟨by rw [heq]; rfl, _, rfl, pairs_bind h fun index index' hindex => ?_⟩
    refine pairs_bind (pairs_expect _ _) fun _ _ _ => pairs_pure ?_
    exact congrArg₂ (Expr.index · · default) htarget hindex
  · contradiction

theorem pairs_postfixRest (h : Pairs R (Eq on Expr.bare) inner inner') {target target' : Expr}
    (htarget : target.bare = target'.bare) {s s' : Cursor} (hs : s.Paired R s') :
    Ends R (Eq on Expr.bare) (postfixRest inner target s) (postfixRest inner' target' s') := by
  -- The lines decide here, and nowhere else. Where the next token opens a call or an index, both
  -- cursors decide alike; where it does not, the expression ends on whatever line it stands.
  fun_induction postfixRest inner target s generalizing target' s' with
  | case1 target s hline =>
    have hstop : ¬ (s'.peek.lexeme.opensSuffix = true ∧ s'.peek.span.line = s'.line) := by
      rintro ⟨hopens, hsame⟩
      rw [← hs.peek.lexeme] at hopens
      exact hline ((hs.line hopens).mpr hsame)
    rw [postfixRest_stop inner' target' hstop]
    exact .ok ⟨htarget, hs⟩
  | case2 target s _ hnone =>
    rw [suffix?_eq_none_iff, hs.peek.lexeme] at hnone
    rw [postfixRest_stop inner' target' fun hopens => by simp [hnone] at hopens]
    exact .ok ⟨htarget, hs⟩
  | case3 target s hline step hstep halt hr =>
    obtain ⟨hopens, step', hstep', hpairs⟩ := pairs_suffix h htarget hs.peek.lexeme hstep
    have hline' := (hs.line hopens).mp (not_not.mp hline)
    obtain ⟨halt', hr', hhalt⟩ := (hr ▸ hpairs _ _ hs.next).exists_error
    rw [postfixRest, if_neg (not_not.mpr hline'), hstep']
    dsimp only
    rw [hr']
    exact .error hhalt
  | case4 target s hline step hstep e t hr hlt ih =>
    obtain ⟨hopens, step', hstep', hpairs⟩ := pairs_suffix h htarget hs.peek.lexeme hstep
    have hline' := (hs.line hopens).mp (not_not.mp hline)
    obtain ⟨⟨e', t'⟩, hr', he, ht⟩ := (hr ▸ hpairs _ _ hs.next).exists_ok
    rw [postfixRest_step hline' hstep' hr' ((hs.length_lt ht).mp hlt)]
    exact ih he ht
  | case5 target s hline step hstep e t hr hlt =>
    obtain ⟨hopens, step', hstep', hpairs⟩ := pairs_suffix h htarget hs.peek.lexeme hstep
    have hline' := (hs.line hopens).mp (not_not.mp hline)
    obtain ⟨⟨e', t'⟩, hr', -, ht⟩ := (hr ▸ hpairs _ _ hs.next).exists_ok
    rw [postfixRest.eq_def inner', if_neg (not_not.mpr hline'), hstep']
    dsimp only
    rw [hr']
    dsimp only
    rw [if_neg (mt (hs.length_lt ht).mpr hlt)]
    exact .error .tooDeep

/-- The tree of an assignment but for its spans. -/
theorem assign?_bare (target value : Expr) (span : Span) :
    (assign? target value span).map Stmt.bare = assign? target.bare value.bare default := by
  cases target <;> simp [assign?, Expr.bare, Stmt.bare]

theorem pairs_expressionOrAssignment (h : Pairs R (Eq on Expr.bare) inner inner')
    (span span' : Span) : Pairs R (Eq on Stmt.bare) (expressionOrAssignment inner span)
      (expressionOrAssignment inner' span') := by
  refine pairs_bind h fun target target' htarget => pairs_bind pairs_peek fun t t' ht => ?_
  refine pairs_bind (pairs_accept _) fun found _ hfound => ?_
  subst hfound
  replace htarget : target.bare = target'.bare := htarget
  split
  · refine pairs_bind h fun value value' hvalue => ?_
    replace hvalue : value.bare = value'.bare := hvalue
    have hassign : (assign? target value span).map Stmt.bare =
        (assign? target' value' span').map Stmt.bare := by
      rw [assign?_bare, assign?_bare, htarget, hvalue]
    cases hx : assign? target value span with
    | none =>
      rw [hx] at hassign
      rw [Option.map_eq_none_iff.mp hassign.symm]
      exact pairs_fail rfl ht.span
    | some x =>
      rw [hx] at hassign
      obtain ⟨x', hx', heq⟩ := Option.map_eq_some_iff.mp hassign.symm
      rw [hx']
      exact pairs_pure heq.symm
  · exact pairs_pure (congrArg (Stmt.expression · default) htarget)

theorem pairs_binding (h : Pairs R (Eq on Expr.bare) inner inner') :
    Pairs R (fun r r' => r.1 = r'.1 ∧ r.2.bare = r'.2.bare) (binding inner) (binding inner') := by
  refine pairs_bind pairs_identifier fun (name, _) (name', _) ⟨hname, _⟩ => ?_
  refine pairs_bind (pairs_expect _ _) fun _ _ _ => ?_
  exact pairs_return h fun e e' he => ⟨hname, he⟩

theorem pairs_alternative {branch branch' : Span → Parser Stmt} {body body' : Parser (List Stmt)}
    (hbranch : ∀ span span', Pairs R (Eq on Stmt.bare) (branch span) (branch' span'))
    (hbody : Pairs R (Eq on bareBlock) body body') :
    Pairs R (Eq on Option.map bareBlock) (alternative branch body)
      (alternative branch' body') := by
  refine pairs_bind (pairs_accept _) fun found _ hfound => ?_
  subst hfound
  split
  · refine pairs_bind pairs_peek fun t t' _ => pairs_bind (pairs_accept _) fun found _ hfound => ?_
    subst hfound
    split
    · exact pairs_return (hbranch _ _) fun x x' hx => congrArg (fun x => some [x]) hx
    · exact pairs_return hbody fun body body' hbody => congrArg some hbody
  · exact pairs_pure rfl

/-! ## One depth -/

/-- Everything that is parsed under a bound is paired with itself. -/
structure PairsAt (R : Span → Span → Prop) (depth : Nat) : Prop where
  expression : Pairs R (Eq on Expr.bare) (expression depth) (expression depth)
  unary : Pairs R (Eq on Expr.bare) (unary depth) (unary depth)
  primary : Pairs R (Eq on Expr.bare) (primary depth) (primary depth)
  block : Pairs R (Eq on bareBlock) (block depth) (block depth)
  functionRest : ∀ exported span span', Pairs R (Eq on Stmt.bare)
    (functionRest depth exported span) (functionRest depth exported span')
  branchRest : ∀ span span',
    Pairs R (Eq on Stmt.bare) (branchRest depth span) (branchRest depth span')
  bareStatement : Pairs R (Eq on Stmt.bare) (bareStatement depth) (bareStatement depth)
  statement : Pairs R (Eq on Stmt.bare) (statement depth) (statement depth)

namespace PairsAt

variable {depth : Nat}

theorem zero : PairsAt R 0 where
  expression := pairs_tooDeep
  unary := pairs_tooDeep
  primary := pairs_tooDeep
  block := pairs_tooDeep
  functionRest _ _ _ := pairs_tooDeep
  branchRest _ _ := pairs_tooDeep
  bareStatement := pairs_tooDeep
  statement := pairs_tooDeep

theorem unary_succ (ih : PairsAt R depth) : Pairs R (Eq on Expr.bare)
    (Parser.unary (depth + 1)) (Parser.unary (depth + 1)) := by
  refine pairs_bind pairs_peek fun t t' ht => ?_
  rw [← ht.lexeme]
  split
  · refine pairs_bind (pairs_discard pairs_take) fun _ _ _ => ?_
    exact pairs_return ih.unary fun e e' he => congrArg (Expr.unary _ · default) he
  · exact pairs_bind ih.primary fun e e' he _ _ hs => pairs_postfixRest ih.expression he hs

theorem primary_succ (ih : PairsAt R depth) : Pairs R (Eq on Expr.bare)
    (Parser.primary (depth + 1)) (Parser.primary (depth + 1)) := by
  refine pairs_bind pairs_take fun t t' ht => ?_
  rw [← ht.lexeme]
  split
  · exact pairs_pure rfl
  · exact pairs_pure rfl
  · exact pairs_pure rfl
  · exact pairs_pure rfl
  · exact pairs_pure rfl
  · exact pairs_pure rfl
  · refine pairs_bind ih.expression fun e e' he => ?_
    refine pairs_bind (pairs_expect _ _) fun _ _ _ => pairs_pure ?_
    exact congrArg (Expr.grouping · default) he
  · exact pairs_return (pairs_exprs ih.expression _ _) fun es es' hes =>
      congrArg (Expr.array · default) hes
  · refine pairs_bind pairs_parameters fun names _ hnames => ?_
    subst hnames
    exact pairs_return ih.block fun body body' hbody =>
      congrArg (Expr.function names · default) hbody
  · exact pairs_fail rfl ht.span

theorem block_succ (ih : PairsAt R depth) : Pairs R (Eq on bareBlock)
    (Parser.block (depth + 1)) (Parser.block (depth + 1)) := by
  refine pairs_bind (pairs_expect _ _) fun _ _ _ => ?_
  refine pairs_bind (pairs_many ih.statement _) fun body body' hbody => ?_
  exact pairs_bind (pairs_expect _ _) fun _ _ _ => pairs_pure hbody

theorem functionRest_succ (ih : PairsAt R depth) (exported : Bool) (span span' : Span) :
    Pairs R (Eq on Stmt.bare) (Parser.functionRest (depth + 1) exported span)
      (Parser.functionRest (depth + 1) exported span') := by
  refine pairs_bind pairs_identifier fun (name, _) (name', _) ⟨hname, _⟩ => ?_
  obtain rfl : name = name' := hname
  refine pairs_bind pairs_parameters fun names _ hnames => ?_
  subst hnames
  exact pairs_return ih.block fun body body' hbody =>
    congrArg (Stmt.function name names · exported default) hbody

theorem branchRest_succ (ih : PairsAt R depth) (span span' : Span) :
    Pairs R (Eq on Stmt.bare) (Parser.branchRest (depth + 1) span)
      (Parser.branchRest (depth + 1) span') := by
  refine pairs_bind ih.expression fun condition condition' hcondition => ?_
  refine pairs_bind ih.block fun consequent consequent' hconsequent => ?_
  refine pairs_return (pairs_alternative ih.branchRest ih.block) fun other other' hother => ?_
  show Stmt.bare _ = Stmt.bare _
  rw [Stmt.bare_branch, Stmt.bare_branch, hcondition, hconsequent, hother]

theorem bareStatement_succ (ih : PairsAt R depth) : Pairs R (Eq on Stmt.bare)
    (Parser.bareStatement (depth + 1)) (Parser.bareStatement (depth + 1)) := by
  refine pairs_bind pairs_peek fun t t' ht => ?_
  rw [← ht.lexeme]
  have htake := pairs_discard (R := R) pairs_take
  split
  · refine pairs_bind htake fun _ _ _ => pairs_bind (pairs_accept _) fun found _ hfound => ?_
    subst hfound
    split
    · exact ih.functionRest true _ _
    · exact pairs_return (pairs_binding ih.expression) fun (name, e) (name', e') ⟨hname, he⟩ =>
        congrArg₂ (Stmt.publish · · default) hname he
  · refine pairs_bind htake fun _ _ _ => ?_
    exact pairs_return (pairs_binding ih.expression) fun (name, e) (name', e') ⟨hname, he⟩ =>
      congrArg₂ (Stmt.declare · · default) hname he
  · exact pairs_bind htake fun _ _ _ => ih.branchRest _ _
  · refine pairs_bind htake fun _ _ _ => ?_
    exact pairs_return ih.block fun body body' hbody => congrArg (Stmt.loop · default) hbody
  · exact pairs_bind htake fun _ _ _ => pairs_pure rfl
  · refine pairs_bind htake fun _ _ _ => pairs_bind pairs_peek fun next next' hnext => ?_
    rw [← hnext.lexeme]
    split
    · exact pairs_pure rfl
    · exact pairs_pure rfl
    · exact pairs_pure rfl
    · exact pairs_return ih.expression fun e e' he =>
        congrArg (fun e => Stmt.give (some e) default) he
  · refine pairs_bind pairs_get fun s s' hs => ?_
    dsimp only
    rw [← hs.second]
    split
    · exact pairs_bind htake fun _ _ _ => ih.functionRest false _ _
    · exact pairs_expressionOrAssignment ih.expression _ _

theorem statement_succ (ih : PairsAt R depth) : Pairs R (Eq on Stmt.bare)
    (Parser.statement (depth + 1)) (Parser.statement (depth + 1)) := by
  refine pairs_bind ih.bareStatement fun x x' hx => ?_
  exact pairs_bind (pairs_discard (pairs_accept _)) fun _ _ _ => pairs_pure hx

end PairsAt

/-! ## All depths -/

theorem pairsAt (R : Span → Span → Prop) (depth : Nat) : PairsAt R depth := by
  induction depth with
  | zero => exact .zero
  | succ depth ih =>
    exact
      { expression := pairs_levels ih.unary
        unary := ih.unary_succ
        primary := ih.primary_succ
        block := ih.block_succ
        functionRest := ih.functionRest_succ
        branchRest := ih.branchRest_succ
        bareStatement := ih.bareStatement_succ
        statement := ih.statement_succ }

end Parser

/-- Paired token lists are parsed to the same statements but for their spans, or to the same fault
at paired spans. -/
theorem parse_pairs {tokens tokens' : List Token} (h : Cursor.Paired R ⟨0, tokens⟩ ⟨0, tokens'⟩)
    (depth : Nat) : ParsePaired R (Eq on bareBlock) (parse depth tokens) (parse depth tokens') := by
  have hmany := Parser.pairs_many (Parser.pairsAt R depth).statement (fun _ => false) _ _ h
  unfold parse
  generalize Parser.many _ _ ⟨0, tokens⟩ = r at hmany
  generalize Parser.many _ _ ⟨0, tokens'⟩ = r' at hmany
  cases hmany with
  | ok hprogram => exact .ok hprogram.1
  | error hhalt => exact .error hhalt

end HostScript
