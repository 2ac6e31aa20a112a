import HostScript.Proofs.Depth.Agreement
import HostScript.Session.Fault

/-!
# Parsing under larger bounds

A bound on nesting decides whether parsing stops there, and nothing else: with a larger bound a
token list gives the same tree or the same fault (`parse_agrees`), and so does a source
(`compile_agrees`).
-/

namespace HostScript

namespace Parser

variable {α β : Type}

/-- From every cursor the second procedure comes to what the first one comes to, unless that stops
at the nesting bound. -/
def Extends (p p' : Parser α) : Prop := ∀ s, AgreesUnless .tooDeep (p s) (p' s)

/-! ## Sequences -/

theorem extends_refl (p : Parser α) : Extends p p := fun s => .refl _ (p s)

theorem extends_tooDeep (p : Parser α) : Extends tooDeep p := fun s => .of_stop (p s)

theorem extends_bind {p p' : Parser α} {f f' : α → Parser β} (hp : Extends p p')
    (hf : ∀ a, Extends (f a) (f' a)) : Extends (p >>= f) (p' >>= f') :=
  fun s => (hp s).bind fun (a, t) => hf a t

theorem extends_then {p : Parser α} {f f' : α → Parser β} (hf : ∀ a, Extends (f a) (f' a)) :
    Extends (p >>= f) (p >>= f') :=
  extends_bind (extends_refl p) hf

theorem extends_return {p p' : Parser α} (hp : Extends p p') (g : α → β) :
    Extends (do return g (← p)) (do return g (← p')) :=
  extends_bind hp fun _ => extends_refl _

/-! ## Repetitions -/

variable {operand operand' : Parser Expr}

theorem agrees_chainRest (h : Extends operand operand')
    (build? : Token → Option (Expr → Expr → Expr)) (left : Expr) (s : Cursor) :
    AgreesUnless .tooDeep (chainRest build? operand left s) (chainRest build? operand' left s) := by
  fun_induction chainRest build? operand left s with
  | case1 left s hnone =>
    rw [chainRest, hnone]
    exact .refl _ _
  | case2 left s build hbuild halt hr =>
    rcases (h s.next).eq_or with hstop | heq
    · obtain rfl := Except.error.inj (hr.symm.trans hstop)
      exact .of_stop _
    · rw [chainRest, hbuild, heq, hr]
      exact .refl _ _
  | case3 left s build hbuild right t hr hlt ih =>
    have heq : operand' s.next = operand s.next := h s.next (by simp [hr])
    rw [chainRest.eq_def build? operand', hbuild, heq, hr]
    dsimp only
    rw [if_pos hlt]
    exact ih
  | case4 => exact .of_stop _

theorem extends_chain (h : Extends operand operand')
    (build? : Token → Option (Expr → Expr → Expr)) :
    Extends (chain build? operand) (chain build? operand') :=
  extends_bind h fun left => agrees_chainRest h build? left

theorem extends_levels (h : Extends operand operand') : Extends (levels operand) (levels operand') :=
  extends_chain (extends_chain (extends_chain (extends_chain (extends_chain
    (extends_chain h _) _) _) _) _) _

theorem agrees_separated {item item' : List α → Parser α}
    (h : ∀ seen, Extends (item seen) (item' seen)) (seen : List α) (s : Cursor) :
    AgreesUnless .tooDeep (separated item seen s) (separated item' seen s) := by
  fun_induction separated item seen s with
  | case1 seen s halt hr =>
    rcases (h seen s).eq_or with hstop | heq
    · obtain rfl := Except.error.inj (hr.symm.trans hstop)
      exact .of_stop _
    · rw [separated, heq, hr]
      exact .refl _ _
  | case2 seen s x t hr hat hlt ih =>
    have heq : item' seen s = item seen s := h seen s (by simp [hr])
    rw [separated.eq_def item', heq, hr]
    dsimp only
    rw [if_pos hat, if_pos hlt]
    exact ih
  | case3 => exact .of_stop _
  | case4 seen s x t hr hat =>
    have heq : item' seen s = item seen s := h seen s (by simp [hr])
    rw [separated, heq, hr]
    dsimp only
    rw [if_neg hat]
    exact .refl _ _

theorem agrees_many {item item' : Parser Stmt} (h : Extends item item') (stop : Lexeme → Bool)
    (s : Cursor) : AgreesUnless .tooDeep (many stop item s) (many stop item' s) := by
  fun_induction many stop item s with
  | case1 s hdone =>
    rw [many, if_pos hdone]
    exact .refl _ _
  | case2 s hgo halt hr =>
    rcases (h s).eq_or with hstop | heq
    · obtain rfl := Except.error.inj (hr.symm.trans hstop)
      exact .of_stop _
    · rw [many, if_neg hgo, heq, hr]
      exact .refl _ _
  | case3 s hgo x t hr hlt ih =>
    have heq : item' s = item s := h s (by simp [hr])
    rw [many.eq_def stop item', if_neg hgo, heq, hr]
    dsimp only
    rw [if_pos hlt]
    exact ih.bind fun _ => .refl _ _
  | case4 => exact .of_stop _

theorem extends_items {item item' : List α → Parser α} (h : ∀ seen, Extends (item seen) (item' seen))
    (closing : Symbol) (wanted : String) :
    Extends (items item closing wanted) (items item' closing wanted) := by
  refine extends_then fun s => ?_
  dsimp only
  split
  · exact extends_refl _
  · exact extends_bind (agrees_separated h []) fun _ => extends_refl _

/-! ## Suffixes and assignments -/

variable {inner inner' : Parser Expr}

theorem suffix?_extends (h : Extends inner inner') (target : Expr) (t : Token) :
    (suffix? inner target t = none ∧ suffix? inner' target t = none) ∨
      ∃ p p', suffix? inner target t = some p ∧ suffix? inner' target t = some p' ∧
        Extends p p' := by
  unfold suffix?
  split
  · exact .inr ⟨_, _, rfl, rfl, extends_return (extends_items (fun _ => h) _ _) _⟩
  · exact .inr ⟨_, _, rfl, rfl, extends_bind h fun _ => extends_refl _⟩
  · exact .inl ⟨rfl, rfl⟩

theorem agrees_postfixRest (h : Extends inner inner') (target : Expr) (s : Cursor) :
    AgreesUnless .tooDeep (postfixRest inner target s) (postfixRest inner' target s) := by
  fun_induction postfixRest inner target s with
  | case1 target s hline =>
    rw [postfixRest, if_pos hline]
    exact .refl _ _
  | case2 target s hline hnone =>
    rcases suffix?_extends h target s.peek with ⟨-, hnone'⟩ | ⟨p, p', hp, -⟩
    · rw [postfixRest, if_neg hline, hnone']
      exact .refl _ _
    · exact nomatch hnone.symm.trans hp
  | case3 target s hline step hstep halt hr =>
    rcases suffix?_extends h target s.peek with ⟨hnone, -⟩ | ⟨p, p', hp, hp', hext⟩
    · exact nomatch hnone.symm.trans hstep
    · obtain rfl := Option.some.inj (hp.symm.trans hstep)
      rcases (hext s.next).eq_or with hstop | heq
      · obtain rfl := Except.error.inj (hr.symm.trans hstop)
        exact .of_stop _
      · rw [postfixRest, if_neg hline, hp']
        dsimp only
        rw [heq, hr]
        exact .refl _ _
  | case4 target s hline step hstep e t hr hlt ih =>
    rcases suffix?_extends h target s.peek with ⟨hnone, -⟩ | ⟨p, p', hp, hp', hext⟩
    · exact nomatch hnone.symm.trans hstep
    · obtain rfl := Option.some.inj (hp.symm.trans hstep)
      have heq : p' s.next = p s.next := hext s.next (by simp [hr])
      rw [postfixRest.eq_def inner', if_neg hline, hp']
      dsimp only
      rw [heq, hr]
      dsimp only
      rw [if_pos hlt]
      exact ih
  | case5 => exact .of_stop _

theorem extends_expressionOrAssignment (h : Extends inner inner') (span : Span) :
    Extends (expressionOrAssignment inner span) (expressionOrAssignment inner' span) := by
  refine extends_bind h fun target => extends_then fun equals => extends_then fun found => ?_
  split
  · exact extends_bind h fun _ => extends_refl _
  · exact extends_refl _

theorem extends_binding (h : Extends inner inner') : Extends (binding inner) (binding inner') :=
  extends_then fun _ => extends_then fun _ => extends_return h _

theorem extends_alternative {branch branch' : Span → Parser Stmt} {body body' : Parser (List Stmt)}
    (h : ∀ span, Extends (branch span) (branch' span)) (hb : Extends body body') :
    Extends (alternative branch body) (alternative branch' body') := by
  refine extends_then fun found => ?_
  split
  · refine extends_then fun t => extends_then fun found => ?_
    split
    · exact extends_return (h t.span) _
    · exact extends_return hb _
  · exact extends_refl _

/-! ## One depth -/

/-- Everything that is parsed under the second bound extends what is parsed under the first. -/
structure ExtendsAt (depth depth' : Nat) : Prop where
  expression : Extends (expression depth) (expression depth')
  unary : Extends (unary depth) (unary depth')
  primary : Extends (primary depth) (primary depth')
  block : Extends (block depth) (block depth')
  functionRest : ∀ exported span,
    Extends (functionRest depth exported span) (functionRest depth' exported span)
  branchRest : ∀ span, Extends (branchRest depth span) (branchRest depth' span)
  bareStatement : Extends (bareStatement depth) (bareStatement depth')
  statement : Extends (statement depth) (statement depth')

namespace ExtendsAt

variable {depth depth' : Nat}

theorem zero (depth' : Nat) : ExtendsAt 0 depth' where
  expression := extends_tooDeep _
  unary := extends_tooDeep _
  primary := extends_tooDeep _
  block := extends_tooDeep _
  functionRest _ _ := extends_tooDeep _
  branchRest _ := extends_tooDeep _
  bareStatement := extends_tooDeep _
  statement := extends_tooDeep _

theorem unary_succ (ih : ExtendsAt depth depth') :
    Extends (Parser.unary (depth + 1)) (Parser.unary (depth' + 1)) := by
  refine extends_then fun t => ?_
  split
  · exact extends_then fun _ => extends_return ih.unary _
  · exact extends_bind ih.primary fun e => agrees_postfixRest ih.expression e

theorem primary_succ (ih : ExtendsAt depth depth') :
    Extends (Parser.primary (depth + 1)) (Parser.primary (depth' + 1)) := by
  refine extends_then fun t => ?_
  split
  · exact extends_refl _
  · exact extends_refl _
  · exact extends_refl _
  · exact extends_refl _
  · exact extends_refl _
  · exact extends_refl _
  · exact extends_bind ih.expression fun _ => extends_refl _
  · exact extends_return (extends_items (fun _ => ih.expression) _ _) _
  · exact extends_then fun _ => extends_return ih.block _
  · exact extends_refl _

theorem block_succ (ih : ExtendsAt depth depth') :
    Extends (Parser.block (depth + 1)) (Parser.block (depth' + 1)) :=
  extends_then fun _ => extends_bind (agrees_many ih.statement _) fun _ => extends_refl _

theorem functionRest_succ (ih : ExtendsAt depth depth') (exported : Bool) (span : Span) :
    Extends (Parser.functionRest (depth + 1) exported span)
      (Parser.functionRest (depth' + 1) exported span) :=
  extends_then fun _ => extends_then fun _ => extends_return ih.block _

theorem branchRest_succ (ih : ExtendsAt depth depth') (span : Span) :
    Extends (Parser.branchRest (depth + 1) span) (Parser.branchRest (depth' + 1) span) :=
  extends_bind ih.expression fun _ => extends_bind ih.block fun _ =>
    extends_return (extends_alternative ih.branchRest ih.block) _

theorem bareStatement_succ (ih : ExtendsAt depth depth') :
    Extends (Parser.bareStatement (depth + 1)) (Parser.bareStatement (depth' + 1)) := by
  refine extends_then fun t => ?_
  split
  · refine extends_then fun _ => extends_then fun found => ?_
    split
    · exact ih.functionRest true t.span
    · exact extends_return (extends_binding ih.expression) _
  · exact extends_then fun _ => extends_return (extends_binding ih.expression) _
  · exact extends_then fun _ => ih.branchRest t.span
  · exact extends_then fun _ => extends_return ih.block _
  · exact extends_refl _
  · refine extends_then fun _ => extends_then fun next => ?_
    split
    · exact extends_refl _
    · exact extends_refl _
    · exact extends_refl _
    · exact extends_return ih.expression _
  · refine extends_then fun s => ?_
    dsimp only
    split
    · exact extends_then fun _ => ih.functionRest false t.span
    · exact extends_expressionOrAssignment ih.expression t.span

theorem statement_succ (ih : ExtendsAt depth depth') :
    Extends (Parser.statement (depth + 1)) (Parser.statement (depth' + 1)) :=
  extends_bind ih.bareStatement fun _ => extends_refl _

end ExtendsAt

/-! ## All depths -/

theorem extendsAt {depth depth' : Nat} (h : depth ≤ depth') : ExtendsAt depth depth' := by
  induction depth generalizing depth' with
  | zero => exact .zero depth'
  | succ depth ih =>
    obtain ⟨more, rfl⟩ : ∃ more, depth' = more + 1 := ⟨depth' - 1, by omega⟩
    have hmore := ih (Nat.le_of_succ_le_succ h)
    exact
      { expression := extends_levels hmore.unary
        unary := hmore.unary_succ
        primary := hmore.primary_succ
        block := hmore.block_succ
        functionRest := hmore.functionRest_succ
        branchRest := hmore.branchRest_succ
        bareStatement := hmore.bareStatement_succ
        statement := hmore.statement_succ }

end Parser

/-- With a larger bound on nesting, parsing comes to the same unless it stopped at the bound. -/
theorem parse_agrees {depth depth' : Nat} (h : depth ≤ depth') (tokens : List Token) :
    AgreesUnless .tooDeep (parse depth tokens) (parse depth' tokens) := by
  have hmany := Parser.agrees_many (Parser.extendsAt h).statement (fun _ => false) ⟨0, tokens⟩
  unfold parse
  rcases hmany.eq_or with hstop | heq
  · rw [hstop]
    exact .of_stop _
  · rw [heq]
    exact .refl _ _

/-- With a larger bound a source is compiled to the same statements or refused with the same fault,
unless the smaller one was reached. -/
theorem compile_agrees {depth depth' : Nat} (h : depth ≤ depth') (source : Text) :
    AgreesUnless .tooDeep (compile depth source) (compile depth' source) := by
  unfold compile
  split
  · exact .refl _ _
  · exact .refl _ _
  · next tokens _ =>
    rcases (parse_agrees h tokens).eq_or with hstop | heq
    · rw [hstop]
      exact .of_stop _
    · rw [heq]
      exact .refl _ _

/-- What is compiled within a bound is compiled in the same way within every larger one. -/
theorem compile_of_le {depth depth' : Nat} (h : depth ≤ depth') {source : Text}
    {statements : List Stmt} (hc : compile depth source = .ok statements) :
    compile depth' source = .ok statements := by
  have hagrees := compile_agrees h source
  rw [hc] at hagrees
  exact hagrees nofun

end HostScript
