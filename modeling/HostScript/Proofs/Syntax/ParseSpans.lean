import HostScript.Proofs.Syntax.ScanSpans
import HostScript.Proofs.Syntax.Spans
import HostScript.Syntax.Parse

/-!
# The spans of parsed trees

Parsing takes every span of a tree, and every span that it blames, from the tokens that it reads
(`parse_spans`). `Keeps` says so for a procedure; there is one rule for each way in which procedures
are put together, and `KeepsAt` has one field for each of those that call each other.
-/

namespace HostScript

/-- The tokens that are still to be read have spans that satisfy `P`, and end the input. -/
structure Cursor.Sound (P : Span → Prop) (s : Cursor) : Prop where
  spans : ∀ t ∈ s.rest, P t.span
  ended : Token.Ended s.rest

/-- What parsing blames when it ends early satisfies `P`. -/
def ParseHalt.Within (P : Span → Prop) : ParseHalt → Prop
  | .fault _ span => P span
  | .tooDeep => True

variable {P : Span → Prop}

namespace Cursor.Sound

theorem peek {s : Cursor} (h : s.Sound P) : P s.peek.span := by
  obtain ⟨line, rest⟩ := s
  obtain ⟨body, last, rfl, -⟩ := h.ended
  cases body with
  | nil => exact h.spans last List.mem_cons_self
  | cons t body => exact h.spans t List.mem_cons_self

theorem next {s : Cursor} (h : s.Sound P) : s.next.Sound P := by
  obtain ⟨line, rest⟩ := s
  unfold Cursor.next
  split
  · exact h
  · next t rest hne heq =>
    obtain rfl : _ = t :: rest := heq
    refine ⟨fun u hu => h.spans u (List.mem_cons_of_mem t hu), ?_⟩
    obtain ⟨body, last, heq, hlast⟩ := h.ended
    cases body with
    | nil =>
      -- the end of the input is not passed
      obtain ⟨lexeme, span⟩ := t
      obtain ⟨rfl, rfl⟩ := List.cons.inj heq
      obtain rfl : lexeme = .endOfInput := hlast
      exact absurd rfl (hne span)
    | cons first body =>
      obtain ⟨rfl, rfl⟩ := List.cons.inj heq
      exact ⟨body, last, rfl, hlast⟩
  · exact h

end Cursor.Sound

namespace Parser

variable {α β : Type}

/-- A procedure leaves only tokens whose spans satisfy `P`, and its result satisfies `Q`; or it
blames a span that satisfies `P`. -/
def Keeps (P : Span → Prop) (p : Parser α) (Q : α → Prop) : Prop :=
  ∀ s, s.Sound P → match p s with
    | .ok (a, t) => t.Sound P ∧ Q a
    | .error h => h.Within P

/-! ## Steps -/

theorem keeps_pure {a : α} {Q : α → Prop} (h : Q a) : Keeps P (pure a) Q :=
  fun _ hs => ⟨hs, h⟩

theorem keeps_bind {p : Parser α} {f : α → Parser β} {Q : α → Prop} {R : β → Prop}
    (hp : Keeps P p Q) (hf : ∀ a, Q a → Keeps P (f a) R) : Keeps P (p >>= f) R := by
  intro s hs
  have h := hp s hs
  change match (p s >>= fun (a, t) => f a t) with
    | .ok (b, t) => t.Sound P ∧ R b
    | .error h => h.Within P
  cases hr : p s with
  | error halt =>
    rw [hr] at h
    exact h
  | ok r =>
    rw [hr] at h
    exact hf r.1 h.2 r.2 h.1

theorem keeps_tooDeep {Q : α → Prop} : Keeps P tooDeep Q := fun _ _ => trivial

theorem keeps_fail {cause : ParseFault} {span : Span} {Q : α → Prop} (h : P span) :
    Keeps P (fail cause span) Q :=
  fun _ _ => h

theorem keeps_get : Keeps P get (Cursor.Sound P) := fun _ hs => ⟨hs, hs⟩

theorem keeps_peek : Keeps P peek fun t => P t.span := fun _ hs => ⟨hs, hs.peek⟩

theorem keeps_take : Keeps P take fun t => P t.span := fun _ hs => ⟨hs.next, hs.peek⟩

theorem keeps_discard {p : Parser α} {Q : α → Prop} (hp : Keeps P p Q) :
    Keeps P (discard p) fun _ => True := by
  have hd : discard p = p >>= fun _ => pure ⟨⟩ := by
    simp only [discard, map_const, bind_pure_comp]
    rfl
  rw [hd]
  exact keeps_bind hp fun _ _ => keeps_pure trivial

theorem keeps_accept (l : Lexeme) : Keeps P (accept l) fun _ => True := by
  intro s hs
  change match (if s.at? l then (true, s.next) else (false, s) : Bool × Cursor) with
    | (_, t) => t.Sound P ∧ True
  split
  · next heq =>
    split at heq
    · obtain ⟨-, rfl⟩ := Prod.mk.inj heq
      exact ⟨hs.next, trivial⟩
    · obtain ⟨-, rfl⟩ := Prod.mk.inj heq
      exact ⟨hs, trivial⟩

theorem keeps_expect (s : Symbol) (wanted : String) : Keeps P (expect s wanted) fun _ => True := by
  refine keeps_bind keeps_peek fun t ht => ?_
  split
  · exact keeps_discard keeps_take
  · exact keeps_fail ht

theorem keeps_identifier : Keeps P identifier fun r => P r.2 := by
  refine keeps_bind keeps_peek fun t ht => ?_
  split
  · exact keeps_bind (keeps_discard keeps_take) fun _ _ => keeps_pure ht
  · exact keeps_fail ht

/-! ## Repetitions -/

theorem keeps_chainRest {build? : Token → Option (Expr → Expr → Expr)} {operand : Parser Expr}
    (hb : ∀ t build left right, build? t = some build → P t.span → left.SpansIn P →
      right.SpansIn P → (build left right).SpansIn P)
    (ho : Keeps P operand (Expr.SpansIn P)) (left : Expr) (hl : left.SpansIn P) :
    Keeps P (chainRest build? operand left) (Expr.SpansIn P) := by
  intro s hs
  fun_induction chainRest build? operand left s with
  | case1 left s hnone => exact ⟨hs, hl⟩
  | case2 left s build hbuild halt hr =>
    have h := ho s.next hs.next
    rwa [hr] at h
  | case3 left s build hbuild right t hr hlt ih =>
    have h := ho s.next hs.next
    rw [hr] at h
    exact ih (hb _ _ _ _ hbuild hs.peek hl h.2) h.1
  | case4 => trivial

theorem keeps_chain {build? : Token → Option (Expr → Expr → Expr)} {operand : Parser Expr}
    (hb : ∀ t build left right, build? t = some build → P t.span → left.SpansIn P →
      right.SpansIn P → (build left right).SpansIn P)
    (ho : Keeps P operand (Expr.SpansIn P)) : Keeps P (chain build? operand) (Expr.SpansIn P) :=
  keeps_bind ho fun left hl => keeps_chainRest hb ho left hl

theorem keeps_separated {item : List α → Parser α} {Q : α → Prop}
    (hi : ∀ seen, Keeps P (item seen) Q) (seen : List α) (hseen : ∀ x ∈ seen, Q x) :
    Keeps P (separated item seen) fun xs => ∀ x ∈ xs, Q x := by
  intro s hs
  have hmore {seen : List α} {x : α} (hseen : ∀ y ∈ seen, Q y) (hx : Q x) :
      ∀ y ∈ seen ++ [x], Q y := by
    simpa [or_imp, forall_and] using And.intro hseen hx
  fun_induction separated item seen s with
  | case1 seen s halt hr =>
    have h := hi seen s hs
    rwa [hr] at h
  | case2 seen s x t hr hcomma hlt ih =>
    have h := hi seen s hs
    rw [hr] at h
    exact ih (hmore hseen h.2) h.1.next
  | case3 => trivial
  | case4 seen s x t hr hcomma =>
    have h := hi seen s hs
    rw [hr] at h
    exact ⟨h.1, hmore hseen h.2⟩

theorem keeps_many (stop : Lexeme → Bool) {item : Parser Stmt}
    (hi : Keeps P item (Stmt.SpansIn P)) : Keeps P (many stop item) (BlockSpansIn P) := by
  intro s hs
  fun_induction many stop item s with
  | case1 s hstop => exact ⟨hs, by simp [BlockSpansIn, spansOfBlock]⟩
  | case2 s hgo halt hr =>
    have h := hi s hs
    rwa [hr] at h
  | case3 s hgo x t hr hlt ih =>
    have h := hi s hs
    rw [hr] at h
    have hrest := ih h.1
    cases hm : many stop item t with
    | error halt =>
      rw [hm] at hrest
      exact hrest
    | ok r =>
      rw [hm] at hrest
      refine ⟨hrest.1, ?_⟩
      have hx := h.2
      have hxs := hrest.2
      simp only [BlockSpansIn, spansOfBlock, List.forall_mem_append]
      exact ⟨hx, hxs⟩
  | case4 => trivial

theorem keeps_items {item : List α → Parser α} {Q : α → Prop}
    (hi : ∀ seen, Keeps P (item seen) Q) (closing : Symbol) (wanted : String) :
    Keeps P (items item closing wanted) fun xs => ∀ x ∈ xs, Q x := by
  refine keeps_bind keeps_get fun s _ => ?_
  have hrest (xs : List α) (hxs : ∀ x ∈ xs, Q x) :
      Keeps P (do expect closing wanted; return xs) fun xs => ∀ x ∈ xs, Q x :=
    keeps_bind (keeps_expect closing wanted) fun _ _ => keeps_pure hxs
  dsimp only
  split
  · exact keeps_bind (keeps_pure (by simp)) hrest
  · exact keeps_bind (keeps_separated hi [] (by simp)) hrest

theorem keeps_parameter (seen : List Name) : Keeps P (parameter seen) fun _ => True := by
  refine keeps_bind keeps_identifier fun (name, span) hspan => ?_
  dsimp only
  split
  · exact keeps_fail hspan
  · exact keeps_pure trivial

theorem keeps_parameters : Keeps P parameters fun _ => True := by
  refine keeps_bind (keeps_expect _ _) fun _ _ => ?_
  intro s hs
  have h := keeps_items keeps_parameter .rightParen ")" s hs
  cases hr : items parameter .rightParen ")" s with
  | error halt =>
    rw [hr] at h
    exact h
  | ok r =>
    rw [hr] at h
    exact ⟨h.1, trivial⟩

/-! ## Operators -/

theorem binaryOf_spansIn {ops : List (Symbol × BinaryOp)} {t : Token}
    {build : Expr → Expr → Expr} {left right : Expr} (hb : binaryOf ops t = some build)
    (ht : P t.span) (hl : left.SpansIn P) (hr : right.SpansIn P) :
    (build left right).SpansIn P := by
  unfold binaryOf at hb
  split at hb
  · obtain ⟨op, -, rfl⟩ := Option.map_eq_some_iff.mp hb
    simp only [Expr.SpansIn, Expr.spans, List.forall_mem_cons, List.forall_mem_append]
    exact ⟨ht, hl, hr⟩
  · contradiction

theorem logicalOf_spansIn {symbol : Symbol} {op : LogicalOp} {t : Token}
    {build : Expr → Expr → Expr} {left right : Expr} (hb : logicalOf symbol op t = some build)
    (ht : P t.span) (hl : left.SpansIn P) (hr : right.SpansIn P) :
    (build left right).SpansIn P := by
  unfold logicalOf at hb
  split at hb
  · obtain rfl := Option.some.inj hb
    simp only [Expr.SpansIn, Expr.spans, List.forall_mem_cons, List.forall_mem_append]
    exact ⟨ht, hl, hr⟩
  · contradiction

theorem keeps_levels {operand : Parser Expr} (ho : Keeps P operand (Expr.SpansIn P)) :
    Keeps P (levels operand) (Expr.SpansIn P) := by
  have hbinary {ops : List (Symbol × BinaryOp)} {inner : Parser Expr}
      (hi : Keeps P inner (Expr.SpansIn P)) :
      Keeps P (chain (binaryOf ops) inner) (Expr.SpansIn P) :=
    keeps_chain (fun _ _ _ _ => binaryOf_spansIn) hi
  have hlogical {symbol : Symbol} {op : LogicalOp} {inner : Parser Expr}
      (hi : Keeps P inner (Expr.SpansIn P)) :
      Keeps P (chain (logicalOf symbol op) inner) (Expr.SpansIn P) :=
    keeps_chain (fun _ _ _ _ => logicalOf_spansIn) hi
  exact hlogical (hlogical (hbinary (hbinary (hbinary (hbinary ho)))))

theorem keeps_suffix {inner step : Parser Expr} {target : Expr} {t : Token}
    (hi : Keeps P inner (Expr.SpansIn P)) (htarget : target.SpansIn P) (ht : P t.span)
    (hstep : suffix? inner target t = some step) : Keeps P step (Expr.SpansIn P) := by
  unfold suffix? at hstep
  split at hstep
  · obtain rfl := Option.some.inj hstep
    refine keeps_bind (keeps_items (fun _ => hi) _ _) fun es hes => keeps_pure ?_
    simp only [Expr.SpansIn, Expr.spans, List.forall_mem_cons, List.forall_mem_append,
      spansOfExprs_iff]
    exact ⟨ht, htarget, hes⟩
  · obtain rfl := Option.some.inj hstep
    refine keeps_bind hi fun index hindex => ?_
    refine keeps_bind (keeps_expect _ _) fun _ _ => keeps_pure ?_
    simp only [Expr.SpansIn, Expr.spans, List.forall_mem_cons, List.forall_mem_append]
    exact ⟨ht, htarget, hindex⟩
  · contradiction

theorem keeps_postfixRest {inner : Parser Expr} (hi : Keeps P inner (Expr.SpansIn P))
    (target : Expr) (htarget : target.SpansIn P) :
    Keeps P (postfixRest inner target) (Expr.SpansIn P) := by
  intro s hs
  fun_induction postfixRest inner target s with
  | case1 target s hline => exact ⟨hs, htarget⟩
  | case2 target s hline hnone => exact ⟨hs, htarget⟩
  | case3 target s hline step hstep halt hr =>
    have h := keeps_suffix hi htarget hs.peek hstep s.next hs.next
    rwa [hr] at h
  | case4 target s hline step hstep e t hr hlt ih =>
    have h := keeps_suffix hi htarget hs.peek hstep s.next hs.next
    rw [hr] at h
    exact ih h.2 h.1
  | case5 => trivial

theorem assign?_spansIn {target value : Expr} {span : Span} {x : Stmt}
    (hx : assign? target value span = some x) (ht : target.SpansIn P) (hv : value.SpansIn P)
    (hs : P span) : x.SpansIn P := by
  unfold assign? at hx
  split at hx
  · obtain rfl := Option.some.inj hx
    simp only [Stmt.SpansIn, Stmt.spans, List.forall_mem_cons]
    exact ⟨hs, hv⟩
  · obtain rfl := Option.some.inj hx
    simp only [Expr.SpansIn, Expr.spans, List.forall_mem_cons, List.forall_mem_append] at ht
    simp only [Stmt.SpansIn, Stmt.spans, List.forall_mem_cons, List.forall_mem_append]
    exact ⟨hs, ht.2.1, ht.2.2, hv⟩
  · contradiction

theorem keeps_expressionOrAssignment {inner : Parser Expr} (hi : Keeps P inner (Expr.SpansIn P))
    {span : Span} (hs : P span) :
    Keeps P (expressionOrAssignment inner span) (Stmt.SpansIn P) := by
  refine keeps_bind hi fun target htarget => ?_
  refine keeps_bind keeps_peek fun equals hequals => ?_
  refine keeps_bind (keeps_accept _) fun found _ => ?_
  split
  · refine keeps_bind hi fun value hv => ?_
    split
    · next x hx => exact keeps_pure (assign?_spansIn hx htarget hv hs)
    · exact keeps_fail hequals
  · refine keeps_pure ?_
    simp only [Stmt.SpansIn, Stmt.spans, List.forall_mem_cons]
    exact ⟨hs, htarget⟩

theorem keeps_binding {inner : Parser Expr} (hi : Keeps P inner (Expr.SpansIn P)) :
    Keeps P (binding inner) fun r => r.2.SpansIn P := by
  refine keeps_bind keeps_identifier fun _ _ => ?_
  refine keeps_bind (keeps_expect _ _) fun _ _ => ?_
  exact keeps_bind hi fun e he => keeps_pure he

theorem keeps_alternative {branch : Span → Parser Stmt} {body : Parser (List Stmt)}
    (hbranch : ∀ span, P span → Keeps P (branch span) (Stmt.SpansIn P))
    (hbody : Keeps P body (BlockSpansIn P)) :
    Keeps P (alternative branch body) fun found => ∀ b, found = some b → BlockSpansIn P b := by
  refine keeps_bind (keeps_accept _) fun found _ => ?_
  split
  · refine keeps_bind keeps_peek fun t ht => ?_
    refine keeps_bind (keeps_accept _) fun found _ => ?_
    split
    · refine keeps_bind (hbranch t.span ht) fun inner hi => keeps_pure fun b hb => ?_
      obtain rfl := Option.some.inj hb
      simpa [BlockSpansIn, spansOfBlock, Stmt.SpansIn] using hi
    · refine keeps_bind hbody fun b hb => keeps_pure fun b' hb' => ?_
      obtain rfl := Option.some.inj hb'
      exact hb
  · exact keeps_pure fun b hb => by cases hb

/-! ## One depth -/

/-- Everything that is parsed at a nesting depth takes its spans from the tokens. -/
structure KeepsAt (P : Span → Prop) (depth : Nat) : Prop where
  expression : Keeps P (expression depth) (Expr.SpansIn P)
  unary : Keeps P (unary depth) (Expr.SpansIn P)
  primary : Keeps P (primary depth) (Expr.SpansIn P)
  block : Keeps P (block depth) (BlockSpansIn P)
  functionRest : ∀ exported span, P span →
    Keeps P (functionRest depth exported span) (Stmt.SpansIn P)
  branchRest : ∀ span, P span → Keeps P (branchRest depth span) (Stmt.SpansIn P)
  bareStatement : Keeps P (bareStatement depth) (Stmt.SpansIn P)
  statement : Keeps P (statement depth) (Stmt.SpansIn P)

namespace KeepsAt

variable {depth : Nat}

theorem zero : KeepsAt P 0 where
  expression := keeps_tooDeep
  unary := keeps_tooDeep
  primary := keeps_tooDeep
  block := keeps_tooDeep
  functionRest _ _ _ := keeps_tooDeep
  branchRest _ _ := keeps_tooDeep
  bareStatement := keeps_tooDeep
  statement := keeps_tooDeep

theorem unary_succ (ih : KeepsAt P depth) : Keeps P (Parser.unary (depth + 1)) (Expr.SpansIn P) := by
  refine keeps_bind keeps_peek fun t ht => ?_
  split
  · refine keeps_bind (keeps_discard keeps_take) fun _ _ => ?_
    refine keeps_bind ih.unary fun operand ho => keeps_pure ?_
    simp only [Expr.SpansIn, Expr.spans, List.forall_mem_cons]
    exact ⟨ht, ho⟩
  · exact keeps_bind ih.primary fun e he => keeps_postfixRest ih.expression e he

theorem primary_succ (ih : KeepsAt P depth) :
    Keeps P (Parser.primary (depth + 1)) (Expr.SpansIn P) := by
  refine keeps_bind keeps_take fun t ht => ?_
  have hleaf {e : Expr} (he : e.spans = [t.span]) : e.SpansIn P := by
    simpa [Expr.SpansIn, he] using ht
  split
  · exact keeps_pure (hleaf rfl)
  · exact keeps_pure (hleaf rfl)
  · exact keeps_pure (hleaf rfl)
  · exact keeps_pure (hleaf rfl)
  · exact keeps_pure (hleaf rfl)
  · exact keeps_pure (hleaf rfl)
  · refine keeps_bind ih.expression fun inner hi => ?_
    refine keeps_bind (keeps_expect _ _) fun _ _ => keeps_pure ?_
    simp only [Expr.SpansIn, Expr.spans, List.forall_mem_cons]
    exact ⟨ht, hi⟩
  · refine keeps_bind (keeps_items (fun _ => ih.expression) _ _) fun es hes => keeps_pure ?_
    simp only [Expr.SpansIn, Expr.spans, List.forall_mem_cons, spansOfExprs_iff]
    exact ⟨ht, hes⟩
  · refine keeps_bind keeps_parameters fun names _ => ?_
    refine keeps_bind ih.block fun body hb => keeps_pure ?_
    simp only [Expr.SpansIn, Expr.spans, List.forall_mem_cons]
    exact ⟨ht, hb⟩
  · exact keeps_fail ht

theorem block_succ (ih : KeepsAt P depth) : Keeps P (Parser.block (depth + 1)) (BlockSpansIn P) := by
  refine keeps_bind (keeps_expect _ _) fun _ _ => ?_
  refine keeps_bind (keeps_many _ ih.statement) fun body hb => ?_
  exact keeps_bind (keeps_expect _ _) fun _ _ => keeps_pure hb

theorem functionRest_succ (ih : KeepsAt P depth) (exported : Bool) {span : Span} (hs : P span) :
    Keeps P (Parser.functionRest (depth + 1) exported span) (Stmt.SpansIn P) := by
  refine keeps_bind keeps_identifier fun (name, _) _ => ?_
  refine keeps_bind keeps_parameters fun names _ => ?_
  refine keeps_bind ih.block fun body hb => keeps_pure ?_
  simp only [Stmt.SpansIn, Stmt.spans, List.forall_mem_cons]
  exact ⟨hs, hb⟩

theorem branchRest_succ (ih : KeepsAt P depth) {span : Span} (hs : P span) :
    Keeps P (Parser.branchRest (depth + 1) span) (Stmt.SpansIn P) := by
  refine keeps_bind ih.expression fun condition hc => ?_
  refine keeps_bind ih.block fun consequent hq => ?_
  refine keeps_bind (keeps_alternative ih.branchRest ih.block) fun alternative ha => keeps_pure ?_
  cases alternative with
  | none =>
    simp only [Stmt.SpansIn, Stmt.spans, List.forall_mem_cons, List.forall_mem_append]
    exact ⟨hs, hc, hq⟩
  | some body =>
    simp only [Stmt.SpansIn, Stmt.spans, List.forall_mem_cons, List.forall_mem_append]
    exact ⟨hs, hc, hq, ha body rfl⟩

theorem bareStatement_succ (ih : KeepsAt P depth) :
    Keeps P (Parser.bareStatement (depth + 1)) (Stmt.SpansIn P) := by
  refine keeps_bind keeps_peek fun t ht => ?_
  have hvalue {s : Stmt} {e : Expr} (he : e.SpansIn P) (hspans : s.spans = t.span :: e.spans) :
      s.SpansIn P := by
    rw [Stmt.SpansIn, hspans, List.forall_mem_cons]
    exact ⟨ht, he⟩
  have hleaf {s : Stmt} (hspans : s.spans = [t.span]) : s.SpansIn P := by
    simpa [Stmt.SpansIn, hspans] using ht
  split
  · refine keeps_bind (keeps_discard keeps_take) fun _ _ => ?_
    refine keeps_bind (keeps_accept _) fun found _ => ?_
    split
    · exact ih.functionRest true t.span ht
    · exact keeps_bind (keeps_binding ih.expression) fun _ he => keeps_pure (hvalue he rfl)
  · refine keeps_bind (keeps_discard keeps_take) fun _ _ => ?_
    exact keeps_bind (keeps_binding ih.expression) fun _ he => keeps_pure (hvalue he rfl)
  · refine keeps_bind (keeps_discard keeps_take) fun _ _ => ?_
    exact ih.branchRest t.span ht
  · refine keeps_bind (keeps_discard keeps_take) fun _ _ => ?_
    refine keeps_bind ih.block fun body hb => keeps_pure ?_
    simp only [Stmt.SpansIn, Stmt.spans, List.forall_mem_cons]
    exact ⟨ht, hb⟩
  · refine keeps_bind (keeps_discard keeps_take) fun _ _ => ?_
    exact keeps_pure (hleaf rfl)
  · refine keeps_bind (keeps_discard keeps_take) fun _ _ => ?_
    refine keeps_bind keeps_peek fun next _ => ?_
    split
    · exact keeps_pure (hleaf rfl)
    · exact keeps_pure (hleaf rfl)
    · exact keeps_pure (hleaf rfl)
    · exact keeps_bind ih.expression fun e he => keeps_pure (hvalue he rfl)
  · refine keeps_bind keeps_get fun s _ => ?_
    dsimp only
    split
    · refine keeps_bind (keeps_discard keeps_take) fun _ _ => ?_
      exact ih.functionRest false t.span ht
    · exact keeps_expressionOrAssignment ih.expression ht

theorem statement_succ (ih : KeepsAt P depth) :
    Keeps P (Parser.statement (depth + 1)) (Stmt.SpansIn P) := by
  refine keeps_bind ih.bareStatement fun s hs => ?_
  exact keeps_bind (keeps_discard (keeps_accept _)) fun _ _ => keeps_pure hs

end KeepsAt

/-! ## All depths -/

theorem keepsAt (P : Span → Prop) (depth : Nat) : KeepsAt P depth := by
  induction depth with
  | zero => exact .zero
  | succ depth ih =>
    exact
      { expression := keeps_levels ih.unary
        unary := ih.unary_succ
        primary := ih.primary_succ
        block := ih.block_succ
        functionRest := fun exported _ hs => ih.functionRest_succ exported hs
        branchRest := fun _ hs => ih.branchRest_succ hs
        bareStatement := ih.bareStatement_succ
        statement := ih.statement_succ }

end Parser

/-- A program takes its spans from the tokens of which it is parsed, and so does what is blamed if
they are no program. -/
theorem parse_spans (depth : Nat) {tokens : List Token} (hspans : ∀ t ∈ tokens, P t.span)
    (hended : Token.Ended tokens) :
    match parse depth tokens with
    | .ok statements => BlockSpansIn P statements
    | .error h => h.Within P := by
  have h := Parser.keeps_many (fun _ => false) (Parser.keepsAt P depth).statement ⟨0, tokens⟩
    ⟨hspans, hended⟩
  unfold parse
  cases hr : Parser.many (fun _ => false) (Parser.statement depth) ⟨0, tokens⟩ with
  | error halt =>
    rw [hr] at h
    exact h
  | ok r =>
    rw [hr] at h
    exact h.2

end HostScript
