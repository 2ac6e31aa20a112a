import HostScript.Syntax.Tree

/-!
# The spans in a tree

All spans that occur in an expression, a statement or a block, those in the bodies of functions
included. These are the places that a fault of the tree can be blamed on. A tree can be moved: then
it is the same but for its spans, of which each has another in its place.
-/

namespace HostScript

mutual

/-- The spans of an expression and of all that it is made of. -/
def Expr.spans : Expr → List Span
  | .literal _ span => [span]
  | .variable _ span => [span]
  | .unary _ operand span => span :: operand.spans
  | .binary left _ right span => span :: (left.spans ++ right.spans)
  | .logical left _ right span => span :: (left.spans ++ right.spans)
  | .grouping inner span => span :: inner.spans
  | .call callee arguments span => span :: (callee.spans ++ spansOfExprs arguments)
  | .index target index span => span :: (target.spans ++ index.spans)
  | .array items span => span :: spansOfExprs items
  | .function _ body span => span :: spansOfBlock body

/-- The spans of some expressions. -/
def spansOfExprs : List Expr → List Span
  | [] => []
  | e :: rest => e.spans ++ spansOfExprs rest

/-- The spans of a statement and of all that it is made of. -/
def Stmt.spans : Stmt → List Span
  | .expression e span => span :: e.spans
  | .declare _ e span => span :: e.spans
  | .publish _ e span => span :: e.spans
  | .assign _ e span => span :: e.spans
  | .assignIndex target index e span => span :: (target.spans ++ (index.spans ++ e.spans))
  | .function _ _ body _ span => span :: spansOfBlock body
  | .branch condition consequent none span =>
    span :: (condition.spans ++ spansOfBlock consequent)
  | .branch condition consequent (some alternative) span =>
    span :: (condition.spans ++ (spansOfBlock consequent ++ spansOfBlock alternative))
  | .loop body span => span :: spansOfBlock body
  | .leave span => [span]
  | .give none span => [span]
  | .give (some e) span => span :: e.spans

/-- The spans of some statements. -/
def spansOfBlock : List Stmt → List Span
  | [] => []
  | s :: rest => s.spans ++ spansOfBlock rest

end

/-- All spans of an expression satisfy a predicate. -/
def Expr.SpansIn (P : Span → Prop) (e : Expr) : Prop := ∀ span ∈ e.spans, P span

/-- All spans of a statement satisfy a predicate. -/
def Stmt.SpansIn (P : Span → Prop) (s : Stmt) : Prop := ∀ span ∈ s.spans, P span

/-- All spans of a block satisfy a predicate. -/
def BlockSpansIn (P : Span → Prop) (body : List Stmt) : Prop := ∀ span ∈ spansOfBlock body, P span

theorem spansOfExprs_iff {P : Span → Prop} {es : List Expr} :
    (∀ span ∈ spansOfExprs es, P span) ↔ ∀ e ∈ es, e.SpansIn P := by
  induction es with
  | nil => simp [spansOfExprs]
  | cons e rest ih =>
    simp only [spansOfExprs, List.forall_mem_append, List.forall_mem_cons, ih, Expr.SpansIn]

theorem blockSpansIn_iff {P : Span → Prop} {body : List Stmt} :
    BlockSpansIn P body ↔ ∀ s ∈ body, s.SpansIn P := by
  induction body with
  | nil => simp [BlockSpansIn, spansOfBlock]
  | cons s rest ih =>
    simp only [BlockSpansIn] at ih
    simp only [BlockSpansIn, spansOfBlock, List.forall_mem_append, List.forall_mem_cons, ih,
      Stmt.SpansIn]

/-! ## Moving trees -/

mutual

/-- An expression with its spans moved. -/
def Expr.moved (f : Span → Span) : Expr → Expr
  | .literal value σ => .literal value (f σ)
  | .variable name σ => .variable name (f σ)
  | .unary op operand σ => .unary op (operand.moved f) (f σ)
  | .binary left op right σ => .binary (left.moved f) op (right.moved f) (f σ)
  | .logical left op right σ => .logical (left.moved f) op (right.moved f) (f σ)
  | .grouping inner σ => .grouping (inner.moved f) (f σ)
  | .call callee arguments σ => .call (callee.moved f) (moveExprs f arguments) (f σ)
  | .index target index σ => .index (target.moved f) (index.moved f) (f σ)
  | .array items σ => .array (moveExprs f items) (f σ)
  | .function parameters body σ => .function parameters (moveBlock f body) (f σ)

/-- Some expressions with their spans moved. -/
def moveExprs (f : Span → Span) : List Expr → List Expr
  | [] => []
  | e :: rest => e.moved f :: moveExprs f rest

/-- A statement with its spans moved. -/
def Stmt.moved (f : Span → Span) : Stmt → Stmt
  | .expression e σ => .expression (e.moved f) (f σ)
  | .declare name e σ => .declare name (e.moved f) (f σ)
  | .publish name e σ => .publish name (e.moved f) (f σ)
  | .assign name e σ => .assign name (e.moved f) (f σ)
  | .assignIndex target index e σ =>
    .assignIndex (target.moved f) (index.moved f) (e.moved f) (f σ)
  | .function name parameters body exported σ =>
    .function name parameters (moveBlock f body) exported (f σ)
  | .branch condition consequent none σ =>
    .branch (condition.moved f) (moveBlock f consequent) none (f σ)
  | .branch condition consequent (some alternative) σ =>
    .branch (condition.moved f) (moveBlock f consequent) (some (moveBlock f alternative)) (f σ)
  | .loop body σ => .loop (moveBlock f body) (f σ)
  | .leave σ => .leave (f σ)
  | .give none σ => .give none (f σ)
  | .give (some e) σ => .give (some (e.moved f)) (f σ)

/-- Some statements with their spans moved. -/
def moveBlock (f : Span → Span) : List Stmt → List Stmt
  | [] => []
  | s :: rest => s.moved f :: moveBlock f rest

end

mutual

/-- A tree whose spans are moved to where they are stays as it is. -/
@[simp] theorem Expr.moved_id : ∀ e : Expr, e.moved id = e
  | .literal _ _ => by simp [Expr.moved]
  | .variable _ _ => by simp [Expr.moved]
  | .unary _ operand _ => by simp [Expr.moved, operand.moved_id]
  | .binary left _ right _ => by simp [Expr.moved, left.moved_id, right.moved_id]
  | .logical left _ right _ => by simp [Expr.moved, left.moved_id, right.moved_id]
  | .grouping inner _ => by simp [Expr.moved, inner.moved_id]
  | .call callee arguments _ => by simp [Expr.moved, callee.moved_id, moveExprs_id arguments]
  | .index target index _ => by simp [Expr.moved, target.moved_id, index.moved_id]
  | .array items _ => by simp [Expr.moved, moveExprs_id items]
  | .function _ body _ => by simp [Expr.moved, moveBlock_id body]

@[simp] theorem moveExprs_id : ∀ es : List Expr, moveExprs id es = es
  | [] => rfl
  | e :: rest => by rw [moveExprs, e.moved_id, moveExprs_id rest]

@[simp] theorem Stmt.moved_id : ∀ s : Stmt, s.moved id = s
  | .expression e _ => by simp [Stmt.moved, e.moved_id]
  | .declare _ e _ => by simp [Stmt.moved, e.moved_id]
  | .publish _ e _ => by simp [Stmt.moved, e.moved_id]
  | .assign _ e _ => by simp [Stmt.moved, e.moved_id]
  | .assignIndex target index e _ => by
    simp [Stmt.moved, target.moved_id, index.moved_id, e.moved_id]
  | .function _ _ body _ _ => by simp [Stmt.moved, moveBlock_id body]
  | .branch condition body none _ => by
    simp [Stmt.moved, condition.moved_id, moveBlock_id body]
  | .branch condition body (some other) _ => by
    simp [Stmt.moved, condition.moved_id, moveBlock_id body, moveBlock_id other]
  | .loop body _ => by simp [Stmt.moved, moveBlock_id body]
  | .leave _ => by simp [Stmt.moved]
  | .give none _ => by simp [Stmt.moved]
  | .give (some e) _ => by simp [Stmt.moved, e.moved_id]

@[simp] theorem moveBlock_id : ∀ body : List Stmt, moveBlock id body = body
  | [] => rfl
  | s :: rest => by rw [moveBlock, s.moved_id, moveBlock_id rest]

end

end HostScript
