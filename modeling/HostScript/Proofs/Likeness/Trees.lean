import HostScript.Proofs.Syntax.Spans
import HostScript.Run.World
import Mathlib.Data.List.Forall2

/-!
# Programs that are alike

A `Likeness` says in what two runs may differ: in spans, in events that nobody looks at, and in the
name of a parameter. Where the parameter has another name, so have all its occurrences: the code of
a program lies outside or inside of such functions (`Region`), and names are replaced inside only.
`ExprLike`, `StmtLike` and `BlockLike` say of two trees that they differ in nothing else.
-/

namespace HostScript

/-- What may differ between two runs. Inside some functions that have the parameter `old` the second
run has the name `new` in its place; spans are related; and only some events are compared, the calls
of the host among them. -/
structure Likeness where
  old : Option Name
  new : Name
  span : Span → Span → Prop
  shows : Event → Bool
  shows_called : ∀ c, shows (.called c) = true

/-- Where code stands: outside of all functions with another parameter name, or inside of one. -/
inductive Region
  | outside
  | inside
deriving DecidableEq

namespace Likeness

variable (b : Likeness)

/-- The name that the second run has in the place of a name. -/
def name : Region → Name → Name
  | .outside, n => n
  | .inside, n => if b.old = some n then b.new else n

/-- Spans that may stay as they are. -/
def Same (σ : Span) : Prop := b.span σ σ

/-- Names that may occur: inside, the new name is not taken. -/
def Admits : Region → Name → Prop
  | .outside, _ => True
  | .inside, n => n ≠ b.new

/-- Names that may occur and stay as they are. -/
def Keeps : Region → Name → Prop
  | .outside, _ => True
  | .inside, n => n ≠ b.new ∧ b.old ≠ some n

/-- Where the body of a function with the given parameters stands. -/
inductive Opens : Region → List Name → Region → Prop
  | same (region : Region) (parameters : List Name) : Opens region parameters region
  | renamed {n : Name} {parameters : List Name} (hold : b.old = some n) (hmem : n ∈ parameters) :
    Opens .outside parameters .inside

end Likeness

mutual

/-- Expressions that are alike. -/
inductive ExprLike (b : Likeness) : Region → Expr → Expr → Prop
  | literal {region : Region} (value : Literal) {σ σ' : Span} (hσ : b.span σ σ') :
    ExprLike b region (.literal value σ) (.literal value σ')
  | «variable» {region : Region} {n : Name} (hn : b.Admits region n) {σ σ' : Span}
    (hσ : b.span σ σ') : ExprLike b region (.variable n σ) (.variable (b.name region n) σ')
  | unary {region : Region} (op : UnaryOp) {e e' : Expr} (he : ExprLike b region e e')
    {σ σ' : Span} (hσ : b.span σ σ') : ExprLike b region (.unary op e σ) (.unary op e' σ')
  | binary {region : Region} {l l' r r' : Expr} (hl : ExprLike b region l l') (op : BinaryOp)
    (hr : ExprLike b region r r') {σ σ' : Span} (hσ : b.span σ σ') :
    ExprLike b region (.binary l op r σ) (.binary l' op r' σ')
  | logical {region : Region} {l l' r r' : Expr} (hl : ExprLike b region l l') (op : LogicalOp)
    (hr : ExprLike b region r r') {σ σ' : Span} (hσ : b.span σ σ') :
    ExprLike b region (.logical l op r σ) (.logical l' op r' σ')
  | grouping {region : Region} {e e' : Expr} (he : ExprLike b region e e') {σ σ' : Span}
    (hσ : b.span σ σ') : ExprLike b region (.grouping e σ) (.grouping e' σ')
  | call {region : Region} {e e' : Expr} (he : ExprLike b region e e') {es es' : List Expr}
    (hes : ExprsLike b region es es') {σ σ' : Span} (hσ : b.span σ σ') :
    ExprLike b region (.call e es σ) (.call e' es' σ')
  | index {region : Region} {t t' i i' : Expr} (ht : ExprLike b region t t')
    (hi : ExprLike b region i i') {σ σ' : Span} (hσ : b.span σ σ') :
    ExprLike b region (.index t i σ) (.index t' i' σ')
  | array {region : Region} {es es' : List Expr} (hes : ExprsLike b region es es') {σ σ' : Span}
    (hσ : b.span σ σ') : ExprLike b region (.array es σ) (.array es' σ')
  | function {region inner : Region} {parameters : List Name} {body body' : List Stmt}
    (ho : b.Opens region parameters inner) (hp : ∀ n ∈ parameters, b.Admits inner n)
    (hbody : BlockLike b inner body body') {σ σ' : Span} (hσ : b.span σ σ') :
    ExprLike b region (.function parameters body σ)
      (.function (parameters.map (b.name inner)) body' σ')

/-- Rows of expressions that are alike. -/
inductive ExprsLike (b : Likeness) : Region → List Expr → List Expr → Prop
  | nil {region : Region} : ExprsLike b region [] []
  | cons {region : Region} {e e' : Expr} {es es' : List Expr} (he : ExprLike b region e e')
    (hes : ExprsLike b region es es') : ExprsLike b region (e :: es) (e' :: es')

/-- Statements that are alike. -/
inductive StmtLike (b : Likeness) : Region → Stmt → Stmt → Prop
  | expression {region : Region} {e e' : Expr} (he : ExprLike b region e e') {σ σ' : Span}
    (hσ : b.span σ σ') : StmtLike b region (.expression e σ) (.expression e' σ')
  | declare {region : Region} {n : Name} (hn : b.Admits region n) {e e' : Expr}
    (he : ExprLike b region e e') {σ σ' : Span} (hσ : b.span σ σ') :
    StmtLike b region (.declare n e σ) (.declare (b.name region n) e' σ')
  | publish {region : Region} {n : Name} (hn : b.Keeps region n) {e e' : Expr}
    (he : ExprLike b region e e') {σ σ' : Span} (hσ : b.span σ σ') :
    StmtLike b region (.publish n e σ) (.publish n e' σ')
  | assign {region : Region} {n : Name} (hn : b.Admits region n) {e e' : Expr}
    (he : ExprLike b region e e') {σ σ' : Span} (hσ : b.span σ σ') :
    StmtLike b region (.assign n e σ) (.assign (b.name region n) e' σ')
  | assignIndex {region : Region} {t t' i i' e e' : Expr} (ht : ExprLike b region t t')
    (hi : ExprLike b region i i') (he : ExprLike b region e e') {σ σ' : Span} (hσ : b.span σ σ') :
    StmtLike b region (.assignIndex t i e σ) (.assignIndex t' i' e' σ')
  | function {region inner : Region} {n : Name} (hn : b.Keeps region n) {parameters : List Name}
    {body body' : List Stmt} (ho : b.Opens region parameters inner)
    (hp : ∀ n ∈ parameters, b.Admits inner n) (hbody : BlockLike b inner body body')
    (exported : Bool) {σ σ' : Span} (hσ : b.span σ σ') :
    StmtLike b region (.function n parameters body exported σ)
      (.function n (parameters.map (b.name inner)) body' exported σ')
  | branch {region : Region} {c c' : Expr} (hc : ExprLike b region c c') {body body' : List Stmt}
    (hbody : BlockLike b region body body') {σ σ' : Span} (hσ : b.span σ σ') :
    StmtLike b region (.branch c body none σ) (.branch c' body' none σ')
  | branchElse {region : Region} {c c' : Expr} (hc : ExprLike b region c c')
    {body body' other other' : List Stmt} (hbody : BlockLike b region body body')
    (hother : BlockLike b region other other') {σ σ' : Span} (hσ : b.span σ σ') :
    StmtLike b region (.branch c body (some other) σ) (.branch c' body' (some other') σ')
  | loop {region : Region} {body body' : List Stmt} (hbody : BlockLike b region body body')
    {σ σ' : Span} (hσ : b.span σ σ') : StmtLike b region (.loop body σ) (.loop body' σ')
  | leave {region : Region} {σ σ' : Span} (hσ : b.span σ σ') :
    StmtLike b region (.leave σ) (.leave σ')
  | giveNull {region : Region} {σ σ' : Span} (hσ : b.span σ σ') :
    StmtLike b region (.give none σ) (.give none σ')
  | give {region : Region} {e e' : Expr} (he : ExprLike b region e e') {σ σ' : Span}
    (hσ : b.span σ σ') : StmtLike b region (.give (some e) σ) (.give (some e') σ')

/-- Blocks that are alike. -/
inductive BlockLike (b : Likeness) : Region → List Stmt → List Stmt → Prop
  | nil {region : Region} : BlockLike b region [] []
  | cons {region : Region} {s s' : Stmt} {rest rest' : List Stmt} (hs : StmtLike b region s s')
    (hrest : BlockLike b region rest rest') : BlockLike b region (s :: rest) (s' :: rest')

end

namespace Likeness

variable {b : Likeness}

theorem admits_outside {n : Name} : b.Admits .outside n := trivial

theorem keeps_outside {n : Name} : b.Keeps .outside n := trivial

theorem name_of_keeps {region : Region} {n : Name} (h : b.Keeps region n) :
    b.name region n = n := by
  cases region with
  | outside => rfl
  | inside => exact if_neg h.2

theorem Keeps.admits {region : Region} {n : Name} (h : b.Keeps region n) : b.Admits region n := by
  cases region with
  | outside => trivial
  | inside => exact h.1

/-- Names that may occur stay different. -/
theorem name_inj {region : Region} {n m : Name} (hn : b.Admits region n) (hm : b.Admits region m) :
    b.name region n = b.name region m ↔ n = m := by
  cases region with
  | outside => rfl
  | inside =>
    simp only [Admits] at hn hm
    simp only [name]
    split <;> split <;> grind

theorem map_name_outside (ns : List Name) : ns.map (b.name .outside) = ns := List.map_id ns

end Likeness

theorem ExprsLike.forall₂ {b : Likeness} {region : Region} {es es' : List Expr}
    (h : ExprsLike b region es es') : List.Forall₂ (ExprLike b region) es es' := by
  induction es generalizing es' with
  | nil =>
    cases h
    exact .nil
  | cons e rest ih =>
    cases h with
    | cons he hes => exact .cons he (ih hes)

theorem ExprsLike.of_forall₂ {b : Likeness} {region : Region} {es es' : List Expr}
    (h : List.Forall₂ (ExprLike b region) es es') : ExprsLike b region es es' := by
  induction h with
  | nil => exact .nil
  | cons he _ ih => exact .cons he ih

/-! ## Trees whose spans are moved -/

section

variable {b : Likeness} {f g : Span → Span}

mutual

/-- Outside, a tree is like itself wherever its spans are moved to, if they are related there. -/
theorem ExprLike.moved : ∀ e : Expr, e.SpansIn (fun σ => b.span (f σ) (g σ)) →
    ExprLike b .outside (e.moved f) (e.moved g)
  | .literal value σ, h => .literal value (h σ (by simp [Expr.spans]))
  | .variable n σ, h => .variable Likeness.admits_outside (h σ (by simp [Expr.spans]))
  | .unary op e σ, h => by
    simp only [Expr.SpansIn, Expr.spans, List.forall_mem_cons] at h
    exact .unary op (ExprLike.moved e h.2) h.1
  | .binary l op r σ, h => by
    simp only [Expr.SpansIn, Expr.spans, List.forall_mem_cons, List.forall_mem_append] at h
    exact .binary (ExprLike.moved l h.2.1) op (ExprLike.moved r h.2.2) h.1
  | .logical l op r σ, h => by
    simp only [Expr.SpansIn, Expr.spans, List.forall_mem_cons, List.forall_mem_append] at h
    exact .logical (ExprLike.moved l h.2.1) op (ExprLike.moved r h.2.2) h.1
  | .grouping e σ, h => by
    simp only [Expr.SpansIn, Expr.spans, List.forall_mem_cons] at h
    exact .grouping (ExprLike.moved e h.2) h.1
  | .call e es σ, h => by
    simp only [Expr.SpansIn, Expr.spans, List.forall_mem_cons, List.forall_mem_append] at h
    exact .call (ExprLike.moved e h.2.1) (ExprsLike.moved es h.2.2) h.1
  | .index t i σ, h => by
    simp only [Expr.SpansIn, Expr.spans, List.forall_mem_cons, List.forall_mem_append] at h
    exact .index (ExprLike.moved t h.2.1) (ExprLike.moved i h.2.2) h.1
  | .array es σ, h => by
    simp only [Expr.SpansIn, Expr.spans, List.forall_mem_cons] at h
    exact .array (ExprsLike.moved es h.2) h.1
  | .function parameters body σ, h => by
    simp only [Expr.SpansIn, Expr.spans, List.forall_mem_cons] at h
    have hlike := ExprLike.function (.same .outside parameters) (fun _ _ => Likeness.admits_outside)
      (BlockLike.moved body h.2) h.1
    rwa [Likeness.map_name_outside] at hlike

theorem ExprsLike.moved : ∀ es : List Expr, (∀ σ ∈ spansOfExprs es, b.span (f σ) (g σ)) →
    ExprsLike b .outside (moveExprs f es) (moveExprs g es)
  | [], _ => .nil
  | e :: rest, h => by
    simp only [spansOfExprs, List.forall_mem_append] at h
    exact .cons (ExprLike.moved e h.1) (ExprsLike.moved rest h.2)

theorem StmtLike.moved : ∀ s : Stmt, s.SpansIn (fun σ => b.span (f σ) (g σ)) →
    StmtLike b .outside (s.moved f) (s.moved g)
  | .expression e σ, h => by
    simp only [Stmt.SpansIn, Stmt.spans, List.forall_mem_cons] at h
    exact .expression (ExprLike.moved e h.2) h.1
  | .declare n e σ, h => by
    simp only [Stmt.SpansIn, Stmt.spans, List.forall_mem_cons] at h
    exact .declare Likeness.admits_outside (ExprLike.moved e h.2) h.1
  | .publish n e σ, h => by
    simp only [Stmt.SpansIn, Stmt.spans, List.forall_mem_cons] at h
    exact .publish Likeness.keeps_outside (ExprLike.moved e h.2) h.1
  | .assign n e σ, h => by
    simp only [Stmt.SpansIn, Stmt.spans, List.forall_mem_cons] at h
    exact .assign Likeness.admits_outside (ExprLike.moved e h.2) h.1
  | .assignIndex t i e σ, h => by
    simp only [Stmt.SpansIn, Stmt.spans, List.forall_mem_cons, List.forall_mem_append] at h
    obtain ⟨hσ, ht, hi, he⟩ := h
    exact .assignIndex (ExprLike.moved t ht) (ExprLike.moved i hi) (ExprLike.moved e he) hσ
  | .function n parameters body exported σ, h => by
    simp only [Stmt.SpansIn, Stmt.spans, List.forall_mem_cons] at h
    have hlike := StmtLike.function (n := n) Likeness.keeps_outside (.same .outside parameters)
      (fun _ _ => Likeness.admits_outside) (BlockLike.moved body h.2) exported h.1
    rwa [Likeness.map_name_outside] at hlike
  | .branch c body none σ, h => by
    simp only [Stmt.SpansIn, Stmt.spans, List.forall_mem_cons, List.forall_mem_append] at h
    exact .branch (ExprLike.moved c h.2.1) (BlockLike.moved body h.2.2) h.1
  | .branch c body (some other) σ, h => by
    simp only [Stmt.SpansIn, Stmt.spans, List.forall_mem_cons, List.forall_mem_append] at h
    obtain ⟨hσ, hc, hbody, hother⟩ := h
    exact .branchElse (ExprLike.moved c hc) (BlockLike.moved body hbody)
      (BlockLike.moved other hother) hσ
  | .loop body σ, h => by
    simp only [Stmt.SpansIn, Stmt.spans, List.forall_mem_cons] at h
    exact .loop (BlockLike.moved body h.2) h.1
  | .leave σ, h => .leave (h σ (by simp [Stmt.spans]))
  | .give none σ, h => .giveNull (h σ (by simp [Stmt.spans]))
  | .give (some e) σ, h => by
    simp only [Stmt.SpansIn, Stmt.spans, List.forall_mem_cons] at h
    exact .give (ExprLike.moved e h.2) h.1

theorem BlockLike.moved : ∀ body : List Stmt, BlockSpansIn (fun σ => b.span (f σ) (g σ)) body →
    BlockLike b .outside (moveBlock f body) (moveBlock g body)
  | [], _ => .nil
  | s :: rest, h => by
    simp only [BlockSpansIn, spansOfBlock, List.forall_mem_append] at h
    exact .cons (StmtLike.moved s h.1) (BlockLike.moved rest h.2)

end

/-- Outside, a tree is like itself if all its spans are like themselves. -/
theorem BlockLike.refl (body : List Stmt) (h : BlockSpansIn b.Same body) :
    BlockLike b .outside body body := by
  have hmoved := BlockLike.moved (b := b) (f := id) (g := id) body h
  rwa [moveBlock_id] at hmoved

/-! ### A likeness that only moves spans -/

/-- The likeness of code outside and the same code with its spans moved. -/
def Likeness.moving (f : Span → Span) : Likeness :=
  ⟨none, [], fun σ σ' => σ' = f σ, fun _ => true, fun _ => rfl⟩

theorem Likeness.eq_of_moving {σ σ' : Span} (h : (moving f).span σ σ') : σ' = f σ := h

theorem Likeness.opens_moving {parameters : List Name} {inner : Region}
    (h : (moving f).Opens .outside parameters inner) : inner = .outside := by
  cases h with
  | same => rfl
  | renamed hold _ => exact nomatch hold

open Likeness

mutual

/-- What is like a tree in this way is the tree with its spans moved. -/
theorem ExprLike.eq_moved : ∀ {e e' : Expr}, ExprLike (.moving f) .outside e e' →
    e' = e.moved f
  | _, _, .literal _ hσ => by rw [Expr.moved, eq_of_moving hσ]
  | _, _, .variable _ hσ => by rw [Expr.moved, eq_of_moving hσ, name]
  | _, _, .unary _ he hσ => by rw [Expr.moved, eq_of_moving hσ, he.eq_moved]
  | _, _, .binary hl _ hr hσ => by rw [Expr.moved, eq_of_moving hσ, hl.eq_moved, hr.eq_moved]
  | _, _, .logical hl _ hr hσ => by rw [Expr.moved, eq_of_moving hσ, hl.eq_moved, hr.eq_moved]
  | _, _, .grouping he hσ => by rw [Expr.moved, eq_of_moving hσ, he.eq_moved]
  | _, _, .call he hes hσ => by rw [Expr.moved, eq_of_moving hσ, he.eq_moved, hes.eq_moved]
  | _, _, .index ht hi hσ => by rw [Expr.moved, eq_of_moving hσ, ht.eq_moved, hi.eq_moved]
  | _, _, .array hes hσ => by rw [Expr.moved, eq_of_moving hσ, hes.eq_moved]
  | _, _, .function ho _ hbody hσ => by
    obtain rfl := opens_moving ho
    rw [Expr.moved, eq_of_moving hσ, hbody.eq_moved, map_name_outside]

theorem ExprsLike.eq_moved : ∀ {es es' : List Expr},
    ExprsLike (.moving f) .outside es es' → es' = moveExprs f es
  | _, _, .nil => rfl
  | _, _, .cons he hes => by rw [moveExprs, he.eq_moved, hes.eq_moved]

theorem StmtLike.eq_moved : ∀ {s s' : Stmt}, StmtLike (.moving f) .outside s s' →
    s' = s.moved f
  | _, _, .expression he hσ => by rw [Stmt.moved, eq_of_moving hσ, he.eq_moved]
  | _, _, .declare _ he hσ => by rw [Stmt.moved, eq_of_moving hσ, he.eq_moved, name]
  | _, _, .publish _ he hσ => by rw [Stmt.moved, eq_of_moving hσ, he.eq_moved]
  | _, _, .assign _ he hσ => by rw [Stmt.moved, eq_of_moving hσ, he.eq_moved, name]
  | _, _, .assignIndex ht hi he hσ => by
    rw [Stmt.moved, eq_of_moving hσ, ht.eq_moved, hi.eq_moved, he.eq_moved]
  | _, _, .function _ ho _ hbody _ hσ => by
    obtain rfl := opens_moving ho
    rw [Stmt.moved, eq_of_moving hσ, hbody.eq_moved, map_name_outside]
  | _, _, .branch hc hbody hσ => by rw [Stmt.moved, eq_of_moving hσ, hc.eq_moved, hbody.eq_moved]
  | _, _, .branchElse hc hbody hother hσ => by
    rw [Stmt.moved, eq_of_moving hσ, hc.eq_moved, hbody.eq_moved, hother.eq_moved]
  | _, _, .loop hbody hσ => by rw [Stmt.moved, eq_of_moving hσ, hbody.eq_moved]
  | _, _, .leave hσ => by rw [Stmt.moved, eq_of_moving hσ]
  | _, _, .giveNull hσ => by rw [Stmt.moved, eq_of_moving hσ]
  | _, _, .give he hσ => by rw [Stmt.moved, eq_of_moving hσ, he.eq_moved]

theorem BlockLike.eq_moved : ∀ {body body' : List Stmt},
    BlockLike (.moving f) .outside body body' → body' = moveBlock f body
  | _, _, .nil => rfl
  | _, _, .cons hs hrest => by rw [moveBlock, hs.eq_moved, hrest.eq_moved]

end

end

end HostScript
