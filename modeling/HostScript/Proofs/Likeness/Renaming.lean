import HostScript.Proofs.Likeness.Sessions
import HostScript.Proofs.Syntax.Spelling

/-!
# Renaming parameters

A `Renaming` replaces one name by another in chosen functions: in their parameters and everywhere in
their bodies. It leaves a function alone that has no such parameter, in which the new name occurs,
or in which the old one is the name of a function or is exported. The result is like the program
that it comes from, whatever its spans are (`blockLike_renamed`), so it does the same in every state
that a session comes to (`Session.run_renamed`).
-/

namespace HostScript

/-! ## Names in trees -/

mutual

/-- The names that occur in an expression. -/
def Expr.names : Expr → List Name
  | .literal _ _ => []
  | .variable n _ => [n]
  | .unary _ e _ => e.names
  | .binary l _ r _ => l.names ++ r.names
  | .logical l _ r _ => l.names ++ r.names
  | .grouping e _ => e.names
  | .call e es _ => e.names ++ namesOfExprs es
  | .index t i _ => t.names ++ i.names
  | .array es _ => namesOfExprs es
  | .function parameters body _ => parameters ++ namesOfBlock body

/-- The names that occur in some expressions. -/
def namesOfExprs : List Expr → List Name
  | [] => []
  | e :: rest => e.names ++ namesOfExprs rest

/-- The names that occur in a statement. -/
def Stmt.names : Stmt → List Name
  | .expression e _ => e.names
  | .declare n e _ => n :: e.names
  | .publish n e _ => n :: e.names
  | .assign n e _ => n :: e.names
  | .assignIndex t i e _ => t.names ++ (i.names ++ e.names)
  | .function n parameters body _ _ => n :: (parameters ++ namesOfBlock body)
  | .branch c body none _ => c.names ++ namesOfBlock body
  | .branch c body (some other) _ => c.names ++ (namesOfBlock body ++ namesOfBlock other)
  | .loop body _ => namesOfBlock body
  | .leave _ => []
  | .give none _ => []
  | .give (some e) _ => e.names

/-- The names that occur in some statements. -/
def namesOfBlock : List Stmt → List Name
  | [] => []
  | s :: rest => s.names ++ namesOfBlock rest

end

mutual

/-- The names in an expression under which functions are declared or values exported. -/
def Expr.outerNames : Expr → List Name
  | .literal _ _ => []
  | .variable _ _ => []
  | .unary _ e _ => e.outerNames
  | .binary l _ r _ => l.outerNames ++ r.outerNames
  | .logical l _ r _ => l.outerNames ++ r.outerNames
  | .grouping e _ => e.outerNames
  | .call e es _ => e.outerNames ++ outerNamesOfExprs es
  | .index t i _ => t.outerNames ++ i.outerNames
  | .array es _ => outerNamesOfExprs es
  | .function _ body _ => outerNamesOfBlock body

/-- The names in some expressions under which functions are declared or values exported. -/
def outerNamesOfExprs : List Expr → List Name
  | [] => []
  | e :: rest => e.outerNames ++ outerNamesOfExprs rest

/-- The names in a statement under which functions are declared or values exported. -/
def Stmt.outerNames : Stmt → List Name
  | .expression e _ => e.outerNames
  | .declare _ e _ => e.outerNames
  | .publish n e _ => n :: e.outerNames
  | .assign _ e _ => e.outerNames
  | .assignIndex t i e _ => t.outerNames ++ (i.outerNames ++ e.outerNames)
  | .function n _ body _ _ => n :: outerNamesOfBlock body
  | .branch c body none _ => c.outerNames ++ outerNamesOfBlock body
  | .branch c body (some other) _ =>
    c.outerNames ++ (outerNamesOfBlock body ++ outerNamesOfBlock other)
  | .loop body _ => outerNamesOfBlock body
  | .leave _ => []
  | .give none _ => []
  | .give (some e) _ => e.outerNames

/-- The names in some statements under which functions are declared or values exported. -/
def outerNamesOfBlock : List Stmt → List Name
  | [] => []
  | s :: rest => s.outerNames ++ outerNamesOfBlock rest

end

/-! ## Renaming -/

/-- A name, the one that takes its place, and in which functions, told apart by their spans. -/
structure Renaming where
  old : Name
  new : Name
  chosen : Span → Bool

namespace Renaming

variable (r : Renaming)

/-- The name that stands in the place of a name. -/
def name : Region → Name → Name
  | .outside, n => n
  | .inside, n => if n = r.old then r.new else n

/-- The name can be replaced in a function: it is a parameter, the new one occurs nowhere, and no
function is declared and no value exported under the old one. -/
def Applies (parameters : List Name) (body : List Stmt) : Prop :=
  r.old ∈ parameters ∧ r.new ∉ parameters ∧ r.new ∉ namesOfBlock body ∧
    r.old ∉ outerNamesOfBlock body

instance (parameters : List Name) (body : List Stmt) : Decidable (r.Applies parameters body) :=
  inferInstanceAs (Decidable (_ ∧ _ ∧ _ ∧ _))

/-- The region of the body of a function: a chosen function begins to be inside. -/
def within (region : Region) (parameters : List Name) (body : List Stmt) (span : Span) : Region :=
  if r.chosen span = true ∧ r.Applies parameters body then .inside else region

end Renaming

mutual

/-- An expression with the name replaced inside. -/
def Expr.renamed (r : Renaming) (region : Region) : Expr → Expr
  | .literal value σ => .literal value σ
  | .variable n σ => .variable (r.name region n) σ
  | .unary op e σ => .unary op (e.renamed r region) σ
  | .binary x op y σ => .binary (x.renamed r region) op (y.renamed r region) σ
  | .logical x op y σ => .logical (x.renamed r region) op (y.renamed r region) σ
  | .grouping e σ => .grouping (e.renamed r region) σ
  | .call e es σ => .call (e.renamed r region) (renameExprs r region es) σ
  | .index t i σ => .index (t.renamed r region) (i.renamed r region) σ
  | .array es σ => .array (renameExprs r region es) σ
  | .function parameters body σ =>
    .function (parameters.map (r.name (r.within region parameters body σ)))
      (renameBlock r (r.within region parameters body σ) body) σ

/-- Some expressions with the name replaced inside. -/
def renameExprs (r : Renaming) (region : Region) : List Expr → List Expr
  | [] => []
  | e :: rest => e.renamed r region :: renameExprs r region rest

/-- A statement with the name replaced inside. -/
def Stmt.renamed (r : Renaming) (region : Region) : Stmt → Stmt
  | .expression e σ => .expression (e.renamed r region) σ
  | .declare n e σ => .declare (r.name region n) (e.renamed r region) σ
  | .publish n e σ => .publish n (e.renamed r region) σ
  | .assign n e σ => .assign (r.name region n) (e.renamed r region) σ
  | .assignIndex t i e σ =>
    .assignIndex (t.renamed r region) (i.renamed r region) (e.renamed r region) σ
  | .function n parameters body exported σ =>
    .function n (parameters.map (r.name (r.within region parameters body σ)))
      (renameBlock r (r.within region parameters body σ) body) exported σ
  | .branch c body none σ => .branch (c.renamed r region) (renameBlock r region body) none σ
  | .branch c body (some other) σ =>
    .branch (c.renamed r region) (renameBlock r region body) (some (renameBlock r region other)) σ
  | .loop body σ => .loop (renameBlock r region body) σ
  | .leave σ => .leave σ
  | .give none σ => .give none σ
  | .give (some e) σ => .give (some (e.renamed r region)) σ

/-- Some statements with the name replaced inside. -/
def renameBlock (r : Renaming) (region : Region) : List Stmt → List Stmt
  | [] => []
  | s :: rest => s.renamed r region :: renameBlock r region rest

end

namespace Renaming

/-- The likeness of a program and one with a renamed parameter. Spans do not matter. -/
def likeness (r : Renaming) : Likeness where
  old := some r.old
  new := r.new
  span _ _ := True
  shows := Event.shows
  shows_called := Event.shows_called

/-- Nothing in a tree keeps the name from being replaced. -/
def Fits (r : Renaming) (region : Region) (names outer : List Name) : Prop :=
  region = .inside → r.new ∉ names ∧ r.old ∉ outer

variable {r : Renaming} {region : Region}

theorem likeness_name : r.likeness.name region = r.name region := by
  funext n
  cases region with
  | outside => rfl
  | inside => simp [Likeness.name, name, likeness, eq_comm]

theorem Fits.left {names more outer others : List Name}
    (hf : r.Fits region (names ++ more) (outer ++ others)) : r.Fits region names outer :=
  fun hin => ⟨fun hmem => (hf hin).1 (List.mem_append_left _ hmem),
    fun hmem => (hf hin).2 (List.mem_append_left _ hmem)⟩

theorem Fits.right {names more outer others : List Name}
    (hf : r.Fits region (names ++ more) (outer ++ others)) : r.Fits region more others :=
  fun hin => ⟨fun hmem => (hf hin).1 (List.mem_append_right _ hmem),
    fun hmem => (hf hin).2 (List.mem_append_right _ hmem)⟩

theorem Fits.admits {n : Name} {names outer : List Name} (hf : r.Fits region (n :: names) outer) :
    r.likeness.Admits region n := by
  cases region with
  | outside => trivial
  | inside =>
    rintro rfl
    exact (hf rfl).1 List.mem_cons_self

theorem Fits.keeps {n : Name} {names outer : List Name}
    (hf : r.Fits region (n :: names) (n :: outer)) : r.likeness.Keeps region n := by
  cases region with
  | outside => trivial
  | inside =>
    refine ⟨hf.admits, fun hold => ?_⟩
    obtain rfl := Option.some.inj hold
    exact (hf rfl).2 List.mem_cons_self

theorem Fits.tail {n : Name} {names outer : List Name} (hf : r.Fits region (n :: names) outer) :
    r.Fits region names outer :=
  fun hin => ⟨fun hmem => (hf hin).1 (List.mem_cons_of_mem _ hmem), (hf hin).2⟩

theorem Fits.tails {n : Name} {names outer : List Name}
    (hf : r.Fits region (n :: names) (n :: outer)) : r.Fits region names outer :=
  fun hin => ⟨fun hmem => (hf hin).1 (List.mem_cons_of_mem _ hmem),
    fun hmem => (hf hin).2 (List.mem_cons_of_mem _ hmem)⟩

/-- A function whose body is renamed has parameters and a body that fit. -/
theorem Fits.within {parameters : List Name} {body : List Stmt}
    (hf : r.Fits region (parameters ++ namesOfBlock body) (outerNamesOfBlock body)) (σ : Span) :
    r.likeness.Opens region parameters (r.within region parameters body σ) ∧
      (∀ n ∈ parameters, r.likeness.Admits (r.within region parameters body σ) n) ∧
      r.Fits (r.within region parameters body σ) (namesOfBlock body) (outerNamesOfBlock body) := by
  unfold Renaming.within
  split
  · next happlies =>
    obtain ⟨-, hold, hnew, hbody, houter⟩ := happlies
    refine ⟨?_, fun n hn (heq : n = r.new) => hnew (heq ▸ hn), fun _ => ⟨hbody, houter⟩⟩
    cases region with
    | outside => exact .renamed rfl hold
    | inside => exact .same ..
  · refine ⟨.same .., fun n hn => ?_, fun hin => ?_⟩
    · cases region with
      | outside => trivial
      | inside =>
        rintro rfl
        exact (hf rfl).1 (List.mem_append_left _ hn)
    · exact ⟨fun hmem => (hf hin).1 (List.mem_append_right _ hmem), (hf hin).2⟩

end Renaming

section

variable {r : Renaming}

mutual

theorem exprLike_renamed {region : Region} : ∀ (e e' : Expr),
    r.Fits region e.names e.outerNames → e'.bare = (e.renamed r region).bare →
    ExprLike r.likeness region e e'
  | .literal value σ, e', _, h => by
    cases e' <;> simp only [Expr.renamed, Expr.bare, reduceCtorEq, Expr.literal.injEq] at h
    obtain ⟨rfl, -⟩ := h
    exact .literal _ trivial
  | .variable n σ, e', hf, h => by
    cases e' <;> simp only [Expr.renamed, Expr.bare, reduceCtorEq, Expr.variable.injEq] at h
    obtain ⟨rfl, -⟩ := h
    rw [← Renaming.likeness_name]
    exact .variable hf.admits trivial
  | .unary op e σ, e', hf, h => by
    cases e' <;> simp only [Expr.renamed, Expr.bare, reduceCtorEq, Expr.unary.injEq] at h
    obtain ⟨rfl, he, -⟩ := h
    exact .unary _ (exprLike_renamed e _ hf he) trivial
  | .binary x op y σ, e', hf, h => by
    cases e' <;> simp only [Expr.renamed, Expr.bare, reduceCtorEq, Expr.binary.injEq] at h
    obtain ⟨hx, rfl, hy, -⟩ := h
    exact .binary (exprLike_renamed x _ hf.left hx) _ (exprLike_renamed y _ hf.right hy) trivial
  | .logical x op y σ, e', hf, h => by
    cases e' <;> simp only [Expr.renamed, Expr.bare, reduceCtorEq, Expr.logical.injEq] at h
    obtain ⟨hx, rfl, hy, -⟩ := h
    exact .logical (exprLike_renamed x _ hf.left hx) _ (exprLike_renamed y _ hf.right hy) trivial
  | .grouping e σ, e', hf, h => by
    cases e' <;> simp only [Expr.renamed, Expr.bare, reduceCtorEq, Expr.grouping.injEq] at h
    exact .grouping (exprLike_renamed e _ hf h.1) trivial
  | .call e es σ, e', hf, h => by
    cases e' <;> simp only [Expr.renamed, Expr.bare, reduceCtorEq, Expr.call.injEq] at h
    obtain ⟨he, hes, -⟩ := h
    exact .call (exprLike_renamed e _ hf.left he) (exprsLike_renamed es _ hf.right hes) trivial
  | .index t i σ, e', hf, h => by
    cases e' <;> simp only [Expr.renamed, Expr.bare, reduceCtorEq, Expr.index.injEq] at h
    obtain ⟨ht, hi, -⟩ := h
    exact .index (exprLike_renamed t _ hf.left ht) (exprLike_renamed i _ hf.right hi) trivial
  | .array es σ, e', hf, h => by
    cases e' <;> simp only [Expr.renamed, Expr.bare, reduceCtorEq, Expr.array.injEq] at h
    exact .array (exprsLike_renamed es _ hf h.1) trivial
  | .function parameters body σ, e', hf, h => by
    cases e' <;> simp only [Expr.renamed, Expr.bare, reduceCtorEq, Expr.function.injEq] at h
    obtain ⟨rfl, hbody, -⟩ := h
    obtain ⟨hopens, hadmits, hfits⟩ := hf.within σ
    rw [← Renaming.likeness_name]
    exact .function hopens hadmits (blockLike_renamed body _ hfits hbody) trivial

theorem exprsLike_renamed {region : Region} : ∀ (es es' : List Expr),
    r.Fits region (namesOfExprs es) (outerNamesOfExprs es) →
    bareExprs es' = bareExprs (renameExprs r region es) →
    ExprsLike r.likeness region es es'
  | [], es', _, h => by
    cases es' <;> simp only [renameExprs, bareExprs, reduceCtorEq] at h
    exact .nil
  | e :: rest, es', hf, h => by
    cases es' <;> simp only [renameExprs, bareExprs, reduceCtorEq, List.cons.injEq] at h
    exact .cons (exprLike_renamed e _ hf.left h.1) (exprsLike_renamed rest _ hf.right h.2)

theorem stmtLike_renamed {region : Region} : ∀ (s s' : Stmt),
    r.Fits region s.names s.outerNames → s'.bare = (s.renamed r region).bare →
    StmtLike r.likeness region s s'
  | .expression e σ, s', hf, h => by
    cases s' <;> simp only [Stmt.renamed, ↓Stmt.bare_branch, ↓Stmt.bare_give, Stmt.bare,
      reduceCtorEq, Stmt.expression.injEq] at h
    exact .expression (exprLike_renamed e _ hf h.1) trivial
  | .declare n e σ, s', hf, h => by
    cases s' <;> simp only [Stmt.renamed, ↓Stmt.bare_branch, ↓Stmt.bare_give, Stmt.bare,
      reduceCtorEq, Stmt.declare.injEq] at h
    obtain ⟨rfl, he, -⟩ := h
    rw [← Renaming.likeness_name]
    exact .declare hf.admits (exprLike_renamed e _ hf.tail he) trivial
  | .publish n e σ, s', hf, h => by
    cases s' <;> simp only [Stmt.renamed, ↓Stmt.bare_branch, ↓Stmt.bare_give, Stmt.bare,
      reduceCtorEq, Stmt.publish.injEq] at h
    obtain ⟨rfl, he, -⟩ := h
    exact .publish hf.keeps (exprLike_renamed e _ hf.tails he) trivial
  | .assign n e σ, s', hf, h => by
    cases s' <;> simp only [Stmt.renamed, ↓Stmt.bare_branch, ↓Stmt.bare_give, Stmt.bare,
      reduceCtorEq, Stmt.assign.injEq] at h
    obtain ⟨rfl, he, -⟩ := h
    rw [← Renaming.likeness_name]
    exact .assign hf.admits (exprLike_renamed e _ hf.tail he) trivial
  | .assignIndex t i e σ, s', hf, h => by
    cases s' <;> simp only [Stmt.renamed, ↓Stmt.bare_branch, ↓Stmt.bare_give, Stmt.bare,
      reduceCtorEq, Stmt.assignIndex.injEq] at h
    obtain ⟨ht, hi, he, -⟩ := h
    exact .assignIndex (exprLike_renamed t _ hf.left ht) (exprLike_renamed i _ hf.right.left hi)
      (exprLike_renamed e _ hf.right.right he) trivial
  | .function n parameters body exported σ, s', hf, h => by
    cases s' <;> simp only [Stmt.renamed, ↓Stmt.bare_branch, ↓Stmt.bare_give, Stmt.bare,
      reduceCtorEq, Stmt.function.injEq] at h
    obtain ⟨rfl, rfl, hbody, rfl, -⟩ := h
    obtain ⟨hopens, hadmits, hfits⟩ := hf.tails.within σ
    rw [← Renaming.likeness_name]
    exact .function hf.keeps hopens hadmits (blockLike_renamed body _ hfits hbody) _ trivial
  | .branch c body none σ, s', hf, h => by
    cases s' <;> simp only [Stmt.renamed, ↓Stmt.bare_branch, ↓Stmt.bare_give, Stmt.bare,
      reduceCtorEq, Stmt.branch.injEq, Option.map_eq_none_iff] at h
    obtain ⟨hc, hbody, rfl, -⟩ := h
    exact .branch (exprLike_renamed c _ hf.left hc) (blockLike_renamed body _ hf.right hbody) trivial
  | .branch c body (some other) σ, s', hf, h => by
    cases s' <;> simp only [Stmt.renamed, ↓Stmt.bare_branch, ↓Stmt.bare_give, Stmt.bare,
      reduceCtorEq, Stmt.branch.injEq, Option.map_eq_some_iff] at h
    obtain ⟨hc, hbody, ⟨other', rfl, hother⟩, -⟩ := h
    exact .branchElse (exprLike_renamed c _ hf.left hc)
      (blockLike_renamed body _ hf.right.left hbody)
      (blockLike_renamed other _ hf.right.right hother) trivial
  | .loop body σ, s', hf, h => by
    cases s' <;> simp only [Stmt.renamed, ↓Stmt.bare_branch, ↓Stmt.bare_give, Stmt.bare,
      reduceCtorEq, Stmt.loop.injEq] at h
    exact .loop (blockLike_renamed body _ hf h.1) trivial
  | .leave σ, s', _, h => by
    cases s' <;> simp only [Stmt.renamed, ↓Stmt.bare_branch, ↓Stmt.bare_give, Stmt.bare,
      reduceCtorEq] at h
    exact .leave trivial
  | .give none σ, s', _, h => by
    cases s' <;> simp only [Stmt.renamed, ↓Stmt.bare_branch, ↓Stmt.bare_give, Stmt.bare,
      reduceCtorEq, Stmt.give.injEq, Option.map_eq_none_iff] at h
    obtain ⟨rfl, -⟩ := h
    exact .giveNull trivial
  | .give (some e) σ, s', hf, h => by
    cases s' <;> simp only [Stmt.renamed, ↓Stmt.bare_branch, ↓Stmt.bare_give, Stmt.bare,
      reduceCtorEq, Stmt.give.injEq, Option.map_eq_some_iff] at h
    obtain ⟨⟨e', rfl, he⟩, -⟩ := h
    exact .give (exprLike_renamed e _ hf he) trivial

theorem blockLike_renamed {region : Region} : ∀ (body body' : List Stmt),
    r.Fits region (namesOfBlock body) (outerNamesOfBlock body) →
    bareBlock body' = bareBlock (renameBlock r region body) →
    BlockLike r.likeness region body body'
  | [], body', _, h => by
    cases body' <;> simp only [renameBlock, bareBlock, reduceCtorEq] at h
    exact .nil
  | s :: rest, body', hf, h => by
    cases body' <;> simp only [renameBlock, bareBlock, reduceCtorEq, List.cons.injEq] at h
    exact .cons (stmtLike_renamed s _ hf.left h.1) (blockLike_renamed rest _ hf.right h.2)

end

end

/-! ## Running renamed programs -/

namespace Session

/-- Renaming a parameter of functions of a script does not change what the script does, in any state
that a session comes to. Both scripts end alike, and in the sessions that they leave behind the same
has happened, and the same names are bound to values that are alike. Spans may differ, and names in
the bodies of functions. -/
theorem run_renamed {sources : List Text} {s : Session} (h : History sources s) (r : Renaming)
    {source source' : Text} {program program' : List Stmt}
    (hc : compile s.setup.depth source = .ok program)
    (hc' : compile s.setup.depth source' = .ok program')
    (hr : bareBlock program' = bareBlock (renameBlock r .outside program)) :
    ∃ kinds, (s.run source).1.Like r.likeness kinds (s.run source').1 ∧
      (s.run source).2.Like r.likeness kinds (s.run source').2 ∧
      (s.run source).2.globals.Like r.likeness kinds .outside (s.run source').2.globals ∧
      (s.run source').2.shown = (s.run source).2.shown := by
  have hself : s.Like r.likeness (ScopeKind.none s.world) s :=
    h.sound.like_self fun _ _ _ _ => trivial
  have hprogram : BlockLike r.likeness .outside program program' :=
    blockLike_renamed program program' nofun hr
  obtain ⟨kinds, -, hresult, hsession⟩ := hself.run rfl hc hc' hprogram
  exact ⟨kinds, hresult, hsession, hsession.globals, hsession.shown rfl⟩

/-- The function `f` with a parameter of the given name, and a call of it with itself. -/
def callOfItself (parameter : Name) : List Stmt :=
  [.function "f" [parameter] [.expression (.variable parameter ⟨8, 9, 1⟩) ⟨8, 9, 1⟩] false ⟨0, 2, 1⟩,
    .expression (.call (.variable "f" ⟨11, 12, 1⟩) [.variable "f" ⟨13, 14, 1⟩] ⟨12, 13, 1⟩)
      ⟨11, 12, 1⟩]

/-- A function gets another parameter name and is called. -/
theorem run_renamed_callOfItself :
    compile withoutBootstrap.setup.depth "fn f(p){p};f(f)" = .ok (callOfItself "p") ∧
      compile withoutBootstrap.setup.depth "fn f(q){q};f(f)" = .ok (callOfItself "q") ∧
      bareBlock (callOfItself "q") =
        bareBlock (renameBlock ⟨"p", "q", fun _ => true⟩ .outside (callOfItself "p")) ∧
      ∃ kinds,
        (withoutBootstrap.run "fn f(p){p};f(f)").1.Like (Renaming.likeness ⟨"p", "q", fun _ => true⟩) kinds
          (withoutBootstrap.run "fn f(q){q};f(f)").1 ∧
        (withoutBootstrap.run "fn f(p){p};f(f)").2.Like (Renaming.likeness ⟨"p", "q", fun _ => true⟩) kinds
          (withoutBootstrap.run "fn f(q){q};f(f)").2 ∧
        (withoutBootstrap.run "fn f(p){p};f(f)").2.globals.Like
          (Renaming.likeness ⟨"p", "q", fun _ => true⟩) kinds .outside
          (withoutBootstrap.run "fn f(q){q};f(f)").2.globals ∧
        (withoutBootstrap.run "fn f(q){q};f(f)").2.shown =
          (withoutBootstrap.run "fn f(p){p};f(f)").2.shown := by
  have hc : compile withoutBootstrap.setup.depth "fn f(p){p};f(f)" = .ok (callOfItself "p") := by
    rw [depth_withoutBootstrap]
    cbv
  have hc' : compile withoutBootstrap.setup.depth "fn f(q){q};f(f)" = .ok (callOfItself "q") := by
    rw [depth_withoutBootstrap]
    cbv
  have happlies : Renaming.Applies ⟨"p", "q", fun _ => true⟩ ["p"]
      [.expression (.variable "p" ⟨8, 9, 1⟩) ⟨8, 9, 1⟩] := by decide
  have hr : bareBlock (callOfItself "q") =
      bareBlock (renameBlock ⟨"p", "q", fun _ => true⟩ .outside (callOfItself "p")) := by
    simp [callOfItself, renameBlock, Stmt.renamed, Renaming.within, happlies, Renaming.name,
      Expr.renamed, renameExprs]
  exact ⟨hc, hc', hr, run_renamed (History.fresh quiet .bare) _ hc hc' hr⟩

end Session

end HostScript
