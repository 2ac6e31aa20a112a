import HostScript.Syntax.Tree

/-!
# Comparing trees

A test for trees being the same, spans included. With it the tree of a long script is found by
evaluation alone.
-/

namespace HostScript

mutual

/-- Whether two expressions are the same. -/
def Expr.same : Expr → Expr → Bool
  | .literal v p, .literal w q => v = w && p = q
  | .variable n p, .variable m q => n = m && p = q
  | .unary o e p, .unary r f q => o = r && e.same f && p = q
  | .binary d o e p, .binary f r g q => d.same f && o = r && e.same g && p = q
  | .logical d o e p, .logical f r g q => d.same f && o = r && e.same g && p = q
  | .grouping e p, .grouping f q => e.same f && p = q
  | .call d es p, .call e fs q => d.same e && exprsSame es fs && p = q
  | .index d e p, .index f g q => d.same f && e.same g && p = q
  | .array es p, .array fs q => exprsSame es fs && p = q
  | .function ns b p, .function ms c q => ns = ms && blockSame b c && p = q
  | _, _ => false

/-- Whether two lists of expressions are the same. -/
def exprsSame : List Expr → List Expr → Bool
  | [], [] => true
  | e :: es, f :: fs => e.same f && exprsSame es fs
  | _, _ => false

/-- Whether two statements are the same. -/
def Stmt.same : Stmt → Stmt → Bool
  | .expression e p, .expression f q => e.same f && p = q
  | .declare n e p, .declare m f q => n = m && e.same f && p = q
  | .publish n e p, .publish m f q => n = m && e.same f && p = q
  | .assign n e p, .assign m f q => n = m && e.same f && p = q
  | .assignIndex c d e p, .assignIndex f g h q => c.same f && d.same g && e.same h && p = q
  | .function n ns b x p, .function m ms c y q =>
    n = m && ns = ms && blockSame b c && x = y && p = q
  | .branch e b none p, .branch f c none q => e.same f && blockSame b c && p = q
  | .branch e b (some d) p, .branch f c (some g) q =>
    e.same f && blockSame b c && blockSame d g && p = q
  | .loop b p, .loop c q => blockSame b c && p = q
  | .leave p, .leave q => p = q
  | .give none p, .give none q => p = q
  | .give (some e) p, .give (some f) q => e.same f && p = q
  | _, _ => false

/-- Whether two blocks are the same. -/
def blockSame : List Stmt → List Stmt → Bool
  | [], [] => true
  | s :: b, t :: c => s.same t && blockSame b c
  | _, _ => false

end

/-- Trees that pass the test are the same. -/
theorem eq_of_same :
    (∀ e f : Expr, e.same f = true → e = f) ∧ (∀ b c, blockSame b c = true → b = c) ∧
      (∀ s t : Stmt, s.same t = true → s = t) ∧ ∀ es fs, exprsSame es fs = true → es = fs := by
  apply Expr.same.mutual_induct (fun e f => e.same f = true → e = f)
    (fun b c => blockSame b c = true → b = c) (fun s t => s.same t = true → s = t)
    (fun es fs => exprsSame es fs = true → es = fs)
  all_goals intros
  all_goals simp_all only [Expr.same, Stmt.same, exprsSame, blockSame, Bool.and_eq_true,
    decide_eq_true_eq, Bool.false_eq_true]

end HostScript
