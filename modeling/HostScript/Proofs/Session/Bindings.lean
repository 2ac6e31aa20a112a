import HostScript.Proofs.Run.Bindings
import HostScript.Proofs.Session.Invariants

/-!
# Scopes do not leak

In all that a session runs, environments lead to its root scope, and no name comes into a scope that
was there but by an export to the root, or by a statement that is executed in that scope itself
(`run_keeps_names`).
-/

namespace HostScript.Session

open Run

variable {sources : List Text} {s : Session}

theorem aloof_rooted (root : ScopeId) : Aloof (rooted root) :=
  fun _ _ _ hw => ⟨Nat.le_refl _, hw⟩

theorem aloof_gains (setup : Setup) (reached : Stage → Prop) : Aloof (gains setup reached) :=
  fun _ _ _ _ => later_gains_of_scopes_eq rfl

/-- There is only the root scope in a session in which nothing has run. -/
theorem next_fresh (config : Config) (around : Surroundings) :
    (fresh config around).world.next = 1 := by
  have hsize (natives : List Native) (scopes : Scopes Value) :
      (natives.foldl (fun scopes f => scopes.define ⟨0, []⟩ f.name (.function (.native f)))
        scopes).frames.size = scopes.frames.size := by
    induction natives generalizing scopes with
    | nil => rfl
    | cons f natives ih =>
      rw [List.foldl_cons, ih, Scopes.define, Scopes.bind, Array.size_modify]
  exact hsize _ _

theorem ready_rooted_fresh (config : Config) (around : Surroundings) :
    Ready (rooted 0) (fresh config around) where
  world := by
    refine ⟨?_, fun p v hv => ?_⟩
    · rw [next_fresh]
      exact Nat.one_pos
    · cases v with
      | function f =>
        cases f with
        | native f => trivial
        | closure c => exact absurd ⟨p, hv⟩ (not_holds_fresh config around c)
      | _ => trivial
  env := by
    change Env.Rooted ⟨0, []⟩ 0 (fresh config around).world.next
    rw [next_fresh]
    exact ⟨rfl, List.pairwise_singleton _ _, List.forall_mem_singleton.mpr Nat.one_pos⟩

theorem History.root (h : History sources s) : s.root = ⟨0, []⟩ := by
  induction h with
  | fresh config around => rfl
  | run source _ ih => exact (run_root _ source).trans ih
  | log level message _ ih => exact ih
  | closeLink _ ih => exact ih

/-- All environments of a session lead to its root. -/
theorem History.rooted (h : History sources s) : Ready (rooted s.root.here) s := by
  rw [h.root]
  exact h.keeps (fun setup => kept_rooted 0 setup _) (aloof_rooted 0) ready_rooted_fresh

/-- Scopes do not leak. In a session, while it runs a source and after that, all environments lead to
the root, those at hand and those of the functions that are held. Whatever begins in such an
environment, the evaluation of an expression, a call or the execution of a statement that binds no
name by itself, such as a branch or a loop, leaves all scopes that were there with the names that they
bound, however it ends, but for those that are exported to the root while it runs. A name that is
declared inside of it is bound in a scope that was not there before, and in none of those around.
Nothing ever takes a name out of a scope. -/
theorem run_keeps_names (h : History sources s) :
    Ready (Run.rooted s.root.here) s ∧
    (∀ source m, s.During source m →
      (Run.rooted s.root.here).Holds m ∧ (Run.rooted s.root.here).world (m.after s.setup)) ∧
    (∀ m, (Run.rooted s.root.here).Holds m →
      (m.task.binding? = none → m.Contained s.setup s.root.here) ∧
      ∀ m', Relation.TransGen (Begins s.setup) m m' → m'.DeclaresApart s.setup m.world.next) ∧
    (∀ (m : Stage) id, m.world.names id <+: (m.after s.setup).names id) ∧
    ∀ source id, s.world.names id <+: (s.run source).2.world.names id := by
  have hJ : (Run.rooted s.root.here).Kept s.setup fun _ => True := kept_rooted _ _ _
  refine ⟨h.rooted, fun source m hm => ?_, fun m hm => ⟨contained hm s.setup, ?_⟩,
    fun m => names_prefix_of_gains (gains_after s.setup m), fun source => ?_⟩
  · have hholds := (holds_of_during hJ (aloof_rooted _) h.rooted hm).2
    exact ⟨hholds, (hholds.after hJ (fun _ _ _ _ => trivial) trivial).world⟩
  · exact fun m' => declaresApart hm
  · have hlater := later_run (kept_gains s.setup _) (aloof_gains _ _) ⟨trivial, trivial⟩ source
    exact names_prefix_of_gains hlater.below

/-! ## A branch inside a branch -/

/-- A script that declares a name, and in a branch declares it again and exports it under another. -/
def nesting : Text := "if true\x7blet a=true if true\x7blet a=false export b=a\x7d\x7d"

def outerDeclaration : Stmt := .declare "a" (.literal (.boolean true) ⟨14, 18, 1⟩) ⟨8, 11, 1⟩

def innerBranch : Stmt := .branch (.literal (.boolean true) ⟨22, 26, 1⟩)
  [.declare "a" (.literal (.boolean false) ⟨33, 38, 1⟩) ⟨27, 30, 1⟩,
    .publish "b" (.variable "a" ⟨48, 49, 1⟩) ⟨39, 45, 1⟩] none ⟨19, 21, 1⟩

def outerBranch : Stmt := .branch (.literal (.boolean true) ⟨3, 7, 1⟩)
  [outerDeclaration, innerBranch] none ⟨0, 2, 1⟩

theorem begins_innerBranch (setup : Setup) (depth : Nat) (w : World) :
    Begins setup ⟨depth + 3, .execute ⟨0, []⟩ outerBranch, w⟩
      ⟨depth + 2, .execute ((⟨0, []⟩ : Env).enter w.next) innerBranch,
        (w.push .empty).bind w.next "a" (.boolean true)⟩ := by
  have hcondition : ([.literal (.boolean true) ⟨3, 7, 1⟩].mapM
      (evaluate setup (depth + 2) ⟨0, []⟩)).run w = (.ok [.boolean true], w) := rfl
  have hbefore : (block (execute setup (depth + 2) ((⟨0, []⟩ : Env).enter w.next))
      [outerDeclaration]).run (w.push .empty) =
        (.ok .normal, (w.push .empty).bind w.next "a" (.boolean true)) := rfl
  have htaken : (if (Value.boolean true).truthy then [outerDeclaration, innerBranch] else
      (none : Option (List Stmt)).getD []) = [outerDeclaration] ++ innerBranch :: [] := rfl
  exact .branch hcondition htaken hbefore

/-- The inner branch begins, in a scope that binds the name. -/
def insideNesting : Stage :=
  let w := (withoutBootstrap.announced nesting).world
  ⟨1499, .execute ((⟨0, []⟩ : Env).enter w.next) innerBranch,
    (w.push .empty).bind w.next "a" (.boolean true)⟩

theorem during_insideNesting : withoutBootstrap.During nesting insideNesting := by
  have hcompile : compile withoutBootstrap.setup.depth nesting = .ok [outerBranch] := by
    rw [depth_withoutBootstrap]
    cbv
  refine ⟨_, hcompile, [], _, [], _, rfl, .nil, .single ?_⟩
  rw [Stage.ofStmt_eq fun _ _ => Stmt.noConfusion, depth_withoutBootstrap, root_withoutBootstrap]
  exact begins_innerBranch _ 1497 _

/-- The declaration in the inner branch leaves the scope around it alone, and the root gains what is
exported. -/
theorem run_keeps_names_nesting :
    History [] withoutBootstrap ∧ withoutBootstrap.During nesting insideNesting ∧
      insideNesting.task.binding? = none ∧ insideNesting.world.names 1 = ["a"] ∧
      (insideNesting.after withoutBootstrap.setup).names 1 = ["a"] ∧
      (insideNesting.after withoutBootstrap.setup).names 2 = ["a"] ∧
      Text.ofString "b" ∉ insideNesting.world.names 0 ∧
      Text.ofString "b" ∈ (insideNesting.after withoutBootstrap.setup).names 0 ∧
      insideNesting.Contained withoutBootstrap.setup withoutBootstrap.root.here := by
  have hhistory : History [] withoutBootstrap := History.fresh quiet .bare
  obtain ⟨-, hduring, hholds, -⟩ := run_keeps_names hhistory
  have hinside := (hduring nesting insideNesting during_insideNesting).1
  exact ⟨hhistory, during_insideNesting, rfl, by decide +kernel, by decide +kernel,
    by decide +kernel, by decide +kernel, by decide +kernel, (hholds _ hinside).1 rfl⟩

end HostScript.Session
