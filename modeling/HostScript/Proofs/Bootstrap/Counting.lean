import HostScript.Proofs.Bootstrap.Trees
import HostScript.Proofs.Number.Counting
import HostScript.Proofs.Run.Forward

/-!
# Loops that count

A loop that begins with `guard` and ends with `advance` runs the statements between them once for
each number from zero up to the bound, and then ends normally (`run_counting`). Which of the
variables around the loop change is said by the dictionary of the scope that binds the counter.
-/

namespace HostScript.Bootstrap

open Run

/-- The value of a counter. -/
def count (k : Nat) : Value := .number (Float.ofNat k)

/-- The state around a counting loop that has run its statements a number of times, when its counter
stands at some number. The scope of the counter binds what `locals` says. -/
structure Counts (here : ScopeId) (locals : Nat → Value → Dict Value) (J : Nat → World → Prop)
    (done counter : Nat) (w : World) : Prop where
  inv : J done w
  has : here < w.next
  bindings : w.scopes.bindings here = locals done (count counter)

/-- The counter and its bound are variables of the scope, and an invariant is not about the counter
or about scopes that bind nothing. -/
structure Countable (here : ScopeId) (locals : Nat → Value → Dict Value) (J : Nat → World → Prop)
    (bound : Float) : Prop where
  counter : ∀ k v, (locals k v).get? "i" = some v
  bound : ∀ k v, (locals k v).get? "n" = some (.number bound)
  put : ∀ k u v, (locals k u).put "i" v = locals k v
  push : ∀ k w, J k w → J k (w.push .empty)
  bind : ∀ k w x, here < w.next → J k w → J k (w.bind here "i" (.number x))

variable {here inner : ScopeId} {outer : List ScopeId} {locals : Nat → Value → Dict Value}
  {J : Nat → World → Prop} {bound : Float} {n k j : Nat} {setup : Setup} {depth : Nat} {w : World}

namespace Counts

theorem push (hl : Countable here locals J bound) (h : Counts here locals J k j w) :
    Counts here locals J k j (w.push .empty) where
  inv := hl.push k w h.inv
  has := by
    rw [World.next_push]
    exact Nat.lt_succ_of_lt h.has
  bindings := by rw [World.bindings_push_of_lt h.has, h.bindings]

/-- What a variable of the scope is bound to, seen from a scope inside that does not bind it. -/
theorem get? (h : Counts here locals J k j w) {name : Name} {v : Value}
    (hinner : (w.scopes.bindings inner).has name = false)
    (hv : (locals k (count j)).get? name = some v) :
    w.scopes.get? ⟨inner, here :: outer⟩ name = some v := by
  have houter : w.scopes.get? ⟨here, outer⟩ name = some v :=
    Scopes.get?_of_bindings (h.bindings ▸ hv)
  exact (Scopes.get?_enter hinner).trans houter

theorem owner? (h : Counts here locals J k j w) {name : Name} {v : Value}
    (hinner : (w.scopes.bindings inner).has name = false)
    (hv : (locals k (count j)).get? name = some v) :
    w.scopes.owner? name (Env.mk inner (here :: outer)).path = some here := by
  rw [← h.bindings] at hv
  exact (Scopes.owner?_cons_of_not_has hinner).trans (Scopes.owner?_cons_of_get? hv)

end Counts

/-! ## The test and the step -/

variable (hl : Countable here locals J bound)

include hl

/-- In a scope inside, the test compares the counter with the bound. -/
theorem evaluate_test (h : Counts here locals J k j w) (hinner : w.scopes.bindings inner = .empty)
    (i atLeast n : Span) :
    (evaluate setup (depth + 2) ⟨inner, here :: outer⟩
      (.binary (.variable "i" i) .greaterEqual (.variable "n" n) atLeast)).run w =
        (.ok (.boolean (bound ≤ Float.ofNat j)), w) := by
  have hempty (name : Name) : (w.scopes.bindings inner).has name = false := by
    rw [hinner]
    rfl
  exact evaluate_binary (evaluate_variable (h.get? (hempty _) (hl.counter k _)) i)
    (evaluate_variable (h.get? (hempty _) (hl.bound k _)) n) atLeast

/-- Below its bound a loop goes on. -/
theorem execute_guard_of_lt (h : Counts here locals J k j w)
    (hinner : w.scopes.bindings inner = .empty) (hlt : ¬ bound ≤ Float.ofNat j)
    (s₁ s₂ s₃ s₄ s₅ : Span) :
    (execute setup (depth + 3) ⟨inner, here :: outer⟩ (guard s₁ s₂ s₃ s₄ s₅)).run w =
      (.ok .normal, w) :=
  execute_branch_false (evaluate_test hl h hinner s₁ s₂ s₃) (by simpa [Value.truthy] using hlt) s₅

/-- At its bound a loop is left. -/
theorem execute_guard_of_le (h : Counts here locals J k j w)
    (hinner : w.scopes.bindings inner = .empty) (hle : bound ≤ Float.ofNat j)
    (s₁ s₂ s₃ s₄ s₅ : Span) :
    (execute setup (depth + 3) ⟨inner, here :: outer⟩ (guard s₁ s₂ s₃ s₄ s₅)).run w =
      (.ok .leave, w.push .empty) :=
  execute_branch_true (evaluate_test hl h hinner s₁ s₂ s₃) (by simpa [Value.truthy] using hle) none
    s₅

/-- The step at the end adds one to the counter. -/
theorem execute_advance (hj : j < 2 ^ 53) (h : Counts here locals J k j w)
    (hinner : (w.scopes.bindings inner).has "i" = false) (i plus one assign : Span) :
    (execute setup (depth + 3) ⟨inner, here :: outer⟩ (advance i plus one assign)).run w =
        (.ok .normal, w.bind here "i" (count (j + 1))) ∧
      Counts here locals J k (j + 1) (w.bind here "i" (count (j + 1))) := by
  have hvalue : (evaluate setup (depth + 2) ⟨inner, here :: outer⟩
      (.binary (.variable "i" i) .add (.literal (.number (Float.ofNat 1)) one) plus)).run w =
        (.ok (count (j + 1)), w) := by
    rw [count, ← Number.ofNat_add_one hj]
    exact evaluate_binary (evaluate_variable (h.get? hinner (hl.counter k _)) i)
      (evaluate_literal _ one) plus
  refine ⟨execute_assign hvalue (h.owner? hinner (hl.counter k _)) assign,
    hl.bind k w _ h.has h.inv, ?_, ?_⟩
  · rw [World.next_bind]
    exact h.has
  · rw [World.bindings_bind_self h.has, h.bindings, hl.put]

/-! ## The loop -/

/-- A counting loop runs its statements once for each number up to its bound. -/
theorem run_counting (depth : Nat) (hwhole : Number.isInteger bound = true)
    (hbound : Number.truncate? bound = some (n : ℤ)) (hle : n ≤ 2 ^ 53)
    (hlt : n < setup.iterations) {body : List Stmt}
    (hbody : ∀ k < n, ∀ w, Counts here locals J k k w →
      ∃ u, (block (execute setup (depth + 3) ⟨w.next, here :: outer⟩) body).run (w.push .empty) =
          (.ok .normal, u) ∧
        Counts here locals J (k + 1) k u ∧ (u.scopes.bindings w.next).has "i" = false)
    (s₁ s₂ s₃ s₄ s₅ s₆ s₇ s₈ s₉ span : Span) (hw : Counts here locals J 0 0 w) :
    ∃ u, (execute setup (depth + 4) ⟨here, outer⟩
        (.loop (guard s₁ s₂ s₃ s₄ s₅ :: (body ++ [advance s₆ s₇ s₈ s₉])) span)).run w =
          (.ok .normal, u) ∧ Counts here locals J n n u := by
  have hcompare {k : Nat} (hk : k ≤ n) : bound ≤ Float.ofNat k ↔ n ≤ k :=
    Number.le_iff_of_isInteger hwhole hbound (Number.isInteger_ofNat (hk.trans hle))
      (Number.truncate?_ofNat (hk.trans hle))
  rw [execute]
  refine iterate_counts (J := fun k => Counts here locals J k k) hlt (fun k hk w h => ?_)
    (fun w h => ?_) hw
  · have hgoes : ¬ bound ≤ Float.ofNat k := by
      rw [hcompare hk.le]
      exact Nat.not_le_of_lt hk
    obtain ⟨u, hrun, hu, hinner⟩ := hbody k hk w h
    obtain ⟨hadvance, hnext⟩ := execute_advance hl (by omega) hu hinner s₆ s₇ s₈ s₉
    refine ⟨_, ?_, hnext⟩
    rw [run_enter_bind]
    refine (run_block_cons (execute_guard_of_lt hl (h.push hl) World.bindings_push_next hgoes
      s₁ s₂ s₃ s₄ s₅)).trans ?_
    refine (run_block_append hrun).trans ?_
    exact run_block_cons hadvance
  · have hstops : bound ≤ Float.ofNat n := (hcompare le_rfl).mpr le_rfl
    refine ⟨_, ?_, (h.push hl).push hl⟩
    rw [run_enter_bind, block]
    refine (run_bind_of_ok (execute_guard_of_le hl (h.push hl) World.bindings_push_next hstops
      s₁ s₂ s₃ s₄ s₅) _).trans ?_
    rfl

end HostScript.Bootstrap
