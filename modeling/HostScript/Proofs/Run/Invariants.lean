import HostScript.Proofs.Run.Evaluation
import HostScript.Proofs.Run.Natives
import HostScript.Proofs.Run.Stages

/-!
# What runs keep

An `Invariant` says what is true of worlds, and in them of environments and values, and how the
worlds before and after a run are related. If each single operation keeps it (`Invariant.Kept`), so
do all runs (`Invariant.leadsAt`), and it holds at every stage of a run (`Invariant.Holds.within`).
There is one rule for each way in which runs are put together, as for other judgements about runs,
but these rules also say at which stages the parts of a run begin, so that what is kept may depend
on what comes to pass.
-/

namespace HostScript.Run

variable {α β γ : Type} {w w' : World}

/-- What is true of worlds, and in a world of environments and values, and how worlds before and after
a run are related. -/
structure Invariant where
  below : World → World → Prop
  world : World → Prop
  env : World → Env → Prop
  value : World → Value → Prop

namespace Invariant

variable {J : Invariant}

/-- From one world to a later one, in which the invariant holds. -/
structure Later (J : Invariant) (w w' : World) : Prop where
  below : J.below w w'
  world : J.world w'

/-- A run leads to a later world, and its result satisfies `Q` there. -/
structure Leads (J : Invariant) (w : World) (m : Run α) (Q : World → α → Prop) : Prop where
  later : J.Later w (m.run w).2
  result : ∀ a, (m.run w).1 = .ok a → Q (m.run w).2 a

theorem Leads.of_run {m : Run α} {Q : World → α → Prop} {a : α} (h : J.Leads w m Q)
    (hrun : m.run w = (.ok a, w')) : J.Later w w' ∧ Q w' a := by
  obtain ⟨hlater, hresult⟩ := h
  rw [hrun] at hlater hresult
  exact ⟨hlater, hresult a rfl⟩

/-- What a statement gives is as values are. -/
def flow (J : Invariant) (w : World) : Flow → Prop
  | .give v => J.value w v
  | _ => True

/-- Later worlds are later than those before them, and what is true in a world of environments and
values stays true. -/
structure Ordered (J : Invariant) : Prop where
  refl : ∀ w, J.below w w
  trans : ∀ {w₁ w₂ w₃}, J.below w₁ w₂ → J.below w₂ w₃ → J.below w₁ w₃
  env_mono : ∀ {w w' e}, J.below w w' → J.env w e → J.env w' e
  value_mono : ∀ {w w' v}, J.below w w' → J.value w v → J.value w' v

/-! ## Sequences -/

namespace Ordered

theorem later_refl (hJ : J.Ordered) (hw : J.world w) : J.Later w w := ⟨hJ.refl w, hw⟩

theorem later_trans (hJ : J.Ordered) {w'' : World} (h : J.Later w w') (h' : J.Later w' w'') :
    J.Later w w'' :=
  ⟨hJ.trans h.below h'.below, h'.world⟩

theorem leads_pure (hJ : J.Ordered) (hw : J.world w) {a : α} {Q : World → α → Prop} (h : Q w a) :
    J.Leads w (pure a) Q where
  later := hJ.later_refl hw
  result _ ha := Except.ok.inj ha ▸ h

theorem leads_halt (hJ : J.Ordered) (hw : J.world w) (halt : Halt) {Q : World → α → Prop} :
    J.Leads w (Run.halt halt) Q where
  later := hJ.later_refl hw
  result := nofun

/-- The rest of a run begins in the world that the first part leads to, with its result. -/
theorem leads_bind (hJ : J.Ordered) {m : Run α} {f : α → Run β} {P : World → α → Prop}
    {Q : World → β → Prop} (hm : J.Leads w m P)
    (hf : ∀ w' a, m.run w = (.ok a, w') → J.Later w w' → P w' a → J.Leads w' (f a) Q) :
    J.Leads w (m >>= f) Q := by
  obtain ⟨hlater, hresult⟩ := hm
  rcases hrun : m.run w with ⟨_ | a, w'⟩
  · rw [hrun] at hlater
    constructor
    · rw [run_bind, hrun]
      exact hlater
    · rw [run_bind, hrun]
      exact nofun
  · rw [hrun] at hlater hresult
    obtain ⟨hlater', hresult'⟩ := hf w' a hrun hlater (hresult a rfl)
    constructor
    · rw [run_bind, hrun]
      exact hJ.later_trans hlater hlater'
    · rw [run_bind, hrun]
      exact hresult'

/-- A first part of which the outcome is known. -/
theorem leads_bind_of_ok (hJ : J.Ordered) {m : Run α} {f : α → Run β} {a : α}
    {Q : World → β → Prop} (hrun : m.run w = (.ok a, w')) (hlater : J.Later w w')
    (hf : J.Leads w' (f a) Q) : J.Leads w (m >>= f) Q := by
  constructor
  · rw [run_bind_of_ok hrun]
    exact hJ.later_trans hlater hf.later
  · rw [run_bind_of_ok hrun]
    exact hf.result

/-- Each part of a run over a list begins where the parts before it have ended. -/
theorem leads_mapM (hJ : J.Ordered) {f : γ → Run Value} {xs : List γ} (hw : J.world w)
    (hf : ∀ before x rest values w', xs = before ++ x :: rest →
      (before.mapM f).run w = (.ok values, w') → J.Later w w' → J.Leads w' (f x) J.value) :
    J.Leads w (xs.mapM f) fun w' values => ∀ v ∈ values, J.value w' v := by
  induction xs generalizing w with
  | nil => exact hJ.leads_pure hw (List.forall_mem_nil _)
  | cons x xs ih =>
    rw [List.mapM_cons]
    have hfirst := hf [] x xs [] w rfl rfl (hJ.later_refl hw)
    refine hJ.leads_bind hfirst fun w₁ v hrun hlater hv => ?_
    have hrest : J.Leads w₁ (xs.mapM f) fun w' values => ∀ v ∈ values, J.value w' v := by
      apply ih hlater.world
      intro before y rest values w' hxs hbefore hlater'
      refine hf (x :: before) y rest (v :: values) w' ?_ (run_mapM_cons hrun hbefore) ?_
      · rw [hxs, List.cons_append]
      · exact hJ.later_trans hlater hlater'
    refine hJ.leads_bind hrest fun w₂ values _ hlater' hvalues => ?_
    apply hJ.leads_pure hlater'.world
    exact List.forall_mem_cons.mpr ⟨hJ.value_mono hlater'.below hv, hvalues⟩

/-- Each statement of a block begins where those before it have ended normally. -/
theorem leads_block (hJ : J.Ordered) {step : Stmt → Run Flow} {statements : List Stmt}
    (hw : J.world w)
    (hstep : ∀ before s rest w', statements = before ++ s :: rest →
      (block step before).run w = (.ok .normal, w') → J.Later w w' →
        J.Leads w' (step s) J.flow) :
    J.Leads w (block step statements) J.flow := by
  induction statements generalizing w with
  | nil => exact hJ.leads_pure hw trivial
  | cons s rest ih =>
    rw [block]
    have hfirst := hstep [] s rest w rfl rfl (hJ.later_refl hw)
    refine hJ.leads_bind hfirst fun w₁ flow hrun hlater hflow => ?_
    cases flow with
    | normal =>
      apply ih hlater.world
      intro before t rest' w' hrest hbefore hlater'
      refine hstep (s :: before) t rest' w' ?_ ?_ ?_
      · rw [hrest, List.cons_append]
      · rw [run_block_cons hrun, hbefore]
      · exact hJ.later_trans hlater hlater'
    | leave => exact hJ.leads_pure hlater.world hflow
    | give v => exact hJ.leads_pure hlater.world hflow

/-- Each turn of a loop begins where those before it have ended normally. -/
theorem leads_iterate (hJ : J.Ordered) {body : Run Flow} {bound : Nat} (hw : J.world w)
    (hbody : ∀ n w', n < bound → Turns body n w w' → J.Later w w' → J.Leads w' body J.flow) :
    J.Leads w (iterate body bound) J.flow := by
  induction bound generalizing w with
  | zero => exact hJ.leads_halt hw _
  | succ bound ih =>
    rw [iterate]
    have hfirst := hbody 0 w (Nat.succ_pos bound) .none (hJ.later_refl hw)
    refine hJ.leads_bind hfirst fun w₁ flow hrun hlater hflow => ?_
    cases flow with
    | normal =>
      apply ih hlater.world
      intro n w' hn hturns hlater'
      refine hbody (n + 1) w' (Nat.succ_lt_succ hn) (.more hrun hturns) ?_
      exact hJ.later_trans hlater hlater'
    | leave => exact hJ.leads_pure hlater.world trivial
    | give v => exact hJ.leads_pure hlater.world hflow

theorem later_turns (hJ : J.Ordered) {body : Run Flow} {n : Nat} (hturns : Turns body n w w')
    (hw : J.world w)
    (hbody : ∀ k u, k < n → Turns body k w u → J.Later w u → J.Leads u body J.flow) :
    J.Later w w' := by
  induction hturns with
  | none => exact hJ.later_refl hw
  | @more n w w₁ w₂ hfirst hrest ih =>
    have hlater := ((hbody 0 w (Nat.succ_pos n) .none (hJ.later_refl hw)).of_run hfirst).1
    apply hJ.later_trans hlater
    apply ih hlater.world
    intro k u hk hturns hlater'
    exact hbody (k + 1) u (Nat.succ_lt_succ hk) (.more hfirst hturns)
      (hJ.later_trans hlater hlater')

end Ordered

/-! ## Operations -/

/-- Each single operation keeps an invariant. Names are bound only where a statement that binds them is
`reached`, and has come to its end. -/
structure Kept (J : Invariant) (setup : Setup) (reached : Stage → Prop) : Prop extends
    J.Ordered where
  plain : ∀ {w v}, v.Plain → J.value w v
  lookup : ∀ {w e name v}, J.world w → J.env w e → w.scopes.get? e name = some v → J.value w v
  index : ∀ {w t i}, J.world w → J.value w t → J.value w (w.heap.index t i)
  createArray : ∀ {w values}, J.world w → (∀ v ∈ values, J.value w v) →
    J.Leads w (onHeap (·.createArray values)) J.value
  assignIndex : ∀ {w t i v}, J.world w → J.value w t → J.value w v →
    J.Later w { w with heap := (w.heap.assignIndex t i v).2 }
  newFunction : ∀ {w name parameters body e}, J.world w → J.env w e →
    J.Leads w (Run.newFunction name parameters body e) J.value
  callNative : ∀ {w depth f values}, J.world w → (∀ v ∈ values, J.value w v) →
    J.Leads w (Run.callNative setup depth f values) J.value
  enterCall : ∀ {w c values}, J.world w → J.value w (.function (.closure c)) →
    (∀ v ∈ values, J.value w v) →
      J.Later w (w.push (.ofList (c.parameters.zip values))) ∧
        J.env (w.push (.ofList (c.parameters.zip values))) (c.env.enter w.next)
  enter : ∀ {w e}, J.world w → J.env w e →
    J.Later w (w.push .empty) ∧ J.env (w.push .empty) (e.enter w.next)
  bind : ∀ {depth e s w₀ w id name v}, reached ⟨depth + 1, .execute e s, w₀⟩ →
    s.binding? e = some (id, name) →
    (execute setup (depth + 1) e s).run w₀ = (.ok .normal, w.bind id name v) →
    J.world w → J.env w e → J.value w v → J.Later w (w.bind id name v)
  assign : ∀ {w e id name v}, J.world w → J.env w e → J.value w v →
    w.scopes.owner? name e.path = some id → J.Later w (w.bind id name v)

/-- What is true of the environment, or of the values, of a task. -/
def task (J : Invariant) (w : World) : Task → Prop
  | .evaluate env _ => J.env w env
  | .call f values _ => J.value w f ∧ ∀ v ∈ values, J.value w v
  | .execute env _ => J.env w env

/-- An invariant holds at a stage. -/
structure Holds (J : Invariant) (m : Stage) : Prop where
  world : J.world m.world
  task : J.task m.world m.task

/-- Everything that is reached at a nesting depth keeps an invariant. -/
structure LeadsAt (J : Invariant) (setup : Setup) (reached : Stage → Prop) (depth : Nat) : Prop where
  evaluate : ∀ {w env e}, reached ⟨depth, .evaluate env e, w⟩ → J.world w → J.env w env →
    J.Leads w (evaluate setup depth env e) J.value
  callFunction : ∀ {w f values span}, reached ⟨depth, .call f values span, w⟩ → J.world w →
    J.value w f → (∀ v ∈ values, J.value w v) →
      J.Leads w (callFunction setup depth f values span) J.value
  execute : ∀ {w env s}, reached ⟨depth, .execute env s, w⟩ → J.world w → J.env w env →
    J.Leads w (execute setup depth env s) J.flow

section

variable {setup : Setup} {reached : Stage → Prop} {depth : Nat} {env : Env} {w₀ : World}

theorem Kept.leads_lookup (hJ : J.Kept setup reached) (hw : J.world w) (he : J.env w env)
    (name : Name) (span : Span) : J.Leads w (Run.lookup env name span) J.value := by
  cases hv : w.scopes.get? env name with
  | some v =>
    have hrun := run_lookup_of_get? hv span
    constructor
    · rw [hrun]
      exact hJ.later_refl hw
    · rw [hrun]
      rintro _ ⟨⟩
      exact hJ.lookup hw he hv
  | none =>
    have hrun := run_lookup_of_not_bound hv span
    constructor
    · rw [hrun]
      exact hJ.later_refl hw
    · rw [hrun]
      exact nofun

theorem Kept.leads_assign (hJ : J.Kept setup reached) (hw : J.world w) (he : J.env w env)
    (name : Name) {v : Value} (hv : J.value w v) (span : Span) :
    J.Leads w (Run.assign env name v span) fun _ _ => True := by
  refine ⟨?_, fun _ _ => trivial⟩
  cases ho : w.scopes.owner? name env.path with
  | some id =>
    rw [run_assign_of_owner? ho]
    exact hJ.assign hw he hv ho
  | none =>
    rw [run_assign_of_not_bound ho]
    exact hJ.later_refl hw

namespace LeadsAt

theorem zero (hJ : J.Ordered) : J.LeadsAt setup reached 0 where
  evaluate _ hw _ := hJ.leads_halt hw _
  callFunction _ hw _ _ := hJ.leads_halt hw _
  execute _ hw _ := hJ.leads_halt hw _

variable (hJ : J.Kept setup reached) (ih : J.LeadsAt setup reached depth)
include hJ ih

/-- Operands are evaluated one after another, and their values stay known. -/
theorem operands {operands : List Expr} (hw : J.world w) (he : J.env w env)
    (hoperand : ∀ before p rest values w', operands = before ++ p :: rest →
      (before.mapM (Run.evaluate setup depth env)).run w = (.ok values, w') →
        reached ⟨depth, .evaluate env p, w'⟩) :
    J.Leads w (operands.mapM (Run.evaluate setup depth env)) fun w' values =>
      ∀ v ∈ values, J.value w' v := by
  apply hJ.leads_mapM hw
  intro before p rest values w' hsplit hbefore hlater
  apply ih.evaluate (hoperand before p rest values w' hsplit hbefore) hlater.world
  exact hJ.env_mono hlater.below he

theorem operands_before {operands before rest : List Expr} {values : List Value} (hw : J.world w)
    (he : J.env w env)
    (hoperand : ∀ before p rest values w', operands = before ++ p :: rest →
      (before.mapM (Run.evaluate setup depth env)).run w = (.ok values, w') →
        reached ⟨depth, .evaluate env p, w'⟩)
    (hsplit : operands = before ++ rest)
    (hbefore : (before.mapM (Run.evaluate setup depth env)).run w = (.ok values, w')) :
    J.Later w w' ∧ ∀ v ∈ values, J.value w' v := by
  refine (ih.operands hJ hw he ?_).of_run hbefore
  intro before' p rest' values u hsplit' hrun
  refine hoperand before' p (rest' ++ rest) values u ?_ hrun
  rw [hsplit, hsplit', List.append_assoc, List.cons_append]

/-- Statements are executed one after another in the same environment. -/
theorem statements {statements : List Stmt} (hw : J.world w) (he : J.env w env)
    (hstatement : ∀ before s rest w', statements = before ++ s :: rest →
      (block (Run.execute setup depth env) before).run w = (.ok .normal, w') →
        reached ⟨depth, .execute env s, w'⟩) :
    J.Leads w (block (Run.execute setup depth env) statements) J.flow := by
  apply hJ.leads_block hw
  intro before s rest w' hsplit hbefore hlater
  apply ih.execute (hstatement before s rest w' hsplit hbefore) hlater.world
  exact hJ.env_mono hlater.below he

theorem statements_before {statements before rest : List Stmt} (hw : J.world w) (he : J.env w env)
    (hstatement : ∀ before s rest w', statements = before ++ s :: rest →
      (block (Run.execute setup depth env) before).run w = (.ok .normal, w') →
        reached ⟨depth, .execute env s, w'⟩)
    (hsplit : statements = before ++ rest)
    (hbefore : (block (Run.execute setup depth env) before).run w = (.ok .normal, w')) :
    J.Later w w' := by
  refine ((ih.statements hJ hw he ?_).of_run hbefore).1
  intro before' s rest' u hsplit' hrun
  refine hstatement before' s (rest' ++ rest) u ?_ hrun
  rw [hsplit, hsplit', List.append_assoc, List.cons_append]

/-- A block in a new scope, the statements of which are reached. -/
theorem enclosed {statements : List Stmt} (hw : J.world w) (he : J.env w env)
    (hstatement : ∀ before s rest w', statements = before ++ s :: rest →
      (block (Run.execute setup depth (env.enter w.next)) before).run (w.push .empty) =
        (.ok .normal, w') → reached ⟨depth, .execute (env.enter w.next) s, w'⟩) :
    J.Leads w (Run.enclosed setup depth env statements) J.flow := by
  obtain ⟨hpush, henter⟩ := hJ.enter hw he
  have hblock := ih.statements hJ hpush.world henter hstatement
  exact hJ.leads_bind_of_ok (run_enter env w) hpush hblock

/-- The statements of a block in a new scope, up to one of them. -/
theorem enclosed_before {statements before rest : List Stmt} (hw : J.world w) (he : J.env w env)
    (hstatement : ∀ before s rest w', statements = before ++ s :: rest →
      (block (Run.execute setup depth (env.enter w.next)) before).run (w.push .empty) =
        (.ok .normal, w') → reached ⟨depth, .execute (env.enter w.next) s, w'⟩)
    (hsplit : statements = before ++ rest)
    (hbefore : (block (Run.execute setup depth (env.enter w.next)) before).run (w.push .empty) =
      (.ok .normal, w')) :
    J.Later w w' ∧ J.env w' (env.enter w.next) := by
  obtain ⟨hpush, henter⟩ := hJ.enter hw he
  have hlater := ih.statements_before hJ hpush.world henter hstatement hsplit hbefore
  exact ⟨hJ.later_trans hpush hlater, hJ.env_mono hlater.below henter⟩

variable (hreached : ∀ m m', reached m → Begins setup m m' → reached m')
include hreached

/-- Some of the operands of an expression have been evaluated, the first ones. -/
theorem evaluate_operands {e : Expr} {before rest : List Expr} {values : List Value}
    (hstage : reached ⟨depth + 1, .evaluate env e, w⟩) (hw : J.world w) (he : J.env w env)
    (hsplit : e.operands = before ++ rest)
    (hbefore : (before.mapM (Run.evaluate setup depth env)).run w = (.ok values, w')) :
    J.Later w w' ∧ ∀ v ∈ values, J.value w' v := by
  refine ih.operands_before hJ hw he ?_ hsplit hbefore
  intro before p rest values u hsplit hrun
  exact hreached _ _ hstage (.operand hsplit hrun)

theorem execute_operands {s : Stmt} {before rest : List Expr} {values : List Value}
    (hstage : reached ⟨depth + 1, .execute env s, w⟩) (hw : J.world w) (he : J.env w env)
    (hsplit : s.operands = before ++ rest)
    (hbefore : (before.mapM (Run.evaluate setup depth env)).run w = (.ok values, w')) :
    J.Later w w' ∧ ∀ v ∈ values, J.value w' v := by
  refine ih.operands_before hJ hw he ?_ hsplit hbefore
  intro before p rest values u hsplit hrun
  exact hreached _ _ hstage (.part hsplit hrun)

/-- A loop has made some turns. -/
theorem execute_turns {body : List Stmt} {span : Span} {n : Nat}
    (hstage : reached ⟨depth + 1, .execute env (.loop body span), w⟩) (hw : J.world w)
    (he : J.env w env) (hn : n < setup.iterations)
    (hturns : Turns (Run.enclosed setup depth env body) n w w') : J.Later w w' := by
  refine hJ.later_turns hturns hw fun k u hk hturns hlater => ?_
  apply ih.enclosed hJ hlater.world (hJ.env_mono hlater.below he)
  intro before s rest u' hsplit hbefore
  exact hreached _ _ hstage (.turn (Nat.lt_trans hk hn) hturns hsplit hbefore)

theorem conclude {e : Expr} {values : List Value}
    (hstage : reached ⟨depth + 1, .evaluate env e, w₀⟩)
    (hrun : (e.operands.mapM (Run.evaluate setup depth env)).run w₀ = (.ok values, w))
    (hw : J.world w) (he : J.env w env) (hvalues : ∀ v ∈ values, J.value w v) :
    J.Leads w (Run.conclude setup depth env e values) J.value := by
  unfold Run.conclude
  split
  · exact hJ.leads_pure hw (hJ.plain fun _ => ofLiteral_within _)
  · exact hJ.leads_lookup hw he _ _
  · exact hJ.leads_pure hw (hvalues _ List.mem_cons_self)
  · exact hJ.leads_pure hw (hJ.plain fun _ => applyUnary_within _ _)
  · exact hJ.leads_pure hw (hJ.plain fun _ => applyBinary_within _ _ _)
  · next left op right span l =>
    change J.Leads w (Run.conclude setup depth env (.logical left op right span) [l]) J.value
    rw [conclude_logical]
    split
    · next hopen =>
      have hright := ih.evaluate (hreached _ _ hstage (.right hrun hopen)) hw he
      refine hJ.leads_bind hright fun w' v _ hlater _ => ?_
      exact hJ.leads_pure hlater.world (hJ.plain fun _ => trivial)
    · exact hJ.leads_pure hw (hJ.plain fun _ => trivial)
  · next target i span t j =>
    apply hJ.leads_bind_of_ok (run_heap w) (hJ.later_refl hw)
    exact hJ.leads_pure hw (hJ.index hw (hvalues t List.mem_cons_self))
  · exact hJ.createArray hw hvalues
  · exact hJ.newFunction hw he
  · next callee arguments span f values =>
    obtain ⟨hf, hvalues⟩ := List.forall_mem_cons.mp hvalues
    exact ih.callFunction (hreached _ _ hstage (.apply hrun)) hw hf hvalues
  · exact hJ.leads_halt hw _

theorem evaluate_succ {e : Expr} (hstage : reached ⟨depth + 1, .evaluate env e, w⟩)
    (hw : J.world w) (he : J.env w env) :
    J.Leads w (Run.evaluate setup (depth + 1) env e) J.value := by
  rw [evaluate_eq_conclude]
  have hoperands := operands hJ ih hw he fun before p rest values w' hsplit hbefore =>
    hreached _ _ hstage (.operand hsplit hbefore)
  refine hJ.leads_bind hoperands fun w' values hrun hlater hvalues => ?_
  exact ih.conclude hJ hreached hstage hrun hlater.world (hJ.env_mono hlater.below he) hvalues

theorem callFunction_succ {f : Value} {values : List Value} {span : Option Span}
    (hstage : reached ⟨depth + 1, .call f values span, w⟩) (hw : J.world w) (hf : J.value w f)
    (hvalues : ∀ v ∈ values, J.value w v) :
    J.Leads w (Run.callFunction setup (depth + 1) f values span) J.value := by
  unfold Run.callFunction
  split
  · exact hJ.callNative hw hvalues
  · next c =>
    split
    · next hcount =>
      obtain ⟨hpush, henter⟩ := hJ.enterCall hw hf hvalues
      have hblock := ih.statements hJ hpush.world henter fun before s rest w' hsplit hbefore =>
        hreached _ _ hstage (.body hcount hsplit hbefore)
      apply hJ.leads_bind_of_ok (run_enterCall c values w) hpush
      refine hJ.leads_bind hblock fun w' flow _ hlater hflow => ?_
      cases flow with
      | give v => exact hJ.leads_pure hlater.world hflow
      | _ => exact hJ.leads_pure hlater.world (hJ.plain fun _ => trivial)
    · exact hJ.leads_halt hw _
  · exact hJ.leads_halt hw _

theorem proceed {s : Stmt} {values : List Value}
    (hstage : reached ⟨depth + 1, .execute env s, w₀⟩)
    (hrun : (s.operands.mapM (Run.evaluate setup depth env)).run w₀ = (.ok values, w))
    (hw : J.world w) (he : J.env w env) (hvalues : ∀ v ∈ values, J.value w v) :
    J.Leads w (Run.proceed setup depth env s values) J.flow := by
  unfold Run.proceed
  split
  · exact hJ.leads_pure hw trivial
  · next name e span v =>
    have hv := hvalues v List.mem_cons_self
    have hbind := hJ.bind hstage rfl (run_execute_of_operands hrun) hw he hv
    exact hJ.leads_bind_of_ok rfl hbind (hJ.leads_pure hbind.world trivial)
  · next name e span v =>
    have hv := hvalues v List.mem_cons_self
    have hbind := hJ.bind hstage rfl (run_execute_of_operands hrun) hw he hv
    exact hJ.leads_bind_of_ok rfl hbind (hJ.leads_pure hbind.world trivial)
  · next name e span v =>
    have hassign := hJ.leads_assign hw he name (hvalues v List.mem_cons_self) span
    exact hJ.leads_bind hassign fun w' _ _ hlater _ => hJ.leads_pure hlater.world trivial
  · next target i e span t j v =>
    have ht := hvalues t List.mem_cons_self
    have hv := hvalues v (by simp)
    have hassign := hJ.assignIndex (i := j) hw ht hv
    exact hJ.leads_bind_of_ok rfl hassign (hJ.leads_pure hassign.world trivial)
  · next name parameters body exported span =>
    refine hJ.leads_bind (hJ.newFunction hw he) fun w' f hnew hlater hf => ?_
    have hexecute := run_execute_of_operands hrun
    have he' := hJ.env_mono hlater.below he
    cases exported with
    | true =>
      have hbind := hJ.bind hstage rfl (hexecute.trans (run_bind_of_ok hnew _)) hlater.world he' hf
      exact hJ.leads_bind_of_ok rfl hbind (hJ.leads_pure hbind.world trivial)
    | false =>
      have hbind := hJ.bind hstage rfl (hexecute.trans (run_bind_of_ok hnew _)) hlater.world he' hf
      exact hJ.leads_bind_of_ok rfl hbind (hJ.leads_pure hbind.world trivial)
  · next condition consequent alternative span c =>
    split
    · next htrue =>
      apply enclosed hJ ih hw he
      intro before s rest w' hsplit hbefore
      exact hreached _ _ hstage (.branch hrun (by rw [htrue]; exact hsplit) hbefore)
    · next statements hfalse =>
      apply enclosed hJ ih hw he
      intro before s rest w' hsplit hbefore
      exact hreached _ _ hstage (.branch hrun (by rw [hfalse]; exact hsplit) hbefore)
    · exact hJ.leads_pure hw trivial
  · next body span =>
    obtain ⟨-, rfl⟩ := Prod.mk.inj hrun
    apply hJ.leads_iterate hw
    intro n w' hn hturns hlater
    apply enclosed hJ ih hlater.world (hJ.env_mono hlater.below he)
    intro before s rest w'' hsplit hbefore
    exact hreached _ _ hstage (.turn hn hturns hsplit hbefore)
  · exact hJ.leads_pure hw trivial
  · exact hJ.leads_pure hw (hJ.plain fun _ => trivial)
  · next e span v =>
    exact hJ.leads_pure hw (hvalues v List.mem_cons_self)
  · exact hJ.leads_halt hw _

theorem execute_succ {s : Stmt} (hstage : reached ⟨depth + 1, .execute env s, w⟩)
    (hw : J.world w) (he : J.env w env) :
    J.Leads w (Run.execute setup (depth + 1) env s) J.flow := by
  rw [execute_eq_proceed]
  have hoperands := operands hJ ih hw he fun before p rest values w' hsplit hbefore =>
    hreached _ _ hstage (.part hsplit hbefore)
  refine hJ.leads_bind hoperands fun w' values hrun hlater hvalues => ?_
  exact ih.proceed hJ hreached hstage hrun hlater.world (hJ.env_mono hlater.below he) hvalues

end LeadsAt

theorem holds_ofStmt {s : Stmt} (hw : J.world w) (he : J.env w env) :
    J.Holds (.ofStmt setup env w s) := by
  cases s <;> exact ⟨hw, he⟩

/-! ## All runs -/

variable (hJ : J.Kept setup reached)
  (hreached : ∀ m m', reached m → Begins setup m m' → reached m')
include hJ hreached

theorem leadsAt (depth : Nat) : J.LeadsAt setup reached depth := by
  induction depth with
  | zero => exact .zero hJ.toOrdered
  | succ depth ih =>
    exact
      { evaluate := ih.evaluate_succ hJ hreached
        callFunction := ih.callFunction_succ hJ hreached
        execute := ih.execute_succ hJ hreached }

/-- A task leads to a later world. -/
theorem Holds.after {m : Stage} (hm : J.Holds m) (hstage : reached m) :
    J.Later m.world (m.after setup) := by
  obtain ⟨depth, task, w⟩ := m
  have hat := leadsAt hJ hreached depth
  cases task with
  | evaluate env e => exact (hat.evaluate hstage hm.world hm.task).later
  | call f values span => exact (hat.callFunction hstage hm.world hm.task.1 hm.task.2).later
  | execute env s => exact (hat.execute hstage hm.world hm.task).later

/-- An invariant holds wherever a task is begun by one at the beginning of which it holds. -/
theorem Holds.begins {m m' : Stage} (hm : J.Holds m) (hstage : reached m)
    (h : Begins setup m m') : J.below m.world m'.world ∧ J.Holds m' := by
  have hat (depth : Nat) := leadsAt hJ hreached depth
  cases h with
  | operand hsplit hbefore =>
    have hlater := ((hat _).evaluate_operands hJ hreached hstage hm.world hm.task hsplit hbefore).1
    exact ⟨hlater.below, hlater.world, hJ.env_mono hlater.below hm.task⟩
  | part hsplit hbefore =>
    have hlater := ((hat _).execute_operands hJ hreached hstage hm.world hm.task hsplit hbefore).1
    exact ⟨hlater.below, hlater.world, hJ.env_mono hlater.below hm.task⟩
  | right hleft =>
    have hlater := ((hat _).evaluate_operands hJ hreached hstage hm.world hm.task
      (List.append_nil _).symm hleft).1
    exact ⟨hlater.below, hlater.world, hJ.env_mono hlater.below hm.task⟩
  | apply hrun =>
    obtain ⟨hlater, hvalues⟩ := (hat _).evaluate_operands hJ hreached hstage hm.world hm.task
      (List.append_nil _).symm hrun
    exact ⟨hlater.below, hlater.world, List.forall_mem_cons.mp hvalues⟩
  | body hcount hsplit hbefore =>
    obtain ⟨hpush, henter⟩ := hJ.enterCall hm.world hm.task.1 hm.task.2
    have hlater := (hat _).statements_before hJ hpush.world henter (fun _ _ _ _ hsplit hrun =>
      hreached _ _ hstage (.body hcount hsplit hrun)) hsplit hbefore
    exact ⟨hJ.trans hpush.below hlater.below, hlater.world, hJ.env_mono hlater.below henter⟩
  | branch hcondition htaken hbefore =>
    have hlater := ((hat _).execute_operands hJ hreached hstage hm.world hm.task
      (List.append_nil _).symm hcondition).1
    have he := hJ.env_mono hlater.below hm.task
    obtain ⟨hlater', henter⟩ := (hat _).enclosed_before hJ hlater.world he
      (fun _ _ _ _ htaken hrun => hreached _ _ hstage (.branch hcondition htaken hrun)) htaken hbefore
    exact ⟨hJ.trans hlater.below hlater'.below, hlater'.world, henter⟩
  | turn hn hturns hsplit hbefore =>
    have hlater := (hat _).execute_turns hJ hreached hstage hm.world hm.task hn hturns
    have he := hJ.env_mono hlater.below hm.task
    obtain ⟨hlater', henter⟩ := (hat _).enclosed_before hJ hlater.world he
      (fun _ _ _ _ hsplit hrun => hreached _ _ hstage (.turn hn hturns hsplit hrun)) hsplit hbefore
    exact ⟨hJ.trans hlater.below hlater'.below, hlater'.world, henter⟩

/-- A statement that another task begins is executed in a scope that is made in some later world. -/
theorem Holds.enters {m : Stage} {s : Stmt} (hm : J.Holds m) (hstage : reached m)
    (h : Begins setup m ⟨depth, .execute env s, w⟩) :
    ∃ (outer : Env) (u : World), J.Later m.world u ∧ env = outer.enter u.next := by
  have hat := leadsAt hJ hreached depth
  cases h with
  | body => exact ⟨_, _, hJ.later_refl hm.world, rfl⟩
  | branch hcondition =>
    have hlater := (hat.execute_operands hJ hreached hstage hm.world hm.task
      (List.append_nil _).symm hcondition).1
    exact ⟨_, _, hlater, rfl⟩
  | turn hn hturns =>
    exact ⟨_, _, hat.execute_turns hJ hreached hstage hm.world hm.task hn hturns, rfl⟩

/-- An invariant holds at all that comes to pass in the run of a task at the beginning of which it
holds. -/
theorem Holds.within {m m' : Stage} (hm : J.Holds m) (hstage : reached m) (h : Within setup m m') :
    J.below m.world m'.world ∧ J.Holds m' ∧ reached m' := by
  induction h with
  | refl => exact ⟨hJ.refl _, hm, hstage⟩
  | tail _ hbegins ih =>
    obtain ⟨hbelow, hholds, hstage'⟩ := ih
    obtain ⟨hbelow', hholds'⟩ := hholds.begins hJ hreached hstage' hbegins
    exact ⟨hJ.trans hbelow hbelow', hholds', hreached _ _ hstage' hbegins⟩

/-! ## Scripts -/

/-- The statements of a script are run one after another, as long as they come to their end. -/
theorem leads_program {env : Env} {result : Value} {statements : List Stmt} (hw : J.world w)
    (he : J.env w env) (hresult : J.value w result)
    (hstatement : ∀ before s rest w', statements = before ++ s :: rest →
      Run.Passes setup env w before w' → reached (.ofStmt setup env w' s)) :
    J.Leads w (program setup env result statements) J.value := by
  have hat := leadsAt hJ hreached setup.depth
  induction statements generalizing w result with
  | nil => exact hJ.leads_pure hw hresult
  | cons s rest ih =>
    have hstage := hstatement [] s rest w rfl .nil
    by_cases hexpression : ∃ e σ, s = .expression e σ
    · obtain ⟨e, σ, rfl⟩ := hexpression
      rw [program]
      refine hJ.leads_bind (hat.evaluate hstage hw he) fun w' v hrun hlater hv => ?_
      apply ih hlater.world (hJ.env_mono hlater.below he) hv
      intro before t rest' u hsplit hpasses
      refine hstatement (.expression e σ :: before) t rest' u ?_ (.expression hrun hpasses)
      rw [hsplit, List.cons_append]
    · have hs : ∀ e σ, s ≠ .expression e σ := fun e σ h => hexpression ⟨e, σ, h⟩
      rw [Stage.ofStmt_eq hs] at hstage
      rw [program_cons result hs]
      refine hJ.leads_bind (hat.execute hstage hw he) fun w' flow hrun hlater hflow => ?_
      cases flow with
      | normal =>
        apply ih hlater.world (hJ.env_mono hlater.below he) (hJ.value_mono hlater.below hresult)
        intro before t rest' u hsplit hpasses
        refine hstatement (s :: before) t rest' u ?_ (.step hs hrun hpasses)
        rw [hsplit, List.cons_append]
      | leave => exact hJ.leads_pure hlater.world (hJ.value_mono hlater.below hresult)
      | give v => exact hJ.leads_pure hlater.world hflow

/-- An invariant holds at all that comes to pass in the run of a script. -/
theorem holds_of_comes {env : Env} {statements : List Stmt} {m : Stage} (hw : J.world w)
    (he : J.env w env)
    (hstatement : ∀ before s rest w', statements = before ++ s :: rest →
      Run.Passes setup env w before w' → reached (.ofStmt setup env w' s))
    (h : Comes setup env w statements m) : J.below w m.world ∧ J.Holds m := by
  obtain ⟨before, s, rest, w₁, hsplit, hpasses, hwithin⟩ := h
  have hlater : J.Later w w₁ := by
    have hnull : J.value w .null := hJ.plain fun _ => trivial
    obtain ⟨v, hrun, -⟩ := run_program_of_passes hpasses .null
    refine ((leads_program hJ hreached hw he hnull ?_).of_run hrun).1
    intro before' t rest' u hsplit' hpasses'
    refine hstatement before' t (rest' ++ s :: rest) u ?_ hpasses'
    rw [hsplit, hsplit', List.append_assoc, List.cons_append]
  have hfirst : J.Holds (.ofStmt setup env w₁ s) :=
    holds_ofStmt hlater.world (hJ.env_mono hlater.below he)
  have hstage := hstatement before s rest w₁ hsplit hpasses
  obtain ⟨hbelow, hholds, -⟩ := hfirst.within hJ hreached hstage hwithin
  refine ⟨hJ.trans hlater.below ?_, hholds⟩
  rwa [Stage.world_ofStmt] at hbelow

end

end Invariant

end HostScript.Run
