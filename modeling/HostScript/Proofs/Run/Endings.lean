import HostScript.Proofs.Run.Invariants

/-!
# How stages end

A task that another one has begun ends before that one does, so what it leaves is not yet what the
other one leaves, but later worlds come from it (`Invariant.Holds.later_of_within`). While the task
goes on, the other one keeps the values of the operands that it has evaluated (`Awaits`).
-/

namespace HostScript.Run

variable {α β γ : Type} {w w' u : World}

/-! ## What is at hand -/

/-- The environment in which a task runs. A call has none of its own before its body begins. -/
def Task.env? : Task → Option Env
  | .evaluate env _ | .execute env _ => some env
  | .call _ _ _ => none

/-- The values that a task is given. -/
def Task.values : Task → List Value
  | .call f values _ => f :: values
  | .evaluate _ _ | .execute _ _ => []

/-- The value that a run ends with. -/
def ended : Except Halt Value → List Value
  | .ok v => [v]
  | .error _ => []

/-- The value that a statement gives. -/
def given : Except Halt Flow → List Value
  | .ok (.give v) => [v]
  | _ => []

/-- The value that a task ends with, if it ends with one. -/
def Stage.results (setup : Setup) : Stage → List Value
  | ⟨depth, .evaluate env e, w⟩ => ended ((evaluate setup depth env e).run w).1
  | ⟨depth, .call f values span, w⟩ => ended ((callFunction setup depth f values span).run w).1
  | ⟨depth, .execute env s, w⟩ => given ((execute setup depth env s).run w).1

theorem run_eq_ok_of_mem_ended {m : Run Value} {v : Value} (h : v ∈ ended (m.run w).1) :
    (m.run w).1 = .ok v := by
  revert h
  cases (m.run w).1 with
  | error halt => exact nofun
  | ok u => exact fun h => congrArg _ (List.mem_singleton.mp h).symm

theorem run_eq_give_of_mem_given {m : Run Flow} {v : Value} (h : v ∈ given (m.run w).1) :
    (m.run w).1 = .ok (.give v) := by
  revert h
  rcases (m.run w).1 with _ | _ | _ | u
  · exact nofun
  · exact nofun
  · exact nofun
  · exact fun h => congrArg _ (congrArg _ (List.mem_singleton.mp h).symm)

/-- A task that has begun another one, for an operand, keeps the values of the operands before. -/
inductive Awaits (setup : Setup) : Stage → List Value → Stage → Prop
  | operand {depth : Nat} {env : Env} {e p : Expr} {before rest : List Expr} {values : List Value}
    {w w₁ : World} (hoperands : e.operands = before ++ p :: rest)
    (hbefore : (before.mapM (evaluate setup depth env)).run w = (.ok values, w₁)) :
    Awaits setup ⟨depth + 1, .evaluate env e, w⟩ values ⟨depth, .evaluate env p, w₁⟩
  | right {depth : Nat} {env : Env} {left right : Expr} {op : LogicalOp} {span : Span} {l : Value}
    {w w₁ : World} (hleft : ([left].mapM (evaluate setup depth env)).run w = (.ok [l], w₁))
    (hopen : l.truthy = decide (op = .and)) :
    Awaits setup ⟨depth + 1, .evaluate env (.logical left op right span), w⟩ [l]
      ⟨depth, .evaluate env right, w₁⟩
  | part {depth : Nat} {env : Env} {s : Stmt} {p : Expr} {before rest : List Expr}
    {values : List Value} {w w₁ : World} (hoperands : s.operands = before ++ p :: rest)
    (hbefore : (before.mapM (evaluate setup depth env)).run w = (.ok values, w₁)) :
    Awaits setup ⟨depth + 1, .execute env s, w⟩ values ⟨depth, .evaluate env p, w₁⟩

theorem Awaits.begins {setup : Setup} {m m' : Stage} {values : List Value}
    (h : Awaits setup m values m') : Begins setup m m' := by
  cases h with
  | operand hoperands hbefore => exact .operand hoperands hbefore
  | right hleft hopen => exact .right hleft hopen
  | part hoperands hbefore => exact .part hoperands hbefore

/-- A loop that has made some turns goes on with those that are left. -/
theorem run_iterate_of_turns {body : Run Flow} {n : Nat} (h : Turns body n w w') (left : Nat) :
    (iterate body (n + left)).run w = (iterate body left).run w' := by
  induction h with
  | none => rw [Nat.zero_add]
  | @more n _ _ _ hfirst hrest ih =>
    rw [Nat.succ_add, iterate, run_bind_of_ok hfirst]
    exact ih

/-- A branch that has statements to run runs them in a new scope. -/
theorem proceed_branch {setup : Setup} {depth : Nat} {env : Env} {condition : Expr}
    {consequent statements : List Stmt} {alternative : Option (List Stmt)} {span : Span} {c : Value}
    (htaken : (if c.truthy then consequent else alternative.getD []) = statements)
    (hne : statements ≠ []) :
    proceed setup depth env (.branch condition consequent alternative span) [c] =
      enclosed setup depth env statements := by
  subst htaken
  cases htrue : c.truthy with
  | true => simp [proceed, htrue]
  | false =>
    cases alternative with
    | none => simp [htrue] at hne
    | some statements => simp [proceed, htrue]

theorem snd_run_bind_pure (m : Run α) (g : α → β) (w : World) :
    ((m >>= fun a => pure (g a)).run w).2 = (m.run w).2 := by
  rw [run_bind]
  rcases m.run w with ⟨_ | _, _⟩ <;> rfl

namespace Invariant

variable {J : Invariant}

namespace Ordered

/-! ## Parts of runs -/

/-- What the first part of a run has led to is followed by the rest. -/
theorem later_bind (hJ : J.Ordered) {m : Run α} {f : α → Run β} {P : World → α → Prop}
    (hu : J.Later u (m.run w).2) (hm : J.Leads w m P)
    (hf : ∀ w' a, m.run w = (.ok a, w') → J.Later w w' → P w' a →
      J.Later w' ((f a).run w').2) : J.Later u ((m >>= f).run w).2 := by
  rcases hrun : m.run w with ⟨halt | a, w'⟩
  · rw [run_bind, hrun]
    rwa [hrun] at hu
  · obtain ⟨hlater, ha⟩ := hm.of_run hrun
    rw [hrun] at hu
    rw [run_bind_of_ok hrun]
    exact hJ.later_trans hu (hf w' a hrun hlater ha)

/-- One part of a run over a list is followed by the others. -/
theorem later_mapM (hJ : J.Ordered) {f : γ → Run Value} {before rest : List γ} {x : γ}
    {values : List Value} (hbefore : (before.mapM f).run w = (.ok values, w'))
    (hx : J.Leads w' (f x) J.value)
    (hrest : ∀ u, J.Later w' u → J.Later u ((rest.mapM f).run u).2) :
    J.Later ((f x).run w').2 (((before ++ x :: rest).mapM f).run w).2 := by
  rw [List.mapM_append, run_bind_of_ok hbefore, snd_run_bind_pure, List.mapM_cons]
  refine hJ.later_bind (hJ.later_refl hx.later.world) hx fun u v _ hlater _ => ?_
  rw [snd_run_bind_pure]
  exact hrest u hlater

/-- One statement of a block is followed by the others. -/
theorem later_block (hJ : J.Ordered) {step : Stmt → Run Flow} {before rest : List Stmt} {s : Stmt}
    (hbefore : (block step before).run w = (.ok .normal, w')) (hs : J.Leads w' (step s) J.flow)
    (hrest : ∀ u, J.Later w' u → J.Later u ((block step rest).run u).2) :
    J.Later ((step s).run w').2 ((block step (before ++ s :: rest)).run w).2 := by
  rw [run_block_append hbefore, block]
  refine hJ.later_bind (hJ.later_refl hs.later.world) hs fun u flow _ hlater _ => ?_
  cases flow with
  | normal => exact hrest u hlater
  | leave => exact hJ.later_refl hlater.world
  | give v => exact hJ.later_refl hlater.world

/-- One turn of a loop is followed by the others. -/
theorem later_iterate (hJ : J.Ordered) {body : Run Flow} {n bound : Nat} (hn : n < bound)
    (hturns : Turns body n w w') (hbody : J.Leads w' body J.flow)
    (hrest : ∀ bound u, J.Later w' u → J.Later u ((iterate body bound).run u).2) :
    J.Later (body.run w').2 ((iterate body bound).run w).2 := by
  obtain ⟨left, rfl⟩ : ∃ left, bound = n + (left + 1) := ⟨bound - n - 1, by omega⟩
  rw [run_iterate_of_turns hturns, iterate]
  refine hJ.later_bind (hJ.later_refl hbody.later.world) hbody fun u flow _ hlater _ => ?_
  cases flow with
  | normal => exact hrest left u hlater
  | leave => exact hJ.later_refl hlater.world
  | give v => exact hJ.later_refl hlater.world

end Ordered

section

variable {setup : Setup} {depth : Nat} {env : Env} {m m' : Stage}
  (hJ : J.Kept setup fun _ => True)
include hJ

/-! ## Parts of tasks -/

theorem leadsAt_all (depth : Nat) : J.LeadsAt setup (fun _ => True) depth :=
  leadsAt hJ (fun _ _ _ _ => trivial) depth

theorem Holds.later_after (hm : J.Holds m) : J.Later m.world (m.after setup) :=
  hm.after hJ (fun _ _ _ _ => trivial) trivial

theorem Holds.of_begins (hm : J.Holds m) (h : Begins setup m m') : J.Holds m' :=
  (hm.begins hJ (fun _ _ _ _ => trivial) trivial h).2

theorem Holds.below_within (hm : J.Holds m) (h : Within setup m m') :
    J.below m.world m'.world ∧ J.Holds m' := by
  obtain ⟨hbelow, hholds, -⟩ := hm.within hJ (fun _ _ _ _ => trivial) trivial h
  exact ⟨hbelow, hholds⟩

theorem leads_operands (hw : J.world w) (he : J.env w env) (operands : List Expr) :
    J.Leads w (operands.mapM (evaluate setup depth env)) fun u values =>
      ∀ v ∈ values, J.value u v :=
  (leadsAt_all hJ depth).operands hJ hw he fun _ _ _ _ _ _ _ => trivial

theorem leads_statements (hw : J.world w) (he : J.env w env) (statements : List Stmt) :
    J.Leads w (block (execute setup depth env) statements) J.flow :=
  (leadsAt_all hJ depth).statements hJ hw he fun _ _ _ _ _ _ => trivial

theorem leads_enclosed (hw : J.world w) (he : J.env w env) (statements : List Stmt) :
    J.Leads w (enclosed setup depth env statements) J.flow :=
  (leadsAt_all hJ depth).enclosed hJ hw he fun _ _ _ _ _ _ => trivial

theorem later_operand {operands before rest : List Expr} {p : Expr} {values : List Value}
    (hw : J.world w) (he : J.env w env) (hsplit : operands = before ++ p :: rest)
    (hbefore : (before.mapM (evaluate setup depth env)).run w = (.ok values, w')) :
    J.Later ((evaluate setup depth env p).run w').2
      ((operands.mapM (evaluate setup depth env)).run w).2 := by
  have hlater := ((leads_operands hJ hw he before).of_run hbefore).1
  have he' := hJ.env_mono hlater.below he
  have hp := (leadsAt_all hJ depth).evaluate (e := p) trivial hlater.world he'
  rw [hsplit]
  refine hJ.later_mapM hbefore hp fun u hu => ?_
  exact (leads_operands hJ hu.world (hJ.env_mono hu.below he') rest).later

theorem later_statement {statements before rest : List Stmt} {s : Stmt} (hw : J.world w)
    (he : J.env w env) (hsplit : statements = before ++ s :: rest)
    (hbefore : (block (execute setup depth env) before).run w = (.ok .normal, w')) :
    J.Later ((execute setup depth env s).run w').2
      ((block (execute setup depth env) statements).run w).2 := by
  have hlater := ((leads_statements hJ hw he before).of_run hbefore).1
  have he' := hJ.env_mono hlater.below he
  have hs := (leadsAt_all hJ depth).execute (s := s) trivial hlater.world he'
  rw [hsplit]
  refine hJ.later_block hbefore hs fun u hu => ?_
  exact (leads_statements hJ hu.world (hJ.env_mono hu.below he') rest).later

theorem later_enclosed {statements before rest : List Stmt} {s : Stmt} (hw : J.world w)
    (he : J.env w env) (hsplit : statements = before ++ s :: rest)
    (hbefore : (block (execute setup depth (env.enter w.next)) before).run (w.push .empty) =
      (.ok .normal, w')) :
    J.Later ((execute setup depth (env.enter w.next) s).run w').2
      ((enclosed setup depth env statements).run w).2 := by
  obtain ⟨hpush, henter⟩ := hJ.enter hw he
  rw [enclosed, run_enter_bind]
  exact later_statement hJ hpush.world henter hsplit hbefore

/-! ## Tasks -/

theorem later_evaluate_operand {e p : Expr} {before rest : List Expr} {values : List Value}
    (hw : J.world w) (he : J.env w env) (hsplit : e.operands = before ++ p :: rest)
    (hbefore : (before.mapM (evaluate setup depth env)).run w = (.ok values, w')) :
    J.Later ((evaluate setup depth env p).run w').2
      ((evaluate setup (depth + 1) env e).run w).2 := by
  rw [evaluate_eq_conclude]
  have hoperand := later_operand hJ hw he hsplit hbefore
  refine hJ.later_bind hoperand (leads_operands hJ hw he _) fun u values hrun hlater hvalues => ?_
  exact ((leadsAt_all hJ depth).conclude hJ (fun _ _ _ _ => trivial) trivial hrun hlater.world
    (hJ.env_mono hlater.below he) hvalues).later

theorem later_execute_operand {s : Stmt} {p : Expr} {before rest : List Expr} {values : List Value}
    (hw : J.world w) (he : J.env w env) (hsplit : s.operands = before ++ p :: rest)
    (hbefore : (before.mapM (evaluate setup depth env)).run w = (.ok values, w')) :
    J.Later ((evaluate setup depth env p).run w').2
      ((execute setup (depth + 1) env s).run w).2 := by
  rw [execute_eq_proceed]
  have hoperand := later_operand hJ hw he hsplit hbefore
  refine hJ.later_bind hoperand (leads_operands hJ hw he _) fun u values hrun hlater hvalues => ?_
  exact ((leadsAt_all hJ depth).proceed hJ (fun _ _ _ _ => trivial) trivial hrun hlater.world
    (hJ.env_mono hlater.below he) hvalues).later

/-- When a task has ended that another one began, later worlds come to pass until that one ends. -/
theorem Holds.later_of_begins (hm : J.Holds m) (h : Begins setup m m') :
    J.Later (m'.after setup) (m.after setup) := by
  -- The task is run up to where the other one begins, and what is left of it is bound behind that.
  cases h with
  | operand hsplit hbefore => exact later_evaluate_operand hJ hm.world hm.task hsplit hbefore
  | part hsplit hbefore => exact later_execute_operand hJ hm.world hm.task hsplit hbefore
  | @right depth env left right op span l w w₁ hleft hopen =>
    have hlater := ((leads_operands hJ hm.world hm.task [left]).of_run hleft).1
    have he := hJ.env_mono hlater.below hm.task
    have hright := (leadsAt_all hJ depth).evaluate (e := right) trivial hlater.world he
    have hrun : ((Expr.logical left op right span).operands.mapM (evaluate setup depth env)).run w =
        (.ok [l], w₁) := hleft
    change J.Later _ ((evaluate setup (depth + 1) env (.logical left op right span)).run w).2
    rw [evaluate_eq_conclude, run_bind_of_ok hrun, conclude_logical, if_pos hopen,
      snd_run_bind_pure]
    exact hJ.later_refl hright.later.world
  | @apply depth env callee arguments span f values w w₁ hrun =>
    obtain ⟨hlater, hvalues⟩ :=
      (leads_operands hJ hm.world hm.task (callee :: arguments)).of_run hrun
    obtain ⟨hf, hvalues⟩ := List.forall_mem_cons.mp hvalues
    have hcall : J.Leads w₁ (callFunction setup depth f values (some span)) J.value :=
      (leadsAt_all hJ depth).callFunction trivial hlater.world hf hvalues
    have hrun' : ((Expr.call callee arguments span).operands.mapM
        (evaluate setup depth env)).run w = (.ok (f :: values), w₁) := hrun
    change J.Later _ ((evaluate setup (depth + 1) env (.call callee arguments span)).run w).2
    rw [evaluate_eq_conclude, run_bind_of_ok hrun']
    exact hJ.later_refl hcall.later.world
  | @body depth c values span before rest s w w₁ hcount hsplit hbefore =>
    obtain ⟨hpush, henter⟩ := hJ.enterCall hm.world hm.task.1 hm.task.2
    have hstatement := later_statement hJ hpush.world henter hsplit hbefore
    change J.Later _
      ((callFunction setup (depth + 1) (.function (.closure c)) values span).run w).2
    rw [callFunction, if_pos hcount, run_bind_of_ok (run_enterCall c values w)]
    refine hJ.later_bind hstatement (leads_statements hJ hpush.world henter _) ?_
    intro u flow _ hlater _
    cases flow <;> exact hJ.later_refl hlater.world
  | @branch depth env condition consequent alternative span c before rest s w w₁ w₂ hcondition
      htaken hbefore =>
    have hlater := ((leads_operands hJ hm.world hm.task [condition]).of_run hcondition).1
    have he := hJ.env_mono hlater.below hm.task
    have hrun : ((Stmt.branch condition consequent alternative span).operands.mapM
        (evaluate setup depth env)).run w = (.ok [c], w₁) := hcondition
    change J.Later _
      ((execute setup (depth + 1) env (.branch condition consequent alternative span)).run w).2
    rw [run_execute_of_operands hrun, proceed_branch rfl (by simp [htaken])]
    exact later_enclosed hJ hlater.world he htaken hbefore
  | @turn depth env body span n before rest s w w₁ w₂ hn hturns hsplit hbefore =>
    have hlater : J.Later w w₁ := hJ.later_turns hturns hm.world fun k u _ _ hu =>
      leads_enclosed hJ hu.world (hJ.env_mono hu.below hm.task) body
    have he := hJ.env_mono hlater.below hm.task
    have hstatement := later_enclosed hJ hlater.world he hsplit hbefore
    have hbody : J.Leads w₁ (enclosed setup depth env body) J.flow :=
      leads_enclosed hJ hlater.world he body
    refine hJ.later_trans hstatement (hJ.later_iterate hn hturns hbody fun bound u hu => ?_)
    have he' := hJ.env_mono hu.below he
    refine (hJ.leads_iterate hu.world fun k v _ _ hv => ?_).later
    exact leads_enclosed hJ hv.world (hJ.env_mono hv.below he') body

/-- When a task has ended that came to pass in the run of another one, later worlds come to pass
until that one ends. -/
theorem Holds.later_of_within (hm : J.Holds m) (h : Within setup m m') :
    J.Later (m'.after setup) (m.after setup) := by
  induction h with
  | refl => exact hJ.later_refl (hm.later_after hJ).world
  | tail hwithin hbegins ih =>
    have hholds := (hm.below_within hJ hwithin).2
    exact hJ.later_trans (hholds.later_of_begins hJ hbegins) ih

/-! ## What tasks give -/

theorem Holds.results (hm : J.Holds m) : ∀ v ∈ m.results setup, J.value (m.after setup) v := by
  obtain ⟨depth, task, w⟩ := m
  have hat := leadsAt_all hJ depth
  intro v hv
  cases task with
  | evaluate env e =>
    have hleads := hat.evaluate (e := e) trivial hm.world hm.task
    exact hleads.result v (run_eq_ok_of_mem_ended hv)
  | call f values span =>
    have hleads : J.Leads w (callFunction setup depth f values span) J.value :=
      hat.callFunction trivial hm.world hm.task.1 hm.task.2
    exact hleads.result v (run_eq_ok_of_mem_ended hv)
  | execute env s =>
    have hleads := hat.execute (s := s) trivial hm.world hm.task
    exact hleads.result (.give v) (run_eq_give_of_mem_given hv)

/-- The values of the operands that have been evaluated stay what they are until the next one
begins. -/
theorem Holds.awaits {values : List Value} (hm : J.Holds m) (h : Awaits setup m values m') :
    ∀ v ∈ values, J.value m'.world v := by
  cases h with
  | operand _ hbefore | part _ hbefore | right hbefore =>
    exact ((leads_operands hJ hm.world hm.task _).of_run hbefore).2

/-! ## Scripts -/

theorem leads_script {result : Value} (hw : J.world w) (he : J.env w env)
    (hresult : J.value w result) (statements : List Stmt) :
    J.Leads w (program setup env result statements) J.value :=
  leads_program hJ (fun _ _ _ _ => trivial) hw he hresult fun _ _ _ _ _ _ => trivial

/-- One statement of a script is followed by the others. -/
theorem later_script {result : Value} (hw : J.world w) (he : J.env w env)
    (hresult : J.value w result) (s : Stmt) (rest : List Stmt) :
    J.Later ((Stage.ofStmt setup env w s).after setup)
      ((program setup env result (s :: rest)).run w).2 := by
  have hat := leadsAt_all hJ setup.depth
  by_cases hexpression : ∃ e σ, s = .expression e σ
  · obtain ⟨e, σ, rfl⟩ := hexpression
    have hs := hat.evaluate (e := e) trivial hw he
    rw [program]
    refine hJ.later_bind (hJ.later_refl hs.later.world) hs fun u v _ hlater hv => ?_
    exact (leads_script hJ hlater.world (hJ.env_mono hlater.below he) hv rest).later
  · have hs : ∀ e σ, s ≠ .expression e σ := fun e σ h => hexpression ⟨e, σ, h⟩
    have hleads := hat.execute (s := s) trivial hw he
    rw [Stage.ofStmt_eq hs, program_cons result hs]
    refine hJ.later_bind (hJ.later_refl hleads.later.world) hleads fun u flow _ hlater _ => ?_
    cases flow with
    | normal =>
      exact (leads_script hJ hlater.world (hJ.env_mono hlater.below he)
        (hJ.value_mono hlater.below hresult) rest).later
    | leave => exact hJ.later_refl hlater.world
    | give v => exact hJ.later_refl hlater.world

/-- When a task has ended that came to pass in the run of a script, later worlds come to pass until
the script ends. -/
theorem later_of_comes {statements : List Stmt} (hw : J.world w) (he : J.env w env)
    (h : Comes setup env w statements m) :
    J.Later (m.after setup) ((program setup env .null statements).run w).2 := by
  obtain ⟨before, s, rest, w₁, rfl, hpasses, hwithin⟩ := h
  have hnull : J.value w .null := hJ.plain fun _ => trivial
  obtain ⟨v, hbefore, happend⟩ := run_program_of_passes hpasses .null
  obtain ⟨hlater, hv⟩ := (leads_script hJ hw he hnull before).of_run hbefore
  have he' := hJ.env_mono hlater.below he
  have hs : J.Holds (.ofStmt setup env w₁ s) := holds_ofStmt hlater.world he'
  rw [happend]
  exact hJ.later_trans (hs.later_of_within hJ hwithin) (later_script hJ hlater.world he' hv s rest)

end

end Invariant

end HostScript.Run
