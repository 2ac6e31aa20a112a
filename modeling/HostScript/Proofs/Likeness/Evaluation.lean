import HostScript.Proofs.Likeness.Natives

/-!
# Evaluation in lockstep

Expressions, calls and statements that are alike go in lockstep, in whatever environment of their
region. The induction is on the bound on nesting: `LockstepAt` says it for one bound, with one lemma
for each evaluator that goes from a bound to the next one.
-/

namespace HostScript.Run

variable {b : Likeness} {kinds more : List ScopeKind} {region : Region} {setup : Setup}
  {depth : Nat} {env : Env}

/-- Everything goes in lockstep at one bound on nesting. -/
structure LockstepAt (b : Likeness) (setup : Setup) (depth : Nat) : Prop where
  evaluate : ∀ {kinds region env e e'}, env.StandsIn kinds region → ExprLike b region e e' →
    Lockstep b kinds (evaluate setup depth env e) (evaluate setup depth env e') (Value.Like b)
  callFunction : ∀ {kinds f f' values values' span span'}, Value.Like b kinds f f' →
    List.Forall₂ (Value.Like b kinds) values values' → Option.Rel b.span span span' →
    Lockstep b kinds (callFunction setup depth f values span)
      (callFunction setup depth f' values' span') (Value.Like b)
  execute : ∀ {kinds region env s s'}, env.StandsIn kinds region → StmtLike b region s s' →
    Lockstep b kinds (execute setup depth env s) (execute setup depth env s') (Flow.Like b)

namespace LockstepAt

theorem zero : LockstepAt b setup 0 where
  evaluate _ _ := lockstep_halt rfl
  callFunction _ _ _ := lockstep_halt rfl
  execute _ _ := lockstep_halt rfl

theorem evaluateAll (ih : LockstepAt b setup depth) (he : env.StandsIn kinds region)
    {es es' : List Expr} (hes : ExprsLike b region es es') :
    Lockstep b kinds (es.mapM (Run.evaluate setup depth env))
      (es'.mapM (Run.evaluate setup depth env))
      fun more => List.Forall₂ (Value.Like b more) :=
  lockstep_mapM (fun hmore hv => hv.mono hmore) hes.forall₂ fun _ hmore _ _ h =>
    ih.evaluate (he.mono hmore) h

theorem evaluate_succ (ih : LockstepAt b setup depth) (he : env.StandsIn kinds region)
    {e e' : Expr} (hlike : ExprLike b region e e') :
    Lockstep b kinds (Run.evaluate setup (depth + 1) env e) (Run.evaluate setup (depth + 1) env e')
      (Value.Like b) := by
  cases hlike with
  | literal value hσ => exact lockstep_pure (Value.like_ofLiteral value)
  | «variable» hn hσ => exact lockstep_lookup he hn hσ
  | grouping hinner hσ => exact ih.evaluate he hinner
  | unary op hoperand hσ =>
    exact lockstep_return (ih.evaluate he hoperand) fun _ _ _ _ hv => hv.applyUnary op
  | binary hl op hr hσ =>
    refine lockstep_bind (ih.evaluate he hl) fun more hmore l l' hleft => ?_
    refine lockstep_return (ih.evaluate (he.mono hmore) hr) fun last hlast r r' hright => ?_
    exact (hleft.mono hlast).applyBinary op hright
  | logical hl op hr hσ =>
    refine lockstep_bind (ih.evaluate he hl) fun more hmore l l' hleft => ?_
    rw [hleft.truthy]
    split
    · exact lockstep_pure rfl
    · exact lockstep_pure rfl
    · exact lockstep_return (ih.evaluate (he.mono hmore) hr) fun _ _ _ _ hright =>
        congrArg Value.boolean hright.truthy
  | index ht hi hσ =>
    refine lockstep_bind (ih.evaluate he ht) fun more hmore t t' htarget => ?_
    refine lockstep_bind (ih.evaluate (he.mono hmore) hi) fun last hlast i i' hindex => ?_
    exact lockstep_return lockstep_heap fun end_ hend _ _ hheap =>
      hheap.index ((htarget.mono hlast).mono hend) (hindex.mono hend)
  | array hes hσ =>
    exact lockstep_bind (ih.evaluateAll he hes) fun _ _ _ _ hvalues =>
      lockstep_onHeap fun hheap => hheap.createArray hvalues
  | function ho hp hbody hσ => exact lockstep_newFunction he ho hp hbody none
  | call hcallee hes hσ =>
    refine lockstep_bind (ih.evaluate he hcallee) fun more hmore f f' hf => ?_
    refine lockstep_bind (ih.evaluateAll (he.mono hmore) hes) fun last hlast values values' hv => ?_
    exact ih.callFunction (hf.mono hlast) hv (.some hσ)

theorem callFunction_succ (ih : LockstepAt b setup depth) {f f' : Value}
    (hf : f.Like b kinds f') {values values' : List Value}
    (hv : List.Forall₂ (Value.Like b kinds) values values') {span span' : Option Span}
    (hspan : Option.Rel b.span span span') :
    Lockstep b kinds (Run.callFunction setup (depth + 1) f values span)
      (Run.callFunction setup (depth + 1) f' values' span') (Value.Like b) := by
  have hblame (cause : RuntimeFault) : (Halt.fault cause span).Like b (.fault cause span') :=
    ⟨span', rfl, hspan⟩
  cases f with
  | function g =>
    cases g with
    | native g =>
      obtain rfl : f' = .function (.native g) := hf
      exact lockstep_callNative setup _ g hv
    | closure c =>
      obtain ⟨d, rfl, hc⟩ := hf
      have hparameters : d.parameters.length = c.parameters.length := by
        obtain ⟨_, _, _, _, _, hmap, _⟩ := hc.code
        rw [hmap, List.length_map]
      simp only [Run.callFunction, hparameters, ← hv.length_eq, Value.Like.function_name hc]
      split
      · next hlength =>
        obtain ⟨inner, hbody, henter⟩ := lockstep_enterCall hc hv hlength
        refine lockstep_bind henter fun more hmore env env' h => ?_
        obtain ⟨rfl, henv⟩ := h
        refine lockstep_bind (lockstep_block hbody fun _ hlast _ _ hs =>
          ih.execute (henv.mono hlast) hs) fun last hlast flow flow' hflow => ?_
        rcases hflow.cases with ⟨rfl, rfl⟩ | ⟨rfl, rfl⟩ | ⟨v, v', rfl, rfl, hv⟩
        · exact lockstep_pure rfl
        · exact lockstep_pure rfl
        · exact lockstep_pure hv
      · exact lockstep_halt (hblame _)
  | _ =>
    obtain rfl : f' = _ := hf
    exact lockstep_halt (hblame _)

theorem execute_succ (ih : LockstepAt b setup depth) (he : env.StandsIn kinds region)
    {s s' : Stmt} (hlike : StmtLike b region s s') :
    Lockstep b kinds (Run.execute setup (depth + 1) env s) (Run.execute setup (depth + 1) env s')
      (Flow.Like b) := by
  have hinside {more : List ScopeKind} (hmore : kinds <+: more) {body body' : List Stmt}
      (hbody : BlockLike b region body body') :
      Lockstep b more (do block (Run.execute setup depth (← enter env)) body)
        (do block (Run.execute setup depth (← enter env)) body') (Flow.Like b) := by
    refine lockstep_bind (lockstep_enter (he.mono hmore)) fun last hlast inner inner' h => ?_
    obtain ⟨rfl, hinner⟩ := h
    exact lockstep_block hbody fun _ hend _ _ hs => ih.execute (hinner.mono hend) hs
  cases hlike with
  | expression h hσ =>
    exact lockstep_bind (lockstep_discard (ih.evaluate he h)) fun _ _ _ _ _ => lockstep_pure rfl
  | declare hn h hσ =>
    refine lockstep_bind (ih.evaluate he h) fun more hmore v v' hv => ?_
    exact lockstep_bind (lockstep_define (he.mono hmore) hn hv) fun _ _ _ _ _ => lockstep_pure rfl
  | @publish _ n hn _ _ h hσ =>
    refine lockstep_bind (ih.evaluate he h) fun more hmore v v' hv => ?_
    have hdefine := lockstep_define (he.mono hmore).rootEnv (n := n) Likeness.admits_outside hv
    exact lockstep_bind hdefine fun _ _ _ _ _ => lockstep_pure rfl
  | assign hn h hσ =>
    refine lockstep_bind (ih.evaluate he h) fun more hmore v v' hv => ?_
    exact lockstep_bind (lockstep_assign (he.mono hmore) hn hv hσ) fun _ _ _ _ _ =>
      lockstep_pure rfl
  | assignIndex ht hi h hσ =>
    refine lockstep_bind (ih.evaluate he ht) fun more hmore t t' htarget => ?_
    refine lockstep_bind (ih.evaluate (he.mono hmore) hi) fun last hlast i i' hindex => ?_
    refine lockstep_bind (ih.evaluate ((he.mono hmore).mono hlast) h) fun end_ hend v v' hv => ?_
    refine lockstep_bind (lockstep_discard (lockstep_onHeap fun hheap => ?_)) fun _ _ _ _ _ =>
      lockstep_pure rfl
    exact hheap.assignIndex ((htarget.mono hlast).mono hend) (hindex.mono hend) hv
  | @function _ inner n hn parameters _ _ ho hp hbody exported hσ =>
    refine lockstep_bind (lockstep_newFunction he ho hp hbody (some n)) fun more hmore f f' hf => ?_
    have hdefine : Lockstep b more (define (if exported then env.rootEnv else env) n f)
        (define (if exported then env.rootEnv else env) n f') fun _ _ _ => True := by
      split
      · exact lockstep_define (he.mono hmore).rootEnv Likeness.admits_outside hf
      · have hkept := lockstep_define (he.mono hmore) hn.admits hf
        rwa [Likeness.name_of_keeps hn] at hkept
    exact lockstep_bind hdefine fun _ _ _ _ _ => lockstep_pure rfl
  | branch hc hbody hσ =>
    refine lockstep_bind (ih.evaluate he hc) fun more hmore c c' hcondition => ?_
    rw [hcondition.truthy]
    cases c.truthy with
    | true => exact hinside hmore hbody
    | false => exact lockstep_pure rfl
  | branchElse hc hbody hother hσ =>
    refine lockstep_bind (ih.evaluate he hc) fun more hmore c c' hcondition => ?_
    rw [hcondition.truthy]
    cases c.truthy with
    | true => exact hinside hmore hbody
    | false => exact hinside hmore hother
  | loop hbody hσ => exact lockstep_iterate (fun _ hmore => hinside hmore hbody) setup.iterations
  | leave hσ => exact lockstep_pure rfl
  | giveNull hσ => exact lockstep_pure ⟨.null, rfl, rfl⟩
  | give h hσ => exact lockstep_return (ih.evaluate he h) fun _ _ v v' hv => ⟨v', rfl, hv⟩

end LockstepAt

theorem lockstepAt (b : Likeness) (setup : Setup) (depth : Nat) : LockstepAt b setup depth := by
  induction depth with
  | zero => exact .zero
  | succ depth ih =>
    exact
      { evaluate := fun he h => ih.evaluate_succ he h
        callFunction := fun hf hv hspan => ih.callFunction_succ hf hv hspan
        execute := fun he h => ih.execute_succ he h }

/-- Programs that are alike go in lockstep. -/
theorem lockstep_program (setup : Setup) (he : env.StandsIn kinds region) {u v : Value}
    (hv : u.Like b kinds v) {statements statements' : List Stmt}
    (hs : BlockLike b region statements statements') :
    Lockstep b kinds (program setup env u statements) (program setup env v statements')
      (Value.Like b) := by
  have hat := lockstepAt b setup setup.depth
  induction statements generalizing kinds u v statements' with
  | nil =>
    cases hs
    exact lockstep_pure hv
  | cons s rest ih =>
    cases hs with
    | @cons _ _ s' _ rest' hfirst hrest =>
      have hexecute := hat.execute he hfirst
      cases hfirst with
      | expression h hσ =>
        exact lockstep_bind (hat.evaluate he h) fun more hmore x y hxy =>
          ih (he.mono hmore) hxy hrest
      | _ =>
        refine lockstep_bind hexecute fun more hmore flow flow' hflow => ?_
        rcases hflow.cases with ⟨rfl, rfl⟩ | ⟨rfl, rfl⟩ | ⟨x, y, rfl, rfl, hxy⟩
        · exact ih (he.mono hmore) (hv.mono hmore) hrest
        · exact lockstep_pure (hv.mono hmore)
        · exact lockstep_pure hxy

end HostScript.Run
