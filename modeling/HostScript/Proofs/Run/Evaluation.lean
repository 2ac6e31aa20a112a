import HostScript.Proofs.Run.Natives

/-!
# Scripts stay within bounds

An expression or a statement whose spans lie within bounds, run in an environment within bounds,
leaves a world that is confined within them. `StaysAt` says so for evaluating, calling and executing
at one nesting depth; each of the three is opened once, one depth further, and the induction on the
depth (`staysAt`) puts them together.
-/

namespace HostScript

variable {b : Bounds} {w₀ : World}

/-! ## Scopes -/

theorem Env.Within.here {env : Env} (he : env.Within b) : b.place (.scope env.here) :=
  he env.here List.mem_cons_self

theorem Env.Within.rootEnv {env : Env} (he : env.Within b) : env.rootEnv.Within b := by
  intro id hid
  obtain rfl : id = env.root := by simpa [Env.path, Env.rootEnv] using hid
  exact he _ env.root_mem_path

namespace Scopes.Confined

variable {s₀ s : Scopes Value}

theorem bind (hc : s₀.Confined b s) {id : ScopeId} (hid : b.place (.scope id)) {name : Text}
    {v : Value} (hv : v.Within b) : s₀.Confined b (s.bind id name v) where
  members other ho u hu := by
    rcases mem_members_bind hu with rfl | hu
    · exact hv
    · exact hc.members other ho u hu
  fresh other ho := hc.fresh other (by simpa [Scopes.bind] using ho)
  same other ho := by
    have hne : other ≠ id := by
      rintro rfl
      exact ho hid
    rw [bindings_bind, if_neg fun h => hne h.1]
    exact hc.same other ho

theorem child (hc : s₀.Confined b s) {env : Env} (he : env.Within b) :
    (s.child env).1.Within b ∧ s₀.Confined b (s.child env).2 := by
  have hnew : b.place (.scope s.frames.size) := hc.fresh _ (Nat.le_refl _)
  refine ⟨fun id hid => ?_, ⟨fun id hid v hv => ?_, fun id hid => ?_, fun id hid => ?_⟩⟩
  · rcases List.mem_cons.mp hid with rfl | hid
    · exact hnew
    · exact he id hid
  · exact hc.members id hid v (by simpa [Scopes.members] using hv)
  · have hsize : (s.child env).2.frames.size = s.frames.size + 1 := by simp [Scopes.child]
    exact hc.fresh id (by omega)
  · rw [bindings_child]
    exact hc.same id hid

end Scopes.Confined

namespace Run

theorem stays_onScopes {f : Scopes Value → Scopes Value}
    (hf : ∀ s, w₀.scopes.Confined b s → w₀.scopes.Confined b (f s)) :
    Stays b w₀ (onScopes f) fun _ => True :=
  ensures_modify fun _ hw => ⟨hf _ hw.scopes, hw.heap⟩

theorem stays_lookup {env : Env} (he : env.Within b) (name : Name) {span : Span}
    (hs : b.span span) : Stays b w₀ (lookup env name span) (Value.Within b) := by
  refine ensures_bind ensures_get fun w hw => ?_
  split
  · next v hv =>
    obtain ⟨id, hid, hmem⟩ := Scopes.mem_bindings_of_get? hv
    exact ensures_pure (hw.scopes.members id (he id hid) v (List.mem_map.mpr ⟨_, hmem, rfl⟩))
  · exact ensures_halt hs

theorem stays_define {env : Env} (he : env.Within b) (name : Name) {v : Value}
    (hv : v.Within b) : Stays b w₀ (define env name v) fun _ => True :=
  stays_onScopes fun _ hc => hc.bind he.here hv

theorem stays_assign {env : Env} (he : env.Within b) (name : Name) {v : Value} (hv : v.Within b)
    {span : Span} (hs : b.span span) : Stays b w₀ (assign env name v span) fun _ => True := by
  refine ensures_bind ensures_get fun w _ => ?_
  split
  · next id hid => exact stays_onScopes fun _ hc => hc.bind (he id (Scopes.owner?_mem hid)) hv
  · exact ensures_halt hs

theorem stays_enter {env : Env} (he : env.Within b) : Stays b w₀ (enter env) (Env.Within b) := by
  refine ensures_modifyGet fun w hw => ?_
  obtain ⟨hin, hc⟩ := hw.scopes.child he
  exact ⟨⟨hc, hw.heap⟩, hin⟩

theorem stays_newFunction {env : Env} (he : env.Within b) (name : Option Name)
    (parameters : List Name) {body : List Stmt}
    (hb : ∀ id, b.code ⟨id, name, parameters, body, env⟩) :
    Stays b w₀ (newFunction name parameters body env) (Value.Within b) :=
  ensures_modifyGet fun w hw => ⟨⟨hw.scopes, hw.heap⟩, he, hb w.closures⟩

theorem stays_enterCall {c : Closure} (hc : c.env.Within b) {values : List Value}
    (hv : ∀ v ∈ values, v.Within b) : Stays b w₀ (enterCall c values) (Env.Within b) := by
  refine ensures_bind (stays_enter hc) fun env he => ?_
  refine ensures_bind (ensures_forIn fun (name, v) hmem => ?_) fun _ _ => ensures_pure he
  have hin : v.Within b := hv v (List.of_mem_zip hmem).2
  exact ensures_bind (stays_define he name hin) fun _ _ => ensures_pure trivial

/-! ## Operators -/

theorem ofLiteral_within (value : Literal) : (Value.ofLiteral value).Within b := by
  cases value <;> trivial

theorem applyUnary_within (op : UnaryOp) (v : Value) : (Value.applyUnary op v).Within b := by
  unfold Value.applyUnary
  split <;> trivial

theorem onNumbers_within (op : BinaryOp) (x y : Float) : (Value.onNumbers op x y).Within b := by
  cases op <;> trivial

theorem onStrings_within (op : BinaryOp) (s t : Text) : (Value.onStrings op s t).Within b := by
  cases op <;> trivial

theorem applyBinary_within (op : BinaryOp) (l r : Value) :
    (Value.applyBinary op l r).Within b := by
  unfold Value.applyBinary
  split
  · trivial
  · trivial
  · split
    · exact onNumbers_within _ _ _
    · exact onStrings_within _ _ _
    · split <;> trivial

/-! ## Blocks -/

/-- A block in a new scope stays within bounds if its statements do, in every environment. -/
theorem stays_block {step : Env → Stmt → Run Flow} {env : Env} (he : env.Within b)
    {body : List Stmt} (hb : BlockSpansIn b.span body)
    (hs : ∀ env s, env.Within b → s.SpansIn b.span → Stays b w₀ (step env s) (Flow.Within b)) :
    Stays b w₀ (do block (step (← enter env)) body) (Flow.Within b) := by
  refine ensures_bind (stays_enter he) fun inner hin => ?_
  exact ensures_block trivial fun s hmem => hs inner s hin (blockSpansIn_iff.mp hb s hmem)

/-! ## One depth -/

/-- Everything that is run at a nesting depth stays within bounds. -/
structure StaysAt (b : Bounds) (w₀ : World) (setup : Setup) (depth : Nat) : Prop where
  evaluate : ∀ env e, env.Within b → e.SpansIn b.span →
    Stays b w₀ (evaluate setup depth env e) (Value.Within b)
  callFunction : ∀ f values span, f.Within b → (∀ v ∈ values, v.Within b) →
    (∀ place, span = some place → b.span place) →
    Stays b w₀ (callFunction setup depth f values span) (Value.Within b)
  execute : ∀ env s, env.Within b → s.SpansIn b.span →
    Stays b w₀ (execute setup depth env s) (Flow.Within b)

namespace StaysAt

variable {setup : Setup} {depth : Nat}

theorem zero : StaysAt b w₀ setup 0 where
  evaluate _ _ _ _ := ensures_halt trivial
  callFunction _ _ _ _ _ _ := ensures_halt trivial
  execute _ _ _ _ := ensures_halt trivial

theorem evaluate_succ (ha : b.AdmitCode) (ih : StaysAt b w₀ setup depth) {env : Env} {e : Expr}
    (he : env.Within b) (hs : e.SpansIn b.span) :
    Stays b w₀ (Run.evaluate setup (depth + 1) env e) (Value.Within b) := by
  cases e with
  | literal value span => exact ensures_pure (ofLiteral_within value)
  | «variable» name span => exact stays_lookup he name (hs span (by simp [Expr.spans]))
  | grouping inner span =>
    exact ih.evaluate env inner he fun place hp => hs place (by simp [Expr.spans, hp])
  | unary op operand span =>
    simp only [Expr.SpansIn, Expr.spans, List.forall_mem_cons] at hs
    refine ensures_bind (ih.evaluate env operand he hs.2) fun v _ => ?_
    exact ensures_pure (applyUnary_within op v)
  | binary left op right span =>
    simp only [Expr.SpansIn, Expr.spans, List.forall_mem_cons, List.forall_mem_append] at hs
    obtain ⟨-, hleft, hright⟩ := hs
    refine ensures_bind (ih.evaluate env left he hleft) fun l _ => ?_
    refine ensures_bind (ih.evaluate env right he hright) fun r _ => ?_
    exact ensures_pure (applyBinary_within op l r)
  | logical left op right span =>
    simp only [Expr.SpansIn, Expr.spans, List.forall_mem_cons, List.forall_mem_append] at hs
    obtain ⟨-, hleft, hright⟩ := hs
    refine ensures_bind (ih.evaluate env left he hleft) fun l _ => ?_
    split
    · exact ensures_pure trivial
    · exact ensures_pure trivial
    · exact ensures_bind (ih.evaluate env right he hright) fun r _ => ensures_pure trivial
  | index target index span =>
    simp only [Expr.SpansIn, Expr.spans, List.forall_mem_cons, List.forall_mem_append] at hs
    obtain ⟨-, htarget, hindex⟩ := hs
    refine ensures_bind (ih.evaluate env target he htarget) fun t ht => ?_
    refine ensures_bind (ih.evaluate env index he hindex) fun i _ => ?_
    exact ensures_bind stays_heap fun h hc => ensures_pure (hc.index ht)
  | array items span =>
    simp only [Expr.SpansIn, Expr.spans, List.forall_mem_cons, spansOfExprs_iff] at hs
    refine ensures_bind (ensures_mapM fun e hmem => ih.evaluate env e he (hs.2 e hmem)) fun vs hvs => ?_
    exact stays_onHeap fun h hc => hc.createArray hvs
  | function parameters body span =>
    simp only [Expr.SpansIn, Expr.spans, List.forall_mem_cons] at hs
    exact stays_newFunction he none parameters fun _ => (ha _).mpr hs.2
  | call callee arguments span =>
    simp only [Expr.SpansIn, Expr.spans, List.forall_mem_cons, List.forall_mem_append,
      spansOfExprs_iff] at hs
    obtain ⟨hspan, hcallee, harguments⟩ := hs
    refine ensures_bind (ih.evaluate env callee he hcallee) fun f hf => ?_
    refine ensures_bind (ensures_mapM fun e hmem => ih.evaluate env e he (harguments e hmem))
      fun vs hvs => ?_
    refine ih.callFunction f vs (some span) hf hvs fun place hp => ?_
    obtain rfl := Option.some.inj hp
    exact hspan

theorem callFunction_succ (ha : b.AdmitCode) (ih : StaysAt b w₀ setup depth) {f : Value}
    {values : List Value}
    {span : Option Span} (hf : f.Within b) (hv : ∀ v ∈ values, v.Within b)
    (hs : ∀ place, span = some place → b.span place) :
    Stays b w₀ (Run.callFunction setup (depth + 1) f values span) (Value.Within b) := by
  have hblame (cause : RuntimeFault) : (Halt.fault cause span).Within b := by
    cases span with
    | none => trivial
    | some place => exact hs place rfl
  unfold Run.callFunction
  split
  · exact stays_callNative setup _ _ hv
  · next c =>
    obtain ⟨henv, hbody⟩ := hf
    split
    · refine ensures_bind (stays_enterCall henv hv) fun env he => ?_
      refine ensures_bind (P := Flow.Within b) (ensures_block trivial fun s hmem => ?_)
        fun flow hflow => ?_
      · exact ih.execute env s he (blockSpansIn_iff.mp ((ha c).mp hbody) s hmem)
      · cases flow with
        | normal => exact ensures_pure trivial
        | leave => exact ensures_pure trivial
        | give v => exact ensures_pure hflow
    · exact ensures_halt (hblame _)
  · exact ensures_halt (hblame _)

theorem execute_succ (ha : b.AdmitCode) (ih : StaysAt b w₀ setup depth) {env : Env} {s : Stmt}
    (he : env.Within b)
    (hs : s.SpansIn b.span) :
    Stays b w₀ (Run.execute setup (depth + 1) env s) (Flow.Within b) := by
  cases s with
  | expression e span =>
    simp only [Stmt.SpansIn, Stmt.spans, List.forall_mem_cons] at hs
    exact ensures_bind (ensures_discard (ih.evaluate env e he hs.2)) fun _ _ => ensures_pure trivial
  | declare name e span =>
    simp only [Stmt.SpansIn, Stmt.spans, List.forall_mem_cons] at hs
    refine ensures_bind (ih.evaluate env e he hs.2) fun v hv => ?_
    exact ensures_bind (stays_define he name hv) fun _ _ => ensures_pure trivial
  | publish name e span =>
    simp only [Stmt.SpansIn, Stmt.spans, List.forall_mem_cons] at hs
    refine ensures_bind (ih.evaluate env e he hs.2) fun v hv => ?_
    exact ensures_bind (stays_define he.rootEnv name hv) fun _ _ => ensures_pure trivial
  | assign name e span =>
    simp only [Stmt.SpansIn, Stmt.spans, List.forall_mem_cons] at hs
    refine ensures_bind (ih.evaluate env e he hs.2) fun v hv => ?_
    exact ensures_bind (stays_assign he name hv hs.1) fun _ _ => ensures_pure trivial
  | assignIndex target index e span =>
    simp only [Stmt.SpansIn, Stmt.spans, List.forall_mem_cons, List.forall_mem_append] at hs
    obtain ⟨-, htarget, hindex, hvalue⟩ := hs
    refine ensures_bind (ih.evaluate env target he htarget) fun t ht => ?_
    refine ensures_bind (ih.evaluate env index he hindex) fun i _ => ?_
    refine ensures_bind (ih.evaluate env e he hvalue) fun v hv => ?_
    refine ensures_bind (ensures_discard (stays_onHeap (Q := fun _ => True) fun h hc => ?_))
      fun _ _ => ensures_pure trivial
    exact ⟨trivial, hc.assignIndex ht hv⟩
  | function name parameters body exported span =>
    simp only [Stmt.SpansIn, Stmt.spans, List.forall_mem_cons] at hs
    refine ensures_bind (stays_newFunction he (some name) parameters fun _ => (ha _).mpr hs.2) fun f hf => ?_
    have htarget : (if exported then env.rootEnv else env).Within b := by
      split
      · exact he.rootEnv
      · exact he
    exact ensures_bind (stays_define htarget name hf) fun _ _ => ensures_pure trivial
  | branch condition consequent alternative span =>
    cases alternative with
    | none =>
      simp only [Stmt.SpansIn, Stmt.spans, List.forall_mem_cons, List.forall_mem_append] at hs
      obtain ⟨-, hcondition, hconsequent⟩ := hs
      refine ensures_bind (ih.evaluate env condition he hcondition) fun c _ => ?_
      cases c.truthy with
      | true => exact stays_block he hconsequent ih.execute
      | false => exact ensures_pure trivial
    | some alternative =>
      simp only [Stmt.SpansIn, Stmt.spans, List.forall_mem_cons, List.forall_mem_append] at hs
      obtain ⟨-, hcondition, hconsequent, halternative⟩ := hs
      refine ensures_bind (ih.evaluate env condition he hcondition) fun c _ => ?_
      cases c.truthy with
      | true => exact stays_block he hconsequent ih.execute
      | false => exact stays_block he halternative ih.execute
  | loop body span =>
    simp only [Stmt.SpansIn, Stmt.spans, List.forall_mem_cons] at hs
    exact ensures_iterate trivial trivial (stays_block he hs.2 ih.execute) setup.iterations
  | leave span => exact ensures_pure trivial
  | give value span =>
    cases value with
    | none => exact ensures_pure trivial
    | some e =>
      simp only [Stmt.SpansIn, Stmt.spans, List.forall_mem_cons] at hs
      exact ensures_bind (ih.evaluate env e he hs.2) fun v hv => ensures_pure hv

end StaysAt

/-! ## All depths -/

theorem staysAt (ha : b.AdmitCode) (w₀ : World) (setup : Setup) (depth : Nat) :
    StaysAt b w₀ setup depth := by
  induction depth with
  | zero => exact .zero
  | succ depth ih =>
    exact
      { evaluate := fun _ _ he hs => ih.evaluate_succ ha he hs
        callFunction := fun _ _ _ hf hv hs => ih.callFunction_succ ha hf hv hs
        execute := fun _ _ he hs => ih.execute_succ ha he hs }

theorem stays_program (ha : b.AdmitCode) (setup : Setup) {env : Env} (he : env.Within b)
    {result : Value}
    (hr : result.Within b) {statements : List Stmt} (hs : BlockSpansIn b.span statements) :
    Stays b w₀ (program setup env result statements) (Value.Within b) := by
  have hat := staysAt ha w₀ setup setup.depth
  induction statements generalizing result with
  | nil => exact ensures_pure hr
  | cons s rest ih =>
    simp only [BlockSpansIn, spansOfBlock, List.forall_mem_append] at hs
    obtain ⟨hfirst, hrest⟩ := hs
    unfold program
    split
    · contradiction
    · next e span _ heq =>
      obtain ⟨rfl, rfl⟩ := List.cons.inj heq
      simp only [Stmt.spans, List.forall_mem_cons] at hfirst
      exact ensures_bind (hat.evaluate env e he hfirst.2) fun v hv => ih hv hrest
    · next heq =>
      obtain ⟨rfl, rfl⟩ := List.cons.inj heq
      refine ensures_bind (hat.execute env s he hfirst) fun flow hflow => ?_
      cases flow with
      | normal => exact ih hr hrest
      | leave => exact ensures_pure hr
      | give v => exact ensures_pure hflow

end Run

end HostScript
