import HostScript.Proofs.Depth.Documents
import HostScript.Proofs.Run.Steps

/-!
# Runs under larger bounds

A run that never reaches its bound on nesting does the same under a larger bound. The bound counts
as reached wherever something is given up for it, so it is looked at in a setup that is not lenient,
in which the document functions halt like everything else (`Setup.Under`). One rule for each way in
which runs are put together carries this over to all runs (`Run.extends_program`).
-/

namespace HostScript

/-- The first setup ends every run that reaches its bound, and the second one has a bound that is no
smaller. -/
structure Setup.Under (setup setup' : Setup) : Prop where
  strict : setup.lenient = false
  depth : setup.depth ≤ setup'.depth
  iterations : setup'.iterations = setup.iterations
  http : setup'.http = setup.http
  platform : setup'.platform = setup.platform

/-- What is left of the bounds is still no smaller. -/
theorem Setup.Under.withDepth {setup setup' : Setup} (h : setup.Under setup') {depth depth' : Nat}
    (hle : depth ≤ depth') : { setup with depth }.Under { setup' with depth := depth' } :=
  ⟨h.strict, hle, h.iterations, h.http, h.platform⟩

namespace Run

variable {α β γ : Type} {setup setup' : Setup}

/-- In every world the second run does what the first one does, unless that stops at the bound on
nesting. -/
def Extends (m m' : Run α) : Prop := ∀ w, (m.run w).1 ≠ .error .tooDeep → m'.run w = m.run w

/-! ## Sequences -/

theorem extends_refl (m : Run α) : Extends m m := fun _ _ => rfl

theorem extends_tooDeep (m : Run α) : Extends (halt .tooDeep) m := fun _ h => absurd rfl h

theorem extends_bind {m m' : Run α} {f f' : α → Run β} (hm : Extends m m')
    (hf : ∀ a, Extends (f a) (f' a)) : Extends (m >>= f) (m' >>= f') := by
  intro w hne
  rw [run_bind] at hne
  rw [run_bind, run_bind]
  rcases hr : m.run w with ⟨h | a, w'⟩
  · rw [hr] at hne
    have hh : h ≠ .tooDeep := fun heq => hne (by rw [heq])
    rw [hm w (by simpa [hr] using hh), hr]
  · rw [hr] at hne
    rw [hm w (by rw [hr]; exact nofun), hr]
    exact hf a w' hne

theorem extends_then {m : Run α} {f f' : α → Run β} (hf : ∀ a, Extends (f a) (f' a)) :
    Extends (m >>= f) (m >>= f') :=
  extends_bind (extends_refl m) hf

theorem extends_return {m m' : Run α} (hm : Extends m m') (g : α → β) :
    Extends (do return g (← m)) (do return g (← m')) :=
  extends_bind hm fun _ => extends_refl _

theorem extends_discard {m m' : Run α} (hm : Extends m m') :
    Extends (discard m) (discard m') := by
  rw [discard_eq_bind, discard_eq_bind]
  exact extends_bind hm fun _ => extends_refl _

theorem extends_mapM {f f' : α → Run β} (h : ∀ x, Extends (f x) (f' x)) (xs : List α) :
    Extends (xs.mapM f) (xs.mapM f') := by
  induction xs with
  | nil => exact extends_refl _
  | cons x xs ih =>
    rw [List.mapM_cons, List.mapM_cons]
    exact extends_bind (h x) fun _ => extends_bind ih fun _ => extends_refl _

theorem extends_block {step step' : Stmt → Run Flow} (h : ∀ s, Extends (step s) (step' s))
    (statements : List Stmt) : Extends (block step statements) (block step' statements) := by
  induction statements with
  | nil => exact extends_refl _
  | cons s rest ih =>
    rw [block, block]
    refine extends_bind (h s) fun flow => ?_
    cases flow with
    | normal => exact ih
    | leave => exact extends_refl _
    | give v => exact extends_refl _

theorem extends_iterate {body body' : Run Flow} (h : Extends body body') (bound : Nat) :
    Extends (iterate body bound) (iterate body' bound) := by
  induction bound with
  | zero => exact extends_refl _
  | succ bound ih =>
    rw [iterate, iterate]
    refine extends_bind h fun flow => ?_
    cases flow with
    | normal => exact ih
    | leave => exact extends_refl _
    | give v => exact extends_refl _

end Run

/-! ## The standard library -/

namespace StandardFunction

open Run

variable {setup setup' : Setup}

theorem extends_withArguments {name : Text} {kinds : List Kind} {values : List Value}
    {body body' : Arguments kinds → Run Value}
    (h : ∀ arguments, Extends (body arguments) (body' arguments)) :
    Extends (withArguments name kinds values body) (withArguments name kinds values body') := by
  unfold withArguments
  split
  · exact h _
  · exact extends_refl _

theorem extends_displayText (h : setup.Under setup') (v : Value) :
    Extends (displayText setup v) (displayText setup' v) := by
  refine extends_then fun heap => ?_
  rcases hd : v.display heap setup.depth with _ | t
  · exact extends_tooDeep _
  · rw [Value.display_of_le h.depth hd]
    exact extends_refl _

/-- Where nothing is lenient, giving up halts the run. -/
theorem extends_nestedTooDeeply (h : setup.Under setup') (message : Text) (m : Run Value) :
    Extends (nestedTooDeeply setup message) m := by
  have hhalt : nestedTooDeeply setup message = halt .tooDeep := by simp [nestedTooDeeply, h.strict]
  rw [hhalt]
  exact extends_tooDeep m

theorem extends_writeJson (h : setup.Under setup') (v : Value) :
    Extends (writeJson setup v) (writeJson setup' v) := by
  refine extends_then fun heap => ?_
  have hagrees := v.document_agrees h.depth heap
  rcases hd : v.document heap setup.depth with (_ | _) | document
  · rw [hagrees (by simp [hd]), hd]
    exact extends_refl _
  · exact extends_nestedTooDeeply h _ _
  · rw [hagrees (by simp [hd]), hd]
    exact extends_refl _

theorem extends_readJson (h : setup.Under setup') (t : Text) :
    Extends (readJson setup t) (readJson setup' t) := by
  have hagrees := Json.read_agrees .script h.depth t
  unfold readJson
  rcases hd : Json.read .script setup.depth t with (cause | _) | document
  · rw [hagrees (by simp [hd]), hd]
    exact extends_refl _
  · exact extends_nestedTooDeeply h _ _
  · rw [hagrees (by simp [hd]), hd]
    exact extends_refl _

theorem extends_call (h : setup.Under setup') (f : StandardFunction) (values : List Value) :
    Extends (f.call setup values) (f.call setup' values) := by
  cases f with
  | print =>
    exact extends_bind (extends_mapM (extends_displayText h) values) fun _ => extends_refl _
  | toString =>
    exact extends_withArguments fun (v, _) => extends_return (extends_displayText h v) _
  | toJson => exact extends_withArguments fun (v, _) => extends_writeJson h v
  | fromJson => exact extends_withArguments fun (t, _) => extends_readJson h t
  | _ => exact extends_refl _

end StandardFunction

/-! ## Hosts -/

namespace Host

open Run

variable {setup setup' : Setup}

/-- A host serves a request in the same way under a larger bound, unless it gives up. -/
theorem serve_of_le (host : Host) {depth depth' : Nat} (h : depth ≤ depth')
    (earlier : List HostCall) (request : Text) :
    (host.serve depth earlier request).answer = .tooDeep ∨
      host.serve depth' earlier request = host.serve depth earlier request := by
  rcases (Json.read_agrees .wire h request).eq_or with hstop | heq
  · left
    simp only [serve, hstop]
  · right
    simp only [serve, heq]

theorem readAnswer_agrees {depth depth' : Nat} (h : depth ≤ depth') (t : Text) :
    AgreesUnless .tooDeep (readAnswer depth t) (readAnswer depth' t) := by
  unfold readAnswer
  rcases hd : Json.read .wire depth t with cause | document
  · exact .of_stop _
  · rw [Json.read_agrees .wire h t (by simp [hd]), hd]
    exact .refl _ _

theorem extends_conclusion (h : setup.Under setup') (m : HostMethod) (link : Link)
    (answer : Answer) :
    Extends (conclusion setup m link answer) (conclusion setup' m link answer) := by
  cases answer with
  | text t =>
    simp only [conclusion]
    rcases (readAnswer_agrees h.depth t).eq_or with hstop | heq
    · rw [hstop]
      exact extends_tooDeep _
    · rw [heq]
      exact extends_refl _
  | _ => exact extends_refl _

theorem extends_exchange (h : setup.Under setup') (m : HostMethod) (link : Link)
    (parameters : List Json) :
    Extends (exchange setup m link parameters) (exchange setup' m link parameters) := by
  refine extends_then fun w => ?_
  rcases link.host.serve_of_le h.depth (World.hostCalls w.events.toList)
    (requestText m parameters) with hstop | heq
  · -- whatever serving has changed, the run halts after it
    simp only [hstop]
    split
    · intro w' hne
      exact absurd rfl hne
    · intro w' hne
      exact absurd rfl hne
  · simp only [heq]
    refine extends_then fun _ => ?_
    split
    · exact extends_conclusion h m _ _
    · exact extends_refl _

theorem extends_call (h : setup.Under setup') (m : HostMethod) (values : List Value) :
    Extends (call setup m values) (call setup' m values) := by
  unfold call
  split
  · exact extends_refl _
  · refine extends_then fun w => ?_
    split
    · split
      · exact extends_exchange h m _ _
      · exact extends_refl _
    · exact extends_refl _

end Host

/-! ## Evaluation -/

namespace Run

variable {setup setup' : Setup} {depth depth' : Nat}

theorem extends_callNative (h : setup.Under setup') (hle : depth ≤ depth') (f : Native)
    (values : List Value) :
    Extends (callNative setup depth f values) (callNative setup' depth' f values) := by
  cases f with
  | standard f => exact f.extends_call (h.withDepth hle) values
  | http f =>
    have hsame : Http.call setup' f values = Http.call setup f values := by
      cases f <;> simp only [Http.call, h.http, h.platform]
    change Extends (Http.call setup f values) (Http.call setup' f values)
    rw [hsame]
    exact extends_refl _
  | host m => exact Host.extends_call h m values

/-- Whatever runs under the second setup and depth extends what runs under the first. -/
structure ExtendsAt (setup setup' : Setup) (depth depth' : Nat) : Prop where
  evaluate : ∀ env e, Extends (evaluate setup depth env e) (evaluate setup' depth' env e)
  callFunction : ∀ f values span,
    Extends (callFunction setup depth f values span) (callFunction setup' depth' f values span)
  execute : ∀ env s, Extends (execute setup depth env s) (execute setup' depth' env s)

namespace ExtendsAt

theorem zero (setup setup' : Setup) (depth' : Nat) : ExtendsAt setup setup' 0 depth' where
  evaluate _ _ := extends_tooDeep _
  callFunction _ _ _ := extends_tooDeep _
  execute _ _ := extends_tooDeep _

theorem evaluate_succ (ih : ExtendsAt setup setup' depth depth') (env : Env) (e : Expr) :
    Extends (Run.evaluate setup (depth + 1) env e) (Run.evaluate setup' (depth' + 1) env e) := by
  cases e with
  | literal value span => exact extends_refl _
  | «variable» name span => exact extends_refl _
  | grouping inner span => exact ih.evaluate env inner
  | unary op operand span => exact extends_return (ih.evaluate env operand) _
  | binary left op right span =>
    exact extends_bind (ih.evaluate env left) fun _ => extends_return (ih.evaluate env right) _
  | logical left op right span =>
    refine extends_bind (ih.evaluate env left) fun l => ?_
    split
    · exact extends_refl _
    · exact extends_refl _
    · exact extends_return (ih.evaluate env right) _
  | index target index span =>
    exact extends_bind (ih.evaluate env target) fun _ =>
      extends_bind (ih.evaluate env index) fun _ => extends_refl _
  | array items span =>
    exact extends_bind (extends_mapM (ih.evaluate env) items) fun _ => extends_refl _
  | function parameters body span => exact extends_refl _
  | call callee arguments span =>
    exact extends_bind (ih.evaluate env callee) fun f =>
      extends_bind (extends_mapM (ih.evaluate env) arguments) fun values =>
        ih.callFunction f values (some span)

theorem callFunction_succ (h : setup.Under setup') (hle : depth ≤ depth')
    (ih : ExtendsAt setup setup' depth depth') (f : Value) (values : List Value)
    (span : Option Span) :
    Extends (Run.callFunction setup (depth + 1) f values span)
      (Run.callFunction setup' (depth' + 1) f values span) := by
  unfold Run.callFunction
  split
  · exact extends_callNative h hle _ values
  · split
    · refine extends_then fun env => extends_bind (extends_block (ih.execute env) _) fun flow => ?_
      exact extends_refl _
    · exact extends_refl _
  · exact extends_refl _

theorem execute_succ (h : setup.Under setup') (ih : ExtendsAt setup setup' depth depth')
    (env : Env) (s : Stmt) :
    Extends (Run.execute setup (depth + 1) env s) (Run.execute setup' (depth' + 1) env s) := by
  have hinside (statements : List Stmt) :
      Extends (do block (Run.execute setup depth (← enter env)) statements)
        (do block (Run.execute setup' depth' (← enter env)) statements) :=
    extends_then fun inner => extends_block (ih.execute inner) statements
  cases s with
  | expression e span =>
    exact extends_bind (extends_discard (ih.evaluate env e)) fun _ => extends_refl _
  | declare name e span => exact extends_bind (ih.evaluate env e) fun _ => extends_refl _
  | publish name e span => exact extends_bind (ih.evaluate env e) fun _ => extends_refl _
  | assign name e span => exact extends_bind (ih.evaluate env e) fun _ => extends_refl _
  | assignIndex target index e span =>
    exact extends_bind (ih.evaluate env target) fun _ =>
      extends_bind (ih.evaluate env index) fun _ =>
        extends_bind (ih.evaluate env e) fun _ => extends_refl _
  | function name parameters body exported span => exact extends_refl _
  | branch condition consequent alternative span =>
    refine extends_bind (ih.evaluate env condition) fun c => ?_
    split
    · exact hinside _
    · exact hinside _
    · exact extends_refl _
  | loop body span =>
    change Extends (iterate _ setup.iterations) (iterate _ setup'.iterations)
    rw [h.iterations]
    exact extends_iterate (hinside body) _
  | leave span => exact extends_refl _
  | give e span =>
    cases e with
    | none => exact extends_refl _
    | some e => exact extends_return (ih.evaluate env e) _

end ExtendsAt

theorem extendsAt (h : setup.Under setup') (hle : depth ≤ depth') :
    ExtendsAt setup setup' depth depth' := by
  induction depth generalizing depth' with
  | zero => exact .zero setup setup' depth'
  | succ depth ih =>
    obtain ⟨more, rfl⟩ : ∃ more, depth' = more + 1 := ⟨depth' - 1, by omega⟩
    have hle := Nat.le_of_succ_le_succ hle
    have hmore := ih hle
    exact
      { evaluate := hmore.evaluate_succ
        callFunction := hmore.callFunction_succ h hle
        execute := hmore.execute_succ h }

/-- The statements of a script do the same under a larger bound, unless they reach the smaller
one. -/
theorem extends_program (h : setup.Under setup') (env : Env) (result : Value)
    (statements : List Stmt) :
    Extends (program setup env result statements) (program setup' env result statements) := by
  have hdepth := extendsAt h h.depth
  induction statements generalizing result with
  | nil => exact extends_refl _
  | cons s rest ih =>
    unfold program
    split
    · contradiction
    · next e span _ heq =>
      obtain ⟨rfl, rfl⟩ := List.cons.inj heq
      exact extends_bind (hdepth.evaluate env e) fun v => ih v
    · next heq =>
      obtain ⟨rfl, rfl⟩ := List.cons.inj heq
      refine extends_bind (hdepth.execute env s) fun flow => ?_
      cases flow with
      | normal => exact ih result
      | leave => exact extends_refl _
      | give v => exact extends_refl _

end Run

end HostScript
