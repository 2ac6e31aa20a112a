import HostScript.Proofs.Run.Evaluation
import HostScript.Proofs.Run.Tracing
import HostScript.Proofs.Syntax.Names

/-!
# What happens between scripts and the host

A traced run comes to the same result in the same world as the run, and its list of calls accounts
for all that happens between the scripts and the host: from one call to the next the link stays as
it is and no handler is called (`Account`). Both are one judgement (`Tells`) with one rule for each
way in which runs are put together. It also keeps track of the names of functions, which scripts
may give to the host.
-/

namespace HostScript

/-! ## Names of functions -/

/-- The names of a function and of all functions that it makes contain no surrogates. -/
def Closure.Named (c : Closure) : Prop :=
  (∀ name, c.name = some name → name.IsScalar) ∧ BlockNamed c.body

/-- The bounds of such functions, wherever they live. -/
def Bounds.ofNames : Bounds := ⟨fun _ => True, fun _ => True, Closure.Named⟩

theorem Env.within_ofNames (env : Env) : env.Within .ofNames := fun _ _ => trivial

theorem HostMethod.isScalar_scriptName (m : HostMethod) : m.scriptName.IsScalar := by
  unfold Text.IsScalar
  cases m <;> decide +kernel

theorem Native.isScalar_name (f : Native) : f.name.IsScalar := by
  have hstring (s : String) : (Text.ofString s).IsScalar := by
    intro c hc
    obtain ⟨char, -, rfl⟩ := List.mem_map.mp hc
    rfl
  cases f with
  | standard f => exact hstring _
  | http f => exact hstring _
  | host m => exact m.isScalar_scriptName

theorem Function.isScalar_of_name? {f : Function} (hf : (Value.function f).Within .ofNames)
    {name : Text} (h : f.name? = some name) : name.IsScalar := by
  cases f with
  | native f =>
    obtain rfl := Option.some.inj h
    exact f.isScalar_name
  | closure c =>
    unfold name? at h
    dsimp only at h
    split at h
    · contradiction
    · exact hf.2.1 name h

/-! ## Quiet runs -/

namespace Run

variable {α β : Type}

/-- A run that leaves the link to the host as it is and calls no handler. -/
def Quiet (m : Run α) : Prop :=
  ∀ link calls, Ensures (fun w => w.link = link ∧ World.hostCalls w.events.toList = calls)
    (fun _ => True) m fun _ => True

theorem quiet_pure (a : α) : Quiet (pure a) := fun _ _ => ensures_pure trivial

theorem quiet_halt (h : Halt) : Quiet (halt h : Run α) := fun _ _ => ensures_halt trivial

theorem quiet_get : Quiet get := fun _ _ _ hw => ⟨hw, trivial⟩

theorem quiet_bind {m : Run α} {f : α → Run β} (hm : Quiet m) (hf : ∀ a, Quiet (f a)) :
    Quiet (m >>= f) :=
  fun link calls => ensures_bind (hm link calls) fun a _ => hf a link calls

theorem quiet_discard {m : Run α} (hm : Quiet m) : Quiet (discard m) :=
  fun link calls => ensures_discard (hm link calls)

theorem quiet_mapM {f : α → Run β} (xs : List α) (h : ∀ x, Quiet (f x)) : Quiet (xs.mapM f) := by
  intro link calls w hw
  obtain ⟨hkept, -⟩ := ensures_mapM (fun x _ => h x link calls) w hw
  refine ⟨hkept, ?_⟩
  split <;> trivial

theorem quiet_heap : Quiet heap := quiet_bind quiet_get fun _ => quiet_pure _

theorem quiet_onHeap (f : Heap → α × Heap) : Quiet (onHeap f) :=
  fun _ _ => ensures_modifyGet fun _ hw => ⟨hw, trivial⟩

theorem quiet_onScopes (f : Scopes Value → Scopes Value) : Quiet (onScopes f) :=
  fun _ _ => ensures_modify fun _ hw => hw

theorem quiet_note {e : Event} (he : World.hostCalls [e] = []) : Quiet (note e) := by
  refine fun link calls => ensures_modify fun w hw => ⟨hw.1, ?_⟩
  rw [Array.toList_push, World.hostCalls, List.filterMap_append]
  change World.hostCalls w.events.toList ++ World.hostCalls [e] = calls
  rw [he, List.append_nil]
  exact hw.2

theorem quiet_lookup (env : Env) (name : Name) (span : Span) : Quiet (lookup env name span) := by
  refine quiet_bind quiet_get fun w => ?_
  split
  · exact quiet_pure _
  · exact quiet_halt _

theorem quiet_assign (env : Env) (name : Name) (v : Value) (span : Span) :
    Quiet (assign env name v span) := by
  refine quiet_bind quiet_get fun w => ?_
  split
  · exact quiet_onScopes _
  · exact quiet_halt _

theorem quiet_enter (env : Env) : Quiet (enter env) :=
  fun _ _ => ensures_modifyGet fun _ hw => ⟨hw, trivial⟩

theorem quiet_newFunction (name : Option Name) (parameters : List Name) (body : List Stmt)
    (env : Env) : Quiet (newFunction name parameters body env) :=
  fun _ _ => ensures_modifyGet fun _ hw => ⟨hw, trivial⟩

theorem quiet_enterCall (c : Closure) (values : List Value) : Quiet (enterCall c values) := by
  refine quiet_bind (quiet_enter c.env) fun env => ?_
  refine quiet_bind (fun link calls => ensures_forIn fun (name, v) _ => ?_) fun _ => quiet_pure _
  exact quiet_bind (quiet_onScopes (·.define env name v)) (fun _ => quiet_pure _) link calls

theorem quiet_withArguments {name : Text} {kinds : List Kind} {values : List Value}
    {body : Arguments kinds → Run Value} (hb : ∀ arguments, Quiet (body arguments)) :
    Quiet (withArguments name kinds values body) := by
  unfold withArguments
  split
  · exact hb _
  · exact quiet_pure _

end Run

namespace StandardFunction

open Run

theorem quiet_displayText (setup : Setup) (v : Value) :
    Quiet (displayText setup v) := by
  refine quiet_bind quiet_heap fun h => ?_
  split
  · exact quiet_pure _
  · exact quiet_halt _

theorem quiet_printLine (setup : Setup) (values : List Value) :
    Quiet (printLine setup values) := by
  refine quiet_bind (quiet_mapM values fun v => quiet_displayText setup v) fun texts => ?_
  dsimp only
  split
  · exact quiet_halt _
  · exact quiet_bind (quiet_note rfl) fun _ => quiet_pure _

theorem quiet_nestedTooDeeply (setup : Setup) (message : Text) :
    Quiet (nestedTooDeeply setup message) := by
  unfold nestedTooDeeply
  split
  · exact quiet_pure _
  · exact quiet_halt _

theorem quiet_writeJson (setup : Setup) (v : Value) : Quiet (writeJson setup v) := by
  refine quiet_bind quiet_heap fun h => ?_
  split
  · exact quiet_pure _
  · exact quiet_pure _
  · exact quiet_nestedTooDeeply setup _

theorem quiet_readJson (setup : Setup) (t : Text) : Quiet (readJson setup t) := by
  unfold readJson
  split
  · exact quiet_onHeap _
  · exact quiet_pure _
  · exact quiet_nestedTooDeeply setup _

/-- The standard library does not know the host. -/
theorem quiet_call (setup : Setup) (f : StandardFunction) (values : List Value) :
    Quiet (f.call setup values) := by
  cases f with
  | print => exact quiet_printLine setup values
  | toString =>
    refine quiet_withArguments fun (v, _) => ?_
    exact quiet_bind (quiet_displayText setup v) fun _ => quiet_pure _
  | toJson => exact quiet_withArguments fun (v, _) => quiet_writeJson setup v
  | fromJson => exact quiet_withArguments fun (t, _) => quiet_readJson setup t
  | createArray => exact quiet_onHeap _
  | arrayLen | arrayGet | tableGet =>
    exact quiet_withArguments fun _ => quiet_bind quiet_heap fun _ => quiet_pure _
  | stringLen | stringContains | stringToLower | stringWidth | stringTruncateToWidth
  | renderViewport | floor =>
    exact quiet_withArguments fun _ => quiet_pure _
  | arraySet | arrayPushBack | arrayPopBack | arrayInsert | arrayRemove | createTable | tableSet
  | tableKeys | tableMerge | stringSplitLines =>
    exact quiet_withArguments fun _ => quiet_onHeap _

end StandardFunction

namespace Http

open Run

theorem quiet_send (request : HttpRequest) : Quiet (send request) := by
  refine quiet_bind (quiet_note rfl) fun _ link calls => ensures_modifyGet fun w hw => ?_
  split
  · exact ⟨hw, trivial⟩
  · exact ⟨hw, trivial⟩

theorem quiet_conclude (result : Except InternalFault Value) :
    Quiet (exchange.conclude result) := by
  cases result with
  | error cause => exact quiet_halt _
  | ok v => exact quiet_pure _

theorem quiet_exchange (platform : Platform) (backoff : Float) (request : HttpRequest)
    (retries attempt : Nat) : Quiet (exchange platform backoff request retries attempt) := by
  have hgive (kind : HttpFailure) (message : Text) :
      Quiet (exchange.giveUp request kind message) := by
    unfold exchange.giveUp
    split
    · exact quiet_halt _
    · exact quiet_pure _
    · exact quiet_bind (quiet_note rfl) fun _ => quiet_pure _
  induction retries generalizing attempt with
  | zero =>
    unfold exchange
    refine quiet_bind (quiet_send request) fun reply => ?_
    split
    · exact quiet_conclude _
    · exact hgive _ _
  | succ retries ih =>
    unfold exchange
    refine quiet_bind (quiet_send request) fun reply => ?_
    split
    · exact quiet_conclude _
    · dsimp only
      split
      · split
        · exact quiet_halt _
        · exact quiet_bind (quiet_note rfl) fun _ => ih (attempt + 1)
      · exact hgive _ _

theorem quiet_dispatch (platform : Platform) (settings : HttpSettings) (method url : Text)
    (headers : Dict Text) (body : Option Bytes) :
    Quiet (dispatch platform settings method url headers body) := by
  refine quiet_bind (quiet_note rfl) fun _ => ?_
  split
  · exact quiet_halt _
  · refine quiet_bind (quiet_note rfl) fun _ => ?_
    split
    · exact quiet_halt _
    · exact quiet_exchange _ _ _ _ _

theorem quiet_request (platform : Platform) (settings : HttpSettings) (method url : Text)
    (data : Option Text) (headers : Dict Text) :
    Quiet (request platform settings method url data headers) := by
  rcases request_cases platform settings method url data headers with
    ⟨fault, h⟩ | ⟨headers', body, h⟩
  · rw [h]
    exact quiet_halt _
  · rw [h]
    exact quiet_dispatch _ _ _ _ _ _

/-- Nor do the functions that make requests. -/
theorem quiet_call (setup : Setup) (f : HttpFunction) (values : List Value) :
    Quiet (call setup f values) := by
  cases f with
  | get | post | postWithToken => exact quiet_withArguments fun _ => quiet_request _ _ _ _ _ _

end Http

/-! ## Accounts -/

/-- The calls of functions of the host on the way from one world to another. Between them the link
stays as it is and no handler is called, and they are given values that stay within bounds. -/
inductive Account (setup : Setup) : World → List ScriptCall → World → Prop
  | quiet {w w' : World} (hlink : w'.link = w.link)
    (hcalls : World.hostCalls w'.events.toList = World.hostCalls w.events.toList) :
    Account setup w [] w'
  | call {w w' : World} {m : HostMethod} {values : List Value} {result : Except Halt Value}
    (hvalues : ∀ v ∈ values, v.Within .ofNames)
    (hcall : (Host.call setup m values).run w = (result, w')) :
    Account setup w [⟨m, values, w.isLinked, result⟩] w'
  | append {w w' w'' : World} {calls calls' : List ScriptCall} (h : Account setup w calls w')
    (h' : Account setup w' calls' w'') : Account setup w (calls ++ calls') w''

/-- What is known of a run and a traced run that have ended: both came to the same result in the
same world, the calls listed on the way account for it, a call that halted was the end of the run,
and all values stay within bounds. -/
structure Told {α : Type} (setup : Setup) (w₀ : World) (Q : α → Prop) (m : Run α) (t : Traced α)
    (w : World) (calls : List ScriptCall) (result : Except Halt α) (w' : World)
    (added : List ScriptCall) : Prop where
  run : m.run w = (result, w')
  traced : t.run (w, calls) = (result, w', calls ++ added)
  confined : w₀.Confined .ofNames w'
  settles : Run.Settles Q (fun _ => True) result
  account : Account setup w added w'
  halts : ∀ call ∈ added, ∀ halt, call.outcome = .error halt → result = .error halt

/-- A traced run does what a run does, and its calls account for it. -/
def Tells {α : Type} (setup : Setup) (w₀ : World) (m : Run α) (t : Traced α) (Q : α → Prop) :
    Prop :=
  ∀ w calls, w₀.Confined .ofNames w →
    ∃ result w' added, Told setup w₀ Q m t w calls result w' added

namespace Traced

variable {α β : Type} {setup : Setup} {w₀ : World}

/-! ## Steps and sequences -/

theorem tells_pure {a : α} {Q : α → Prop} (h : Q a) :
    Tells setup w₀ (pure a) (pure a) Q := by
  intro w calls hw
  refine ⟨.ok a, w, [], rfl, ?_, hw, h, .quiet rfl rfl, fun _ h => absurd h List.not_mem_nil⟩
  rw [List.append_nil]
  rfl

theorem settles_of_stays {m : Run α} {Q : α → Prop} {w : World}
    (hm : Run.Stays .ofNames w₀ m Q) (hw : w₀.Confined .ofNames w) :
    Run.Settles Q (fun _ => True) (m.run w).1 := by
  obtain ⟨-, hresult⟩ := hm w hw
  cases hr : (m.run w).1 with
  | ok a =>
    rw [hr] at hresult
    exact hresult
  | error halt => trivial

theorem tells_lift {m : Run α} {Q : α → Prop} (hm : Run.Stays .ofNames w₀ m Q)
    (hquiet : m.Quiet) : Tells setup w₀ m (lift m) Q := by
  intro w calls hw
  obtain ⟨⟨hlink, hcalls⟩, -⟩ := hquiet w.link (World.hostCalls w.events.toList) w ⟨rfl, rfl⟩
  refine ⟨(m.run w).1, (m.run w).2, [], rfl, ?_, (hm w hw).1, settles_of_stays hm hw,
    .quiet hlink hcalls, fun _ h => absurd h List.not_mem_nil⟩
  rw [List.append_nil]
  rfl

theorem tells_halt (h : Halt) {Q : α → Prop} :
    Tells setup w₀ (Run.halt h) (lift (Run.halt h)) Q := by
  refine tells_lift (Run.ensures_halt ?_) (Run.quiet_halt h)
  unfold Halt.Within
  split <;> trivial

theorem tells_bind {m : Run α} {t : Traced α} {f : α → Run β} {g : α → Traced β} {P : α → Prop}
    {Q : β → Prop} (hm : Tells setup w₀ m t P)
    (hf : ∀ a, P a → Tells setup w₀ (f a) (g a) Q) : Tells setup w₀ (m >>= f) (t >>= g) Q := by
  intro w calls hw
  obtain ⟨result, w', added, h⟩ := hm w calls hw
  cases result with
  | error halt =>
    refine ⟨.error halt, w', added, ?_, ?_, h.confined, trivial, h.account, ?_⟩
    · rw [Run.run_bind, h.run]
    · rw [run_bind, h.traced]
    · intro call hcall other ho
      obtain rfl := Except.error.inj (h.halts call hcall other ho)
      rfl
  | ok a =>
    obtain ⟨result, w'', added', h'⟩ := hf a h.settles w' (calls ++ added) h.confined
    refine ⟨result, w'', added ++ added', ?_, ?_, h'.confined, h'.settles,
      h.account.append h'.account, ?_⟩
    · rw [Run.run_bind, h.run]
      exact h'.run
    · rw [run_bind, h.traced, ← List.append_assoc]
      exact h'.traced
    · intro call hcall halt hhalt
      rcases List.mem_append.mp hcall with hcall | hcall
      · exact nomatch h.halts call hcall halt hhalt
      · exact h'.halts call hcall halt hhalt

theorem tells_mapM {γ : Type} {f : γ → Run β} {g : γ → Traced β} {Q : β → Prop} {xs : List γ}
    (h : ∀ x ∈ xs, Tells setup w₀ (f x) (g x) Q) :
    Tells setup w₀ (xs.mapM f) (xs.mapM g) fun ys => ∀ y ∈ ys, Q y := by
  induction xs with
  | nil => exact tells_pure (by simp)
  | cons x xs ih =>
    rw [List.mapM_cons, List.mapM_cons]
    refine tells_bind (h x List.mem_cons_self) fun y hy => ?_
    refine tells_bind (ih fun z hz => h z (List.mem_cons_of_mem x hz)) fun ys hys => ?_
    exact tells_pure (List.forall_mem_cons.mpr ⟨hy, hys⟩)

theorem tells_block {step : Stmt → Run Flow} {step' : Stmt → Traced Flow} {Q : Flow → Prop}
    {statements : List Stmt} (hn : Q .normal)
    (h : ∀ s ∈ statements, Tells setup w₀ (step s) (step' s) Q) :
    Tells setup w₀ (Run.block step statements) (block step' statements) Q := by
  induction statements with
  | nil => exact tells_pure hn
  | cons s rest ih =>
    rw [Run.block, block]
    refine tells_bind (h s List.mem_cons_self) fun flow hflow => ?_
    cases flow with
    | normal => exact ih fun t ht => h t (List.mem_cons_of_mem s ht)
    | leave => exact tells_pure hflow
    | give v => exact tells_pure hflow

theorem tells_iterate {body : Run Flow} {body' : Traced Flow} {Q : Flow → Prop} (hn : Q .normal)
    (h : Tells setup w₀ body body' Q) (bound : Nat) :
    Tells setup w₀ (Run.iterate body bound) (iterate body' bound) Q := by
  induction bound with
  | zero => exact tells_halt .endless
  | succ bound ih =>
    rw [Run.iterate, iterate]
    refine tells_bind h fun flow hflow => ?_
    cases flow with
    | normal => exact ih
    | leave => exact tells_pure hn
    | give v => exact tells_pure hflow

/-! ## Native functions -/

theorem tells_callNative (setup : Setup) (depth : Nat) (f : Native) {values : List Value}
    (hv : ∀ v ∈ values, v.Within .ofNames) :
    Tells setup w₀ (Run.callNative setup depth f values) (callNative setup depth f values)
      (Value.Within .ofNames) := by
  have hstays : Run.Stays .ofNames w₀ (Run.callNative setup depth f values)
      (Value.Within .ofNames) := Run.stays_callNative setup depth f hv
  cases f with
  | standard f => exact tells_lift hstays (f.quiet_call { setup with depth } values)
  | http f => exact tells_lift hstays (Http.quiet_call setup f values)
  | host m =>
    intro w calls hw
    refine ⟨_, _, _, rfl, rfl, (hstays w hw).1, settles_of_stays hstays hw, .call hv rfl, ?_⟩
    intro call hcall halt hhalt
    obtain rfl := List.mem_singleton.mp hcall
    exact hhalt

/-! ## One depth -/

/-- Everything that is run at a nesting depth is accounted for. -/
structure TellsAt (w₀ : World) (setup : Setup) (depth : Nat) : Prop where
  evaluate : ∀ env e, e.Named →
    Tells setup w₀ (Run.evaluate setup depth env e) (evaluate setup depth env e)
      (Value.Within .ofNames)
  callFunction : ∀ f values span, f.Within .ofNames → (∀ v ∈ values, v.Within .ofNames) →
    Tells setup w₀ (Run.callFunction setup depth f values span)
      (callFunction setup depth f values span) (Value.Within .ofNames)
  execute : ∀ env s, s.Named →
    Tells setup w₀ (Run.execute setup depth env s) (execute setup depth env s)
      (Flow.Within .ofNames)

/-- A block in a new scope is accounted for if its statements are, in every environment. -/
theorem tells_scope {step : Env → Stmt → Run Flow} {step' : Env → Stmt → Traced Flow} (env : Env)
    {body : List Stmt} (hb : ∀ l ∈ spellBlock body, l.Named)
    (hs : ∀ env s, s.Named → Tells setup w₀ (step env s) (step' env s) (Flow.Within .ofNames)) :
    Tells setup w₀ (do Run.block (step (← Run.enter env)) body)
      (do block (step' (← lift (Run.enter env))) body) (Flow.Within .ofNames) := by
  have henter : Tells setup w₀ (Run.enter env) (lift (Run.enter env)) (Env.Within .ofNames) :=
    tells_lift (Run.stays_enter env.within_ofNames) (Run.quiet_enter env)
  refine tells_bind henter fun inner _ => ?_
  exact tells_block trivial fun s hmem => hs inner s (blockNamed_iff.mpr hb s hmem)

namespace TellsAt

variable {depth : Nat}

theorem zero : TellsAt w₀ setup 0 where
  evaluate _ _ _ := tells_halt .tooDeep
  callFunction _ _ _ _ _ := tells_halt .tooDeep
  execute _ _ _ := tells_halt .tooDeep

theorem evaluate_succ (ih : TellsAt w₀ setup depth) {env : Env} {e : Expr} (hn : e.Named) :
    Tells setup w₀ (Run.evaluate setup (depth + 1) env e)
      (Traced.evaluate setup (depth + 1) env e) (Value.Within .ofNames) := by
  cases e with
  | literal value span => exact tells_pure (Run.ofLiteral_within value)
  | «variable» name span =>
    exact tells_lift (Run.stays_lookup env.within_ofNames name trivial) (Run.quiet_lookup env name span)
  | grouping inner span =>
    simp only [Expr.Named, Expr.spell, List.forall_mem_cons, List.forall_mem_append] at hn
    exact ih.evaluate env inner hn.2.1
  | unary op operand span =>
    simp only [Expr.Named, Expr.spell, List.forall_mem_cons] at hn
    refine tells_bind (ih.evaluate env operand hn.2) fun v _ => ?_
    exact tells_pure (Run.applyUnary_within op v)
  | binary left op right span =>
    simp only [Expr.Named, Expr.spell, List.forall_mem_cons, List.forall_mem_append] at hn
    obtain ⟨hleft, -, hright⟩ := hn
    refine tells_bind (ih.evaluate env left hleft) fun l _ => ?_
    refine tells_bind (ih.evaluate env right hright) fun r _ => ?_
    exact tells_pure (Run.applyBinary_within op l r)
  | logical left op right span =>
    simp only [Expr.Named, Expr.spell, List.forall_mem_cons, List.forall_mem_append] at hn
    obtain ⟨hleft, -, hright⟩ := hn
    refine tells_bind (ih.evaluate env left hleft) fun l _ => ?_
    have hrest : Tells setup w₀
        (do return .boolean (← Run.evaluate setup depth env right).truthy)
        (do return .boolean (← Traced.evaluate setup depth env right).truthy)
        (Value.Within .ofNames) :=
      tells_bind (ih.evaluate env right hright) fun r _ => tells_pure trivial
    cases op <;> cases l.truthy
    · exact tells_pure trivial
    · exact hrest
    · exact hrest
    · exact tells_pure trivial
  | index target index span =>
    simp only [Expr.Named, Expr.spell, List.forall_mem_cons, List.forall_mem_append] at hn
    obtain ⟨htarget, -, hindex, -⟩ := hn
    refine tells_bind (ih.evaluate env target htarget) fun t ht => ?_
    refine tells_bind (ih.evaluate env index hindex) fun i _ => ?_
    exact tells_bind (tells_lift Run.stays_heap Run.quiet_heap) fun h hc => tells_pure (hc.index ht)
  | array items span =>
    simp only [Expr.Named, Expr.spell, List.forall_mem_cons, List.forall_mem_append,
      spellExprs_named_iff] at hn
    refine tells_bind (tells_mapM fun e hmem => ih.evaluate env e (hn.2.1 e hmem)) fun vs hvs => ?_
    exact tells_lift (Run.stays_onHeap fun h hc => hc.createArray hvs) (Run.quiet_onHeap _)
  | function parameters body span =>
    simp only [Expr.Named, Expr.spell, List.forall_mem_cons, List.forall_mem_append] at hn
    have hbody : BlockNamed body := blockNamed_iff.mpr hn.2.2.2.1
    refine tells_lift (Run.stays_newFunction env.within_ofNames none parameters fun id => ?_)
      (Run.quiet_newFunction none parameters body env)
    exact ⟨by simp, hbody⟩
  | call callee arguments span =>
    simp only [Expr.Named, Expr.spell, List.forall_mem_cons, List.forall_mem_append,
      spellExprs_named_iff] at hn
    obtain ⟨hcallee, -, harguments, -⟩ := hn
    refine tells_bind (ih.evaluate env callee hcallee) fun f hf => ?_
    refine tells_bind (tells_mapM fun e hmem => ih.evaluate env e (harguments e hmem))
      fun vs hvs => ?_
    exact ih.callFunction f vs (some span) hf hvs

theorem callFunction_succ (ih : TellsAt w₀ setup depth) {f : Value} {values : List Value}
    {span : Option Span} (hf : f.Within .ofNames) (hv : ∀ v ∈ values, v.Within .ofNames) :
    Tells setup w₀ (Run.callFunction setup (depth + 1) f values span)
      (Traced.callFunction setup (depth + 1) f values span) (Value.Within .ofNames) := by
  unfold Run.callFunction Traced.callFunction
  cases f with
  | function f =>
    cases f with
    | native f => exact tells_callNative setup depth f hv
    | closure c =>
      obtain ⟨-, -, hbody⟩ := hf
      dsimp only
      split
      · have henter : Tells setup w₀ (Run.enterCall c values) (lift (Run.enterCall c values))
            (Env.Within .ofNames) :=
          tells_lift (Run.stays_enterCall c.env.within_ofNames hv) (Run.quiet_enterCall c values)
        refine tells_bind henter fun env _ => ?_
        refine tells_bind (tells_block (Q := Flow.Within .ofNames) trivial fun s hmem => ?_)
          fun flow hflow => ?_
        · exact ih.execute env s (hbody s hmem)
        · cases flow with
          | normal => exact tells_pure trivial
          | leave => exact tells_pure trivial
          | give v => exact tells_pure hflow
      · exact tells_halt _
  | _ => exact tells_halt _

theorem execute_succ (ih : TellsAt w₀ setup depth) {env : Env} {s : Stmt} (hn : s.Named) :
    Tells setup w₀ (Run.execute setup (depth + 1) env s)
      (Traced.execute setup (depth + 1) env s) (Flow.Within .ofNames) := by
  have hdefine (env : Env) (name : Name) {v : Value} (hv : v.Within .ofNames) :
      Tells setup w₀ (do Run.define env name v; return .normal)
        (do lift (Run.define env name v); return .normal) (Flow.Within .ofNames) :=
    tells_bind (tells_lift (Run.stays_define env.within_ofNames name hv) (Run.quiet_onScopes _))
      fun _ _ => tells_pure trivial
  cases s with
  | expression e span =>
    have hrun : Run.execute setup (depth + 1) env (.expression e span) =
        Run.evaluate setup depth env e >>= fun _ => pure .normal := by
      rw [Run.execute, Run.discard_eq_bind, bind_assoc]
      rfl
    rw [hrun]
    exact tells_bind (ih.evaluate env e hn) fun _ _ => tells_pure trivial
  | declare name e span =>
    simp only [Stmt.Named, Stmt.spell, List.forall_mem_cons] at hn
    exact tells_bind (ih.evaluate env e hn.2.2.2) fun v hv => hdefine env name hv
  | publish name e span =>
    simp only [Stmt.Named, Stmt.spell, List.forall_mem_cons] at hn
    exact tells_bind (ih.evaluate env e hn.2.2.2) fun v hv => hdefine env.rootEnv name hv
  | assign name e span =>
    simp only [Stmt.Named, Stmt.spell, List.forall_mem_cons] at hn
    refine tells_bind (ih.evaluate env e hn.2.2) fun v hv => ?_
    exact tells_bind (tells_lift (Run.stays_assign env.within_ofNames name hv trivial)
      (Run.quiet_assign env name v span)) fun _ _ => tells_pure trivial
  | assignIndex target index e span =>
    simp only [Stmt.Named, Stmt.spell, List.forall_mem_cons, List.forall_mem_append] at hn
    obtain ⟨htarget, -, hindex, -, -, hvalue⟩ := hn
    refine tells_bind (ih.evaluate env target htarget) fun t ht => ?_
    refine tells_bind (ih.evaluate env index hindex) fun i _ => ?_
    refine tells_bind (ih.evaluate env e hvalue) fun v hv => ?_
    have hset : Run.Stays .ofNames w₀ (discard (Run.onHeap (·.assignIndex t i v))) fun _ => True :=
      Run.ensures_discard (Run.stays_onHeap (Q := fun _ => True) fun h hc =>
        ⟨trivial, hc.assignIndex ht hv⟩)
    exact tells_bind (tells_lift hset (Run.quiet_discard (Run.quiet_onHeap _)))
      fun _ _ => tells_pure trivial
  | function name parameters body exported span =>
    simp only [Stmt.Named, Stmt.spell, List.forall_mem_cons, List.forall_mem_append] at hn
    obtain ⟨-, hname, -, -, hbody, -⟩ := hn
    have hnew : Run.Stays .ofNames w₀ (Run.newFunction (some name) parameters body env)
        (Value.Within .ofNames) :=
      Run.stays_newFunction env.within_ofNames (some name) parameters fun id =>
        ⟨fun other ho => Option.some.inj ho ▸ hname, blockNamed_iff.mpr hbody⟩
    refine tells_bind (tells_lift hnew (Run.quiet_newFunction (some name) parameters body env))
      fun f hf => ?_
    exact hdefine (if exported then env.rootEnv else env) name hf
  | branch condition consequent alternative span =>
    simp only [Stmt.Named, Stmt.spell_branch, List.forall_mem_cons, List.forall_mem_append,
      spellBraces] at hn
    obtain ⟨-, hcondition, ⟨-, hconsequent, -⟩, halternative⟩ := hn
    refine tells_bind (ih.evaluate env condition hcondition) fun c _ => ?_
    cases c.truthy with
    | true => exact tells_scope env hconsequent ih.execute
    | false =>
      cases alternative with
      | none => exact tells_pure trivial
      | some statements =>
        simp only [spellAlternative, spellBraces, List.forall_mem_cons,
          List.forall_mem_append] at halternative
        exact tells_scope env halternative.2.2.1 ih.execute
  | loop body span =>
    simp only [Stmt.Named, Stmt.spell, List.forall_mem_cons, List.forall_mem_append] at hn
    exact tells_iterate trivial (tells_scope env hn.2.2.1 ih.execute) setup.iterations
  | leave span => exact tells_pure trivial
  | give value span =>
    cases value with
    | none => exact tells_pure trivial
    | some e =>
      simp only [Stmt.Named, Stmt.spell, List.forall_mem_cons] at hn
      exact tells_bind (ih.evaluate env e hn.2) fun v hv => tells_pure hv

end TellsAt

/-! ## All depths -/

theorem tellsAt (w₀ : World) (setup : Setup) (depth : Nat) : TellsAt w₀ setup depth := by
  induction depth with
  | zero => exact .zero
  | succ depth ih =>
    exact
      { evaluate := fun _ _ hn => ih.evaluate_succ hn
        callFunction := fun _ _ _ hf hv => ih.callFunction_succ hf hv
        execute := fun _ _ hn => ih.execute_succ hn }

theorem tells_program (w₀ : World) (setup : Setup) (env : Env) {result : Value}
    (hr : result.Within .ofNames) {statements : List Stmt} (hn : BlockNamed statements) :
    Tells setup w₀ (Run.program setup env result statements) (program setup env result statements)
      (Value.Within .ofNames) := by
  have hat := tellsAt w₀ setup setup.depth
  induction statements generalizing result with
  | nil => exact tells_pure hr
  | cons s rest ih =>
    obtain ⟨hfirst, hrest⟩ := List.forall_mem_cons.mp hn
    by_cases hs : ∃ e span, s = .expression e span
    · obtain ⟨e, span, rfl⟩ := hs
      exact tells_bind (hat.evaluate env e hfirst) fun v hv => ih hv hrest
    · have hnot (e : Expr) (span : Span) : s ≠ .expression e span := fun h => hs ⟨e, span, h⟩
      rw [Run.program.eq_3 _ _ _ _ _ hnot, program.eq_3 _ _ _ _ _ hnot]
      refine tells_bind (hat.execute env s hfirst) fun flow hflow => ?_
      cases flow with
      | normal => exact ih hr hrest
      | leave => exact tells_pure hr
      | give v => exact tells_pure hflow

end Traced

end HostScript
