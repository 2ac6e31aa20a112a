import HostScript.Proofs.Run.Evaluation
import HostScript.Proofs.Session.Scripts
import HostScript.Proofs.Syntax.ParseSpans
import Mathlib

/-!
# Which source a fault is blamed on

A function keeps the spans of the source that defined it, and a session keeps functions from one
script to the next. `Session.History` lists the sources that have run in a session. A fault is then
blamed on a place in the source that is running, or on one in the body of a function that the
session held before, which is a place in an earlier source (`run_blames`).
-/

namespace HostScript

/-! ## Code that a world holds -/

/-- A function of a script stands in some place of a world. -/
def World.Holds (w : World) (c : Closure) : Prop :=
  ∃ p, Value.function (.closure c) ∈ w.members p

/-- The bounds of code with the given spans, wherever it lives. -/
def Bounds.ofSpans (P : Span → Prop) : Bounds :=
  ⟨fun _ => True, P, fun c => BlockSpansIn P c.body⟩

theorem World.confined_code {P : Span → Prop} {w : World}
    (h : ∀ c, w.Holds c → BlockSpansIn P c.body) : w.Confined (Bounds.ofSpans P) w := by
  refine confined_self (fun p _ v hv => ?_) fun _ _ => trivial
  cases v with
  | function f =>
    cases f with
    | native f => trivial
    | closure c => exact ⟨fun _ _ => trivial, h c ⟨p, hv⟩⟩
  | _ => trivial

theorem World.Confined.code {P : Span → Prop} {w₀ w : World} (h : w₀.Confined (Bounds.ofSpans P) w)
    {c : Closure} (hc : w.Holds c) : BlockSpansIn P c.body := by
  obtain ⟨p, hp⟩ := hc
  cases p with
  | scope id => exact (h.scopes.members id trivial _ hp).2
  | composite d => exact (h.heap.members d trivial _ hp).2

/-! ## Compiling -/

/-- What is true of the spans of all tokens read in a source is true of all spans in its statements. -/
theorem compile_spansIn {P : Span → Prop} {depth : Nat} {source : Text} {statements : List Stmt}
    (hread : ∀ t : Token, t.ReadIn source → P t.span) (h : compile depth source = .ok statements) :
    BlockSpansIn P statements := by
  have hreads := scan_reads source
  unfold compile at h
  split at h
  · contradiction
  · contradiction
  · next tokens hscan =>
    rw [hscan] at hreads
    have hparse := parse_spans depth (fun t ht => hread t (hreads.1 t ht)) hreads.2
    split at h
    · contradiction
    · contradiction
    · next program hr =>
      obtain rfl := Except.ok.inj h
      rwa [hr] at hparse

/-- A source that does not compile is blamed where it cannot be scanned, or on a token. -/
theorem compile_fault_cases {P : Span → Prop} {depth : Nat} {source : Text} {fault : ScriptFault}
    {span : Span} (hread : ∀ t : Token, t.ReadIn source → P t.span)
    (h : compile depth source = .error fault) (hs : fault.span? = some span) :
    (∃ cause, fault = .scan cause span ∧ cause.ReadIn source span) ∨
      (∃ cause, fault = .parse cause span) ∧ P span := by
  have hreads := scan_reads source
  unfold compile at h
  split at h
  · next cause place hscan =>
    obtain rfl := Except.error.inj h
    obtain rfl := Option.some.inj hs
    rw [hscan] at hreads
    exact .inl ⟨cause, rfl, hreads⟩
  · obtain rfl := Except.error.inj h
    contradiction
  · next tokens hscan =>
    rw [hscan] at hreads
    have hparse := parse_spans depth (fun t ht => hread t (hreads.1 t ht)) hreads.2
    split at h
    · next cause place hr =>
      obtain rfl := Except.error.inj h
      obtain rfl := Option.some.inj hs
      rw [hr] at hparse
      exact .inr ⟨⟨cause, rfl⟩, hparse⟩
    · obtain rfl := Except.error.inj h
      contradiction
    · contradiction

theorem compile_spans {depth : Nat} {source : Text} {statements : List Stmt}
    (h : compile depth source = .ok statements) : BlockSpansIn (Span.In source) statements :=
  compile_spansIn (fun _ ht => ht.span_in) h

theorem compile_fault_span {depth : Nat} {source : Text} {fault : ScriptFault} {span : Span}
    (h : compile depth source = .error fault) (hs : fault.span? = some span) :
    span.In source := by
  obtain ⟨cause, -, hread⟩ | ⟨-, hin⟩ := compile_fault_cases (fun t ht => ht.span_in) h hs
  · exact hread.span_in
  · exact hin

namespace Session

/-! ## One script -/

theorem runStatements_blames {s : Session} {P : Span → Prop} {statements : List Stmt}
    (hheld : ∀ c, s.world.Holds c → BlockSpansIn P c.body) (hcode : BlockSpansIn P statements) :
    (∀ c, (s.runStatements statements).2.world.Holds c → BlockSpansIn P c.body) ∧
      ∀ fault span, (s.runStatements statements).1 = .failure fault → fault.span? = some span →
        P span ∧ ∃ cause, fault = .runtime cause (some span) := by
  have hstays : Run.Stays (Bounds.ofSpans P) s.world (Run.program s.setup s.root .null statements)
      (Value.Within (Bounds.ofSpans P)) :=
    Run.stays_program (fun _ => Iff.rfl) s.setup (fun _ _ => trivial)
      (show Value.null.Within _ from trivial) hcode
  obtain ⟨hconfined, hresult⟩ := hstays s.world (World.confined_code hheld)
  refine ⟨fun c hc => hconfined.code hc, fun fault span hf hs => ?_⟩
  change resultOf ((Run.program s.setup s.root .null statements).run s.world).1 = .failure fault
    at hf
  cases hr : ((Run.program s.setup s.root .null statements).run s.world).1 with
  | ok v => simp [hr, resultOf] at hf
  | error halt =>
    rw [hr] at hresult hf
    cases halt with
    | fault cause place =>
      obtain rfl := RunResult.failure.inj hf
      obtain rfl : place = some span := hs
      exact ⟨hresult, cause, rfl⟩
    | internal cause =>
      obtain rfl := RunResult.failure.inj hf
      contradiction
    | tooDeep =>
      obtain rfl := RunResult.failure.inj hf
      contradiction
    | transport cause => simp [resultOf] at hf
    | endless => simp [resultOf] at hf

theorem holds_noteResult {s : Session} {result : RunResult} {c : Closure}
    (hc : (s.noteResult result).world.Holds c) : s.world.Holds c := by
  unfold noteResult at hc
  split at hc
  · exact hc
  · exact hc

/-- The code that a session holds after a script is that which it held before or that of the
script. -/
theorem run_code {s : Session} {source : Text} {P : Span → Prop}
    (hheld : ∀ c, s.world.Holds c → BlockSpansIn P c.body)
    (hcode : ∀ statements, compile s.setup.depth source = .ok statements →
      BlockSpansIn P statements) {c : Closure} (hc : (s.run source).2.world.Holds c) :
    BlockSpansIn P c.body := by
  have hannounced (d : Closure) (hd : (s.announced source).world.Holds d) :
      BlockSpansIn P d.body := hheld d hd
  cases hr : compile s.setup.depth source with
  | ok statements =>
    rw [run_of_compile_ok hr] at hc
    exact (runStatements_blames hannounced (hcode statements hr)).1 c (holds_noteResult hc)
  | error fault =>
    rw [run_of_compile_error hr] at hc
    exact hannounced c (holds_noteResult hc)

/-! ## Histories -/

/-- The sources that have run in a session one after another, the last one first. -/
inductive History : List Text → Session → Prop
  | fresh (config : Config) (around : Surroundings) : History [] (fresh config around)
  | run {sources : List Text} {s : Session} (source : Text) :
      History sources s → History (source :: sources) (s.run source).2
  | log {sources : List Text} {s : Session} (level : LogLevel) (message : Text) :
      History sources s → History sources (s.log level message)
  | closeLink {sources : List Text} {s : Session} :
      History sources s → History sources s.closeLink

theorem History.runBoot {sources : List Text} {s : Session} (h : History sources s)
    (name source : Text) : History (source :: sources) (s.runBoot name source).2 := by
  unfold Session.runBoot
  dsimp only
  split
  · exact h.run source
  · exact (h.run source).log _ _
  · exact h.run source
  · exact h.run source

/-- A session that has started has run its bootstrap script, or nothing. -/
theorem history_start (config : Config) (around : Surroundings) :
    ∃ sources, History sources (start config around).2 := by
  have hfresh := History.fresh config around
  unfold start prepare
  split
  · split
    · exact ⟨_, hfresh⟩
    · unfold boot
      split
      · exact ⟨_, hfresh.runBoot _ _⟩
      · split
        · exact ⟨_, hfresh.log _ _⟩
        · exact ⟨_, hfresh.runBoot _ _⟩
  · exact ⟨_, hfresh⟩

theorem native_of_mem_members {natives : List Native} {env : Env} {scopes : Scopes Value}
    {id : ScopeId} {v : Value} (hn : ∀ u ∈ scopes.members id, ∃ f, u = .function (.native f))
    (hv : v ∈ (natives.foldl (fun scopes f =>
      scopes.define env f.name (.function (.native f))) scopes).members id) :
    ∃ f, v = .function (.native f) := by
  induction natives generalizing scopes with
  | nil => exact hn v hv
  | cons f natives ih =>
    refine ih (fun u hu => ?_) hv
    rcases Scopes.mem_members_bind hu with rfl | hu
    · exact ⟨f, rfl⟩
    · exact hn u hu

/-- Nothing but native functions is bound in a fresh session. -/
theorem not_holds_fresh (config : Config) (around : Surroundings) (c : Closure) :
    ¬ (fresh config around).world.Holds c := by
  rintro ⟨p, hp⟩
  cases p with
  | scope id =>
    have hstart (u : Value) (hu : u ∈ Scopes.start.1.members id) : ∃ f, u = .function (.native f) := by
      cases id with
      | zero => exact absurd hu List.not_mem_nil
      | succ id =>
        rw [Scopes.members_of_size_le (Nat.le_add_left 1 id)] at hu
        exact absurd hu List.not_mem_nil
    obtain ⟨f, hf⟩ := native_of_mem_members hstart hp
    simp at hf
  | composite d =>
    have hnone : ¬ Heap.empty.Has d := by cases d <;> exact Nat.not_lt_zero _
    change _ ∈ Heap.empty.members d at hp
    rw [Heap.members_of_not_has hnone] at hp
    exact List.not_mem_nil hp

/-- The code that a session holds comes from the sources that have run in it. -/
theorem History.code {sources : List Text} {s : Session} (h : History sources s) {c : Closure}
    (hc : s.world.Holds c) :
    BlockSpansIn (fun span => ∃ origin ∈ sources, span.In origin) c.body := by
  induction h generalizing c with
  | fresh config around => exact absurd hc (not_holds_fresh config around c)
  | log level message _ ih => exact ih hc
  | closeLink _ ih => exact ih hc
  | @run sources s source _ ih =>
    refine run_code (fun d hd span hspan => ?_) (fun statements hok span hspan => ?_) hc
    · obtain ⟨origin, ho, hin⟩ := ih hd span hspan
      exact ⟨origin, List.mem_cons_of_mem source ho, hin⟩
    · exact ⟨source, List.mem_cons_self, compile_spans hok span hspan⟩

/-! ## A fault in an earlier source -/

/-- The body of a function that refers to a name without a binding. -/
def faultyBody : List Stmt := [.expression (.variable "x" ⟨7, 8, 1⟩) ⟨7, 8, 1⟩]

/-- A session without a bootstrap script. -/
def withoutBootstrap : Session := (start quiet .bare).2

/-- The same session after `f` has been defined. -/
def afterDefinition : Session := (withoutBootstrap.run "fn f(){x}").2

theorem get?_of_not_has {s : Scopes Value} {name : Name}
    (h : (s.bindings 0).has name = false) : s.get? ⟨0, []⟩ name = none := by
  refine Scopes.get?_eq_none ?_
  rw [Env.path, Scopes.owner?_cons_of_not_has h]
  rfl

theorem run_faulty_call {setup : Setup} {depth : Nat} (hd : setup.depth = depth + 4) {w : World}
    {id : Nat} (hf : (w.scopes.bindings 0).get? "f" =
      some (.function (.closure ⟨id, some "f", [], faultyBody, ⟨0, []⟩⟩)))
    (hx : (w.scopes.bindings 0).has "x" = false) :
    ((Run.program setup ⟨0, []⟩ .null
      [.expression (.call (.variable "f" ⟨0, 1, 1⟩) [] ⟨1, 2, 1⟩) ⟨0, 1, 1⟩]).run w).1 =
        .error (.fault (.undefinedVariable "x") (some ⟨7, 8, 1⟩)) := by
  have hunbound := get?_of_not_has hx
  rw [← Scopes.get?_child w.scopes ⟨0, []⟩] at hunbound
  simp only [Run.program, hd, Run.evaluate, Run.run_bind]
  rw [Run.run_lookup_of_get? (Scopes.get?_of_bindings hf)]
  simp only [List.mapM_nil, Run.run_pure, Run.callFunction, List.length_nil, if_true, Run.run_bind,
    Run.enterCall, List.zip_nil_left, List.forIn_nil, Run.run_enter, faultyBody, Run.block,
    Run.execute, Run.run_discard, Run.evaluate]
  rw [Run.run_lookup_of_not_bound (w := { w with scopes := (w.scopes.child ⟨0, []⟩).2 }) hunbound]

theorem run_definition {setup : Setup} {depth : Nat} (hd : setup.depth = depth + 1) (w : World) :
    ((Run.program setup ⟨0, []⟩ .null [.function "f" [] faultyBody false ⟨0, 2, 1⟩]).run w) =
      (.ok .null,
        { w with
          scopes := w.scopes.bind 0 "f"
            (.function (.closure ⟨w.closures, some "f", [], faultyBody, ⟨0, []⟩⟩))
          closures := w.closures + 1 }) := by
  rw [Run.program, hd]
  · rfl
  · simp

theorem depth_withoutBootstrap : withoutBootstrap.setup.depth = 1500 := rfl

theorem root_withoutBootstrap : withoutBootstrap.root = ⟨0, []⟩ := rfl

theorem scopes_afterDefinition :
    ∃ id, afterDefinition.world.scopes = withoutBootstrap.world.scopes.bind 0 "f"
      (.function (.closure ⟨id, some "f", [], faultyBody, ⟨0, []⟩⟩)) := by
  have hcompile : compile withoutBootstrap.setup.depth "fn f(){x}" =
      .ok [.function "f" [] faultyBody false ⟨0, 2, 1⟩] := by
    rw [depth_withoutBootstrap]
    cbv
  have hrun := run_definition depth_withoutBootstrap (withoutBootstrap.announced "fn f(){x}").world
  refine ⟨withoutBootstrap.world.closures, ?_⟩
  rw [afterDefinition, run_of_compile_ok hcompile, noteResult_scopes,
    runStatements_of_run (s := withoutBootstrap.announced "fn f(){x}") root_withoutBootstrap hrun]
  rfl

theorem depth_afterDefinition : afterDefinition.setup.depth = 1500 := by
  rw [afterDefinition, run_setup, depth_withoutBootstrap]

theorem root_afterDefinition : afterDefinition.root = ⟨0, []⟩ := by
  rw [afterDefinition, run_root, root_withoutBootstrap]

theorem bindings_afterDefinition :
    (∃ id, (afterDefinition.world.scopes.bindings 0).get? "f" =
      some (.function (.closure ⟨id, some "f", [], faultyBody, ⟨0, []⟩⟩))) ∧
    (afterDefinition.world.scopes.bindings 0).has "x" = false := by
  have hsize : 0 < withoutBootstrap.world.scopes.frames.size := by decide +kernel
  have hunbound : (withoutBootstrap.world.scopes.bindings 0).has "x" = false := by decide +kernel
  obtain ⟨id, hscopes⟩ := scopes_afterDefinition
  rw [hscopes, Scopes.bindings_bind, if_pos ⟨rfl, hsize⟩]
  refine ⟨⟨id, Dict.get?_put_self _ _ _⟩, ?_⟩
  rw [Dict.has, Dict.get?_put_of_ne _ _ (by decide)]
  exact hunbound

theorem run_afterDefinition :
    (afterDefinition.run "f()").1 =
      .failure (.runtime (.undefinedVariable "x") (some ⟨7, 8, 1⟩)) := by
  obtain ⟨⟨id, hf⟩, hx⟩ := bindings_afterDefinition
  have hcompile : compile afterDefinition.setup.depth "f()" =
      .ok [.expression (.call (.variable "f" ⟨0, 1, 1⟩) [] ⟨1, 2, 1⟩) ⟨0, 1, 1⟩] := by
    rw [depth_afterDefinition]
    cbv
  have hrun := run_faulty_call depth_afterDefinition
    (w := (afterDefinition.announced "f()").world) hf hx
  rw [run_of_compile_ok hcompile, runStatements_of_run (s := afterDefinition.announced "f()")
    root_afterDefinition (Prod.ext hrun rfl)]
  rfl

theorem history_afterDefinition : History ["fn f(){x}"] afterDefinition :=
  .run _ (History.fresh quiet .bare)

/-! ## What is blamed -/

/-- A fault is blamed on a place in the source that runs, unless it is a fault of running and the
place is in the body of a function that the session held before: then it is a place in a source
that has run earlier. -/
theorem run_blames {sources : List Text} {s : Session} (h : History sources s) {source : Text}
    {fault : ScriptFault} {span : Span} (hf : (s.run source).1 = .failure fault)
    (hs : fault.span? = some span) :
    span.In source ∨ ∃ cause c, fault = .runtime cause (some span) ∧ s.world.Holds c ∧
      span ∈ spansOfBlock c.body ∧ ∃ origin ∈ sources, span.In origin := by
  cases hr : compile s.setup.depth source with
  | error found =>
    rw [run_of_compile_error hr] at hf
    obtain rfl := RunResult.failure.inj hf
    exact .inl (compile_fault_span hr hs)
  | ok statements =>
    rw [run_of_compile_ok hr] at hf
    let P (span : Span) : Prop :=
      span ∈ spansOfBlock statements ∨ ∃ c, s.world.Holds c ∧ span ∈ spansOfBlock c.body
    have hheld (c : Closure) (hc : (s.announced source).world.Holds c) : BlockSpansIn P c.body :=
      fun span hspan => .inr ⟨c, hc, hspan⟩
    have hcode : BlockSpansIn P statements := fun span hspan => .inl hspan
    obtain ⟨hP, cause, rfl⟩ := (runStatements_blames hheld hcode).2 fault span hf hs
    rcases hP with hspan | ⟨c, hc, hspan⟩
    · exact .inl (compile_spans hr span hspan)
    · exact .inr ⟨cause, c, rfl, hc, hspan, h.code hc span hspan⟩

theorem run_blames_afterDefinition :
    History ["fn f(){x}"] afterDefinition ∧
      (∃ cause, (afterDefinition.run "f()").1 =
        .failure (.runtime cause (some ⟨7, 8, 1⟩))) ∧
      (Span.In "f()" ⟨7, 8, 1⟩ ∨ ∃ cause c, ScriptFault.runtime (.undefinedVariable "x")
          (some ⟨7, 8, 1⟩) = .runtime cause (some ⟨7, 8, 1⟩) ∧ afterDefinition.world.Holds c ∧
        ⟨7, 8, 1⟩ ∈ spansOfBlock c.body ∧
        ∃ origin ∈ [Text.ofString "fn f(){x}"], Span.In origin ⟨7, 8, 1⟩) :=
  ⟨history_afterDefinition, ⟨_, run_afterDefinition⟩,
    run_blames history_afterDefinition run_afterDefinition rfl⟩

/-- A fault of running need not lie in the source that runs: here it is blamed on bytes behind the
end of it. -/
theorem afterDefinition_blames_outside :
    History ["fn f(){x}"] afterDefinition ∧
      (afterDefinition.run "f()").1 =
        .failure (.runtime (.undefinedVariable "x") (some ⟨7, 8, 1⟩)) ∧
      ¬ Span.In "f()" ⟨7, 8, 1⟩ :=
  ⟨history_afterDefinition, run_afterDefinition, by decide⟩

end Session

end HostScript
