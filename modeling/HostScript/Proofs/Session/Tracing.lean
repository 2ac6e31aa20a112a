import HostScript.Proofs.Host.Invocations
import HostScript.Proofs.Session.Blame

/-!
# What a host sees of a session

Scripts are run one after another, and from time to time the link to the host may be closed
(`Deed`). `Session.trace` lists the calls of functions of the host that each script makes. Over any
such deeds the handlers of the host are invoked by the calls that are accepted, offered and made
over an open link, in the order of the calls, and by nothing else (`Session.act_invokes`).
-/

namespace HostScript

/-- What is done with a session: a script is run, or the link to the host is closed. -/
inductive Deed
  | run (source : Text)
  | closeLink

/-- A script that has run: its result, and its calls of functions of the host. -/
structure TracedRun where
  result : RunResult
  calls : List ScriptCall

theorem World.Confined.named {w₀ w : World} (h : w₀.Confined .ofNames w) {c : Closure}
    (hc : w.Holds c) : c.Named := by
  obtain ⟨p, hp⟩ := hc
  cases p with
  | scope id => exact (h.scopes.members id trivial _ hp).2
  | composite d => exact (h.heap.members d trivial _ hp).2

namespace Session

/-- The results of the scripts among some deeds, and the session that the deeds leave. -/
def act : Session → List Deed → List RunResult × Session
  | s, [] => ([], s)
  | s, .run source :: deeds =>
    let (result, s) := s.run source
    let (results, s) := s.act deeds
    (result :: results, s)
  | s, .closeLink :: deeds => s.closeLink.act deeds

/-- Runs a script and lists its calls of functions of the host. -/
def traceRun (s : Session) (source : Text) : TracedRun × Session :=
  let s := s.announced source
  match compile s.setup.depth source with
  | .ok statements =>
    let (result, world, calls) :=
      (Traced.program s.setup s.root .null statements).run (s.world, [])
    (⟨resultOf result, calls⟩, { s with world }.noteResult (resultOf result))
  | .error fault => (⟨.failure fault, []⟩, s.noteResult (.failure fault))

/-- The scripts among some deeds with their calls, and the session that the deeds leave. -/
def trace : Session → List Deed → List TracedRun × Session
  | s, [] => ([], s)
  | s, .run source :: deeds =>
    let (run, s) := s.traceRun source
    let (runs, s) := s.trace deeds
    (run :: runs, s)
  | s, .closeLink :: deeds => s.closeLink.trace deeds

/-! ## One script -/

theorem account_log {setup : Setup} (s : Session) (level : LogLevel) (message : Text) :
    Account setup s.world [] (s.log level message).world := by
  refine .quiet rfl ?_
  change World.hostCalls (s.world.events.push _).toList = _
  rw [Array.toList_push, Host.hostCalls_append]
  exact List.append_nil _

theorem account_noteResult {setup : Setup} (s : Session) (result : RunResult) :
    Account setup s.world [] (s.noteResult result).world := by
  unfold noteResult
  split
  · exact account_log s _ _
  · exact .quiet rfl rfl

/-- The functions that a session holds have names without surrogates. -/
def Named (s : Session) : Prop := ∀ c, s.world.Holds c → c.Named

theorem Named.confined {s : Session} (h : s.Named) : s.world.Confined .ofNames s.world := by
  refine World.confined_self (fun p _ v hv => ?_) fun _ _ => trivial
  cases v with
  | function f =>
    cases f with
    | native f => trivial
    | closure c => exact ⟨c.env.within_ofNames, h c ⟨p, hv⟩⟩
  | _ => trivial

/-- What is known of a script whose run was traced. -/
structure Accounted (s : Session) (source : Text) (calls : List ScriptCall) : Prop where
  traced : s.traceRun source = (⟨(s.run source).1, calls⟩, (s.run source).2)
  account : Account s.setup s.world calls (s.run source).2.world
  halts : ∀ call ∈ calls, ∀ halt, call.outcome = .error halt →
    (s.run source).1 = resultOf (.error halt)
  named : (s.run source).2.Named

/-- A traced script does what the script does, and its calls account for it. -/
theorem exists_accounted {s : Session} (hnamed : s.Named) (source : Text) :
    ∃ calls, Accounted s source calls := by
  have hannounced : (s.announced source).Named := fun c hc => hnamed c hc
  cases hcompile : compile s.setup.depth source with
  | error fault =>
    have hrun := run_of_compile_error hcompile
    refine ⟨[], ?_, ?_, fun _ h => absurd h List.not_mem_nil, ?_⟩
    · have hc : compile (s.announced source).setup.depth source = .error fault := hcompile
      simp only [traceRun, hc, hrun]
    · rw [hrun]
      exact (account_log s _ _).append (account_noteResult _ _)
    · rw [hrun]
      exact fun c hc => hannounced c (holds_noteResult hc)
  | ok statements =>
    have hrun := run_of_compile_ok hcompile
    obtain ⟨result, w', calls, htold⟩ := Traced.tells_program (s.announced source).world s.setup
      s.root (show Value.null.Within _ from trivial) (compile_names hcompile)
      (s.announced source).world [] hannounced.confined
    have hstatements : (s.announced source).runStatements statements =
        (resultOf result, { s.announced source with world := w' }) :=
      runStatements_of_run (s := s.announced source) rfl htold.run
    rw [hstatements] at hrun
    refine ⟨calls, ?_, ?_, ?_, ?_⟩
    · have hc : compile (s.announced source).setup.depth source = .ok statements := hcompile
      have htraced : (Traced.program (s.announced source).setup (s.announced source).root .null
          statements).run ((s.announced source).world, []) = (result, w', calls) := htold.traced
      simp only [traceRun, hc, htraced, hrun]
    · rw [hrun]
      have hbefore : Account s.setup s.world [] (s.announced source).world := account_log s _ _
      have hafter : ∀ ended : Session,
          Account s.setup ended.world [] (ended.noteResult (resultOf result)).world :=
        fun ended => account_noteResult ended _
      simpa using (hbefore.append htold.account).append
        (hafter { s.announced source with world := w' })
    · intro call hcall halt hhalt
      rw [hrun]
      exact congrArg resultOf (htold.halts call hcall halt hhalt)
    · rw [hrun]
      intro c hc
      exact htold.confined.named (holds_noteResult hc)

theorem History.named {sources : List Text} {s : Session} (h : History sources s) : s.Named := by
  induction h with
  | fresh config around => exact fun c hc => absurd hc (not_holds_fresh config around c)
  | run source _ ih =>
    obtain ⟨calls, h⟩ := exists_accounted ih source
    exact h.named
  | log level message _ ih => exact ih
  | closeLink _ ih => exact ih

/-! ## Several scripts -/

/-- Tracing changes neither the results nor the session. -/
theorem trace_erases {s : Session} (hnamed : s.Named) (deeds : List Deed) :
    ((s.trace deeds).1.map (·.result), (s.trace deeds).2) = s.act deeds := by
  induction deeds generalizing s with
  | nil => rfl
  | cons deed deeds ih =>
    cases deed with
    | run source =>
      obtain ⟨calls, h⟩ := exists_accounted hnamed source
      simp only [trace, act, h.traced, List.map_cons, ← ih h.named]
    | closeLink => exact ih fun c hc => hnamed c hc

/-- A call that halts is the end of its script. -/
theorem trace_halts {s : Session} (hnamed : s.Named) (deeds : List Deed) :
    ∀ run ∈ (s.trace deeds).1, ∀ call ∈ run.calls, ∀ halt, call.outcome = .error halt →
      run.result = resultOf (.error halt) := by
  induction deeds generalizing s with
  | nil => exact fun _ h => absurd h List.not_mem_nil
  | cons deed deeds ih =>
    cases deed with
    | run source =>
      obtain ⟨calls, h⟩ := exists_accounted hnamed source
      simp only [trace, h.traced]
      exact List.forall_mem_cons.mpr ⟨h.halts, ih h.named⟩
    | closeLink => exact ih fun c hc => hnamed c hc

/-- Closing a link is a way over it. -/
theorem linked_closeLink {s : Session} {link : Link} (hlink : s.world.link = some link) :
    Linked link s.world [] s.closeLink.world { link with isOpen := false } where
  linked := by simp only [closeLink, hlink, Option.map_some]
  host := rfl
  timeout := rfl
  invocations := (List.append_nil _).symm
  ends _ h := absurd h List.not_mem_nil
  opened _ h := absurd h List.not_mem_nil
  stayed := nofun
  ordered := .nil

/-- All deeds together are a way over the link. -/
theorem trace_linked {s : Session} (hnamed : s.Named) (hdepth : 2 ≤ s.setup.depth) {link : Link}
    (hlink : s.world.link = some link) (hmeasurable : Host.isMeasurable link.timeout = true)
    {deeds : List Deed} (hscalar : ∀ run ∈ (s.trace deeds).1, ∀ call ∈ run.calls, call.IsScalar) :
    ∃ link', Linked link s.world ((s.trace deeds).1.flatMap (·.calls)) (s.act deeds).2.world
      link' := by
  induction deeds generalizing s link with
  | nil => exact ⟨link, .quiet hlink rfl rfl⟩
  | cons deed deeds ih =>
    cases deed with
    | run source =>
      obtain ⟨calls, h⟩ := exists_accounted hnamed source
      simp only [trace, act, h.traced, List.flatMap_cons, List.forall_mem_cons] at hscalar ⊢
      obtain ⟨hfirst, hrest⟩ := hscalar
      obtain ⟨link', hlinked⟩ := h.account.linked hdepth hlink hmeasurable hfirst
      have hsetup : 2 ≤ (s.run source).2.setup.depth := (s.run_setup source).symm ▸ hdepth
      obtain ⟨link'', hlater⟩ :=
        ih h.named hsetup hlinked.linked (hlinked.timeout ▸ hmeasurable) hrest
      exact ⟨link'', hlinked.append hlater⟩
    | closeLink =>
      have hclosed := linked_closeLink hlink
      have hkept : s.closeLink.Named := fun c hc => hnamed c hc
      obtain ⟨link'', hlater⟩ := ih hkept hdepth hclosed.linked hmeasurable hscalar
      exact ⟨link'', hclosed.append hlater⟩

/-- What the host of a session sees while scripts are run and the link may be closed, if its
timeout can be waited for and all strings that are given to it consist of scalar values. The
handlers are invoked by the calls that are accepted, offered and made over an open link, in their
order and once each, with one value for each parameter. All other calls over an open link, and those
that are not accepted, give an error value; those that are accepted once the link is closed end
their script with a transport fault. A link that is closed stays closed. -/
theorem act_invokes {sources : List Text} {s : Session} (h : History sources s) {link : Link}
    (hlink : s.world.link = some link) (hmeasurable : Host.isMeasurable link.timeout = true)
    {deeds : List Deed} (hscalar : ∀ run ∈ (s.trace deeds).1, ∀ call ∈ run.calls, call.IsScalar) :
    let runs := (s.trace deeds).1
    let calls := runs.flatMap (·.calls)
    (runs.map (·.result), (s.trace deeds).2) = s.act deeds ∧
      World.hostCalls (s.act deeds).2.world.events.toList =
        World.hostCalls s.world.events.toList ++ calls.filterMap (·.invocation? link.host) ∧
      (∀ call ∈ calls, call.Ends link.host) ∧
      (∀ call ∈ calls, ∀ invocation, call.invocation? link.host = some invocation →
        invocation.name = call.method.name ∧
          Host.Conveys call.method.kinds call.arguments invocation.parameters) ∧
      (∀ run ∈ runs, ∀ call ∈ run.calls, ∀ halt, call.outcome = .error halt →
        run.result = resultOf (.error halt)) ∧
      (calls.Pairwise fun call later => later.isOpen = true → call.isOpen = true) ∧
      (link.isOpen = false → ∀ call ∈ calls, call.isOpen = false) := by
  have hdepth : 2 ≤ s.setup.depth := Nat.le_trans (by decide) h.leastDepth_le
  obtain ⟨link', hlinked⟩ := trace_linked h.named hdepth hlink hmeasurable hscalar
  refine ⟨trace_erases h.named deeds, hlinked.invocations, hlinked.ends, ?_,
    trace_halts h.named deeds, hlinked.ordered, ?_⟩
  · intro call _ invocation hinvocation
    exact call.conveys_of_invocation? hinvocation
  · intro hclosed call hcall
    refine Bool.eq_false_iff.mpr fun hopen => ?_
    rw [hlinked.opened call hcall hopen] at hclosed
    contradiction

/-! ## A host that speaks -/

/-- A host that takes texts to be spoken. -/
def speaker : Host := Behavior.host (Dict.ofList [("tts", ⟨true, false, .echo⟩)])

/-- A session without a bootstrap script that is linked to this host. -/
def withSpeaker : Session := fresh quiet ⟨[], [], some ⟨speaker, true, .null⟩, .plain⟩

theorem depth_withSpeaker : withSpeaker.setup.depth = 1500 := rfl

/-- A script that gives the host one text. -/
def speech : Text := "tts(\"hi\")"

theorem compile_speech : compile 1500 speech =
    .ok [.expression (.call (.variable "tts" ⟨0, 3, 1⟩) [.literal (.string "hi") ⟨4, 8, 1⟩]
      ⟨3, 4, 1⟩) ⟨0, 3, 1⟩] := by
  cbv

/-- A script that is one call of a function of the host with a literal makes this call. -/
theorem traceRun_of_hostCall {s : Session} {source : Text} {name : Name} {m : HostMethod}
    {value : Literal} {callee argument place statement : Span} {depth : Nat}
    (hd : s.setup.depth = depth + 3) (hcompile : compile s.setup.depth source =
      .ok [.expression (.call (.variable name callee) [.literal value argument] place) statement])
    (hbound : s.world.scopes.get? s.root name = some (.function (.native (.host m)))) :
    ∃ outcome, (s.traceRun source).1.calls =
      [⟨m, [.ofLiteral value], s.world.isLinked, outcome⟩] := by
  have hget : (s.announced source).world.scopes.get? s.root name =
      some (.function (.native (.host m))) := hbound
  have hvariable : (Traced.evaluate s.setup (depth + 2) s.root (.variable name callee)).run
      ((s.announced source).world, []) =
        (.ok (.function (.native (.host m))), (s.announced source).world, []) := by
    rw [Traced.evaluate, Traced.run_lift, Run.run_lookup_of_get? hget]
  have harguments : ([Expr.literal value argument].mapM
      (Traced.evaluate s.setup (depth + 2) s.root)).run ((s.announced source).world, []) =
        (.ok [.ofLiteral value], (s.announced source).world, []) := by
    rw [List.mapM_cons, Traced.evaluate]
    rfl
  cases hrun : (Host.call s.setup m [.ofLiteral value]).run (s.announced source).world with
  | mk result w' =>
    let call : ScriptCall := ⟨m, [.ofLiteral value], s.world.isLinked, result⟩
    have hfunction : (Traced.callFunction s.setup (depth + 2) (.function (.native (.host m)))
        [.ofLiteral value] (some place)).run ((s.announced source).world, []) =
          (result, w', [call]) := by
      rw [Traced.callFunction, Traced.run_callNative_host, hrun]
      rfl
    have hevaluate : (Traced.evaluate s.setup (depth + 3) s.root
        (.call (.variable name callee) [.literal value argument] place)).run
          ((s.announced source).world, []) = (result, w', [call]) := by
      rw [Traced.evaluate, Traced.run_bind, hvariable]
      dsimp only
      rw [Traced.run_bind, harguments]
      exact hfunction
    have hprogram : ((Traced.program s.setup s.root .null [.expression (.call
        (.variable name callee) [.literal value argument] place) statement]).run
          ((s.announced source).world, [])).2.2 = [call] := by
      rw [Traced.program, Traced.run_bind, hd, hevaluate]
      cases result <;> rfl
    have hc : compile (s.announced source).setup.depth source = _ := hcompile
    refine ⟨result, ?_⟩
    simp only [traceRun, hc]
    exact hprogram

theorem trace_run_closeLink (s : Session) (source : Text) :
    (s.trace [.run source, .closeLink]).1 = [(s.traceRun source).1] := rfl

theorem act_invokes_speaker :
    History [] withSpeaker ∧ withSpeaker.world.link = some ⟨speaker, true, .null⟩ ∧
      Host.isMeasurable .null = true ∧
      (∀ run ∈ (withSpeaker.trace [.run speech, .closeLink]).1, ∀ call ∈ run.calls,
        call.IsScalar) ∧
      World.hostCalls (withSpeaker.act [.run speech, .closeLink]).2.world.events.toList =
        [⟨"tts", [.string "hi"]⟩] := by
  have hfresh : History [] withSpeaker := History.fresh quiet _
  have hlink : withSpeaker.world.link = some ⟨speaker, true, .null⟩ := rfl
  have hcompile : compile withSpeaker.setup.depth speech = _ :=
    depth_withSpeaker ▸ compile_speech
  have hbound : withSpeaker.world.scopes.get? withSpeaker.root "tts" =
      some (.function (.native (.host .speak))) :=
    Scopes.get?_of_bindings (get?_fresh_host quiet rfl .speak)
  obtain ⟨outcome, hcalls⟩ := traceRun_of_hostCall depth_withSpeaker hcompile hbound
  have hscalar : ∀ run ∈ (withSpeaker.trace [.run speech, .closeLink]).1, ∀ call ∈ run.calls,
      call.IsScalar := by
    intro run hrun call hcall
    rw [trace_run_closeLink] at hrun
    obtain rfl := List.mem_singleton.mp hrun
    rw [hcalls] at hcall
    obtain rfl := List.mem_singleton.mp hcall
    intro t ht
    obtain rfl : t = "hi" := by simpa [Value.ofLiteral] using ht
    unfold Text.IsScalar
    decide
  refine ⟨hfresh, hlink, rfl, hscalar, ?_⟩
  have hopen : withSpeaker.world.isLinked = true := by rw [World.isLinked, hlink, Option.any_some]
  have hoffers : speaker.offers HostMethod.speak.name = true := by decide +kernel
  have hinvocation : ScriptCall.invocation? speaker ⟨.speak, [.string "hi"], true, outcome⟩ =
      some ⟨"tts", [.string "hi"]⟩ := by
    have hconveys : Host.Conveys HostMethod.speak.kinds [.string "hi"] [.string "hi"] :=
      .cons (.text "hi") .nil
    rw [ScriptCall.invocation?_of_accepted hconveys, hoffers]
    rfl
  rw [(act_invokes hfresh hlink rfl hscalar).2.1, trace_run_closeLink, List.flatMap_singleton,
    hcalls, hopen]
  exact List.filterMap_cons_some hinvocation

end Session

end HostScript
