import HostScript.Proofs.Likeness.Moving
import HostScript.Proofs.Likeness.Parsing
import HostScript.Proofs.Run.Programs
import HostScript.Proofs.Syntax.Joining

/-!
# A script in two

Two sources that are run as one (`Text.joined`) do what they do one after the other
(`Session.run_joined`). The tokens of the whole are those of the first source, a semicolon and those
of the second one; so the program is that of the first source, and behind it that of the second one,
with its spans moved down (`compile_joined`). If the first one comes to its end, the second one
starts where it starts on its own, but for the value at hand.
-/

namespace HostScript

variable {b : Likeness} {kinds : List ScopeKind}

/-! ## The program of both sources -/

theorem compile_eq_ok_iff {depth : Nat} {source : Text} {program : List Stmt} :
    compile depth source = .ok program ↔
      ∃ tokens, scan source = .ok tokens ∧ parse depth tokens = .ok program := by
  unfold compile
  rcases hs : scan source with (_ | _) | tokens
  · simp
  · simp
  · rcases hp : parse depth tokens with (_ | _) | found <;> simp [hp]

/-- The last token of a source in front of its end is no semicolon. -/
def Text.EndsOpen (source : Text) : Prop :=
  ∀ tokens, scan source = .ok tokens →
    ∀ t ∈ tokens.dropLast.getLast?, t.lexeme ≠ .symbol .semicolon

section

variable {first second : Text} {body : List Token}

/-- The tokens of the first source, and then a semicolon and more. -/
theorem Layout.tokensLike_first (h : Layout first body) (hopen : first.EndsOpen)
    (hscan : scan first = .ok (body ++ [.atEnd first])) (hkept : ∀ σ, σ.In first → b.span σ σ)
    {semicolon : Token} (hl : semicolon.lexeme = .symbol .semicolon) (more : List Token) :
    TokensLike b ⟨0, semicolon, more, .inr hl⟩ (body ++ [.atEnd first])
      (body ++ semicolon :: more) := by
  have hspans := (scan_spans hscan).1
  have hlike := TokensLike.of_map (b := b) (c := ⟨0, semicolon, more, .inr hl⟩) (f := id)
    (fun _ => rfl) (fun _ => rfl) h.lexeme
    (fun t ht => hkept _ (hspans t (List.mem_append_left _ ht)))
    (fun t ht hlast => ?_) (e := .atEnd first) rfl
  · rwa [List.map_id] at hlike
  · have hopen' := hopen _ hscan t
    rw [List.dropLast_concat] at hopen'
    exact absurd hlast (hopen' ht)

/-- The tokens of the second source. -/
theorem Layout.tokensLike_second (h : Layout second body)
    (hscan : scan second = .ok (body ++ [.atEnd second]))
    (hmoved : ∀ σ, σ.In second → b.span σ (σ.behind first)) :
    TokensLike b
      ⟨first.lead.count (.scalar '\n'), (Token.atEnd second).behind first, [], .inl rfl⟩
      (body ++ [.atEnd second]) ((body ++ [Token.atEnd second]).map (.behind first)) := by
  have hspans := (scan_spans hscan).1
  rw [List.map_append]
  exact TokensLike.of_map (f := .behind first) (fun _ => rfl) (fun _ => rfl) h.lexeme
    (fun t ht => hmoved _ (hspans t (List.mem_append_left _ ht))) (fun _ _ _ => rfl) rfl

end

/-- The program of two sources is that of the first one and then that of the second one, which is
moved behind the first source. -/
theorem compile_joined {depth : Nat} {first second : Text} {program program' : List Stmt}
    (h : compile depth first = .ok program) (h' : compile depth second = .ok program')
    (hne : program ≠ []) (hopen : first.EndsOpen) :
    compile depth (first.joined second) =
      .ok (program ++ moveBlock (Span.behind first) program') := by
  let kept := Likeness.moving id
  let behind := Likeness.moving (Span.behind first)
  obtain ⟨tokens, hscan, hparse⟩ := compile_eq_ok_iff.mp h
  obtain ⟨tokens', hscan', hparse'⟩ := compile_eq_ok_iff.mp h'
  obtain ⟨body, semicolon, htokens, hsemicolon, hjoined⟩ := scan_joined hscan hscan'
  obtain ⟨_, hbody, hlayout⟩ := scan_layout hscan
  obtain ⟨body', rfl, hlayout'⟩ := scan_layout hscan'
  obtain ⟨rfl, -⟩ := List.append_inj' (htokens.symm.trans hbody) rfl
  subst htokens
  obtain ⟨t, hmany⟩ := parse_eq_ok_iff.mp hparse
  obtain ⟨t', hmany'⟩ := parse_eq_ok_iff.mp hparse'
  -- the statements of the first source are read, and the semicolon with the last one
  have hfirst : Cursor.Like kept _ False ⟨0, body ++ [.atEnd first]⟩ ⟨0, _⟩ :=
    ⟨hlayout.tokensLike_first hopen hscan (fun _ _ => rfl) hsemicolon
      ((body' ++ [Token.atEnd second]).map (.behind first)), nofun⟩
  have hnot : (⟨0, body ++ [.atEnd first]⟩ : Cursor).peek.lexeme ≠ .endOfInput := fun he => by
    cases hmany with
    | stops => exact hne rfl
    | goes _ hend => exact hend he
  obtain ⟨joint, u, hjoint, hbehind, hgo⟩ :=
    Parser.follows_program (Parser.followsAt kept _ depth).statement hfirst hmany
      fun he => absurd he hnot
  obtain ⟨hl, -⟩ | ⟨-, hu⟩ := hbehind
  · exact nomatch hl.symm.trans hsemicolon
  -- then those of the second one
  have hlike := hlayout'.tokensLike_second (b := behind) hscan' fun _ _ => rfl
  have hrest : u.rest = (body' ++ [Token.atEnd second]).map (.behind first) := hu
  rw [← hrest] at hlike
  have hsecond : Cursor.Like behind _ False ⟨0, body' ++ [.atEnd second]⟩ u := ⟨hlike, nofun⟩
  obtain ⟨joint', v, hjoint', hbehind, hgo'⟩ :=
    Parser.follows_program (Parser.followsAt behind _ depth).statement hsecond hmany' fun _ => rfl
  have hend : v.peek.lexeme = .endOfInput := by
    obtain ⟨-, hv⟩ | ⟨hl, -⟩ := hbehind
    · rw [Cursor.peek, hv]
      rfl
    · contradiction
  have hrest := hgo' [] v (.stops (.inr hend))
  rw [List.append_nil] at hrest
  have hjoint : joint = program := by rw [hjoint.eq_moved, moveBlock_id]
  rw [← hjoint, ← hjoint'.eq_moved]
  exact compile_eq_ok_iff.mpr ⟨_, hjoined, parse_eq_ok_iff.mpr ⟨v, hgo joint' v hrest⟩⟩

/-! ## Running both sources -/

namespace Run

variable {env : Env} {w w₁ w' : World}

/-- If one of two runs in lockstep has a result, so has the other one. -/
theorem Lockstep.of_ok {α : Type} {m m' : Run α} {Q : List ScopeKind → α → α → Prop} {a : α}
    (h : Lockstep b kinds m m' Q) (hw : w.Like b kinds w') (hr : m.run w = (.ok a, w₁)) :
    ∃ more a' w₁', kinds <+: more ∧ m'.run w' = (.ok a', w₁') ∧ w₁.Like b more w₁' ∧
      Q more a a' := by
  obtain ⟨more, hmore, hworld, hout⟩ := h w w' hw
  rw [hr] at hworld hout
  rcases hr' : m'.run w' with ⟨halt | a', w₁'⟩ <;> rw [hr'] at hworld hout
  · exact hout.elim
  · exact ⟨more, a', w₁', hmore, rfl, hworld, hout⟩

/-- A program that is like one that comes to its end comes to its end. -/
theorem Passes.like {setup : Setup} {program program' : List Stmt}
    (h : Passes setup env w program w₁) (he : env.StandsIn kinds .outside)
    (hw : w.Like b kinds w') (hp : BlockLike b .outside program program') :
    ∃ w₁', Passes setup env w' program' w₁' := by
  have hat := lockstepAt b setup setup.depth
  induction h generalizing kinds w' program' with
  | nil =>
    cases hp
    exact ⟨w', .nil⟩
  | expression hstep _ ih =>
    cases hp with
    | cons hs hrest =>
      cases hs with
      | expression h =>
        obtain ⟨more, v', u', hmore, hstep', hu, -⟩ := (hat.evaluate he h).of_ok hw hstep
        obtain ⟨w₁', hpasses⟩ := ih (he.mono hmore) hu hrest
        exact ⟨w₁', .expression hstep' hpasses⟩
  | step hs hstep _ ih =>
    cases hp with
    | cons hlike hrest =>
      obtain ⟨more, flow, u', hmore, hstep', hu, hflow⟩ := (hat.execute he hlike).of_ok hw hstep
      obtain rfl : flow = .normal := hflow
      obtain ⟨w₁', hpasses⟩ := ih (he.mono hmore) hu hrest
      refine ⟨w₁', .step ?_ hstep' hpasses⟩
      rintro e σ rfl
      cases hlike
      exact hs _ _ rfl

end Run

/-- An event that does not show happens in the first of two worlds. -/
theorem World.Like.unseen {w w' : World} (hw : w.Like b kinds w') {e : Event}
    (he : b.shows e = false) :
    ({ w with events := w.events.push e } : World).Like b kinds w' where
  scopes := hw.scopes
  heap := hw.heap
  closures := hw.closures
  events := by simp [he, hw.events]
  link := hw.link
  replies := hw.replies
  kinds := hw.kinds

namespace Session

variable {s s' : Session}

/-- The value at hand makes no difference, unless it is the result. -/
theorem resume_result (x y : Value) (s : Session) (statements : List Stmt) :
    (s.resume y statements).2 = (s.resume x statements).2 ∧
      ((s.resume y statements).1 = (s.resume x statements).1 ∨
        ¬ Run.Answers s.setup s.root s.world statements ∧
        (s.resume x statements).1 = .success x ∧ (s.resume y statements).1 = .success y) := by
  obtain ⟨hworld, hresult⟩ :=
    Run.run_program_result s.setup s.root x y statements s.world
  refine ⟨congrArg (fun w => ({ s with world := w } : Session)) hworld, ?_⟩
  rcases hresult with hsame | ⟨hnot, hx, hy⟩
  · exact .inl (congrArg resultOf hsame)
  · exact .inr ⟨hnot, congrArg resultOf hx, congrArg resultOf hy⟩

/-- Behind statements that come to their end, the others are run with a value at hand. -/
theorem runStatements_append {statements : List Stmt} {w : World}
    (h : Run.Passes s.setup s.root s.world statements w) :
    ∃ v, s.runStatements statements = (.success v, { s with world := w }) ∧
      ∀ more, s.runStatements (statements ++ more) =
        ({ s with world := w } : Session).resume v more := by
  obtain ⟨v, hv, hmore⟩ := Run.run_program_of_passes h .null
  refine ⟨v, runStatements_of_run rfl hv, fun more => ?_⟩
  simp only [runStatements_eq_resume, resume, hmore]

/-! ## Running both sources -/

/-- The likeness of two sources that run one after the other and of both in one, from a session on.
In one, the code that the session holds and the first source stay, and the second source stands
behind the first one, wherever it stands on its own. -/
def joining (s : Session) (f : Span → Span) (first second : Text) : Likeness :=
  .placing (fun σ => σ.In first ∨ s.world.HoldsSpan σ) second f (Span.behind first)

/-- A source runs to its end in a session: none of its statements fails, and none that stands on its
own is a `return` or a `break`. -/
def RunsThrough (s : Session) (source : Text) : Prop :=
  ∃ program w, compile s.setup.depth source = .ok program ∧
    Run.Passes s.setup s.root (s.announced source).world program w

/-- A source comes to an expression or a `return` that stands on its own. -/
def RunsToAnswer (s : Session) (source : Text) : Prop :=
  ∃ program, compile s.setup.depth source = .ok program ∧
    Run.Answers s.setup s.root (s.announced source).world program

/-- Two sources in one come to where the first one comes to on its own, with a value at hand that is
like its result, and then run the second one, moved behind the first one. -/
theorem run_joined_eq (h : s.Sound) {first second : Text} {program program' : List Stmt}
    (hc : compile s.setup.depth first = .ok program)
    (hc' : compile s.setup.depth second = .ok program') (hne : program ≠ [])
    (hopen : first.EndsOpen) (hthrough : s.RunsThrough first) (f : Span → Span) :
    ∃ kinds v v' u, (s.run first).1 = .success v ∧
      (s.run first).2.Like (s.joining f first second) kinds u ∧
      v.Like (s.joining f first second) kinds v' ∧
      s.run (first.joined second) =
        ((u.resume v' (moveBlock (Span.behind first) program')).1,
          (u.resume v' (moveBlock (Span.behind first) program')).2.noteResult
            (u.resume v' (moveBlock (Span.behind first) program')).1) := by
  obtain ⟨_, w, hagain, hpasses⟩ := hthrough
  obtain rfl := Except.ok.inj (hc.symm.trans hagain)
  let b := s.joining f first second
  have hprogram : BlockLike b .outside program program :=
    .refl program fun σ hσ => Likeness.same_placing (.inl (compile_spans hc σ hσ))
  have hself : s.Like b (ScopeKind.none s.world) s :=
    h.like_self fun c hc σ hσ => Likeness.same_placing (.inr ⟨c, hc, hσ⟩)
  have hstart := hself.announced rfl first (first.joined second)
  obtain ⟨w', hpasses'⟩ := hpasses.like hstart.stands hstart.world hprogram
  obtain ⟨v, hv, -⟩ := runStatements_append (s := s.announced first) hpasses
  obtain ⟨v', hv', hrest⟩ := runStatements_append (s := s.announced (first.joined second)) hpasses'
  obtain ⟨kinds, -, hresult, hend⟩ := hstart.runStatements hprogram
  rw [hv, hv'] at hresult hend
  obtain ⟨_, hsame, hvalue⟩ := hresult
  obtain rfl := RunResult.success.inj hsame
  refine ⟨kinds, v, v', { s.announced (first.joined second) with world := w' }, ?_, ?_, hvalue, ?_⟩
  · rw [run_of_compile_ok hc, hv]
  · rw [run_of_compile_ok hc, hv]
    exact hend
  · rw [run_of_compile_ok (compile_joined hc hc' hne hopen), hrest]

/-- Wherever the second source stands on its own, both sources in one do what they do one after the
other. -/
theorem like_joined (h : s.Sound) {first second : Text} {program program' : List Stmt}
    (hc : compile s.setup.depth first = .ok program)
    (hc' : compile s.setup.depth second = .ok program') (hne : program ≠ [])
    (hopen : first.EndsOpen) (hthrough : s.RunsThrough first) (f : Span → Span) :
    let t := (s.run first).2
    let b := s.joining f first second
    ∃ kinds, (t.runMoved f second).2.Like b kinds (s.run (first.joined second)).2 ∧
      ((t.runMoved f second).1.Like b kinds (s.run (first.joined second)).1 ∨
        ¬ Run.Answers t.setup t.root (t.announced second).world (moveBlock f program') ∧
          (t.runMoved f second).1 = .success .null ∧
          (s.run first).1.Like b kinds (s.run (first.joined second)).1) := by
  intro t b
  obtain ⟨kinds, v, v', u, hfirst, hu, hvalue, hboth⟩ :=
    run_joined_eq h hc hc' hne hopen hthrough f
  have hprogram : BlockLike b .outside (moveBlock f program')
      (moveBlock (Span.behind first) program') :=
    Likeness.blockLike_placing (compile_spans hc')
  have hc' : compile t.setup.depth second = .ok program' := by rwa [run_setup]
  have hstart : (t.announced second).Like b kinds u :=
    ⟨hu.setup, hu.root, hu.stands, hu.world.unseen rfl⟩
  obtain ⟨more, -, hresult, hend⟩ := hstart.resume hvalue hprogram
  obtain ⟨hsession, hsame⟩ := resume_result .null v (t.announced second) (moveBlock f program')
  rw [hsession] at hend
  rw [hboth, runMoved_of_compile_ok f hc', hfirst, runStatements_eq_resume]
  obtain hsame | ⟨hnot, hnull, hv⟩ := hsame
  · rw [hsame] at hresult
    exact ⟨more, hend.noteResult hresult, .inl hresult⟩
  · rw [hv] at hresult
    obtain ⟨v'', hv'', hvalue'⟩ := hresult
    rw [hv'', hnull]
    exact ⟨more, hend, .inr ⟨hnot, rfl, v'', rfl, hvalue'⟩⟩

/-- If the second source fails, wherever it stands on its own, then both sources in one fail where
it stands behind the first one, or where they fail in code that was there before. -/
theorem fault_joined (h : s.Sound) {first second : Text} {program program' : List Stmt}
    (hc : compile s.setup.depth first = .ok program)
    (hc' : compile s.setup.depth second = .ok program') (hne : program ≠ [])
    (hopen : first.EndsOpen) (hthrough : s.RunsThrough first) {cause : RuntimeFault} {σ : Span}
    (hf : ((s.run first).2.runMoved (Span.behind first) second).1 =
      .failure (.runtime cause (some σ))) :
    (s.run (first.joined second)).1 = .failure (.runtime cause (some σ)) := by
  obtain ⟨kinds, -, hlike | ⟨-, hnull, -⟩⟩ :=
    like_joined h hc hc' hne hopen hthrough (Span.behind first)
  · rw [hf] at hlike
    obtain ⟨fault, hboth, span, rfl, hspan⟩ := hlike
    cases hspan with
    | @some _ σ' hσ =>
      have hsame : σ' = σ := by
        rcases hσ with ⟨-, hσ⟩ | ⟨τ, -, hσ, hσ'⟩
        · exact hσ
        · exact hσ'.trans hσ.symm
      rw [hboth, hsame]
  · exact nomatch hf.symm.trans hnull

/-- A script can be run in two parts. If the first source has statements, does not end in a
semicolon and runs to its end, then both sources in one do what they do one after the other. The
same has happened in the end, and the same names are bound to values that are alike. The results are
alike too; unless the second source has none of its own: then both together have that of the first
one. The code of the second source stands behind the first one, wherever it stands on its own, and
all other code stays: so a fault of the second source stands behind the first one too, if the code
at fault is its own, and stays if it is code that was there before. -/
theorem run_joined {sources : List Text} (h : History sources s) {first second : Text}
    {program program' : List Stmt} (hc : compile s.setup.depth first = .ok program)
    (hc' : compile s.setup.depth second = .ok program') (hne : program ≠ [])
    (hopen : first.EndsOpen) (hthrough : s.RunsThrough first) :
    let t := (s.run first).2
    let both := s.run (first.joined second)
    (∃ kinds,
      (t.run second).2.Like (s.joining id first second) kinds both.2 ∧
      (t.run second).2.globals.Like (s.joining id first second) kinds .outside both.2.globals ∧
      both.2.shown = (t.run second).2.shown ∧
      ((t.run second).1.Like (s.joining id first second) kinds both.1 ∨
        ¬ t.RunsToAnswer second ∧ (t.run second).1 = .success .null ∧
          (s.run first).1.Like (s.joining id first second) kinds both.1)) ∧
    (∀ f, ∃ kinds, (t.runMoved f second).2.Like (s.joining f first second) kinds both.2) ∧
    ∀ cause σ, (t.run second).1 = .failure (.runtime cause (some σ)) →
      σ.In second ∧ t.FaultMoves second cause σ ∧
          both.1 = .failure (.runtime cause (some (σ.behind first))) ∨
        t.world.HoldsSpan σ ∧ t.FaultStays second cause σ ∧
          both.1 = .failure (.runtime cause (some σ)) := by
  intro t both
  have hc'' : compile t.setup.depth second = .ok program' := by rwa [run_setup]
  refine ⟨?_, fun f => ?_, fun cause σ hf => ?_⟩
  · obtain ⟨kinds, hsession, hresult⟩ := like_joined h.sound hc hc' hne hopen hthrough id
    rw [runMoved_id, moveBlock_id] at hresult
    rw [runMoved_id] at hsession
    refine ⟨kinds, hsession, hsession.globals, hsession.shown rfl, ?_⟩
    rcases hresult with hlike | ⟨hnot, hnull⟩
    · exact .inl hlike
    · refine .inr ⟨?_, hnull⟩
      rintro ⟨_, hagain, hanswers⟩
      obtain rfl := Except.ok.inj (hagain.symm.trans hc'')
      exact hnot hanswers
  · obtain ⟨kinds, hsession, -⟩ := like_joined h.sound hc hc' hne hopen hthrough f
    exact ⟨kinds, hsession⟩
  · have hboth {σ' : Span} (hf' : (t.runMoved (Span.behind first) second).1 =
        .failure (.runtime cause (some σ'))) : both.1 = .failure (.runtime cause (some σ')) :=
      fault_joined h.sound hc hc' hne hopen hthrough hf'
    rcases faultMoves_or_faultStays (h.run first) hc'' hf with ⟨hin, hmoves⟩ | ⟨hheld, hstays⟩
    · exact .inl ⟨hin, hmoves, hboth (hmoves (Span.behind first))⟩
    · exact .inr ⟨hheld, hstays, hboth (hstays (Span.behind first))⟩

theorem endsOpen_definition : Text.EndsOpen "fn f(){x}" := by
  intro tokens h
  have hscan : scan "fn f(){x}" = .ok [⟨.symbol .fn, ⟨0, 2, 1⟩⟩, ⟨.identifier "f", ⟨3, 4, 1⟩⟩,
      ⟨.symbol .leftParen, ⟨4, 5, 1⟩⟩, ⟨.symbol .rightParen, ⟨5, 6, 1⟩⟩,
      ⟨.symbol .leftBrace, ⟨6, 7, 1⟩⟩, ⟨.identifier "x", ⟨7, 8, 1⟩⟩,
      ⟨.symbol .rightBrace, ⟨8, 9, 1⟩⟩, ⟨.endOfInput, ⟨9, 9, 1⟩⟩] := by cbv
  obtain rfl := Except.ok.inj (h.symm.trans hscan)
  simp

theorem compile_definition : compile withoutBootstrap.setup.depth "fn f(){x}" =
    .ok [.function "f" [] faultyBody false ⟨0, 2, 1⟩] := by
  rw [depth_withoutBootstrap]
  cbv

theorem compile_call : compile withoutBootstrap.setup.depth "f()" =
    .ok [.expression (.call (.variable "f" ⟨0, 1, 1⟩) [] ⟨1, 2, 1⟩) ⟨0, 1, 1⟩] := by
  rw [depth_withoutBootstrap]
  cbv

theorem runsThrough_definition : withoutBootstrap.RunsThrough "fn f(){x}" := by
  have hstep (w : World) : (Run.execute withoutBootstrap.setup withoutBootstrap.setup.depth
      withoutBootstrap.root (.function "f" [] faultyBody false ⟨0, 2, 1⟩)).run w =
        (.ok .normal, { w with
          scopes := w.scopes.bind 0 "f"
            (.function (.closure ⟨w.closures, some "f", [], faultyBody, ⟨0, []⟩⟩))
          closures := w.closures + 1 }) := by
    rw [depth_withoutBootstrap, root_withoutBootstrap]
    rfl
  exact ⟨_, _, compile_definition, .step nofun (hstep _) .nil⟩

theorem compile_x : compile withoutBootstrap.setup.depth "x" =
    .ok [.expression (.variable "x" ⟨0, 1, 1⟩) ⟨0, 1, 1⟩] := by
  rw [depth_withoutBootstrap]
  cbv

theorem faultMoves_x :
    afterDefinition.FaultMoves "x" (.undefinedVariable "x") ⟨0, 1, 1⟩ := by
  intro f
  have hcompile : compile afterDefinition.setup.depth "x" = _ :=
    depth_afterDefinition ▸ depth_withoutBootstrap ▸ compile_x
  have hunbound := get?_of_not_has (s := (afterDefinition.announced "x").world.scopes)
    bindings_afterDefinition.2
  have hrun : ((Run.program afterDefinition.setup ⟨0, []⟩ .null
      (moveBlock f [.expression (.variable "x" ⟨0, 1, 1⟩) ⟨0, 1, 1⟩])).run
        (afterDefinition.announced "x").world).1 =
          .error (.fault (.undefinedVariable "x") (some (f ⟨0, 1, 1⟩))) := by
    simp only [moveBlock, Stmt.moved, Expr.moved, Run.program, depth_afterDefinition, Run.evaluate,
      Run.run_bind]
    rw [Run.run_lookup_of_not_bound hunbound]
  rw [runMoved_of_compile_ok f hcompile, runStatements_of_run (s := afterDefinition.announced "x")
    root_afterDefinition (Prod.ext hrun rfl)]
  rfl

/-- Behind a definition, a name without a binding is at fault eleven bytes and one line further down;
and a call that fails in the function is still blamed on the definition. -/
theorem run_joined_definition :
    let s := withoutBootstrap
    let first : Text := "fn f(){x}"
    first.EndsOpen ∧ s.RunsThrough first ∧
      (((s.run first).2.run "x").1 =
          .failure (.runtime (.undefinedVariable "x") (some ⟨0, 1, 1⟩)) ∧
        (s.run (first.joined "x")).1 =
          .failure (.runtime (.undefinedVariable "x") (some ⟨11, 12, 2⟩))) ∧
      ((s.run first).2.run "f()").1 =
          .failure (.runtime (.undefinedVariable "x") (some ⟨7, 8, 1⟩)) ∧
        (s.run (first.joined "f()")).1 =
          .failure (.runtime (.undefinedVariable "x") (some ⟨7, 8, 1⟩)) := by
  intro s first
  have hx : (afterDefinition.run "x").1 =
      .failure (.runtime (.undefinedVariable "x") (some ⟨0, 1, 1⟩)) := by
    have hfails := faultMoves_x id
    rwa [runMoved_id] at hfails
  obtain ⟨-, -, hfaults⟩ := run_joined (History.fresh quiet .bare) compile_definition compile_x
    (List.cons_ne_nil _ _) endsOpen_definition runsThrough_definition
  obtain ⟨-, -, hfaults'⟩ := run_joined (History.fresh quiet .bare) compile_definition compile_call
    (List.cons_ne_nil _ _) endsOpen_definition runsThrough_definition
  refine ⟨endsOpen_definition, runsThrough_definition, ⟨hx, ?_⟩, run_afterDefinition, ?_⟩
  · rcases hfaults _ _ hx with ⟨-, -, hboth⟩ | ⟨-, hstays, -⟩
    · exact hboth
    · exact absurd hstays faultMoves_x.not_faultStays
  · rcases hfaults' _ _ run_afterDefinition with ⟨hin, -⟩ | ⟨-, -, hboth⟩
    · exact absurd hin (by decide)
    · exact hboth

end Session

end HostScript
