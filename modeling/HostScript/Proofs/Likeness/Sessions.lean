import HostScript.Proofs.Likeness.Evaluation
import HostScript.Proofs.Session.Blame

/-!
# Scripts that are alike

In every state that a session comes to, the functions that it holds refer to scopes that are there
(`Session.History.sound`), so the state is like itself. In sessions that are alike, two scripts that
are alike do the same, but for what their likeness lets differ (`Session.Like.run`). Scripts are
announced by their length, so announcements are left out of what is compared.
-/

namespace HostScript

variable {b : Likeness} {kinds : List ScopeKind}

/-! ## States and themselves -/

/-- Every scope that a function refers to is there. -/
def World.Sound (w : World) : Prop :=
  ∀ c, w.Holds c → ∀ id ∈ c.env.path, id < w.scopes.frames.size

/-- The kinds of scopes where no parameter has another name yet. -/
def ScopeKind.none (w : World) : List ScopeKind := List.replicate w.scopes.frames.size .outside

theorem Env.standsIn_outside {w : World} {env : Env}
    (h : ∀ id ∈ env.path, id < w.scopes.frames.size) :
    env.StandsIn (ScopeKind.none w) .outside :=
  fun id hid => by simp [ScopeKind.none, h id hid]

/-- A world is like itself if its functions refer to scopes that are there, and have spans that may
stay as they are. -/
theorem World.Sound.like_self {w : World} (hs : w.Sound)
    (hcode : ∀ c, w.Holds c → BlockSpansIn b.Same c.body) : w.Like b (ScopeKind.none w) w := by
  have hvalue (p : Place) (v : Value) (hv : v ∈ w.members p) : v.Like b (ScopeKind.none w) v := by
    cases v with
    | function f =>
      cases f with
      | native f => rfl
      | closure c =>
        have hc : w.Holds c := ⟨p, hv⟩
        refine ⟨c, rfl, rfl, rfl, rfl, .outside, .outside, Env.standsIn_outside (hs c hc),
          .same _ _, fun _ _ => trivial, (Likeness.map_name_outside _).symm, ?_⟩
        exact BlockLike.refl c.body (hcode c hc)
    | _ => rfl
  have hentries (p : Place) (entries : List (Text × Value))
      (h : ∀ e ∈ entries, e.2 ∈ w.members p) :
      List.Forall₂ (EntryLike b (ScopeKind.none w) .outside) entries entries :=
    List.forall₂_same.mpr fun e he => ⟨trivial, rfl, hvalue p e.2 (h e he)⟩
  have houtside {id : ScopeId} {k : ScopeKind} (hk : (ScopeKind.none w)[id]? = some k) :
      k = .outside :=
    List.eq_of_mem_replicate (List.mem_of_getElem? hk)
  refine ⟨⟨?_, ?_, fun {id k} hk => ?_, fun {id} hk => nomatch houtside hk⟩,
    ⟨rfl, rfl, fun id => ?_, fun id => ?_⟩, rfl, rfl, rfl, rfl, fun _ k hk => ?_⟩
  · simp [ScopeKind.none]
  · simp [ScopeKind.none]
  · obtain rfl := houtside hk
    exact hentries (.scope id) _ fun e he => List.mem_map.mpr ⟨e, he, rfl⟩
  · exact List.forall₂_same.mpr fun v hv => hvalue (.composite (.array id)) v hv
  · exact hentries (.composite (.table id)) _ fun e he => List.mem_map.mpr ⟨e, he, rfl⟩
  · exact List.eq_of_mem_replicate hk

theorem exists_of_mem_forall₂ {α β : Type} {r : α → β → Prop} {xs : List α} {ys : List β}
    (h : List.Forall₂ r xs ys) {x : α} (hx : x ∈ xs) : ∃ y, r x y := by
  induction h with
  | nil => exact absurd hx List.not_mem_nil
  | cons hfirst _ ih =>
    rcases List.mem_cons.mp hx with rfl | hx
    · exact ⟨_, hfirst⟩
    · exact ih hx

/-- What is held in one of two worlds that are alike has its like. -/
theorem World.Like.of_mem_members {w w' : World} (hw : w.Like b kinds w') {p : Place} {v : Value}
    (hv : v ∈ w.members p) : ∃ v', v.Like b kinds v' := by
  have hentry {region : Region} {d d' : Dict Value} (hd : d.Like b kinds region d')
      (hv : v ∈ d.entries.map (·.2)) : ∃ v', v.Like b kinds v' := by
    obtain ⟨e, he, rfl⟩ := List.mem_map.mp hv
    obtain ⟨e', hlike⟩ := exists_of_mem_forall₂ hd he
    exact ⟨e'.2, hlike.2.2⟩
  cases p with
  | scope id =>
    have hlt : id < w.scopes.frames.size := by
      by_contra hge
      rw [World.members, Scopes.members_of_size_le (Nat.le_of_not_lt hge)] at hv
      exact List.not_mem_nil hv
    rw [hw.scopes.size] at hlt
    exact hentry (hw.scopes.bindings (List.getElem?_eq_getElem hlt)) hv
  | composite c =>
    cases c with
    | array id => exact exists_of_mem_forall₂ (hw.heap.array id) hv
    | table id => exact hentry (hw.heap.table id) hv

/-- Where no parameter has another name, functions that are alike refer to scopes that are there. -/
theorem World.Like.sound {w w' : World} (hw : w.Like b kinds w') (hold : b.old = none) :
    w.Sound := by
  rintro c ⟨p, hp⟩ id hid
  obtain ⟨v', d, -, hc⟩ := hw.of_mem_members hp
  obtain ⟨region, -, henv, -⟩ := hc.code
  obtain rfl := hw.eq_outside hold henv
  obtain ⟨hlt, -⟩ := List.getElem?_eq_some_iff.mp (henv id hid)
  exact hw.scopes.size ▸ hlt

/-! ## Results -/

/-- A record that announces a script, by its length. -/
def Event.announces : Event → Bool
  | .logged r => r.level = .debug && r.logger = LogRecord.sessionLogger
  | _ => false

/-- What can be seen of a script besides its length. -/
def Event.shows (e : Event) : Bool := !e.announces

theorem Event.shows_called (c : HostCall) : (Event.called c).shows = true := rfl

/-- Faults that are alike: the same, but for the place that a fault of running is blamed on. -/
def ScriptFault.Like (b : Likeness) : ScriptFault → ScriptFault → Prop
  | .runtime cause span, f => ∃ span', f = .runtime cause span' ∧ Option.Rel b.span span span'
  | f, f' => f' = f

/-- Results that are alike. -/
def RunResult.Like (b : Likeness) (kinds : List ScopeKind) : RunResult → RunResult → Prop
  | .success v, r => ∃ v', r = .success v' ∧ v.Like b kinds v'
  | .failure f, r => ∃ f', r = .failure f' ∧ f.Like b f'
  | r, r' => r' = r

/-- Outcomes that are alike give results that are. -/
theorem OutcomeLike.resultOf {r r' : Except Halt Value}
    (h : OutcomeLike b (Value.Like b kinds) r r') :
    (Session.resultOf r).Like b kinds (Session.resultOf r') := by
  cases r with
  | ok v =>
    cases r' with
    | ok v' => exact ⟨v', rfl, h⟩
    | error halt => exact h.elim
  | error halt =>
    cases r' with
    | ok v' => exact h.elim
    | error halt' =>
      cases halt with
      | fault cause span =>
        obtain ⟨span', rfl, hspan⟩ := h
        exact ⟨_, rfl, span', rfl, hspan⟩
      | internal cause =>
        obtain rfl : halt' = _ := h
        exact ⟨_, rfl, rfl⟩
      | tooDeep =>
        obtain rfl : halt' = _ := h
        exact ⟨_, rfl, rfl⟩
      | _ =>
        obtain rfl : halt' = _ := h
        rfl

/-- Results that are alike are internal failures together. -/
theorem RunResult.Like.eq_internal {r r' : RunResult} (h : r.Like b kinds r')
    {cause : InternalFault} : r' = .failure (.internal cause) ↔ r = .failure (.internal cause) := by
  cases r with
  | success v =>
    obtain ⟨v', rfl, -⟩ := h
    simp
  | failure f =>
    obtain ⟨f', rfl, hf⟩ := h
    cases f with
    | runtime c span =>
      obtain ⟨span', rfl, -⟩ := hf
      simp
    | _ =>
      obtain rfl : f' = _ := hf
      rfl
  | _ =>
    obtain rfl : r' = _ := h
    rfl

namespace Session

/-! ## Sessions that are sound -/

/-- The functions of a session refer to scopes that are there, and so does the session. -/
structure Sound (s : Session) : Prop where
  root : ∀ id ∈ s.root.path, id < s.world.scopes.frames.size
  held : s.world.Sound

/-- The likeness of a run and itself. -/
def itself : Likeness := ⟨none, [], fun _ _ => True, fun _ => true, fun _ => rfl⟩

theorem sound_fresh (config : Config) (around : Surroundings) : (fresh config around).Sound where
  root id hid := by
    obtain rfl := List.mem_singleton.mp hid
    have hsize : (bindNatives (natives around.link) ⟨#[.empty]⟩ ⟨0, []⟩).frames.size = 1 :=
      size_bindNatives _ _ _
    exact Nat.lt_of_lt_of_eq Nat.one_pos hsize.symm
  held c hc := absurd hc (not_holds_fresh config around c)

theorem Sound.runStatements {s : Session} (h : s.Sound) (statements : List Stmt) :
    (s.runStatements statements).2.Sound := by
  have hself : s.world.Like itself (ScopeKind.none s.world) s.world :=
    h.held.like_self fun _ _ _ _ => trivial
  have hrun := Run.lockstep_program (b := itself) s.setup (Env.standsIn_outside h.root)
    (Value.like_null.mpr rfl) (BlockLike.refl statements fun _ _ => trivial)
  obtain ⟨more, hmore, hworld, -⟩ := hrun s.world s.world hself
  refine ⟨fun id hid => ?_, hworld.sound rfl⟩
  change id < ((Run.program s.setup s.root .null statements).run s.world).2.scopes.frames.size
  rw [hworld.scopes.size]
  have hsize : (ScopeKind.none s.world).length = s.world.scopes.frames.size := by
    simp [ScopeKind.none]
  exact Nat.lt_of_lt_of_le (hsize ▸ h.root id hid) hmore.length_le

theorem Sound.noteResult {s : Session} (h : s.Sound) (result : RunResult) :
    (s.noteResult result).Sound := by
  unfold Session.noteResult
  split
  · exact ⟨h.root, h.held⟩
  · exact h

theorem Sound.run {s : Session} (h : s.Sound) (source : Text) : (s.run source).2.Sound := by
  have hannounced : (s.announced source).Sound := ⟨h.root, h.held⟩
  cases hr : compile s.setup.depth source with
  | ok statements =>
    rw [run_of_compile_ok hr]
    exact (hannounced.runStatements statements).noteResult _
  | error fault =>
    rw [run_of_compile_error hr]
    exact hannounced.noteResult _

/-- A session that something has run in is sound. -/
theorem History.sound {sources : List Text} {s : Session} (h : History sources s) : s.Sound := by
  induction h with
  | fresh config around => exact sound_fresh config around
  | run source _ ih => exact ih.run source
  | log level message _ ih => exact ⟨ih.root, ih.held⟩
  | closeLink _ ih => exact ⟨ih.root, ih.held⟩

/-! ## Sessions that are alike -/

/-- Sessions that are alike differ in their worlds only. -/
structure Like (b : Likeness) (kinds : List ScopeKind) (s s' : Session) : Prop where
  setup : s'.setup = s.setup
  root : s'.root = s.root
  stands : s.root.StandsIn kinds .outside
  world : s.world.Like b kinds s'.world

/-- What has happened in a session, but for the announcements of scripts. -/
def shown (s : Session) : List Event := s.world.events.toList.filter Event.shows

variable {s s' : Session}

/-- A sound session is like itself, if the code that it holds has spans that may stay. -/
theorem Sound.like_self (h : s.Sound) (hcode : ∀ c, s.world.Holds c → BlockSpansIn b.Same c.body) :
    s.Like b (ScopeKind.none s.world) s :=
  ⟨rfl, rfl, Env.standsIn_outside h.root, h.held.like_self hcode⟩

/-- The bindings of the root scope are alike. -/
theorem Like.globals (h : s.Like b kinds s') : s.globals.Like b kinds .outside s'.globals := by
  have hroot : kinds[s.root.here]? = some .outside := h.stands s.root.here List.mem_cons_self
  have hbindings := h.world.scopes.bindings hroot
  unfold Session.globals
  rwa [h.root]

/-- The same has happened. -/
theorem Like.shown (h : s.Like b kinds s') (hshows : b.shows = Event.shows) : s'.shown = s.shown := by
  unfold Session.shown
  rw [← hshows]
  exact h.world.events

/-- Announcements may differ if they do not show. -/
theorem Like.announced (h : s.Like b kinds s') (hshows : b.shows = Event.shows)
    (source source' : Text) : (s.announced source).Like b kinds (s'.announced source') where
  setup := h.setup
  root := h.root
  stands := h.stands
  world := h.world.noted <| by
    rw [hshows]
    rfl

/-- A result is noted in the same way as one that is like it. -/
theorem Like.noteResult (h : s.Like b kinds s') {result result' : RunResult}
    (hresult : result.Like b kinds result') :
    (s.noteResult result).Like b kinds (s'.noteResult result') := by
  unfold Session.noteResult
  split
  · rw [hresult.eq_internal.mpr rfl]
    exact ⟨h.setup, h.root, h.stands, h.world.noted rfl⟩
  · next hne =>
    split
    · exact absurd (hresult.eq_internal.mp rfl) (hne _)
    · exact h

/-- Runs statements with a value at hand, which is the result if they have none. -/
def resume (s : Session) (v : Value) (statements : List Stmt) : RunResult × Session :=
  let ended := (Run.program s.setup s.root v statements).run s.world
  (resultOf ended.1, { s with world := ended.2 })

theorem runStatements_eq_resume (s : Session) (statements : List Stmt) :
    s.runStatements statements = s.resume .null statements := rfl

/-- Statements that are alike do the same with values at hand that are. -/
theorem Like.resume (h : s.Like b kinds s') {v v' : Value} (hv : v.Like b kinds v')
    {program program' : List Stmt} (hp : BlockLike b .outside program program') :
    ∃ more, kinds <+: more ∧ (s.resume v program).1.Like b more (s'.resume v' program').1 ∧
      (s.resume v program).2.Like b more (s'.resume v' program').2 := by
  have hrun := Run.lockstep_program s.setup h.stands hv hp
  obtain ⟨more, hmore, hworld, hout⟩ := hrun s.world s'.world h.world
  simp only [Session.resume, h.setup, h.root]
  exact ⟨more, hmore, hout.resultOf, rfl, rfl, h.stands.mono hmore, hworld⟩

theorem Like.runStatements (h : s.Like b kinds s') {program program' : List Stmt}
    (hp : BlockLike b .outside program program') :
    ∃ more, kinds <+: more ∧
      (s.runStatements program).1.Like b more (s'.runStatements program').1 ∧
      (s.runStatements program).2.Like b more (s'.runStatements program').2 :=
  h.resume (Value.like_null.mpr rfl) hp

/-- Scripts that are alike do the same in sessions that are alike, but for being announced. -/
theorem Like.run (h : s.Like b kinds s') (hshows : b.shows = Event.shows)
    {source source' : Text} {program program' : List Stmt}
    (hc : compile s.setup.depth source = .ok program)
    (hc' : compile s.setup.depth source' = .ok program')
    (hprogram : BlockLike b .outside program program') :
    ∃ more, kinds <+: more ∧ (s.run source).1.Like b more (s'.run source').1 ∧
      (s.run source).2.Like b more (s'.run source').2 := by
  rw [← h.setup] at hc'
  rw [run_of_compile_ok hc, run_of_compile_ok hc']
  obtain ⟨more, hmore, hresult, hsession⟩ :=
    (h.announced hshows source source').runStatements hprogram
  exact ⟨more, hmore, hresult, hsession.noteResult hresult⟩

end Session

end HostScript
