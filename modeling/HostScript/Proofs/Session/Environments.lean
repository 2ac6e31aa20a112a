import HostScript.Proofs.Run.Endings
import HostScript.Proofs.Session.Bindings

/-!
# Environments of a session

While a session goes on, some environments are in use, some values are at hand, and from these other
values can be reached, among them functions with environments of their own (`Snapshot.Live`). At
every moment all these environments lead out to the root of the session, so what the root binds is
found from each of them, and what a script exports stays there for later scripts
(`Session.environments_lead_out`).
-/

namespace HostScript

open Run

variable {w : World} {e : Env} {root id : ScopeId} {name : Name}

/-! ## Finding names -/

/-- A name is found in a scope of an environment: none of the scopes nearer binds it. -/
structure World.FindsIn (w : World) (e : Env) (name : Name) (id : ScopeId) : Prop where
  nearest : ∃ inner outer, e.path = inner ++ id :: outer ∧ ∀ i ∈ inner, name ∉ w.names i
  binds : name ∈ w.names id
  owner : w.scopes.owner? name e.path = some id
  lookup : ∃ v, (w.scopes.bindings id).get? name = some v ∧
    ∀ span, (Run.lookup e name span).run w = (.ok v, w)

/-- The scopes of an environment, from the inside out, are there, none comes twice, and they end in
the root. A name that the root binds is found in the root, unless a scope nearer binds it, and in
the nearest one then. -/
structure World.LeadsOut (w : World) (root : ScopeId) (e : Env) : Prop where
  there : ∀ id ∈ e.path, id < w.next
  nodup : e.path.Nodup
  ends : e.path.getLast? = some root
  outermost : e.root = root
  finds : ∀ name ∈ w.names root, ∃ id ∈ e.path, w.FindsIn e name id
  unshadowed : ∀ name ∈ w.names root, (∀ id ∈ e.path, id ≠ root → name ∉ w.names id) →
    w.FindsIn e name root

/-- What some scope of an environment binds is found. -/
theorem World.exists_findsIn (hid : id ∈ e.path) (hname : name ∈ w.names id) :
    ∃ id ∈ e.path, w.FindsIn e name id := by
  have hsome : (w.scopes.owner? name e.path).isSome :=
    List.find?_isSome.mpr ⟨id, hid, (Dict.has_iff_mem_keys _ _).mpr hname⟩
  obtain ⟨owner, howner⟩ := Option.isSome_iff_exists.mp hsome
  obtain ⟨hbinds, inner, outer, hpath, hinner⟩ := List.find?_eq_some_iff_append.mp howner
  obtain ⟨v, hv⟩ := Option.isSome_iff_exists.mp hbinds
  have hget : w.scopes.get? e name = some v := by rw [Scopes.get?, howner]; exact hv
  refine ⟨owner, Scopes.owner?_mem howner, ⟨inner, outer, hpath, fun i hi hmem => ?_⟩,
    (Dict.has_iff_mem_keys _ _).mp hbinds, howner, v, hv, run_lookup_of_get? hget⟩
  have hnot := hinner i hi
  rw [(Dict.has_iff_mem_keys _ _).mpr hmem] at hnot
  cases hnot

theorem Env.getLast?_path (e : Env) : e.path.getLast? = some e.root := by
  rw [path, List.getLast?_cons, root]

theorem World.leadsOut_of_rooted (he : (rooted root).env w e) : w.LeadsOut root e := by
  have hfinds (name : Name) (hname : name ∈ w.names root) :
      ∃ id ∈ e.path, w.FindsIn e name id :=
    w.exists_findsIn (he.root ▸ e.root_mem_path) hname
  refine ⟨he.lt, he.younger.imp Nat.ne_of_gt, he.root ▸ e.getLast?_path, he.root, hfinds, ?_⟩
  intro name hname hinner
  obtain ⟨id, hid, hfound⟩ := hfinds name hname
  by_cases hroot : id = root
  · exact hroot ▸ hfound
  · exact absurd hfound.binds (hinner id hid hroot)

/-! ## Exports -/

namespace Run

variable {setup : Setup} {env : Env} {t : Stmt} {m : Stage}

/-- The value that an export binds: that of its expression, or a function that has captured the
environment. -/
def Stage.Exports (setup : Setup) (env : Env) (m : Stage) : Stmt → Value → Prop
  | .publish _ e _, v => ∃ depth w, m.depth = depth + 1 ∧
    (evaluate setup depth env e).run m.world = (.ok v, w)
  | .function name parameters body true _, v =>
    ∃ id, v = .function (.closure ⟨id, some name, parameters, body, env⟩)
  | _, _ => False

/-- An export that comes to its end has bound its name in the root. -/
theorem exists_of_exports (hm : (rooted root).Holds m) (hfinishes : m.Finishes setup env t)
    (hexports : t.exports? = some name) : ∃ v, m.Exports setup env t v ∧
      ((m.after setup).scopes.bindings root).get? name = some v := by
  obtain ⟨depth, task, w⟩ := m
  obtain ⟨rfl, w', hrun⟩ := hfinishes
  have he : env.Rooted root w.next := hm.task
  have hget {u : World} (hu : w.next ≤ u.next) (v : Value) :
      ((u.bind env.root name v).scopes.bindings root).get? name = some v := by
    rw [he.root, World.bindings_bind_self (Nat.lt_of_lt_of_le hm.world.1 hu), Dict.get?_put_self]
  change ∃ v, _ ∧ (((execute setup depth env t).run w).2.scopes.bindings root).get? name = some v
  cases depth with
  | zero => cases hrun
  | succ depth =>
    unfold Stmt.exports? at hexports
    split at hexports
    · next e span =>
      cases hexports
      rcases hevaluate : (evaluate setup depth env e).run w with ⟨halt | v, u⟩
      · rw [execute, run_bind, hevaluate] at hrun
        cases hrun
      · have hat := Invariant.leadsAt_all (kept_rooted root setup fun _ => True) depth
        have hlater := ((hat.evaluate trivial hm.world he).of_run hevaluate).1
        refine ⟨v, ⟨depth, u, rfl, hevaluate⟩, ?_⟩
        rw [execute, run_bind_of_ok hevaluate]
        exact hget hlater.below v
    · cases hexports
      have hnew := hget (u := { w with closures := w.closures + 1 }) (Nat.le_refl _)
      exact ⟨_, ⟨w.closures, rfl⟩, hnew _⟩
    · cases hexports

end Run

/-! ## Snapshots -/

/-- What there is at a moment of a session: the world, the environments in use and the values at
hand. -/
structure Snapshot where
  world : World
  inUse : Env → Prop
  atHand : Value → Prop

namespace Snapshot

/-- The values that can be reached at a moment, from those at hand and from the scopes in use,
through scopes, arrays and tables. -/
inductive Reaches (x : Snapshot) : Value → Prop
  | atHand {v : Value} : x.atHand v → Reaches x v
  | inUse {e : Env} {id : ScopeId} {v : Value} :
      x.inUse e → id ∈ e.path → v ∈ x.world.members (.scope id) → Reaches x v
  | member {u v : Value} {p : Place} :
      Reaches x u → p ∈ u.places → v ∈ x.world.members p → Reaches x v

/-- An environment is in use at a moment, or a function has captured it that can be reached. -/
inductive Live (x : Snapshot) : Env → Prop
  | inUse {e : Env} : x.inUse e → Live x e
  | captured {c : Closure} : x.Reaches (.function (.closure c)) → Live x c.env

/-- An invariant holds at a moment. -/
structure Holds (J : Invariant) (x : Snapshot) : Prop where
  world : J.world x.world
  env : ∀ e, x.inUse e → J.env x.world e
  value : ∀ v, x.atHand v → J.value x.world v

variable {x : Snapshot}

theorem Holds.reaches (hx : x.Holds (rooted root)) {v : Value} (hv : x.Reaches v) :
    (rooted root).value x.world v := by
  cases hv with
  | atHand hv => exact hx.value v hv
  | inUse _ _ hv => exact hx.world.2 _ v hv
  | member _ _ hv => exact hx.world.2 _ v hv

theorem Holds.leadsOut (hx : x.Holds (rooted root)) (he : x.Live e) :
    x.world.LeadsOut root e := by
  apply World.leadsOut_of_rooted
  cases he with
  | inUse he => exact hx.env e he
  | captured hc => exact (hx.reaches hc).2

end Snapshot

namespace Session

variable {J : Invariant} {s s' : Session} {sources : List Text} {source : Text} {m m₁ : Stage}
  {v : Value}

/-- The environments in use at a stage are those of the tasks that have led there, one inside the
other, and the root. -/
inductive InUse (s : Session) (source : Text) (m : Stage) : Env → Prop
  | root : InUse s source m s.root
  | task {m₀ : Stage} {e : Env} (h : s.During source m₀) (hwithin : Within s.setup m₀ m)
      (henv : m₀.task.env? = some e) : InUse s source m e

/-- The values at hand at a stage are those that the tasks that have led there are given, the
operands that they have evaluated before, and the result of the script so far. -/
inductive AtHand (s : Session) (source : Text) (m : Stage) : Value → Prop
  | given {m₀ : Stage} {v : Value} (h : s.During source m₀) (hwithin : Within s.setup m₀ m)
      (hv : v ∈ m₀.task.values) : AtHand s source m v
  | operand {m₀ m₁ : Stage} {values : List Value} {v : Value} (h : s.During source m₀)
      (hawaits : Awaits s.setup m₀ values m₁) (hwithin : Within s.setup m₁ m) (hv : v ∈ values) :
      AtHand s source m v
  | result {before rest : List Stmt} {t : Stmt} {w : World} {v : Value}
      (hcompile : compile s.setup.depth source = .ok (before ++ t :: rest))
      (hpasses : Passes s.setup s.root (s.announced source).world before w)
      (hrun : (program s.setup s.root .null before).run (s.announced source).world = (.ok v, w))
      (hwithin : Within s.setup (.ofStmt s.setup s.root w t) m) : AtHand s source m v

/-- While a session waits, its root is in use, and no value is at hand. -/
def waiting (s : Session) : Snapshot := ⟨s.world, (· = s.root), fun _ => False⟩

/-- The moments of a session: while it waits, when it has run a source, which may have given a
result, and while it runs one, when a task begins and when a task has ended. -/
inductive Has (s : Session) : Snapshot → Prop
  | waits : Has s s.waiting
  | gives (source : Text) :
      Has s ⟨(s.run source).2.world, (· = s.root), fun v => (s.run source).1 = .success v⟩
  | begins {source : Text} {m : Stage} (h : s.During source m) :
      Has s ⟨m.world, s.InUse source m, s.AtHand source m⟩
  | ends {source : Text} {m : Stage} (h : s.During source m) :
      Has s ⟨m.after s.setup, s.InUse source m,
        fun v => s.AtHand source m v ∨ v ∈ m.results s.setup⟩

/-- A session comes out of another one by running scripts. -/
inductive Follows (s : Session) : Session → Prop
  | refl : Follows s s
  | run {s' : Session} (source : Text) : Follows s s' → Follows s (s'.run source).2
  | log {s' : Session} (level : LogLevel) (message : Text) :
      Follows s s' → Follows s (s'.log level message)
  | closeLink {s' : Session} : Follows s s' → Follows s s'.closeLink

theorem resultOf_eq_success {r : Except Halt Value} : resultOf r = .success v ↔ r = .ok v := by
  rcases r with (_ | _ | _ | _ | _) | v <;> simp [resultOf]

/-! ## What holds at every moment -/

section

variable (hJ : J.Kept s.setup fun _ => True) (hout : Aloof J) (hs : Ready J s)
include hJ hout hs

theorem later_announced (source : Text) :
    J.Later s.world (s.announced source).world ∧ J.env (s.announced source).world s.root := by
  have hlater : J.Later s.world (s.announced source).world := later_log hout hs.world _ _
  exact ⟨hlater, hJ.env_mono hlater.below hs.env⟩

/-- When a task has ended, later worlds come to pass until the session has run the source. -/
theorem later_of_during (h : s.During source m) :
    J.Later (m.after s.setup) (s.run source).2.world := by
  obtain ⟨statements, hcompile, hcomes⟩ := h
  obtain ⟨hlog, henv⟩ := later_announced hJ hout hs source
  have hprogram := Invariant.later_of_comes hJ hlog.world henv hcomes
  rw [run_of_compile_ok hcompile]
  refine hJ.later_trans hprogram ?_
  exact later_noteResult (s := ((s.announced source).runStatements statements).2) hJ.toOrdered
    hout hprogram.world _

theorem later_after (h : s.During source m) : J.Later m.world (m.after s.setup) :=
  (holds_of_during hJ hout hs h).2.later_after hJ

theorem env_of_inUse (h : s.During source m) (he : s.InUse source m e) : J.env m.world e := by
  cases he with
  | root => exact hJ.env_mono (holds_of_during hJ hout hs h).1 hs.env
  | @task m₀ e h₀ hwithin henv =>
    have hholds := (holds_of_during hJ hout hs h₀).2
    have hbelow := (hholds.below_within hJ hwithin).1
    apply hJ.env_mono hbelow
    obtain ⟨depth, task, w⟩ := m₀
    cases task with
    | evaluate env e => exact Option.some.inj henv ▸ hholds.task
    | call f values span => cases henv
    | execute env t => exact Option.some.inj henv ▸ hholds.task

theorem value_of_atHand (hv : s.AtHand source m v) : J.value m.world v := by
  cases hv with
  | @given m₀ v h₀ hm hv =>
    have hholds := (holds_of_during hJ hout hs h₀).2
    apply hJ.value_mono (hholds.below_within hJ hm).1
    obtain ⟨depth, task, w⟩ := m₀
    cases task with
    | evaluate env e => exact absurd hv List.not_mem_nil
    | call f values span =>
      rcases List.mem_cons.mp hv with rfl | hv
      · exact hholds.task.1
      · exact hholds.task.2 v hv
    | execute env t => exact absurd hv List.not_mem_nil
  | operand h₀ hawaits hm hv =>
    have hholds := (holds_of_during hJ hout hs h₀).2
    have hbegins := hholds.of_begins hJ hawaits.begins
    exact hJ.value_mono (hbegins.below_within hJ hm).1 (hholds.awaits hJ hawaits v hv)
  | @result before rest t w v hcompile hpasses hrun hm =>
    obtain ⟨hlog, henv⟩ := later_announced hJ hout hs source
    have hnull : J.value (s.announced source).world .null := hJ.plain fun _ => trivial
    obtain ⟨hlater, hv⟩ := (Invariant.leads_script hJ hlog.world henv hnull before).of_run hrun
    have hfirst : J.Holds (.ofStmt s.setup s.root w t) :=
      Invariant.holds_ofStmt hlater.world (hJ.env_mono hlater.below henv)
    have hbelow := (hfirst.below_within hJ hm).1
    rw [Stage.world_ofStmt] at hbelow
    exact hJ.value_mono hbelow hv

theorem value_of_run (h : (s.run source).1 = .success v) : J.value (s.run source).2.world v := by
  obtain ⟨hlog, henv⟩ := later_announced hJ hout hs source
  cases hcompile : compile s.setup.depth source with
  | error fault =>
    rw [run_of_compile_error hcompile] at h
    cases h
  | ok statements =>
    rw [run_of_compile_ok hcompile] at h ⊢
    have hnull : J.value (s.announced source).world .null := hJ.plain fun _ => trivial
    have hleads := Invariant.leads_script hJ hlog.world henv hnull statements
    have hv := hleads.result v (resultOf_eq_success.mp h)
    have hnote := later_noteResult (s := ((s.announced source).runStatements statements).2)
      hJ.toOrdered hout hleads.later.world ((s.announced source).runStatements statements).1
    exact hJ.value_mono hnote.below hv

/-- An invariant that holds of a session holds at all of its moments. -/
theorem holds_of_has {x : Snapshot} (hx : s.Has x) :
    J.below s.world x.world ∧ x.Holds J := by
  cases hx with
  | waits => exact ⟨hJ.refl _, hs.world, fun e he => he ▸ hs.env, nofun⟩
  | gives source =>
    have hlater := later_run hJ hout hs source
    refine ⟨hlater.below, hlater.world, ?_, fun v hv => value_of_run hJ hout hs hv⟩
    rintro e rfl
    exact hJ.env_mono hlater.below hs.env
  | begins h =>
    obtain ⟨hbelow, hholds⟩ := holds_of_during hJ hout hs h
    exact ⟨hbelow, hholds.world, fun e he => env_of_inUse hJ hout hs h he,
      fun v hv => value_of_atHand hJ hout hs hv⟩
  | ends h =>
    obtain ⟨hbelow, hholds⟩ := holds_of_during hJ hout hs h
    have hlater := later_after hJ hout hs h
    refine ⟨hJ.trans hbelow hlater.below, hlater.world, fun e he => ?_, fun v hv => ?_⟩
    · exact hJ.env_mono hlater.below (env_of_inUse hJ hout hs h he)
    · rcases hv with hv | hv
      · exact hJ.value_mono hlater.below (value_of_atHand hJ hout hs hv)
      · exact hholds.results hJ v hv

end

/-! ## Names in the root -/

/-- No scope loses a name by the moments of a session. -/
theorem names_prefix_of_has {x : Snapshot} (hx : s.Has x) (id : ScopeId) :
    s.world.names id <+: x.world.names id := by
  have hready : Ready (gains s.setup fun _ => True) s := ⟨trivial, trivial⟩
  exact names_prefix_of_gains (holds_of_has (kept_gains _ _) (aloof_gains _ _) hready hx).1 id

theorem names_prefix_of_during (h : s.During source m) (id : ScopeId) :
    (m.after s.setup).names id <+: (s.run source).2.world.names id := by
  have hready : Ready (gains s.setup fun _ => True) s := ⟨trivial, trivial⟩
  have hlater := later_of_during (kept_gains _ _) (aloof_gains _ _) hready h
  exact names_prefix_of_gains hlater.below id

theorem Follows.root_eq (h : s.Follows s') : s'.root = s.root := by
  induction h with
  | refl => rfl
  | run source _ ih => exact (run_root _ source).trans ih
  | log level message _ ih => exact ih
  | closeLink _ ih => exact ih

theorem Follows.names_prefix (h : s.Follows s') (id : ScopeId) :
    s.world.names id <+: s'.world.names id := by
  induction h with
  | refl => exact List.prefix_refl _
  | run source _ ih => exact ih.trans (names_prefix_of_has (.gives source) id)
  | log level message _ ih => exact ih
  | closeLink _ ih => exact ih

theorem History.follows (h : History sources s) (hfollows : s.Follows s') :
    ∃ sources', History sources' s' := by
  induction hfollows with
  | refl => exact ⟨sources, h⟩
  | run source _ ih => exact ih.imp' _ fun _ h' => h'.run source
  | log level message _ ih => exact ih.imp' _ fun _ h' => h'.log level message
  | closeLink _ ih => exact ih.imp' _ fun _ h' => h'.closeLink

/-- All environments lead out to the root at all moments of a session. -/
theorem History.leadsOut (h : History sources s) {x : Snapshot} (hx : s.Has x) (he : x.Live e) :
    x.world.LeadsOut s.root.here e :=
  (holds_of_has (kept_rooted _ _ _) (aloof_rooted _) h.rooted hx).2.leadsOut he

/-- What the root binds is found from all environments from then on. -/
theorem History.exists_findsIn (h : History sources s) (hname : name ∈ s.world.names s.root.here)
    (hfollows : s.Follows s') {x : Snapshot} (hx : s'.Has x) (he : x.Live e) :
    ∃ id ∈ e.path, x.world.FindsIn e name id := by
  obtain ⟨sources', h'⟩ := h.follows hfollows
  apply (h'.leadsOut hx he).finds
  rw [hfollows.root_eq]
  exact (names_prefix_of_has hx _).mem ((hfollows.names_prefix _).mem hname)

/-- Native functions come in behind the names that are bound already. -/
theorem mem_keys_bindNatives {natives : List Native} {scopes : Scopes Value} {env : Env}
    (hsize : env.here < scopes.frames.size)
    (h : name ∈ (scopes.bindings env.here).keys ∨ name ∈ natives.map Native.name) :
    name ∈ ((bindNatives natives scopes env).bindings env.here).keys := by
  induction natives generalizing scopes with
  | nil => exact h.resolve_right List.not_mem_nil
  | cons f natives ih =>
    have hsize' : env.here < (scopes.define env f.name (.function (.native f))).frames.size :=
      Nat.lt_of_lt_of_eq hsize Array.size_modify.symm
    rw [bindNatives, List.foldl_cons, ← bindNatives]
    refine ih hsize' ?_
    rw [Scopes.define, Scopes.bindings_bind, if_pos ⟨rfl, hsize⟩, Dict.keys_put]
    rw [List.map_cons, List.mem_cons] at h
    rcases h with hbound | rfl | hmem
    · left
      split
      · exact hbound
      · exact List.mem_append_left _ hbound
    · left
      split
      · assumption
      · exact List.mem_append_right _ (List.mem_singleton_self _)
    · exact .inr hmem

/-- All native functions are bound before anything has run. -/
theorem mem_names_fresh (config : Config) (around : Surroundings) {f : Native}
    (hf : f ∈ natives around.link) : f.name ∈ (fresh config around).world.names 0 := by
  have hsize : (⟨0, []⟩ : Env).here < (⟨#[.empty]⟩ : Scopes Value).frames.size := Nat.one_pos
  exact mem_keys_bindNatives hsize (.inr (List.mem_map_of_mem hf))

/-- All environments lead out to the root. At every moment of a session, while it waits and while a
script runs that may fault anywhere, the scopes of each environment that is in use, or that a
function has captured which can be reached, are there, none comes twice, and they end in the root,
around which there is none. So looking for a name comes to an end, and finds what the root binds
unless a scope nearer binds it. The root binds all native functions, and it keeps what it binds.
What is exported, in whichever scope, is bound in the root to its value, and is found in all scripts
that run later. -/
theorem environments_lead_out (h : History sources s) :
    s.root.outer = [] ∧
    (∀ x, s.Has x → ∀ e, x.Live e → x.world.LeadsOut s.root.here e) ∧
    (∀ config around, (fresh config around).Follows s → ∀ f ∈ natives around.link,
      f.name ∈ s.world.names s.root.here) ∧
    (∀ name ∈ s.world.names s.root.here, ∀ s', s.Follows s' → ∀ x, s'.Has x → ∀ e, x.Live e →
      ∃ id ∈ e.path, x.world.FindsIn e name id) ∧
    ∀ source m env t name, s.During source m → m.Finishes s.setup env t →
      t.exports? = some name →
        (∃ v, m.Exports s.setup env t v ∧
          ((m.after s.setup).scopes.bindings s.root.here).get? name = some v) ∧
        ∀ s', (s.run source).2.Follows s' → ∀ x, s'.Has x → ∀ e, x.Live e →
          ∃ id ∈ e.path, x.world.FindsIn e name id := by
  refine ⟨by rw [h.root], fun x hx e he => h.leadsOut hx he, ?_, ?_, ?_⟩
  · intro config around hfollows f hf
    rw [h.root]
    exact (hfollows.names_prefix 0).mem (mem_names_fresh config around hf)
  · intro name hname s' hfollows x hx e he
    exact h.exists_findsIn hname hfollows hx he
  · intro source m env t name hm hfinishes hexports
    have hholds := (holds_of_during (kept_rooted _ _ _) (aloof_rooted _) h.rooted hm).2
    obtain ⟨v, hv, hget⟩ := exists_of_exports hholds hfinishes hexports
    refine ⟨⟨v, hv, hget⟩, fun s' hfollows x hx e he => ?_⟩
    have hbound : name ∈ (m.after s.setup).names s.root.here := by
      rw [World.names, ← Dict.has_iff_mem_keys, Dict.has, hget, Option.isSome_some]
    have hname := (names_prefix_of_during hm s.root.here).mem hbound
    rw [← run_root s source] at hname
    exact (h.run source).exists_findsIn hname hfollows hx he

/-! ## A function that keeps a branch -/

/-- A script that declares a name in a branch and exports a function from there which uses it. -/
def capturing : Text := "if true\x7blet a=true export fn f()\x7ba\x7d\x7d"

def capturedDeclaration : Stmt := .declare "a" (.literal (.boolean true) ⟨14, 18, 1⟩) ⟨8, 11, 1⟩

def capturedBody : List Stmt := [.expression (.variable "a" ⟨33, 34, 1⟩) ⟨33, 34, 1⟩]

def exportedFunction : Stmt := .function "f" [] capturedBody true ⟨19, 25, 1⟩

def capturingBranch : Stmt := .branch (.literal (.boolean true) ⟨3, 7, 1⟩)
  [capturedDeclaration, exportedFunction] none ⟨0, 2, 1⟩

def afterCapturing : Session := (withoutBootstrap.run capturing).2

theorem compile_capturing :
    compile withoutBootstrap.setup.depth capturing = .ok [capturingBranch] := by
  rw [depth_withoutBootstrap]
  cbv

theorem begins_exportedFunction (setup : Setup) (depth : Nat) (w : World) :
    Begins setup ⟨depth + 3, .execute ⟨0, []⟩ capturingBranch, w⟩
      ⟨depth + 2, .execute ((⟨0, []⟩ : Env).enter w.next) exportedFunction,
        (w.push .empty).bind w.next "a" (.boolean true)⟩ := by
  have hcondition : ([.literal (.boolean true) ⟨3, 7, 1⟩].mapM
      (evaluate setup (depth + 2) ⟨0, []⟩)).run w = (.ok [.boolean true], w) := rfl
  have hbefore : (block (execute setup (depth + 2) ((⟨0, []⟩ : Env).enter w.next))
      [capturedDeclaration]).run (w.push .empty) =
        (.ok .normal, (w.push .empty).bind w.next "a" (.boolean true)) := rfl
  have htaken : (if (Value.boolean true).truthy then [capturedDeclaration, exportedFunction] else
      (none : Option (List Stmt)).getD []) = [capturedDeclaration] ++ exportedFunction :: [] := rfl
  exact .branch hcondition htaken hbefore

theorem next_announced_capturing : (withoutBootstrap.announced capturing).world.next = 1 := by
  decide +kernel

/-- The export begins, in the scope of the branch. -/
def insideCapturing : Stage :=
  ⟨1499, .execute ⟨1, [0]⟩ exportedFunction,
    ((withoutBootstrap.announced capturing).world.push .empty).bind 1 "a" (.boolean true)⟩

theorem during_insideCapturing : withoutBootstrap.During capturing insideCapturing := by
  refine ⟨_, compile_capturing, [], _, [], _, rfl, .nil, .single ?_⟩
  rw [Stage.ofStmt_eq fun _ _ => Stmt.noConfusion, depth_withoutBootstrap, root_withoutBootstrap]
  have hbegins := begins_exportedFunction withoutBootstrap.setup 1497
    (withoutBootstrap.announced capturing).world
  rw [next_announced_capturing] at hbegins
  exact hbegins

/-- The world after a function has been exported from the branch. -/
def exported (w : World) : World :=
  { w with closures := w.closures + 1 }.bind 0 "f"
    (.function (.closure ⟨w.closures, some "f", [], capturedBody, ⟨1, [0]⟩⟩))

theorem run_exportedFunction (setup : Setup) (depth : Nat) (w : World) :
    (execute setup (depth + 1) ⟨1, [0]⟩ exportedFunction).run w = (.ok .normal, exported w) := rfl

theorem finishes_insideCapturing :
    insideCapturing.Finishes withoutBootstrap.setup ⟨1, [0]⟩ exportedFunction :=
  ⟨rfl, exported insideCapturing.world, run_exportedFunction _ 1498 _⟩

theorem run_capturingBranch {setup : Setup} {depth : Nat} (hdepth : setup.depth = depth + 3)
    {w : World} (hnext : w.next = 1) : (program setup ⟨0, []⟩ .null [capturingBranch]).run w =
      (.ok .null, exported ((w.push .empty).bind 1 "a" (.boolean true))) := by
  have hbranch : (execute setup (depth + 3) ⟨0, []⟩ capturingBranch).run w =
      (execute setup (depth + 2) ((⟨0, []⟩ : Env).enter w.next) exportedFunction).run
        ((w.push .empty).bind w.next "a" (.boolean true)) := rfl
  rw [hnext] at hbranch
  rw [program_cons .null fun _ _ => Stmt.noConfusion, hdepth,
    run_bind_of_ok (hbranch.trans (run_exportedFunction setup (depth + 1) _))]
  rfl

theorem get?_afterCapturing : ∃ id, (afterCapturing.world.scopes.bindings 0).get? "f" =
    some (.function (.closure ⟨id, some "f", [], capturedBody, ⟨1, [0]⟩⟩)) := by
  have hrun := run_capturingBranch depth_withoutBootstrap next_announced_capturing
  have hsize : 0 < ({ insideCapturing.world with
      closures := insideCapturing.world.closures + 1 } : World).next := by decide +kernel
  refine ⟨insideCapturing.world.closures, ?_⟩
  rw [afterCapturing, run_of_compile_ok compile_capturing, noteResult_scopes,
    runStatements_of_run (s := withoutBootstrap.announced capturing) root_withoutBootstrap hrun]
  change ((exported insideCapturing.world).scopes.bindings 0).get? "f" = _
  rw [exported, World.bindings_bind_self hsize, Dict.get?_put_self]

theorem root_afterCapturing : afterCapturing.root = ⟨0, []⟩ := by
  rw [afterCapturing, run_root, root_withoutBootstrap]

/-- While the session waits, the scope of the branch is captured by a function in the root. -/
theorem live_afterCapturing : afterCapturing.waiting.Live ⟨1, [0]⟩ := by
  obtain ⟨id, hf⟩ := get?_afterCapturing
  have hmem : (.function (.closure ⟨id, some "f", [], capturedBody, ⟨1, [0]⟩⟩)) ∈
      afterCapturing.world.members (.scope 0) := List.mem_map.mpr ⟨_, Dict.mem_of_get? hf, rfl⟩
  have hreaches : afterCapturing.waiting.Reaches
      (.function (.closure ⟨id, some "f", [], capturedBody, ⟨1, [0]⟩⟩)) :=
    .inUse (e := ⟨0, []⟩) root_afterCapturing.symm List.mem_cons_self hmem
  exact .captured hreaches

/-- The function keeps the scope of the branch, which leads out to the root when the script is over,
and the function is found there. -/
theorem environments_lead_out_capturing :
    History [capturing] afterCapturing ∧ afterCapturing.world.LeadsOut 0 ⟨1, [0]⟩ ∧
      withoutBootstrap.During capturing insideCapturing ∧
      insideCapturing.Finishes withoutBootstrap.setup ⟨1, [0]⟩ exportedFunction ∧
      ∃ id ∈ [1, 0], afterCapturing.world.FindsIn ⟨1, [0]⟩ "f" id := by
  have hfresh : History [] withoutBootstrap := History.fresh quiet .bare
  have hhistory : History [capturing] afterCapturing := hfresh.run capturing
  obtain ⟨-, hleads, -⟩ := environments_lead_out hhistory
  obtain ⟨-, -, -, -, hexports⟩ := environments_lead_out hfresh
  have hlive := hleads _ .waits _ live_afterCapturing
  rw [root_afterCapturing] at hlive
  refine ⟨hhistory, hlive, during_insideCapturing, finishes_insideCapturing, ?_⟩
  exact (hexports _ _ _ _ _ during_insideCapturing finishes_insideCapturing rfl).2 _ .refl _
    .waits _ live_afterCapturing

end Session

end HostScript
