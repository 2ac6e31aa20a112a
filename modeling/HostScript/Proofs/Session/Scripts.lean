import HostScript.Http.Charset
import HostScript.Proofs.Run.Steps
import HostScript.Session.Basic

/-!
# Running one script

A script is announced in the log, compiled, and run (`run_of_compile_ok`) or refused
(`run_of_compile_error`). It changes the world of a session and nothing else.
-/

namespace HostScript.Session

/-- The session in which the statements of a script run: the run has been noted in its log. -/
def announced (s : Session) (source : Text) : Session :=
  s.log .debug ("running script (" ++ Text.ofNat source.length ++ " chars)")

theorem run_of_compile_ok {s : Session} {source : Text} {statements : List Stmt}
    (h : compile s.setup.depth source = .ok statements) :
    s.run source = (((s.announced source).runStatements statements).1,
      ((s.announced source).runStatements statements).2.noteResult
        ((s.announced source).runStatements statements).1) := by
  have hc : compile (s.log .debug ("running script (" ++ Text.ofNat source.length
      ++ " chars)")).setup.depth source = .ok statements := h
  simp only [run, hc]
  rfl

theorem run_of_compile_error {s : Session} {source : Text} {fault : ScriptFault}
    (h : compile s.setup.depth source = .error fault) :
    s.run source = (.failure fault, (s.announced source).noteResult (.failure fault)) := by
  have hc : compile (s.log .debug ("running script (" ++ Text.ofNat source.length
      ++ " chars)")).setup.depth source = .error fault := h
  simp only [run, hc]
  rfl

@[simp] theorem noteResult_setup (s : Session) (result : RunResult) :
    (s.noteResult result).setup = s.setup := by
  unfold noteResult
  split <;> rfl

@[simp] theorem noteResult_root (s : Session) (result : RunResult) :
    (s.noteResult result).root = s.root := by
  unfold noteResult
  split <;> rfl

@[simp] theorem noteResult_scopes (s : Session) (result : RunResult) :
    (s.noteResult result).world.scopes = s.world.scopes := by
  unfold noteResult
  split <;> rfl

theorem run_setup (s : Session) (source : Text) : (s.run source).2.setup = s.setup := by
  cases hr : compile s.setup.depth source with
  | ok statements =>
    rw [run_of_compile_ok hr, noteResult_setup]
    rfl
  | error fault =>
    rw [run_of_compile_error hr, noteResult_setup]
    rfl

theorem run_root (s : Session) (source : Text) : (s.run source).2.root = s.root := by
  cases hr : compile s.setup.depth source with
  | ok statements =>
    rw [run_of_compile_ok hr, noteResult_root]
    rfl
  | error fault =>
    rw [run_of_compile_error hr, noteResult_root]
    rfl

/-- The result and the bindings that statements leave behind, if their run is known. -/
theorem runStatements_of_run {s : Session} {env : Env} (hroot : s.root = env)
    {statements : List Stmt} {result : Except Halt Value} {w : World}
    (h : (Run.program s.setup env .null statements).run s.world = (result, w)) :
    s.runStatements statements = (resultOf result, { s with world := w }) := by
  subst hroot
  simp only [runStatements, perform, h]

/-- A script whose first statement is a call of a native function ends as the call does, if the
call ends the run. -/
theorem run_of_native_ends {s : Session} {source : Text} {name : Name} {f : Native}
    {arguments : List Expr} {values : List Value} {callee call statement : Span}
    {rest : List Stmt} {depth : Nat} {halt : Halt} (hd : s.setup.depth = depth + 3)
    (hcompile : compile s.setup.depth source =
      .ok (.expression (.call (.variable name callee) arguments call) statement :: rest))
    (hbound : s.world.scopes.get? s.root name = some (.function (.native f)))
    (harguments : (arguments.mapM (Run.evaluate s.setup (depth + 2) s.root)).run
      (s.announced source).world = (.ok values, (s.announced source).world))
    (hcall : ((Run.callNative s.setup (depth + 1) f values).run (s.announced source).world).1 =
      .error halt) : (s.run source).1 = resultOf (.error halt) := by
  have hget : (s.announced source).world.scopes.get? s.root name = some (.function (.native f)) :=
    hbound
  cases hrun : (Run.callNative s.setup (depth + 1) f values).run (s.announced source).world with
  | mk result w' =>
    rw [hrun] at hcall
    subst hcall
    have hvariable : (Run.evaluate s.setup (depth + 2) s.root (.variable name callee)).run
        (s.announced source).world = (.ok (.function (.native f)), (s.announced source).world) := by
      rw [Run.evaluate, Run.run_lookup_of_get? hget]
    have hfunction : (Run.callFunction s.setup (depth + 2) (.function (.native f)) values
        (some call)).run (s.announced source).world = (.error halt, w') := by
      rw [Run.callFunction, hrun]
    have hevaluate : (Run.evaluate s.setup (depth + 3) s.root
        (.call (.variable name callee) arguments call)).run (s.announced source).world =
          (.error halt, w') := by
      rw [Run.evaluate, Run.run_bind, hvariable]
      dsimp only
      rw [Run.run_bind, harguments]
      exact hfunction
    have hprogram : (Run.program s.setup s.root .null
        (.expression (.call (.variable name callee) arguments call) statement :: rest)).run
          (s.announced source).world = (.error halt, w') := by
      rw [Run.program, Run.run_bind, hd, hevaluate]
    rw [run_of_compile_ok hcompile, runStatements_of_run (s := s.announced source) rfl hprogram]

/-! ## Fresh sessions -/

/-- A configuration without a bootstrap script. -/
def quiet : Config := { Config.default with loadBootstrap := .boolean false }

/-- A machine with a usual bound on nesting. -/
def Machine.plain : Machine := ⟨.usual, 1500, by decide⟩

/-- Surroundings without files, replies and a host. -/
def Surroundings.bare : Surroundings := ⟨[], [], none, .plain⟩

/-- Binds native functions in a scope. -/
def bindNatives (natives : List Native) (scopes : Scopes Value) (env : Env) : Scopes Value :=
  natives.foldl (fun scopes f => scopes.define env f.name (.function (.native f))) scopes

theorem size_bindNatives (natives : List Native) (scopes : Scopes Value) (env : Env) :
    (bindNatives natives scopes env).frames.size = scopes.frames.size := by
  induction natives generalizing scopes with
  | nil => rfl
  | cons f natives ih =>
    rw [bindNatives, List.foldl_cons, ← bindNatives, ih]
    exact Array.size_modify

theorem get?_bindNatives_of_not_mem {natives : List Native} {scopes : Scopes Value} {env : Env}
    {name : Text} (hn : name ∉ natives.map Native.name) :
    ((bindNatives natives scopes env).bindings env.here).get? name =
      (scopes.bindings env.here).get? name := by
  induction natives generalizing scopes with
  | nil => rfl
  | cons f natives ih =>
    obtain ⟨hne, hrest⟩ := not_or.mp fun h => hn (List.mem_cons.mpr h)
    rw [bindNatives, List.foldl_cons, ← bindNatives, ih hrest, Scopes.define, Scopes.bindings_bind]
    split
    · exact Dict.get?_put_of_ne _ _ hne
    · rfl

/-- Native functions with names of their own are bound to them. -/
theorem get?_bindNatives {natives : List Native} {scopes : Scopes Value} {env : Env} {f : Native}
    (hsize : env.here < scopes.frames.size) (hnodup : (natives.map Native.name).Nodup)
    (hf : f ∈ natives) :
    ((bindNatives natives scopes env).bindings env.here).get? f.name =
      some (.function (.native f)) := by
  induction natives generalizing scopes with
  | nil => exact absurd hf List.not_mem_nil
  | cons g natives ih =>
    obtain ⟨hnot, hnodup⟩ := List.nodup_cons.mp hnodup
    rw [bindNatives, List.foldl_cons, ← bindNatives]
    rcases List.mem_cons.mp hf with rfl | hf
    · rw [get?_bindNatives_of_not_mem hnot, Scopes.define, Scopes.bindings_bind, if_pos ⟨rfl, hsize⟩,
        Dict.get?_put_self]
    · refine ih ?_ hnodup hf
      exact Nat.lt_of_lt_of_eq hsize Array.size_modify.symm

/-- The library is bound in a session without a host in which nothing has run. -/
theorem get?_fresh_library (config : Config) {around : Surroundings} (hlink : around.link = none)
    {f : Native} (hf : f ∈ Native.library) :
    ((fresh config around).world.scopes.bindings 0).get? f.name =
      some (.function (.native f)) := by
  have hsize : (⟨0, []⟩ : Env).here < (⟨#[.empty]⟩ : Scopes Value).frames.size := Nat.one_pos
  have hnodup : (Native.library.map Native.name).Nodup := by decide +kernel
  have hnatives : natives around.link = Native.library := by rw [hlink]; rfl
  simp only [fresh, hnatives]
  exact get?_bindNatives hsize hnodup hf

theorem get?_fresh (config : Config) {around : Surroundings} (hlink : around.link = none)
    (f : StandardFunction) :
    ((fresh config around).world.scopes.bindings 0).get? (Native.standard f).name =
      some (.function (.native (.standard f))) := by
  have hmem : Native.standard f ∈ Native.library :=
    List.mem_append_left _ (List.mem_map.mpr ⟨f, f.mem_all, rfl⟩)
  exact get?_fresh_library config hlink hmem

/-- So are the functions of the host, in a session with a host. -/
theorem get?_fresh_host (config : Config) {around : Surroundings}
    (hlink : around.link.isSome = true) (m : HostMethod) :
    ((fresh config around).world.scopes.bindings 0).get? (Native.host m).name =
      some (.function (.native (.host m))) := by
  have hsize : 0 < (bindNatives Native.library ⟨#[.empty]⟩ ⟨0, []⟩).frames.size := by
    rw [size_bindNatives]
    exact Nat.one_pos
  have hnodup : (Native.ofHost.map Native.name).Nodup := by decide +kernel
  have hnatives : natives around.link = Native.library ++ Native.ofHost := if_pos hlink
  have hmem : Native.host m ∈ Native.ofHost := List.mem_map.mpr ⟨m, m.mem_all, rfl⟩
  simp only [fresh, hnatives, List.foldl_append]
  exact get?_bindNatives hsize hnodup hmem

end HostScript.Session
