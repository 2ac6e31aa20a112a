import HostScript.Proofs.Bootstrap.Trees
import HostScript.Proofs.Depth.Parsing
import HostScript.Proofs.Session.Scripts

/-!
# Sessions that have run the bootstrap script

Running definitions binds their functions in the root scope and does nothing else
(`run_program_definitions`). So a session that starts with the bootstrap script has in its root scope
the functions that the script defines, besides the native ones.
-/

namespace HostScript

/-! ## Running definitions -/

namespace Definition

/-- Binds the functions of some definitions in the root scope, of which the first one is made as
the function of the given number. -/
def bindAll : List Definition → (id : Nat) → Scopes Value → Scopes Value
  | [], _, scopes => scopes
  | d :: rest, id, scopes =>
    bindAll rest (id + 1) (scopes.bind 0 d.name (.function (.closure (d.closure id))))

variable {id : Nat} {scopes : Scopes Value}

theorem get?_bindAll_of_not_mem {definitions : List Definition} {name : Name}
    (h : name ∉ definitions.map Definition.name) :
    ((bindAll definitions id scopes).bindings 0).get? name = (scopes.bindings 0).get? name := by
  induction definitions generalizing id scopes with
  | nil => rfl
  | cons d rest ih =>
    obtain ⟨hne, hrest⟩ := not_or.mp fun hmem => h (List.mem_cons.mpr hmem)
    rw [bindAll, ih hrest, Scopes.bindings_bind]
    split
    · exact Dict.get?_put_of_ne _ _ hne
    · rfl

/-- A name that is defined once is bound to the function of its definition. -/
theorem get?_bindAll {definitions : List Definition} {d : Definition} {i : Nat}
    (hsize : 0 < scopes.frames.size) (hnodup : (definitions.map Definition.name).Nodup)
    (hd : definitions[i]? = some d) :
    ((bindAll definitions id scopes).bindings 0).get? d.name =
      some (.function (.closure (d.closure (id + i)))) := by
  induction definitions generalizing id scopes i with
  | nil => simp at hd
  | cons first rest ih =>
    obtain ⟨hnot, hnodup⟩ := List.nodup_cons.mp hnodup
    rw [bindAll]
    cases i with
    | zero =>
      obtain rfl : first = d := by simpa using hd
      rw [get?_bindAll_of_not_mem hnot, Scopes.bindings_bind, if_pos ⟨rfl, hsize⟩,
        Dict.get?_put_self, Nat.add_zero]
    | succ i =>
      have hsize' : 0 < (scopes.bind 0 first.name
          (.function (.closure (first.closure id)))).frames.size := by
        simpa [Scopes.bind] using hsize
      rw [ih hsize' hnodup (by simpa using hd), Nat.add_right_comm, Nat.add_assoc]

/-- Definitions bind their functions and do nothing else. -/
theorem run_program_definitions {setup : Setup} {depth : Nat} (hd : setup.depth = depth + 1)
    (result : Value) (definitions : List Definition) (w : World) :
    (Run.program setup ⟨0, []⟩ result (definitions.map statement)).run w =
      (.ok result, { w with
        scopes := bindAll definitions w.closures w.scopes
        closures := w.closures + definitions.length }) := by
  induction definitions generalizing w with
  | nil => rfl
  | cons d rest ih =>
    have hstep : (Run.execute setup setup.depth ⟨0, []⟩ d.statement).run w =
        (.ok .normal, { w with
          scopes := w.scopes.bind 0 d.name (.function (.closure (d.closure w.closures)))
          closures := w.closures + 1 }) := by
      rw [hd]
      rfl
    rw [List.map_cons, Run.program, Run.run_bind, hstep]
    · dsimp only
      rw [ih, bindAll, List.length_cons, Nat.add_assoc, Nat.add_comm 1]
    · intro e span h
      cases h

end Definition

/-! ## Sessions with the library -/

namespace Session

/-- A configuration under which a session runs the bootstrap script that comes with it. -/
def Boots (config : Config) : Prop :=
  config.loadBootstrap.isOn = true ∧ bootOf config = .ok .packaged

variable {config : Config}

theorem runBoot_of_success {s t : Session} {source : Text} {v : Value}
    (h : s.run source = (.success v, t)) (name : Text) : s.runBoot name source = (none, t) := by
  simp only [runBoot, h]

/-- A session that runs the bootstrap script starts, with its functions bound anew and nothing else
changed among the bindings. -/
theorem start_of_boots (h : Boots config) (around : Surroundings) :
    (start config around).1 = none ∧ (start config around).2.root = ⟨0, []⟩ ∧
      (start config around).2.world.scopes =
        Definition.bindAll Bootstrap.definitions 0 (fresh config around).world.scopes := by
  have hcompile : compile (fresh config around).setup.depth bootstrapScript =
      .ok (Bootstrap.definitions.map Definition.statement) :=
    compile_of_le around.machine.roomy Bootstrap.compile_bootstrapScript
  have hpos : 1 ≤ around.machine.depth := Nat.le_trans (by decide) around.machine.roomy
  have hdepth : (fresh config around).setup.depth = around.machine.depth - 1 + 1 :=
    (Nat.sub_add_cancel hpos).symm
  have hrun := Definition.run_program_definitions hdepth .null Bootstrap.definitions
    ((fresh config around).announced bootstrapScript).world
  have hstart : start config around = (fresh config around).runBoot "init.rsl" bootstrapScript := by
    rw [start, prepare, if_pos h.1, h.2]
    rfl
  have hsuccess := run_of_compile_ok hcompile
  rw [runStatements_of_run (s := (fresh config around).announced bootstrapScript) rfl hrun]
    at hsuccess
  rw [hstart, runBoot_of_success hsuccess]
  exact ⟨rfl, rfl, rfl⟩

theorem globals_start (h : Boots config) (around : Surroundings) :
    (start config around).2.globals =
      (Definition.bindAll Bootstrap.definitions 0 (fresh config around).world.scopes).bindings 0 := by
  obtain ⟨-, hroot, hscopes⟩ := start_of_boots h around
  rw [globals, hroot, hscopes]

/-- The root scope binds the functions of the bootstrap script. -/
theorem get?_globals_start (h : Boots config) (around : Surroundings) {d : Definition} {i : Nat}
    (hd : Bootstrap.definitions[i]? = some d) :
    (start config around).2.globals.get? d.name = some (.function (.closure (d.closure i))) := by
  have hsize : 0 < (fresh config around).world.scopes.frames.size := by
    change 0 < (bindNatives (natives around.link) ⟨#[.empty]⟩ ⟨0, []⟩).frames.size
    rw [size_bindNatives]
    exact Nat.one_pos
  have hnodup : (Bootstrap.definitions.map Definition.name).Nodup := by decide +kernel
  rw [globals_start h, Definition.get?_bindAll hsize hnodup hd, Nat.zero_add]

/-- The functions of the standard library that the bootstrap script uses. -/
def usedByLibrary : List StandardFunction := [.arrayLen, .arrayPushBack, .toString]

/-- They are bound in the root scope as well, with a host or without. -/
theorem get?_globals_start_standard (h : Boots config) (around : Surroundings)
    {f : StandardFunction} (hf : f ∈ usedByLibrary) :
    (start config around).2.globals.get? (Native.standard f).name =
      some (.function (.native (.standard f))) := by
  have hlibrary : ((fresh config .bare).world.scopes.bindings 0).get?
      (Native.standard f).name = some (.function (.native (.standard f))) :=
    get?_fresh config rfl f
  have hhost : ∀ f ∈ usedByLibrary, (Native.standard f).name ∉ Native.ofHost.map Native.name := by
    decide +kernel
  have hscript : ∀ f ∈ usedByLibrary,
      (Native.standard f).name ∉ Bootstrap.definitions.map Definition.name := by
    decide +kernel
  rw [globals_start h, Definition.get?_bindAll_of_not_mem (hscript f hf)]
  change ((bindNatives (natives around.link) ⟨#[.empty]⟩ ⟨0, []⟩).bindings 0).get? _ = _
  unfold natives
  split
  · rw [bindNatives, List.foldl_append]
    exact (get?_bindNatives_of_not_mem (hhost f hf)).trans hlibrary
  · exact hlibrary

end Session

end HostScript
