import HostScript.Proofs.Bootstrap.Building
import HostScript.Proofs.Bootstrap.Start
import HostScript.Proofs.Bootstrap.Transforming
import HostScript.Proofs.Session.Blame

/-!
# The library

What scripts get when they call the functions `map`, `filter`, `reduce`, `join` and `range` of the
bootstrap script (`library_calls`). Sessions that have run the bootstrap script are such that this
can be said of them as long as nothing rebinds the names that the library looks up
(`Session.loaded_start`, `Session.History.closed`).
-/

namespace HostScript

/-! ## Sessions without dangling references -/

namespace World

/-- What has happened and what the link is does not matter to what refers to what. -/
theorem Closed.of_eq {w u : World} (hw : w.Closed) (hscopes : u.scopes = w.scopes)
    (hheap : u.heap = w.heap) : u.Closed := by
  have hextent : u.extent = w.extent := by rw [extent, extent, hscopes, hheap]
  refine ⟨fun id v hv => ?_, ?_⟩
  · rw [hextent]
    rw [hscopes] at hv
    exact hw.scopes id v hv
  · rw [hheap, hscopes]
    exact hw.heap

end World

namespace Session

theorem closed_fresh (config : Config) (around : Surroundings) :
    (fresh config around).world.Closed where
  scopes id v hv := by
    have hstart (u : Value) (hu : u ∈ Scopes.start.1.members id) :
        ∃ f, u = .function (.native f) := by
      cases id with
      | zero => exact absurd hu List.not_mem_nil
      | succ id =>
        rw [Scopes.members_of_size_le (Nat.le_add_left 1 id)] at hu
        exact absurd hu List.not_mem_nil
    obtain ⟨f, rfl⟩ := native_of_mem_members hstart hv
    trivial
  heap c v hv := by
    have hnone : ¬ Heap.empty.Has c := by cases c <;> exact Nat.not_lt_zero _
    change v ∈ Heap.empty.members c at hv
    rw [Heap.members_of_not_has hnone] at hv
    exact absurd hv List.not_mem_nil

/-- A session refers to nothing that is not there, whatever has run in it. -/
theorem History.closed {sources : List Text} {s : Session} (h : History sources s) :
    s.world.Closed ∧ s.root.Within s.world.extent := by
  induction h with
  | fresh config around =>
    refine ⟨closed_fresh config around, fun id hid => ?_⟩
    obtain rfl := List.mem_singleton.mp hid
    change 0 < (bindNatives (natives around.link) ⟨#[.empty]⟩ ⟨0, []⟩).frames.size
    rw [size_bindNatives]
    exact Nat.one_pos
  | @run sources s source _ ih =>
    obtain ⟨hclosed, hroot⟩ := ih
    have hnoted (t : Session) (result : RunResult) (ht : t.world.Closed)
        (hr : t.root.Within t.world.extent) : (t.noteResult result).world.Closed ∧
          (t.noteResult result).root.Within (t.noteResult result).world.extent := by
      unfold noteResult
      split
      · exact ⟨ht.of_eq rfl rfl, hr⟩
      · exact ⟨ht, hr⟩
    have hannounced : (s.announced source).world.Closed := hclosed.of_eq rfl rfl
    cases hcompile : compile s.setup.depth source with
    | ok statements =>
      rw [run_of_compile_ok hcompile]
      have hnull : Value.null.Within (s.announced source).world.extent := trivial
      obtain ⟨hbelow, hafter, -⟩ := Run.grows_program s.setup hannounced hroot hnull statements
      exact hnoted _ _ hafter (hbelow.env hroot)
    | error fault =>
      rw [run_of_compile_error hcompile]
      exact hnoted _ _ hannounced hroot
  | log level message _ ih => exact ⟨ih.1.of_eq rfl rfl, ih.2⟩
  | closeLink _ ih => exact ⟨ih.1.of_eq rfl rfl, ih.2⟩

/-- A session that has run the bootstrap script has the library. -/
theorem loaded_start {config : Config} (h : Boots config) (around : Surroundings) :
    Bootstrap.Loaded (start config around).2.world := by
  obtain ⟨sources, hhistory⟩ := history_start config around
  obtain ⟨-, hroot, -⟩ := start_of_boots h around
  have hglobals : (start config around).2.world.scopes.bindings 0 =
      (start config around).2.globals := by
    rw [globals, hroot]
  have hstandard {f : StandardFunction} (hf : f ∈ usedByLibrary) :
      ((start config around).2.world.scopes.bindings 0).get? (Native.standard f).name =
        some (.function (.native (.standard f))) := by
    rw [hglobals]
    exact get?_globals_start_standard h around hf
  refine ⟨hhistory.closed.1, hstandard (f := .arrayLen) (by decide),
    hstandard (f := .arrayPushBack) (by decide), hstandard (f := .toString) (by decide), 1, ?_⟩
  rw [hglobals]
  exact get?_globals_start h around (d := Bootstrap.forEach) rfl

end Session

/-! ## Calls in scripts -/

/-- Wherever a script calls a function with some values, from whatever scope and however callee and
arguments are written, the call gives a value and leaves a world. -/
def Run.CallGives (setup : Setup) (depth : Nat) (f : Value) (values : List Value) (w : World)
    (v : Value) (u : World) : Prop :=
  ∀ (env : Env) (callee : Expr) (arguments : List Expr) (span : Span) (w₀ w₁ : World),
    (evaluate setup depth env callee).run w₀ = (.ok f, w₁) →
    (arguments.mapM (evaluate setup depth env)).run w₁ = (.ok values, w) →
    (evaluate setup (depth + 1) env (.call callee arguments span)).run w₀ = (.ok v, u)

theorem Run.callGives_of_run {setup : Setup} {depth : Nat} {f v : Value} {values : List Value}
    {w u : World} (h : (callFunction setup depth f values none).run w = (.ok v, u)) :
    CallGives setup depth f values w v u := by
  intro env callee arguments span w₀ w₁ hf hvalues
  rw [evaluate_call hf hvalues span]
  exact (callFunction_ok_iff f values none (some span)).mp h

/-- The value of a definition, which is the function of the given number. -/
def Definition.value (d : Definition) (id : Nat) : Value := .function (.closure (d.closure id))

namespace Bootstrap

open Run

/-- How a function of one parameter is called for each element of an array. -/
def each (setup : Setup) (depth : Nat) (f : Value) : Callback :=
  ⟨setup, depth, f, .null, fun _ x => [x]⟩

/-- How a function of two parameters is called for each element of an array, each time with what the
call before has given. -/
def folding (setup : Setup) (depth : Nat) (f initial : Value) : Callback :=
  ⟨setup, depth, f, initial, fun last x => [last, x]⟩

/-- An array that was not there before, with its elements. -/
structure Made (w u : World) (r : ArrayId) (items : List Value) : Prop where
  new : ¬ w.Has (.composite (.array r))
  has : u.Has (.composite (.array r))
  items : u.heap.array r = items.toArray

/-- An array whose elements can be counted and gone through in one loop. -/
structure Fits (setup : Setup) (w : World) (a : ArrayId) : Prop where
  has : w.Has (.composite (.array a))
  exact : (w.heap.array a).size ≤ 2 ^ 53
  few : (w.heap.array a).size < setup.iterations

variable {setup : Setup} {depth : Nat} {w u : World} {a r : ArrayId} {f : Value} {c : Callback}
  {own : Place → Prop} {results : List Value}

/-- A function can be handed to the library. -/
theorem applies (hl : Loaded w) (ha : Fits c.setup w a) (hf : c.f.Within w.extent)
    (hserves : c.Serves used a (w.heap.array a).toList w) : c.Applies used a w where
  closed := hl.closed
  hasArray := ha.has
  known := hf
  few := ha.few
  exact := ha.exact
  arrayLen := hl.arrayLen
  serves := hserves

/-- An array that its caller owns was not there before. -/
theorem made_of_reached (h : c.Reached used a w own (w.heap.array a).toList results u)
    (hown : own (.composite (.array r))) {items : List Value}
    (hitems : u.heap.array r = items.toArray) : Made w u r items :=
  ⟨(h.since.new _ hown).2, (h.since.new _ hown).1, hitems⟩

/-- The functions of the library, called from wherever in a script, do what they are there for. -/
theorem library_calls :
    (∀ (config : Config) (around : Session.Surroundings), Session.Boots config →
      Loaded (Session.start config around).2.world ∧
      ∀ d ∈ definitions, ∃ id,
        (Session.start config around).2.globals.get? d.name = some (d.value id)) ∧
    (∀ (sources : List Text) (s : Session), Session.History sources s → s.world.Closed) ∧
    (∀ (setup : Setup) (depth : Nat), GrowsAt setup depth) ∧
    ∀ (w : World), Loaded w → ∀ (setup : Setup) (depth : Nat),
      (∀ a, Fits setup w a →
        (∀ f : Value, f.Within w.extent →
          (each setup (depth + 2) f).Serves used a (w.heap.array a).toList w →
          (∀ id, ∃ own results r u,
            CallGives setup (depth + 13) (map.value id) [.array a, f] w (.array r) u ∧
            (each setup (depth + 2) f).Visits w own (w.heap.array a).toList results u ∧
            Made w u r results ∧ u.heap.array a = w.heap.array a) ∧
          (∀ id, ∃ own results r u,
            CallGives setup (depth + 12) (filter.value id) [.array a, f] w (.array r) u ∧
            (each setup (depth + 2) f).Visits w own (w.heap.array a).toList results u ∧
            Made w u r (passed (w.heap.array a).toList results) ∧
            u.heap.array a = w.heap.array a)) ∧
        (∀ f initial : Value, f.Within w.extent → initial.Within w.extent →
          (folding setup (depth + 2) f initial).Serves used a (w.heap.array a).toList w →
          ∀ id, ∃ own results u,
            CallGives setup (depth + 12) (reduce.value id) [.array a, f, initial] w
              (results.getLastD initial) u ∧
            (folding setup (depth + 2) f initial).Visits w own (w.heap.array a).toList results u ∧
            u.heap.array a = w.heap.array a) ∧
        (∀ (separator : Text) (texts : List Text),
          (w.heap.array a).toList.mapM (Value.display w.heap (depth + 1)) = some texts →
          ∀ id, ∃ own u,
            CallGives setup (depth + 7) (join.value id) [.array a, .string separator] w
              (.string (Text.join separator texts)) u ∧
            w.Works (fun _ => False) own u ∧ u.heap = w.heap)) ∧
      (∀ (x : Float) (n : Nat), Number.isInteger x = true → Number.truncate? x = some (n : ℤ) →
        n ≤ 2 ^ 53 → n < setup.iterations →
        ∀ id, ∃ own r u,
          CallGives setup (depth + 5) (range.value id) [.number x] w (.array r) u ∧
          w.Works (fun _ => False) own u ∧ Made w u r ((List.range n).map count)) := by
  refine ⟨fun config around h => ⟨Session.loaded_start h around, fun d hd => ?_⟩,
    fun sources s h => h.closed.1, growsAt, fun w hl setup depth =>
      ⟨fun a ha => ⟨fun f hf hserves => ⟨?_, ?_⟩, fun f initial hf hi hserves id => ?_,
        fun separator texts htexts id => ?_⟩, fun x n hwhole hn hle hfew id => ?_⟩⟩
  · obtain ⟨i, hi, rfl⟩ := List.mem_iff_getElem.mp hd
    exact ⟨i, Session.get?_globals_start h around (List.getElem?_eq_getElem hi)⟩
  · intro id
    obtain ⟨own, results, u, r, hreached, hrun, hown, hitems⟩ := run_map hl
      (applies (c := each setup (depth + 2) f) hl ha hf hserves) rfl rfl id none
    exact ⟨own, results, r, u, callGives_of_run hrun, hreached.visits,
      made_of_reached hreached hown hitems, hreached.since.array⟩
  · intro id
    obtain ⟨own, results, u, r, hreached, hrun, hown, hitems⟩ := run_filter hl
      (applies (c := each setup (depth + 2) f) hl ha hf hserves) rfl rfl id none
    exact ⟨own, results, r, u, callGives_of_run hrun, hreached.visits,
      made_of_reached hreached hown hitems, hreached.since.array⟩
  · obtain ⟨own, results, u, hreached, hrun⟩ := run_reduce hl
      (applies (c := folding setup (depth + 2) f initial) hl ha hf hserves) hi rfl rfl id none
    exact ⟨own, results, u, callGives_of_run hrun, hreached.visits, hreached.since.array⟩
  · obtain ⟨own, u, hworks, hheap, hrun⟩ := run_join hl ha.has ha.exact ha.few htexts id none
    exact ⟨own, u, callGives_of_run hrun, hworks, hheap⟩
  · obtain ⟨own, u, r, hworks, hrun, hown, hitems⟩ := run_range hl hwhole hn hle hfew id none
    obtain ⟨hhas, hnew⟩ := ((hworks.owns _).mp hown).resolve_left not_false
    exact ⟨own, r, u, callGives_of_run hrun, hworks, hnew, hhas, hitems⟩

/-! ## A session with two texts -/

/-- A session in which nothing has run. -/
def blank : Session := Session.fresh Config.default .bare

/-- What it leaves when it has run the bootstrap script and made an array of two texts. -/
def withTexts : World :=
  (Session.start Config.default .bare).2.world.newArray #[.string "a", .string "b"]

/-- The array. -/
def textsId : ArrayId := (Session.start Config.default .bare).2.world.heap.arrays.size

theorem loaded_withTexts : Loaded withTexts := by
  have hboots : Session.Boots Config.default := ⟨rfl, rfl⟩
  have hl := Session.loaded_start hboots .bare
  have hitems : ∀ v ∈ #[Value.string "a", .string "b"],
      v.Within (Session.start Config.default .bare).2.world.extent := by
    simp [Value.Within]
  have hworks := World.Works.newArray (fun _ => False) hitems
  exact ⟨hworks.closed hl.closed, hl.arrayLen, hl.arrayPushBack, hl.toString, hl.forEach⟩

theorem array_withTexts : withTexts.heap.array textsId = #[.string "a", .string "b"] :=
  World.array_newArray_size _ _

theorem fits_withTexts : Fits blank.setup withTexts textsId := by
  refine ⟨?_, ?_, ?_⟩
  · change _ < ((Session.start Config.default .bare).2.world.heap.arrays.push _).size
    simp [textsId]
  · rw [array_withTexts]
    decide
  · rw [array_withTexts]
    decide

theorem exists_string_of_mem {before after : List Value} {x : Value}
    (h : (withTexts.heap.array textsId).toList = before ++ x :: after) : ∃ t, x = .string t := by
  have hx : x ∈ (withTexts.heap.array textsId).toList := h ▸ List.mem_append_right _ (by simp)
  rw [array_withTexts] at hx
  rcases List.mem_pair.mp hx with rfl | rfl
  · exact ⟨_, rfl⟩
  · exact ⟨_, rfl⟩

/-- The function `toString` gives a text for each text. -/
theorem serves_toString (depth : Nat) :
    (each blank.setup (depth + 2) (.function (.native (.standard .toString)))).Serves used textsId
      (withTexts.heap.array textsId).toList withTexts := by
  rintro own before x after results u helements -
  obtain ⟨t, rfl⟩ := exists_string_of_mem helements
  refine ⟨.string t, u, ?_, rfl, fun _ _ => rfl⟩
  exact StandardFunction.run_call_toString { blank.setup with depth := depth + 1 } (.string t) u

/-- The function `stringContains` gives a value for any two values. -/
theorem serves_stringContains (depth : Nat) :
    (folding blank.setup (depth + 2) (.function (.native (.standard .stringContains)))
      (.string "abc")).Serves used textsId (withTexts.heap.array textsId).toList withTexts := by
  rintro own before x after results u - -
  have hcall (l : Value) : ∃ r, (StandardFunction.stringContains.call
      { blank.setup with depth := depth + 1 } [l, x]).run u = (.ok r, u) := by
    unfold StandardFunction.call
    dsimp only
    unfold withArguments
    split
    · exact ⟨_, rfl⟩
    · exact ⟨_, rfl⟩
  obtain ⟨r, hr⟩ := hcall (results.getLastD (.string "abc"))
  exact ⟨r, u, hr, rfl, fun _ _ => rfl⟩

/-- Two texts are mapped, filtered, reduced and joined, and numbers are made. -/
theorem library_calls_withTexts :
    (∃ own results r u, CallGives blank.setup 1013 (map.value 2)
        [.array textsId, .function (.native (.standard .toString))] withTexts (.array r) u ∧
      (each blank.setup 1002 (.function (.native (.standard .toString)))).Visits withTexts own
        [.string "a", .string "b"] results u ∧ Made withTexts u r results) ∧
    (∃ own results r u, CallGives blank.setup 1012 (filter.value 3)
        [.array textsId, .function (.native (.standard .toString))] withTexts (.array r) u ∧
      (each blank.setup 1002 (.function (.native (.standard .toString)))).Visits withTexts own
        [.string "a", .string "b"] results u ∧
      Made withTexts u r (passed [.string "a", .string "b"] results)) ∧
    (∃ own results u, CallGives blank.setup 1012 (reduce.value 4)
        [.array textsId, .function (.native (.standard .stringContains)), .string "abc"] withTexts
        (results.getLastD (.string "abc")) u ∧
      (folding blank.setup 1002 (.function (.native (.standard .stringContains)))
        (.string "abc")).Visits withTexts own [.string "a", .string "b"] results u) ∧
    (∃ u, CallGives blank.setup 1007 (join.value 5) [.array textsId, .string ", "] withTexts
        (.string "a, b") u ∧ u.heap = withTexts.heap) ∧
    ∃ r u, CallGives blank.setup 1005 (range.value 0) [.number (Float.ofNat 2)] withTexts
      (.array r) u ∧ Made withTexts u r [count 0, count 1] := by
  obtain ⟨harrays, hrange⟩ := library_calls.2.2.2 withTexts loaded_withTexts blank.setup 1000
  obtain ⟨heach, hfolding, hjoin⟩ := harrays textsId fits_withTexts
  obtain ⟨hmap, hfilter⟩ := heach (.function (.native (.standard .toString))) trivial
    (serves_toString 1000)
  have helements : (withTexts.heap.array textsId).toList = [.string "a", .string "b"] := by
    rw [array_withTexts]
  rw [helements] at hmap hfilter hfolding
  refine ⟨?_, ?_, ?_, ?_, ?_⟩
  · obtain ⟨own, results, r, u, hcall, hvisits, hmade, -⟩ := hmap 2
    exact ⟨own, results, r, u, hcall, hvisits, hmade⟩
  · obtain ⟨own, results, r, u, hcall, hvisits, hmade, -⟩ := hfilter 3
    exact ⟨own, results, r, u, hcall, hvisits, hmade⟩
  · obtain ⟨own, results, u, hcall, hvisits, -⟩ := hfolding
      (.function (.native (.standard .stringContains))) (.string "abc") trivial trivial
      (helements ▸ serves_stringContains 1000) 4
    exact ⟨own, results, u, hcall, hvisits⟩
  · obtain ⟨own, u, hcall, -, hheap⟩ := hjoin ", " ["a", "b"] (by rw [array_withTexts]; rfl) 5
    exact ⟨u, hcall, hheap⟩
  · obtain ⟨own, r, u, hcall, -, hmade⟩ := hrange (Float.ofNat 2) 2
      (Number.isInteger_ofNat (by decide)) (Number.truncate?_ofNat (by decide)) (by decide)
      (by decide) 0
    exact ⟨r, u, hcall, hmade⟩

end Bootstrap

end HostScript
