import HostScript.Proofs.Run.Steps
import HostScript.Proofs.Session.Blame
import HostScript.Proofs.Value.Nesting

/-!
# Which calls of the standard library return

A function of the standard library turns what goes wrong into an error value, so a script goes on.
There are two exceptions, which both come from the display form of a value. `print` and `toString`
end the run on a value that is nested too deeply to be shown, and `print` ends it on a text that
cannot be encoded. No other call ends a run (`call_halts_iff`), and one that does has written
nothing and changed nothing.
-/

namespace HostScript

/-! ## Runs that return -/

namespace Run

variable {α β : Type}

/-- A run gives a result in every world. -/
abbrev Returns (m : Run α) : Prop :=
  Ensures (fun _ => True) (fun _ => False) m fun _ => True

theorem returns_pure (a : α) : Returns (pure a : Run α) := ensures_pure trivial

theorem returns_onHeap (f : Heap → α × Heap) : Returns (onHeap f) :=
  ensures_modifyGet fun _ _ => ⟨trivial, trivial⟩

theorem returns_heap_bind {f : Heap → Run α} (hf : ∀ h, Returns (f h)) : Returns (heap >>= f) := by
  have hheap : Returns heap := ensures_bind ensures_get fun _ _ => returns_pure _
  exact ensures_bind hheap fun h _ => hf h

theorem Returns.run_ne_error {m : Run α} (h : Returns m) (w : World) (halt : Halt) :
    (m.run w).1 ≠ .error halt := by
  intro he
  have hr := (h w trivial).2
  rw [he] at hr
  exact hr

end Run

theorem returns_withArguments {name : Text} {kinds : List Kind} {values : List Value}
    {body : Arguments kinds → Run Value} (hb : ∀ arguments, Run.Returns (body arguments)) :
    Run.Returns (withArguments name kinds values body) := by
  unfold withArguments
  split
  · exact hb _
  · exact Run.returns_pure _

/-- A value is nested beyond a bound: a way leads down from it to more composites than the bound
admits, with none met twice before the last one. -/
def Heap.Exceeds (h : Heap) (depth : Nat) (v : Value) : Prop :=
  ∃ path, h.Descends v path ∧ path.length = depth + 1 ∧ path.dropLast.Nodup

namespace StandardFunction

open Run

variable {setup : Setup}

/-! ## Functions that do not show values -/

theorem returns_nestedTooDeeply (hl : setup.lenient = true) (message : Text) :
    Returns (nestedTooDeeply setup message) := by
  rw [nestedTooDeeply, if_pos hl]
  exact returns_pure _

theorem returns_writeJson (hl : setup.lenient = true) (v : Value) :
    Returns (writeJson setup v) := by
  refine returns_heap_bind fun h => ?_
  split
  · exact returns_pure _
  · exact returns_pure _
  · exact returns_nestedTooDeeply hl _

theorem returns_readJson (hl : setup.lenient = true) (t : Text) : Returns (readJson setup t) := by
  unfold readJson
  split
  · exact returns_onHeap _
  · exact returns_pure _
  · exact returns_nestedTooDeeply hl _

/-- Every function that shows no value returns, whatever it is called with. -/
theorem returns_call (hl : setup.lenient = true) {f : StandardFunction} (hprint : f ≠ .print)
    (hshow : f ≠ .toString) (values : List Value) : Returns (f.call setup values) := by
  cases f with
  | print => exact absurd rfl hprint
  | toString => exact absurd rfl hshow
  | toJson => exact returns_withArguments fun (v, _) => returns_writeJson hl v
  | fromJson => exact returns_withArguments fun (t, _) => returns_readJson hl t
  | createArray => exact returns_onHeap (·.createArray values)
  | arrayLen | arrayGet | tableGet =>
    exact returns_withArguments fun _ => returns_heap_bind fun _ => returns_pure _
  | stringLen | stringContains | stringToLower | stringWidth | stringTruncateToWidth
  | renderViewport | floor =>
    exact returns_withArguments fun _ => returns_pure _
  | arraySet | arrayPushBack | arrayPopBack | arrayInsert | arrayRemove | createTable | tableSet
  | tableKeys | tableMerge | stringSplitLines =>
    exact returns_withArguments fun _ => returns_onHeap _

/-! ## Functions that show values -/

theorem run_displayText (setup : Setup) (v : Value) (w : World) :
    (displayText setup v).run w = match v.display w.heap setup.depth with
      | some t => (.ok t, w)
      | none => (.error .tooDeep, w) := by
  rw [displayText, run_bind, run_heap]
  dsimp only
  cases v.display w.heap setup.depth <;> rfl

/-- Showing several values gives all their display forms, or fails because one has none. -/
theorem run_mapM_displayText (setup : Setup) (values : List Value) (w : World) :
    (values.mapM (displayText setup)).run w =
      match values.mapM (Value.display w.heap setup.depth) with
      | some texts => (.ok texts, w)
      | none => (.error .tooDeep, w) := by
  induction values with
  | nil => rfl
  | cons v values ih =>
    rw [List.mapM_cons, List.mapM_cons, run_bind, run_displayText]
    cases v.display w.heap setup.depth with
    | none => rfl
    | some t =>
      dsimp only
      rw [run_bind, ih]
      cases values.mapM (Value.display w.heap setup.depth) <;> rfl

/-- The results of a list are those of its elements. -/
theorem mem_iff_of_mapM_eq_some {α β : Type} {f : α → Option β} {xs : List α} {ys : List β}
    (h : xs.mapM f = some ys) {y : β} : y ∈ ys ↔ ∃ x ∈ xs, f x = some y := by
  induction xs generalizing ys with
  | nil =>
    obtain rfl : [] = ys := by simpa using h
    simp
  | cons x xs ih =>
    rw [List.mapM_cons] at h
    obtain ⟨z, hz, hrest⟩ := Option.bind_eq_some_iff.mp h
    obtain ⟨zs, hzs, hys⟩ := Option.bind_eq_some_iff.mp hrest
    obtain rfl : z :: zs = ys := by simpa using hys
    rw [List.mem_cons, ih hzs]
    simp [hz, eq_comm]

/-- Some value cannot be shown, or all of them can. -/
theorem mapM_display_eq_none_iff {h : Heap} {depth : Nat} {values : List Value} :
    values.mapM (Value.display h depth) = none ↔ ∃ v ∈ values, h.Exceeds depth v := by
  simp only [mapM_eq_none_iff, Value.display_eq_none_iff, Heap.Exceeds]

/-- The line that `print` writes. -/
def printedLine (texts : List Text) : Text := Text.join " " texts ++ "\n"

theorem surrogateRun?_printedLine_eq_none_iff {texts : List Text} :
    Utf8.surrogateRun? 0 (printedLine texts) = none ↔
      ∀ t ∈ texts, ∀ c ∈ t, c.isSurrogate = false := by
  rw [Utf8.surrogateRun?_eq_none_iff]
  have hmem {c : CodePoint} (hc : c.isSurrogate = true) :
      c ∈ printedLine texts ↔ ∃ t ∈ texts, c ∈ t := by
    have hblank : c ∉ Text.ofString " " := by
      intro h
      obtain rfl : c = .scalar ' ' := by simpa [Text.ofString] using h
      simp [CodePoint.isSurrogate] at hc
    have hfeed : c ∉ Text.ofString "\n" := by
      intro h
      obtain rfl : c = .scalar '\n' := by simpa [Text.ofString] using h
      simp [CodePoint.isSurrogate] at hc
    rw [printedLine, List.mem_append, Text.mem_join hblank]
    simp [hfeed]
  constructor
  · intro h t ht c hc
    refine Bool.eq_false_iff.mpr fun hs => ?_
    simp [h c ((hmem hs).mpr ⟨t, ht, hc⟩)] at hs
  · intro h c hc
    refine Bool.eq_false_iff.mpr fun hs => ?_
    obtain ⟨t, ht, hct⟩ := (hmem hs).mp hc
    simp [h t ht c hct] at hs

/-- What printing comes to: a line of output, or a halt that has written nothing. -/
theorem run_printLine (setup : Setup) (values : List Value) (w : World) :
    (printLine setup values).run w = match values.mapM (Value.display w.heap setup.depth) with
      | none => (.error .tooDeep, w)
      | some texts => match Utf8.surrogateRun? 0 (printedLine texts) with
        | some fault => (.error (.internal (.unencodable fault)), w)
        | none => (.ok .null, { w with events := w.events.push (.printed (printedLine texts)) }) := by
  rw [printLine, run_bind, run_mapM_displayText]
  cases values.mapM (Value.display w.heap setup.depth) with
  | none => rfl
  | some texts =>
    have hline : Text.join " " texts ++ "\n" = printedLine texts := rfl
    dsimp only
    rw [hline]
    cases Utf8.surrogateRun? 0 (printedLine texts) <;> rfl

theorem run_call_toString (setup : Setup) (v : Value) (w : World) :
    (StandardFunction.toString.call setup [v]).run w =
      match v.display w.heap setup.depth with
      | some t => (.ok (.string t), w)
      | none => (.error .tooDeep, w) := by
  have hcall : StandardFunction.toString.call setup [v] =
      displayText setup v >>= fun t => pure (.string t) := rfl
  rw [hcall, run_bind, run_displayText]
  cases v.display w.heap setup.depth <;> rfl

/-- A wrong number of arguments is an error value. -/
theorem returns_call_toString {values : List Value} (h : ∀ v, values ≠ [v]) :
    Returns (StandardFunction.toString.call setup values) := by
  match values with
  | [] => exact returns_pure _
  | [v] => exact absurd rfl (h v)
  | _ :: _ :: _ => exact returns_pure _

theorem call_print_halts_iff {values : List Value} {w : World} :
    (∃ halt, ((StandardFunction.print.call setup values).run w).1 = .error halt) ↔
      ∃ v ∈ values, w.heap.Exceeds setup.depth v ∨
        ∃ t, v.display w.heap setup.depth = some t ∧ ∃ c ∈ t, c.isSurrogate = true := by
  have hcall : StandardFunction.print.call setup values = printLine setup values := rfl
  rw [hcall, run_printLine]
  cases htexts : values.mapM (Value.display w.heap setup.depth) with
  | none =>
    obtain ⟨v, hv, hdeep⟩ := mapM_display_eq_none_iff.mp htexts
    exact iff_of_true ⟨_, rfl⟩ ⟨v, hv, .inl hdeep⟩
  | some texts =>
    have hshown : ¬ ∃ v ∈ values, w.heap.Exceeds setup.depth v := by
      rw [← mapM_display_eq_none_iff, htexts]
      simp
    dsimp only
    cases hrun : Utf8.surrogateRun? 0 (printedLine texts) with
    | none =>
      have hplain := surrogateRun?_printedLine_eq_none_iff.mp hrun
      refine iff_of_false (by simp) ?_
      rintro ⟨v, hv, hdeep | ⟨t, ht, c, hc, hs⟩⟩
      · exact hshown ⟨v, hv, hdeep⟩
      · simp [hplain t ((mem_iff_of_mapM_eq_some htexts).mpr ⟨v, hv, ht⟩) c hc] at hs
    | some fault =>
      refine iff_of_true ⟨_, rfl⟩ ?_
      have hnot : ¬ ∀ t ∈ texts, ∀ c ∈ t, c.isSurrogate = false := by
        rw [← surrogateRun?_printedLine_eq_none_iff, hrun]
        simp
      simp only [Classical.not_forall, Bool.not_eq_false, exists_prop] at hnot
      obtain ⟨t, ht, c, hc, hs⟩ := hnot
      obtain ⟨v, hv, hdisplay⟩ := (mem_iff_of_mapM_eq_some htexts).mp ht
      exact ⟨v, hv, .inr ⟨t, hdisplay, c, hc, hs⟩⟩

theorem call_toString_halts_iff {values : List Value} {w : World} :
    (∃ halt, ((StandardFunction.toString.call setup values).run w).1 = .error halt) ↔
      ∃ v, values = [v] ∧ w.heap.Exceeds setup.depth v := by
  by_cases hone : ∃ v, values = [v]
  · obtain ⟨v, rfl⟩ := hone
    have hdeep : v.display w.heap setup.depth = none ↔ w.heap.Exceeds setup.depth v :=
      Value.display_eq_none_iff
    rw [run_call_toString]
    cases hd : v.display w.heap setup.depth with
    | none => exact iff_of_true ⟨_, rfl⟩ ⟨v, rfl, hdeep.mp hd⟩
    | some t =>
      refine iff_of_false (by simp) ?_
      rintro ⟨u, hu, hexceeds⟩
      obtain rfl : v = u := by simpa using hu
      simp [hdeep.mpr hexceeds] at hd
  · refine iff_of_false ?_ fun ⟨v, hv, _⟩ => hone ⟨v, hv⟩
    rintro ⟨halt, he⟩
    exact (returns_call_toString fun v hv => hone ⟨v, hv⟩).run_ne_error w halt he

/-- A call that ends the run has left the world as it was. -/
theorem world_of_call_halts (hl : setup.lenient = true) {f : StandardFunction}
    {values : List Value} {w : World} {halt : Halt}
    (h : ((f.call setup values).run w).1 = .error halt) : ((f.call setup values).run w).2 = w := by
  by_cases hprint : f = .print
  · subst hprint
    have hcall : StandardFunction.print.call setup values = printLine setup values := rfl
    rw [hcall, run_printLine] at h ⊢
    split at h
    · rfl
    · split at h
      · rfl
      · simp at h
  · by_cases hshow : f = .toString
    · subst hshow
      obtain ⟨v, rfl, -⟩ := call_toString_halts_iff.mp ⟨halt, h⟩
      rw [run_call_toString] at h ⊢
      split at h
      · simp at h
      · rfl
    · exact absurd h ((returns_call hl hprint hshow values).run_ne_error w halt)

end StandardFunction

/-! ## Sessions -/

namespace Session

/-- In every session the document functions answer excess nesting with an error value. -/
theorem History.lenient {sources : List Text} {s : Session} (h : History sources s) :
    s.setup.lenient = true := by
  induction h with
  | fresh config around => rfl
  | run source _ ih => rwa [run_setup]
  | log level message _ ih => exact ih
  | closeLink _ ih => exact ih

/-- A call of the standard library gives a value, whatever world it is made in, whatever it is called
with and whatever is left of the bound on nesting, with two exceptions: `print` and `toString` of a
value that is nested beyond what is left, and `print` of a text with a surrogate. These end the run,
and have changed nothing. -/
theorem call_halts_iff {sources : List Text} {s : Session} (h : History sources s) (depth : Nat)
    (f : StandardFunction) (values : List Value) (w : World) :
    ((∃ halt, ((Run.callNative s.setup depth (.standard f) values).run w).1 = .error halt) ↔
      (f = .print ∧ ∃ v ∈ values, w.heap.Exceeds depth v ∨
        ∃ t, v.display w.heap depth = some t ∧ ∃ c ∈ t, c.isSurrogate = true) ∨
      (f = .toString ∧ ∃ v, values = [v] ∧ w.heap.Exceeds depth v)) ∧
    ((∃ halt, ((Run.callNative s.setup depth (.standard f) values).run w).1 = .error halt) →
      ((Run.callNative s.setup depth (.standard f) values).run w).2 = w) := by
  have hlenient : { s.setup with depth }.lenient = true := h.lenient
  change ((∃ halt, ((f.call { s.setup with depth } values).run w).1 = .error halt) ↔ _) ∧ _
  refine ⟨?_, fun ⟨halt, he⟩ => StandardFunction.world_of_call_halts hlenient he⟩
  by_cases hprint : f = .print
  · subst hprint
    simp [StandardFunction.call_print_halts_iff]
  · by_cases hshow : f = .toString
    · subst hshow
      simp [StandardFunction.call_toString_halts_iff]
    · refine iff_of_false ?_ (by simp [hprint, hshow])
      rintro ⟨halt, he⟩
      exact (StandardFunction.returns_call hlenient hprint hshow values).run_ne_error w halt he

/-! ## A string that cannot be printed -/

/-- A string with nothing but a surrogate in it. -/
def loneSurrogate : Value := .string [.surrogate 0]

theorem call_halts_iff_loneSurrogate :
    History [] (fresh quiet .bare) ∧
      (∃ halt, ((Run.callNative (fresh quiet .bare).setup 9 (.standard .print)
        [loneSurrogate]).run (fresh quiet .bare).world).1 = .error halt) ∧
      ¬ ∃ halt, ((Run.callNative (fresh quiet .bare).setup 9 (.standard .toJson)
        [loneSurrogate]).run (fresh quiet .bare).world).1 = .error halt := by
  have hfresh := History.fresh quiet .bare
  refine ⟨hfresh, ?_, ?_⟩
  · rw [(call_halts_iff hfresh 9 .print [loneSurrogate] _).1]
    exact .inl ⟨rfl, loneSurrogate, List.mem_cons_self, .inr ⟨_, rfl, _, List.mem_cons_self, rfl⟩⟩
  · rw [(call_halts_iff hfresh 9 .toJson [loneSurrogate] _).1]
    simp

/-- A script that prints a surrogate and goes on. -/
def unprintable : Text := "print(\"\\u\x7bd800\x7d\"); true"

/-- Its statements. -/
def unprintableProgram : List Stmt :=
  [.expression (.call (.variable "print" ⟨0, 5, 1⟩)
      [.literal (.string [.surrogate 0]) ⟨6, 16, 1⟩] ⟨5, 6, 1⟩) ⟨0, 5, 1⟩,
    .expression (.literal (.boolean true) ⟨19, 23, 1⟩) ⟨19, 23, 1⟩]

theorem compile_unprintable : compile 1500 unprintable = .ok unprintableProgram := by
  cbv

theorem run_unprintableProgram {setup : Setup} {depth : Nat} (hd : setup.depth = depth + 3)
    {w : World} (hprint : (w.scopes.bindings 0).get? "print" =
      some (.function (.native (.standard .print)))) :
    (Run.program setup ⟨0, []⟩ .null unprintableProgram).run w =
      (.error (.internal (.unencodable ⟨0, 0, 0⟩)), w) := by
  have hget : w.scopes.get? ⟨0, []⟩ "print" = some (.function (.native (.standard .print))) :=
    Scopes.get?_of_bindings hprint
  have hlookup := Run.run_lookup_of_get? hget ⟨0, 5, 1⟩
  let below : Setup := { setup with depth := depth + 1 }
  have hdisplay : loneSurrogate.display w.heap below.depth = some [.surrogate 0] := rfl
  have hcall : (StandardFunction.print.call below [loneSurrogate]).run w =
      (.error (.internal (.unencodable ⟨0, 0, 0⟩)), w) := by
    have hline : StandardFunction.print.call below [loneSurrogate] =
        StandardFunction.printLine below [loneSurrogate] := rfl
    rw [hline, StandardFunction.run_printLine, List.mapM_cons, hdisplay]
    rfl
  simp only [unprintableProgram, Run.program, hd, Run.evaluate, Run.run_bind, hlookup,
    List.mapM_cons, List.mapM_nil, Run.run_pure, Value.ofLiteral, Run.callFunction,
    Run.callNative]
  rw [← loneSurrogate, hcall]

/-- The script ends at its first statement, with an internal failure. -/
theorem unprintable_ends :
    History [] withoutBootstrap ∧
      (withoutBootstrap.run unprintable).1 = .failure (.internal (.unencodable ⟨0, 0, 0⟩)) := by
  refine ⟨History.fresh quiet .bare, ?_⟩
  have hrun := run_unprintableProgram (w := (withoutBootstrap.announced unprintable).world)
    depth_withoutBootstrap (get?_fresh quiet rfl .print)
  rw [run_of_compile_ok (by rw [depth_withoutBootstrap, compile_unprintable]),
    runStatements_of_run (s := withoutBootstrap.announced unprintable) root_withoutBootstrap hrun]
  rfl

end Session

end HostScript
