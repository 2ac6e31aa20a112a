import HostScript.Proofs.Run.Extents
import HostScript.Proofs.Run.Invariants

/-!
# Worlds without dangling references

A world is closed if everything that it refers to is there. Whatever is run in a closed world, with
values that refer to what is there, leaves a closed world in which nothing is gone, and gives a value
that refers to what is there (`growsAt`). `Run.Grows` says so of one run, and `Run.closing` is the
invariant that all single operations keep.
-/

namespace HostScript

/-! ## Worlds -/

/-- The bounds of all that is there. -/
def World.extent (w : World) : Bounds := w.heap.extent w.scopes.frames.size

/-- Everything that a world refers to is there. -/
structure World.Closed (w : World) : Prop where
  scopes : ∀ id, ∀ v ∈ w.scopes.members id, v.Within w.extent
  heap : w.heap.Closed w.scopes.frames.size

/-- Everything that is in one world is in another. -/
structure World.Below (w w' : World) : Prop where
  scopes : w.scopes.frames.size ≤ w'.scopes.frames.size
  heap : ∀ c, w.heap.Has c → w'.heap.Has c

namespace World

variable {w w' w'' : World}

theorem place_extent {p : Place} : w.extent.place p ↔ w.Has p := by
  cases p <;> rfl

theorem Closed.within (hw : w.Closed) {p : Place} {v : Value} (hv : v ∈ w.members p) :
    v.Within w.extent := by
  cases p with
  | scope id => exact hw.scopes id v hv
  | composite c => exact hw.heap c v hv

namespace Below

theorem refl (w : World) : w.Below w := ⟨Nat.le_refl _, fun _ hc => hc⟩

theorem trans (h : w.Below w') (h' : w'.Below w'') : w.Below w'' :=
  ⟨Nat.le_trans h.scopes h'.scopes, fun c hc => h'.heap c (h.heap c hc)⟩

theorem has (h : w.Below w') {p : Place} (hp : w.Has p) : w'.Has p := by
  cases p with
  | scope id => exact Nat.lt_of_lt_of_le hp h.scopes
  | composite c => exact h.heap c hp

theorem place (h : w.Below w') (p : Place) (hp : w.extent.place p) : w'.extent.place p :=
  place_extent.mpr (h.has (place_extent.mp hp))

theorem within (h : w.Below w') {v : Value} (hv : v.Within w.extent) : v.Within w'.extent :=
  hv.mono h.place fun _ => trivial

theorem env (h : w.Below w') {env : Env} (he : env.Within w.extent) : env.Within w'.extent :=
  he.mono h.place

end Below

/-- A closed world stays closed if its scopes change and refer to what is there. -/
theorem Closed.withScopes (hw : w.Closed) {s : Scopes Value}
    (hsize : w.scopes.frames.size ≤ s.frames.size)
    (hm : ∀ id, ∀ v ∈ s.members id, v.Within { w with scopes := s }.extent) :
    w.Below { w with scopes := s } ∧ { w with scopes := s }.Closed := by
  have hbelow : w.Below { w with scopes := s } := ⟨hsize, fun _ hc => hc⟩
  exact ⟨hbelow, hm, fun c v hv => hbelow.within (hw.heap c v hv)⟩

theorem Closed.withHeap (hw : w.Closed) {h : Heap} (hg : w.heap.Grown w.scopes.frames.size h) :
    w.Below { w with heap := h } ∧ { w with heap := h }.Closed := by
  have hbelow : w.Below { w with heap := h } := ⟨Nat.le_refl _, hg.has⟩
  exact ⟨hbelow, fun id v hv => hbelow.within (hw.scopes id v hv), hg.closed⟩

/-- A new scope brings in no values but its own. -/
theorem mem_members_push {d : Dict Value} {id : ScopeId} {v : Value}
    (h : v ∈ (w.push d).scopes.members id) :
    (∃ e ∈ d.entries, e.2 = v) ∨ v ∈ w.scopes.members id := by
  rw [Scopes.members, bindings_push] at h
  split at h
  · exact .inl (List.mem_map.mp h)
  · exact .inr h

/-- A scope comes in that refers to what is there. -/
theorem Closed.push (hw : w.Closed) {d : Dict Value}
    (hd : ∀ e ∈ d.entries, e.2.Within w.extent) : w.Below (w.push d) ∧ (w.push d).Closed := by
  have hbelow : w.Below (w.push d) := ⟨by simp [World.push], fun _ hc => hc⟩
  refine hw.withScopes hbelow.scopes fun id v hv => hbelow.within ?_
  rcases mem_members_push hv with ⟨e, he, rfl⟩ | hv
  · exact hd e he
  · exact hw.scopes id v hv

theorem Closed.bind (hw : w.Closed) (id : ScopeId) (name : Name) {v : Value}
    (hv : v.Within w.extent) : w.Below (w.bind id name v) ∧ (w.bind id name v).Closed := by
  have hbelow : w.Below (w.bind id name v) := ⟨Nat.le_of_eq World.next_bind.symm, fun _ hc => hc⟩
  refine hw.withScopes hbelow.scopes fun other u hu => hbelow.within ?_
  rcases Scopes.mem_members_bind hu with rfl | hu
  · exact hv
  · exact hw.scopes other u hu

end World

/-! ## Runs -/

namespace Run

variable {α β : Type} {w : World}

/-- A run loses nothing, leaves a closed world, and has a result that satisfies `Q` there. -/
def Grows (w : World) (m : Run α) (Q : World → α → Prop) : Prop :=
  w.Below (m.run w).2 ∧ (m.run w).2.Closed ∧ ∀ a, (m.run w).1 = .ok a → Q (m.run w).2 a

/-- A run gives a value that refers to what is there. -/
abbrev GrowsTo (w : World) (m : Run Value) : Prop := Grows w m fun w' v => v.Within w'.extent

theorem grows_pure {a : α} {Q : World → α → Prop} (hw : w.Closed) (h : Q w a) :
    Grows w (pure a) Q :=
  ⟨.refl w, hw, fun _ ha => Except.ok.inj ha ▸ h⟩

theorem grows_modifyGet {f : World → α × World} {Q : World → α → Prop}
    (h : w.Below (f w).2 ∧ (f w).2.Closed) (hq : Q (f w).2 (f w).1) : Grows w (modifyGet f) Q :=
  ⟨h.1, h.2, fun _ ha => Except.ok.inj ha ▸ hq⟩

theorem grows_heap_bind {f : Heap → Run β} {Q : World → β → Prop} (h : Grows w (f w.heap) Q) :
    Grows w (heap >>= f) Q := h

theorem grows_onHeap {f : Heap → α × Heap} {Q : World → α → Prop} (hw : w.Closed)
    (hg : w.heap.Grown w.scopes.frames.size (f w.heap).2)
    (hq : Q { w with heap := (f w.heap).2 } (f w.heap).1) : Grows w (onHeap f) Q :=
  grows_modifyGet (hw.withHeap hg) hq

/-- What a statement gives refers to what is there. -/
abbrev GrowsFlow (w : World) (m : Run Flow) : Prop := Grows w m fun w' flow => flow.Within w'.extent

/-- A run that changes no scope, array or table gives a closed world back. -/
theorem grows_of_spares {m : Run Value} (hw : w.Closed)
    (hm : ∀ scopes heap, Spares scopes heap m Value.Plain) : GrowsTo w m := by
  obtain ⟨⟨hscopes, hheap⟩, hresult⟩ := hm w.scopes w.heap w ⟨rfl, rfl⟩
  have hextent : (m.run w).2.extent = w.extent := by rw [World.extent, hscopes, hheap, World.extent]
  refine ⟨⟨hscopes ▸ Nat.le_refl _, fun c hc => hheap ▸ hc⟩, ⟨?_, ?_⟩, fun v hv => ?_⟩
  · rw [hextent, hscopes]
    exact hw.scopes
  · rw [hscopes, hheap]
    exact hw.heap
  · rw [hv] at hresult
    exact hresult _

end Run

/-! ## The standard library -/

theorem grows_withArguments {w : World} {name : Text} {kinds : List Kind} {values : List Value}
    {body : Arguments kinds → Run Value} (hw : w.Closed) (hv : ∀ v ∈ values, v.Within w.extent)
    (hb : ∀ arguments, arguments.Within w.extent kinds → Run.GrowsTo w (body arguments)) :
    Run.GrowsTo w (withArguments name kinds values body) := by
  unfold withArguments
  split
  · next arguments hr =>
    refine hb arguments ?_
    unfold readArguments at hr
    split at hr
    · simp at hr
    · exact readKinds_within hv hr
  · exact Run.grows_pure hw trivial

namespace StandardFunction

open Run

variable {w : World} {setup : Setup}

theorem spares_displayText {scopes : Scopes Value} {heap : Heap} (setup : Setup) (v : Value) :
    Spares scopes heap (displayText setup v) fun _ => True := by
  refine ensures_bind (P := fun _ => True) (ensures_bind ensures_get fun _ _ => ensures_pure trivial)
    fun h _ => ?_
  split
  · exact ensures_pure trivial
  · exact ensures_halt fun _ => trivial

theorem spares_nestedTooDeeply {scopes : Scopes Value} {heap : Heap} (setup : Setup)
    (message : Text) : Spares scopes heap (nestedTooDeeply setup message) Value.Plain := by
  unfold nestedTooDeeply
  split
  · exact ensures_pure fun _ => trivial
  · exact ensures_halt fun _ => trivial

theorem spares_printLine {scopes : Scopes Value} {heap : Heap} (setup : Setup)
    (values : List Value) : Spares scopes heap (printLine setup values) Value.Plain := by
  refine ensures_bind (ensures_mapM fun v _ => spares_displayText setup v) fun texts _ => ?_
  dsimp only
  split
  · exact ensures_halt fun _ => trivial
  · exact ensures_bind (spares_note _) fun _ _ => ensures_pure fun _ => trivial

theorem spares_writeJson {scopes : Scopes Value} {heap : Heap} (setup : Setup) (v : Value) :
    Spares scopes heap (writeJson setup v) Value.Plain := by
  refine ensures_bind (P := fun _ => True) (ensures_bind ensures_get fun _ _ => ensures_pure trivial)
    fun h _ => ?_
  split
  · exact ensures_pure fun _ => trivial
  · exact ensures_pure fun _ => trivial
  · exact spares_nestedTooDeeply setup _

theorem grows_readJson (hw : w.Closed) (t : Text) : GrowsTo w (readJson setup t) := by
  unfold readJson
  split
  · exact grows_onHeap hw (hw.heap.load _).1 (hw.heap.load _).2
  · exact grows_pure hw trivial
  · exact grows_of_spares hw fun _ _ => spares_nestedTooDeeply setup _

theorem grows_call (hw : w.Closed) (f : StandardFunction) {values : List Value}
    (hv : ∀ v ∈ values, v.Within w.extent) : GrowsTo w (f.call setup values) := by
  have hheap := hw.heap
  cases f with
  | print => exact grows_of_spares hw fun _ _ => spares_printLine setup values
  | toString =>
    refine grows_withArguments hw hv fun (v, _) _ => grows_of_spares hw fun _ _ => ?_
    exact ensures_bind (spares_displayText setup v) fun _ _ => ensures_pure fun _ => trivial
  | toJson =>
    exact grows_withArguments hw hv fun (v, _) _ => grows_of_spares hw fun _ _ =>
      spares_writeJson setup v
  | fromJson => exact grows_withArguments hw hv fun (t, _) _ => grows_readJson hw t
  | createArray =>
    change GrowsTo w (onHeap (·.createArray values))
    exact grows_onHeap hw (hheap.createArray hv).1 (hheap.createArray hv).2
  | arrayLen =>
    exact grows_withArguments hw hv fun _ _ => grows_heap_bind (grows_pure hw trivial)
  | arrayGet =>
    refine grows_withArguments hw hv fun (id, x, _) _ => ?_
    exact grows_heap_bind (grows_pure hw (hheap.arrayGet id x))
  | arraySet =>
    refine grows_withArguments hw hv fun (id, x, v, _) ⟨_, _, hin, _⟩ => ?_
    exact grows_onHeap hw (hheap.arraySet id x hin).1 (hheap.arraySet id x hin).2
  | arrayPushBack =>
    refine grows_withArguments hw hv fun (id, v, _) ⟨_, hin, _⟩ => ?_
    exact grows_onHeap hw (hheap.arrayPushBack id hin) trivial
  | arrayPopBack =>
    refine grows_withArguments hw hv fun (id, _) _ => ?_
    exact grows_onHeap hw (hheap.arrayPopBack id).1 (hheap.arrayPopBack id).2
  | arrayInsert =>
    refine grows_withArguments hw hv fun (id, x, v, _) ⟨_, _, hin, _⟩ => ?_
    exact grows_onHeap hw (hheap.arrayInsert id x hin).1 (hheap.arrayInsert id x hin).2
  | arrayRemove =>
    refine grows_withArguments hw hv fun (id, x, _) _ => ?_
    exact grows_onHeap hw (hheap.arrayRemove id x).1 (hheap.arrayRemove id x).2
  | createTable =>
    exact grows_withArguments hw hv fun _ _ =>
      grows_onHeap hw hheap.createTable.1 hheap.createTable.2
  | tableSet =>
    refine grows_withArguments hw hv fun (id, key, v, _) ⟨_, _, hin, _⟩ => ?_
    exact grows_onHeap hw (hheap.tableSet id key hin) trivial
  | tableGet =>
    refine grows_withArguments hw hv fun (id, key, _) _ => ?_
    exact grows_heap_bind (grows_pure hw (hheap.tableGet id key))
  | tableKeys =>
    refine grows_withArguments hw hv fun (id, _) _ => ?_
    exact grows_onHeap hw (hheap.newArray_strings _).1 (hheap.newArray_strings _).2
  | tableMerge =>
    refine grows_withArguments hw hv fun (destination, source, _) _ => ?_
    exact grows_onHeap hw (hheap.tableMerge destination source) trivial
  | stringSplitLines =>
    refine grows_withArguments hw hv fun (t, _) _ => ?_
    exact grows_onHeap hw (hheap.newArray_strings _).1 (hheap.newArray_strings _).2
  | stringLen | stringContains | stringToLower | stringWidth =>
    exact grows_withArguments hw hv fun _ _ => grows_pure hw trivial
  | stringTruncateToWidth =>
    exact grows_withArguments hw hv fun (t, x, _) _ => grows_pure hw (truncated_within t x)
  | renderViewport =>
    exact grows_withArguments hw hv fun (t, x, y, z, _) _ => grows_pure hw (rendered_within t x y z)
  | floor => exact grows_withArguments hw hv fun (x, _) _ => grows_pure hw (floored_within x)

end StandardFunction

namespace Run

variable {w : World} {setup : Setup}

theorem grows_callNative (hw : w.Closed) (depth : Nat) (f : Native) {values : List Value}
    (hv : ∀ v ∈ values, v.Within w.extent) : GrowsTo w (callNative setup depth f values) := by
  cases f with
  | standard f => exact f.grows_call hw hv
  | http f => exact grows_of_spares hw fun _ _ => Http.spares_call setup f values
  | host m => exact grows_of_spares hw fun _ _ => Host.spares_call setup m values

/-! ## All runs -/

/-- Nothing is lost, and everything refers to what is there. -/
def closing : Invariant where
  below := World.Below
  world := World.Closed
  env w e := e.Within w.extent
  value w v := v.Within w.extent

theorem leads_of_grows {α : Type} {m : Run α} {Q : World → α → Prop} (h : Grows w m Q) :
    closing.Leads w m Q :=
  ⟨⟨h.1, h.2.1⟩, h.2.2⟩

theorem grows_of_leads {α : Type} {m : Run α} {Q : World → α → Prop} (h : closing.Leads w m Q) :
    Grows w m Q :=
  ⟨h.later.below, h.later.world, h.result⟩

theorem later_closing {w' : World} (h : w.Below w' ∧ w'.Closed) : closing.Later w w' := ⟨h.1, h.2⟩

theorem flow_closing {f : Flow} : closing.flow w f ↔ f.Within w.extent := by
  cases f <;> rfl

/-- The environment of a new scope. -/
theorem env_closing_push {e : Env} (he : e.Within w.extent) (d : Dict Value) :
    (e.enter w.next).Within (w.push d).extent := by
  have hbelow : w.Below (w.push d) := ⟨by simp [World.push], fun _ hc => hc⟩
  intro id hid
  rcases List.mem_cons.mp hid with rfl | hid
  · change w.next < (w.push d).next
    rw [World.next_push]
    exact Nat.lt_succ_self w.next
  · exact hbelow.env he id hid

theorem kept_closing (setup : Setup) (reached : Stage → Prop) : closing.Kept setup reached where
  refl := .refl
  trans := .trans
  env_mono h he := h.env he
  value_mono h hv := h.within hv
  plain hv := hv _
  lookup hw _ h := by
    obtain ⟨id, -, hmem⟩ := Scopes.mem_bindings_of_get? h
    exact hw.scopes id _ (List.mem_map.mpr ⟨_, hmem, rfl⟩)
  index hw _ := hw.heap.index _ _
  createArray hw hvalues := by
    obtain ⟨hgrown, hv⟩ := hw.heap.createArray hvalues
    exact leads_of_grows (grows_onHeap hw hgrown hv)
  assignIndex hw _ hv := later_closing (hw.withHeap (hw.heap.assignIndex _ _ hv))
  newFunction hw he :=
    leads_of_grows (grows_modifyGet ⟨⟨Nat.le_refl _, fun _ hc => hc⟩, hw.scopes, hw.heap⟩
      ⟨he, trivial⟩)
  callNative hw hvalues := leads_of_grows (grows_callNative hw _ _ hvalues)
  enterCall hw hc hvalues := by
    refine ⟨later_closing (hw.push fun e he => ?_), env_closing_push hc.1 _⟩
    exact hvalues e.2 (List.of_mem_zip (Dict.mem_ofList he)).2
  enter hw he := ⟨later_closing (hw.push (List.forall_mem_nil _)), env_closing_push he _⟩
  bind _ _ _ hw _ hv := later_closing (hw.bind _ _ hv)
  assign hw _ hv _ := later_closing (hw.bind _ _ hv)

/-- Everything that is run at a nesting depth grows a closed world. -/
structure GrowsAt (setup : Setup) (depth : Nat) : Prop where
  evaluate : ∀ w env e, w.Closed → env.Within w.extent → GrowsTo w (evaluate setup depth env e)
  callFunction : ∀ w f values span, w.Closed → f.Within w.extent →
    (∀ v ∈ values, v.Within w.extent) → GrowsTo w (callFunction setup depth f values span)
  execute : ∀ w env s, w.Closed → env.Within w.extent → GrowsFlow w (execute setup depth env s)

theorem growsAt (setup : Setup) (depth : Nat) : GrowsAt setup depth := by
  have hat := Invariant.leadsAt (kept_closing setup fun _ => True) (fun _ _ _ _ => trivial) depth
  constructor
  · intro w env e hw he
    exact grows_of_leads (hat.evaluate trivial hw he)
  · intro w f values span hw hf hvalues
    exact grows_of_leads (hat.callFunction trivial hw hf hvalues)
  · intro w env s hw he
    obtain ⟨hlater, hresult⟩ := hat.execute trivial hw he
    exact grows_of_leads ⟨hlater, fun flow hflow => flow_closing.mp (hresult flow hflow)⟩

theorem grows_program (setup : Setup) (hw : w.Closed) {env : Env} (he : env.Within w.extent)
    {result : Value} (hr : result.Within w.extent) (statements : List Stmt) :
    GrowsTo w (program setup env result statements) :=
  grows_of_leads (Invariant.leads_program (kept_closing setup fun _ => True)
    (fun _ _ _ _ => trivial) hw he hr fun _ _ _ _ _ _ => trivial)

end Run

end HostScript
