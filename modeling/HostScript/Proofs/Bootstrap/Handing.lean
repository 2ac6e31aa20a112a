import HostScript.Proofs.Bootstrap.ForEach

/-!
# Handing a function to `forEach`

A function of the library makes a function of one parameter in its own scope and has `forEach` call
it. If each call of that function calls another function once, then the other function has been
called for all elements in the end (`execute_forEach`).
-/

namespace HostScript.Bootstrap

open Run

/-- The names of the root scope that the library looks up when its functions are called. -/
def used : List Name := ["arrayLen", "arrayPushBack", "toString", "forEach"]

/-- A world that has the library: whatever it refers to is there, and the names that the library
looks up are bound to what they were bound to at first. -/
structure Loaded (w : World) : Prop where
  closed : w.Closed
  arrayLen : (w.scopes.bindings 0).get? "arrayLen" = some (.function (.native (.standard .arrayLen)))
  arrayPushBack : (w.scopes.bindings 0).get? "arrayPushBack" =
    some (.function (.native (.standard .arrayPushBack)))
  toString : (w.scopes.bindings 0).get? "toString" = some (.function (.native (.standard .toString)))
  forEach : ∃ id, (w.scopes.bindings 0).get? "forEach" =
    some (.function (.closure (Bootstrap.forEach.closure id)))

theorem Loaded.hasRoot {w : World} (h : Loaded w) : w.Has (.scope 0) :=
  Scopes.lt_size_of_get? h.arrayLen

/-- How `forEach` calls a function that was made in the scope of its caller. -/
def handed (c : Callback) (depth id : Nat) (body : List Stmt) (here : ScopeId) : Callback where
  setup := c.setup
  depth := depth + 2
  f := .function (.closure ⟨id, none, ["item"], body, ⟨here, [0]⟩⟩)
  initial := .null
  arguments := fun _ x => [x]

variable {c : Callback} {a : ArrayId} {w u w₁ : World} {own own₁ kept : Place → Prop}
  {Holds : List Value → List Value → World → Prop} {here : ScopeId} {depth : Nat}
  {before after results : List Value} {name : Name} {v x : Value}

/-! ## Variables -/

/-- A variable of the caller, seen from a scope inside. -/
theorem get?_inside (inner : ScopeId) (hinner : (u.scopes.bindings inner).has name = false)
    (hv : (u.scopes.bindings here).get? name = some v) :
    u.scopes.get? ⟨inner, [here, 0]⟩ name = some v := by
  have houter : u.scopes.get? ⟨here, [0]⟩ name = some v := Scopes.get?_of_bindings hv
  have henter : u.scopes.get? ((⟨here, [0]⟩ : Env).enter inner) name =
      u.scopes.get? ⟨here, [0]⟩ name :=
    Scopes.get?_enter hinner
  exact henter.trans houter

/-- A variable of the root scope, seen from the scope of the caller. -/
theorem get?_root (hhere : (u.scopes.bindings here).has name = false)
    (hv : (u.scopes.bindings 0).get? name = some v) : u.scopes.get? ⟨here, [0]⟩ name = some v := by
  have houter : u.scopes.get? ⟨0, []⟩ name = some v := Scopes.get?_of_bindings hv
  have henter : u.scopes.get? ((⟨0, []⟩ : Env).enter here) name = u.scopes.get? ⟨0, []⟩ name :=
    Scopes.get?_enter hhere
  exact henter.trans houter

theorem get?_root_inside (inner : ScopeId) (hinner : (u.scopes.bindings inner).has name = false)
    (hhere : (u.scopes.bindings here).has name = false)
    (hv : (u.scopes.bindings 0).get? name = some v) :
    u.scopes.get? ⟨inner, [here, 0]⟩ name = some v := by
  have henter : u.scopes.get? ((⟨here, [0]⟩ : Env).enter inner) name =
      u.scopes.get? ⟨here, [0]⟩ name :=
    Scopes.get?_enter hinner
  exact henter.trans (get?_root hhere hv)

/-- A caller finds the names of the library bound to what they were bound to when it began. -/
theorem get?_of_since (h : Since used a w own u) (hname : name ∈ used)
    (hv : (w.scopes.bindings 0).get? name = some v) : (u.scopes.bindings 0).get? name = some v := by
  rw [h.names name hname, hv]

/-! ## The call of the other function -/

/-- The world in which the body of a handed function runs. -/
def inside (u : World) (x : Value) : World := u.push ⟨[("item", x)]⟩

theorem bindings_inside (hhere : here < u.next) :
    (inside u x).scopes.bindings here = u.scopes.bindings here :=
  World.bindings_push_of_lt hhere _

theorem bindings_inside_next : (inside u x).scopes.bindings u.next = ⟨[("item", x)]⟩ :=
  World.bindings_push_next

/-- The parameter of a handed function. -/
theorem get?_item : (inside u x).scopes.get? ⟨u.next, [here, 0]⟩ "item" = some x :=
  Scopes.get?_of_bindings (by rw [bindings_inside_next]; rfl)

/-- A variable of the caller, in the body of a handed function. -/
theorem get?_caller (hhere : here < u.next)
    (hname : (⟨[("item", x)]⟩ : Dict Value).has name = false)
    (hv : (u.scopes.bindings here).get? name = some v) :
    (inside u x).scopes.get? ⟨u.next, [here, 0]⟩ name = some v :=
  get?_inside u.next (by rwa [bindings_inside_next]) (by rwa [bindings_inside hhere])

/-- A name of the library, in the body of a handed function. -/
theorem get?_library (h : Since used a w own u) (hused : name ∈ used) (hhere : here < u.next)
    (hname : (⟨[("item", x)]⟩ : Dict Value).has name = false)
    (hlocal : (u.scopes.bindings here).has name = false)
    (hv : (w.scopes.bindings 0).get? name = some v) :
    (inside u x).scopes.get? ⟨u.next, [here, 0]⟩ name = some v := by
  have hroot : 0 < u.next := h.below.has h.hasRoot
  refine get?_root_inside u.next (by rwa [bindings_inside_next]) (by rwa [bindings_inside hhere]) ?_
  rw [bindings_inside hroot]
  exact get?_of_since h hused hv

/-- The elements of the array can be seen. -/
theorem shown_element (h : Since used a w own u)
    (helements : (w.heap.array a).toList = before ++ x :: after) : x.Shown own u := by
  refine h.shown_of_mem_array ?_
  rw [h.array, ← Array.mem_toList_iff, helements]
  simp

/-- A handed function has a scope of its own and calls the other function from there. -/
theorem exists_call_inside (ha : c.Applies used a w) (h : c.Reached used a w own before results u)
    (helements : (w.heap.array a).toList = before ++ x :: after)
    (harguments : ∀ v ∈ c.arguments (results.getLastD c.initial) x, v.Shown own u) :
    ∃ r u₂, (c.call results x).run (inside u x) = (.ok r, u₂) ∧
      c.Reached used a w (fun p => own p ∨ p = .scope u.next) (before ++ [x]) (results ++ [r]) u₂ ∧
      r.Within u₂.extent ∧ (∀ p, own p → u.SameAt u₂ p) ∧
      u₂.scopes.bindings u.next = ⟨[("item", x)]⟩ := by
  have hx : x.Shown own u := shown_element h.since helements
  have hwork : u.Works own (fun p => own p ∨ p = .scope u.next) (inside u x) :=
    .push own fun e he => List.mem_singleton.mp he ▸ hx.known
  obtain ⟨r, u₂, hrun, hreached, -, hr, hsame⟩ := (h.works hwork).call ha.serves helements ha.known
    fun v hv => (harguments v hv).works hwork
  refine ⟨r, u₂, hrun, hreached, hr.known, fun p hp => ?_, ?_⟩
  · exact (World.sameAt_push (h.since.new p hp).1 _).trans (hsame p (.inl hp))
  · exact Eq.trans (hsame (.scope u.next) (.inr rfl)) World.bindings_push_next

/-! ## The call of `forEach` -/

/-- A caller can have `forEach` call a function from its own scope. -/
theorem applies_handed {body : List Stmt} {id : Nat} (hl : Loaded w) (ha : c.Applies used a w)
    (hstart : c.Between used a w kept Holds own₁ [] [] w₁) (hhere : own₁ (.scope here))
    (hserves : (handed c depth id body here).Serves used a (w.heap.array a).toList w₁) :
    (handed c depth id body here).Applies used a w₁ where
  closed := hstart.reached.since.closed
  hasArray := hstart.reached.since.below.has ha.hasArray
  known := by
    refine ⟨fun other hother => World.place_extent.mpr ?_, trivial⟩
    rcases List.mem_pair.mp hother with rfl | rfl
    · exact (hstart.reached.since.new _ hhere).1
    · exact hstart.reached.since.below.has hl.hasRoot
  few := by
    rw [hstart.reached.since.array]
    exact ha.few
  exact := by
    rw [hstart.reached.since.array]
    exact ha.exact
  arrayLen := get?_of_since hstart.reached.since (by decide) hl.arrayLen
  serves := by
    rw [hstart.reached.since.array]
    exact hserves

/-- When the function that is handed to `forEach` calls another one each time, the other one has been
called for all elements of the array in the end. -/
theorem execute_forEach {body : List Stmt} (hl : Loaded w) (ha : c.Applies used a w)
    (hrelays : ∀ id, (handed c depth id body here).Relays c used a w kept Holds
      (w.heap.array a).toList)
    (hplaces : ∀ elements results u v, (∀ p, kept p → u.SameAt v p) →
      Holds elements results u → Holds elements results v)
    (hstart : c.Between used a w kept Holds own₁ [] [] w₁) (hhere : own₁ (.scope here))
    (harray : (w₁.scopes.bindings here).get? "array" = some (.array a))
    (hname : (w₁.scopes.bindings here).has "forEach" = false) (s₁ s₂ s₃ s₄ s₅ : Span) :
    ∃ own results u, c.Between used a w kept Holds own (w.heap.array a).toList results u ∧
      (execute c.setup (depth + 8) ⟨here, [0]⟩ (.expression (.call (.variable "forEach" s₁)
        [.variable "array" s₂, .function ["item"] body s₃] s₄) s₅)).run w₁ = (.ok .normal, u) := by
  obtain ⟨id, hforEach⟩ := hl.forEach
  let w₂ : World := { w₁ with closures := w₁.closures + 1 }
  have hwork : w₁.Works own₁ own₁ w₂ := .newFunction own₁ w₁ _
  have hsame : ∀ p, w₁.SameAt w₂ p := fun p => World.SameAt.refl w₁ p
  have hstart₂ : c.Between used a w kept Holds own₁ [] [] w₂ :=
    ⟨hstart.reached.works hwork, hstart.keeps, hplaces _ _ w₁ w₂ (fun p _ => hsame p) hstart.holds⟩
  have happlies := applies_handed hl ha hstart₂ hhere
    (Callback.serves_of_relays (hrelays w₁.closures) hplaces hstart₂)
  obtain ⟨own, given, u, hgiven, hrun⟩ := run_forEach rfl rfl happlies id (some s₄)
  rw [hstart₂.reached.since.array] at hgiven
  obtain ⟨all, results, hbetween, -⟩ := Callback.between_of_visits (hrelays w₁.closures) hplaces
    hstart₂ (List.append_nil _).symm hgiven.visits
  have hfound : w₁.scopes.get? ⟨here, [0]⟩ "forEach" =
      some (.function (.closure (Bootstrap.forEach.closure id))) :=
    get?_root hname (get?_of_since hstart.reached.since (by decide) hforEach)
  have harguments : (List.mapM (evaluate c.setup (depth + 6) ⟨here, [0]⟩)
      [.variable "array" s₂, .function ["item"] body s₃]).run w₁ =
        (.ok [.array a, (handed c depth w₁.closures body here).f], w₂) :=
    run_mapM_cons (evaluate_variable (Scopes.get?_of_bindings harray) s₂)
      (run_mapM_cons (evaluate_function _ _ s₃) rfl)
  exact ⟨all, results, u, hbetween,
    execute_expression ((evaluate_call (evaluate_variable hfound s₁) harguments s₄).trans hrun) s₅⟩

end HostScript.Bootstrap
