import HostScript.Proofs.Bootstrap.Handing

/-!
# Mapping, filtering and reducing

The functions `map`, `filter` and `reduce` of the bootstrap script call the function that they are
given once for each element of an array, in order. The first two collect what they give in a new
array, the third one hands each result to the next call.
-/

namespace HostScript.Bootstrap

open Run

variable {c : Callback} {a : ArrayId} {w u : World} {own : Place → Prop} {here : ScopeId}
  {array : ArrayId} {depth : Nat} {callee : Name} {v : Value}
  {collect : List Value → List Value → List Value} {elements results : List Value}

/-! ## Collecting values -/

/-- The places that a function keeps which collects values: its scope and the new array. -/
def Collects (here : ScopeId) (array : ArrayId) (p : Place) : Prop :=
  p = .scope here ∨ p = .composite (.array array)

/-- The variables of a function that collects values. -/
def collecting (c : Callback) (a : ArrayId) (callee : Name) (array : ArrayId) : Dict Value :=
  (⟨[("array", .array a), (callee, c.f)]⟩ : Dict Value).put "result" (.array array)

/-- The variables of a function that collects values are in place, and it has collected some. -/
def Collected (c : Callback) (a : ArrayId) (callee : Name) (here : ScopeId) (array : ArrayId)
    (collect : List Value → List Value → List Value) (elements results : List Value) (u : World) :
    Prop :=
  u.scopes.bindings here = collecting c a callee array ∧
    u.heap.array array = (collect elements results).toArray

theorem collected_places : ∀ elements results u v, (∀ p, Collects here array p → u.SameAt v p) →
    Collected c a callee here array collect elements results u →
    Collected c a callee here array collect elements results v := by
  rintro elements results u v hsame ⟨hscope, harray⟩
  have hscope' : u.SameAt v (.scope here) := hsame _ (.inl rfl)
  have harray' : u.SameAt v (.composite (.array array)) := hsame _ (.inr rfl)
  exact ⟨Eq.trans hscope' hscope, Eq.trans harray' harray⟩

/-- One more value is collected. -/
theorem Collected.pushBack {elements' results' : List Value}
    (h : Collected c a callee here array collect elements results u)
    (hbound : array < u.heap.arrays.size)
    (hcollect : collect elements' results' = collect elements results ++ [v]) :
    Collected c a callee here array collect elements' results' (u.pushBack array v) := by
  refine ⟨h.1, ?_⟩
  rw [World.array_pushBack_self hbound, h.2, hcollect, List.push_toArray]

/-- The variables of a function that collects values, in the body of the function that it hands to
`forEach`. -/
theorem get?_collecting {x : Value} {name : Name} (hhere : here < u.next)
    (hscope : u.scopes.bindings here = collecting c a callee array)
    (hname : (⟨[("item", x)]⟩ : Dict Value).has name = false)
    (hv : (collecting c a callee array).get? name = some v) :
    (inside u x).scopes.get? ⟨u.next, [here, 0]⟩ name = some v :=
  get?_caller hhere hname (hscope ▸ hv)

/-- A function that collects values begins with a new array in a variable. -/
theorem between_collecting (hl : Loaded w) (ha : c.Applies used a w) (callee : Name)
    (collect : List Value → List Value → List Value) (hcollect : collect [] [] = []) :
    ∃ own, c.Between used a w (Collects w.next w.heap.arrays.size)
      (Collected c a callee w.next w.heap.arrays.size collect) own [] []
      (((w.push ⟨[("array", .array a), (callee, c.f)]⟩).newArray #[]).bind w.next "result"
        (.array w.heap.arrays.size)) := by
  have hpushed : ∀ e ∈ [(Text.ofString "array", Value.array a), (callee, c.f)],
      e.2.Within w.extent := by
    intro e he
    rcases List.mem_pair.mp he with rfl | rfl
    · exact World.place_extent.mpr ha.hasArray
    · exact ha.known
  have hwork : w.Works (fun _ => False)
      (fun p => (False ∨ p = .scope w.next) ∨ p = .composite (.array w.heap.arrays.size))
      (((w.push ⟨[("array", .array a), (callee, c.f)]⟩).newArray #[]).bind w.next "result"
        (.array w.heap.arrays.size)) := by
    refine ((World.Works.push _ hpushed).trans (.newArray _ (by simp))).trans
      (.bind (.inl (.inr rfl)) _ (World.place_extent.mpr ?_))
    change w.heap.arrays.size < (w.heap.arrays.push #[]).size
    simp
  refine ⟨_, (Callback.Reached.start ha.closed ha.hasArray hl.hasRoot).works hwork, ?_, ?_, ?_⟩
  · rintro p (rfl | rfl)
    · exact .inl (.inr rfl)
    · exact .inr rfl
  · rw [World.bindings_bind_self (by simp [World.newArray, World.next, World.push]),
      World.scopes_newArray, World.bindings_push_next]
    rfl
  · rw [hcollect]
    exact World.array_newArray_size _ _

/-- The body of a function that collects values: it hands a function to `forEach` that collects one
value for each element. -/
theorem run_collecting (hl : Loaded w) (ha : c.Applies used a w) (callee : Name)
    (collect : List Value → List Value → List Value) (hcollect : collect [] [] = [])
    (hname : (collecting c a callee w.heap.arrays.size).has "forEach" = false) {body : List Stmt}
    (hrelays : ∀ id, (handed c depth id body w.next).Relays c used a w
      (Collects w.next w.heap.arrays.size)
      (Collected c a callee w.next w.heap.arrays.size collect) (w.heap.array a).toList)
    (s₁ s₂ s₃ s₄ s₅ s₆ s₇ s₈ s₉ : Span) :
    ∃ own results u, c.Reached used a w own (w.heap.array a).toList results u ∧
      (block (execute c.setup (depth + 8) ⟨w.next, [0]⟩)
        [.declare "result" (.array [] s₁) s₂,
          .expression (.call (.variable "forEach" s₃)
            [.variable "array" s₄, .function ["item"] body s₅] s₆) s₇,
          .give (some (.variable "result" s₈)) s₉]).run
          (w.push ⟨[("array", .array a), (callee, c.f)]⟩) =
        (.ok (.give (.array w.heap.arrays.size)), u) ∧
      own (.composite (.array w.heap.arrays.size)) ∧
        u.heap.array w.heap.arrays.size = (collect (w.heap.array a).toList results).toArray := by
  obtain ⟨own₁, hstart⟩ := between_collecting hl ha callee collect hcollect
  obtain ⟨own, results, u, hdone, hforEach⟩ := execute_forEach hl ha hrelays collected_places hstart
    (hstart.keeps _ (.inl rfl)) (hstart.holds.1 ▸ rfl) (hstart.holds.1 ▸ hname) s₃ s₄ s₅ s₆ s₇
  have hresult : u.scopes.get? ⟨w.next, [0]⟩ "result" = some (.array w.heap.arrays.size) :=
    Scopes.get?_of_bindings (hdone.holds.1 ▸ Dict.get?_put_self _ _ _)
  refine ⟨own, results, u, hdone.reached, ?_, hdone.keeps _ (.inr rfl), hdone.holds.2⟩
  refine (run_block_cons (execute_declare (evaluate_array_nil s₁) s₂)).trans ?_
  refine (run_block_cons hforEach).trans ?_
  exact run_block_give (execute_give (evaluate_variable hresult s₈) s₉)

/-- The call of the function that was handed in, in the body of the one that is handed on. -/
theorem evaluate_collecting {x r : Value} {u₂ : World} (hc : c.arguments = fun _ x => [x])
    (hdepth : c.depth = depth + 2) (hhere : here < u.next)
    (hscope : u.scopes.bindings here = collecting c a callee array)
    (hname : (⟨[("item", x)]⟩ : Dict Value).has callee = false)
    (hvalue : (collecting c a callee array).get? callee = some c.f)
    (hrun : (c.call results x).run (inside u x) = (.ok r, u₂)) (s₁ s₂ s₃ : Span) :
    (evaluate c.setup (depth + 3) ⟨u.next, [here, 0]⟩
      (.call (.variable callee s₁) [.variable "item" s₂] s₃)).run (inside u x) = (.ok r, u₂) := by
  rw [Callback.call, hc, hdepth] at hrun
  rw [evaluate_call (evaluate_variable (get?_collecting hhere hscope hname hvalue) s₁)
    (run_mapM_cons (evaluate_variable get?_item s₂) rfl) s₃]
  exact (callFunction_ok_iff _ _ _ _).mp hrun

/-! ## Mapping -/

/-- The function that `map` hands to `forEach` calls the function of `map` once. -/
theorem relays_map (hl : Loaded w) (ha : c.Applies used a w)
    (hc : c.arguments = fun _ x => [x]) (hdepth : c.depth = depth + 2) (id : Nat)
    (s₁ s₂ s₃ s₄ s₅ s₆ s₇ : Span) :
    (handed c (depth + 4) id [.expression (.call (.variable "arrayPushBack" s₁)
        [.variable "result" s₂, .call (.variable "f" s₃) [.variable "item" s₄] s₅] s₆) s₇]
      here).Relays c used a w (Collects here array)
        (Collected c a "f" here array fun _ results => results) (w.heap.array a).toList := by
  intro own before x after results given u helements h
  obtain ⟨hscope, harray⟩ := h.holds
  have hhere : here < u.next := (h.reached.since.new _ (h.keeps _ (.inl rfl))).1
  obtain ⟨r, u₂, hrun, hreached, hr, hsame, -⟩ := exists_call_inside ha h.reached helements
    (by simpa [hc] using shown_element h.reached.since helements)
  have hpush : (inside u x).scopes.get? ⟨u.next, [here, 0]⟩ "arrayPushBack" =
      some (.function (.native (.standard .arrayPushBack))) :=
    get?_library h.reached.since (by decide) hhere rfl (hscope ▸ rfl) hl.arrayPushBack
  have hvalue := evaluate_collecting hc hdepth hhere hscope rfl rfl hrun s₃ s₄ s₅
  have hcollect : (evaluate c.setup (depth + 4) ⟨u.next, [here, 0]⟩
      (.call (.variable "arrayPushBack" s₁)
        [.variable "result" s₂, .call (.variable "f" s₃) [.variable "item" s₄] s₅] s₆)).run
          (inside u x) = (.ok .null, u₂.pushBack array r) := by
    rw [evaluate_call (evaluate_variable hpush s₁) (run_mapM_cons
      (evaluate_variable (get?_collecting hhere hscope rfl rfl) s₂) (run_mapM_cons hvalue rfl)) s₆]
    exact callFunction_arrayPushBack array r _
  have hown : array < u₂.heap.arrays.size :=
    (hreached.since.new (.composite (.array array)) (.inl (h.keeps _ (.inr rfl)))).1
  refine ⟨_, r, .null, u₂.pushBack array r, ?_,
    ⟨hreached.works (.pushBack (.inl (h.keeps _ (.inr rfl))) hr), fun p hp => .inl (h.keeps p hp),
      ?_⟩, fun p hp => .inl hp⟩
  · exact callFunction_normal rfl (run_block_cons (execute_expression hcollect s₇)) none
  · exact (collected_places _ _ u u₂ (fun p hp => hsame p (h.keeps p hp)) h.holds).pushBack hown rfl

/-- The function `map` calls the function that it is given once for each element, in order, and gives
a new array of what these calls give. -/
theorem run_map (hl : Loaded w) (ha : c.Applies used a w) (hc : c.arguments = fun _ x => [x])
    (hdepth : c.depth = depth + 2) (id : Nat) (span : Option Span) :
    ∃ own results u array, c.Reached used a w own (w.heap.array a).toList results u ∧
      (callFunction c.setup (depth + 13) (.function (.closure (map.closure id))) [.array a, c.f]
        span).run w = (.ok (.array array), u) ∧
      own (.composite (.array array)) ∧ u.heap.array array = results.toArray := by
  obtain ⟨own, results, u, hreached, hblock, hown, harray⟩ := run_collecting hl ha "f"
    (fun _ results => results) rfl rfl
    (fun id => relays_map hl ha hc hdepth id ⟨471, 484, 27⟩ ⟨485, 491, 27⟩ ⟨493, 494, 27⟩
      ⟨495, 499, 27⟩ ⟨494, 495, 27⟩ ⟨484, 485, 27⟩ ⟨471, 484, 27⟩)
    ⟨439, 440, 26⟩ ⟨426, 429, 26⟩ ⟨444, 451, 27⟩ ⟨452, 457, 27⟩ ⟨459, 461, 27⟩ ⟨451, 452, 27⟩
    ⟨444, 451, 27⟩ ⟨514, 520, 28⟩ ⟨507, 513, 28⟩
  exact ⟨own, results, u, _, hreached, callFunction_give rfl hblock span, hown, harray⟩

/-! ## Filtering -/

/-- The elements for which a call gives something that counts as true. -/
def passed (elements results : List Value) : List Value :=
  ((elements.zip results).filter fun pair => pair.2.truthy).map (·.1)

theorem passed_concat {x r : Value} (h : results.length = elements.length) :
    passed (elements ++ [x]) (results ++ [r]) =
      passed elements results ++ if r.truthy then [x] else [] := by
  rw [passed, List.zip_append h.symm, List.filter_append, List.map_append, passed]
  cases hr : r.truthy <;> simp [hr]

/-- The element is collected in the branch that is taken when the call lets it pass. -/
theorem evaluate_passing {x : Value} {inner : ScopeId} (hl : Loaded w) (hsince : Since used a w own u)
    (hitem : u.scopes.bindings inner = ⟨[("item", x)]⟩)
    (hscope : u.scopes.bindings here = collecting c a "keep" array) (s₁ s₂ s₃ s₄ : Span) :
    (evaluate c.setup (depth + 2) ((⟨inner, [here, 0]⟩ : Env).enter u.next)
      (.call (.variable "arrayPushBack" s₁) [.variable "result" s₂, .variable "item" s₃] s₄)).run
        (u.push .empty) = (.ok .null, (u.push .empty).pushBack array x) := by
  have hinner {name : Name} {v : Value} (hv : u.scopes.get? ⟨inner, [here, 0]⟩ name = some v) :
      (u.push .empty).scopes.get? ((⟨inner, [here, 0]⟩ : Env).enter u.next) name = some v :=
    (get?_push_empty u _ name).trans hv
  have hpush := hinner (get?_root_inside inner (hitem ▸ rfl) (hscope ▸ rfl)
    (get?_of_since hsince (by decide) hl.arrayPushBack))
  have hresult := hinner (get?_inside inner (hitem ▸ rfl)
    (show (u.scopes.bindings here).get? "result" = some (.array array) from hscope ▸ rfl))
  have helement := hinner (Scopes.get?_of_bindings
    (show (u.scopes.bindings inner).get? "item" = some x from hitem ▸ rfl))
  rw [evaluate_call (evaluate_variable hpush s₁) (run_mapM_cons (evaluate_variable hresult s₂)
    (run_mapM_cons (evaluate_variable helement s₃) rfl)) s₄]
  exact callFunction_arrayPushBack array x _

/-- The function that `filter` hands to `forEach` calls the function of `filter` once. -/
theorem relays_filter (hl : Loaded w) (ha : c.Applies used a w)
    (hc : c.arguments = fun _ x => [x]) (hdepth : c.depth = depth + 2) (id : Nat)
    (s₁ s₂ s₃ s₄ s₅ s₆ s₇ s₈ : Span) :
    (handed c (depth + 3) id [.branch (.call (.variable "keep" s₁) [.variable "item" s₂] s₃)
        [.expression (.call (.variable "arrayPushBack" s₄)
          [.variable "result" s₅, .variable "item" s₆] s₇) s₄] none s₈]
      here).Relays c used a w (Collects here array)
        (Collected c a "keep" here array passed) (w.heap.array a).toList := by
  intro own before x after results given u helements h
  obtain ⟨hscope, harray⟩ := h.holds
  have hhere : here < u.next := (h.reached.since.new _ (h.keeps _ (.inl rfl))).1
  obtain ⟨r, u₂, hrun, hreached, hr, hsame, hitem⟩ := exists_call_inside ha h.reached helements
    (by simpa [hc] using shown_element h.reached.since helements)
  have hcondition := evaluate_collecting hc hdepth hhere hscope rfl rfl hrun s₁ s₂ s₃
  have hplace : own (.composite (.array array)) := h.keeps _ (.inr rfl)
  have hholds : Collected c a "keep" here array passed before results u₂ :=
    collected_places _ _ u u₂ (fun p hp => hsame p (h.keeps p hp)) h.holds
  have hpassed := passed_concat (x := x) (r := r) h.reached.visits.length_eq
  cases htruthy : r.truthy with
  | false =>
    refine ⟨_, r, .null, u₂, ?_, ⟨hreached, fun p hp => .inl (h.keeps p hp), hholds.1, ?_⟩,
      fun p hp => .inl hp⟩
    · exact callFunction_normal rfl (run_block_cons (execute_branch_false hcondition htruthy s₈)) none
    · rw [hpassed, htruthy, hholds.2]
      simp
  | true =>
    have hpushed := hreached.works (.push (d := .empty) _ (by simp [Dict.empty]))
    have hhas : ∀ p, own p → u₂.Has p := fun p hp => (hreached.since.new p (.inl hp)).1
    refine ⟨_, r, .null, (u₂.push .empty).pushBack array x, ?_,
      ⟨hpushed.works (.pushBack (.inl (.inl hplace)) ?_), fun p hp => .inl (.inl (h.keeps p hp)), ?_⟩,
      fun p hp => .inl (.inl hp)⟩
    · refine callFunction_normal rfl (run_block_cons ?_) none
      exact (execute_branch_true hcondition htruthy none s₈).trans
        (run_block_cons (execute_expression
          (evaluate_passing hl hreached.since hitem hholds.1 s₄ s₅ s₆ s₇) s₄))
    · exact (shown_element hpushed.since helements).known
    · refine (collected_places _ _ u₂ _ (fun p hp => World.sameAt_push (hhas p (h.keeps p hp)) _)
        hholds).pushBack (hhas _ hplace) ?_
      rw [hpassed, htruthy]
      rfl

/-- The function `filter` calls the function that it is given once for each element, in order, and
gives a new array of the elements that pass. -/
theorem run_filter (hl : Loaded w) (ha : c.Applies used a w) (hc : c.arguments = fun _ x => [x])
    (hdepth : c.depth = depth + 2) (id : Nat) (span : Option Span) :
    ∃ own results u array, c.Reached used a w own (w.heap.array a).toList results u ∧
      (callFunction c.setup (depth + 12) (.function (.closure (filter.closure id))) [.array a, c.f]
        span).run w = (.ok (.array array), u) ∧
      own (.composite (.array array)) ∧
        u.heap.array array = (passed (w.heap.array a).toList results).toArray := by
  obtain ⟨own, results, u, hreached, hblock, hown, harray⟩ := run_collecting hl ha "keep" passed rfl
    rfl
    (fun id => relays_filter hl ha hc hdepth id ⟨603, 607, 34⟩ ⟨608, 612, 34⟩ ⟨607, 608, 34⟩
      ⟨616, 629, 34⟩ ⟨630, 636, 34⟩ ⟨638, 642, 34⟩ ⟨629, 630, 34⟩ ⟨600, 602, 34⟩)
    ⟨564, 565, 32⟩ ⟨551, 554, 32⟩ ⟨569, 576, 33⟩ ⟨577, 582, 33⟩ ⟨584, 586, 33⟩ ⟨576, 577, 33⟩
    ⟨569, 576, 33⟩ ⟨660, 666, 36⟩ ⟨653, 659, 36⟩
  exact ⟨own, results, u, _, hreached, callFunction_give rfl hblock span, hown, harray⟩

/-! ## Reducing -/

/-- The variables of `reduce`. -/
def reducing (c : Callback) (a : ArrayId) (acc : Value) : Dict Value :=
  (⟨[("array", .array a), ("f", c.f), ("initial", c.initial)]⟩ : Dict Value).put "acc" acc

/-- The variables of `reduce` are in place, and the last result is in one of them. -/
def Reduced (c : Callback) (a : ArrayId) (here : ScopeId) (_ results : List Value) (u : World) :
    Prop :=
  u.scopes.bindings here = reducing c a (results.getLastD c.initial)

theorem reduced_places : ∀ elements results u v, (∀ p, p = .scope here → u.SameAt v p) →
    Reduced c a here elements results u → Reduced c a here elements results v :=
  fun _ _ _ _ hsame h => Eq.trans (hsame _ rfl) h

theorem reducing_put (acc r : Value) : (reducing c a acc).put "acc" r = reducing c a r := rfl

/-- The function that `reduce` hands to `forEach` calls the function of `reduce` once. -/
theorem relays_reduce (hi : c.initial.Within w.extent) (ha : c.Applies used a w)
    (hc : c.arguments = fun last x => [last, x]) (hdepth : c.depth = depth + 2) (id : Nat)
    (s₁ s₂ s₃ s₄ s₅ : Span) :
    (handed c (depth + 3) id [.assign "acc" (.call (.variable "f" s₁)
        [.variable "acc" s₂, .variable "item" s₃] s₄) s₅]
      here).Relays c used a w (fun p => p = .scope here) (Reduced c a here)
        (w.heap.array a).toList := by
  intro own before x after results given u helements h
  have hown : own (.scope here) := h.keeps _ rfl
  have hscope : u.scopes.bindings here = reducing c a (results.getLastD c.initial) := h.holds
  have hhere : here < u.next := (h.reached.since.new _ hown).1
  have harguments : ∀ v ∈ c.arguments (results.getLastD c.initial) x, v.Shown own u := by
    rw [hc]
    exact List.forall_mem_cons.mpr ⟨h.reached.shown_last hi,
      List.forall_mem_singleton.mpr (shown_element h.reached.since helements)⟩
  obtain ⟨r, u₂, hrun, hreached, hr, hsame, hitem⟩ :=
    exists_call_inside ha h.reached helements harguments
  have hlocal {name : Name} {v : Value} (hname : (⟨[("item", x)]⟩ : Dict Value).has name = false)
      (hv : (reducing c a (results.getLastD c.initial)).get? name = some v) :
      (inside u x).scopes.get? ⟨u.next, [here, 0]⟩ name = some v :=
    get?_caller hhere hname (hscope ▸ hv)
  have hscope₂ : u₂.scopes.bindings here = reducing c a (results.getLastD c.initial) :=
    Eq.trans (hsame _ hown) hscope
  have hvalue : (evaluate c.setup (depth + 3) ⟨u.next, [here, 0]⟩
      (.call (.variable "f" s₁) [.variable "acc" s₂, .variable "item" s₃] s₄)).run (inside u x) =
        (.ok r, u₂) := by
    rw [Callback.call, hc, hdepth] at hrun
    rw [evaluate_call (evaluate_variable (hlocal rfl rfl) s₁)
      (run_mapM_cons (evaluate_variable (hlocal rfl rfl) s₂)
        (run_mapM_cons (evaluate_variable get?_item s₃) rfl)) s₄]
    exact (callFunction_ok_iff _ _ _ _).mp hrun
  have howner : u₂.scopes.owner? "acc" (⟨u.next, [here, 0]⟩ : Env).path = some here :=
    (Scopes.owner?_cons_of_not_has (hitem ▸ rfl)).trans
      (Scopes.owner?_cons_of_get? (show (u₂.scopes.bindings here).get? "acc" =
        some (results.getLastD c.initial) from hscope₂ ▸ rfl))
  refine ⟨_, r, .null, u₂.bind here "acc" r, ?_, ⟨hreached.works (.bind (.inl hown) _ hr),
    fun p hp => .inl (h.keeps p hp), ?_⟩, fun p hp => .inl hp⟩
  · exact callFunction_normal rfl (run_block_cons (execute_assign hvalue howner s₅)) none
  · rw [Reduced, World.bindings_bind_self (hreached.since.new _ (.inl hown)).1, hscope₂, reducing_put,
      List.getLastD_concat]

/-- The function `reduce` calls the function that it is given once for each element, in order, each
time with what the call before has given, and gives what the last one gives. -/
theorem run_reduce (hl : Loaded w) (ha : c.Applies used a w) (hi : c.initial.Within w.extent)
    (hc : c.arguments = fun last x => [last, x]) (hdepth : c.depth = depth + 2) (id : Nat)
    (span : Option Span) :
    ∃ own results u, c.Reached used a w own (w.heap.array a).toList results u ∧
      (callFunction c.setup (depth + 12) (.function (.closure (reduce.closure id)))
        [.array a, c.f, c.initial] span).run w = (.ok (results.getLastD c.initial), u) := by
  let w₁ := w.push ⟨[("array", .array a), ("f", c.f), ("initial", c.initial)]⟩
  have hpushed : ∀ e ∈ [(Text.ofString "array", Value.array a), ("f", c.f),
      ("initial", c.initial)], e.2.Within w.extent := by
    simp only [List.forall_mem_cons, List.not_mem_nil, false_imp_iff, implies_true, and_true]
    exact ⟨World.place_extent.mpr ha.hasArray, ha.known, hi⟩
  have hwork : w.Works (fun _ => False) (fun p => False ∨ p = .scope w.next)
      (w₁.bind w.next "acc" c.initial) :=
    (World.Works.push _ hpushed).trans
      (.bind (.inr rfl) _ ((World.Works.push (fun _ => False) hpushed).below.within hi))
  have hscope : (w₁.bind w.next "acc" c.initial).scopes.bindings w.next =
      reducing c a c.initial := by
    rw [World.bindings_bind_self (by simp [w₁]), World.bindings_push_next, reducing]
  have hstart : c.Between used a w (fun p => p = .scope w.next) (Reduced c a w.next)
      (fun p => False ∨ p = .scope w.next) [] [] (w₁.bind w.next "acc" c.initial) :=
    ⟨(Callback.Reached.start ha.closed ha.hasArray hl.hasRoot).works hwork, fun _ hp => .inr hp,
      hscope⟩
  obtain ⟨own, results, u, hdone, hforEach⟩ := execute_forEach hl ha
    (fun id => relays_reduce hi ha hc hdepth id ⟨756, 757, 41⟩ ⟨758, 761, 41⟩ ⟨763, 767, 41⟩
      ⟨757, 758, 41⟩ ⟨750, 753, 41⟩)
    reduced_places hstart (.inr rfl) (hscope ▸ rfl) (hscope ▸ rfl) ⟨723, 730, 41⟩ ⟨731, 736, 41⟩
    ⟨738, 740, 41⟩ ⟨730, 731, 41⟩ ⟨723, 730, 41⟩
  have hinitial : w₁.scopes.get? ⟨w.next, [0]⟩ "initial" = some c.initial :=
    Scopes.get?_of_bindings (show (w₁.scopes.bindings w.next).get? "initial" = some c.initial by
      rw [World.bindings_push_next]
      rfl)
  have hlast : u.scopes.get? ⟨w.next, [0]⟩ "acc" = some (results.getLastD c.initial) :=
    Scopes.get?_of_bindings (show (u.scopes.bindings w.next).get? "acc" = _ from hdone.holds ▸ rfl)
  refine ⟨own, results, u, hdone.reached, callFunction_give rfl ?_ span⟩
  refine (run_block_cons (execute_declare (evaluate_variable hinitial _) _)).trans ?_
  refine (run_block_cons hforEach).trans ?_
  exact run_block_give (execute_give (evaluate_variable hlast _) _)

end HostScript.Bootstrap
