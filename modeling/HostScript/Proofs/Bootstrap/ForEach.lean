import HostScript.Proofs.Bootstrap.Counting
import HostScript.Proofs.Run.Callbacks
import HostScript.Proofs.Value.Access

/-!
# Going through an array

The function `forEach` of the bootstrap script calls the function that it is given once for each
element of an array, in their order, and gives null (`run_forEach`).
-/

namespace HostScript

open Run

/-! ## Access to elements -/

theorem Heap.index_array_ofNat {h : Heap} {a : ArrayId} {k : Nat} {x : Value}
    (hx : (h.array a)[k]? = some x) (hle : (h.array a).size ≤ 2 ^ 53) :
    h.index (.array a) (.number (Float.ofNat k)) = x := by
  obtain ⟨hk, rfl⟩ := Array.getElem?_eq_some_iff.mp hx
  simp only [h.index_array, Heap.arrayGet, Number.position?_ofNat (hk.le.trans hle), dif_pos hk]

/-- The elements of an array are a prefix, one element and a rest. -/
theorem Array.toList_eq_take_append {α : Type} {items : Array α} {k : Nat} {x : α}
    (hx : items[k]? = some x) :
    items.toList = items.toList.take k ++ x :: items.toList.drop (k + 1) := by
  obtain ⟨hk, rfl⟩ := Array.getElem?_eq_some_iff.mp hx
  rw [← Array.getElem_toList hk, List.getElem_cons_drop, List.take_append_drop]

theorem Array.take_toList_succ {α : Type} {items : Array α} {k : Nat} {x : α}
    (hx : items[k]? = some x) : items.toList.take (k + 1) = items.toList.take k ++ [x] := by
  rw [List.take_add_one, Array.getElem?_toList, hx, Option.toList_some]

/-! ## What a caller needs -/

/-- A world in which a function can be called for each element of an array: what there is refers to
what is there, the array is not too long for a loop, and the calls go well. -/
structure Callback.Applies (c : Callback) (names : List Name) (a : ArrayId) (w : World) : Prop where
  closed : w.Closed
  hasArray : w.Has (.composite (.array a))
  known : c.f.Within w.extent
  few : (w.heap.array a).size < c.setup.iterations
  exact : (w.heap.array a).size ≤ 2 ^ 53
  arrayLen : (w.scopes.bindings 0).get? "arrayLen" = some (.function (.native (.standard .arrayLen)))
  serves : c.Serves names a (w.heap.array a).toList w

/-- A scope that binds a name is there. -/
theorem Scopes.lt_size_of_get? {α : Type} {s : Scopes α} {id : ScopeId} {name : Name} {v : α}
    (h : (s.bindings id).get? name = some v) : id < s.frames.size := by
  by_contra hsize
  rw [bindings_eq_empty (Nat.le_of_not_lt hsize)] at h
  exact nomatch h

theorem Callback.Applies.known_arguments {c : Callback} {names : List Name} {a : ArrayId} {w : World}
    (h : c.Applies names a w) : ∀ v ∈ [.array a, c.f], v.Within w.extent :=
  List.forall_mem_cons.mpr ⟨World.place_extent.mpr h.hasArray, List.forall_mem_singleton.mpr h.known⟩

namespace Bootstrap

variable {c : Callback} {names : List Name} {a : ArrayId} {w : World} {depth : Nat}

/-- The variables of `forEach` when its counter stands at some value. -/
def forEachLocals (c : Callback) (a : ArrayId) (n : Nat) (i : Value) : Dict Value :=
  ⟨[("array", .array a), ("f", c.f), ("i", i), ("n", count n)]⟩

/-- What `forEach` has done when it has called its function for the first elements of the array. -/
def ForEachInv (c : Callback) (names : List Name) (a : ArrayId) (w : World) (here : ScopeId)
    (k : Nat) (u : World) : Prop :=
  ∃ own results, c.Reached names a w own ((w.heap.array a).toList.take k) results u ∧
    own (.scope here)

theorem countable_forEach (here : ScopeId) :
    Countable here (fun _ => forEachLocals c a (w.heap.array a).size) (ForEachInv c names a w here)
      (Float.ofNat (w.heap.array a).size) where
  counter _ _ := rfl
  bound _ _ := rfl
  put _ _ _ := rfl
  push := by
    rintro k u ⟨own, results, hreached, hown⟩
    exact ⟨_, results, hreached.works (.push own (by simp [Dict.empty])), .inl hown⟩
  bind := by
    rintro k u x - ⟨own, results, hreached, hown⟩
    exact ⟨own, results, hreached.works (.bind hown _ trivial), hown⟩

/-- The call `f(array[i])`. -/
theorem evaluate_forEach_call {setup : Setup} {env : Env} {u v : World} {k : Nat} {f x r : Value}
    (hf : u.scopes.get? env "f" = some f) (ha : u.scopes.get? env "array" = some (.array a))
    (hi : u.scopes.get? env "i" = some (count k)) (hx : (u.heap.array a)[k]? = some x)
    (hle : (u.heap.array a).size ≤ 2 ^ 53)
    (hcall : (callFunction setup (depth + 2) f [x] none).run u = (.ok r, v))
    (s₁ s₂ s₃ s₄ s₅ : Span) :
    (evaluate setup (depth + 3) env (.call (.variable "f" s₁)
      [.index (.variable "array" s₂) (.variable "i" s₃) s₄] s₅)).run u = (.ok r, v) := by
  have hindex : (evaluate setup (depth + 2) env
      (.index (.variable "array" s₂) (.variable "i" s₃) s₄)).run u = (.ok x, u) := by
    rw [evaluate_index (evaluate_variable ha s₂) (evaluate_variable hi s₃) s₄, count,
      Heap.index_array_ofNat hx hle]
  refine (evaluate_call (evaluate_variable hf s₁) (run_mapM_cons hindex rfl) s₅).trans ?_
  exact (callFunction_ok_iff _ _ _ _).mp hcall

/-- One turn of the loop calls the function for one element. -/
theorem forEach_turn (hc : c.arguments = fun _ x => [x]) (hdepth : c.depth = depth + 2)
    (h : c.Applies names a w) {here : ScopeId} {k : Nat} (hk : k < (w.heap.array a).size) {u : World}
    (hu : Counts here (fun _ => forEachLocals c a (w.heap.array a).size)
      (ForEachInv c names a w here) k k u) (s₁ s₂ s₃ s₄ s₅ s₆ : Span) :
    ∃ v, (block (execute c.setup (depth + 4) ⟨u.next, here :: [0]⟩)
        [.expression (.call (.variable "f" s₁) [.index (.variable "array" s₂) (.variable "i" s₃) s₄]
          s₅) s₆]).run (u.push .empty) = (.ok .normal, v) ∧
      Counts here (fun _ => forEachLocals c a (w.heap.array a).size)
        (ForEachInv c names a w here) (k + 1) k v ∧ (v.scopes.bindings u.next).has "i" = false := by
  obtain ⟨x, hx⟩ : ∃ x, (w.heap.array a)[k]? = some x := ⟨_, Array.getElem?_eq_getElem hk⟩
  have hempty : (u.push .empty).scopes.bindings u.next = .empty := World.bindings_push_next
  have hlocal {name : Name} {v : Value}
      (hv : (forEachLocals c a (w.heap.array a).size (count k)).get? name = some v) :
      (u.push .empty).scopes.get? ⟨u.next, here :: [0]⟩ name = some v :=
    (hu.push (countable_forEach here)).get? (by rw [hempty]; rfl) hv
  obtain ⟨own, results, hreached, hown⟩ := hu.inv
  have hpushed := hreached.works (.push own (d := .empty) (by simp [Dict.empty]))
  have harray : (u.push .empty).heap.array a = w.heap.array a := hpushed.since.array
  have hshown : x.Shown _ (u.push .empty) :=
    hpushed.since.shown_of_mem_array (by rw [harray]; exact Array.mem_of_getElem? hx)
  obtain ⟨r, v, hrun, hcalled, hbelow, -, hsame⟩ :=
    hpushed.call h.serves (Array.toList_eq_take_append hx) h.known (by simpa [hc] using hshown)
  have hevaluate := evaluate_forEach_call (hlocal rfl) (hlocal rfl) (hlocal rfl) (harray ▸ hx)
    (harray ▸ h.exact) (by rwa [Callback.call, hc, hdepth] at hrun) s₁ s₂ s₃ s₄ s₅
  refine ⟨v, run_block_cons (execute_expression hevaluate s₆),
    ⟨⟨fun p => own p ∨ p = .scope u.next, results ++ [r], ?_, .inl hown⟩, ?_, ?_⟩, ?_⟩
  · rwa [Array.take_toList_succ hx]
  · exact Nat.lt_of_lt_of_le (hu.push (countable_forEach here)).has hbelow.scopes
  · exact Eq.trans (hsame (.scope here) (.inl hown)) (hu.push (countable_forEach here)).bindings
  · have hinner : v.scopes.bindings u.next = .empty :=
      Eq.trans (hsame (.scope u.next) (.inr rfl)) hempty
    rw [hinner]
    rfl

/-- The function `forEach` calls the function that it is given once for each element, in order. -/
theorem run_forEach (hc : c.arguments = fun _ x => [x]) (hdepth : c.depth = depth + 2)
    (h : c.Applies names a w) (id : Nat) (span : Option Span) :
    ∃ own results u, c.Reached names a w own (w.heap.array a).toList results u ∧
      (callFunction c.setup (depth + 6) (.function (.closure (forEach.closure id)))
        [.array a, c.f] span).run w = (.ok .null, u) := by
  let w₁ := w.push (.ofList (forEach.parameters.zip [.array a, c.f]))
  let w₂ := w₁.bind w.next "i" (count 0)
  let w₃ := w₂.bind w.next "n" (count (w.heap.array a).size)
  have hroot : 0 < w.next := Scopes.lt_size_of_get? h.arrayLen
  have hhere : w.next < w₁.next := by simp [w₁]
  have hwork : w.Works (fun _ => False) (fun p => False ∨ p = .scope w.next) w₂ :=
    (World.Works.enterCall _ _ h.known_arguments).trans (.bind (.inr rfl) _ trivial)
  have hreached : c.Reached names a w (fun p => False ∨ p = .scope w.next) [] [] w₃ :=
    (Callback.Reached.start h.closed h.hasArray hroot).works
      (hwork.trans (.bind (.inr rfl) _ trivial))
  have hbound : w₂.scopes.bindings w.next = ⟨[("array", .array a), ("f", c.f), ("i", count 0)]⟩ := by
    rw [World.bindings_bind_self hhere, World.bindings_push_next]
    rfl
  have hlen : w₂.scopes.get? ⟨w.next, [0]⟩ "arrayLen" =
      some (.function (.native (.standard .arrayLen))) := by
    have hroot₂ : w₂.scopes.bindings 0 = w.scopes.bindings 0 :=
      hwork.same (.scope 0) hroot not_false
    have houter : w₂.scopes.get? ⟨0, []⟩ "arrayLen" =
        some (.function (.native (.standard .arrayLen))) :=
      Scopes.get?_of_bindings (hroot₂ ▸ h.arrayLen)
    have hinside : w₂.scopes.get? ((⟨0, []⟩ : Env).enter w.next) "arrayLen" =
        w₂.scopes.get? ⟨0, []⟩ "arrayLen" :=
      Scopes.get?_enter (by rw [hbound]; rfl)
    exact hinside.trans houter
  have harray : w₂.scopes.get? ⟨w.next, [0]⟩ "array" = some (.array a) :=
    Scopes.get?_of_bindings (by rw [hbound]; rfl)
  have hcounts : Counts w.next (fun _ => forEachLocals c a (w.heap.array a).size)
      (ForEachInv c names a w w.next) 0 0 w₃ := by
    refine ⟨⟨_, [], hreached, .inr rfl⟩, ?_, ?_⟩
    · rw [World.next_bind, World.next_bind]
      exact hhere
    · rw [World.bindings_bind_self (by rwa [World.next_bind]), hbound]
      rfl
  obtain ⟨u, hloop, hu⟩ := run_counting (countable_forEach w.next) (depth + 1)
    (Number.isInteger_ofNat h.exact) (Number.truncate?_ofNat h.exact) h.exact h.few
    (fun k hk v hv => forEach_turn hc hdepth h hk hv ⟨372, 373, 20⟩ ⟨374, 379, 20⟩ ⟨380, 381, 20⟩
      ⟨379, 380, 20⟩ ⟨373, 374, 20⟩ ⟨372, 373, 20⟩)
    ⟨351, 352, 19⟩ ⟨353, 355, 19⟩ ⟨356, 357, 19⟩ ⟨360, 365, 19⟩ ⟨348, 350, 19⟩ ⟨392, 393, 21⟩
    ⟨394, 395, 21⟩ ⟨396, 397, 21⟩ ⟨388, 389, 21⟩ ⟨337, 341, 18⟩ hcounts
  obtain ⟨own, results, hdone, -⟩ := hu.inv
  refine ⟨own, results, u, ?_, ?_⟩
  · rwa [List.take_of_length_le (by simp)] at hdone
  · refine callFunction_normal rfl ?_ span
    refine (run_block_cons (execute_declare (evaluate_literal _ _) _)).trans ?_
    refine (run_block_cons (execute_declare ((evaluate_call (evaluate_variable hlen _)
      (run_mapM_cons (evaluate_variable harray _) rfl) _).trans
        (callFunction_arrayLen a _)) _)).trans ?_
    exact run_block_cons hloop

end Bootstrap

end HostScript
