import HostScript.Proofs.Bootstrap.Handing
import HostScript.Proofs.Run.Returning
import HostScript.Proofs.Value.Depictions

/-!
# Building arrays and texts

The functions `range` and `join` of the bootstrap script count through a loop and call no function
that they are given. The first one builds an array of numbers, the second one a text.
-/

namespace HostScript.Bootstrap

open Run

variable {a : ArrayId} {w u : World} {here : ScopeId} {setup : Setup} {depth n : Nat}

/-- A name of the library, in the body of a loop of a function that has only worked on places of its
own. -/
theorem get?_loop {own : Place → Prop} {name : Name} {v : Value} (hroot : w.Has (.scope 0))
    (hwork : w.Works (fun _ => False) own u) (hlocal : (u.scopes.bindings here).has name = false)
    (hv : (w.scopes.bindings 0).get? name = some v) :
    (u.push .empty).scopes.get? ⟨u.next, [here, 0]⟩ name = some v := by
  have hsame : u.scopes.bindings 0 = w.scopes.bindings 0 := hwork.same (.scope 0) hroot not_false
  exact (get?_push_empty u ⟨here, [0]⟩ name).trans (get?_root hlocal (hsame ▸ hv))

/-! ## Ranges -/

/-- The variables of `range`. -/
def rangeLocals (x : Float) (array : ArrayId) (i : Value) : Dict Value :=
  ⟨[("n", .number x), ("result", .array array), ("i", i)]⟩

/-- What `range` has done after some numbers: it has worked on a scope and an array of its own, and
the array holds these numbers. -/
def RangeInv (w : World) (here : ScopeId) (k : Nat) (u : World) : Prop :=
  ∃ own, w.Works (fun _ => False) own u ∧ own (.scope here) ∧
    own (.composite (.array w.heap.arrays.size)) ∧
    u.heap.array w.heap.arrays.size = ((List.range k).map count).toArray

theorem countable_range (x : Float) :
    Countable here (fun _ => rangeLocals x w.heap.arrays.size) (RangeInv w here) x where
  counter _ _ := rfl
  bound _ _ := rfl
  put _ _ _ := rfl
  push := by
    rintro k u ⟨own, hwork, hscope, harray, hitems⟩
    exact ⟨_, hwork.trans (.push own (by simp [Dict.empty])), .inl hscope, .inl harray, hitems⟩
  bind := by
    rintro k u y - ⟨own, hwork, hscope, harray, hitems⟩
    exact ⟨own, hwork.trans (.bind hscope _ trivial), hscope, harray, hitems⟩

/-- One turn of the loop adds one number. -/
theorem range_turn (hl : Loaded w) {x : Float} {k : Nat}
    (hu : Counts here (fun _ => rangeLocals x w.heap.arrays.size) (RangeInv w here) k k u)
    (s₁ s₂ s₃ s₄ s₅ : Span) :
    ∃ v, (block (execute setup (depth + 3) ⟨u.next, [here, 0]⟩)
        [.expression (.call (.variable "arrayPushBack" s₁) [.variable "result" s₂, .variable "i" s₃]
          s₄) s₅]).run (u.push .empty) = (.ok .normal, v) ∧
      Counts here (fun _ => rangeLocals x w.heap.arrays.size) (RangeInv w here) (k + 1) k v ∧
        (v.scopes.bindings u.next).has "i" = false := by
  have hpushed := hu.push (countable_range x)
  have hempty : (u.push .empty).scopes.bindings u.next = .empty := World.bindings_push_next
  have hlocal {name : Name} {v : Value}
      (hv : (rangeLocals x w.heap.arrays.size (count k)).get? name = some v) :
      (u.push .empty).scopes.get? ⟨u.next, [here, 0]⟩ name = some v :=
    hpushed.get? (by rw [hempty]; rfl) hv
  obtain ⟨own, hwork, hscope, harray, hitems⟩ := hu.inv
  have hbound : w.heap.arrays.size < (u.push .empty).heap.arrays.size :=
    (((hwork.owns _).mp harray).resolve_left id).1
  have hpush : (u.push .empty).scopes.get? ⟨u.next, [here, 0]⟩ "arrayPushBack" =
      some (.function (.native (.standard .arrayPushBack))) :=
    get?_loop hl.hasRoot hwork (hu.bindings ▸ rfl) hl.arrayPushBack
  have hcall : (evaluate setup (depth + 2) ⟨u.next, [here, 0]⟩
      (.call (.variable "arrayPushBack" s₁) [.variable "result" s₂, .variable "i" s₃] s₄)).run
        (u.push .empty) = (.ok .null, (u.push .empty).pushBack w.heap.arrays.size (count k)) := by
    rw [evaluate_call (evaluate_variable hpush s₁) (run_mapM_cons (evaluate_variable (hlocal rfl) s₂)
      (run_mapM_cons (evaluate_variable (hlocal rfl) s₃) rfl)) s₄]
    exact callFunction_arrayPushBack _ _ _
  refine ⟨_, run_block_cons (execute_expression hcall s₅), ⟨⟨_, (hwork.trans (.push own
    (by simp [Dict.empty]))).trans (.pushBack (.inl harray) trivial), .inl hscope, .inl harray, ?_⟩,
    hpushed.has, hpushed.bindings⟩, ?_⟩
  · rw [World.array_pushBack_self hbound, World.heap_push, hitems, List.range_succ, List.map_append,
      List.push_toArray]
    rfl
  · rw [World.scopes_pushBack, hempty]
    rfl

/-- The function `range` gives a new array of the numbers below a number, in order. -/
theorem run_range (hl : Loaded w) {x : Float} (hwhole : Number.isInteger x = true)
    (hn : Number.truncate? x = some (n : ℤ)) (hle : n ≤ 2 ^ 53) (hfew : n < setup.iterations)
    (id : Nat) (span : Option Span) :
    ∃ own u array, w.Works (fun _ => False) own u ∧
      (callFunction setup (depth + 5) (.function (.closure (range.closure id))) [.number x] span).run
        w = (.ok (.array array), u) ∧
      own (.composite (.array array)) ∧ u.heap.array array = ((List.range n).map count).toArray := by
  let array := w.heap.arrays.size
  let w₁ := ((w.push ⟨[("n", .number x)]⟩).newArray #[]).bind w.next "result" (.array array)
  have hhere : w.next < ((w.push ⟨[("n", .number x)]⟩).newArray #[]).next := by
    simp [World.newArray, World.next, World.push]
  have hscope : w₁.scopes.bindings w.next = ⟨[("n", .number x), ("result", .array array)]⟩ := by
    rw [World.bindings_bind_self hhere, World.scopes_newArray, World.bindings_push_next]
    rfl
  have hnew : w.Works (fun _ => False)
      (fun p => (False ∨ p = .scope w.next) ∨ p = .composite (.array array)) w₁ := by
    refine ((World.Works.push (d := ⟨[("n", .number x)]⟩) _ ?_).trans (.newArray _ (by simp))).trans
      (.bind (.inl (.inr rfl)) _ (World.place_extent.mpr ?_))
    · exact fun e he => List.mem_singleton.mp he ▸ trivial
    · change w.heap.arrays.size < (w.heap.arrays.push #[]).size
      simp
  have hcounts : Counts w.next (fun _ => rangeLocals x array) (RangeInv w w.next) 0 0
      (w₁.bind w.next "i" (count 0)) := by
    refine ⟨⟨_, hnew.trans (.bind (.inl (.inr rfl)) _ trivial), .inl (.inr rfl), .inr rfl, ?_⟩, ?_, ?_⟩
    · exact World.array_newArray_size _ _
    · rw [World.next_bind, World.next_bind]
      exact hhere
    · rw [World.bindings_bind_self (by rwa [World.next_bind]), hscope]
      rfl
  obtain ⟨u, hloop, hu⟩ := run_counting (countable_range x) (depth) hwhole hn hle hfew
    (fun k _ v hv => range_turn hl hv ⟨212, 225, 9⟩ ⟨226, 232, 9⟩ ⟨234, 235, 9⟩ ⟨225, 226, 9⟩
      ⟨212, 225, 9⟩)
    ⟨191, 192, 8⟩ ⟨193, 195, 8⟩ ⟨196, 197, 8⟩ ⟨200, 205, 8⟩ ⟨188, 190, 8⟩ ⟨245, 246, 10⟩
    ⟨247, 248, 10⟩ ⟨249, 250, 10⟩ ⟨241, 242, 10⟩ ⟨177, 181, 7⟩ hcounts
  obtain ⟨own, hwork, -, harray, hitems⟩ := hu.inv
  refine ⟨own, u, array, hwork, callFunction_give rfl ?_ span, harray, hitems⟩
  refine (run_block_cons (execute_declare (evaluate_array_nil _) _)).trans ?_
  refine (run_block_cons (execute_declare (evaluate_literal _ _) _)).trans ?_
  refine (run_block_cons hloop).trans ?_
  exact run_block_give (execute_give (evaluate_variable
    (Scopes.get?_of_bindings (hu.bindings ▸ rfl)) _) _)

/-! ## Joining -/

/-- What `join` puts in front of the text of an element: the texts before it, and a separator if there
are any. -/
def lead (separator : Text) (texts : List Text) (k : Nat) : Text :=
  if k = 0 then [] else Text.join separator (texts.take k) ++ separator

theorem join_take_succ (separator : Text) {texts : List Text} {k : Nat} {t : Text}
    (ht : texts[k]? = some t) :
    Text.join separator (texts.take (k + 1)) = lead separator texts k ++ t := by
  obtain ⟨hk, -⟩ := List.getElem?_eq_some_iff.mp ht
  rw [List.take_add_one, ht, Option.toList_some, lead]
  rcases k.eq_zero_or_pos with rfl | hpos
  · simp
  · rw [if_neg hpos.ne', Text.join_concat]
    exact List.ne_nil_of_length_pos (by rw [List.length_take]; omega)

/-- The variables of `join`. -/
def joinLocals (a : ArrayId) (separator : Text) (n : Nat) (out : Text) (i : Value) : Dict Value :=
  ⟨[("array", .array a), ("separator", .string separator), ("out", .string out), ("i", i),
    ("n", count n)]⟩

/-- A function has worked on scopes of its own only, of which one has some variables. -/
structure Joining (w : World) (here : ScopeId) (locals : Dict Value) (u : World) : Prop where
  works : ∃ own, w.Works (fun _ => False) own u ∧ own (.scope here)
  heap : u.heap = w.heap
  has : here < u.next
  locals : u.scopes.bindings here = locals

namespace Joining

variable {locals : Dict Value} {name : Name} {v : Value}

theorem push (h : Joining w here locals u) : Joining w here locals (u.push .empty) where
  works := by
    obtain ⟨own, hwork, hown⟩ := h.works
    exact ⟨_, hwork.trans (.push own (by simp [Dict.empty])), .inl hown⟩
  heap := h.heap
  has := by
    rw [World.next_push]
    exact Nat.lt_succ_of_lt h.has
  locals := (World.bindings_push_of_lt h.has _).trans h.locals

theorem bind (h : Joining w here locals u) (name : Name) (hv : v.Within u.extent) :
    Joining w here (locals.put name v) (u.bind here name v) where
  works := by
    obtain ⟨own, hwork, hown⟩ := h.works
    exact ⟨own, hwork.trans (.bind hown name hv), hown⟩
  heap := h.heap
  has := by rw [World.next_bind]; exact h.has
  locals := by rw [World.bindings_bind_self h.has, h.locals]

theorem root (h : Joining w here locals u) (hroot : w.Has (.scope 0)) :
    u.scopes.bindings 0 = w.scopes.bindings 0 := by
  obtain ⟨own, hwork, -⟩ := h.works
  exact hwork.same (.scope 0) hroot not_false

end Joining

/-- A function finds its variable `out` in its own scope. -/
theorem owner?_out {separator out : Text} {i : Value} {inner : ScopeId}
    (h : Joining w here (joinLocals a separator n out i) u)
    (hinner : u.scopes.bindings inner = .empty) :
    u.scopes.owner? "out" (⟨inner, [here, 0]⟩ : Env).path = some here := by
  have hout : (u.scopes.bindings here).get? "out" = some (.string out) := h.locals ▸ rfl
  exact (Scopes.owner?_cons_of_not_has (hinner ▸ rfl)).trans (Scopes.owner?_cons_of_get? hout)

/-- In front of each element but the first one stands the separator. -/
theorem join_separates (setup : Setup) (depth : Nat) {separator : Text} {texts : List Text} {k : Nat}
    (hk : k ≤ 2 ^ 53)
    (h : Joining w here (joinLocals a separator n (Text.join separator (texts.take k)) (count k)) u)
    {inner : ScopeId} (hinner : u.scopes.bindings inner = .empty) (hlt : inner < u.next)
    (hne : inner ≠ here) (s₁ s₂ s₃ s₄ s₅ s₆ s₇ s₈ : Span) :
    ∃ v, (execute setup (depth + 4) ⟨inner, [here, 0]⟩
        (.branch (.binary (.variable "i" s₁) .greater (.literal (.number (Float.ofNat 0)) s₂) s₃)
          [.assign "out" (.binary (.variable "out" s₄) .add (.variable "separator" s₅) s₆) s₇] none
          s₈)).run u = (.ok .normal, v) ∧
      Joining w here (joinLocals a separator n (lead separator texts k) (count k)) v ∧
        v.scopes.bindings inner = .empty := by
  have hlocal {name : Name} {v : Value}
      (hv : (joinLocals a separator n (Text.join separator (texts.take k)) (count k)).get? name =
        some v) : u.scopes.get? ⟨inner, [here, 0]⟩ name = some v :=
    get?_inside inner (hinner ▸ rfl) (h.locals ▸ hv)
  have hi : u.scopes.get? ⟨inner, [here, 0]⟩ "i" = some (count k) := hlocal rfl
  have hcondition : (evaluate setup (depth + 3) ⟨inner, [here, 0]⟩
      (.binary (.variable "i" s₁) .greater (.literal (.number (Float.ofNat 0)) s₂) s₃)).run u =
        (.ok (.boolean (0 < k)), u) := by
    rw [← decide_eq_decide.mpr (Number.zero_lt_ofNat_iff hk)]
    exact evaluate_binary (evaluate_variable hi s₁)
      (evaluate_literal (.number (Float.ofNat 0)) s₂) s₃
  rcases k.eq_zero_or_pos with rfl | hpos
  · exact ⟨u, execute_branch_false hcondition rfl s₈, h, hinner⟩
  · have hout : (u.push .empty).scopes.get? ((⟨inner, [here, 0]⟩ : Env).enter u.next) "out" =
        some (.string (Text.join separator (texts.take k))) :=
      (get?_push_empty u _ _).trans (hlocal rfl)
    have hseparator : (u.push .empty).scopes.get? ((⟨inner, [here, 0]⟩ : Env).enter u.next)
        "separator" = some (.string separator) :=
      (get?_push_empty u _ _).trans (hlocal rfl)
    have hvalue : (evaluate setup (depth + 2) ((⟨inner, [here, 0]⟩ : Env).enter u.next)
        (.binary (.variable "out" s₄) .add (.variable "separator" s₅) s₆)).run (u.push .empty) =
          (.ok (.string (lead separator texts k)), u.push .empty) := by
      rw [lead, if_neg hpos.ne']
      exact evaluate_binary (evaluate_variable hout s₄) (evaluate_variable hseparator s₅) s₆
    have howner : (u.push .empty).scopes.owner? "out"
        ((⟨inner, [here, 0]⟩ : Env).enter u.next).path = some here :=
      (Scopes.owner?_child u.scopes _ _).trans (owner?_out h hinner)
    refine ⟨(u.push .empty).bind here "out" (.string (lead separator texts k)), ?_,
      h.push.bind "out" trivial, ?_⟩
    · refine (execute_branch_true hcondition (decide_eq_true hpos) none s₈).trans ?_
      exact run_block_cons (execute_assign hvalue howner s₇)
    · rw [World.bindings_bind_of_ne hne, World.bindings_push_of_lt hlt, hinner]

/-- What `join` has done in front of an element: it has put the texts before it together. -/
def JoinInv (w : World) (a : ArrayId) (here : ScopeId) (separator : Text) (texts : List Text)
    (k : Nat) (u : World) : Prop :=
  ∃ i, Joining w here (joinLocals a separator (w.heap.array a).size
    (Text.join separator (texts.take k)) i) u

theorem countable_join (separator : Text) (texts : List Text) :
    Countable here (fun k => joinLocals a separator (w.heap.array a).size
      (Text.join separator (texts.take k))) (JoinInv w a here separator texts)
      (Float.ofNat (w.heap.array a).size) where
  counter _ _ := rfl
  bound _ _ := rfl
  put _ _ _ := rfl
  push := fun _ _ ⟨i, h⟩ => ⟨i, h.push⟩
  bind := fun _ _ x _ ⟨_, h⟩ => ⟨.number x, h.bind "i" trivial⟩

/-- One turn of the loop adds the text of one element. -/
theorem join_turn (setup : Setup) (depth : Nat) (hl : Loaded w) {separator : Text}
    {texts : List Text} {k : Nat} {t : Text} {x : Value} (hle : (w.heap.array a).size ≤ 2 ^ 53)
    (hx : (w.heap.array a)[k]? = some x) (ht : texts[k]? = some t)
    (hdisplay : x.display w.heap (depth + 1) = some t)
    (hu : Counts here (fun k => joinLocals a separator (w.heap.array a).size
      (Text.join separator (texts.take k))) (JoinInv w a here separator texts) k k u)
    (s₁ s₂ s₃ s₄ s₅ s₆ s₇ s₈ s₉ t₁ t₂ t₃ t₄ t₅ t₆ t₇ : Span) :
    ∃ v, (block (execute setup (depth + 5) ⟨u.next, [here, 0]⟩)
        [.branch (.binary (.variable "i" s₁) .greater (.literal (.number (Float.ofNat 0)) s₂) s₃)
            [.assign "out" (.binary (.variable "out" s₄) .add (.variable "separator" s₅) s₆) s₇] none
            s₈,
          .assign "out" (.binary (.variable "out" s₉) .add (.call (.variable "toString" t₁)
            [.index (.variable "array" t₂) (.variable "i" t₃) t₄] t₅) t₆) t₇]).run (u.push .empty) =
              (.ok .normal, v) ∧
      Counts here (fun k => joinLocals a separator (w.heap.array a).size
        (Text.join separator (texts.take k))) (JoinInv w a here separator texts) (k + 1) k v ∧
        (v.scopes.bindings u.next).has "i" = false := by
  have hk : k < (w.heap.array a).size := (Array.getElem?_eq_some_iff.mp hx).1
  have hjoining : Joining w here (joinLocals a separator (w.heap.array a).size
      (Text.join separator (texts.take k)) (count k)) u := by
    obtain ⟨i, h⟩ := hu.inv
    exact ⟨h.works, h.heap, h.has, hu.bindings⟩
  obtain ⟨v, hbranch, hv, hinner⟩ := join_separates setup (depth + 1) (hk.le.trans hle)
    hjoining.push World.bindings_push_next (by simp) (Nat.ne_of_gt hu.has) s₁ s₂ s₃ s₄ s₅ s₆ s₇ s₈
  have hlocal {name : Name} {y : Value} (hy : (joinLocals a separator (w.heap.array a).size
      (lead separator texts k) (count k)).get? name = some y) :
      v.scopes.get? ⟨u.next, [here, 0]⟩ name = some y :=
    get?_inside u.next (hinner ▸ rfl) (hv.locals ▸ hy)
  have htoString : v.scopes.get? ⟨u.next, [here, 0]⟩ "toString" =
      some (.function (.native (.standard .toString))) :=
    get?_root_inside u.next (hinner ▸ rfl) (hv.locals ▸ rfl) (hv.root hl.hasRoot ▸ hl.toString)
  have helement : (evaluate setup (depth + 2) ⟨u.next, [here, 0]⟩
      (.index (.variable "array" t₂) (.variable "i" t₃) t₄)).run v = (.ok x, v) := by
    rw [evaluate_index (evaluate_variable (hlocal rfl) t₂) (evaluate_variable (hlocal rfl) t₃) t₄,
      hv.heap, count, Heap.index_array_ofNat hx hle]
  have htext : (evaluate setup (depth + 3) ⟨u.next, [here, 0]⟩ (.call (.variable "toString" t₁)
      [.index (.variable "array" t₂) (.variable "i" t₃) t₄] t₅)).run v = (.ok (.string t), v) := by
    have hvalues : (List.mapM (evaluate setup (depth + 2) ⟨u.next, [here, 0]⟩)
        [.index (.variable "array" t₂) (.variable "i" t₃) t₄]).run v = (.ok [x], v) :=
      run_mapM_cons helement rfl
    rw [evaluate_call (evaluate_variable htoString t₁) hvalues t₅, callFunction_standard,
       StandardFunction.run_call_toString, hv.heap, hdisplay]
  have hvalue : (evaluate setup (depth + 4) ⟨u.next, [here, 0]⟩
      (.binary (.variable "out" s₉) .add (.call (.variable "toString" t₁)
        [.index (.variable "array" t₂) (.variable "i" t₃) t₄] t₅) t₆)).run v =
          (.ok (.string (Text.join separator (texts.take (k + 1)))), v) := by
    have hout : v.scopes.get? ⟨u.next, [here, 0]⟩ "out" =
        some (.string (lead separator texts k)) := hlocal rfl
    rw [join_take_succ separator ht]
    exact evaluate_binary (evaluate_variable hout s₉) htext t₆
  have hassigned := hv.bind "out" (v := .string (Text.join separator (texts.take (k + 1)))) trivial
  refine ⟨_, (run_block_cons hbranch).trans
    (run_block_cons (execute_assign hvalue (owner?_out hv hinner) t₇)),
    ⟨⟨count k, hassigned⟩, hassigned.has, hassigned.locals⟩, ?_⟩
  rw [World.bindings_bind_of_ne (Nat.ne_of_gt hu.has), hinner]
  rfl

/-- The function `join` gives the texts of the elements, with the separator between them. -/
theorem run_join (hl : Loaded w) (ha : w.Has (.composite (.array a))) {separator : Text}
    {texts : List Text} (hle : (w.heap.array a).size ≤ 2 ^ 53)
    (hfew : (w.heap.array a).size < setup.iterations)
    (htexts : (w.heap.array a).toList.mapM (Value.display w.heap (depth + 1)) = some texts)
    (id : Nat) (span : Option Span) :
    ∃ own u, w.Works (fun _ => False) own u ∧ u.heap = w.heap ∧
      (callFunction setup (depth + 7) (.function (.closure (join.closure id)))
        [.array a, .string separator] span).run w =
          (.ok (.string (Text.join separator texts)), u) := by
  have hforall := mapM_eq_some_iff.mp htexts
  have hlength : (w.heap.array a).size = texts.length := by
    rw [← Array.length_toList, hforall.length_eq]
  let w₁ := w.push ⟨[("array", .array a), ("separator", .string separator)]⟩
  have hpushed : ∀ e ∈ [(Text.ofString "array", Value.array a), ("separator", .string separator)],
      e.2.Within w.extent := by
    intro e he
    rcases List.mem_pair.mp he with rfl | rfl
    · exact World.place_extent.mpr ha
    · trivial
  have hstart : Joining w w.next ⟨[("array", .array a), ("separator", .string separator)]⟩ w₁ :=
    ⟨⟨_, .push _ hpushed, .inr rfl⟩, rfl, by simp [w₁], World.bindings_push_next⟩
  have hout := hstart.bind "out" (v := .string []) trivial
  have hi := hout.bind "i" (v := count 0) trivial
  have hn := hi.bind "n" (v := count (w.heap.array a).size) trivial
  have hlen : ((w₁.bind w.next "out" (.string [])).bind w.next "i" (count 0)).scopes.get?
      ⟨w.next, [0]⟩ "arrayLen" = some (.function (.native (.standard .arrayLen))) :=
    get?_root (hi.locals ▸ rfl) (hi.root hl.hasRoot ▸ hl.arrayLen)
  have harray : ((w₁.bind w.next "out" (.string [])).bind w.next "i" (count 0)).scopes.get?
      ⟨w.next, [0]⟩ "array" = some (.array a) :=
    Scopes.get?_of_bindings (hi.locals ▸ rfl)
  have hturn : ∀ k < (w.heap.array a).size, ∀ v, Counts w.next (fun k => joinLocals a separator
      (w.heap.array a).size (Text.join separator (texts.take k)))
      (JoinInv w a w.next separator texts) k k v → _ := fun k hk v hv => by
    have hx : (w.heap.array a)[k]? = some (w.heap.array a)[k] := Array.getElem?_eq_getElem hk
    have ht : texts[k]? = some texts[k] := List.getElem?_eq_getElem (hlength ▸ hk)
    have hdisplay : (w.heap.array a)[k].display w.heap (depth + 1) = some texts[k] := by
      simpa using hforall.get (i := k) (by simpa using hk) (hlength ▸ hk)
    exact join_turn setup depth hl hle hx ht hdisplay hv ⟨909, 910, 51⟩ ⟨913, 914, 51⟩
      ⟨911, 912, 51⟩ ⟨923, 926, 51⟩ ⟨929, 938, 51⟩ ⟨927, 928, 51⟩ ⟨917, 920, 51⟩ ⟨906, 908, 51⟩
      ⟨951, 954, 52⟩ ⟨957, 965, 52⟩ ⟨966, 971, 52⟩ ⟨972, 973, 52⟩ ⟨971, 972, 52⟩ ⟨965, 966, 52⟩
      ⟨955, 956, 52⟩ ⟨945, 948, 52⟩
  obtain ⟨u, hloop, hu⟩ := run_counting (countable_join separator texts) (depth + 2)
    (Number.isInteger_ofNat hle) (Number.truncate?_ofNat hle) hle hfew hturn
    ⟨885, 886, 50⟩ ⟨887, 889, 50⟩ ⟨890, 891, 50⟩ ⟨894, 899, 50⟩ ⟨882, 884, 50⟩ ⟨984, 985, 53⟩
    ⟨986, 987, 53⟩ ⟨988, 989, 53⟩ ⟨980, 981, 53⟩ ⟨871, 875, 49⟩
    ⟨⟨count 0, hn⟩, hn.has, hn.locals⟩
  obtain ⟨i, hjoining⟩ := hu.inv
  obtain ⟨own, hwork, -⟩ := hjoining.works
  refine ⟨own, u, hwork, hjoining.heap, callFunction_give rfl ?_ span⟩
  refine (run_block_cons (execute_declare (evaluate_literal _ _) _)).trans ?_
  refine (run_block_cons (execute_declare (evaluate_literal _ _) _)).trans ?_
  refine (run_block_cons (execute_declare ((evaluate_call (evaluate_variable hlen _)
    (run_mapM_cons (evaluate_variable harray _) rfl) _).trans (callFunction_arrayLen a _)) _)).trans ?_
  refine (run_block_cons hloop).trans ?_
  have hresult : u.scopes.get? ⟨w.next, [0]⟩ "out" = some (.string (Text.join separator texts)) := by
    refine Scopes.get?_of_bindings ?_
    rw [hu.bindings, List.take_of_length_le hlength.ge]
    rfl
  exact run_block_give (execute_give (evaluate_variable hresult _) _)

end HostScript.Bootstrap
