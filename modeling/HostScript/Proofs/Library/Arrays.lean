import HostScript.Http.Charset
import HostScript.Proofs.Number.Truncation
import HostScript.Proofs.Value.Arguments
import Mathlib.Data.List.Forall2

/-!
# Calls on arrays

To a script an array is one list, which all references to it share. `Lists` are the lists of all
arrays, and `Lists.call?` says what a call makes of them. `StandardFunction.calls_lists`: whatever
calls on arrays follow each other, each gives what the lists give and leaves the contents that they
have, and a call that is refused answers with an error and leaves all of them as they were.
-/

namespace HostScript

/-- The place in a list that a number stands for: its value rounded toward zero, which must not be
negative. -/
def Number.place? (x : Float) : Option ℕ := (value? x).bind fun q => (towardZero q).toNat?

namespace StandardFunction

/-- The functions that make, read and change arrays. -/
def onArrays : List StandardFunction :=
  [createArray, arrayLen, arrayGet, arraySet, arrayPushBack, arrayPopBack, arrayInsert, arrayRemove]

/-- The kinds of values that functions on arrays take, but for `createArray`, which takes any. -/
def arrayKinds : StandardFunction → List Kind
  | arrayLen | arrayPopBack => [.array]
  | arrayGet | arrayRemove => [.array, .number]
  | arrayPushBack => [.array, .any]
  | arraySet | arrayInsert => [.array, .number, .any]
  | _ => []

end StandardFunction

/-- The contents of all arrays. A reference to an array is a place in this list. -/
abbrev Lists := List (List Value)

namespace Lists

variable {lists : Lists} {f : StandardFunction} {values : List Value} {id : ArrayId}

/-- The contents of one array. -/
def contents (lists : Lists) (id : ArrayId) : List Value := lists.getD id []

/-- What a call on arrays gives, and the contents after it. A call that gives nothing is refused:
its arguments are too few, too many or of a wrong kind, or they ask for an element that the array
does not have. -/
def call? (lists : Lists) : StandardFunction → List Value → Option (Value × Lists)
  | .createArray, items => some (.array lists.length, lists ++ [items])
  | .arrayLen, [.array id] => some (.number (Float.ofNat (lists.contents id).length), lists)
  | .arrayGet, [.array id, .number x] => do
    let i ← Number.place? x
    let v ← (lists.contents id)[i]?
    return (v, lists)
  | .arraySet, [.array id, .number x, v] => do
    let i ← Number.place? x
    guard (i < (lists.contents id).length)
    return (.null, lists.set id ((lists.contents id).set i v))
  | .arrayPushBack, [.array id, v] => some (.null, lists.set id (lists.contents id ++ [v]))
  | .arrayPopBack, [.array id] => do
    let v ← (lists.contents id).getLast?
    return (v, lists.set id (lists.contents id).dropLast)
  | .arrayInsert, [.array id, .number x, v] => do
    let i ← Number.place? x
    guard (i ≤ (lists.contents id).length)
    return (.null, lists.set id ((lists.contents id).insertIdx i v))
  | .arrayRemove, [.array id, .number x] => do
    let i ← Number.place? x
    let v ← (lists.contents id)[i]?
    return (v, lists.set id ((lists.contents id).eraseIdx i))
  | _, _ => none

/-- The array that a call is on. A new array is made from any values. -/
def target? : StandardFunction → List Value → Option ArrayId
  | .createArray, _ => none
  | _, .array id :: _ => some id
  | _, _ => none

/-- The contents after a call. A call that is refused changes nothing. -/
def after (lists : Lists) (c : StandardFunction × List Value) : Lists :=
  ((lists.call? c.1 c.2).map (·.2)).getD lists

/-- What calls give one after another, and the contents after the last one. -/
def calls : Lists → List (StandardFunction × List Value) → List (Option Value) × Lists
  | lists, [] => ([], lists)
  | lists, c :: rest =>
    let (answers, final) := (lists.after c).calls rest
    ((lists.call? c.1 c.2).map (·.1) :: answers, final)

/-! ## Calls on lists -/

/-- Values of other kinds than a function on arrays takes are refused. -/
theorem call?_eq_none (hf : f ≠ .createArray)
    (hvalues : ∀ arguments : Arguments f.arrayKinds, values ≠ arguments.values) :
    lists.call? f values = none := by
  fun_cases call? lists f values with
  | case1 => exact absurd rfl hf
  | case2 id => exact absurd rfl (hvalues (id, ()))
  | case3 id x => exact absurd rfl (hvalues (id, x, ()))
  | case4 id x v => exact absurd rfl (hvalues (id, x, v, ()))
  | case5 id v => exact absurd rfl (hvalues (id, v, ()))
  | case6 id => exact absurd rfl (hvalues (id, ()))
  | case7 id x v => exact absurd rfl (hvalues (id, x, v, ()))
  | case8 id x => exact absurd rfl (hvalues (id, x, ()))
  | case9 => rfl

/-- A call changes nothing, adds a list or changes the list of the array that it is on. -/
theorem of_call? {v : Value} {lists' : Lists} (h : lists.call? f values = some (v, lists')) :
    lists' = lists ∨ lists' = lists ++ [values] ∨
      ∃ id list, target? f values = some id ∧ lists' = lists.set id list := by
  revert h
  fun_cases call? lists f values with
  | case1 =>
    rintro ⟨⟩
    exact .inr (.inl rfl)
  | case2 id =>
    rintro ⟨⟩
    exact .inl rfl
  | case3 id x =>
    intro h
    obtain ⟨i, -, h⟩ := Option.bind_eq_some_iff.mp h
    obtain ⟨u, -, ⟨⟩⟩ := Option.bind_eq_some_iff.mp h
    exact .inl rfl
  | case5 id u =>
    rintro ⟨⟩
    exact .inr (.inr ⟨id, _, rfl, rfl⟩)
  | case6 id =>
    intro h
    obtain ⟨u, -, ⟨⟩⟩ := Option.bind_eq_some_iff.mp h
    exact .inr (.inr ⟨id, _, rfl, rfl⟩)
  | case4 id x | case7 id x | case8 id x =>
    intro h
    obtain ⟨i, -, h⟩ := Option.bind_eq_some_iff.mp h
    obtain ⟨u, -, ⟨⟩⟩ := Option.bind_eq_some_iff.mp h
    exact .inr (.inr ⟨id, _, rfl, rfl⟩)
  | case9 => exact nofun

/-- A call leaves the other arrays as they are. -/
theorem contents_after {c : StandardFunction × List Value} (hid : id < lists.length)
    (htarget : target? c.1 c.2 ≠ some id) : (lists.after c).contents id = lists.contents id := by
  unfold after
  cases hcall : lists.call? c.1 c.2 with
  | none => rfl
  | some outcome =>
    obtain ⟨v, lists'⟩ := outcome
    obtain rfl | rfl | ⟨changed, list, hchanged, rfl⟩ := of_call? hcall
    · rfl
    · simp [contents, List.getElem?_append_left hid]
    · have hne : changed ≠ id := fun heq => htarget (heq ▸ hchanged)
      simp [contents, List.getElem?_set_ne hne]

theorem calls_append (lists : Lists) (before after : List (StandardFunction × List Value)) :
    (lists.calls (before ++ after)).2 = ((lists.calls before).2.calls after).2 := by
  induction before generalizing lists with
  | nil => rfl
  | cons c before ih => exact ih (lists.after c)

end Lists

/-! ## Calls on the heap -/

/-- The lists of the arrays of a heap. -/
def Heap.lists (h : Heap) : Lists := h.arrays.toList.map Array.toList

/-- A heap with other arrays. -/
def Heap.withLists (h : Heap) (lists : Lists) : Heap :=
  { h with arrays := (lists.map List.toArray).toArray }

theorem Number.position?_eq_place? (x : Float) : position? x = place? x := by
  unfold position? place?
  rw [truncate?_eq]
  cases value? x with
  | none => rfl
  | some q =>
    simp only [Option.map_some, Option.bind_some]
    cases towardZero q with
    | ofNat n => rfl
    | negSucc n => exact if_pos (Int.negSucc_lt_zero n)

namespace Heap

variable {h : Heap} {id : ArrayId} {x : Float} {v : Value}

@[simp] theorem lists_withLists (h : Heap) (lists : Lists) : (h.withLists lists).lists = lists := by
  simp [Heap.lists, withLists, Function.comp_def]

@[simp] theorem withLists_lists (h : Heap) : h.withLists h.lists = h := by
  simp [Heap.lists, withLists, Function.comp_def]

@[simp] theorem length_lists (h : Heap) : h.lists.length = h.arrays.size := by
  simp [Heap.lists]

@[simp] theorem contents_lists (h : Heap) (id : ArrayId) :
    h.lists.contents id = (h.array id).toList := by
  simp only [Heap.lists, Lists.contents, array, List.getD_eq_getElem?_getD, List.getElem?_map,
    Array.getElem?_toList]
  cases h.arrays[id]? <;> rfl

theorem newArray_eq (h : Heap) (items : List Value) :
    (h.newArray items.toArray).2 = h.withLists (h.lists ++ [items]) := by
  simp [newArray, Heap.lists, withLists, Function.comp_def, ← List.push_toArray]

theorem modifyArray_eq (h : Heap) (id : ArrayId) (f : Array Value → Array Value) :
    h.modifyArray id f = h.withLists (h.lists.set id (f (h.array id)).toList) := by
  have harrays : h.arrays.modify id f = h.arrays.setIfInBounds id (f (h.array id)) := by
    refine Array.ext (by simp) fun i hi hi' => ?_
    rw [Array.getElem_modify, Array.getElem_setIfInBounds]
    split
    · next heq =>
      subst heq
      simp [array, Array.getElem?_eq_getElem (by simpa using hi)]
    · rfl
  rw [modifyArray, harrays]
  simp [Heap.lists, withLists, Function.comp_def, List.map_set, ← Array.toList_setIfInBounds]

end Heap

/-! ## Steps -/

/-- The value that answers a call: the one that the call gives, or an error if it is refused. -/
inductive Lists.Answer : Option Value → Value → Prop
  | given {v : Value} : Answer (some v) v
  | refused {message : Text} : Answer none (.error message)

/-- What a call on arrays does to a heap: it gives the value that it gives for the lists and leaves
their contents, or it is refused with an error and leaves the heap as it is. -/
inductive Heap.Performs (h : Heap) : Option (Value × Lists) → Value × Heap → Prop
  | given {v : Value} {lists : Lists} : Performs h (some (v, lists)) (v, h.withLists lists)
  | refused {message : Text} : Performs h none (.error message, h)

namespace Heap

variable {h : Heap} {id : ArrayId} {x : Float} {v : Value} {items : List Value}

theorem Performs.answers {outcome : Option (Value × Lists)} {result : Value × Heap}
    (hresult : h.Performs outcome result) : Lists.Answer (outcome.map (·.1)) result.1 := by
  cases hresult with
  | given => exact .given
  | refused => exact .refused

theorem Performs.heap_eq {outcome : Option (Value × Lists)} {result : Value × Heap}
    (hresult : h.Performs outcome result) :
    result.2 = h.withLists ((outcome.map (·.2)).getD h.lists) := by
  cases hresult with
  | given => rfl
  | refused => exact (withLists_lists h).symm

/-- A call that only reads gives a value and leaves the heap as it is. -/
theorem Performs.read : h.Performs (some (v, h.lists)) (v, h) := by
  have hgiven : h.Performs (some (v, h.lists)) (v, h.withLists h.lists) := .given
  rwa [withLists_lists] at hgiven

theorem performs_createArray :
    h.Performs (h.lists.call? .createArray items) (h.createArray items) := by
  have hnew : h.createArray items = (.array h.lists.length, h.withLists (h.lists ++ [items])) := by
    rw [length_lists, ← newArray_eq]
    rfl
  rw [hnew]
  exact .given

theorem performs_arrayLen :
    h.Performs (h.lists.call? .arrayLen [.array id]) (h.arrayLen id, h) := by
  rw [Lists.call?, contents_lists, Array.length_toList]
  exact .read

theorem performs_arrayGet :
    h.Performs (h.lists.call? .arrayGet [.array id, .number x]) (h.arrayGet id x, h) := by
  rw [arrayGet, Number.position?_eq_place?, Lists.call?, contents_lists]
  cases Number.place? x with
  | none => exact .refused
  | some i =>
    by_cases hi : i < (h.array id).size
    · simp only [hi, dite_true, Option.bind_eq_bind, Option.bind_some, Array.getElem?_toList,
        Array.getElem?_eq_getElem]
      exact .read
    · simp only [hi, dite_false, Option.bind_eq_bind, Option.bind_some, Array.getElem?_toList,
        Array.getElem?_eq_none (Nat.le_of_not_lt hi)]
      exact .refused

theorem performs_arraySet :
    h.Performs (h.lists.call? .arraySet [.array id, .number x, v]) (h.arraySet id x v) := by
  rw [arraySet, Number.position?_eq_place?, Lists.call?, contents_lists]
  cases Number.place? x with
  | none => exact .refused
  | some i =>
    simp only [Option.bind_eq_bind, Option.bind_some, Array.length_toList, guard]
    by_cases hi : i < (h.array id).size
    · rw [if_pos hi, if_pos hi, modifyArray_eq, Array.toList_setIfInBounds]
      exact .given
    · rw [if_neg hi, if_neg hi]
      exact .refused

theorem performs_arrayPushBack :
    h.Performs (h.lists.call? .arrayPushBack [.array id, v]) (h.arrayPushBack id v) := by
  rw [arrayPushBack, Lists.call?, contents_lists, modifyArray_eq, Array.toList_push]
  exact .given

theorem performs_arrayPopBack :
    h.Performs (h.lists.call? .arrayPopBack [.array id]) (h.arrayPopBack id) := by
  rw [arrayPopBack, Lists.call?, contents_lists, Array.getLast?_toList]
  cases (h.array id).back? with
  | none => exact .refused
  | some v =>
    dsimp only
    rw [modifyArray_eq, Array.toList_pop]
    exact .given

theorem performs_arrayInsert :
    h.Performs (h.lists.call? .arrayInsert [.array id, .number x, v]) (h.arrayInsert id x v) := by
  rw [arrayInsert, Number.position?_eq_place?, Lists.call?, contents_lists]
  cases Number.place? x with
  | none => exact .refused
  | some i =>
    simp only [Option.bind_eq_bind, Option.bind_some, Array.length_toList, guard]
    by_cases hi : i ≤ (h.array id).size
    · have hinsert : ((h.array id).insertIdxIfInBounds i v).toList =
          (h.array id).toList.insertIdx i v := by
        rw [Array.insertIdxIfInBounds, dif_pos hi, Array.toList_insertIdx]
      rw [if_pos hi, if_pos hi, modifyArray_eq, hinsert]
      exact .given
    · rw [if_neg hi, if_neg hi]
      exact .refused

theorem performs_arrayRemove :
    h.Performs (h.lists.call? .arrayRemove [.array id, .number x]) (h.arrayRemove id x) := by
  rw [arrayRemove, Number.position?_eq_place?, Lists.call?, contents_lists]
  cases Number.place? x with
  | none => exact .refused
  | some i =>
    by_cases hi : i < (h.array id).size
    · have herase : ((h.array id).eraseIdxIfInBounds i).toList =
          (h.array id).toList.eraseIdx i := by
        rw [Array.eraseIdxIfInBounds, dif_pos hi, Array.toList_eraseIdx]
      simp only [hi, dite_true, Option.bind_eq_bind, Option.bind_some, Array.getElem?_toList,
        Array.getElem?_eq_getElem, modifyArray_eq, herase]
      exact .given
    · simp only [hi, dite_false, Option.bind_eq_bind, Option.bind_some, Array.getElem?_toList,
        Array.getElem?_eq_none (Nat.le_of_not_lt hi)]
      exact .refused

end Heap

namespace StandardFunction

open Run

variable {setup : Setup} {w : World} {f : StandardFunction} {values : List Value}

/-- A function on arrays, `createArray` apart, runs on arguments of its kinds. -/
theorem exists_call_eq (hf : f ∈ onArrays) (hnew : f ≠ .createArray) :
    ∃ body, f.call setup values = withArguments f.name f.arrayKinds values body := by
  cases f with
  | createArray => exact absurd rfl hnew
  | arrayLen | arrayGet | arraySet | arrayPushBack | arrayPopBack | arrayInsert | arrayRemove =>
    exact ⟨_, rfl⟩
  | _ => exact absurd hf (by decide)

/-- On values of its kinds a function on arrays does to the heap what it does to the lists. -/
theorem run_call_values (hf : f ∈ onArrays) (hnew : f ≠ .createArray)
    (arguments : Arguments f.arrayKinds) : ∃ result,
      w.heap.Performs (w.heap.lists.call? f arguments.values) result ∧
        (f.call setup arguments.values).run w = (.ok result.1, { w with heap := result.2 }) := by
  cases f with
  | createArray => exact absurd rfl hnew
  | arrayLen =>
    obtain ⟨id, ⟨⟩⟩ := arguments
    exact ⟨_, Heap.performs_arrayLen, rfl⟩
  | arrayGet =>
    obtain ⟨id, x, ⟨⟩⟩ := arguments
    exact ⟨_, Heap.performs_arrayGet, rfl⟩
  | arraySet =>
    obtain ⟨id, x, v, ⟨⟩⟩ := arguments
    exact ⟨_, Heap.performs_arraySet, rfl⟩
  | arrayPushBack =>
    obtain ⟨id, v, ⟨⟩⟩ := arguments
    exact ⟨_, Heap.performs_arrayPushBack, rfl⟩
  | arrayPopBack =>
    obtain ⟨id, ⟨⟩⟩ := arguments
    exact ⟨_, Heap.performs_arrayPopBack, rfl⟩
  | arrayInsert =>
    obtain ⟨id, x, v, ⟨⟩⟩ := arguments
    exact ⟨_, Heap.performs_arrayInsert, rfl⟩
  | arrayRemove =>
    obtain ⟨id, x, ⟨⟩⟩ := arguments
    exact ⟨_, Heap.performs_arrayRemove, rfl⟩
  | _ => exact absurd hf (by decide)

/-- A function on arrays does to the heap what it does to the lists. -/
theorem run_call_onArrays (hf : f ∈ onArrays) : ∃ result,
    w.heap.Performs (w.heap.lists.call? f values) result ∧
      (f.call setup values).run w = (.ok result.1, { w with heap := result.2 }) := by
  by_cases hnew : f = .createArray
  · subst hnew
    exact ⟨_, Heap.performs_createArray, rfl⟩
  · by_cases hfit : ∃ arguments : Arguments f.arrayKinds, values = arguments.values
    · obtain ⟨arguments, rfl⟩ := hfit
      exact run_call_values hf hnew arguments
    · rw [not_exists] at hfit
      obtain ⟨body, hbody⟩ := @exists_call_eq setup f values hf hnew
      obtain ⟨message, hrun⟩ := run_withArguments_of_forall_ne hfit
      rw [Lists.call?_eq_none hnew hfit, hbody]
      exact ⟨_, .refused, hrun⟩

/-! ## Runs -/

/-- What calls do to the lists one after another they do to the heap. -/
theorem run_calls {calls : List (StandardFunction × List Value)}
    (hcalls : ∀ c ∈ calls, c.1 ∈ onArrays) : ∃ results,
      (calls.mapM fun c : StandardFunction × List Value => c.1.call setup c.2).run w =
        (.ok results, { w with heap := w.heap.withLists (w.heap.lists.calls calls).2 }) ∧
      List.Forall₂ Lists.Answer (w.heap.lists.calls calls).1 results := by
  induction calls generalizing w with
  | nil =>
    refine ⟨[], ?_, .nil⟩
    rw [List.mapM_nil, run_pure, Lists.calls, Heap.withLists_lists]
  | cons c calls ih =>
    obtain ⟨hc, hcalls⟩ := List.forall_mem_cons.mp hcalls
    obtain ⟨⟨v, h⟩, hresult, hrun⟩ := @run_call_onArrays setup w c.1 c.2 hc
    obtain rfl : h = w.heap.withLists (w.heap.lists.after c) := hresult.heap_eq
    obtain ⟨results, hruns, hanswers⟩ :=
      ih (w := { w with heap := w.heap.withLists (w.heap.lists.after c) }) hcalls
    rw [Heap.lists_withLists] at hruns hanswers
    refine ⟨v :: results, ?_, .cons hresult.answers hanswers⟩
    rw [List.mapM_cons, run_bind, hrun]
    dsimp only
    rw [run_bind, hruns]
    rfl

/-- Calls on arrays, whatever their arguments are, give what they give for the lists of the arrays,
in which each array is one list for all references to it, and leave the contents of those lists. A
call that is refused answers with an error and changes nothing, and no call changes an array that it
is not on. -/
theorem calls_lists {calls : List (StandardFunction × List Value)}
    (hcalls : ∀ c ∈ calls, c.1 ∈ onArrays) :
    (∃ results,
      (calls.mapM fun c : StandardFunction × List Value => c.1.call setup c.2).run w =
        (.ok results, { w with heap := w.heap.withLists (w.heap.lists.calls calls).2 }) ∧
      List.Forall₂ Lists.Answer (w.heap.lists.calls calls).1 results) ∧
    ∀ before c after, calls = before ++ c :: after →
      ∀ id < (w.heap.lists.calls before).2.length, Lists.target? c.1 c.2 ≠ some id →
        (w.heap.lists.calls (before ++ [c])).2.contents id =
          (w.heap.lists.calls before).2.contents id := by
  refine ⟨run_calls hcalls, ?_⟩
  rintro before c after - id hid htarget
  rw [Lists.calls_append]
  exact Lists.contents_after hid htarget

/-- A world with one empty array. -/
def oneArray : World where
  scopes := ⟨#[]⟩
  heap := ⟨#[#[]], #[]⟩
  closures := 0
  events := #[]
  link := none
  replies := []

/-- Calls that put an array into itself and go on through another array. -/
def knotting : List (StandardFunction × List Value) :=
  [(.arrayPushBack, [.array 0, .array 0]), (.createArray, [.array 0, .boolean true]),
    (.arrayGet, [.array 1, .number 0.5]), (.arraySet, [.array 0, .number (-1), .null]),
    (.arrayInsert, [.array 0, .number 1, .array 1]), (.arrayGet, [.array 0, .number (0 / 0)]),
    (.arrayRemove, [.array 0, .number 1.5]), (.arrayPopBack, [.array 0]),
    (.arrayPopBack, [.array 0]), (.arrayPushBack, [.array 0])]

theorem lists_knotting : oneArray.heap.lists.calls knotting =
    ([some .null, some (.array 1), some (.array 0), none, some .null, none, some (.array 1),
      some (.array 0), none, none], [[], [.array 0, .boolean true]]) := by
  obtain ⟨hhalf, hminus, hone, hnan, hmore⟩ :
      Number.place? 0.5 = some 0 ∧ Number.place? (-1) = none ∧ Number.place? 1 = some 1 ∧
        Number.place? (0 / 0) = none ∧ Number.place? 1.5 = some 1 := by
    simp only [← Number.position?_eq_place?]
    decide +kernel
  simp [knotting, Lists.calls, Lists.after, Lists.call?, Lists.contents, Heap.lists, oneArray,
    hhalf, hminus, hone, hnan, hmore]

theorem calls_lists_knotting :
    (∀ c ∈ knotting, c.1 ∈ onArrays) ∧ ∃ results,
      (knotting.mapM fun c : StandardFunction × List Value =>
          c.1.call ⟨3, 9, true, .default, .usual⟩ c.2).run oneArray =
        (.ok results, { oneArray with heap := ⟨#[#[], #[.array 0, .boolean true]], #[]⟩ }) ∧
      List.Forall₂ Lists.Answer
        [some .null, some (.array 1), some (.array 0), none, some .null, none, some (.array 1),
          some (.array 0), none, none] results := by
  have hcalls : ∀ c ∈ knotting, c.1 ∈ onArrays := by decide
  obtain ⟨⟨results, hrun, hanswers⟩, -⟩ :=
    @calls_lists ⟨3, 9, true, .default, .usual⟩ oneArray knotting hcalls
  rw [lists_knotting] at hrun hanswers
  exact ⟨hcalls, results, hrun, hanswers⟩

end StandardFunction

end HostScript
