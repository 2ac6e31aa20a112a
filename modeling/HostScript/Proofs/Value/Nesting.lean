import HostScript.Value.Display

/-!
# Which values cannot be shown

Showing a value goes down through its members. It fails exactly where it comes to a composite more
levels below the value than the bound admits, with no composite met twice on the way
(`display_eq_none_iff`).
-/

namespace HostScript

/-- The array or table that a value refers to. -/
def Value.composite? : Value → Option Composite
  | array id => some (.array id)
  | table id => some (.table id)
  | _ => none

/-- A way from a value down through composites, each a member of the one before. -/
inductive Heap.Descends (h : Heap) : Value → List Composite → Prop
  | last {v : Value} {c : Composite} : v.composite? = some c → Descends h v [c]
  | step {v u : Value} {c : Composite} {path : List Composite} :
      v.composite? = some c → u ∈ h.members c → Descends h u path → Descends h v (c :: path)

theorem Heap.Descends.ne_nil {h : Heap} {v : Value} {path : List Composite}
    (hd : h.Descends v path) : path ≠ [] := by
  cases hd <;> exact List.cons_ne_nil _ _

theorem Heap.Descends.exists_composite {h : Heap} {v : Value} {path : List Composite}
    (hd : h.Descends v path) : ∃ c, v.composite? = some c := by
  cases hd with
  | last hc => exact ⟨_, hc⟩
  | step hc => exact ⟨_, hc⟩

/-- Something fails to be made of all elements of a list if it fails for one of them. -/
theorem mapM_eq_none_iff {α β : Type} {f : α → Option β} {xs : List α} :
    xs.mapM f = none ↔ ∃ x ∈ xs, f x = none := by
  induction xs with
  | nil => simp
  | cons x xs ih =>
    rw [List.mapM_cons]
    cases hx : f x with
    | none => simp [hx]
    | some y =>
      simp only [List.mem_cons, exists_eq_or_imp, hx, ← ih]
      cases xs.mapM f <;> simp

theorem bind_some_eq_none_iff {α β : Type} {o : Option α} {g : α → β} :
    (do return g (← o)) = none ↔ o = none := by
  cases o <;> simp

namespace Value

theorem displayIn_ne_none {h : Heap} {v : Value} (hv : v.composite? = none) (depth : Nat)
    (active : List Composite) : v.displayIn h depth active ≠ none := by
  cases v with
  | array id => simp [composite?] at hv
  | table id => simp [composite?] at hv
  | _ => cases depth <;> simp [displayIn]

theorem displayIn_zero {h : Heap} {v : Value} {c : Composite} (hv : v.composite? = some c)
    (active : List Composite) : v.displayIn h 0 active = none := by
  cases v with
  | array id => rfl
  | table id => rfl
  | _ => simp [composite?] at hv

/-- A composite fails to be shown if it is not cut short and one of its members fails below it. -/
theorem displayIn_succ_eq_none_iff {h : Heap} {v : Value} {c : Composite}
    (hv : v.composite? = some c) (depth : Nat) (active : List Composite) :
    v.displayIn h (depth + 1) active = none ↔
      c ∉ active ∧ ∃ u ∈ h.members c, u.displayIn h depth (c :: active) = none := by
  cases v with
  | array id =>
    obtain rfl := Option.some.inj hv
    by_cases hc : Composite.array id ∈ active
    · simp [displayIn, hc]
    · simp only [displayIn, List.contains_iff_mem, hc, if_false, bind_some_eq_none_iff,
        mapM_eq_none_iff, not_false_eq_true, true_and, Heap.members]
  | table id =>
    obtain rfl := Option.some.inj hv
    by_cases hc : Composite.table id ∈ active
    · simp [displayIn, hc]
    · simp only [displayIn, List.contains_iff_mem, hc, if_false, bind_some_eq_none_iff,
        mapM_eq_none_iff, not_false_eq_true, true_and, Heap.members, List.mem_map, displayEntry,
        Option.map_eq_none_iff]
      constructor
      · rintro ⟨entry, he, hd⟩
        exact ⟨entry.2, ⟨entry, he, rfl⟩, hd⟩
      · rintro ⟨_, ⟨entry, he, rfl⟩, hd⟩
        exact ⟨entry, he, hd⟩
  | _ => simp [composite?] at hv

theorem displayIn_eq_none_iff {h : Heap} {depth : Nat} {active : List Composite} {v : Value} :
    v.displayIn h depth active = none ↔
      ∃ path, h.Descends v path ∧ path.length = depth + 1 ∧ path.dropLast.Nodup ∧
        ∀ c ∈ path.dropLast, c ∉ active := by
  cases hv : v.composite? with
  | none =>
    refine iff_of_false (displayIn_ne_none hv depth active) ?_
    rintro ⟨path, hd, -⟩
    obtain ⟨c, hc⟩ := hd.exists_composite
    simp [hv] at hc
  | some c =>
    induction depth generalizing active v c with
    | zero =>
      refine iff_of_true (displayIn_zero hv active) ⟨[c], .last hv, rfl, ?_, ?_⟩
      · exact List.nodup_nil
      · simp
    | succ depth ih =>
      rw [displayIn_succ_eq_none_iff hv]
      constructor
      · rintro ⟨hc, u, hu, hnone⟩
        obtain ⟨d, hd⟩ := Option.ne_none_iff_exists'.mp fun h' =>
          displayIn_ne_none h' depth (c :: active) hnone
        obtain ⟨path, hdescends, hlength, hnodup, hactive⟩ := (ih _ hd).mp hnone
        refine ⟨c :: path, .step hv hu hdescends, by simp [hlength], ?_, ?_⟩
        · rw [List.dropLast_cons_of_ne_nil hdescends.ne_nil]
          refine List.nodup_cons.mpr ⟨fun hmem => ?_, hnodup⟩
          exact hactive c hmem List.mem_cons_self
        · rw [List.dropLast_cons_of_ne_nil hdescends.ne_nil]
          refine List.forall_mem_cons.mpr ⟨hc, fun d hmem hin => ?_⟩
          exact hactive d hmem (List.mem_cons_of_mem c hin)
      · rintro ⟨path, hdescends, hlength, hnodup, hactive⟩
        cases hdescends with
        | last => simp at hlength
        | @step _ u c' path hc' hu hdescends =>
          obtain rfl : c = c' := Option.some.inj (hv.symm.trans hc')
          rw [List.dropLast_cons_of_ne_nil hdescends.ne_nil] at hnodup hactive
          obtain ⟨hfirst, hrest⟩ := List.forall_mem_cons.mp hactive
          obtain ⟨hnot, hnodup⟩ := List.nodup_cons.mp hnodup
          obtain ⟨d, hd⟩ := hdescends.exists_composite
          refine ⟨hfirst, u, hu, (ih _ hd).mpr ⟨path, hdescends, by simpa using hlength, hnodup, ?_⟩⟩
          intro e he hin
          rcases List.mem_cons.mp hin with rfl | hin
          · exact hnot he
          · exact hrest e he hin

/-- A value cannot be shown if there is a way down from it with more composites than the bound, none
of which is met twice before the last one. -/
theorem display_eq_none_iff {h : Heap} {depth : Nat} {v : Value} :
    v.display h depth = none ↔
      ∃ path, h.Descends v path ∧ path.length = depth + 1 ∧ path.dropLast.Nodup := by
  rw [display, displayIn_eq_none_iff]
  simp

end Value

end HostScript
