import HostScript.Run.Evaluate

/-!
# Invariants of runs

`Ensures I H m Q` says that a run keeps an invariant of worlds however it ends, that its result
satisfies `Q`, and that it halts only as `H` allows. There is one rule for each way in which runs
are put together, so that a statement about all runs needs one lemma for each operation on worlds
and nothing about how they are combined.
-/

namespace HostScript.Run

variable {α β γ : Type} {I : World → Prop} {H : Halt → Prop}

/-- From a world with the invariant `I` a run comes to a world with `I`. Its result, if it has one,
satisfies `Q`, and its halt, if it ends in one, satisfies `H`. -/
def Ensures (I : World → Prop) (H : Halt → Prop) (m : Run α) (Q : α → Prop) : Prop :=
  ∀ w, I w → I (m.run w).2 ∧ match (m.run w).1 with
    | .ok a => Q a
    | .error h => H h

/-- The result of a run, if there is one, satisfies `Q`, and its halt satisfies `H`. -/
def Settles (Q : α → Prop) (H : Halt → Prop) : Except Halt α → Prop
  | .ok a => Q a
  | .error h => H h

theorem Settles.imp {Q Q' : α → Prop} {H H' : Halt → Prop} {result : Except Halt α}
    (h : Settles Q H result) (hresult : ∀ a, Q a → Q' a) (hhalt : ∀ halt, H halt → H' halt) :
    Settles Q' H' result := by
  cases result with
  | ok a => exact hresult a h
  | error halt => exact hhalt halt h

theorem Settles.of_ok {Q : α → Prop} {result : Except Halt α} {a : α} (h : Settles Q H result)
    (ha : result = .ok a) : Q a := by
  rw [ha] at h
  exact h

theorem Settles.of_error {Q : α → Prop} {result : Except Halt α} {halt : Halt}
    (h : Settles Q H result) (hhalt : result = .error halt) : H halt := by
  rw [hhalt] at h
  exact h

/-! ## Steps -/

theorem ensures_pure {a : α} {Q : α → Prop} (h : Q a) : Ensures I H (pure a) Q :=
  fun _ hw => ⟨hw, h⟩

theorem ensures_halt {h : Halt} {Q : α → Prop} (hh : H h) : Ensures I H (halt h) Q :=
  fun _ hw => ⟨hw, hh⟩

theorem ensures_get : Ensures I H get I :=
  fun _ hw => ⟨hw, hw⟩

theorem ensures_modifyGet {f : World → α × World} {Q : α → Prop}
    (h : ∀ w, I w → I (f w).2 ∧ Q (f w).1) : Ensures I H (modifyGet f) Q :=
  fun w hw => h w hw

theorem ensures_modify {f : World → World} (h : ∀ w, I w → I (f w)) :
    Ensures I H (modify f) fun _ => True :=
  ensures_modifyGet fun w hw => ⟨h w hw, trivial⟩

/-! ## Sequences -/

/-- What a run does that goes on with the result of another one. -/
theorem run_bind (m : Run α) (f : α → Run β) (w : World) :
    (m >>= f).run w = match m.run w with
      | (.ok a, w') => (f a).run w'
      | (.error h, w') => (.error h, w') := by
  change (match m.run w with | (a, w') => ExceptT.bindCont f a w') = _
  rcases m.run w with ⟨_ | _, _⟩ <;> rfl

theorem run_get (w : World) : (get : Run World).run w = (.ok w, w) := rfl

theorem ensures_bind {m : Run α} {f : α → Run β} {P : α → Prop} {Q : β → Prop}
    (hm : Ensures I H m P) (hf : ∀ a, P a → Ensures I H (f a) Q) : Ensures I H (m >>= f) Q := by
  intro w hw
  obtain ⟨hi, hq⟩ := hm w hw
  rw [run_bind]
  rcases hr : m.run w with ⟨_ | a, w'⟩
  · rw [hr] at hi hq
    exact ⟨hi, hq⟩
  · rw [hr] at hi hq
    exact hf a hq w' hi

theorem discard_eq_bind (m : Run α) : discard m = m >>= fun _ => pure ⟨⟩ := by
  simp only [discard, map_const, bind_pure_comp]
  rfl

theorem ensures_discard {m : Run α} {P : α → Prop} (hm : Ensures I H m P) :
    Ensures I H (discard m) fun _ => True := by
  rw [discard_eq_bind]
  exact ensures_bind hm fun _ _ => ensures_pure trivial

theorem ensures_mapM {f : α → Run β} {Q : β → Prop} {xs : List α}
    (h : ∀ x ∈ xs, Ensures I H (f x) Q) : Ensures I H (xs.mapM f) fun ys => ∀ y ∈ ys, Q y := by
  induction xs with
  | nil => exact ensures_pure (by simp)
  | cons x xs ih =>
    rw [List.mapM_cons]
    refine ensures_bind (h x (by simp)) fun y hy => ?_
    refine ensures_bind (ih fun z hz => h z (by simp [hz])) fun ys hys => ?_
    refine ensures_pure fun z hz => ?_
    rcases List.mem_cons.mp hz with rfl | hz
    · exact hy
    · exact hys z hz

/-- A loop over a list that keeps nothing but the world. -/
theorem ensures_forIn {xs : List γ} {f : γ → PUnit → Run (ForInStep PUnit)}
    (h : ∀ x ∈ xs, Ensures I H (f x ⟨⟩) fun _ => True) :
    Ensures I H (forIn xs ⟨⟩ f) fun _ => True := by
  induction xs with
  | nil => exact ensures_pure trivial
  | cons x xs ih =>
    rw [List.forIn_cons]
    refine ensures_bind (h x (by simp)) fun step _ => ?_
    cases step with
    | done => exact ensures_pure trivial
    | yield => exact ih fun z hz => h z (by simp [hz])

/-! ## Blocks and loops of scripts -/

theorem ensures_block {step : Stmt → Run Flow} {Q : Flow → Prop} {statements : List Stmt}
    (hn : Q .normal) (h : ∀ s ∈ statements, Ensures I H (step s) Q) :
    Ensures I H (block step statements) Q := by
  induction statements with
  | nil => exact ensures_pure hn
  | cons s rest ih =>
    rw [block]
    refine ensures_bind (h s (by simp)) fun flow hflow => ?_
    cases flow with
    | normal => exact ih fun t ht => h t (by simp [ht])
    | leave => exact ensures_pure hflow
    | give v => exact ensures_pure hflow

theorem ensures_iterate {body : Run Flow} {Q : Flow → Prop} (he : H .endless) (hn : Q .normal)
    (h : Ensures I H body Q) (bound : Nat) : Ensures I H (iterate body bound) Q := by
  induction bound with
  | zero => exact ensures_halt he
  | succ bound ih =>
    rw [iterate]
    refine ensures_bind h fun flow hflow => ?_
    cases flow with
    | normal => exact ih
    | leave => exact ensures_pure hn
    | give v => exact ensures_pure hflow

end HostScript.Run
