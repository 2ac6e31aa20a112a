import HostScript.Text.CodePoint

/-!
# Runs of code points

A run takes from the head of a text what satisfies a predicate, and stops in front of the first code
point that does not.
-/

namespace HostScript.Text

variable {p : CodePoint → Bool} {c : CodePoint} {s t : Text}

/-- A run of code points that satisfy `p` stops in front of the text. -/
def Stops (p : CodePoint → Bool) (t : Text) : Prop := ∀ c ∈ t.head?, p c = false

@[simp] theorem stops_nil (p : CodePoint → Bool) : Stops p [] := fun _ h => nomatch h

@[simp] theorem stops_cons : Stops p (c :: t) ↔ p c = false := by
  simp [Stops]

theorem Stops.of_isPrefix (h : t.Stops p) (hs : s <+: t) : s.Stops p := by
  obtain ⟨rest, rfl⟩ := hs
  cases s with
  | nil => exact stops_nil p
  | cons c s => exact stops_cons.mpr (stops_cons.mp h)

theorem Stops.of_imp {q : CodePoint → Bool} (h : t.Stops p) (hq : ∀ c, q c = true → p c = true) :
    t.Stops q := by
  intro c hc
  have hp := h c hc
  cases hqc : q c with
  | false => rfl
  | true => exact absurd (hq c hqc) (by simp [hp])

theorem takeWhile_append_of_stops (hs : ∀ c ∈ s, p c = true) (ht : t.Stops p) :
    (s ++ t).takeWhile p = s := by
  rw [List.takeWhile_append_of_pos hs]
  cases t with
  | nil => exact List.append_nil s
  | cons c t => rw [List.takeWhile_cons_of_neg (by simp [stops_cons.mp ht]), List.append_nil]

/-- Every text is a run and a rest in front of which it stops. -/
theorem exists_run (p : CodePoint → Bool) (t : Text) :
    ∃ run rest, t = run ++ rest ∧ t.takeWhile p = run ∧ (∀ c ∈ run, p c = true) ∧ rest.Stops p := by
  refine ⟨t.takeWhile p, t.dropWhile p, List.takeWhile_append_dropWhile.symm, rfl,
    fun c hc => ?_, fun c hc => ?_⟩
  · exact List.all_eq_true.mp (List.all_takeWhile) c hc
  · have h := List.head?_dropWhile_not p t
    rw [Option.mem_def.mp hc] at h
    exact h

end HostScript.Text
