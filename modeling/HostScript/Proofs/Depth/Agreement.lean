import HostScript.Run.World

/-!
# Agreement up to a halt

A procedure with a bound on nesting stops with a halt of its own where it reaches the bound. With a
larger bound it comes to the same outcome, unless the outcome is that halt. `AgreesUnless` says so
of two outcomes, and there is one rule for each way in which outcomes are put together.
-/

namespace HostScript

variable {ε α β : Type} {stop : ε}

/-- The second outcome is the first one, unless that is the given halt. -/
def AgreesUnless (stop : ε) (a b : Except ε α) : Prop := a ≠ .error stop → b = a

namespace AgreesUnless

theorem refl (stop : ε) (a : Except ε α) : AgreesUnless stop a a := fun _ => rfl

theorem of_stop (b : Except ε α) : AgreesUnless stop (.error stop) b := fun h => absurd rfl h

theorem eq_or {a b : Except ε α} (h : AgreesUnless stop a b) : a = .error stop ∨ b = a :=
  Classical.or_iff_not_imp_left.mpr h

theorem bind {a b : Except ε α} {f g : α → Except ε β} (h : AgreesUnless stop a b)
    (hf : ∀ x, AgreesUnless stop (f x) (g x)) : AgreesUnless stop (a >>= f) (b >>= g) := by
  rcases h.eq_or with rfl | rfl
  · exact of_stop _
  · cases b with
    | error e => exact refl stop _
    | ok x => exact hf x

theorem map {a b : Except ε α} (h : AgreesUnless stop a b) (f : α → β) :
    AgreesUnless stop (a.map f) (b.map f) := by
  rcases h.eq_or with rfl | rfl
  · exact of_stop _
  · exact refl stop _

theorem mapM {f g : α → Except ε β} (h : ∀ x, AgreesUnless stop (f x) (g x)) (xs : List α) :
    AgreesUnless stop (xs.mapM f) (xs.mapM g) := by
  induction xs with
  | nil => exact refl stop _
  | cons x xs ih =>
    rw [List.mapM_cons, List.mapM_cons]
    exact (h x).bind fun y => ih.bind fun ys => refl stop _

end AgreesUnless

end HostScript
