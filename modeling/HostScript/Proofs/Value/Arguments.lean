import HostScript.Library.Call
import HostScript.Proofs.Run.Steps
import Mathlib.Tactic.SplitIfs

/-!
# Arguments that fit a signature

A native function reads its arguments back from the values that they are the payloads of, and from
no others (`readArguments_eq_ok_iff`). So a call runs the body of the function on such values, and
answers with an error on all others.
-/

namespace HostScript

/-- The values of arguments. -/
def Arguments.values : (kinds : List Kind) → Arguments kinds → List Value
  | [], _ => []
  | k :: kinds, (payload, rest) => k.value payload :: values kinds rest

theorem readKinds_eq_ok_iff {kinds : List Kind} {position : Nat} {values : List Value}
    {arguments : Arguments kinds} (hlength : kinds.length = values.length) :
    readKinds position kinds values = .ok arguments ↔ values = arguments.values := by
  induction kinds generalizing position values with
  | nil => exact iff_of_true rfl (List.length_eq_zero_iff.mp hlength.symm)
  | cons k kinds ih =>
    cases values with
    | nil => exact nomatch hlength
    | cons v values =>
      obtain ⟨payload, rest⟩ := arguments
      have ih : readKinds (position + 1) kinds values = .ok rest ↔ values = rest.values :=
        ih (Nat.succ.inj hlength)
      simp only [readKinds, Arguments.values, List.cons.injEq, ← ih, ← Kind.read?_eq_some_iff]
      cases k.read? v with
      | none => simp
      | some payload' =>
        cases readKinds (position + 1) kinds values with
        | error fault => simp [Except.map]
        | ok rest' => simp [Except.map]

theorem length_values {kinds : List Kind} (arguments : Arguments kinds) :
    arguments.values.length = kinds.length := by
  induction kinds with
  | nil => rfl
  | cons k kinds ih =>
    obtain ⟨payload, rest⟩ := arguments
    rw [Arguments.values, List.length_cons, List.length_cons, ih]

/-- Arguments are read if they are the values that were read. -/
theorem readArguments_eq_ok_iff {kinds : List Kind} {values : List Value}
    {arguments : Arguments kinds} :
    readArguments kinds values = .ok arguments ↔ values = arguments.values := by
  unfold readArguments countFault?
  by_cases hlength : kinds.length = values.length
  · rw [if_neg (by omega), if_neg (by omega)]
    exact readKinds_eq_ok_iff hlength
  · refine iff_of_false ?_ fun h => hlength ?_
    · split_ifs
      · exact nofun
      · exact nofun
      · omega
    · rw [h, length_values]

section Calls

variable {name : Text} {kinds : List Kind} {values : List Value} {w : World}

/-- Values that are not those of arguments are answered with an error, and nothing else happens. -/
theorem run_withArguments_of_forall_ne {body : Arguments kinds → Run Value}
    (h : ∀ arguments : Arguments kinds, values ≠ arguments.values) :
    ∃ message, (withArguments name kinds values body).run w = (.ok (.error message), w) := by
  cases hread : readArguments kinds values with
  | ok arguments => exact absurd (readArguments_eq_ok_iff.mp hread) (h arguments)
  | error fault =>
    refine ⟨name ++ ": " ++ fault.message, ?_⟩
    rw [withArguments, hread, Run.run_pure]

end Calls

end HostScript
