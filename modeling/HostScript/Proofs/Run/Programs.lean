import HostScript.Proofs.Run.Steps

/-!
# Programs in parts

How the statements of a script follow each other. A script that is run in two parts does in the
second one what it does at once, if the first one comes to its end (`run_program_append`). The value
at hand when statements begin shows in the result only if they give none of their own
(`run_program_result`).
-/

namespace HostScript.Run

variable {setup : Setup} {env : Env} {w w' u : World} {s : Stmt} {rest : List Stmt}

/-- The statements of a script come to their end: none of them fails, leaves or gives. -/
inductive Passes (setup : Setup) (env : Env) : World → List Stmt → World → Prop
  | nil {w : World} : Passes setup env w [] w
  | expression {w u w' : World} {e : Expr} {σ : Span} {v : Value} {rest : List Stmt}
    (h : (evaluate setup setup.depth env e).run w = (.ok v, u))
    (hrest : Passes setup env u rest w') : Passes setup env w (.expression e σ :: rest) w'
  | step {w u w' : World} {s : Stmt} {rest : List Stmt} (hs : ∀ e σ, s ≠ .expression e σ)
    (h : (execute setup setup.depth env s).run w = (.ok .normal, u))
    (hrest : Passes setup env u rest w') : Passes setup env w (s :: rest) w'

/-- A script comes to an expression that stands as a statement of its own, or to a statement that
gives a result. -/
inductive Answers (setup : Setup) (env : Env) : World → List Stmt → Prop
  | expression {w : World} {e : Expr} {σ : Span} {rest : List Stmt} :
    Answers setup env w (.expression e σ :: rest)
  | gives {w u : World} {s : Stmt} {v : Value} {rest : List Stmt}
    (h : (execute setup setup.depth env s).run w = (.ok (.give v), u)) :
    Answers setup env w (s :: rest)
  | later {w u : World} {s : Stmt} {rest : List Stmt}
    (h : (execute setup setup.depth env s).run w = (.ok .normal, u))
    (hrest : Answers setup env u rest) : Answers setup env w (s :: rest)

/-- A statement that is no expression leaves the value at hand alone. -/
theorem program_cons (result : Value) (hs : ∀ e σ, s ≠ .expression e σ) (rest : List Stmt) :
    program setup env result (s :: rest) = do
      match ← execute setup setup.depth env s with
      | .normal => program setup env result rest
      | .leave => return result
      | .give v => return v := by
  cases s with
  | expression e σ => exact absurd rfl (hs e σ)
  | _ => rfl

theorem run_program_expression {result v : Value} {e : Expr} {σ : Span}
    (h : (evaluate setup setup.depth env e).run w = (.ok v, u)) :
    (program setup env result (.expression e σ :: rest)).run w =
      (program setup env v rest).run u := by
  rw [program, run_bind, h]

theorem run_program_step {result : Value} (hs : ∀ e σ, s ≠ .expression e σ)
    (h : (execute setup setup.depth env s).run w = (.ok .normal, u)) :
    (program setup env result (s :: rest)).run w = (program setup env result rest).run u := by
  rw [program_cons result hs, run_bind, h]

/-- Behind statements that come to their end, the others run with some value at hand. -/
theorem run_program_append {first : List Stmt} (h : Passes setup env w first w') (result : Value) :
    ∃ v, ∀ second, (program setup env result (first ++ second)).run w =
      (program setup env v second).run w' := by
  induction h generalizing result with
  | nil => exact ⟨result, fun _ => rfl⟩
  | @expression _ _ _ _ _ value _ hstep _ ih =>
    obtain ⟨v, hv⟩ := ih value
    exact ⟨v, fun second => (run_program_expression hstep).trans (hv second)⟩
  | step hs hstep _ ih =>
    obtain ⟨v, hv⟩ := ih result
    exact ⟨v, fun second => (run_program_step hs hstep).trans (hv second)⟩

theorem run_program_of_passes {first : List Stmt} (h : Passes setup env w first w')
    (result : Value) : ∃ v, (program setup env result first).run w = (.ok v, w') ∧
      ∀ second, (program setup env result (first ++ second)).run w =
        (program setup env v second).run w' := by
  obtain ⟨v, hv⟩ := run_program_append h result
  refine ⟨v, ?_, hv⟩
  have hfirst := hv []
  rwa [List.append_nil] at hfirst

/-- With another value at hand, a program does the same and has the same result, or both values at
hand are the results. -/
theorem run_program_result (setup : Setup) (env : Env) (x y : Value) (statements : List Stmt)
    (w : World) :
    ((program setup env y statements).run w).2 = ((program setup env x statements).run w).2 ∧
      (((program setup env y statements).run w).1 = ((program setup env x statements).run w).1 ∨
        ¬ Answers setup env w statements ∧
        ((program setup env x statements).run w).1 = .ok x ∧
        ((program setup env y statements).run w).1 = .ok y) := by
  induction statements generalizing w with
  | nil => exact ⟨rfl, .inr ⟨nofun, rfl, rfl⟩⟩
  | cons s rest ih =>
    by_cases hs : ∃ e σ, s = .expression e σ
    · obtain ⟨e, σ, rfl⟩ := hs
      exact ⟨rfl, .inl rfl⟩
    · have hs : ∀ e σ, s ≠ .expression e σ := fun e σ h => hs ⟨e, σ, h⟩
      rw [program_cons x hs, program_cons y hs, run_bind, run_bind]
      rcases hr : (execute setup setup.depth env s).run w with ⟨halt | (_ | _ | v), u⟩
      · exact ⟨rfl, .inl rfl⟩
      · obtain ⟨hworld, hsame | ⟨hnot, hx, hy⟩⟩ := ih u
        · exact ⟨hworld, .inl hsame⟩
        · refine ⟨hworld, .inr ⟨fun h => ?_, hx, hy⟩⟩
          cases h with
          | expression => exact hs _ _ rfl
          | gives h => exact nomatch hr.symm.trans h
          | later h hrest =>
            obtain ⟨-, rfl⟩ := Prod.mk.inj (hr.symm.trans h)
            exact hnot hrest
      · refine ⟨rfl, .inr ⟨fun h => ?_, rfl, rfl⟩⟩
        cases h with
        | expression => exact hs _ _ rfl
        | gives h => exact nomatch hr.symm.trans h
        | later h => exact nomatch hr.symm.trans h
      · exact ⟨rfl, .inl rfl⟩

end HostScript.Run
