import HostScript.Proofs.Depth.Parsing
import HostScript.Proofs.Depth.Running
import HostScript.Proofs.Session.Blame

/-!
# Sessions under larger bounds

The bound on nesting decides whether a script runs to its end, never what it does: a script that
does not reach the bound does the same under every larger one (`Session.run_withDepth`).
-/

namespace HostScript

namespace Session

/-- The session with another setup. -/
def withSetup (s : Session) (setup : Setup) : Session := { s with setup }

/-- The session with another bound on nesting. -/
def withDepth (s : Session) (depth : Nat) : Session := s.withSetup { s.setup with depth }

/-- The session in which no function turns excess nesting into an error value. -/
def strict (s : Session) : Session := s.withSetup { s.setup with lenient := false }

/-- A script reaches the bound on nesting somewhere: it is nested too deeply itself, or what it runs
is, or a value or a text that it hands to a native function. All of these end the run if nothing is
lenient. -/
def ReachesBound (s : Session) (source : Text) : Prop :=
  (s.strict.run source).1 = .failure .tooDeep

theorem resultOf_eq_tooDeep {r : Except Halt Value} :
    resultOf r = .failure .tooDeep ↔ r = .error .tooDeep := by
  rcases r with (_ | _ | _ | _ | _) | v <;> simp [resultOf]

theorem noteResult_withSetup (s : Session) (setup : Setup) (result : RunResult) :
    (s.withSetup setup).noteResult result = (s.noteResult result).withSetup setup := by
  unfold noteResult
  split <;> rfl

variable {s : Session} {setup : Setup}

theorem runStatements_withSetup (h : s.setup.Under setup) {statements : List Stmt}
    (hne : (s.runStatements statements).1 ≠ .failure .tooDeep) :
    (s.withSetup setup).runStatements statements =
      ((s.runStatements statements).1, (s.runStatements statements).2.withSetup setup) := by
  have hrun := Run.extends_program h s.root .null statements s.world
    fun htooDeep => hne (resultOf_eq_tooDeep.mpr htooDeep)
  exact runStatements_of_run rfl hrun

/-- A script does the same in a setup of which it does not reach the bound as in one with a larger
bound. -/
theorem run_withSetup (h : s.setup.Under setup) {source : Text}
    (hne : (s.run source).1 ≠ .failure .tooDeep) :
    (s.withSetup setup).run source = ((s.run source).1, (s.run source).2.withSetup setup) := by
  have hagrees := compile_agrees h.depth source
  rcases hc : compile s.setup.depth source with fault | statements
  · rw [run_of_compile_error hc] at hne ⊢
    rw [hc] at hagrees
    have hsame : compile setup.depth source = .error fault :=
      hagrees fun hstop => hne (by rw [Except.error.inj hstop])
    rw [run_of_compile_error hsame, ← noteResult_withSetup]
    rfl
  · rw [run_of_compile_ok hc] at hne ⊢
    rw [hc] at hagrees
    have hrun := runStatements_withSetup (s := s.announced source) h hne
    have hannounced : (s.withSetup setup).announced source = (s.announced source).withSetup setup :=
      rfl
    rw [run_of_compile_ok (hagrees nofun), hannounced, hrun, noteResult_withSetup]

/-- The bound on nesting decides only whether a script fails. One that does not reach a bound ends in
the same way under every larger bound, and leaves the same world behind. -/
theorem run_withDepth {depth depth' : Nat} (h : depth ≤ depth') {source : Text}
    (hr : ¬ (s.withDepth depth).ReachesBound source) :
    ((s.withDepth depth').run source).1 = ((s.withDepth depth).run source).1 ∧
      ((s.withDepth depth').run source).2.world = ((s.withDepth depth).run source).2.world := by
  have hunder {d : Nat} (hd : depth ≤ d) :
      (s.withDepth depth).strict.setup.Under { s.setup with depth := d } :=
    ⟨rfl, hd, rfl, rfl, rfl⟩
  have hsmall : (s.withDepth depth).run source = _ :=
    run_withSetup (hunder (Nat.le_refl depth)) hr
  have hlarge : (s.withDepth depth').run source = _ := run_withSetup (hunder h) hr
  rw [hsmall, hlarge]
  exact ⟨rfl, rfl⟩

theorem reachesBound_definition : (withoutBootstrap.withDepth 8).ReachesBound "fn f(){x}" := by
  have hcompile : compile 8 "fn f(){x}" = .error .tooDeep := by cbv
  unfold ReachesBound
  rw [run_of_compile_error (s := (withoutBootstrap.withDepth 8).strict) hcompile]

theorem not_reachesBound_definition :
    ¬ (withoutBootstrap.withDepth 9).ReachesBound "fn f(){x}" := by
  have hcompile : compile 9 "fn f(){x}" = .ok [.function "f" [] faultyBody false ⟨0, 2, 1⟩] := by
    cbv
  have hdepth : (withoutBootstrap.withDepth 9).strict.setup.depth = 8 + 1 := rfl
  have hrun := run_definition hdepth
    ((withoutBootstrap.withDepth 9).strict.announced "fn f(){x}").world
  unfold ReachesBound
  rw [run_of_compile_ok (s := (withoutBootstrap.withDepth 9).strict) hcompile,
    runStatements_of_run (s := (withoutBootstrap.withDepth 9).strict.announced "fn f(){x}")
      root_withoutBootstrap hrun]
  rintro ⟨⟩

/-- A definition that is nested too deeply for a bound of eight goes through with a bound of nine,
and so with the usual one. -/
theorem run_withDepth_definition :
    (withoutBootstrap.withDepth 8).ReachesBound "fn f(){x}" ∧
      ¬ (withoutBootstrap.withDepth 9).ReachesBound "fn f(){x}" ∧
      ((withoutBootstrap.withDepth 1500).run "fn f(){x}").1 =
        ((withoutBootstrap.withDepth 9).run "fn f(){x}").1 ∧
      ((withoutBootstrap.withDepth 1500).run "fn f(){x}").2.world =
        ((withoutBootstrap.withDepth 9).run "fn f(){x}").2.world :=
  ⟨reachesBound_definition, not_reachesBound_definition,
    run_withDepth (by decide) not_reachesBound_definition⟩

end Session

end HostScript
