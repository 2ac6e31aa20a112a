import HostScript.Proofs.Likeness.Sessions
import HostScript.Proofs.Syntax.Lines

/-!
# Where the code at fault comes from

A span alone does not say whether a fault lies in the source that runs or in a function that the
session holds from before, for the same span may occur in both. Running the source with the spans of
its program moved tells them apart: a fault of the program moves with it, wherever it is moved to
(`Session.FaultMoves`), and a fault of the code that is held stays (`Session.FaultStays`). Every
fault of running does one of both (`Session.faultMoves_or_faultStays`), and none does both
(`Session.FaultMoves.not_faultStays`).
-/

namespace HostScript

namespace Likeness

/-- The likeness of a source with its spans moved in two ways. The spans in code that was there
before stay as they are. -/
def placing (fixed : Span → Prop) (source : Text) (f g : Span → Span) : Likeness where
  old := none
  new := []
  span σ σ' := fixed σ ∧ σ' = σ ∨ ∃ τ : Span, τ.In source ∧ σ = f τ ∧ σ' = g τ
  shows := Event.shows
  shows_called := Event.shows_called

variable {fixed : Span → Prop} {source : Text} {f g : Span → Span}

theorem span_placing {τ : Span} (h : τ.In source) : (placing fixed source f g).span (f τ) (g τ) :=
  .inr ⟨τ, h, rfl, rfl⟩

theorem same_placing {σ : Span} (h : fixed σ) : (placing fixed source f g).Same σ :=
  .inl ⟨h, rfl⟩

theorem blockLike_placing {program : List Stmt} (h : BlockSpansIn (Span.In source) program) :
    BlockLike (placing fixed source f g) .outside (moveBlock f program) (moveBlock g program) :=
  .moved program fun σ hσ => span_placing (h σ hσ)

end Likeness

theorem Span.moved_injective (bytes lines : Nat) : Function.Injective (moved bytes lines) := by
  rintro ⟨_, _, _⟩ ⟨_, _, _⟩ h
  simpa [moved] using h

/-- The span stands in code that the world holds. -/
def World.HoldsSpan (w : World) (σ : Span) : Prop := ∃ c, w.Holds c ∧ σ ∈ spansOfBlock c.body

namespace Session

variable {s : Session} {source : Text} {program : List Stmt} {sources : List Text}

/-- Runs a source with the spans of its program moved. -/
def runMoved (f : Span → Span) (s : Session) (source : Text) : RunResult × Session :=
  match compile s.setup.depth source with
  | .ok program =>
    let ended := (s.announced source).runStatements (moveBlock f program)
    (ended.1, ended.2.noteResult ended.1)
  | .error _ => s.run source

theorem runMoved_of_compile_ok (f : Span → Span) (hc : compile s.setup.depth source = .ok program) :
    s.runMoved f source =
      (((s.announced source).runStatements (moveBlock f program)).1,
        ((s.announced source).runStatements (moveBlock f program)).2.noteResult
          ((s.announced source).runStatements (moveBlock f program)).1) := by
  simp only [runMoved, hc]

/-- A source whose spans are moved to where they are just runs. -/
theorem runMoved_id (s : Session) (source : Text) : s.runMoved id source = s.run source := by
  cases hc : compile s.setup.depth source with
  | ok program => rw [runMoved_of_compile_ok id hc, run_of_compile_ok hc, moveBlock_id]
  | error fault => simp only [runMoved, hc]

/-- The fault of a source lies in its own program: wherever the program is moved to, the fault moves
with it. -/
def FaultMoves (s : Session) (source : Text) (cause : RuntimeFault) (σ : Span) : Prop :=
  ∀ f : Span → Span, (s.runMoved f source).1 = .failure (.runtime cause (some (f σ)))

/-- The fault of a source lies in a function that the session holds: wherever the program of the
source is moved to, the fault stays. -/
def FaultStays (s : Session) (source : Text) (cause : RuntimeFault) (σ : Span) : Prop :=
  ∀ f : Span → Span, (s.runMoved f source).1 = .failure (.runtime cause (some σ))

/-- A fault does not do both. -/
theorem FaultMoves.not_faultStays {cause : RuntimeFault} {σ : Span}
    (h : s.FaultMoves source cause σ) : ¬ s.FaultStays source cause σ := by
  intro hstays
  have hequal := (h (Span.moved 1 0)).symm.trans (hstays (Span.moved 1 0))
  obtain ⟨-, hσ⟩ := ScriptFault.runtime.inj (RunResult.failure.inj hequal)
  have hbyte : σ.startByte + 1 = σ.startByte := congrArg Span.startByte (Option.some.inj hσ)
  exact Nat.succ_ne_self _ hbyte

/-- Wherever the program of a source is moved to, its run ends alike. -/
theorem Sound.runMoved_like (h : s.Sound) (hc : compile s.setup.depth source = .ok program)
    (f g : Span → Span) :
    ∃ kinds, (s.runMoved f source).1.Like (.placing s.world.HoldsSpan source f g) kinds
      (s.runMoved g source).1 := by
  let b := Likeness.placing s.world.HoldsSpan source f g
  have hself : s.Like b (ScopeKind.none s.world) s :=
    h.like_self fun c hc σ hσ => Likeness.same_placing ⟨c, hc, hσ⟩
  have hprogram : BlockLike b .outside (moveBlock f program) (moveBlock g program) :=
    Likeness.blockLike_placing (compile_spans hc)
  obtain ⟨kinds, -, hresult, -⟩ := (hself.announced rfl source source).runStatements hprogram
  rw [runMoved_of_compile_ok f hc, runMoved_of_compile_ok g hc]
  exact ⟨kinds, hresult⟩

/-- Faults of sources that are moved in two ways are blamed on the same span of code that was there
before, or on what became of one span of the source. -/
theorem Sound.fault_runMoved (h : s.Sound) (hc : compile s.setup.depth source = .ok program)
    {f : Span → Span} {cause : RuntimeFault} {σ : Span}
    (hf : (s.runMoved f source).1 = .failure (.runtime cause (some σ))) (g : Span → Span) :
    ∃ σ', (s.runMoved g source).1 = .failure (.runtime cause (some σ')) ∧
      (s.world.HoldsSpan σ ∧ σ' = σ ∨ ∃ τ : Span, τ.In source ∧ σ = f τ ∧ σ' = g τ) := by
  obtain ⟨kinds, hlike⟩ := h.runMoved_like hc f g
  rw [hf] at hlike
  obtain ⟨fault, hg, span, rfl, hspan⟩ := hlike
  cases hspan with
  | some hσ => exact ⟨_, hg, hσ⟩

/-! ## Moving a program away from what is held -/

/-- Far enough down, a program shares no span with the code that a session holds. -/
theorem History.exists_moved (h : History sources s) :
    ∃ bytes, ∀ σ : Span, ¬ s.world.HoldsSpan (σ.moved bytes 0) := by
  refine ⟨(sources.map Utf8.size).sum + 1, ?_⟩
  rintro σ ⟨c, hc, hσ⟩
  obtain ⟨origin, horigin, -, hend, -⟩ := h.code hc _ hσ
  have hsize : Utf8.size origin ≤ (sources.map Utf8.size).sum :=
    List.le_sum_of_mem (List.mem_map_of_mem horigin)
  simp only [Span.moved] at hend
  omega

/-- A fault of running is blamed on a span of the source and moves with it, or it is blamed on code
that the session holds and stays. -/
theorem faultMoves_or_faultStays (h : History sources s)
    (hc : compile s.setup.depth source = .ok program) {cause : RuntimeFault} {σ : Span}
    (hf : (s.run source).1 = .failure (.runtime cause (some σ))) :
    σ.In source ∧ s.FaultMoves source cause σ ∨
      s.world.HoldsSpan σ ∧ s.FaultStays source cause σ := by
  obtain ⟨bytes, hfar⟩ := h.exists_moved
  rw [← runMoved_id] at hf
  -- far down, what is blamed tells where it comes from; from there on the program is moved anywhere
  obtain ⟨σ', hf', hσ'⟩ := h.sound.fault_runMoved hc hf (Span.moved bytes 0)
  rcases hσ' with ⟨hheld, rfl⟩ | ⟨τ, hin, rfl, rfl⟩
  · right
    refine ⟨hheld, fun g => ?_⟩
    obtain ⟨σ'', hg, hσ''⟩ := h.sound.fault_runMoved hc hf' g
    rcases hσ'' with ⟨-, rfl⟩ | ⟨τ, -, rfl, -⟩
    · exact hg
    · exact absurd hheld (hfar τ)
  · left
    refine ⟨hin, fun g => ?_⟩
    obtain ⟨σ'', hg, hσ''⟩ := h.sound.fault_runMoved hc hf' g
    rcases hσ'' with ⟨hheld, -⟩ | ⟨ρ, -, hρ, rfl⟩
    · exact absurd hheld (hfar σ)
    · obtain rfl := Span.moved_injective bytes 0 hρ
      exact hg

end Session

end HostScript
