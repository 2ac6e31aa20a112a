import HostScript.Proofs.Run.Invariants
import HostScript.Proofs.Session.Blame

/-!
# What sessions keep

An invariant that runs keep, and that does not depend on the log and on what is outside, is kept by
all that a session does between its start and any later time (`History.keeps`). While a script runs
it holds at every stage (`holds_of_during`).
-/

namespace HostScript.Session

open Run

variable {J : Invariant} {s : Session} {sources : List Text}

/-- The log, the link and the replies that are still to come do not matter to an invariant. -/
def Aloof (J : Invariant) : Prop :=
  ∀ {w : World} (events : Array Event) (link : Option Link) (replies : List HttpReply),
    J.world w → J.Later w { w with events := events, link := link, replies := replies }

/-- An invariant holds in the world of a session, and of its root scope. -/
structure Ready (J : Invariant) (s : Session) : Prop where
  world : J.world s.world
  env : J.env s.world s.root

theorem later_log (hout : Aloof J) (hw : J.world s.world) (level : LogLevel) (message : Text) :
    J.Later s.world (s.log level message).world :=
  hout _ _ _ hw

theorem later_noteResult (hJ : J.Ordered) (hout : Aloof J) (hw : J.world s.world)
    (result : RunResult) : J.Later s.world (s.noteResult result).world := by
  unfold noteResult
  split
  · exact later_log hout hw _ _
  · exact hJ.later_refl hw

section

variable (hJ : J.Kept s.setup fun _ => True) (hout : Aloof J)
include hJ hout

/-- A script, whether it can be compiled or not and however it ends, leads to a later world. -/
theorem later_run (hs : Ready J s) (source : Text) : J.Later s.world (s.run source).2.world := by
  have hlog : J.Later s.world (s.announced source).world := later_log hout hs.world _ _
  have henv : J.env (s.announced source).world s.root := hJ.env_mono hlog.below hs.env
  cases hcompile : compile s.setup.depth source with
  | ok statements =>
    have hleads : J.Leads (s.announced source).world (program s.setup s.root .null statements)
        J.value :=
      Invariant.leads_program hJ (fun _ _ _ _ => trivial) hlog.world henv
        (hJ.plain fun _ => trivial) fun _ _ _ _ _ _ => trivial
    have hprogram := hleads.later
    rw [run_of_compile_ok hcompile]
    refine hJ.later_trans hlog (hJ.later_trans hprogram ?_)
    exact later_noteResult (s := ((s.announced source).runStatements statements).2)
      hJ.toOrdered hout hprogram.world _
  | error fault =>
    rw [run_of_compile_error hcompile]
    exact hJ.later_trans hlog (later_noteResult hJ.toOrdered hout hlog.world _)

theorem Ready.run (hs : Ready J s) (source : Text) : Ready J (s.run source).2 := by
  have hlater := later_run hJ hout hs source
  refine ⟨hlater.world, ?_⟩
  rw [run_root]
  exact hJ.env_mono hlater.below hs.env

/-- An invariant holds at all that comes to pass while a session runs a source. -/
theorem holds_of_during (hs : Ready J s) {source : Text} {m : Stage} (h : s.During source m) :
    J.below s.world m.world ∧ J.Holds m := by
  obtain ⟨statements, -, hcomes⟩ := h
  have hlog : J.Later s.world (s.announced source).world := later_log hout hs.world _ _
  have henv : J.env (s.announced source).world s.root := hJ.env_mono hlog.below hs.env
  obtain ⟨hbelow, hholds⟩ := Invariant.holds_of_comes hJ (fun _ _ _ _ => trivial) hlog.world henv
    (fun _ _ _ _ _ _ => trivial) hcomes
  exact ⟨hJ.trans hlog.below hbelow, hholds⟩

end

/-- An invariant that holds of all sessions in which nothing has run holds of all sessions. -/
theorem History.keeps (hJ : ∀ setup, J.Kept setup fun _ => True) (hout : Aloof J)
    (hfresh : ∀ config around, Ready J (Session.fresh config around)) (h : History sources s) :
    Ready J s := by
  induction h with
  | fresh config around => exact hfresh config around
  | run source _ ih => exact ih.run (hJ _) hout source
  | @log _ s level message _ ih =>
    have hlater := later_log hout ih.world level message
    exact ⟨hlater.world, (hJ s.setup).env_mono hlater.below ih.env⟩
  | @closeLink _ s _ ih =>
    have hlater : J.Later s.world s.closeLink.world := hout _ _ _ ih.world
    exact ⟨hlater.world, (hJ s.setup).env_mono hlater.below ih.env⟩

end HostScript.Session
