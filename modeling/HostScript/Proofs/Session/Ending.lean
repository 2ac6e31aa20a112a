import HostScript.Proofs.Session.Reports
import HostScript.Proofs.Value.Nesting
import HostScript.Session.Worker
import Mathlib

/-!
# When a worker ends

A worker that runs takes its jobs in the order in which they came in. It ends exactly when it takes
one of four kinds of jobs (`Session.EndsBy`): the mark that closing leaves, a script during which
the host goes out of reach, a script whose value is nested too deeply to be shown, and a script
whose fault cannot be reported. `act_running` says what one step makes of a worker that runs;
`perform_running` is about any number of them.
-/

namespace HostScript

/-- A worker whose session this is ends when it takes the job. -/
inductive Session.EndsBy (s : Session) : Job → Prop
  | stop : EndsBy s .stop
  | disconnected {source : Text} {cause : TransportFault} :
      (s.run source).1 = .disconnected cause → EndsBy s (.script source)
  | nested {source : Text} {v : Value} {path : List Composite} :
      (s.run source).1 = .success v → (s.run source).2.world.heap.Descends v path →
      path.length = s.setup.depth + 1 → path.dropLast.Nodup → EndsBy s (.script source)
  | surrogate {source : Text} {cause : ScanFault} {span : Span} :
      (s.run source).1 = .failure (.scan cause span) → (∃ c ∈ source, c.isSurrogate = true) →
      EndsBy s (.script source)

/-- One session has become another by running scripts in order. Each run is followed by an entry in
the log, and the link to the host may be closed in between. -/
inductive Session.Carries : Session → List Text → Session → Prop
  | refl (s : Session) : Carries s [] s
  | run {s t : Session} {scripts : List Text} (source : Text) (level : LogLevel) (message : Text) :
      Carries ((s.run source).2.log level message) scripts t → Carries s (source :: scripts) t
  | closeLink {s t : Session} {scripts : List Text} :
      Carries s.closeLink scripts t → Carries s scripts t

theorem Session.Carries.trans {s t u : Session} {first second : List Text}
    (h : s.Carries first t) (h' : t.Carries second u) : s.Carries (first ++ second) u := by
  induction h with
  | refl s => exact h'
  | run source level message _ ih => exact .run source level message (ih h')
  | closeLink _ ih => exact .closeLink (ih h')

/-- A script ends the worker if its outcome cannot be written to the log, or if the host is out of
reach. -/
theorem Session.endsBy_script_iff {s : Session} {source : Text} :
    s.EndsBy (.script source) ↔ match (s.run source).1 with
      | .success v => (s.run source).2.display v = none
      | .failure fault => ∃ e, report fault.message fault.span? source = .error e
      | .disconnected _ => True
      | .endless => False := by
  constructor
  · intro h
    cases h with
    | disconnected hr =>
      rw [hr]
      trivial
    | nested hr hdescends hlength hnodup =>
      rw [hr]
      refine Value.display_eq_none_iff.mpr ⟨_, hdescends, ?_, hnodup⟩
      rw [run_setup]
      exact hlength
    | surrogate hr hsurrogate =>
      rw [hr]
      exact (report_run_isError_iff hr).mpr ⟨⟨_, _, rfl⟩, hsurrogate⟩
  · intro h
    cases hr : (s.run source).1 with
    | success v =>
      rw [hr] at h
      obtain ⟨path, hdescends, hlength, hnodup⟩ := Value.display_eq_none_iff.mp h
      rw [run_setup] at hlength
      exact .nested hr hdescends hlength hnodup
    | failure fault =>
      rw [hr] at h
      obtain ⟨⟨cause, span, rfl⟩, hsurrogate⟩ := (report_run_isError_iff hr).mp h
      exact .surrogate hr hsurrogate
    | disconnected cause => exact .disconnected hr
    | endless =>
      rw [hr] at h
      exact h.elim

namespace Worker

/-! ## One step -/

/-- The jobs that something puts into the queue. -/
def added (w : Worker) : Action → List Job
  | .submit source => if w.closed || w.hasEnded then [] else [.script source]
  | .close => if w.closed then [] else [.stop]
  | _ => []

/-- The jobs that come into the queue of a worker while things happen to it. -/
def accepted (w : Worker) : List Action → List Job
  | [] => []
  | a :: rest => w.added a ++ (w.act a).accepted rest

/-- Running a script ends the worker, or leaves it hanging, or the worker goes on behind an entry in
the log. -/
theorem runScript_cases (w : Worker) (s : Session) (source : Text) :
    (s.EndsBy (.script source) ∧ (w.runScript s source).hasEnded = true) ∨
      (¬ s.EndsBy (.script source) ∧ ∃ t, (w.runScript s source).phase = .hung t) ∨
      (¬ s.EndsBy (.script source) ∧ ∃ level message,
        (w.runScript s source).phase = .running ((s.run source).2.log level message) ∧
        (w.runScript s source).queue = w.queue) := by
  have hends : s.EndsBy (.script source) ↔ _ := Session.endsBy_script_iff
  unfold runScript
  rcases hr : s.run source with ⟨result, t⟩
  rw [hr] at hends
  cases result with
  | success v =>
    cases hd : t.display v with
    | none => exact .inl ⟨hends.mpr hd, by simp only [hd]; rfl⟩
    | some shown =>
      have hgoes : ¬ s.EndsBy (.script source) := fun h => by simpa [hd] using hends.mp h
      exact .inr (.inr ⟨hgoes, _, _, by simp only [hd]; rfl, by simp only [hd]⟩)
  | failure fault =>
    cases he : report fault.message fault.span? source with
    | error e => exact .inl ⟨hends.mpr ⟨e, he⟩, by simp only [he]; rfl⟩
    | ok t =>
      have hgoes : ¬ s.EndsBy (.script source) := fun h => by simpa [he] using hends.mp h
      exact .inr (.inr ⟨hgoes, _, _, by simp only [he]; rfl, by simp only [he]⟩)
  | disconnected cause => exact .inl ⟨hends.mpr trivial, rfl⟩
  | endless => exact .inr (.inl ⟨hends.mp, t, rfl⟩)

theorem advance_script {w : Worker} {s : Session} {source : Text} {rest : List Job}
    (hw : w.phase = .running s) (hq : w.queue = .script source :: rest) :
    w.advance = { w with queue := rest }.runScript s source := by
  simp only [advance, hw, hq]

theorem advance_stop {w : Worker} {s : Session} {rest : List Job} (hw : w.phase = .running s)
    (hq : w.queue = .stop :: rest) : w.advance = { w with queue := rest }.finish s := by
  simp only [advance, hw, hq]

theorem runScript_of_display_eq_none {w : Worker} {s t : Session} {source : Text} {v : Value}
    (hr : s.run source = (.success v, t)) (hd : t.display v = none) :
    w.runScript s source = w.finish t := by
  simp only [runScript, hr, hd]

theorem hasEnded_advance {w : Worker} {s : Session} {job : Job} {rest : List Job}
    (hw : w.phase = .running s) (hq : w.queue = job :: rest) (hends : s.EndsBy job) :
    w.advance.hasEnded = true := by
  cases job with
  | stop =>
    rw [advance_stop hw hq]
    rfl
  | script source =>
    rw [advance_script hw hq]
    rcases runScript_cases { w with queue := rest } s source with ⟨-, h⟩ | ⟨h, -⟩ | ⟨h, -⟩
    · exact h
    · exact absurd hends h
    · exact absurd hends h

/-- What happens to a worker that runs: it takes a job by which it ends, or one on which it hangs,
or it goes on. Then the jobs that it has taken and those that are left are the ones that were in the
queue or have come in. -/
theorem act_running {w : Worker} {s : Session} (hw : w.phase = .running s) (a : Action) :
    (a = .advance ∧ ∃ job rest, w.queue = job :: rest ∧ s.EndsBy job) ∨
      (∃ t, (w.act a).phase = .hung t) ∨
      ∃ t scripts, (w.act a).phase = .running t ∧ s.Carries scripts t ∧
        w.queue ++ w.added a = scripts.map .script ++ (w.act a).queue := by
  cases a with
  | submit source =>
    refine .inr (.inr ⟨s, [], ?_, .refl s, ?_⟩)
    · simp only [act, submit?]
      split <;> simp [hw]
    · simp only [act, submit?, added]
      split <;> simp
  | start =>
    refine .inr (.inr ⟨s, [], ?_, .refl s, ?_⟩) <;> simp [act, start?, hw, added]
  | close =>
    refine .inr (.inr ⟨s, [], ?_, .refl s, ?_⟩)
    · simp only [act, close]
      split <;> simp [hw]
    · simp only [act, close, added]
      split <;> simp
  | closeLink =>
    refine .inr (.inr ⟨s.closeLink, [], ?_, .closeLink (.refl _), ?_⟩) <;>
      simp [act, closeLink, hw, added]
  | advance =>
    cases hq : w.queue with
    | nil =>
      have hidle : w.advance = w := by simp only [advance, hw, hq]
      exact .inr (.inr ⟨s, [], by rw [act, hidle, hw], .refl s, by simp [act, hidle, hq, added]⟩)
    | cons job rest =>
      cases job with
      | stop => exact .inl ⟨rfl, _, _, rfl, .stop⟩
      | script source =>
        rcases runScript_cases { w with queue := rest } s source with
          ⟨hends, -⟩ | ⟨-, t, ht⟩ | ⟨-, level, message, hphase, hqueue⟩
        · exact .inl ⟨rfl, _, _, rfl, hends⟩
        · exact .inr (.inl ⟨t, by rw [act, advance_script hw hq, ht]⟩)
        · refine .inr (.inr ⟨_, [source], ?_, .run source level message (.refl _), ?_⟩)
          · rw [act, advance_script hw hq, hphase]
          · rw [act, advance_script hw hq, hqueue]
            simp [added]

/-! ## Any number of steps -/

theorem hasEnded_of_phase {w : Worker} {s : Session}
    (h : w.phase = .running s ∨ w.phase = .hung s) : w.hasEnded = false := by
  rcases h with h | h <;> simp [hasEnded, h]

theorem hasEnded_act {w : Worker} (h : w.hasEnded = true) (a : Action) : (w.act a).hasEnded = true := by
  obtain ⟨s, hs⟩ : ∃ s, w.phase = .ended s := by
    unfold hasEnded at h
    split at h
    · exact ⟨_, ‹_›⟩
    · contradiction
  cases a with
  | submit source => simp [act, submit?, h]
  | start => simpa [act, start?, hs] using h
  | close =>
    simp only [act, close]
    split <;> simp [hasEnded, hs]
  | closeLink => simp [act, closeLink, hasEnded, hs]
  | advance => simp [act, advance, hasEnded, hs]

theorem hung_act {w : Worker} {s : Session} (h : w.phase = .hung s) (a : Action) :
    ∃ t, (w.act a).phase = .hung t := by
  cases a with
  | submit source =>
    refine ⟨s, ?_⟩
    simp only [act, submit?]
    split <;> simp [h]
  | start => exact ⟨s, by simp [act, start?, h]⟩
  | close =>
    refine ⟨s, ?_⟩
    simp only [act, close]
    split <;> simp [h]
  | closeLink => exact ⟨s.closeLink, by simp [act, closeLink, h]⟩
  | advance => exact ⟨s, by simp [act, advance, h]⟩

theorem hasEnded_perform {w : Worker} (h : w.hasEnded = true) (actions : List Action) :
    (w.perform actions).hasEnded = true := by
  induction actions generalizing w with
  | nil => exact h
  | cons a rest ih => exact ih (hasEnded_act h a)

theorem hung_perform {w : Worker} {s : Session} (h : w.phase = .hung s) (actions : List Action) :
    ∃ t, (w.perform actions).phase = .hung t := by
  induction actions generalizing w s with
  | nil => exact ⟨s, h⟩
  | cons a rest ih =>
    obtain ⟨t, ht⟩ := hung_act h a
    exact ih ht

theorem perform_append (w : Worker) (before after : List Action) :
    w.perform (before ++ after) = (w.perform before).perform after := List.foldl_append

/-- A worker that has ended has taken a job by which it ends. -/
theorem taken_of_hasEnded {w : Worker} {s : Session} (hw : w.phase = .running s)
    {actions : List Action} (h : (w.perform actions).hasEnded = true) :
    ∃ before after t job rest, actions = before ++ .advance :: after ∧
      (w.perform before).phase = .running t ∧ (w.perform before).queue = job :: rest ∧
      t.EndsBy job := by
  induction actions generalizing w s with
  | nil =>
    rw [perform, List.foldl_nil, hasEnded_of_phase (.inl hw)] at h
    contradiction
  | cons a later ih =>
    rcases act_running hw a with ⟨rfl, job, rest, hq, hends⟩ | ⟨t, ht⟩ | ⟨t, scripts, ht, -, -⟩
    · exact ⟨[], later, s, job, rest, rfl, hw, hq, hends⟩
    · obtain ⟨u, hu⟩ := hung_perform ht later
      have hnot : (w.perform (a :: later)).hasEnded = false := hasEnded_of_phase (.inr hu)
      rw [hnot] at h
      contradiction
    · obtain ⟨before, after, u, job, rest, rfl, hu, hq, hends⟩ := ih ht h
      exact ⟨a :: before, after, u, job, rest, rfl, hu, hq, hends⟩

/-- As long as a worker runs it carries out its jobs in order, and keeps the others. -/
theorem carries_of_running {w : Worker} {s t : Session} (hw : w.phase = .running s)
    {actions : List Action} (h : (w.perform actions).phase = .running t) :
    ∃ scripts, s.Carries scripts t ∧
      w.queue ++ w.accepted actions = scripts.map .script ++ (w.perform actions).queue := by
  induction actions generalizing w s with
  | nil =>
    obtain rfl : s = t := Phase.running.inj (hw.symm.trans h)
    exact ⟨[], .refl s, by simp [accepted, perform]⟩
  | cons a later ih =>
    rcases act_running hw a with ⟨rfl, job, rest, hq, hends⟩ | ⟨u, hu⟩ |
      ⟨u, first, hu, hfirst, hqueue⟩
    · have hended : (w.perform (.advance :: later)).hasEnded = true :=
        hasEnded_perform (hasEnded_advance hw hq hends) later
      rw [hasEnded_of_phase (.inl h)] at hended
      contradiction
    · obtain ⟨v, hv⟩ := hung_perform hu later
      have hboth : Phase.running t = .hung v := h.symm.trans hv
      contradiction
    · obtain ⟨second, hsecond, hlater⟩ := ih hu h
      refine ⟨first ++ second, hfirst.trans hsecond, ?_⟩
      rw [accepted, ← List.append_assoc, hqueue, List.append_assoc, hlater, List.map_append,
        List.append_assoc]
      rfl

theorem close_mem_of_stop_mem {w : Worker} {actions : List Action}
    (h : .stop ∈ w.accepted actions) : .close ∈ actions := by
  induction actions generalizing w with
  | nil => simp [accepted] at h
  | cons a later ih =>
    rcases List.mem_append.mp h with h | h
    · cases a with
      | close => exact List.mem_cons_self
      | submit source =>
        simp only [added] at h
        split at h <;> simp at h
      | _ => simp [added] at h
    · exact List.mem_cons_of_mem a (ih h)

/-- A worker that runs and to which nothing was submitted. -/
def idle : Worker :=
  ⟨Session.quiet, .bare, [], false, .running (Session.fresh Session.quiet .bare)⟩

theorem compile_null : compile 1500 "null" =
    .ok [.expression (.literal .null ⟨0, 4, 1⟩) ⟨0, 4, 1⟩] := by
  cbv

/-- A worker takes a script that is a literal, and goes on. -/
theorem advance_null {w : Worker} {s : Session} {rest : List Job} (hw : w.phase = .running s)
    (hd : s.setup.depth = 1500) (hq : w.queue = .script "null" :: rest) :
    ∃ t, w.advance.phase = .running t ∧ t.setup.depth = 1500 ∧ w.advance.queue = rest := by
  have hcompile : compile s.setup.depth "null" = _ := hd.symm ▸ compile_null
  have hprogram : (Run.program (s.announced "null").setup (s.announced "null").root .null
      [.expression (.literal .null ⟨0, 4, 1⟩) ⟨0, 4, 1⟩]).run (s.announced "null").world =
        (.ok .null, (s.announced "null").world) := by
    have hdepth : (s.announced "null").setup.depth = 1499 + 1 := hd
    rw [Run.program, hdepth]
    rfl
  have hrun : s.run "null" = (.success .null, s.announced "null") := by
    rw [Session.run_of_compile_ok hcompile, Session.runStatements_of_run rfl hprogram]
    rfl
  obtain ⟨shown, hshown⟩ : ∃ shown, (s.announced "null").display .null = some shown :=
    Option.ne_none_iff_exists'.mp (Value.displayIn_ne_none rfl _ _)
  simp only [advance_script hw hq, runScript, hrun, hshown]
  exact ⟨_, rfl, hd, trivial⟩

/-- Two scripts are submitted, the worker is closed, and takes both scripts. -/
def drain : List Action := [.submit "null", .submit "null", .close, .advance, .advance]

theorem perform_drain : ∃ t, (idle.perform drain).phase = .running t ∧
    (idle.perform drain).queue = [.stop] := by
  let closed := idle.perform [.submit "null", .submit "null", .close]
  have hjobs : closed.queue = .script "null" :: [.script "null", .stop] := rfl
  obtain ⟨t, ht, hdepth, hqueue⟩ := advance_null (w := closed) rfl rfl hjobs
  obtain ⟨u, hu, -, hrest⟩ := advance_null ht hdepth hqueue
  exact ⟨u, hu, hrest⟩

end Worker

end HostScript
