import HostScript.Proofs.Session.Ending

/-!
# Interleavings

The owner of a worker and the worker itself are two threads. A call of the owner takes more than one
step: a submission is checked first and put into the queue later, and closing is noticed, then noted,
then passed on. The worker takes a job in one step and is done with it in another one. `Step` lists
what either of them can do next and `Run` puts their steps into one order. `run_in_order` is about
every order.
-/

namespace HostScript

/-- The script of a job. -/
def Job.source? : Job → Option Text
  | .script source => some source
  | .stop => none

theorem Job.filterMap_source?_map (scripts : List Text) :
    (scripts.map Job.script).filterMap Job.source? = scripts := by
  rw [List.filterMap_map]
  exact List.filterMap_some

/-! ## The scripts that a session has executed -/

namespace Session

/-- One session has become another by running scripts in order. Entries may be written to the log in
between, and the link to the host may be closed. -/
inductive Executes (s : Session) : List Text → Session → Prop
  | refl : Executes s [] s
  | run {t : Session} {scripts : List Text} (source : Text) :
      Executes s scripts t → Executes s (scripts ++ [source]) (t.run source).2
  | log {t : Session} {scripts : List Text} (level : LogLevel) (message : Text) :
      Executes s scripts t → Executes s scripts (t.log level message)
  | closeLink {t : Session} {scripts : List Text} :
      Executes s scripts t → Executes s scripts t.closeLink

theorem Executes.trans {s t u : Session} {first second : List Text} (h : s.Executes first t)
    (h' : t.Executes second u) : s.Executes (first ++ second) u := by
  induction h' with
  | refl => rwa [List.append_nil]
  | run source _ ih =>
    rw [← List.append_assoc]
    exact .run source ih
  | log level message _ ih => exact .log level message ih
  | closeLink _ ih => exact .closeLink ih

/-- Surroundings in which the link to the host is closed. -/
def Surroundings.unlinked (around : Surroundings) : Surroundings :=
  { around with link := around.link.map ({ · with isOpen := false }) }

theorem Surroundings.unlinked_unlinked (around : Surroundings) :
    around.unlinked.unlinked = around.unlinked := by
  cases h : around.link <;> simp [unlinked, h]

/-- The session of a worker that comes to its first script. -/
def launched (config : Config) (around : Surroundings) : Session :=
  (((fresh config around).log .info "runtime thread started").prepare config around.files).2

end Session

namespace Worker

/-- The session that a worker has come to, unless it has none yet or hangs. -/
def session? (w : Worker) : Option Session :=
  match w.phase with
  | .running s => some s
  | .ended s => some s
  | _ => none

/-- Whether something is on which the worker hangs. -/
def isHung (w : Worker) : Bool :=
  match w.phase with
  | .hung _ => true
  | _ => false

/-! ## What a task makes of a worker -/

/-- A worker has done a task that began in a session and ran some scripts: its queue is as it was,
and it is closed if it has come to its end. -/
structure Does (w : Worker) (s : Session) (scripts : List Text) (w' : Worker) : Prop where
  queue : w'.queue = w.queue
  closed : w'.closed = (w.closed || w'.hasEnded)
  started : w'.phase ≠ .unstarted
  session : ∀ t, w'.session? = some t → s.Executes scripts t

variable {w : Worker} {s t : Session} {scripts : List Text}

theorem Does.finish (h : s.Executes scripts t) : w.Does s scripts (w.finish t) where
  queue := rfl
  closed := (Bool.or_true _).symm
  started := Phase.noConfusion
  session _ ht := Option.some.inj ht ▸ h.log .info "runtime thread stopped"

theorem Does.running (h : s.Executes scripts t) :
    w.Does s scripts { w with phase := .running t } where
  queue := rfl
  closed := (Bool.or_false _).symm
  started := Phase.noConfusion
  session _ ht := Option.some.inj ht ▸ h

theorem Does.hung : w.Does s scripts { w with phase := .hung t } where
  queue := rfl
  closed := (Bool.or_false _).symm
  started := Phase.noConfusion
  session _ ht := nomatch ht

theorem does_runScript (w : Worker) (s : Session) (source : Text) :
    w.Does s [source] (w.runScript s source) := by
  have hrun : s.Executes [source] (s.run source).2 := .run source .refl
  unfold runScript
  rcases hr : s.run source with ⟨result, t⟩
  rw [hr] at hrun
  cases result with
  | success v =>
    cases hd : t.display v with
    | none => simpa only [hd] using .finish hrun
    | some shown => simpa only [hd] using .running (hrun.log _ _)
  | failure fault =>
    cases he : report fault.message fault.span? source with
    | error e => simpa only [he] using .finish hrun
    | ok shown => simpa only [he] using .running (hrun.log _ _)
  | disconnected cause => exact .finish (hrun.log _ _)
  | endless => exact .hung

theorem does_start? {w' : Worker} (h : w.start? = some w') :
    w.phase = .unstarted ∧ w.Does (Session.launched w.config w.around) [] w' := by
  have hrefl := Session.Executes.refl (s := Session.launched w.config w.around)
  unfold start? at h
  unfold Session.launched at hrefl ⊢
  cases hw : w.phase with
  | unstarted =>
    simp only [hw] at h
    refine ⟨rfl, ?_⟩
    split at h <;> rename_i hp <;> obtain rfl := Option.some.inj h <;> rw [hp] at hrefl ⊢
    · exact .running hrefl
    · exact .finish (hrefl.log _ _)
    · exact .finish hrefl
    · exact .hung
  | running s => simp [hw] at h
  | hung s => simp [hw] at h
  | ended s => simp [hw] at h

/-! ## The two threads -/

/-- What is left to do of a call of the owner: note that nothing more is accepted, or put a job into
the queue. -/
inductive Call
  | closing
  | putting (job : Job)

/-- What a worker is at: it prepares its session, or carries out a job. -/
inductive Task
  | starting
  | job (j : Job)

/-- A worker and its owner, each with what it is in the middle of. -/
structure Threads where
  worker : Worker
  call : Option Call
  task : Option Task

/-- What one of the threads can do next. The owner submits a script, which is accepted or refused,
or closes or starts the worker; `proceed` is the next step of a call in progress. The worker takes a
job, and is done with a task. The link to the host can be closed while the worker waits. -/
inductive Move
  | submit (source : Text)
  | refuse (source : Text)
  | close
  | proceed
  | start
  | closeLink
  | take (job : Job)
  | finish (task : Task)

namespace Threads

/-- A worker at which neither thread is in the middle of anything. -/
def idle (w : Worker) : Threads := ⟨w, none, none⟩

/-- One step of one thread. A script that does not end is never done with. -/
inductive Step : Threads → Move → Threads → Prop
  | submit {s : Threads} {source : Text} :
      s.call = none → (s.worker.submit? source).isSome →
      Step s (.submit source) { s with call := some (.putting (.script source)) }
  | refuse {s : Threads} {source : Text} :
      s.call = none → s.worker.submit? source = none → Step s (.refuse source) s
  | close {s : Threads} :
      s.call = none → s.worker.closed = false → Step s .close { s with call := some .closing }
  | closeAgain {s : Threads} :
      s.call = none → s.worker.closed = true → Step s .close s
  | note {s : Threads} :
      s.call = some .closing →
      Step s .proceed
        { s with worker := { s.worker with closed := true }, call := some (.putting .stop) }
  | put {s : Threads} {job : Job} :
      s.call = some (.putting job) →
      Step s .proceed
        { s with worker := { s.worker with queue := s.worker.queue ++ [job] }, call := none }
  | start {s : Threads} :
      s.call = none → s.task = none → s.worker.phase = .unstarted →
      Step s .start { s with task := some .starting }
  | closeLink {s : Threads} :
      s.task = none → Step s .closeLink { s with worker := s.worker.closeLink }
  | take {s : Threads} {session : Session} {job : Job} {rest : List Job} :
      s.task = none → s.worker.phase = .running session → s.worker.queue = job :: rest →
      Step s (.take job)
        { s with worker := { s.worker with queue := rest }, task := some (.job job) }
  | prepared {s : Threads} {w : Worker} :
      s.task = some .starting → s.worker.start? = some w → w.isHung = false →
      Step s (.finish .starting) { s with worker := w, task := none }
  | stopped {s : Threads} {session : Session} :
      s.task = some (.job .stop) → s.worker.phase = .running session →
      Step s (.finish (.job .stop)) { s with worker := s.worker.finish session, task := none }
  | executed {s : Threads} {session : Session} {source : Text} :
      s.task = some (.job (.script source)) → s.worker.phase = .running session →
      (s.worker.runScript session source).isHung = false →
      Step s (.finish (.job (.script source)))
        { s with worker := s.worker.runScript session source, task := none }

/-- The steps of both threads, in the order in which they were taken. -/
inductive Run (s : Threads) : List Move → Threads → Prop
  | nil : Run s [] s
  | snoc {t u : Threads} {moves : List Move} {m : Move} :
      Run s moves t → Step t m u → Run s (moves ++ [m]) u

/-! ## What the steps show -/

/-- The scripts that were accepted. -/
def submitted (moves : List Move) : List Text :=
  moves.filterMap fun | .submit source => some source | _ => none

/-- The jobs that were taken out of the queue. -/
def taken (moves : List Move) : List Job :=
  moves.filterMap fun | .take job => some job | _ => none

/-- The jobs that were carried out to the end. -/
def finished (moves : List Move) : List Job :=
  moves.filterMap fun | .finish (.job job) => some job | _ => none

/-- The scripts that were begun. -/
def begun (moves : List Move) : List Text := (taken moves).filterMap Job.source?

/-- The scripts that were executed to the end. -/
def completed (moves : List Move) : List Text := (finished moves).filterMap Job.source?

/-- The job that a call of the owner will put into the queue. -/
def underway (s : Threads) : List Job :=
  match s.call with
  | none => []
  | some .closing => [.stop]
  | some (.putting job) => [job]

/-- The job that the worker is at. -/
def current (s : Threads) : List Job :=
  match s.task with
  | some (.job job) => [job]
  | _ => []

theorem current_cases (s : Threads) : s.current = [] ∨ ∃ job, s.current = [job] := by
  unfold current
  split
  · exact .inr ⟨_, rfl⟩
  · exact .inl rfl

/-- Whether the owner has closed the worker or is about to, or the worker has closed itself. -/
def IsClosing (s : Threads) : Prop := s.worker.closed = true ∨ s.call = some .closing

/-! ## What every step preserves -/

/-- How the queue comes from the steps that were taken. -/
structure Ordered (moves : List Move) (s : Threads) : Prop where
  /-- What was taken, what is in the queue and what will be put there are the scripts that were
  accepted, in this order, with the mark behind them if the owner has closed the worker. -/
  jobs : ∃ marks, (marks = [] ∨ marks = [.stop] ∧ s.IsClosing) ∧
    taken moves ++ (s.worker.queue ++ s.underway) = (submitted moves).map .script ++ marks
  closing : .close ∈ moves → s.IsClosing
  ended : s.worker.hasEnded = true → s.worker.closed = true

/-- How the state of the worker comes from the steps that were taken. -/
structure Ongoing (config : Config) (around : Session.Surroundings) (moves : List Move)
    (s : Threads) : Prop where
  task : taken moves = finished moves ++ s.current
  starting : s.task = some .starting → s.worker.phase = .unstarted
  working (job : Job) : s.task = some (.job job) → ∃ t, s.worker.phase = .running t
  unstarted : s.worker.phase = .unstarted → finished moves = [] ∧ s.worker.config = config ∧
    (s.worker.around = around ∨ s.worker.around = around.unlinked)
  session (t : Session) : s.worker.session? = some t → ∃ a, (a = around ∨ a = around.unlinked) ∧
    (Session.launched config a).Executes (completed moves) t

variable {config : Config} {around : Session.Surroundings} {moves : List Move} {m : Move}
  {s t : Threads}

theorem submitted_snoc (moves : List Move) (m : Move) :
    submitted (moves ++ [m]) = submitted moves ++ submitted [m] := List.filterMap_append

theorem taken_snoc (moves : List Move) (m : Move) :
    taken (moves ++ [m]) = taken moves ++ taken [m] := List.filterMap_append

theorem finished_snoc (moves : List Move) (m : Move) :
    finished (moves ++ [m]) = finished moves ++ finished [m] := List.filterMap_append

theorem completed_snoc (moves : List Move) (m : Move) :
    completed (moves ++ [m]) = completed moves ++ completed [m] := by
  simp only [completed, finished_snoc, List.filterMap_append]

theorem completed_snoc_of_eq_nil {moves : List Move} {m : Move} (h : finished [m] = []) :
    completed (moves ++ [m]) = completed moves := by
  simp only [completed, finished_snoc, h, List.append_nil]

theorem submit?_isSome_iff {w : Worker} {source : Text} :
    (w.submit? source).isSome ↔ w.closed = false ∧ w.hasEnded = false := by
  unfold submit?
  cases w.closed <;> cases w.hasEnded <;> simp

theorem submit?_eq_none_iff {w : Worker} {source : Text} :
    w.submit? source = none ↔ w.closed = true ∨ w.hasEnded = true := by
  unfold submit?
  cases w.closed <;> cases w.hasEnded <;> simp

theorem Ordered.new (config : Config) (around : Session.Surroundings) :
    Ordered [] (idle (.new config around)) where
  jobs := ⟨[], .inl rfl, rfl⟩
  closing h := absurd h List.not_mem_nil
  ended h := nomatch h

theorem Ongoing.new (config : Config) (around : Session.Surroundings) :
    Ongoing config around [] (idle (.new config around)) where
  task := rfl
  starting h := nomatch h
  working _ h := nomatch h
  unstarted _ := ⟨rfl, rfl, .inl rfl⟩
  session _ h := nomatch h

/-- A step that neither submits nor closes nor changes the queue keeps it in order, if nothing that
was closed is open again. -/
theorem Ordered.of_eq (h : Ordered moves s) (hsubmit : submitted [m] = []) (hclose : m ≠ .close)
    (hqueue : taken [m] ++ (t.worker.queue ++ t.underway) = s.worker.queue ++ s.underway)
    (hclosing : s.IsClosing → t.IsClosing)
    (hended : t.worker.hasEnded = true → t.worker.closed = true) : Ordered (moves ++ [m]) t where
  jobs := by
    obtain ⟨marks, hmarks, hjobs⟩ := h.jobs
    refine ⟨marks, hmarks.imp_right fun ⟨hm, hc⟩ => ⟨hm, hclosing hc⟩, ?_⟩
    rw [taken_snoc, submitted_snoc, hsubmit, List.append_nil, List.append_assoc, hqueue, hjobs]
  closing hmem := by
    rcases List.mem_append.mp hmem with hmem | hmem
    · exact hclosing (h.closing hmem)
    · exact absurd (List.mem_singleton.mp hmem).symm hclose
  ended := hended

theorem phase_closeLink_eq_unstarted_iff {w : Worker} :
    w.closeLink.phase = .unstarted ↔ w.phase = .unstarted := by
  cases hw : w.phase <;> simp [closeLink, hw]

theorem session?_closeLink (w : Worker) :
    w.closeLink.session? = w.session?.map Session.closeLink := by
  cases hw : w.phase <;> simp [closeLink, session?, hw]

@[simp] theorem closeLink_queue (w : Worker) : w.closeLink.queue = w.queue := by
  unfold closeLink
  split <;> rfl

@[simp] theorem closeLink_closed (w : Worker) : w.closeLink.closed = w.closed := by
  unfold closeLink
  split <;> rfl

@[simp] theorem hasEnded_closeLink (w : Worker) : w.closeLink.hasEnded = w.hasEnded := by
  cases hw : w.phase <;> simp [closeLink, hasEnded, hw]

/-- As long as the worker is open the mark has not been put into the queue. -/
theorem Ordered.jobs_of_open (h : Ordered moves s) (hcall : s.call = none)
    (hopen : s.worker.closed = false) :
    taken moves ++ s.worker.queue = (submitted moves).map .script := by
  obtain ⟨marks, rfl | ⟨-, hc⟩, hjobs⟩ := h.jobs
  · simpa [underway, hcall] using hjobs
  · simp [IsClosing, hcall, hopen] at hc

/-- What a task leaves of a worker keeps the queue in order. -/
theorem Ordered.of_does {w : Worker} {session : Session} {scripts : List Text} {task : Task}
    (h : Ordered moves s) (hdoes : s.worker.Does session scripts w) :
    Ordered (moves ++ [.finish task]) { s with worker := w, task := none } := by
  refine h.of_eq rfl Move.noConfusion ?_ ?_ fun he => ?_
  · simp only [underway, hdoes.queue]
    rfl
  · rintro (hc | hc)
    · exact .inl (by rw [hdoes.closed, hc, Bool.true_or])
    · exact .inr hc
  · rw [hdoes.closed]
    exact Bool.or_eq_true_iff.mpr (.inr he)

theorem Ordered.step (h : Ordered moves s) (hs : Step s m t) : Ordered (moves ++ [m]) t := by
  cases hs with
  | submit hcall haccepted =>
    rename_i source
    obtain ⟨hopen, -⟩ := submit?_isSome_iff.mp haccepted
    have hjobs := h.jobs_of_open hcall hopen
    refine ⟨⟨[], .inl rfl, ?_⟩, fun hmem => ?_, h.ended⟩
    · have hmore : submitted (moves ++ [.submit source]) = submitted moves ++ [source] :=
        submitted_snoc moves _
      rw [taken_snoc, hmore, List.map_append, ← hjobs]
      simp [taken, underway]
    · have hclosing := h.closing (by simpa using hmem)
      simp [IsClosing, hcall, hopen] at hclosing
  | refuse hcall hnone => exact h.of_eq rfl Move.noConfusion rfl id h.ended
  | close hcall hopen =>
    refine ⟨⟨[.stop], .inr ⟨rfl, .inr rfl⟩, ?_⟩, fun _ => .inr rfl, h.ended⟩
    rw [taken_snoc, submitted_snoc, List.map_append, ← h.jobs_of_open hcall hopen]
    simp [taken, submitted, underway]
  | closeAgain hcall hclosed =>
    obtain ⟨marks, hmarks, hjobs⟩ := h.jobs
    refine ⟨⟨marks, hmarks, ?_⟩, fun _ => .inl hclosed, h.ended⟩
    rw [taken_snoc, submitted_snoc]
    simpa [taken, submitted] using hjobs
  | note hcall =>
    refine h.of_eq rfl Move.noConfusion ?_ (fun _ => .inl rfl) fun _ => rfl
    simp [taken, underway, hcall]
  | put hcall =>
    refine h.of_eq rfl Move.noConfusion ?_ ?_ h.ended
    · simp [taken, underway, hcall]
    · rintro (hc | hc)
      · exact .inl hc
      · simp [hcall] at hc
  | start hcall htask hphase => exact h.of_eq rfl Move.noConfusion rfl id h.ended
  | closeLink htask =>
    refine h.of_eq rfl Move.noConfusion ?_ ?_ ?_
    · simp [taken, underway]
    · simp [IsClosing]
    · simpa using h.ended
  | take htask hphase hqueue =>
    refine h.of_eq rfl Move.noConfusion ?_ id h.ended
    simp [taken, underway, hqueue]
  | prepared htask hstart hgoes => exact h.of_does (does_start? hstart).2
  | stopped htask hphase => exact h.of_does (.finish .refl)
  | executed htask hphase hgoes => exact h.of_does (does_runScript _ _ _)

theorem Ongoing.task_snoc (h : Ongoing config around moves s)
    (hcurrent : s.current ++ taken [m] = finished [m] ++ t.current) :
    taken (moves ++ [m]) = finished (moves ++ [m]) ++ t.current := by
  rw [taken_snoc, finished_snoc, h.task, List.append_assoc, hcurrent, List.append_assoc]

/-- A step that leaves the worker where it is in its task and its session changes nothing about
them. -/
theorem Ongoing.of_eq (h : Ongoing config around moves s) (htaken : taken [m] = [])
    (hfinished : finished [m] = []) (htask : t.task = s.task)
    (hphase : t.worker.phase = s.worker.phase) (hconfig : t.worker.config = s.worker.config)
    (haround : t.worker.around = s.worker.around) : Ongoing config around (moves ++ [m]) t where
  task := by
    have hcurrent : t.current = s.current := by rw [current, htask, current]
    exact h.task_snoc (by rw [htaken, hfinished, hcurrent, List.append_nil, List.nil_append])
  starting := by
    rw [htask, hphase]
    exact h.starting
  working job := by
    rw [htask, hphase]
    exact h.working job
  unstarted := by
    rw [hphase, hconfig, haround, finished_snoc, hfinished, List.append_nil]
    exact h.unstarted
  session u := by
    rw [session?, hphase, ← session?, completed_snoc_of_eq_nil hfinished]
    exact h.session u

/-- The worker is done with a job. -/
theorem Ongoing.of_job {w : Worker} {session : Session} {job : Job} {scripts : List Text}
    (h : Ongoing config around moves s) (htask : s.task = some (.job job))
    (hphase : s.worker.phase = .running session) (hscripts : job.source?.toList = scripts)
    (hdoes : s.worker.Does session scripts w) :
    Ongoing config around (moves ++ [.finish (.job job)]) { s with worker := w, task := none } where
  task := h.task_snoc (by simp [taken, finished, current, htask])
  starting h := nomatch h
  working _ h := nomatch h
  unstarted hw := absurd hw hdoes.started
  session u hu := by
    obtain ⟨a, ha, hexecutes⟩ := h.session session (by rw [session?, hphase])
    have hcompleted : completed [.finish (.job job)] = scripts := by
      rw [← hscripts]
      cases job <;> rfl
    rw [completed_snoc, hcompleted]
    exact ⟨a, ha, hexecutes.trans (hdoes.session u hu)⟩

theorem Ongoing.step (h : Ongoing config around moves s) (hs : Step s m t) :
    Ongoing config around (moves ++ [m]) t := by
  cases hs with
  | submit hcall haccepted => exact h.of_eq rfl rfl rfl rfl rfl rfl
  | refuse hcall hnone => exact h.of_eq rfl rfl rfl rfl rfl rfl
  | close hcall hopen => exact h.of_eq rfl rfl rfl rfl rfl rfl
  | closeAgain hcall hclosed => exact h.of_eq rfl rfl rfl rfl rfl rfl
  | note hcall => exact h.of_eq rfl rfl rfl rfl rfl rfl
  | put hcall => exact h.of_eq rfl rfl rfl rfl rfl rfl
  | start hcall htask hphase =>
    refine ⟨?_, fun _ => hphase, ?_, fun hw => ?_, fun u hu => ?_⟩
    · exact h.task_snoc (by simp [taken, finished, current, htask])
    · intro _ h
      cases h
    · simpa [finished_snoc, finished] using h.unstarted hw
    · simp [session?, hphase] at hu
  | closeLink htask =>
    refine ⟨?_, ?_, ?_, fun hw => ?_, fun u hu => ?_⟩
    · exact h.task_snoc (by simp [taken, finished, current, htask])
    · simp [htask]
    · simp [htask]
    · have hw : s.worker.phase = .unstarted := phase_closeLink_eq_unstarted_iff.mp hw
      obtain ⟨hfinished, hconfig, haround⟩ := h.unstarted hw
      refine ⟨?_, ?_, .inr ?_⟩
      · rw [finished_snoc, hfinished]
        rfl
      · simpa [closeLink, hw] using hconfig
      · simp only [closeLink, hw]
        rcases haround with haround | haround <;> rw [haround]
        · rfl
        · exact around.unlinked_unlinked
    · rw [session?_closeLink, Option.map_eq_some_iff] at hu
      obtain ⟨v, hv, rfl⟩ := hu
      obtain ⟨a, ha, hexecutes⟩ := h.session v hv
      exact ⟨a, ha, .closeLink (by rwa [completed_snoc_of_eq_nil rfl])⟩
  | take htask hphase hqueue =>
    rename_i session job rest
    refine ⟨?_, ?_, fun _ _ => ⟨session, hphase⟩, fun hw => ?_, fun u hu => ?_⟩
    · exact h.task_snoc (by simp [taken, finished, current, htask])
    · intro h
      cases h
    · simp [hphase] at hw
    · obtain ⟨a, ha, hexecutes⟩ := h.session u hu
      exact ⟨a, ha, by rwa [completed_snoc_of_eq_nil rfl]⟩
  | prepared htask hstart hgoes =>
    obtain ⟨hphase, hdoes⟩ := does_start? hstart
    obtain ⟨hfinished, hconfig, haround⟩ := h.unstarted hphase
    refine ⟨?_, ?_, ?_, fun hw => absurd hw hdoes.started,
      fun u hu => ⟨s.worker.around, haround, ?_⟩⟩
    · exact h.task_snoc (by simp [taken, finished, current, htask])
    · intro h
      cases h
    · intro _ h
      cases h
    · have hcompleted : completed (moves ++ [.finish .starting]) = [] := by
        rw [completed_snoc, completed, hfinished]
        rfl
      rw [hcompleted, ← hconfig]
      exact hdoes.session u hu
  | stopped htask hphase => exact h.of_job htask hphase rfl (.finish .refl)
  | executed htask hphase hgoes => exact h.of_job htask hphase rfl (does_runScript _ _ _)

/-! ## Whole runs -/

theorem Run.trans {u : Threads} {first second : List Move} (h : Run s first t)
    (h' : Run t second u) : Run s (first ++ second) u := by
  induction h' with
  | nil => rwa [List.append_nil]
  | snoc _ hs ih =>
    rw [← List.append_assoc]
    exact .snoc ih hs

theorem Run.sound (h : Run (idle (.new config around)) moves s) :
    Ordered moves s ∧ Ongoing config around moves s := by
  induction h with
  | nil => exact ⟨.new config around, .new config around⟩
  | snoc _ hs ih => exact ⟨ih.1.step hs, ih.2.step hs⟩

/-- Every step of a run is taken in a state to which the steps before it lead. -/
theorem Run.split {before after : List Move} (h : Run s (before ++ m :: after) t) :
    ∃ u v, Run s before u ∧ Step u m v := by
  generalize hmoves : before ++ m :: after = moves at h
  induction h generalizing after with
  | nil => simp at hmoves
  | snoc hrun hs ih =>
    rcases List.eq_nil_or_concat after with rfl | ⟨after, last, rfl⟩
    · obtain ⟨rfl, hlast⟩ := List.append_inj' hmoves rfl
      obtain rfl := List.singleton_inj.mp hlast
      exact ⟨_, _, hrun, hs⟩
    · rw [List.concat_eq_append, ← List.cons_append, ← List.append_assoc] at hmoves
      exact ih (List.append_inj' hmoves rfl).1

/-- A mark that was taken is the last of the jobs. -/
theorem eq_of_stop_mem {jobs rest marks : List Job} {scripts : List Text}
    (h : jobs ++ rest = scripts.map .script ++ marks) (hmarks : marks = [] ∨ marks = [.stop])
    (hstop : .stop ∈ jobs) : jobs = scripts.map .script ++ [.stop] := by
  have hnot : Job.stop ∉ scripts.map Job.script := by simp
  rcases List.append_eq_append_iff.mp h with ⟨more, hscripts, -⟩ | ⟨more, rfl, hmore⟩
  · exact absurd (hscripts ▸ List.mem_append_left more hstop) hnot
  · have hmem : Job.stop ∈ more := (List.mem_append.mp hstop).resolve_left hnot
    rcases hmarks with rfl | rfl
    · exact absurd (hmore ▸ List.mem_append_left rest hmem) List.not_mem_nil
    · rcases List.append_eq_singleton_iff.mp hmore.symm with ⟨rfl, -⟩ | ⟨rfl, -⟩
      · exact absurd hmem List.not_mem_nil
      · rfl

theorem Ordered.submitted_eq (h : Ordered moves s) :
    submitted moves = begun moves ++ (s.worker.queue ++ s.underway).filterMap Job.source? := by
  obtain ⟨marks, hmarks, hjobs⟩ := h.jobs
  have hnone : marks.filterMap Job.source? = [] := by rcases hmarks with rfl | ⟨rfl, -⟩ <;> rfl
  rw [begun, ← List.filterMap_append, hjobs, List.filterMap_append, hnone, List.append_nil,
    Job.filterMap_source?_map]

theorem Ongoing.begun_eq (h : Ongoing config around moves s) :
    begun moves = completed moves ++ s.current.filterMap Job.source? := by
  rw [begun, h.task, List.filterMap_append, completed]

/-- In whatever order an owner and its worker take their steps, the scripts that were begun are the
first of those that were accepted, in the order of submission, and a script is begun when all that
were begun before it have been executed to the end. The session has come to be as it is by running
those in order. A script that is refused changes nothing, and once a call that closes has returned
or the worker has ended every script is refused. If the worker has taken the mark that closing puts
into the queue then it has executed all that was accepted. -/
theorem run_in_order (h : Run (idle (.new config around)) moves s) :
    (completed moves <+: begun moves ∧ begun moves <+: submitted moves) ∧
    (∀ before source after, moves = before ++ .take (.script source) :: after →
      completed before = begun before) ∧
    (∀ t, s.worker.session? = some t → ∃ a, (a = around ∨ a = around.unlinked) ∧
      (Session.launched config a).Executes (completed moves) t) ∧
    (∀ source t, Step s (.refuse source) t → t = s) ∧
    (s.call = none → .close ∈ moves ∨ s.worker.hasEnded = true → ∀ source,
      Step s (.refuse source) s ∧ ∀ t, ¬ Step s (.submit source) t) ∧
    (.take .stop ∈ moves → completed moves = submitted moves) := by
  obtain ⟨hordered, hongoing⟩ := h.sound
  refine ⟨⟨⟨_, hongoing.begun_eq.symm⟩, ⟨_, hordered.submitted_eq.symm⟩⟩, ?_, hongoing.session, ?_,
    ?_, ?_⟩
  · rintro before source after rfl
    obtain ⟨u, v, hu, hs⟩ := h.split
    cases hs with
    | take htask hphase hqueue =>
      rw [hu.sound.2.begun_eq, current, htask]
      exact (List.append_nil _).symm
  · intro source t hs
    cases hs with
    | refuse hcall hnone => rfl
  · intro hcall hclosed source
    have hnot : s.worker.closed = true := by
      rcases hclosed with hclose | hended
      · rcases hordered.closing hclose with hnot | hclosing
        · exact hnot
        · simp [hcall] at hclosing
      · exact hordered.ended hended
    refine ⟨.refuse hcall (submit?_eq_none_iff.mpr (.inl hnot)), fun t hs => ?_⟩
    cases hs with
    | submit hcall haccepted => simp [submit?_isSome_iff, hnot] at haccepted
  · intro hstop
    have hmem : .stop ∈ taken moves := List.mem_filterMap.mpr ⟨_, hstop, rfl⟩
    obtain ⟨marks, hmarks, hjobs⟩ := hordered.jobs
    have htaken := eq_of_stop_mem hjobs (hmarks.imp_right And.left) hmem
    have hrest : s.current = [] ∨ s.current = [.stop] := by
      rw [hongoing.task] at htaken
      rcases s.current_cases with hcurrent | ⟨job, hcurrent⟩
      · exact .inl hcurrent
      · rw [hcurrent] at htaken ⊢
        exact .inr (List.append_inj' htaken rfl).2
    have hnone : s.current.filterMap Job.source? = [] := by
      rcases hrest with h | h <;> rw [h] <;> rfl
    rw [← List.append_nil (completed moves), ← hnone, ← hongoing.begun_eq, begun, htaken,
      List.filterMap_append, Job.filterMap_source?_map]
    exact List.append_nil _

/-! ## Steps of the worker as a whole -/

/-- What can happen to a worker is a run of both threads, unless the worker hangs afterwards. -/
theorem exists_run_act {w : Worker} {a : Action} (h : (w.act a).isHung = false) :
    ∃ moves, Run (idle w) moves (idle (w.act a)) := by
  have hnil := Run.nil (s := idle w)
  cases a with
  | submit source =>
    cases hsubmit : w.submit? source with
    | none => exact ⟨[], by simpa [act, hsubmit] using hnil⟩
    | some w' =>
      obtain rfl : { w with queue := w.queue ++ [.script source] } = w' := by
        unfold submit? at hsubmit
        split at hsubmit
        · contradiction
        · exact Option.some.inj hsubmit
      refine ⟨[.submit source, .proceed], ?_⟩
      rw [act, hsubmit]
      exact (hnil.snoc (.submit rfl (by rw [idle, hsubmit]; rfl))).snoc (.put rfl)
  | start =>
    cases hstart : w.start? with
    | none => exact ⟨[], by simpa [act, hstart] using hnil⟩
    | some w' =>
      rw [act, hstart] at h
      refine ⟨[.start, .finish .starting], ?_⟩
      rw [act, hstart]
      exact (hnil.snoc (.start rfl rfl (does_start? hstart).1)).snoc (.prepared rfl hstart h)
  | close =>
    by_cases hclosed : w.closed = true
    · exact ⟨[], by simpa [act, close, hclosed] using hnil⟩
    · refine ⟨[.close, .proceed, .proceed], ?_⟩
      rw [act, close, if_neg hclosed]
      exact ((hnil.snoc (.close rfl (Bool.eq_false_iff.mpr hclosed))).snoc (.note rfl)).snoc (.put rfl)
  | closeLink => exact ⟨[.closeLink], hnil.snoc (.closeLink rfl)⟩
  | advance =>
    cases hphase : w.phase with
    | running session =>
      cases hqueue : w.queue with
      | nil => exact ⟨[], by simpa [act, advance, hphase, hqueue] using hnil⟩
      | cons job rest =>
        have htake := hnil.snoc (.take rfl hphase hqueue)
        cases job with
        | stop =>
          refine ⟨[.take .stop, .finish (.job .stop)], ?_⟩
          rw [act, advance_stop hphase hqueue]
          exact htake.snoc (.stopped rfl hphase)
        | script source =>
          refine ⟨[.take (.script source), .finish (.job (.script source))], ?_⟩
          rw [act, advance_script hphase hqueue] at h ⊢
          exact htake.snoc (.executed rfl hphase h)
    | unstarted => exact ⟨[], by simpa [act, advance, hphase] using hnil⟩
    | hung session => exact ⟨[], by simpa [act, advance, hphase] using hnil⟩
    | ended session => exact ⟨[], by simpa [act, advance, hphase] using hnil⟩

/-- Whatever happens to a worker without leaving it hanging is a run of both threads. -/
theorem exists_run_perform {w : Worker} {actions : List Action}
    (h : (w.perform actions).isHung = false) :
    ∃ moves, Run (idle w) moves (idle (w.perform actions)) := by
  induction actions generalizing w with
  | nil => exact ⟨[], .nil⟩
  | cons a rest ih =>
    have hgoes : (w.act a).isHung = false := by
      cases hphase : (w.act a).phase with
      | hung s =>
        obtain ⟨t, ht⟩ := hung_perform hphase rest
        have hhung : (w.perform (a :: rest)).phase = .hung t := ht
        simp [isHung, hhung] at h
      | _ => simp [isHung, hphase]
    obtain ⟨first, hfirst⟩ := exists_run_act hgoes
    obtain ⟨second, hsecond⟩ := ih h
    exact ⟨_, hfirst.trans hsecond⟩

/-! ## A run -/

/-- A worker is closed while it runs a script. -/
def closedWhileRunning : List Move :=
  [.submit "true", .proceed, .start, .finish .starting, .take (.script "true"), .close,
    .finish (.job (.script "true")), .proceed, .proceed, .take .stop, .finish (.job .stop)]

theorem runScript_true (w : Worker) {s : Session} (hdepth : s.setup.depth = 1500) :
    ∃ t, w.runScript s "true" = { w with phase := .running t } := by
  have hcompile : compile 1500 "true" =
      .ok [.expression (.literal (.boolean true) ⟨0, 4, 1⟩) ⟨0, 4, 1⟩] := by cbv
  have hrun : (s.run "true").1 = .success (.boolean true) := by
    rw [Session.run_of_compile_ok (by rw [hdepth, hcompile]), Session.runStatements, Session.perform,
      Run.program, show (s.announced "true").setup.depth = 1500 from hdepth]
    rfl
  unfold runScript
  rcases hr : s.run "true" with ⟨result, t⟩
  obtain rfl : result = .success (.boolean true) := by rw [← hrun, hr]
  have hdepth' : t.setup.depth = 1500 := by rw [← hdepth, ← Session.run_setup s "true", hr]
  have hdisplay : t.display (.boolean true) = some (Text.ofString "true") := by
    rw [Session.display, hdepth']
    rfl
  exact ⟨_, by simp only [hdisplay]; rfl⟩

theorem Run.snoc_true {session : Session} (h : Run s moves t)
    (htask : t.task = some (.job (.script "true"))) (hphase : t.worker.phase = .running session)
    (hdepth : session.setup.depth = 1500) : ∃ u, Run s (moves ++ [.finish (.job (.script "true"))])
      { t with worker := { t.worker with phase := .running u }, task := none } := by
  obtain ⟨u, hu⟩ := runScript_true t.worker hdepth
  refine ⟨u, ?_⟩
  rw [← hu]
  exact h.snoc (.executed htask hphase (by rw [hu]; rfl))

theorem exists_run_closedWhileRunning :
    ∃ s, Run (idle (.new Session.quiet .bare)) closedWhileRunning s ∧
      s.call = none ∧ s.worker.hasEnded = true := by
  have h := Run.nil (s := idle (.new Session.quiet .bare))
  have h : Run _ [.submit "true"] _ := h.snoc (.submit rfl rfl)
  have h := h.snoc (.put rfl)
  have h := h.snoc (.start rfl rfl rfl)
  have h := h.snoc (.prepared rfl rfl rfl)
  have h := h.snoc (.take rfl rfl rfl)
  have h := h.snoc (.close rfl rfl)
  obtain ⟨u, h⟩ := h.snoc_true rfl rfl rfl
  have h := h.snoc (.note rfl)
  have h := h.snoc (.put rfl)
  have h := h.snoc (.take rfl rfl rfl)
  have h := h.snoc (.stopped rfl rfl)
  exact ⟨_, h, rfl, rfl⟩

theorem run_in_order_closedWhileRunning :
    ∃ s, Run (idle (.new Session.quiet .bare)) closedWhileRunning s ∧
      completed closedWhileRunning = submitted closedWhileRunning ∧
      submitted closedWhileRunning = [Text.ofString "true"] ∧ ∀ source t, ¬ Step s (.submit source) t := by
  obtain ⟨s, h, hcall, hended⟩ := exists_run_closedWhileRunning
  obtain ⟨-, -, -, -, hrefused, hall⟩ := run_in_order h
  exact ⟨s, h, hall (by simp [closedWhileRunning]), rfl,
    fun source => (hrefused hcall (.inr hended) source).2⟩

end Threads

end Worker

end HostScript
