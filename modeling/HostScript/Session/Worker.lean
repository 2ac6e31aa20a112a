import HostScript.Session.Basic

/-!
# Workers

A worker runs scripts from a queue, one at a time and in order, in a session of its own. Its owner
submits scripts, starts it and closes it; the worker takes the next job from the queue
(`Worker.advance`). It ends when it takes the mark that closing puts behind all scripts, when the
host goes out of reach, or when the result of a script cannot be written to the log. A script that
does not end leaves it hanging.
-/

namespace HostScript

/-- What a worker finds in its queue. -/
inductive Job
  | script (source : Text)
  | stop

/-- What a worker is doing. -/
inductive Phase
  | unstarted
  | running (s : Session)
  | hung (s : Session)
  | ended (s : Session)

/-- A worker. -/
structure Worker where
  config : Config
  around : Session.Surroundings
  queue : List Job
  closed : Bool
  phase : Phase

namespace Worker

/-- A worker without scripts. -/
def new (config : Config) (around : Session.Surroundings) : Worker :=
  ⟨config, around, [], false, .unstarted⟩

/-- Whether a worker has come to its end. -/
def hasEnded (w : Worker) : Bool :=
  match w.phase with
  | .ended _ => true
  | _ => false

/-- Whether a worker runs and takes more scripts. -/
def isRunning (w : Worker) : Bool :=
  match w.phase with
  | .running _ => !w.closed
  | .hung _ => !w.closed
  | _ => false

/-! ## What the owner does -/

/-- Puts a script into the queue. A worker that was closed or has ended takes none. -/
def submit? (w : Worker) (source : Text) : Option Worker :=
  if w.closed || w.hasEnded then none else some { w with queue := w.queue ++ [.script source] }

/-- Closes a worker for more scripts. What is in the queue is still run. -/
def close (w : Worker) : Worker :=
  if w.closed then w else { w with closed := true, queue := w.queue ++ [.stop] }

/-- Closes the link to the host. -/
def closeLink (w : Worker) : Worker :=
  match w.phase with
  | .unstarted =>
    { w with
      around := { w.around with link := w.around.link.map ({ · with isOpen := false }) } }
  | .running s => { w with phase := .running s.closeLink }
  | .hung s => { w with phase := .hung s.closeLink }
  | .ended s => { w with phase := .ended s.closeLink }

/-! ## What the worker does -/

/-- Comes to an end. -/
def finish (w : Worker) (s : Session) : Worker :=
  { w with closed := true, phase := .ended (s.log .info "runtime thread stopped") }

/-- Comes to an end because the host is out of reach. -/
def disconnect (w : Worker) (s : Session) (cause : TransportFault) : Worker :=
  w.finish (s.log .error
    ("rpc transport failed, stopping runtime: " ++ errorText "rpc" cause.message none))

/-- Starts a worker. One that was started before stays as it is. -/
def start? (w : Worker) : Option Worker :=
  match w.phase with
  | .unstarted =>
    let s := (Session.fresh w.config w.around).log .info "runtime thread started"
    match s.prepare w.config w.around.files with
    | (none, s) => some { w with phase := .running s }
    | (some (.disconnected cause), s) => some (w.disconnect s cause)
    | (some .noLocation, s) => some (w.finish s)
    | (some .endless, s) => some { w with phase := .hung s }
  | _ => none

/-- Runs a script and reports how it ended. -/
def runScript (w : Worker) (s : Session) (source : Text) : Worker :=
  match s.run source with
  | (.success v, s) =>
    match s.display v with
    | some t => { w with phase := .running (s.log .debug ("script finished: " ++ t)) }
    | none => w.finish s
  | (.failure fault, s) =>
    match report fault.message fault.span? source with
    | .ok t => { w with phase := .running (s.log .error ("script failed: " ++ t)) }
    | .error _ => w.finish s
  | (.disconnected cause, s) => w.disconnect s cause
  | (.endless, s) => { w with phase := .hung s }

/-- Takes the next job from the queue, if the worker runs and there is one. -/
def advance (w : Worker) : Worker :=
  match w.phase, w.queue with
  | .running s, .stop :: rest => { w with queue := rest }.finish s
  | .running s, .script source :: rest => { w with queue := rest }.runScript s source
  | _, _ => w

/-- Works off the queue as far as it goes. -/
def settle (w : Worker) : Worker := w.queue.foldl (fun w _ => w.advance) w

/-- What can happen to a worker: what its owner does, and its own step. -/
inductive Action
  | submit (source : Text)
  | start
  | close
  | closeLink
  | advance

/-- The worker after something has happened. What is refused changes nothing. -/
def act (w : Worker) : Action → Worker
  | .submit source => (w.submit? source).getD w
  | .start => w.start?.getD w
  | .close => w.close
  | .closeLink => w.closeLink
  | .advance => w.advance

/-- The worker after things have happened one after another. -/
def perform (w : Worker) (actions : List Action) : Worker := actions.foldl act w

/-- What has happened in the session of a worker. -/
def events (w : Worker) : List Event :=
  match w.phase with
  | .unstarted => []
  | .running s => s.world.events.toList
  | .hung s => s.world.events.toList
  | .ended s => s.world.events.toList

end Worker

end HostScript
