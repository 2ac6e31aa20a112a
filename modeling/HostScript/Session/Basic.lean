import HostScript.Config.Basic
import HostScript.Run.Evaluate
import HostScript.Session.Bootstrap
import HostScript.Session.Fault
import HostScript.Session.Files

/-!
# Sessions

A session runs scripts one after another in one world (`Session.run`). It starts with the native
functions bound in the root scope and runs a bootstrap script first, if the configuration says so
(`Session.start`). A script that fails leaves the world as it was when it failed.
-/

namespace HostScript

/-- How a script ends. A transport fault means that the host is out of reach; `endless` stands for
scripts that do not end. -/
inductive RunResult
  | success (v : Value)
  | failure (fault : ScriptFault)
  | disconnected (cause : TransportFault)
  | endless

/-- An interpreter between two scripts. -/
structure Session where
  setup : Setup
  root : Env
  world : World

namespace Session

/-! ## Running scripts -/

/-- The result of a run. -/
def resultOf : Except Halt Value → RunResult
  | .ok v => .success v
  | .error (.fault cause span) => .failure (.runtime cause span)
  | .error (.transport cause) => .disconnected cause
  | .error (.internal cause) => .failure (.internal cause)
  | .error .tooDeep => .failure .tooDeep
  | .error .endless => .endless

/-- Changes the world of a session by a run. -/
def perform {α : Type} (s : Session) (run : Run α) : Except Halt α × Session :=
  let (result, world) := run.run s.world
  (result, { s with world })

/-- Writes to the log of a session. -/
def log (s : Session) (level : LogLevel) (message : Text) : Session :=
  (s.perform (Run.log level LogRecord.sessionLogger message)).2

/-- Notes an internal failure in the log. -/
def noteResult (s : Session) : RunResult → Session
  | .failure (.internal _) => s.log .error "internal error while running script"
  | _ => s

/-- Runs statements. -/
def runStatements (s : Session) (statements : List Stmt) : RunResult × Session :=
  let (result, s) := s.perform (Run.program s.setup s.root .null statements)
  (resultOf result, s)

/-- Runs a script. -/
def run (s : Session) (source : Text) : RunResult × Session :=
  let s := s.log .debug ("running script (" ++ Text.ofNat source.length ++ " chars)")
  let (result, s) := match compile s.setup.depth source with
    | .ok statements => s.runStatements statements
    | .error fault => (.failure fault, s)
  (result, s.noteResult result)

/-! ## Starting -/

/-- A bound on nesting with which the interpreter can be used: it is enough for the bootstrap script,
and the usual bounds lie far above it. -/
def leastDepth : Nat := 60

/-- What an interpreter runs on: the platform of its requests, and how deeply its functions may be
nested. -/
structure Machine where
  platform : Platform
  depth : Nat
  roomy : leastDepth ≤ depth

/-- What a session is made of besides a configuration: the files that it can read, the replies that
its HTTP requests get, the host that its scripts can call with the timeout of the link and whether
the link is open, and what it runs on. -/
structure Surroundings where
  files : Files
  replies : List HttpReply
  link : Option Link
  machine : Machine

/-- The link under a configuration, which gives the timeout if the link has none. -/
def linkUnder (config : Config) (link : Link) : Link :=
  match link.timeout with
  | .null => { link with timeout := config.rpcTimeout }
  | _ => link

/-- The bound on the iterations of one loop, which no loop reaches in practice. -/
def iterationBound : Nat := 1000000000000000

/-- The functions that are bound at the start. -/
def natives (link : Option Link) : List Native :=
  if link.isSome then Native.library ++ Native.ofHost else Native.library

/-- A session in which nothing has run. -/
def fresh (config : Config) (around : Surroundings) : Session :=
  let (scopes, root) := Scopes.start
  let bound := (natives around.link).foldl
    (fun scopes f => Scopes.define scopes root f.name (.function (.native f))) scopes
  { setup :=
      ⟨around.machine.depth, iterationBound, true, config.http, around.machine.platform⟩
    root
    world := ⟨bound, .empty, 0, #[], around.link.map (linkUnder config), around.replies⟩ }

/-- Why a session could not start: the bootstrap script has no location, or the host went out of
reach while it ran. -/
inductive StartFault
  | noLocation
  | disconnected (cause : TransportFault)
  | endless

/-- Where the bootstrap script is: in the interpreter, or in a file. -/
inductive Boot
  | packaged
  | file (p : Path)

/-- Where a configuration finds the bootstrap script. A path is seen from the working directory. -/
def bootOf (config : Config) : Except StartFault Boot :=
  match config.bootstrap, config.workingDir with
  | .usual, _ => .ok .packaged
  | .nowhere, _ => .error .noLocation
  | .at p, directory =>
    if p.isAbsolute then .ok (.file p)
    else match directory with
      | .usual => .ok (.file p)
      | .nowhere => .error .noLocation
      | .at base => .ok (.file (base.join p))

/-- Runs a bootstrap script, of which messages speak by the given name. -/
def runBoot (s : Session) (name source : Text) : Option StartFault × Session :=
  let (result, s) := s.run source
  match result with
  | .success _ => (none, s)
  | .failure fault =>
    (none, s.log .error ("bootstrap script " ++ name ++ " failed: " ++ fault.report source))
  | .disconnected cause => (some (.disconnected cause), s)
  | .endless => (some .endless, s)

/-- Finds and runs the bootstrap script. -/
def boot (s : Session) (files : Files) : Boot → Option StartFault × Session
  | .packaged => s.runBoot "init.rsl" bootstrapScript
  | .file p =>
    match files.read p with
    | .error fault =>
      (none, s.log .error
        ("cannot read bootstrap script " ++ p.text ++ ": " ++ fault.message p))
    | .ok source => s.runBoot p.text source

/-- Runs the bootstrap script in a session in which nothing has run, if the configuration says so.
Says why the session cannot be used if so. -/
def prepare (s : Session) (config : Config) (files : Files) : Option StartFault × Session :=
  if config.loadBootstrap.isOn then
    match bootOf config with
    | .error fault => (some fault, s)
    | .ok found => s.boot files found
  else (none, s)

/-- Starts a session, and says why it cannot be used if so. -/
def start (config : Config) (around : Surroundings) : Option StartFault × Session :=
  (fresh config around).prepare config around.files

/-! ## What a session shows -/

/-- The bindings of the root scope. -/
def globals (s : Session) : Dict Value := s.world.scopes.bindings s.root.here

/-- The bindings of the root scope that are new or changed since another state of the session, in
the order of their names. -/
def changedSince (s : Session) (before : Dict Value) : List (Text × Value) :=
  let changed := s.globals.entries.filter fun (name, v) =>
    match before.get? name with
    | some old => !v.identical old
    | none => true
  changed.mergeSort fun a b => !b.1.before a.1

/-- The display form of a value, unless it is nested too deeply. -/
def display (s : Session) (v : Value) : Option Text := v.display s.world.heap s.setup.depth

/-- The number of events so far. -/
def mark (s : Session) : Nat := s.world.events.size

/-- The events from a number on. -/
def eventsSince (s : Session) (mark : Nat) : List Event := s.world.events.toList.drop mark

/-- Closes the link to the host. -/
def closeLink (s : Session) : Session :=
  { s with world := { s.world with link := s.world.link.map ({ · with isOpen := false }) } }

end Session

end HostScript
