import HostScript.Config.Load
import HostScript.Session.Basic

/-!
# The shell

The interactive use of a session. The shell reads lines (`Shell.feed`); lines up to a blank one make
a chunk, which is run as one script, and its result is shown. A line that says `exit` in front of a
chunk, or the end of the input, ends the shell. Given a script file, the shell runs that instead.
-/

namespace HostScript

/-- What a shell writes: a text on the output, or one among the messages. -/
inductive Output
  | out (t : Text)
  | err (t : Text)

/-- Why a shell breaks off. -/
inductive ShellFault
  | config (fault : ConfigFault)
  | start (fault : Session.StartFault)
  | unencodable (fault : Utf8.EncodeFault)
  | tooDeep
  | unreadable (fault : FileFault) (p : Path)
  | endless

/-- The wording of why a shell breaks off. -/
def ShellFault.message : ShellFault → Text
  | config fault => fault.message
  | start .noLocation => (ConfigFault.notAPath "NoneType").message
  | start (.disconnected cause) => cause.message
  | start .endless => "the bootstrap script does not end"
  | unencodable fault => fault.message
  | tooDeep => "the result is nested too deeply"
  | unreadable fault p => fault.message p
  | endless => "the script does not end"

/-- How a shell ends. -/
inductive ShellEnd
  | done
  | exit (code : Nat)
  | raised (fault : ShellFault)

/-- A shell that waits for a line: its session, whether log records are shown, and the lines of the
chunk so far. -/
structure Shell where
  session : Session
  debug : Bool
  chunk : List Text

/-- Where a shell is used: its environment, the files it can read, the library that reads settings
files, the accounts, and what its session runs on. -/
structure Terminal where
  environment : Dict Text
  files : Files
  reader : SettingsReader
  accounts : Accounts
  machine : Session.Machine

namespace Shell

/-! ## Output -/

/-- How a log record is shown. -/
def recordLine (r : LogRecord) : Text :=
  Text.ofString r.level.label ++ ":" ++ Text.ofString r.logger ++ ":" ++ r.message ++ "\n"

/-- What is shown of an event. -/
def shownEvent (debug : Bool) : Event → List Output
  | .printed t => [.out t]
  | .logged r => if debug then [.err (recordLine r)] else []
  | _ => []

/-- What a session has to show since a mark. -/
def shown (debug : Bool) (s : Session) (mark : Nat) : List Output :=
  (s.eventsSince mark).flatMap (shownEvent debug)

/-- The lines with which a shell begins. -/
def banner : Text :=
  "RSL REPL v0.1\nEnter a blank line to run. Type 'exit' or press Ctrl+D to quit.\n"

/-- The line with which a shell ends at the end of the input. -/
def farewell : Text := "\nExiting.\n"

/-- What a shell writes before it reads a line. -/
def prompt (s : Shell) : Text := if s.chunk.isEmpty then ">> " else ".. "

/-! ## Starting -/

/-- The configuration of the environment. -/
def configure (terminal : Terminal) : Except ShellFault Config :=
  let file : Except ShellFault (Option (Text × Text)) :=
    match terminal.environment.get? "RSL_CONFIG" with
    | none => .ok none
    | some name =>
      match terminal.files.read (Path.ofText name) with
      | .ok t => .ok (some (name, t))
      | .error fault => .error (.unreadable fault (Path.ofText name))
  match file with
  | .error fault => .error fault
  | .ok file =>
    (Config.load terminal.reader terminal.accounts file terminal.environment).mapError .config

/-- Starts the session of a shell. -/
def start (terminal : Terminal) : List Output × Except ShellFault Shell :=
  match configure terminal with
  | .error fault => ([], .error fault)
  | .ok config =>
    let debug := config.debug.isOn
    let (fault, session) := Session.start config ⟨terminal.files, [], none, terminal.machine⟩
    let output := shown debug session 0
    match fault with
    | some fault => (output, .error (.start fault))
    | none => (output, .ok ⟨session, debug, []⟩)

/-! ## Running -/

/-- What is shown of a result, and whether the script failed. -/
def resultOutput (session : Session) (source : Text) :
    RunResult → Except ShellFault (List Output × Bool)
  | .success .null => .ok ([], false)
  | .success v =>
    match session.display v with
    | none => .error .tooDeep
    | some t =>
      match Utf8.surrogateRun? 0 t with
      | some fault => .error (.unencodable fault)
      | none => .ok ([.out (t ++ "\n")], false)
  | .failure fault =>
    match report fault.message fault.span? source with
    | .error fault => .error (.unencodable fault)
    | .ok t => .ok ([.err (t ++ "\n")], true)
  | .disconnected cause => .error (.start (.disconnected cause))
  | .endless => .error .endless

/-- Runs a script and shows what came of it. -/
def runSource (s : Shell) (source : Text) : List Output × Except ShellFault (Shell × Bool) :=
  let mark := s.session.mark
  let (result, session) := s.session.run source
  let output := shown s.debug session mark
  match resultOutput session source result with
  | .error fault => (output, .error fault)
  | .ok (more, failed) => (output ++ more, .ok (⟨session, s.debug, []⟩, failed))

/-- What a shell does with a line: it writes something, and it goes on or ends. -/
abbrev Turn := List Output × Except ShellEnd Shell

/-- Takes in a line without its end. `none` is the end of the input. -/
def feed (s : Shell) : Option Text → Turn
  | none => ([.out farewell], .error .done)
  | some line =>
    if s.chunk.isEmpty && line.trim = "exit" then ([], .error .done)
    else if !line.trim.isEmpty then ([], .ok { s with chunk := s.chunk ++ [line] })
    else if s.chunk.isEmpty then ([], .ok s)
    else
      match s.runSource (Text.join "\n" s.chunk) with
      | (output, .ok (s, _)) => (output, .ok s)
      | (output, .error fault) => (output, .error (.raised fault))

/-- Reads lines to the end. -/
def interact (s : Shell) : List Text → List Output × ShellEnd
  | [] => ([.out s.prompt, .out farewell], .done)
  | line :: rest =>
    match s.feed (some line) with
    | (output, .error ending) => (.out s.prompt :: output, ending)
    | (output, .ok next) =>
      let (more, ending) := next.interact rest
      (.out s.prompt :: output ++ more, ending)

/-- The lines of an input, without their ends. -/
def inputLines (input : Text) : List Text :=
  let parts := Text.splitOn (.scalar '\n') (Files.unifyLineEnds input)
  if parts.getLast? = some [] then parts.dropLast else parts

/-- Uses a shell interactively on a whole input. -/
def converse (terminal : Terminal) (input : Text) : List Output × ShellEnd :=
  match start terminal with
  | (output, .error fault) => (.out banner :: output, .raised fault)
  | (output, .ok s) =>
    let (more, ending) := s.interact (inputLines input)
    (.out banner :: output ++ more, ending)

/-- Runs a script file. -/
def runFile (terminal : Terminal) (name : Text) : List Output × ShellEnd :=
  match terminal.files.read (Path.ofText name) with
  | .error .notFound => ([.err ("Error: file not found: " ++ name ++ "\n")], .exit 1)
  | .error fault => ([], .raised (.unreadable fault (Path.ofText name)))
  | .ok source =>
    match start terminal with
    | (output, .error fault) => (output, .raised fault)
    | (output, .ok s) =>
      match s.runSource source with
      | (more, .error fault) => (output ++ more, .raised fault)
      | (more, .ok (_, failed)) => (output ++ more, if failed then .exit 1 else .done)

/-- Whether an argument names a script file. -/
def isFileName (argument : Text) : Bool := argument.head? ≠ some (.scalar '-')

/-- Uses a shell with arguments, of which only the first one counts. -/
def run (terminal : Terminal) (arguments : List Text) (input : Text) : List Output × ShellEnd :=
  match arguments with
  | first :: _ => if isFileName first then runFile terminal first else converse terminal input
  | [] => converse terminal input

end Shell

end HostScript
