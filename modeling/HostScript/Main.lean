import HostScript.Http.Charset
import HostScript.Session.Shell
import HostScript.Yaml.Load

/-!
# The command line

Reads the environment, the files that a shell may want and the lines of the input, and writes what
the shell answers. Everything else is in `Shell`.
-/

namespace HostScript.Main

/-- What sessions run on here. The bound on nesting stays within the stack of one thread. -/
def machine : Session.Machine := ⟨.usual, 1500, Nat.le_of_ble_eq_true rfl⟩

/-- Writes what a shell has to say. -/
def write (output : List Output) : IO Unit := do
  for part in output do
    match part with
    | .out t =>
      IO.print (Text.toString t)
      (← IO.getStdout).flush
    | .err t => IO.eprint (Text.toString t)

/-- The variables of the environment that a shell looks at. -/
def readEnvironment : IO (Dict Text) := do
  let mut entries := []
  for name in ["RSL_CONFIG", "RSL_DEBUG", "RSL_HTTP_TIMEOUT"] do
    if let some value ← IO.getEnv name then
      entries := entries ++ [(Text.ofString name, Text.ofString value)]
  return ⟨entries⟩

/-- The file at a path, if it can be read. -/
def readIfThere (p : Path) : IO Files := do
  try
    return [(p, Text.ofString (← IO.FS.readFile (Text.toString p.text)))]
  catch _ => return []

/-- The bootstrap script of a terminal, if it is in a file. -/
def readBootstrap (terminal : Terminal) : IO Files :=
  match Shell.configure terminal with
  | .ok config =>
    match Session.bootOf config with
    | .ok (.file p) => readIfThere p
    | _ => return []
  | .error _ => return []

/-- The terminal at which the program is used, with the files that it may need. -/
def readTerminal (names : List Text) : IO Terminal := do
  let environment ← readEnvironment
  let home := Text.ofString ((← IO.getEnv "HOME").getD "/")
  let settings := (environment.get? "RSL_CONFIG").toList
  let mut files := []
  for name in settings ++ names do
    files := files ++ (← readIfThere (Path.ofText name))
  let terminal : Terminal :=
    ⟨environment, files, Yaml.reader, .ofUser (Path.ofText home), machine⟩
  return { terminal with files := files ++ (← readBootstrap terminal) }

/-- The exit code for the end of a shell. -/
def finish : ShellEnd → IO UInt32
  | .done => return 0
  | .exit code => return code.toUInt32
  | .raised fault => do
    IO.eprintln (Text.toString fault.message)
    return 1

/-- Reads one line without its end, or nothing at the end of the input. -/
def readLine : IO (Option Text) := do
  let line ← (← IO.getStdin).getLine
  if line.isEmpty then return none
  return (Shell.inputLines (Text.ofString line)).head?

/-- Feeds lines to a shell until it ends. -/
partial def converse (s : Shell) : IO UInt32 := do
  write [.out s.prompt]
  let (output, next) := s.feed (← readLine)
  write output
  match next with
  | .ok s => converse s
  | .error ending => finish ending

end HostScript.Main

open HostScript in
/-- Runs a script file, or reads chunks of script from the input. -/
def main (arguments : List String) : IO UInt32 := do
  let names := (arguments.take 1).map Text.ofString |>.filter Shell.isFileName
  let terminal ← Main.readTerminal names
  match names with
  | name :: _ =>
    let (output, ending) := Shell.runFile terminal name
    Main.write output
    Main.finish ending
  | [] =>
    Main.write [.out Shell.banner]
    match Shell.start terminal with
    | (output, .ok s) =>
      Main.write output
      Main.converse s
    | (output, .error fault) =>
      Main.write output
      Main.finish (.raised fault)
