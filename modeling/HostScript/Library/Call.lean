import HostScript.Json.Read
import HostScript.Library.Containers
import HostScript.Library.Strings
import HostScript.Run.World
import HostScript.Value.Document
import HostScript.Value.Signature

/-!
# Calling the standard library

`StandardFunction.call` checks the arguments of a function against its signature and runs it.
Arguments that do not fit give an error value under the name of the function.
-/

namespace HostScript

/-- Runs the body of a native function on arguments that fit its signature. -/
def withArguments (name : Text) (kinds : List Kind) (values : List Value)
    (body : Arguments kinds → Run Value) : Run Value :=
  match readArguments kinds values with
  | .ok arguments => body arguments
  | .error fault => return .error (name ++ ": " ++ fault.message)

namespace StandardFunction

/-- The display form of a value in a run. -/
def displayText (setup : Setup) (v : Value) : Run Text := do
  match v.display (← Run.heap) setup.depth with
  | some t => return t
  | none => Run.halt .tooDeep

/-- Writes the display forms of some values on one line of the output. -/
def printLine (setup : Setup) (values : List Value) : Run Value := do
  let texts ← values.mapM (displayText setup)
  let line := Text.join " " texts ++ "\n"
  match Utf8.surrogateRun? 0 line with
  | some fault => Run.halt (.internal (.unencodable fault))
  | none =>
    Run.note (.printed line)
    return .null

/-- The outcome of a function that would nest too deeply: an error value, or the end of the run. -/
def nestedTooDeeply (setup : Setup) (message : Text) : Run Value :=
  if setup.lenient then return .error message else Run.halt .tooDeep

/-- The JSON text of a value. Numbers that are not finite are written as null. -/
def writeJson (setup : Setup) (v : Value) : Run Value := do
  match v.document (← Run.heap) setup.depth with
  | .ok document => return .string (document.finite.write .plain)
  | .error .selfReference => return .error "toJson: cannot serialize a self-referencing value"
  | .error .tooDeep => nestedTooDeeply setup "toJson: value is nested too deeply"

/-- The value that a JSON text writes. -/
def readJson (setup : Setup) (t : Text) : Run Value :=
  match Json.read .script setup.depth t with
  | .ok document => Run.onHeap fun h => h.load document
  | .error (.fault cause) => return .error ("fromJson: " ++ cause.message t)
  | .error .tooDeep => nestedTooDeeply setup "fromJson: document is nested too deeply"

/-- Calls a function of the standard library. -/
def call (setup : Setup) (f : StandardFunction) (values : List Value) : Run Value :=
  let taking (kinds : List Kind) (body : Arguments kinds → Run Value) : Run Value :=
    withArguments f.name kinds values body
  match f with
  | .print => printLine setup values
  | .toString => taking [.any] fun (v, _) => return .string (← displayText setup v)
  | .toJson => taking [.any] fun (v, _) => writeJson setup v
  | .fromJson => taking [.string] fun (t, _) => readJson setup t
  | .createArray => Run.onHeap (·.createArray values)
  | .arrayLen => taking [.array] fun (id, _) => return (← Run.heap).arrayLen id
  | .arrayGet => taking [.array, .number] fun (id, x, _) => return (← Run.heap).arrayGet id x
  | .arraySet => taking [.array, .number, .any] fun (id, x, v, _) => Run.onHeap (·.arraySet id x v)
  | .arrayPushBack => taking [.array, .any] fun (id, v, _) => Run.onHeap (·.arrayPushBack id v)
  | .arrayPopBack => taking [.array] fun (id, _) => Run.onHeap (·.arrayPopBack id)
  | .arrayInsert =>
    taking [.array, .number, .any] fun (id, x, v, _) => Run.onHeap (·.arrayInsert id x v)
  | .arrayRemove => taking [.array, .number] fun (id, x, _) => Run.onHeap (·.arrayRemove id x)
  | .createTable => taking [] fun _ => Run.onHeap (·.createTable)
  | .tableSet =>
    taking [.table, .string, .any] fun (id, key, v, _) =>
      Run.onHeap fun h => (.null, h.tableSet id key v)
  | .tableGet => taking [.table, .string] fun (id, key, _) => return (← Run.heap).tableGet id key
  | .tableKeys => taking [.table] fun (id, _) => Run.onHeap (·.tableKeys id)
  | .tableMerge =>
    taking [.table, .table] fun (destination, source, _) =>
      Run.onHeap (·.tableMerge destination source)
  | .stringSplitLines => taking [.string] fun (t, _) => Run.onHeap (·.splitLines t)
  | .stringLen => taking [.string] fun (t, _) => return .number (Float.ofNat t.length)
  | .stringContains =>
    taking [.string, .string] fun (t, needle, _) => return .boolean (Text.hasInfix needle t)
  | .stringToLower => taking [.string] fun (t, _) => return .string t.toLower
  | .stringWidth => taking [.string] fun (t, _) => return .number (Float.ofNat t.width)
  | .stringTruncateToWidth =>
    taking [.string, .number] fun (t, width, _) => return Value.truncated t width
  | .renderViewport =>
    taking [.string, .number, .number, .number] fun (t, width, height, scroll, _) =>
      return Value.rendered t width height scroll
  | .floor => taking [.number] fun (x, _) => return Value.floored x

end StandardFunction

end HostScript
