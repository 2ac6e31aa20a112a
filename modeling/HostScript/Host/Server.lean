import HostScript.Host.Method
import HostScript.Json.Read
import HostScript.Run.World

/-!
# Serving requests

The host's side of the link. A request is a JSON text that names a method and lists parameters; the
answer is a JSON text with either a result or an error. What happens on the way (the call, what is
logged) is listed as events.
-/

namespace HostScript.Host

/-- Why a request cannot be understood. -/
inductive RequestFault
  | unreadable (document : Text) (fault : Json.ReadFault)
  | noMethod
  | notAnObject (kind : Json)

/-- The wording of why a request cannot be understood. -/
def RequestFault.message : RequestFault → Text
  | unreadable document fault => fault.message document
  | noMethod => "'method'"
  | notAnObject (.array _) => "list indices must be integers or slices, not str"
  | notAnObject (.string _) => "string indices must be integers, not 'str'"
  | notAnObject document =>
    "'" ++ Text.ofString document.kindName ++ "' object is not subscriptable"

/-- What becomes of a request: an answer, or none because the method is of a kind that names
nothing, the handler was cancelled, it never answers, it stopped the host, or something is nested
too deeply. -/
inductive Answer
  | text (t : Text)
  | unhashable (kind : String)
  | cancelled
  | silent
  | stopped
  | tooDeep

/-- What serving a request leads to. -/
structure Served where
  events : List Event
  closes : Bool
  answer : Answer

/-- The text of a document on the wire, where everything outside ASCII is escaped. -/
def wire (document : Json) : Text := document.write .ascii

/-- An answer with an error and nothing else. -/
def refusal (message : Text) : Answer := .text (wire (.object [("error", .string message)]))

/-- An answer with a result. -/
def success (result : Json) : Answer := .text (wire (.object [("result", result)]))

/-- Reads the method and the parameters of a request. Parameters that are not given are none. -/
def readRequest (document : Json) : Except RequestFault (Json × Json) :=
  match document with
  | .object _ =>
    match document.member? "method" with
    | some method => .ok (method, (document.member? "params").getD (.array []))
    | none => .error .noMethod
  | document => .error (.notAnObject document)

/-- The parameters that a document lists: the items of an array, the characters of a string, or the
names of the members of an object. -/
def spread : Json → Option (List Json)
  | .array items => some items
  | .string t => some (t.map fun c => .string [c])
  | .object members => some (members.map fun entry => .string entry.1)
  | _ => none

/-- The answer with a result that cannot be written. -/
def unserializable (method reason : Text) : Answer :=
  refusal ("unserializable result from " ++ method ++ ": " ++ reason)

/-- Why a result with a long integer cannot be written. -/
def longInteger : Text :=
  "Exceeds the limit (4300 digits) for integer string conversion; "
    ++ "use sys.set_int_max_str_digits() to increase the limit"

/-- The answer that follows from how a handler ended, with what is logged about it. -/
def conclude (method : Text) : Outcome → List Event × Answer
  | .returns result =>
    ([], if result.hasLongInteger then unserializable method longInteger else success result)
  | .unserializable reason => ([], unserializable method reason)
  | .raises kind message =>
    ([.logged ⟨.warning, LogRecord.linkLogger,
        "rpc handler " ++ method ++ " failed: " ++ message⟩],
      refusal (kind ++ ": " ++ message))
  | .cancelled => ([], .cancelled)
  | .silent => ([], .silent)
  | .stopsLoop => ([], .stopped)

/-- Calls a handler, of which the host has seen the calls `earlier`. -/
def invoke (host : Host) (earlier : List HostCall) (method : Text) (parameters : Json) : Served :=
  let start : Event :=
    .logged ⟨.debug, LogRecord.linkLogger, "rpc " ++ method ++ " " ++ parameters.inspect⟩
  match spread parameters with
  | none =>
    let message := host.title method ++ " argument after * must be an iterable, not "
      ++ Text.ofString parameters.kindName
    let (events, answer) := conclude method (.raises "TypeError" message)
    ⟨start :: events, false, answer⟩
  | some values =>
    let call := ⟨method, values⟩
    let reaction := host.respond earlier call
    let (events, answer) := conclude method reaction.outcome
    ⟨start :: .called call :: reaction.records.map .logged ++ events, reaction.closes, answer⟩

/-- Whether a host handles a method: it offers a handler, and the method is one that hosts may
offer to scripts. -/
def handles (host : Host) (method : Text) : Bool :=
  host.offers method && (HostMethod.ofName? method).isSome

/-- Serves a request for the method that a document names. -/
def dispatch (host : Host) (earlier : List HostCall) (method parameters : Json) : Served :=
  match method with
  | .array _ => ⟨[], false, .unhashable method.kindName⟩
  | .object _ => ⟨[], false, .unhashable method.kindName⟩
  | .string name =>
    if host.handles name then host.invoke earlier name parameters
    else ⟨[], false, refusal ("host does not implement " ++ name)⟩
  | method => ⟨[], false, refusal ("host does not implement " ++ method.shown)⟩

/-- Serves a request. -/
def serve (host : Host) (depth : Nat) (earlier : List HostCall) (request : Text) : Served :=
  let malformed (fault : RequestFault) : Served :=
    ⟨[], false, refusal ("malformed request: " ++ fault.message)⟩
  match Json.read .wire depth request with
  | .error .tooDeep => ⟨[], false, .tooDeep⟩
  | .error (.fault fault) => malformed (.unreadable request fault)
  | .ok document =>
    match readRequest document with
    | .error fault => malformed fault
    | .ok (method, parameters) => host.dispatch earlier method parameters

end HostScript.Host
