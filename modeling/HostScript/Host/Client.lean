import HostScript.Host.Server
import HostScript.Library.Call

/-!
# Calling the host

The scripts' side of the link. Arguments are checked against the method and converted, the request
goes over the wire, and the answer is converted back. All failures of the host are error values; the
run ends only if the host cannot be reached.
-/

namespace HostScript.Host

/-! ## Arguments and results -/

/-- The document for an argument at a position. A buffer number is a natural number; the name of a
function may be given by the function. -/
def convertArgument (kind : ParameterKind) (position : Nat) (v : Value) :
    Except ArgumentFault Json :=
  let mismatch (wanted : String) := Except.error (.mismatch wanted position v.kindName)
  match kind, v with
  | .buffer, .number x =>
    match Number.truncate? x with
    | some n =>
      if x < 0 ∨ !Number.isInteger x then .error (.invalidBuffer position) else .ok (.integer n)
    | none => .error (.invalidBuffer position)
  | .buffer, _ => mismatch "number"
  | .function, .string t => .ok (.string t)
  | .function, .function f =>
    match f.name? with
    | some name => .ok (.string name)
    | none => mismatch "function name"
  | .function, _ => mismatch "function name"
  | .text, .string t => .ok (.string t)
  | .text, _ => mismatch "string"

/-- The documents for arguments of which the first has the given position. -/
def convertFrom (position : Nat) :
    List ParameterKind → List Value → Except ArgumentFault (List Json)
  | kind :: kinds, v :: values => do
    let document ← convertArgument kind position v
    return document :: (← convertFrom (position + 1) kinds values)
  | _, _ => .ok []

/-- The documents for the arguments of a method. -/
def convertArguments (m : HostMethod) (values : List Value) : Except ArgumentFault (List Json) :=
  match countFault? m.kinds.length values.length with
  | some fault => .error fault
  | none => convertFrom 1 m.kinds values

/-- The error of a result that is not of the kind of the method. -/
def unexpectedResult (m : HostMethod) (kind : ResultKind) (result : Json) : Value :=
  .error (m.scriptName ++ ": host returned " ++ Text.ofString result.kindName ++ ", expected "
    ++ Text.ofString kind.label)

/-- The value of a result. -/
def convertResult (m : HostMethod) (result : Json) : Run Value :=
  match m.signature.result, result with
  | none, _ => return .null
  | some .buffer, .integer n =>
    match Number.ofInt? n with
    | some x => return .number x
    | none => Run.halt (.internal .numberOverflow)
  | some .buffer, .number x => return .number x
  | some .text, .string t => return .string t
  | some kind, result => return unexpectedResult m kind result

/-! ## Calls -/

/-- Whether a call is given up after a time: a timeout that is a finite number. -/
def expires : Setting → Bool
  | .integer _ => true
  | .boolean _ => true
  | .number x => x.isFinite
  | _ => false

/-- Whether the end of a wait can be computed: an integer must be in the range of numbers. -/
def isMeasurable : Setting → Bool
  | .integer n => (Number.ofInt? n).isSome
  | _ => true

/-- The error of a call that was given up. -/
def timedOut (m : HostMethod) (timeout : Setting) : Value :=
  .error (m.name ++ ": host did not respond within " ++ timeout.text ++ "s")

/-- The request for a call. -/
def requestText (m : HostMethod) (parameters : List Json) : Text :=
  wire (.object [("method", .string m.name), ("params", .array parameters)])

/-- Reads an answer: a result, or the message of an error. -/
def readAnswer (depth : Nat) (t : Text) : Except Halt (Except Text Json) :=
  match Json.read .wire depth t with
  | .error _ => .error .tooDeep
  | .ok document =>
    match document.member? "error" with
    | some message => .ok (.error message.shown)
    | none => .ok (.ok ((document.member? "result").getD .null))

/-- What a call is worth once the host has served it, or not. -/
def conclusion (setup : Setup) (m : HostMethod) (link : Link) : Answer → Run Value
  | .text t =>
    match readAnswer setup.depth t with
    | .error h => Run.halt h
    | .ok (.error message) => return .error (m.name ++ ": " ++ message)
    | .ok (.ok result) => convertResult m result
  | .cancelled => Run.halt (.transport (.cancelled m.name))
  | .stopped => Run.halt (.transport (.lost m.name))
  | .silent =>
    if !link.isOpen then Run.halt (.transport (.lost m.name))
    else if expires link.timeout then return timedOut m link.timeout
    else Run.halt .endless
  | .unhashable _ => Run.halt .endless
  | .tooDeep => Run.halt .tooDeep

/-- How a call ends whose wait has no end that can be computed. -/
def unmeasured : Answer → Halt
  | .tooDeep => .tooDeep
  | _ => .internal .numberOverflow

/-- The link after a request was served. -/
def after (link : Link) (served : Served) : Link :=
  match served.answer with
  | .stopped => { link with isOpen := false }
  | _ => { link with isOpen := link.isOpen && !served.closes }

/-- Sends a request over a link, and waits for what comes of it. -/
def exchange (setup : Setup) (m : HostMethod) (link : Link) (parameters : List Json) :
    Run Value := do
  let earlier := World.hostCalls (← get).events.toList
  let served := link.host.serve setup.depth earlier (requestText m parameters)
  let link := after link served
  modify fun w =>
    { w with events := w.events ++ served.events.toArray, link := some link }
  if isMeasurable link.timeout then conclusion setup m link served.answer
  else Run.halt (unmeasured served.answer)

/-- Calls the function of a host method. -/
def call (setup : Setup) (m : HostMethod) (values : List Value) : Run Value := do
  match convertArguments m values with
  | .error fault => return .error (m.scriptName ++ ": " ++ fault.message)
  | .ok parameters =>
    match (← get).link with
    | some link =>
      if link.isOpen then exchange setup m link parameters
      else Run.halt (.transport (.closed m.name))
    | none => Run.halt (.transport (.closed m.name))

end HostScript.Host
