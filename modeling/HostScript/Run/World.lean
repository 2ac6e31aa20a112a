import HostScript.Host.Basic
import HostScript.Http.Basic
import HostScript.Value.Heap

/-!
# Worlds

All that a running script can change: its scopes, its heap, the link to its host, and what it has
done so far as a list of events. A run (`Run`) ends with a result or a halt and leaves a world in
both cases.
-/

namespace HostScript

/-- Something that happened. -/
inductive Event
  | printed (t : Text)
  | logged (r : LogRecord)
  | called (c : HostCall)
  | connected (timeout followRedirects : Setting)
  | requested (r : HttpRequest)
  | slept (seconds : Float)

/-- The link to a host. It is open until one side closes it or the host stops. A call that takes
longer than the timeout is given up, if there is one. -/
structure Link where
  host : Host
  isOpen : Bool
  timeout : Setting

/-- The state of an interpreter. -/
structure World where
  scopes : Scopes Value
  heap : Heap
  closures : Nat
  events : Array Event
  link : Option Link
  replies : List HttpReply

/-! ## Halts -/

/-- Faults of scripts. -/
inductive RuntimeFault
  | undefinedVariable (name : Name)
  | undefinedTarget (name : Name)
  | wrongArity (name : Option Name) (expected got : Nat)
  | notCallable (kind : String)
deriving DecidableEq

/-- The wording of a fault of a script. -/
def RuntimeFault.message : RuntimeFault → Text
  | undefinedVariable name => "undefined variable " ++ name
  | undefinedTarget name => "cannot assign to undefined variable " ++ name
  | wrongArity name expected got =>
    name.getD "function" ++ " expects " ++ Text.ofNat expected ++ " argument(s), got "
      ++ Text.ofNat got
  | notCallable kind => "cannot call " ++ Text.ofString kind

/-- How a call to the host fails for good. -/
inductive TransportFault
  | closed (method : Text)
  | lost (method : Text)
  | cancelled (method : Text)
deriving DecidableEq

/-- The wording of a transport fault. -/
def TransportFault.message : TransportFault → Text
  | closed method => "cannot reach host for " ++ method ++ ": transport closed"
  | lost method => "lost the host while waiting for " ++ method
  | cancelled method => method ++ ": request cancelled by host"

/-- Failures inside the interpreter's own functions. -/
inductive InternalFault
  | unencodable (fault : Utf8.EncodeFault)
  | numberOverflow
  | clientBroken (message : Text)
  | codecBroken (message : Text)
  | sleepRefused (message : Text)
  | retriesNotInteger (kind : String)
  | neverSent
deriving DecidableEq

/-- The wording of an internal failure. -/
def InternalFault.message : InternalFault → Text
  | unencodable fault => fault.message
  | numberOverflow => "int too large to convert to float"
  | clientBroken message => message
  | codecBroken message => message
  | sleepRefused message => message
  | retriesNotInteger kind =>
    "'" ++ Text.ofString kind ++ "' object cannot be interpreted as an integer"
  | neverSent => "cannot access local variable 'resp' where it is not associated with a value"

/-- How a run ends without a result. `endless` stands for runs that do not end within the bound on
iterations, or that wait for the host forever. -/
inductive Halt
  | fault (cause : RuntimeFault) (span : Option Span)
  | transport (cause : TransportFault)
  | internal (cause : InternalFault)
  | tooDeep
  | endless
deriving DecidableEq

/-! ## Runs -/

/-- What a run is given besides the world: the bound on nesting, the bound on the iterations of one
loop, whether the document functions turn excess nesting into an error value, and how and with what
HTTP requests are made. -/
structure Setup where
  depth : Nat
  iterations : Nat
  lenient : Bool
  http : HttpSettings
  platform : Platform

/-- A computation that changes a world and may halt. -/
abbrev Run (α : Type) := ExceptT Halt (StateM World) α

namespace Run

variable {α : Type}

/-- Ends the run. -/
def halt (h : Halt) : Run α := throw h

/-- The heap as it is. -/
def heap : Run Heap := return (← get).heap

/-- Changes the heap. -/
def onHeap (f : Heap → α × Heap) : Run α :=
  modifyGet fun ⟨scopes, heap, closures, events, link, replies⟩ =>
    let (result, heap) := f heap
    (result, ⟨scopes, heap, closures, events, link, replies⟩)

/-- Notes that something happened. -/
def note (e : Event) : Run Unit := modify fun w => { w with events := w.events.push e }

/-- Writes to the log. -/
def log (level : LogLevel) (logger : String) (message : Text) : Run Unit :=
  note (.logged ⟨level, logger, message⟩)

end Run

namespace World

/-- The output among some events. -/
def printed (events : List Event) : Text :=
  events.flatMap fun
    | .printed t => t
    | _ => []

/-- The log records among some events. -/
def records (events : List Event) : List LogRecord :=
  events.filterMap fun
    | .logged r => some r
    | _ => none

/-- The calls of the host among some events. -/
def hostCalls (events : List Event) : List HostCall :=
  events.filterMap fun
    | .called c => some c
    | _ => none

end World

end HostScript
