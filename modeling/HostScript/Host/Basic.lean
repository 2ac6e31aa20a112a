import HostScript.Json.Basic
import HostScript.Log

/-!
# Hosts

A host offers handlers under names. How a handler reacts to a call may depend on all calls before
it, so a host is a function of the history. Every host has a handler that writes to the log, unless
it brings its own.
-/

namespace HostScript

/-- A call of a handler. -/
structure HostCall where
  name : Text
  parameters : List Json

/-- How a handler ends. -/
inductive Outcome
  | returns (result : Json)
  | unserializable (reason : Text)
  | raises (kind message : Text)
  | cancelled
  | silent
  | stopsLoop

/-- What a handler does: what it logs, whether it closes the link to the scripts, and how it
ends. -/
structure Reaction where
  records : List LogRecord
  closes : Bool
  outcome : Outcome

/-- A host: the names under which it offers handlers, how messages speak of a handler, and what a
handler does when it is called after other calls. -/
structure Host where
  offers : Text → Bool
  title : Text → Text
  respond : (earlier : List HostCall) → HostCall → Reaction

namespace Host

/-- The name of the handler that every host has. -/
def logName : Text := "rlog"

/-- How messages speak of the log handler. -/
def logTitle : Text := "rsl.rsl_rpc.RSLHost.rlog()"

/-- A reaction that only ends. -/
def Reaction.plain (outcome : Outcome) : Reaction := ⟨[], false, outcome⟩

/-- The log handler, which takes one parameter. -/
def logReaction : List Json → Reaction
  | [message] =>
    ⟨[⟨.info, LogRecord.hostLogger, message.shown⟩], false, .returns .null⟩
  | [] =>
    Reaction.plain
      (.raises "TypeError" "RSLHost.rlog() missing 1 required positional argument: 'message'")
  | parameters =>
    Reaction.plain (.raises "TypeError"
      ("RSLHost.rlog() takes 2 positional arguments but " ++ Text.ofNat (parameters.length + 1)
        ++ " were given"))

/-- A host that offers nothing but the log. -/
def bare : Host := ⟨(· = logName), fun _ => logTitle, fun _ call => logReaction call.parameters⟩

end Host

end HostScript
