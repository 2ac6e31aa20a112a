import HostScript.Host.Basic

/-!
# Hosts given by tables

A host that is described by what each of its handlers does. It stands in for an application when
scripts are tried out.
-/

namespace HostScript

/-- How a handler ends that is described by a table. -/
inductive Ending
  | cancelled
  | raises (kind message : Text)
  | gives (result : Json)
  | unserializable
  | echo
  | sequence (results : List Json)
  | silent
  | stopsLoop

/-- What a handler does: whether it is offered to scripts, whether it closes the link first, and how
it ends. -/
structure Behavior where
  offered : Bool
  closes : Bool
  ending : Ending

namespace Behavior

/-- The text of an exception. The one for missing keys quotes its message. -/
def exceptionText (kind message : Text) : Text :=
  if kind = "KeyError" then message.quoted else message

/-- How a handler ends when it is called after other calls. -/
def outcome (earlier : List HostCall) (call : HostCall) : Ending → Outcome
  | .cancelled => .cancelled
  | .raises kind message => .raises kind (exceptionText kind message)
  | .gives result => .returns result
  | .unserializable => .unserializable "Object of type object is not JSON serializable"
  | .echo => .returns (.string (call.name ++ (Json.array call.parameters).write .ascii))
  | .sequence results =>
    let before := (earlier.filter fun other => other.name = call.name).length
    .returns (results[min before (results.length - 1)]?.getD .null)
  | .silent => .silent
  | .stopsLoop => .stopsLoop

/-- The host of a table. -/
def host (table : Dict Behavior) : Host :=
  { offers := fun name =>
      match table.get? name with
      | some b => b.offered
      | none => name = Host.logName
    title := fun name => if table.has name then name ++ "()" else Host.logTitle
    respond := fun earlier call =>
      match table.get? call.name with
      | some b => ⟨[], b.closes, outcome earlier call b.ending⟩
      | none => Host.logReaction call.parameters }

/-- The names under which the host of a table offers handlers, in order. -/
def offeredNames (table : Dict Behavior) : List Text :=
  let own := table.entries.filterMap fun (name, b) => if b.offered then some name else none
  let all := if table.has Host.logName then own else Host.logName :: own
  all.mergeSort fun a b => !Text.before b a

/-- The calls that a table has handlers for. -/
def recorded (table : Dict Behavior) (calls : List HostCall) : List HostCall :=
  calls.filter fun call => table.has call.name

end Behavior

end HostScript
