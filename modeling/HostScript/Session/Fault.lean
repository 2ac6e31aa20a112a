import HostScript.Run.World
import HostScript.Session.Excerpt
import HostScript.Syntax.Parse
import HostScript.Syntax.Scan

/-!
# Faults of scripts

All the ways in which a script fails, with the messages that are reported for them. A message says
which stage failed and on which line; `report` adds an excerpt of the source.
-/

namespace HostScript

/-- Why a script failed. -/
inductive ScriptFault
  | scan (cause : ScanFault) (span : Span)
  | parse (cause : ParseFault) (span : Span)
  | runtime (cause : RuntimeFault) (span : Option Span)
  | tooDeep
  | internal (cause : InternalFault)

/-- A message with the kind of error that it belongs to, and the line that is blamed. -/
def errorText (kind : String) (message : Text) (span : Option Span) : Text :=
  Text.ofString kind ++ " error \"" ++ message ++ "\""
    ++ match span with
      | some span => " on line:" ++ Text.ofNat span.line
      | none => []

namespace ScriptFault

/-- The place that is blamed. -/
def span? : ScriptFault → Option Span
  | scan _ span => some span
  | parse _ span => some span
  | runtime _ span => span
  | tooDeep => none
  | internal _ => none

/-- The message of a fault. -/
def message : ScriptFault → Text
  | scan cause span => errorText "scan" cause.message (some span)
  | parse cause span => errorText "parse" cause.message (some span)
  | runtime cause span => errorText "runtime" cause.message span
  | tooDeep => errorText "runtime" "maximum call depth exceeded" none
  | internal cause => "internal error: " ++ cause.message

end ScriptFault

/-- A message with an excerpt of the source below it, if the place is known and in the source. -/
def report (message : Text) (span : Option Span) (source : Text) :
    Except Utf8.EncodeFault Text :=
  match span with
  | none => .ok message
  | some span =>
    if source.isEmpty then .ok message
    else (excerpt source span).map fun
      | some rows => message ++ "\n" ++ rows
      | none => message

/-- The report of a fault in a source. -/
def ScriptFault.report (fault : ScriptFault) (source : Text) : Text :=
  match HostScript.report fault.message fault.span? source with
  | .ok t => t
  | .error _ => fault.message

/-- The statements of a source. -/
def compile (depth : Nat) (source : Text) : Except ScriptFault (List Stmt) :=
  match scan source with
  | .error (.fault cause span) => .error (.scan cause span)
  | .error (.unencodable fault) => .error (.internal (.unencodable fault))
  | .ok tokens =>
    match parse depth tokens with
    | .error (.fault cause span) => .error (.parse cause span)
    | .error .tooDeep => .error .tooDeep
    | .ok statements => .ok statements

end HostScript
