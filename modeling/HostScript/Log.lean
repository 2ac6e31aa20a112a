import HostScript.Text.CodePoint

/-!
# Log records

What the interpreter and its host report besides the output of scripts.
-/

namespace HostScript

/-- How urgent a record is. -/
inductive LogLevel
  | debug
  | info
  | warning
  | error
deriving DecidableEq

/-- The name of a level. -/
def LogLevel.label : LogLevel → String
  | debug => "DEBUG"
  | info => "INFO"
  | warning => "WARNING"
  | error => "ERROR"

/-- Whether a record of this level is shown when details are left out. -/
def LogLevel.isNotable : LogLevel → Bool
  | debug => false
  | _ => true

/-- A line of the log, under the name of the part that reports. -/
structure LogRecord where
  level : LogLevel
  logger : String
  message : Text
deriving DecidableEq

/-- The name under which the host reports. -/
def LogRecord.hostLogger : String := "rsl.host"

/-- The name under which the link to the host reports. -/
def LogRecord.linkLogger : String := "rsl.rsl_rpc"

/-- The name under which HTTP requests are reported. -/
def LogRecord.httpLogger : String := "rsl.rsl_http"

/-- The name under which sessions report. -/
def LogRecord.sessionLogger : String := "rsl.rsl_runtime"

end HostScript
