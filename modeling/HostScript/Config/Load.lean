import HostScript.Config.Basic
import HostScript.Text.Category

/-!
# Loading configurations

Settings come from a file, if there is one, and then from the variables of the environment. Both
write into one dictionary of settings, so a variable takes the place of a key of the same spelling.
What the text of a file says is up to the library that reads it (`SettingsReader`).
-/

namespace HostScript

/-- A library that reads settings files: what it makes of a text. The keys of mappings stand as their
texts. -/
abbrev SettingsReader := Text → Except ReadFault Setting

namespace Config

/-- The words that switch a variable on. -/
def onWords : List String := ["1", "true", "yes", "on"]

/-- Whether a variable is switched on. -/
def isOnWord (t : Text) : Bool :=
  let word := t.trim.toLower
  onWords.any fun known => Text.ofString known = word

/-- The settings with those of the environment written over them. -/
def withEnvironment (environment : Dict Text) (settings : Dict Setting) :
    Except ConfigFault (Dict Setting) :=
  let settings := match environment.get? "RSL_DEBUG" with
    | some t => settings.put "debug" (.boolean (isOnWord t))
    | none => settings
  match environment.get? "RSL_HTTP_TIMEOUT" with
  | some t =>
    match Number.float? t with
    | some x => .ok (settings.put "http_timeout" (.number x))
    | none => .error (.timeoutNotNumber t)
  | none => .ok settings

/-- The settings of a file with the given name and text. -/
def readSettings (read : SettingsReader) (name text : Text) : Except ConfigFault (Dict Setting) :=
  match read text with
  | .error fault => .error (.unreadable fault)
  | .ok .null => .ok .empty
  | .ok (.mapping entries) => .ok (.ofList entries)
  | .ok _ => .error (.notAMapping name)

/-- The configuration of a file, given by its name and text, and the environment. -/
def load (read : SettingsReader) (accounts : Accounts) (file : Option (Text × Text))
    (environment : Dict Text) : Except ConfigFault Config := do
  let settings ← match file with
    | some (name, text) => readSettings read name text
    | none => .ok .empty
  ofSettings accounts (← withEnvironment environment settings)

end Config

end HostScript
