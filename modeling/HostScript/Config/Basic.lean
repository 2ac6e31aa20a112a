import HostScript.Config.Path
import HostScript.Http.Basic
import HostScript.Number.Numeral
import HostScript.Text.LowerCase
import HostScript.Text.Printable

/-!
# Configurations

Settings come under names that may be written with a minus for each underscore. A configuration is
made of all of them at once (`Config.ofSettings`), and only one that passes `validate` is handed
out. The kinds of settings are not checked beyond what validation compares.
-/

namespace HostScript

/-- A directory or file: the usual one, none, or one that was set. -/
inductive Location
  | usual
  | nowhere
  | at (p : Path)
deriving DecidableEq

/-- A configuration. -/
structure Config where
  workingDir : Location
  httpTimeout : Setting
  httpRetries : Setting
  followRedirects : Setting
  rpcTimeout : Setting
  bootstrap : Location
  loadBootstrap : Setting
  debug : Setting

/-- Why the library for settings files does not read a text: what kind of fault it raises, and with
which wording. -/
structure ReadFault where
  kind : String
  message : Text
deriving DecidableEq

/-- Why settings make no configuration. -/
inductive ConfigFault
  | unknownKey (key : Text)
  | notPositive (field : String)
  | negative (field : String)
  | notComparable (operator kind : String)
  | notAPath (kind : String)
  | pathOfBytes
  | noHome
  | timeoutNotNumber (t : Text)
  | notAMapping (file : Text)
  | unreadable (fault : ReadFault)
deriving DecidableEq

/-- The wording of why settings make no configuration. -/
def ConfigFault.message : ConfigFault → Text
  | unknownKey key => "unknown configuration key: " ++ key
  | notPositive field => Text.ofString field ++ " must be positive"
  | negative field => Text.ofString field ++ " must not be negative"
  | notComparable operator kind =>
    "'" ++ Text.ofString operator ++ "' not supported between instances of '" ++ Text.ofString kind
      ++ "' and 'int'"
  | notAPath kind => "expected str, bytes or os.PathLike object, not " ++ Text.ofString kind
  | pathOfBytes =>
    "argument should be a str object or an os.PathLike object returning str, not <class 'bytes'>"
  | noHome => "Could not determine home directory."
  | timeoutNotNumber t => "RSL_HTTP_TIMEOUT is not a number: " ++ t.quoted
  | notAMapping file => file ++ ": expected a mapping at the top level"
  | unreadable fault => fault.message

namespace Config

/-- The names of the settings. -/
def fieldNames : List String :=
  ["working_dir", "http_timeout", "http_retries", "follow_redirects", "rpc_timeout", "bootstrap",
    "load_bootstrap", "debug"]

/-- The configuration without settings. -/
def default : Config :=
  ⟨.usual, .number 5, .integer 0, .boolean true, .null, .usual, .boolean true, .boolean false⟩

/-- The name of the setting that a key writes. -/
def fieldOfKey (key : Text) : Text :=
  key.map fun c => if c = .scalar '-' then .scalar '_' else c

/-- Whether a name is one of a setting. -/
def isField (name : Text) : Bool := fieldNames.any fun field => Text.ofString field = name

/-- The settings under their names. Of two keys for one setting the later one counts. -/
def collect : List (Text × Setting) → Dict Setting → Except ConfigFault (Dict Setting)
  | [], found => .ok found
  | (key, value) :: rest, found =>
    let name := fieldOfKey key
    if isField name then collect rest (found.put name value) else .error (.unknownKey key)

/-- The location of a setting. -/
def location (accounts : Accounts) : Option Setting → Except ConfigFault Location
  | none => .ok .usual
  | some .null => .ok .nowhere
  | some (.string t) =>
    match (Path.ofText t).expandHome? accounts with
    | some p => .ok (.at p)
    | none => .error .noHome
  | some (.bytes _) => .error .pathOfBytes
  | some value => .error (.notAPath value.shortName)

/-- Checks that a setting is above zero. -/
def checkPositive (field : String) (value : Setting) : Except ConfigFault Unit :=
  match value.signOf? with
  | some (below, isZero) => if below || isZero then .error (.notPositive field) else .ok ()
  | none => .error (.notComparable "<=" value.kindName)

/-- Checks that a setting is not below zero. -/
def checkNotNegative (field : String) (value : Setting) : Except ConfigFault Unit :=
  match value.signOf? with
  | some (below, _) => if below then .error (.negative field) else .ok ()
  | none => .error (.notComparable "<" value.kindName)

/-- Checks the settings that have a range. -/
def validate (c : Config) : Except ConfigFault Unit := do
  checkPositive "http_timeout" c.httpTimeout
  checkNotNegative "http_retries" c.httpRetries
  match c.rpcTimeout with
  | .null => return ()
  | timeout => checkPositive "rpc_timeout" timeout

/-- The configuration with the given settings; what is not set is as in `default`. -/
def ofSettings (accounts : Accounts) (settings : Dict Setting) : Except ConfigFault Config := do
  let found ← collect settings.entries .empty
  let workingDir ← location accounts (found.get? "working_dir")
  let bootstrap ← location accounts (found.get? "bootstrap")
  let setting (name : Text) (usual : Setting) := (found.get? name).getD usual
  let config : Config :=
    { workingDir, bootstrap
      httpTimeout := setting "http_timeout" default.httpTimeout
      httpRetries := setting "http_retries" default.httpRetries
      followRedirects := setting "follow_redirects" default.followRedirects
      rpcTimeout := setting "rpc_timeout" default.rpcTimeout
      loadBootstrap := setting "load_bootstrap" default.loadBootstrap
      debug := setting "debug" default.debug }
  config.validate
  return config

/-- How requests are made under a configuration. -/
def http (c : Config) : HttpSettings :=
  { timeout := c.httpTimeout, retries := c.httpRetries, backoff := HttpSettings.default.backoff,
    followRedirects := c.followRedirects }

end Config

end HostScript
