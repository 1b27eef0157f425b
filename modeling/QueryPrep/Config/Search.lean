import QueryPrep.Config.Reading
import QueryPrep.Files
import QueryPrep.Text.Printable

/-!
# Finding the settings

A settings file that is asked for must be usable. Otherwise the first usable one of three candidates
counts, and an unusable candidate is passed over; without any, the standard settings do. Either way
the environment has the last word: five of its variables take precedence over the settings of a
file, each looked at by itself, and one that is unset or makes no sense leaves its setting alone.
-/

namespace QueryPrep

/-- The values of the variables that are set. -/
abbrev Environment := String → Option String

namespace Environment

/-- The environment with the given variables. -/
def ofList (pairs : List (String × String)) : Environment := fun name =>
  pairs.lookup name

/-- A number below a limit: digits, and a plus sign if one likes. -/
def number? (env : Environment) (name : String) (limit : Nat) : Option Nat := do
  let n ← Decimal.readUnsigned? (← env name).toList
  if n < limit then some n else none

/-- The settings with what the environment says instead. -/
def override (env : Environment) (s : Settings) : Settings where
  cap := (env.number? "QUERYSPLIT_MAX_CHUNK_COUNT" UInt64.size).getD s.cap
  service := { s.service with
    host := (env "QUERYSPLIT_API_HOST").getD s.service.host
    port := (env.number? "QUERYSPLIT_API_PORT" UInt16.size).getD s.service.port }
  logging := { s.logging with
    level := (env "QUERYSPLIT_LOG_LEVEL").getD s.logging.level
    format := ((env "QUERYSPLIT_LOG_FORMAT").bind LogFormat.ofAnyCase?).getD s.logging.format }

end Environment

inductive SettingsError where
  /-- The file at a path cannot be read. -/
  | unreadable (path : String) (cause : FileError)
  /-- The file at a path does not hold settings. -/
  | malformed (path : String)
  /-- A text is no log format. -/
  | noFormat (text : String)
deriving DecidableEq, Repr

namespace SettingsError

def message : SettingsError → String
  | unreadable path cause =>
    "Failed to read config file " ++ Text.quote path ++ ": " ++ cause.message
  | malformed path => "Failed to parse config file " ++ Text.quote path
  | noFormat text => "Invalid value for logging.format: " ++ text

end SettingsError

/-- The log format with a name, in any mixture of capital and small letters. -/
def LogFormat.parse (text : String) : Except SettingsError LogFormat :=
  match LogFormat.ofAnyCase? text with
  | some f => .ok f
  | none => .error (.noFormat text)

namespace Settings

/-- The settings of the file at a path. -/
def load (t : FileTree) (path : String) : Except SettingsError Settings :=
  match t.readText path with
  | .error e => .error (.unreadable path e)
  | .ok text =>
    match parse text with
    | some s => .ok s
    | none => .error (.malformed path)

/-- The settings of the file at a path, with what the environment says instead. -/
def loadWith (t : FileTree) (env : Environment) (path : String) : Except SettingsError Settings :=
  (load t path).map env.override

/-- Where settings are looked for: below the user's directory for settings, if there is one, then
for the whole system, then in the working directory. -/
def candidates (home : Option String) : List String :=
  (home.map fun dir => dir ++ "/querysplit/config.toml").toList ++
    ["/etc/querysplit/config.toml", "./config.toml"]

/-- The settings of the first usable candidate, or the standard ones. -/
def search (t : FileTree) (env : Environment) (home : Option String) : Settings :=
  ((candidates home).findSome? fun path => (loadWith t env path).toOption).getD
    (env.override .standard)

end Settings

end QueryPrep
