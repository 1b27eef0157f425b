import QueryPrep.Split.Layout
import QueryPrep.Text.Numeral

/-!
# Settings

What can be configured: the cap on chunks, the address and the time limit of the service, and what
is logged where. Every setting has a value when nothing is said about it, and `Settings.sample` is a
settings file that spells these values out. The version of the program is the one thing that is told
and cannot be set.
-/

namespace QueryPrep

/-- The version of the program, which the command line prints on request and the service tells with
its health. -/
def version : String := "0.1.0"

/-- How log lines are written. -/
inductive LogFormat where
  /-- For people to read. -/
  | pretty
  /-- One JSON object per line. -/
  | json
deriving DecidableEq, Repr

namespace LogFormat

def name : LogFormat → String
  | pretty => "pretty"
  | json => "json"

/-- The format with a name. -/
def ofName? (s : String) : Option LogFormat :=
  [pretty, json].find? (·.name = s)

/-- The format with a name in any mixture of capital and small letters. -/
def ofAnyCase? (s : String) : Option LogFormat :=
  ofName? s.toLower

theorem ofName?_name (f : LogFormat) : ofName? f.name = some f := by
  cases f <;> decide

end LogFormat

structure ServiceSettings where
  host : String
  port : Nat
  /-- How many seconds a request may take. -/
  timeout : Nat
deriving DecidableEq, Repr

namespace ServiceSettings

/-- Where the service listens. -/
def address (s : ServiceSettings) : String :=
  s.host ++ ":" ++ Decimal.render s.port

def standard : ServiceSettings where
  host := "0.0.0.0"
  port := 8085
  timeout := 30

end ServiceSettings

structure LogSettings where
  /-- A filter on log events; in the simplest case the name of a level. -/
  level : String
  format : LogFormat
  /-- The file to write to; without one it is the standard error output. -/
  file : Option String
deriving DecidableEq, Repr

namespace LogSettings

def standard : LogSettings where
  level := "info"
  format := .pretty
  file := none

end LogSettings

structure Settings where
  /-- The cap on the number of chunks. -/
  cap : Nat
  service : ServiceSettings
  logging : LogSettings
deriving DecidableEq, Repr

namespace Settings

/-- The settings when nothing is said. -/
def standard : Settings where
  cap := defaultCap
  service := .standard
  logging := .standard

/-- A settings file with the standard settings and comments on them. -/
def sample : String :=
"# Querysplit Configuration
#
# Environment variables override these settings:
# - QUERYSPLIT_MAX_CHUNK_COUNT
# - QUERYSPLIT_API_HOST
# - QUERYSPLIT_API_PORT
# - QUERYSPLIT_LOG_LEVEL
# - QUERYSPLIT_LOG_FORMAT

[split]
# Requests that would produce more chunks than this are refused
max_chunk_count = 50

[api]
# API server host
host = \"0.0.0.0\"

# API server port
port = 8085

# Request timeout in seconds
request_timeout_secs = 30

[logging]
# Log level: trace, debug, info, warn, error
level = \"info\"

# Log format: pretty (for development) or json (for production)
format = \"pretty\"

# Optional log file path
# file = \"/var/log/querysplit/querysplit.log\"
"

end Settings

end QueryPrep
