import Sift.Files.Error
import Sift.Options.Basic
import Sift.Text.Quoted
import Sift.Toml.Reader

/-!
# Settings

Settings come from a TOML file in three sections, and from environment variables that override it.
Without a file of its own the program takes the first file of a search path that can be read.

* `Settings.ofText?`: the settings of a file.
* `Settings.override`: environment variables.
* `Settings.load`, `Settings.loadDefault`: a given file, and the search path.
-/

namespace Sift

open Toml (Value)

/-- The settings of the program. -/
structure Settings where
  mappingPath : Option String := none
  /-- The options a request starts from. -/
  defaults : Options := {}
  logLevel : String := "warn"
  logFormat : String := "pretty"
deriving Repr

/-- Why settings could not be loaded. -/
inductive SettingsError where
  | unreadable (path : String) (cause : FileError)
  | malformed (path : String)
deriving Repr, DecidableEq

/-- The error in words. -/
def SettingsError.message : SettingsError → String
  | .unreadable path cause => s!"Failed to read config file {Text.quoted path}: {cause.message}"
  | .malformed path => s!"Failed to parse config file {Text.quoted path}"

/-- Values of environment variables. -/
abbrev Environment := String → Option String

namespace Settings

/-- The settings when nothing is set. -/
def default : Settings := {}

/-! ### Sections of a file -/

/-- A part of a section by its key and its position. -/
abbrev Parts := String → Nat → Option Value

/-- A section is a table, or an array of its parts in order. A date in its place has none of the
parts. -/
def parts? : Value → Option Parts
  | .table fields => some fun key _ => fields.lookup key
  | .array items => some fun _ i => items[i]?
  | .datetime => some fun _ _ => none
  | _ => none

/-- The text of a string. -/
def text? : Value → Option String
  | .string s => some s
  | _ => none

/-- A whole number. -/
def integer? : Value → Option Int
  | .integer n => some n
  | _ => none

/-- Whether a value is a table or an array with nothing in it. -/
def isHollow : Value → Bool
  | .table [] => true
  | .array [] => true
  | _ => false

/-- A shape of documents: its name, or a table whose one key is the name, with nothing under it. -/
def queryType? : Value → Option QueryType
  | .string s => QueryType.ofName? s
  | .table [(s, v)] => if isHollow v then QueryType.ofName? s else none
  | _ => none

/-- A part that may be missing and then takes a default. -/
def part? {α : Type} (read : Value → Option α) (fallback : α) : Option Value → Option α
  | some v => read v
  | none => some fallback

/-- The options of the section `defaults`. -/
def options? (parts : Parts) : Option Options := do
  let o : Options := {}
  let queryType ← part? queryType? o.queryType (parts "query_type" 0)
  let aggregationType ← part? (some <$> text? ·) o.aggregationType (parts "aggregation_type" 1)
  let aggregationField ← part? (some <$> text? ·) o.aggregationField (parts "aggregation_field" 2)
  let fixedInterval ← part? text? o.fixedInterval (parts "fixed_interval" 3)
  let histogramInterval ← part? integer? o.histogramInterval (parts "histogram_interval" 4)
  let size ← part? integer? o.size (parts "size" 5)
  let timeZone ← part? text? o.timeZone (parts "time_zone" 6)
  return ⟨queryType, aggregationType, aggregationField, fixedInterval, histogramInterval, size,
    timeZone⟩

/-- The mapping path of the section `catalog`; an array has to hold it. -/
def mappingPath? : Value → Option (Option String)
  | .array [] => none
  | v => do part? (some <$> text? ·) none ((← parts? v) "mapping_path" 0)

/-- The two parts of the section `logging`. -/
def logging? (parts : Parts) : Option (String × String) := do
  let level ← part? text? default.logLevel (parts "level" 0)
  let format ← part? text? default.logFormat (parts "format" 1)
  return (level, format)

/-- The settings of a table. Every section may be missing, and other keys are ignored. -/
def ofTable? (table : Toml.Table) : Option Settings := do
  let mappingPath ← part? mappingPath? none (table.lookup "catalog")
  let defaults ← part? (fun v => do options? (← parts? v)) {} (table.lookup "defaults")
  let (level, format) ← part? (fun v => do logging? (← parts? v))
    (default.logLevel, default.logFormat) (table.lookup "logging")
  return ⟨mappingPath, defaults, level, format⟩

/-- The settings written in a text. -/
def ofText? (text : String) : Option Settings := (Toml.read? text).bind ofTable?

/-! ### Environment variables -/

/-- Sets the number of hits, if the text is a number. -/
def withSize (s : Settings) (text : String) : Settings :=
  match Text.readInt64? text with
  | some n => { s with defaults := { s.defaults with size := n } }
  | none => s

/-- The settings with a change made for a variable that is set. -/
def overrideBy (env : Environment) (name : String) (change : Settings → String → Settings)
    (s : Settings) : Settings :=
  match env name with
  | some text => change s text
  | none => s

/-- The settings with environment variables in force. -/
def override (env : Environment) (s : Settings) : Settings :=
  s |> overrideBy env "FILTERQL_MAPPING" (fun s path => { s with mappingPath := some path })
    |> overrideBy env "FILTERQL_TIME_ZONE"
      (fun s zone => { s with defaults := { s.defaults with timeZone := zone } })
    |> overrideBy env "FILTERQL_SIZE" withSize
    |> overrideBy env "FILTERQL_LOG_LEVEL" (fun s level => { s with logLevel := level })
    |> overrideBy env "FILTERQL_LOG_FORMAT" (fun s format => { s with logFormat := format })

/-- The settings of the environment alone. -/
def ofEnvironment (env : Environment) : Settings := override env default

/-! ### Files -/

/-- The settings of a file. -/
def load (read : FileReader) (path : String) : Except SettingsError Settings :=
  match read path with
  | .error cause => .error (.unreadable path cause)
  | .ok text =>
    match ofText? text with
    | some s => .ok s
    | none => .error (.malformed path)

/-- The settings of a file with environment variables in force. -/
def loadWith (env : Environment) (read : FileReader) (path : String) :
    Except SettingsError Settings :=
  (load read path).map (override env)

/-- The user's folder of settings, as far as variables tell it. Where `HOME` is not set or empty
there is none: the folder that the system has on record for the user is left out. -/
def userFolder? (env : Environment) : Option String :=
  match (env "XDG_CONFIG_HOME").filter (·.startsWith "/") with
  | some folder => some folder
  | none => ((env "HOME").filter (!·.isEmpty)).map (· ++ "/.config")

/-- The files that are looked for, in order. -/
def searchPath (env : Environment) : List String :=
  ((userFolder? env).map (· ++ "/filterql/config.toml")).toList ++
    ["/etc/filterql/config.toml", "./config.toml"]

/-- The settings of the first file in the list that can be loaded. -/
def firstLoaded? (env : Environment) (read : FileReader) (paths : List String) : Option Settings :=
  paths.findSome? fun path => (loadWith env read path).toOption

/-- The settings of the first file of the search path that can be loaded, else of the environment
alone. -/
def loadDefault (env : Environment) (read : FileReader) : Settings :=
  (firstLoaded? env read (searchPath env)).getD (ofEnvironment env)

/-- A file that sets every setting to its default. -/
def template : String :=
  "# filterql configuration
#
# Environment variables override these settings:
# - FILTERQL_MAPPING
# - FILTERQL_TIME_ZONE
# - FILTERQL_SIZE
# - FILTERQL_LOG_LEVEL
# - FILTERQL_LOG_FORMAT

[catalog]
# Index mapping document the field catalog is read from
# mapping_path = \"/etc/filterql/mapping.json\"

[defaults]
# Document shape: search, count or aggregation
query_type = \"search\"

# Bucket width for date_histogram aggregations
fixed_interval = \"1d\"

# Bucket width for histogram aggregations
histogram_interval = 10

# Number of hits returned by search queries
size = 10

# Zone for date literals: Z or +HH:MM / -HH:MM
time_zone = \"Z\"

[logging]
# Log level: trace, debug, info, warn, error
level = \"warn\"

# Log format: pretty (for development) or json (for production)
format = \"pretty\"
"

end Settings

end Sift
