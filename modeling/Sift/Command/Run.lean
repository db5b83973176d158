import Sift.Command.Arguments
import Sift.Command.Console
import Sift.Field.Mapping
import Sift.Files.Directory
import Sift.Settings

/-!
# Running commands

A command sees its surroundings as values: environment variables, files to read and the present
instant. What it does is a value too, so that the same command runs on a disk and on a directory in
memory.

* `Surroundings`: what a command sees.
* `Invocation.effect`: what a command does.
* `runIn`: a whole run on a directory in memory.
-/

namespace Sift

/-- What a command sees. -/
structure Surroundings where
  env : Environment
  read : FileReader
  now : Time.Instant

/-- How a run ends: its exit code, its output, and the error it failed with. -/
structure Outcome where
  code : Nat
  output : String
  failure : Option String
deriving Repr, DecidableEq

namespace Outcome

/-- A run that succeeds. -/
def success (output : String) : Outcome := ⟨0, output, none⟩

/-- A run that fails without output. -/
def fail (message : String) : Outcome := ⟨1, "", some message⟩

/-- The end of a run that has written a file, or failed to. -/
def ofSaving (path : String) : Except FileError Unit → Outcome
  | .ok () => success s!"Config written to {Text.quoted path}\n"
  | .error e => fail e.message

end Outcome

/-- What a command does. -/
inductive Effect where
  /-- It ends. -/
  | finish (outcome : Outcome)
  /-- It writes a file and ends. -/
  | save (path text : String)
  /-- It answers requests on the console. -/
  | converse (engine : Engine)

/-- The text padded with spaces to a width. -/
def padRight (width : Nat) (s : String) : String :=
  s ++ String.ofList (List.replicate (width - s.length) ' ')

/-- One line of the listing of fields. -/
def fieldLine (path type indexed : String) : String :=
  padRight 40 path ++ " " ++ padRight 14 type ++ " " ++ indexed ++ "\n"

/-- The listing of fields. -/
def Catalog.listing (c : Catalog) : String :=
  let rows := c.fields.map fun (path, e) =>
    fieldLine path (e.declared.getD "-") (if e.indexed then "yes" else "no")
  fieldLine "Field" "Type" "Indexed" ++ String.ofList (List.replicate 62 '-') ++ "\n" ++
    String.join rows

/-- The catalog of the mapping file in force. -/
def loadCatalog (read : FileReader) : Option String → Except Outcome Catalog
  | none => .error (.fail "No mapping configured; pass --mapping or set FILTERQL_MAPPING")
  | some path =>
    match Mapping.load read path with
    | .ok c => .ok c
    | .error _ => .error (.fail s!"Failed to load mapping {Text.quoted path}")

/-- The end of a run that compiles one request. -/
def outcomeOf : QueryResult Compiled → Outcome
  | .ok c => .success (c.report.toJson.pretty ++ "\n")
  | .error e => ⟨1, e.toJson.pretty ++ "\n", none⟩

namespace Invocation

/-- The settings in force: those of the given file, or of the search path. -/
def settings (i : Invocation) (s : Surroundings) : Except Outcome Settings :=
  match i.configPath with
  | some path => (Settings.loadWith s.env s.read path).mapError fun e => .fail e.message
  | none => .ok (Settings.loadDefault s.env s.read)

/-- The files that settings are looked for in. -/
def settingsPaths (i : Invocation) (env : Environment) : List String :=
  match i.configPath with
  | some path => [path]
  | none => Settings.searchPath env

/-- The mapping file in force. -/
def mappingFile? (i : Invocation) (settings : Settings) : Option String :=
  i.mappingPath.or settings.mappingPath

/-- What the command does with the settings in force. -/
def effectWith (i : Invocation) (s : Surroundings) (settings : Settings) : Except Outcome Effect :=
  let catalog := loadCatalog s.read (i.mappingFile? settings)
  let engine : Except Outcome Engine := catalog.map fun c => ⟨c.lookup, settings.defaults⟩
  match i.command with
  | .compile input => engine.map fun e => .finish (outcomeOf (e.compile s.now input))
  | .repl => engine.map .converse
  | .fields => catalog.map fun c => .finish (.success c.listing)
  | .config none => .ok (.finish (.success Settings.template))
  | .config (some path) => .ok (.save path Settings.template)

/-- What the command does. -/
def effect (i : Invocation) (s : Surroundings) : Effect :=
  match i.settings s >>= i.effectWith s with
  | .ok e => e
  | .error o => .finish o

end Invocation

/-- The name and the version of the program. -/
def versionLine : String := "filterql 0.1.0\n"

/-- How the program is used. -/
def usageText : String :=
  "Compile filter expressions into search-engine query documents\n\n" ++
    "Usage: filterql [OPTIONS] <compile INPUT | repl | fields | config [-o PATH]>\n\n" ++
    "Options:\n  -c, --config <CONFIG>\n  -m, --mapping <MAPPING>\n  -h, --help\n  -V, --version\n"

/-- The end of a run that has no command to run. -/
def Intent.outcome : Intent → Outcome
  | .run _ => .success ""
  | .version => .success versionLine
  | .help => .success usageText
  | .usage => ⟨2, "", none⟩

/-- What the program does for its arguments. -/
def effectOf (s : Surroundings) (args : List String) : Effect :=
  match Arguments.read args with
  | .run i => i.effect s
  | intent => .finish intent.outcome

/-- A whole run on a directory in memory, with the text of its input. -/
def runIn (d : Directory) (env : Environment) (now : Time.Instant) (input : String)
    (args : List String) :
    Outcome × Directory :=
  match effectOf ⟨env, d.read, now⟩ args with
  | .finish o => (o, d)
  | .converse engine => (.success (Console.transcript engine now input), d)
  | .save path text =>
    match d.write path text with
    | .ok d => (.ofSaving path (.ok ()), d)
    | .error e => (.ofSaving path (.error e), d)

end Sift
