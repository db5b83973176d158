import Std.Time.DateTime.Timestamp
import Sift.Command.Run

/-!
# The program

The command line on a disk, a console and a clock: reads what a command can see, and does what it
says.
-/

namespace Sift

/-- The file error of an error of the operating system. -/
def FileError.ofSystem : IO.Error → FileError
  | .noFileOrDirectory .. => .missing
  | .alreadyExists .. => .occupied
  | .inappropriateType _ code details =>
    if code = 20 then .notFolder else if code = 21 then .isFolder else .other details
  | e => .other (toString e)

/-- The text of a file on the disk. -/
def readDisk (path : String) : BaseIO (Except FileError String) := do
  match ← (IO.FS.readFile path).toBaseIO with
  | .ok text => return .ok text
  | .error e => return .error (.ofSystem e)

/-- Writes a file on the disk, after the folders on its way have been made. -/
def writeDisk (path text : String) : BaseIO (Except FileError Unit) := do
  let write : IO Unit := do
    let parent := "/".intercalate (Directory.parentParts path)
    unless parent.isEmpty do
      IO.FS.createDirAll (if path.startsWith "/" then "/" ++ parent else parent)
    IO.FS.writeFile path text
  match ← write.toBaseIO with
  | .ok () => return .ok ()
  | .error e => return .error (.ofSystem e)

/-- The present instant. -/
def presentInstant : IO Time.Instant := do
  let nanos : Int := (← Std.Time.Timestamp.now).toNanosecondsSinceUnixEpoch.val
  return ⟨nanos / 1000000000, ⟨(nanos % 1000000000).toNat, by omega⟩⟩

/-- The environment variables that the program looks at. -/
def environmentNames : List String :=
  ["FILTERQL_MAPPING", "FILTERQL_TIME_ZONE", "FILTERQL_SIZE", "FILTERQL_LOG_LEVEL",
   "FILTERQL_LOG_FORMAT", "XDG_CONFIG_HOME", "HOME"]

/-- The values of those variables. -/
def presentEnvironment : BaseIO Environment := do
  let values ← environmentNames.filterMapM fun name => do
    return (← IO.getEnv name).map (Prod.mk name)
  return fun name => values.lookup name

/-- A reader of the given files, read beforehand. -/
def readBeforehand (paths : List String) : BaseIO FileReader := do
  let files ← paths.mapM fun path => do
    return (path, ← readDisk path)
  return fun path => (files.lookup path).getD (.error .missing)

/-- Everything a command can see. -/
def surroundingsOf (i : Invocation) : IO Surroundings := do
  let env ← presentEnvironment
  let now ← presentInstant
  let settingsPaths := i.settingsPaths env
  let s : Surroundings := ⟨env, ← readBeforehand settingsPaths, now⟩
  match i.settings s with
  | .error _ => return s
  | .ok settings =>
    let read ← readBeforehand (settingsPaths ++ (i.mappingFile? settings).toList)
    return { s with read }

/-- Answers the lines of a stream until it ends or a line tells to quit. -/
partial def converse (engine : Engine) (input output : IO.FS.Stream) : IO Unit := do
  output.putStr Console.prompt
  output.flush
  let line ← input.getLine
  unless line.isEmpty do
    match Console.answer? engine (← presentInstant) line with
    | none => pure ()
    | some text =>
      output.putStr text
      converse engine input output

/-- Prints the output and the error of a run, and gives its exit code. -/
def report (o : Outcome) : IO UInt32 := do
  IO.print o.output
  if let some message := o.failure then
    IO.eprintln ("Error: " ++ message)
  return o.code.toUInt32

/-- Does what a command does. -/
def perform : Effect → IO UInt32
  | .finish o => report o
  | .save path text => do report (.ofSaving path (← writeDisk path text))
  | .converse engine => do
    IO.print Console.greeting
    converse engine (← IO.getStdin) (← IO.getStdout)
    return 0

end Sift

/-- Runs the program. -/
def main (args : List String) : IO UInt32 := do
  match Sift.Arguments.read args with
  | .run i => Sift.perform (i.effect (← Sift.surroundingsOf i))
  | intent => Sift.report intent.outcome
