import Sift.Json.Printer
import Sift.Report

/-!
# The console

The console reads requests line by line and answers each, until it is told to quit or its input
ends.

* `Console.answer?`: the answer to a line.
* `Console.transcript`: everything the console prints for a whole input.
-/

namespace Sift.Console

/-- The first line. -/
def greeting : String := "Enter a filter, or 'quit' to exit.\n"

/-- What stands before each line of input. -/
def prompt : String := "filterql> "

/-- A compiled request, or the code and the message of its error. -/
def answerTo (result : QueryResult Compiled) : String :=
  match result with
  | .ok c => c.report.toJson.pretty ++ "\n"
  | .error e => s!"Error Code: {e.code}\nMessage: {e.message}\n"

/-- The answer to a line, or nothing more if the line tells to quit. A blank line has an empty
answer. -/
def answer? (engine : Engine) (now : Time.Instant) (line : String) : Option String :=
  let input := Text.trimmed line
  if sameLetters input "quit" then none
  else if input.isEmpty then some ""
  else some (answerTo (engine.compile now input))

/-- The lines of an input; the text after the last line break is a line if it is not empty. -/
def linesOf (input : String) : List String :=
  let pieces := (Text.splitOnChar '\n' input.toList).map String.ofList
  if pieces.getLast? = some "" then pieces.dropLast else pieces

/-- What is printed for the lines that are left. -/
def answers (engine : Engine) (now : Time.Instant) : List String → String
  | [] => prompt
  | line :: rest =>
    match answer? engine now line with
    | none => prompt
    | some text => prompt ++ text ++ answers engine now rest

/-- Everything the console prints for an input. -/
def transcript (engine : Engine) (now : Time.Instant) (input : String) : String :=
  greeting ++ answers engine now (linesOf input)

end Sift.Console
