/-!
# Command line arguments

The program takes one of four commands. Two options may stand before or after the command; after it
they count, whatever stands before. An option's value stands in the next argument, or in the same
argument behind an equals sign, or, for an option of one letter, directly behind the letter.

* `Invocation`: what is asked for.
* `Arguments.read`: what the arguments ask for.
-/

namespace Sift

/-- A command. -/
inductive Command where
  | compile (input : String)
  | repl
  | fields
  | config (output : Option String)
deriving Repr, DecidableEq

/-- A command with the options that all commands have. -/
structure Invocation where
  command : Command
  configPath : Option String
  mappingPath : Option String
deriving Repr, DecidableEq

/-- What the arguments ask for. -/
inductive Intent where
  | run (invocation : Invocation)
  | version
  | help
  /-- The arguments are not understood. -/
  | usage
deriving Repr, DecidableEq

namespace Arguments

/-- An option with a path as its value. -/
inductive Opt where
  | config
  | mapping
  | output
deriving Repr, DecidableEq

/-- The long name of an option. -/
def Opt.long : Opt → String
  | .config => "config"
  | .mapping => "mapping"
  | .output => "output"

/-- The letter of an option. -/
def Opt.letter : Opt → Char
  | .config => 'c'
  | .mapping => 'm'
  | .output => 'o'

/-- Where the arguments stand: before the command, or after it. -/
structure Level where
  options : List Opt
  hasVersion : Bool
  /-- How many arguments that are no options there may be. -/
  operands : Nat

/-- What has been read at a level. -/
structure Found where
  values : List (Opt × String) := []
  operands : List String := []
  /-- Whether everything from here on is no option. -/
  ended : Bool := false

/-- Why reading stops early. -/
inductive Stop where
  | version
  | help
  | usage
deriving Repr, DecidableEq

/-- Stopping early is itself an answer. -/
def Stop.intent : Stop → Intent
  | .version => .version
  | .help => .help
  | .usage => .usage

/-- What an argument is. -/
inductive Argument where
  /-- An option and its value, which stands in the next argument if it is missing here. -/
  | option (opt : Opt) (value : Option String)
  /-- The two dashes after which there are no options. -/
  | separator
  | operand (text : String)
deriving Repr, DecidableEq

/-- The value behind an equals sign, and the text before it. -/
def splitEquals (cs : List Char) : String × Option String :=
  let name := String.ofList (cs.takeWhile (· != '='))
  match cs.dropWhile (· != '=') with
  | [] => (name, none)
  | _ :: value => (name, some (String.ofList value))

/-- An argument behind two dashes. -/
def readLong (level : Level) (cs : List Char) : Except Stop Argument :=
  match splitEquals cs with
  | ("help", none) => .error .help
  | ("version", none) => .error (if level.hasVersion then .version else .usage)
  | (name, value) =>
    match level.options.find? (fun o => o.long == name) with
    | some opt => .ok (.option opt value)
    | none => .error .usage

/-- An argument behind one dash: a letter, and the value of its option if there is more. -/
def readShort (level : Level) (letter : Char) (rest : List Char) : Except Stop Argument :=
  if letter = 'h' then .error .help
  else if letter = 'V' then .error (if level.hasVersion then .version else .usage)
  else
    match level.options.find? (fun o => o.letter == letter), rest with
    | none, _ => .error .usage
    | some opt, [] => .ok (.option opt none)
    | some opt, '=' :: value => .ok (.option opt (some (String.ofList value)))
    | some opt, value => .ok (.option opt (some (String.ofList value)))

/-- What an argument is at a level. A single dash is no option. -/
def classify (level : Level) (arg : String) : Except Stop Argument :=
  match arg.toList with
  | ['-', '-'] => .ok .separator
  | '-' :: '-' :: cs => readLong level cs
  | ['-'] => .ok (.operand arg)
  | '-' :: letter :: rest => readShort level letter rest
  | _ => .ok (.operand arg)

/-- Records the value of an option, which must not be empty and not be given twice. -/
def Found.set (f : Found) (opt : Opt) (value : String) : Except Stop Found :=
  if value.isEmpty ∨ (f.values.lookup opt).isSome then .error .usage
  else .ok { f with values := (opt, value) :: f.values }

/-- Whether an argument can be the value of an option: it must not look like an option. -/
def isValue (arg : String) : Bool := arg == "-" || !arg.startsWith "-"

/-- Reads arguments at a level, up to the first that is no option if `stopsAtOperand`, and gives
what has been read and the arguments from there on. -/
def readLevel (level : Level) (stopsAtOperand : Bool) :
    Found → List String → Except Stop (Found × List String)
  | f, [] => .ok (f, [])
  | f, arg :: rest =>
    if f.ended then takeOperand f arg rest
    else
      match classify level arg with
      | .error stop => .error stop
      | .ok .separator => readLevel level stopsAtOperand { f with ended := true } rest
      | .ok (.operand text) =>
        if stopsAtOperand then .ok (f, text :: rest) else takeOperand f text rest
      | .ok (.option opt (some value)) =>
        match f.set opt value with
        | .error stop => .error stop
        | .ok f => readLevel level stopsAtOperand f rest
      | .ok (.option opt none) =>
        match rest with
        | [] => .error .usage
        | value :: rest =>
          if isValue value then
            match f.set opt value with
            | .error stop => .error stop
            | .ok f => readLevel level stopsAtOperand f rest
          else .error .usage
where
  /-- One more argument that is no option. -/
  takeOperand (f : Found) (arg : String) (rest : List String) : Except Stop (Found × List String) :=
    if f.operands.length < level.operands then
      readLevel level stopsAtOperand { f with operands := f.operands ++ [arg] } rest
    else .error .usage

/-- Before the command. -/
def top : Level := ⟨[.config, .mapping], true, 0⟩

/-- The words that name commands. -/
def commandNames : List String := ["compile", "repl", "fields", "config", "help"]

/-- After a command. -/
def levelOf? : String → Option Level
  | "compile" => some ⟨[.config, .mapping], false, 1⟩
  | "repl" => some ⟨[.config, .mapping], false, 0⟩
  | "fields" => some ⟨[.config, .mapping], false, 0⟩
  | "config" => some ⟨[.config, .mapping, .output], false, 0⟩
  | _ => none

/-- The command of a name with what has been read after it. -/
def command? (name : String) (f : Found) : Option Command :=
  match name, f.operands with
  | "compile", [input] => some (.compile input)
  | "repl", [] => some .repl
  | "fields", [] => some .fields
  | "config", [] => some (.config (f.values.lookup .output))
  | _, _ => none

/-- Help on commands. -/
def helpOn : List String → Intent
  | [] => .help
  | [name] => if commandNames.contains name then .help else .usage
  | _ => .usage

/-- What arguments ask for that start with the name of a command. -/
def readCommand (before : Found) (name : String) (rest : List String) : Except Stop Intent :=
  match levelOf? name with
  | none => .ok (if name = "help" then helpOn rest else .usage)
  | some level => do
    let (after, _) ← readLevel level false {} rest
    match command? name after with
    | none => .error .usage
    | some command =>
      let value (opt : Opt) := (after.values.lookup opt).or (before.values.lookup opt)
      return .run ⟨command, value .config, value .mapping⟩

/-- **What the arguments ask for**. -/
def read (args : List String) : Intent :=
  let result : Except Stop Intent := do
    match ← readLevel top true {} args with
    | (before, name :: rest) => readCommand before name rest
    | (_, []) => .error .usage
  match result with
  | .ok intent => intent
  | .error stop => stop.intent

end Arguments

end Sift
