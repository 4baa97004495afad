import QueryScope.CommandLine.Option
import QueryScope.Settings.Preferences

/-!
# Commands

What the command line can be asked to do, and reading it from arguments. Arguments that ask for
nothing of the kind are refused as a whole; so is a request for help, which is not an answer.
-/

namespace QueryScope.CommandLine

/-- What a payload is. -/
inductive PayloadKind where
  /-- A query. -/
  | query
  /-- A stage. -/
  | stage
  /-- A task. -/
  | task
  /-- The output buffer of a task. -/
  | outputBuffer
  /-- The buffer of a consumer. -/
  | buffer
  /-- A memory pool. -/
  | memoryPool
  /-- A fragment of a plan. -/
  | fragment
  /-- An expression. -/
  | expression
deriving DecidableEq, Repr

/-- How a decoded payload is shown. -/
inductive Emission where
  /-- In a few lines. -/
  | summary
  /-- As JSON. -/
  | json
deriving DecidableEq, Repr

/-- Decode a payload and show it. -/
structure DecodeCommand where
  /-- What the payload is. -/
  kind : PayloadKind
  /-- In place of the preference. -/
  bestEffort : Option Bool
  /-- In place of the preference. -/
  pretty : Option Bool
  /-- How it is shown. -/
  emission : Emission
  /-- The file that holds it. -/
  input : String
deriving DecidableEq

/-- List the plan of a fragment, or of all fragments of a query. -/
structure PlanCommand where
  /-- In place of the preference. -/
  showLayout : Option Bool
  /-- In place of the preference. -/
  indent : Option UInt64
  /-- Whether the scanned tables are listed too. -/
  scans : Bool
  /-- The file that holds the payload. -/
  input : String
deriving DecidableEq

/-- Write an expression as SQL. -/
structure FormatCommand where
  /-- The parameters for its placeholders. -/
  parameters : List String
  /-- The file that holds the payload. -/
  input : String
deriving DecidableEq

/-- A command. -/
inductive Command where
  /-- Decode a payload and show it. -/
  | decode (command : DecodeCommand)
  /-- List plans. -/
  | plan (command : PlanCommand)
  /-- Write an expression as SQL. -/
  | format (command : FormatCommand)
  /-- Show the preferences. -/
  | showPreferences
  /-- Change the preferences. -/
  | setPreferences (changes : Overrides)
deriving DecidableEq

/-- The file that a command reads. -/
def Command.input? : Command → Option String
  | .decode c => some c.input
  | .plan c => some c.input
  | .format c => some c.input
  | .showPreferences | .setPreferences _ => none

/-- A command with the options that all commands share. -/
structure Invocation where
  /-- How often more messages are asked for. -/
  verbosity : Nat
  /-- Where preferences are kept, if not in the usual place. -/
  configDirectory : Option String
  /-- The command. -/
  command : Command
deriving DecidableEq

/-! ## Values -/

/-- Read a truth value. -/
def bool? : String → Option Bool
  | "true" => some true
  | "false" => some false
  | _ => none

/-- Read a count of 64 bits; a plus sign may stand in front. -/
def count? (text : String) : Option UInt64 :=
  let digits := match text.toList with
    | '+' :: rest => rest
    | chars => chars
  if digits ≠ [] ∧ digits.all Char.isDigit ∧ digitsValue digits < UInt64.size then
    some (UInt64.ofNat (digitsValue digits))
  else none

/-- Read a path, which may not be empty. -/
def path? (text : String) : Option String :=
  if text = "" then none else some text

/-- Read the name of a kind of payload. -/
def kind? : String → Option PayloadKind
  | "query" => some .query
  | "stage" => some .stage
  | "task" => some .task
  | "output-buffer" => some .outputBuffer
  | "buffer" => some .buffer
  | "memory-pool" => some .memoryPool
  | "fragment" => some .fragment
  | "expression" => some .expression
  | _ => none

/-- Read the name of a way to show payloads. -/
def emission? : String → Option Emission
  | "summary" => some .summary
  | "json" => some .json
  | _ => none

namespace Arguments

/-- The value of an option, read; nothing comes back when it cannot be read. An option without a
value stands for `bare`. -/
def value? {α : Type} (a : Arguments) (name : String) (read : String → Option α)
    (bare : Option α := none) : Option (Option α) :=
  match a.values name with
  | [] => some none
  | some text :: _ => (read text).map some
  | none :: _ => bare.map some

/-- The only operand, a path. -/
def input? (a : Arguments) : Option String :=
  match a.operands with
  | [input] => path? input
  | _ => none

end Arguments

/-! ## Commands from arguments -/

/-- Asks for more messages. -/
def verboseRule : OptionRule where
  name := "verbose"
  letter := some 'v'
  arity := .flag
  repeats := true

/-- Says where preferences are kept. -/
def configDirectoryRule : OptionRule where
  name := "config-dir"
  arity := .value

/-- The options that may stand behind every command. -/
def sharedRules : List OptionRule := [verboseRule, configDirectoryRule]

/-- What stands in front of any command. -/
def topLevel : Level where
  options := sharedRules
  subcommands := ["decode", "plan", "format-expr", "prefs"]

/-- What decoding takes. -/
def decodeLevel : Level where
  options := sharedRules ++ [
    { name := "kind", arity := .value },
    { name := "best-effort", arity := .attached },
    { name := "pretty", arity := .attached },
    { name := "emit", arity := .value }]
  operands := 1

/-- What listing plans takes. -/
def planLevel : Level where
  options := sharedRules ++ [
    { name := "show-layout", arity := .attached },
    { name := "indent", arity := .value },
    { name := "scans", arity := .flag }]
  operands := 1

/-- What writing SQL takes. -/
def formatLevel : Level where
  options := sharedRules ++ [{ name := "param", arity := .value, repeats := true }]
  operands := 1

/-- What stands in front of a command on preferences. -/
def preferencesLevel : Level where
  options := sharedRules
  subcommands := ["show", "set"]

/-- What showing preferences takes. -/
def showLevel : Level where
  options := sharedRules

/-- What changing preferences takes. -/
def setLevel : Level where
  options := sharedRules ++ [
    { name := "best-effort", arity := .value },
    { name := "pretty", arity := .value },
    { name := "show-layout", arity := .value },
    { name := "indent", arity := .value }]

/-- The command of decoding. -/
def DecodeCommand.of? (a : Arguments) : Option Command := do
  let kind ← (← a.value? "kind" kind?)
  let bestEffort ← a.value? "best-effort" bool? (some true)
  let pretty ← a.value? "pretty" bool? (some true)
  let emission ← a.value? "emit" emission?
  let input ← a.input?
  return .decode { kind, bestEffort, pretty, input, emission := emission.getD .summary }

/-- The command of listing plans. -/
def PlanCommand.of? (a : Arguments) : Option Command := do
  let showLayout ← a.value? "show-layout" bool? (some true)
  let indent ← a.value? "indent" count?
  let input ← a.input?
  return .plan { showLayout, indent, input, scans := a.has "scans" }

/-- The command of writing SQL. -/
def FormatCommand.of? (a : Arguments) : Option Command := do
  let input ← a.input?
  return .format { input, parameters := (a.values "param").filterMap id }

/-- The command of showing preferences. -/
def Command.showOf? (_ : Arguments) : Option Command :=
  some .showPreferences

/-- The command of changing preferences. -/
def Command.setOf? (a : Arguments) : Option Command := do
  let bestEffort ← a.value? "best-effort" bool?
  let pretty ← a.value? "pretty" bool?
  let showLayout ← a.value? "show-layout" bool?
  let indent ← a.value? "indent" count?
  return .setPreferences { bestEffort, pretty, showLayout, indent }

/-- Read a command that has no subcommands; its arguments come back with it. -/
def Level.command? (level : Level) (of? : Arguments → Option Command) (arguments : List String) :
    Option (Command × List Arguments) :=
  match level.split? {} none arguments with
  | some (taken, none) => (of? taken).map (·, [taken])
  | _ => none

/-- Read a command on preferences. -/
def preferencesCommand? (arguments : List String) : Option (Command × List Arguments) :=
  match preferencesLevel.split? {} none arguments with
  | some (taken, some ("show", rest)) =>
    (showLevel.command? Command.showOf? rest).map fun (c, levels) => (c, levels ++ [taken])
  | some (taken, some ("set", rest)) =>
    (setLevel.command? Command.setOf? rest).map fun (c, levels) => (c, levels ++ [taken])
  | _ => none

/-- Read a command by its name. -/
def subcommand? (name : String) (arguments : List String) : Option (Command × List Arguments) :=
  match name with
  | "decode" => decodeLevel.command? DecodeCommand.of? arguments
  | "plan" => planLevel.command? PlanCommand.of? arguments
  | "format-expr" => formatLevel.command? FormatCommand.of? arguments
  | "prefs" => preferencesCommand? arguments
  | _ => none

/-- The shared options from the arguments of the innermost command outwards: of each, the innermost
place where it is given counts. -/
def sharedOptions? : (levels : List Arguments) → Option (Nat × Option String)
  | [] => some (0, none)
  | level :: outer => do
    let directory ← level.value? configDirectoryRule.name path?
    let (outerVerbosity, outerDirectory) ← sharedOptions? outer
    let verbosity := (level.values verboseRule.name).length
    return (if verbosity = 0 then outerVerbosity else verbosity, directory <|> outerDirectory)

/-- Read a whole command line, without the name of the program. -/
def Invocation.parse? (arguments : List String) : Option Invocation := do
  match topLevel.split? {} none arguments with
  | some (taken, some (name, rest)) =>
    let (command, levels) ← subcommand? name rest
    let (verbosity, configDirectory) ← sharedOptions? (levels ++ [taken])
    return { verbosity, configDirectory, command }
  | _ => none

end QueryScope.CommandLine
