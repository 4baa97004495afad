/-!
# Options and operands

The arguments of a command, split into options and operands by rules that are data. Arguments up to
the name of a subcommand belong to the command itself, the rest to the subcommand.
-/

namespace QueryScope.CommandLine

/-- How an option takes a value. -/
inductive Arity where
  /-- It takes none. -/
  | flag
  /-- It needs one, behind an equals sign or as the next argument. -/
  | value
  /-- It takes one only behind an equals sign, and can do without. -/
  | attached
deriving DecidableEq

/-- An option that a command knows. -/
structure OptionRule where
  /-- The name behind two dashes. -/
  name : String
  /-- The letter behind one dash. -/
  letter : Option Char := none
  /-- How it takes a value. -/
  arity : Arity
  /-- Whether it may be given more than once. -/
  repeats : Bool := false

/-- What a command takes. -/
structure Level where
  /-- Its options. -/
  options : List OptionRule := []
  /-- The number of its operands. -/
  operands : Nat := 0
  /-- The names of its subcommands. -/
  subcommands : List String := []

/-- The arguments that a command has taken. -/
structure Arguments where
  /-- The options in their order, with their values. -/
  options : List (String × Option String) := []
  /-- The operands in their order. -/
  operands : List String := []
deriving DecidableEq

/-- The subcommand that is named, with the arguments after its name. -/
abbrev Subcommand := Option (String × List String)

namespace Arguments

/-- Whether an option is given. -/
def has (a : Arguments) (name : String) : Bool :=
  a.options.any (·.1 = name)

/-- The values of an option, in order. -/
def values (a : Arguments) (name : String) : List (Option String) :=
  (a.options.filter (·.1 = name)).map (·.2)

/-- Take an option. -/
def addOption? (a : Arguments) (rule : OptionRule) (value : Option String) : Option Arguments :=
  if a.has rule.name && !rule.repeats then none
  else some { a with options := a.options ++ [(rule.name, value)] }

/-- Take an operand, if the command takes so many. -/
def addOperand? (a : Arguments) (level : Level) (operand : String) : Option Arguments :=
  if a.operands.length < level.operands then
    some { a with operands := a.operands ++ [operand] }
  else none

/-- Take operands. -/
def addOperands? (a : Arguments) (level : Level) : List String → Option Arguments
  | [] => some a
  | operand :: rest =>
    match a.addOperand? level operand with
    | none => none
    | some a => a.addOperands? level rest

/-- Take the flags that stand behind one dash. -/
def addLetters? (a : Arguments) (level : Level) : List Char → Option Arguments
  | [] => some a
  | letter :: rest =>
    match level.options.find? (fun rule => rule.letter = some letter && rule.arity = .flag) with
    | none => none
    | some rule =>
      match a.addOption? rule none with
      | none => none
      | some a => a.addLetters? level rest

end Arguments

/-- The form of a single argument. -/
inductive Form where
  /-- Two dashes and nothing else: only operands follow. -/
  | endOfOptions
  /-- Two dashes and a name, perhaps with a value behind an equals sign. -/
  | long (name : String) (value : Option String)
  /-- One dash and letters. -/
  | letters (letters : List Char)
  /-- Anything else, a single dash among it. -/
  | plain
deriving DecidableEq

/-- The form of an argument. -/
def Form.of (argument : String) : Form :=
  match argument.toList with
  | ['-', '-'] => .endOfOptions
  | '-' :: '-' :: rest =>
    let name := String.ofList (rest.takeWhile (· ≠ '='))
    match rest.dropWhile (· ≠ '=') with
    | [] => .long name none
    | _ :: value => .long name (some (String.ofList value))
  | '-' :: c :: rest => .letters (c :: rest)
  | _ => .plain

/-- Split the arguments of a command; nothing comes back when they break its rules. `pending` is an
option whose value has to come next, and `taken` is what came before. -/
def Level.split? (level : Level) :
    (taken : Arguments) → (pending : Option OptionRule) → List String →
      Option (Arguments × Subcommand)
  | taken, none, [] => some (taken, none)
  | _, some _, [] => none
  | taken, some rule, argument :: rest =>
    match Form.of argument with
    | .plain =>
      match taken.addOption? rule (some argument) with
      | none => none
      | some taken => level.split? taken none rest
    | _ => none
  | taken, none, argument :: rest =>
    if argument ∈ level.subcommands then some (taken, some (argument, rest))
    else
      match Form.of argument with
      | .plain =>
        match taken.addOperand? level argument with
        | none => none
        | some taken => level.split? taken none rest
      | .endOfOptions => (taken.addOperands? level rest).map (·, none)
      | .letters letters =>
        match taken.addLetters? level letters with
        | none => none
        | some taken => level.split? taken none rest
      | .long name value =>
        match level.options.find? (·.name = name) with
        | none => none
        | some rule =>
          match rule.arity, value with
          | .value, none => level.split? taken (some rule) rest
          | .flag, some _ => none
          | _, value =>
            match taken.addOption? rule value with
            | none => none
            | some taken => level.split? taken none rest

end QueryScope.CommandLine
