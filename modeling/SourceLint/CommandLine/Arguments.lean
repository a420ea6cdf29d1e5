/-
The arguments of a command: options, each with a value if it wants one, and operands. What looks like
an option and is none ends the reading of operands: it and all operands after it are set aside, while
known options after it are still taken. Two hyphens alone end the options.
-/
import SourceLint.Text

namespace SourceLint.CommandLine

/-- An option that a command knows. -/
structure OptionSpec where
  /-- The name with its hyphens. -/
  name : Text
  /-- What the value stands for; an option without one takes no value. -/
  placeholder : Option Text := none
  /-- The values that will do, or nothing if all do. -/
  choices : List Text := []
  /-- The command cannot do without the option. -/
  mandatory : Bool := false
  deriving DecidableEq, Repr

/-- An option as it is shown to the user. -/
def OptionSpec.usage (option : OptionSpec) : Text :=
  match option.placeholder with
  | none => option.name
  | some placeholder => option.name ++ " <" ++ placeholder ++ ">"

/-- What is wrong with a command line. -/
inductive UsageError where
  | unknownCommand (name : Text)
  | unknownOption (argument : Text)
  | missingValue (option : OptionSpec)
  | invalidChoice (option : OptionSpec) (value : Text)
  | missingOption (option : OptionSpec)
  | missingOperand (name : Text)
  deriving DecidableEq, Repr

/-- The wording of a usage error. -/
def UsageError.message : UsageError → Text
  | unknownCommand name => "error: unknown command '" ++ name ++ "'"
  | unknownOption argument => "error: unknown option '" ++ argument ++ "'"
  | missingValue option => "error: option '" ++ option.usage ++ "' argument missing"
  | invalidChoice option value =>
    "error: option '" ++ option.usage ++ "' argument '" ++ value ++
      "' is invalid. Allowed choices are " ++ Text.join ", " option.choices ++ "."
  | missingOption option => "error: required option '" ++ option.usage ++ "' not specified"
  | missingOperand name => "error: missing required argument '" ++ name ++ "'"

/-- Arguments that have been read. -/
structure Arguments where
  /-- The options that were given, with their values; a value is empty where none is wanted. -/
  options : List (Text × Text) := []
  operands : List Text := []
  /-- The first argument that is no known option, and what was set aside after it. -/
  unknown : List Text := []
  deriving DecidableEq, Repr

namespace Arguments

/-- The value of an option; of several the last counts. -/
def value? (arguments : Arguments) (name : Text) : Option Text :=
  (arguments.options.reverse.find? fun option => option.1 = name).map Prod.snd

/-- An option was given. -/
def has (arguments : Arguments) (name : Text) : Bool := (arguments.value? name).isSome

/-- The arguments with an option before the others. -/
def withOption (name value : Text) (arguments : Arguments) : Arguments :=
  { arguments with options := (name, value) :: arguments.options }

/-- The arguments with an operand before the others, or set aside. -/
def withOperand (setAside : Bool) (operand : Text) (arguments : Arguments) : Arguments :=
  if setAside then { arguments with unknown := operand :: arguments.unknown }
  else { arguments with operands := operand :: arguments.operands }

/-- An argument looks like an option: a hyphen and something after it. -/
def looksLikeOption (argument : Text) : Bool := argument.length > 1 && argument.head? == some 0x2D

/-- The option that an argument names together with its value, after an equals sign, and the
value. -/
def assignment? (specs : List OptionSpec) (argument : Text) : Option (OptionSpec × Text) :=
  let isName (unit : CodeUnit) : Bool := unit != '='
  match argument.dropWhile isName with
  | [] => none
  | _ :: value =>
    let name := argument.takeWhile isName
    let spec := specs.find? fun spec => spec.name = name && spec.placeholder.isSome
    spec.map fun spec => (spec, value)

/-- A value is one of the choices of its option. -/
def checkChoice (spec : OptionSpec) (value : Text) : Except UsageError Unit :=
  if spec.choices.isEmpty || spec.choices.contains value then .ok ()
  else .error (.invalidChoice spec value)

/-- The two hyphens that end the options. -/
def endOfOptions : Text := "--"

/-- Reads arguments, where `setAside` tells that operands are set aside. -/
def readFrom (specs : List OptionSpec) (setAside : Bool) :
    List Text → Except UsageError Arguments
  | [] => .ok {}
  | argument :: rest =>
    if argument = endOfOptions then
      if setAside then .ok { unknown := argument :: rest } else .ok { operands := rest }
    else
      match specs.find? fun spec => spec.name = argument with
      | some spec =>
        if spec.placeholder.isNone then (readFrom specs setAside rest).map (withOption spec.name [])
        else
          match rest with
          | [] => .error (.missingValue spec)
          | value :: rest => do
            checkChoice spec value
            return (← readFrom specs setAside rest).withOption spec.name value
      | none =>
        match assignment? specs argument with
        | some (spec, value) => do
          checkChoice spec value
          return (← readFrom specs setAside rest).withOption spec.name value
        | none =>
          let setAside := setAside || looksLikeOption argument
          (readFrom specs setAside rest).map (withOperand setAside argument)

/-- Reads the arguments of a command. -/
def read (specs : List OptionSpec) (arguments : List Text) : Except UsageError Arguments :=
  readFrom specs false arguments

end Arguments

end SourceLint.CommandLine
