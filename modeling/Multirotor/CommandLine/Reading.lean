import Multirotor.CommandLine.Arguments
import Multirotor.Terminal.Span

/-!
# Reading the command line

Arguments are read from left to right.  An option takes its value from behind an equals sign or from
the next argument, so an option without a value is settled only when the next argument is seen.
The argument `--` ends the options, and since nothing but options is known, whatever follows it is
unexpected.
-/

namespace Multirotor

/-- Why a command line was refused. -/
inductive UsageError where
  | unexpectedArgument (argument : String)
  | missingValue (parameter : Parameter)
  | repeated (parameter : Parameter)
  | invalidValue (parameter : Parameter) (value : String) (reason : ValueError)
  /-- A value for the request for help. -/
  | unexpectedValue (value : String)
  deriving DecidableEq

/-- The fault in words; what was typed and the option that has no value or too many stand out. -/
def UsageError.spans : UsageError → List Terminal.Span
  | unexpectedArgument argument =>
    [.normal "unexpected argument '", .bold argument, .normal "' found"]
  | missingValue parameter =>
    [.normal "a value is required for '", .bold parameter.usage,
      .normal "' but none was supplied"]
  | repeated parameter =>
    [.normal "the argument '", .bold parameter.usage, .normal "' cannot be used multiple times"]
  | invalidValue parameter value reason =>
    [.normal "invalid value '", .bold value, .normal "' for '", .bold parameter.usage,
      .normal s!"': {reason.message}"]
  | unexpectedValue value =>
    [.normal "unexpected value '", .bold value, .normal "' for '", .bold "--help",
      .normal "' found; no more were expected"]

/-- What a well-formed command line asks for. -/
inductive Request where
  | help
  | flight (arguments : Arguments)
  deriving DecidableEq

/-- An argument by its form. -/
inductive Token where
  | separator
  /-- A long option, perhaps with a value behind an equals sign. -/
  | long (name : String) (value? : Option String)
  /-- A cluster of one-letter options. -/
  | short (letters : List Char)
  /-- Anything else. -/
  | plain
  deriving DecidableEq

/-- The form of an argument.  A single hyphen is a plain argument. -/
def Token.ofArgument (argument : String) : Token :=
  match argument.toList with
  | ['-', '-'] => .separator
  | '-' :: '-' :: rest =>
    let name := String.ofList (rest.takeWhile (· ≠ '='))
    match rest.dropWhile (· ≠ '=') with
    | [] => .long name none
    | _ :: value => .long name (some (String.ofList value))
  | '-' :: c :: rest => .short (c :: rest)
  | _ => .plain

/-- How far the reading has come. -/
structure Reading where
  /-- What was asked for so far. -/
  arguments : Arguments := {}
  /-- The options with a value so far. -/
  given : List Parameter := []
  /-- An option that has not got its value yet. -/
  waiting? : Option Parameter := none
  /-- An option with the value that the next argument settles. -/
  settled? : Option (Parameter × String) := none
  deriving DecidableEq

namespace Reading

/-- Gives an option its value. -/
def assign (r : Reading) (parameter : Parameter) (value : String) : Except UsageError Reading :=
  if parameter ∈ r.given then .error (.repeated parameter)
  else
    match r.arguments.set parameter value with
    | .error reason => .error (.invalidValue parameter value reason)
    | .ok arguments => .ok { r with arguments := arguments, given := parameter :: r.given }

/-- Settles the option before: it has to have a value, and the value has to suit. -/
def settle (r : Reading) : Except UsageError Reading :=
  match r.waiting?, r.settled? with
  | some parameter, _ => .error (.missingValue parameter)
  | none, some (parameter, value) => { r with settled? := none }.assign parameter value
  | none, none => .ok r

/-- Settles the option before and answers with the help text. -/
def help (r : Reading) : Except UsageError Request :=
  match r.settle with
  | .error e => .error e
  | .ok _ => .ok .help

/-- Reads the arguments that are left. -/
def read (r : Reading) : List String → Except UsageError Request
  | [] => r.settle.map fun r => .flight r.arguments
  | argument :: rest =>
    match Token.ofArgument argument with
    | .separator =>
      match rest with
      | [] => r.settle.map fun r => .flight r.arguments
      | extra :: _ => .error (.unexpectedArgument extra)
    | .long "help" none => r.help
    | .long "help" (some value) => .error (.unexpectedValue value)
    | .long name value? =>
      match Parameter.all.find? fun p => p.name = name, value? with
      | none, _ => .error (.unexpectedArgument ("--" ++ name))
      | some parameter, some value =>
        match r.settle with
        | .error e => .error e
        | .ok r =>
          match r.assign parameter value with
          | .error e => .error e
          | .ok r => read r rest
      | some parameter, none =>
        match r.settle with
        | .error e => .error e
        | .ok r => read { r with waiting? := some parameter } rest
    | .short ('h' :: _) => r.help
    | .short letters => .error (.unexpectedArgument (String.ofList ('-' :: letters.take 1)))
    | .plain =>
      match r.waiting? with
      | some parameter =>
        read { r with waiting? := none, settled? := some (parameter, argument) } rest
      | none => .error (.unexpectedArgument argument)

end Reading

/-- What a command line asks for. -/
def Request.ofArguments (arguments : List String) : Except UsageError Request :=
  ({} : Reading).read arguments

/-- The help text. -/
def helpText : String :=
  let entries := Parameter.all.map fun p => s!"      {p.usage}\n          {p.description}\n"
  "Motor mixer and ESC output driven by a bench sweep\n\n" ++
    "Usage: flight-controller [OPTIONS]\n\n" ++
    "Options:\n" ++ String.join entries ++
    "  -h, --help\n          Print help\n"

end Multirotor
