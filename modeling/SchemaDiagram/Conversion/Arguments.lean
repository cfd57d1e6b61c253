import SchemaDiagram.Text.Basic

/-!
Command-line arguments. A long option begins with two hyphens and may have its value after an
equals sign; short ones stand together after one hyphen, the last of them with its value. After
two hyphens alone everything is an operand.
-/

set_option autoImplicit false

namespace SchemaDiagram

structure OptionRule where
  long : Text
  short : Option Char := none
  takesValue : Bool := false
  allowsEmpty : Bool := false
  deriving DecidableEq, Repr

inductive UsageError where
  | unexpected (argument : Text)
  | missingValue (option : Text)
  | emptyValue
  | needlessValue (option : Text)
  | repeated (option : Text)
  | missingOperand
  | missingCommand
  deriving DecidableEq, Repr

def UsageError.message : UsageError → Text
  | unexpected argument => "unexpected argument '".toList ++ argument ++ "' found".toList
  | missingValue option => "a value is required for '--".toList ++ option ++ ['\'']
  | emptyValue => "a value is required but none was supplied".toList
  | needlessValue option => "unexpected value for '--".toList ++ option ++ ['\'']
  | repeated option =>
    "the argument '--".toList ++ option ++ "' cannot be used multiple times".toList
  | missingOperand => "a required argument was not provided".toList
  | missingCommand => "a subcommand is required but one was not provided".toList

/-- What was given: options with their values in order, and operands. -/
structure Given where
  options : List (Text × Option Text) := []
  operands : List Text := []
  deriving DecidableEq, Repr

namespace Given

def has (g : Given) (option : Text) : Bool := g.options.any (·.1 = option)

def value? (g : Given) (option : Text) : Option Text := (g.options.lookup option).join

/-- Every option counts once. -/
def addOption (g : Given) (rule : OptionRule) (value : Option Text) : Except UsageError Given :=
  if g.has rule.long then .error (.repeated rule.long)
  else if value = some [] && !rule.allowsEmpty then .error .emptyValue
  else .ok { g with options := g.options ++ [(rule.long, value)] }

def addOperand (g : Given) (limit : Nat) (operand : Text) : Except UsageError Given :=
  if limit ≤ g.operands.length then .error (.unexpected operand)
  else if operand.isEmpty then .error .emptyValue
  else .ok { g with operands := g.operands ++ [operand] }

end Given

/-- Whether an argument stands where an option could: a hyphen with anything behind it. -/
def looksLikeOption : Text → Bool
  | '-' :: _ :: _ => true
  | _ => false

/-- What one argument amounts to: it is complete, or its option waits for a value. -/
inductive Taken where
  | complete (given : Given)
  | waiting (given : Given) (rule : OptionRule)

def takeLong (rules : List OptionRule) (g : Given) (argument : Text) :
    Except UsageError Taken := do
  let name := argument.takeWhile (· ≠ '=')
  let value : Option Text :=
    if name.length < argument.length then some (argument.drop (name.length + 1)) else none
  match rules.find? (·.long = name) with
  | none => .error (.unexpected argument)
  | some rule =>
    if rule.takesValue then
      match value with
      | some v => .complete <$> g.addOption rule (some v)
      | none => .ok (.waiting g rule)
    else if value.isSome then .error (.needlessValue rule.long)
    else .complete <$> g.addOption rule none

def takeShort (rules : List OptionRule) (stops : Given → Bool) (g : Given) :
    Text → Except UsageError Taken
  | [] => .ok (.complete g)
  | c :: rest =>
    if stops g then .ok (.complete g)
    else match rules.find? (·.short = some c) with
    | none => .error (.unexpected ['-', c])
    | some rule =>
      if rule.takesValue then
        match rest with
        | [] => .ok (.waiting g rule)
        | '=' :: v => .complete <$> g.addOption rule (some v)
        | v => .complete <$> g.addOption rule (some v)
      else do takeShort rules stops (← g.addOption rule none) rest

/-- Reads arguments up to the first that is wrong, or that asks for what ends the reading. -/
def readArguments (rules : List OptionRule) (limit : Nat) (stops : Given → Bool) :
    Taken → List Text → Except UsageError Given
  | .complete g, [] => .ok g
  | .waiting _ rule, [] => .error (.missingValue rule.long)
  | .waiting g rule, argument :: rest =>
    if looksLikeOption argument then .error (.missingValue rule.long)
    else do
      readArguments rules limit stops (.complete (← g.addOption rule (some argument))) rest
  | .complete g, argument :: rest =>
    if stops g then .ok g
    else match argument with
      | ['-', '-'] => rest.foldlM (fun g operand => g.addOperand limit operand) g
      | '-' :: '-' :: long => do readArguments rules limit stops (← takeLong rules g long) rest
      | '-' :: c :: more => do
        readArguments rules limit stops (← takeShort rules stops g (c :: more)) rest
      | operand => do
        readArguments rules limit stops (.complete (← g.addOperand limit operand)) rest

end SchemaDiagram
