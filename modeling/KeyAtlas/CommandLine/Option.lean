/-!
Reading options and operands from an argument list. A long option takes its value after an equals
sign or as the next argument; short options can be run together, and the rest of a run is the value
of one that takes a value. After `--` there are only operands.
-/

namespace KeyAtlas.CommandLine

structure OptionSpec where
  name : String
  short : Option Char
  long : String
  takesValue : Bool

inductive UsageError where
  | unknownOption (text : String)
  | valueMissing (option : String)
  | valueUnexpected (option : String)
  | invalidValue (name text : String)
  /-- A path holds a NUL character. -/
  | invalidPath (name : String)
  | operandMissing (name : String)
  | operandUnexpected (text : String)
  | optionMissing (name : String)
  | commandMissing
  | unknownCommand (name : String)
  deriving DecidableEq, Repr

def UsageError.message : UsageError → String
  | unknownOption text => "No such option: " ++ text
  | valueMissing option => "Option '" ++ option ++ "' requires an argument."
  | valueUnexpected option => "Option '" ++ option ++ "' does not take a value."
  | invalidPath name => "Invalid path for '" ++ name ++ "'"
  | invalidValue name text => "Invalid value for '" ++ name ++ "': " ++ text
  | operandMissing name => "Missing argument '" ++ name ++ "'."
  | operandUnexpected text => "Got unexpected extra argument (" ++ text ++ ")"
  | optionMissing name => "Missing option '" ++ name ++ "'."
  | commandMissing => "Missing command."
  | unknownCommand name => "No such command '" ++ name ++ "'."

structure Given where
  name : String
  value : Option String
  deriving DecidableEq, Repr

structure Parsed where
  options : List Given
  operands : List String
  deriving DecidableEq, Repr

namespace Parsed

def empty : Parsed :=
  ⟨[], []⟩

def withOptions (p : Parsed) (given : List Given) : Parsed :=
  { p with options := given ++ p.options }

def withOperand (p : Parsed) (operand : String) : Parsed :=
  { p with operands := operand :: p.operands }

def count (p : Parsed) (name : String) : Nat :=
  (p.options.filter (·.name = name)).length

def has (p : Parsed) (name : String) : Bool :=
  p.options.any (·.name = name)

def valuesOf (p : Parsed) (name : String) : List String :=
  p.options.filterMap fun g => if g.name = name then g.value else none

def names (p : Parsed) : List String :=
  (p.options.map (·.name)).eraseDups

/-- The value of an option that is given once; of several the last one counts. -/
def value? (p : Parsed) (name : String) : Option String :=
  (p.valuesOf name).getLast?

end Parsed

/-- The options read from one argument, and the option whose value is the next argument. -/
abbrev ReadArgument := List Given × Option OptionSpec

def readShort (specs : List OptionSpec) : List Char → Except UsageError ReadArgument
  | [] => .ok ([], none)
  | c :: rest =>
    match specs.find? (·.short = some c) with
    | none => .error (.unknownOption (.ofList ['-', c]))
    | some spec =>
      if spec.takesValue then
        if rest.isEmpty then .ok ([], some spec)
        else .ok ([⟨spec.name, some (.ofList rest)⟩], none)
      else (readShort specs rest).map fun (given, open?) => (⟨spec.name, none⟩ :: given, open?)

def readLong (spec : OptionSpec) (value : Option String) : Except UsageError ReadArgument :=
  match spec.takesValue, value with
  | true, some text => .ok ([⟨spec.name, some text⟩], none)
  | true, none => .ok ([], some spec)
  | false, none => .ok ([⟨spec.name, none⟩], none)
  | false, some _ => .error (.valueUnexpected spec.long)

def splitValue (arg : List Char) : String × Option String :=
  let name := arg.takeWhile (· ≠ '=')
  match arg.drop name.length with
  | [] => (.ofList name, none)
  | _ :: value => (.ofList name, some (.ofList value))

def readArgument (specs : List OptionSpec) (arg : List Char) : Except UsageError ReadArgument :=
  let (name, value) := splitValue arg
  match specs.find? (·.long = name) with
  | some spec => readLong spec value
  | none =>
    match arg with
    | '-' :: '-' :: _ => .error (.unknownOption name)
    | _ :: run => readShort specs run
    | [] => .ok ([], none)

/-- A hyphen alone is an operand. -/
def looksOption (arg : List Char) : Bool :=
  arg.head? = some '-' && arg ≠ ['-']

/-- Reads an argument list. Unless operands may stand between options, the first one ends the
options. -/
def read (specs : List OptionSpec) (interspersed : Bool) : List String → Except UsageError Parsed
  | [] => .ok .empty
  | arg :: rest =>
    if arg = "--" then .ok ⟨[], rest⟩
    else if looksOption arg.toList then
      match readArgument specs arg.toList, rest with
      | .error e, _ => .error e
      | .ok (given, none), rest => (read specs interspersed rest).map (·.withOptions given)
      | .ok (_, some spec), [] => .error (.valueMissing spec.long)
      | .ok (given, some spec), value :: rest =>
        (read specs interspersed rest).map (·.withOptions (given ++ [⟨spec.name, some value⟩]))
    else if interspersed then (read specs interspersed rest).map (·.withOperand arg)
    else .ok ⟨[], arg :: rest⟩

end KeyAtlas.CommandLine
