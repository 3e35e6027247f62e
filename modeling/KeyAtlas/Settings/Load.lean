import KeyAtlas.Settings.Check
import KeyAtlas.Settings.Override
import KeyAtlas.Yaml.Document

namespace KeyAtlas

open Value (Fields)

namespace Settings

inductive LoadError where
  | fileMissing (path : String)
  | fileIsDirectory
  | nameTooLong
  | notText
  | document (fault : Yaml.Fault)
  | notFields
  | notPair
  | override (e : OverrideError)
  | nameNotText
  | invalid (faults : List Fault)
  deriving DecidableEq, Repr

def LoadError.message : LoadError → String
  | fileMissing path => "Configuration file not found: " ++ path
  | fileIsDirectory => "The configuration file is a directory"
  | nameTooLong => "The name of the configuration file is too long"
  | notText => "The configuration file is no UTF-8 text"
  | document _ => "The configuration file is no document that can be read"
  | notFields => "The configuration is no mapping"
  | notPair => "An entry of the configuration is no key with a value"
  | override .sectionExpected => "The workspace section is no mapping"
  | override .listExpected => "A list is expected"
  | nameNotText => "A section is not named by a text"
  | invalid faults => "\n".intercalate (faults.map Fault.message)

def pairOf (entry : Value) : Except LoadError (Key × Value) :=
  match entry.listed? with
  | none => .error .notFields
  | some [key, value] =>
    match key.key? with
    | some k => .ok (k, value)
    | none => .error .notFields
  | some _ => .error .notPair

/-- The fields that a list of pairs makes; the last of equal keys counts. -/
def fieldsFrom (found : Fields) : List Value → Except LoadError Fields
  | [] => .ok found
  | entry :: rest =>
    match pairOf entry with
    | .ok (key, value) => fieldsFrom (OrderedMap.putEntry key value found) rest
    | .error e => .error e

/-- The fields of a document. One that is empty or false has none. -/
def fieldsOf (document : Value) : Except LoadError Fields :=
  if document.isTruthy then
    match document with
    | .mapping fields => .ok fields
    | other =>
      match other.listed? with
      | some entries => fieldsFrom [] entries
      | none => .error .notFields
  else .ok []

/-- What makes a document of a text. -/
abbrev DocumentReader := List Char → Except Yaml.Fault Value

/-- A depth below which settings do not look into a document. -/
def deepestPart : Nat :=
  8

def yaml : DocumentReader :=
  Yaml.load deepestPart

def readDocument (reader : DocumentReader) (tree : FileTree) (cwd path : Path) :
    Except LoadError Value :=
  match tree.reach (cwd.under path) with
  | .error .nameTooLong => .error .nameTooLong
  | .error _ => .error (.fileMissing path.toString)
  | .ok (.directory _) => .error .fileIsDirectory
  | .ok (.file content) =>
    match Text.Utf8.decode? content with
    | none => .error .notText
    | some text => (reader (Text.unifyLineEnds [] text)).mapError .document

def readFile (reader : DocumentReader) (tree : FileTree) (cwd : Path) (file : Option Path) :
    Except LoadError Value :=
  match file with
  | none => .ok .null
  | some path => readDocument reader tree cwd path

def isNamed : Key → Bool
  | .name _ => true
  | .points _ => true
  | _ => false

def checkNamed (fields : Fields) : Except LoadError Settings :=
  if fields.all fun f => isNamed f.1 then (check fields).mapError .invalid
  else .error .nameNotText

def ofDocument (document : Value) (e : Environment) (a : Arguments) : Except LoadError Settings :=
  match fieldsOf document with
  | .error fault => .error fault
  | .ok fields =>
    match a.applyTo (Value.mergeFields fields e.overrides) with
    | .error fault => .error (.override fault)
    | .ok merged => checkNamed merged

def load (reader : DocumentReader) (tree : FileTree) (cwd : Path) (file : Option Path)
    (e : Environment) (a : Arguments) : Except LoadError Settings :=
  match readFile reader tree cwd file with
  | .error fault => .error fault
  | .ok document => ofDocument document e a

end Settings

end KeyAtlas
