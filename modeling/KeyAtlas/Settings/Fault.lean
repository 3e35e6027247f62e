import KeyAtlas.Value

namespace KeyAtlas.Settings

inductive Reason where
  | unknownField
  | keyNotText
  | notSection
  | notList
  | notText
  | notUnicode
  | notPath
  | notChoice
  | notInteger
  | notNumeral
  | numeralTooLong
  | hasFraction
  | notFinite
  | notFlag
  | notFlagWord
  | tooSmall
  | tooLarge
  | noRoots
  deriving DecidableEq, Repr

def Reason.message : Reason → String
  | unknownField => "No such field"
  | keyNotText => "A field is named by a text"
  | notSection => "A mapping of fields is expected"
  | notList => "A list is expected"
  | notText => "A text is expected"
  | notUnicode => "A text of whole characters is expected"
  | notPath => "A path is expected"
  | notChoice => "This is none of the choices"
  | notInteger => "An integer is expected"
  | notNumeral => "This text is no integer"
  | numeralTooLong => "This integer is too long"
  | hasFraction => "An integer without a fraction is expected"
  | notFinite => "A finite number is expected"
  | notFlag => "A flag is expected"
  | notFlagWord => "This is no word for a flag"
  | tooSmall => "This integer is too small"
  | tooLarge => "This integer is too large"
  | noRoots => "At least one workspace root is required"

inductive Step where
  | field (key : Key)
  | item (position : Nat)
  deriving DecidableEq, Repr

structure Fault where
  reason : Reason
  place : List Step
  deriving DecidableEq, Repr

def Step.text : Step → String
  | field key => (Value.ofKey key).display
  | item position => toString position

def Fault.message (f : Fault) : String :=
  ".".intercalate (f.place.map Step.text) ++ ": " ++ f.reason.message

/-- A checked part of the settings, or all its faults in order. -/
abbrev Checked (α : Type) := Except (List Fault) α

namespace Checked

variable {α β : Type}

def fail (reason : Reason) : Checked α :=
  .error [⟨reason, []⟩]

/-- Puts the faults of a part at its place in the whole. -/
def under (step : Step) (c : Checked α) : Checked α :=
  c.mapError fun faults => faults.map fun f => { f with place := step :: f.place }

def faults : Checked α → List Fault
  | .ok _ => []
  | .error found => found

/-- Both parts, or the faults of both. -/
def and (a : Checked α) (b : Checked β) : Checked (α × β) :=
  match a, b with
  | .ok x, .ok y => .ok (x, y)
  | a, b => .error (a.faults ++ b.faults)

def close (c : Checked α) (found : List Fault) : Checked α :=
  match c, found with
  | .ok x, [] => .ok x
  | c, found => .error (c.faults ++ found)

end Checked

end KeyAtlas.Settings
