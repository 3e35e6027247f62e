import KeyAtlas.Value
/-!
Templates of event names. A place in a template starts with `%` and ends with the kind of text that
it takes; between them it may name a field, a width and a precision. Event names are made of small
letters and dots: a place that would show digits, signs or blanks makes no name and is not filled.
-/

namespace KeyAtlas.Log

inductive Amount where
  | written (n : Nat)
  | argument
  deriving DecidableEq, Repr

structure Place where
  key : Option String
  /-- Whether numbers are shown with a sign, a blank or their base. -/
  marked : Bool
  width : Option Amount
  precision : Option Amount
  kind : Char
  deriving DecidableEq, Repr

namespace Place

def closeKey : Nat → List Char → Option (List Char × List Char)
  | _, [] => none
  | 0, ')' :: rest => some ([], rest)
  | depth, c :: rest =>
    let inner := if c = '(' then depth + 1 else if c = ')' then depth - 1 else depth
    (closeKey inner rest).map fun (key, after) => (c :: key, after)

def readKey : List Char → Option (Option String × List Char)
  | '(' :: rest => (closeKey 0 rest).map fun (key, after) => (some (.ofList key), after)
  | text => some (none, text)

def isMark (c : Char) : Bool :=
  c = '+' || c = ' ' || c = '#'

def isFlag (c : Char) : Bool :=
  isMark c || c = '-' || c = '0'

def naturalOf (digits : List Char) : Nat :=
  digits.foldl (fun n c => 10 * n + (c.toNat - '0'.toNat)) 0

def readAmount : List Char → Option Amount × List Char
  | '*' :: rest => (some .argument, rest)
  | text =>
    match text.takeWhile Char.isDigit with
    | [] => (none, text)
    | digits => (some (.written (naturalOf digits)), text.dropWhile Char.isDigit)

/-- A point alone stands for a precision of zero. -/
def readPrecision : List Char → Option Amount × List Char
  | '.' :: rest =>
    match readAmount rest with
    | (none, after) => (some (.written 0), after)
    | found => found
  | text => (none, text)

/-- One letter for the size of a number, which says nothing here. -/
def dropSize : List Char → List Char
  | [] => []
  | c :: rest => if c = 'h' || c = 'l' || c = 'L' then rest else c :: rest

def read (text : List Char) : Option (Place × List Char) := do
  let (key, text) ← readKey text
  let (width, after) := readAmount (text.dropWhile isFlag)
  let (precision, after) := readPrecision after
  match dropSize after with
  | [] => none
  | kind :: rest => some (⟨key, (text.takeWhile isFlag).any isMark, width, precision, kind⟩, rest)

end Place

structure Supply where
  fields : Option Value.Fields
  waiting : List Value

/-- A mapping as the only argument gives its fields, unless it is empty. -/
def Supply.ofArguments : List Value → Supply
  | [.mapping (f :: fields)] => ⟨some (f :: fields), [.mapping (f :: fields)]⟩
  | args => ⟨none, args⟩

namespace Supply

/-- Arguments must all be used, but fields need not be. -/
def isSpent (s : Supply) : Bool :=
  s.fields.isSome || s.waiting.isEmpty

def next : Supply → Option (Value × Supply)
  | ⟨_, []⟩ => none
  | ⟨fields, v :: rest⟩ => some (v, ⟨fields, rest⟩)

def choose (s : Supply) : Option String → Option Supply
  | none => some s
  | some key => (s.fields.bind (·.lookup (.name key))).map fun v => { s with waiting := [v] }

def integer? : Value → Option Int
  | .int n => some n
  | .flag b => some (if b then 1 else 0)
  | _ => none

def amount (s : Supply) : Option Amount → Option (Option Int × Supply)
  | none => some (none, s)
  | some (.written n) => some (some n, s)
  | some .argument => do
    let (v, rest) ← s.next
    return (some (← integer? v), rest)

end Supply

namespace Place

def largestPrecision : Int :=
  2147483647

def cut (precision : Option Int) (text : String) : List Char :=
  precision.elim text.toList fun n => text.toList.take n.toNat

def character? : Value → Option Char
  | .text s => if s.length = 1 then s.toList.head? else none
  | v => (Supply.integer? v).bind fun n =>
    if 0 ≤ n && n.toNat.isValidChar then some (Char.ofNat n.toNat) else none

/-- The hexadecimal digits of a number, unless there are fewer than the precision says. -/
def hexadecimal? (precision : Option Int) (v : Value) : Option (List Char) :=
  (Supply.integer? v).bind fun n =>
    let digits := Nat.toDigits 16 n.toNat
    if 0 ≤ n && precision.all (· ≤ (digits.length : Int)) then some digits else none

def text? (p : Place) (precision : Option Int) (v : Value) : Option (List Char) :=
  match p.kind with
  | 's' => some (cut precision v.display)
  | 'r' | 'a' => some (cut precision v.displayInner)
  | 'c' => (character? v).map fun c => [c]
  | 'x' => if p.marked then none else hexadecimal? precision v
  | _ => none

def fill (p : Place) (s : Supply) : Option (List Char × Supply) := do
  let chosen ← s.choose p.key
  let (width, sized) ← chosen.amount p.width
  let (precision, ready) ← sized.amount p.precision
  if precision.any (largestPrecision < ·) then none
  else if p.kind = '%' then some (['%'], ready)
  else
    let (v, rest) ← ready.next
    let text ← p.text? precision v
    if width.all (·.natAbs ≤ text.length) then some (text, rest) else none

end Place

/-- The name that a template makes, where `fuel` is at least its length. -/
def fillFrom : Nat → List Char → Supply → Option (List Char)
  | _, [], s => if s.isSpent then some [] else none
  | 0, _ :: _, _ => none
  | fuel + 1, '%' :: text, s => do
    let (place, after) ← Place.read text
    let (filled, rest) ← place.fill s
    return filled ++ (← fillFrom fuel after rest)
  | fuel + 1, c :: text, s => (fillFrom fuel text s).map (c :: ·)

/-- The name that a template makes of its arguments. Without any it stands for itself. -/
def fillTemplate (template : String) (args : List Value) : Option String :=
  if args.isEmpty then some template
  else (fillFrom template.length template.toList (.ofArguments args)).map String.ofList

end KeyAtlas.Log
