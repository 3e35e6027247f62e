import KeyAtlas.Text.Blank
/-!
Shell globs over whole texts: `*` is any text, slashes and line breaks included, `?` any
character, `[...]` a set of characters and `[!...]` its complement. A `[` that nothing closes
stands for itself.
-/

namespace KeyAtlas

namespace Glob

inductive Member where
  | single (c : Char)
  | span (low high : Char)
  deriving DecidableEq, Repr

namespace Member

def isEmpty : Member → Bool
  | single _ => false
  | span low high => high < low

def contains : Member → Char → Bool
  | single c, d => c = d
  | span low high, d => low ≤ d && d ≤ high

end Member

inductive Piece where
  | literal (c : Char)
  | one
  | any
  | oneOf (negated : Bool) (members : List Member)
  deriving DecidableEq, Repr

def members : List Char → List Member
  | [] => []
  | low :: '-' :: high :: rest => .span low high :: members rest
  | c :: rest => .single c :: members rest

/-- The set a bracket with this body stands for. Empty spans are dropped, and a `!` that they
leave in front negates like one that was written there. -/
def bracket : List Char → Piece
  | '!' :: body => .oneOf true ((members body).filter fun m => !m.isEmpty)
  | body =>
    match (members body).filter fun m => !m.isEmpty with
    | .single '!' :: rest => .oneOf true rest
    | .span '!' high :: rest => .oneOf true (.single '-' :: .single high :: rest)
    | kept => .oneOf false kept

/-- The body of a bracket and what follows it. A `]` that comes first belongs to the body. -/
def bracketBody (text : List Char) : Option (List Char × List Char) :=
  let (lead, rest) := match text with
    | '!' :: ']' :: rest => (['!', ']'], rest)
    | '!' :: rest => (['!'], rest)
    | ']' :: rest => ([']'], rest)
    | rest => ([], rest)
  match rest.dropWhile (· ≠ ']') with
  | [] => none
  | _ :: after => some (lead ++ rest.takeWhile (· ≠ ']'), after)

/-- The pieces of a pattern. Each step drops at least one character, so `fuel` of the pattern's
length is enough. -/
def parse : Nat → List Char → List Piece
  | 0, _ => []
  | _ + 1, [] => []
  | fuel + 1, '*' :: '*' :: rest => parse fuel ('*' :: rest)
  | fuel + 1, '*' :: rest => .any :: parse fuel rest
  | fuel + 1, '?' :: rest => .one :: parse fuel rest
  | fuel + 1, '[' :: rest =>
    match bracketBody rest with
    | none => .literal '[' :: parse fuel rest
    | some (body, after) => bracket body :: parse fuel after
  | fuel + 1, c :: rest => .literal c :: parse fuel rest

def Piece.accepts : Piece → Char → Bool
  | literal c, d => c = d
  | one, _ => true
  | any, _ => false
  | oneOf negated members, d => members.any (·.contains d) != negated

def tails : List Char → List (List Char)
  | [] => [[]]
  | c :: rest => (c :: rest) :: tails rest

/-- What one more piece can leave of texts that are tails of each other, the longest first. -/
def advance (remaining : List (List Char)) : Piece → List (List Char)
  | .any => (remaining.head?.map tails).getD []
  | piece => remaining.filterMap fun
    | [] => none
    | c :: rest => if piece.accepts c then some rest else none

def accepts (pieces : List Piece) (text : List Char) : Bool :=
  (pieces.foldl advance [text]).any (·.isEmpty)

end Glob

def globMatches (pattern text : List Char) : Bool :=
  Glob.accepts (Glob.parse pattern.length pattern) text

/-- Whether one of the patterns stands for the path. A leading `**/` also matches at the top. -/
def matchesAny (path : String) (patterns : List String) : Bool :=
  patterns.any fun pattern =>
    globMatches pattern.toList path.toList ||
      (Text.startsWith ['*', '*', '/'] pattern.toList &&
        globMatches (pattern.toList.drop 3) path.toList)

def nameIncluded (name : String) (patterns : List String) : Bool :=
  patterns.any fun pattern => globMatches pattern.toList name.toList

end KeyAtlas
