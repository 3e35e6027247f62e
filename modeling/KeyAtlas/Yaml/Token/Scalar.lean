import KeyAtlas.Yaml.Cursor
import KeyAtlas.Yaml.Token
/-!
The text of scalars: plain, quoted and block scalars. Inside a scalar one line end is folded into a
space and several into one less, except in a literal block.
-/

namespace KeyAtlas.Yaml

/-! ### Folding -/

def foldBreaks : List Char → List Char
  | ['\n'] => [' ']
  | '\n' :: more => more
  | breaks => breaks

/-- What lies between two words of a scalar, last character first. After an escaped line end only
further line ends count. -/
inductive Gap where
  | none
  | blanks (run : List Char)
  | folded (breaks : List Char)
  | joined (breaks : List Char)

namespace Gap

def addBlank (c : Char) : Gap → Gap
  | none => blanks [c]
  | blanks run => blanks (c :: run)
  | gap => gap

def addBreak (c : Char) : Gap → Gap
  | none => folded [breakText c]
  | blanks _ => folded [breakText c]
  | folded breaks => folded (breakText c :: breaks)
  | joined breaks => joined (breakText c :: breaks)

def text : Gap → List Char
  | none => []
  | blanks run => run.reverse
  | folded breaks => foldBreaks breaks.reverse
  | joined breaks => breaks.reverse

def isNone : Gap → Bool
  | none => true
  | _ => false

def endsLine : Gap → Bool
  | folded _ => true
  | joined _ => true
  | _ => false

end Gap

/-- The text read so far, last character first, with the gap closed and `c` added. -/
def appendWord (text : List Char) (gap : Gap) (c : Char) : List Char :=
  c :: (gap.text.reverse ++ text)

/-! ### Plain scalars -/

def endsPlain (inFlow : Bool) (c : Char) (next : Option Char) : Bool :=
  c = '\t' ||
    (c = ':' && (atBlankOrEnd next || (inFlow && next.any isFlowIndicator))) ||
    (inFlow && (c = '?' || isFlowIndicator c))

structure PlainScalar where
  text : List Char
  last : Cursor
  lineEnded : Bool

def PlainScalar.ofParts (text : List Char) (gap : Gap) (last : Cursor) : PlainScalar :=
  ⟨text.reverse, last, gap.endsLine⟩

/-- Reads on from `p`. Outside flow collections the words of later lines stand at the column
`indent` or deeper. -/
def plainFrom (inFlow : Bool) (indent : Nat) (text : List Char) (gap : Gap) (p : Position) :
    List Char → PlainScalar
  | [] => .ofParts text gap ⟨p, []⟩
  | c :: rest =>
    if c = ' ' then plainFrom inFlow indent text (gap.addBlank c) (p.after c) rest
    else if isBreak c then
      if atSeparator rest then .ofParts text (gap.addBreak c) ⟨p.after c, rest⟩
      else plainFrom inFlow indent text (gap.addBreak c) (p.after c) rest
    else if !gap.isNone && (c = '#' || (!inFlow && p.column < indent)) then
      .ofParts text gap ⟨p, c :: rest⟩
    else if endsPlain inFlow c rest.head? then .ofParts text gap ⟨p, c :: rest⟩
    else plainFrom inFlow indent (appendWord text gap c) .none (p.after c) rest

/-! ### Quoted scalars -/

def singleQuotedFrom (text : List Char) (gap : Gap) (p : Position) :
    List Char → Except Fault (Wording × Cursor)
  | [] => .error .malformed
  | '\'' :: '\'' :: rest =>
    singleQuotedFrom (appendWord text gap '\'') .none ((p.after '\'').after '\'') rest
  | '\'' :: rest =>
    .ok (.text (.ofList (gap.text.reverse ++ text).reverse), ⟨p.after '\'', rest⟩)
  | c :: rest =>
    if c = ' ' || c = '\t' then singleQuotedFrom text (gap.addBlank c) (p.after c) rest
    else if isBreak c then
      if atSeparator rest then .error .malformed
      else singleQuotedFrom text (gap.addBreak c) (p.after c) rest
    else singleQuotedFrom (appendWord text gap c) .none (p.after c) rest

def simpleEscapes : List (Char × Char) :=
  [('0', '\x00'), ('a', '\x07'), ('b', '\x08'), ('t', '\t'), ('\t', '\t'), ('n', '\n'),
   ('v', '\x0b'), ('f', '\x0c'), ('r', '\r'), ('e', '\x1b'), (' ', ' '), ('"', '"'), ('\\', '\\'),
   ('/', '/'), ('N', '\u0085'), ('_', '\u00a0'), ('L', '\u2028'), ('P', '\u2029')]

def codeEscapes : List (Char × Nat) :=
  [('x', 2), ('u', 4), ('U', 8)]

def escapeFault? (code : Nat) : Option Fault :=
  if code ≤ 0x10FFFF then none else some (.badEscape (0x7FFFFFFF < code))

def appendGap (text : List Nat) (gap : Gap) : List Nat :=
  (gap.text.map Char.toNat).reverse ++ text

inductive QuotedState where
  | words (gap : Gap)
  | escape
  | code (digitsLeft value : Nat)

/-- Reads a double-quoted scalar after its opening quote. The code points read so far come last
first. -/
def doubleQuotedFrom (text : List Nat) (s : QuotedState) (p : Position) :
    List Char → Except Fault (Wording × Cursor)
  | [] => .error .malformed
  | c :: rest =>
    let q := p.after c
    match s with
    | .words gap =>
      if c = '"' then .ok (.ofPoints (appendGap text gap).reverse, ⟨q, rest⟩)
      else if c = '\\' then doubleQuotedFrom (appendGap text gap) .escape q rest
      else if c = ' ' || c = '\t' then doubleQuotedFrom text (.words (gap.addBlank c)) q rest
      else if isBreak c then
        if atSeparator rest then .error .malformed
        else doubleQuotedFrom text (.words (gap.addBreak c)) q rest
      else doubleQuotedFrom (c.toNat :: appendGap text gap) (.words .none) q rest
    | .escape =>
      if isBreak c then
        if atSeparator rest then .error .malformed
        else doubleQuotedFrom text (.words (.joined [])) q rest
      else match simpleEscapes.lookup c with
        | some plain => doubleQuotedFrom (plain.toNat :: text) (.words .none) q rest
        | none =>
          match codeEscapes.lookup c with
          | some digits => doubleQuotedFrom text (.code digits 0) q rest
          | none => .error .malformed
    | .code left value =>
      match hexDigit? c with
      | none => .error .malformed
      | some digit =>
        let code := value * 16 + digit
        if left ≤ 1 then
          match escapeFault? code with
          | none => doubleQuotedFrom (code :: text) (.words .none) q rest
          | some fault => .error fault
        else doubleQuotedFrom text (.code (left - 1) code) q rest

/-! ### Block scalars -/

inductive Chomping where
  | strip
  | clip
  | keep

structure BlockHeader where
  chomping : Chomping
  depth : Option Nat

def chomping? : Char → Option Chomping
  | '+' => some .keep
  | '-' => some .strip
  | _ => none

def depth? (c : Char) : Option Nat :=
  if '1' ≤ c && c ≤ '9' then some (c.toNat - 0x30) else none

/-- The header of a block after its `|` or `>`: a chomping mark and a depth, each at most once and
in either order. -/
def blockHeader (c : Cursor) : BlockHeader × Cursor :=
  match c.peek?.bind chomping? with
  | some chomping =>
    match c.next.peek?.bind depth? with
    | some depth => (⟨chomping, some depth⟩, c.next.next)
    | none => (⟨chomping, none⟩, c.next)
  | none =>
    match c.peek?.bind depth? with
    | none => (⟨.clip, none⟩, c)
    | some depth =>
      match c.next.peek?.bind chomping? with
      | some chomping => (⟨chomping, some depth⟩, c.next.next)
      | none => (⟨.clip, some depth⟩, c.next)

/-- Passes over the empty lines at the start of a block and the indentation of its first line, and
finds the deepest column that spaces reach. Line ends come last first. -/
def probeBlock (breaks : List Char) (deepest : Nat) (p : Position) :
    List Char → List Char × Nat × Cursor
  | [] => (breaks, deepest, ⟨p, []⟩)
  | c :: rest =>
    if c = ' ' then probeBlock breaks (max deepest (p.column + 1)) (p.after c) rest
    else if isBreak c then probeBlock (breakText c :: breaks) deepest (p.after c) rest
    else (breaks, deepest, ⟨p, c :: rest⟩)

structure BlockText where
  /-- The text up to the last line, last character first. -/
  text : List Char
  lineEnd : Option Char
  /-- The ends of the empty lines since then, last first. -/
  breaks : List Char
  inLine : Bool
  indented : Bool

namespace BlockText

def foldedEnd (b : BlockText) (first : Char) : List Char :=
  if b.lineEnd = some '\n' && !b.indented && first ≠ ' ' && first ≠ '\t' then
    if b.breaks.isEmpty then [' '] else []
  else b.lineEnd.toList

def beginLine (b : BlockText) (folded : Bool) (first : Char) : BlockText :=
  let lineEnd := if folded then b.foldedEnd first else b.lineEnd.toList
  ⟨first :: (b.breaks ++ (lineEnd ++ b.text)), none, [], true, first = ' ' || first = '\t'⟩

def endLine (b : BlockText) (c : Char) : BlockText :=
  { b with lineEnd := some (breakText c), inLine := false }

def chomp (b : BlockText) : Chomping → List Char
  | .strip => b.text.reverse
  | .clip => (b.lineEnd.toList ++ b.text).reverse
  | .keep => (b.breaks ++ (b.lineEnd.toList ++ b.text)).reverse

end BlockText

def blockFrom (folded : Bool) (indent : Nat) (b : BlockText) (p : Position) :
    List Char → BlockText × Cursor
  | [] => (b, ⟨p, []⟩)
  | c :: rest =>
    if b.inLine then
      if isBreak c then blockFrom folded indent (b.endLine c) (p.after c) rest
      else blockFrom folded indent { b with text := c :: b.text } (p.after c) rest
    else if isBreak c then
      blockFrom folded indent { b with breaks := breakText c :: b.breaks } (p.after c) rest
    else if p.column < indent then
      if c = ' ' then blockFrom folded indent b (p.after c) rest else (b, ⟨p, c :: rest⟩)
    else if p.column = indent then
      blockFrom folded indent (b.beginLine folded c) (p.after c) rest
    else (b, ⟨p, c :: rest⟩)

def blockScalar (folded : Bool) (least : Nat) (c : Cursor) : Except Fault (List Char × Cursor) :=
  let (header, body) := blockHeader c
  if !atSpaceOrEnd body.peek? then .error .malformed
  else match body.finishLine? with
    | none => .error .malformed
    | some start =>
      let (breaks, indent, first) := match header.depth with
        | some depth => ([], least + depth - 1, start)
        | none =>
          let (breaks, deepest, first) := probeBlock [] 0 start.position start.rest
          (breaks, max least deepest, first)
      let (b, last) := blockFrom folded indent ⟨[], none, breaks, false, false⟩ first.position
        first.rest
      .ok (b.chomp header.chomping, last)

end KeyAtlas.Yaml
