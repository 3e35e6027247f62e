import KeyAtlas.Text.Integer
import KeyAtlas.Text.Utf8
import KeyAtlas.Yaml.Token.Scalar
/-!
From the text of a document to its tokens. A node that may turn out to be a key is remembered until
a colon follows it on the same line; the tokens of its key are then put before it.
-/

namespace KeyAtlas.Yaml

/-- A node that may be a key. -/
structure Candidate where
  before : Nat
  position : Position
  /-- Whether nothing but a key may stand there. -/
  required : Bool

def longestKey : Nat :=
  1024

structure Lexer where
  cursor : Cursor
  /-- The tokens read so far, last first, and how many these are. -/
  tokens : List Token
  count : Nat
  /-- The column of the innermost block collection, one below zero outside of all. -/
  indent : Int
  outerIndents : List Int
  keyAllowed : Bool
  candidate : Option Candidate
  /-- The candidates of the surrounding flow collections, innermost first. -/
  outer : List (Option Candidate)
  finished : Bool

namespace Lexer

def start (text : List Char) : Lexer :=
  ⟨.start text, [], 0, -1, [], true, none, [], false⟩

def inFlow (l : Lexer) : Bool :=
  !l.outer.isEmpty

def peek? (l : Lexer) : Option Char :=
  l.cursor.peek?

def column (l : Lexer) : Int :=
  l.cursor.column

def emit (l : Lexer) (token : Token) : Lexer :=
  { l with tokens := token :: l.tokens, count := l.count + 1 }

def skip (l : Lexer) (count : Nat) : Lexer :=
  { l with cursor := l.cursor.skip count }

/-! ### Candidates for keys -/

/-- Whether the end of a candidate is still on its line and not too far away. -/
def Candidate.isOpen (c : Candidate) (p : Position) : Bool :=
  c.position.line = p.line && p.offset ≤ c.position.offset + longestKey

def dropStale (l : Lexer) : Except Fault Lexer :=
  let isOpen (c : Candidate) := Candidate.isOpen c l.cursor.position
  if (l.candidate :: l.outer).any fun c => c.any fun c => c.required && !isOpen c then
    .error .malformed
  else .ok { l with candidate := l.candidate.filter isOpen, outer := l.outer.map (·.filter isOpen) }

def dropCandidate (l : Lexer) : Except Fault Lexer :=
  if l.candidate.any (·.required) then .error .malformed else .ok { l with candidate := none }

def saveCandidate (l : Lexer) : Except Fault Lexer :=
  if l.keyAllowed then
    let required := !l.inFlow && l.indent == l.column
    let here : Candidate := ⟨l.count, l.cursor.position, required⟩
    l.dropCandidate.map fun l => { l with candidate := some here }
  else .ok l

/-! ### Indentation -/

/-- The indentation that is left of all those up to `column`, the ones around it, and how many are
deeper. -/
def closeDeeper (column indent : Int) (outer : List Int) (closed : Nat) : Int × List Int × Nat :=
  if column < indent then
    match outer with
    | [] => (-1, [], closed + 1)
    | next :: others => closeDeeper column next others (closed + 1)
  else (indent, outer, closed)

/-- Ends the block collections that stand deeper than `column`. Inside flow collections indentation
does not count. -/
def unwind (l : Lexer) (column : Int) : Lexer :=
  if l.inFlow then l
  else
    let (indent, outer, closed) := closeDeeper column l.indent l.outerIndents 0
    { l with
      indent := indent
      outerIndents := outer
      tokens := List.replicate closed .blockEnd ++ l.tokens
      count := l.count + closed }

def openBlock (l : Lexer) (column : Int) (token : Token) : Lexer :=
  if !l.inFlow && l.indent < column then
    { l with indent := column, outerIndents := l.indent :: l.outerIndents }.emit token
  else l

def blockIndicator (l : Lexer) (collection indicator : Token) : Except Fault Lexer :=
  if !l.inFlow && !l.keyAllowed then .error .malformed
  else (l.openBlock l.column collection).dropCandidate.map fun l =>
    (l.emit indicator).skip 1

/-! ### Indicators -/

def flowStart (l : Lexer) (token : Token) : Except Fault Lexer :=
  l.saveCandidate.map fun l =>
    ({ l with outer := l.candidate :: l.outer, candidate := none, keyAllowed := true }.emit
      token).skip 1

def flowEnd (l : Lexer) (token : Token) : Except Fault Lexer :=
  match l.outer with
  | [] => .error .malformed
  | candidate :: outer =>
    .ok (({ l with candidate := candidate, outer := outer, keyAllowed := false }.emit token).skip 1)

def flowEntry (l : Lexer) : Except Fault Lexer :=
  .ok (({ l with candidate := none, keyAllowed := true }.emit .flowEntry).skip 1)

def blockEntry (l : Lexer) : Except Fault Lexer :=
  (l.blockIndicator .blockSequenceStart .blockEntry).map fun l => { l with keyAllowed := true }

def explicitKey (l : Lexer) : Except Fault Lexer :=
  (l.blockIndicator .blockMappingStart .key).map fun l => { l with keyAllowed := !l.inFlow }

def insertKey (l : Lexer) (c : Candidate) : Lexer :=
  let since := l.count - c.before
  let cut := { l with tokens := l.tokens.drop since, count := c.before, candidate := none }
  let opened := (cut.openBlock c.position.column .blockMappingStart).emit .key
  { opened with
    tokens := l.tokens.take since ++ opened.tokens
    count := opened.count + since
    keyAllowed := false }

def mappingValue (l : Lexer) : Except Fault Lexer :=
  match l.candidate with
  | some c => .ok (((l.insertKey c).emit .value).skip 1)
  | none =>
    (l.blockIndicator .blockMappingStart .value).map fun l => { l with keyAllowed := !l.inFlow }

def separator (l : Lexer) (token : Token) : Except Fault Lexer :=
  (l.unwind (-1)).dropCandidate.map fun l => ({ l with keyAllowed := false }.emit token).skip 3

def finish (l : Lexer) : Except Fault Lexer :=
  (l.unwind (-1)).dropCandidate.map fun l => { l.emit .streamEnd with finished := true }

/-! ### Directives -/

def spaces (c : Cursor) : Cursor :=
  c.skipWhile (· = ' ')

def tagHandle (c : Cursor) : Except Fault (List Char × Cursor) :=
  if c.peek? = some '!' then
    let (name, last) := c.next.span isNameChar
    if last.peek? = some '!' then .ok ('!' :: name ++ ['!'], last.next)
    else if name.isEmpty && last.peek? = some ' ' then .ok (['!'], last)
    else .error .malformed
  else .error .malformed

/-- Decodes the escapes in the text of a tag; `octets` are those of a run that has not ended yet,
last first. -/
def unescapeTag (octets : List UInt8) : List Char → Option (List Char)
  | [] => Text.Utf8.decode? octets.reverse
  | '%' :: high :: low :: rest =>
    match hexDigit? high, hexDigit? low with
    | some h, some l => unescapeTag ((h * 16 + l).toUInt8 :: octets) rest
    | _, _ => none
  | '%' :: _ => none
  | c :: rest =>
    match Text.Utf8.decode? octets.reverse, unescapeTag [] rest with
    | some decoded, some text => some (decoded ++ c :: text)
    | _, _ => none

def tagText (c : Cursor) : Except Fault (List Char × Cursor) :=
  let (run, last) := c.span isTagChar
  match run, unescapeTag [] run with
  | [], _ => .error .malformed
  | _, none => .error .malformed
  | _, some text => .ok (text, last)

def versionDirective (c : Cursor) : Except Fault (Token × Cursor) :=
  let (major, dot) := (spaces c).span isDecimal
  let (minor, last) := dot.next.span isDecimal
  if Text.Integer.longest < major.length then .error .badNumeral
  else if dot.peek? = some '.' && Text.Integer.longest < minor.length then .error .badNumeral
  else if !major.isEmpty && dot.peek? = some '.' && !minor.isEmpty && atSpaceOrEnd last.peek? then
    .ok (.version ((Text.Integer.natural? Text.asciiDigit? major).getD 0), last)
  else .error .malformed

def tagDirective (c : Cursor) : Except Fault (Token × Cursor) :=
  match tagHandle (spaces c) with
  | .error fault => .error fault
  | .ok (handle, afterHandle) =>
    if afterHandle.peek? = some ' ' then
      match tagText (spaces afterHandle) with
      | .error fault => .error fault
      | .ok (expansion, last) =>
        if atSpaceOrEnd last.peek? then
          .ok (.tagHandle (.ofList handle) (.ofList expansion), last)
        else .error .malformed
    else .error .malformed

def directiveBody (name : List Char) (c : Cursor) : Except Fault (Token × Cursor) :=
  if name.isEmpty || !atSpaceOrEnd c.peek? then .error .malformed
  else match String.ofList name with
    | "YAML" => versionDirective c
    | "TAG" => tagDirective c
    | _ => .ok (.otherDirective, c.skipWhile fun ch => !isBreak ch)

def directive (l : Lexer) : Except Fault Lexer :=
  match (l.unwind (-1)).dropCandidate with
  | .error fault => .error fault
  | .ok l =>
    let (name, afterName) := l.cursor.next.span isNameChar
    match directiveBody name afterName with
    | .error fault => .error fault
    | .ok (token, last) =>
      match last.finishLine? with
      | none => .error .malformed
      | some line => .ok ({ l with cursor := line, keyAllowed := false }.emit token)

/-! ### Nodes -/

def nodePart (l : Lexer) (lexeme : Except Fault (Token × Cursor)) : Except Fault Lexer :=
  match l.saveCandidate, lexeme with
  | .error fault, _ => .error fault
  | _, .error fault => .error fault
  | .ok l, .ok (token, last) => .ok ({ l with cursor := last, keyAllowed := false }.emit token)

/-- Characters that may follow the name of an anchor besides blanks and line ends. -/
def namesEnd : List Char :=
  ['?', ':', ',', ']', '}', '%', '@', '\x60']

def anchorName (c : Cursor) : Except Fault (String × Cursor) :=
  let (name, last) := c.next.span isNameChar
  if !name.isEmpty && (atBlankOrEnd last.peek? || last.peek?.any namesEnd.contains) then
    .ok (.ofList name, last)
  else .error .malformed

def verbatimTag (c : Cursor) : Except Fault (Token × Cursor) :=
  match tagText (c.skip 2) with
  | .error fault => .error fault
  | .ok (text, last) =>
    if last.peek? = some '>' then .ok (.tag none (.ofList text), last.next) else .error .malformed

def hasSecondMark (c : Cursor) : Bool :=
  (c.next.rest.takeWhile fun ch => ch ≠ ' ' && !isBreak ch).contains '!'

def shorthandTag (c : Cursor) : Except Fault (Token × Cursor) :=
  match if hasSecondMark c then tagHandle c else .ok (['!'], c.next) with
  | .error fault => .error fault
  | .ok (handle, afterHandle) =>
    (tagText afterHandle).map fun (text, last) =>
      (.tag (some (.ofList handle)) (.ofList text), last)

def tag (c : Cursor) : Except Fault (Token × Cursor) :=
  let read :=
    if c.next.peek? = some '<' then verbatimTag c
    else if atBlankOrEnd c.next.peek? then .ok (.tag none "!", c.next)
    else shorthandTag c
  match read with
  | .error fault => .error fault
  | .ok (token, last) =>
    if atSpaceOrEnd last.peek? then .ok (token, last) else .error .malformed

def quoted (l : Lexer) (read : Except Fault (Wording × Cursor)) : Except Fault Lexer :=
  l.nodePart (read.map fun (wording, last) => (.scalar wording false, last))

def plain (l : Lexer) : Except Fault Lexer :=
  l.saveCandidate.map fun l =>
    let s := plainFrom l.inFlow (l.indent + 1).toNat [] .none l.cursor.position l.cursor.rest
    { l with cursor := s.last, keyAllowed := s.lineEnded }.emit (.scalar (.text (.ofList s.text)) true)

def block (l : Lexer) (folded : Bool) : Except Fault Lexer :=
  match l.dropCandidate with
  | .error fault => .error fault
  | .ok l =>
    (blockScalar folded (max 1 (l.indent + 1)).toNat l.cursor.next).map fun (text, last) =>
      { l with cursor := last, keyAllowed := true }.emit (.scalar (.text (.ofList text)) false)

def startsPlain (inFlow : Bool) (c : Char) (next : Option Char) : Bool :=
  !(['\t', '-', '?', ':', ',', '[', ']', '{', '}', '#', '&', '*', '!', '|', '>', '\'', '"', '%',
      '@', '\x60'].contains c) ||
    (!atBlankOrEnd next && (c = '-' || (!inFlow && (c = '?' || c = ':'))))

/-! ### The token at hand -/

def token (l : Lexer) (c : Char) (next : Option Char) : Except Fault Lexer :=
  let lineStart := l.cursor.column = 0
  let apart := l.inFlow || atBlankOrEnd next
  if c = '%' && lineStart then l.directive
  else if c = '-' && lineStart && atSeparator l.cursor.rest then l.separator .documentStart
  else if c = '.' && lineStart && atSeparator l.cursor.rest then l.separator .documentEnd
  else if c = '[' then l.flowStart .flowSequenceStart
  else if c = '{' then l.flowStart .flowMappingStart
  else if c = ']' then l.flowEnd .flowSequenceEnd
  else if c = '}' then l.flowEnd .flowMappingEnd
  else if c = ',' then l.flowEntry
  else if c = '-' && atBlankOrEnd next then l.blockEntry
  else if c = '?' && apart then l.explicitKey
  else if c = ':' && apart then l.mappingValue
  else if c = '*' then
    l.nodePart ((anchorName l.cursor).map fun (name, last) => (.alias name, last))
  else if c = '&' then
    l.nodePart ((anchorName l.cursor).map fun (name, last) => (.anchor name, last))
  else if c = '!' then l.nodePart (tag l.cursor)
  else if c = '|' && !l.inFlow then l.block false
  else if c = '>' && !l.inFlow then l.block true
  else
    let inside := l.cursor.next
    if c = '\'' then l.quoted (singleQuotedFrom [] .none inside.position inside.rest)
    else if c = '"' then l.quoted (doubleQuotedFrom [] (.words .none) inside.position inside.rest)
    else if startsPlain l.inFlow c next then l.plain
    else .error .malformed

def passGap (l : Lexer) : Lexer :=
  let (cursor, ended) := l.cursor.gap
  { l with cursor := cursor, keyAllowed := l.keyAllowed || (ended && !l.inFlow) }

def step (l : Lexer) : Except Fault Lexer :=
  match l.passGap.dropStale with
  | .error fault => .error fault
  | .ok l =>
    let l := l.unwind l.column
    match l.cursor.rest with
    | [] => l.finish
    | c :: rest => l.token c rest.head?

/-- The tokens that are settled: those before the first candidate that may still turn out to be a
key. Nobody sees a candidate before what follows it has been read. -/
def settled (l : Lexer) : List Token :=
  let waiting := ((l.candidate :: l.outer).filterMap id).filter
    fun c => Candidate.isOpen c l.cursor.position
  l.tokens.drop (l.count - waiting.foldl (fun n c => min n c.before) l.count)

/-- The tokens from here on. Each step reads at least one character, so `fuel` of one more than the
length of the text is enough. -/
def run : Nat → Lexer → List Token
  | 0, l => (Token.unreadable .malformed :: l.settled).reverse
  | fuel + 1, l =>
    match l.step with
    | .error fault => (.unreadable fault :: l.settled).reverse
    | .ok next => if next.finished then next.tokens.reverse else run fuel next

end Lexer

def Token.ofText (text : List Char) : List Token :=
  (Lexer.start text).run (text.length + 1)

end KeyAtlas.Yaml
