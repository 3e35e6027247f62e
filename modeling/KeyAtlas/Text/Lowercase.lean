import KeyAtlas.Text.Blank
import KeyAtlas.Text.Lowercase.Table

namespace KeyAtlas.Text

namespace Lowercase

def CaseRun.covers (run : CaseRun) (code : Nat) : Bool :=
  run.first ≤ code && code ≤ run.last && (code - run.first) % run.stride = 0

def simple (c : Char) : Char :=
  match caseRuns.find? (·.covers c.toNat) with
  | some run => Char.ofNat (Int.ofNat c.toNat + run.shift).toNat
  | none => c

def isCased (c : Char) : Bool :=
  inRanges casedRanges c

def isIgnorable (c : Char) : Bool :=
  inRanges ignorableRanges c

/-- The text begins with a cased letter once ignorable characters are passed over. -/
def beginsCased (text : List Char) : Bool :=
  (text.dropWhile isIgnorable).head?.any isCased

/-- The lower case of the text that follows `before`, the latter last character first. -/
def lowerFrom (before : List Char) : List Char → List Char
  | [] => []
  | c :: rest =>
    let here :=
      if c = 'İ' then ['i', '\u0307']
      else if c = 'Σ' then
        if beginsCased before && !beginsCased rest then ['ς'] else ['σ']
      else [simple c]
    here ++ lowerFrom (c :: before) rest

end Lowercase

def lowercase (text : List Char) : List Char :=
  Lowercase.lowerFrom [] text

def lowercaseAscii (text : List Char) : List Char :=
  text.map Char.toLower

end KeyAtlas.Text
