import KeyAtlas.Yaml.Meaning
import KeyAtlas.Yaml.Node.Grammar
import KeyAtlas.Yaml.Token.Lexer

namespace KeyAtlas.Yaml

/-- The size of the blocks that a text is read in, of which the first two are read at once. -/
def blockSize : Nat :=
  4096

def blockStart (position : Nat) : Nat :=
  if position < 2 * blockSize then 0 else position / blockSize * blockSize

/-- The fault of a text with an invisible character. A fault in the blocks before that of the
character comes up earlier. -/
def faultBefore (text : List Char) (position : Nat) : Fault :=
  match Graph.ofTokens (Token.ofText (text.take (blockStart position))) with
  | .error fault => fault
  | .ok _ => .malformed

/-- The value of the only document in a text, nothing when it holds none. Collections that are part
of themselves have no end, so a value goes down only to a depth. -/
def load (depth : Nat) (text : List Char) : Except Fault Value :=
  match text.findIdx? fun c => !isPrintable c with
  | some position => .error (faultBefore text position)
  | none => do
    match ← Graph.ofTokens (Token.ofText text) with
    | none => return .null
    | some (graph, top) => return (← Meanings.ofGraph graph top).value depth top

end KeyAtlas.Yaml
