
namespace KeyAtlas.Text

/-- The pieces between separators, empty ones included. The first piece already holds `current`,
last character first. -/
def splitFrom (separator : Char) (current : List Char) : List Char → List (List Char)
  | [] => [current.reverse]
  | c :: rest =>
    if c = separator then current.reverse :: splitFrom separator [] rest
    else splitFrom separator (c :: current) rest

def splitOn (separator : Char) (text : List Char) : List (List Char) :=
  splitFrom separator [] text

end KeyAtlas.Text
