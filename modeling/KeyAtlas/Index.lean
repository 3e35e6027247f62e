import KeyAtlas.Definition
import KeyAtlas.OrderedMap
/-!
The suffix index. Every definition is held once under its document and once under each suffix of
its path, grouped by document there too, so that a partial reference is looked up one suffix at
a time and a document is removed by visiting only the suffixes of its own definitions.
-/

namespace KeyAtlas

abbrev Bucket (δ : Type) := OrderedMap String (List δ)

structure Index (δ : Type) where
  byDocument : OrderedMap String (List δ)
  bySuffix : OrderedMap (List String) (Bucket δ)

namespace Index

variable {δ : Type}

def empty : Index δ :=
  ⟨.empty, .empty⟩

instance : Inhabited (Index δ) := ⟨empty⟩

def append (m : OrderedMap String (List δ)) (document : String) (d : δ) :
    OrderedMap String (List δ) :=
  m.insert document ((m.get? document).getD [] ++ [d])

def bucket (i : Index δ) (suffix : List String) : Bucket δ :=
  (i.bySuffix.get? suffix).getD .empty

/-- A bucket left empty is not kept. -/
def putBucket (i : Index δ) (suffix : List String) (b : Bucket δ) : Index δ :=
  if b.isEmpty then { i with bySuffix := i.bySuffix.erase suffix }
  else { i with bySuffix := i.bySuffix.insert suffix b }

def register (document : String) (d : δ) (i : Index δ) (suffix : List String) : Index δ :=
  i.putBucket suffix (append (i.bucket suffix) document d)

def unregister (document : String) (i : Index δ) (suffix : List String) : Index δ :=
  i.putBucket suffix ((i.bucket suffix).erase document)

def documents (i : Index δ) : List String :=
  i.byDocument.keys

def definitionsFor (i : Index δ) (document : String) : List δ :=
  (i.byDocument.get? document).getD []

def contains (i : Index δ) (document : String) : Bool :=
  i.byDocument.contains document

def size (i : Index δ) : Nat :=
  i.byDocument.values.flatten.length

def suffixCount (i : Index δ) : Nat :=
  i.bySuffix.size

variable [Defines δ]

def pathOf (d : δ) : List String :=
  (Defines.definition d).path

def documentOf (d : δ) : String :=
  (Defines.definition d).document

def add (i : Index δ) (d : δ) : Index δ :=
  (suffixes (pathOf d)).foldl (register (documentOf d) d)
    { i with byDocument := append i.byDocument (documentOf d) d }

def addAll (i : Index δ) (ds : List δ) : Index δ :=
  ds.foldl add i

def removeDocument (i : Index δ) (document : String) : Index δ :=
  let touched := (i.definitionsFor document).flatMap fun d => suffixes (pathOf d)
  touched.foldl (unregister document) { i with byDocument := i.byDocument.erase document }

def removeCounting (i : Index δ) (document : String) : Index δ × Nat :=
  (i.removeDocument document, (i.definitionsFor document).length)

def lookup (i : Index δ) (suffix : List String) : List Match :=
  (i.bucket suffix).values.flatten.map fun d => ⟨Defines.definition d, suffix.length⟩

/-- The matches for every suffix of `path`, the longest suffix first. A definition answers once
for each suffix that it shares. -/
def query (i : Index δ) (path : List String) : List Match :=
  (suffixes path).reverse.flatMap i.lookup

/-- In how many places `d` itself is held below its suffixes. -/
def registrationCount [DecidableEq δ] (i : Index δ) (d : δ) : Nat :=
  ((suffixes (pathOf d)).flatMap fun suffix =>
    ((i.bucket suffix).get? (documentOf d)).getD []).count d

end Index

end KeyAtlas
