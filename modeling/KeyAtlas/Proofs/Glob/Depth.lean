import KeyAtlas.Proofs.Glob.Meaning
import KeyAtlas.Proofs.Text.Split

namespace KeyAtlas

/-- The names between the slashes of a path, empty ones included. -/
def pathNames (path : String) : List String :=
  (Text.splitOn '/' path.toList).map String.ofList

namespace Glob

theorem parse_anyDepth (pattern : List Char) :
    parse ('*' :: '*' :: '/' :: pattern).length ('*' :: '*' :: '/' :: pattern) =
      .any :: .literal '/' :: parse pattern.length pattern :=
  rfl

def isOrdinary (c : Char) : Bool :=
  c ≠ '*' && c ≠ '?' && c ≠ '['

theorem parse_ordinary {letters : List Char} (ordinary : letters.all isOrdinary = true)
    (fuel : Nat) (rest : List Char) :
    parse (letters.length + fuel) (letters ++ rest) = letters.map .literal ++ parse fuel rest := by
  induction letters with
  | nil => simp
  | cons c letters ih =>
    rw [List.all_cons, Bool.and_eq_true] at ordinary
    have more : (c :: letters).length + fuel = letters.length + fuel + 1 := by
      rw [List.length_cons]
      omega
    have first : c ≠ '*' ∧ c ≠ '?' ∧ c ≠ '[' := by simpa [isOrdinary, and_assoc] using ordinary.1
    rw [more, List.cons_append, List.map_cons, List.cons_append, parse.eq_7, ih ordinary.2]
    all_goals simp [first]

end Glob

theorem globMatches_anyDepth_iff {pattern text : List Char} :
    globMatches ('*' :: '*' :: '/' :: pattern) text = true ↔
      ∃ above below, text = above ++ '/' :: below ∧ globMatches pattern below = true := by
  rw [globMatches_iff, Glob.parse_anyDepth, Glob.stands_any_iff]
  simp only [Glob.stands_literal_iff, globMatches_iff]
  constructor
  · rintro ⟨_, ⟨above, rfl⟩, below, rfl, stands⟩
    exact ⟨above, below, rfl, stands⟩
  · rintro ⟨above, below, rfl, stands⟩
    exact ⟨'/' :: below, List.suffix_append _ _, below, rfl, stands⟩

theorem matchesAny_iff {path : String} {patterns : List String} :
    matchesAny path patterns = true ↔ ∃ pattern ∈ patterns, matchesAny path [pattern] = true := by
  simp [matchesAny]

theorem toList_anyDepth (glob : String) :
    ("**/" ++ glob).toList = '*' :: '*' :: '/' :: glob.toList := by
  rw [String.toList_append]
  rfl

theorem matchesAny_anyDepth_iff (glob path : String) :
    matchesAny path ["**/" ++ glob] = true ↔ globMatches glob.toList path.toList = true ∨
      ∃ above below : String, path = above ++ "/" ++ below ∧
        globMatches glob.toList below.toList = true := by
  have leads : Text.startsWith ['*', '*', '/'] ('*' :: '*' :: '/' :: glob.toList) = true := by
    simp [Text.startsWith]
  simp only [matchesAny, List.any_cons, List.any_nil, Bool.or_false, toList_anyDepth, leads,
    Bool.true_and, List.drop_succ_cons, List.drop_zero, Bool.or_eq_true, globMatches_anyDepth_iff]
  rw [or_comm]
  refine or_congr_right ?_
  constructor
  · rintro ⟨above, below, whole, matched⟩
    refine ⟨String.ofList above, String.ofList below, ?_, by rwa [String.toList_ofList]⟩
    rw [← String.toList_inj, whole]
    simp
  · rintro ⟨above, below, rfl, matched⟩
    exact ⟨above.toList, below.toList, by simp, matched⟩

def belowName (name : String) : String :=
  "**/" ++ name ++ "/**"

def IsOrdinaryName (name : String) : Prop :=
  '/' ∉ name.toList ∧ name.toList.all Glob.isOrdinary = true

instance (name : String) : Decidable (IsOrdinaryName name) :=
  inferInstanceAs (Decidable (_ ∧ _))

theorem globMatches_name_iff {name text : List Char} (ordinary : name.all Glob.isOrdinary = true) :
    globMatches (name ++ ['/', '*', '*']) text = true ↔ ∃ rest, text = name ++ '/' :: rest := by
  have whole : (name ++ ['/']).all Glob.isOrdinary = true := by
    rw [List.all_append, ordinary]
    rfl
  have pieces := Glob.parse_ordinary whole 2 ['*', '*']
  have size : (name ++ ['/', '*', '*']).length = (name ++ ['/']).length + 2 := by simp
  have split : name ++ ['/', '*', '*'] = name ++ ['/'] ++ ['*', '*'] := by simp
  rw [globMatches_iff, size, split, pieces, Glob.stands_literals_iff]
  refine exists_congr fun rest => ?_
  have any : Glob.Stands (Glob.parse 2 ['*', '*']) rest :=
    Glob.stands_any_iff.mpr ⟨[], List.nil_suffix, .nil⟩
  simp [any]

theorem matchesAny_belowName_iff {name : String} (ordinary : IsOrdinaryName name) (path : String) :
    matchesAny path [belowName name] = true ↔ name ∈ (pathNames path).dropLast := by
  have letters : (name ++ "/**").toList = name.toList ++ ['/', '*', '*'] := by
    rw [String.toList_append]
    rfl
  have names : name ∈ (pathNames path).dropLast ↔
      name.toList ∈ (Text.splitOn '/' path.toList).dropLast := by
    rw [pathNames, ← List.map_dropLast, List.mem_map]
    constructor
    · rintro ⟨piece, member, rfl⟩
      rwa [String.toList_ofList]
    · exact fun member => ⟨_, member, String.ofList_toList⟩
  rw [names, Text.mem_dropLast_splitOn_iff ordinary.1, belowName, String.append_assoc,
    matchesAny_anyDepth_iff, letters]
  simp only [globMatches_name_iff ordinary.2]
  refine or_congr_right ?_
  constructor
  · rintro ⟨above, below, rfl, rest, shape⟩
    exact ⟨above.toList, rest, by simp [shape]⟩
  · rintro ⟨above, rest, shape⟩
    refine ⟨String.ofList above, String.ofList (name.toList ++ '/' :: rest), ?_, rest, by simp⟩
    rw [← String.toList_inj, shape]
    simp

theorem matchesAny_belowNames_iff {names : List String}
    (ordinary : ∀ name ∈ names, IsOrdinaryName name) (path : String) :
    matchesAny path (names.map belowName) = true ↔
      ∃ name ∈ names, name ∈ (pathNames path).dropLast := by
  rw [matchesAny_iff]
  constructor
  · rintro ⟨_, present, matched⟩
    obtain ⟨name, member, rfl⟩ := List.mem_map.mp present
    exact ⟨name, member, (matchesAny_belowName_iff (ordinary name member) path).mp matched⟩
  · rintro ⟨name, member, held⟩
    exact ⟨belowName name, List.mem_map_of_mem member,
      (matchesAny_belowName_iff (ordinary name member) path).mpr held⟩

variable {parts : List String}

theorem pathNames_intercalate (nonempty : parts ≠ [])
    (slashless : ∀ part ∈ parts, '/' ∉ part.toList) :
    pathNames ("/".intercalate parts) = parts := by
  rw [pathNames, Text.splitOn_toList_intercalate nonempty slashless, List.map_map]
  simp [Function.comp_def]

theorem dropLast_pathNames_intercalate (slashless : ∀ part ∈ parts, '/' ∉ part.toList) :
    (pathNames ("/".intercalate parts)).dropLast = parts.dropLast := by
  by_cases empty : parts = []
  · subst empty
    rfl
  · rw [pathNames_intercalate empty slashless]

theorem dropLast_pathNames_directory (nonempty : parts ≠ [])
    (slashless : ∀ part ∈ parts, '/' ∉ part.toList) :
    (pathNames ("/".intercalate parts ++ "/")).dropLast = parts := by
  have names := pathNames_intercalate nonempty slashless
  rw [pathNames] at names ⊢
  have slash : ("/".intercalate parts ++ "/").toList = ("/".intercalate parts).toList ++ ['/'] := by
    rw [String.toList_append]
    rfl
  rw [slash, Text.splitOn_append_cons, List.map_append, names]
  exact List.dropLast_concat

end KeyAtlas
