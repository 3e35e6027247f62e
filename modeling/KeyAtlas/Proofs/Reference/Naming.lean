import KeyAtlas.Reference
import KeyAtlas.Proofs.Text.Split
import KeyAtlas.Proofs.Text.Trim
import Mathlib.Data.List.Infix

namespace KeyAtlas.Reference

open Text

/-! ### Reading a text -/

/-- The inner text `inner` names the path `components`. -/
structure Names (inner : List Char) (components : List (List Char)) : Prop where
  nonempty : inner ≠ []
  unnested : hasOpening inner = false
  uncomputed : ':' ∉ inner
  cut : splitOn '.' (dropIndices none (inner.dropWhile (· = '.'))) = components
  accepted : ∀ component ∈ components, isComponent component = true

theorem parse_eq_some_iff {text : List Char} {components : List (List Char)} :
    parse text = some components ↔ Names (unwrap (trim text)) components := by
  constructor
  · intro named
    simp only [parse] at named
    split at named
    · cases named
    · rename_i sound
      simp only [Bool.or_eq_true, decide_eq_true_eq, List.contains_iff_mem, not_or,
        Bool.not_eq_true] at sound
      obtain ⟨⟨nonempty, unnested⟩, uncomputed⟩ := sound
      split at named
      · rename_i accepted
        refine ⟨nonempty, unnested, uncomputed, Option.some.inj named, ?_⟩
        rw [← Option.some.inj named]
        exact List.all_eq_true.mp accepted
      · cases named
  · intro names
    obtain ⟨nonempty, unnested, uncomputed, cut, accepted⟩ := names
    have all : components.all isComponent = true := List.all_eq_true.mpr accepted
    simp [parse, nonempty, unnested, uncomputed, cut, all]

theorem parse_congr_trim {text other : List Char} (same : trim text = trim other) :
    parse text = parse other := by
  rw [parse, parse, same]

theorem startsWith_opening_iff {text : List Char} :
    startsWith ['$', '{'] text = true ↔ ['$', '{'] <+: text :=
  List.isPrefixOf_iff_prefix

theorem unwrap_of_head {text : List Char} (bare : text.head? ≠ some '$') : unwrap text = text := by
  have apart : startsWith ['$', '{'] text = false := by
    rw [← Bool.not_eq_true, startsWith_opening_iff]
    rintro ⟨rest, rfl⟩
    exact bare rfl
  simp [unwrap, apart]

theorem unwrap_braces (inner : List Char) : unwrap ('$' :: '{' :: (inner ++ ['}'])) = trim inner := by
  have opens : startsWith ['$', '{'] ('$' :: '{' :: (inner ++ ['}'])) = true := rfl
  have closes : ('$' :: '{' :: (inner ++ ['}'])).getLast? = some '}' := by
    rw [← List.cons_append, ← List.cons_append, List.getLast?_concat]
  simp [unwrap, opens, closes]

theorem isTrimmed_braces (inner : List Char) : IsTrimmed ('$' :: '{' :: (inner ++ ['}'])) := by
  constructor
  · rintro _ ⟨⟩
    decide
  · rw [← List.cons_append, ← List.cons_append, List.getLast?_concat]
    rintro _ ⟨⟩
    decide

/-! ### Openings and indices -/

theorem hasOpening_iff {text : List Char} : hasOpening text = true ↔ ['$', '{'] <:+: text := by
  induction text with
  | nil => simp [hasOpening]
  | cons c rest ih =>
    rw [hasOpening, Bool.or_eq_true, ih, List.infix_cons_iff]
    refine or_congr ?_ Iff.rfl
    cases rest with
    | nil => simp
    | cons d rest =>
      rw [List.cons_prefix_cons, List.cons_prefix_cons]
      grind

theorem hasOpening_of_not_mem {text : List Char} (absent : '$' ∉ text) :
    hasOpening text = false := by
  rw [← Bool.not_eq_true, hasOpening_iff]
  rintro ⟨before, after, rfl⟩
  simp at absent

theorem dropIndices_append {word : List Char} (absent : '[' ∉ word) (rest : List Char) :
    dropIndices none (word ++ rest) = word ++ dropIndices none rest := by
  induction word with
  | nil => rfl
  | cons c word ih =>
    rw [List.mem_cons, not_or] at absent
    rw [List.cons_append, dropIndices, if_neg (Ne.symm absent.1), ih absent.2, List.cons_append]

theorem dropIndices_of_not_mem {text : List Char} (absent : '[' ∉ text) :
    dropIndices none text = text := by
  have alone := dropIndices_append absent []
  simpa [dropIndices] using alone

theorem dropIndices_held {index : List Char} (absent : ']' ∉ index) (held rest : List Char) :
    dropIndices (some held) (index ++ ']' :: rest) = dropIndices none rest := by
  induction index generalizing held with
  | nil => simp [dropIndices]
  | cons c index ih =>
    rw [List.mem_cons, not_or] at absent
    rw [List.cons_append, dropIndices, if_neg (Ne.symm absent.1), ih absent.2]

theorem mem_of_mem_dropIndices {held : Option (List Char)} {text : List Char} {c : Char}
    (member : c ∈ dropIndices held text) : (∃ h ∈ held, c ∈ h) ∨ c ∈ text := by
  fun_induction dropIndices held text with
  | case1 => cases member
  | case2 held => exact .inl ⟨held, rfl, List.mem_reverse.mp member⟩
  | case3 rest ih =>
    rcases ih member with ⟨h, same, found⟩ | found
    · cases same
      exact .inr (List.mem_cons.mpr (.inl (List.mem_singleton.mp found)))
    · exact .inr (List.mem_cons_of_mem _ found)
  | case4 d rest other ih =>
    rcases List.mem_cons.mp member with rfl | later
    · exact .inr List.mem_cons_self
    · rcases ih later with ⟨h, impossible, -⟩ | found
      · cases impossible
      · exact .inr (List.mem_cons_of_mem _ found)
  | case5 held rest ih =>
    rcases ih member with ⟨h, impossible, -⟩ | found
    · cases impossible
    · exact .inr (List.mem_cons_of_mem _ found)
  | case6 held d rest other ih =>
    rcases ih member with ⟨h, same, found⟩ | found
    · cases same
      rcases List.mem_cons.mp found with rfl | before
      · exact .inr List.mem_cons_self
      · exact .inl ⟨held, rfl, before⟩
    · exact .inr (List.mem_cons_of_mem _ found)

/-! ### Names -/

def marks : List Char :=
  ['.', ':', '$', '{', '}', '[', ']', '\'', '"']

def IsLetter (c : Char) : Prop :=
  isBlank c = false ∧ c ∉ marks

instance (c : Char) : Decidable (IsLetter c) :=
  inferInstanceAs (Decidable (_ ∧ _))

structure IsName (name : List Char) : Prop where
  nonempty : name ≠ []
  letters : ∀ c ∈ name, IsLetter c

instance (name : List Char) : Decidable (IsName name) :=
  decidable_of_iff (name ≠ [] ∧ name.all (fun c => decide (IsLetter c)) = true)
    ⟨fun ⟨nonempty, all⟩ => ⟨nonempty, by simpa using all⟩,
      fun ⟨nonempty, letters⟩ => ⟨nonempty, by simpa using letters⟩⟩

/-- What passes for a component of a path: a name, with or without a line feed after it. -/
def PassesForName (component : List Char) : Prop :=
  ∃ name, IsName name ∧ (component = name ∨ component = name ++ ['\n'])

theorem isLetter_iff {c : Char} : IsLetter c ↔ isPlain c = true ∧ c ≠ '.' := by
  simp [IsLetter, marks, isPlain]
  tauto

theorem IsLetter.ne {c mark : Char} (letter : IsLetter c) (isMark : mark ∈ marks) : c ≠ mark := by
  rintro rfl
  exact letter.2 isMark

theorem IsName.passes {name : List Char} (isName : IsName name) : PassesForName name :=
  ⟨name, isName, .inl rfl⟩

theorem IsName.not_mem {name : List Char} (isName : IsName name) {c : Char} (mark : c ∈ marks) :
    c ∉ name :=
  fun member => (isName.letters c member).2 mark

theorem IsName.getLast? {name : List Char} (isName : IsName name) :
    ∃ c, name.getLast? = some c ∧ IsLetter c := by
  obtain ⟨init, c, rfl⟩ := (List.eq_nil_or_concat' name).resolve_left isName.nonempty
  exact ⟨c, List.getLast?_concat, isName.letters c (by simp)⟩

theorem isComponent_of_isName {name : List Char} (isName : IsName name) (feed : List Char)
    (once : feed = [] ∨ feed = ['\n']) : isComponent (name ++ feed) = true := by
  have plain : name.all isPlain = true :=
    List.all_eq_true.mpr fun c member => (isLetter_iff.mp (isName.letters c member)).1
  rcases once with rfl | rfl
  · obtain ⟨c, last, letter⟩ := isName.getLast?
    have other : c ≠ '\n' := by
      rintro rfl
      exact absurd letter (by decide)
    simp [isComponent, last, other, isName.nonempty, plain]
  · simp [isComponent, isName.nonempty, plain]

theorem PassesForName.isComponent {component : List Char} (passes : PassesForName component) :
    isComponent component = true := by
  obtain ⟨name, isName, rfl | rfl⟩ := passes
  · simpa using isComponent_of_isName isName [] (.inl rfl)
  · exact isComponent_of_isName isName ['\n'] (.inr rfl)

theorem isComponent_iff {component : List Char} (undotted : '.' ∉ component) :
    isComponent component = true ↔ PassesForName component := by
  have isName_of_plain : ∀ body : List Char, '.' ∉ body → body.isEmpty = false →
      body.all isPlain = true → IsName body := by
    intro body undotted nonempty plain
    refine ⟨List.isEmpty_eq_false_iff.mp nonempty, fun c member => isLetter_iff.mpr ⟨?_, ?_⟩⟩
    · exact List.all_eq_true.mp plain c member
    · rintro rfl
      exact undotted member
  refine ⟨fun accepted => ?_, PassesForName.isComponent⟩
  simp only [isComponent, Bool.and_eq_true, Bool.not_eq_true'] at accepted
  split at accepted
  · rename_i feed
    obtain ⟨init, rfl⟩ : ∃ init, component = init ++ ['\n'] := List.getLast?_eq_some_iff.mp feed
    rw [List.dropLast_concat] at accepted
    have undotted : '.' ∉ init := fun member => undotted (List.mem_append_left _ member)
    exact ⟨init, isName_of_plain init undotted accepted.1 accepted.2, .inr rfl⟩
  · exact (isName_of_plain component undotted accepted.1 accepted.2).passes

theorem PassesForName.head? {component : List Char} (passes : PassesForName component) :
    ∃ c, component.head? = some c ∧ IsLetter c := by
  obtain ⟨name, isName, same⟩ := passes
  obtain ⟨c, rest, rfl⟩ := List.exists_cons_of_ne_nil isName.nonempty
  refine ⟨c, ?_, isName.letters c List.mem_cons_self⟩
  rcases same with rfl | rfl <;> rfl

theorem PassesForName.not_mem {component : List Char} (passes : PassesForName component) {c : Char}
    (mark : c ∈ marks) : c ∉ component := by
  intro member
  obtain ⟨name, isName, rfl | rfl⟩ := passes
  · exact isName.not_mem mark member
  · rcases List.mem_append.mp member with here | feed
    · exact isName.not_mem mark here
    · rw [List.mem_singleton.mp feed] at mark
      exact absurd mark (by decide)

/-! ### Accepted texts -/

theorem parse_sound {text : List Char} {components : List (List Char)}
    (named : parse text = some components) :
    components ≠ [] ∧ ∀ component ∈ components, PassesForName component := by
  have names := parse_eq_some_iff.mp named
  rw [← names.cut]
  refine ⟨splitFrom_ne_nil _ _, fun component member => ?_⟩
  have undotted := not_mem_of_mem_splitFrom List.not_mem_nil member
  apply (isComponent_iff undotted).mp
  rw [names.cut] at member
  exact names.accepted component member

theorem mem_of_mem_parse {text : List Char} {components : List (List Char)}
    (named : parse text = some components) {component : List Char} (member : component ∈ components)
    {c : Char} (held : c ∈ component) : c ∈ text := by
  have names := parse_eq_some_iff.mp named
  rw [← names.cut] at member
  have kept : c ∈ unwrap (trim text) := by
    rcases mem_of_mem_splitFrom member held with impossible | found
    · cases impossible
    · rcases mem_of_mem_dropIndices found with ⟨h, impossible, -⟩ | found
      · cases impossible
      · exact (List.dropWhile_sublist _).mem found
  have inner : c ∈ trim text := by
    rw [unwrap] at kept
    split at kept
    · have inside := mem_of_mem_trim kept
      exact List.mem_of_mem_drop (List.mem_of_mem_dropLast inside)
    · exact kept
  exact mem_of_mem_trim inner

theorem head?_joined {components : List (List Char)} (nonempty : components ≠ [])
    (passes : ∀ component ∈ components, PassesForName component) :
    ∃ c, (['.'].intercalate components).head? = some c ∧ IsLetter c :=
  head?_intercalate nonempty fun component member => (passes component member).head?

theorem names_joined {components : List (List Char)} (nonempty : components ≠ [])
    (passes : ∀ component ∈ components, PassesForName component) :
    Names (['.'].intercalate components) components := by
  have unmarked : ∀ mark ∈ marks, mark ≠ '.' → mark ∉ ['.'].intercalate components := by
    intro mark isMark undotted member
    rcases mem_intercalate member with dot | ⟨component, present, held⟩
    · exact undotted dot
    · exact (passes component present).not_mem isMark held
  obtain ⟨first, start, letter⟩ := head?_joined nonempty passes
  obtain ⟨rest, same⟩ := List.head?_eq_some_iff.mp start
  have undotted : first ≠ '.' := letter.ne (by decide)
  have whole : (['.'].intercalate components).dropWhile (· = '.') = ['.'].intercalate components := by
    rw [same, List.dropWhile_cons_of_neg (by simpa using undotted)]
  refine ⟨?_, hasOpening_of_not_mem (unmarked '$' (by decide) (by decide)),
    unmarked ':' (by decide) (by decide), ?_, fun component present => ?_⟩
  · rw [same]
    exact List.cons_ne_nil _ _
  · rw [whole, dropIndices_of_not_mem (unmarked '[' (by decide) (by decide))]
    apply splitOn_intercalate nonempty
    exact fun component present => (passes component present).not_mem (by decide)
  · exact (passes component present).isComponent

theorem isTrimmed_joined {before : List (List Char)} {last : List Char}
    (passes : ∀ component ∈ before ++ [last], PassesForName component) (isName : IsName last) :
    IsTrimmed (['.'].intercalate (before ++ [last])) := by
  constructor
  · obtain ⟨first, start, letter⟩ := head?_joined (by simp) passes
    rw [start]
    rintro _ ⟨⟩
    exact letter.1
  · obtain ⟨c, final, letter⟩ := isName.getLast?
    obtain ⟨init, rfl⟩ := List.getLast?_eq_some_iff.mp final
    rw [intercalate_append_last, List.getLast?_concat]
    rintro _ ⟨⟩
    exact letter.1

theorem parse_joined {before : List (List Char)} {last : List Char}
    (passes : ∀ component ∈ before ++ [last], PassesForName component) (isName : IsName last) :
    parse (['.'].intercalate (before ++ [last])) = some (before ++ [last]) := by
  have nonempty : before ++ [last] ≠ [] := by simp
  obtain ⟨first, start, letter⟩ := head?_joined nonempty passes
  have bare : (['.'].intercalate (before ++ [last])).head? ≠ some '$' := by
    rw [start]
    exact fun dollar => letter.ne (by decide) (Option.some.inj dollar)
  rw [parse_eq_some_iff, trim_of_isTrimmed (isTrimmed_joined passes isName), unwrap_of_head bare]
  exact names_joined nonempty passes

theorem parse_joined_of_passes {components : List (List Char)} (nonempty : components ≠ [])
    (passes : ∀ component ∈ components, PassesForName component) :
    ∃ before last, IsName last ∧
      (components = before ++ [last] ∨ components = before ++ [last ++ ['\n']]) ∧
      parse (['.'].intercalate components) = some (before ++ [last]) := by
  obtain ⟨before, component, rfl⟩ := (List.eq_nil_or_concat' components).resolve_left nonempty
  obtain ⟨last, isName, same⟩ := passes component (by simp)
  have named : ∀ component ∈ before ++ [last], PassesForName component := by
    intro component member
    rcases List.mem_append.mp member with here | there
    · exact passes component (List.mem_append_left _ here)
    · rw [List.mem_singleton.mp there]
      exact isName.passes
  have read := parse_joined named isName
  refine ⟨before, last, isName, ?_, ?_⟩
  · rcases same with rfl | rfl
    · exact .inl rfl
    · exact .inr rfl
  · rcases same with rfl | rfl
    · exact read
    · have feed : ['\n'].all isBlank = true := by decide
      rw [intercalate_append_last, parse_congr_trim (trim_append_blanks _ feed), read]

/-! ### The components of a text -/

theorem parse?_intercalate (components : List (List Char)) :
    parse? (".".intercalate (components.map String.ofList)) =
      (parse (['.'].intercalate components)).map (·.map String.ofList) := by
  have letters : (components.map String.ofList).map String.toList = components := by
    simp [Function.comp_def]
  rw [parse?, String.toList_intercalate, letters]
  rfl

/-- A text that names a path names at least one component, and each is a name, with or without a line
feed after it. Joined by dots the components are read back, but for a line feed at the end. Where the
text holds no line feed, every component is a name, and the same components are read back. -/
theorem parse?_components {text : String} {components : List String}
    (named : parse? text = some components) :
    components ≠ [] ∧
    (∀ component ∈ components, ∃ name : String, IsName name.toList ∧
      (component = name ∨ component = name ++ "\n")) ∧
    (∃ before last, IsName last.toList ∧
      (components = before ++ [last] ∨ components = before ++ [last ++ "\n"]) ∧
      parse? (".".intercalate components) = some (before ++ [last])) ∧
    ('\n' ∉ text.toList → (∀ component ∈ components, IsName component.toList) ∧
      parse? (".".intercalate components) = some components) := by
  obtain ⟨found, read, rfl⟩ := Option.map_eq_some_iff.mp named
  obtain ⟨nonempty, passes⟩ := parse_sound read
  obtain ⟨before, last, isName, same, again⟩ := parse_joined_of_passes nonempty passes
  have feed : ∀ name : List Char, String.ofList (name ++ ['\n']) = String.ofList name ++ "\n" :=
    fun name => String.ofList_append
  rw [parse?_intercalate, again]
  refine ⟨by simpa using nonempty, ?_, ⟨before.map .ofList, .ofList last, ?_, ?_, by simp⟩, ?_⟩
  · intro component member
    obtain ⟨letters, present, rfl⟩ := List.mem_map.mp member
    obtain ⟨name, isName, same⟩ := passes letters present
    refine ⟨.ofList name, by rwa [String.toList_ofList], ?_⟩
    rcases same with rfl | rfl
    · exact .inl rfl
    · exact .inr (feed _)
  · rwa [String.toList_ofList]
  · rcases same with rfl | rfl
    · exact .inl (by simp)
    · exact .inr (by simp [feed])
  · intro oneLine
    have unfed : ∀ letters ∈ found, ∀ name, letters ≠ name ++ ['\n'] := by
      rintro letters present name rfl
      exact oneLine (mem_of_mem_parse read present (by simp))
    refine ⟨fun component member => ?_, ?_⟩
    · obtain ⟨letters, present, rfl⟩ := List.mem_map.mp member
      obtain ⟨name, isName, rfl | fed⟩ := passes letters present
      · rwa [String.toList_ofList]
      · exact absurd fed (unfed letters present name)
    · rcases same with rfl | rfl
      · rfl
      · exact absurd rfl (unfed (last ++ ['\n']) (by simp) last)

theorem parse?_components_indexed :
    parse? " $\x7b ..a\n.b\n[0] \x7d" = some ["a\n", "b\n"] ∧
      (∃ before last, IsName last.toList ∧
        (["a\n", "b\n"] = before ++ [last] ∨ ["a\n", "b\n"] = before ++ [last ++ "\n"]) ∧
        parse? "a\n.b\n" = some (before ++ [last])) ∧
      '\n' ∉ " $\x7b ..a[\"\"].b \x7d".toList ∧ parse? " $\x7b ..a[\"\"].b \x7d" = some ["a", "b"] ∧
      parse? "a.b" = some ["a", "b"] := by
  have fed : parse? " $\x7b ..a\n.b\n[0] \x7d" = some ["a\n", "b\n"] := by decide +kernel
  have named : parse? " $\x7b ..a[\"\"].b \x7d" = some ["a", "b"] := by decide +kernel
  have oneLine : '\n' ∉ " $\x7b ..a[\"\"].b \x7d".toList := by decide
  exact ⟨fed, (parse?_components fed).2.2.1, oneLine, named,
    ((parse?_components named).2.2.2 oneLine).2⟩

/-- A line feed after a name is taken for a part of it, though it is a blank. -/
theorem parse?_lineFeed :
    parse? "a\n.b" = some ["a\n", "b"] ∧ ¬ IsName "a\n".toList ∧
      parse? "a\n[0]" = some ["a\n"] ∧ parse? (".".intercalate ["a\n"]) = some ["a"] := by
  exact ⟨by decide +kernel, by decide, by decide +kernel, by decide +kernel⟩

end KeyAtlas.Reference
