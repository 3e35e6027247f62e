import KeyAtlas.Proofs.Reference.Naming

namespace KeyAtlas.Reference

open Text

structure Blanks where
  text : List Char
  blank : text.all isBlank = true

structure Index where
  text : List Char
  unclosed : ']' ∉ text
  uncomputed : ':' ∉ text
  unnested : ¬ ['$', '{'] <:+: text

structure Indexed where
  name : List Char
  isName : IsName name
  indices : List Index

structure Spelling where
  components : List Indexed
  nonempty : components ≠ []
  dots : Nat
  /-- The blanks inside the braces, if the path stands in braces. -/
  braces : Option (Blanks × Blanks)
  before : Blanks
  after : Blanks

def Index.written (index : Index) : List Char :=
  '[' :: (index.text ++ [']'])

def Indexed.written (component : Indexed) : List Char :=
  component.name ++ component.indices.flatMap Index.written

namespace Spelling

def path (s : Spelling) : List Char :=
  ['.'].intercalate (s.components.map Indexed.written)

def dotted (s : Spelling) : List Char :=
  List.replicate s.dots '.' ++ s.path

def enclosed (s : Spelling) : List Char :=
  match s.braces with
  | none => s.dotted
  | some (before, after) => '$' :: '{' :: (before.text ++ (s.dotted ++ after.text) ++ ['}'])

def written (s : Spelling) : List Char :=
  s.before.text ++ (s.enclosed ++ s.after.text)

def names (s : Spelling) : List (List Char) :=
  s.components.map Indexed.name

end Spelling

/-- No reference opens in the text, or where the text follows a dollar sign. -/
structure IsGuarded (text : List Char) : Prop where
  unopened : hasOpening text = false
  apart : text.head? ≠ some '{'

theorem hasOpening_append {a b : List Char} (before : hasOpening a = false) (after : IsGuarded b) :
    hasOpening (a ++ b) = false := by
  induction a with
  | nil => exact after.unopened
  | cons c rest ih =>
    rw [hasOpening, Bool.or_eq_false_iff] at before
    rw [List.cons_append, hasOpening, ih before.2, Bool.or_false]
    cases rest with
    | nil => simp [after.apart]
    | cons d rest => exact before.1

theorem IsGuarded.append {a b : List Char} (before : IsGuarded a) (after : IsGuarded b) :
    IsGuarded (a ++ b) := by
  refine ⟨hasOpening_append before.unopened after, ?_⟩
  cases a with
  | nil => exact after.apart
  | cons c rest => exact before.apart

theorem isGuarded_of_not_mem {text : List Char} (noDollar : '$' ∉ text) (noBrace : '{' ∉ text) :
    IsGuarded text := by
  refine ⟨hasOpening_of_not_mem noDollar, fun head => ?_⟩
  obtain ⟨rest, rfl⟩ := List.head?_eq_some_iff.mp head
  exact noBrace List.mem_cons_self

theorem IsGuarded.flatten {texts : List (List Char)} (all : ∀ text ∈ texts, IsGuarded text) :
    IsGuarded texts.flatten := by
  induction texts with
  | nil => exact ⟨rfl, nofun⟩
  | cons text rest ih =>
    have later := ih fun other member => all other (List.mem_cons_of_mem _ member)
    exact (all text List.mem_cons_self).append later

theorem IsGuarded.intercalate {texts : List (List Char)} (all : ∀ text ∈ texts, IsGuarded text) :
    IsGuarded (['.'].intercalate texts) := by
  have dot : IsGuarded ['.'] := isGuarded_of_not_mem (by decide) (by decide)
  induction texts with
  | nil => exact ⟨rfl, nofun⟩
  | cons text rest ih =>
    have here := all text List.mem_cons_self
    cases rest with
    | nil => rwa [List.intercalate_singleton]
    | cons next rest =>
      rw [List.intercalate_cons_cons]
      exact (here.append dot).append (ih fun other member => all other (List.mem_cons_of_mem _ member))

theorem Index.isGuarded (index : Index) : IsGuarded index.written := by
  have inside : hasOpening index.text = false := by
    rw [← Bool.not_eq_true, hasOpening_iff]
    exact index.unnested
  have bracket : IsGuarded [']'] := isGuarded_of_not_mem (by decide) (by decide)
  refine ⟨?_, nofun⟩
  rw [Index.written, hasOpening, hasOpening_append inside bracket]
  rfl

theorem Indexed.isGuarded (component : Indexed) : IsGuarded component.written := by
  have name : IsGuarded component.name :=
    isGuarded_of_not_mem (component.isName.not_mem (by decide))
      (component.isName.not_mem (by decide))
  apply name.append
  apply IsGuarded.flatten
  intro text member
  obtain ⟨index, -, rfl⟩ := List.mem_map.mp member
  exact index.isGuarded

theorem dropIndices_written (index : Index) (rest : List Char) :
    dropIndices none (index.written ++ rest) = dropIndices none rest := by
  rw [Index.written, List.cons_append, dropIndices, if_pos rfl, List.append_assoc,
    List.singleton_append, dropIndices_held index.unclosed]

theorem dropIndices_indices (indices : List Index) (rest : List Char) :
    dropIndices none (indices.flatMap Index.written ++ rest) = dropIndices none rest := by
  induction indices with
  | nil => rfl
  | cons index indices ih =>
    rw [List.flatMap_cons, List.append_assoc, dropIndices_written, ih]

theorem dropIndices_component (component : Indexed) (rest : List Char) :
    dropIndices none (component.written ++ rest) = component.name ++ dropIndices none rest := by
  have unbracketed := component.isName.not_mem (c := '[') (by decide)
  rw [Indexed.written, List.append_assoc, dropIndices_append unbracketed, dropIndices_indices]

theorem dropIndices_path (components : List Indexed) :
    dropIndices none (['.'].intercalate (components.map Indexed.written)) =
      ['.'].intercalate (components.map Indexed.name) := by
  induction components with
  | nil => rfl
  | cons component rest ih =>
    cases rest with
    | nil =>
      have alone := dropIndices_component component []
      simpa [dropIndices] using alone
    | cons next rest =>
      rw [List.map_cons, List.map_cons, List.map_cons, List.map_cons, List.intercalate_cons_cons,
        List.intercalate_cons_cons, List.append_assoc, List.append_assoc, dropIndices_component]
      rw [List.map_cons, List.map_cons] at ih
      rw [dropIndices_append (by decide), ih]

theorem Indexed.head? (component : Indexed) :
    ∃ c, component.written.head? = some c ∧ IsLetter c := by
  obtain ⟨c, start, letter⟩ := component.isName.passes.head?
  refine ⟨c, ?_, letter⟩
  rw [Indexed.written, List.head?_append, start]
  rfl

theorem Indexed.getLast? (component : Indexed) :
    ∃ c, component.written.getLast? = some c ∧ isBlank c = false := by
  rcases List.eq_nil_or_concat' component.indices with plain | ⟨before, index, same⟩
  · obtain ⟨c, stop, letter⟩ := component.isName.getLast?
    refine ⟨c, ?_, letter.1⟩
    rw [Indexed.written, plain, List.flatMap_nil, List.append_nil, stop]
  · refine ⟨']', ?_, by decide⟩
    have closed : component.written =
        component.name ++ before.flatMap Index.written ++ '[' :: index.text ++ [']'] := by
      simp [Indexed.written, same, Index.written]
    rw [closed, List.getLast?_concat]

theorem Indexed.not_mem_colon (component : Indexed) : ':' ∉ component.written := by
  rw [Indexed.written, List.mem_append, not_or]
  refine ⟨component.isName.not_mem (by decide), fun member => ?_⟩
  obtain ⟨index, -, found⟩ := List.mem_flatMap.mp member
  have uncomputed := index.uncomputed
  simp [Index.written, uncomputed] at found

namespace Spelling

variable (s : Spelling)

theorem head?_path : ∃ c, s.path.head? = some c ∧ IsLetter c := by
  apply Text.head?_intercalate
  · simpa using s.nonempty
  · intro piece member
    obtain ⟨component, -, rfl⟩ := List.mem_map.mp member
    exact component.head?

theorem getLast?_path : ∃ c, s.path.getLast? = some c ∧ isBlank c = false := by
  apply Text.getLast?_intercalate
  · simpa using s.nonempty
  · intro piece member
    obtain ⟨component, -, rfl⟩ := List.mem_map.mp member
    exact component.getLast?

theorem head?_dotted : ∃ c, s.dotted.head? = some c ∧ (c = '.' ∨ IsLetter c) := by
  rw [dotted]
  cases s.dots with
  | zero =>
    obtain ⟨c, start, letter⟩ := s.head?_path
    exact ⟨c, start, .inr letter⟩
  | succ n => exact ⟨'.', rfl, .inl rfl⟩

theorem isTrimmed_dotted : IsTrimmed s.dotted := by
  constructor
  · obtain ⟨c, start, cases⟩ := s.head?_dotted
    rw [start]
    rintro _ ⟨⟩
    rcases cases with rfl | letter
    · decide
    · exact letter.1
  · obtain ⟨c, stop, solid⟩ := s.getLast?_path
    rw [dotted, List.getLast?_append, stop]
    rintro _ ⟨⟩
    exact solid

theorem head?_dotted_ne : s.dotted.head? ≠ some '$' := by
  obtain ⟨c, start, cases⟩ := s.head?_dotted
  rw [start]
  intro dollar
  rcases cases with rfl | letter
  · cases dollar
  · exact letter.ne (by decide) (Option.some.inj dollar)

theorem unwrap_written : unwrap (trim s.written) = s.dotted := by
  rw [written]
  cases braces : s.braces with
  | none =>
    have bare : s.enclosed = s.dotted := by rw [enclosed, braces]
    rw [bare, trim_enclosed s.before.blank s.after.blank s.isTrimmed_dotted,
      unwrap_of_head s.head?_dotted_ne]
  | some around =>
    obtain ⟨before, after⟩ := around
    have inside : s.enclosed = '$' :: '{' :: (before.text ++ (s.dotted ++ after.text) ++ ['}']) := by
      rw [enclosed, braces]
    rw [inside, trim_enclosed s.before.blank s.after.blank (isTrimmed_braces _), unwrap_braces,
      trim_enclosed before.blank after.blank s.isTrimmed_dotted]

theorem dropWhile_dotted : s.dotted.dropWhile (· = '.') = s.path := by
  obtain ⟨c, start, letter⟩ := s.head?_path
  obtain ⟨rest, same⟩ := List.head?_eq_some_iff.mp start
  have undotted : c ≠ '.' := letter.ne (by decide)
  rw [dotted, List.dropWhile_append_of_pos (by simp), same,
    List.dropWhile_cons_of_neg (by simpa using undotted)]

theorem isGuarded_dotted : IsGuarded s.dotted := by
  have dots : IsGuarded (List.replicate s.dots '.') :=
    isGuarded_of_not_mem (by simp) (by simp)
  apply dots.append
  apply IsGuarded.intercalate
  intro text member
  obtain ⟨component, -, rfl⟩ := List.mem_map.mp member
  exact component.isGuarded

theorem not_mem_colon : ':' ∉ s.dotted := by
  rw [dotted, List.mem_append, not_or]
  refine ⟨by simp, fun member => ?_⟩
  rcases Text.mem_intercalate member with dot | ⟨piece, present, held⟩
  · cases dot
  · obtain ⟨component, -, rfl⟩ := List.mem_map.mp present
    exact component.not_mem_colon held

theorem names_dotted : Names s.dotted s.names := by
  have isName : ∀ name ∈ s.names, IsName name := by
    intro name member
    obtain ⟨component, -, rfl⟩ := List.mem_map.mp member
    exact component.isName
  refine ⟨?_, s.isGuarded_dotted.unopened, s.not_mem_colon, ?_, ?_⟩
  · obtain ⟨c, start, -⟩ := s.head?_dotted
    intro empty
    rw [empty] at start
    cases start
  · rw [dropWhile_dotted, path, dropIndices_path]
    apply Text.splitOn_intercalate
    · simpa using s.nonempty
    · exact fun name member => (isName name member).not_mem (by decide)
  · exact fun name member => (isName name member).passes.isComponent

/-- However a path is written, its components are read back. -/
theorem parse?_written :
    parse? (.ofList s.written) = some (s.names.map .ofList) := by
  have read : parse s.written = some s.names := by
    rw [parse_eq_some_iff, s.unwrap_written]
    exact s.names_dotted
  rw [parse?, String.toList_ofList, read]
  rfl

def layers : Spelling where
  components :=
    [⟨"layers".toList, by decide,
        [⟨"0".toList, by decide, by decide, by decide⟩,
          ⟨"a.[\x7b".toList, by decide, by decide, by decide⟩]⟩,
      ⟨"size".toList, by decide,
        [⟨"$\x7d".toList, by decide, by decide, by decide⟩]⟩]
  nonempty := List.cons_ne_nil _ _
  dots := 2
  braces := some (⟨" ".toList, by decide⟩, ⟨"\n".toList, by decide⟩)
  before := ⟨"\t".toList, by decide⟩
  after := ⟨" ".toList, by decide⟩

theorem parse?_written_layers :
    parse? "\t$\x7b ..layers[0][a.[\x7b].size[$\x7d]\n\x7d " = some ["layers", "size"] := by
  have written : String.ofList layers.written =
      "\t$\x7b ..layers[0][a.[\x7b].size[$\x7d]\n\x7d " := by decide +kernel
  rw [← written, layers.parse?_written]
  rfl

end Spelling

end KeyAtlas.Reference
