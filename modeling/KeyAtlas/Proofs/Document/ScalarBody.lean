import KeyAtlas.Proofs.Document.Trace

namespace KeyAtlas.Document

open Text Block

/-- Tags and anchors of a node, each with blanks after it. -/
inductive NodeProperties : List Char → Prop where
  | nil : NodeProperties []
  | cons {mark : Char} {word gap rest : List Char} (marks : mark = '!' ∨ mark = '&')
      (solid : ∀ c ∈ word, isBlank c = false) (apart : gap ≠ [])
      (blank : ∀ c ∈ gap, isBlank c = true) (more : NodeProperties rest) :
      NodeProperties (mark :: (word ++ (gap ++ rest)))

theorem allProperties_word {word : List Char} (solid : ∀ c ∈ word, isBlank c = false)
    (rest : List Char) : allProperties false (word ++ rest) = allProperties false rest := by
  induction word with
  | nil => rfl
  | cons c word ih =>
    obtain ⟨first, others⟩ := List.forall_mem_cons.mp solid
    simp [allProperties, first, ih others]

theorem allProperties_blanks {gap : List Char} (blank : ∀ c ∈ gap, isBlank c = true)
    (rest : List Char) : allProperties true (gap ++ rest) = allProperties true rest := by
  induction gap with
  | nil => rfl
  | cons c gap ih =>
    obtain ⟨first, others⟩ := List.forall_mem_cons.mp blank
    simp [allProperties, first, ih others]

theorem allProperties_append {properties : List Char} (proper : NodeProperties properties)
    (rest : List Char) : allProperties true (properties ++ rest) = allProperties true rest := by
  induction proper with
  | nil => rfl
  | @cons mark word gap more marks solid apart blank _ ih =>
    obtain ⟨c, gap, rfl⟩ := List.exists_cons_of_ne_nil apart
    obtain ⟨first, others⟩ := List.forall_mem_cons.mp blank
    have begins : allProperties true (mark :: (word ++ (c :: gap ++ (more ++ rest)))) =
        allProperties false (word ++ (c :: gap ++ (more ++ rest))) := by
      rcases marks with rfl | rfl <;> simp [allProperties, isBlank, inRanges, blankRanges]
    have ends : allProperties false (c :: gap ++ (more ++ rest)) =
        allProperties true (gap ++ (more ++ rest)) := by
      simp [allProperties, first]
    rw [List.cons_append, List.append_assoc, List.append_assoc, begins, allProperties_word solid,
      ends, allProperties_blanks others, ih]

theorem allProperties_header {scalar : List Char} (header : isScalarHeader scalar = true) :
    allProperties true scalar = false := by
  cases scalar with
  | nil => cases header
  | cons c rest =>
    have marks : c = '|' ∨ c = '>' := by
      simpa using (Bool.and_eq_true_iff.mp header).1
    rcases marks with rfl | rfl <;> simp [allProperties, isBlank, inRanges, blankRanges]

theorem afterKey_of_header {scalar : List Char} (header : isScalarHeader scalar = true)
    (above : List OpenKey) (key : String) (column : Nat) :
    OutlineState.afterKey above key column scalar = ⟨above, some column, none⟩ := by
  rw [OutlineState.afterKey, if_pos header]

/-- A header after a tag or an anchor is not found to be one, so no scalar is open. -/
theorem afterKey_of_hidden {properties scalar : List Char} (proper : NodeProperties properties)
    (hidden : properties ≠ []) (header : isScalarHeader scalar = true) (above : List OpenKey)
    (key : String) (column : Nat) :
    OutlineState.afterKey above key column (properties ++ scalar) = ⟨above, none, none⟩ := by
  have words := allProperties_append proper scalar
  obtain ⟨mark, more, whole, marks⟩ : ∃ mark more, properties ++ scalar = mark :: more ∧
      (mark = '!' ∨ mark = '&') := by
    cases proper with
    | nil => exact absurd rfl hidden
    | cons marks => exact ⟨_, _, rfl, marks⟩
  rw [allProperties_header header, whole] at words
  rw [whole]
  rcases marks with rfl | rfl <;>
    simp [OutlineState.afterKey, isScalarHeader, opensBlock, words, Quote.unclosed, Quote.ofChar?]

def isBody (column : Nat) (raw : List Char) : Bool :=
  isBlankLine raw || column < indentation raw

variable {column : Nat} {base : List OpenKey}

theorem entriesFrom_body {body : List (List Char)} (inside : ∀ raw ∈ body, isBody column raw = true)
    (line : Nat) (rest : List (List Char)) :
    entriesFrom ⟨base, some column, none⟩ line (body ++ rest) =
      entriesFrom ⟨base, some column, none⟩ (line + body.length) rest := by
  induction body generalizing line with
  | nil => rfl
  | cons raw body ih =>
    obtain ⟨first, others⟩ := List.forall_mem_cons.mp inside
    rw [List.cons_append, entriesFrom_cons, step_body first, ih others, List.length_cons,
      Nat.add_right_comm, Nat.add_assoc]
    rfl

variable {before : List (List Char)} {header : List Char} {found : KeyLine}

theorem entriesFrom_append_key
    (key : (OutlineState.begin.after before).kindOf header = .key found column)
    (rest : List (List Char)) :
    entriesFrom .begin 0 (before ++ header :: rest) =
      entriesFrom .begin 0 (before ++ [header]) ++
        entriesFrom (.afterKey (enclosing (OutlineState.begin.after before).ancestors column)
          (String.ofList found.key) column found.value) (before.length + 1) rest := by
  have state : OutlineState.begin.after (before ++ [header]) =
      ((OutlineState.begin.after before).step 0 header).1 := after_append _ before [header]
  rw [← List.singleton_append, ← List.append_assoc, entriesFrom_append, state, step_of_key key,
    List.length_append, List.length_singleton, Nat.zero_add]

theorem entriesFrom_append_scalar
    (key : (OutlineState.begin.after before).kindOf header = .key found column)
    (scalar : isScalarHeader found.value = true) {body : List (List Char)}
    (inside : ∀ raw ∈ body, isBody column raw = true) (rest : List (List Char)) :
    entriesFrom .begin 0 (before ++ header :: (body ++ rest)) =
      entriesFrom .begin 0 (before ++ [header]) ++
        entriesFrom
          ⟨enclosing (OutlineState.begin.after before).ancestors column, some column, none⟩
          (before.length + 1 + body.length) rest := by
  rw [entriesFrom_append_key key, afterKey_of_header scalar, entriesFrom_body inside]

theorem line_of_mem_definitions_scalar {text : List Char} {body rest : List (List Char)}
    (parts : lines text = before ++ header :: (body ++ rest))
    (key : (OutlineState.begin.after before).kindOf header = .key found column)
    (scalar : isScalarHeader found.value = true) (inside : ∀ raw ∈ body, isBody column raw = true)
    {document : String} {place : List String} {d : Definition}
    (member : d ∈ definitions document place text) :
    d.anchor.line ≤ before.length ∨ before.length + body.length < d.anchor.line := by
  rw [definitions, parts, entriesFrom_append_scalar key scalar inside, List.map_append] at member
  rcases List.mem_append.mp member with first | later
  · left
    obtain ⟨entry, held, rfl⟩ := List.mem_map.mp first
    have lt := line_lt_of_mem_entriesFrom held
    rw [List.length_append, List.length_singleton] at lt
    show entry.anchor.line ≤ before.length
    omega
  · right
    obtain ⟨entry, held, rfl⟩ := List.mem_map.mp later
    have le := line_le_of_mem_entriesFrom held
    show before.length + body.length < entry.anchor.line
    omega

theorem definitions_congr_body {text text' : List Char} {body body' rest : List (List Char)}
    (parts : lines text = before ++ header :: (body ++ rest))
    (parts' : lines text' = before ++ header :: (body' ++ rest))
    (key : (OutlineState.begin.after before).kindOf header = .key found column)
    (scalar : isScalarHeader found.value = true) (inside : ∀ raw ∈ body, isBody column raw = true)
    (inside' : ∀ raw ∈ body', isBody column raw = true) (length : body'.length = body.length)
    (document : String) (place : List String) :
    definitions document place text' = definitions document place text := by
  rw [definitions, definitions, parts, parts', entriesFrom_append_scalar key scalar inside,
    entriesFrom_append_scalar key scalar inside', length]

/-- A key whose value, after any tags and anchors, is the header of a block scalar. Without any of
them no definition comes from the lines up to the next one that is not blank and not deeper than the
key, and other such lines in their place change nothing. After any of them the lines are read as
those after a key with a plain word as its value. -/
theorem definitions_scalarBody {text properties scalar : List Char} {rest : List (List Char)}
    (parts : lines text = before ++ header :: rest)
    (key : (OutlineState.begin.after before).kindOf header = .key found column)
    (value : found.value = properties ++ scalar) (proper : NodeProperties properties)
    (isHeader : isScalarHeader scalar = true) (document : String) (place : List String) :
    let body := rest.takeWhile (isBody column)
    (properties = [] →
      (∀ d ∈ definitions document place text,
        d.anchor.line ≤ before.length ∨ before.length + body.length < d.anchor.line) ∧
      ∀ (text' : List Char) (body' : List (List Char)),
        lines text' = before ++ header :: (body' ++ rest.dropWhile (isBody column)) →
        body'.length = body.length → (∀ raw ∈ body', isBody column raw = true) →
        definitions document place text' = definitions document place text) ∧
    (properties ≠ [] →
      definitions document place text =
        (entriesFrom .begin 0 (before ++ [header]) ++
          entriesFrom ⟨enclosing (OutlineState.begin.after before).ancestors column, none, none⟩
            (before.length + 1) rest).map (OutlineEntry.definition document place)) := by
  intro body
  refine ⟨?_, fun hidden => ?_⟩
  · rintro rfl
    rw [List.nil_append] at value
    rw [← value] at isHeader
    have inside : ∀ raw ∈ body, isBody column raw = true := fun raw => List.mem_takeWhile_imp
    rw [← List.takeWhile_append_dropWhile (p := isBody column) (l := rest)] at parts
    refine ⟨fun d member => line_of_mem_definitions_scalar parts key isHeader inside member, ?_⟩
    intro text' body' parts' length inside'
    exact definitions_congr_body parts parts' key isHeader inside inside' length document place
  · rw [definitions, parts, entriesFrom_append_key key, value,
      afterKey_of_hidden proper hidden isHeader]

def dashedScalar : String :=
  "run:\n- - k: |2- # c\n\n     no: key\n  b: 1\n"

def otherBody : String :=
  "run:\n- - k: |2- # c\n      'x': |\n\t\t\t\t\t- y: 2\n  b: 1\n"

theorem definitions_scalarBody_dashed :
    let header := "- - k: |2- # c".toList
    let rest := ["".toList, "     no: key".toList, "  b: 1".toList]
    lines dashedScalar.toList = ["run:".toList] ++ header :: rest ∧
      (OutlineState.begin.after ["run:".toList]).kindOf header = .key ⟨['k'], 1, "|2-".toList⟩ 4 ∧
      rest.takeWhile (isBody 4) = ["".toList, "     no: key".toList] ∧
      (∀ d ∈ definitions "/w/a.yaml" ["a"] dashedScalar.toList,
        d.anchor.line ≤ 1 ∨ 3 < d.anchor.line) ∧
      definitions "/w/a.yaml" ["a"] otherBody.toList =
        definitions "/w/a.yaml" ["a"] dashedScalar.toList := by
  intro header rest
  have parts : lines dashedScalar.toList = ["run:".toList] ++ header :: rest := by decide +kernel
  have key : (OutlineState.begin.after ["run:".toList]).kindOf header =
      .key ⟨['k'], 1, "|2-".toList⟩ 4 := by decide +kernel
  have isHeader : isScalarHeader "|2-".toList = true := by decide
  obtain ⟨skipped, other⟩ :=
    (definitions_scalarBody parts key rfl .nil isHeader "/w/a.yaml" ["a"]).1 rfl
  refine ⟨parts, key, by decide, skipped, ?_⟩
  exact other otherBody.toList ["      'x': |".toList, "\t\t\t\t\t- y: 2".toList]
    (by decide +kernel) rfl (by decide)

/-- Behind an anchor the header is not found, and a line of the body is taken for a key. -/
theorem scalarBody_taken :
    let text := "k: &x |\n  b: 1\n".toList
    let header := "k: &x |".toList
    lines text = [header, "  b: 1".toList] ∧
      OutlineState.begin.kindOf header = .key ⟨['k'], 1, ['&', 'x', ' '] ++ ['|']⟩ 0 ∧
      NodeProperties ['&', 'x', ' '] ∧ isScalarHeader ['|'] = true ∧
      ["  b: 1".toList].takeWhile (isBody 0) = ["  b: 1".toList] ∧
      ∃ d ∈ definitions "/w/a.yaml" ["a"] text, d.path = ["a", "b"] ∧ d.anchor.line = 1 := by
  intro text header
  have word : ∀ c ∈ ['x'], isBlank c = false := List.forall_mem_singleton.mpr (by decide)
  have gap : ∀ c ∈ [' '], isBlank c = true := List.forall_mem_singleton.mpr (by decide)
  have proper : NodeProperties ['&', 'x', ' '] :=
    @NodeProperties.cons '&' ['x'] [' '] [] (.inr rfl) word (List.cons_ne_nil _ _) gap .nil
  refine ⟨by decide +kernel, by decide +kernel, proper, by decide, by decide, ?_⟩
  exact ⟨⟨["a", "b"], "/w/a.yaml", ⟨1, 2, 3⟩, by simp⟩, by decide +kernel, rfl, rfl⟩

end KeyAtlas.Document
