import KeyAtlas.Proofs.Document.Scanning
import KeyAtlas.Proofs.Document.Trace

namespace KeyAtlas

def Anchor.below (count : Nat) (a : Anchor) : Anchor :=
  { a with line := a.line + count }

def Definition.below (count : Nat) (d : Definition) : Definition :=
  { d with anchor := d.anchor.below count }

end KeyAtlas

namespace KeyAtlas.Document

open Text Block

theorem all_getLast?_tail {p : Char → Bool} {c : Char} {rest : List Char}
    (last : (c :: rest).getLast?.all p = true) : rest.getLast?.all p = true := by
  cases rest with
  | nil => rfl
  | cons d rest => rwa [List.getLast?_cons_cons] at last

theorem linesFrom_append_of_ends {a b current : List Char}
    (ends : a.getLast?.all isLineEnd = true) (held : a = [] → current = [])
    (apart : b.head? ≠ some '\n') :
    linesFrom current (a ++ b) = linesFrom current a ++ lines b := by
  -- The only line that `b` could change is one that is still being read at the end of `a`.
  induction current, a using linesFrom.induct with
  | case1 current empty =>
    rw [held rfl]
    rfl
  | case2 current full =>
    rw [held rfl] at full
    exact absurd rfl full
  | case3 current rest ih =>
    have later := ih (all_getLast?_tail (all_getLast?_tail ends)) fun _ => rfl
    rw [List.cons_append, List.cons_append, linesFrom, linesFrom, later, List.cons_append]
  | case4 current c rest other isEnd ih =>
    have later := ih (all_getLast?_tail ends) fun _ => rfl
    have alone := head?_ne_newline other
    rw [List.cons_append, linesFrom_cons, if_pos isEnd, linesFrom_cons alone, if_pos isEnd,
      List.cons_append]
    · exact congrArg (current.reverse :: ·) later
    · intro same
      cases rest with
      | nil => exact apart
      | cons d rest => exact alone same
  | case5 current c rest other inside ih =>
    have goesOn : rest ≠ [] := by
      rintro rfl
      exact inside ends
    have noReturn : c ≠ '\r' := by
      rintro rfl
      exact inside (by decide)
    have later := ih (all_getLast?_tail ends) fun empty => absurd empty goesOn
    rw [List.cons_append, linesFrom_cons fun same => absurd same noReturn, if_neg inside,
      linesFrom_cons fun same => absurd same noReturn, if_neg inside, later]

theorem not_isIdle_of_isReset {raw : List Char} (reset : isReset raw = true) :
    isIdle raw = false ∧ isBlankLine raw = false := by
  have whole := dropWhile_isIndent_of_indentation (indentation_of_isReset reset)
  have solid : isBlankLine raw = false := by
    rw [← decide_dropWhile_isIndent, whole, decide_eq_false_iff_not]
    rintro rfl
    cases reset
  refine ⟨?_, solid⟩
  rw [isIdle, solid, whole, Bool.false_or]
  cases raw with
  | nil => rfl
  | cons c rest =>
    by_cases mark : c = '#'
    · subst mark
      cases reset
    · simp [startsWith, List.isPrefixOf, Ne.symm mark]

theorem kindOf_of_isReset {s : OutlineState} (unquoted : s.openQuote = none) {raw : List Char}
    (reset : isReset raw = true) : s.kindOf raw = .reset := by
  obtain ⟨busy, solid⟩ := not_isIdle_of_isReset reset
  rw [kindOf_eq_reset_iff]
  refine ⟨?_, busy, reset⟩
  simp [OutlineState.isInside, unquoted, solid, indentation_of_isReset reset]

def OutlineEntry.below (count : Nat) (e : OutlineEntry) : OutlineEntry :=
  { e with anchor := e.anchor.below count }

theorem step_below (s : OutlineState) (line count : Nat) (raw : List Char) :
    s.step (line + count) raw =
      ((s.step line raw).1, (s.step line raw).2.map (OutlineEntry.below count)) := by
  cases taken : s.kindOf raw with
  | other =>
    obtain ⟨s', -, same⟩ := step_of_other taken
    rw [same, same, Option.map_none]
  | reset =>
    rw [step_of_reset taken, step_of_reset taken, Option.map_none]
  | key found column =>
    rw [step_of_key taken, step_of_key taken, Option.map_some, OutlineEntry.below, Anchor.below,
      Int.natCast_add]

theorem entriesFrom_below (s : OutlineState) (line count : Nat) (raws : List (List Char)) :
    entriesFrom s (line + count) raws =
      (entriesFrom s line raws).map (OutlineEntry.below count) := by
  induction raws generalizing s line with
  | nil => rfl
  | cons raw rest ih =>
    rw [entriesFrom_cons, entriesFrom_cons, step_below, Nat.add_right_comm, ih, List.map_append,
      Option.toList_map]

/-- What comes after a separator is read as if nothing stood before it. -/
theorem entriesFrom_append_reset {first : List (List Char)} {separator : List Char}
    (closed : (OutlineState.begin.after first).openQuote = none) (reset : isReset separator = true)
    (second : List (List Char)) :
    entriesFrom .begin 0 (first ++ separator :: second) =
      entriesFrom .begin 0 first ++
        (entriesFrom .begin 0 second).map (OutlineEntry.below (first.length + 1)) := by
  have taken := kindOf_of_isReset closed reset
  rw [entriesFrom_append, entriesFrom_cons, step_of_reset taken, ← entriesFrom_below]
  rfl

/-- The definitions of a text in two parts with a separator between them are those of the parts,
where the first part leaves no quoted text open, be it in a block scalar or below other keys. -/
theorem definitions_append_separator {first : List Char}
    (ends : first.getLast?.all isLineEnd = true)
    (closed : (OutlineState.begin.after (lines first)).openQuote = none)
    (second : List Char) (document : String) (place : List String) :
    definitions document place (first ++ "---\n".toList ++ second) =
      definitions document place first ++
        (definitions document place second).map (Definition.below ((lines first).length + 1)) := by
  have parts : lines (first ++ "---\n".toList ++ second) =
      lines first ++ "---".toList :: lines second := by
    have apart : ("---\n".toList ++ second).head? ≠ some '\n' := by simp
    rw [List.append_assoc, lines, linesFrom_append_of_ends ends (fun _ => rfl) apart]
    exact congrArg _ (lines_append_cons (by decide : isOneLine "---".toList = true) second)
  have reset : isReset "---".toList = true := by decide
  rw [definitions, parts, entriesFrom_append_reset closed reset, List.map_append, List.map_map,
    definitions, definitions, List.map_map]
  rfl

def openText : String :=
  "a:\n  'it''s': |\n    no: key\r"

theorem definitions_append_separator_open :
    openText.toList.getLast?.all isLineEnd = true ∧
      OutlineState.begin.after (lines openText.toList) = ⟨[⟨"a", 0⟩], some 2, none⟩ ∧
      (definitions "/w/a.yaml" ["a"] (openText.toList ++ "---\n".toList ++ "   b: 1".toList)).map
          (fun d => (d.path, d.anchor.line)) =
        [(["a", "a"], 0), (["a", "a", "it's"], 1), (["a", "b"], 4)] := by
  have ends : openText.toList.getLast?.all isLineEnd = true := by decide
  have state : OutlineState.begin.after (lines openText.toList) = ⟨[⟨"a", 0⟩], some 2, none⟩ := by
    decide +kernel
  refine ⟨ends, state, ?_⟩
  rw [definitions_append_separator ends (by rw [state])]
  decide +kernel

end KeyAtlas.Document
