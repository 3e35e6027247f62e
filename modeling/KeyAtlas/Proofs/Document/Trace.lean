import KeyAtlas.Proofs.Document.Entries
import KeyAtlas.Proofs.Document.Reading

namespace KeyAtlas.Document

open Text Block

inductive LineKind where
  | other
  | reset
  | key (found : KeyLine) (column : Nat)
  deriving DecidableEq

def isIdle (raw : List Char) : Bool :=
  isBlankLine raw || startsWith ['#'] (raw.dropWhile isIndent)

def keyOn? (raw : List Char) : Option (KeyLine × Nat) :=
  let content := stripComment (raw.dropWhile isIndent)
  let item := dropDashes false content
  (KeyLine.ofContent? item).map (·, indentation raw + (content.length - item.length))

namespace OutlineState

def isInside (s : OutlineState) (raw : List Char) : Bool :=
  s.openQuote.isSome || s.scalarColumn.any fun column => isBlankLine raw || column < indentation raw

def kindOf (s : OutlineState) (raw : List Char) : LineKind :=
  if s.isInside raw then .other
  else if isIdle raw then .other
  else if isReset raw then .reset
  else
    match keyOn? raw with
    | none => .other
    | some (found, column) => .key found column

def next (s : OutlineState) (raw : List Char) : OutlineState :=
  (s.step 0 raw).1

def after (s : OutlineState) (raws : List (List Char)) : OutlineState :=
  raws.foldl next s

def kinds (s : OutlineState) : List (List Char) → List LineKind
  | [] => []
  | raw :: rest => s.kindOf raw :: (s.next raw).kinds rest

end OutlineState

variable {s : OutlineState} {line : Nat} {raw : List Char}

theorem dropWhile_isIndent_of_indentation (unindented : indentation raw = 0) :
    raw.dropWhile isIndent = raw := by
  have whole := List.takeWhile_append_dropWhile (p := isIndent) (l := raw)
  rwa [List.length_eq_zero_iff.mp unindented, List.nil_append] at whole

theorem indentation_of_isReset (reset : isReset raw = true) : indentation raw = 0 := by
  cases raw with
  | nil => rfl
  | cons c rest =>
    by_cases indented : isIndent c = true
    · have marks : c = ' ' ∨ c = '\t' := by simpa [isIndent] using indented
      rcases marks with rfl | rfl <;> simp [isReset, startsWith, List.isPrefixOf] at reset
    · simp [indentation, indented]

theorem isReset_dropWhile :
    (decide (indentation raw = 0) && isReset (raw.dropWhile isIndent)) = isReset raw := by
  by_cases unindented : indentation raw = 0
  · rw [dropWhile_isIndent_of_indentation unindented]
    simp [unindented]
  · cases reset : isReset raw with
    | false => simp [unindented]
    | true => exact absurd (indentation_of_isReset reset) unindented

theorem decide_dropWhile_isIndent : decide (raw.dropWhile isIndent = []) = isBlankLine raw := by
  rw [Bool.eq_iff_iff, decide_eq_true_iff, dropWhile_isIndent_eq_nil_iff]

theorem step_eq :
    s.step line raw =
      if s.isInside raw then
        (if s.openQuote.any fun q => (q.close raw).isSome then { s with openQuote := none } else s,
          none)
      else if isIdle raw then ({ s with scalarColumn := none }, none)
      else if isReset raw then (.begin, none)
      else OutlineState.readLine s.ancestors line (indentation raw) (raw.dropWhile isIndent) := by
  simp only [OutlineState.step, OutlineState.isInside, isIdle, indentation_eq, isReset_dropWhile,
    decide_dropWhile_isIndent]
  obtain ⟨ancestors, scalarColumn, openQuote⟩ := s
  cases openQuote <;> simp [OutlineState.begin]

theorem readLine_of_some {found : KeyLine} {column : Nat} (key : keyOn? raw = some (found, column))
    (ancestors : List OpenKey) :
    OutlineState.readLine ancestors line (indentation raw) (raw.dropWhile isIndent) =
      (.afterKey (enclosing ancestors column) (String.ofList found.key) column found.value,
        some ⟨((enclosing ancestors column).map (·.key)).reverse, String.ofList found.key,
          ⟨line, column, column + found.width⟩⟩) := by
  obtain ⟨_, splits, whole⟩ := Option.map_eq_some_iff.mp key
  cases whole
  simp only [OutlineState.readLine, splits]

theorem readLine_of_none (keyless : keyOn? raw = none) (ancestors : List OpenKey) :
    ∃ s' : OutlineState, s'.ancestors = ancestors ∧ ∀ line,
      OutlineState.readLine ancestors line (indentation raw) (raw.dropWhile isIndent) =
        (s', none) := by
  rw [keyOn?, Option.map_eq_none_iff] at keyless
  simp only [OutlineState.readLine, keyless, OutlineState.afterItem]
  refine ⟨_, ?_, fun _ => rfl⟩
  split
  · split <;> rfl
  · rfl

theorem kindOf_eq_key_iff {found : KeyLine} {column : Nat} :
    s.kindOf raw = .key found column ↔ s.isInside raw = false ∧ isIdle raw = false ∧
      isReset raw = false ∧ keyOn? raw = some (found, column) := by
  rw [OutlineState.kindOf]
  rcases key : keyOn? raw with _ | ⟨found', column'⟩ <;> cases s.isInside raw <;>
    cases isIdle raw <;> cases isReset raw <;> simp

theorem kindOf_eq_reset_iff :
    s.kindOf raw = .reset ↔ s.isInside raw = false ∧ isIdle raw = false ∧ isReset raw = true := by
  rw [OutlineState.kindOf]
  rcases key : keyOn? raw with _ | ⟨found', column'⟩ <;> cases s.isInside raw <;>
    cases isIdle raw <;> cases isReset raw <;> simp

theorem step_of_key {found : KeyLine} {column : Nat} (taken : s.kindOf raw = .key found column) :
    s.step line raw =
      (.afterKey (enclosing s.ancestors column) (String.ofList found.key) column found.value,
        some ⟨((enclosing s.ancestors column).map (·.key)).reverse, String.ofList found.key,
          ⟨line, column, column + found.width⟩⟩) := by
  obtain ⟨outside, busy, goesOn, key⟩ := kindOf_eq_key_iff.mp taken
  rw [step_eq, outside, busy, goesOn, readLine_of_some key]
  rfl

theorem step_of_reset (taken : s.kindOf raw = .reset) : s.step line raw = (.begin, none) := by
  obtain ⟨outside, busy, reset⟩ := kindOf_eq_reset_iff.mp taken
  rw [step_eq, outside, busy, reset]
  rfl

theorem step_of_other (taken : s.kindOf raw = .other) :
    ∃ s' : OutlineState, s'.ancestors = s.ancestors ∧ ∀ line, s.step line raw = (s', none) := by
  rw [OutlineState.kindOf] at taken
  simp only [step_eq]
  cases inside : s.isInside raw with
  | true =>
    refine ⟨_, ?_, fun _ => rfl⟩
    split <;> rfl
  | false =>
    cases idle : isIdle raw with
    | true => exact ⟨{ s with scalarColumn := none }, rfl, fun _ => rfl⟩
    | false =>
      cases reset : isReset raw with
      | true => simp [inside, idle, reset] at taken
      | false =>
        rcases key : keyOn? raw with _ | ⟨found, column⟩
        · exact readLine_of_none key _
        · simp [inside, idle, reset, key] at taken

theorem step_fst : (s.step line raw).1 = s.next raw := by
  cases taken : s.kindOf raw with
  | other =>
    obtain ⟨s', -, same⟩ := step_of_other taken
    rw [OutlineState.next, same, same]
  | reset => rw [OutlineState.next, step_of_reset taken, step_of_reset taken]
  | key found column => rw [OutlineState.next, step_of_key taken, step_of_key taken]

theorem after_append (s : OutlineState) (raws more : List (List Char)) :
    s.after (raws ++ more) = (s.after raws).after more :=
  List.foldl_append

theorem kinds_concat (s : OutlineState) (raws : List (List Char)) (raw : List Char) :
    s.kinds (raws ++ [raw]) = s.kinds raws ++ [(s.after raws).kindOf raw] := by
  induction raws generalizing s with
  | nil => rfl
  | cons first rest ih =>
    rw [List.cons_append, OutlineState.kinds, OutlineState.kinds, ih]
    rfl

theorem length_kinds (s : OutlineState) (raws : List (List Char)) :
    (s.kinds raws).length = raws.length := by
  induction raws generalizing s with
  | nil => rfl
  | cons raw rest ih => simp [OutlineState.kinds, ih]

theorem entriesFrom_append (s : OutlineState) (line : Nat) (raws more : List (List Char)) :
    entriesFrom s line (raws ++ more) =
      entriesFrom s line raws ++ entriesFrom (s.after raws) (line + raws.length) more := by
  induction raws generalizing s line with
  | nil => rfl
  | cons raw rest ih =>
    have later : line + 1 + rest.length = line + (raw :: rest).length := by
      rw [List.length_cons]
      omega
    rw [List.cons_append, entriesFrom_cons, entriesFrom_cons, ih, step_fst, later,
      List.append_assoc]
    rfl

end KeyAtlas.Document
