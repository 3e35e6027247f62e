import KeyAtlas.Proofs.Document.Comment
import KeyAtlas.Proofs.Document.Trace

namespace KeyAtlas.Document

open Text Block

/-- A token as a key is written, and the name that it stands for. -/
inductive IsToken : List Char → List Char → Prop where
  | plain {name : List Char} (nonempty : name ≠ []) : IsToken name name
  | single {inside : List Char}
      (closes : Quote.single.close (inside ++ ['\'']) = some (inside, [])) :
      IsToken ('\'' :: (inside ++ ['\''])) (Quote.unescapeSingle inside)
  | double {inside : List Char}
      (closes : Quote.double.close (inside ++ ['"']) = some (inside, [])) :
      IsToken ('"' :: (inside ++ ['"'])) inside

theorem close_eq_some {q : Quote} {text inside after : List Char}
    (closes : q.close text = some (inside, after)) :
    text = inside ++ q.mark :: after ∧ q.close (inside ++ [q.mark]) = some (inside, []) := by
  fun_induction Quote.close q text generalizing inside after with
  | case1 => cases closes
  | case2 rest ih | case3 c rest ih =>
    obtain ⟨⟨inside', after'⟩, closes, same⟩ := Option.map_eq_some_iff.mp closes
    cases same
    obtain ⟨whole, again⟩ := ih closes
    refine ⟨?_, ?_⟩
    · rw [List.cons_append, List.cons_append, ← whole]
    · rw [List.cons_append, List.cons_append, Quote.close, again, Option.map_some]
  | case4 q rest =>
    cases closes
    exact ⟨rfl, by cases q <;> rfl⟩
  | case5 q c rest noPair noEscape other ih =>
    obtain ⟨⟨inside', after'⟩, closes, same⟩ := Option.map_eq_some_iff.mp closes
    cases same
    obtain ⟨whole, again⟩ := ih closes
    refine ⟨by rw [List.cons_append, ← whole], ?_⟩
    -- What follows is not empty, so that a backslash would have taken a character with it.
    have nonempty : rest ≠ [] := by simp [whole]
    obtain ⟨first, more, rfl⟩ := List.exists_cons_of_ne_nil nonempty
    rw [List.cons_append, Quote.close.eq_4, if_neg other, again, Option.map_some]
    · rintro - rfl rfl -
      exact other rfl
    · rintro - - rfl rfl -
      exact noEscape first more rfl rfl rfl

theorem splitColon_eq_some {text before after : List Char}
    (splits : splitColon text = some (before, after)) :
    text = before ++ ':' :: after ∧ after.head?.all isBlank = true := by
  induction text generalizing before with
  | nil => cases splits
  | cons c rest ih =>
    rw [splitColon] at splits
    split at splits
    · rename_i colon
      obtain ⟨mark, ends⟩ := Bool.and_eq_true_iff.mp colon
      cases splits
      rw [of_decide_eq_true mark]
      exact ⟨rfl, ends⟩
    · obtain ⟨⟨before', after'⟩, splits, same⟩ := Option.map_eq_some_iff.mp splits
      cases same
      obtain ⟨whole, ends⟩ := ih splits
      exact ⟨congrArg (c :: ·) whole, ends⟩

/-- A text that begins with a token that stands for `name` and takes `width` characters, and goes on
with a colon. -/
def StartsWithKey (width : Nat) (name text : List Char) : Prop :=
  ∃ token gap after, text = token ++ (gap ++ ':' :: after) ∧ token.length = width ∧
    IsToken token name ∧ gap.all isBlank = true ∧ after.head?.all isBlank = true

theorem StartsWithKey.append {width : Nat} {name text more : List Char}
    (starts : StartsWithKey width name text) (apart : more.head?.all isBlank = true) :
    StartsWithKey width name (text ++ more) := by
  obtain ⟨token, gap, after, rfl, length, isToken, blank, ends⟩ := starts
  refine ⟨token, gap, after ++ more, by simp, length, isToken, blank, ?_⟩
  cases after with
  | nil => exact apart
  | cons c after => exact ends

theorem trimLeft_eq_colon {text rest : List Char} (trimmed : trimLeft text = ':' :: rest) :
    ∃ gap, text = gap ++ ':' :: rest ∧ gap.all isBlank = true := by
  refine ⟨text.takeWhile isBlank, ?_, List.all_takeWhile⟩
  have whole := List.takeWhile_append_dropWhile (p := isBlank) (l := text)
  rw [trimLeft] at trimmed
  rw [trimmed] at whole
  exact whole.symm

theorem quoted?_eq_some {q : Quote} {text : List Char} {found : KeyLine}
    (key : KeyLine.quoted? q text = some found) :
    StartsWithKey found.width found.key (q.mark :: text) := by
  rw [KeyLine.quoted?] at key
  split at key
  · cases key
  · rename_i inside after closes
    split at key
    · rename_i rest trimmed
      split at key
      · rename_i ends
        cases key
        obtain ⟨whole, closed⟩ := close_eq_some closes
        obtain ⟨gap, between, blank⟩ := trimLeft_eq_colon trimmed
        refine ⟨q.mark :: (inside ++ [q.mark]), gap, rest, ?_, by simp, ?_, blank, ends⟩
        · simp [whole, between]
        · cases q with
          | single => exact .single closed
          | double => exact .double closed
      · cases key
    · cases key

theorem plain?_eq_some {text : List Char} {found : KeyLine}
    (key : KeyLine.plain? text = some found) : StartsWithKey found.width found.key text := by
  rw [KeyLine.plain?] at key
  split at key
  · cases key
  · rename_i before after splits
    simp only at key
    split at key
    · cases key
    · rename_i solid
      cases key
      obtain ⟨whole, ends⟩ := splitColon_eq_some splits
      obtain ⟨gap, same, blank⟩ := trimRight_append_blanks before
      refine ⟨trimRight before, gap, after, ?_, rfl, .plain fun empty => solid (.inl empty), blank,
        ends⟩
      rw [← List.append_assoc, ← same, whole]

theorem ofContent?_eq_some {content : List Char} {found : KeyLine}
    (key : KeyLine.ofContent? content = some found) :
    StartsWithKey found.width found.key content := by
  cases content with
  | nil => cases key
  | cons c rest =>
    rw [KeyLine.ofContent?] at key
    split at key
    · rename_i q opens
      have mark : c = q.mark := by
        rw [Quote.ofChar?] at opens
        split at opens
        · cases opens
          assumption
        · split at opens
          · cases opens
            assumption
          · cases opens
      rw [mark]
      exact quoted?_eq_some key
    · split at key
      · cases key
      · exact plain?_eq_some key

def isLead (c : Char) : Bool :=
  isIndent c || c = '-'

theorem dropDashes_append (afterDash : Bool) (content : List Char) :
    ∃ lead, content = lead ++ dropDashes afterDash content ∧ lead.all isLead = true := by
  fun_induction dropDashes afterDash content with
  | case1 => exact ⟨[], rfl, rfl⟩
  | case2 afterDash c rest indent ih =>
    obtain ⟨lead, whole, all⟩ := ih
    refine ⟨c :: lead, congrArg (c :: ·) whole, ?_⟩
    rw [List.all_cons, all, isLead, (Bool.and_eq_true_iff.mp indent).2]
    rfl
  | case3 afterDash c rest _ dash ih =>
    obtain ⟨lead, whole, all⟩ := ih
    refine ⟨c :: lead, congrArg (c :: ·) whole, ?_⟩
    rw [List.all_cons, all, isLead, (Bool.and_eq_true_iff.mp dash).1, Bool.or_true]
    rfl
  | case4 => exact ⟨[], rfl, rfl⟩

theorem keyOn?_eq_some {raw : List Char} {found : KeyLine} {column : Nat}
    (key : keyOn? raw = some (found, column)) :
    ∃ lead rest, raw = lead ++ rest ∧ lead.length = column ∧ lead.all isLead = true ∧
      StartsWithKey found.width found.key rest := by
  obtain ⟨_, parts, same⟩ := Option.map_eq_some_iff.mp key
  cases same
  obtain ⟨blanks, cut, whole, -⟩ := stripComment_append (raw.dropWhile isIndent)
  obtain ⟨dashes, content, lead⟩ := dropDashes_append false (stripComment (raw.dropWhile isIndent))
  have starts := ofContent?_eq_some parts
  have nonempty : stripComment (raw.dropWhile isIndent) ≠ [] := by
    obtain ⟨token, gap, after, item, -⟩ := starts
    rw [content, item]
    simp
  refine ⟨raw.takeWhile isIndent ++ dashes, _, ?_, ?_, ?_,
    starts.append (head?_after_stripComment whole nonempty)⟩
  · rw [List.append_assoc, ← List.append_assoc dashes, ← content, ← whole,
      List.takeWhile_append_dropWhile]
  · have length := congrArg List.length content
    rw [List.length_append] at length
    rw [List.length_append, indentation]
    omega
  · rw [List.all_append, lead, Bool.and_true, List.all_eq_true]
    intro c member
    rw [isLead, List.mem_takeWhile_imp member, Bool.true_or]

/-- The anchor `a` marks, on this line, the token of the key. -/
structure Marks (a : Anchor) (key : String) (line : List Char) : Prop where
  start_nonneg : 0 ≤ a.start
  start_lt_stop : a.start < a.stop
  stop_le_length : a.stop ≤ line.length
  lead : ∀ c ∈ line.take a.start.toNat, c = ' ' ∨ c = '\t' ∨ c = '-'
  colon : ∃ rest, trimLeft (line.drop a.stop.toNat) = ':' :: rest ∧ rest.head?.all isBlank = true
  token : IsToken ((line.take a.stop.toNat).drop a.start.toNat) key.toList

theorem IsToken.ne_nil {token name : List Char} (isToken : IsToken token name) : token ≠ [] := by
  cases isToken with
  | plain nonempty => exact nonempty
  | single => exact List.cons_ne_nil _ _
  | double => exact List.cons_ne_nil _ _

theorem marks_of_keyOn? {raw : List Char} {found : KeyLine} {column : Nat}
    (key : keyOn? raw = some (found, column)) (line : Int) :
    Marks ⟨line, column, column + found.width⟩ (String.ofList found.key) raw := by
  obtain ⟨lead, _, rfl, rfl, leads, token, gap, after, rfl, width, isToken, blank, ends⟩ :=
    keyOn?_eq_some key
  have wide : 0 < token.length := List.length_pos_iff.mpr isToken.ne_nil
  have stop : ((lead.length : Int) + found.width).toNat = (lead ++ token).length := by
    rw [List.length_append]
    omega
  have parts : lead ++ (token ++ (gap ++ ':' :: after)) =
      (lead ++ token) ++ (gap ++ ':' :: after) := (List.append_assoc _ _ _).symm
  constructor
  · simp
  · simp only
    omega
  · simp only [List.length_append]
    omega
  · intro c member
    rw [Int.toNat_natCast, List.take_left] at member
    simpa [isLead, isIndent, or_assoc] using List.all_eq_true.mp leads c member
  · refine ⟨after, ?_, ends⟩
    have solid : isBlank ':' = false := by decide
    rw [stop, parts, List.drop_left, trimLeft,
      List.dropWhile_append_of_pos (List.all_eq_true.mp blank),
      List.dropWhile_cons_of_neg (by simp [solid])]
  · rw [stop, parts, List.take_left, Int.toNat_natCast, List.drop_left, String.toList_ofList]
    exact isToken

theorem keyOn?_of_step {s : OutlineState} {line : Nat} {raw : List Char} {entry : OutlineEntry}
    (found : (s.step line raw).2 = some entry) :
    ∃ key column, keyOn? raw = some (key, column) ∧ entry.key = String.ofList key.key ∧
      entry.anchor = ⟨line, column, column + key.width⟩ := by
  cases taken : s.kindOf raw with
  | other =>
    obtain ⟨s', -, step⟩ := step_of_other taken
    rw [step] at found
    cases found
  | reset =>
    rw [step_of_reset taken] at found
    cases found
  | key key column =>
    rw [step_of_key taken] at found
    cases found
    exact ⟨key, column, (kindOf_eq_key_iff.mp taken).2.2.2, rfl, rfl⟩

theorem line_of_mem_entriesFrom {s : OutlineState} {line : Nat} {raws : List (List Char)}
    {entry : OutlineEntry} (member : entry ∈ entriesFrom s line raws) :
    ∃ i raw, raws[i]? = some raw ∧ ∃ key column, keyOn? raw = some (key, column) ∧
      entry.key = String.ofList key.key ∧
      entry.anchor = ⟨(line + i : Nat), column, column + key.width⟩ := by
  induction raws generalizing s line with
  | nil => cases member
  | cons raw rest ih =>
    rw [entriesFrom_cons] at member
    rcases List.mem_append.mp member with here | later
    · exact ⟨0, raw, rfl, keyOn?_of_step (Option.mem_toList.mp here)⟩
    · obtain ⟨i, found, held, key, column, parts, name, anchor⟩ := ih later
      refine ⟨i + 1, found, held, key, column, parts, name, ?_⟩
      rw [anchor, Nat.add_right_comm, Nat.add_assoc]

/-- On every text the definitions have lines of their own in the order of the text, and the anchor
of each marks its key. -/
theorem anchors_exact (document : String) (place : List String) (text : List Char) :
    ((definitions document place text).Pairwise fun d later => d.anchor.line < later.anchor.line) ∧
      ∀ d ∈ definitions document place text, ∃ (i : Nat) (line : List Char),
        d.anchor.line = i ∧ (lines text)[i]? = some line ∧ Marks d.anchor d.key line := by
  refine ⟨definitions_ascending document place text, fun d member => ?_⟩
  obtain ⟨entry, found, rfl⟩ := List.mem_map.mp member
  obtain ⟨i, line, held, key, column, parts, name, anchor⟩ := line_of_mem_entriesFrom found
  have last : (entry.definition document place).key = String.ofList key.key := by
    simp [Definition.key, OutlineEntry.definition, name]
  have marked : (entry.definition document place).anchor = entry.anchor := rfl
  refine ⟨i, line, ?_, held, ?_⟩
  · rw [marked, anchor, Nat.zero_add]
  · rw [last, marked, anchor]
    exact marks_of_keyOn? parts _

def dashedText : String :=
  "k:\n - -\t'it''s # 1' : x # 'no': c\n"

theorem anchors_exact_dashed :
    ∃ d ∈ definitions "/w/a.yaml" ["a"] dashedText.toList,
      d.path = ["a", "k", "it's # 1"] ∧ d.anchor = ⟨1, 5, 16⟩ ∧ ∃ (i : Nat) (line : List Char),
        d.anchor.line = i ∧ (lines dashedText.toList)[i]? = some line ∧
          Marks d.anchor d.key line := by
  have member : (⟨["a", "k", "it's # 1"], "/w/a.yaml", ⟨1, 5, 16⟩, by simp⟩ : Definition) ∈
      definitions "/w/a.yaml" ["a"] dashedText.toList := by
    decide +kernel
  exact ⟨_, member, rfl, rfl, (anchors_exact "/w/a.yaml" ["a"] dashedText.toList).2 _ member⟩

end KeyAtlas.Document
