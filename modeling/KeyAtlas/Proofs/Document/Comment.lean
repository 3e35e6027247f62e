import KeyAtlas.Proofs.Document.Quoted

namespace KeyAtlas.Document

open Text Block

/-- Read with the quote `q` open after the character `previous`, a text is `kept` up to the comment
`cut`, which begins after a blank and outside quotes. -/
def IsCut (q : Option Quote) (previous : Char) (kept cut : List Char) : Prop :=
  cut = [] ∨ cut.head? = some '#' ∧ (q.isSome → kept ≠ []) ∧
    isBlank (kept.getLast?.getD previous) = true

theorem IsCut.cons {q q' : Option Quote} {previous c : Char} {kept cut : List Char}
    (isCut : IsCut q' c kept cut) : IsCut q previous (c :: kept) cut := by
  rcases isCut with whole | ⟨mark, -, blank⟩
  · exact .inl whole
  · refine .inr ⟨mark, fun _ => List.cons_ne_nil _ _, ?_⟩
    rwa [List.getLast?_cons, Option.getD_some]

theorem IsCut.pair {q : Quote} {previous : Char} {kept cut : List Char}
    (isCut : IsCut (some q) previous kept cut) (c d : Char) :
    IsCut (some q) previous (c :: d :: kept) cut := by
  rcases isCut with whole | ⟨mark, nonempty, blank⟩
  · exact .inl whole
  · refine .inr ⟨mark, fun _ => List.cons_ne_nil _ _, ?_⟩
    obtain ⟨first, rest, rfl⟩ := List.exists_cons_of_ne_nil (nonempty rfl)
    rwa [List.getLast?_cons_cons, List.getLast?_cons_cons]

theorem beforeComment_append (q : Option Quote) (previous : Char) (line : List Char) :
    ∃ cut, line = beforeComment q previous line ++ cut ∧
      IsCut q previous (beforeComment q previous line) cut := by
  fun_induction beforeComment q previous line with
  | case1 => exact ⟨[], rfl, .inl rfl⟩
  | case2 previous rest ih | case3 previous c rest ih =>
    obtain ⟨cut, whole, isCut⟩ := ih
    refine ⟨cut, ?_, isCut.pair _ _⟩
    rw [List.cons_append, List.cons_append, ← whole]
  | case4 previous c rest q _ _ ih =>
    obtain ⟨cut, whole, isCut⟩ := ih
    refine ⟨cut, ?_, isCut.cons⟩
    rw [List.cons_append, ← whole]
  -- The comment begins here, after `previous`.
  | case5 previous c rest comment =>
    obtain ⟨mark, blank⟩ := Bool.and_eq_true_iff.mp comment
    refine ⟨c :: rest, rfl, .inr ⟨?_, nofun, blank⟩⟩
    rw [List.head?_cons, of_decide_eq_true mark]
  | case6 previous c rest _ opened ih =>
    obtain ⟨cut, whole, isCut⟩ := ih
    refine ⟨cut, ?_, isCut.cons⟩
    rw [List.cons_append, ← whole]

/-- What is cut off a line are blanks, with or without a comment after them, and a comment follows
what is left of the line after a blank. -/
theorem stripComment_append (line : List Char) :
    ∃ blanks cut, line = stripComment line ++ (blanks ++ cut) ∧ blanks.all isBlank = true ∧
      (cut = [] ∨ cut.head? = some '#' ∧ (blanks = [] → stripComment line = [])) := by
  obtain ⟨cut, whole, isCut⟩ := beforeComment_append none ' ' line
  obtain ⟨blanks, kept, blank⟩ := trimRight_append_blanks (beforeComment none ' ' line)
  refine ⟨blanks, cut, ?_, blank, ?_⟩
  · rw [stripComment, ← List.append_assoc, ← kept, ← whole]
  · rcases isCut with uncut | ⟨mark, -, after⟩
    · exact .inl uncut
    · refine .inr ⟨mark, ?_⟩
      rintro rfl
      rw [List.append_nil] at kept
      rw [kept] at after
      rw [stripComment]
      cases last : (trimRight (beforeComment none ' ' line)).getLast? with
      | none => exact List.getLast?_eq_none_iff.mp last
      | some c =>
        rw [last, Option.getD_some, getLast?_trimRight last] at after
        cases after

theorem head?_after_stripComment {line after : List Char}
    (whole : line = stripComment line ++ after) (nonempty : stripComment line ≠ []) :
    after.head?.all isBlank = true := by
  obtain ⟨blanks, cut, parts, blank, rest⟩ := stripComment_append line
  obtain rfl : after = blanks ++ cut := List.append_cancel_left (whole.symm.trans parts)
  rcases blanks with _ | ⟨first, blanks⟩
  · rcases rest with rfl | ⟨-, empty⟩
    · rfl
    · exact absurd (empty rfl) nonempty
  · exact (Bool.and_eq_true_iff.mp blank).1

theorem head?_of_beforeComment {q : Option Quote} {previous c : Char} {line : List Char}
    (first : (beforeComment q previous line).head? = some c) : line.head? = some c := by
  obtain ⟨cut, whole, -⟩ := beforeComment_append q previous line
  rw [whole, List.head?_append, first, Option.some_or]

/-- What was kept up to its last blanks is kept when it is read again. Every character is met in the
same state: what follows the new end is blank or missing, so it made no pair with the last one. -/
theorem beforeComment_of_eq_append {q : Option Quote} {previous : Char}
    {line kept blanks : List Char}
    (whole : beforeComment q previous line = kept ++ blanks) (blank : blanks.all isBlank = true) :
    beforeComment q previous kept = kept := by
  fun_induction beforeComment q previous line generalizing kept with
  | case1 => rw [(List.append_eq_nil_iff.mp whole.symm).1, beforeComment]
  | case2 previous rest ih =>
    rcases kept with _ | ⟨first, _ | ⟨second, kept⟩⟩
    · rw [beforeComment]
    -- The two marks cannot be cut apart, since the second one is no blank.
    · simp only [List.cons_append, List.nil_append, List.cons.injEq] at whole
      rw [← whole.2, List.all_cons] at blank
      exact absurd (Bool.and_eq_true_iff.mp blank).1 (by decide)
    · simp only [List.cons_append, List.cons.injEq] at whole
      obtain ⟨rfl, rfl, same⟩ := whole
      rw [beforeComment, ih same]
  | case3 previous c rest ih =>
    rcases kept with _ | ⟨first, _ | ⟨second, kept⟩⟩
    · rw [beforeComment]
    · simp only [List.cons_append, List.nil_append, List.cons.injEq] at whole
      obtain ⟨rfl, -⟩ := whole
      rfl
    · simp only [List.cons_append, List.cons.injEq] at whole
      obtain ⟨rfl, rfl, same⟩ := whole
      rw [beforeComment, ih same]
  | case4 q previous c rest unpaired unescaped ih =>
    rcases kept with _ | ⟨first, kept⟩
    · rw [beforeComment]
    · simp only [List.cons_append, List.cons.injEq] at whole
      obtain ⟨rfl, same⟩ := whole
      have next : ∀ d more, kept = d :: more → rest.head? = some d := by
        rintro d more rfl
        exact head?_of_beforeComment (by rw [same]; rfl)
      rw [beforeComment.eq_4 _ _ _ _ ?_ ?_, ih same]
      · rintro more rfl rfl rfl
        obtain ⟨after, rfl⟩ := List.head?_eq_some_iff.mp (next _ _ rfl)
        exact unpaired _ rfl rfl rfl
      · rintro d more rfl rfl rfl
        obtain ⟨after, rfl⟩ := List.head?_eq_some_iff.mp (next _ _ rfl)
        exact unescaped _ _ rfl rfl rfl
  | case5 => rw [(List.append_eq_nil_iff.mp whole.symm).1, beforeComment]
  | case6 previous c rest noComment opened =>
    rename_i ih
    rcases kept with _ | ⟨first, kept⟩
    · rw [beforeComment]
    · simp only [List.cons_append, List.cons.injEq] at whole
      obtain ⟨rfl, same⟩ := whole
      rw [beforeComment, if_neg noComment]
      exact congrArg (c :: ·) (ih same)

theorem stripComment_stripComment (line : List Char) :
    stripComment (stripComment line) = stripComment line := by
  obtain ⟨blanks, whole, blank⟩ := trimRight_append_blanks (beforeComment none ' ' line)
  have again : beforeComment none ' ' (stripComment line) = stripComment line :=
    beforeComment_of_eq_append whole blank
  rw [stripComment, again, stripComment, trimRight_trimRight]

theorem mark_kept {before rest : List Char} {c : Char}
    (kept : before ++ [c] <+: stripComment (before ++ c :: '#' :: rest)) :
    before ++ [c, '#'] <+: stripComment (before ++ c :: '#' :: rest) := by
  obtain ⟨blanks, cut, whole, -⟩ := stripComment_append (before ++ c :: '#' :: rest)
  obtain ⟨more, same⟩ := kept
  have parts : before ++ [c] ++ '#' :: rest = before ++ [c] ++ (more ++ (blanks ++ cut)) := by
    rw [← List.append_assoc, same, ← whole, List.append_assoc, List.singleton_append]
  have tail := List.append_cancel_left parts
  cases more with
  | nil =>
    have nonempty : stripComment (before ++ c :: '#' :: rest) ≠ [] := by simp [← same]
    have next := head?_after_stripComment whole nonempty
    rw [List.nil_append] at tail
    rw [← tail] at next
    have blank : isBlank '#' = true := next
    exact absurd blank (by decide)
  | cons d more =>
    rw [List.cons_append, List.cons.injEq] at tail
    refine ⟨more, ?_⟩
    rw [← same, ← tail.1]
    simp

theorem stripComment_ne_trimRight {before rest : List Char} {c : Char} (solid : isBlank c = false) :
    stripComment (before ++ c :: '#' :: rest) ≠ trimRight (before ++ [c]) := by
  intro same
  rw [trimRight_append_cons before solid, trimRight] at same
  have kept : before ++ [c] <+: stripComment (before ++ c :: '#' :: rest) :=
    ⟨[], by rw [same, List.append_nil]⟩
  have more := (mark_kept kept).length_le
  rw [same] at more
  simp at more

/-- What is left of a line is its beginning, up to a character that is not blank. Cut again, it
stays as it is. Behind it come blanks alone, or blanks and a comment, and a comment comes without a
blank before it only where nothing is left. A `#` right after a character that is left is left too,
so the line is never cut at a `#` that follows a character other than a blank. -/
theorem stripComment_stable (line : List Char) :
    (∃ after, line = stripComment line ++ after ∧
      (after.all isBlank = true ∨ ∃ blanks comment, after = blanks ++ '#' :: comment ∧
        blanks.all isBlank = true ∧ (blanks = [] → stripComment line = []))) ∧
    (∀ c, (stripComment line).getLast? = some c → isBlank c = false) ∧
    stripComment (stripComment line) = stripComment line ∧
    ∀ before c rest, line = before ++ c :: '#' :: rest →
      (before ++ [c] <+: stripComment line → before ++ [c, '#'] <+: stripComment line) ∧
      (isBlank c = false → stripComment line ≠ trimRight (before ++ [c])) := by
  refine ⟨?_, fun _ => getLast?_trimRight, stripComment_stripComment line, ?_⟩
  · obtain ⟨blanks, cut, whole, blank, rest⟩ := stripComment_append line
    refine ⟨blanks ++ cut, whole, ?_⟩
    rcases rest with rfl | ⟨mark, empty⟩
    · rw [List.append_nil]
      exact .inl blank
    · obtain ⟨comment, rfl⟩ := List.head?_eq_some_iff.mp mark
      exact .inr ⟨blanks, comment, rfl, blank, empty⟩
  · rintro before c rest rfl
    exact ⟨mark_kept, stripComment_ne_trimRight⟩

theorem stripComment_stable_quoted :
    let line := "k: 'it''s # in' b#c # d".toList
    isBlank 'b' = false ∧ stripComment line = "k: 'it''s # in' b#c".toList ∧
      stripComment (stripComment line) = stripComment line ∧
      "k: 'it''s # in' b#".toList <+: stripComment line ∧
      stripComment line ≠ trimRight "k: 'it''s # in' b".toList := by
  intro line
  have solid : isBlank 'b' = false := by decide
  have left : stripComment line = "k: 'it''s # in' b#c".toList := by decide
  obtain ⟨-, -, again, marks⟩ := stripComment_stable line
  obtain ⟨kept, apart⟩ := marks "k: 'it''s # in' ".toList 'b' "c # d".toList (by decide)
  exact ⟨solid, left, again, kept (by rw [left]; decide), apart solid⟩

end KeyAtlas.Document
