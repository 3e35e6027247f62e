import KeyAtlas.Text.Blank
import Mathlib.Data.List.Basic

namespace KeyAtlas.Text

theorem trimRight_cons (c : Char) (rest : List Char) :
    trimRight (c :: rest) =
      if trimRight rest = [] ∧ isBlank c = true then [] else c :: trimRight rest := by
  rw [trimRight]
  cases trimRight rest with
  | nil => cases isBlank c <;> simp
  | cons kept more => simp

theorem trimRight_append_cons (a : List Char) {c : Char} (solid : isBlank c = false)
    (b : List Char) : trimRight (a ++ c :: b) = a ++ c :: trimRight b := by
  induction a with
  | nil => simp [trimRight_cons, solid]
  | cons first rest ih => simp [trimRight_cons, ih]

theorem trimRight_trimRight (text : List Char) : trimRight (trimRight text) = trimRight text := by
  induction text with
  | nil => rfl
  | cons c rest ih =>
    by_cases empty : trimRight rest = [] ∧ isBlank c = true
    · rw [trimRight_cons, if_pos empty]
      rfl
    · rw [trimRight_cons, if_neg empty, trimRight_cons, ih, if_neg empty]

theorem trimRight_append_blanks (text : List Char) :
    ∃ blanks, text = trimRight text ++ blanks ∧ blanks.all isBlank = true := by
  induction text with
  | nil => exact ⟨[], rfl, rfl⟩
  | cons c rest ih =>
    obtain ⟨blanks, whole, blank⟩ := ih
    rw [trimRight_cons]
    split
    · rename_i empty
      rw [empty.1, List.nil_append] at whole
      refine ⟨c :: rest, rfl, ?_⟩
      rw [List.all_cons, empty.2, whole, blank]
      rfl
    · refine ⟨blanks, ?_, blank⟩
      rw [List.cons_append, ← whole]

theorem getLast?_trimRight {text : List Char} {c : Char}
    (last : (trimRight text).getLast? = some c) : isBlank c = false := by
  induction text with
  | nil => cases last
  | cons first rest ih =>
    rw [trimRight_cons] at last
    split at last
    · cases last
    · rename_i kept
      rw [List.getLast?_cons, Option.some_inj] at last
      cases more : (trimRight rest).getLast? with
      | some d =>
        rw [more] at last ih
        exact ih (congrArg some last)
      | none =>
        rw [more] at last
        obtain rfl : first = c := last
        rw [List.getLast?_eq_none_iff] at more
        simpa [more] using kept

theorem trimRight_of_blank {text : List Char} (blank : text.all isBlank = true) :
    trimRight text = [] := by
  induction text with
  | nil => rfl
  | cons c rest ih =>
    obtain ⟨first, others⟩ := Bool.and_eq_true_iff.mp blank
    rw [trimRight_cons, if_pos ⟨ih others, first⟩]

theorem trimLeft_of_blank {before : List Char} (blank : before.all isBlank = true)
    (text : List Char) : trimLeft (before ++ text) = trimLeft text := by
  apply List.dropWhile_append_of_pos
  exact List.all_eq_true.mp blank

structure IsTrimmed (text : List Char) : Prop where
  first : ∀ c, text.head? = some c → isBlank c = false
  last : ∀ c, text.getLast? = some c → isBlank c = false

theorem isTrimmed_trim (text : List Char) : IsTrimmed (trim text) := by
  refine ⟨fun c found => ?_, fun c found => getLast?_trimRight found⟩
  obtain ⟨blanks, whole, -⟩ := trimRight_append_blanks (trimLeft text)
  have head : (trimLeft text).head? = some c := by
    rw [whole, List.head?_append, ← trim, found]
    rfl
  have solid := List.head?_dropWhile_not isBlank text
  rw [← trimLeft, head] at solid
  simpa using solid

theorem trim_enclosed {before text after : List Char} (blank : before.all isBlank = true)
    (blank' : after.all isBlank = true) (trimmed : IsTrimmed text) :
    trim (before ++ (text ++ after)) = text := by
  rw [trim, trimLeft_of_blank blank]
  rcases List.eq_nil_or_concat' text with rfl | ⟨init, d, rfl⟩
  · have stripped := trimLeft_of_blank blank' []
    rw [List.append_nil] at stripped
    rw [List.nil_append, stripped]
    rfl
  · have solid : isBlank d = false := trimmed.last d (by simp)
    have start : trimLeft (init ++ [d] ++ after) = init ++ [d] ++ after := by
      cases init with
      | nil => simp [trimLeft, solid]
      | cons c rest => simp [trimLeft, trimmed.first c rfl]
    rw [start, List.append_assoc, List.singleton_append, trimRight_append_cons init solid,
      trimRight_of_blank blank']

theorem trim_of_isTrimmed {text : List Char} (trimmed : IsTrimmed text) : trim text = text := by
  have enclosed : trim ([] ++ (text ++ [])) = text := trim_enclosed rfl rfl trimmed
  rwa [List.nil_append, List.append_nil] at enclosed

theorem eq_around_trim (text : List Char) :
    ∃ before after, text = before ++ (trim text ++ after) ∧ before.all isBlank = true ∧
      after.all isBlank = true := by
  obtain ⟨after, whole, blank⟩ := trimRight_append_blanks (trimLeft text)
  refine ⟨text.takeWhile isBlank, after, ?_, List.all_takeWhile, blank⟩
  rw [trim, ← whole, trimLeft, List.takeWhile_append_dropWhile]

theorem trim_append_blanks (text : List Char) {blanks : List Char}
    (blank : blanks.all isBlank = true) : trim (text ++ blanks) = trim text := by
  obtain ⟨before, after, whole, blank', blank''⟩ := eq_around_trim text
  have around : (after ++ blanks).all isBlank = true := by
    rw [List.all_append, blank'', blank]
    rfl
  have longer : text ++ blanks = before ++ (trim text ++ (after ++ blanks)) := by
    calc text ++ blanks = before ++ (trim text ++ after) ++ blanks := congrArg (· ++ blanks) whole
      _ = before ++ (trim text ++ (after ++ blanks)) := by simp
  rw [longer, trim_enclosed blank' around (isTrimmed_trim text)]

theorem mem_of_mem_trim {text : List Char} {c : Char} (member : c ∈ trim text) : c ∈ text := by
  obtain ⟨before, after, whole, -, -⟩ := eq_around_trim text
  rw [whole]
  exact List.mem_append_right _ (List.mem_append_left _ member)

end KeyAtlas.Text
