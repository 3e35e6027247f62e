import KeyAtlas.Text.Split
import Mathlib.Data.List.Basic

namespace KeyAtlas.Text

variable {separator : Char}

theorem splitFrom_of_not_mem (current : List Char) {text : List Char} (absent : separator ∉ text) :
    splitFrom separator current text = [current.reverse ++ text] := by
  induction text generalizing current with
  | nil => simp [splitFrom]
  | cons c rest ih =>
    rw [List.mem_cons, not_or] at absent
    rw [splitFrom, if_neg (Ne.symm absent.1), ih _ absent.2]
    simp

theorem splitFrom_append_cons (current text rest : List Char) :
    splitFrom separator current (text ++ separator :: rest) =
      splitFrom separator current text ++ splitOn separator rest := by
  induction text generalizing current with
  | nil => simp [splitFrom, splitOn]
  | cons c text ih =>
    rw [List.cons_append, splitFrom, splitFrom]
    split
    · rw [ih, List.cons_append]
    · exact ih _

theorem splitOn_append_cons (text rest : List Char) :
    splitOn separator (text ++ separator :: rest) =
      splitOn separator text ++ splitOn separator rest :=
  splitFrom_append_cons [] text rest

theorem splitFrom_append (current : List Char) {text : List Char} (absent : separator ∉ text)
    (rest : List Char) :
    splitFrom separator current (text ++ separator :: rest) =
      (current.reverse ++ text) :: splitOn separator rest := by
  rw [splitFrom_append_cons, splitFrom_of_not_mem current absent, List.singleton_append]

theorem splitOn_cons_separator (rest : List Char) :
    splitOn separator (separator :: rest) = [] :: splitOn separator rest :=
  splitFrom_append [] List.not_mem_nil rest

theorem splitOn_intercalate {pieces : List (List Char)} (nonempty : pieces ≠ [])
    (absent : ∀ piece ∈ pieces, separator ∉ piece) :
    splitOn separator ([separator].intercalate pieces) = pieces := by
  induction pieces with
  | nil => exact absurd rfl nonempty
  | cons piece rest ih =>
    have here := absent piece List.mem_cons_self
    cases rest with
    | nil => simpa [splitOn] using splitFrom_of_not_mem [] here
    | cons next rest =>
      have later := ih (List.cons_ne_nil _ _) fun other member =>
        absent other (List.mem_cons_of_mem _ member)
      rw [List.intercalate_cons_cons, List.append_assoc, List.singleton_append]
      exact (splitFrom_append [] here _).trans (by rw [later]; rfl)

theorem splitOn_toList_intercalate {parts : List String} (nonempty : parts ≠ [])
    (absent : ∀ part ∈ parts, '/' ∉ part.toList) :
    splitOn '/' ("/".intercalate parts).toList = parts.map String.toList := by
  rw [String.toList_intercalate]
  refine splitOn_intercalate (by simpa using nonempty) ?_
  intro piece member
  obtain ⟨part, found, rfl⟩ := List.mem_map.mp member
  exact absent part found

theorem not_mem_of_mem_splitFrom {current text piece : List Char} (clean : separator ∉ current)
    (member : piece ∈ splitFrom separator current text) : separator ∉ piece := by
  induction text generalizing current with
  | nil =>
    rw [splitFrom, List.mem_singleton] at member
    subst member
    simpa using clean
  | cons c rest ih =>
    rw [splitFrom] at member
    split at member
    · rcases List.mem_cons.mp member with rfl | later
      · simpa using clean
      · exact ih List.not_mem_nil later
    · rename_i other
      refine ih ?_ member
      rw [List.mem_cons, not_or]
      exact ⟨Ne.symm other, clean⟩

theorem splitFrom_ne_nil (current text : List Char) : splitFrom separator current text ≠ [] := by
  induction text generalizing current with
  | nil => exact List.cons_ne_nil _ _
  | cons c rest ih =>
    rw [splitFrom]
    split
    · exact List.cons_ne_nil _ _
    · exact ih _

theorem mem_of_mem_splitFrom {current text piece : List Char} {c : Char}
    (member : piece ∈ splitFrom separator current text) (held : c ∈ piece) :
    c ∈ current ∨ c ∈ text := by
  induction text generalizing current with
  | nil =>
    rw [splitFrom, List.mem_singleton] at member
    rw [member, List.mem_reverse] at held
    exact .inl held
  | cons d rest ih =>
    rw [splitFrom] at member
    split at member
    · rcases List.mem_cons.mp member with rfl | later
      · exact .inl (List.mem_reverse.mp held)
      · rcases ih later with impossible | found
        · cases impossible
        · exact .inr (List.mem_cons_of_mem _ found)
    · rcases ih member with found | found
      · rcases List.mem_cons.mp found with rfl | before
        · exact .inr List.mem_cons_self
        · exact .inl before
      · exact .inr (List.mem_cons_of_mem _ found)

theorem splitOn_of_not_mem {piece : List Char} (absent : separator ∉ piece) :
    splitOn separator piece = [piece] :=
  splitFrom_of_not_mem [] absent

theorem splitOn_ne_nil (text : List Char) : splitOn separator text ≠ [] :=
  splitFrom_ne_nil [] text

theorem of_mem_dropLast_splitFrom {current text piece : List Char}
    (member : piece ∈ (splitFrom separator current text).dropLast) :
    (∃ after, current.reverse ++ text = piece ++ separator :: after) ∨
      ∃ before after,
        current.reverse ++ text = before ++ separator :: (piece ++ separator :: after) := by
  induction text generalizing current with
  | nil => cases member
  | cons c rest ih =>
    rw [splitFrom] at member
    split at member
    · rename_i ends
      subst ends
      rw [List.dropLast_cons_of_ne_nil (splitFrom_ne_nil [] rest)] at member
      rcases List.mem_cons.mp member with rfl | later
      · exact .inl ⟨rest, rfl⟩
      · refine .inr ?_
        rcases ih later with ⟨after, rfl⟩ | ⟨before, after, rfl⟩
        · exact ⟨current.reverse, after, rfl⟩
        · exact ⟨current.reverse ++ c :: before, after, by simp⟩
    · simpa using ih member

theorem mem_dropLast_splitOn_iff {text piece : List Char} (absent : separator ∉ piece) :
    piece ∈ (splitOn separator text).dropLast ↔
      (∃ after, text = piece ++ separator :: after) ∨
        ∃ before after, text = before ++ separator :: (piece ++ separator :: after) := by
  have first : ∀ after, piece ∈ (splitOn separator (piece ++ separator :: after)).dropLast := by
    intro after
    rw [splitOn_append_cons, splitOn_of_not_mem absent, List.singleton_append,
      List.dropLast_cons_of_ne_nil (splitOn_ne_nil after)]
    exact List.mem_cons_self
  constructor
  · exact of_mem_dropLast_splitFrom
  · rintro (⟨after, rfl⟩ | ⟨before, after, rfl⟩)
    · exact first after
    · rw [splitOn_append_cons, List.dropLast_append_of_ne_nil (splitOn_ne_nil _)]
      exact List.mem_append_right _ (first after)

theorem mem_intercalate {pieces : List (List Char)} {c : Char}
    (member : c ∈ [separator].intercalate pieces) : c = separator ∨ ∃ piece ∈ pieces, c ∈ piece := by
  induction pieces with
  | nil => cases member
  | cons piece rest ih =>
    cases rest with
    | nil =>
      rw [List.intercalate_singleton] at member
      exact .inr ⟨piece, List.mem_cons_self, member⟩
    | cons next rest =>
      rw [List.intercalate_cons_cons, List.append_assoc, List.singleton_append] at member
      rcases List.mem_append.mp member with here | later
      · exact .inr ⟨piece, List.mem_cons_self, here⟩
      · rcases List.mem_cons.mp later with same | later
        · exact .inl same
        · rcases ih later with same | ⟨other, present, held⟩
          · exact .inl same
          · exact .inr ⟨other, List.mem_cons_of_mem _ present, held⟩

theorem head?_intercalate {p : Char → Prop} {pieces : List (List Char)} (nonempty : pieces ≠ [])
    (starts : ∀ piece ∈ pieces, ∃ c, piece.head? = some c ∧ p c) :
    ∃ c, ([separator].intercalate pieces).head? = some c ∧ p c := by
  obtain ⟨first, rest, rfl⟩ := List.exists_cons_of_ne_nil nonempty
  obtain ⟨c, start, holds⟩ := starts first List.mem_cons_self
  obtain ⟨more, rfl⟩ := List.head?_eq_some_iff.mp start
  refine ⟨c, ?_, holds⟩
  cases rest with
  | nil => rw [List.intercalate_singleton, start]
  | cons next rest => rw [List.intercalate_cons_cons]; rfl

theorem intercalate_concat {before : List (List Char)} (nonempty : before ≠ []) (last : List Char) :
    [separator].intercalate (before ++ [last]) =
      [separator].intercalate before ++ separator :: last := by
  induction before with
  | nil => exact absurd rfl nonempty
  | cons piece rest ih =>
    cases rest with
    | nil => simp
    | cons next rest =>
      have later := ih (List.cons_ne_nil _ _)
      rw [List.cons_append] at later
      simp [List.intercalate_cons_cons, later]

theorem intercalate_append_last (before : List (List Char)) (last more : List Char) :
    [separator].intercalate (before ++ [last ++ more]) =
      [separator].intercalate (before ++ [last]) ++ more := by
  by_cases alone : before = []
  · simp [alone]
  · simp [intercalate_concat alone]

theorem getLast?_intercalate {p : Char → Prop} {pieces : List (List Char)} (nonempty : pieces ≠ [])
    (ends : ∀ piece ∈ pieces, ∃ c, piece.getLast? = some c ∧ p c) :
    ∃ c, ([separator].intercalate pieces).getLast? = some c ∧ p c := by
  obtain ⟨before, last, rfl⟩ := (List.eq_nil_or_concat' pieces).resolve_left nonempty
  obtain ⟨c, stop, holds⟩ := ends last (by simp)
  obtain ⟨init, rfl⟩ := List.getLast?_eq_some_iff.mp stop
  refine ⟨c, ?_, holds⟩
  rw [intercalate_append_last, List.getLast?_concat]

end KeyAtlas.Text
