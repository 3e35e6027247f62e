import KeyAtlas.Glob
import Mathlib.Data.List.Basic

/-!
What the pieces of a pattern stand for: a `*` for any text, every other piece for one character. A
match keeps only the tails that the pieces so far can leave. They are tails of each other, so the
longest one is enough for a `*`, and a text is matched just when the pieces stand for it.
-/

namespace KeyAtlas

namespace Glob

/-- The pieces stand for a text, one after the other. -/
inductive Stands : List Piece → List Char → Prop where
  | nil : Stands [] []
  | any {pieces : List Piece} {text : List Char} (skipped : List Char) (rest : Stands pieces text) :
      Stands (.any :: pieces) (skipped ++ text)
  | one {piece : Piece} {pieces : List Piece} {c : Char} {text : List Char}
      (accepted : piece.accepts c = true) (rest : Stands pieces text) :
      Stands (piece :: pieces) (c :: text)

variable {pieces : List Piece} {text : List Char}

theorem stands_nil_iff : Stands [] text ↔ text = [] := by
  constructor
  · rintro ⟨⟩
    rfl
  · rintro rfl
    exact .nil

theorem stands_any_iff :
    Stands (.any :: pieces) text ↔ ∃ tail, tail <:+ text ∧ Stands pieces tail := by
  constructor
  · intro stands
    cases stands with
    | any skipped rest => exact ⟨_, List.suffix_append _ _, rest⟩
    | one accepted rest => cases accepted
  · rintro ⟨tail, ⟨skipped, rfl⟩, rest⟩
    exact .any skipped rest

def Piece.after? (piece : Piece) : List Char → Option (List Char)
  | [] => none
  | c :: rest => if piece.accepts c then some rest else none

theorem Piece.after?_eq_some_iff {piece : Piece} {text rest : List Char} :
    piece.after? text = some rest ↔ ∃ c, text = c :: rest ∧ piece.accepts c = true := by
  cases text with
  | nil => simp [after?]
  | cons c more =>
    simp only [after?, Option.ite_none_right_eq_some, Option.some.injEq, List.cons.injEq]
    constructor
    · intro facts
      obtain ⟨accepted, rfl⟩ := facts
      exact ⟨c, ⟨rfl, rfl⟩, accepted⟩
    · intro facts
      obtain ⟨_, ⟨rfl, rfl⟩, accepted⟩ := facts
      exact ⟨accepted, rfl⟩

theorem stands_cons_iff {piece : Piece} (one : piece ≠ .any) :
    Stands (piece :: pieces) text ↔
      ∃ rest, piece.after? text = some rest ∧ Stands pieces rest := by
  constructor
  · intro stands
    cases stands with
    | any skipped rest => exact absurd rfl one
    | one accepted rest => exact ⟨_, Piece.after?_eq_some_iff.mpr ⟨_, rfl, accepted⟩, rest⟩
  · rintro ⟨rest, left, stands⟩
    obtain ⟨c, rfl, accepted⟩ := Piece.after?_eq_some_iff.mp left
    exact .one accepted stands

theorem stands_literal_iff {c : Char} :
    Stands (.literal c :: pieces) text ↔ ∃ rest, text = c :: rest ∧ Stands pieces rest := by
  have one : Piece.literal c ≠ .any := nofun
  rw [stands_cons_iff one]
  refine exists_congr fun rest => and_congr_left fun _ => ?_
  simp [Piece.after?_eq_some_iff, Piece.accepts]

theorem stands_literals_iff {letters : List Char} :
    Stands (letters.map .literal ++ pieces) text ↔
      ∃ rest, text = letters ++ rest ∧ Stands pieces rest := by
  induction letters generalizing text with
  | nil => simp
  | cons c letters ih =>
    rw [List.map_cons, List.cons_append, stands_literal_iff]
    simp only [ih, List.cons_append]
    constructor
    · rintro ⟨_, rfl, rest, rfl, stands⟩
      exact ⟨rest, rfl, stands⟩
    · rintro ⟨rest, rfl, stands⟩
      exact ⟨_, rfl, rest, rfl, stands⟩

/-- Texts that are tails of each other, the longest first. -/
def Nested (remaining : List (List Char)) : Prop :=
  remaining.Pairwise fun text tail => tail <:+ text

theorem mem_tails {text tail : List Char} : tail ∈ tails text ↔ tail <:+ text := by
  induction text with
  | nil => simp [tails]
  | cons c rest ih => rw [tails, List.mem_cons, ih, List.suffix_cons_iff]

theorem nested_tails (text : List Char) : Nested (tails text) := by
  induction text with
  | nil => exact List.pairwise_singleton _ _
  | cons c rest ih =>
    refine List.pairwise_cons.mpr ⟨fun tail member => ?_, ih⟩
    exact (mem_tails.mp member).trans (List.suffix_cons _ _)

theorem advance_of_ne_any {piece : Piece} (one : piece ≠ .any) (remaining : List (List Char)) :
    advance remaining piece = remaining.filterMap piece.after? := by
  cases piece with
  | any => exact absurd rfl one
  | literal _ | one | oneOf _ _ =>
    refine List.filterMap_congr fun text _ => ?_
    cases text <;> rfl

theorem Nested.advance {remaining : List (List Char)} (nested : Nested remaining) (piece : Piece) :
    Nested (advance remaining piece) := by
  by_cases one : piece = .any
  · subst one
    cases remaining with
    | nil => exact List.Pairwise.nil
    | cons text rest => exact nested_tails text
  · rw [advance_of_ne_any one]
    refine List.Pairwise.filterMap _ (fun text tail inside left found left' found' => ?_) nested
    obtain ⟨c, rfl, _⟩ := Piece.after?_eq_some_iff.mp found
    obtain ⟨c', rfl, _⟩ := Piece.after?_eq_some_iff.mp found'
    rcases List.suffix_cons_iff.mp inside with same | shorter
    · cases same
      exact List.suffix_rfl
    · exact (List.suffix_cons _ _).trans shorter

/-- One more piece leaves a text that the others stand for just when it stands for the beginning of
one of the texts. -/
theorem Nested.exists_mem_advance_iff {remaining : List (List Char)} (nested : Nested remaining)
    (piece : Piece) : (∃ tail ∈ Glob.advance remaining piece, Stands pieces tail) ↔
      ∃ text ∈ remaining, Stands (piece :: pieces) text := by
  by_cases one : piece = .any
  · subst one
    simp only [stands_any_iff]
    cases remaining with
    | nil => simp [Glob.advance]
    | cons first others =>
      constructor
      · rintro ⟨tail, member, stands⟩
        exact ⟨first, List.mem_cons_self, tail, mem_tails.mp member, stands⟩
      · rintro ⟨text, member, tail, inside, stands⟩
        have within : text <:+ first := by
          rcases List.mem_cons.mp member with rfl | later
          · exact List.suffix_rfl
          · exact (List.pairwise_cons.mp nested).1 text later
        exact ⟨tail, mem_tails.mpr (inside.trans within), stands⟩
  · simp only [advance_of_ne_any one, stands_cons_iff one, List.mem_filterMap]
    constructor
    · rintro ⟨tail, ⟨text, member, left⟩, stands⟩
      exact ⟨text, member, tail, left, stands⟩
    · rintro ⟨text, member, tail, left, stands⟩
      exact ⟨tail, ⟨text, member, left⟩, stands⟩

theorem Nested.exists_mem_foldl_iff {remaining : List (List Char)} (nested : Nested remaining)
    (pieces : List Piece) :
    [] ∈ pieces.foldl Glob.advance remaining ↔ ∃ text ∈ remaining, Stands pieces text := by
  induction pieces generalizing remaining with
  | nil => simp [stands_nil_iff]
  | cons piece rest ih =>
    rw [List.foldl_cons, ih (nested.advance piece), nested.exists_mem_advance_iff piece]

theorem accepts_iff : accepts pieces text = true ↔ Stands pieces text := by
  have single : Nested [text] := List.pairwise_singleton _ _
  have member := single.exists_mem_foldl_iff pieces
  simp only [List.mem_singleton, exists_eq_left] at member
  rw [← member, accepts, List.any_eq_true]
  simp only [List.isEmpty_iff, exists_eq_right]

end Glob

theorem globMatches_iff {pattern text : List Char} : globMatches pattern text = true ↔
    Glob.Stands (Glob.parse pattern.length pattern) text :=
  Glob.accepts_iff

end KeyAtlas
