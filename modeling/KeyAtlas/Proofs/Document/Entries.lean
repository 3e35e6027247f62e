import KeyAtlas.Document.Outline
import Mathlib.Data.List.Basic

namespace KeyAtlas.Document

theorem entriesFrom_cons (s : OutlineState) (line : Nat) (raw : List Char)
    (rest : List (List Char)) :
    entriesFrom s line (raw :: rest) =
      (s.step line raw).2.toList ++ entriesFrom (s.step line raw).1 (line + 1) rest := by
  rw [entriesFrom]
  cases s.step line raw with
  | mk next found => cases found <;> rfl

theorem line_of_step {s : OutlineState} {line : Nat} {raw : List Char} {entry : OutlineEntry}
    (found : (s.step line raw).2 = some entry) : entry.anchor.line = line := by
  have read : ∀ ancestors indent stripped,
      (OutlineState.readLine ancestors line indent stripped).2 = some entry →
      entry.anchor.line = line := by
    intro ancestors indent stripped found
    rw [OutlineState.readLine] at found
    split at found
    · cases found
    · cases found
      rfl
  rw [OutlineState.step] at found
  split at found
  · cases found
  · split at found
    · cases found
    · split at found
      · cases found
      · split at found
        · cases found
        · exact read _ _ _ found

theorem line_le_of_mem_entriesFrom {s : OutlineState} {line : Nat} {raws : List (List Char)}
    {entry : OutlineEntry} (member : entry ∈ entriesFrom s line raws) :
    line ≤ entry.anchor.line := by
  induction raws generalizing s line with
  | nil => cases member
  | cons raw rest ih =>
    rw [entriesFrom_cons] at member
    rcases List.mem_append.mp member with here | later
    · exact Int.le_of_eq (line_of_step (Option.mem_toList.mp here)).symm
    · have later := ih later
      omega

theorem line_lt_of_mem_entriesFrom {s : OutlineState} {line : Nat} {raws : List (List Char)}
    {entry : OutlineEntry} (member : entry ∈ entriesFrom s line raws) :
    entry.anchor.line < line + raws.length := by
  induction raws generalizing s line with
  | nil => cases member
  | cons raw rest ih =>
    rw [entriesFrom_cons] at member
    rw [List.length_cons]
    rcases List.mem_append.mp member with here | later
    · have same := line_of_step (Option.mem_toList.mp here)
      omega
    · have below := ih later
      omega

theorem entriesFrom_ascending (s : OutlineState) (line : Nat) (raws : List (List Char)) :
    (entriesFrom s line raws).Pairwise fun entry later => entry.anchor.line < later.anchor.line := by
  induction raws generalizing s line with
  | nil => exact List.Pairwise.nil
  | cons raw rest ih =>
    rw [entriesFrom_cons]
    apply List.pairwise_append.mpr
    refine ⟨by cases (s.step line raw).2 <;> simp, ih _ _, ?_⟩
    intro entry here later member
    have first := line_of_step (Option.mem_toList.mp here)
    have after := line_le_of_mem_entriesFrom member
    omega

theorem definitions_ascending (document : String) (place : List String) (text : List Char) :
    (definitions document place text).Pairwise fun d later => d.anchor.line < later.anchor.line := by
  rw [definitions, List.pairwise_map]
  exact entriesFrom_ascending _ _ _

theorem nodup_definitions (document : String) (place : List String) (text : List Char) :
    (definitions document place text).Nodup := by
  refine (definitions_ascending document place text).imp fun before same => ?_
  rw [same] at before
  exact Int.lt_irrefl _ before

theorem document_of_mem_definitions {document : String} {place : List String} {text : List Char}
    {d : Definition} (member : d ∈ definitions document place text) : d.document = document := by
  obtain ⟨entry, _, rfl⟩ := List.mem_map.mp member
  rfl

end KeyAtlas.Document
