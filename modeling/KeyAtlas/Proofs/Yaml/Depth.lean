import KeyAtlas.Proofs.Value.Cut
import KeyAtlas.Yaml.Document

namespace KeyAtlas.Yaml

open Value (cut cut_of_cut)

theorem Meaning.cut_value {part other : Nat → Value} {depth : Nat}
    (same : ∀ n, (part n).cut depth = (other n).cut depth) (meaning : Meaning) :
    (meaning.value part).cut (depth + 1) = (meaning.value other).cut (depth + 1) := by
  cases meaning with
  | scalar s => rfl
  | set keys => rfl
  | sequence items => simp [value, cut, same]
  | mapping fields => simp [value, cut, same]
  | pairs items =>
    cases depth with
    | zero => simp [value, cut]
    | succ depth =>
      -- A pair stands one level below the list of pairs, and its parts one further down.
      have below (n : Nat) : (part n).cut depth = (other n).cut depth :=
        cut_of_cut (same n) (Nat.le_succ depth)
      simp [value, cut, below]

theorem Meanings.cut_value (m : Meanings) {depth deeper : Nat} (le : depth ≤ deeper) (n : Nat) :
    (m.value deeper n).cut depth = (m.value depth n).cut depth := by
  induction depth generalizing deeper n with
  | zero => simp [cut]
  | succ depth ih =>
    obtain ⟨deeper, rfl⟩ := Nat.exists_eq_add_of_lt le
    have parts (k : Nat) : (m.value (depth + deeper) k).cut depth = (m.value depth k).cut depth :=
      ih (Nat.le_add_right depth deeper) k
    simp only [value, values, Array.getElem?_map]
    rcases m.found[n]? with _ | _ | meaning
    · rfl
    · rfl
    · exact meaning.cut_value parts

/-- Two depths make the same of a text, down to the lesser one. -/
theorem load_cut {depth deeper : Nat} (le : depth ≤ deeper) (text : List Char) :
    (load deeper text).map (cut depth) = (load depth text).map (cut depth) := by
  unfold load
  split
  · rfl
  · cases Graph.ofTokens (Token.ofText text) with
    | error fault => rfl
    | ok found =>
      rcases found with _ | ⟨graph, top⟩
      · rfl
      · cases made : Meanings.ofGraph graph top with
        | error fault => simp [made, bind, Except.bind, Except.map]
        | ok m => simp [made, bind, Except.bind, Except.map, pure, Except.pure, m.cut_value le top]

end KeyAtlas.Yaml
