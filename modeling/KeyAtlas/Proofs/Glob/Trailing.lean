import KeyAtlas.Proofs.Glob.Meaning

namespace KeyAtlas

namespace Glob

theorem getLast?_of_cons {c : Char} {rest : List Char} (other : c ≠ '*')
    (trailing : (c :: rest).getLast? = some '*') : rest.getLast? = some '*' := by
  cases rest with
  | nil =>
    cases trailing
    exact absurd rfl other
  | cons next rest => simpa using trailing

theorem getLast?_of_suffix {text tail : List Char} (suffix : tail <:+ text) (nonempty : tail ≠ []) :
    tail.getLast? = text.getLast? := by
  obtain ⟨before, rfl⟩ := suffix
  rw [List.getLast?_append_of_ne_nil _ nonempty]

theorem suffix_of_dropWhile {text after : List Char} {c stop : Char}
    (dropped : text.dropWhile (· ≠ stop) = c :: after) : (stop :: after) <:+ text := by
  have stopped := List.head?_dropWhile_not (· ≠ stop) text
  rw [dropped] at stopped
  have same : c = stop := by simpa using stopped
  rw [← same, ← dropped]
  exact List.dropWhile_suffix _

theorem bracketBody_suffix {text body after : List Char}
    (found : bracketBody text = some (body, after)) : (']' :: after) <:+ text := by
  unfold bracketBody at found
  split at found
  rename_i lead rest shape
  split at found
  · cases found
  · rename_i dropped
    cases found
    have inside := suffix_of_dropWhile dropped
    split at shape <;> cases shape
    · exact inside.trans ((List.suffix_cons _ _).trans (List.suffix_cons _ _))
    · exact inside.trans (List.suffix_cons _ _)
    · exact inside.trans (List.suffix_cons _ _)
    · exact inside

theorem parse_trailing {fuel : Nat} {pattern : List Char} (enough : pattern.length ≤ fuel)
    (trailing : pattern.getLast? = some '*') :
    ∃ pieces, parse fuel pattern = pieces ++ [.any] := by
  have behind : ∀ piece rest fuel, (∃ pieces, parse fuel rest = pieces ++ [.any]) →
      ∃ pieces, piece :: parse fuel rest = pieces ++ [.any] := by
    intro piece rest fuel facts
    obtain ⟨pieces, parsed⟩ := facts
    exact ⟨piece :: pieces, by rw [parsed, List.cons_append]⟩
  fun_induction parse fuel pattern with
  | case1 pattern =>
    rw [List.length_eq_zero_iff.mp (Nat.le_zero.mp enough)] at trailing
    cases trailing
  | case2 => cases trailing
  | case3 fuel rest ih =>
    exact ih (by simpa using enough) (by simpa using trailing)
  | case4 fuel rest single ih =>
    cases rest with
    | nil =>
      refine ⟨[], ?_⟩
      cases fuel <;> rfl
    | cons next rest =>
      exact behind _ _ _ (ih (by simpa using enough) (by simpa using trailing))
  | case5 fuel rest ih =>
    exact behind _ _ _ (ih (by simpa using enough) (getLast?_of_cons (by decide) trailing))
  | case6 fuel rest unclosed ih =>
    exact behind _ _ _ (ih (by simpa using enough) (getLast?_of_cons (by decide) trailing))
  | case7 fuel rest body after found ih =>
    have closed := bracketBody_suffix found
    have last := getLast?_of_suffix (closed.trans (List.suffix_cons '[' _)) (List.cons_ne_nil _ _)
    have shorter := closed.length_le
    rw [trailing] at last
    simp only [List.length_cons] at enough shorter
    exact behind _ _ _ (ih (by omega) (getLast?_of_cons (by decide) last))
  | case8 fuel c rest notTwice other notOne notOpen ih =>
    exact behind _ _ _ (ih (by simpa using enough) (getLast?_of_cons other trailing))

theorem Stands.append {pieces : List Piece} {text : List Char}
    (stands : Stands (pieces ++ [.any]) text) (more : List Char) :
    Stands (pieces ++ [.any]) (text ++ more) := by
  induction pieces generalizing text with
  | nil => exact stands_any_iff.mpr ⟨[], List.nil_suffix, .nil⟩
  | cons piece pieces ih =>
    cases stands with
    | any skipped rest =>
      rw [List.append_assoc]
      exact .any skipped (ih rest)
    | one accepted rest => exact .one accepted (ih rest)

end Glob

theorem globMatches_append {pattern text : List Char} (trailing : pattern.getLast? = some '*')
    (matched : globMatches pattern text = true) (more : List Char) :
    globMatches pattern (text ++ more) = true := by
  obtain ⟨pieces, parsed⟩ := Glob.parse_trailing (Nat.le_refl _) trailing
  rw [globMatches_iff, parsed] at matched ⊢
  exact matched.append more

def Trailing (patterns : List String) : Prop :=
  ∀ pattern ∈ patterns, pattern.toList.getLast? = some '*'

theorem matchesAny_append {patterns : List String} (trailing : Trailing patterns) {path : String}
    (matched : matchesAny path patterns = true) (more : String) :
    matchesAny (path ++ more) patterns = true := by
  rw [matchesAny, List.any_eq_true] at matched ⊢
  obtain ⟨pattern, present, found⟩ := matched
  have last := trailing pattern present
  refine ⟨pattern, present, ?_⟩
  rw [String.toList_append, Bool.or_eq_true, Bool.and_eq_true] at *
  rcases found with whole | ⟨leads, below⟩
  · exact .inl (globMatches_append last whole _)
  · refine .inr ⟨leads, globMatches_append ?_ below _⟩
    obtain ⟨rest, shape⟩ := List.isPrefixOf_iff_prefix.mp leads
    rw [← shape] at last ⊢
    cases rest with
    | nil => cases last
    | cons c rest => simpa using last

end KeyAtlas
