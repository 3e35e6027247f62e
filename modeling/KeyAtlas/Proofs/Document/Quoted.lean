import KeyAtlas.Proofs.Document.Block
import KeyAtlas.Proofs.Text.Trim

namespace KeyAtlas.Document.Block

open Text

theorem escape_append (a b : List Char) : escape (a ++ b) = escape a ++ escape b := by
  induction a with
  | nil => rfl
  | cons c rest ih =>
    simp only [List.cons_append, escape, ih]
    split <;> rfl

theorem isOneLine_append (a b : List Char) :
    isOneLine (a ++ b) = (isOneLine a && isOneLine b) := by
  rw [isOneLine, List.all_append, isOneLine, isOneLine]

theorem isOneLine_escape (text : List Char) : isOneLine (escape text) = isOneLine text := by
  induction text with
  | nil => rfl
  | cons c rest ih =>
    rw [isOneLine] at ih
    by_cases mark : c = '\''
    · subst mark
      simp [escape, isOneLine, ih, show isLineEnd '\'' = false by decide]
    · simp [escape, mark, isOneLine, ih]

theorem isOneLine_quote (text : List Char) : isOneLine (quote text) = isOneLine text := by
  have mark : isLineEnd '\'' = false := by decide
  rw [quote, ← List.singleton_append, isOneLine_append, isOneLine_append, isOneLine_escape]
  simp [isOneLine, mark]

theorem escape_eq_nil_iff {text : List Char} : escape text = [] ↔ text = [] := by
  cases text with
  | nil => simp [escape]
  | cons c rest => by_cases mark : c = '\'' <;> simp [escape, mark]

theorem trimRight_escape (text : List Char) : trimRight (escape text) = escape (trimRight text) := by
  induction text with
  | nil => rfl
  | cons c rest ih =>
    by_cases mark : c = '\''
    · subst mark
      have solid : isBlank '\'' = false := by decide
      simp [escape, trimRight_cons, solid, ih]
    · simp only [escape, mark, if_false, trimRight_cons, ih, escape_eq_nil_iff]
      split <;> simp [escape, mark]

theorem close_pair (rest : List Char) :
    Quote.single.close ('\'' :: '\'' :: rest) =
      (Quote.single.close rest).map fun (inside, after) => ('\'' :: '\'' :: inside, after) := rfl

theorem close_single_cons {c : Char} (other : c ≠ '\'') (rest : List Char) :
    Quote.single.close (c :: rest) =
      (Quote.single.close rest).map fun (inside, after) => (c :: inside, after) := by
  rw [Quote.close.eq_4 .single c rest (fun _ _ mark => absurd mark other) nofun]
  exact if_neg other

theorem close_mark {rest : List Char} (ends : rest.head? ≠ some '\'') :
    Quote.single.close ('\'' :: rest) = some ([], rest) := by
  rw [Quote.close.eq_4 .single '\'' rest (fun _ _ _ again => ends (by rw [again]; rfl)) nofun]
  exact if_pos rfl

theorem close_escape (text : List Char) : Quote.single.close (escape text) = none := by
  induction text with
  | nil => rfl
  | cons c rest ih =>
    by_cases mark : c = '\''
    · subst mark
      simp [escape, close_pair, ih]
    · simp [escape, mark, close_single_cons, ih]

theorem close_escape_append (text : List Char) {rest : List Char} (ends : rest.head? ≠ some '\'') :
    Quote.single.close (escape text ++ '\'' :: rest) = some (escape text, rest) := by
  induction text with
  | nil => exact close_mark ends
  | cons c text ih =>
    by_cases mark : c = '\''
    · subst mark
      simp [escape, close_pair, ih]
    · simp [escape, mark, close_single_cons, ih]

theorem unescapeSingle_escape (text : List Char) : Quote.unescapeSingle (escape text) = text := by
  induction text with
  | nil => rfl
  | cons c rest ih =>
    by_cases mark : c = '\''
    · subst mark
      simp [escape, Quote.unescapeSingle, ih]
    · rw [escape, if_neg mark, Quote.unescapeSingle.eq_3 _ _ fun _ same => absurd same mark, ih]

theorem beforeComment_pair (previous : Char) (rest : List Char) :
    beforeComment (some .single) previous ('\'' :: '\'' :: rest) =
      '\'' :: '\'' :: beforeComment (some .single) previous rest := rfl

theorem beforeComment_mark {rest : List Char} (ends : rest.head? ≠ some '\'') (previous : Char) :
    beforeComment (some .single) previous ('\'' :: rest) =
      '\'' :: beforeComment none '\'' rest := by
  rw [beforeComment.eq_4 previous .single '\'' rest
    (fun _ _ _ again => ends (by rw [again]; rfl)) nofun]
  rfl

theorem beforeComment_escape_append (text : List Char) (previous : Char) (rest : List Char)
    {cut : List Char} (after : ∀ p, beforeComment (some .single) p rest = cut) :
    beforeComment (some .single) previous (escape text ++ rest) = escape text ++ cut := by
  induction text generalizing previous with
  | nil => exact after previous
  | cons c text ih =>
    by_cases mark : c = '\''
    · subst mark
      simp [escape, beforeComment_pair, ih]
    · have other : c ≠ Quote.single.mark := mark
      rw [escape, if_neg mark, List.cons_append,
        beforeComment.eq_4 previous .single c _ (fun _ _ same => absurd same mark) nofun,
        if_neg other, ih, List.cons_append]

theorem beforeComment_quote {previous : Char} (admits : admitsQuote previous = true)
    (text : List Char) {rest : List Char} (ends : rest.head? ≠ some '\'') :
    beforeComment none previous (quote text ++ rest) =
      quote text ++ beforeComment none '\'' rest := by
  have body := beforeComment_escape_append text '\'' ('\'' :: rest) (beforeComment_mark ends)
  simp [quote, beforeComment, admits, Quote.ofChar?, body]

end KeyAtlas.Document.Block
