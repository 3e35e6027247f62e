import KeyAtlas.Proofs.Document.Quoted
import Mathlib.Data.List.TakeWhile

namespace KeyAtlas.Document.Block

open Text

theorem enclosing_enclosing {column deeper : Nat} (le : column ≤ deeper)
    (ancestors : List OpenKey) :
    enclosing (enclosing ancestors deeper) column = enclosing ancestors column := by
  induction ancestors with
  | nil => rfl
  | cons a rest ih =>
    by_cases inner : deeper ≤ a.column
    · have also : column ≤ a.column := Nat.le_trans le inner
      simpa [enclosing, List.dropWhile_cons, inner, also] using ih
    · simp [enclosing, List.dropWhile_cons, inner]

/-- The next line may hold a key at `column`, and `base` are the keys above it. -/
structure Ready (column : Nat) (base : List OpenKey) (s : OutlineState) : Prop where
  unquoted : s.openQuote = none
  scalar : ∀ body, s.scalarColumn = some body → column ≤ body
  above : enclosing s.ancestors column = base

theorem Ready.base {column : Nat} {base : List OpenKey} {s : OutlineState}
    (ready : Ready column base s) : enclosing base column = base := by
  rw [← ready.above, enclosing_enclosing (Nat.le_refl column)]

theorem Ready.settled {column : Nat} {base : List OpenKey} {s : OutlineState}
    (ready : Ready column base s) : Ready column base ⟨base, none, none⟩ :=
  ⟨rfl, nofun, ready.base⟩

theorem ready_below {column deeper : Nat} (lt : column < deeper) (base : List OpenKey)
    (key : String) :
    Ready deeper (⟨key, column⟩ :: base) ⟨⟨key, column⟩ :: base, none, none⟩ := by
  refine ⟨rfl, nofun, ?_⟩
  simp [enclosing, Nat.not_le.mpr lt]

theorem Ready.leave {column deeper : Nat} {base : List OpenKey} {s s' : OutlineState} {key : String}
    (ready : Ready column base s) (le : column ≤ deeper)
    (inner : Ready deeper (⟨key, column⟩ :: base) s') : Ready column base s' := by
  refine ⟨inner.unquoted, fun body held => Nat.le_trans le (inner.scalar body held), ?_⟩
  rw [← enclosing_enclosing le, inner.above]
  simpa [enclosing, List.dropWhile_cons] using ready.base

theorem dropWhile_isIndent_eq_nil_iff {line : List Char} :
    line.dropWhile isIndent = [] ↔ isBlankLine line = true := by
  rw [List.dropWhile_eq_nil_iff, isBlankLine, List.all_eq_true]

theorem indentation_eq (line : List Char) :
    line.length - (line.dropWhile isIndent).length = indentation line := by
  have whole := congrArg List.length (List.takeWhile_append_dropWhile (p := isIndent) (l := line))
  rw [List.length_append] at whole
  rw [indentation]
  omega

theorem step_body {column : Nat} {line : List Char}
    (inside : (isBlankLine line || decide (column < indentation line)) = true)
    (base : List OpenKey) (number : Nat) :
    OutlineState.step ⟨base, some column, none⟩ number line = (⟨base, some column, none⟩, none) := by
  rw [Bool.or_eq_true, decide_eq_true_eq, ← dropWhile_isIndent_eq_nil_iff] at inside
  simp only [OutlineState.step, indentation_eq, Option.any_some]
  rw [if_pos (by simpa using inside)]

theorem Ready.step_noise {column : Nat} {base : List OpenKey} {s : OutlineState}
    (ready : Ready column base s) {line : List Char} (noise : isNoise line = true) (number : Nat) :
    ∃ s', s.step number line = (s', none) ∧ Ready column base s' := by
  rw [isNoise, Bool.and_eq_true, Bool.or_eq_true, ← dropWhile_isIndent_eq_nil_iff] at noise
  simp only [OutlineState.step, ready.unquoted]
  split
  · exact ⟨s, rfl, ready⟩
  · rw [if_pos (by simpa using noise.2)]
    exact ⟨_, rfl, rfl, nofun, ready.above⟩

/-- What may stand before a key at a column. -/
inductive Leads : List Char → Nat → Prop where
  | plain (column : Nat) : Leads (spaces column) column
  | item (dash : Nat) : Leads (dashed dash) (dash + 2)

/-- What follows the colon of a key has this value, and nothing in it is a comment. -/
structure ReadsAs (after value : List Char) : Prop where
  whole : beforeComment none ':' after = after
  apart : (trimRight after).head?.all isBlank = true
  trimmed : trim (trimRight after) = value

theorem stripComment_key {mark : List Char} (marks : mark = [] ∨ mark = ['-', ' '])
    (key : List Char) {after value : List Char} (reads : ReadsAs after value) :
    stripComment (mark ++ (quote key ++ ':' :: after)) =
      mark ++ (quote key ++ ':' :: trimRight after) := by
  have colon : beforeComment none '\'' (':' :: after) = ':' :: after := by
    have closed : admitsQuote '\'' = false := by decide
    simp [beforeComment, closed, reads.whole]
  have blank : admitsQuote ' ' = true := by decide
  have ends : (':' :: after).head? ≠ some '\'' := by simp
  have quoted := beforeComment_quote blank key ends
  have whole : beforeComment none ' ' (mark ++ (quote key ++ ':' :: after)) =
      mark ++ (quote key ++ ':' :: after) := by
    rcases marks with rfl | rfl
    · rw [List.nil_append, quoted, colon]
    · have dash : admitsQuote '-' = false := by decide
      simp [beforeComment, blank, dash, Quote.ofChar?, quoted, colon]
  rw [stripComment, whole, ← List.append_assoc, trimRight_append_cons _ (by decide),
    List.append_assoc]

theorem dropDashes_key {mark : List Char} (marks : mark = [] ∨ mark = ['-', ' '])
    (text rest : List Char) :
    dropDashes false (mark ++ (quote text ++ rest)) = quote text ++ rest := by
  have blank : isBlank ' ' = true := by decide
  have indent : isIndent '\'' = false := by decide
  have space : isIndent ' ' = true := by decide
  rcases marks with rfl | rfl <;> simp [dropDashes, quote, blank, indent, space]

theorem ofContent?_quote (key : List Char) {after : List Char}
    (apart : after.head?.all isBlank = true) :
    KeyLine.ofContent? (quote key ++ ':' :: after) =
      some ⟨key, (quote key).length, trim after⟩ := by
  have ends : (':' :: after).head? ≠ some '\'' := by simp
  have closes := close_escape_append key ends
  have solid : isBlank ':' = false := by decide
  simp [quote, KeyLine.ofContent?, Quote.ofChar?, KeyLine.quoted?, closes, trimLeft,
    solid, apart, unescapeSingle_escape]

theorem Leads.split {lead : List Char} {column : Nat} (leads : Leads lead column) :
    ∃ indent mark, lead = spaces indent ++ mark ∧ column = indent + mark.length ∧
      (mark = [] ∨ mark = ['-', ' ']) := by
  cases leads with
  | plain => exact ⟨column, [], (List.append_nil _).symm, rfl, .inl rfl⟩
  | item dash => exact ⟨dash, ['-', ' '], rfl, rfl, .inr rfl⟩

theorem dropWhile_key (indent : Nat) {mark : List Char} (marks : mark = [] ∨ mark = ['-', ' '])
    (text rest : List Char) :
    (spaces indent ++ mark ++ (quote text ++ rest)).dropWhile isIndent =
      mark ++ (quote text ++ rest) := by
  have space : ∀ c ∈ spaces indent, isIndent c = true := by
    intro c member
    rw [List.eq_of_mem_replicate member]
    rfl
  have dash : isIndent '-' = false := by decide
  have solid : isIndent '\'' = false := by decide
  rw [List.append_assoc, List.dropWhile_append_of_pos space]
  rcases marks with rfl | rfl <;> simp [quote, dash, solid]

theorem starts_key {mark : List Char} (marks : mark = [] ∨ mark = ['-', ' '])
    (text rest : List Char) :
    mark ++ (quote text ++ rest) ≠ [] ∧ startsWith ['#'] (mark ++ (quote text ++ rest)) = false ∧
      isReset (mark ++ (quote text ++ rest)) = false := by
  rcases marks with rfl | rfl <;> simp [isReset, startsWith, quote, List.isPrefixOf]

theorem Ready.step_key {column : Nat} {base : List OpenKey} {s : OutlineState}
    (ready : Ready column base s) {lead : List Char} (leads : Leads lead column) (key : List Char)
    {after value : List Char} (reads : ReadsAs after value) (number : Nat) :
    s.step number (lead ++ (quote key ++ ':' :: after)) =
      (.afterKey base (String.ofList key) column value,
        some ⟨(base.map (·.key)).reverse, String.ofList key,
          ⟨number, column, column + (quote key).length⟩⟩) := by
  obtain ⟨indent, mark, rfl, rfl, marks⟩ := leads.split
  obtain ⟨nonempty, noComment, goesOn⟩ := starts_key marks key (':' :: after)
  have width : (spaces indent ++ mark ++ (quote key ++ ':' :: after)).length -
      (mark ++ (quote key ++ ':' :: after)).length = indent := by
    simp [spaces]
  have outside : (s.scalarColumn.any fun body => body < indent) = false := by
    cases held : s.scalarColumn with
    | none => rfl
    | some body =>
      have le := ready.scalar body held
      simp only [Option.any_some, decide_eq_false_iff_not]
      omega
  have column : indent + ((mark ++ (quote key ++ ':' :: trimRight after)).length -
      (quote key ++ ':' :: trimRight after).length) = indent + mark.length := by
    simp
  simp only [OutlineState.step, ready.unquoted, dropWhile_key indent marks, width, outside,
    nonempty, noComment, goesOn, decide_false, Bool.false_or, Bool.or_false, Bool.and_false,
    Bool.false_eq_true, if_false, OutlineState.readLine, stripComment_key marks key reads,
    dropDashes_key marks, column, ofContent?_quote key reads.apart, reads.trimmed, ready.above]

theorem readsAs_nil : ReadsAs [] [] :=
  ⟨rfl, rfl, rfl⟩

theorem readsAs_cons {text : List Char} (whole : beforeComment none ' ' text = text) {c : Char}
    {rest : List Char} (trimmed : trimRight text = c :: rest) (solid : isBlank c = false) :
    ReadsAs (' ' :: text) (c :: rest) := by
  have blank : isBlank ' ' = true := by decide
  have outer : trimRight (' ' :: text) = ' ' :: c :: rest := by
    rw [trimRight_cons, trimmed, if_neg (by simp)]
  have again : trimRight (c :: rest) = c :: rest := by rw [← trimmed, trimRight_trimRight]
  refine ⟨by simp [beforeComment, Quote.ofChar?, whole], by simp [outer, blank], ?_⟩
  simp [outer, trim, trimLeft, blank, solid, again]

theorem bounds_of_isAlpha {c : Char} (letter : c.isAlpha = true) :
    65 ≤ c.toNat ∧ c.toNat ≤ 122 := by
  have cases : (c.isUpper || c.isLower) = true := letter
  rcases Bool.or_eq_true_iff.mp cases with upper | lower
  · obtain ⟨low, high⟩ : 'A'.val ≤ c.val ∧ c.val ≤ 'Z'.val := of_decide_eq_true upper
    have low : 65 ≤ c.toNat := low
    have high : c.toNat ≤ 90 := high
    omega
  · obtain ⟨low, high⟩ := Bool.and_eq_true_iff.mp lower
    have low : 97 ≤ c.toNat := of_decide_eq_true low
    have high : c.toNat ≤ 122 := of_decide_eq_true high
    omega

theorem isBlank_of_isAlpha {c : Char} (letter : c.isAlpha = true) : isBlank c = false := by
  obtain ⟨low, high⟩ := bounds_of_isAlpha letter
  simp [isBlank, inRanges, blankRanges]
  omega

theorem isLineEnd_of_isAlpha {c : Char} (letter : c.isAlpha = true) : isLineEnd c = false := by
  obtain ⟨low, high⟩ := bounds_of_isAlpha letter
  simp [isLineEnd, inRanges, lineEndRanges]
  omega

theorem ne_of_isAlpha {c d : Char} (letter : c.isAlpha = true) (mark : d.isAlpha = false) :
    c ≠ d := by
  rintro rfl
  rw [letter] at mark
  cases mark

theorem ofChar?_of_isAlpha {c : Char} (letter : c.isAlpha = true) : Quote.ofChar? c = none := by
  simp [Quote.ofChar?, ne_of_isAlpha letter (d := '\'') (by decide),
    ne_of_isAlpha letter (d := '"') (by decide)]

theorem beforeComment_letters {letters : List Char} (all : letters.all Char.isAlpha = true)
    (previous : Char) : beforeComment none previous letters = letters := by
  induction letters generalizing previous with
  | nil => rfl
  | cons c rest ih =>
    obtain ⟨letter, others⟩ := Bool.and_eq_true_iff.mp all
    simp [beforeComment, ne_of_isAlpha letter (d := '#') (by decide), ofChar?_of_isAlpha letter,
      ih others]

theorem trimRight_letters {letters : List Char} (all : letters.all Char.isAlpha = true) :
    trimRight letters = letters := by
  induction letters with
  | nil => rfl
  | cons c rest ih =>
    obtain ⟨letter, others⟩ := Bool.and_eq_true_iff.mp all
    rw [trimRight_cons, ih others, if_neg]
    simp [isBlank_of_isAlpha letter]

theorem afterKey_scalar {c : Char} (solid : isBlank c = false)
    (other : c ∉ ['|', '>', '{', '[', '&', '!']) (rest : List Char)
    (base : List OpenKey) (key : String) (column : Nat) :
    OutlineState.afterKey base key column (c :: rest) = ⟨base, none, Quote.unclosed (c :: rest)⟩ := by
  simp only [List.mem_cons, List.not_mem_nil, or_false, not_or] at other
  simp [OutlineState.afterKey, isScalarHeader, opensBlock, allProperties, solid, other]

theorem readsAs_letters {letters : List Char} (all : letters.all Char.isAlpha = true)
    (nonempty : letters ≠ []) (base : List OpenKey) (key : String) (column : Nat) :
    ReadsAs (' ' :: letters) letters ∧
      OutlineState.afterKey base key column letters = ⟨base, none, none⟩ := by
  cases letters with
  | nil => exact absurd rfl nonempty
  | cons c rest =>
    obtain ⟨letter, others⟩ := Bool.and_eq_true_iff.mp all
    have solid := isBlank_of_isAlpha letter
    have marks : ['|', '>', '{', '[', '&', '!'].any Char.isAlpha = false := by decide
    have other : c ∉ ['|', '>', '{', '[', '&', '!'] := fun member =>
      List.any_eq_false.mp marks c member letter
    refine ⟨readsAs_cons (beforeComment_letters all ' ') (trimRight_letters all) solid, ?_⟩
    rw [afterKey_scalar solid other, Quote.unclosed, ofChar?_of_isAlpha letter]

theorem readsAs_header (base : List OpenKey) (key : String) (column : Nat) :
    ReadsAs [' ', '|'] ['|'] ∧
      OutlineState.afterKey base key column ['|'] = ⟨base, some column, none⟩ :=
  ⟨readsAs_cons rfl rfl (by decide), rfl⟩

theorem afterKey_quote (rest : List Char) (base : List OpenKey) (key : String) (column : Nat) :
    OutlineState.afterKey base key column ('\'' :: rest) =
      ⟨base, none, Quote.unclosed ('\'' :: rest)⟩ :=
  afterKey_scalar (by decide) (by decide) rest base key column

theorem readsAs_quote (text : List Char) (base : List OpenKey) (key : String) (column : Nat) :
    ReadsAs (' ' :: quote text) (quote text) ∧
      OutlineState.afterKey base key column (quote text) = ⟨base, none, none⟩ := by
  have ends : ([] : List Char).head? ≠ some '\'' := nofun
  have closes := close_escape_append text ends
  have blank : admitsQuote ' ' = true := by decide
  have whole : beforeComment none ' ' (quote text) = quote text := by
    simpa [beforeComment] using beforeComment_quote blank text ends
  refine ⟨readsAs_cons whole ?_ (by decide), ?_⟩
  · rw [quote, ← List.cons_append, trimRight_append_cons _ (by decide)]
    rfl
  · rw [quote, afterKey_quote]
    simp [Quote.unclosed, Quote.ofChar?, closes]

theorem readsAs_escape (text : List Char) (base : List OpenKey) (key : String) (column : Nat) :
    ∃ value, ReadsAs (' ' :: '\'' :: escape text) value ∧
      OutlineState.afterKey base key column value = ⟨base, none, some .single⟩ := by
  have body := beforeComment_escape_append text '\'' [] fun _ => rfl
  refine ⟨'\'' :: escape (trimRight text), readsAs_cons ?_ ?_ (by decide), ?_⟩
  · simpa [beforeComment, Quote.ofChar?, admitsQuote, show isBlank ' ' = true by decide] using body
  · rw [← List.nil_append ('\'' :: escape text), trimRight_append_cons [] (by decide),
      trimRight_escape, List.nil_append]
  · rw [afterKey_quote]
    simp [Quote.unclosed, Quote.ofChar?, close_escape]

end KeyAtlas.Document.Block
