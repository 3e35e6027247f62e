import KeyAtlas.Proofs.Reference.Naming
import Mathlib.Data.List.Pairwise

namespace KeyAtlas.Reference

open Text

/-- The text begins with `body` and a closing brace, which is the first brace in it. -/
structure Closes (body text : List Char) : Prop where
  unopened : '{' ∉ body
  unclosed : '}' ∉ body
  start : body ++ ['}'] <+: text

def Opens (body text : List Char) : Prop :=
  ∃ rest, text = '$' :: '{' :: rest ∧ Closes body rest

/-- An interpolation stands in the text, whose first character is in `column`. -/
def Occurs (column : Nat) (text : List Char) (start stop : Nat) (body : List Char) : Prop :=
  ∃ i, start = column + i ∧ stop = start + body.length + 3 ∧ Opens body (text.drop i)

/-- The interpolation that is open before the text closes in it. -/
def Ends (column : Nat) (opened : Option (Nat × List Char)) (text : List Char) (start stop : Nat)
    (body : List Char) : Prop :=
  ∃ held more, opened = some (start, held) ∧ stop = column + more.length + 1 ∧
    body = held.reverse ++ more ∧ Closes more text

/-! ### What a brace does -/

theorem not_closes_nil {body : List Char} : ¬ Closes body [] := by
  intro closes
  have empty := List.prefix_nil.mp closes.start
  simp at empty

theorem not_closes_open {body rest : List Char} : ¬ Closes body ('{' :: rest) := by
  rintro ⟨unopened, -, start⟩
  cases body with
  | nil => simp at start
  | cons c more =>
    rw [List.cons_append, List.cons_prefix_cons] at start
    exact unopened (start.1 ▸ List.mem_cons_self)

theorem closes_close_iff {body rest : List Char} : Closes body ('}' :: rest) ↔ body = [] := by
  constructor
  · rintro ⟨-, unclosed, start⟩
    cases body with
    | nil => rfl
    | cons c more =>
      rw [List.cons_append, List.cons_prefix_cons] at start
      exact absurd (start.1 ▸ List.mem_cons_self) unclosed
  · rintro rfl
    exact ⟨List.not_mem_nil, List.not_mem_nil, by simp⟩

theorem closes_cons_iff {c : Char} (noOpen : c ≠ '{') (noClose : c ≠ '}') {body rest : List Char} :
    Closes body (c :: rest) ↔ ∃ more, body = c :: more ∧ Closes more rest := by
  constructor
  · rintro ⟨unopened, unclosed, start⟩
    cases body with
    | nil => simp [Ne.symm noClose] at start
    | cons d more =>
      rw [List.cons_append, List.cons_prefix_cons] at start
      obtain ⟨rfl, start⟩ := start
      rw [List.mem_cons, not_or] at unopened unclosed
      exact ⟨more, rfl, unopened.2, unclosed.2, start⟩
  · rintro ⟨more, rfl, unopened, unclosed, start⟩
    refine ⟨?_, ?_, ?_⟩
    · simpa [Ne.symm noOpen] using unopened
    · simpa [Ne.symm noClose] using unclosed
    · simpa using start

theorem opens_opening_iff {body rest : List Char} :
    Opens body ('$' :: '{' :: rest) ↔ Closes body rest := by
  constructor
  · rintro ⟨_, ⟨⟩, closes⟩
    exact closes
  · intro closes
    exact ⟨rest, rfl, closes⟩

theorem not_opens_cons {c : Char} {rest : List Char}
    (apart : ∀ more, c = '$' → rest = '{' :: more → False) {body : List Char} :
    ¬ Opens body (c :: rest) := by
  rintro ⟨more, same, -⟩
  obtain ⟨dollar, brace⟩ := List.cons.inj same
  exact apart more dollar brace

/-! ### The scan -/

variable {column start stop : Nat} {opened : Option (Nat × List Char)} {body : List Char}

theorem occurs_cons_iff {c : Char} {rest : List Char} :
    Occurs column (c :: rest) start stop body ↔
      start = column ∧ stop = start + body.length + 3 ∧ Opens body (c :: rest) ∨
      Occurs (column + 1) rest start stop body := by
  constructor
  · rintro ⟨i, at_, length, opens⟩
    cases i with
    | zero => exact .inl ⟨at_, length, opens⟩
    | succ i => exact .inr ⟨i, by omega, length, opens⟩
  · rintro (⟨at_, length, opens⟩ | ⟨i, at_, length, opens⟩)
    · exact ⟨0, at_, length, opens⟩
    · exact ⟨i + 1, by omega, length, opens⟩

theorem occurs_of_not_opens {c : Char} {rest : List Char} (apart : ¬ Opens body (c :: rest)) :
    Occurs column (c :: rest) start stop body ↔ Occurs (column + 1) rest start stop body := by
  rw [occurs_cons_iff]
  exact or_iff_right fun here => apart here.2.2

theorem not_ends_none {text : List Char} : ¬ Ends column none text start stop body := by
  rintro ⟨_, _, ⟨⟩, -⟩

theorem ends_opening_iff {rest : List Char} :
    Ends (column + 2) (some (column, [])) rest start stop body ↔
      start = column ∧ stop = start + body.length + 3 ∧ Closes body rest := by
  constructor
  · rintro ⟨_, more, ⟨⟩, length, rfl, closes⟩
    exact ⟨rfl, by omega, closes⟩
  · rintro ⟨rfl, length, closes⟩
    exact ⟨[], body, rfl, by omega, rfl, closes⟩

theorem ends_cons_iff {c : Char} (noOpen : c ≠ '{') (noClose : c ≠ '}') {rest : List Char} :
    Ends column opened (c :: rest) start stop body ↔
      Ends (column + 1) (opened.map fun (start, body) => (start, c :: body)) rest start stop body := by
  constructor
  · rintro ⟨held, more, rfl, length, rfl, closes⟩
    obtain ⟨later, rfl, after⟩ := (closes_cons_iff noOpen noClose).mp closes
    rw [List.length_cons] at length
    exact ⟨c :: held, later, rfl, by omega, by simp, after⟩
  · rintro ⟨held, more, same, length, rfl, closes⟩
    obtain ⟨⟨start', held'⟩, rfl, pair⟩ := Option.map_eq_some_iff.mp same
    cases pair
    refine ⟨held', c :: more, rfl, ?_, by simp, ?_⟩
    · rw [List.length_cons]
      omega
    · exact (closes_cons_iff noOpen noClose).mpr ⟨more, rfl, closes⟩

theorem mem_spans_iff {text : List Char} :
    (start, stop, body) ∈ spans column opened text ↔
      Ends column opened text start stop body ∨ Occurs column text start stop body := by
  -- What is open before the text is closed by its first brace, and any other span opens in it.
  fun_induction spans column opened text with
  | case1 column opened =>
    simp only [List.not_mem_nil, false_iff, not_or]
    refine ⟨?_, ?_⟩
    · rintro ⟨_, _, -, -, -, closes⟩
      exact not_closes_nil closes
    · rintro ⟨i, -, -, rest, same, -⟩
      simp at same
  | case2 column opened rest ih =>
    have before : ¬ Ends column opened ('$' :: '{' :: rest) start stop body := by
      rintro ⟨_, more, -, -, -, closes⟩
      obtain ⟨_, -, later⟩ := (closes_cons_iff (by decide) (by decide)).mp closes
      exact not_closes_open later
    have brace : ¬ Opens body ('{' :: rest) := not_opens_cons (by simp)
    rw [ih, ends_opening_iff, occurs_cons_iff (c := '$'), occurs_of_not_opens brace,
      opens_opening_iff, or_iff_right before]
  | case3 column opened rest ih =>
    have before : ¬ Ends column opened ('{' :: rest) start stop body := by
      rintro ⟨_, _, -, -, -, closes⟩
      exact not_closes_open closes
    rw [ih, occurs_of_not_opens (not_opens_cons (by simp)), or_iff_right not_ends_none,
      or_iff_right before]
  | case4 column rest start' held ih =>
    have here : Ends column (some (start', held)) ('}' :: rest) start stop body ↔
        (start, stop, body) = (start', column + 1, held.reverse) := by
      simp only [Ends, closes_close_iff]
      grind
    rw [List.mem_cons, ih, here, occurs_of_not_opens (not_opens_cons (by simp)),
      or_iff_right not_ends_none]
  | case5 column rest ih =>
    rw [ih, occurs_of_not_opens (not_opens_cons (by simp)), or_iff_right not_ends_none,
      or_iff_right not_ends_none]
  | case6 column opened c rest noOpening noOpen noClose ih =>
    rw [ih, ends_cons_iff noOpen noClose, occurs_of_not_opens (not_opens_cons noOpening)]

theorem mem_spans_none_iff {text : List Char} :
    (start, stop, body) ∈ spans column none text ↔ Occurs column text start stop body := by
  rw [mem_spans_iff, or_iff_right not_ends_none]

theorem spans_ascending (column : Nat) (opened : Option (Nat × List Char)) (text : List Char) :
    (spans column opened text).Pairwise fun span other => span.2.1 ≤ other.1 := by
  fun_induction spans column opened text with
  | case1 => exact List.Pairwise.nil
  | case4 column rest start held ih =>
    refine List.pairwise_cons.mpr ⟨?_, ih⟩
    rintro ⟨start', stop', body'⟩ member
    obtain ⟨i, at_, -⟩ := mem_spans_none_iff.mp member
    show column + 1 ≤ start'
    omega
  | case2 column opened rest ih => exact ih
  | case3 column opened rest ih => exact ih
  | case5 column rest ih => exact ih
  | case6 column opened c rest _ _ _ ih => exact ih

theorem apart_of_ascending {α : Type} {start stop : α → Nat} {spans : List α}
    (ascending : spans.Pairwise fun span other => stop span ≤ start other) {span other : α}
    (member : span ∈ spans) (member' : other ∈ spans) (differs : span ≠ other) :
    stop span ≤ start other ∨ stop other ≤ start span := by
  have symm : Std.Symm fun span other => stop span ≤ start other ∨ stop other ≤ start span :=
    ⟨fun _ _ => Or.symm⟩
  have apart : spans.Pairwise fun span other =>
      stop span ≤ start other ∨ stop other ≤ start span := ascending.imp Or.inl
  exact apart.forall member member' differs

/-! ### The references of a line -/

/-- From column `start` up to column `stop` the line holds an interpolation of `body`. -/
structure IsInterpolation (line : List Char) (start stop : Nat) (body : List Char) : Prop where
  inside : stop ≤ line.length
  written : line.extract start stop = '$' :: '{' :: (body ++ ['}'])
  unopened : '{' ∉ body
  unclosed : '}' ∉ body

theorem occurs_zero_iff {line : List Char} :
    Occurs 0 line start stop body ↔ IsInterpolation line start stop body := by
  have length : ('$' :: '{' :: (body ++ ['}'])).length = body.length + 3 := by simp
  constructor
  · rintro ⟨i, at_, last, rest, same, unopened, unclosed, begins⟩
    rw [Nat.zero_add] at at_
    subst at_
    have whole : '$' :: '{' :: (body ++ ['}']) <+: line.drop start := by
      rw [same]
      simpa using begins
    have fits := whole.length_le
    rw [length, List.length_drop] at fits
    refine ⟨by omega, ?_, unopened, unclosed⟩
    rw [List.extract_eq_take_drop, show stop - start = body.length + 3 by omega, ← length]
    exact (List.prefix_iff_eq_take.mp whole).symm
  · rintro ⟨inside, written, unopened, unclosed⟩
    rw [List.extract_eq_take_drop] at written
    have taken := congrArg List.length written
    rw [length, List.length_take, List.length_drop] at taken
    have whole : '$' :: '{' :: (body ++ ['}']) <+: line.drop start := by
      rw [← written]
      exact List.take_prefix _ _
    obtain ⟨after, same⟩ := whole
    refine ⟨start, by omega, by omega, body ++ ['}'] ++ after, same.symm, unopened, unclosed, ?_⟩
    exact List.prefix_append _ _

theorem IsInterpolation.stop_eq {line : List Char} (at_ : IsInterpolation line start stop body) :
    stop = start + body.length + 3 := by
  obtain ⟨_, -, stop, -⟩ := occurs_zero_iff.mpr at_
  exact stop

theorem IsInterpolation.eq_or_apart {line : List Char} {start' stop' : Nat} {body' : List Char}
    (at_ : IsInterpolation line start stop body) (other : IsInterpolation line start' stop' body') :
    start = start' ∧ stop = stop' ∧ body = body' ∨ stop ≤ start' ∨ stop' ≤ start := by
  have found := mem_spans_none_iff.mpr (occurs_zero_iff.mpr at_)
  have found' := mem_spans_none_iff.mpr (occurs_zero_iff.mpr other)
  by_cases same : (start, stop, body) = (start', stop', body')
  · cases same
    exact .inl ⟨rfl, rfl, rfl⟩
  · exact .inr (apart_of_ascending (spans_ascending 0 none line) found found' same)

theorem parse_braces {inner : List Char} (unopened : '{' ∉ inner) :
    parse ('$' :: '{' :: (inner ++ ['}'])) = parse inner := by
  have bare : unwrap (trim inner) = trim inner := by
    rw [unwrap, if_neg]
    intro wrapped
    obtain ⟨rest, same⟩ := startsWith_opening_iff.mp (Bool.and_eq_true_iff.mp wrapped).1
    exact unopened (mem_of_mem_trim (by rw [← same]; simp))
  have same : unwrap (trim ('$' :: '{' :: (inner ++ ['}']))) = unwrap (trim inner) := by
    rw [trim_of_isTrimmed (isTrimmed_braces _), unwrap_braces, bare]
  rw [parse, parse, same]

theorem IsInterpolation.parse?_eq {line : List Char} (at_ : IsInterpolation line start stop body) :
    parse? (.ofList (line.extract start stop)) = (parse body).map (·.map String.ofList) := by
  rw [parse?, String.toList_ofList, at_.written, parse_braces at_.unopened]

theorem mem_find_iff {line : List Char} {r : Reference} :
    r ∈ find line ↔ ∃ body, IsInterpolation line r.start r.stop body ∧
      r.text = .ofList (trim body) ∧
      parse? (.ofList (line.extract r.start r.stop)) = some r.components := by
  rw [find, List.mem_filterMap]
  constructor
  · rintro ⟨⟨start, stop, body⟩, member, named⟩
    have at_ := occurs_zero_iff.mp (mem_spans_none_iff.mp member)
    obtain ⟨components, read, rfl⟩ := Option.map_eq_some_iff.mp named
    refine ⟨body, at_, rfl, ?_⟩
    rw [at_.parse?_eq, read]
    rfl
  · rintro ⟨body, at_, text, named⟩
    refine ⟨(r.start, r.stop, body), mem_spans_none_iff.mpr (occurs_zero_iff.mpr at_), ?_⟩
    rw [at_.parse?_eq] at named
    obtain ⟨components, read, same⟩ := Option.map_eq_some_iff.mp named
    rw [ofSpan?, read, Option.map_some, same, ← text]

theorem find_ascending (line : List Char) :
    (find line).Pairwise fun r other => r.stop ≤ other.start := by
  apply (spans_ascending 0 none line).filterMap
  rintro ⟨start, stop, body⟩ ⟨start', stop', body'⟩ before r found other found'
  obtain ⟨_, -, rfl⟩ := Option.map_eq_some_iff.mp found
  obtain ⟨_, -, rfl⟩ := Option.map_eq_some_iff.mp found'
  exact before

theorem start_lt_stop {line : List Char} {r : Reference} (member : r ∈ find line) :
    r.start < r.stop := by
  obtain ⟨body, at_, -⟩ := mem_find_iff.mp member
  have stop := at_.stop_eq
  omega

theorem covers_iff {r : Reference} {column : Int} :
    r.covers column = true ↔ r.start ≤ column ∧ column < r.stop := by
  simp [covers]

theorem eq_of_covers {line : List Char} {column : Int} {r other : Reference}
    (member : r ∈ find line) (member' : other ∈ find line) (covers : r.covers column = true)
    (covers' : other.covers column = true) : r = other := by
  rw [covers_iff] at covers covers'
  by_contra differs
  have order := apart_of_ascending (find_ascending line) member member' differs
  omega

theorem at?_eq_some_iff {line : List Char} {column : Int} {r : Reference} :
    at? line column = some r ↔ r ∈ find line ∧ r.covers column = true := by
  rw [at?]
  constructor
  · intro found
    have covers := List.find?_some found
    exact ⟨List.mem_of_find?_eq_some found, covers⟩
  · rintro ⟨member, covers⟩
    cases found : (find line).find? (·.covers column) with
    | none => exact absurd covers (by simpa using List.find?_eq_none.mp found r member)
    | some other =>
      have covers' := List.find?_some found
      rw [eq_of_covers member (List.mem_of_find?_eq_some found) covers covers']

theorem at?_of_isInterpolation {line : List Char} {column : Int}
    (at_ : IsInterpolation line start stop body) (from_ : start ≤ column) (before : column < stop) :
    (at? line column).map components = parse? (.ofList (line.extract start stop)) := by
  cases named : parse? (.ofList (line.extract start stop)) with
  | some components =>
    have member : (⟨.ofList (trim body), components, start, stop⟩ : Reference) ∈ find line :=
      mem_find_iff.mpr ⟨body, at_, rfl, named⟩
    rw [at?_eq_some_iff.mpr ⟨member, covers_iff.mpr ⟨from_, before⟩⟩]
    rfl
  | none =>
    rw [Option.map_eq_none_iff, Option.eq_none_iff_forall_ne_some]
    intro r found
    obtain ⟨member, covers⟩ := at?_eq_some_iff.mp found
    rw [covers_iff] at covers
    obtain ⟨body', other, -, named'⟩ := mem_find_iff.mp member
    rcases at_.eq_or_apart other with ⟨rfl, rfl, -⟩ | apart
    · rw [named] at named'
      cases named'
    · omega

/-! ### Nested interpolations -/

/-- A text with interpolations in it, which hold such texts. -/
inductive Template where
  | done
  | letter (c : Char) (unopened : c ≠ '{') (unclosed : c ≠ '}') (rest : Template)
  | interpolation (inside rest : Template)

namespace Template

def written : Template → List Char
  | done => []
  | letter c _ _ rest => c :: rest.written
  | interpolation inside rest => '$' :: '{' :: (inside.written ++ '}' :: rest.written)

def isFlat : Template → Bool
  | done => true
  | letter _ _ _ rest => rest.isFlat
  | interpolation _ _ => false

/-- The interpolations that have no other in them, of a text whose first character is in `column`. -/
def innermost (column : Nat) : Template → List (Nat × Nat × List Char)
  | done => []
  | letter _ _ _ rest => rest.innermost (column + 1)
  | interpolation inside rest =>
    let stop := column + inside.written.length + 3
    (if inside.isFlat then [(column, stop, inside.written)] else inside.innermost (column + 2)) ++
      rest.innermost stop

/-- What is open behind the text. -/
def after (opened : Option (Nat × List Char)) (t : Template) : Option (Nat × List Char) :=
  if t.isFlat then opened.map fun (start, body) => (start, t.written.reverse ++ body) else none

theorem innermost_of_isFlat {t : Template} (flat : t.isFlat = true) (column : Nat) :
    t.innermost column = [] := by
  induction t generalizing column with
  | done => rfl
  | letter c _ _ rest ih => exact ih flat (column + 1)
  | interpolation inside rest => cases flat

theorem head?_written_append (t : Template) {tail : List Char} (apart : tail.head? ≠ some '{') :
    (t.written ++ tail).head? ≠ some '{' := by
  cases t with
  | done => exact apart
  | letter c unopened _ rest => simpa [written] using unopened
  | interpolation inside rest => simp [written]

end Template

theorem spans_cons {c : Char} {rest : List Char} (unopened : c ≠ '{') (unclosed : c ≠ '}')
    (apart : rest.head? ≠ some '{') (column : Nat) (opened : Option (Nat × List Char)) :
    spans column opened (c :: rest) =
      spans (column + 1) (opened.map fun (start, body) => (start, c :: body)) rest := by
  refine spans.eq_6 column opened c rest ?_ unopened unclosed
  rintro more - rfl
  exact apart rfl

theorem spans_written (t : Template) (column : Nat) (opened : Option (Nat × List Char))
    {tail : List Char} (apart : tail.head? ≠ some '{') :
    spans column opened (t.written ++ tail) =
      t.innermost column ++ spans (column + t.written.length) (t.after opened) tail := by
  -- A text that holds an interpolation leaves nothing open that was open before it.
  induction t generalizing column opened tail with
  | done => simp [Template.written, Template.innermost, Template.after, Template.isFlat]
  | letter c unopened unclosed rest ih =>
    have next : rest.after (opened.map fun (start, body) => (start, c :: body)) =
        (Template.letter c unopened unclosed rest).after opened := by
      simp [Template.after, Template.isFlat, Template.written, Function.comp_def]
    have columns : column + 1 + rest.written.length = column + (c :: rest.written).length := by
      rw [List.length_cons]
      omega
    rw [Template.written, List.cons_append,
      spans_cons unopened unclosed (rest.head?_written_append apart), ih _ _ apart, next, columns]
    rfl
  | interpolation inside rest inner outer =>
    have closing : ('}' :: (rest.written ++ tail)).head? ≠ some '{' := by simp
    have columns : column + 2 + inside.written.length + 1 = column + inside.written.length + 3 := by
      omega
    have whole : column + inside.written.length + 3 + rest.written.length =
        column + (Template.interpolation inside rest).written.length := by
      simp [Template.written]
      omega
    have closed : (Template.interpolation inside rest).after opened = rest.after none := by
      simp [Template.after, Template.isFlat]
    rw [closed, ← whole, Template.written, List.cons_append, List.cons_append, List.append_assoc,
      List.cons_append, spans, inner _ _ closing, Template.innermost]
    by_cases flat : inside.isFlat = true
    · rw [Template.innermost_of_isFlat flat, Template.after, if_pos flat, if_pos flat]
      simp [spans, columns, outer _ _ apart]
    · rw [Template.after, if_neg flat, if_neg flat]
      simp [spans, columns, outer _ _ apart]

theorem find_written (t : Template) : find t.written = (t.innermost 0).filterMap ofSpan? := by
  have apart : ([] : List Char).head? ≠ some '{' := by simp
  have scanned := spans_written t 0 none apart
  rw [List.append_nil] at scanned
  rw [find, scanned, spans, List.append_nil]

end KeyAtlas.Reference
