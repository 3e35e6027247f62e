import KeyAtlas.Proofs.Document.Entries
import KeyAtlas.Proofs.Document.Reading

namespace KeyAtlas.Document.Block

open Text

theorem linesFrom_cons {c : Char} {rest : List Char} (apart : c = '\r' → rest.head? ≠ some '\n')
    (current : List Char) :
    linesFrom current (c :: rest) =
      if isLineEnd c then current.reverse :: lines rest else linesFrom (c :: current) rest := by
  refine linesFrom.eq_3 current c rest fun more same starts => apart same ?_
  rw [starts]
  rfl

theorem linesFrom_newline (current rest : List Char) :
    linesFrom current ('\n' :: rest) = current.reverse :: lines rest := by
  have ends : isLineEnd '\n' = true := by decide
  rw [linesFrom_cons (by simp), if_pos ends]

theorem linesFrom_append {a : List Char} (one : isOneLine a = true) (current rest : List Char) :
    linesFrom current (a ++ rest) = linesFrom (a.reverse ++ current) rest := by
  induction a generalizing current with
  | nil => rfl
  | cons c a ih =>
    obtain ⟨inside, others⟩ := Bool.and_eq_true_iff.mp one
    rw [Bool.not_eq_true'] at inside
    have noReturn : c ≠ '\r' := by
      rintro rfl
      cases inside
    rw [List.cons_append, linesFrom_cons fun same => absurd same noReturn, inside,
      if_neg Bool.false_ne_true, ih others]
    simp

theorem lines_append_cons {a : List Char} (one : isOneLine a = true) (rest : List Char) :
    lines (a ++ '\n' :: rest) = a :: lines rest := by
  rw [lines, linesFrom_append one, linesFrom_newline]
  simp

theorem head?_ne_newline {c : Char} {rest : List Char}
    (other : ∀ more, c = '\r' → rest = '\n' :: more → False) (same : c = '\r') :
    rest.head? ≠ some '\n' := by
  intro starts
  obtain ⟨more, whole⟩ := List.head?_eq_some_iff.mp starts
  exact other more same whole

theorem linesFrom_concat_newline (current text : List Char) :
    linesFrom current (text ++ ['\n']) = linesFrom current text ∨
      linesFrom current (text ++ ['\n']) = linesFrom current text ++ [[]] := by
  induction current, text using linesFrom.induct with
  | case1 current empty =>
    rw [List.nil_append, linesFrom_newline, List.isEmpty_iff.mp empty]
    exact .inr rfl
  | case2 current held =>
    rw [List.nil_append, linesFrom_newline, linesFrom, if_neg held]
    exact .inl rfl
  | case3 current rest ih =>
    rw [List.cons_append, List.cons_append, linesFrom, linesFrom]
    exact ih.imp (congrArg _) (congrArg _)
  | case4 current c rest other ends ih =>
    have apart := head?_ne_newline other
    rw [linesFrom_cons apart, if_pos ends, List.cons_append]
    -- A return at the very end and the new line end are one.
    by_cases merged : c = '\r' ∧ rest = []
    · obtain ⟨rfl, rfl⟩ := merged
      exact .inl rfl
    · rw [linesFrom_cons, if_pos ends]
      · exact ih.imp (congrArg _) (congrArg _)
      · intro same
        cases rest with
        | nil => exact absurd ⟨same, rfl⟩ merged
        | cons d more => exact apart same
  | case5 current c rest other inside ih =>
    have noReturn : c ≠ '\r' := by
      rintro rfl
      exact inside (by decide)
    rw [List.cons_append, linesFrom_cons fun same => absurd same noReturn, if_neg inside,
      linesFrom_cons fun same => absurd same noReturn, if_neg inside]
    exact ih

theorem step_nil (s : OutlineState) (line : Nat) : (s.step line []).2 = none := by
  unfold OutlineState.step
  cases s.openQuote with
  | some q => rfl
  | none => cases s.scalarColumn <;> rfl

theorem entriesFrom_newline (s : OutlineState) (line : Nat) (text : List Char) :
    entriesFrom s line (lines (text ++ ['\n'])) = entriesFrom s line (lines text) := by
  have empty : ∀ (raws : List (List Char)) (s : OutlineState) (line : Nat),
      entriesFrom s line (raws ++ [[]]) = entriesFrom s line raws := by
    intro raws
    induction raws with
    | nil =>
      intro s line
      rw [List.nil_append, entriesFrom_cons, step_nil]
      rfl
    | cons raw rest ih =>
      intro s line
      rw [List.cons_append, entriesFrom_cons, entriesFrom_cons, ih]
  rcases linesFrom_concat_newline [] text with same | longer
  · rw [lines, same, lines]
  · rw [lines, longer, empty, lines]

/-- Reading `text` finds these entries and comes to the state `s'` at `last`, whatever follows. -/
def Scans (s : OutlineState) (line : Nat) (text : List Char) (found : List OutlineEntry)
    (s' : OutlineState) (last : Nat) : Prop :=
  ∀ rest, entriesFrom s line (lines (text ++ rest)) = found ++ entriesFrom s' last (lines rest)

theorem Scans.append {s s' s'' : OutlineState} {line middle last : Nat} {a b : List Char}
    {found more : List OutlineEntry} (first : Scans s line a found s' middle)
    (second : Scans s' middle b more s'' last) : Scans s line (a ++ b) (found ++ more) s'' last := by
  intro rest
  rw [List.append_assoc, first, second, List.append_assoc]

theorem scans_line {s s' : OutlineState} {line : Nat} {raw : List Char} {found : Option OutlineEntry}
    (one : isOneLine raw = true) (step : s.step line raw = (s', found)) :
    Scans s line (raw ++ ['\n']) found.toList s' (line + 1) := by
  intro rest
  rw [List.append_assoc, List.singleton_append, lines_append_cons one, entriesFrom_cons, step]

theorem scans_body {column : Nat} {body : List (List Char)}
    (fits : body.all (isBodyLine column) = true) (base : List OpenKey) (line : Nat) :
    Scans ⟨base, some column, none⟩ line (unlines body) [] ⟨base, some column, none⟩
      (line + body.length) := by
  induction body generalizing line with
  | nil => exact fun _ => rfl
  | cons raw body ih =>
    obtain ⟨fit, others⟩ := Bool.and_eq_true_iff.mp fits
    obtain ⟨one, inside⟩ := Bool.and_eq_true_iff.mp fit
    have first := scans_line one (step_body inside base line)
    have whole := first.append (ih others (line + 1))
    rwa [Nat.add_assoc, Nat.add_comm 1] at whole

theorem Ready.scans_noise {column : Nat} {base : List OpenKey} {s : OutlineState}
    (ready : Ready column base s) {noise : List (List Char)} (all : noise.all isNoise = true)
    (line : Nat) :
    ∃ s', Ready column base s' ∧ Scans s line (unlines noise) [] s' (line + noise.length) := by
  induction noise generalizing s line with
  | nil => exact ⟨s, ready, fun _ => rfl⟩
  | cons raw noise ih =>
    obtain ⟨first, others⟩ := Bool.and_eq_true_iff.mp all
    obtain ⟨next, step, ready⟩ := ready.step_noise first line
    obtain ⟨last, ready, scans⟩ := ih ready others (line + 1)
    have one := (Bool.and_eq_true_iff.mp first).1
    refine ⟨last, ready, ?_⟩
    have whole := (scans_line one step).append scans
    rwa [Nat.add_assoc, Nat.add_comm 1] at whole

/-- After `before` quoted text begins, on the line or on the ones before it: the line leaves it open
as long as it is not closed. -/
structure Opens (s : OutlineState) (line : Nat) (before : List Char) (base : List OpenKey)
    (found : Option OutlineEntry) : Prop where
  goesOn : ∀ text,
    s.step line (before ++ escape text) = (⟨base, none, some .single⟩, found)
  closes : ∀ text,
    s.step line (before ++ (escape text ++ ['\''])) = (⟨base, none, none⟩, found)

theorem opens_open (base : List OpenKey) (line : Nat) :
    Opens ⟨base, none, some .single⟩ line [] base none := by
  refine ⟨fun text => ?_, fun text => ?_⟩
  · simp [OutlineState.step, close_escape]
  · have ends : ([] : List Char).head? ≠ some '\'' := by simp
    simp [OutlineState.step, close_escape_append text ends]

theorem head?_escape_append (text rest : List Char) :
    (escape text ++ '\'' :: rest).head? = some (text.head?.getD '\'') := by
  cases text with
  | nil => rfl
  | cons c text =>
    by_cases mark : c = '\'' <;> simp [escape, mark]

theorem Opens.reads {s : OutlineState} {line : Nat} {before : List Char} {base : List OpenKey}
    {found : Option OutlineEntry} (opens : Opens s line before base found)
    (begun text rest : List Char) :
    entriesFrom s line (linesFrom (before ++ escape begun).reverse
        (escape text ++ '\'' :: '\n' :: rest)) =
      found.toList ++ entriesFrom ⟨base, none, none⟩ (line + breaks text + 1) (lines rest) := by
  -- By the line ends of the text: the lines after the first begin with the quote open, and no key.
  induction text using breaks.induct generalizing s line before found begun with
  | case1 =>
    have mark : isOneLine ['\''] = true := by decide
    have closes := opens.closes begun
    rw [← List.append_assoc] at closes
    rw [escape, List.nil_append, ← List.singleton_append, linesFrom_append mark, linesFrom_newline,
      List.reverse_append, List.reverse_reverse, List.reverse_reverse, entriesFrom_cons, closes]
    rfl
  | case2 text ih =>
    have later := ih (opens_open base (line + 1)) []
    have escaped : escape ('\r' :: '\n' :: text) = '\r' :: '\n' :: escape text := rfl
    rw [escaped, List.cons_append, List.cons_append, linesFrom.eq_2, List.reverse_reverse,
      entriesFrom_cons, opens.goesOn]
    refine congrArg (found.toList ++ ·) (later.trans ?_)
    rw [breaks, Nat.add_right_comm line 1]
    rfl
  | case3 c text other ends ih =>
    have later := ih (opens_open base (line + 1)) []
    have noMark : c ≠ '\'' := by
      rintro rfl
      cases ends
    have apart : c = '\r' → (escape text ++ '\'' :: '\n' :: rest).head? ≠ some '\n' := by
      intro same starts
      rw [head?_escape_append, Option.some_inj] at starts
      cases text with
      | nil => cases starts
      | cons d more => exact other more same (congrArg (· :: more) starts)
    rw [escape, if_neg noMark, List.cons_append, linesFrom_cons apart, if_pos ends,
      List.reverse_reverse, entriesFrom_cons, opens.goesOn]
    refine congrArg (found.toList ++ ·) (later.trans ?_)
    rw [breaks.eq_3 _ _ other, if_pos ends, Nat.add_right_comm line 1]
    rfl
  | case4 c text other inside ih =>
    have one : isOneLine (escape [c]) = true := by
      rw [isOneLine_escape]
      simp [isOneLine, inside]
    have later := ih opens (begun ++ [c])
    rw [← List.singleton_append, escape_append, List.append_assoc, linesFrom_append one,
      ← List.reverse_append, List.append_assoc, ← escape_append, List.singleton_append,
      breaks.eq_3 _ _ other, if_neg inside]
    exact later

end KeyAtlas.Document.Block
