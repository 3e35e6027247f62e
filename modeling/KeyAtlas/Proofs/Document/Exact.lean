import KeyAtlas.Proofs.Document.Scanning

namespace KeyAtlas.Document.Block

open Text

def keys (base : List OpenKey) : List String :=
  (base.map (·.key)).reverse

theorem keys_cons (key : String) (column : Nat) (base : List OpenKey) :
    keys (⟨key, column⟩ :: base) = keys base ++ [key] := by
  simp [keys]

def entryAt (base : List OpenKey) (key : List Char) (line column : Nat) : OutlineEntry :=
  ⟨keys base, String.ofList key, ⟨line, column, column + (quote key).length⟩⟩

theorem Leads.isOneLine {lead : List Char} {column : Nat} (leads : Leads lead column) :
    isOneLine lead = true := by
  have space : isLineEnd ' ' = false := by decide
  have dash : isLineEnd '-' = false := by decide
  cases leads <;> simp [Block.isOneLine, dashed, spaces, space, dash]

variable {column line : Nat} {base : List OpenKey} {s : OutlineState} {lead key : List Char}

theorem isOneLine_key (leads : Leads lead column) (single : isOneLine key = true)
    {after : List Char} (one : isOneLine after = true) :
    isOneLine (lead ++ (quote key ++ ':' :: after)) = true := by
  have colon : isLineEnd ':' = false := by decide
  rw [isOneLine_append, isOneLine_append, isOneLine_quote, leads.isOneLine, single]
  rw [isOneLine] at one
  simp [isOneLine, colon, one]

theorem Ready.scans_key (ready : Ready column base s) (leads : Leads lead column)
    (single : isOneLine key = true) {after value : List Char} (one : isOneLine after = true)
    (reads : ReadsAs after value) (line : Nat) :
    Scans s line (lead ++ (quote key ++ ':' :: (after ++ ['\n']))) [entryAt base key line column]
      (.afterKey base (String.ofList key) column value) (line + 1) := by
  have scans := scans_line (isOneLine_key leads single one) (ready.step_key leads key reads line)
  simpa [entryAt, keys] using scans

theorem Ready.scans_word (ready : Ready column base s) (leads : Leads lead column)
    (single : isOneLine key = true) {letters : List Char} (nonempty : letters ≠ [])
    (all : letters.all Char.isAlpha = true) (line : Nat) :
    Scans s line (lead ++ (quote key ++ ':' :: (Value.word letters).render column))
      [entryAt base key line column] ⟨base, none, none⟩ (line + 1) := by
  obtain ⟨reads, after⟩ := readsAs_letters all nonempty base (String.ofList key) column
  have one : isOneLine (' ' :: letters) = true := by
    rw [isOneLine, List.all_eq_true]
    rintro c (_ | ⟨_, member⟩)
    · decide
    · rw [isLineEnd_of_isAlpha (List.all_eq_true.mp all c member)]
      rfl
  have scans := ready.scans_key leads single one reads line
  rwa [after] at scans

theorem Ready.scans_literal (ready : Ready column base s) (leads : Leads lead column)
    (single : isOneLine key = true) {body : List (List Char)}
    (fits : body.all (isBodyLine column) = true) (line : Nat) :
    Scans s line (lead ++ (quote key ++ ':' :: (Value.literal body).render column))
      [entryAt base key line column] ⟨base, some column, none⟩ (line + 1 + body.length) := by
  obtain ⟨reads, after⟩ := readsAs_header base (String.ofList key) column
  have first := ready.scans_key leads single (by decide) reads line
  rw [after] at first
  have whole := first.append (scans_body fits base (line + 1))
  simpa [Value.render, List.append_assoc] using whole

theorem Ready.opens (ready : Ready column base s) (leads : Leads lead column) (key : List Char)
    (line : Nat) :
    Opens s line (lead ++ (quote key ++ [':', ' ', '\''])) base
      (some (entryAt base key line column)) := by
  refine ⟨fun text => ?_, fun text => ?_⟩
  · obtain ⟨value, reads, after⟩ := readsAs_escape text base (String.ofList key) column
    have whole : lead ++ (quote key ++ [':', ' ', '\'']) ++ escape text =
        lead ++ (quote key ++ ':' :: ' ' :: '\'' :: escape text) := by
      simp
    rw [whole, ready.step_key leads key reads line, after]
    rfl
  · obtain ⟨reads, after⟩ := readsAs_quote text base (String.ofList key) column
    have whole : lead ++ (quote key ++ [':', ' ', '\'']) ++ (escape text ++ ['\'']) =
        lead ++ (quote key ++ ':' :: ' ' :: quote text) := by
      simp [quote]
    rw [whole, ready.step_key leads key reads line, after]
    rfl

theorem Ready.scans_quoted (ready : Ready column base s) (leads : Leads lead column)
    (single : isOneLine key = true) (text : List Char) (line : Nat) :
    Scans s line (lead ++ (quote key ++ ':' :: (Value.quoted text).render column))
      [entryAt base key line column] ⟨base, none, none⟩ (line + 1 + breaks text) := by
  intro rest
  have one := isOneLine_key leads single (by decide : isOneLine [' ', '\''] = true)
  have reads := (ready.opens leads key line).reads [] text rest
  rw [escape, List.append_nil] at reads
  have whole : lead ++ (quote key ++ ':' :: (Value.quoted text).render column) ++ rest =
      lead ++ (quote key ++ [':', ' ', '\'']) ++ (escape text ++ '\'' :: '\n' :: rest) := by
    simp [Value.render, quote, List.append_assoc]
  rw [whole, lines, linesFrom_append one, List.append_nil, reads, Nat.add_right_comm]
  rfl

/-- Wherever the value's key may stand, reading finds the key and all keys in the value, and the next
key may stand there too. -/
def Value.IsRead (value : Value) : Prop :=
  ∀ {column base s lead key}, value.fits column = true → Ready column base s → Leads lead column →
    isOneLine key = true → ∀ line, ∃ s', Ready column base s' ∧
      Scans s line (lead ++ (quote key ++ ':' :: value.render column))
        (entryAt base key line column ::
          value.outline (keys base ++ [String.ofList key]) column (line + 1))
        s' (line + 1 + value.height)

def Entry.IsRead (entry : Entry) : Prop :=
  ∀ {column base s lead}, entry.fits column = true → Ready column base s → Leads lead column →
    ∀ line, ∃ s', Ready column base s' ∧
      Scans s line (entry.render lead column) (entry.outline (keys base) column line) s'
        (line + entry.height)

def Entries.IsRead (entries : Entries) : Prop :=
  ∀ {column base s}, entries.fits column = true → Ready column base s →
    ∀ line, ∃ s', Ready column base s' ∧
      Scans s line (entries.render column) (entries.outline (keys base) column line) s'
        (line + entries.height)

def Items.IsRead (items : Items) : Prop :=
  ∀ {dash base s}, items.fits dash = true → Ready (dash + 2) base s →
    ∀ line, ∃ s', Ready (dash + 2) base s' ∧
      Scans s line (items.render dash) (items.outline (keys base) dash line) s'
        (line + items.height)

theorem Ready.scans_block (ready : Ready column base s) (leads : Leads lead column)
    (single : isOneLine key = true) (line : Nat) {text : List Char} {found : List OutlineEntry}
    {s' : OutlineState} {last : Nat}
    (scans : Scans ⟨⟨String.ofList key, column⟩ :: base, none, none⟩ (line + 1) text found s' last) :
    Scans s line (lead ++ (quote key ++ ':' :: '\n' :: text))
      (entryAt base key line column :: found) s' last := by
  have whole := (ready.scans_key leads single (by decide) readsAs_nil line).append scans
  simpa [List.append_assoc] using whole

mutual

theorem Value.isRead (value : Value) : value.IsRead := by
  intro column base s lead key fits ready leads single line
  cases value with
  | word letters =>
    obtain ⟨nonempty, all⟩ := Bool.and_eq_true_iff.mp fits
    have nonempty : letters ≠ [] := by simpa using nonempty
    exact ⟨_, ready.settled, ready.scans_word leads single nonempty all line⟩
  | literal body =>
    refine ⟨_, ⟨rfl, ?_, ready.base⟩, ready.scans_literal leads single fits line⟩
    intro held same
    exact Nat.le_of_eq (Option.some_inj.mp same)
  | quoted text => exact ⟨_, ready.settled, ready.scans_quoted leads single text line⟩
  | mapping deeper entries =>
    -- What is read below the key stands deeper, so it leaves the keys above it open.
    have below := ready_below (by omega : column < column + deeper + 1) base (String.ofList key)
    obtain ⟨s', inner, scans⟩ := entries.isRead fits below (line + 1)
    rw [keys_cons] at scans
    exact ⟨s', ready.leave (by omega) inner, ready.scans_block leads single line scans⟩
  | sequence shift items =>
    have below := ready_below (by omega : column < column + shift + 2) base (String.ofList key)
    obtain ⟨s', inner, scans⟩ := items.isRead fits below (line + 1)
    rw [keys_cons] at scans
    exact ⟨s', ready.leave (by omega) inner, ready.scans_block leads single line scans⟩

theorem Entry.isRead (entry : Entry) : entry.IsRead := by
  intro column base s lead fits ready leads line
  obtain ⟨noise, key, value⟩ := entry
  simp only [Entry.fits, Bool.and_eq_true] at fits
  obtain ⟨⟨all, single⟩, inside⟩ := fits
  obtain ⟨_, ready, before⟩ := ready.scans_noise all line
  obtain ⟨s', ready, scans⟩ := value.isRead inside ready leads single (line + noise.length)
  refine ⟨s', ready, ?_⟩
  have whole := before.append scans
  rwa [List.nil_append, Nat.add_assoc line, Nat.add_assoc line] at whole

theorem Entries.isRead (entries : Entries) : entries.IsRead := by
  intro column base s fits ready line
  cases entries with
  | nil => exact ⟨s, ready, fun _ => rfl⟩
  | cons first rest =>
    obtain ⟨here, others⟩ := Bool.and_eq_true_iff.mp fits
    obtain ⟨_, ready, before⟩ := first.isRead here ready (.plain column) line
    obtain ⟨s', ready, scans⟩ := rest.isRead others ready (line + first.height)
    refine ⟨s', ready, ?_⟩
    have whole := before.append scans
    rwa [Nat.add_assoc] at whole

theorem Items.isRead (items : Items) : items.IsRead := by
  intro dash base s fits ready line
  cases items with
  | one first rest =>
    obtain ⟨here, others⟩ := Bool.and_eq_true_iff.mp fits
    obtain ⟨_, ready, before⟩ := first.isRead here ready (.item dash) line
    obtain ⟨s', ready, scans⟩ := rest.isRead others ready (line + first.height)
    refine ⟨s', ready, ?_⟩
    have whole := before.append scans
    rwa [Nat.add_assoc] at whole
  | cons first rest more =>
    simp only [Items.fits, Bool.and_eq_true] at fits
    obtain ⟨⟨here, others⟩, later⟩ := fits
    obtain ⟨_, ready, before⟩ := first.isRead here ready (.item dash) line
    obtain ⟨_, ready, between⟩ := rest.isRead others ready (line + first.height)
    obtain ⟨s', ready, scans⟩ := more.isRead later ready (line + first.height + rest.height)
    have height : line + first.height + rest.height + more.height =
        line + (Items.cons first rest more).height := by
      rw [Items.height]
      omega
    refine ⟨s', ready, ?_⟩
    rw [← height]
    exact before.append (between.append scans)

end

theorem entriesFrom_text (b : Block) : entriesFrom .begin 0 (lines b.text) = b.outline := by
  have ready : Ready b.column [] .begin := ⟨rfl, nofun, rfl⟩
  obtain ⟨_, ready, first⟩ := b.entries.isRead b.fits ready 0
  obtain ⟨s', _, last⟩ := ready.scans_noise b.noisy (0 + b.entries.height)
  have whole := (first.append last) []
  rw [List.append_nil, List.append_nil] at whole
  exact whole.trans (List.append_nil _)

/-- The definitions of a block document are those of its entries, in their order, wherever it is laid
out and whether or not its last line ends. -/
theorem definitions_of_written (b : Block) {text : List Char}
    (written : text = b.text ∨ text ++ ['\n'] = b.text) (document : String) (place : List String) :
    definitions document place text =
      b.outline.map (OutlineEntry.definition document place) := by
  have entries : entriesFrom .begin 0 (lines text) = b.outline := by
    rw [← entriesFrom_text]
    rcases written with rfl | ended
    · rfl
    · rw [← ended, entriesFrom_newline]
  rw [definitions, entries]

def sample : Block where
  column := 0
  entries :=
    .cons (.mk ["# 'no': key".toList, []] "it's: #1".toList
      (.mapping 1
        (.cons (.mk [] "body".toList (.literal ["    'no': key".toList, " ".toList, "   x".toList]))
          (.cons (.mk ["  #".toList] "- word".toList (.word "on".toList)) .nil))))
    (.cons (.mk [] "list".toList
      (.sequence 0
        (.cons (.mk [] "".toList (.quoted "one'\r\n'no': key # ".toList))
          (.cons (.mk [[]] "b".toList (.mapping 0 .nil)) .nil)
          (.one (.mk [] "c".toList (.quoted [])) .nil)))) .nil)
  noise := ["#".toList]
  fits := by decide
  noisy := by decide

def sampleText : String :=
  "# 'no': key\n\n'it''s: #1':\n  'body': |\n    'no': key\n \n   x\n  #\n  '- word': on\n" ++
    "'list':\n- '': 'one''\r\n''no'': key # '\n\n  'b':\n- 'c': ''\n#"

theorem definitions_of_written_sample :
    sampleText.toList ++ ['\n'] = sample.text ∧
      (definitions "/w/a.yaml" ["a"] sampleText.toList).map (fun d => (d.path, d.anchor)) =
        [(["a", "it's: #1"], ⟨2, 0, 11⟩), (["a", "it's: #1", "body"], ⟨3, 2, 8⟩),
          (["a", "it's: #1", "- word"], ⟨8, 2, 10⟩), (["a", "list"], ⟨9, 0, 6⟩),
          (["a", "list", ""], ⟨10, 2, 4⟩), (["a", "list", "b"], ⟨13, 2, 5⟩),
          (["a", "list", "c"], ⟨14, 2, 5⟩)] := by
  have written : sampleText.toList ++ ['\n'] = sample.text := by decide +kernel
  refine ⟨written, ?_⟩
  rw [definitions_of_written sample (.inr written)]
  decide +kernel

end KeyAtlas.Document.Block
