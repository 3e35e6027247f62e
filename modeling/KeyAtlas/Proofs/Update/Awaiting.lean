import KeyAtlas.Proofs.Indexer.Visited
import KeyAtlas.Proofs.Update.Report

namespace KeyAtlas.Update

/-- `start` is an indexer that has not scanned anything, `waiting` the last update of each path that
has not been applied, and `missed` a path that a waiting deletion is wrong about. -/
structure Awaits (start : Indexer) (t : FileTree) (waiting : Path → Option Event)
    (missed : Option Path) (i : Indexer) : Prop where
  host : i.host = start.host
  patterns : i.excludePatterns = start.excludePatterns
  sound : i.index.Sound
  covered : ∀ p e, p.IsPlain → waiting p = some e → start.host.Covers p
  behind : ∀ document,
    i.index.definitionsFor document ≠ start.scanFinds (.ofTree t) document →
      ∃ p, start.host.Covers p ∧ start.isExcluded p = false ∧
        start.host.documentId p = document ∧ ((waiting p).isSome ∨ missed = some p)
  gone : ∀ p e, p.IsPlain → waiting p = some e → e.kind = .deleted → missed ≠ some p →
    t.content? p = none

variable {start i : Indexer} {t t' : FileTree} {waiting waiting' : Path → Option Event}
  {missed : Option Path}

theorem Awaits.congr (holds : Awaits start t waiting missed i)
    (same : ∀ p, p.IsPlain → waiting' p = waiting p) : Awaits start t waiting' missed i := by
  refine ⟨holds.host, holds.patterns, holds.sound, fun p e plain found => ?_,
    fun document stale => ?_, fun p e plain found => ?_⟩
  · exact holds.covered p e plain (same p plain ▸ found)
  · obtain ⟨p, covered, kept, named, waits⟩ := holds.behind document stale
    exact ⟨p, covered, kept, named, by rwa [same p covered.plain]⟩
  · exact holds.gone p e plain (same p plain ▸ found)

theorem Awaits.current (holds : Awaits start t waiting missed i)
    (idle : ∀ p, p.IsPlain → waiting p = none) {document : String}
    (other : ∀ p, missed = some p → start.isExcluded p = false →
      start.host.documentId p ≠ document) :
    i.index.definitionsFor document = start.scanFinds (.ofTree t) document := by
  by_contra stale
  obtain ⟨p, covered, kept, named, waits | lost⟩ := holds.behind document stale
  · rw [idle p covered.plain] at waits
    cases waits
  · exact other p lost kept named

theorem awaits_of_scan {before : Indexer} (host : before.host = start.host)
    (patterns : before.excludePatterns = start.excludePatterns) (empty : before.index = .empty)
    (covered : ∀ p e, p.IsPlain → waiting p = some e → start.host.Covers p)
    (gone : ∀ p e, p.IsPlain → waiting p = some e → e.kind = .deleted → missed ≠ some p →
      t.content? p = none) :
    Awaits start t waiting missed (before.scan (.ofTree t)).1 := by
  have frame := before.scan_frame (.ofTree t)
  have emptySound : before.index.Sound := by
    rw [empty]
    exact Index.sound_empty
  obtain ⟨sound, found⟩ := Indexer.scan_contained (Disk.isContained_ofTree t) emptySound
  have finds : ∀ document, before.scanFinds (.ofTree t) document =
      start.scanFinds (.ofTree t) document := by
    intro document
    simp only [Indexer.scanFinds, Indexer.listed?, Indexer.targets_of_frame ⟨host, patterns⟩, host]
  refine ⟨frame.1.trans host, frame.2.trans patterns, sound, covered, fun document stale => ?_,
    gone⟩
  rw [found, empty, finds] at stale
  exact absurd rfl stale

/-- A change that tells of the missed path makes up for it. -/
theorem Awaits.change (holds : Awaits start t waiting missed i) (suits : start.Suits t)
    (suits' : start.Suits t') {es : List Event}
    (reported : FileChange.Reported start.host t t' es) :
    Awaits start t' (fun p => (latest es p).or (waiting p))
      (missed.filter fun p => (latest es p).isNone) i := by
  refine ⟨holds.host, holds.patterns, holds.sound, fun p e plain found => ?_,
    fun document stale => ?_, fun p e plain found deleted apart => ?_⟩
  · rcases Option.or_eq_some_iff.mp found with new | ⟨_, old⟩
    · obtain ⟨member, here⟩ := latest_eq_some new
      exact here ▸ reported.covered e member
    · exact holds.covered p e plain old
  · -- Either this change puts the document behind, and tells of it, or it was behind before.
    by_cases current : i.index.definitionsFor document = start.scanFinds (.ofTree t) document
    · have differs : start.scanFinds (.ofTree t) document ≠
          start.scanFinds (.ofTree t') document := current ▸ stale
      have tracked : ∃ p, start.host.Covers p ∧ start.isExcluded p = false ∧
          start.host.documentId p = document := by
        by_cases found : start.scanFinds (.ofTree t) document = []
        · exact suits'.covers_of_scanFinds (found ▸ differs.symm)
        · exact suits.covers_of_scanFinds found
      obtain ⟨p, covered, kept, rfl⟩ := tracked
      rw [suits.scanFinds covered kept, suits'.scanFinds covered kept] at differs
      have changed : t'.content? p ≠ t.content? p := fun same =>
        differs (Host.defined_congr covered.plain same.symm)
      refine ⟨p, covered, kept, rfl, .inl ?_⟩
      rw [Option.isSome_or, reported.told p covered changed, Bool.true_or]
    · obtain ⟨p, covered, kept, named, waits⟩ := holds.behind document current
      refine ⟨p, covered, kept, named, ?_⟩
      cases told : latest es p with
      | some e => exact .inl rfl
      | none => simpa [Option.filter_eq_some_iff, told] using waits
  · rcases Option.or_eq_some_iff.mp found with new | ⟨silent, old⟩
    · exact reported.gone p e new deleted
    · have noticed : missed ≠ some p := fun lost =>
        apart (Option.filter_eq_some_iff.mpr ⟨lost, by rw [silent]; rfl⟩)
      have absent := holds.gone p e plain old deleted noticed
      by_contra present
      have told := reported.told p (holds.covered p e plain old) (absent ▸ present)
      rw [silent] at told
      cases told

theorem Awaits.updated (holds : Awaits start t waiting missed i) (suits : start.Suits t) {e : Event}
    (covered : start.host.Covers e.path) (kept : start.isExcluded e.path = false)
    (last : waiting e.path = some e) (noticed : missed ≠ some e.path) :
    i.updated (.ofTree t) e = start.scanFinds (.ofTree t) (start.host.documentId e.path) := by
  rw [suits.scanFinds covered kept, Indexer.updated, holds.host]
  cases kind : e.kind with
  | deleted =>
    have absent := holds.gone e.path e covered.plain last kind noticed
    exact (Host.defined_of_absent covered.plain absent).symm
  | created => rfl
  | changed => rfl

theorem Awaits.apply (holds : Awaits start t waiting missed i) (suits : start.Suits t) {e : Event}
    (plain : e.path.IsPlain)
    (first : ∀ p, p.IsPlain → waiting p = (waiting' p).or (latest [e] p)) :
    Awaits start t waiting' missed (i.apply (.ofTree t) e).1 := by
  have frame := i.apply_frame (.ofTree t) e
  obtain ⟨sound, found⟩ := Indexer.apply_sound (.ofTree t) holds.sound e
  have excluded : i.isExcluded e.path = start.isExcluded e.path := by
    rw [Indexer.isExcluded_of_frame ⟨holds.host, holds.patterns⟩]
  rw [excluded, holds.host] at found
  have left : ∀ p e', p.IsPlain → waiting' p = some e' → waiting p = some e' := by
    intro p e' pathPlain waits
    rw [first p pathPlain, waits, Option.some_or]
  have here : waiting e.path = (waiting' e.path).or (some e) := by
    rw [first e.path plain, latest_singleton, if_pos rfl]
  refine ⟨frame.1.trans holds.host, frame.2.trans holds.patterns, sound,
    fun p e' pathPlain waits => holds.covered p e' pathPlain (left p e' pathPlain waits),
    fun document stale => ?_,
    fun p e' pathPlain waits => holds.gone p e' pathPlain (left p e' pathPlain waits)⟩
  rw [found] at stale
  split at stale
  · rename_i touched
    obtain ⟨free, rfl⟩ := touched
    obtain ⟨last, waits⟩ : ∃ last, waiting e.path = some last := by
      rw [here]
      cases waiting' e.path with
      | none => exact ⟨e, rfl⟩
      | some later => exact ⟨later, rfl⟩
    have covered := holds.covered e.path last plain waits
    refine ⟨e.path, covered, free, rfl, ?_⟩
    -- Only the last update of a path has to be true. One before it may leave the path behind.
    cases later : waiting' e.path with
    | some other => exact .inl rfl
    | none =>
      rw [later, Option.none_or] at here
      by_contra arrived
      exact stale (holds.updated suits covered free here fun lost => arrived (.inr lost))
  · rename_i untouched
    obtain ⟨p, covered, free, named, waits⟩ := holds.behind document stale
    refine ⟨p, covered, free, named, ?_⟩
    have apart : e.path ≠ p := by
      rintro rfl
      exact untouched ⟨free, named⟩
    rwa [first p covered.plain, latest_singleton, if_neg apart, Option.or_none] at waits

end KeyAtlas.Update
