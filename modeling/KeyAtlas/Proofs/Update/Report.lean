import KeyAtlas.Proofs.FileTree.Alter
import KeyAtlas.Proofs.Indexer.Targets
import KeyAtlas.Proofs.Update.Latest
import KeyAtlas.Update.Watcher

namespace KeyAtlas

open Update

theorem Indexer.Suits.alter {i : Indexer} {t t' : FileTree} (suits : i.Suits t)
    {contents : List String → Option (List UInt8)} (altered : t.Alters t' contents) :
    i.Suits t' := by
  refine ⟨suits.lexical, suits.shared, suits.trailing, altered.proper suits.proper, ?_⟩
  intro root present
  exact altered.leadsToDirectory (suits.lexical.roots root present).names (suits.rooted root present)

inductive FileChange where
  | write (path : String) (content : List UInt8)
  | delete (path : String)
  | rename (path target : String)

namespace FileChange

def result? (cwd : Path) (t : FileTree) : FileChange → Option FileTree
  | .write path content => (t.writeBelow (cwd.absolute (.ofString path)) content).toOption
  | .delete path => (t.unlink (cwd.absolute (.ofString path)) false).toOption
  | .rename path target =>
    match t.content? (cwd.absolute (.ofString path)),
      t.unlink (cwd.absolute (.ofString path)) false with
    | some content, .ok freed =>
      (freed.writeBelow (cwd.absolute (.ofString target)) content).toOption
    | _, _ => none

def report (roots : List Path) (change : Change) (p : Path) : List FileEvent :=
  if roots.any p.isWithin then [⟨change, false, p.toString⟩] else []

/-- The events for a move. To or from a path under no watched root it is seen as a creation or a
deletion. -/
def reportMove (roots : List Path) (p target : Path) : List FileEvent :=
  if roots.any p.isWithin && roots.any target.isWithin then
    [⟨.moved (some target.toString), false, p.toString⟩]
  else report roots .deleted p ++ report roots .created target

/-- The roots that an absolute path can start with. The same file stands below both. -/
def absoluteRoots : List Path.Root :=
  [.slash, .doubleSlash]

def reports (roots : List Path) (cwd : Path) (t : FileTree) : FileChange → List FileEvent
  | .write path _ =>
    let p := cwd.absolute (.ofString path)
    absoluteRoots.flatMap fun root =>
      report roots (if (t.content? p).isSome then .modified else .created) ⟨root, p.parts⟩
  | .delete path =>
    absoluteRoots.flatMap fun root =>
      report roots .deleted ⟨root, (cwd.absolute (.ofString path)).parts⟩
  | .rename path target =>
    absoluteRoots.flatMap fun root =>
      reportMove roots ⟨root, (cwd.absolute (.ofString path)).parts⟩
        ⟨root, (cwd.absolute (.ofString target)).parts⟩

end FileChange

namespace Host

def told (h : Host) (kind : Kind) (p : Path) : List Event :=
  if h.roots.any p.isWithin && nameIncluded p.name h.includePatterns then [⟨kind, p⟩] else []

variable {h : Host}

theorem mem_told {kind : Kind} {p : Path} {e : Event} :
    e ∈ h.told kind p ↔ h.roots.any p.isWithin = true ∧
      nameIncluded p.name h.includePatterns = true ∧ e = ⟨kind, p⟩ := by
  rw [told]
  split
  · rename_i both
    rw [Bool.and_eq_true] at both
    rw [List.mem_singleton]
    exact ⟨fun same => ⟨both.1, both.2, same⟩, fun facts => facts.2.2⟩
  · rename_i notBoth
    rw [Bool.and_eq_true] at notBoth
    exact ⟨nofun, fun facts => (notBoth ⟨facts.1, facts.2.1⟩).elim⟩

theorem covers_of_mem_told {kind : Kind} {p : Path} (plain : p.IsPlain) {e : Event}
    (member : e ∈ h.told kind p) : e = ⟨kind, p⟩ ∧ h.Covers p := by
  obtain ⟨within, included, same⟩ := mem_told.mp member
  exact ⟨same, plain, List.any_eq_true.mp within, included⟩

theorem Covers.mem_told {p : Path} (covered : h.Covers p) (kind : Kind) :
    ⟨kind, p⟩ ∈ h.told kind p :=
  Host.mem_told.mpr ⟨List.any_eq_true.mpr covered.below, covered.included, rfl⟩

theorem updates_report {p : Path} (plain : p.IsPlain) {change : Change} {kind : Kind}
    (means : ∀ source, FileEvent.updates ⟨change, false, source⟩ h.includePatterns =
      updateIfIncluded h.includePatterns kind source) :
    (FileChange.report h.roots change p).flatMap (·.updates h.includePatterns) =
      h.told kind p := by
  rw [FileChange.report, told]
  cases h.roots.any p.isWithin with
  | false => rfl
  | true =>
    rw [if_pos rfl, List.flatMap_singleton, means, updateIfIncluded, plain.ofString_toString]
    rfl

theorem updates_reportMove {p target : Path} (plain : p.IsPlain) (targetPlain : target.IsPlain) :
    (FileChange.reportMove h.roots p target).flatMap (·.updates h.includePatterns) =
      h.told .deleted p ++ h.told .created target := by
  rw [FileChange.reportMove]
  split
  · rename_i both
    rw [Bool.and_eq_true] at both
    rw [List.flatMap_singleton, FileEvent.updates]
    simp only [Bool.false_eq_true, if_false, Option.toList_some, List.flatMap_singleton,
      updateIfIncluded, plain.ofString_toString, targetPlain.ofString_toString, told, both.1,
      both.2, Bool.true_and]
  · rw [List.flatMap_append, updates_report plain fun _ => rfl,
      updates_report targetPlain fun _ => rfl]

end Host

namespace FileChange

variable {h : Host} {t t' : FileTree}

def updates (h : Host) (t : FileTree) (change : FileChange) : List Event :=
  (change.reports h.roots h.cwd t).flatMap (·.updates h.includePatterns)

theorem isPlain_of_parts {p : Path} (plain : p.IsPlain) {root : Path.Root}
    (seen : root ∈ absoluteRoots) : Path.IsPlain ⟨root, p.parts⟩ := by
  refine ⟨?_, plain.names⟩
  intro same
  subst same
  simp [absoluteRoots] at seen

theorem mem_absoluteRoots {p : Path} (plain : p.IsPlain) : p.root ∈ absoluteRoots := by
  have absolute := plain.absolute
  cases same : p.root with
  | relative => exact absurd same absolute
  | slash => simp [absoluteRoots]
  | doubleSlash => simp [absoluteRoots]

theorem updates_write (lexical : h.IsLexical) (path : String) (content : List UInt8) :
    (write path content).updates h t = absoluteRoots.flatMap fun root =>
      h.told (if (t.content? (h.cwd.absolute (.ofString path))).isSome then .changed else .created)
        ⟨root, (h.cwd.absolute (.ofString path)).parts⟩ := by
  rw [updates, reports, List.flatMap_assoc]
  refine List.flatMap_congr fun root seen => ?_
  have plain := isPlain_of_parts (lexical.absolute_isPlain path) seen
  split
  · exact Host.updates_report plain fun _ => rfl
  · exact Host.updates_report plain fun _ => rfl

theorem updates_delete (lexical : h.IsLexical) (path : String) :
    (delete path).updates h t = absoluteRoots.flatMap fun root =>
      h.told .deleted ⟨root, (h.cwd.absolute (.ofString path)).parts⟩ := by
  rw [updates, reports, List.flatMap_assoc]
  refine List.flatMap_congr fun root seen => ?_
  exact Host.updates_report (isPlain_of_parts (lexical.absolute_isPlain path) seen) fun _ => rfl

theorem updates_rename (lexical : h.IsLexical) (path target : String) :
    (rename path target).updates h t = absoluteRoots.flatMap fun root =>
      h.told .deleted ⟨root, (h.cwd.absolute (.ofString path)).parts⟩ ++
        h.told .created ⟨root, (h.cwd.absolute (.ofString target)).parts⟩ := by
  rw [updates, reports, List.flatMap_assoc]
  refine List.flatMap_congr fun root seen => ?_
  exact Host.updates_reportMove (isPlain_of_parts (lexical.absolute_isPlain path) seen)
    (isPlain_of_parts (lexical.absolute_isPlain target) seen)

/-- The updates tell of everything that a change of the tree does to covered paths. -/
structure Reported (h : Host) (t t' : FileTree) (es : List Event) : Prop where
  covered : ∀ e ∈ es, h.Covers e.path
  told : ∀ p, h.Covers p → t'.content? p ≠ t.content? p → (latest es p).isSome
  gone : ∀ p e, latest es p = some e → e.kind = .deleted → t'.content? p = none

theorem told_of_parts {es : List Event} {p place : Path} {kind : Kind} (covered : h.Covers p)
    (same : p.parts = place.parts)
    (among : ∀ root ∈ absoluteRoots, ∀ e ∈ h.told kind ⟨root, place.parts⟩, e ∈ es) :
    (latest es p).isSome := by
  have here : (⟨p.root, place.parts⟩ : Path) = p := by rw [← same]
  have member := among p.root (mem_absoluteRoots covered.plain) ⟨kind, p⟩
    (by rw [here]; exact covered.mem_told kind)
  exact isSome_latest member

theorem reported_told {place : Path} (plain : place.IsPlain) {content : Option (List UInt8)}
    (altered : t.Alters t' (Function.update t.top.content? place.parts content)) {kind : Kind}
    (absent : kind = .deleted → content = none) :
    Reported h t t' (absoluteRoots.flatMap fun root => h.told kind ⟨root, place.parts⟩) := by
  refine ⟨fun e member => ?_, fun p covered changed => ?_, fun p e found deleted => ?_⟩
  · obtain ⟨root, seen, member⟩ := List.mem_flatMap.mp member
    obtain ⟨rfl, covered⟩ := Host.covers_of_mem_told (isPlain_of_parts plain seen) member
    exact covered
  · have same : p.parts = place.parts := by
      by_contra apart
      exact changed ((altered.content p.parts).trans (Function.update_of_ne apart _ _))
    exact told_of_parts covered same fun root seen e member =>
      List.mem_flatMap.mpr ⟨root, seen, member⟩
  · obtain ⟨member, here⟩ := latest_eq_some found
    obtain ⟨root, seen, member⟩ := List.mem_flatMap.mp member
    obtain ⟨rfl, _⟩ := Host.covers_of_mem_told (isPlain_of_parts plain seen) member
    rw [← here, FileTree.content?, altered.content, Function.update_self, absent deleted]

theorem latest_flatMap {α : Type} {l : List α} {f : α → List Event} {p : Path} {good : Event → Prop}
    (each : ∀ x ∈ l, ∀ e, latest (f x) p = some e → good e) {e : Event}
    (found : latest (l.flatMap f) p = some e) : good e := by
  induction l with
  | nil => cases found
  | cons x rest ih =>
    obtain ⟨first, later⟩ := List.forall_mem_cons.mp each
    rw [List.flatMap_cons, latest_append, Option.or_eq_some_iff] at found
    rcases found with last | ⟨_, before⟩
    · exact ih later last
    · exact first e before

/-- The deletion of a path that is created again is never the last update of it. -/
theorem latest_recreated {q p : Path} {e : Event}
    (found : latest (h.told .deleted q ++ h.told .created q) p = some e) : e.kind ≠ .deleted := by
  rw [Host.told, Host.told] at found
  split at found
  · rw [latest_append, latest_singleton, latest_singleton] at found
    dsimp only at found
    split at found
    · cases found
      exact nofun
    · cases found
  · cases found

theorem reported_rename {source target : Path} (plain : source.IsPlain)
    (targetPlain : target.IsPlain) {content : List UInt8}
    (altered : t.Alters t' (Function.update
      (Function.update t.top.content? source.parts none) target.parts (some content))) :
    Reported h t t' (absoluteRoots.flatMap fun root =>
      h.told .deleted ⟨root, source.parts⟩ ++ h.told .created ⟨root, target.parts⟩) := by
  have cases : ∀ e ∈ absoluteRoots.flatMap fun root =>
      h.told .deleted ⟨root, source.parts⟩ ++ h.told .created ⟨root, target.parts⟩,
      h.Covers e.path ∧ (e.kind = .deleted → e.path.parts = source.parts) := by
    intro e member
    obtain ⟨root, seen, member⟩ := List.mem_flatMap.mp member
    rcases List.mem_append.mp member with member | member
    · obtain ⟨rfl, covered⟩ := Host.covers_of_mem_told (isPlain_of_parts plain seen) member
      exact ⟨covered, fun _ => rfl⟩
    · obtain ⟨rfl, covered⟩ := Host.covers_of_mem_told (isPlain_of_parts targetPlain seen) member
      exact ⟨covered, nofun⟩
  refine ⟨fun e member => (cases e member).1, fun p covered changed => ?_,
    fun p e found deleted => ?_⟩
  · by_cases there : p.parts = target.parts
    · exact told_of_parts covered there fun root seen e member =>
        List.mem_flatMap.mpr ⟨root, seen, List.mem_append_right _ member⟩
    · have here : p.parts = source.parts := by
        by_contra apart
        refine changed ((altered.content p.parts).trans ?_)
        rw [Function.update_of_ne there, Function.update_of_ne apart]
        rfl
      exact told_of_parts covered here fun root seen e member =>
        List.mem_flatMap.mpr ⟨root, seen, List.mem_append_left _ member⟩
  · by_cases same : source.parts = target.parts
    · rw [same] at found
      exact (latest_flatMap (fun root _ e found => latest_recreated found) found deleted).elim
    · obtain ⟨member, path⟩ := latest_eq_some found
      have place := (cases e member).2 deleted
      rw [path] at place
      rw [FileTree.content?, altered.content, place, Function.update_of_ne same,
        Function.update_self]

theorem eq_ok_of_toOption {result : Except FileError FileTree}
    (done : result.toOption = some t') : result = .ok t' := by
  cases result <;> cases done
  rfl

theorem reported (lexical : h.IsLexical) (proper : t.isProper = true) {change : FileChange}
    (done : change.result? h.cwd t = some t') :
    (∃ contents, t.Alters t' contents) ∧ Reported h t t' (change.updates h t) := by
  cases change with
  | write path content =>
    have plain := lexical.absolute_isPlain path
    have written := eq_ok_of_toOption done
    have altered := FileTree.alters_of_writeBelow plain written
    rw [updates_write lexical]
    refine ⟨⟨_, altered⟩, reported_told plain altered ?_⟩
    split <;> exact nofun
  | delete path =>
    have plain := lexical.absolute_isPlain path
    have unlinked := eq_ok_of_toOption done
    have altered := FileTree.alters_of_unlink plain proper unlinked
    rw [updates_delete lexical]
    exact ⟨⟨_, altered⟩, reported_told plain altered fun _ => rfl⟩
  | rename path target =>
    have plain := lexical.absolute_isPlain path
    have targetPlain := lexical.absolute_isPlain target
    rw [result?] at done
    split at done
    · rename_i content freed _ unlinked
      have written := eq_ok_of_toOption done
      have first := FileTree.alters_of_unlink plain proper unlinked
      have second := FileTree.alters_of_writeBelow targetPlain written
      rw [funext first.content] at second
      rw [updates_rename lexical]
      exact ⟨⟨_, first.trans second⟩, reported_rename plain targetPlain (first.trans second)⟩
    · cases done

end FileChange

end KeyAtlas
