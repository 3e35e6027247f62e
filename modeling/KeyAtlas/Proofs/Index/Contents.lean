import KeyAtlas.Proofs.Index.Scan
import Mathlib.Data.List.Nodup

/-!
What an index holds, document by document. A sound index represents some list of definitions. What
its documents define fixes everything else that can be observed of it up to the order of documents:
how many definitions and how many suffixes it holds.
-/

namespace KeyAtlas.Index

variable {δ : Type}

variable [Defines δ]

theorem addAll_append (i : Index δ) (ds es : List δ) :
    i.addAll (ds ++ es) = (i.addAll ds).addAll es :=
  List.foldl_append

/-- The index represents some list of definitions. -/
def Sound (i : Index δ) : Prop :=
  ∃ live, i.Represents live

theorem sound_empty : (empty : Index δ).Sound :=
  ⟨[], represents_empty⟩

variable {i j : Index δ}

theorem Sound.addAll (sound : i.Sound) (ds : List δ) : (i.addAll ds).Sound := by
  obtain ⟨live, holds⟩ := sound
  exact ⟨_, holds.addAll ds⟩

theorem Sound.removeDocument (sound : i.Sound) (document : String) :
    (i.removeDocument document).Sound := by
  obtain ⟨live, holds⟩ := sound
  exact ⟨_, holds.removeDocument document⟩

theorem Sound.definitionsFor_addAll (sound : i.Sound) (ds : List δ) (document : String) :
    (i.addAll ds).definitionsFor document =
      i.definitionsFor document ++ ds.filter fun d => documentOf d == document := by
  obtain ⟨live, holds⟩ := sound
  rw [(holds.addAll ds).definitionsFor, List.filter_append, holds.definitionsFor]

theorem Sound.definitionsFor_removeDocument (sound : i.Sound) (document other : String) :
    (i.removeDocument document).definitionsFor other =
      if other = document then [] else i.definitionsFor other := by
  obtain ⟨live, holds⟩ := sound
  rw [(holds.removeDocument document).definitionsFor, holds.definitionsFor, List.filter_filter]
  split
  · rename_i same
    subst same
    refine List.filter_eq_nil_iff.mpr fun d _ => ?_
    simp
  · rename_i apart
    refine List.filter_congr fun d _ => ?_
    by_cases owned : documentOf d = other <;> simp [owned, apart]

theorem Sound.definitionsFor_eq_nil (sound : i.Sound) (zero : i.size = 0) (document : String) :
    i.definitionsFor document = [] := by
  obtain ⟨live, holds⟩ := sound
  rw [holds.size] at zero
  rw [holds.definitionsFor, List.length_eq_zero_iff.mp zero, List.filter_nil]

theorem Represents.mem_definitionsFor {live : List δ} (holds : i.Represents live) (d : δ) :
    d ∈ i.definitionsFor (documentOf d) ↔ d ∈ live := by
  rw [holds.definitionsFor, List.mem_filter, beq_self_eq_true, and_iff_left rfl]

theorem perm_of_owned {left right : List δ}
    (same : ∀ document, left.filter (fun d => documentOf d == document) =
      right.filter fun d => documentOf d == document) : left.Perm right := by
  have documents : ((left.map documentOf).eraseDups).Perm ((right.map documentOf).eraseDups) := by
    refine (List.perm_ext_iff_of_nodup (nodup_eraseDups _) (nodup_eraseDups _)).mpr fun document => ?_
    rw [List.mem_eraseDups, List.mem_eraseDups, mem_documents_iff, mem_documents_iff, same]
  have cut : ∀ ds : List δ, ((ds.map documentOf).eraseDups.flatMap fun document =>
      ds.filter fun d => documentOf d == document).Perm ds := fun ds =>
    perm_flatMap_owned (nodup_eraseDups _) ds fun d member =>
      List.mem_eraseDups.mpr (List.mem_map_of_mem member)
  refine (cut left).symm.trans (.trans ?_ (cut right))
  simp only [same]
  exact documents.flatMap_right _

theorem Sound.size_congr (soundLeft : i.Sound) (soundRight : j.Sound)
    (same : ∀ document, i.definitionsFor document = j.definitionsFor document) :
    i.size = j.size := by
  obtain ⟨left, holdsLeft⟩ := soundLeft
  obtain ⟨right, holdsRight⟩ := soundRight
  rw [holdsLeft.size, holdsRight.size]
  refine (perm_of_owned fun document => ?_).length_eq
  rw [← holdsLeft.definitionsFor, ← holdsRight.definitionsFor, same]

theorem Represents.mem_suffixes {live : List δ} (holds : i.Represents live) (suffix : List String) :
    suffix ∈ i.bySuffix.keys ↔ ∃ d ∈ live, suffix ∈ suffixes (pathOf d) := by
  rw [holds.tidy, holds.bySuffix, Ne, grouped_eq_nil_iff, sharing, List.filter_eq_nil_iff]
  push Not
  simp only [List.contains_iff_mem]

theorem Sound.suffixCount_congr (soundLeft : i.Sound) (soundRight : j.Sound)
    (same : ∀ document, i.definitionsFor document = j.definitionsFor document) :
    i.suffixCount = j.suffixCount := by
  obtain ⟨left, holdsLeft⟩ := soundLeft
  obtain ⟨right, holdsRight⟩ := soundRight
  have perm : i.bySuffix.keys.Perm j.bySuffix.keys := by
    refine (List.perm_ext_iff_of_nodup i.bySuffix.keys_nodup j.bySuffix.keys_nodup).mpr ?_
    intro suffix
    rw [← OrderedMap.keys, ← OrderedMap.keys, holdsLeft.mem_suffixes, holdsRight.mem_suffixes]
    simp only [← holdsLeft.mem_definitionsFor, ← holdsRight.mem_definitionsFor, same]
  simpa [suffixCount, OrderedMap.size, OrderedMap.keys] using perm.length_eq

/-- No document defines anything twice. -/
def Once (i : Index δ) : Prop :=
  ∀ document, (i.definitionsFor document).Nodup

variable {live : List δ}

theorem Represents.nodup_live (holds : i.Represents live) (once : i.Once) : live.Nodup := by
  classical
  refine List.nodup_iff_count_le_one.mpr fun d => ?_
  have owned := List.nodup_iff_count_le_one.mp (once (documentOf d)) d
  rwa [holds.definitionsFor, List.count_filter (by simp)] at owned

theorem Sound.nodup_held (sound : i.Sound) (once : i.Once) :
    (i.documents.flatMap i.definitionsFor).Nodup := by
  obtain ⟨live, holds⟩ := sound
  have perm : (i.documents.flatMap i.definitionsFor).Perm live := by
    rw [holds.documents, funext holds.definitionsFor]
    refine perm_flatMap_owned (nodup_eraseDups _) live fun d member => ?_
    exact List.mem_eraseDups.mpr (List.mem_map_of_mem member)
  exact perm.nodup_iff.mpr (holds.nodup_live once)

theorem nodup_scanAt {live : List Definition} (once : live.Nodup) (path : List String)
    (level : Nat) : (scanAt live path level).Nodup := by
  rw [scanAt, ← List.map_flatMap]
  refine List.Nodup.map (fun d other same => congrArg Match.definition same) ?_
  rw [List.flatMap_def]
  exact (perm_flatten_grouped _).nodup_iff.mpr (once.filter _)

theorem mem_scanAt {live : List Definition} {path : List String} {level : Nat} {m : Match}
    (member : m ∈ scanAt live path level) : m.definition ∈ live ∧ m.level = level := by
  rw [scanAt, ← List.map_flatMap, List.mem_map, List.flatMap_def] at member
  obtain ⟨d, found, rfl⟩ := member
  exact ⟨List.mem_of_mem_filter ((perm_flatten_grouped _).mem_iff.mp found), rfl⟩

theorem Sound.nodup_query {i : Index Definition} (sound : i.Sound) (once : i.Once)
    (path : List String) : (i.query path).Nodup := by
  obtain ⟨live, holds⟩ := sound
  rw [holds.query, scan]
  refine List.nodup_flatMap.mpr
    ⟨fun level _ => nodup_scanAt (holds.nodup_live once) path level, ?_⟩
  have levels : (List.range' 1 path.length).reverse.Nodup :=
    List.nodup_reverse.mpr List.nodup_range'
  refine levels.imp fun apart m here there => apart ?_
  exact Int.ofNat_inj.mp ((mem_scanAt here).2.symm.trans (mem_scanAt there).2)

theorem Sound.mem_query {i : Index Definition} (sound : i.Sound) {path : List String} {m : Match}
    (member : m ∈ i.query path) : m.definition ∈ i.definitionsFor m.definition.document := by
  obtain ⟨live, holds⟩ := sound
  rw [holds.query, scan, List.mem_flatMap] at member
  obtain ⟨level, _, found⟩ := member
  exact (holds.mem_definitionsFor m.definition).mpr (mem_scanAt found).1

end KeyAtlas.Index
