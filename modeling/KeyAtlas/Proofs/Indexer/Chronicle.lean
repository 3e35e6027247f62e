import KeyAtlas.Proofs.Indexer.Notices
import Mathlib.Data.List.Dedup
import Mathlib.Data.List.Perm.Subperm

/-!
A chronicle lists what has been done to which documents. From it follow the state in which a document
is tracked and how far back its deletion lies, so it says what an indexer has to know of them. The
indexer itself keeps one state for each tracked document and a bounded list of deleted ones: a
document that is read again leaves that list, and one that is deleted again keeps its place in it.
-/

namespace KeyAtlas

/-- What is done to a document, and whether it could be read then. -/
inductive Handling where
  | scanned (readable : Bool)
  | created (readable : Bool)
  | changed (readable : Bool)
  | deleted
  deriving DecidableEq

/-- The state in which a document is tracked from then on, given the one before. -/
def Handling.leaves (before : Option DocumentState) : Handling → Option DocumentState
  | deleted => none
  | scanned false | created false | changed false => some .unindexed
  | scanned true | created true => some .indexed
  | changed true => some (if before.any DocumentState.isIndexed then .reindexed else .indexed)

theorem Handling.isSome_leaves_iff (how : Handling) (before : Option DocumentState) :
    (how.leaves before).isSome ↔ how ≠ .deleted := by
  cases how with
  | deleted => simp [leaves]
  | scanned readable => cases readable <;> simp [leaves]
  | created readable => cases readable <;> simp [leaves]
  | changed readable => cases readable <;> simp [leaves]

theorem Handling.leaves_ne_removed (how : Handling) (before : Option DocumentState) :
    how.leaves before ≠ some .removed := by
  cases how with
  | deleted => nofun
  | scanned readable => cases readable <;> nofun
  | created readable => cases readable <;> nofun
  | changed readable =>
    cases readable with
    | false => nofun
    | true =>
      rw [leaves]
      split <;> nofun

/-- What has been done to which documents, the latest first. -/
abbrev Chronicle :=
  List (String × Handling)

namespace Chronicle

def standing (document : String) : Chronicle → Option DocumentState
  | [] => none
  | (other, how) :: earlier =>
    if other = document then how.leaves (standing document earlier) else standing document earlier

/-- The documents that were tracked when they were deleted, in a chronicle that goes on from an earlier
one. -/
def departures (earlier : Chronicle) : Chronicle → List String
  | [] => []
  | (document, how) :: rest =>
    if how = .deleted ∧ (standing document (rest ++ earlier)).isSome then
      document :: departures earlier rest
    else departures earlier rest

theorem standing_ne_removed {document : String} {chronicle : Chronicle} :
    standing document chronicle ≠ some .removed := by
  induction chronicle with
  | nil => simp [standing]
  | cons first earlier ih =>
    obtain ⟨other, how⟩ := first
    rw [standing]
    split
    · exact how.leaves_ne_removed _
    · exact ih

/-- The document was tracked when it was deleted, and has at most been deleted again since. -/
structure Departs (document : String) (since before : Chronicle) : Prop where
  tracked : (standing document before).isSome
  again : ∀ how, (document, how) ∈ since → how = .deleted

/-- The other documents that were tracked when they were deleted since then, each of them once. -/
def othersSince (document : String) (since before : Chronicle) : List String :=
  ((departures ((document, .deleted) :: before) since).filter (· ≠ document)).dedup

theorem departs_cons_iff {document other : String} {how : Handling} {since before : Chronicle} :
    Departs document ((other, how) :: since) before ↔
      Departs document since before ∧ (other = document → how = .deleted) := by
  constructor
  · rintro ⟨tracked, again⟩
    exact ⟨⟨tracked, fun how member => again how (List.mem_cons_of_mem _ member)⟩,
      fun same => again how (by simp [same])⟩
  · rintro ⟨⟨tracked, again⟩, first⟩
    refine ⟨tracked, fun how member => ?_⟩
    rcases List.mem_cons.mp member with ⟨⟨⟩⟩ | later
    · exact first rfl
    · exact again how later

theorem standing_of_departs {document : String} {since before : Chronicle}
    (departs : Departs document since before) :
    standing document (since ++ (document, .deleted) :: before) = none := by
  induction since with
  | nil => simp [standing, Handling.leaves]
  | cons first rest ih =>
    obtain ⟨other, how⟩ := first
    obtain ⟨departs, first⟩ := departs_cons_iff.mp departs
    rw [List.cons_append, standing]
    split
    · rename_i same
      rw [first same]
      rfl
    · exact ih departs

theorem isSome_standing_iff {document : String} {chronicle : Chronicle} :
    (standing document chronicle).isSome ↔
      ∃ how, chronicle.lookup document = some how ∧ how ≠ .deleted := by
  induction chronicle with
  | nil => simp [standing]
  | cons first earlier ih =>
    obtain ⟨other, how⟩ := first
    rw [standing, List.lookup_cons]
    by_cases same : other = document
    · rw [if_pos same, same, beq_self_eq_true, how.isSome_leaves_iff]
      simp
    · have apart : (document == other) = false := by simpa using Ne.symm same
      rw [if_neg same, apart]
      exact ih

/-- The deleted documents that are remembered, by what a chronicle says. -/
structure Remembers (limit : Nat) (removed : List String) (chronicle : Chronicle) : Prop where
  once : removed.Nodup
  bounded : removed.length ≤ limit
  departed : ∀ document ∈ removed, ∃ since before,
    chronicle = since ++ (document, .deleted) :: before ∧ Departs document since before
  lasting : ∀ document since before, chronicle = since ++ (document, .deleted) :: before →
    Departs document since before → (othersSince document since before).length < limit →
    ∃ older newer, removed = older ++ document :: newer ∧
      ∀ other ∈ newer, other ∈ departures ((document, .deleted) :: before) since

variable {limit : Nat} {removed : List String} {chronicle : Chronicle} {document : String}

theorem remembers_nil (limit : Nat) : Remembers limit [] [] :=
  ⟨List.nodup_nil, Nat.zero_le _, nofun, fun _ _ _ split => by simp at split⟩

theorem cons_eq_split {other : String} {how : Handling} {since before : Chronicle}
    (split : (document, how) :: chronicle = since ++ (other, .deleted) :: before) :
    (since = [] ∧ document = other ∧ how = .deleted ∧ chronicle = before) ∨
      ∃ rest, since = (document, how) :: rest ∧ chronicle = rest ++ (other, .deleted) :: before := by
  rcases List.cons_eq_append_iff.mp split with ⟨empty, first⟩ | earlier
  · cases first
    exact .inl ⟨empty, rfl, rfl, rfl⟩
  · exact .inr earlier

theorem Remembers.read (remembers : Remembers limit removed chronicle) (document : String)
    {how : Handling} (isRead : how ≠ .deleted) :
    Remembers limit (removed.filter (· ≠ document)) ((document, how) :: chronicle) where
  once := remembers.once.filter _
  bounded := (List.length_filter_le _ _).trans remembers.bounded
  departed other member := by
    obtain ⟨present, apart⟩ := List.mem_filter.mp member
    obtain ⟨since, before, rfl, departs⟩ := remembers.departed other present
    refine ⟨(document, how) :: since, before, rfl, departs_cons_iff.mpr ⟨departs, ?_⟩⟩
    rintro rfl
    simp at apart
  lasting other since before split departs few := by
    rcases cons_eq_split split with ⟨_, _, deleted, _⟩ | ⟨since, rfl, whole⟩
    · exact absurd deleted isRead
    · obtain ⟨departs, first⟩ := departs_cons_iff.mp departs
      have apart : other ≠ document := fun same => isRead (first same.symm)
      have same : departures ((other, .deleted) :: before) ((document, how) :: since) =
          departures ((other, .deleted) :: before) since := by
        rw [departures, if_neg fun both => isRead both.1]
      rw [othersSince, same] at few
      obtain ⟨older, newer, rfl, later⟩ := remembers.lasting other since before whole departs few
      refine ⟨older.filter (· ≠ document), newer.filter (· ≠ document), ?_, ?_⟩
      · rw [List.filter_append, List.filter_cons_of_pos (by simpa using apart)]
      · intro x member
        rw [same]
        exact later x (List.mem_of_mem_filter member)

theorem Remembers.deletedAgain (remembers : Remembers limit removed chronicle)
    (untracked : standing document chronicle = none) :
    Remembers limit removed ((document, .deleted) :: chronicle) where
  once := remembers.once
  bounded := remembers.bounded
  departed other member := by
    obtain ⟨since, before, rfl, departs⟩ := remembers.departed other member
    exact ⟨(document, .deleted) :: since, before, rfl,
      departs_cons_iff.mpr ⟨departs, fun _ => rfl⟩⟩
  lasting other since before split departs few := by
    rcases cons_eq_split split with ⟨_, rfl, _, rfl⟩ | ⟨since, rfl, whole⟩
    · have tracked := departs.tracked
      rw [untracked] at tracked
      cases tracked
    · have same : departures ((other, .deleted) :: before) ((document, .deleted) :: since) =
          departures ((other, .deleted) :: before) since := by
        rw [departures, ← whole, if_neg fun both => by simp [untracked] at both]
      rw [othersSince, same] at few
      rw [same]
      exact remembers.lasting other since before whole (departs_cons_iff.mp departs).1 few

theorem length_dedup_le {names others : List String} (part : names ⊆ others) :
    names.dedup.length ≤ others.dedup.length := by
  have distinct : names.dedup.Nodup := List.nodup_dedup names
  refine (List.subperm_of_subset distinct fun x member => ?_).length_le
  exact List.mem_dedup.mpr (part (List.mem_dedup.mp member))

theorem remember_eq {other : String} {older newer : List String}
    (whole : removed.filter (· ≠ document) ++ [document] = older ++ other :: newer)
    (room : newer.length < limit) :
    ∃ older, Indexer.remember limit removed document = older ++ other :: newer := by
  refine ⟨older.drop ((older ++ other :: newer).length - limit), ?_⟩
  rw [Indexer.remember, whole, List.drop_append_of_le_length]
  rw [List.length_append, List.length_cons]
  omega

theorem nodup_behind (once : removed.Nodup) (document : String) :
    (removed.filter (· ≠ document) ++ [document]).Nodup := by
  refine List.nodup_append.mpr ⟨once.filter _, List.nodup_singleton _, ?_⟩
  rintro other member _ last rfl
  rw [List.mem_singleton.mp last] at member
  simp at member

/-- A document that was remembered stays so when another one is deleted, as long as there is room for
all that have been deleted since. -/
theorem Remembers.keeps (remembers : Remembers limit removed chronicle)
    (tracked : (standing document chronicle).isSome) {other : String} {since before : Chronicle}
    (split : chronicle = since ++ (other, .deleted) :: before) (departs : Departs other since before)
    (few : (othersSince other ((document, .deleted) :: since) before).length < limit) :
    ∃ older newer, Indexer.remember limit removed document = older ++ other :: newer ∧
      ∀ x ∈ newer,
        x ∈ departures ((other, .deleted) :: before) ((document, .deleted) :: since) := by
  have apart : other ≠ document := by
    rintro rfl
    rw [split, standing_of_departs departs] at tracked
    cases tracked
  have more : departures ((other, .deleted) :: before) ((document, .deleted) :: since) =
      document :: departures ((other, .deleted) :: before) since := by
    rw [departures, ← split, if_pos ⟨rfl, tracked⟩]
  have fewer : (othersSince other since before).length < limit := by
    refine Nat.lt_of_le_of_lt (length_dedup_le fun x member => ?_) few
    obtain ⟨present, differs⟩ := List.mem_filter.mp member
    exact List.mem_filter.mpr ⟨more ▸ List.mem_cons_of_mem document present, differs⟩
  obtain ⟨older, newer, rfl, later⟩ := remembers.lasting other since before split departs fewer
  have whole : (older ++ other :: newer).filter (· ≠ document) ++ [document] =
      older.filter (· ≠ document) ++ other :: (newer.filter (· ≠ document) ++ [document]) := by
    rw [List.filter_append, List.filter_cons_of_pos (by simpa using apart), List.append_assoc,
      List.cons_append]
  have gone : ∀ x ∈ newer.filter (· ≠ document) ++ [document],
      x ∈ departures ((other, .deleted) :: before) ((document, .deleted) :: since) := by
    intro x member
    rw [more]
    rcases List.mem_append.mp member with earlier | last
    · exact List.mem_cons_of_mem document (later x (List.mem_of_mem_filter earlier))
    · exact List.mem_singleton.mp last ▸ List.mem_cons_self
  -- All that stands behind it are other documents that have been deleted since.
  have room : (newer.filter (· ≠ document) ++ [document]).length < limit := by
    have once := nodup_behind remembers.once document
    rw [whole] at once
    obtain ⟨_, behind, _⟩ := List.nodup_append.mp once
    obtain ⟨fresh, distinct⟩ := List.nodup_cons.mp behind
    rw [← distinct.dedup]
    refine Nat.lt_of_le_of_lt (length_dedup_le fun x member => ?_) few
    have differs : x ≠ other := fun same => fresh (same ▸ member)
    exact List.mem_filter.mpr ⟨gone x member, by simpa using differs⟩
  obtain ⟨older, kept⟩ := remember_eq whole room
  exact ⟨older, _, kept, gone⟩

/-- A tracked document that is deleted is remembered behind all others, and the oldest ones are
forgotten beyond the limit. -/
theorem Remembers.remember (remembers : Remembers limit removed chronicle)
    (tracked : (standing document chronicle).isSome) :
    Remembers limit (Indexer.remember limit removed document)
      ((document, .deleted) :: chronicle) where
  once := (nodup_behind remembers.once document).sublist (List.drop_sublist _ _)
  bounded := by
    rw [Indexer.remember, List.length_drop]
    omega
  departed other member := by
    rcases List.mem_append.mp (List.mem_of_mem_drop member) with earlier | last
    · obtain ⟨since, before, rfl, departs⟩ :=
        remembers.departed other (List.mem_of_mem_filter earlier)
      exact ⟨(document, .deleted) :: since, before, rfl,
        departs_cons_iff.mpr ⟨departs, fun _ => rfl⟩⟩
    · rw [List.mem_singleton.mp last]
      exact ⟨[], chronicle, rfl, tracked, nofun⟩
  lasting other since before split departs few := by
    rcases cons_eq_split split with ⟨rfl, rfl, _, rfl⟩ | ⟨since, rfl, whole⟩
    · have last : removed.filter (· ≠ document) ++ [document] =
          removed.filter (· ≠ document) ++ document :: [] := rfl
      obtain ⟨older, kept⟩ := remember_eq last (Nat.zero_lt_of_lt few)
      exact ⟨older, [], kept, nofun⟩
    · exact remembers.keeps tracked whole (departs_cons_iff.mp departs).1 few

end Chronicle

end KeyAtlas
