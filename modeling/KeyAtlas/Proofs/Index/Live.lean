import KeyAtlas.Proofs.Index.Grouping

/-!
The index as an account of a plain list. `Represents` says that the index holds exactly the
definitions of a list of live ones: by document in the map of documents, and by suffix and document
in the map of suffixes. Each operation of the index keeps that in step with what it does to the
list.
-/

namespace KeyAtlas

theorem mem_suffixes {path suffix : List String} :
    suffix ∈ suffixes path ↔ suffix ≠ [] ∧ suffix <:+ path := by
  induction path with
  | nil => simp [suffixes, List.suffix_nil]
  | cons component rest ih =>
    rw [suffixes, List.mem_append, ih, List.mem_singleton, List.suffix_cons_iff]
    constructor
    · intro either
      rcases either with ⟨nonempty, later⟩ | rfl
      · exact ⟨nonempty, .inr later⟩
      · exact ⟨List.cons_ne_nil _ _, .inl rfl⟩
    · intro facts
      obtain ⟨nonempty, whole | later⟩ := facts
      · exact .inr whole
      · exact .inl ⟨nonempty, later⟩

theorem nodup_suffixes (path : List String) : (suffixes path).Nodup := by
  induction path with
  | nil => exact List.nodup_nil
  | cons component rest ih =>
    rw [suffixes, List.nodup_append]
    refine ⟨ih, by simp, fun suffix short whole last same => ?_⟩
    have bound := (mem_suffixes.mp short).2.length_le
    rw [same, List.mem_singleton.mp last, List.length_cons] at bound
    omega

namespace Index

variable {δ : Type}

theorem bucket_putBucket (i : Index δ) (suffix other : List String) (b : Bucket δ) :
    (i.putBucket suffix b).bucket other = if other = suffix then b else i.bucket other := by
  rw [putBucket]
  split
  · rename_i isEmpty
    by_cases same : other = suffix
    · simp [bucket, OrderedMap.get?_erase, same, OrderedMap.eq_empty_of_isEmpty isEmpty]
    · simp [bucket, OrderedMap.get?_erase, same]
  · by_cases same : other = suffix <;> simp [bucket, OrderedMap.get?_insert, same]

@[simp] theorem byDocument_putBucket (i : Index δ) (suffix : List String) (b : Bucket δ) :
    (i.putBucket suffix b).byDocument = i.byDocument := by
  rw [putBucket]
  split <;> rfl

/-- No bucket is kept without a definition in it. -/
def Tidy (i : Index δ) : Prop :=
  ∀ suffix, suffix ∈ i.bySuffix.keys ↔ (i.bucket suffix).entries ≠ []

theorem tidy_empty : (empty : Index δ).Tidy := by
  intro suffix
  simp [empty, bucket, OrderedMap.keys, OrderedMap.empty, OrderedMap.get?]

theorem Tidy.putBucket {i : Index δ} (tidy : i.Tidy) (suffix : List String) (b : Bucket δ) :
    (i.putBucket suffix b).Tidy := by
  intro other
  rw [bucket_putBucket, Index.putBucket]
  split
  · rename_i isEmpty
    rw [OrderedMap.mem_keys_erase, tidy other]
    by_cases same : other = suffix
    · simp [same, List.isEmpty_iff.mp isEmpty]
    · simp [same]
  · rename_i nonempty
    rw [OrderedMap.mem_keys_insert, tidy other]
    by_cases same : other = suffix
    · simpa [same] using fun isEmpty => nonempty (List.isEmpty_iff.mpr isEmpty)
    · simp [same]

theorem Tidy.withDocuments {i : Index δ} (tidy : i.Tidy) (m : OrderedMap String (List δ)) :
    ({ i with byDocument := m } : Index δ).Tidy :=
  tidy

variable (document : String) (ss : List (List String))

theorem byDocument_register (d : δ) (i : Index δ) :
    (ss.foldl (register document d) i).byDocument = i.byDocument := by
  induction ss generalizing i with
  | nil => rfl
  | cons suffix rest ih => rw [List.foldl_cons, ih, register, byDocument_putBucket]

theorem byDocument_unregister (i : Index δ) :
    (ss.foldl (unregister document) i).byDocument = i.byDocument := by
  induction ss generalizing i with
  | nil => rfl
  | cons suffix rest ih => rw [List.foldl_cons, ih, unregister, byDocument_putBucket]

theorem Tidy.register {i : Index δ} (tidy : i.Tidy) (d : δ) :
    (ss.foldl (Index.register document d) i).Tidy := by
  induction ss generalizing i with
  | nil => exact tidy
  | cons suffix rest ih => exact ih (tidy.putBucket _ _)

theorem Tidy.unregister {i : Index δ} (tidy : i.Tidy) :
    (ss.foldl (Index.unregister document) i).Tidy := by
  induction ss generalizing i with
  | nil => exact tidy
  | cons suffix rest ih => exact ih (tidy.putBucket _ _)

/-- Each suffix must be visited once, since every visit appends. -/
theorem bucket_register (d : δ) (i : Index δ) (distinct : ss.Nodup) (suffix : List String) :
    (ss.foldl (register document d) i).bucket suffix =
      if suffix ∈ ss then append (i.bucket suffix) document d else i.bucket suffix := by
  induction ss generalizing i with
  | nil => simp
  | cons first rest ih =>
    rw [List.nodup_cons] at distinct
    rw [List.foldl_cons, ih _ distinct.2, register, bucket_putBucket]
    by_cases same : suffix = first
    · subst same
      simp [distinct.1]
    · simp [same]

theorem bucket_unregister (i : Index δ) (suffix : List String) :
    (ss.foldl (unregister document) i).bucket suffix =
      if suffix ∈ ss then (i.bucket suffix).erase document else i.bucket suffix := by
  induction ss generalizing i with
  | nil => simp
  | cons first rest ih =>
    rw [List.foldl_cons, ih, unregister, bucket_putBucket]
    by_cases same : suffix = first
    · subst same
      simp
    · simp [same]

variable [Defines δ]

def sharing (suffix : List String) (ds : List δ) : List δ :=
  ds.filter fun d => (suffixes (pathOf d)).contains suffix

structure Represents (i : Index δ) (live : List δ) : Prop where
  byDocument : i.byDocument.entries = grouped live
  bySuffix : ∀ suffix, (i.bucket suffix).entries = grouped (sharing suffix live)
  tidy : i.Tidy

theorem represents_empty : (empty : Index δ).Represents [] :=
  ⟨rfl, fun _ => rfl, tidy_empty⟩

variable {i : Index δ} {live : List δ}

theorem Represents.add (holds : i.Represents live) (d : δ) :
    (i.add d).Represents (live ++ [d]) where
  byDocument := by
    rw [Index.add, byDocument_register]
    exact append_grouped holds.byDocument d
  bySuffix suffix := by
    rw [Index.add, bucket_register _ _ _ _ (nodup_suffixes _)]
    have bucket : ({ i with byDocument := append i.byDocument (documentOf d) d } : Index δ).bucket
        suffix = i.bucket suffix := rfl
    rw [bucket, sharing, List.filter_append]
    by_cases shared : suffix ∈ suffixes (pathOf d)
    · have one : [d].filter (fun d => (suffixes (pathOf d)).contains suffix) = [d] := by
        simp [shared]
      rw [if_pos shared, one]
      exact append_grouped (holds.bySuffix suffix) d
    · have apart : [d].filter (fun d => (suffixes (pathOf d)).contains suffix) = [] := by
        simp [shared]
      rw [if_neg shared, apart, List.append_nil]
      exact holds.bySuffix suffix
  tidy := (holds.tidy.withDocuments _).register _ _ _

theorem Represents.addAll (holds : i.Represents live) (ds : List δ) :
    (i.addAll ds).Represents (live ++ ds) := by
  induction ds generalizing i live with
  | nil => simpa [Index.addAll] using holds
  | cons d rest ih => simpa [Index.addAll] using ih (holds.add d)

theorem Represents.definitionsFor (holds : i.Represents live) (document : String) :
    i.definitionsFor document = live.filter fun d => documentOf d == document :=
  get?_of_grouped holds.byDocument document

/-- Only the suffixes of the document's own definitions are visited. In the other buckets the
document holds nothing. -/
theorem Represents.removeDocument (holds : i.Represents live) (document : String) :
    (i.removeDocument document).Represents (live.filter fun d => documentOf d != document) where
  byDocument := by
    rw [Index.removeDocument, byDocument_unregister]
    exact erase_grouped holds.byDocument document
  bySuffix suffix := by
    have swap : sharing suffix (live.filter fun d => documentOf d != document) =
        (sharing suffix live).filter fun d => documentOf d != document := by
      simp only [sharing, List.filter_filter, Bool.and_comm]
    have bucket : ({ i with byDocument := i.byDocument.erase document } : Index δ).bucket suffix =
        i.bucket suffix := rfl
    rw [Index.removeDocument, bucket_unregister, swap, bucket]
    split
    · exact erase_grouped (holds.bySuffix suffix) document
    · rename_i untouched
      rw [holds.bySuffix suffix, eq_comm]
      congr 1
      refine List.filter_eq_self.mpr fun d member => ?_
      obtain ⟨present, shared⟩ := List.mem_filter.mp member
      rw [bne_iff_ne]
      intro owned
      refine untouched (List.mem_flatMap.mpr ⟨d, ?_, List.contains_iff_mem.mp shared⟩)
      rw [holds.definitionsFor]
      exact List.mem_filter.mpr ⟨present, by simpa using owned⟩
  tidy := (holds.tidy.withDocuments _).unregister _ _

end Index

end KeyAtlas
