import KeyAtlas.Proofs.Index.Contents

namespace KeyAtlas

theorem length_suffixes (path : List String) : (suffixes path).length = path.length := by
  induction path with
  | nil => rfl
  | cons component rest ih =>
    rw [suffixes, List.length_append, ih, List.length_singleton, List.length_cons]

namespace Index

variable {δ : Type}

def slot? (i : Index δ) (suffix : List String) (document : String) : Option (List δ) :=
  (i.bySuffix.get? suffix).bind (·.get? document)

theorem slot?_eq_bucket (i : Index δ) (suffix : List String) (document : String) :
    i.slot? suffix document = (i.bucket suffix).get? document := by
  rw [slot?, bucket]
  cases i.bySuffix.get? suffix <;> rfl

variable [Defines δ]

/-- The index keeps the definitions of a list under the suffixes of their paths and nothing else,
and keeps nothing that is empty. -/
structure Registers (i : Index δ) (live : List δ) : Prop where
  definitionsFor : ∀ document,
    i.definitionsFor document = live.filter fun d => documentOf d == document
  isSome_slot? : ∀ suffix document, (i.slot? suffix document).isSome ↔
    ∃ d ∈ live, documentOf d = document ∧ suffix ≠ [] ∧ suffix <:+ pathOf d
  slot?_eq : ∀ suffix document held, i.slot? suffix document = some held →
    held = (i.definitionsFor document).filter fun d => suffix ≠ [] ∧ suffix <:+ pathOf d
  slot_ne_nil : ∀ suffix document held, i.slot? suffix document = some held → held ≠ []
  bucket_ne_nil : ∀ suffix b, i.bySuffix.get? suffix = some b → b.entries ≠ []
  document_ne_nil : ∀ document held, i.byDocument.get? document = some held → held ≠ []

variable {i : Index δ} {live : List δ}

theorem filter_sharing (suffix : List String) (ds : List δ) (document : String) :
    (sharing suffix ds).filter (fun d => documentOf d == document) =
      (ds.filter fun d => documentOf d == document).filter fun d =>
        suffix ≠ [] ∧ suffix <:+ pathOf d := by
  rw [sharing, List.filter_filter, List.filter_filter]
  refine List.filter_congr fun d _ => ?_
  rw [Bool.and_comm, Bool.eq_iff_iff]
  simp only [Bool.and_eq_true, List.contains_iff_mem, mem_suffixes, decide_eq_true_eq]

theorem Represents.slot?_eq_some_iff (holds : i.Represents live) {suffix : List String}
    {document : String} {held : List δ} :
    i.slot? suffix document = some held ↔ held ≠ [] ∧
      held = (i.definitionsFor document).filter fun d => suffix ≠ [] ∧ suffix <:+ pathOf d := by
  rw [slot?_eq_bucket, get?_grouped_eq_some_iff (holds.bySuffix suffix), filter_sharing,
    holds.definitionsFor]

theorem Represents.isSome_slot?_iff (holds : i.Represents live) (suffix : List String)
    (document : String) : (i.slot? suffix document).isSome ↔
      ∃ d ∈ live, documentOf d = document ∧ suffix ≠ [] ∧ suffix <:+ pathOf d := by
  have filled : (i.slot? suffix document).isSome ↔
      (i.definitionsFor document).filter (fun d => suffix ≠ [] ∧ suffix <:+ pathOf d) ≠ [] := by
    rw [Option.isSome_iff_exists]
    simp only [holds.slot?_eq_some_iff]
    constructor
    · rintro ⟨_, nonempty, rfl⟩
      exact nonempty
    · exact fun nonempty => ⟨_, nonempty, rfl⟩
  rw [filled, holds.definitionsFor, List.filter_filter, Ne, List.filter_eq_nil_iff]
  push Not
  simp only [Bool.and_eq_true, decide_eq_true_eq, beq_iff_eq, and_comm]

theorem Represents.registers (holds : i.Represents live) : i.Registers live where
  definitionsFor := holds.definitionsFor
  isSome_slot? := holds.isSome_slot?_iff
  slot?_eq _ _ _ found := (holds.slot?_eq_some_iff.mp found).2
  slot_ne_nil _ _ _ found := (holds.slot?_eq_some_iff.mp found).1
  bucket_ne_nil suffix b found := by
    have same : i.bucket suffix = b := by rw [bucket, found, Option.getD_some]
    rw [← same]
    refine (holds.tidy suffix).mp ?_
    exact List.mem_map_of_mem (OrderedMap.get?_eq_some_iff.mp found)
  document_ne_nil _ _ found := ((get?_grouped_eq_some_iff holds.byDocument).mp found).1

theorem Represents.suffixCount (holds : i.Represents live) :
    i.suffixCount = (live.flatMap fun d => suffixes (pathOf d)).eraseDups.length := by
  have perm : i.bySuffix.keys.Perm (live.flatMap fun d => suffixes (pathOf d)).eraseDups := by
    refine (List.perm_ext_iff_of_nodup i.bySuffix.keys_nodup (nodup_eraseDups _)).mpr ?_
    intro suffix
    rw [← OrderedMap.keys, holds.mem_suffixes, List.mem_eraseDups, List.mem_flatMap]
  simpa [Index.suffixCount, OrderedMap.size, OrderedMap.keys] using perm.length_eq

theorem Represents.registrationCount [DecidableEq δ] (holds : i.Represents live) (d : δ) :
    i.registrationCount d = (pathOf d).length * live.count d := by
  have each : ∀ suffix ∈ suffixes (pathOf d),
      (((i.bucket suffix).get? (documentOf d)).getD []).count d = live.count d := by
    intro suffix member
    rw [get?_of_grouped (holds.bySuffix suffix), List.count_filter (by simp), sharing,
      List.count_filter (by simpa using member)]
  calc i.registrationCount d
    _ = ((suffixes (pathOf d)).map fun suffix =>
          (((i.bucket suffix).get? (documentOf d)).getD []).count d).sum := List.count_flatMap
    _ = ((suffixes (pathOf d)).map fun _ => live.count d).sum := by rw [List.map_congr_left each]
    _ = (pathOf d).length * live.count d := by
      rw [List.map_const', List.sum_replicate_nat, length_suffixes]

theorem Represents.registrationCount_removeDocument [DecidableEq δ] (holds : i.Represents live)
    (d : δ) : (i.removeDocument (documentOf d)).registrationCount d = 0 := by
  have gone : (live.filter fun other => documentOf other != documentOf d).count d = 0 := by
    rw [List.count_eq_zero, List.mem_filter]
    simp
  rw [(holds.removeDocument (documentOf d)).registrationCount, gone, Nat.mul_zero]

theorem Represents.removeCounting (holds : i.Represents live) (document : String) :
    (i.removeCounting document).2 = live.countP (fun d => documentOf d == document) ∧
      (i.removeCounting document).1.size + (i.removeCounting document).2 = i.size := by
  have number : (i.removeCounting document).2 = live.countP fun d => documentOf d == document := by
    rw [Index.removeCounting, holds.definitionsFor, List.countP_eq_length_filter]
  have left : (i.removeCounting document).1.size =
      live.countP fun d => documentOf d != document := by
    rw [Index.removeCounting, (holds.removeDocument document).size, List.countP_eq_length_filter]
  refine ⟨number, ?_⟩
  rw [number, left, holds.size, Nat.add_comm,
    List.length_eq_countP_add_countP (fun d => documentOf d == document)]
  simp only [bne, Bool.not_eq_true, Bool.decide_eq_false]

/-- After every history of changes the index keeps exactly the live definitions, under each suffix
of their paths by document and without anything empty. So the suffixes that are counted are the
different ones of live definitions, a definition is registered once for each component of its path
and each time that it is live, and the number that comes back from a removal is how many live
definitions go. -/
theorem registered_after [DecidableEq δ] (history : List (Operation δ)) :
    (after history).Registers (liveAfter history) ∧
      (after history).suffixCount =
        ((liveAfter history).flatMap fun d => suffixes (pathOf d)).eraseDups.length ∧
      (∀ d, (after history).registrationCount d =
          (pathOf d).length * (liveAfter history).count d ∧
        ((after history).removeDocument (documentOf d)).registrationCount d = 0) ∧
      ∀ document, ((after history).removeCounting document).2 =
          (liveAfter history).countP (fun d => documentOf d == document) ∧
        ((after history).removeCounting document).1.size +
          ((after history).removeCounting document).2 = (after history).size := by
  have holds := represents_after history
  exact ⟨holds.registers, holds.suffixCount,
    fun d => ⟨holds.registrationCount d, holds.registrationCount_removeDocument d⟩,
    holds.removeCounting⟩

end Index

end KeyAtlas
