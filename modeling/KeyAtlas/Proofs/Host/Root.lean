import KeyAtlas.Host
import Mathlib.Logic.Basic

namespace KeyAtlas

theorem Path.isWithin_iff {p root : Path} :
    p.isWithin root = true ↔ p.root = root.root ∧ ∃ rest, p.parts = root.parts ++ rest := by
  rw [Path.isWithin, Bool.and_eq_true, decide_eq_true_iff, List.isPrefixOf_iff_prefix]
  refine and_congr_right fun _ => ?_
  constructor
  · rintro ⟨rest, whole⟩
    exact ⟨rest, whole.symm⟩
  · rintro ⟨rest, whole⟩
    exact ⟨rest, whole.symm⟩

theorem Path.eq_of_isWithin {p root other : Path} (within : p.isWithin root = true)
    (within' : p.isWithin other = true) (length : root.parts.length = other.parts.length) :
    root = other := by
  obtain ⟨kind, rest, whole⟩ := isWithin_iff.mp within
  obtain ⟨kind', rest', whole'⟩ := isWithin_iff.mp within'
  have parts := (List.append_inj (whole.symm.trans whole') length).1
  cases root
  cases other
  cases kind.symm.trans kind'
  cases parts
  rfl

namespace Host

/-- `root` is the deepest workspace root that contains the path. -/
structure IsRootOf (h : Host) (root p : Path) : Prop where
  listed : root ∈ h.roots
  contains : (h.cwd.absolute p).isWithin root = true
  deepest : ∀ other ∈ h.roots, (h.cwd.absolute p).isWithin other = true →
    other.parts.length ≤ root.parts.length

instance (h : Host) (root p : Path) : Decidable (h.IsRootOf root p) :=
  decidable_of_iff (root ∈ h.roots ∧ (h.cwd.absolute p).isWithin root = true ∧
      ∀ other ∈ h.roots, (h.cwd.absolute p).isWithin other = true →
        other.parts.length ≤ root.parts.length)
    ⟨fun facts => ⟨facts.1, facts.2.1, facts.2.2⟩, fun is => ⟨is.listed, is.contains, is.deepest⟩⟩

variable {h : Host} {p root : Path}

theorem IsRootOf.unique {other : Path} (is : h.IsRootOf root p) (is' : h.IsRootOf other p) :
    root = other := by
  have le := is'.deepest root is.listed is.contains
  have ge := is.deepest other is'.listed is'.contains
  exact Path.eq_of_isWithin is.contains is'.contains (by omega)

theorem isSome_deeper (best : Option Path) :
    (deeper p best root).isSome = (best.isSome || p.isWithin root) := by
  unfold deeper
  cases best <;> cases p.isWithin root <;> simp
  split <;> rfl

theorem deeper_eq_some {best : Option Path} {chosen : Path} (found : deeper p best root = some chosen) :
    (best = some chosen ∨ root = chosen ∧ p.isWithin root = true) ∧
      (∀ kept, best = some kept → kept.parts.length ≤ chosen.parts.length) ∧
      (p.isWithin root = true → root.parts.length ≤ chosen.parts.length) := by
  unfold deeper at found
  split at found
  · rename_i within
    cases best with
    | none =>
      cases found
      simp [within]
    | some kept =>
      dsimp only at found
      split at found <;> cases found <;> simp [within] <;> omega
  · rename_i apart
    subst found
    simp [apart]

theorem isSome_foldl_deeper (roots : List Path) (best : Option Path) :
    (roots.foldl (deeper p) best).isSome = (best.isSome || roots.any p.isWithin) := by
  induction roots generalizing best with
  | nil => simp
  | cons first rest ih => rw [List.foldl_cons, ih, isSome_deeper, List.any_cons, Bool.or_assoc]

theorem foldl_deeper_eq_some {roots : List Path} {best : Option Path} {chosen : Path}
    (found : roots.foldl (deeper p) best = some chosen) :
    (best = some chosen ∨ chosen ∈ roots ∧ p.isWithin chosen = true) ∧
      (∀ kept, best = some kept → kept.parts.length ≤ chosen.parts.length) ∧
      ∀ other ∈ roots, p.isWithin other = true → other.parts.length ≤ chosen.parts.length := by
  induction roots generalizing best with
  | nil =>
    cases found
    simp
  | cons first rest ih =>
    obtain ⟨origin, above, others⟩ := ih found
    have isSome : (deeper p best first).isSome = true → ∃ kept, deeper p best first = some kept :=
      Option.isSome_iff_exists.mp
    refine ⟨?_, fun kept same => ?_, List.forall_mem_cons.mpr ⟨fun within => ?_, others⟩⟩
    · rcases origin with here | ⟨later, within⟩
      · rcases (deeper_eq_some here).1 with before | ⟨rfl, within⟩
        · exact .inl before
        · exact .inr ⟨List.mem_cons_self, within⟩
      · exact .inr ⟨List.mem_cons_of_mem _ later, within⟩
    · obtain ⟨next, chosen⟩ := isSome (by simp [isSome_deeper, same])
      exact Nat.le_trans ((deeper_eq_some chosen).2.1 kept same) (above next chosen)
    · obtain ⟨next, chosen⟩ := isSome (by simp [isSome_deeper, within])
      exact Nat.le_trans ((deeper_eq_some chosen).2.2 within) (above next chosen)

theorem isRootOf_of_rootOf (found : h.rootOf p = some root) : h.IsRootOf root p := by
  obtain ⟨origin, _, deepest⟩ := foldl_deeper_eq_some found
  rcases origin with impossible | ⟨listed, contains⟩
  · cases impossible
  · exact ⟨listed, contains, deepest⟩

theorem rootOf_eq_some_iff : h.rootOf p = some root ↔ h.IsRootOf root p := by
  refine ⟨isRootOf_of_rootOf, fun is => ?_⟩
  have lies : (h.rootOf p).isSome = true := by
    rw [rootOf, isSome_foldl_deeper]
    simpa using ⟨root, is.listed, is.contains⟩
  obtain ⟨other, found⟩ := Option.isSome_iff_exists.mp lies
  rw [found, (isRootOf_of_rootOf found).unique is]

end Host

end KeyAtlas
