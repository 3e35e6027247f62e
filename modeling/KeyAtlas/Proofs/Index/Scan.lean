import KeyAtlas.Proofs.Index.Live
import Mathlib.Data.List.Perm.Basic

namespace KeyAtlas.Index

variable {δ : Type} [Defines δ]

inductive Operation (δ : Type) where
  | add (d : δ)
  | addAll (ds : List δ)
  | removeDocument (document : String)
  | clear

def step (i : Index δ) : Operation δ → Index δ
  | .add d => i.add d
  | .addAll ds => i.addAll ds
  | .removeDocument document => i.removeDocument document
  | .clear => .empty

def liveStep (live : List δ) : Operation δ → List δ
  | .add d => live ++ [d]
  | .addAll ds => live ++ ds
  | .removeDocument document => live.filter fun d => documentOf d != document
  | .clear => []

def after (history : List (Operation δ)) : Index δ :=
  history.foldl step .empty

/-- The definitions that are live after a history of changes, in the order of their addition. -/
def liveAfter (history : List (Operation δ)) : List δ :=
  history.foldl liveStep []

/-- The last `level` components of a path. -/
def ending (path : List String) (level : Nat) : List String :=
  path.drop (path.length - level)

def scanAt (live : List δ) (path : List String) (level : Nat) : List Match :=
  (grouped (live.filter fun d => (ending path level).isSuffixOf (pathOf d))).flatMap fun group =>
    group.2.map fun d => ⟨Defines.definition d, level⟩

def scan (live : List δ) (path : List String) : List Match :=
  (List.range' 1 path.length).reverse.flatMap (scanAt live path)

theorem Represents.step {i : Index δ} {live : List δ} (holds : i.Represents live)
    (operation : Operation δ) : (i.step operation).Represents (liveStep live operation) := by
  cases operation with
  | add d => exact holds.add d
  | addAll ds => exact holds.addAll ds
  | removeDocument document => exact holds.removeDocument document
  | clear => exact represents_empty

theorem represents_after (history : List (Operation δ)) :
    (after history).Represents (liveAfter history) := by
  suffices run : ∀ (i : Index δ) (live : List δ), i.Represents live →
      (history.foldl Index.step i).Represents (history.foldl liveStep live) from
    run .empty [] represents_empty
  induction history with
  | nil => exact fun _ _ holds => holds
  | cons operation rest ih => exact fun _ _ holds => ih _ _ (holds.step operation)

theorem ending_cons {component : String} {rest : List String} {level : Nat}
    (bound : level ≤ rest.length) : ending (component :: rest) level = ending rest level := by
  have count : (component :: rest).length - level = rest.length - level + 1 := by
    rw [List.length_cons]
    omega
  rw [ending, count, List.drop_succ_cons, ending]

theorem suffixes_eq_endings (path : List String) :
    suffixes path = (List.range' 1 path.length).map (ending path) := by
  induction path with
  | nil => rfl
  | cons component rest ih =>
    have shorter : (List.range' 1 rest.length).map (ending (component :: rest)) =
        (List.range' 1 rest.length).map (ending rest) := by
      refine List.map_congr_left fun level member => ending_cons ?_
      rw [List.mem_range'_1] at member
      omega
    have whole : ending (component :: rest) (1 + rest.length) = component :: rest := by
      rw [ending, List.length_cons, Nat.add_comm, Nat.sub_self, List.drop_zero]
    rw [suffixes, ih, List.length_cons, List.range'_1_concat, List.map_append, shorter,
      List.map_singleton, whole]

theorem length_ending {path : List String} {level : Nat} (bound : level ≤ path.length) :
    (ending path level).length = level := by
  rw [ending, List.length_drop]
  omega

variable {i : Index δ} {live : List δ}

theorem Represents.lookup (holds : i.Represents live) (suffix : List String) :
    i.lookup suffix = (grouped (sharing suffix live)).flatMap fun group =>
      group.2.map fun d => ⟨Defines.definition d, suffix.length⟩ := by
  rw [Index.lookup, OrderedMap.values, holds.bySuffix, ← List.flatMap_def, List.map_flatMap]

theorem Represents.lookup_ending (holds : i.Represents live) {path : List String} {level : Nat}
    (positive : 1 ≤ level) (bound : level ≤ path.length) :
    i.lookup (ending path level) = scanAt live path level := by
  have length := length_ending bound
  have nonempty : ending path level ≠ [] := by
    intro short
    rw [short, List.length_nil] at length
    omega
  have same : sharing (ending path level) live =
      live.filter fun d => (ending path level).isSuffixOf (pathOf d) := by
    refine List.filter_congr fun d _ => ?_
    rw [Bool.eq_iff_iff, List.contains_iff_mem, mem_suffixes, List.isSuffixOf_iff_suffix]
    exact and_iff_right nonempty
  rw [holds.lookup, same, length, scanAt]

theorem Represents.query (holds : i.Represents live) (path : List String) :
    i.query path = scan live path := by
  rw [Index.query, suffixes_eq_endings, ← List.map_reverse, List.flatMap_map, scan]
  refine List.flatMap_congr fun level member => ?_
  rw [List.mem_reverse, List.mem_range'_1] at member
  exact holds.lookup_ending member.1 (by omega)

theorem Represents.documents (holds : i.Represents live) :
    i.documents = (live.map documentOf).eraseDups := by
  rw [Index.documents, OrderedMap.keys, holds.byDocument, keys_grouped]

theorem Represents.size (holds : i.Represents live) : i.size = live.length := by
  rw [Index.size, OrderedMap.values, holds.byDocument]
  exact (perm_flatten_grouped live).length_eq

/-- An index answers every lookup like a scan of its live definitions, and lists and counts them by
document. -/
theorem answers_as_scan (history : List (Operation δ)) :
    (∀ path, (after history).query path = scan (liveAfter history) path) ∧
      (after history).documents = ((liveAfter history).map documentOf).eraseDups ∧
      (∀ document, (after history).definitionsFor document =
        (liveAfter history).filter fun d => documentOf d == document) ∧
      (after history).size = (liveAfter history).length := by
  have holds := represents_after history
  exact ⟨holds.query, holds.documents, holds.definitionsFor, holds.size⟩

end KeyAtlas.Index
