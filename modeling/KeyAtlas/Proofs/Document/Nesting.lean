import KeyAtlas.Proofs.Document.Trace
import Mathlib.Data.List.Induction

namespace KeyAtlas.Document

open Text

/-! ### The keys of a document -/

structure FoundKey where
  line : Nat
  column : Nat
  found : KeyLine
  deriving DecidableEq

namespace FoundKey

def ofKind? (line : Nat) : LineKind → Option FoundKey
  | .key found column => some ⟨line, column, found⟩
  | .other | .reset => none

def name (k : FoundKey) : String :=
  String.ofList k.found.key

def anchor (k : FoundKey) : Anchor :=
  ⟨k.line, k.column, k.column + k.found.width⟩

def isOpener (k : FoundKey) : Bool :=
  !isScalarHeader k.found.value && opensBlock k.found.value

end FoundKey

def foundKeys (kinds : List LineKind) : List FoundKey :=
  kinds.zipIdx.filterMap fun (kind, line) => FoundKey.ofKind? line kind

/-- `outer` is above `inner` by their columns and those of the keys between them. -/
def Encloses (kinds : List LineKind) (outer inner : FoundKey) : Prop :=
  outer.isOpener = true ∧ outer.line < inner.line ∧
    (∀ line < inner.line, outer.line < line → kinds[line]? ≠ some .reset) ∧
    ∀ k ∈ foundKeys kinds, outer.line < k.line → k.line ≤ inner.line → outer.column < k.column

/-- After all lines `k` is above every deeper key that may follow. -/
def StaysOpen (kinds : List LineKind) (k : FoundKey) : Prop :=
  k.isOpener = true ∧ (∀ line < kinds.length, k.line < line → kinds[line]? ≠ some .reset) ∧
    ∀ later ∈ foundKeys kinds, k.line < later.line → k.column < later.column

instance (kinds : List LineKind) (outer inner : FoundKey) :
    Decidable (Encloses kinds outer inner) :=
  inferInstanceAs (Decidable (_ ∧ _ ∧ _ ∧ _))

instance (kinds : List LineKind) (k : FoundKey) : Decidable (StaysOpen kinds k) :=
  inferInstanceAs (Decidable (_ ∧ _ ∧ _))

def keysAbove (kinds : List LineKind) (k : FoundKey) : List FoundKey :=
  (foundKeys kinds).filter (Encloses kinds · k)

variable {kinds : List LineKind} {k : FoundKey}

theorem line_of_ofKind? {line : Nat} {kind : LineKind}
    (found : FoundKey.ofKind? line kind = some k) : k.line = line := by
  cases kind with
  | key => cases found; rfl
  | other | reset => cases found

theorem foundKeys_concat (kinds : List LineKind) (kind : LineKind) :
    foundKeys (kinds ++ [kind]) =
      foundKeys kinds ++ (FoundKey.ofKind? kinds.length kind).toList := by
  rw [foundKeys, List.zipIdx_append, List.filterMap_append]
  cases kind <;> simp [foundKeys, FoundKey.ofKind?]

theorem line_lt_of_mem_foundKeys (member : k ∈ foundKeys kinds) : k.line < kinds.length := by
  obtain ⟨⟨kind, line⟩, held, found⟩ := List.mem_filterMap.mp member
  have bound := (List.mem_zipIdx held).2.1
  rw [line_of_ofKind? found]
  omega

theorem foundKeys_ascending (kinds : List LineKind) :
    (foundKeys kinds).Pairwise fun k later => k.line < later.line := by
  induction kinds using List.reverseRecOn with
  | nil => exact List.Pairwise.nil
  | append_singleton kinds kind ih =>
    rw [foundKeys_concat]
    apply List.pairwise_append.mpr
    refine ⟨ih, by cases kind <;> simp [FoundKey.ofKind?], ?_⟩
    intro k member later last
    rw [line_of_ofKind? (Option.mem_toList.mp last)]
    exact line_lt_of_mem_foundKeys member

/-! ### One more line -/

theorem staysOpen_concat_iff (member : k ∈ foundKeys kinds) (kind : LineKind) :
    StaysOpen (kinds ++ [kind]) k ↔
      StaysOpen kinds k ∧ kind ≠ .reset ∧
        ∀ later, FoundKey.ofKind? kinds.length kind = some later → k.column < later.column := by
  have before := line_lt_of_mem_foundKeys member
  rw [StaysOpen, StaysOpen, foundKeys_concat]
  constructor
  · rintro ⟨opener, free, deeper⟩
    refine ⟨⟨opener, ?_, ?_⟩, ?_, ?_⟩
    · intro line lt after
      have same := free line (by simp; omega) after
      rwa [List.getElem?_append_left lt] at same
    · intro later member after
      exact deeper later (List.mem_append_left _ member) after
    · rintro rfl
      apply free kinds.length (by simp) before
      simp
    · intro later found
      apply deeper later (List.mem_append_right _ (Option.mem_toList.mpr found))
      rw [line_of_ofKind? found]
      exact before
  · rintro ⟨⟨opener, free, deeper⟩, noReset, last⟩
    refine ⟨opener, ?_, ?_⟩
    · intro line lt after
      rcases Nat.lt_or_ge line kinds.length with inside | atEnd
      · rw [List.getElem?_append_left inside]
        exact free line inside after
      · have same : line = kinds.length := by
          rw [List.length_append, List.length_singleton] at lt
          omega
        subst same
        simpa using noReset
    · intro later member after
      rcases List.mem_append.mp member with member | found
      · exact deeper later member after
      · exact last later (Option.mem_toList.mp found)

theorem encloses_concat_iff {inner : FoundKey} (member : inner ∈ foundKeys kinds)
    (kind : LineKind) : Encloses (kinds ++ [kind]) k inner ↔ Encloses kinds k inner := by
  have inside := line_lt_of_mem_foundKeys member
  have same : ∀ line < inner.line, (kinds ++ [kind])[line]? = kinds[line]? := fun line lt =>
    List.getElem?_append_left (by omega)
  rw [Encloses, Encloses, foundKeys_concat]
  constructor
  · rintro ⟨opener, before, free, deeper⟩
    refine ⟨opener, before, fun line lt after => ?_, fun later member => ?_⟩
    · rw [← same line lt]
      exact free line lt after
    · exact deeper later (List.mem_append_left _ member)
  · rintro ⟨opener, before, free, deeper⟩
    refine ⟨opener, before, fun line lt after => ?_, fun later member after le => ?_⟩
    · rw [same line lt]
      exact free line lt after
    · rcases List.mem_append.mp member with member | last
      · exact deeper later member after le
      · rw [line_of_ofKind? (Option.mem_toList.mp last)] at le
        omega

theorem encloses_last_iff (member : k ∈ foundKeys kinds) (found : KeyLine) (column : Nat) :
    Encloses (kinds ++ [.key found column]) k ⟨kinds.length, column, found⟩ ↔
      StaysOpen (kinds ++ [.key found column]) k := by
  have before := line_lt_of_mem_foundKeys member
  rw [Encloses, StaysOpen, List.length_append, List.length_singleton]
  constructor
  · rintro ⟨opener, -, free, deeper⟩
    refine ⟨opener, fun line lt after => ?_, fun later member after => ?_⟩
    · rcases Nat.lt_or_ge line kinds.length with inside | atEnd
      · exact free line inside after
      · obtain rfl : line = kinds.length := by omega
        simp
    · have le := line_lt_of_mem_foundKeys member
      rw [List.length_append, List.length_singleton] at le
      exact deeper later member after (Nat.le_of_lt_succ le)
  · rintro ⟨opener, free, deeper⟩
    refine ⟨opener, before, fun line lt after => ?_, fun later member after _ => ?_⟩
    · exact free line (Nat.lt_succ_of_lt lt) after
    · exact deeper later member after

theorem keysAbove_concat (member : k ∈ foundKeys kinds) (kind : LineKind) :
    keysAbove (kinds ++ [kind]) k = keysAbove kinds k := by
  have last : (FoundKey.ofKind? kinds.length kind).toList.filter
      (Encloses (kinds ++ [kind]) · k) = [] := by
    apply List.filter_eq_nil_iff.mpr
    intro new found encloses
    have before := (of_decide_eq_true encloses).2.1
    have inside := line_lt_of_mem_foundKeys member
    rw [line_of_ofKind? (Option.mem_toList.mp found)] at before
    omega
  rw [keysAbove, foundKeys_concat, List.filter_append, last, List.append_nil, keysAbove]
  apply List.filter_congr
  intro outer _
  rw [decide_eq_decide]
  exact encloses_concat_iff member kind

def openKeys (kinds : List LineKind) : List FoundKey :=
  (foundKeys kinds).filter (StaysOpen kinds ·)

theorem mem_openKeys_iff : k ∈ openKeys kinds ↔ k ∈ foundKeys kinds ∧ StaysOpen kinds k := by
  rw [openKeys, List.mem_filter, decide_eq_true_iff]

theorem openKeys_increasing (kinds : List LineKind) :
    (openKeys kinds).Pairwise fun outer inner => outer.column < inner.column := by
  have ascending := (foundKeys_ascending kinds).filter (StaysOpen kinds ·)
  apply ascending.imp_of_mem
  intro outer inner above below before
  obtain ⟨-, -, -, deeper⟩ := mem_openKeys_iff.mp above
  exact deeper inner (mem_openKeys_iff.mp below).1 before

theorem openKeys_concat_other (kinds : List LineKind) :
    openKeys (kinds ++ [.other]) = openKeys kinds := by
  rw [openKeys, foundKeys_concat]
  simp only [FoundKey.ofKind?, Option.toList_none, List.append_nil]
  apply List.filter_congr
  intro k member
  rw [decide_eq_decide, staysOpen_concat_iff member]
  simp [FoundKey.ofKind?]

theorem openKeys_concat_reset (kinds : List LineKind) : openKeys (kinds ++ [.reset]) = [] := by
  apply List.filter_eq_nil_iff.mpr
  intro k member stays
  rw [foundKeys_concat, FoundKey.ofKind?, Option.toList_none, List.append_nil] at member
  exact ((staysOpen_concat_iff member .reset).mp (of_decide_eq_true stays)).2.1 rfl

theorem filter_staysOpen_key (kinds : List LineKind) (found : KeyLine) (column : Nat) :
    (foundKeys kinds).filter (StaysOpen (kinds ++ [.key found column]) ·) =
      (openKeys kinds).filter (·.column < column) := by
  rw [openKeys, List.filter_filter]
  apply List.filter_congr
  intro k member
  rw [← Bool.decide_and, decide_eq_decide, staysOpen_concat_iff member]
  simp [FoundKey.ofKind?, and_comm]

theorem keysAbove_last (kinds : List LineKind) (found : KeyLine) (column : Nat) :
    keysAbove (kinds ++ [.key found column]) ⟨kinds.length, column, found⟩ =
      (openKeys kinds).filter (·.column < column) := by
  have last : ¬ Encloses (kinds ++ [.key found column]) ⟨kinds.length, column, found⟩
      ⟨kinds.length, column, found⟩ := fun encloses => Nat.lt_irrefl _ encloses.2.1
  rw [← filter_staysOpen_key, keysAbove, foundKeys_concat, List.filter_append]
  simp only [FoundKey.ofKind?, Option.toList_some, List.filter_singleton, last, decide_false,
    cond_false, List.append_nil]
  apply List.filter_congr
  intro k member
  rw [decide_eq_decide, encloses_last_iff member]

theorem staysOpen_last_iff (kinds : List LineKind) (found : KeyLine) (column : Nat) :
    StaysOpen (kinds ++ [.key found column]) ⟨kinds.length, column, found⟩ ↔
      (⟨kinds.length, column, found⟩ : FoundKey).isOpener = true := by
  refine ⟨fun stays => stays.1, fun opener => ⟨opener, ?_, ?_⟩⟩
  · intro line lt (after : kinds.length < line)
    rw [List.length_append, List.length_singleton] at lt
    omega
  · intro later member (after : kinds.length < later.line)
    have bound := line_lt_of_mem_foundKeys member
    rw [List.length_append, List.length_singleton] at bound
    omega

theorem openKeys_concat_key (kinds : List LineKind) (found : KeyLine) (column : Nat) :
    openKeys (kinds ++ [.key found column]) =
      (openKeys kinds).filter (·.column < column) ++
        if (⟨kinds.length, column, found⟩ : FoundKey).isOpener then [⟨kinds.length, column, found⟩]
        else [] := by
  rw [← filter_staysOpen_key, openKeys, foundKeys_concat, List.filter_append]
  simp only [FoundKey.ofKind?, Option.toList_some, List.filter_singleton, staysOpen_last_iff,
    Bool.decide_eq_true]
  cases (⟨kinds.length, column, found⟩ : FoundKey).isOpener <;> rfl

/-! ### The open keys of the reading -/

theorem enclosing_eq_filter {ancestors : List OpenKey}
    (deeper : ancestors.Pairwise fun inner outer => outer.column < inner.column) (column : Nat) :
    enclosing ancestors column = ancestors.filter (·.column < column) := by
  induction ancestors with
  | nil => rfl
  | cons inner outer ih =>
    obtain ⟨first, others⟩ := List.pairwise_cons.mp deeper
    by_cases closed : column ≤ inner.column
    · have shut : ¬ inner.column < column := by omega
      rw [enclosing, List.dropWhile_cons_of_pos (by simpa using closed),
        List.filter_cons_of_neg (by simpa using shut)]
      exact ih others
    · have stays : (inner :: outer).filter (·.column < column) = inner :: outer := by
        apply List.filter_eq_self.mpr
        intro a member
        rw [decide_eq_true_iff]
        rcases List.mem_cons.mp member with rfl | member
        · omega
        · have less := first a member
          omega
      rw [enclosing, List.dropWhile_cons_of_neg (by simpa using closed), stays]

theorem ancestors_afterKey (ancestors : List OpenKey) (key : String) (column : Nat)
    (value : List Char) :
    (OutlineState.afterKey ancestors key column value).ancestors =
      if !isScalarHeader value && opensBlock value then ⟨key, column⟩ :: ancestors
      else ancestors := by
  rw [OutlineState.afterKey]
  cases isScalarHeader value <;> cases opensBlock value <;> rfl

def FoundKey.toOpenKey (k : FoundKey) : OpenKey :=
  ⟨k.name, k.column⟩

theorem enclosing_openKeys (kinds : List LineKind) (column : Nat) :
    enclosing ((openKeys kinds).map FoundKey.toOpenKey).reverse column =
      (((openKeys kinds).filter (·.column < column)).map FoundKey.toOpenKey).reverse := by
  rw [enclosing_eq_filter, List.filter_reverse, List.filter_map]
  · rfl
  · rw [List.pairwise_reverse, List.pairwise_map]
    exact openKeys_increasing kinds

/-- After each line the ancestors are the keys that its columns leave open. -/
theorem ancestors_after (raws : List (List Char)) :
    (OutlineState.begin.after raws).ancestors =
      ((openKeys (OutlineState.begin.kinds raws)).map FoundKey.toOpenKey).reverse := by
  -- From the end, since which keys stay open is said of all lines up to the last one.
  induction raws using List.reverseRecOn with
  | nil => rfl
  | append_singleton raws raw ih =>
    have next : OutlineState.begin.after (raws ++ [raw]) =
        ((OutlineState.begin.after raws).step 0 raw).1 := after_append _ raws [raw]
    rw [next, kinds_concat]
    cases taken : (OutlineState.begin.after raws).kindOf raw with
    | other =>
      obtain ⟨s', same, step⟩ := step_of_other taken
      rw [step, same, ih, openKeys_concat_other]
    | reset =>
      rw [step_of_reset taken, openKeys_concat_reset]
      rfl
    | key found column =>
      rw [step_of_key taken, ancestors_afterKey, ih, enclosing_openKeys, openKeys_concat_key,
        List.map_append, List.reverse_append, FoundKey.isOpener]
      cases !isScalarHeader found.value && opensBlock found.value <;> rfl

def FoundKey.entry (kinds : List LineKind) (k : FoundKey) : OutlineEntry :=
  ⟨(keysAbove kinds k).map FoundKey.name, k.name, k.anchor⟩

theorem entry_concat (kinds : List LineKind) (kind : LineKind) :
    (foundKeys kinds).map (FoundKey.entry (kinds ++ [kind])) =
      (foundKeys kinds).map (FoundKey.entry kinds) := by
  apply List.map_congr_left
  intro k member
  rw [FoundKey.entry, keysAbove_concat member, FoundKey.entry]

theorem entriesFrom_eq (raws : List (List Char)) :
    entriesFrom .begin 0 raws =
      (foundKeys (OutlineState.begin.kinds raws)).map
        (FoundKey.entry (OutlineState.begin.kinds raws)) := by
  induction raws using List.reverseRecOn with
  | nil => rfl
  | append_singleton raws raw ih =>
    have last : entriesFrom (OutlineState.begin.after raws) (0 + raws.length) [raw] =
        ((OutlineState.begin.after raws).step (0 + raws.length) raw).2.toList := by
      rw [entriesFrom_cons]
      exact List.append_nil _
    -- The keys found before keep what is above them, so only the last line is left to look at.
    rw [entriesFrom_append, last, kinds_concat, foundKeys_concat, List.map_append, entry_concat, ih]
    congr 1
    cases taken : (OutlineState.begin.after raws).kindOf raw with
    | other =>
      obtain ⟨s', -, step⟩ := step_of_other taken
      rw [step]
      rfl
    | reset =>
      rw [step_of_reset taken]
      rfl
    | key found column =>
      rw [step_of_key taken, ancestors_after, enclosing_openKeys, List.map_reverse,
        List.reverse_reverse, List.map_map, FoundKey.ofKind?, Option.toList_some,
        Option.toList_some, List.map_singleton, FoundKey.entry, keysAbove_last, Nat.zero_add,
        ← length_kinds .begin]
      rfl

/-! ### Definitions -/

def FoundKey.definition (document : String) (place : List String) (kinds : List LineKind)
    (k : FoundKey) : Definition :=
  ⟨place ++ (keysAbove kinds k).map FoundKey.name ++ [k.name], document, k.anchor, by simp⟩

theorem keysAbove_increasing (kinds : List LineKind) (member : k ∈ foundKeys kinds) :
    (keysAbove kinds k ++ [k]).Pairwise fun outer inner => outer.column < inner.column := by
  apply List.pairwise_append.mpr
  refine ⟨?_, List.pairwise_singleton _ _, ?_⟩
  · have ascending := (foundKeys_ascending kinds).filter (Encloses kinds · k)
    apply ascending.imp_of_mem
    intro outer inner above below before
    obtain ⟨-, -, -, deeper⟩ := of_decide_eq_true (List.mem_filter.mp above).2
    obtain ⟨member, encloses⟩ := List.mem_filter.mp below
    exact deeper inner member before (Nat.le_of_lt (of_decide_eq_true encloses).2.1)
  · intro outer above inner last
    obtain rfl := List.mem_singleton.mp last
    obtain ⟨-, before, -, deeper⟩ := of_decide_eq_true (List.mem_filter.mp above).2
    exact deeper inner member before (Nat.le_refl _)

/-- On every text the definitions are those of the keys found on its lines, each below the keys that
enclose it by their columns, and these columns increase up to that of the key. -/
theorem definitions_nested (document : String) (place : List String) (text : List Char) :
    let kinds := OutlineState.begin.kinds (lines text)
    definitions document place text =
        (foundKeys kinds).map (FoundKey.definition document place kinds) ∧
      ∀ k ∈ foundKeys kinds,
        (keysAbove kinds k ++ [k]).Pairwise fun outer inner => outer.column < inner.column := by
  intro kinds
  refine ⟨?_, fun k member => keysAbove_increasing kinds member⟩
  rw [definitions, entriesFrom_eq, List.map_map]
  rfl

def unevenText : String :=
  "a:\n    b:\n      - c: \x7b\n  d: 1\n\n     e: &x\n   # no: key\n   f: |\n     no: key\n" ++
    "  g: 2\n---\n    h: 1\n"

theorem definitions_nested_uneven :
    let kinds := OutlineState.begin.kinds (lines unevenText.toList)
    let c : FoundKey := ⟨2, 8, ⟨['c'], 1, ['{']⟩⟩
    (definitions "/w/u.yaml" ["u"] unevenText.toList).map (·.path) =
        [["u", "a"], ["u", "a", "b"], ["u", "a", "b", "c"], ["u", "a", "d"], ["u", "a", "e"],
          ["u", "a", "f"], ["u", "a", "g"], ["u", "h"]] ∧
      c ∈ foundKeys kinds ∧ (keysAbove kinds c).map (·.column) = [0, 4] ∧
        (keysAbove kinds c ++ [c]).Pairwise fun outer inner => outer.column < inner.column := by
  intro kinds c
  obtain ⟨nested, increasing⟩ := definitions_nested "/w/u.yaml" ["u"] unevenText.toList
  have member : c ∈ foundKeys kinds := by decide +kernel
  refine ⟨?_, member, by decide +kernel, increasing c member⟩
  rw [nested]
  decide +kernel

end KeyAtlas.Document
