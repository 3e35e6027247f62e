import KeyAtlas.Path
import KeyAtlas.Proofs.Text.Split

namespace KeyAtlas

namespace Path

def IsPart (part : String) : Prop :=
  part ≠ "" ∧ part ≠ "." ∧ '/' ∉ part.toList

def isName (name : String) : Bool :=
  name ≠ "" && name ≠ "." && name ≠ ".." && !name.toList.contains '/'

theorem isName_iff {name : String} : isName name = true ↔ IsPart name ∧ name ≠ ".." := by
  simp only [isName, IsPart, Bool.and_eq_true, decide_eq_true_eq, Bool.not_eq_true',
    ← Bool.not_eq_true, List.contains_iff_mem]
  constructor
  · intro facts
    obtain ⟨⟨⟨nonempty, noDot⟩, noDots⟩, noSlash⟩ := facts
    exact ⟨⟨nonempty, noDot, noSlash⟩, noDots⟩
  · intro facts
    obtain ⟨⟨nonempty, noDot, noSlash⟩, noDots⟩ := facts
    exact ⟨⟨⟨nonempty, noDot⟩, noDots⟩, noSlash⟩

theorem isPart_of_mem_ofString {text part : String} (member : part ∈ (ofString text).parts) :
    IsPart part := by
  rw [ofString, List.mem_filter, List.mem_map] at member
  obtain ⟨⟨piece, found, rfl⟩, kept⟩ := member
  rw [Bool.and_eq_true, decide_eq_true_iff, decide_eq_true_iff] at kept
  refine ⟨kept.1, kept.2, ?_⟩
  rw [String.toList_ofList]
  exact Text.not_mem_of_mem_splitFrom List.not_mem_nil found

structure IsPlain (p : Path) : Prop where
  absolute : p.root ≠ .relative
  names : ∀ part ∈ p.parts, isName part = true

theorem mem_cancelDots {parts : List String} {part : String} (member : part ∈ cancelDots parts) :
    part ∈ parts ∧ part ≠ ".." := by
  suffices fold : ∀ kept : List String, part ∈ parts.foldl
      (fun kept part => if part = ".." then kept.dropLast else kept ++ [part]) kept →
      part ∈ kept ∨ part ∈ parts ∧ part ≠ ".." by
    rcases fold [] member with impossible | found
    · cases impossible
    · exact found
  clear member
  induction parts with
  | nil => exact fun _ => .inl
  | cons first rest ih =>
    intro kept found
    rw [List.foldl_cons] at found
    rcases ih _ found with here | ⟨later, plain⟩
    · split at here
      · exact .inl (List.dropLast_subset _ here)
      · rename_i other
        rcases List.mem_append.mp here with before | new
        · exact .inl before
        · cases List.mem_singleton.mp new
          exact .inr ⟨List.mem_cons_self, other⟩
    · exact .inr ⟨List.mem_cons_of_mem _ later, plain⟩

theorem cancelDots_of_names {parts : List String} (names : ∀ part ∈ parts, part ≠ "..") :
    cancelDots parts = parts := by
  suffices fold : ∀ kept : List String, parts.foldl
      (fun kept part => if part = ".." then kept.dropLast else kept ++ [part]) kept =
        kept ++ parts from fold []
  induction parts with
  | nil => simp
  | cons first rest ih =>
    intro kept
    have other := names first List.mem_cons_self
    rw [List.foldl_cons, if_neg other, ih fun part member =>
      names part (List.mem_cons_of_mem _ member)]
    simp

theorem absolute_isPlain {cwd p : Path} (absolute : cwd.root ≠ .relative)
    (cwdParts : ∀ part ∈ cwd.parts, IsPart part) (parts : ∀ part ∈ p.parts, IsPart part) :
    (cwd.absolute p).IsPlain where
  absolute := by
    rw [Path.absolute, under, isAbsolute]
    by_cases relative : p.root = .relative <;> simp [relative, absolute]
  names part member := by
    obtain ⟨found, noDots⟩ := mem_cancelDots member
    refine isName_iff.mpr ⟨?_, noDots⟩
    rw [under] at found
    split at found
    · exact parts part found
    · rcases List.mem_append.mp found with before | after
      · exact cwdParts part before
      · exact parts part after

theorem IsPlain.under {p : Path} (plain : p.IsPlain) (cwd : Path) : cwd.under p = p := by
  rw [Path.under, if_pos (by simpa [isAbsolute] using plain.absolute)]

theorem IsPlain.absolute_eq {p : Path} (plain : p.IsPlain) (cwd : Path) : cwd.absolute p = p := by
  rw [Path.absolute, plain.under, cancelDots_of_names]
  intro part member
  exact (isName_iff.mp (plain.names part member)).2

theorem splitOn_slash_intercalate {parts : List String} (names : ∀ part ∈ parts, IsPart part) :
    ((Text.splitOn '/' ("/".intercalate parts).toList).map String.ofList).filter
      (fun part => part ≠ "" && part ≠ ".") = parts := by
  cases parts with
  | nil => rfl
  | cons first rest =>
    have pieces := Text.splitOn_toList_intercalate (List.cons_ne_nil first rest)
      fun part found => (names part found).2.2
    have readBack : ((first :: rest).map String.toList).map String.ofList = first :: rest := by
      simp [Function.comp_def]
    rw [pieces, readBack, List.filter_eq_self]
    intro part member
    have isPart := names part member
    simp [isPart.1, isPart.2.1]

theorem head?_intercalate_ne_slash {parts : List String} (names : ∀ part ∈ parts, IsPart part) :
    ("/".intercalate parts).toList.head? ≠ some '/' := by
  cases parts with
  | nil => simp
  | cons first rest =>
    have isPart := names first List.mem_cons_self
    obtain ⟨c, cs, letters⟩ : ∃ c cs, first.toList = c :: cs := by
      cases letters : first.toList with
      | nil => exact absurd (String.toList_eq_nil_iff.mp letters) isPart.1
      | cons c cs => exact ⟨c, cs, rfl⟩
    have other : c ≠ '/' := by
      intro same
      subst same
      exact isPart.2.2 (letters ▸ List.mem_cons_self)
    cases rest <;> simp [String.toList_intercalate, letters, other]

theorem IsPlain.ofString_toString {p : Path} (plain : p.IsPlain) : ofString p.toString = p := by
  have valid : ∀ part ∈ p.parts, IsPart part := fun part member =>
    (isName_iff.mp (plain.names part member)).1
  have kept := splitOn_slash_intercalate valid
  have start := head?_intercalate_ne_slash valid
  obtain ⟨root, parts⟩ := p
  have text : toString ⟨root, parts⟩ = root.text ++ "/".intercalate parts := by
    rw [toString, if_neg fun relative => plain.absolute relative.1]
  rw [text, ofString, String.toList_append]
  cases root with
  | relative => exact absurd rfl plain.absolute
  | slash =>
    have one : Root.slash.text.toList = ['/'] := rfl
    rw [one, List.singleton_append, Text.splitOn_cons_separator]
    congr 1
    cases letters : ("/".intercalate parts).toList with
    | nil => rfl
    | cons c cs =>
      have other : c ≠ '/' := by simpa [letters] using start
      simp [rootOf, other]
  | doubleSlash =>
    have two : Root.doubleSlash.text.toList = ['/', '/'] := rfl
    rw [two, List.cons_append, List.singleton_append, Text.splitOn_cons_separator,
      Text.splitOn_cons_separator]
    congr 1
    cases letters : ("/".intercalate parts).toList with
    | nil => rfl
    | cons c cs =>
      have other : c ≠ '/' := by simpa [letters] using start
      simp [rootOf, other]

theorem IsPlain.eq_of_toString_eq {p q : Path} (plain : p.IsPlain) (plain' : q.IsPlain)
    (same : p.toString = q.toString) : p = q := by
  rw [← plain.ofString_toString, same, plain'.ofString_toString]

theorem toString_slash_singleton (name : String) :
    (Path.mk .slash [name]).toString = "/" ++ name := by
  rw [toString, if_neg fun relative => nomatch relative.1]
  simp [Root.text]

end Path

end KeyAtlas
