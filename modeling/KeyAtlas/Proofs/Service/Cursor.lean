import KeyAtlas.Service.Configured
import KeyAtlas.Proofs.Reference.Interpolation
import KeyAtlas.Proofs.Result

namespace KeyAtlas.Service

open Text Reference

variable {τ : Type} {disk : Disk} {p : Path} {text line : List Char} {n : Nat} {column : Int}

theorem resolveAt_eq (s : Service τ) (read : s.host.read disk p = .ok text)
    (here : (lines text)[n]? = some line) (column : Int) (filter : Option String) :
    s.resolveAt disk p n column filter =
      match at? line column with
      | none => (s, .ok [])
      | some r => s.resolve r.components filter (some (s.host.documentId p)) := by
  have found : referenceAt text n column = at? line column := by
    have nonnegative : ¬ (n : Int) < 0 := by omega
    rw [referenceAt, if_neg nonnegative, Int.toNat_natCast, here, Option.bind_some]
  cases under : at? line column with
  | none => simp only [resolveAt, read, found, under]
  | some r => simp only [resolveAt, read, found, under]

theorem resolveAt_of_isInterpolation (s : Service τ) (read : s.host.read disk p = .ok text)
    (here : (lines text)[n]? = some line) {start stop : Nat} {body : List Char}
    (at_ : IsInterpolation line start stop body) (from_ : start ≤ column) (before : column < stop)
    (filter : Option String) :
    s.resolveAt disk p n column filter =
      s.resolveReference (.ofList (line.extract start stop)) filter
        (some (s.host.documentId p)) := by
  rw [s.resolveAt_eq read here, resolveReference, ← at?_of_isInterpolation at_ from_ before]
  cases at? line column <;> rfl

theorem resolveAt_of_apart (s : Service τ) (read : s.host.read disk p = .ok text)
    (here : (lines text)[n]? = some line)
    (apart : ∀ start stop body, IsInterpolation line start stop body →
      ¬ (start ≤ column ∧ column < stop)) (filter : Option String) :
    s.resolveAt disk p n column filter = (s, .ok []) := by
  have outside : at? line column = none := by
    rw [Option.eq_none_iff_forall_ne_some]
    intro r found
    obtain ⟨member, covers⟩ := at?_eq_some_iff.mp found
    obtain ⟨body, at_, -⟩ := mem_find_iff.mp member
    exact apart r.start r.stop body at_ (covers_iff.mp covers)
  rw [s.resolveAt_eq read here, outside]

/-- The references of a line come in order and apart from each other. They are exactly the spans of an
opening `${`, a text without braces and a closing brace which name a path as a whole, each with
that path. The reference at a column is the one that covers it. Of nested interpolations the innermost
are looked at. To resolve at a cursor is to resolve the text of the interpolation under it, if there is
one. -/
theorem references_exact (line : List Char) :
    ((find line).Pairwise fun r other => r.start < other.start ∧ r.stop ≤ other.start) ∧
    (∀ r, r ∈ find line ↔ ∃ body, IsInterpolation line r.start r.stop body ∧
      r.text = .ofList (trim body) ∧
      parse? (.ofList (line.extract r.start r.stop)) = some r.components) ∧
    (∀ (column : Int) (r : Reference), at? line column = some r ↔
      r ∈ find line ∧ r.start ≤ column ∧ column < r.stop) ∧
    (∀ t : Template, t.written = line → find line = (t.innermost 0).filterMap ofSpan?) ∧
    ∀ {τ : Type} (s : Service τ) (disk : Disk) (p : Path) (text : List Char) (n : Nat)
      (column : Int) (filter : Option String),
      s.host.read disk p = .ok text → (lines text)[n]? = some line →
      (∀ start stop body, IsInterpolation line start stop body → start ≤ column → column < stop →
        s.resolveAt disk p n column filter =
          s.resolveReference (.ofList (line.extract start stop)) filter
            (some (s.host.documentId p))) ∧
      ((∀ start stop body, IsInterpolation line start stop body →
          ¬ (start ≤ column ∧ column < stop)) →
        s.resolveAt disk p n column filter = (s, .ok [])) := by
  refine ⟨?_, fun r => mem_find_iff, ?_, ?_, ?_⟩
  · apply (find_ascending line).imp_of_mem
    intro r other member _ before
    exact ⟨Nat.lt_of_lt_of_le (start_lt_stop member) before, before⟩
  · intro column r
    rw [at?_eq_some_iff, covers_iff]
  · rintro t rfl
    exact find_written t
  · intro τ s disk p text n column filter read here
    refine ⟨fun start stop body at_ from_ before => ?_, fun apart => ?_⟩
    · exact s.resolveAt_of_isInterpolation read here at_ from_ before filter
    · exact s.resolveAt_of_apart read here apart filter

def nestedLine : String :=
  "k: $\x7bf:$\x7b b.c \x7d,$\x7bx y\x7d\x7d"

def nestedText : FileTree :=
  ⟨.directory [("w", .directory [("a.yaml", .file nestedLine.toUTF8.toList)])]⟩

theorem references_exact_nested :
    let line := nestedLine.toList
    let p := Path.ofString "/w/a.yaml"
    let s : Service Nat := ofSettings (.ofString "/") 3 .default false none
    let r : Reference := ⟨"b.c", ["b", "c"], 7, 15⟩
    r ∈ find line ∧ at? line 14 = some r ∧
      s.host.read (.ofTree nestedText) p = .ok line ∧ (lines line)[0]? = some line ∧
      s.resolveAt (.ofTree nestedText) p 0 14 none =
        s.resolveReference "$\x7b b.c \x7d" none (some "/w/a.yaml") ∧
      s.resolveAt (.ofTree nestedText) p 0 16 none =
        s.resolveReference "$\x7bx y\x7d" none (some "/w/a.yaml") := by
  intro line p s r
  have first : IsInterpolation line 7 15 " b.c ".toList :=
    ⟨by decide, by decide, by decide, by decide⟩
  have second : IsInterpolation line 16 22 "x y".toList :=
    ⟨by decide, by decide, by decide, by decide⟩
  obtain ⟨-, members, covering, -, resolved⟩ := references_exact line
  have member : r ∈ find line := (members r).mpr ⟨_, first, by decide +kernel, by decide +kernel⟩
  have read : s.host.read (.ofTree nestedText) p = .ok line :=
    toOption_eq_some.mp (by decide +kernel)
  have here : (lines line)[0]? = some line := by decide +kernel
  refine ⟨member, (covering 14 r).mpr ⟨member, by decide, by decide⟩, read, here, ?_, ?_⟩
  · exact (resolved s _ _ line 0 14 none read here).1 7 15 _ first (by decide) (by decide)
  · exact (resolved s _ _ line 0 16 none read here).1 16 22 _ second (by decide) (by decide)

end KeyAtlas.Service
