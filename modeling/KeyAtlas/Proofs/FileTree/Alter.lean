import KeyAtlas.FileTree.Edit
import KeyAtlas.Proofs.FileTree.Place
import KeyAtlas.Proofs.FileTree.Reach
import Mathlib.Logic.Function.Basic

namespace KeyAtlas

namespace FileTree

/-- The later tree holds these contents, and still the directories of the earlier one. -/
structure Alters (t t' : FileTree) (contents : List String → Option (List UInt8)) : Prop where
  content : ∀ place, t'.top.content? place = contents place
  directories : ∀ place, t.top.isDirectoryAt place = true → t'.top.isDirectoryAt place = true
  proper : t.isProper = true → t'.isProper = true

variable {t t' t'' : FileTree}

theorem Alters.refl (t : FileTree) : t.Alters t t.top.content? :=
  ⟨fun _ => rfl, fun _ => id, id⟩

theorem Alters.trans {contents contents' : List String → Option (List UInt8)}
    (first : t.Alters t' contents) (second : t'.Alters t'' contents') : t.Alters t'' contents' where
  content := second.content
  directories place there := second.directories place (first.directories place there)
  proper isProper := second.proper (first.proper isProper)

theorem Alters.leadsToDirectory {contents : List String → Option (List UInt8)}
    (altered : t.Alters t' contents) {p : Path}
    (names : ∀ part ∈ p.parts, Path.isName part = true)
    (leads : t.leadsToDirectory p = .ok true) : t'.leadsToDirectory p = .ok true := by
  obtain ⟨fits, there⟩ := (leadsToDirectory_iff names).mp leads
  exact (leadsToDirectory_iff names).mpr ⟨fits, altered.directories p.parts there⟩

theorem isProper_iff :
    t.isProper = true ↔ t.top.isDirectoryAt [] = true ∧ t.top.isProper = true := by
  rw [isProper, Bool.and_eq_true, Node.isDirectoryAt, Node.find?_nil, Option.any_some]

theorem put_ok {place : List String} {node : Node} (done : t.put place node = .ok t') :
    t.top.put place node = .ok t'.top := by
  rw [put] at done
  cases placed : t.top.put place node with
  | error e => simp [placed, Except.map] at done
  | ok top =>
    simp only [placed, Except.map] at done
    cases done
    rfl

theorem alters_of_put {place : List String} {node : Node}
    (names : ∀ part ∈ place, Path.isName part = true) (nodeProper : node.isProper = true)
    (free : t.top.isDirectoryAt place = false) (done : t.put place node = .ok t') :
    t.Alters t' fun other =>
      if place <+: other then node.content? (other.drop place.length) else t.top.content? other := by
  have placed := put_ok done
  have kept : ∀ other, t.top.isDirectoryAt other = true → t'.top.isDirectoryAt other = true := by
    intro other there
    refine (Node.put_apart placed ?_).2 there
    intro facts
    obtain ⟨rest, rfl⟩ := facts
    rw [Node.isDirectoryAt, Node.find?_append] at there
    rw [Node.isDirectoryAt] at free
    cases found : t.top.find? place with
    | none => simp [found] at there
    | some above =>
      cases above with
      | directory children => simp [found, Node.isDirectory] at free
      | file content => cases rest <;> simp [found, Node.find?, Node.isDirectory] at there
  refine ⟨fun other => ?_, kept, fun proper => ?_⟩
  · split
    · rename_i below
      obtain ⟨rest, rfl⟩ := below
      rw [Node.content?, Node.find?_put placed, List.drop_left, Node.content?]
    · rename_i apart
      exact (Node.put_apart placed apart).1
  · obtain ⟨top, isProper⟩ := isProper_iff.mp proper
    exact isProper_iff.mpr ⟨kept [] top, Node.isProper_put names nodeProper isProper placed⟩

theorem content?_below_file {place rest : List String} (free : t.top.isDirectoryAt place = false)
    (nonempty : rest ≠ []) : t.top.content? (place ++ rest) = none := by
  rw [Node.isDirectoryAt] at free
  rw [Node.content?_append]
  cases found : t.top.find? place with
  | none => rfl
  | some above =>
    cases above with
    | directory children => simp [found, Node.isDirectory] at free
    | file content =>
      cases rest with
      | nil => exact absurd rfl nonempty
      | cons name rest => rfl

theorem alters_of_put_directory {place : List String}
    (names : ∀ part ∈ place, Path.isName part = true) (absent : t.top.find? place = none)
    (done : t.put place (.directory []) = .ok t') : t.Alters t' t.top.content? := by
  have free : t.top.isDirectoryAt place = false := by rw [Node.isDirectoryAt, absent, Option.any_none]
  have altered := alters_of_put names rfl free done
  refine ⟨fun other => (altered.content other).trans ?_, altered.directories, altered.proper⟩
  split
  · rename_i below
    obtain ⟨rest, rfl⟩ := below
    rw [Node.content?_append, absent]
    cases rest <;> simp [Node.content?, Node.find?]
  · rfl

theorem alters_of_makeBelow {place rest : List String}
    (placeNames : ∀ part ∈ place, Path.isName part = true)
    (names : ∀ part ∈ rest, Path.isName part = true)
    (done : t.makeBelow place rest = (t', none)) : t.Alters t' t.top.content? := by
  induction rest generalizing t place with
  | nil =>
    cases done
    exact .refl _
  | cons part rest ih =>
    obtain ⟨isName, restNames⟩ := List.forall_mem_cons.mp names
    have nextNames : ∀ name ∈ place ++ [part], Path.isName name = true := by
      intro name member
      rcases List.mem_append.mp member with above | last
      · exact placeNames name above
      · exact List.mem_singleton.mp last ▸ isName
    rw [makeBelow, stepTo_of_isName isName] at done
    split at done
    · cases done
    · exact ih nextNames restNames done
    · cases done
    · rename_i absent
      split at done
      · rename_i made placed
        have first := alters_of_put_directory nextNames absent placed
        have second := ih nextNames restNames done
        refine ⟨fun other => ?_, (first.trans second).directories, (first.trans second).proper⟩
        rw [second.content, first.content]
      · cases done

theorem alters_of_write {p : Path} (plain : p.IsPlain) {content : List UInt8}
    (done : t.write p content = .ok t') :
    t.Alters t' (Function.update t.top.content? p.parts (some content)) := by
  rw [write] at done
  cases located : t.locate p with
  | error e => simp [located, bind, Except.bind] at done
  | ok place =>
    obtain ⟨rfl, _⟩ := locate_names plain.names located
    simp only [located, bind, Except.bind] at done
    split at done
    · cases done
    · rename_i noDirectory
      have free : t.top.isDirectoryAt p.parts = false := by
        rw [Node.isDirectoryAt]
        cases found : t.top.find? p.parts with
        | none => rfl
        | some node =>
          cases node with
          | directory children => exact (noDirectory children found).elim
          | file content => rfl
      have altered := alters_of_put plain.names rfl free done
      refine ⟨fun other => (altered.content other).trans ?_, altered.directories, altered.proper⟩
      by_cases same : other = p.parts
      · subst same
        simp
      · rw [Function.update_of_ne same]
        split
        · rename_i below
          obtain ⟨rest, rfl⟩ := below
          have nonempty : rest ≠ [] := by
            intro empty
            subst empty
            exact same (List.append_nil _)
          rw [content?_below_file free nonempty, List.drop_left]
          cases rest with
          | nil => exact absurd rfl nonempty
          | cons name rest => rfl
        · rfl

theorem alters_of_writeBelow {p : Path} (plain : p.IsPlain) {content : List UInt8}
    (done : t.writeBelow p content = .ok t') :
    t.Alters t' (Function.update t.top.content? p.parts (some content)) := by
  rw [writeBelow] at done
  cases made : t.makeDirectory p.parent with
  | error e => simp [made, bind, Except.bind] at done
  | ok between =>
    simp only [made, bind, Except.bind] at done
    have first : t.Alters between t.top.content? := by
      rw [makeDirectory] at made
      cases checked : checkNames p.parent with
      | error e => simp [checked, bind, Except.bind] at made
      | ok _ =>
        simp only [checked, bind, Except.bind] at made
        split at made
        · rename_i result
          cases made
          exact alters_of_makeBelow (List.forall_mem_nil _)
            (fun part member => plain.names part (List.dropLast_subset _ member)) result
        · cases made
    have second := alters_of_write plain done
    rw [funext first.content] at second
    exact first.trans second

theorem alters_of_remove {place : List String} {content : List UInt8} {kept : Node}
    (proper : t.isProper = true) (found : t.top.find? place = some (.file content))
    (removed : t.top.remove place = .ok kept) :
    t.Alters ⟨kept⟩ (Function.update t.top.content? place none) := by
  obtain ⟨top, isProper⟩ := isProper_iff.mp proper
  have nonempty : place ≠ [] := by
    intro empty
    rw [Node.isDirectoryAt, ← empty, found] at top
    cases top
  have free : t.top.isDirectoryAt place = false := by
    rw [Node.isDirectoryAt, found]
    rfl
  have directories : ∀ other, t.top.isDirectoryAt other = true →
      kept.isDirectoryAt other = true := by
    intro other there
    by_cases below : place <+: other
    · obtain ⟨rest, rfl⟩ := below
      rw [Node.isDirectoryAt, Node.find?_append, found] at there
      cases rest <;> cases there
    · rw [(Node.remove_apart removed below).2]
      exact there
  refine ⟨fun other => ?_, directories, fun _ => ?_⟩
  · by_cases same : other = place
    · have gone := Node.find?_remove nonempty removed []
      rw [List.append_nil] at gone
      rw [same, Function.update_self, Node.content?, gone]
    · rw [Function.update_of_ne same]
      by_cases below : place <+: other
      · obtain ⟨rest, rfl⟩ := below
        have deeper : rest ≠ [] := by
          intro empty
          subst empty
          exact same (List.append_nil _)
        rw [Node.content?, Node.find?_remove nonempty removed, content?_below_file free deeper]
      · exact (Node.remove_apart removed below).1
  · exact isProper_iff.mpr ⟨directories [] top, Node.isProper_remove isProper removed⟩

theorem alters_of_unlink {p : Path} (plain : p.IsPlain) (proper : t.isProper = true)
    (done : t.unlink p false = .ok t') :
    t.Alters t' (Function.update t.top.content? p.parts none) := by
  rw [unlink] at done
  cases located : t.locate p with
  | error e => simp [located, bind, Except.bind] at done
  | ok place =>
    obtain ⟨rfl, _⟩ := locate_names plain.names located
    simp only [located, bind, Except.bind] at done
    split at done
    · cases done
    · cases done
    · rename_i content found
      cases removed : t.top.remove p.parts with
      | error e => simp [removed, Except.map] at done
      | ok kept =>
        simp only [removed, Except.map] at done
        cases done
        exact alters_of_remove proper found removed

end FileTree

end KeyAtlas
