import KeyAtlas.FileTree
import KeyAtlas.Proofs.Path.Plain

namespace KeyAtlas

namespace Node

mutual

def isProper : Node → Bool
  | .file _ => true
  | .directory children => allProper children

def allProper : List (String × Node) → Bool
  | [] => true
  | (name, node) :: rest =>
    Path.isName name && !(rest.map Prod.fst).contains name && isProper node && allProper rest

end

@[simp] theorem find?_nil (node : Node) : node.find? [] = some node := by
  cases node <;> rfl

def content? (node : Node) (place : List String) : Option (List UInt8) :=
  match node.find? place with
  | some (.file content) => some content
  | _ => none

@[simp] theorem content?_file_nil (content : List UInt8) :
    (file content).content? [] = some content :=
  rfl

@[simp] theorem content?_file_cons (content : List UInt8) (name : String) (rest : List String) :
    (file content).content? (name :: rest) = none :=
  rfl

@[simp] theorem content?_directory_nil (children : List (String × Node)) :
    (directory children).content? [] = none :=
  rfl

theorem content?_directory_cons (children : List (String × Node)) (name : String)
    (rest : List String) : (directory children).content? (name :: rest) =
      (children.lookup name).bind fun child => child.content? rest := by
  cases found : children.lookup name <;> simp [content?, find?, found]

/-- The names of the directories that a walk passes before it comes to a place below `above`. -/
def Passes (enters : List String → Bool) (above : List String) : List String → Prop
  | [] => True
  | [_] => True
  | name :: next :: rest =>
    enters (above ++ [name]) = true ∧ Passes enters (above ++ [name]) (next :: rest)

theorem passes_iff {enters : List String → Bool} {above rest : List String} :
    Passes enters above rest ↔ ∀ upper lower, upper ≠ [] → lower ≠ [] → rest = upper ++ lower →
      enters (above ++ upper) = true := by
  induction rest generalizing above with
  | nil => simp +contextual [Passes]
  | cons name rest ih =>
    cases rest with
    | nil =>
      refine ⟨fun _ upper lower nonempty nonempty' whole => ?_, fun _ => trivial⟩
      cases upper with
      | nil => exact absurd rfl nonempty
      | cons first upper => simp_all
    | cons next rest =>
      rw [Passes, ih]
      constructor
      · intro passes upper lower nonempty nonempty' whole
        cases upper with
        | nil => exact absurd rfl nonempty
        | cons first upper =>
          obtain ⟨rfl, later⟩ := List.cons_eq_cons.mp whole
          cases upper with
          | nil => exact passes.1
          | cons second upper =>
            have further := passes.2 (second :: upper) lower (List.cons_ne_nil _ _) nonempty' later
            rwa [List.append_assoc, List.singleton_append] at further
      · intro all
        refine ⟨all [name] (next :: rest) (List.cons_ne_nil _ _) (List.cons_ne_nil _ _) rfl,
          fun upper lower nonempty nonempty' whole => ?_⟩
        have further := all (name :: upper) lower (List.cons_ne_nil _ _) nonempty' (by rw [whole]; rfl)
        rwa [List.append_assoc, List.singleton_append]

theorem allProper_cons_iff {name : String} {node : Node} {rest : List (String × Node)} :
    allProper ((name, node) :: rest) = true ↔
      Path.isName name = true ∧ name ∉ rest.map Prod.fst ∧ node.isProper = true ∧
        allProper rest = true := by
  rw [allProper, Bool.and_eq_true, Bool.and_eq_true, Bool.and_eq_true, Bool.not_eq_true',
    ← Bool.not_eq_true, List.contains_iff_mem, and_assoc, and_assoc]

theorem mem_names_of_lookup {children : List (String × Node)} {name : String} {child : Node}
    (found : children.lookup name = some child) : name ∈ children.map Prod.fst := by
  obtain ⟨before, after, rfl, _⟩ := List.lookup_eq_some_iff.mp found
  simp

theorem isName_of_lookup {children : List (String × Node)} (proper : allProper children = true)
    {name : String} {child : Node} (found : children.lookup name = some child) :
    Path.isName name = true ∧ child.isProper = true := by
  induction children with
  | nil => cases found
  | cons entry rest ih =>
    obtain ⟨first, node⟩ := entry
    obtain ⟨isName, _, nodeProper, restProper⟩ := allProper_cons_iff.mp proper
    rw [List.lookup_cons] at found
    split at found
    · rename_i same
      cases found
      exact ⟨eq_of_beq same ▸ isName, nodeProper⟩
    · exact ih restProper found

variable (enters takes : List String → Bool)

mutual

theorem mem_files (node : Node) (proper : node.isProper = true) (above place : List String) :
    place ∈ files enters takes above node ↔
      ∃ rest, place = above ++ rest ∧ (node.content? rest).isSome ∧ takes place = true ∧
        (rest ≠ [] → enters above = true ∧ Passes enters above rest) := by
  cases node with
  | file content =>
    rw [files]
    constructor
    · intro member
      split at member
      · rename_i taken
        cases List.mem_singleton.mp member
        exact ⟨[], by simp, rfl, taken, fun nonempty => absurd rfl nonempty⟩
      · cases member
    · intro facts
      obtain ⟨rest, rfl, found, taken, _⟩ := facts
      cases rest with
      | nil => simpa using taken
      | cons name rest => cases found
  | directory children =>
    rw [files]
    have among := mem_filesAmong children proper above place
    split
    · rename_i entered
      rw [among]
      constructor
      · intro facts
        obtain ⟨rest, nonempty, same, found, taken, passes⟩ := facts
        exact ⟨rest, same, found, taken, fun _ => ⟨entered, passes⟩⟩
      · intro facts
        obtain ⟨rest, same, found, taken, passes⟩ := facts
        have nonempty : rest ≠ [] := by
          intro empty
          subst empty
          cases found
        exact ⟨rest, nonempty, same, found, taken, (passes nonempty).2⟩
    · rename_i refused
      refine ⟨nofun, ?_⟩
      intro facts
      obtain ⟨rest, same, found, taken, passes⟩ := facts
      have nonempty : rest ≠ [] := by
        intro empty
        subst empty
        cases found
      exact absurd (passes nonempty).1 refused

theorem mem_filesAmong (children : List (String × Node)) (proper : allProper children = true)
    (above place : List String) :
    place ∈ filesAmong enters takes above children ↔
      ∃ rest, rest ≠ [] ∧ place = above ++ rest ∧
        ((directory children).content? rest).isSome ∧ takes place = true ∧
        Passes enters above rest := by
  cases children with
  | nil =>
    rw [filesAmong]
    refine ⟨nofun, ?_⟩
    intro facts
    obtain ⟨rest, nonempty, _, found, _⟩ := facts
    cases rest with
    | nil => exact absurd rfl nonempty
    | cons name rest => cases found
  | cons entry others =>
    obtain ⟨name, node⟩ := entry
    obtain ⟨_, fresh, nodeProper, othersProper⟩ := allProper_cons_iff.mp proper
    rw [filesAmong, List.mem_append, mem_files node nodeProper (above ++ [name]) place,
      mem_filesAmong others othersProper above place]
    constructor
    · intro either
      rcases either with
        ⟨rest, rfl, found, taken, passes⟩ | ⟨rest, nonempty, rfl, found, taken, passes⟩
      · refine ⟨name :: rest, List.cons_ne_nil _ _, by simp, ?_, taken, ?_⟩
        · simpa [content?_directory_cons] using found
        · cases rest with
          | nil => trivial
          | cons next rest => exact passes (List.cons_ne_nil _ _)
      · refine ⟨rest, nonempty, rfl, ?_, taken, passes⟩
        cases rest with
        | nil => exact absurd rfl nonempty
        | cons first rest =>
          rw [content?_directory_cons] at found ⊢
          have other : (first == name) = false := by
            rw [beq_eq_false_iff_ne]
            intro empty
            subst empty
            obtain ⟨content, there⟩ := Option.isSome_iff_exists.mp found
            obtain ⟨child, looked, _⟩ := Option.bind_eq_some_iff.mp there
            exact fresh (mem_names_of_lookup looked)
          rwa [List.lookup_cons, other]
    · intro facts
      obtain ⟨rest, nonempty, rfl, found, taken, passes⟩ := facts
      cases rest with
      | nil => exact absurd rfl nonempty
      | cons first rest =>
        rw [content?_directory_cons, List.lookup_cons] at found
        split at found
        · rename_i same
          cases eq_of_beq same
          left
          refine ⟨rest, by simp, found, taken, ?_⟩
          intro longer
          cases rest with
          | nil => exact absurd rfl longer
          | cons next rest => exact passes
        · right
          refine ⟨first :: rest, nonempty, rfl, ?_, taken, passes⟩
          rwa [content?_directory_cons]

end

theorem find?_append (node : Node) (above rest : List String) :
    node.find? (above ++ rest) = (node.find? above).bind fun found => found.find? rest := by
  induction above generalizing node with
  | nil => cases node <;> rfl
  | cons name above ih =>
    cases node with
    | file content => rfl
    | directory children =>
      cases looked : children.lookup name with
      | none => simp [find?, looked]
      | some child => simpa [find?, looked] using ih child

theorem content?_append (node : Node) (above rest : List String) :
    node.content? (above ++ rest) = (node.find? above).bind fun found => found.content? rest := by
  rw [content?, find?_append]
  cases node.find? above <;> rfl

theorem isProper_of_find? {node found : Node} (proper : node.isProper = true) {place : List String}
    (there : node.find? place = some found) :
    found.isProper = true ∧ ∀ name ∈ place, Path.isName name = true := by
  induction place generalizing node with
  | nil =>
    cases there
    exact ⟨proper, nofun⟩
  | cons name rest ih =>
    cases node with
    | file content => cases there
    | directory children =>
      cases looked : children.lookup name with
      | none => simp [find?, looked] at there
      | some child =>
        obtain ⟨isName, childProper⟩ := isName_of_lookup proper looked
        have below : child.find? rest = some found := by simpa [find?, looked] using there
        obtain ⟨foundProper, names⟩ := ih childProper below
        exact ⟨foundProper, List.forall_mem_cons.mpr ⟨isName, names⟩⟩

theorem content?_eq_some_iff {node : Node} {place : List String} {content : List UInt8} :
    node.content? place = some content ↔ node.find? place = some (.file content) := by
  rw [content?]
  split
  · rename_i other there
    simp [there]
  · rename_i noFile
    exact ⟨nofun, fun there => (noFile content there).elim⟩

end Node

namespace FileTree

def content? (t : FileTree) (p : Path) : Option (List UInt8) :=
  t.top.content? p.parts

def isProper (t : FileTree) : Bool :=
  t.top.isDirectory && t.top.isProper

end FileTree

end KeyAtlas
