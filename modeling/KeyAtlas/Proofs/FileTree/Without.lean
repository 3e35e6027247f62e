import KeyAtlas.Proofs.FileTree.Reach

namespace KeyAtlas

namespace Node

mutual

/-- What is left of a node without the files at some of the places below it. -/
def without (gone : List String → Bool) : Node → Option Node
  | .file content => if gone [] then none else some (.file content)
  | .directory children => some (.directory (withoutAmong gone children))

def withoutAmong (gone : List String → Bool) : List (String × Node) → List (String × Node)
  | [] => []
  | (name, node) :: rest =>
    match without (fun below => gone (name :: below)) node with
    | none => withoutAmong gone rest
    | some kept => (name, kept) :: withoutAmong gone rest

end

theorem mem_names_withoutAmong {gone : List String → Bool} {children : List (String × Node)}
    {name : String} (member : name ∈ (withoutAmong gone children).map Prod.fst) :
    name ∈ children.map Prod.fst := by
  induction children with
  | nil => exact member
  | cons entry rest ih =>
    obtain ⟨first, node⟩ := entry
    rw [withoutAmong] at member
    split at member
    · exact List.mem_cons_of_mem _ (ih member)
    · rcases List.mem_cons.mp member with same | later
      · exact same ▸ List.mem_cons_self
      · exact List.mem_cons_of_mem _ (ih later)

mutual

theorem isProper_without (gone : List String → Bool) (node kept : Node)
    (proper : node.isProper = true) (left : node.without gone = some kept) :
    kept.isProper = true := by
  cases node with
  | file content =>
    rw [without] at left
    split at left <;> cases left
    rfl
  | directory children =>
    cases left
    exact allProper_withoutAmong gone children proper

theorem allProper_withoutAmong (gone : List String → Bool) (children : List (String × Node))
    (proper : allProper children = true) : allProper (withoutAmong gone children) = true := by
  cases children with
  | nil => rfl
  | cons entry rest =>
    obtain ⟨name, node⟩ := entry
    obtain ⟨isName, fresh, nodeProper, restProper⟩ := allProper_cons_iff.mp proper
    have later := allProper_withoutAmong gone rest restProper
    rw [withoutAmong]
    split
    · exact later
    · rename_i kept left
      exact allProper_cons_iff.mpr ⟨isName, fun member => fresh (mem_names_withoutAmong member),
        isProper_without _ node kept nodeProper left, later⟩

end

theorem lookup_withoutAmong (gone : List String → Bool) {children : List (String × Node)}
    (proper : allProper children = true) (name : String) :
    (withoutAmong gone children).lookup name =
      (children.lookup name).bind fun child => child.without fun below => gone (name :: below) := by
  induction children with
  | nil => rfl
  | cons entry rest ih =>
    obtain ⟨first, node⟩ := entry
    obtain ⟨_, fresh, _, restProper⟩ := allProper_cons_iff.mp proper
    have later := ih restProper
    rw [withoutAmong, List.lookup_cons]
    by_cases same : name = first
    · subst same
      -- A second child of this name would now come to light, but there is none.
      have absent : rest.lookup name = none := by
        rw [Option.eq_none_iff_forall_not_mem]
        exact fun child found => fresh (mem_names_of_lookup found)
      rw [absent] at later
      rw [beq_self_eq_true]
      cases left : node.without fun below => gone (name :: below) with
      | none => simpa [left] using later
      | some kept => simp [left]
    · have other : (name == first) = false := by simpa using same
      rw [other]
      split
      · exact later
      · rw [List.lookup_cons, other]
        exact later

theorem find?_without (gone : List String → Bool) {node : Node} (proper : node.isProper = true)
    (place : List String) :
    (node.without gone).bind (fun kept => kept.find? place) =
      (node.find? place).bind fun found => found.without fun below => gone (place ++ below) := by
  induction place generalizing node gone with
  | nil => simp
  | cons name rest ih =>
    cases node with
    | file content =>
      rw [without]
      split <;> rfl
    | directory children =>
      have looked := lookup_withoutAmong gone proper name
      cases found : children.lookup name with
      | none => simp [without, find?, looked, found]
      | some child =>
        have below := ih (fun below => gone (name :: below)) (isName_of_lookup proper found).2
        rw [found, Option.bind_some] at looked
        rw [find?, found, without, Option.bind_some, find?, looked]
        cases left : child.without fun below => gone (name :: below) with
        | none => simpa [left] using below
        | some kept => simpa [left] using below

end Node

namespace FileTree

variable {t : FileTree}

def without (t : FileTree) (gone : List String → Bool) : FileTree :=
  ⟨(t.top.without gone).getD (.directory [])⟩

variable (gone : List String → Bool) (proper : t.isProper = true)

include proper

theorem top_without : t.top.without gone = some (t.without gone).top := by
  rw [isProper, Bool.and_eq_true] at proper
  rw [without]
  cases top : t.top with
  | file content => simp [top, Node.isDirectory] at proper
  | directory children => rfl

theorem isProper_without : (t.without gone).isProper = true := by
  have left := top_without gone proper
  rw [isProper, Bool.and_eq_true] at proper ⊢
  refine ⟨?_, Node.isProper_without gone t.top _ proper.2 left⟩
  cases top : t.top with
  | file content => simp [top, Node.isDirectory] at proper
  | directory children => simp [without, top, Node.without, Node.isDirectory]

theorem find?_without (place : List String) :
    (t.without gone).top.find? place = (t.top.find? place).bind fun found =>
      found.without fun below => gone (place ++ below) := by
  have left := top_without gone proper
  rw [isProper, Bool.and_eq_true] at proper
  have found := Node.find?_without gone proper.2 place
  rwa [left, Option.bind_some] at found

theorem content?_without (p : Path) :
    (t.without gone).content? p = if gone p.parts then none else t.content? p := by
  rw [content?, Node.content?, find?_without gone proper, content?, Node.content?]
  cases t.top.find? p.parts with
  | none => simp
  | some node =>
    cases node with
    | directory children => simp [Node.without]
    | file content => cases here : gone p.parts <;> simp [Node.without, here]

theorem isDirectory_without (p : Path) : (t.without gone).isDirectory p = t.isDirectory p := by
  rw [isDirectory, find?, find?_without gone proper, isDirectory, find?]
  cases t.top.find? p.parts with
  | none => rfl
  | some node =>
    cases node with
    | directory children => rfl
    | file content => cases here : gone p.parts <;> simp [Node.without, Node.isDirectory, here]

theorem follow_without (place rest : List String) :
    (t.without gone).follow place rest = t.follow place rest ∨
      t.follow place rest = .error .notDirectory ∧
        (t.without gone).follow place rest = .error .notFound := by
  induction rest generalizing place with
  | nil => exact .inl rfl
  | cons part rest ih =>
    rw [follow, follow, find?_without gone proper]
    cases t.top.find? place with
    | none => exact .inl rfl
    | some node =>
      cases node with
      | file content => cases here : gone place <;> simp [Node.without, here]
      | directory children =>
        simp only [Option.bind_some, Node.without]
        split
        · exact .inl rfl
        · exact ih (stepTo place part)

theorem locate_without (p : Path) :
    (t.without gone).locate p = t.locate p ∨
      t.locate p = .error .notDirectory ∧ (t.without gone).locate p = .error .notFound := by
  rw [locate, locate]
  cases checkNames p with
  | error e => exact .inl rfl
  | ok checked => exact follow_without gone proper [] p.parts

theorem leadsToDirectory_without (p : Path) :
    (t.without gone).leadsToDirectory p = t.leadsToDirectory p := by
  rw [leadsToDirectory, leadsToDirectory, reach, reach]
  rcases locate_without gone proper p with same | ⟨before, after⟩
  · rw [same]
    cases t.locate p with
    | error e => rfl
    | ok place =>
      simp only [bind, Except.bind]
      rw [find?_without gone proper]
      cases t.top.find? place with
      | none => rfl
      | some node =>
        cases node with
        | directory children => rfl
        | file content =>
          cases here : gone place
          · simp [Node.without, here]
          · simp [Node.without, Node.isDirectory, here, throw, throwThe, MonadExceptOf.throw, pure,
              Except.pure]
  · rw [before, after]
    rfl

end FileTree

end KeyAtlas
