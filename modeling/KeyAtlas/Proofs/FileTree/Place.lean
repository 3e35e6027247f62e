import KeyAtlas.Proofs.FileTree.Proper
import KeyAtlas.Proofs.OrderedMap

namespace KeyAtlas

namespace Node

def isDirectoryAt (node : Node) (place : List String) : Bool :=
  (node.find? place).any (·.isDirectory)

theorem isDirectoryAt_directory_cons (children : List (String × Node)) (name : String)
    (rest : List String) : (directory children).isDirectoryAt (name :: rest) =
      (children.lookup name).any fun child => child.isDirectoryAt rest := by
  cases found : children.lookup name <;> simp [isDirectoryAt, find?, found]

theorem put_cons_eq_ok {children : List (String × Node)} {name : String} {below : List String}
    {new node' : Node} (done : (directory children).put (name :: below) new = .ok node') :
    ∃ child, ((children.lookup name).getD (directory [])).put below new = .ok child ∧
      node' = directory (OrderedMap.putEntry name child children) := by
  rw [put] at done
  split at done
  · rename_i child made
    cases done
    exact ⟨child, made, rfl⟩
  · cases done

theorem find?_put {node node' new : Node} {place : List String}
    (done : node.put place new = .ok node') (rest : List String) :
    node'.find? (place ++ rest) = new.find? rest := by
  induction place generalizing node node' with
  | nil =>
    cases node <;> cases done <;> rfl
  | cons name below ih =>
    cases node with
    | file content => cases done
    | directory children =>
      obtain ⟨child, made, same⟩ := put_cons_eq_ok done
      subst same
      rw [List.cons_append, find?, OrderedMap.lookup_putEntry, beq_self_eq_true, if_pos rfl]
      exact ih made

theorem put_apart {node node' new : Node} {place other : List String}
    (done : node.put place new = .ok node') (apart : ¬ place <+: other) :
    node'.content? other = node.content? other ∧
      (node.isDirectoryAt other = true → node'.isDirectoryAt other = true) := by
  induction place generalizing node node' other with
  | nil => exact absurd List.nil_prefix apart
  | cons name below ih =>
    cases node with
    | file content => cases done
    | directory children =>
      obtain ⟨child, made, same⟩ := put_cons_eq_ok done
      subst same
      cases other with
      | nil => exact ⟨rfl, fun _ => rfl⟩
      | cons first rest =>
        rw [content?_directory_cons, content?_directory_cons, isDirectoryAt_directory_cons,
          isDirectoryAt_directory_cons, OrderedMap.lookup_putEntry]
        by_cases same : first = name
        · subst same
          have inner := ih made fun prefixed => apart (List.prefix_cons_inj first |>.mpr prefixed)
          rw [beq_self_eq_true, if_pos rfl]
          cases found : children.lookup first with
          | some old => simpa [found] using inner
          | none =>
            have absent : (directory []).content? rest = none := by cases rest <;> rfl
            simpa [found, absent] using inner.1
        · rw [if_neg (by simpa using same)]
          exact ⟨rfl, id⟩

theorem allProper_putEntry {name : String} {child : Node} {children : List (String × Node)}
    (isName : Path.isName name = true) (childProper : child.isProper = true)
    (proper : allProper children = true) :
    allProper (OrderedMap.putEntry name child children) = true := by
  induction children with
  | nil => exact allProper_cons_iff.mpr ⟨isName, List.not_mem_nil, childProper, rfl⟩
  | cons entry rest ih =>
    obtain ⟨first, node⟩ := entry
    obtain ⟨firstName, fresh, nodeProper, restProper⟩ := allProper_cons_iff.mp proper
    rw [OrderedMap.putEntry]
    split
    · exact allProper_cons_iff.mpr ⟨firstName, fresh, childProper, restProper⟩
    · rename_i other
      refine allProper_cons_iff.mpr ⟨firstName, fun member => ?_, nodeProper, ih restProper⟩
      rcases OrderedMap.mem_keys_putEntry.mp member with same | later
      · exact other (beq_iff_eq.mpr same)
      · exact fresh later

theorem isProper_put {node node' new : Node} {place : List String}
    (names : ∀ part ∈ place, Path.isName part = true) (newProper : new.isProper = true)
    (proper : node.isProper = true) (done : node.put place new = .ok node') :
    node'.isProper = true := by
  induction place generalizing node node' with
  | nil =>
    cases node <;> cases done <;> exact newProper
  | cons name below ih =>
    obtain ⟨isName, belowNames⟩ := List.forall_mem_cons.mp names
    cases node with
    | file content => cases done
    | directory children =>
      obtain ⟨child, made, same⟩ := put_cons_eq_ok done
      subst same
      have startProper : ((children.lookup name).getD (directory [])).isProper = true := by
        cases found : children.lookup name with
        | none => rfl
        | some old => exact (isName_of_lookup proper found).2
      exact allProper_putEntry isName (ih belowNames startProper made) proper

theorem lookup_without (name other : String) (children : List (String × Node)) :
    (children.filter fun c => c.1 ≠ name).lookup other =
      if other = name then none else children.lookup other := by
  induction children with
  | nil => simp
  | cons entry rest ih =>
    obtain ⟨first, node⟩ := entry
    rw [List.filter_cons]
    by_cases kept : first = name
    · subst kept
      by_cases same : other = first
      · simpa [same] using ih
      · have differs : (other == first) = false := by simpa using same
        simpa [same, List.lookup_cons, differs] using ih
    · by_cases same : other = first
      · subst same
        simp [kept]
      · have differs : (other == first) = false := by simpa using same
        simpa [kept, List.lookup_cons, differs] using ih

theorem allProper_without (name : String) {children : List (String × Node)}
    (proper : allProper children = true) :
    allProper (children.filter fun c => c.1 ≠ name) = true := by
  induction children with
  | nil => rfl
  | cons entry rest ih =>
    obtain ⟨first, node⟩ := entry
    obtain ⟨firstName, fresh, nodeProper, restProper⟩ := allProper_cons_iff.mp proper
    rw [List.filter_cons]
    split
    · refine allProper_cons_iff.mpr ⟨firstName, fun member => fresh ?_, nodeProper, ih restProper⟩
      obtain ⟨entry, kept, same⟩ := List.mem_map.mp member
      exact same ▸ List.mem_map_of_mem (List.mem_of_mem_filter kept)
    · exact ih restProper

theorem remove_cons_eq_ok {children : List (String × Node)} {name : String} {below : List String}
    {node' : Node} (done : (directory children).remove (name :: below) = .ok node') :
    below = [] ∧ node' = directory (children.filter fun c => c.1 ≠ name) ∨
      ∃ child kept, below ≠ [] ∧ children.lookup name = some child ∧
        child.remove below = .ok kept ∧
        node' = directory (OrderedMap.putEntry name kept children) := by
  cases below with
  | nil =>
    rw [remove] at done
    split at done
    · cases done
      exact .inl ⟨rfl, rfl⟩
    · cases done
  | cons next below =>
    rw [remove] at done
    split at done
    · cases done
    · rename_i child found
      split at done
      · rename_i kept removed
        cases done
        exact .inr ⟨child, kept, List.cons_ne_nil _ _, found, removed, rfl⟩
      · cases done

theorem find?_remove {node node' : Node} {place : List String} (nonempty : place ≠ [])
    (done : node.remove place = .ok node') (rest : List String) :
    node'.find? (place ++ rest) = none := by
  induction place generalizing node node' with
  | nil => exact absurd rfl nonempty
  | cons name below ih =>
    cases node with
    | file content => cases below <;> cases done
    | directory children =>
      rcases remove_cons_eq_ok done with ⟨last, rfl⟩ | ⟨child, kept, more, _, removed, rfl⟩
      · rw [last, List.cons_append, find?, lookup_without, if_pos rfl]
      · rw [List.cons_append, find?, OrderedMap.lookup_putEntry, beq_self_eq_true, if_pos rfl]
        exact ih more removed

theorem remove_apart {node node' : Node} {place other : List String}
    (done : node.remove place = .ok node') (apart : ¬ place <+: other) :
    node'.content? other = node.content? other ∧
      node'.isDirectoryAt other = node.isDirectoryAt other := by
  induction place generalizing node node' other with
  | nil => exact absurd List.nil_prefix apart
  | cons name below ih =>
    cases node with
    | file content => cases below <;> cases done
    | directory children =>
      rcases remove_cons_eq_ok done with ⟨last, rfl⟩ | ⟨child, kept, _, found, removed, rfl⟩
      · cases other with
        | nil => exact ⟨rfl, rfl⟩
        | cons first rest =>
          have differs : first ≠ name := by
            intro same
            exact apart ⟨rest, by rw [last, same, List.singleton_append]⟩
          rw [content?_directory_cons, content?_directory_cons, isDirectoryAt_directory_cons,
            isDirectoryAt_directory_cons, lookup_without, if_neg differs]
          exact ⟨rfl, rfl⟩
      · cases other with
        | nil => exact ⟨rfl, rfl⟩
        | cons first rest =>
          rw [content?_directory_cons, content?_directory_cons, isDirectoryAt_directory_cons,
            isDirectoryAt_directory_cons, OrderedMap.lookup_putEntry]
          by_cases same : first = name
          · subst same
            have inner := ih removed fun prefixed =>
              apart (List.prefix_cons_inj first |>.mpr prefixed)
            simpa [found] using inner
          · rw [if_neg (by simpa using same)]
            exact ⟨rfl, rfl⟩

theorem isProper_remove {node node' : Node} {place : List String}
    (proper : node.isProper = true) (done : node.remove place = .ok node') :
    node'.isProper = true := by
  induction place generalizing node node' with
  | nil =>
    cases node <;> cases done <;> exact proper
  | cons name below ih =>
    cases node with
    | file content => cases below <;> cases done
    | directory children =>
      rcases remove_cons_eq_ok done with ⟨_, rfl⟩ | ⟨child, kept, _, found, removed, rfl⟩
      · exact allProper_without name proper
      · obtain ⟨isName, childProper⟩ := isName_of_lookup proper found
        exact allProper_putEntry isName (ih childProper removed) proper

end Node

end KeyAtlas
