import KeyAtlas.CommandLine.Option
import KeyAtlas.Proofs.Result
import Mathlib.Data.List.Basic

namespace KeyAtlas.CommandLine

variable {p : Parsed} {args : List String} {specs : List OptionSpec} {interspersed : Bool}
  {name : String}

def ReadArgument.names (r : ReadArgument) : List String :=
  r.1.map (·.name) ++ r.2.toList.map (·.name)

def OptionSpec.NamedBy (spec : OptionSpec) (arg : List Char) : Prop :=
  (splitValue arg).1 = spec.long ∨ ∃ letter ∈ arg, spec.short = some letter

theorem readShort_named {run : List Char} {r : ReadArgument} (got : readShort specs run = .ok r) :
    ∀ name ∈ r.names, ∃ spec ∈ specs, spec.name = name ∧
      ∃ letter ∈ run, spec.short = some letter := by
  induction run generalizing r with
  | nil => cases got; nofun
  | cons letter rest ih =>
    rw [readShort] at got
    split at got
    · cases got
    · rename_i spec known
      have own : ∃ first ∈ specs, first.name = spec.name ∧
          ∃ other ∈ letter :: rest, first.short = some other :=
        ⟨spec, List.mem_of_find?_eq_some known, rfl, letter, List.mem_cons_self,
          by simpa using List.find?_some known⟩
      split at got
      · split at got <;> cases got <;> simpa [ReadArgument.names] using own
      · cases later : readShort specs rest with
        | error e => rw [later] at got; cases got
        | ok found =>
          rw [later] at got
          cases got
          intro name member
          rw [ReadArgument.names, List.map_cons, List.cons_append, List.mem_cons] at member
          rcases member with rfl | member
          · exact own
          · obtain ⟨first, there, same, other, inside, short⟩ := ih later name member
            exact ⟨first, there, same, other, List.mem_cons_of_mem _ inside, short⟩

theorem readArgument_named {arg : List Char} {r : ReadArgument}
    (got : readArgument specs arg = .ok r) :
    ∀ name ∈ r.names, ∃ spec ∈ specs, spec.name = name ∧ spec.NamedBy arg := by
  rw [readArgument] at got
  dsimp only at got
  split at got
  · rename_i spec known
    have own : ∃ first ∈ specs, first.name = spec.name ∧ first.NamedBy arg :=
      ⟨spec, List.mem_of_find?_eq_some known, rfl,
        .inl (by simpa [eq_comm] using List.find?_some known)⟩
    unfold readLong at got
    split at got <;> cases got <;> simpa [ReadArgument.names] using own
  · split at got
    · cases got
    · intro name member
      obtain ⟨spec, there, same, letter, inside, short⟩ := readShort_named got name member
      exact ⟨spec, there, same, .inr ⟨letter, List.mem_cons_of_mem _ inside, short⟩⟩
    · cases got
      nofun

def Named (specs : List OptionSpec) (args : List String) (name : String) : Prop :=
  ∃ spec ∈ specs, spec.name = name ∧ ∃ arg ∈ args, spec.NamedBy arg.toList

theorem Named.mono {others : List String} (within : args ⊆ others)
    (named : Named specs args name) : Named specs others name := by
  obtain ⟨spec, known, same, arg, there, here⟩ := named
  exact ⟨spec, known, same, arg, within there, here⟩

theorem Parsed.has_withOptions {given : List Given} :
    (p.withOptions given).has name ↔ name ∈ given.map (·.name) ∨ p.has name := by
  simp [has, withOptions]

/-- Every option that is read stands in the argument list. -/
theorem read_named (got : read specs interspersed args = .ok p) (given : p.has name) :
    Named specs args name := by
  fun_induction read specs interspersed args generalizing p with
  | case1 | case2 | case8 => cases got; cases given
  | case3 | case5 => cases got
  | case4 arg _ _ options rest readArg ih =>
    obtain ⟨q, later, rfl⟩ := map_eq_ok.mp got
    rcases Parsed.has_withOptions.mp given with own | given
    · obtain ⟨spec, known, same, here⟩ :=
        readArgument_named readArg name (List.mem_append_left _ own)
      exact ⟨spec, known, same, arg, List.mem_cons_self, here⟩
    · exact (ih later given).mono (List.subset_cons_self _ _)
  | case6 arg _ _ options waiting value rest readArg ih =>
    obtain ⟨q, later, rfl⟩ := map_eq_ok.mp got
    rcases Parsed.has_withOptions.mp given with own | given
    · obtain ⟨spec, known, same, here⟩ :=
        readArgument_named readArg name (by simpa [ReadArgument.names] using own)
      exact ⟨spec, known, same, arg, List.mem_cons_self, here⟩
    · have passed := List.subset_cons_of_subset arg (List.subset_cons_self value rest)
      exact (ih later given).mono passed
  | case7 arg rest _ _ _ ih =>
    obtain ⟨q, later, rfl⟩ := map_eq_ok.mp got
    exact (ih later given).mono (List.subset_cons_self _ _)

theorem read_operands_subset (got : read specs interspersed args = .ok p) : p.operands ⊆ args := by
  fun_induction read specs interspersed args generalizing p with
  | case1 => cases got; exact List.nil_subset _
  | case2 => cases got; exact List.subset_cons_self _ _
  | case3 | case5 => cases got
  | case4 arg _ _ options rest _ ih =>
    obtain ⟨q, later, rfl⟩ := map_eq_ok.mp got
    have passed := ih later
    exact List.subset_cons_of_subset arg passed
  | case6 arg _ _ options waiting value rest _ ih =>
    obtain ⟨q, later, rfl⟩ := map_eq_ok.mp got
    have passed := ih later
    exact List.subset_cons_of_subset arg (List.subset_cons_of_subset value passed)
  | case7 arg rest _ _ _ ih =>
    obtain ⟨q, later, rfl⟩ := map_eq_ok.mp got
    exact List.cons_subset_cons arg (ih later)
  | case8 => cases got; exact List.Subset.refl _

end KeyAtlas.CommandLine
