import Mathlib.Data.Option.Basic

namespace KeyAtlas

variable {ε α β : Type} {c : Except ε α}

theorem bind_eq_ok {next : α → Except ε β} {y : β} :
    c >>= next = .ok y ↔ ∃ x, c = .ok x ∧ next x = .ok y := by
  cases c <;> simp [bind, Except.bind]

theorem map_eq_ok {f : α → β} {y : β} : c.map f = .ok y ↔ ∃ x, c = .ok x ∧ f x = y := by
  cases c <;> simp [Except.map]

/-- Two computations that agree up to `f` end with the same fault, or both without one. -/
theorem cases_of_map_eq {f : α → β} {d : Except ε α} (same : c.map f = d.map f) :
    (∃ fault, c = .error fault ∧ d = .error fault) ∨
      ∃ x y, c = .ok x ∧ d = .ok y ∧ f x = f y := by
  cases c <;> cases d <;> simp_all [Except.map]

theorem toOption_eq_some {x : α} : c.toOption = some x ↔ c = .ok x := by
  cases c <;> simp [Except.toOption]

theorem map_toOption_eq_some {f : α → β} {y : β} :
    c.toOption.map f = some y ↔ ∃ x, c = .ok x ∧ f x = y := by
  simp only [Option.map_eq_some_iff, toOption_eq_some]

def faultOf? : Except ε α → Option ε
  | .error fault => some fault
  | .ok _ => none

theorem faultOf?_eq_some {fault : ε} : faultOf? c = some fault ↔ c = .error fault := by
  cases c <;> simp [faultOf?]

end KeyAtlas
