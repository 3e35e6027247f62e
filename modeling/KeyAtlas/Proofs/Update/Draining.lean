import KeyAtlas.Proofs.Update.Latest

namespace KeyAtlas.Update

variable {τ σ : Type}

namespace Queue

variable [Add τ] [LE τ] [DecidableLE τ] (consume : Consumer σ) (onlyDue : Bool) (now : τ)

def applications : Nat → Queue τ → σ → List (Event × Reaction σ)
  | 0, _, _ => []
  | fuel + 1, q, s =>
    match q.pop? onlyDue now with
    | none => []
    | some (e, rest) =>
      (e, consume s e) ::
        applications fuel (rest.afterApplying now (consume s e)) (consume s e).state

variable {onlyDue now}

theorem drain_of_pop? {q rest : Queue τ} {e : Event} (popped : q.pop? onlyDue now = some (e, rest))
    (fuel : Nat) (s : σ) :
    let later := drain consume onlyDue now fuel (rest.afterApplying now (consume s e))
      (consume s e).state
    drain consume onlyDue now (fuel + 1) q s = { later with
      report := (consume s e).fullReport e ++ later.report, count := later.count + 1 } := by
  rw [drain, popped]
  rfl

theorem applications_of_pop? {q rest : Queue τ} {e : Event}
    (popped : q.pop? onlyDue now = some (e, rest)) (fuel : Nat) (s : σ) :
    applications consume onlyDue now (fuel + 1) q s = (e, consume s e) ::
      applications consume onlyDue now fuel (rest.afterApplying now (consume s e))
        (consume s e).state := by
  rw [applications, popped]

theorem drain_of_idle {q : Queue τ} (idle : q.pop? onlyDue now = none) (fuel : Nat) (s : σ) :
    drain consume onlyDue now fuel q s = ⟨q, s, [], 0⟩ ∧
      applications consume onlyDue now fuel q s = [] := by
  cases fuel with
  | zero => exact ⟨rfl, rfl⟩
  | succ fuel =>
    rw [drain, applications, idle]
    exact ⟨rfl, rfl⟩

theorem count_drain (fuel : Nat) (q : Queue τ) (s : σ) :
    (drain consume onlyDue now fuel q s).count =
      (applications consume onlyDue now fuel q s).length := by
  induction fuel generalizing q s with
  | zero => rfl
  | succ fuel ih =>
    cases popped : q.pop? onlyDue now with
    | none => rw [(drain_of_idle consume popped _ s).1, (drain_of_idle consume popped _ s).2]; rfl
    | some found =>
      rw [drain_of_pop? consume popped, applications_of_pop? consume popped, List.length_cons, ← ih]

theorem state_drain (fuel : Nat) (q : Queue τ) (s : σ) :
    (drain consume onlyDue now fuel q s).state =
      ((applications consume onlyDue now fuel q s).map Prod.fst).foldl
        (fun s e => (consume s e).state) s := by
  induction fuel generalizing q s with
  | zero => rfl
  | succ fuel ih =>
    cases popped : q.pop? onlyDue now with
    | none => rw [(drain_of_idle consume popped _ s).1, (drain_of_idle consume popped _ s).2]; rfl
    | some found =>
      rw [drain_of_pop? consume popped, applications_of_pop? consume popped, List.map_cons,
        List.foldl_cons, ← ih]

/-- Once a drain has ended with nothing left to take, a larger bound changes nothing. -/
theorem drain_of_ended {fuel : Nat} {q : Queue τ} {s : σ}
    (ended : (drain consume onlyDue now fuel q s).queue.pop? onlyDue now = none) (more : Nat) :
    drain consume onlyDue now (fuel + more) q s = drain consume onlyDue now fuel q s := by
  induction fuel generalizing q s with
  | zero =>
    have idle : q.pop? onlyDue now = none := ended
    rw [(drain_of_idle consume idle _ s).1, (drain_of_idle consume idle _ s).1]
  | succ fuel ih =>
    cases popped : q.pop? onlyDue now with
    | none => rw [(drain_of_idle consume popped _ s).1, (drain_of_idle consume popped _ s).1]
    | some found =>
      rw [drain_of_pop? consume popped] at ended
      have same := ih ended
      rw [Nat.add_right_comm, drain_of_pop? consume popped, drain_of_pop? consume popped, same]

end Queue

end KeyAtlas.Update
