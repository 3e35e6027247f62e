import KeyAtlas.Proofs.Update.Draining
import Mathlib.Algebra.Order.Group.Int
import Mathlib.Algebra.Order.Group.Unbundled.Basic

/-!
How long a worker waits. The wait is until the earliest time at which a pending update is due, and what
is due is looked for anew when it ends, in the order of the pending updates. Both agree at every time,
also where the due times are out of order because the clock has gone back: a worker drains the queue
just when there is something to apply, and wakes no later than something is due.
-/

namespace KeyAtlas.Update

variable {τ σ : Type}

namespace Queue

def dueTimes (q : Queue τ) : List τ :=
  q.pending.values.map Prod.snd

section Earliest

variable [LinearOrder τ]

theorem earliest?_eq_min? (q : Queue τ) : q.earliest? = q.dueTimes.min? := by
  have smaller : (fun best due : τ => if due < best then due else best) = min := by
    funext best due
    rw [min_comm, min_def_lt]
  rw [earliest?, ← dueTimes, smaller]
  cases q.dueTimes with
  | nil => rfl
  | cons due rest => exact List.min?_cons'.symm

theorem earliest?_eq_none_iff {q : Queue τ} : q.earliest? = none ↔ q.size = 0 := by
  rw [earliest?_eq_min?, List.min?_eq_none_iff, dueTimes, OrderedMap.values, List.map_map,
    List.map_eq_nil_iff, size, OrderedMap.size, List.length_eq_zero_iff]

theorem earliest?_eq_some_iff {q : Queue τ} {time : τ} :
    q.earliest? = some time ↔ time ∈ q.dueTimes ∧ ∀ other ∈ q.dueTimes, time ≤ other := by
  rw [earliest?_eq_min?, List.min?_eq_some_iff]

theorem pop?_due_isSome_iff {q : Queue τ} {now : τ} :
    (q.pop? true now).isSome ↔ ∃ time, q.earliest? = some time ∧ time ≤ now := by
  have found : (q.pop? true now).isSome ↔ ∃ time ∈ q.dueTimes, time ≤ now := by
    rw [pop?, Option.isSome_map, first?, List.find?_isSome, dueTimes, OrderedMap.values,
      List.map_map]
    simp only [Bool.not_true, Bool.false_or, decide_eq_true_eq, List.mem_map, Function.comp_apply,
      exists_exists_and_eq_and]
  rw [found]
  constructor
  · rintro ⟨time, known, early⟩
    cases earliest : q.earliest? with
    | none =>
      rw [earliest?_eq_min?, List.min?_eq_none_iff] at earliest
      rw [earliest] at known
      cases known
    | some first =>
      exact ⟨first, rfl, le_trans ((earliest?_eq_some_iff.mp earliest).2 time known) early⟩
  · rintro ⟨time, earliest, early⟩
    exact ⟨time, (earliest?_eq_some_iff.mp earliest).1, early⟩

end Earliest

section Draining

variable [Add τ] [LE τ] [DecidableLE τ]

theorem count_drain_pos_iff (consume : Consumer σ) (onlyDue : Bool) (now : τ) (fuel : Nat)
    (q : Queue τ) (s : σ) :
    0 < (drain consume onlyDue now (fuel + 1) q s).count ↔ (q.pop? onlyDue now).isSome := by
  cases popped : q.pop? onlyDue now with
  | none => rw [(drain_of_idle consume popped _ s).1]; simp
  | some found => rw [drain_of_pop? consume popped]; simp

end Draining

variable [AddCommGroup τ] [LinearOrder τ]

theorem nextWait_eq_some_iff {q : Queue τ} {now limit : τ} :
    q.nextWait now = some limit ↔ ∃ time, q.earliest? = some time ∧ max 0 (time - now) = limit := by
  simp only [nextWait, Option.map_eq_some_iff, max_def_lt]

theorem nextWait_eq_none_iff {q : Queue τ} {now : τ} : q.nextWait now = none ↔ q.size = 0 := by
  rw [nextWait, Option.map_eq_none_iff, earliest?_eq_none_iff]

theorem isSome_pop?_of_nextWait {q : Queue τ} {now limit : τ} (positive : 0 < limit)
    (waits : q.nextWait now = some limit) (time : τ) :
    (q.pop? true time).isSome ↔ now + limit ≤ time := by
  obtain ⟨first, earliest, same⟩ := nextWait_eq_some_iff.mp waits
  have ends : now + limit = first := by
    rcases max_choice 0 (first - now) with past | wait
    · rw [past] at same
      exact absurd same (ne_of_lt positive)
    · rw [← same, wait, add_sub_cancel]
  rw [pop?_due_isSome_iff, earliest, ends]
  simp

theorem wait_le_of_turn {q : Queue τ} {now : τ} {limit : Option τ} (waits : q.turn now = .wait limit)
    {time : τ} (something : (q.pop? true time).isSome) :
    ∃ wait, limit = some wait ∧ now + wait ≤ time := by
  rw [turn] at waits
  cases told : q.nextWait now with
  | none =>
    obtain ⟨first, earliest, _⟩ := pop?_due_isSome_iff.mp something
    rw [nextWait_eq_none_iff, ← earliest?_eq_none_iff, earliest] at told
    cases told
  | some wait =>
    simp only [told] at waits
    split at waits
    · rename_i positive
      cases waits
      exact ⟨wait, rfl, (isSome_pop?_of_nextWait positive told time).mp something⟩
    · cases waits

variable [IsOrderedAddMonoid τ]

theorem nextWait_eq_zero_iff {q : Queue τ} {now : τ} :
    q.nextWait now = some 0 ↔ (q.pop? true now).isSome := by
  simp only [nextWait_eq_some_iff, max_eq_left_iff, sub_nonpos, pop?_due_isSome_iff]

theorem turn_eq_drain_iff {q : Queue τ} {now : τ} :
    q.turn now = .drain ↔ (q.pop? true now).isSome := by
  rw [← nextWait_eq_zero_iff, turn]
  cases waits : q.nextWait now with
  | none => simp
  | some limit =>
    obtain ⟨first, _, same⟩ := nextWait_eq_some_iff.mp waits
    have positive : 0 ≤ limit := same ▸ le_max_left 0 (first - now)
    rcases positive.eq_or_lt with rfl | late
    · simp
    · simp [late, ne_of_gt late]

/-- Whatever is pending and whatever the clock has shown before, a worker is told to wait for nothing
just when nothing is pending, and not to wait just when applying what is due applies something. When it
is told to wait for some time, nothing can be applied before that time has passed, and something can
from then on. So a worker drains the queue just when there is something to apply, and when it waits
instead it has woken by the time that there is. -/
theorem nextWait_agrees (q : Queue τ) (now : τ) (consume : Consumer σ) (s : σ) (fuel : Nat) :
    let count := fun time => (q.processDue consume time (fuel + 1) s).count
    (q.nextWait now = none ↔ q.size = 0) ∧
      (q.nextWait now = some 0 ↔ 0 < count now) ∧
      (∀ limit, 0 < limit → q.nextWait now = some limit → ∀ time,
        (time < now + limit → count time = 0) ∧ (now + limit ≤ time → 0 < count time)) ∧
      (q.turn now = .drain ↔ 0 < count now) ∧
      ∀ limit, q.turn now = .wait limit → ∀ time, 0 < count time →
        ∃ wait, limit = some wait ∧ now + wait ≤ time := by
  intro count
  have applies : ∀ time, 0 < count time ↔ (q.pop? true time).isSome := fun time =>
    count_drain_pos_iff consume true time fuel q s
  refine ⟨nextWait_eq_none_iff, ?_, fun limit positive waits time => ⟨?_, ?_⟩, ?_, ?_⟩
  · rw [applies, nextWait_eq_zero_iff]
  · intro early
    have nothing : ¬ 0 < count time := by
      rw [applies, isSome_pop?_of_nextWait positive waits]
      exact not_le.mpr early
    omega
  · intro late
    rwa [applies, isSome_pop?_of_nextWait positive waits]
  · rw [applies, turn_eq_drain_iff]
  · intro limit waits time something
    exact wait_le_of_turn waits ((applies time).mp something)

def setBack : Queue ℤ :=
  ((make (.ofString "/w") 3).submit 9 ⟨.changed, .ofString "a"⟩).submit 2 ⟨.changed, .ofString "b"⟩

def counting : Consumer Nat :=
  fun seen _ => ⟨seen + 1, [], [], none⟩

theorem nextWait_agrees_setBack :
    setBack.nextWait 3 = some 2 ∧ setBack.turn 3 = .wait (some 2) ∧
      (setBack.processDue counting 4 1 0).count = 0 ∧
      0 < (setBack.processDue counting 5 1 0).count := by
  have waits : setBack.nextWait 3 = some 2 := by decide +kernel
  obtain ⟨_, _, later, _, _⟩ := nextWait_agrees setBack 3 counting 0 0
  have applied := later 2 (by decide) waits
  exact ⟨waits, by decide +kernel, (applied 4).1 (by decide), (applied 5).2 (by decide)⟩

end Queue

end KeyAtlas.Update
