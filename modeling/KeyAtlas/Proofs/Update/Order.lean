import KeyAtlas.Proofs.Update.Conservation
import Mathlib.Algebra.Order.Group.Int
import Mathlib.Data.List.Induction
import Mathlib.Data.List.Nodup

/-!
The order in which updates are taken from a queue. With a clock that never goes back and one delay for
all, the pending updates become due in the order of their submission. So whether a queue applies what
is due or everything, it takes the first pending update, which is the last one submitted of its
document, and the updates that are taken come in the order in which they were submitted.
-/

namespace KeyAtlas.Update

inductive Move (τ : Type) where
  | submitted (time : τ) (e : Event)
  | taken (onlyDue : Bool) (time : τ) (e : Event)
  deriving DecidableEq

variable {τ σ : Type}

def Act.time? : Act τ → Option τ
  | .submit now _ | .take _ now => some now
  | .finish _ | .clear => none

namespace Move

/-- Of the updates of its document before place `i`, this one was submitted last, at place `j`. -/
structure IsLatest (name : Event → String) (moves : List (Move τ)) (i : Nat) (e : Event) (j : Nat)
    (time : τ) : Prop where
  before : j < i
  here : moves[j]? = some (.submitted time e)
  last : ∀ k, j < k → k < i → ∀ later f, moves[k]? = some (.submitted later f) → name f ≠ name e

/-- Every update that is taken is the latest one of its document, and has waited for the delay unless
everything is applied. They are taken in the order of their submission. -/
structure Ordered [Add τ] [LE τ] (name : Event → String) (delay : τ) (moves : List (Move τ)) :
    Prop where
  source : ∀ i onlyDue now e, moves[i]? = some (.taken onlyDue now e) →
    ∃ j time, IsLatest name moves i e j time ∧ (onlyDue = true → time + delay ≤ now)
  ascending : ∀ i i' onlyDue onlyDue' now now' e e', i < i' →
    moves[i]? = some (.taken onlyDue now e) → moves[i']? = some (.taken onlyDue' now' e') →
    ∀ j j' time time', IsLatest name moves i e j time → IsLatest name moves i' e' j' time' → j < j'

variable {name : Event → String} {moves : List (Move τ)} {i j j' : Nat} {e : Event} {time time' : τ}

theorem IsLatest.unique (is : IsLatest name moves i e j time)
    (is' : IsLatest name moves i e j' time') : j = j' := by
  rcases Nat.lt_trichotomy j j' with less | same | more
  · exact absurd rfl (is.last j' less is'.before time' e is'.here)
  · exact same
  · exact absurd rfl (is'.last j more is.before time e is.here)

theorem getElem?_concat (moves : List (Move τ)) (m x : Move τ) (i : Nat) :
    (moves ++ [m])[i]? = some x ↔ moves[i]? = some x ∨ i = moves.length ∧ m = x := by
  rcases Nat.lt_trichotomy i moves.length with less | rfl | more
  · rw [List.getElem?_append_left less]
    simp [Nat.ne_of_lt less]
  · simp
  · have beyond : (moves ++ [m]).length ≤ i := by simpa using Nat.succ_le_of_lt more
    rw [List.getElem?_eq_none beyond, List.getElem?_eq_none (Nat.le_of_lt more)]
    simp [Nat.ne_of_gt more]

theorem isLatest_concat_iff (m : Move τ) (within : i ≤ moves.length) :
    IsLatest name (moves ++ [m]) i e j time ↔ IsLatest name moves i e j time := by
  have same : ∀ k, k < i → (moves ++ [m])[k]? = moves[k]? := fun k less =>
    List.getElem?_append_left (Nat.lt_of_lt_of_le less within)
  constructor
  · rintro ⟨before, here, last⟩
    refine ⟨before, same j before ▸ here, fun k after less => ?_⟩
    rw [← same k less]
    exact last k after less
  · rintro ⟨before, here, last⟩
    refine ⟨before, (same j before).trans here, fun k after less => ?_⟩
    rw [same k less]
    exact last k after less

theorem IsLatest.concat (is : IsLatest name moves moves.length e j time) {m : Move τ}
    (other : ∀ later f, m = .submitted later f → name f ≠ name e) :
    IsLatest name (moves ++ [m]) (moves ++ [m]).length e j time := by
  obtain ⟨before, here, last⟩ := is
  refine ⟨by simpa using Nat.lt_succ_of_lt before,
    (getElem?_concat moves m _ j).mpr (.inl here), fun k after less later f at_ => ?_⟩
  rcases (getElem?_concat moves m _ k).mp at_ with early | ⟨_, now⟩
  · exact last k after (List.getElem?_eq_some_iff.mp early).1 later f early
  · exact other later f now

theorem isLatest_submitted (moves : List (Move τ)) (now : τ) (e : Event) :
    IsLatest name (moves ++ [submitted now e]) (moves ++ [submitted now e]).length e moves.length
      now := by
  refine ⟨by simp, by simp, fun k after less => ?_⟩
  rw [List.length_append, List.length_singleton] at less
  omega

variable [Add τ] [LE τ] {delay : τ}

theorem ordered_nil : Ordered name delay ([] : List (Move τ)) :=
  ⟨nofun, nofun⟩

theorem Ordered.concat (ordered : Ordered name delay moves) {m : Move τ}
    (source : ∀ onlyDue now e, m = .taken onlyDue now e → ∃ j time,
      IsLatest name moves moves.length e j time ∧ (onlyDue = true → time + delay ≤ now) ∧
      ∀ i onlyDue now f, moves[i]? = some (.taken onlyDue now f) →
        ∀ k time, IsLatest name moves i f k time → k < j) :
    Ordered name delay (moves ++ [m]) := by
  have within : ∀ {i x}, moves[i]? = some x → i ≤ moves.length := fun found =>
    Nat.le_of_lt (List.getElem?_eq_some_iff.mp found).1
  constructor
  · intro i onlyDue now e found
    rcases (getElem?_concat moves m _ i).mp found with early | ⟨rfl, last⟩
    · obtain ⟨j, time, is, ready⟩ := ordered.source i onlyDue now e early
      exact ⟨j, time, (isLatest_concat_iff m (within early)).mpr is, ready⟩
    · obtain ⟨j, time, is, ready, _⟩ := source onlyDue now e last
      exact ⟨j, time, (isLatest_concat_iff m le_rfl).mpr is, ready⟩
  · intro i i' onlyDue onlyDue' now now' e e' less found found' j j' time time' is is'
    rcases (getElem?_concat moves m _ i).mp found with early | ⟨rfl, _⟩
    · rw [isLatest_concat_iff m (within early)] at is
      rcases (getElem?_concat moves m _ i').mp found' with early' | ⟨rfl, last⟩
      · rw [isLatest_concat_iff m (within early')] at is'
        exact ordered.ascending i i' _ _ _ _ e e' less early early' j j' time time' is is'
      · obtain ⟨_, _, latest, _, behind⟩ := source onlyDue' now' e' last
        rw [isLatest_concat_iff m le_rfl] at is'
        rw [is'.unique latest]
        exact behind i onlyDue now e early j time is
    · have inside := (List.getElem?_eq_some_iff.mp found').1
      simp at inside
      omega

end Move

structure Ticket (τ : Type) where
  place : Nat
  time : τ
  event : Event

def Ticket.entry [Add τ] (name : Event → String) (delay : τ) (t : Ticket τ) :
    String × Event × τ :=
  (name t.event, t.event, t.time + delay)

namespace Queue

section Line

variable [Add τ] [LE τ]

/-- The pending updates stand in the order of their submission, behind all that has been taken. -/
structure InLine (q : Queue τ) (name : Event → String) (delay : τ) (times : List τ)
    (moves : List (Move τ)) (tickets : List (Ticket τ)) : Prop where
  named : q.documentOf = name
  delayed : q.debounce = delay
  entries : q.pending.entries = tickets.map (Ticket.entry name delay)
  ascending : tickets.Pairwise fun a b => a.place < b.place ∧ a.time ≤ b.time
  latest : ∀ t ∈ tickets, t.time ∈ times ∧
    Move.IsLatest name moves moves.length t.event t.place t.time
  behind : ∀ t ∈ tickets, ∀ i onlyDue now e, moves[i]? = some (.taken onlyDue now e) →
    ∀ j time, Move.IsLatest name moves i e j time → j < t.place
  ordered : Move.Ordered name delay moves

variable {q : Queue τ} {name : Event → String} {delay : τ} {times : List τ} {moves : List (Move τ)}
  {tickets : List (Ticket τ)}

theorem inLine_make (cwd : Path) (delay : τ) :
    InLine (make cwd delay) (fun e => documentId cwd e.path) delay [] [] [] :=
  ⟨rfl, rfl, rfl, .nil, nofun, nofun, Move.ordered_nil⟩

theorem InLine.submit (line : q.InLine name delay times moves tickets) {now : τ}
    (forward : ∀ time ∈ times, time ≤ now) (e : Event) :
    ∃ tickets, (q.submit now e).InLine name delay (times ++ [now]) (moves ++ [.submitted now e])
      tickets := by
  let kept := tickets.filter fun t => name t.event != name e
  have mem_kept : ∀ t ∈ kept, t ∈ tickets ∧ name e ≠ name t.event := fun t member =>
    ⟨List.mem_of_mem_filter member, Ne.symm (bne_iff_ne.mp (List.mem_filter.mp member).2)⟩
  refine ⟨kept ++ [⟨moves.length, now, e⟩], line.named, line.delayed, ?_, ?_, ?_, ?_, ?_⟩
  · refine (OrderedMap.entries_insertLast _ _ _).trans ?_
    rw [OrderedMap.entries_erase, line.entries, line.named, line.delayed, List.filter_map,
      List.map_append]
    rfl
  · refine List.pairwise_append.mpr ⟨line.ascending.filter _, List.pairwise_singleton _ _, ?_⟩
    intro t member last same
    cases List.mem_singleton.mp same
    obtain ⟨known, latest⟩ := line.latest t (mem_kept t member).1
    exact ⟨latest.before, forward t.time known⟩
  · intro t member
    rcases List.mem_append.mp member with before | same
    · obtain ⟨there, apart⟩ := mem_kept t before
      obtain ⟨known, latest⟩ := line.latest t there
      refine ⟨List.mem_append_left _ known, latest.concat fun later f same => ?_⟩
      cases same
      exact apart
    · cases List.mem_singleton.mp same
      exact ⟨by simp, Move.isLatest_submitted moves now e⟩
  · intro t member i onlyDue at_ f found j time is
    rcases (Move.getElem?_concat moves _ _ i).mp found with early | ⟨_, ⟨⟩⟩
    have within : i < moves.length := (List.getElem?_eq_some_iff.mp early).1
    rw [Move.isLatest_concat_iff _ (Nat.le_of_lt within)] at is
    rcases List.mem_append.mp member with before | same
    · exact line.behind t (mem_kept t before).1 i onlyDue at_ f early j time is
    · cases List.mem_singleton.mp same
      exact Nat.lt_trans is.before within
  · exact line.ordered.concat nofun

theorem InLine.clear (line : q.InLine name delay times moves tickets) :
    q.clear.InLine name delay times moves [] :=
  ⟨line.named, line.delayed, rfl, .nil, nofun, nofun, line.ordered⟩

theorem InLine.settle (line : q.InLine name delay times moves tickets) (failed : Bool) :
    (q.settle failed).InLine name delay times moves tickets := by
  cases failed with
  | true => exact line
  | false =>
    exact ⟨line.named, line.delayed, line.entries, line.ascending, line.latest, line.behind,
      line.ordered⟩

theorem InLine.wait (line : q.InLine name delay times moves tickets) (more : List τ) :
    q.InLine name delay (times ++ more) moves tickets where
  named := line.named
  delayed := line.delayed
  entries := line.entries
  ascending := line.ascending
  latest t member := (line.latest t member).imp_left (List.mem_append_left more)
  behind := line.behind
  ordered := line.ordered

end Line

variable [AddCommGroup τ] [LinearOrder τ] [IsOrderedAddMonoid τ]

theorem pop?_of_ascending {q rest : Queue τ} {name : Event → String} {delay : τ}
    {tickets : List (Ticket τ)} (entries : q.pending.entries = tickets.map (Ticket.entry name delay))
    (ascending : tickets.Pairwise fun a b => a.time ≤ b.time) {onlyDue : Bool} {now : τ} {e : Event}
    (popped : q.pop? onlyDue now = some (e, rest)) :
    ∃ first later, tickets = first :: later ∧ e = first.event ∧
      (onlyDue = true → first.time + delay ≤ now) ∧
      rest = { q with pending := rest.pending } ∧
      rest.pending.entries = later.map (Ticket.entry name delay) := by
  obtain ⟨entry, found, same⟩ := Option.map_eq_some_iff.mp popped
  cases same
  let isReady : String × Event × τ → Bool := fun entry => !onlyDue || entry.2.2 ≤ now
  have found : q.pending.entries.find? isReady = some entry := found
  rw [entries] at found
  cases tickets with
  | nil => cases found
  | cons first later =>
    have ready : isReady (first.entry name delay) = true := by
      -- The one that is found was not submitted before the first one.
      obtain ⟨t, member, rfl⟩ := List.mem_map.mp (List.mem_of_find?_eq_some found)
      have early : first.time ≤ t.time := by
        rcases List.mem_cons.mp member with rfl | after
        · exact le_rfl
        · exact (List.pairwise_cons.mp ascending).1 t after
      have passed : isReady (t.entry name delay) = true := List.find?_some found
      simp only [isReady, Ticket.entry, Bool.or_eq_true, decide_eq_true_eq] at passed ⊢
      exact passed.imp_right (le_trans (add_le_add_left early delay))
    rw [List.map_cons] at found entries
    rw [List.find?_cons_of_pos ready] at found
    cases found
    refine ⟨first, later, rfl, rfl, ?_, rfl, ?_⟩
    · rintro rfl
      simpa [isReady, Ticket.entry] using ready
    · have once := q.pending.keys_nodup
      rw [entries, List.map_cons, List.nodup_cons] at once
      rw [OrderedMap.entries_erase, entries, List.filter_cons_of_neg (by simp),
        List.filter_eq_self.mpr]
      intro other member
      have apart : other.1 ≠ (first.entry name delay).1 := fun same =>
        once.1 (same ▸ List.mem_map_of_mem member)
      simpa using apart

variable {q : Queue τ} {name : Event → String} {delay : τ} {times : List τ} {moves : List (Move τ)}
  {tickets : List (Ticket τ)}

theorem InLine.pop? (line : q.InLine name delay times moves tickets) {onlyDue : Bool} {now : τ}
    {e : Event} {rest : Queue τ} (popped : q.pop? onlyDue now = some (e, rest)) :
    ∃ tickets, rest.InLine name delay (times ++ [now]) (moves ++ [.taken onlyDue now e])
      tickets := by
  obtain ⟨first, later, rfl, rfl, ready, same, entries⟩ :=
    pop?_of_ascending line.entries (line.ascending.imp fun both => both.2) popped
  obtain ⟨ahead, ascending⟩ := List.pairwise_cons.mp line.ascending
  obtain ⟨_, latest⟩ := line.latest first List.mem_cons_self
  refine ⟨later, ?_, ?_, entries, ascending, ?_, ?_, ?_⟩
  · rw [same]
    exact line.named
  · rw [same]
    exact line.delayed
  · intro t member
    obtain ⟨known, latest⟩ := line.latest t (List.mem_cons_of_mem first member)
    exact ⟨List.mem_append_left _ known, latest.concat nofun⟩
  · intro t member i onlyDue at_ f found j time is
    rcases (Move.getElem?_concat moves _ _ i).mp found with early | ⟨rfl, last⟩
    · have within := (List.getElem?_eq_some_iff.mp early).1
      rw [Move.isLatest_concat_iff _ (Nat.le_of_lt within)] at is
      exact line.behind t (List.mem_cons_of_mem first member) i onlyDue at_ f early j time is
    · cases last
      rw [Move.isLatest_concat_iff _ le_rfl] at is
      rw [is.unique latest]
      exact (ahead t member).1
  · refine line.ordered.concat fun onlyDue at_ f last => ?_
    cases last
    exact ⟨first.place, first.time, latest, ready, line.behind first List.mem_cons_self⟩

end Queue

namespace Session

theorem time_of_applying {onlyDue : Bool} {now time : τ} {reaction : Reaction σ}
    (known : time ∈ (applying onlyDue now reaction).filterMap Act.time?) : time = now := by
  rw [applying, List.mem_filterMap] at known
  obtain ⟨act, member, at_⟩ := known
  simp only [List.mem_append, List.mem_cons, List.mem_map, List.not_mem_nil, or_false] at member
  rcases member with (rfl | ⟨e, _, rfl⟩) | rfl <;> cases at_ <;> rfl

section Moves

variable [Add τ] [LE τ] [DecidableLE τ]

def move? (s : Session τ) : Act τ → Option (Move τ)
  | .submit now e => some (.submitted now e)
  | .take onlyDue now =>
    match s.running, s.queue.pop? onlyDue now with
    | none, some (e, _) => some (.taken onlyDue now e)
    | _, _ => none
  | .finish _ | .clear => none

def moves (s : Session τ) : List (Act τ) → List (Move τ)
  | [] => []
  | act :: rest => (s.move? act).toList ++ (s.perform act).moves rest

theorem moves_append (s : Session τ) (acts more : List (Act τ)) :
    s.moves (acts ++ more) = s.moves acts ++ (s.performAll acts).moves more := by
  induction acts generalizing s with
  | nil => rfl
  | cons act rest ih => rw [List.cons_append, moves, ih, moves, List.append_assoc]; rfl

theorem moves_submit (s : Session τ) (now : τ) (es : List Event) :
    s.moves (es.map (.submit now)) = es.map (.submitted now) := by
  induction es generalizing s with
  | nil => rfl
  | cons e rest ih => exact congrArg (Move.submitted now e :: ·) (ih _)

theorem moves_applying {s : Session τ} {onlyDue : Bool} {now : τ} (idle : s.running = none)
    {e : Event} {rest : Queue τ} (popped : s.queue.pop? onlyDue now = some (e, rest))
    (reaction : Reaction σ) :
    s.moves (applying onlyDue now reaction) =
      .taken onlyDue now e :: reaction.submitted.map (.submitted now) := by
  have first : s.move? (.take onlyDue now) = some (.taken onlyDue now e) := by
    simp only [move?, idle, popped]
  rw [applying, List.cons_append, moves, first, moves_append, moves_submit, moves, moves, move?]
  simp

theorem moves_applications (consume : Consumer σ) (onlyDue : Bool) (now : τ) (fuel : Nat)
    {s : Session τ} (idle : s.running = none) (state : σ) :
    let applied := s.queue.applications consume onlyDue now fuel state
    s.moves (applied.flatMap fun a => applying onlyDue now a.2) =
      applied.flatMap fun a => .taken onlyDue now a.1 :: a.2.submitted.map (.submitted now) := by
  induction fuel generalizing s state with
  | zero => rfl
  | succ fuel ih =>
    cases popped : s.queue.pop? onlyDue now with
    | none => rw [(Queue.drain_of_idle consume popped (fuel + 1) state).2]; rfl
    | some found =>
      obtain ⟨e, rest⟩ := found
      have first := performAll_applying idle popped (consume state e)
      have later := ih (s := s.performAll (applying onlyDue now (consume state e)))
        (by rw [first]) (consume state e).state
      rw [first] at later
      intro applied
      rw [show applied = _ from Queue.applications_of_pop? consume popped fuel state,
        List.flatMap_cons, List.flatMap_cons, moves_append, moves_applying idle popped, first, later]

end Moves

variable [AddCommGroup τ] [LinearOrder τ] [IsOrderedAddMonoid τ]

theorem inLine_perform {s : Session τ} {name : Event → String} {delay : τ} {times : List τ}
    {moves : List (Move τ)} {tickets : List (Ticket τ)}
    (line : s.queue.InLine name delay times moves tickets) (act : Act τ)
    (forward : ∀ now ∈ act.time?, ∀ time ∈ times, time ≤ now) :
    ∃ tickets, (s.perform act).queue.InLine name delay (times ++ act.time?.toList)
      (moves ++ (s.move? act).toList) tickets := by
  cases act with
  | submit now e => exact line.submit (forward now rfl) e
  | take onlyDue now =>
    have idle := line.wait (Act.take onlyDue now).time?.toList
    cases running : s.running with
    | some e => exact ⟨tickets, by simpa [perform, move?, running] using idle⟩
    | none =>
      cases popped : s.queue.pop? onlyDue now with
      | none => exact ⟨tickets, by simpa [perform, move?, running, popped] using idle⟩
      | some found =>
        simp only [perform, move?, running, popped]
        exact line.pop? popped
  | finish failed =>
    have settled := (line.settle failed).wait (Act.finish failed).time?.toList
    have idle := line.wait (Act.finish failed).time?.toList
    cases running : s.running with
    | none => exact ⟨tickets, by simpa [perform, move?, running] using idle⟩
    | some e => exact ⟨tickets, by simpa [perform, move?, running] using settled⟩
  | clear => exact ⟨[], by simpa [perform, move?] using line.clear.wait Act.clear.time?.toList⟩

theorem inLine_performAll (cwd : Path) (delay : τ) {acts : List (Act τ)}
    (forward : (acts.filterMap Act.time?).Pairwise (· ≤ ·)) :
    ∃ tickets, ((start cwd delay).performAll acts).queue.InLine (fun e => documentId cwd e.path)
      delay (acts.filterMap Act.time?) ((start cwd delay).moves acts) tickets := by
  induction acts using List.reverseRecOn with
  | nil => exact ⟨[], Queue.inLine_make cwd delay⟩
  | append_singleton acts act ih =>
    rw [List.filterMap_append, List.pairwise_append] at forward
    obtain ⟨tickets, line⟩ := ih forward.1
    have next := inLine_perform line act fun now at_ time known =>
      forward.2.2 time known now (List.mem_filterMap.mpr ⟨act, List.mem_singleton_self act, at_⟩)
    have times : [act].filterMap Act.time? = act.time?.toList := by
      cases at_ : act.time? <;> simp [at_]
    rw [List.filterMap_append, times, moves_append, performAll_append]
    simpa [moves, performAll] using next

/-- Whatever is submitted, taken, applied and dropped, as long as the clock does not go back, each
update that is taken is the last one of its document, and one that is taken for being due has waited
for the delay. All that is taken, because it is due or not, comes in the order of its submission.
Draining is made of such acts, which happen at the time of the drain. -/
theorem taken_in_order (cwd : Path) (delay : τ) {acts : List (Act τ)}
    (forward : (acts.filterMap Act.time?).Pairwise (· ≤ ·)) {s : Session τ}
    (led : (start cwd delay).performAll acts = s) :
    Move.Ordered (fun e => documentId cwd e.path) delay ((start cwd delay).moves acts) ∧
      ∀ {σ : Type} (consume : Consumer σ) (onlyDue : Bool) (now : τ) (fuel : Nat) (state : σ),
        s.running = none →
        let drained := Queue.drain consume onlyDue now fuel s.queue state
        let applied := s.queue.applications consume onlyDue now fuel state
        let more := applied.flatMap fun a => applying onlyDue now a.2
        drained.count = applied.length ∧ (s.performAll more).queue = drained.queue ∧
          (s.performAll more).running = none ∧
          (start cwd delay).moves (acts ++ more) = (start cwd delay).moves acts ++
            applied.flatMap (fun a =>
              .taken onlyDue now a.1 :: a.2.submitted.map (.submitted now)) ∧
          ∀ time ∈ more.filterMap Act.time?, time = now := by
  obtain ⟨tickets, line⟩ := inLine_performAll cwd delay forward
  refine ⟨line.ordered, fun consume onlyDue now fuel state idle => ?_⟩
  have performed := performAll_applications consume onlyDue now fuel idle state
  refine ⟨Queue.count_drain consume fuel s.queue state, congrArg Session.queue performed,
    congrArg Session.running performed, ?_, fun time known => ?_⟩
  · rw [moves_append, led, moves_applications consume onlyDue now fuel idle state]
  · rw [List.filterMap_flatMap, List.mem_flatMap] at known
    obtain ⟨a, _, here⟩ := known
    exact time_of_applying here

def waited : List (Act ℤ) :=
  [.submit 0 ⟨.changed, .ofString "a"⟩, .submit 1 ⟨.changed, .ofString "b"⟩,
    .submit 2 ⟨.deleted, .ofString "/w/a"⟩, .take true 4, .submit 4 ⟨.created, .ofString "c"⟩,
    .finish true, .take true 5, .finish false, .take false 5, .finish false]

theorem taken_in_order_waited :
    let moves := (start (.ofString "/w") 3).moves waited
    (waited.filterMap Act.time?).Pairwise (· ≤ ·) ∧
      moves = [.submitted 0 ⟨.changed, .ofString "a"⟩, .submitted 1 ⟨.changed, .ofString "b"⟩,
        .submitted 2 ⟨.deleted, .ofString "/w/a"⟩, .taken true 4 ⟨.changed, .ofString "b"⟩,
        .submitted 4 ⟨.created, .ofString "c"⟩, .taken true 5 ⟨.deleted, .ofString "/w/a"⟩,
        .taken false 5 ⟨.created, .ofString "c"⟩] ∧
      Move.Ordered (fun e => documentId (.ofString "/w") e.path) 3 moves := by
  have forward : (waited.filterMap Act.time?).Pairwise (· ≤ ·) := by decide
  exact ⟨forward, by decide +kernel, (taken_in_order (.ofString "/w") 3 forward rfl).1⟩

end Session

end KeyAtlas.Update
