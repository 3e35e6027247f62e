import KeyAtlas.Proofs.Update.Conservation
import Mathlib.Algebra.Order.Group.Int
import Mathlib.Data.List.Nodup

/-!
Applying what is due while the consumer submits further updates. An update that is submitted meanwhile
is not due before the delay has passed, and it takes the place of a due one of its document. So every
application leaves fewer updates due than before, and what is applied in the end is what was due at the
start, without the updates that were replaced before their turn.
-/

namespace KeyAtlas.Update

variable {τ σ : Type}

namespace Queue

section Due

variable [LE τ] [DecidableLE τ]

def due (q : Queue τ) (now : τ) : List Event :=
  (q.pending.entries.filter fun entry => entry.2.2 ≤ now).map fun entry => entry.2.1

def withoutDue (q : Queue τ) (now : τ) : Queue τ :=
  { q with pending := ⟨q.pending.entries.filter fun entry => !decide (entry.2.2 ≤ now),
      q.pending.keys_nodup.sublist (List.filter_sublist.map _)⟩ }

variable {q : Queue τ} {now : τ}

theorem length_due_le (q : Queue τ) (now : τ) : (q.due now).length ≤ q.size := by
  rw [due, List.length_map]
  exact List.length_filter_le _ _

theorem due_sublist (q : Queue τ) (now : τ) : (q.due now).Sublist q.events := by
  rw [events, OrderedMap.values, List.map_map]
  exact List.filter_sublist.map _

theorem Named.nodup_due (named : q.Named) (now : τ) : ((q.due now).map q.documentOf).Nodup := by
  have all : (q.events.map q.documentOf).Nodup := by
    rw [named.keys]
    exact q.pending.keys_nodup
  exact all.sublist ((q.due_sublist now).map _)

theorem pop?_due_eq_none_iff : q.pop? true now = none ↔ q.due now = [] := by
  rw [pop?, Option.map_eq_none_iff, first?, due, List.map_eq_nil_iff, List.find?_eq_none,
    List.filter_eq_nil_iff]
  simp

theorem Named.due_erase (named : q.Named) (document : String) (now : τ) :
    due { q with pending := q.pending.erase document } now =
      (q.due now).filter fun e => q.documentOf e != document := by
  rw [due, due, OrderedMap.entries_erase, List.filter_map, List.filter_filter, List.filter_filter]
  congr 1
  refine List.filter_congr fun entry member => ?_
  rw [Bool.and_comm, named entry member]
  rfl

theorem Named.pop?_due (named : q.Named) {e : Event} {rest : Queue τ}
    (popped : q.pop? true now = some (e, rest)) :
    q.due now = e :: rest.due now ∧ rest.Named ∧ rest.withoutDue now = q.withoutDue now := by
  obtain ⟨entry, first, same⟩ := Option.map_eq_some_iff.mp popped
  cases same
  have member := List.mem_of_find?_eq_some first
  have ready : entry.2.2 ≤ now := by simpa using List.find?_some first
  obtain ⟨tail, split⟩ : ∃ tail, q.due now = entry.2.1 :: tail := by
    obtain ⟨entries, split⟩ := List.head?_eq_some_iff.mp (List.head?_filter.trans first)
    exact ⟨entries.map fun entry => entry.2.1, by simpa [due] using congrArg (List.map _) split⟩
  have once := named.nodup_due now
  rw [split, List.map_cons, List.nodup_cons] at once
  refine ⟨?_, (named.erase entry.1).1, ?_⟩
  · rw [named.due_erase, split, named entry member, List.filter_cons_of_neg (by simp),
      List.filter_eq_self.mpr]
    intro other later
    have apart : q.documentOf other ≠ q.documentOf entry.2.1 := fun same =>
      once.1 (same ▸ List.mem_map_of_mem later)
    simpa using apart
  · have kept : q.pending.entries.filter (fun other => !decide (other.2.2 ≤ now)) =
        (q.pending.erase entry.1).entries.filter fun other => !decide (other.2.2 ≤ now) := by
      rw [OrderedMap.entries_erase, List.filter_filter]
      refine List.filter_congr fun other present => ?_
      by_cases here : other.1 = entry.1
      · -- One document has one entry, and that one is due.
        rw [List.inj_on_of_nodup_map q.pending.keys_nodup present member here]
        simp [ready]
      · simp [here]
    simp only [withoutDue, kept]

end Due

theorem settle_eq (q : Queue τ) (failed : Bool) :
    q.settle failed = { q with applied := (q.settle failed).applied } := by
  cases failed <;> rfl

/-! ### Submitting takes the place of what is due -/

section Adding

variable [Add τ]

theorem submitAll_frame (q : Queue τ) (now : τ) (es : List Event) :
    (q.submitAll now es).cwd = q.cwd ∧ (q.submitAll now es).debounce = q.debounce := by
  induction es generalizing q with
  | nil => exact ⟨rfl, rfl⟩
  | cons e rest ih => exact ih (q.submit now e)

theorem Named.submitAll {q : Queue τ} (named : q.Named) (now : τ) (es : List Event) :
    (q.submitAll now es).Named := by
  induction es generalizing q with
  | nil => exact named
  | cons e rest ih => exact ih (named.submit now e).1

theorem submitAll_append (q : Queue τ) (now : τ) (es more : List Event) :
    q.submitAll now (es ++ more) = (q.submitAll now es).submitAll now more :=
  List.foldl_append

theorem pending_submitAll_congr (q q' : Queue τ) (cwd : q.cwd = q'.cwd)
    (debounce : q.debounce = q'.debounce) (pending : q.pending = q'.pending) (now : τ)
    (es : List Event) : (q.submitAll now es).pending = (q'.submitAll now es).pending := by
  induction es generalizing q q' with
  | nil => exact pending
  | cons e rest ih =>
    have next : (q.submit now e).pending = (q'.submit now e).pending := by
      simp only [submit, documentOf, cwd, debounce, pending]
    exact ih (q.submit now e) (q'.submit now e) cwd debounce next

end Adding

/-! ### What it means to apply what is due -/

section Applying

variable [Add τ] [LE τ] [DecidableLE τ] {q : Queue τ} {now : τ}

/-- One of these applications has submitted an update of the same document. -/
def IsReplaced (name : Event → String) (e : Event) (applied : List (Event × Reaction σ)) : Prop :=
  ∃ a ∈ applied, ∃ f ∈ a.2.submitted, name f = name e

/-- What it means to apply what is due in a queue, and to leave another queue behind. -/
structure AppliesDue (q : Queue τ) (now : τ) (applied : List (Event × Reaction σ))
    (last : Queue τ) : Prop where
  ended : last.pop? true now = none
  /-- What was due is applied in its order, and each update once. -/
  ordered : (applied.map Prod.fst).Sublist (q.due now)
  /-- An update is left out just if another one has come in its place before its turn. -/
  chosen : ∀ before e after, q.due now = before ++ e :: after →
    (e ∈ applied.map Prod.fst ↔
      ¬ IsReplaced q.documentOf e (applied.filter fun a => a.1 ∈ before))
  /-- All that is submitted meanwhile is still to come, behind what was not due. -/
  remaining : last.pending =
    ((q.withoutDue now).submitAll now (applied.flatMap fun a => a.2.submitted)).pending

theorem appliesDue_of_idle (idle : q.pop? true now = none) :
    q.AppliesDue now ([] : List (Event × Reaction σ)) q where
  ended := idle
  ordered := List.nil_sublist _
  chosen before e after split := by
    rw [pop?_due_eq_none_iff.mp idle] at split
    simp at split
  remaining := by
    have nothing := List.map_eq_nil_iff.mp (pop?_due_eq_none_iff.mp idle)
    refine OrderedMap.ext_entries (List.filter_eq_self.mpr fun entry member => ?_).symm
    simpa using List.filter_eq_nil_iff.mp nothing entry member

/-- The first application replaces some of the updates that are due after it, and the later ones
decide about the others. -/
theorem mem_applied_next {name : Event → String} {e : Event} {tail : List Event}
    (once : ((e :: tail).map name).Nodup) {reaction : Reaction σ}
    {applied : List (Event × Reaction σ)} {due : List Event}
    (left : due = tail.filter fun o => reaction.submitted.all fun f => name o != name f)
    (ordered : (applied.map Prod.fst).Sublist due)
    (chosen : ∀ before o after, due = before ++ o :: after →
      (o ∈ applied.map Prod.fst ↔ ¬ IsReplaced name o (applied.filter fun a => a.1 ∈ before)))
    {before after : List Event} {o : Event} (split : tail = before ++ o :: after) :
    o ∈ e :: applied.map Prod.fst ↔
      ¬ IsReplaced name o (((e, reaction) :: applied).filter fun a => a.1 ∈ e :: before) := by
  have fresh : ∀ other ∈ tail, other ≠ e := by
    rintro other member rfl
    exact (List.nodup_cons.mp once).1 (List.mem_map_of_mem member)
  have apart : o ≠ e := fresh o (by simp [split])
  by_cases replaced : ∃ f ∈ reaction.submitted, name f = name o
  · have gone : o ∉ applied.map Prod.fst := by
      intro member
      obtain ⟨f, submitted, same⟩ := replaced
      have kept := (List.mem_filter.mp (left ▸ ordered.subset member)).2
      have differs : name o ≠ name f := by simpa using List.all_eq_true.mp kept f submitted
      exact differs same.symm
    exact iff_of_false (by simp [apart, gone]) (not_not.mpr ⟨(e, reaction), by simp, replaced⟩)
  · let stays := fun other => reaction.submitted.all fun f => name other != name f
    have kept : stays o = true :=
      List.all_eq_true.mpr fun f submitted => bne_iff_ne.mpr fun same =>
        replaced ⟨f, submitted, same.symm⟩
    have turn := chosen (before.filter stays) o (after.filter stays) (by
      rw [left, split, List.filter_append, List.filter_cons_of_pos kept])
    have earlier : (applied.filter fun a => a.1 ∈ e :: before) =
        applied.filter fun a => a.1 ∈ before.filter stays := by
      refine List.filter_congr fun a member => ?_
      have here := List.mem_filter.mp (left ▸ ordered.subset (List.mem_map_of_mem member))
      have other := fresh a.1 here.1
      have stays : stays a.1 = true := here.2
      simp [other, stays]
    rw [List.mem_cons, or_iff_right apart, turn, List.filter_cons_of_pos (by simp), earlier,
      IsReplaced, IsReplaced, List.exists_mem_cons_iff, or_iff_right replaced]

end Applying

/-! ### Draining what is due -/

section Ordered

variable [AddCommGroup τ] [LinearOrder τ] [IsOrderedAddMonoid τ] {q : Queue τ} {now : τ}

/-- What is submitted is not due at once, and what was due of its document is gone. -/
theorem Named.due_submit (named : q.Named) (positive : 0 < q.debounce) (now : τ) (e : Event) :
    (q.submit now e).due now = (q.due now).filter (fun o => q.documentOf o != q.documentOf e) ∧
      ((q.submit now e).withoutDue now).pending = ((q.withoutDue now).submit now e).pending := by
  have early : ¬ now + q.debounce ≤ now := not_le.mpr (lt_add_of_pos_right now positive)
  have entries : ∀ q' : Queue τ, (q'.submit now e).pending.entries =
      (q'.pending.erase (q'.documentOf e)).entries ++ [(q'.documentOf e, e, now + q'.debounce)] :=
    fun q' => OrderedMap.entries_insertLast _ _ _
  constructor
  · rw [← named.due_erase, due, entries, List.filter_append, List.filter_cons_of_neg (by simp [early]),
      List.filter_nil, List.append_nil]
    rfl
  · refine OrderedMap.ext_entries ?_
    have left : ((q.submit now e).withoutDue now).pending.entries =
        (q.submit now e).pending.entries.filter fun entry => !decide (entry.2.2 ≤ now) := rfl
    rw [left, entries, entries, List.filter_append, List.filter_cons_of_pos (by simp [early]),
      List.filter_nil, OrderedMap.entries_erase, OrderedMap.entries_erase, List.filter_comm]
    rfl

theorem Named.due_submitAll (named : q.Named) (positive : 0 < q.debounce) (now : τ)
    (es : List Event) :
    (q.submitAll now es).due now =
        (q.due now).filter (fun o => es.all fun e => q.documentOf o != q.documentOf e) ∧
      ((q.submitAll now es).withoutDue now).pending =
        ((q.withoutDue now).submitAll now es).pending := by
  induction es generalizing q with
  | nil => exact ⟨(List.filter_eq_self.mpr (by simp)).symm, rfl⟩
  | cons e rest ih =>
    obtain ⟨due, others⟩ := named.due_submit positive now e
    obtain ⟨dueLater, othersLater⟩ := ih (named.submit now e).1 positive
    constructor
    · refine dueLater.trans ?_
      rw [due, List.filter_filter]
      refine List.filter_congr fun o _ => ?_
      rw [List.all_cons, Bool.and_comm]
      rfl
    · exact othersLater.trans (pending_submitAll_congr ((q.submit now e).withoutDue now)
        ((q.withoutDue now).submit now e) rfl rfl others now rest)

/-- Applying the first update that is due takes it away, and with it those due updates of which it
submits a later one. All that it submits waits behind the rest. -/
theorem Named.due_afterApplying (named : q.Named) (positive : 0 < q.debounce) {now : τ} {e : Event}
    {rest : Queue τ} (popped : q.pop? true now = some (e, rest)) (reaction : Reaction σ) :
    let next := rest.afterApplying now reaction
    next.Named ∧ next.cwd = q.cwd ∧ next.debounce = q.debounce ∧
      (∃ tail, q.due now = e :: tail ∧ next.due now =
        tail.filter fun o => reaction.submitted.all fun f => q.documentOf o != q.documentOf f) ∧
      (next.withoutDue now).pending =
        ((q.withoutDue now).submitAll now reaction.submitted).pending := by
  obtain ⟨split, left, others⟩ := named.pop?_due popped
  obtain ⟨document, due, held, rfl⟩ := pop?_eq_some popped
  obtain ⟨dues, undue⟩ := left.due_submitAll positive now reaction.submitted
  intro next
  have settled : next = { Queue.submitAll { q with pending := q.pending.erase document } now
      reaction.submitted with applied := next.applied } := settle_eq _ _
  rw [settled]
  obtain ⟨cwd, debounce⟩ := submitAll_frame { q with pending := q.pending.erase document } now
    reaction.submitted
  refine ⟨left.submitAll now reaction.submitted, cwd, debounce, ⟨_, split, dues⟩, undue.trans ?_⟩
  rw [others]

theorem Named.appliesDue_next (named : q.Named) (positive : 0 < q.debounce) {e : Event}
    {rest : Queue τ} (popped : q.pop? true now = some (e, rest)) {reaction : Reaction σ}
    {applied : List (Event × Reaction σ)} {last : Queue τ}
    (later : (rest.afterApplying now reaction).AppliesDue now applied last) :
    q.AppliesDue now ((e, reaction) :: applied) last := by
  obtain ⟨_, cwd, debounce, ⟨tail, split, due⟩, others⟩ :=
    named.due_afterApplying positive popped reaction
  have name : (rest.afterApplying now reaction).documentOf = q.documentOf := by
    funext e
    rw [documentOf, cwd, documentOf]
  have once := named.nodup_due now
  rw [split] at once
  have ordered := later.ordered
  rw [due] at ordered
  refine ⟨later.ended, ?_, ?_, ?_⟩
  · rw [split, List.map_cons]
    exact (ordered.trans List.filter_sublist).cons_cons e
  · intro before o after whole
    rw [split] at whole
    cases before with
    | nil =>
      cases whole
      simp [IsReplaced]
    | cons first before =>
      cases whole
      exact mem_applied_next once due later.ordered (name ▸ later.chosen) rfl
  · have frame := submitAll_frame (q.withoutDue now) now reaction.submitted
    rw [later.remaining, List.flatMap_cons, submitAll_append]
    exact pending_submitAll_congr ((rest.afterApplying now reaction).withoutDue now)
      ((q.withoutDue now).submitAll now reaction.submitted) (cwd.trans frame.1.symm)
      (debounce.trans frame.2.symm) others now _

theorem Named.appliesDue_drain (named : q.Named) (positive : 0 < q.debounce)
    (consume : Consumer σ) (now : τ) {fuel : Nat} (enough : (q.due now).length ≤ fuel) (s : σ) :
    q.AppliesDue now (q.applications consume true now fuel s)
      (drain consume true now fuel q s).queue := by
  induction fuel generalizing q s with
  | zero =>
    exact appliesDue_of_idle (pop?_due_eq_none_iff.mpr (List.length_eq_zero_iff.mp (by omega)))
  | succ fuel ih =>
    cases popped : q.pop? true now with
    | none =>
      obtain ⟨drained, applied⟩ := drain_of_idle consume popped (fuel + 1) s
      rw [drained, applied]
      exact appliesDue_of_idle popped
    | some found =>
      obtain ⟨e, rest⟩ := found
      obtain ⟨next, _, debounce, ⟨tail, split, due⟩, _⟩ :=
        named.due_afterApplying positive popped (consume s e)
      have shorter : ((rest.afterApplying now (consume s e)).due now).length ≤ fuel := by
        have filtered := List.length_filter_le
          (fun o => (consume s e).submitted.all fun f => q.documentOf o != q.documentOf f) tail
        rw [split, List.length_cons] at enough
        rw [due]
        omega
      rw [drain_of_pop? consume popped, applications_of_pop? consume popped]
      exact named.appliesDue_next positive popped
        (ih next (debounce ▸ positive) shorter (consume s e).state)

/-- Whatever a queue has gone through, and whatever the consumer fails on and submits meanwhile,
applying what is due ends, whichever bound is set, as long as there is room for what is pending. It
applies what was due at the start in its order and each update once, but for those that are replaced
before their turn. It applies nothing that is submitted meanwhile, and tells how many updates it has
applied. -/
theorem appliesDue_processDue (cwd : Path) {delay : τ} (positive : 0 < delay)
    (acts : List (Act τ)) {q : Queue τ}
    (led : ((Session.start cwd delay).performAll acts).queue = q) (consume : Consumer σ) (now : τ)
    (s : σ) {fuel : Nat} (enough : q.size ≤ fuel) :
    let drained := q.processDue consume now fuel s
    let applied := q.applications consume true now fuel s
    drained = q.processDue consume now q.size s ∧
      q.AppliesDue now applied drained.queue ∧ ((q.due now).map q.documentOf).Nodup ∧
      drained.state = (applied.map Prod.fst).foldl (fun s e => (consume s e).state) s ∧
      drained.count = applied.length := by
  have named : q.Named := led ▸ ((Session.accounted_start cwd delay).performAll acts).named
  have debounce : q.debounce = delay := led ▸ Session.debounce_performAll _ acts
  have applies : ∀ fuel, q.size ≤ fuel → q.AppliesDue now
      (q.applications consume true now fuel s) (q.processDue consume now fuel s).queue :=
    fun fuel enough => named.appliesDue_drain (debounce ▸ positive) consume now
      ((q.length_due_le now).trans enough) s
  refine ⟨?_, applies fuel enough, named.nodup_due now, state_drain consume fuel q s,
    count_drain consume fuel q s⟩
  obtain ⟨more, rfl⟩ := Nat.exists_eq_add_of_le enough
  exact drain_of_ended consume (applies q.size le_rfl).ended more

end Ordered

def resubmitting : Consumer Nat := fun seen e =>
  ⟨seen + 1, if e.path = .ofString "/w/a" then
      [⟨.deleted, .ofString "b"⟩, ⟨.created, .ofString "/w/d"⟩] else [], [],
    if e.path = .ofString "/w/c" then some "refused" else none⟩

def partlyDue : List (Act ℤ) :=
  [.submit 0 ⟨.changed, .ofString "/w/a"⟩, .submit 1 ⟨.changed, .ofString "/w/b"⟩,
    .submit 9 ⟨.changed, .ofString "/w/e"⟩, .submit 1 ⟨.changed, .ofString "/w/c"⟩]

theorem appliesDue_processDue_resubmitting :
    let q := ((Session.start (.ofString "/w") (3 : ℤ)).performAll partlyDue).queue
    let applied := q.applications resubmitting true 5 4 0
    (0 : ℤ) < 3 ∧ q.size ≤ 4 ∧
      applied.map Prod.fst = [⟨.changed, .ofString "/w/a"⟩, ⟨.changed, .ofString "/w/c"⟩] ∧
      q.AppliesDue 5 applied (q.processDue resubmitting 5 4 0).queue ∧
      (q.processDue resubmitting 5 4 0).count = 2 := by
  have enough : ((Session.start (.ofString "/w") (3 : ℤ)).performAll partlyDue).queue.size ≤ 4 := by
    decide +kernel
  obtain ⟨_, applies, _, _, count⟩ := appliesDue_processDue (.ofString "/w") (by decide : (0 : ℤ) < 3)
    partlyDue rfl resubmitting 5 0 enough
  exact ⟨by decide, enough, by decide +kernel, applies, count.trans (by decide +kernel)⟩

end Queue

end KeyAtlas.Update
