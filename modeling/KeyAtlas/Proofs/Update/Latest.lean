import KeyAtlas.Proofs.OrderedMap
import KeyAtlas.Proofs.Path.Plain
import KeyAtlas.Update.Queue

namespace KeyAtlas.Update

def latest (es : List Event) (p : Path) : Option Event :=
  es.reverse.find? fun e => e.path = p

theorem latest_append (es later : List Event) (p : Path) :
    latest (es ++ later) p = (latest later p).or (latest es p) := by
  rw [latest, List.reverse_append, List.find?_append, latest, latest]

theorem latest_singleton (e : Event) (p : Path) :
    latest [e] p = if e.path = p then some e else none := by
  rw [latest, List.reverse_singleton, List.find?_singleton]
  simp only [decide_eq_true_eq]

theorem latest_eq_some {es : List Event} {p : Path} {e : Event} (found : latest es p = some e) :
    e ∈ es ∧ e.path = p :=
  ⟨List.mem_reverse.mp (List.mem_of_find?_eq_some found), by simpa using List.find?_some found⟩

theorem isSome_latest {es : List Event} {e : Event} (member : e ∈ es) :
    (latest es e.path).isSome := by
  rw [latest, List.find?_isSome]
  exact ⟨e, List.mem_reverse.mpr member, by simp⟩

namespace Queue

variable {τ σ : Type}

/-- Every pending update is of a plain path and is kept under the identifier of that. -/
structure Tidy (q : Queue τ) : Prop where
  plain : ∀ document entry, q.pending.get? document = some entry →
    entry.1.path.IsPlain ∧ q.documentOf entry.1 = document

def pendingFor (q : Queue τ) (p : Path) : Option Event :=
  (q.pending.get? (documentId q.cwd p)).map Prod.fst

theorem documentOf_of_isPlain (q : Queue τ) {e : Event} (plain : e.path.IsPlain) :
    q.documentOf e = e.path.toString := by
  rw [documentOf, documentId, plain.absolute_eq]

theorem pendingFor_congr {q q' : Queue τ} (pending : q'.pending = q.pending) (cwd : q'.cwd = q.cwd)
    (p : Path) : q'.pendingFor p = q.pendingFor p := by
  rw [pendingFor, pendingFor, pending, cwd]

theorem Tidy.congr {q q' : Queue τ} (tidy : q.Tidy) (pending : q'.pending = q.pending)
    (cwd : q'.cwd = q.cwd) : q'.Tidy := by
  refine ⟨fun document entry held => ?_⟩
  rw [pending] at held
  rw [documentOf, cwd]
  exact tidy.plain document entry held

theorem pendingFor_of_size_zero {q : Queue τ} (empty : q.size = 0) (p : Path) :
    q.pendingFor p = none := by
  have entries : q.pending.entries = [] := List.length_eq_zero_iff.mp empty
  rw [pendingFor, OrderedMap.get?, entries]
  rfl

section Submitting

variable [Add τ]

theorem get?_submit (q : Queue τ) (now : τ) (e : Event) (document : String) :
    (q.submit now e).pending.get? document =
      if document == q.documentOf e then some (e, now + q.debounce)
      else q.pending.get? document :=
  OrderedMap.get?_insertLast q.pending (q.documentOf e) document (e, now + q.debounce)

theorem Tidy.submit {q : Queue τ} (tidy : q.Tidy) (now : τ) {e : Event} (plain : e.path.IsPlain) :
    (q.submit now e).Tidy := by
  refine ⟨fun document entry held => ?_⟩
  rw [get?_submit] at held
  split at held
  · rename_i same
    cases held
    exact ⟨plain, (eq_of_beq same).symm⟩
  · exact tidy.plain document entry held

theorem pendingFor_submit (q : Queue τ) (now : τ) {e : Event} (eventPlain : e.path.IsPlain)
    {p : Path} (plain : p.IsPlain) :
    (q.submit now e).pendingFor p = if e.path = p then some e else q.pendingFor p := by
  have held := q.get?_submit now e (documentId q.cwd p)
  rw [pendingFor, Queue.submit] at *
  dsimp only at held ⊢
  rw [held, documentOf_of_isPlain q eventPlain, documentId, plain.absolute_eq]
  by_cases same : e.path = p
  · subst same
    rw [beq_self_eq_true, if_pos rfl, if_pos rfl]
    rfl
  · have differs : p.toString ≠ e.path.toString := fun text =>
      same (plain.eq_of_toString_eq eventPlain text).symm
    rw [if_neg (by simpa using differs), if_neg same, pendingFor, documentId, plain.absolute_eq]

theorem Tidy.submitAll {q : Queue τ} (tidy : q.Tidy) (now : τ) {es : List Event}
    (plain : ∀ e ∈ es, e.path.IsPlain) : (q.submitAll now es).Tidy := by
  induction es generalizing q with
  | nil => exact tidy
  | cons e rest ih =>
    obtain ⟨first, later⟩ := List.forall_mem_cons.mp plain
    exact ih (tidy.submit now first) later

theorem running_submitAll (q : Queue τ) (now : τ) (es : List Event) :
    (q.submitAll now es).running = q.running := by
  induction es generalizing q with
  | nil => rfl
  | cons e rest ih => exact ih (q.submit now e)

theorem pendingFor_submitAll (q : Queue τ) (now : τ) {es : List Event}
    (eventsPlain : ∀ e ∈ es, e.path.IsPlain) {p : Path} (plain : p.IsPlain) :
    (q.submitAll now es).pendingFor p = (latest es p).or (q.pendingFor p) := by
  induction es generalizing q with
  | nil => rfl
  | cons e rest ih =>
    obtain ⟨first, later⟩ := List.forall_mem_cons.mp eventsPlain
    have after := ih (q.submit now e) later
    rw [pendingFor_submit q now first plain] at after
    have split : latest (e :: rest) p = (latest rest p).or (latest [e] p) :=
      latest_append [e] rest p
    rw [split, latest_singleton]
    refine after.trans ?_
    cases latest rest p with
    | some found => rfl
    | none => by_cases same : e.path = p <;> simp [same]

def afterApplying (rest : Queue τ) (now : τ) (reaction : Reaction σ) : Queue τ :=
  (rest.submitAll now reaction.submitted).settle reaction.failure.isSome

theorem afterApplying_frame (rest : Queue τ) (now : τ) {reaction : Reaction σ}
    (silent : reaction.submitted = []) :
    (rest.afterApplying now reaction).pending = rest.pending ∧
      (rest.afterApplying now reaction).cwd = rest.cwd ∧
      (rest.afterApplying now reaction).running = rest.running := by
  rw [afterApplying, silent, settle]
  split <;> exact ⟨rfl, rfl, rfl⟩

end Submitting

section Draining

variable [LE τ] [DecidableLE τ]

theorem pop?_eq_some {q rest : Queue τ} {onlyDue : Bool} {now : τ} {e : Event}
    (popped : q.pop? onlyDue now = some (e, rest)) :
    ∃ document due, q.pending.get? document = some (e, due) ∧
      rest = { q with pending := q.pending.erase document } := by
  obtain ⟨entry, first, same⟩ := Option.map_eq_some_iff.mp popped
  cases same
  exact ⟨entry.1, entry.2.2,
    OrderedMap.get?_eq_some_iff.mpr (List.mem_of_find?_eq_some first), rfl⟩

theorem size_of_pop? {q rest : Queue τ} {onlyDue : Bool} {now : τ} {e : Event}
    (popped : q.pop? onlyDue now = some (e, rest)) : rest.size < q.size := by
  obtain ⟨document, due, held, rfl⟩ := pop?_eq_some popped
  have member := OrderedMap.get?_eq_some_iff.mp held
  rw [size, size, OrderedMap.size, OrderedMap.size, OrderedMap.entries_erase]
  exact List.length_filter_lt_length_iff_exists.mpr ⟨_, member, by simp⟩

theorem Tidy.pop? {q rest : Queue τ} (tidy : q.Tidy) {onlyDue : Bool} {now : τ} {e : Event}
    (popped : q.pop? onlyDue now = some (e, rest)) :
    e.path.IsPlain ∧ rest.Tidy ∧ q.pendingFor e.path = some e ∧
      ∀ p : Path, p.IsPlain →
        rest.pendingFor p = if e.path = p then none else q.pendingFor p := by
  obtain ⟨document, due, held, rfl⟩ := pop?_eq_some popped
  obtain ⟨plain, named⟩ := tidy.plain document _ held
  rw [documentOf_of_isPlain q plain] at named
  subst named
  refine ⟨plain, ⟨fun other entry kept => ?_⟩, ?_, fun p pathPlain => ?_⟩
  · rw [OrderedMap.get?_erase] at kept
    split at kept
    · cases kept
    · exact tidy.plain other entry kept
  · rw [pendingFor, documentId, plain.absolute_eq, held]
    rfl
  · rw [pendingFor, pendingFor, OrderedMap.get?_erase, documentId, pathPlain.absolute_eq]
    by_cases same : e.path = p
    · subst same
      simp
    · have differs : p.toString ≠ e.path.toString := by
        intro text
        rw [← plain.ofString_toString, ← text, pathPlain.ofString_toString] at same
        exact same rfl
      rw [if_neg (by simpa using differs), if_neg same]

variable [Add τ]

theorem drain_keeps (good : Queue τ → σ → Prop) {consume : Consumer σ} {onlyDue : Bool} {now : τ}
    (step : ∀ q s e rest, good q s → q.pop? onlyDue now = some (e, rest) →
      good (rest.afterApplying now (consume s e)) (consume s e).state)
    (fuel : Nat) {q : Queue τ} {s : σ} (start : good q s) :
    good (drain consume onlyDue now fuel q s).queue (drain consume onlyDue now fuel q s).state := by
  induction fuel generalizing q s with
  | zero => exact start
  | succ fuel ih =>
    rw [drain]
    split
    · exact start
    · rename_i e rest popped
      exact ih (step q s e rest start popped)

theorem size_drain {consume : Consumer σ} (silent : ∀ s e, (consume s e).submitted = []) (now : τ)
    {fuel : Nat} {q : Queue τ} (enough : q.size ≤ fuel) (s : σ) :
    (drain consume false now fuel q s).queue.size = 0 := by
  induction fuel generalizing q s with
  | zero => exact Nat.le_zero.mp enough
  | succ fuel ih =>
    rw [drain]
    split
    · rename_i empty
      have missing := Option.map_eq_none_iff.mp empty
      rw [first?, List.find?_eq_none] at missing
      rw [size, OrderedMap.size, List.length_eq_zero_iff, List.eq_nil_iff_forall_not_mem]
      exact fun entry member => missing entry member rfl
    · rename_i e rest popped
      have shorter := size_of_pop? popped
      have same := (rest.afterApplying_frame now (silent s e)).1
      refine ih ?_ (consume s e).state
      rw [size] at shorter ⊢
      rw [← afterApplying, same]
      omega

end Draining

end Queue

end KeyAtlas.Update
