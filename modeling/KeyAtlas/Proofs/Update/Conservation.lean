import KeyAtlas.Proofs.Update.Draining

namespace KeyAtlas.Update

inductive Happening where
  | submitted (e : Event)
  | taken (e : Event)
  | finished (failed : Bool)
  | cleared (count : Nat)

namespace Happening

def submission? : Happening → Option Event
  | submitted e => some e
  | taken _ | finished _ | cleared _ => none

def isSubmission (h : Happening) : Bool :=
  h.submission?.isSome

def isTaking : Happening → Bool
  | taken _ => true
  | submitted _ | finished _ | cleared _ => false

def isFailure : Happening → Bool
  | finished failed => failed
  | submitted _ | taken _ | cleared _ => false

def dropped : Happening → Nat
  | cleared count => count
  | submitted _ | taken _ | finished _ => 0

def totalDropped : List Happening → Nat
  | [] => 0
  | first :: later => first.dropped + totalDropped later

theorem totalDropped_concat (trace : List Happening) (last : Happening) :
    totalDropped (trace ++ [last]) = totalDropped trace + last.dropped := by
  induction trace with
  | nil => exact Nat.add_comm last.dropped 0
  | cons first later ih => rw [List.cons_append, totalDropped, ih, totalDropped, Nat.add_assoc]

/-- Whether an update of the document that was pending is not pending any more. -/
def ends (name : Event → String) (document : String) : Happening → Bool
  | submitted e | taken e => name e == document
  | cleared _ => true
  | finished _ => false

end Happening

open Happening

/-- The submissions that nothing later has ended, in their order. -/
def waiting (name : Event → String) : List Happening → List Event
  | [] => []
  | first :: later =>
    (first.submission?.filter fun e => !later.any (ends name (name e))).toList ++ waiting name later

theorem waiting_concat (name : Event → String) (trace : List Happening) (last : Happening) :
    waiting name (trace ++ [last]) =
      (waiting name trace).filter (fun e => !last.ends name (name e)) ++
        last.submission?.toList := by
  induction trace with
  | nil => cases last <;> rfl
  | cons first later ih =>
    rw [List.cons_append, waiting, waiting, ih, List.filter_append, List.append_assoc]
    congr 1
    cases submitted : first.submission? with
    | none => rfl
    | some e =>
      cases ended : later.any (ends name (name e)) <;>
        cases now : last.ends name (name e) <;> simp [Option.filter, ended, now]

structure Session (τ : Type) where
  queue : Queue τ
  running : Option Event
  trace : List Happening

inductive Act (τ : Type) where
  | submit (now : τ) (e : Event)
  | take (onlyDue : Bool) (now : τ)
  | finish (failed : Bool)
  | clear

variable {τ σ : Type}

namespace Queue

/-! ### What an operation does to the pending updates -/

/-- Every pending update is kept under its document. -/
def Named (q : Queue τ) : Prop :=
  ∀ entry ∈ q.pending.entries, entry.1 = q.documentOf entry.2.1

theorem Named.keys {q : Queue τ} (named : q.Named) :
    q.events.map q.documentOf = q.pending.keys := by
  rw [events, OrderedMap.values, OrderedMap.keys, List.map_map, List.map_map]
  exact List.map_congr_left fun entry member => (named entry member).symm

theorem Named.erase {q : Queue τ} (named : q.Named) (document : String) :
    Named { q with pending := q.pending.erase document } ∧
      events { q with pending := q.pending.erase document } =
        q.events.filter fun e => q.documentOf e != document := by
  refine ⟨fun entry kept => named entry (List.mem_of_mem_filter kept), ?_⟩
  rw [events, events, OrderedMap.values, OrderedMap.values, OrderedMap.entries_erase, List.map_map,
    List.map_map, List.filter_map]
  congr 1
  refine List.filter_congr fun entry member => ?_
  rw [named entry member]
  rfl

theorem Named.submit [Add τ] {q : Queue τ} (named : q.Named) (now : τ) (e : Event) :
    (q.submit now e).Named ∧
      (q.submit now e).events =
        q.events.filter (fun other => q.documentOf other != q.documentOf e) ++ [e] := by
  have entries : (q.submit now e).pending.entries =
      (q.pending.erase (q.documentOf e)).entries ++ [(q.documentOf e, e, now + q.debounce)] :=
    OrderedMap.entries_insertLast _ _ _
  obtain ⟨left, events⟩ := named.erase (q.documentOf e)
  constructor
  · intro entry member
    rw [entries, List.mem_append, List.mem_singleton] at member
    rcases member with before | rfl
    · exact left entry before
    · rfl
  · rw [← events, Queue.events, Queue.events, OrderedMap.values, OrderedMap.values, entries]
    simp

theorem coalesced_submit [Add τ] (q : Queue τ) (now : τ) (e : Event) :
    (q.submit now e).coalesced + (q.submit now e).size = q.coalesced + q.size + 1 := by
  have size : (q.submit now e).size = (q.pending.erase (q.documentOf e)).size + 1 := by
    rw [Queue.size, OrderedMap.size, Queue.submit]
    dsimp only
    rw [OrderedMap.entries_insertLast, List.length_append, List.length_singleton]
    rfl
  have left := OrderedMap.size_erase q.pending (q.documentOf e)
  rw [size, Queue.submit, Queue.size]
  dsimp only
  split at left <;> rename_i present <;> simp only [present] <;> simp <;> omega

end Queue

namespace Session

def start (cwd : Path) (delay : τ) : Session τ :=
  ⟨.make cwd delay, none, []⟩

/-- The pending updates are those that wait, and every update is accounted for once. -/
structure Accounted (cwd : Path) (s : Session τ) : Prop where
  cwd : s.queue.cwd = cwd
  named : s.queue.Named
  waits : s.queue.events = waiting s.queue.documentOf s.trace
  conserved : s.trace.countP isSubmission = s.queue.coalesced +
    s.trace.countP isTaking + totalDropped s.trace + s.queue.size
  applied : s.queue.applied + s.trace.countP isFailure + s.running.toList.length =
    s.trace.countP isTaking

variable {cwd : Path} {s : Session τ}

theorem Accounted.next (holds : s.Accounted cwd) {q : Queue τ} {running : Option Event}
    {h : Happening} (same : q.cwd = s.queue.cwd) (named : q.Named)
    (events : q.events = s.queue.events.filter
      (fun e => !h.ends s.queue.documentOf (s.queue.documentOf e)) ++ h.submission?.toList)
    (conserved : q.coalesced + h.isTaking.toNat + h.dropped + q.size =
      s.queue.coalesced + s.queue.size + h.isSubmission.toNat)
    (applied : q.applied + h.isFailure.toNat + running.toList.length =
      s.queue.applied + s.running.toList.length + h.isTaking.toNat) :
    Accounted cwd ⟨q, running, s.trace ++ [h]⟩ := by
  have one : ∀ p : Happening → Bool, (s.trace ++ [h]).countP p = s.trace.countP p + (p h).toNat := by
    intro p
    rw [List.countP_append, List.countP_singleton]
    cases p h <;> rfl
  have before := holds.conserved
  have finished := holds.applied
  refine ⟨same.trans holds.cwd, named, ?_, ?_, ?_⟩
  · have name : q.documentOf = s.queue.documentOf := by
      funext e
      rw [Queue.documentOf, same, Queue.documentOf]
    rw [name, waiting_concat, ← holds.waits]
    exact events
  · simp only [one, totalDropped_concat]
    omega
  · simp only [one]
    omega

theorem accounted_start (cwd : Path) (delay : τ) : (start cwd delay).Accounted cwd :=
  ⟨rfl, nofun, rfl, rfl, rfl⟩

/-! ### What every act keeps -/

variable [Add τ] [LE τ] [DecidableLE τ]

/-- One update is applied at a time. -/
def perform (s : Session τ) : Act τ → Session τ
  | .submit now e => { s with queue := s.queue.submit now e, trace := s.trace ++ [.submitted e] }
  | .take onlyDue now =>
    match s.running, s.queue.pop? onlyDue now with
    | none, some (e, rest) => ⟨rest, some e, s.trace ++ [.taken e]⟩
    | _, _ => s
  | .finish failed =>
    match s.running with
    | none => s
    | some _ => ⟨s.queue.settle failed, none, s.trace ++ [.finished failed]⟩
  | .clear => { s with queue := s.queue.clear, trace := s.trace ++ [.cleared s.queue.size] }

def performAll (s : Session τ) (acts : List (Act τ)) : Session τ :=
  acts.foldl perform s

theorem Accounted.submit (holds : s.Accounted cwd) (now : τ) (e : Event) :
    (s.perform (.submit now e)).Accounted cwd := by
  obtain ⟨named, events⟩ := holds.named.submit now e
  refine holds.next rfl named ?_ ?_ rfl
  · rw [events]
    congr 1
    refine List.filter_congr fun other _ => ?_
    rw [ends, BEq.comm]
    rfl
  · have counts := s.queue.coalesced_submit now e
    simpa [isTaking, dropped, isSubmission, submission?] using counts

theorem Accounted.take (holds : s.Accounted cwd) (onlyDue : Bool) (now : τ) :
    (s.perform (.take onlyDue now)).Accounted cwd := by
  rw [perform]
  split
  · rename_i e rest idle popped
    obtain ⟨document, due, held, rfl⟩ := Queue.pop?_eq_some popped
    have name : document = s.queue.documentOf e :=
      holds.named _ (OrderedMap.get?_eq_some_iff.mp held)
    obtain ⟨named, events⟩ := holds.named.erase document
    refine holds.next rfl named ?_ ?_ ?_
    · rw [events, submission?, Option.toList_none, List.append_nil]
      refine List.filter_congr fun other _ => ?_
      rw [name, ends, BEq.comm]
      rfl
    · have size := OrderedMap.size_erase s.queue.pending document
      rw [OrderedMap.contains, held, Option.isSome_some, if_pos rfl] at size
      simp only [isTaking, dropped, isSubmission, submission?, Queue.size, ← size]
      simp
      omega
    · rw [idle]
      rfl
  · exact holds

theorem Accounted.finish (holds : s.Accounted cwd) (failed : Bool) :
    (s.perform (.finish failed)).Accounted cwd := by
  rw [perform]
  split
  · exact holds
  · rename_i e running
    have kept : s.queue.events = s.queue.events.filter (fun e =>
        !(finished failed).ends s.queue.documentOf (s.queue.documentOf e)) ++
          (finished failed).submission?.toList := by
      simp [ends, submission?]
    cases failed with
    | false =>
      refine holds.next rfl holds.named kept ?_ ?_
      · rfl
      · rw [running]
        rfl
    | true =>
      refine holds.next rfl holds.named kept ?_ ?_
      · rfl
      · rw [running]
        rfl

theorem Accounted.clear (holds : s.Accounted cwd) : (s.perform .clear).Accounted cwd := by
  have events : s.queue.clear.events = [] := rfl
  have size : s.queue.clear.size = 0 := rfl
  have coalesced : s.queue.clear.coalesced = s.queue.coalesced := rfl
  refine holds.next rfl nofun ?_ ?_ rfl
  · simp [events, ends, submission?]
  · simp [size, coalesced, isTaking, dropped, isSubmission, submission?]

theorem Accounted.performAll (holds : s.Accounted cwd) (acts : List (Act τ)) :
    (s.performAll acts).Accounted cwd := by
  induction acts generalizing s with
  | nil => exact holds
  | cons act rest ih =>
    refine ih ?_
    cases act with
    | submit now e => exact holds.submit now e
    | take onlyDue now => exact holds.take onlyDue now
    | finish failed => exact holds.finish failed
    | clear => exact holds.clear

theorem debounce_perform (s : Session τ) (act : Act τ) :
    (s.perform act).queue.debounce = s.queue.debounce := by
  cases act with
  | submit now e => rfl
  | take onlyDue now =>
    rw [perform]
    split
    · rename_i popped
      obtain ⟨document, due, held, rfl⟩ := Queue.pop?_eq_some popped
      rfl
    · rfl
  | finish failed =>
    rw [perform]
    split
    · rfl
    · cases failed <;> rfl
  | clear => rfl

theorem debounce_performAll (s : Session τ) (acts : List (Act τ)) :
    (s.performAll acts).queue.debounce = s.queue.debounce := by
  induction acts generalizing s with
  | nil => rfl
  | cons act rest ih => exact (ih (s.perform act)).trans (s.debounce_perform act)

theorem performAll_append (s : Session τ) (acts more : List (Act τ)) :
    s.performAll (acts ++ more) = (s.performAll acts).performAll more :=
  List.foldl_append

/-! ### Draining is made of acts -/

/-- The acts by which one update is taken and applied. -/
def applying (onlyDue : Bool) (now : τ) (reaction : Reaction σ) : List (Act τ) :=
  .take onlyDue now :: reaction.submitted.map (.submit now) ++ [.finish reaction.failure.isSome]

theorem performAll_submit (s : Session τ) (now : τ) (es : List Event) :
    s.performAll (es.map (.submit now)) =
      { s with queue := s.queue.submitAll now es, trace := s.trace ++ es.map .submitted } := by
  induction es generalizing s with
  | nil => simp [performAll, Queue.submitAll]
  | cons e rest ih =>
    have later := ih (s.perform (.submit now e))
    simpa [performAll, perform, Queue.submitAll] using later

theorem performAll_applying {onlyDue : Bool} {now : τ} (idle : s.running = none) {e : Event}
    {rest : Queue τ} (popped : s.queue.pop? onlyDue now = some (e, rest)) (reaction : Reaction σ) :
    s.performAll (applying onlyDue now reaction) =
      ⟨rest.afterApplying now reaction, none, s.trace ++ (.taken e ::
        reaction.submitted.map .submitted ++ [.finished reaction.failure.isSome])⟩ := by
  have taken : s.perform (.take onlyDue now) = ⟨rest, some e, s.trace ++ [.taken e]⟩ := by
    rw [perform, idle, popped]
  have first : s.performAll (.take onlyDue now :: reaction.submitted.map (.submit now)) =
      ⟨rest.submitAll now reaction.submitted, some e,
        s.trace ++ [.taken e] ++ reaction.submitted.map .submitted⟩ := by
    rw [performAll, List.foldl_cons, taken]
    exact performAll_submit _ now reaction.submitted
  rw [applying, performAll_append, first]
  simp [performAll, perform, Queue.afterApplying]

theorem performAll_applications (consume : Consumer σ) (onlyDue : Bool) (now : τ) (fuel : Nat)
    {s : Session τ} (idle : s.running = none) (state : σ) :
    let applied := s.queue.applications consume onlyDue now fuel state
    s.performAll (applied.flatMap fun a => applying onlyDue now a.2) =
      ⟨(Queue.drain consume onlyDue now fuel s.queue state).queue, none,
        s.trace ++ applied.flatMap fun a =>
          .taken a.1 :: a.2.submitted.map .submitted ++ [.finished a.2.failure.isSome]⟩ := by
  induction fuel generalizing s state with
  | zero =>
    obtain ⟨queue, running, trace⟩ := s
    cases idle
    simp [Queue.applications, Queue.drain, performAll]
  | succ fuel ih =>
    cases popped : s.queue.pop? onlyDue now with
    | none =>
      obtain ⟨drained, applied⟩ := Queue.drain_of_idle consume popped (fuel + 1) state
      obtain ⟨queue, running, trace⟩ := s
      cases idle
      simp [applied, drained, performAll]
    | some found =>
      obtain ⟨e, rest⟩ := found
      have first := performAll_applying idle popped (consume state e)
      have later := ih (s := s.performAll (applying onlyDue now (consume state e)))
        (by rw [first]) (consume state e).state
      rw [first] at later
      intro applied
      rw [show applied = _ from Queue.applications_of_pop? consume popped fuel state,
        List.flatMap_cons, List.flatMap_cons, performAll_append, first, later,
        Queue.drain_of_pop? consume popped, List.append_assoc]

theorem drain_leads (consume : Consumer σ) (onlyDue : Bool) (now : τ) (fuel : Nat) {s : Session τ}
    (idle : s.running = none) (state : σ) :
    ∃ acts, (s.performAll acts).queue =
        (Queue.drain consume onlyDue now fuel s.queue state).queue ∧
      (s.performAll acts).running = none ∧
      (s.performAll acts).trace.countP isTaking = s.trace.countP isTaking +
        (Queue.drain consume onlyDue now fuel s.queue state).count := by
  have performed := performAll_applications consume onlyDue now fuel idle state
  have once : ∀ a : Event × Reaction σ, List.countP isTaking
      (.taken a.1 :: a.2.submitted.map .submitted ++ [.finished a.2.failure.isSome]) = 1 := by
    intro a
    have untaken : (a.2.submitted.map submitted).countP isTaking = 0 :=
      List.countP_eq_zero.mpr (by simp [isTaking])
    rw [List.countP_append, List.countP_cons, untaken]
    rfl
  refine ⟨_, congrArg Session.queue performed, congrArg Session.running performed, ?_⟩
  rw [performed, List.countP_append, List.countP_flatMap, Function.comp_def, Queue.count_drain]
  simp only [once, List.map_const', List.sum_replicate_nat, Nat.mul_one]

/-- Whatever is submitted, taken, applied and dropped in whatever order, and at whatever times, at
most one update of a document is pending, the last one that nothing has ended since, and all that
was submitted is accounted for. Draining the queue is made of such acts. -/
theorem conserved_after (cwd : Path) (delay : τ) (acts : List (Act τ)) {s : Session τ}
    (led : (start cwd delay).performAll acts = s) :
    (s.queue.events.map s.queue.documentOf).Nodup ∧
      s.queue.events = waiting (fun e => documentId cwd e.path) s.trace ∧
      s.trace.countP isSubmission = s.queue.coalesced + s.trace.countP isTaking +
        totalDropped s.trace + s.queue.size ∧
      (s.running = none →
        s.queue.applied + s.trace.countP isFailure = s.trace.countP isTaking ∧
        ∀ {σ : Type} (consume : Consumer σ) (onlyDue : Bool) (now : τ) (fuel : Nat) (state : σ),
          ∃ more, (s.performAll more).running = none ∧
            (s.performAll more).queue =
              (Queue.drain consume onlyDue now fuel s.queue state).queue ∧
            (s.performAll more).trace.countP isTaking = s.trace.countP isTaking +
              (Queue.drain consume onlyDue now fuel s.queue state).count) := by
  have holds := (accounted_start cwd delay).performAll acts
  rw [led] at holds
  refine ⟨?_, ?_, holds.conserved, fun idle => ⟨?_, ?_⟩⟩
  · rw [holds.named.keys]
    exact s.queue.pending.keys_nodup
  · have name : s.queue.documentOf = fun e => documentId cwd e.path := by
      funext e
      rw [Queue.documentOf, holds.cwd]
    rw [← name]
    exact holds.waits
  · have applied := holds.applied
    rwa [idle] at applied
  · intro σ consume onlyDue now fuel state
    obtain ⟨more, queue, free, taken⟩ := drain_leads consume onlyDue now fuel idle state
    exact ⟨more, free, queue, taken⟩

def interrupted : List (Act Nat) :=
  [.submit 1 ⟨.changed, .ofString "/w/a.yaml"⟩, .submit 2 ⟨.created, .ofString "/w/b.yaml"⟩,
    .submit 2 ⟨.deleted, .ofString "x/../a.yaml"⟩, .take false 0,
    .submit 1 ⟨.changed, .ofString "/w/b.yaml"⟩, .finish true, .take true 6, .finish false]

theorem conserved_after_interrupted :
    ∃ s, (start (.ofString "/w") 3).performAll interrupted = s ∧ s.running = none ∧
      s.queue.events = [⟨.changed, .ofString "/w/b.yaml"⟩] ∧
      s.trace.countP isSubmission = s.queue.coalesced + s.trace.countP isTaking +
        totalDropped s.trace + s.queue.size ∧
      s.queue.applied + s.trace.countP isFailure = s.trace.countP isTaking := by
  have idle : ((start (.ofString "/w") 3).performAll interrupted).running = none := by
    decide +kernel
  obtain ⟨_, waits, conserved, applied⟩ := conserved_after (.ofString "/w") 3 interrupted rfl
  exact ⟨_, rfl, idle, waits.trans (by decide +kernel), conserved, (applied idle).1⟩

end Session

end KeyAtlas.Update
