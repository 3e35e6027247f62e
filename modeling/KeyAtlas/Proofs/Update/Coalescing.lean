import KeyAtlas.Proofs.Indexer.LastTouch
import KeyAtlas.Proofs.Service.Convergence

namespace KeyAtlas

open Update

/-! ### Every history of an indexer -/

namespace World

def given (h : Host) (excludePatterns : List String) (historyLimit : Int)
    (history : List (Index.Operation Definition)) (disk : Disk) : World :=
  ⟨{ Indexer.make h excludePatterns with historyLimit := historyLimit, index := .after history },
    disk⟩

def after (w : World) (actions : List Action) : World :=
  actions.foldl perform w

theorem perform_sound {w : World} (sound : w.indexer.index.Sound) (action : Action) :
    (w.perform action).indexer.index.Sound := by
  cases action with
  | scan => exact Indexer.scan_sound sound w.disk
  | refresh => exact Indexer.scan_sound Index.sound_empty w.disk
  | dispose => exact Index.sound_empty
  | update kind path => exact (Indexer.apply_sound w.disk sound ⟨kind, .ofString path⟩).1
  | edit disk => exact sound

theorem after_frame (w : World) (actions : List Action) :
    (w.after actions).indexer.host = w.indexer.host ∧
      (w.indexer.index.Sound → (w.after actions).indexer.index.Sound) := by
  induction actions generalizing w with
  | nil => exact ⟨rfl, id⟩
  | cons action rest ih =>
    have later := ih (w.perform action)
    exact ⟨later.1.trans (w.perform_frame action).1,
      fun sound => later.2 (perform_sound sound action)⟩

end World

/-! ### What the last update of a document decides -/

namespace Host

def lastOf (h : Host) (es : List Event) (document : String) : Option Event :=
  es.reverse.find? fun e => h.documentId e.path == document

theorem lastOf_append (h : Host) (es later : List Event) (document : String) :
    h.lastOf (es ++ later) document = (h.lastOf later document).or (h.lastOf es document) := by
  rw [lastOf, List.reverse_append, List.find?_append, lastOf, lastOf]

theorem lastOf_singleton (h : Host) (e : Event) (document : String) :
    h.lastOf [e] document = if h.documentId e.path = document then some e else none := by
  simp [lastOf, List.find?_singleton]

theorem documentId_of_lastOf {h : Host} {es : List Event} {document : String} {e : Event}
    (found : h.lastOf es document = some e) : e ∈ es ∧ h.documentId e.path = document :=
  ⟨List.mem_reverse.mp (List.mem_of_find?_eq_some found), by simpa using List.find?_some found⟩

end Host

namespace Indexer

/-- The indexer after these updates, one by one. One that fails does not keep the next from being
applied. -/
def applyAll (i : Indexer) (disk : Disk) (es : List Event) : Indexer :=
  es.foldl (fun i e => (i.apply disk e).1) i

def settled (i : Indexer) (disk : Disk) (last : Option Event) (document : String) :
    List Definition :=
  match last with
  | none => i.index.definitionsFor document
  | some e => if i.isExcluded e.path then i.index.definitionsFor document else i.updated disk e

variable {i : Indexer} {disk : Disk} {e : Event}

theorem isExcluded_congr {p q : Path} (plain : (i.host.cwd.absolute p).IsPlain)
    (plain' : (i.host.cwd.absolute q).IsPlain) (same : i.host.documentId p = i.host.documentId q) :
    i.isExcluded p = i.isExcluded q := by
  have path := plain.eq_of_toString_eq plain' same
  rw [isExcluded, isExcluded, path]

theorem isExcluded_apply (i : Indexer) (disk : Disk) (e : Event) (p : Path) :
    (i.apply disk e).1.isExcluded p = i.isExcluded p := by
  rw [isExcluded_of_frame (i.apply_frame disk e)]

/-- Applying an update before the last one of a document changes nothing for it, and without a later
one it is the last one itself. -/
theorem settled_apply (sound : i.index.Sound) (plain : (i.host.cwd.absolute e.path).IsPlain)
    {document : String} {last : Option Event}
    (named : ∀ l, last = some l →
      (i.host.cwd.absolute l.path).IsPlain ∧ i.host.documentId l.path = document) :
    (i.apply disk e).1.settled disk last document =
      i.settled disk (last.or (i.host.lastOf [e] document)) document := by
  have contents := (apply_sound disk sound e).2 document
  rw [Host.lastOf_singleton]
  cases last with
  | none =>
    by_cases here : i.host.documentId e.path = document
    · cases excluded : i.isExcluded e.path <;> simp [settled, contents, here, excluded]
    · simp [settled, contents, here]
  | some l =>
    obtain ⟨lastPlain, lastNamed⟩ := named l rfl
    rw [Option.some_or, settled, settled, isExcluded_apply]
    cases excluded : i.isExcluded l.path with
    | true =>
      -- Both are of one path, so the earlier one is excluded too.
      have untouched : ¬(i.isExcluded e.path = false ∧ i.host.documentId e.path = document) := by
        intro touched
        have same := isExcluded_congr plain lastPlain (touched.2.trans lastNamed.symm)
        rw [touched.1, excluded] at same
        cases same
      simp [contents, untouched]
    | false => simp [updated, Host.defined, (i.apply_frame disk e).1]

theorem applyAll_spec (sound : i.index.Sound) (disk : Disk) {es : List Event}
    (plain : ∀ e ∈ es, (i.host.cwd.absolute e.path).IsPlain) :
    (i.applyAll disk es).index.Sound ∧ ∀ document,
      (i.applyAll disk es).index.definitionsFor document =
        i.settled disk (i.host.lastOf es document) document := by
  induction es generalizing i with
  | nil => exact ⟨sound, fun _ => rfl⟩
  | cons e rest ih =>
    obtain ⟨first, later⟩ := List.forall_mem_cons.mp plain
    have frame := i.apply_frame disk e
    have after := ih (apply_sound disk sound e).1 (by simpa only [frame.1] using later)
    refine ⟨after.1, fun document => (after.2 document).trans ?_⟩
    rw [frame.1, settled_apply sound first, ← Host.lastOf_append, List.singleton_append]
    intro l found
    obtain ⟨member, named⟩ := Host.documentId_of_lastOf found
    exact ⟨later l member, named⟩

end Indexer

/-! ### What a queue keeps -/

namespace Update

structure Submission (τ : Type) where
  time : τ
  kind : Kind
  path : String

def Submission.event {τ : Type} (s : Submission τ) : Event :=
  ⟨s.kind, .ofString s.path⟩

variable {τ : Type}

namespace Queue

def pendingOf (q : Queue τ) (document : String) : Option Event :=
  (q.pending.get? document).map Prod.fst

/-- The queue works in the directory of a host and keeps updates under their documents. -/
structure Serves (q : Queue τ) (h : Host) : Prop where
  cwd : q.cwd = h.cwd
  named : ∀ document e, q.pendingOf document = some e →
    (h.cwd.absolute e.path).IsPlain ∧ h.documentId e.path = document

variable {q : Queue τ} {h : Host}

theorem Serves.settle (serves : q.Serves h) (failed : Bool) : (q.settle failed).Serves h := by
  rw [Queue.settle]
  split
  · exact serves
  · exact ⟨serves.cwd, serves.named⟩

theorem pendingOf_settle (q : Queue τ) (failed : Bool) (document : String) :
    (q.settle failed).pendingOf document = q.pendingOf document := by
  rw [Queue.settle]
  split <;> rfl

section Popping

variable [LE τ] [DecidableLE τ]

theorem Serves.pop? (serves : q.Serves h) {onlyDue : Bool} {now : τ} {e : Event} {rest : Queue τ}
    (popped : q.pop? onlyDue now = some (e, rest)) :
    (h.cwd.absolute e.path).IsPlain ∧ rest.Serves h ∧ ∀ document,
      q.pendingOf document = (rest.pendingOf document).or (h.lastOf [e] document) := by
  obtain ⟨key, due, held, rfl⟩ := pop?_eq_some popped
  have pending : q.pendingOf key = some e := by rw [pendingOf, held, Option.map_some]
  obtain ⟨plain, named⟩ := serves.named key e pending
  have left : ∀ document, Queue.pendingOf { q with pending := q.pending.erase key } document =
      if document = key then none else q.pendingOf document := by
    intro document
    rw [pendingOf, OrderedMap.get?_erase, pendingOf]
    by_cases here : document = key <;> simp [here]
  refine ⟨plain, ⟨serves.cwd, fun document other found => ?_⟩, fun document => ?_⟩
  · rw [left] at found
    split at found
    · cases found
    · exact serves.named document other found
  · rw [left, Host.lastOf_singleton, named]
    by_cases here : document = key
    · simp [here, pending]
    · simp [here, Ne.symm here]

/-- The queue and the indexer still lead each document to where they led it at the start. -/
structure Leads (q₀ : Queue τ) (i₀ : Indexer) (disk : Disk) (q : Queue τ) (i : Indexer) : Prop where
  serves : q.Serves i.host
  sound : i.index.Sound
  settled : ∀ document, i.settled disk (q.pendingOf document) document =
    i₀.settled disk (q₀.pendingOf document) document

theorem Leads.apply {q₀ rest : Queue τ} {i₀ i : Indexer} {disk : Disk}
    (leads : Leads q₀ i₀ disk q i) {onlyDue : Bool} {now : τ} {e : Event}
    (popped : q.pop? onlyDue now = some (e, rest)) (failed : Bool) :
    Leads q₀ i₀ disk (rest.settle failed) (i.apply disk e).1 := by
  obtain ⟨plain, left, pends⟩ := leads.serves.pop? popped
  refine ⟨?_, (Indexer.apply_sound disk leads.sound e).1, fun document => ?_⟩
  · rw [(i.apply_frame disk e).1]
    exact left.settle failed
  · rw [pendingOf_settle, ← leads.settled, pends]
    exact Indexer.settled_apply leads.sound plain (left.named document)

end Popping

variable [Add τ]

def take (q : Queue τ) (submissions : List (Submission τ)) : Queue τ :=
  submissions.foldl (fun q s => q.submit s.time s.event) q

theorem Serves.submit (serves : q.Serves h) (now : τ) {e : Event}
    (plain : (h.cwd.absolute e.path).IsPlain) :
    (q.submit now e).Serves h ∧ ∀ document,
      (q.submit now e).pendingOf document = (h.lastOf [e] document).or (q.pendingOf document) := by
  have key : q.documentOf e = h.documentId e.path := by
    rw [documentOf, serves.cwd, Host.documentId]
  have pends : ∀ document, (q.submit now e).pendingOf document =
      (h.lastOf [e] document).or (q.pendingOf document) := by
    intro document
    rw [pendingOf, get?_submit, key, Host.lastOf_singleton, pendingOf]
    by_cases here : h.documentId e.path = document
    · simp [here]
    · simp [here, Ne.symm here]
  refine ⟨⟨serves.cwd, fun document other found => ?_⟩, pends⟩
  rw [pends, Host.lastOf_singleton] at found
  split at found
  · rename_i here
    cases found
    exact ⟨plain, here⟩
  · exact serves.named document other found

theorem Serves.take (serves : q.Serves h) {submissions : List (Submission τ)}
    (plain : ∀ s ∈ submissions, (h.cwd.absolute s.event.path).IsPlain) :
    (q.take submissions).Serves h ∧ ∀ document,
      (q.take submissions).pendingOf document =
        (h.lastOf (submissions.map Submission.event) document).or (q.pendingOf document) := by
  induction submissions generalizing q with
  | nil => exact ⟨serves, fun _ => rfl⟩
  | cons s rest ih =>
    obtain ⟨first, later⟩ := List.forall_mem_cons.mp plain
    obtain ⟨next, pends⟩ := serves.submit s.time first
    obtain ⟨last, rests⟩ := ih next later
    refine ⟨last, fun document => (rests document).trans ?_⟩
    rw [pends, ← Option.or_assoc, ← Host.lastOf_append, List.map_cons, List.singleton_append]

variable [LE τ] [DecidableLE τ]

theorem Leads.flush {q₀ : Queue τ} {i₀ : Indexer} {disk : Disk} {l : LiveIndex}
    (leads : Leads q₀ i₀ disk q l.indexer) (now : τ) (fuel : Nat) :
    let drained := q.flush (LiveIndex.consume disk) now fuel l
    Leads q₀ i₀ disk drained.queue drained.state.indexer := by
  refine drain_keeps (fun (q : Queue τ) (l : LiveIndex) => Leads q₀ i₀ disk q l.indexer) ?_ fuel
    leads
  intro q l e rest leads popped
  obtain ⟨silent, indexer⟩ := LiveIndex.consume_spec disk l e
  rw [afterApplying, silent, indexer]
  exact leads.apply popped _

theorem Serves.flush {l : LiveIndex} (serves : q.Serves l.indexer.host)
    (sound : l.indexer.index.Sound) (disk : Disk) (now : τ) {fuel : Nat} (enough : q.size ≤ fuel) :
    let drained := q.flush (LiveIndex.consume disk) now fuel l
    drained.queue.size = 0 ∧ drained.state.indexer.index.Sound ∧ ∀ document,
      drained.state.indexer.index.definitionsFor document =
        l.indexer.settled disk (q.pendingOf document) document := by
  have empty := size_drain (fun l e => (LiveIndex.consume_spec disk l e).1) now enough l
  have start : Leads q l.indexer disk q l.indexer := ⟨serves, sound, fun _ => rfl⟩
  have leads := start.flush now fuel
  refine ⟨empty, leads.sound, fun document => ?_⟩
  rw [← leads.settled, pendingOf, OrderedMap.get?]
  rw [Queue.flush, List.length_eq_zero_iff.mp empty]
  rfl

end Queue

namespace Feed

def ofIndexer (i : Indexer) (observer : Option Observer) (delay : τ) : Feed τ LiveIndex :=
  ⟨.make i.host.cwd delay, none, ⟨i, observer, []⟩, [], 0⟩

variable [Add τ] [LE τ] [DecidableLE τ]

def take (f : Feed τ LiveIndex) (disk : Disk) (submissions : List (Submission τ)) :
    Feed τ LiveIndex :=
  submissions.foldl (fun f s => f.submit (LiveIndex.consume disk) s.time s.event) f

theorem take_of_idle {f : Feed τ LiveIndex} (idle : f.queue.running = false) (disk : Disk)
    (submissions : List (Submission τ)) :
    f.take disk submissions = { f with queue := f.queue.take submissions } := by
  induction submissions generalizing f with
  | nil => rfl
  | cons s rest ih =>
    have first : f.submit (LiveIndex.consume disk) s.time s.event =
        { f with queue := f.queue.submit s.time s.event } :=
      submitAll_of_idle _ s.time idle [s.event]
    rw [take, List.foldl_cons, first]
    exact ih (f := { f with queue := f.queue.submit s.time s.event }) idle

/-- Whatever an indexer has gone through, a queue that merges the updates of each document and then
flushes them leads it to an index like that of the same updates applied one by one. -/
theorem flush_alike_applyAll {cwd : String} (absolute : (Path.ofString cwd).isAbsolute = true)
    (roots includePatterns unlistedPatterns excludePatterns : List String) (historyLimit : Int)
    (history : List (Index.Operation Definition)) (disk : Disk) (actions : List Action)
    {w : World}
    (led : (World.given (.make (.ofString cwd) (roots.map .ofString) includePatterns
      unlistedPatterns) excludePatterns historyLimit history disk).after actions = w)
    (observer : Option Observer) (delay now : τ) (submissions : List (Submission τ)) :
    let flushed := (((ofIndexer w.indexer observer delay).take w.disk submissions).flush
      (LiveIndex.consume w.disk) now).1
    flushed.queue.size = 0 ∧ flushed.state.indexer.index.Alike
      (w.indexer.applyAll w.disk (submissions.map Submission.event)).index := by
  have lexical := Host.make_isLexical absolute roots includePatterns unlistedPatterns
  obtain ⟨host, keeps⟩ := World.after_frame (World.given (.make (.ofString cwd)
    (roots.map .ofString) includePatterns unlistedPatterns) excludePatterns historyLimit history
    disk) actions
  rw [led] at host keeps
  have sound := keeps ⟨_, Index.represents_after history⟩
  have plain : ∀ s : Submission τ, (w.indexer.host.cwd.absolute s.event.path).IsPlain := by
    intro s
    rw [host]
    exact lexical.absolute_isPlain s.path
  have fresh : (Queue.make w.indexer.host.cwd delay).Serves w.indexer.host := ⟨rfl, nofun⟩
  obtain ⟨serves, pends⟩ := fresh.take fun s (_ : s ∈ submissions) => plain s
  obtain ⟨empty, soundFlushed, settled⟩ := Queue.Serves.flush (l := ⟨w.indexer, observer, []⟩)
    serves sound w.disk now (Nat.le_add_right _ 0)
  have plains : ∀ e ∈ submissions.map Submission.event,
      (w.indexer.host.cwd.absolute e.path).IsPlain := by
    intro e member
    obtain ⟨s, _, rfl⟩ := List.mem_map.mp member
    exact plain s
  obtain ⟨soundApplied, applied⟩ := Indexer.applyAll_spec sound w.disk plains
  rw [take_of_idle rfl]
  refine ⟨empty, soundFlushed.alike soundApplied fun document => ?_⟩
  rw [applied]
  refine (settled document).trans ?_
  rw [pends]
  exact congrArg (w.indexer.settled w.disk · document) Option.or_none

def renamed : List (Submission Nat) :=
  [⟨4, .deleted, "/w/a.yaml"⟩, ⟨4, .created, "/w/b.yaml"⟩, ⟨2, .changed, "w/a.yaml"⟩,
    ⟨9, .created, "/w/c.yaml"⟩, ⟨9, .deleted, "/w/none/../b.yaml"⟩, ⟨7, .created, "/w/out/d.yaml"⟩]

theorem flush_alike_applyAll_renamed :
    (Path.ofString "/").isAbsolute = true ∧
      ∃ w, (World.given (.make (.ofString "/") (["/w"].map .ofString) ["*.yaml"] [])
          ["**/out/*"] 256 [.add ⟨["lr"], "/w/a.yaml", ⟨0, 0, 2⟩, by decide⟩]
          (.ofTree Service.solitary)).after [.scan, .update .created "/w/a.yaml"] = w ∧
        ((((ofIndexer w.indexer none 3).take w.disk renamed).flush
            (LiveIndex.consume w.disk) 5).1.queue.size = 0 ∧
          (((ofIndexer w.indexer none 3).take w.disk renamed).flush
            (LiveIndex.consume w.disk) 5).1.state.indexer.index.Alike
            (w.indexer.applyAll w.disk (renamed.map Submission.event)).index) :=
  ⟨by decide, _, rfl, flush_alike_applyAll (by decide) ["/w"] ["*.yaml"] [] ["**/out/*"] 256 _ _ _
    rfl none 3 5 renamed⟩

end Feed

end Update

end KeyAtlas
