import KeyAtlas.Log.Event
import KeyAtlas.OrderedMap
import KeyAtlas.Update.Event
/-!
The update queue. Only the latest update of each document stays pending, in the order of the
latest submissions, and it is due once its document has been quiet for the debounce delay. Times
are of any type that can be added and compared.
-/

namespace KeyAtlas.Update

structure Queue (τ : Type) where
  cwd : Path
  debounce : τ
  /-- The pending update of each document and when it is due. -/
  pending : OrderedMap String (Event × τ)
  /-- How many updates were applied without a failure. -/
  applied : Nat
  coalesced : Nat
  running : Bool

/-- What applying one update leads to: a new state, updates submitted meanwhile, what is reported,
and why it failed if it did. -/
structure Reaction (σ : Type) where
  state : σ
  submitted : List Event
  report : List Log.Event
  failure : Option String

abbrev Consumer (σ : Type) := σ → Event → Reaction σ

/-- A failure is reported after all that was reported before it. -/
def Reaction.fullReport {σ : Type} (r : Reaction σ) (e : Event) : List Log.Event :=
  r.report ++ (r.failure.map fun reason =>
    Log.Event.applyFailed e.kind.name e.path.toString reason).toList

structure Drained (τ σ : Type) where
  queue : Queue τ
  state : σ
  report : List Log.Event
  count : Nat

/-- What a worker does next: it waits, until it is woken and at most for so long, or it applies what
is due. -/
inductive Turn (τ : Type) where
  | wait (limit : Option τ)
  | drain
  deriving DecidableEq

namespace Queue

variable {τ σ : Type}

def make (cwd : Path) (debounce : τ) : Queue τ :=
  ⟨cwd, debounce, .empty, 0, 0, false⟩

def documentOf (q : Queue τ) (e : Event) : String :=
  documentId q.cwd e.path

def events (q : Queue τ) : List Event :=
  q.pending.values.map Prod.fst

def size (q : Queue τ) : Nat :=
  q.pending.size

/-- Adds an update, which replaces a pending one of its document. -/
def submit [Add τ] (q : Queue τ) (now : τ) (e : Event) : Queue τ :=
  let document := q.documentOf e
  { q with
    pending := q.pending.insertLast document (e, now + q.debounce)
    coalesced := if q.pending.contains document then q.coalesced + 1 else q.coalesced }

def submitAll [Add τ] (q : Queue τ) (now : τ) (es : List Event) : Queue τ :=
  es.foldl (fun q e => q.submit now e) q

def clear (q : Queue τ) : Queue τ :=
  { q with pending := .empty }

section Draining

variable [LE τ] [DecidableLE τ]

def first? (q : Queue τ) (onlyDue : Bool) (now : τ) : Option (String × Event × τ) :=
  q.pending.entries.find? fun entry => !onlyDue || entry.2.2 ≤ now

def pop? (q : Queue τ) (onlyDue : Bool) (now : τ) : Option (Event × Queue τ) :=
  (q.first? onlyDue now).map fun entry =>
    (entry.2.1, { q with pending := q.pending.erase entry.1 })

def settle (q : Queue τ) (failed : Bool) : Queue τ :=
  if failed then q else { q with applied := q.applied + 1 }

variable [Add τ]

/-- Applies pending updates one at a time until none is left, or none is due when `onlyDue` is
set. At most `fuel` updates are applied; the pending ones are enough where a consumer submits
none. -/
def drain (consume : Consumer σ) (onlyDue : Bool) (now : τ) : Nat → Queue τ → σ → Drained τ σ
  | 0, q, s => ⟨q, s, [], 0⟩
  | fuel + 1, q, s =>
    match q.pop? onlyDue now with
    | none => ⟨q, s, [], 0⟩
    | some (e, rest) =>
      let reaction := consume s e
      let next := (rest.submitAll now reaction.submitted).settle reaction.failure.isSome
      let drained := drain consume onlyDue now fuel next reaction.state
      { drained with report := reaction.fullReport e ++ drained.report, count := drained.count + 1 }

def processDue (q : Queue τ) (consume : Consumer σ) (now : τ) (fuel : Nat) (s : σ) :
    Drained τ σ :=
  drain consume true now fuel q s

def flush (q : Queue τ) (consume : Consumer σ) (now : τ) (fuel : Nat) (s : σ) : Drained τ σ :=
  drain consume false now fuel q s

end Draining

def earliest? [LT τ] [DecidableLT τ] (q : Queue τ) : Option τ :=
  match q.pending.values.map Prod.snd with
  | [] => none
  | due :: rest => some (rest.foldl (fun best due => if due < best then due else best) due)

/-- How long a worker may sleep: nothing when no update is pending, and no time when one is due. -/
def nextWait [Sub τ] [LT τ] [DecidableLT τ] [OfNat τ 0] (q : Queue τ) (now : τ) : Option τ :=
  q.earliest?.map fun due => if 0 < due - now then due - now else 0

def turn [Sub τ] [LT τ] [DecidableLT τ] [OfNat τ 0] (q : Queue τ) (now : τ) : Turn τ :=
  match q.nextWait now with
  | none => .wait none
  | some limit => if 0 < limit then .wait (some limit) else .drain

end Queue

end KeyAtlas.Update
