import KeyAtlas.Log.Record
import KeyAtlas.Log.Template
import KeyAtlas.Text.Blank

namespace KeyAtlas.Log

inductive DisplayError where
  | notTexts
  | nameTaken
  | attributeTaken
  deriving DecidableEq, Repr

open Value (Fields)

def field (fields : Fields) (name : String) : Value :=
  (fields.lookup (.name name)).getD (.text "?")

def textOf? : Value → Option String
  | .text s => some s
  | _ => none

def keyText? : Key → Option String
  | .name s => some s
  | _ => none

/-- The texts to be joined. A text counts as its characters and a mapping as its keys. -/
def joinable? : Value → Except DisplayError (List String)
  | .text s => .ok (s.toList.map fun c => String.ofList [c])
  | .sequence items =>
    match items.mapM textOf? with
    | some texts => .ok texts
    | none => .error .notTexts
  | .mapping fields =>
    match fields.mapM fun f => keyText? f.1 with
    | some texts => .ok texts
    | none => .error .notTexts
  | _ => .error .notTexts

def scanLine (fields : Fields) : String :=
  let failed := (fields.lookup (.name "failed")).getD .null
  "✓ Indexed " ++ (field fields "documents").display ++ " documents (" ++
    (field fields "definitions").display ++ " keys) in " ++
    (field fields "build_time_ms").display ++ "ms" ++
    (if failed.isTruthy then ", " ++ failed.display ++ " unreadable" else "")

def watchLine (fields : Fields) : Except DisplayError String :=
  let roots := (fields.lookup (.name "roots")).getD .null
  let line (texts : List String) := "👁  Watching " ++ ", ".intercalate texts ++ " (Ctrl+C to stop)"
  if roots.isTruthy then (joinable? roots).map line else .ok (line [])

def updateLine (fields : Fields) : String :=
  let path := (field fields "path").display
  let kind := (fields.lookup (.name "kind")).bind textOf?
  let definitions := (fields.lookup (.name "definitions")).getD (.int 0)
  if kind = some "deleted" then "  ✗ " ++ path ++ " removed"
  else "  ↻ " ++ path ++ " (" ++ definitions.display ++ " keys)"

/-- Names that no field may go by: that of the event and that of the display. -/
def takenNames : List Key :=
  ["event", "self"]

def lineOf (event : String) (fields : Fields) : Except DisplayError (Option String) :=
  match event with
  | "human.scan.complete" => .ok (some (scanLine fields))
  | "human.watch.started" => (watchLine fields).map some
  | "human.watch.stopped" => .ok (some "■ Watcher stopped")
  | "human.document.updated" => .ok (some (updateLine fields))
  | "human.resolve.none" =>
    .ok (some ("✗ No definition found for '" ++ (field fields "reference").display ++ "'"))
  | _ => .ok none

def displayLine (event : String) (fields : Fields) : Except DisplayError (Option String) :=
  if fields.any fun f => takenNames.contains f.1 then .error .nameTaken else lineOf event fields

inductive Message where
  | template (text : String) (args : List Value)
  | event (fields : Fields)

structure Entry where
  severity : Int
  message : Message
  attributes : Fields

def recordAttributes : List String :=
  ["name", "msg", "args", "levelname", "levelno", "pathname", "filename", "module", "exc_info",
   "exc_text", "stack_info", "lineno", "funcName", "created", "msecs", "relativeCreated", "thread",
   "threadName", "processName", "process"]

/-- Attributes that no entry may bring along. -/
def takenAttributes : List String :=
  recordAttributes ++ ["message", "asctime"]

def isTaken : Key → Bool
  | .name s => takenAttributes.contains s
  | _ => false

/-- Attributes that are no fields of the event. -/
def reservedAttributes : List String :=
  recordAttributes ++ ["message", "taskName", "event"]

def isField : Key → Bool
  | .name s => !Text.startsWith ['_'] s.toList && !reservedAttributes.contains s
  | _ => false

/-- The event name and the fields of an entry. An `event` attribute goes before the message. -/
def Entry.parts (e : Entry) : Option (Value × Fields) :=
  match e.message with
  | .event fields =>
    some (.text ((fields.lookup (.name "event")).getD (.text "")).display,
      fields.filter fun f => f.1 ≠ .name "event")
  | .template text args =>
    let fields := e.attributes.filter fun f => isField f.1
    match e.attributes.lookup (.name "event") with
    | some event =>
      if event.isTruthy then some (event, fields)
      else (fillTemplate text args).map fun filled => (.text filled, fields)
    | none => (fillTemplate text args).map fun filled => (.text filled, fields)

def Entry.text (e : Entry) : String :=
  match e.parts with
  | some (.text event, fields) =>
    match displayLine event fields with
    | .ok (some line) => line ++ "\n"
    | _ => ""
  | _ => ""

/-- What the progress display of a logger with this threshold writes for an entry. No entry that
passes the threshold may have an attribute of a taken name, whether it is displayed or not. Without
a severity nothing passes. -/
def Entry.display (threshold : Int) (e : Entry) : Except DisplayError String :=
  if e.severity ≤ 0 || e.severity < threshold then .ok ""
  else if e.attributes.any fun f => isTaken f.1 then .error .attributeTaken
  else .ok (if e.severity = Level.human.severity then e.text else "")

def Progress.line (p : Progress) : String :=
  let fields : Fields := p.record.fields.map fun (name, value) => (Key.name name, value)
  match displayLine p.record.event (fields ++ [(Key.name "build_time_ms", Value.float 0)]) with
  | .ok (some line) => line ++ "\n"
  | _ => ""

end KeyAtlas.Log
