
namespace KeyAtlas.Yaml

structure TimeOfDay where
  hour : Nat
  minute : Nat
  second : Nat
  microsecond : Nat
  /-- How many minutes the time zone is ahead of universal time, where one is given. -/
  zone : Option Int
  deriving DecidableEq, Repr

structure Timestamp where
  year : Nat
  month : Nat
  day : Nat
  time : Option TimeOfDay
  deriving DecidableEq, Repr

namespace Timestamp

def isDigit (c : Char) : Bool :=
  '0' ≤ c && c ≤ '9'

def ofDigits (digits : List Char) : Nat :=
  digits.foldl (fun n c => n * 10 + (c.toNat - 0x30)) 0

def number? (least most : Nat) (text : List Char) : Option (Nat × List Char) :=
  let digits := (text.take most).takeWhile isDigit
  if digits.length < least then none else some (ofDigits digits, text.drop digits.length)

def expect? (c : Char) : List Char → Option (List Char)
  | [] => none
  | d :: rest => if d = c then some rest else none

def isBlank (c : Char) : Bool :=
  c = ' ' || c = '\t'

def betweenDateAndTime? : List Char → Option (List Char)
  | [] => none
  | c :: rest =>
    if c = 'T' || c = 't' then some rest
    else if isBlank c then some (rest.dropWhile isBlank)
    else none

/-- The microseconds of a fraction of a second, and what follows it. Further digits do not count. -/
def fraction : List Char → Nat × List Char
  | '.' :: rest =>
    let digits := rest.takeWhile isDigit
    (ofDigits ((digits ++ List.replicate 6 '0').take 6), rest.drop digits.length)
  | text => (0, text)

def offset? (text : List Char) : Option Nat :=
  (number? 1 2 text).bind fun (hours, minutes) =>
    if minutes.isEmpty then some (hours * 60)
    else (expect? ':' minutes).bind fun minutes =>
      (number? 2 2 minutes).bind fun (minutes, rest) =>
        if rest.isEmpty then some (hours * 60 + minutes) else none

def zone? (text : List Char) : Option (Option Int) :=
  if text.isEmpty then some none
  else match text.dropWhile isBlank with
    | ['Z'] => some (some 0)
    | '+' :: rest => (offset? rest).map fun ahead => some (Int.ofNat ahead)
    | '-' :: rest => (offset? rest).map fun behind => some (-Int.ofNat behind)
    | _ => none

def time? (text : List Char) : Option TimeOfDay :=
  (number? 1 2 text).bind fun (hour, rest) =>
    (expect? ':' rest).bind fun rest =>
      (number? 2 2 rest).bind fun (minute, rest) =>
        (expect? ':' rest).bind fun rest =>
          (number? 2 2 rest).bind fun (second, rest) =>
            let (microsecond, rest) := fraction rest
            (zone? rest).map fun zone => ⟨hour, minute, second, microsecond, zone⟩

def date? (text : List Char) : Option ((Nat × Nat × Nat) × List Char) :=
  (number? 4 4 text).bind fun (year, rest) =>
    (expect? '-' rest).bind fun rest =>
      (number? 1 2 rest).bind fun (month, rest) =>
        (expect? '-' rest).bind fun rest =>
          (number? 1 2 rest).map fun (day, rest) => ((year, month, day), rest)

def parse? (text : List Char) : Option Timestamp :=
  (date? text).bind fun ((year, month, day), rest) =>
    if rest.isEmpty then some ⟨year, month, day, none⟩
    else (betweenDateAndTime? rest).bind fun rest =>
      (time? rest).map fun time => ⟨year, month, day, some time⟩

def dateLength : Nat :=
  10

/-- Whether a text is a timestamp by its looks. A date without a time then has all its digits. -/
def looksRight (text : List Char) : Bool :=
  (parse? text).any fun t => t.time.isSome || text.length = dateLength

def isLeap (year : Nat) : Bool :=
  year % 4 = 0 && (year % 100 ≠ 0 || year % 400 = 0)

def daysOf (year month : Nat) : Nat :=
  if month = 2 then if isLeap year then 29 else 28
  else if [4, 6, 9, 11].contains month then 30
  else 31

def minutesOfDay : Nat :=
  1440

def isZone (minutes : Int) : Bool :=
  minutes.natAbs < minutesOfDay

def isTime (t : TimeOfDay) : Bool :=
  t.hour < 24 && t.minute < 60 && t.second < 60 && t.zone.all isZone

def isValid (t : Timestamp) : Bool :=
  0 < t.year && 0 < t.month && t.month ≤ 12 && 0 < t.day && t.day ≤ daysOf t.year t.month &&
    t.time.all isTime

/-- The number of days before the date, from the first day of the year one. -/
def daysBefore (t : Timestamp) : Nat :=
  let years := t.year - 1
  let months := (List.range t.month).drop 1
  years * 365 + years / 4 - years / 100 + years / 400 +
    months.foldl (fun days month => days + daysOf t.year month) 0 + (t.day - 1)

def instant? (t : Timestamp) : Option Int :=
  t.time.bind fun time => time.zone.map fun zone =>
    let minutes : Int := (t.daysBefore * 24 + time.hour) * 60 + time.minute
    ((minutes - zone) * 60 + time.second) * 1000000 + time.microsecond

def call (name : String) (arguments : List String) : String :=
  "datetime." ++ name ++ "(" ++ ", ".intercalate arguments ++ ")"

/-- A zone, which a time behind universal time shows as a day less and the seconds that are left. -/
def displayZone (minutes : Int) : String :=
  let days := if minutes < 0 then ["days=-1"] else []
  let seconds := (minutes.emod minutesOfDay) * 60
  if minutes = 0 then "datetime.timezone.utc"
  else call "timezone" [call "timedelta" (days ++ ["seconds=" ++ toString seconds])]

def timeArguments (t : TimeOfDay) : List String :=
  let seconds := if t.microsecond ≠ 0 then [t.second, t.microsecond]
    else if t.second ≠ 0 then [t.second] else []
  ([t.hour, t.minute] ++ seconds).map toString ++
    t.zone.toList.map fun zone => "tzinfo=" ++ displayZone zone

def display (t : Timestamp) : String :=
  let date := [t.year, t.month, t.day].map toString
  match t.time with
  | none => call "date" date
  | some time => call "datetime" (date ++ timeArguments time)

end Timestamp

end KeyAtlas.Yaml
