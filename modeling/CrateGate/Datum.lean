import CrateGate.Decimal.Shortest
import CrateGate.Text.Digit
import CrateGate.Text.Quoted

/-!
# Data

The values that a manifest or a caller can hand over where a text was expected, and how messages
show them: a text as it is, everything else as an expression. Inside a list or a record every
value is shown as an expression, texts in quotes.
-/

namespace CrateGate

/-- A day of the calendar. -/
structure Date where
  /-- From 1 to 9999. -/
  year : Nat
  /-- From 1 to 12. -/
  month : Nat
  /-- From 1. -/
  day : Nat
deriving DecidableEq, Repr

/-- A time of day. -/
structure Clock where
  /-- From 0 to 23. -/
  hour : Nat
  /-- From 0 to 59. -/
  minute : Nat
  /-- From 0 to 59. -/
  second : Nat
  /-- From 0 to 999999. -/
  micro : Nat
deriving DecidableEq, Repr

/-- A point in time, as far as it was written: a zone is minutes east of Greenwich. -/
inductive Moment
  | day (date : Date)
  | time (clock : Clock)
  | floating (date : Date) (clock : Clock)
  | zoned (date : Date) (clock : Clock) (zone : Int)
deriving DecidableEq, Repr

/-- A value without parts, other than a text. -/
inductive Atom
  | flag (b : Bool)
  | integer (i : Int)
  | real (x : Binary64)
  | moment (m : Moment)
deriving DecidableEq, Repr

/-- A value read from a manifest or handed over by a caller. -/
inductive Datum
  | null
  | text (s : String)
  | atom (a : Atom)
  | list (items : List Datum)
  | record (fields : List (String × Datum))
deriving Repr

namespace Date

/-- Whether a year has a 29th of February. -/
def isLeap (year : Nat) : Bool :=
  year % 4 = 0 && (year % 100 ≠ 0 || year % 400 = 0)

/-- How many days a month has; 0 for a number that is no month. -/
def daysIn (year month : Nat) : Nat :=
  match month with
  | 1 | 3 | 5 | 7 | 8 | 10 | 12 => 31
  | 4 | 6 | 9 | 11 => 30
  | 2 => if isLeap year then 29 else 28
  | _ => 0

/-- A date exists if its year has four digits and is not 0, and its month has that day. -/
def exists? (d : Date) : Bool :=
  1 ≤ d.year && d.year ≤ 9999 && 1 ≤ d.day && d.day ≤ daysIn d.year d.month

/-- How many days the first months of a year have together. -/
def daysUpTo (year : Nat) : Nat → Nat
  | 0 => 0
  | month + 1 => daysUpTo year month + daysIn year (month + 1)

/-- Days before a date in the calendar that runs back to the year 1. -/
def ordinal (d : Date) : Nat :=
  let before := d.year - 1
  365 * before + before / 4 - before / 100 + before / 400 + daysUpTo d.year (d.month - 1) + d.day

end Date

/-- The number `n` in decimal, with zeros in front up to `width` places. -/
def padded (width n : Nat) : String :=
  let digits := Nat.toDigits 10 n
  String.ofList (List.replicate (width - digits.length) '0' ++ digits)

namespace Clock

/-- Microseconds since midnight. -/
def micros (t : Clock) : Nat :=
  ((t.hour * 60 + t.minute) * 60 + t.second) * 1000000 + t.micro

/-- A time of day as `07:32:00`, with six places of a second if there are any. -/
def plain (t : Clock) : String :=
  padded 2 t.hour ++ ":" ++ padded 2 t.minute ++ ":" ++ padded 2 t.second ++
    (if t.micro = 0 then "" else "." ++ padded 6 t.micro)

/-- The numbers of a clock that an expression lists: those after the minute only as far as one of
them is not 0. -/
def arguments (t : Clock) : List Nat :=
  [t.hour, t.minute] ++
    (if t.micro ≠ 0 then [t.second, t.micro] else if t.second ≠ 0 then [t.second] else [])

end Clock

namespace Moment

/-- Numbers with a comma and a blank between them. -/
def commas (ns : List Nat) : String :=
  ", ".intercalate (ns.map toString)

/-- A day as `2020-01-31`. -/
def dayText (d : Date) : String :=
  padded 4 d.year ++ "-" ++ padded 2 d.month ++ "-" ++ padded 2 d.day

/-- A zone as `+01:30`. -/
def zoneText (zone : Int) : String :=
  (if zone < 0 then "-" else "+") ++ padded 2 (zone.natAbs / 60) ++ ":" ++
    padded 2 (zone.natAbs % 60)

/-- A moment as a text of its own. -/
def plain : Moment → String
  | day d => dayText d
  | time t => t.plain
  | floating d t => dayText d ++ " " ++ t.plain
  | zoned d t zone => dayText d ++ " " ++ t.plain ++ zoneText zone

/-- A zone as an expression: the days and seconds by which it is ahead, the seconds never below
zero. -/
def zoneQuoted (zone : Int) : String :=
  if zone = 0 then "datetime.timezone.utc"
  else
    let seconds := toString ((zone * 60) % 86400)
    let inside := if zone < 0 then "days=-1, seconds=" ++ seconds else "seconds=" ++ seconds
    "datetime.timezone(datetime.timedelta(" ++ inside ++ "))"

/-- A moment as an expression. -/
def quoted : Moment → String
  | day d => "datetime.date(" ++ commas [d.year, d.month, d.day] ++ ")"
  | time t => "datetime.time(" ++ commas t.arguments ++ ")"
  | floating d t =>
    "datetime.datetime(" ++ commas ([d.year, d.month, d.day] ++ t.arguments) ++ ")"
  | zoned d t zone =>
    "datetime.datetime(" ++ commas ([d.year, d.month, d.day] ++ t.arguments) ++ ", tzinfo=" ++
      zoneQuoted zone ++ ")"

/-- Microseconds from the start of the calendar, in Greenwich for a moment with a zone. -/
def instant : Moment → Int
  | day d => (d.ordinal : Int) * 86400000000
  | time t => t.micros
  | floating d t => (d.ordinal : Int) * 86400000000 + t.micros
  | zoned d t zone => (d.ordinal : Int) * 86400000000 + t.micros - zone * 60000000

end Moment

namespace Atom

/-- A value as an expression. -/
def quoted : Atom → String
  | flag b => if b then "True" else "False"
  | integer i => toString i
  | real x => x.text
  | moment m => m.quoted

/-- A value as a text of its own. -/
def plain : Atom → String
  | moment m => m.plain
  | a => a.quoted

end Atom

namespace Datum

mutual

/-- A value as an expression. -/
def quoted : Datum → String
  | null => "None"
  | text s => Text.quoted s
  | atom a => a.quoted
  | list items => "[" ++ ", ".intercalate (quotedItems items) ++ "]"
  | record fields => "\x7b" ++ ", ".intercalate (quotedFields fields) ++ "\x7d"

/-- The items of a list as expressions. -/
def quotedItems : List Datum → List String
  | [] => []
  | item :: items => quoted item :: quotedItems items

/-- The fields of a record, each as its quoted name and its value. -/
def quotedFields : List (String × Datum) → List String
  | [] => []
  | (name, value) :: fields => (Text.quoted name ++ ": " ++ quoted value) :: quotedFields fields

end

/-- Why a value cannot be shown: an integer in it has too many digits, or its parts lie too deep in
one another. -/
inductive Obstacle
  | longInteger
  | deepNesting
deriving DecidableEq, Repr

/-- How deep lists and records may lie in one another to be shown. This depends on how much of the
stack is in use as well, and is the number for a name in a manifest. -/
def depthLimit : Nat := 985

mutual

/-- What is first in the way of showing a value whose parts may lie so deep. -/
def obstacleWithin (deep : Nat) : Datum → Option Obstacle
  | atom (.integer i) => if Text.isWritable i.natAbs then none else some .longInteger
  | list items => if deep = 0 then some .deepNesting else obstacleInItems (deep - 1) items
  | record fields => if deep = 0 then some .deepNesting else obstacleInFields (deep - 1) fields
  | _ => none

/-- What is first in the way of showing the items of a list. -/
def obstacleInItems (deep : Nat) : List Datum → Option Obstacle
  | [] => none
  | item :: items => (obstacleWithin deep item).or (obstacleInItems deep items)

/-- What is first in the way of showing the values of fields. -/
def obstacleInFields (deep : Nat) : List (String × Datum) → Option Obstacle
  | [] => none
  | (_, value) :: fields => (obstacleWithin deep value).or (obstacleInFields deep fields)

end

/-- What is in the way of showing a value, if anything is. -/
def obstacle? (d : Datum) : Option Obstacle :=
  d.obstacleWithin depthLimit

/-- A value inside a message: a text as it is, all else as an expression. -/
def plain : Datum → String
  | text s => s
  | atom a => a.plain
  | d => d.quoted

/-- The field of that name, if the value is a record that has one. -/
def field? (name : String) : Datum → Option Datum
  | record fields => fields.lookup name
  | _ => none

/-- The fields of a record in their order; none for any other value. -/
def fields : Datum → List (String × Datum)
  | record fields => fields
  | _ => []

/-! ## Equality -/

mutual

/-- Whether two values are equal. -/
def same : Datum → Datum → Bool
  | null, null => true
  | text s, text t => s == t
  | atom a, atom b => a == b
  | list items, list others => sameItems items others
  | record fields, record others => sameFields fields others
  | _, _ => false

/-- Whether two lists hold equal values in one order. -/
def sameItems : List Datum → List Datum → Bool
  | [], [] => true
  | item :: items, other :: others => same item other && sameItems items others
  | _, _ => false

/-- Whether two lists hold fields of equal names and values in one order. -/
def sameFields : List (String × Datum) → List (String × Datum) → Bool
  | [], [] => true
  | (name, value) :: fields, (name', value') :: others =>
    name == name' && same value value' && sameFields fields others
  | _, _ => false

end

mutual

/-- The comparison of values decides their equality; that of lists and that of fields go along with
it, as values are made of both. -/
theorem same_iff : ∀ a b : Datum, a.same b = true ↔ a = b
  | null, b => by cases b <;> simp [same]
  | text s, b => by cases b <;> simp [same]
  | atom a, b => by cases b <;> simp [same]
  | list items, b => by cases b <;> simp [same, sameItems_iff items]
  | record fields, b => by cases b <;> simp [same, sameFields_iff fields]

/-- The comparison of lists decides their equality, item by item and in the order of the items. -/
theorem sameItems_iff : ∀ items others, sameItems items others = true ↔ items = others
  | [], others => by cases others <;> simp [sameItems]
  | item :: items, others => by
    cases others <;> simp [sameItems, same_iff item, sameItems_iff items]

/-- The comparison of fields decides their equality, the names included and in the order of the
fields. -/
theorem sameFields_iff : ∀ fields others, sameFields fields others = true ↔ fields = others
  | [], others => by cases others <;> simp [sameFields]
  | (name, value) :: fields, others => by
    cases others <;> simp [sameFields, Prod.ext_iff, same_iff value, sameFields_iff fields]

end

instance : DecidableEq Datum :=
  fun a b => decidable_of_iff _ (same_iff a b)

end Datum

end CrateGate
