import Minifier.Decimal.Fixed
import Minifier.Yaml.Fault

/-!
# Moments of YAML

A moment is a day, or a time of a day with its distance from universal time, if it says one. Main
definitions: `Moment.fields?`, `Moment.ofFields`, `Moment.text`.
-/

set_option autoImplicit false

namespace Minifier

namespace Yaml

/-- A day of the calendar, or a time of a day. The offset counts minutes. -/
inductive Moment where
  | day (year month day : Nat)
  | time (year month day hour minute second microsecond : Nat) (offset : Option Int)
  deriving DecidableEq, Repr

/-- A moment as it is written: the digits of the day, and those of the time. -/
structure MomentFields where
  year : Nat
  month : Nat
  day : Nat
  time : Option (Nat × Nat × Nat × Nat × Option Int)
  deriving DecidableEq, Repr

namespace Moment

/-- Reads at least `least` and at most `most` digits. -/
def digits? (least most : Nat) (text : List Char) : Option (Nat × List Char) :=
  let found := (text.take most).takeWhile fun c => '0' ≤ c && c ≤ '9'
  if found.length < least then none
  else some (found.foldl (fun n c => n * 10 + (c.toNat - 48)) 0, text.drop found.length)

/-- Reads a given character. -/
def mark? (mark : Char) : List Char → Option (List Char)
  | c :: rest => if c = mark then some rest else none
  | [] => none

/-- Whether a character is a space or a tab. -/
def isGap (c : Char) : Bool :=
  c == ' ' || c == '\t'

/-- The millionths of a second that the places after a point write. -/
def microseconds (places : List Char) : Nat :=
  let six := (places ++ List.replicate 6 '0').take 6
  six.foldl (fun n c => n * 10 + (c.toNat - 48)) 0

/-- Reads the distance from universal time, in minutes, up to the end of the text. -/
def offset? (text : List Char) : Option (Option Int) :=
  match text with
  | [] => some none
  | _ =>
    match text.dropWhile isGap with
    | ['Z'] => some (some 0)
    | sign :: rest =>
      if sign == '-' || sign == '+' then do
        let (hours, rest) ← digits? 1 2 rest
        let (minutes, rest) ← match rest with
          | ':' :: rest => digits? 2 2 rest
          | rest => some (0, rest)
        if !rest.isEmpty then none
        let size : Int := (hours : Int) * 60 + (minutes : Int)
        some (some (if sign == '-' then -size else size))
      else none
    | [] => none

/-- Reads a time of the day, after what divides it from the day. -/
def time? (text : List Char) : Option (Nat × Nat × Nat × Nat × Option Int) := do
  let (hour, rest) ← digits? 1 2 text
  let rest ← mark? ':' rest
  let (minute, rest) ← digits? 2 2 rest
  let rest ← mark? ':' rest
  let (second, rest) ← digits? 2 2 rest
  let (places, rest) := match rest with
    | '.' :: rest =>
      let places := rest.takeWhile fun c => '0' ≤ c && c ≤ '9'
      (places, rest.drop places.length)
    | rest => ([], rest)
  let offset ← offset? rest
  some (hour, minute, second, microseconds places, offset)

/-- What follows the mark, or the blanks, between a day and a time. -/
def afterGap? : List Char → Option (List Char)
  | c :: rest =>
    if c == 'T' || c == 't' then some rest
    else if isGap c then some (rest.dropWhile isGap)
    else none
  | [] => none

/-- Reads the fields of a moment. -/
def fields? (text : List Char) : Option MomentFields := do
  let (year, rest) ← digits? 4 4 text
  let rest ← mark? '-' rest
  let (month, rest) ← digits? 1 2 rest
  let rest ← mark? '-' rest
  let (date, rest) ← digits? 1 2 rest
  if rest.isEmpty then some ⟨year, month, date, none⟩
  else
    let clock ← time? (← afterGap? rest)
    some ⟨year, month, date, some clock⟩

/-- Whether a text without a tag is a moment: a day alone needs two digits for month and day. -/
def isSpelling (text : List Char) : Bool :=
  match fields? text with
  | some fields => fields.time.isSome || text.length == 10
  | none => false

/-- Whether a year has a leap day. -/
def isLeap (year : Nat) : Bool :=
  year % 4 == 0 && (year % 100 != 0 || year % 400 == 0)

/-- The number of days of a month. -/
def daysIn (year month : Nat) : Nat :=
  if month == 2 then (if isLeap year then 29 else 28)
  else if month == 4 || month == 6 || month == 9 || month == 11 then 30
  else 31

/-- Checks a day. -/
def checkDay (year month day : Nat) : Except MomentFault Unit := do
  if year = 0 then throw (.year year)
  if month = 0 || 12 < month then throw .month
  if day = 0 || daysIn year month < day then throw .day

/-- The moment that fields name, if the calendar has it. -/
def ofFields (fields : MomentFields) : Except MomentFault Moment := do
  match fields.time with
  | none =>
    checkDay fields.year fields.month fields.day
    return .day fields.year fields.month fields.day
  | some (hour, minute, second, microsecond, offset) =>
    match offset with
    | some minutes => if 1440 ≤ minutes.natAbs then throw (.offset minutes)
    | none => pure ()
    checkDay fields.year fields.month fields.day
    if 23 < hour then throw .hour
    if 59 < minute then throw .minute
    if 59 < second then throw .second
    return .time fields.year fields.month fields.day hour minute second microsecond offset

/-- A number with at least a given number of digits. -/
def padded (width n : Nat) : String :=
  String.ofList (paddedDigits width n)

/-- The text of a day. -/
def dayText (year month day : Nat) : String :=
  padded 4 year ++ "-" ++ padded 2 month ++ "-" ++ padded 2 day

/-- The text of a distance from universal time. -/
def offsetText : Option Int → String
  | none => ""
  | some minutes =>
    (if minutes < 0 then "-" else "+") ++ padded 2 (minutes.natAbs / 60) ++ ":" ++
      padded 2 (minutes.natAbs % 60)

/-- The text of a moment. -/
def text : Moment → String
  | .day y m d => dayText y m d
  | .time y m d hour minute second microsecond offset =>
    dayText y m d ++ " " ++ padded 2 hour ++ ":" ++ padded 2 minute ++ ":" ++ padded 2 second ++
      (if microsecond = 0 then "" else "." ++ padded 6 microsecond) ++ offsetText offset

/-- The number of days before a day. -/
def dayNumber (year month day : Nat) : Nat :=
  let past := year - 1
  365 * past + past / 4 - past / 100 + past / 400 +
    (List.range (month - 1)).foldr (fun m days => daysIn year (m + 1) + days) 0 + day

/-- The microsecond of universal time that a time names. -/
def instant? : Moment → Option Int
  | .time y m d hour minute second microsecond (some offset) =>
    some ((((dayNumber y m d * 24 + hour) * 60 + minute : Nat) - offset) * 60000000 +
      ((second * 1000000 + microsecond : Nat) : Int))
  | _ => none

/-- Whether two moments are the same; times with an offset are compared as instants. -/
def same (a b : Moment) : Bool :=
  match a.instant?, b.instant? with
  | some i, some j => i == j
  | none, none => a == b
  | _, _ => false

end Moment

end Yaml

end Minifier
