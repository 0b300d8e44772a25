import TextMask.Text.Basic

/-!
# Timestamps

A timestamp is a day of the calendar, perhaps with a time of day and the offset of its time zone.
`Timestamp.read?` takes the spelling apart, and `Timestamp.check` tells whether there is such a day
and such a time.
-/

namespace TextMask.Yaml

/-- A time of day and the offset of its time zone in minutes. -/
structure TimeOfDay where
  hour : Nat
  minute : Nat
  second : Nat
  offset : Int
  deriving DecidableEq, Repr

/-- A day, perhaps with a time. -/
structure Timestamp where
  year : Nat
  month : Nat
  day : Nat
  time : Option TimeOfDay
  deriving DecidableEq, Repr

/-- Why there is no such day or no such time. -/
inductive DateFault where
  | noYear (year : Nat)
  | noMonth
  | noDay
  | noHour
  | noMinute
  | noSecond
  | wideOffset (minutes : Int)
  deriving DecidableEq, Repr

/-- A span of time as it is reported: full days, and what is left of a day in seconds. -/
def spanReport (minutes : Int) : String :=
  let days := Int.fdiv minutes 1440
  let seconds := Int.fmod minutes 1440 * 60
  let rest := if seconds = 0 then "" else s!", seconds={seconds}"
  s!"datetime.timedelta(days={days}{rest})"

/-- The report of a fault. -/
def DateFault.message : DateFault → String
  | .noYear year => s!"year {year} is out of range"
  | .noMonth => "month must be in 1..12"
  | .noDay => "day is out of range for month"
  | .noHour => "hour must be in 0..23"
  | .noMinute => "minute must be in 0..59"
  | .noSecond => "second must be in 0..59"
  | .wideOffset minutes =>
    "offset must be a timedelta strictly between -timedelta(hours=24) and timedelta(hours=24), " ++
      s!"not {spanReport minutes}."

namespace Timestamp

/-! ### Spelling -/

/-- A number with at least `least` and at most `most` digits, and the rest behind it. -/
def readDigits (least most : Nat) (t : Text) : Option (Nat × Text) :=
  let digits := (t.take most).takeWhile Char.isDigit
  if least ≤ digits.length then
    some (digits.foldl (fun n c => n * 10 + (c.toNat - '0'.toNat)) 0, t.drop digits.length)
  else none

/-- The rest behind a character that has to come first. -/
def dropChar (c : Char) : Text → Option Text
  | [] => none
  | d :: rest => if c = d then some rest else none

/-- The text without the spaces and tabs in front. -/
def dropBlanks (t : Text) : Text := t.dropWhile fun c => c == ' ' || c == '\t'

/-- The rest behind the mark between day and time: a letter, or blanks. -/
def dropTimeMark : Text → Option Text
  | [] => none
  | c :: rest =>
    if c == 'T' || c == 't' then some rest
    else if c == ' ' || c == '\t' then some (dropBlanks rest)
    else none

/-- The minutes of a time zone behind its hours. -/
def readZoneMinutes : Text → Option Nat
  | [] => some 0
  | c :: rest =>
    if c = ':' then
      match readDigits 2 2 rest with
      | some (minutes, []) => some minutes
      | _ => none
    else none

/-- The offset of a time zone in minutes. Without a zone there is none. -/
def readZone (t : Text) : Option Int :=
  if t.isEmpty then some 0
  else
    match dropBlanks t with
    | ['Z'] => some 0
    | '+' :: rest => do
      let (hours, rest) ← readDigits 1 2 rest
      return hours * 60 + (← readZoneMinutes rest)
    | '-' :: rest => do
      let (hours, rest) ← readDigits 1 2 rest
      return -(hours * 60 + (← readZoneMinutes rest))
    | _ => none

/-- A time of day with a fraction of its second, which does not count, and a time zone. -/
def readTime (t : Text) : Option TimeOfDay := do
  let (hour, t) ← readDigits 1 2 t
  let (minute, t) ← readDigits 2 2 (← dropChar ':' t)
  let (second, t) ← readDigits 2 2 (← dropChar ':' t)
  let zone := match t with
    | '.' :: rest => rest.dropWhile Char.isDigit
    | t => t
  return ⟨hour, minute, second, ← readZone zone⟩

/-- The timestamp that the whole text spells. -/
def read? (t : Text) : Option Timestamp := do
  let (year, t) ← readDigits 4 4 t
  let (month, t) ← readDigits 1 2 (← dropChar '-' t)
  let (day, t) ← readDigits 1 2 (← dropChar '-' t)
  if t.isEmpty then return ⟨year, month, day, none⟩
  else return ⟨year, month, day, some (← readTime (← dropTimeMark t))⟩

/-- The length of a day with four digits for the year and two for month and day. -/
def dayLength : Nat := 10

/-- Whether a text without quotes is a timestamp. A day without a time must have all its digits. -/
def isSpelledBy (t : Text) : Bool :=
  (read? t).any fun s => s.time.isSome || t.length == dayLength

/-! ### Calendar -/

/-- Whether the year has a leap day. -/
def isLeap (year : Nat) : Bool := year % 4 == 0 && (year % 100 != 0 || year % 400 == 0)

/-- The number of days of a month. -/
def daysIn (year month : Nat) : Nat :=
  if month = 2 then if isLeap year then 29 else 28
  else if [4, 6, 9, 11].contains month then 30
  else 31

/-- Fails unless a condition holds. -/
def ensure (condition : Bool) (fault : DateFault) : Except DateFault Unit :=
  if condition then .ok () else .error fault

/-- Checks that the calendar has the day. -/
def checkDay (s : Timestamp) : Except DateFault Unit := do
  ensure (1 ≤ s.year) (.noYear s.year)
  ensure (1 ≤ s.month && s.month ≤ 12) .noMonth
  ensure (1 ≤ s.day && s.day ≤ daysIn s.year s.month) .noDay

/-- Checks the time zone before the day, and the time of day last. -/
def check (s : Timestamp) : Except DateFault Unit :=
  match s.time with
  | none => s.checkDay
  | some time => do
    ensure (time.offset.natAbs < 1440) (.wideOffset time.offset)
    s.checkDay
    ensure (time.hour < 24) .noHour
    ensure (time.minute < 60) .noMinute
    ensure (time.second < 60) .noSecond

end Timestamp

end TextMask.Yaml
