import Mathlib
import OufGateway.Lib.Calendar
import OufGateway.Lib.JsonText

/-!
# Reading timestamps

`datetime.fromisoformat`: a calendar or week date, extended or basic, any one character
between the date and the time, a time down to the second with a fraction behind the
second only, and an offset from UTC that may have seconds and a fraction too. Where a
digit could belong to a week date or be the separator, the position of the separator is
guessed first, and the date is what stands before it.

These are the documented formats. CPython's reader lets more through in front of an
offset, a digit too many for one, and nothing below rests on what it does there.

The text is a list of code points. A date that is not in the calendar is refused, and so
is an offset of a day or more. The time of a timestamp with an offset is a time of its
own zone; whether it has one in UTC is the question of `DateTime.ofInstant?`.
-/

namespace OufGateway.Lib.IsoText

open JsonText (Points)
open Calendar

def isDigit (p : Nat) : Bool := 48 ≤ p && p ≤ 57

/-- The number of exactly `n` digits at the head. -/
def digits? : Nat → Points → Option (Nat × Points)
  | 0, s => some (0, s)
  | _ + 1, [] => none
  | n + 1, p :: s =>
    if isDigit p then (digits? n s).map fun r => ((p - 48) * 10 ^ n + r.1, r.2) else none

def dash : Nat := 45

def colon : Nat := 58

def week : Nat := 87

/-- The mark between two parts, which is there or not as it was before. -/
def mark? (c : Nat) (marked : Bool) (s : Points) : Option Points :=
  if (s.head? = some c) = marked then some (if marked then s.tail else s) else none

/-! ## Dates -/

/-- The day of an ISO week. -/
def weekDay? (year week day : Nat) : Option (Nat × Nat × Nat) :=
  let first := daysBeforeYear year
  -- 0 is Monday.
  let weekday := first % 7
  let long := weekday = 3 ∨ weekday = 2 ∧ isLeap year
  let monday : Int := first - weekday + if weekday > 3 then 7 else 0
  if year < 1 ∨ 9999 < year ∨ week < 1 ∨ 53 < week ∨ week = 53 ∧ ¬ long ∨ day < 1 ∨ 7 < day then none
  else some (DateTime.dayOf (monday + (week - 1) * 7 + (day - 1)).toNat)

def date? (s : Points) : Option (Nat × Nat × Nat) := do
  let (year, rest) ← digits? 4 s
  let marked := rest.head? = some dash
  let rest := if marked then rest.tail else rest
  if rest.head? = some week then do
    let (w, rest) ← digits? 2 rest.tail
    if rest = [] then weekDay? year w 1
    else do
      let rest ← mark? dash marked rest
      let (day, rest) ← digits? 1 rest
      if rest = [] then weekDay? year w day else none
  else do
    let (month, rest) ← digits? 2 rest
    let rest ← mark? dash marked rest
    let (day, rest) ← digits? 2 rest
    if rest = [] then some (year, month, day) else none

/-- Where the date ends. -/
def separatorAt (s : Points) : Nat :=
  let digitAt (k : Nat) : Bool := (s[k]?).any isDigit
  if s.length = 7 then 7
  else if s[4]? = some dash then
    if s[5]? = some week ∧ ¬ (s[8]? = some dash ∧ digitAt 10 = false) then 8 else 10
  else if s[4]? = some week then
    let ends := 7 + ((s.drop 7).takeWhile isDigit).length
    if ends < 9 then ends
    else if ends % 2 = 0 then 7 else 8
  else 8

/-! ## Times -/

structure Clock where
  hour : Nat
  minute : Nat := 0
  second : Nat := 0
  microsecond : Nat := 0
deriving DecidableEq

/-- The first six digits of a fraction. -/
def fraction? (s : Points) : Option Nat :=
  if s ≠ [] ∧ s.all isDigit then
    (digits? 6 (s.take 6 ++ List.replicate (6 - s.length) 48)).map (·.1)
  else none

def clock? (s : Points) : Option Clock := do
  let (hour, rest) ← digits? 2 s
  if rest = [] then some { hour := hour }
  else do
    let marked := rest.head? = some colon
    let (minute, rest) ← digits? 2 (if marked then rest.tail else rest)
    if rest = [] then some { hour := hour, minute := minute }
    else do
      let rest ← mark? colon marked rest
      let (second, rest) ← digits? 2 rest
      match rest with
      | [] => some { hour := hour, minute := minute, second := second }
      | p :: rest =>
        if p = 46 ∨ p = 44 then do
          let microsecond ← fraction? rest
          some ⟨hour, minute, second, microsecond⟩
        else none

/-- In microseconds. -/
def Clock.total (c : Clock) : Nat :=
  ((c.hour * 60 + c.minute) * 60 + c.second) * 1000000 + c.microsecond

def dayTotal : Nat := 86400 * 1000000

/-- `timezone(offset)`, behind its sign. -/
def offset? (s : Points) : Option Int :=
  match s with
  | [] => none
  | sign :: s => do
    let c ← clock? s
    if c.total < dayTotal then some (if sign = dash then -c.total else c.total) else none

def isSign (p : Nat) : Bool := p = 43 || p = dash || p = 90

/-- A time with its offset, where there is one. -/
def time? (s : Points) : Option (Clock × Option Int) := do
  let c ← clock? (s.takeWhile fun p => !isSign p)
  match s.dropWhile fun p => !isSign p with
  | [] => some (c, none)
  | [90] => some (c, some 0)
  | zone => do
    let offset ← offset? zone
    some (c, some offset)

/-! ## Timestamps -/

structure Stamp where
  datetime : DateTime
  /-- Microseconds east of UTC. -/
  offset : Option Int

def fromisoformat (s : Points) : Option Stamp :=
  if s.length < 7 then none
  else do
    let (year, month, day) ← date? (s.take (separatorAt s))
    let (c, offset) ←
      match s.drop (separatorAt s) with
      | [] => some ({ hour := 0 }, none)
      | _ :: rest => time? rest
    let d ← DateTime.of? year month day c.hour c.minute c.second c.microsecond
    some ⟨d, offset⟩

/-- The moment a timestamp with an offset names, in microseconds since the beginning of
the calendar in UTC. -/
def Stamp.moment? (s : Stamp) : Option Int := s.offset.map fun offset => s.datetime.instant - offset

example : (fromisoformat (JsonText.points "2026-01-01T00:00:00+00:00")).bind (·.moment?) =
    (fromisoformat (JsonText.points "20260101T0130+0130")).bind (·.moment?) := by decide +kernel

end OufGateway.Lib.IsoText
