import Vitrine.Decimal.Layout

/-!
Dates and times as documents hold them, and their texts.
-/
namespace Vitrine

structure Date where
  year : Nat
  month : Nat
  day : Nat
  deriving DecidableEq, Repr

/-- A time of day on a date. The offset from universal time, in seconds, is missing if the zone is
not known. -/
structure DateTime where
  date : Date
  hour : Nat
  minute : Nat
  second : Nat
  microsecond : Nat
  offset : Option Int
  deriving DecidableEq, Repr

namespace Calendar

def isLeap (year : Nat) : Bool :=
  year % 4 == 0 && (year % 100 != 0 || year % 400 == 0)

def daysIn (year month : Nat) : Nat :=
  match month with
  | 2 => if isLeap year then 29 else 28
  | 4 | 6 | 9 | 11 => 30
  | _ => 31

/-- A number with at least `width` digits. -/
def padded (width n : Nat) : String :=
  String.ofList (Decimal.padLeft width (Decimal.digitChars n))

end Calendar

open Calendar

def Date.isValid (d : Date) : Bool :=
  1 ≤ d.year && d.year ≤ 9999 && 1 ≤ d.month && d.month ≤ 12 && 1 ≤ d.day &&
    d.day ≤ daysIn d.year d.month

/-- Year, month and day with dashes. -/
def Date.text (d : Date) : String :=
  padded 4 d.year ++ "-" ++ padded 2 d.month ++ "-" ++ padded 2 d.day

/-- The offset as a sign, hours and minutes. -/
def offsetText (seconds : Int) : String :=
  let n := seconds.natAbs
  let base := (if seconds < 0 then "-" else "+") ++ padded 2 (n / 3600) ++ ":" ++
    padded 2 (n / 60 % 60)
  if n % 60 = 0 then base else base ++ ":" ++ padded 2 (n % 60)

def DateTime.timeText (t : DateTime) : String :=
  padded 2 t.hour ++ ":" ++ padded 2 t.minute ++ ":" ++ padded 2 t.second ++
    (if t.microsecond = 0 then "" else "." ++ padded 6 t.microsecond) ++
    (t.offset.map offsetText).getD ""

/-- Date and time with a `T` between them. -/
def DateTime.isoText (t : DateTime) : String := t.date.text ++ "T" ++ t.timeText

/-- Date and time with a space between them. -/
def DateTime.text (t : DateTime) : String := t.date.text ++ " " ++ t.timeText

end Vitrine
