import HeatingControl.Error

/-!
# The week

Days are numbered from Sunday. A moment of the week has minute resolution, and every date of the
proleptic Gregorian calendar falls on one of its days.
-/
namespace HeatingControl

inductive DayOfWeek where
  | sunday
  | monday
  | tuesday
  | wednesday
  | thursday
  | friday
  | saturday
  deriving DecidableEq, Repr

namespace DayOfWeek

def all : List DayOfWeek := [.sunday, .monday, .tuesday, .wednesday, .thursday, .friday, .saturday]

def index : DayOfWeek → Nat
  | .sunday => 0
  | .monday => 1
  | .tuesday => 2
  | .wednesday => 3
  | .thursday => 4
  | .friday => 5
  | .saturday => 6

def ofIndex? (n : Nat) : Option DayOfWeek := all[n]?

/-- The day for a count from Sunday that may go past Saturday. -/
def ofCount (n : Nat) : DayOfWeek := (ofIndex? (n % 7)).getD .sunday

def ofByte (n : UInt8) : Except ValidationError DayOfWeek :=
  match ofIndex? n.toNat with
  | some day => .ok day
  | none => .error (.invalidDayOfWeek n)

def label : DayOfWeek → String
  | .sunday => "Dimanche"
  | .monday => "Lundi"
  | .tuesday => "Mardi"
  | .wednesday => "Mercredi"
  | .thursday => "Jeudi"
  | .friday => "Vendredi"
  | .saturday => "Samedi"

end DayOfWeek

structure WeekTime where
  day : DayOfWeek
  hour : UInt8
  minute : UInt8
  deriving DecidableEq, Repr

/-- Minutes from Sunday 00:00. Hours and minutes out of range count on. -/
def minuteOfWeek (day : DayOfWeek) (hour minute : UInt8) : Nat :=
  day.index * 24 * 60 + hour.toNat * 60 + minute.toNat

def WeekTime.minutes (t : WeekTime) : Nat := minuteOfWeek t.day t.hour t.minute

namespace Calendar

def isLeap (year : Int) : Bool := year % 4 = 0 && (year % 100 ≠ 0 || year % 400 = 0)

def daysInMonth (year : Int) (month : Nat) : Nat :=
  if month = 2 then (if isLeap year then 29 else 28)
  else if month = 4 ∨ month = 6 ∨ month = 9 ∨ month = 11 then 30
  else 31

def daysBefore (year : Int) (month : Nat) : Nat :=
  (List.range (month - 1)).foldl (fun days m => days + daysInMonth year (m + 1)) 0

def daysBeforeYear (year : Int) : Int :=
  let y := year - 1
  y * 365 + y.fdiv 4 - y.fdiv 100 + y.fdiv 400

/-- The first of January of year 1 is a Monday. -/
def dayOfWeek (year : Int) (month day : Nat) : DayOfWeek :=
  let days := daysBeforeYear year + (daysBefore year month : Int) + ((day : Int) - 1)
  DayOfWeek.ofCount ((days + 1).fmod 7).toNat

def yearInRange (year : Int) : Bool := -262143 ≤ year && year ≤ 262142

def weekTime? (year : Int) (month day hour minute second : Nat) : Option WeekTime :=
  if yearInRange year && 1 ≤ month && month ≤ 12 && 1 ≤ day && day ≤ daysInMonth year month &&
      hour < 24 && minute < 60 && second < 60 then
    some ⟨dayOfWeek year month day, UInt8.ofNat hour, UInt8.ofNat minute⟩
  else none

end Calendar
end HeatingControl
