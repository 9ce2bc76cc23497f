import AsOf.Axes

namespace AsOf

/-- A date and time of day on the proleptic Gregorian calendar, at a fixed offset east of UTC. -/
structure LocalTime where
  year : Int
  month : Nat
  day : Nat
  hour : Nat
  minute : Nat
  second : Nat
  nanosecond : Nat
  /-- Seconds that the local clock is ahead of UTC. -/
  offset : Int

/-- Days from 1970-01-01 to a date. Years run from March on, so that a leap day ends one; a cycle
of 400 such years has 146097 days. -/
def daysFromCivil (year : Int) (month day : Nat) : Int :=
  let y := if month ≤ 2 then year - 1 else year
  let era := y.fdiv 400
  let yearOfEra := y - era * 400
  let monthFromMarch : Int := if month ≤ 2 then month + 9 else (month : Int) - 3
  let dayOfYear := (153 * monthFromMarch + 2) / 5 + day - 1
  let dayOfEra := yearOfEra * 365 + yearOfEra / 4 - yearOfEra / 100 + dayOfYear
  era * 146097 + dayOfEra - 719468

/-- The second that the local clock shows, counted as if the clock ran on UTC. -/
def LocalTime.clockSecond (t : LocalTime) : Int :=
  daysFromCivil t.year t.month t.day * AsOf.day + t.hour * 3600 + t.minute * 60 + t.second

/-- The whole second of a local time; a fraction of a second is dropped, towards the past also
before 1970. -/
def LocalTime.epochSecond (t : LocalTime) : Int := t.clockSecond - t.offset

def LocalTime.nanoseconds (t : LocalTime) : Int := t.epochSecond * 1000000000 + t.nanosecond

theorem LocalTime.epochSecond_eq_floor (t : LocalTime) (h : t.nanosecond < 1000000000) :
    t.epochSecond = t.nanoseconds / 1000000000 := by
  unfold LocalTime.nanoseconds
  omega

def Axes.ofLocalTimes (sessions : List LocalTime) (assets : List Int) : Except AxisFault Axes :=
  Axes.make (sessions.map LocalTime.epochSecond) assets

end AsOf
