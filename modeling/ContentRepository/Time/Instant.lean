import ContentRepository.Time.Calendar

/-!
# Points in time

An `Instant` counts seconds from the epoch and nanoseconds within the second. A leap second is
counted with the second before it, its nanoseconds going on from one billion; so instants are
ordered by their seconds and then by their nanoseconds.

* **`Instant.Fits`** says which numbers make an instant: the seconds of the years that can be
  represented, and a leap second only at the end of a minute.
* **`Instant.ofLocal`** is the instant shown by a calendar and a clock somewhere on earth.
-/

namespace ContentRepository

namespace Instant

/-- The nanoseconds of a second. -/
def perSecond : Nat := 1000000000

/-- The first and the last year that can be represented. -/
def firstYear : Int := -262143

def lastYear : Int := 262142

/-- The first second of the first year. -/
def firstSecond : Int := Time.dayOfDate ⟨firstYear, 1, 1⟩ * Time.secondsPerDay

/-- The last second of the last year. -/
def lastSecond : Int := (Time.dayOfDate ⟨lastYear, 12, 31⟩ + 1) * Time.secondsPerDay - 1

/-- Whether these seconds and nanoseconds make an instant. -/
def Fits (seconds : Int) (nanos : Nat) : Prop :=
  firstSecond ≤ seconds ∧ seconds ≤ lastSecond ∧
    (nanos < perSecond ∨ nanos < 2 * perSecond ∧ seconds % 60 = 59)

instance (seconds : Int) (nanos : Nat) : Decidable (Fits seconds nanos) :=
  inferInstanceAs (Decidable (_ ∧ _ ∧ _))

end Instant

/-- A point in time, to the nanosecond. -/
structure Instant where
  /-- Seconds since the beginning of 1970, leap seconds not counted. -/
  seconds : Int
  /-- Nanoseconds since the start of the second; from one billion on, since the start of the leap
  second after it. -/
  nanos : Nat
  fits : Instant.Fits seconds nanos
deriving DecidableEq

namespace Instant

/-- Chronological order. -/
def compareTotal (a b : Instant) : Ordering :=
  (compare a.seconds b.seconds).then (compare a.nanos b.nanos)

/-- The instant of some seconds and nanoseconds, if they make one. -/
def of? (seconds : Int) (nanos : Nat) : Option Instant :=
  if fits : Fits seconds nanos then some ⟨seconds, nanos, fits⟩ else none

/-- The instant shown as the given date and time of day by clocks that are `offset` seconds ahead.
Second 60 is the leap second after second 59. There is none if the calendar or the clock does not
show such values, or if the instant cannot be represented. -/
def ofLocal (date : Time.Date) (hour minute second nanos : Nat) (offset : Int) : Option Instant :=
  let (second, nanos) := if second = 60 then (59, nanos + perSecond) else (second, nanos)
  if date.isValid && firstYear ≤ date.year && date.year ≤ lastYear
      && hour < 24 && minute < 60 && second < 60 && offset.natAbs < Time.secondsPerDay then
    of? (Time.dayOfDate date * Time.secondsPerDay + (hour * 3600 + minute * 60 + second : Nat) -
      offset) nanos
  else none

/-- The instant a nanosecond later, leap seconds left out; used by clocks that must not stand still.
After the last instant there is no other. -/
def next (t : Instant) : Instant :=
  let (seconds, nanos) :=
    if t.nanos + 1 < perSecond then (t.seconds, t.nanos + 1) else (t.seconds + 1, 0)
  (of? seconds nanos).getD t

end Instant

end ContentRepository
