import WriteBehind.Text.Decimal

/-!
# Calendar — seconds since 1970 as a date and a time of day

Dates are of the Gregorian calendar, times of day are in UTC, and no second is a leap second.

* `Calendar.dateOfDay` gives the date of a day, counted from the first of January 1970;
* `Calendar.text` writes an instant as `YYYY-MM-DDTHH:MM:SSZ`.
-/

namespace WriteBehind
namespace Calendar

/-- A date. -/
structure Date where
  year : Nat
  /-- From 1 to 12. -/
  month : Nat
  /-- From 1 to 31. -/
  day : Nat
  deriving DecidableEq, Repr

/-- The days from the first of March of the year 0 to the first of January 1970. -/
def epochDay : Nat := 719468

/-- The days of four hundred years. -/
def cycleDays : Nat := 146097

/-- The date of the `n`th day after the first of January 1970.  Years are counted from March on, so
that the day a leap year adds is its last. -/
def dateOfDay (n : Nat) : Date :=
  let day := (n + epochDay) % cycleDays
  let year := (day - day / 1460 + day / 36524 - day / 146096) / 365
  let dayOfYear := day - (365 * year + year / 4 - year / 100)
  let monthFromMarch := (5 * dayOfYear + 2) / 153
  let month := if monthFromMarch < 10 then monthFromMarch + 3 else monthFromMarch - 9
  { year := year + (n + epochDay) / cycleDays * 400 + (if month ≤ 2 then 1 else 0)
    month
    day := dayOfYear - (153 * monthFromMarch + 2) / 5 + 1 }

/-- The date and the time of day of the `n`th second after the start of 1970. -/
def text (n : Nat) : String :=
  let date := dateOfDay (n / 86400)
  let second := n % 86400
  String.ofList (Decimal.padded 4 date.year ++ '-' :: Decimal.padded 2 date.month
    ++ '-' :: Decimal.padded 2 date.day ++ 'T' :: Decimal.padded 2 (second / 3600)
    ++ ':' :: Decimal.padded 2 (second / 60 % 60) ++ ':' :: Decimal.padded 2 (second % 60) ++ ['Z'])

end Calendar
end WriteBehind
