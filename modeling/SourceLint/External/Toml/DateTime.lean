/-
Which dates and times exist. A date with a time of day has two digits for each of its parts and four
for its year; the days of a month are not counted, so that February has a thirty-first. Midnight may
be written as hour 24. A date alone may have more digits, fewer, or none for its day; its three
numbers are then read in the order year, month, day, unless the first could be a day: then they are
read in the order month, day, year.
-/
import SourceLint.Text

namespace SourceLint.External.Toml

/-- A month of the year. -/
def isMonth (number : Nat) : Bool := 1 ≤ number && number ≤ 12

/-- A day of some month. -/
def isDay (number : Nat) : Bool := 1 ≤ number && number ≤ 31

/-- Two digits. -/
def isPair (digits : Text) : Bool := digits.length == 2

/-- The time of day from its digits; the fraction may be missing. -/
structure TimeOfDay where
  hour : Text
  minute : Text
  second : Text
  fraction : Text := []

/-- The time of day exists. -/
def TimeOfDay.isValid (time : TimeOfDay) : Bool :=
  let hour := Text.digitsValue time.hour
  let minute := Text.digitsValue time.minute
  let second := Text.digitsValue time.second
  isPair time.hour && minute ≤ 59 && second ≤ 59 &&
    (hour ≤ 23 ||
      (hour = 24 && minute = 0 && second = 0 && time.fraction.all (· == ('0' : CodeUnit))))

/-- The last year that dates are counted to. -/
def lastYear : Nat := 275760

/-- The number that digits stand for when only the first nine that count are looked at. -/
def leadingValue (digits : Text) : Nat :=
  Text.digitsValue ((digits.dropWhile (· == ('0' : CodeUnit))).take 9)

/-- The numbers of a date in either order name a day. -/
def namesDay (first second third : Nat) : Bool :=
  if isDay first then isMonth first && isDay second && third ≤ lastYear
  else isMonth second && isDay third

/-- A date alone exists. -/
def isValidDate (year month day : Text) : Bool :=
  let exact :=
    isPair month && isPair day && isMonth (Text.digitsValue month) && isDay (Text.digitsValue day)
  exact ||
    namesDay (Text.digitsValue year) (leadingValue month)
      (if day.isEmpty then 1 else leadingValue day)

/-- A date with a time of day exists, in a time zone if one is given by its hours and minutes. -/
def isValidDateTime (month day : Text) (time : TimeOfDay) (zone : Option (Text × Text)) : Bool :=
  isPair month && isPair day && isMonth (Text.digitsValue month) &&
    isDay (Text.digitsValue day) && time.isValid &&
    zone.all fun (hours, minutes) => Text.digitsValue hours ≤ 23 && Text.digitsValue minutes ≤ 59

end SourceLint.External.Toml
