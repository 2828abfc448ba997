import Gateway.Decimal.Natural

/-!
# Instants

An instant is counted in milliseconds since the start of 1970 in UTC. Its text is a
date, any one character, a time of day with an optional fraction of a second, and an
offset from UTC. A second of 60 is a leap second: it stands for the last nanosecond
of the minute, and only the last minute of a month in UTC may have one.

Writing is another form, for a reader's eye: the date, the time of day in UTC with no
more digits of a second than it needs, and the offset, between blanks.
-/

namespace Gateway.Time

/-! ## The calendar -/

/-- Every fourth year is a leap year, except centuries that 400 does not divide. -/
def isLeapYear (year : Nat) : Bool := year % 4 = 0 && (year % 100 ≠ 0 || year % 400 = 0)

def daysInMonth (year month : Nat) : Nat :=
  if month = 2 then (if isLeapYear year then 29 else 28)
  else if month = 4 || month = 6 || month = 9 || month = 11 then 30
  else 31

/-- The days of a year before the first of a month. -/
def daysBefore (year month : Nat) : Nat :=
  (List.range (month - 1)).foldl (fun n m => n + daysInMonth year (m + 1)) 0

/-- The days from the start of year 0 to the start of a year. -/
def daysToYear (year : Nat) : Nat :=
  if year = 0 then 0 else 365 * year + (year - 1) / 4 - (year - 1) / 100 + (year - 1) / 400 + 1

/-- The days from the start of 1970 to a date. -/
def dayNumber (year month day : Nat) : Int :=
  Int.ofNat (daysToYear year + daysBefore year month + (day - 1)) - Int.ofNat (daysToYear 1970)

/-- The year of a day of a cycle of four hundred years. An average year tells it up to
one. -/
def yearOfDay (day : Nat) : Nat :=
  let guess := day * 400 / daysToYear 400
  if day < daysToYear guess then guess - 1
  else if daysToYear (guess + 1) ≤ day then guess + 1
  else guess

/-- The month of a day of a year, which counts from zero. -/
def monthOfDay (year day : Nat) : Nat :=
  ((List.range 12).filter fun m => daysBefore year (m + 1) ≤ day).length

/-- A date of the calendar; year 0 is a year like others. -/
structure Date where
  year : Int
  month : Nat
  day : Nat
deriving DecidableEq, Repr

/-- The date of a day counted from the start of 1970. -/
def Date.ofDay (n : Int) : Date :=
  let day := n + daysToYear 1970
  let ofCycle := (day % daysToYear 400).toNat
  let year := yearOfDay ofCycle
  let ofYear := ofCycle - daysToYear year
  let month := monthOfDay year ofYear
  ⟨400 * (day / daysToYear 400) + year, month, ofYear - daysBefore year month + 1⟩

/-- A date as text, with four digits for the year and a minus sign before year 0. -/
def Date.write (d : Date) : List Char :=
  (if d.year < 0 then ['-'] else []) ++ Decimal.padded 4 d.year.natAbs
    ++ '-' :: (Decimal.padded 2 d.month ++ '-' :: Decimal.padded 2 d.day)

/-! ## Reading -/

/-- A number of exactly `n` digits, and what follows it. -/
def takeNumber (n : Nat) (cs : List Char) : Option (Nat × List Char) :=
  let ds := cs.take n
  if ds.length = n && ds.all Decimal.isDigit then some (Decimal.ofDigits ds, cs.drop n) else none

def takeChar (c : Char) : List Char → Option (List Char)
  | d :: rest => if d = c then some rest else none
  | [] => none

/-- The nanoseconds of an optional fraction; digits beyond the ninth are dropped. -/
def takeFraction : List Char → Option (Nat × List Char)
  | '.' :: rest =>
    let ds := rest.takeWhile Decimal.isDigit
    if ds.isEmpty then none
    else
      let nanos := Decimal.ofDigits ((ds ++ List.replicate 9 '0').take 9)
      some (nanos, rest.dropWhile Decimal.isDigit)
  | rest => some (0, rest)

/-- The offset from UTC in seconds, with nothing behind it. -/
def readOffset : List Char → Option Int
  | ['Z'] => some 0
  | ['z'] => some 0
  | sign :: rest => do
    let negative ← if sign = '-' then some true else if sign = '+' then some false else none
    let (hours, rest) ← takeNumber 2 rest
    let rest ← takeChar ':' rest
    let (minutes, rest) ← takeNumber 2 rest
    if 23 < hours || 59 < minutes || !rest.isEmpty then none
    else
      let seconds : Int := Int.ofNat (hours * 3600 + minutes * 60)
      pure (if negative then -seconds else seconds)
  | [] => none

/-- Whether a second counted from the start of 1970 is the last one of a month. -/
def endsMonth (second : Int) : Bool :=
  (second + 1) % 86400 = 0 && (Date.ofDay ((second + 1) / 86400)).day = 1

/-- The milliseconds of an instant, cut toward zero. -/
def readInstant (cs : List Char) : Option Int := do
  let (year, rest) ← takeNumber 4 cs
  let rest ← takeChar '-' rest
  let (month, rest) ← takeNumber 2 rest
  let rest ← takeChar '-' rest
  let (day, rest) ← takeNumber 2 rest
  let rest ← match rest with
    | c :: rest => if c.toNat < 128 then some rest else none
    | [] => none
  let (hour, rest) ← takeNumber 2 rest
  let rest ← takeChar ':' rest
  let (minute, rest) ← takeNumber 2 rest
  let rest ← takeChar ':' rest
  let (second, rest) ← takeNumber 2 rest
  let (nanos, rest) ← takeFraction rest
  let offset ← readOffset rest
  if month = 0 || 12 < month || day = 0 || daysInMonth year month < day then none
  else if 23 < hour || 59 < minute || 60 < second then none
  else
    let leap := second = 60
    let second := if leap then 59 else second
    let nanos := if leap then 999999999 else nanos
    let total := dayNumber year month day * 86400
      + Int.ofNat (hour * 3600 + minute * 60 + second) - offset
    if leap && !endsMonth total then none
    else pure ((total * 1000000000 + Int.ofNat nanos).tdiv 1000000)

/-! ## Writing -/

/-- A time of day of so many milliseconds as text. The hour is not filled up, and a
fraction of a second has at least one digit. -/
def writeTime (millis : Nat) : List Char :=
  let seconds := millis / 1000
  let fraction := Decimal.padded 3 (millis % 1000)
  let places := max 1 (fraction.reverse.dropWhile (· = '0')).length
  Decimal.digits (seconds / 3600) ++ ':' :: (Decimal.padded 2 (seconds / 60 % 60)
    ++ ':' :: (Decimal.padded 2 (seconds % 60) ++ '.' :: fraction.take places))

/-- The text of an instant of the years -9999 to 9999. -/
def writeInstant? (millis : Int) : Option (List Char) :=
  let date := Date.ofDay (millis / 86400000)
  if 9999 < date.year.natAbs then none
  else some (date.write ++ ' ' :: (writeTime (millis % 86400000).toNat ++ " +00:00:00".toList))

end Gateway.Time
