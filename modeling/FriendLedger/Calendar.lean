import FriendLedger.Amount

/-! The calendar date and time of a number of seconds since the start of 1970,
in the proleptic Gregorian calendar and universal time. -/

namespace FriendLedger.Calendar

set_option autoImplicit false

structure Date where
  year : Int
  month : Nat
  day : Nat
deriving DecidableEq, Repr

/-- Days from the first of March of year 0 to the first day of 1970. -/
def epochDay : Int := 719468

/-- The date of a day counted from the start of 1970. Years are counted from
March, so that the leap day is the last of its year; four hundred of them have
146097 days. -/
def dateOfDay (day : Int) : Date :=
  let z := day + epochDay
  let era := z / 146097
  let dayOfEra := (z % 146097).toNat
  let yearOfEra := (dayOfEra - dayOfEra / 1460 + dayOfEra / 36524 - dayOfEra / 146096) / 365
  let dayOfYear := dayOfEra - (365 * yearOfEra + yearOfEra / 4 - yearOfEra / 100)
  let shifted := (5 * dayOfYear + 2) / 153
  let month := if shifted < 10 then shifted + 3 else shifted - 9
  { year := yearOfEra + era * 400 + (if month ≤ 2 then 1 else 0)
    month := month
    day := dayOfYear - (153 * shifted + 2) / 5 + 1 }

/-- At least `width` digits. -/
def padded (width n : Nat) : List Char :=
  let ds := Nat.toDigits 10 n
  List.replicate (width - ds.length) '0' ++ ds

/-- Four digits; a year outside of 0 to 9999 has a sign. -/
def yearChars (year : Int) : List Char :=
  if year < 0 then '-' :: padded 4 year.natAbs
  else if 9999 < year then '+' :: padded 4 year.natAbs
  else padded 4 year.natAbs

/-- The years that have a written form: -262143 to 262142. -/
def isExpressible (d : Date) : Bool := -262143 ≤ d.year && d.year ≤ 262142

/-- Date, `T`, time to the second and the offset `+00:00`. -/
def timestampText? (seconds : Amount) : Option String :=
  let s := seconds.toInt
  let date := dateOfDay (s / 86400)
  let t := (s % 86400).toNat
  if isExpressible date then
    some (String.ofList (yearChars date.year ++ '-' :: padded 2 date.month ++
      '-' :: padded 2 date.day ++ 'T' :: padded 2 (t / 3600) ++ ':' :: padded 2 (t / 60 % 60) ++
      ':' :: padded 2 (t % 60) ++ "+00:00".toList))
  else none

end FriendLedger.Calendar
