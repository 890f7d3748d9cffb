import Handheld.Text.Numeral

/-! # Timestamps — seconds since the beginning of 1904

    A timestamp of zero means "never".  Every other one is shown as a date
    and time of day in UTC. -/

namespace Handheld

/-- Seconds since 1904-01-01T00:00:00Z. -/
structure Timestamp where
  seconds : UInt32
deriving DecidableEq

namespace Timestamp

/-- The timestamp of what has not happened. -/
def never : Timestamp := ⟨0⟩

/-- Seconds from the beginning of 1904 to that of 1970. -/
def unixOffset : Int := 2082844800

/-- Seconds since the beginning of 1970. -/
def unix (t : Timestamp) : Int :=
  t.seconds.toNat - unixOffset

/-- The timestamp of a number of seconds since the beginning of 1970, if
    it is within the years 1904 to 2040 that a timestamp covers. -/
def ofUnix? (unix : Int) : Option Timestamp :=
  let seconds := unix + unixOffset
  if 0 ≤ seconds ∧ seconds < 0x1_0000_0000 then some ⟨seconds.toNat.toUInt32⟩
  else none

/-- A day of the calendar. -/
structure Date where
  year : Nat
  month : Nat
  day : Nat

/-- Days from 0000-03-01 to 1904-01-01. -/
def daysBefore1904 : Nat := 695361

/-- The date a number of days after 1904-01-01.  Years are counted from
    March, so that a leap day is the last day of its year. -/
def dateAfter (days : Nat) : Date :=
  let total := days + daysBefore1904
  let cycle := total / 146097
  let dayOfCycle := total % 146097
  let yearOfCycle :=
    (dayOfCycle - dayOfCycle / 1460 + dayOfCycle / 36524
      - dayOfCycle / 146096) / 365
  let dayOfYear :=
    dayOfCycle - (365 * yearOfCycle + yearOfCycle / 4 - yearOfCycle / 100)
  let monthFromMarch := (5 * dayOfYear + 2) / 153
  let day := dayOfYear - (153 * monthFromMarch + 2) / 5 + 1
  let month := if monthFromMarch < 10 then monthFromMarch + 3
    else monthFromMarch - 9
  let year := cycle * 400 + yearOfCycle + (if month ≤ 2 then 1 else 0)
  ⟨year, month, day⟩

/-- A number in at least `width` decimal digits. -/
def padded (width n : Nat) : String :=
  Numeral.padLeft '0' width (toString n)

/-- A timestamp as it is shown. -/
def text (t : Timestamp) : String :=
  if t = never then "never"
  else
    let seconds := t.seconds.toNat
    let date := dateAfter (seconds / 86400)
    let inDay := seconds % 86400
    padded 4 date.year ++ "-" ++ padded 2 date.month ++ "-"
      ++ padded 2 date.day ++ "T" ++ padded 2 (inDay / 3600) ++ ":"
      ++ padded 2 (inDay / 60 % 60) ++ ":" ++ padded 2 (inDay % 60)
      ++ "+00:00"

end Timestamp

end Handheld
