import Mathlib.Data.Nat.Notation
import Mathlib.Data.List.Basic

/-!
# UTC instants and their text

An instant is a number of microseconds since the epoch. The control database
stores instants as the text `utc_text` writes and compares the text, not the
instant: `…:05Z` sorts after every `…:05.ffffffZ` of the same second.
-/

namespace Conductress

/-- Microseconds since 1970-01-01T00:00:00Z. -/
abbrev Instant := ℕ

def microsPerSecond : ℕ := 1000000
def microsPerHour : ℕ := 3600 * microsPerSecond
def microsPerDay : ℕ := 24 * microsPerHour

/-- Decimal digits of `n`, zero-padded to `width`. -/
def zeroPad (width n : ℕ) : String :=
  let digits := Nat.toDigits 10 n
  String.ofList (List.replicate (width - digits.length) '0' ++ digits)

/-- Days since the epoch. -/
def dayOf (t : Instant) : ℕ := t / microsPerDay

/-- The proleptic Gregorian date of a day number: year, month, day. -/
def civil (day : ℕ) : ℕ × ℕ × ℕ :=
  -- years are counted from March, so that the leap day is the last day
  let z := day + 719468
  let era := z / 146097
  let doe := z % 146097
  let yoe := (doe - doe / 1460 + doe / 36524 - doe / 146096) / 365
  let doy := doe - (365 * yoe + yoe / 4 - yoe / 100)
  let mp := (5 * doy + 2) / 153
  let month := if mp < 10 then mp + 3 else mp - 9
  (yoe + era * 400 + (if month ≤ 2 then 1 else 0), month, doy - (153 * mp + 2) / 5 + 1)

/-- `strftime("%Y-%m-%d")`. -/
def dateText (day : ℕ) : String :=
  let (year, month, d) := civil day
  zeroPad 4 year ++ "-" ++ zeroPad 2 month ++ "-" ++ zeroPad 2 d

/-- The clock part of `isoformat()`: the fraction is left out when it is zero. -/
def clockText (t : Instant) : String :=
  let second := t / microsPerSecond
  let micros := t % microsPerSecond
  zeroPad 2 (second / 3600 % 24) ++ ":" ++ zeroPad 2 (second / 60 % 60) ++ ":" ++
    zeroPad 2 (second % 60) ++ (if micros = 0 then "" else "." ++ zeroPad 6 micros)

/-- `value.isoformat()` of a naive UTC datetime. -/
def isoText (t : Instant) : String := dateText (dayOf t) ++ "T" ++ clockText t

/-- `utc_text(value)`. -/
def utcText (t : Instant) : String := isoText t ++ "Z"

example : utcText 1700000000000000 = "2023-11-14T22:13:20Z" := by decide

/-- The comparison `text(a) <= text(b)` of two stored instants. -/
def textLe (a b : Instant) : Bool := decide (utcText a ≤ utcText b)

end Conductress
