import Conductress.Base.ClockOrder

/-!
# Reading date-times

`parse_utc` on the date-times with seconds and an offset: the instant a text
means, whatever its offset and however many digits its fraction has. A text
that `utc_text` wrote means the instant it was written from
(`parseUtc_utcText`).
-/

namespace Conductress

open Lib

/-- The day number of a date, the inverse of `civil`. -/
def dayOfDate (year month day : ℕ) : ℤ :=
  let march := if 2 < month then (year, month - 3) else (year - 1, month + 9)
  (daysBefore march.1 : ℤ) + ((153 * march.2 + 2) / 5 + day : ℕ) - 719469

theorem dayOfDate_civil (day : ℕ) :
    dayOfDate (civil day).1 (civil day).2.1 (civil day).2.2 = day := by
  obtain ⟨y, p, m, htotal, hin, hm, hcivil⟩ := marchDay day
  have hlong := daysBefore_succ_le y
  rw [hcivil]
  unfold dayOfDate
  dsimp only
  by_cases hmonth : m < 10
  · rw [if_pos hmonth, if_pos hmonth, if_pos (by omega)]
    dsimp only
    have hsame : m + 3 - 3 = m := by omega
    rw [hsame, Nat.add_zero]
    omega
  · rw [if_neg hmonth, if_neg hmonth, if_neg (by omega)]
    dsimp only
    have hsame : m - 9 + 9 = m := by omega
    rw [hsame, Nat.add_sub_cancel]
    omega

/-- A fraction of a second in microseconds, cut off after six digits. -/
def readFraction : List Char → Option (ℕ × List Char)
  | '.' :: text =>
    let digits := text.takeWhile Char.isDigit
    if digits = [] then none
    else some (Nat.ofDigitChars 10 ((digits ++ List.replicate 6 '0').take 6) 0,
      text.dropWhile Char.isDigit)
  | text => some (0, text)

/-- `Z` or a signed offset, in minutes. -/
def readOffset : List Char → Option ℤ
  | ['Z'] => some 0
  | sign :: text => do
    let ([hours, minutes], []) ← unstamp [(2, [':']), (2, [])] text | none
    if 24 ≤ hours ∨ 60 ≤ minutes then none
    else if sign = '+' then some (hours * 60 + minutes)
    else if sign = '-' then some (-(hours * 60 + minutes))
    else none
  | [] => none

/-- The instant of the fields of a date-time with an offset. -/
def instantOfFields (micros : ℕ) (offset : ℤ) : List ℕ → Option ℤ
  | [year, month, day, hour, minute, second] =>
    if year = 0 ∨ month = 0 ∨ 12 < month ∨ day = 0 ∨ daysInMonth year month < day ∨ 24 ≤ hour ∨
        60 ≤ minute ∨ 60 ≤ second then none
    else some ((((dayOfDate year month day * 24 + hour) * 60 + minute - offset) * 60 + second) *
      microsPerSecond + micros)
  | _ => none

/-- The instant of a date-time `…T…` with seconds and an offset. -/
def parseUtc (text : String) : Option ℤ := do
  let (fields, rest) ← unstamp isoWidths text.toList
  let (micros, rest) ← readFraction rest
  let offset ← readOffset rest
  instantOfFields micros offset fields

example : parseUtc "2026-01-01T10:00:00+02:00" = some 1767254400000000 := by decide +kernel
example : parseUtc "2026-01-01T08:00:00.12345678Z" = some 1767254400123456 := by decide +kernel
example : parseUtc "2026-02-29T08:00:00Z" = none := by decide +kernel

theorem readFraction_fractionText {micros : ℕ} (h : micros < 1000000) :
    readFraction (fractionText micros) = some (micros, ['Z']) := by
  unfold fractionText
  split_ifs with hzero
  · rw [hzero]
    rfl
  · have hdigits : (fixedDigits 6 micros ++ ['Z']).takeWhile Char.isDigit = fixedDigits 6 micros := by
      rw [List.takeWhile_append_of_pos fun c hc => isDigit_of_mem_fixedDigits hc]
      simp
    have hrest : (fixedDigits 6 micros ++ ['Z']).dropWhile Char.isDigit = ['Z'] := by
      rw [List.dropWhile_append_of_pos fun c hc => isDigit_of_mem_fixedDigits hc]
      rfl
    have hsome : fixedDigits 6 micros ≠ [] := by
      rw [← List.length_pos_iff, length_fixedDigits]
      decide
    have hvalue : Nat.ofDigitChars 10 (fixedDigits 6 micros) 0 = micros :=
      (ofDigitChars_fixedDigits 6 micros).trans (Nat.mod_eq_of_lt h)
    simp only [readFraction]
    rw [hdigits, hrest, if_neg hsome, List.take_left' (length_fixedDigits 6 micros), hvalue]

theorem instantOfFields_instant {t : ℕ} (ht : Representable t) :
    instantOfFields (t % microsPerSecond) 0 (instantFields t) = some (t : ℤ) := by
  have hvalid := civil_valid ht
  have hyear := hvalid.year_range
  have hmonth := hvalid.month_range
  have hday := hvalid.day_range
  have hdate := dayOfDate_civil (dayOf t)
  have hfields : instantFields t = [(civil (dayOf t)).1, (civil (dayOf t)).2.1,
      (civil (dayOf t)).2.2, t / microsPerSecond / 3600 % 24, t / microsPerSecond / 60 % 60,
      t / microsPerSecond % 60] := rfl
  rw [hfields, instantOfFields, hdate, dayOf_eq, if_neg (by rw [dayOf_eq] at *; omega)]
  unfold microsPerSecond
  congr 1
  omega

/-- **`utc_text` is read back.** -/
theorem parseUtc_utcText {t : ℕ} (ht : Representable t) : parseUtc (utcText t) = some (t : ℤ) := by
  have htext : (utcText t).toList = stamp isoWidths (instantFields t)
      (fractionText (t % microsPerSecond)) := UtcDatetime.text_toList (.ofInstant t ht)
  have hfit : FitsWidths isoWidths (instantFields t) := UtcDatetime.fields_fit (.ofInstant t ht)
  have hmicros : t % microsPerSecond < 1000000 := Nat.mod_lt _ (by decide)
  have hoffset : readOffset ['Z'] = some 0 := rfl
  unfold parseUtc
  rw [htext, unstamp_stamp isoWidths _ hfit, Option.bind_eq_bind, Option.bind_some]
  dsimp only
  rw [readFraction_fractionText hmicros, Option.bind_eq_bind, Option.bind_some]
  dsimp only
  rw [hoffset, Option.bind_eq_bind, Option.bind_some, instantOfFields_instant ht]

end Conductress
