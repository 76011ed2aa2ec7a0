import Mathlib.Data.String.Basic
import Mathlib.Order.Monotone.Basic
import Conductress.Base.Clock
import Conductress.Lib.LexText

/-!
# The order of UTC texts

The texts `utc_text` writes are compared as texts. Down to the second they are
in the order of the instants; within one second they are in the order of the
fractions, but for the whole second, whose text has no fraction and comes last
(`UtcDatetime.text_le_iff`, `textLe_iff`).

`dateFields_lt` is what this needs of the calendar: later days have later dates.
-/

namespace Conductress

open Lib

/-! ## The calendar -/

/-- The year of a day of an era, counted from March. -/
def yearOfEra (doe : ℕ) : ℕ := (doe - doe / 1460 + doe / 36524 - doe / 146096) / 365

/-- The days of an era before a year of it. -/
def yearStart (y : ℕ) : ℕ := 365 * y + y / 4 - y / 100

theorem yearOfEra_le {a b : ℕ} (h : a ≤ b) : yearOfEra a ≤ yearOfEra b := by
  refine monotone_nat_of_le_succ (fun n => ?_) h
  have hquarter : ∀ k, k / 146096 = k / 36524 / 4 := fun k => by rw [Nat.div_div_eq_div_mul]
  have hsmall : (n + 1) / 1460 ≤ n / 1460 + 1 := by omega
  have hle : n / 1460 ≤ n := Nat.div_le_self _ _
  have hup : n / 36524 ≤ (n + 1) / 36524 := Nat.div_le_div_right (Nat.le_succ n)
  unfold yearOfEra
  rw [hquarter n, hquarter (n + 1)]
  apply Nat.div_le_div_right
  generalize n / 1460 = a at *
  generalize (n + 1) / 1460 = a' at *
  generalize n / 36524 = b at *
  generalize (n + 1) / 36524 = b' at *
  omega

/-- The first and the last day of each year of an era. -/
theorem yearOfEra_ends : ∀ y < 400,
    yearOfEra (yearStart y) = y ∧ yearOfEra (yearStart (y + 1) - 1) = y := by decide +kernel

/-- A day lies in its year. -/
theorem yearOfEra_spec {doe : ℕ} (h : doe < 146097) :
    yearOfEra doe < 400 ∧ yearStart (yearOfEra doe) ≤ doe ∧
      (yearOfEra doe < 399 → doe < yearStart (yearOfEra doe + 1)) := by
  have hlast : yearOfEra doe ≤ 399 := yearOfEra_le (show doe ≤ 146096 by omega)
  refine ⟨by omega, ?_, ?_⟩
  · by_contra hlt
    rcases Nat.eq_zero_or_pos (yearOfEra doe) with hzero | hpos
    · rw [hzero] at hlt
      exact hlt (Nat.zero_le _)
    · have hprev := (yearOfEra_ends (yearOfEra doe - 1) (by omega)).2
      rw [Nat.sub_add_cancel hpos] at hprev
      have := yearOfEra_le (show doe ≤ yearStart (yearOfEra doe) - 1 by omega)
      omega
  · intro hyear
    by_contra hge
    have hnext := (yearOfEra_ends (yearOfEra doe + 1) (by omega)).1
    have := yearOfEra_le (Nat.not_lt.mp hge)
    omega

/-- The days before a March year, from the start of the era of year zero. -/
def daysBefore (year : ℕ) : ℕ := 365 * year + year / 4 + year / 400 - year / 100

theorem daysBefore_le {a b : ℕ} (h : a ≤ b) : daysBefore a ≤ daysBefore b := by
  refine monotone_nat_of_le_succ (fun n => ?_) h
  have h4 : n / 4 ≤ (n + 1) / 4 := Nat.div_le_div_right (Nat.le_succ n)
  have h400 : n / 400 ≤ (n + 1) / 400 := Nat.div_le_div_right (Nat.le_succ n)
  have h100 : (n + 1) / 100 ≤ n / 100 + 1 := by omega
  unfold daysBefore
  omega

/-- `civil` of a day of an era. -/
def civilOf (era doe : ℕ) : ℕ × ℕ × ℕ :=
  let doy := doe - yearStart (yearOfEra doe)
  let mp := (5 * doy + 2) / 153
  let month := if mp < 10 then mp + 3 else mp - 9
  (yearOfEra doe + era * 400 + (if month ≤ 2 then 1 else 0), month, doy - (153 * mp + 2) / 5 + 1)

/-- A day as a March year, a day of it and a March month. -/
structure MarchDay (day year dayOfYear month : ℕ) : Prop where
  total   : daysBefore year + dayOfYear = day + 719468
  inYear  : day + 719468 < daysBefore (year + 1)
  month_eq : month = (5 * dayOfYear + 2) / 153
  civil_eq : civil day = (year + (if month < 10 then 0 else 1),
    (if month < 10 then month + 3 else month - 9), dayOfYear - (153 * month + 2) / 5 + 1)

/-- The days before a year of an era. -/
theorem daysBefore_era {y : ℕ} (h : y < 400) (era : ℕ) :
    daysBefore (y + era * 400) = era * 146097 + yearStart y := by
  have h4 : (y + era * 400) / 4 = y / 4 + era * 100 := by omega
  have h100 : (y + era * 400) / 100 = y / 100 + era * 4 := by omega
  have h400 : (y + era * 400) / 400 = era := by omega
  have hle : y / 100 ≤ y / 4 := by omega
  unfold daysBefore yearStart
  rw [h4, h100, h400]
  omega

/-- A March year is a day longer exactly when the next year is a leap year. -/
theorem daysBefore_succ (year : ℕ) : daysBefore (year + 1) = daysBefore year + 365 +
    (if (year + 1) % 4 = 0 ∧ ((year + 1) % 100 ≠ 0 ∨ (year + 1) % 400 = 0) then 1 else 0) := by
  have h4 : (year + 1) / 4 = year / 4 + if (year + 1) % 4 = 0 then 1 else 0 := by
    split_ifs <;> omega
  have h100 : (year + 1) / 100 = year / 100 + if (year + 1) % 100 = 0 then 1 else 0 := by
    split_ifs <;> omega
  have h400 : (year + 1) / 400 = year / 400 + if (year + 1) % 400 = 0 then 1 else 0 := by
    split_ifs <;> omega
  have hle : year / 100 ≤ year / 4 := by omega
  have hquarter : (year + 1) % 100 = 0 → (year + 1) % 4 = 0 := by omega
  have hcentury : (year + 1) % 400 = 0 → (year + 1) % 100 = 0 := by omega
  unfold daysBefore
  rw [h4, h100, h400]
  clear h4 h100 h400
  generalize year / 100 = c at *
  generalize year / 400 = g at *
  generalize year / 4 = q at *
  generalize (year + 1) % 4 = q' at *
  generalize (year + 1) % 100 = c' at *
  generalize (year + 1) % 400 = g' at *
  split_ifs <;> omega

theorem daysBefore_succ_le (year : ℕ) : daysBefore (year + 1) ≤ daysBefore year + 366 := by
  rw [daysBefore_succ]
  split_ifs <;> omega

/-- A day of an era as a day of a March year. -/
theorem era_year {era doe : ℕ} (hdoe : doe < 146097) :
    daysBefore (yearOfEra doe + era * 400) + (doe - yearStart (yearOfEra doe)) =
        era * 146097 + doe ∧
      era * 146097 + doe < daysBefore (yearOfEra doe + era * 400 + 1) := by
  obtain ⟨hyear, hstart, hend⟩ := yearOfEra_spec hdoe
  generalize yearOfEra doe = y at *
  constructor
  · rw [daysBefore_era hyear, Nat.add_assoc, Nat.add_sub_cancel' hstart]
  · rcases Nat.lt_or_ge y 399 with hbefore | hlast
    · have hnext : y + era * 400 + 1 = y + 1 + era * 400 := by omega
      rw [hnext, daysBefore_era (by omega)]
      exact Nat.add_lt_add_left (hend hbefore) _
    · -- the last year of an era ends where the next era starts
      have hnext : y + era * 400 + 1 = 0 + (era + 1) * 400 := by omega
      have hzero : yearStart 0 = 0 := rfl
      rw [hnext, daysBefore_era (by omega), hzero]
      omega

theorem marchDay (day : ℕ) : ∃ year dayOfYear month, MarchDay day year dayOfYear month := by
  have hdoe : (day + 719468) % 146097 < 146097 := Nat.mod_lt _ (by decide)
  have hsplit : (day + 719468) / 146097 * 146097 + (day + 719468) % 146097 = day + 719468 :=
    Nat.div_add_mod' _ _
  have hcivil : civil day = civilOf ((day + 719468) / 146097) ((day + 719468) % 146097) := rfl
  obtain ⟨htotal, hinYear⟩ := @era_year ((day + 719468) / 146097) _ hdoe
  rw [hsplit] at htotal hinYear
  refine ⟨_, _, _, htotal, hinYear, rfl, ?_⟩
  have hlong := daysBefore_succ_le
    (yearOfEra ((day + 719468) % 146097) + (day + 719468) / 146097 * 400)
  rw [hcivil]
  unfold civilOf
  dsimp only
  generalize (day + 719468) % 146097 - yearStart (yearOfEra ((day + 719468) % 146097)) = doy at *
  have hmonth : (5 * doy + 2) / 153 ≤ 11 := by omega
  generalize (5 * doy + 2) / 153 = mp at *
  by_cases hmp : mp < 10
  · rw [if_pos hmp, if_pos hmp, if_neg (by omega)]
  · rw [if_neg hmp, if_neg hmp, if_pos (by omega)]

/-- The date of a day, as numbers. -/
def dateFields (day : ℕ) : List ℕ := [(civil day).1, (civil day).2.1, (civil day).2.2]

/-- Later days have later dates. -/
theorem dateFields_lt {a b : ℕ} (h : a < b) : dateFields a < dateFields b := by
  obtain ⟨y, p, m, htotal, hin, hm, hcivil⟩ := marchDay a
  obtain ⟨y', p', m', htotal', hin', hm', hcivil'⟩ := marchDay b
  have hyears : y ≤ y' := by
    by_contra hgt
    have := daysBefore_le (show y' + 1 ≤ y by omega)
    omega
  have hdays : y = y' → p < p' := by
    rintro rfl
    omega
  have hlong := daysBefore_succ_le y
  have hlong' := daysBefore_succ_le y'
  have hp : p ≤ 365 := by omega
  have hp' : p' ≤ 365 := by omega
  unfold dateFields
  rw [hcivil, hcivil', List.cons_lt_cons_iff, List.cons_lt_cons_iff, List.cons_lt_cons_iff]
  dsimp only
  clear hcivil hcivil' htotal htotal' hin hin' hlong hlong'
  rcases Nat.lt_or_eq_of_le hyears with hyear | rfl
  · split_ifs <;> omega
  · have hday := hdays rfl
    have hmonth : m ≤ m' := by
      rw [hm, hm']
      exact Nat.div_le_div_right (by omega)
    split_ifs <;> omega

/-- The days of a month. -/
def daysInMonth (year month : ℕ) : ℕ :=
  if month = 2 then if year % 4 = 0 ∧ (year % 100 ≠ 0 ∨ year % 400 = 0) then 29 else 28
  else if month = 4 ∨ month = 6 ∨ month = 9 ∨ month = 11 then 30 else 31

/-- The first day after the last `datetime`. -/
def endOfDays : ℕ := 2932897

/-- A date that a `datetime` can hold. -/
structure ValidDate (date : ℕ × ℕ × ℕ) : Prop where
  year_range  : 1 ≤ date.1 ∧ date.1 ≤ 9999
  month_range : 1 ≤ date.2.1 ∧ date.2.1 ≤ 12
  day_range   : 1 ≤ date.2.2 ∧ date.2.2 ≤ daysInMonth date.1 date.2.1

theorem civil_valid {day : ℕ} (hday : day < endOfDays) : ValidDate (civil day) := by
  obtain ⟨y, p, m, htotal, hin, hm, hcivil⟩ := marchDay day
  have hlong := daysBefore_succ y
  have hlong' := daysBefore_succ_le y
  have hlast : daysBefore 9999 = 3652059 := rfl
  have hyear : y ≤ 9999 := by
    by_contra hgt
    have hafter : daysBefore 10000 = 3652425 := rfl
    have := daysBefore_le (show 10000 ≤ y by omega)
    unfold endOfDays at hday
    omega
  have hfirst : 1 ≤ y := by
    by_contra hzero
    have := daysBefore_le (show y ≤ 0 by omega)
    have hbefore : daysBefore 0 = 0 := rfl
    omega
  -- the last March year ends in December
  have hdecember : y = 9999 → p ≤ 305 := by
    rintro rfl
    unfold endOfDays at hday
    omega
  have hp : p ≤ 364 + (if (y + 1) % 4 = 0 ∧ ((y + 1) % 100 ≠ 0 ∨ (y + 1) % 400 = 0) then 1 else 0) := by
    omega
  rw [hcivil]
  clear hlast hcivil hin htotal hlong hlong'
  refine ⟨?_, ?_, ?_⟩ <;> dsimp only
  · split_ifs <;> omega
  · split_ifs at hp ⊢ <;> omega
  · refine ⟨Nat.succ_pos _, ?_⟩
    unfold daysInMonth
    by_cases hmonth : m < 10
    · rw [if_pos hmonth, if_pos hmonth]
      have : p ≤ 365 := by split_ifs at hp <;> omega
      split_ifs <;> omega
    · rw [if_neg hmonth, if_neg hmonth]
      split_ifs at hp ⊢ <;> omega

/-! ## Texts -/

theorem zeroPad_toList {width n : ℕ} (hwidth : 0 < width) (hn : n < 10 ^ width) :
    (zeroPad width n).toList = fixedDigits width n := by
  obtain ⟨w, rfl⟩ := Nat.exists_eq_add_of_le' hwidth
  rw [← replicate_append_toDigits w n hn]
  simp [zeroPad]

/-- The fields of `isoformat` before the fraction. -/
def isoWidths : List (ℕ × List Char) :=
  [(4, ['-']), (2, ['-']), (2, ['T']), (2, [':']), (2, [':']), (2, [])]

/-- The fraction, and the `Z`. -/
def fractionText (micros : ℕ) : List Char :=
  if micros = 0 then ['Z'] else '.' :: (fixedDigits 6 micros ++ ['Z'])

/-- Within a second the whole second comes last. -/
theorem fractionText_lt_iff {a b : ℕ} (ha : a < 1000000) (hb : b < 1000000) :
    fractionText a < fractionText b ↔ a ≠ 0 ∧ (b = 0 ∨ a < b) := by
  unfold fractionText
  by_cases hzero : a = 0
  · refine iff_of_false ?_ (fun h => h.1 hzero)
    rw [if_pos hzero]
    split_ifs
    · exact List.lt_irrefl _
    · rw [List.cons_lt_cons_iff]
      rintro (h | ⟨h, -⟩) <;> exact absurd h (by decide)
  · rw [if_neg hzero, and_iff_right hzero]
    by_cases hzero' : b = 0
    · rw [if_pos hzero']
      refine iff_of_true ?_ (.inl hzero')
      rw [List.cons_lt_cons_iff]
      exact .inl (by decide)
    · rw [if_neg hzero', or_iff_right hzero', List.cons_lt_cons_iff,
        append_lt_append_iff (by simp), fixedDigits_lt_iff ha hb]
      have hirrefl : ¬ ['Z'] < ['Z'] := List.lt_irrefl _
      have hdot : ¬ '.' < '.' := by decide
      tauto

/-- Fields as a text. -/
def fieldsText (fields : List ℕ) (micros : ℕ) : List Char :=
  stamp isoWidths fields (fractionText micros)

/-- The text of fields with a fraction, as `isoformat` puts it together. -/
theorem stamped_toList {year month day hour minute second micros : ℕ}
    (hfit : FitsWidths isoWidths [year, month, day, hour, minute, second])
    (hmicros : micros < 1000000) :
    (zeroPad 4 year ++ "-" ++ zeroPad 2 month ++ "-" ++ zeroPad 2 day ++ "T" ++
      (zeroPad 2 hour ++ ":" ++ zeroPad 2 minute ++ ":" ++ zeroPad 2 second ++
        (if micros = 0 then "" else "." ++ zeroPad 6 micros)) ++ "Z").toList =
      fieldsText [year, month, day, hour, minute, second] micros := by
  obtain ⟨hyear, hmonth, hday, hhour, hminute, hsecond, -⟩ := hfit
  have hfraction : (if micros = 0 then "" else "." ++ zeroPad 6 micros).toList ++ ['Z'] =
      fractionText micros := by
    unfold fractionText
    split_ifs
    · rfl
    · rw [String.toList_append, zeroPad_toList (by omega) hmicros]
      rfl
  simp only [String.toList_append, zeroPad_toList (by omega : 0 < 4) hyear,
    zeroPad_toList (by omega : 0 < 2) hmonth, zeroPad_toList (by omega : 0 < 2) hday,
    zeroPad_toList (by omega : 0 < 2) hhour, zeroPad_toList (by omega : 0 < 2) hminute,
    zeroPad_toList (by omega : 0 < 2) hsecond, fieldsText, stamp, isoWidths, List.append_assoc,
    List.nil_append]
  rw [← hfraction]
  rfl

/-- **Stamped instants** compare by their fields, then by their fractions. -/
theorem fieldsText_not_lt_iff {fs gs : List ℕ} {a b : ℕ} (hfs : FitsWidths isoWidths fs)
    (hgs : FitsWidths isoWidths gs) (ha : a < 1000000) (hb : b < 1000000) :
    ¬ fieldsText gs b < fieldsText fs a ↔
      fs < gs ∨ (fs = gs ∧ (b = 0 ∨ (a ≠ 0 ∧ a ≤ b))) := by
  rw [fieldsText, fieldsText, stamp_lt_iff isoWidths hgs hfs, fractionText_lt_iff hb ha]
  by_cases heq : fs = gs
  · subst heq
    have hirrefl : ¬ fs < fs := List.lt_irrefl _
    simp only [hirrefl, true_and, false_or]
    omega
  · have hne : ¬ gs = fs := fun h => heq h.symm
    simp only [heq, hne, false_and, or_false]
    refine ⟨fun h => ?_, fun h => List.lt_asymm h⟩
    rcases lt_trichotomy fs gs with hlt | hsame | hgt
    · exact hlt
    · exact absurd hsame heq
    · exact absurd hgt h

/-! ### Datetimes -/

/-- A `datetime` in UTC. -/
structure UtcDatetime where
  year        : ℕ
  month       : ℕ
  day         : ℕ
  hour        : ℕ
  minute      : ℕ
  second      : ℕ
  microsecond : ℕ
  year_range  : 1 ≤ year ∧ year ≤ 9999
  month_range : 1 ≤ month ∧ month ≤ 12
  day_range   : 1 ≤ day ∧ day ≤ daysInMonth year month
  time_range  : hour < 24 ∧ minute < 60 ∧ second < 60
  microsecond_lt : microsecond < 1000000

namespace UtcDatetime

/-- Down to the second. -/
def fields (d : UtcDatetime) : List ℕ := [d.year, d.month, d.day, d.hour, d.minute, d.second]

/-- Datetimes of one zone compare field by field. -/
instance : LE UtcDatetime where
  le a b := a.fields < b.fields ∨ (a.fields = b.fields ∧ a.microsecond ≤ b.microsecond)

/-- `utc_text(value)`. -/
def text (d : UtcDatetime) : String :=
  zeroPad 4 d.year ++ "-" ++ zeroPad 2 d.month ++ "-" ++ zeroPad 2 d.day ++ "T" ++
    (zeroPad 2 d.hour ++ ":" ++ zeroPad 2 d.minute ++ ":" ++ zeroPad 2 d.second ++
      (if d.microsecond = 0 then "" else "." ++ zeroPad 6 d.microsecond)) ++ "Z"

theorem fields_fit (d : UtcDatetime) : FitsWidths isoWidths d.fields := by
  have hyear := d.year_range
  have hmonth := d.month_range
  have hday := d.day_range
  have htime := d.time_range
  have hlong : daysInMonth d.year d.month ≤ 31 := by
    unfold daysInMonth
    split_ifs <;> omega
  refine ⟨?_, ?_, ?_, ?_, ?_, ?_, trivial⟩ <;> simp only [Nat.reducePow] <;> omega

theorem text_toList (d : UtcDatetime) : d.text.toList = fieldsText d.fields d.microsecond := by
  exact stamped_toList d.fields_fit d.microsecond_lt

/-- A whole second and a later time within it: texts and times disagree. -/
def Clash (a b : UtcDatetime) : Prop :=
  a.fields = b.fields ∧ ¬ (a.microsecond = 0 ↔ b.microsecond = 0)

/-- **The order of texts.** -/
theorem text_le_iff (a b : UtcDatetime) : (a.text ≤ b.text ↔ a ≤ b) ↔ ¬ Clash a b := by
  have htext : a.text ≤ b.text ↔ ¬ fieldsText b.fields b.microsecond <
      fieldsText a.fields a.microsecond := by
    rw [← text_toList, ← text_toList]
    exact Iff.rfl
  have hle : a ≤ b ↔ a.fields < b.fields ∨ (a.fields = b.fields ∧ a.microsecond ≤ b.microsecond) :=
    Iff.rfl
  rw [htext, hle, fieldsText_not_lt_iff a.fields_fit b.fields_fit a.microsecond_lt b.microsecond_lt,
    Clash]
  by_cases heq : a.fields = b.fields
  · have hirrefl : ¬ b.fields < b.fields := List.lt_irrefl _
    simp only [heq, hirrefl, true_and, false_or]
    omega
  · simp only [heq, false_and, or_false, not_false_eq_true]

end UtcDatetime

/-! ### Instants -/

/-- A `datetime` can hold the instant. -/
def Representable (t : ℕ) : Prop := dayOf t < endOfDays

instance (t : ℕ) : Decidable (Representable t) := inferInstanceAs (Decidable (_ < _))

/-- The hours, minutes and seconds of a second. -/
def timeFields (second : ℕ) : List ℕ := [second / 3600 % 24, second / 60 % 60, second % 60]

/-- An instant down to the second. -/
def instantFields (t : ℕ) : List ℕ := dateFields (dayOf t) ++ timeFields (t / microsPerSecond)

@[simp] theorem length_dateFields (day : ℕ) : (dateFields day).length = 3 := rfl

theorem dateFields_lt_iff {a b : ℕ} : dateFields a < dateFields b ↔ a < b := by
  refine ⟨fun h => ?_, dateFields_lt⟩
  rcases Nat.lt_trichotomy a b with hlt | rfl | hgt
  · exact hlt
  · exact absurd h (List.lt_irrefl _)
  · exact absurd h (List.lt_asymm (dateFields_lt hgt))

theorem dateFields_inj {a b : ℕ} : dateFields a = dateFields b ↔ a = b := by
  refine ⟨fun h => ?_, fun h => by rw [h]⟩
  rcases Nat.lt_trichotomy a b with hlt | heq | hgt
  · have hdates := dateFields_lt hlt
    rw [h] at hdates
    exact absurd hdates (List.lt_irrefl _)
  · exact heq
  · have hdates := dateFields_lt hgt
    rw [h] at hdates
    exact absurd hdates (List.lt_irrefl _)

theorem timeFields_lt_iff {a b : ℕ} (h : a / 86400 = b / 86400) :
    timeFields a < timeFields b ↔ a < b := by
  unfold timeFields
  rw [List.cons_lt_cons_iff, List.cons_lt_cons_iff, List.cons_lt_cons_iff]
  have hnil : ¬ ([] : List ℕ) < [] := List.lt_irrefl _
  simp only [hnil, and_false, or_false]
  omega

theorem dayOf_eq (t : ℕ) : dayOf t = t / microsPerSecond / 86400 := by
  rw [dayOf, Nat.div_div_eq_div_mul]
  rfl

/-- Fields are in the order of the seconds. -/
theorem instantFields_lt_iff {a b : ℕ} :
    instantFields a < instantFields b ↔ a / microsPerSecond < b / microsPerSecond := by
  unfold instantFields
  rw [append_lt_append_iff (by simp), dateFields_lt_iff, dateFields_inj, dayOf_eq, dayOf_eq]
  generalize a / microsPerSecond = s
  generalize b / microsPerSecond = t
  by_cases hday : s / 86400 = t / 86400
  · rw [timeFields_lt_iff hday]
    omega
  · simp only [hday, false_and, or_false]
    omega

theorem instantFields_inj {a b : ℕ} :
    instantFields a = instantFields b ↔ a / microsPerSecond = b / microsPerSecond := by
  constructor
  · intro h
    have hab : ¬ instantFields a < instantFields b := by
      rw [h]
      exact List.lt_irrefl _
    have hba : ¬ instantFields b < instantFields a := by
      rw [h]
      exact List.lt_irrefl _
    rw [instantFields_lt_iff] at hab hba
    omega
  · intro h
    unfold instantFields
    rw [dayOf_eq, dayOf_eq, h]

/-- The `datetime` of an instant. -/
def UtcDatetime.ofInstant (t : ℕ) (ht : Representable t) : UtcDatetime where
  year           := (civil (dayOf t)).1
  month          := (civil (dayOf t)).2.1
  day            := (civil (dayOf t)).2.2
  hour           := t / microsPerSecond / 3600 % 24
  minute         := t / microsPerSecond / 60 % 60
  second         := t / microsPerSecond % 60
  microsecond    := t % microsPerSecond
  year_range     := (civil_valid ht).year_range
  month_range    := (civil_valid ht).month_range
  day_range      := (civil_valid ht).day_range
  time_range     := ⟨Nat.mod_lt _ (by decide), Nat.mod_lt _ (by decide), Nat.mod_lt _ (by decide)⟩
  microsecond_lt := Nat.mod_lt _ (by decide)

theorem UtcDatetime.text_ofInstant {t : ℕ} (ht : Representable t) :
    (UtcDatetime.ofInstant t ht).text = utcText t := rfl

theorem UtcDatetime.fields_ofInstant {t : ℕ} (ht : Representable t) :
    (UtcDatetime.ofInstant t ht).fields = instantFields t := rfl

/-- Datetimes are in the order of the instants. -/
theorem UtcDatetime.ofInstant_le_iff {a b : ℕ} (ha : Representable a) (hb : Representable b) :
    UtcDatetime.ofInstant a ha ≤ UtcDatetime.ofInstant b hb ↔ a ≤ b := by
  have hle : UtcDatetime.ofInstant a ha ≤ UtcDatetime.ofInstant b hb ↔
      instantFields a < instantFields b ∨
        (instantFields a = instantFields b ∧ a % microsPerSecond ≤ b % microsPerSecond) := Iff.rfl
  rw [hle, instantFields_lt_iff, instantFields_inj]
  unfold microsPerSecond
  omega

/-- Two instants of one second, exactly one of which is a whole second. -/
def SameSecondClash (a b : ℕ) : Prop :=
  a / microsPerSecond = b / microsPerSecond ∧
    ¬ (a % microsPerSecond = 0 ↔ b % microsPerSecond = 0)

instance (a b : ℕ) : Decidable (SameSecondClash a b) :=
  inferInstanceAs (Decidable (_ ∧ _))

theorem UtcDatetime.clash_ofInstant {a b : ℕ} (ha : Representable a) (hb : Representable b) :
    Clash (UtcDatetime.ofInstant a ha) (UtcDatetime.ofInstant b hb) ↔ SameSecondClash a b := by
  unfold Clash
  rw [fields_ofInstant, fields_ofInstant, instantFields_inj]
  exact Iff.rfl

/-- **Texts and instants** agree but for these. -/
theorem textLe_iff {a b : ℕ} (ha : Representable a) (hb : Representable b) :
    (textLe a b = true ↔ a ≤ b) ↔ ¬ SameSecondClash a b := by
  rw [textLe, decide_eq_true_eq, ← UtcDatetime.text_ofInstant ha, ← UtcDatetime.text_ofInstant hb,
    ← UtcDatetime.ofInstant_le_iff ha hb, UtcDatetime.text_le_iff, UtcDatetime.clash_ofInstant]

end Conductress
