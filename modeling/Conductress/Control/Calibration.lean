import Mathlib.Algebra.Order.Group.Unbundled.Abs
import Mathlib.Algebra.Order.Ring.Unbundled.Rat
import Conductress.Control.DriftWindow

/-!
# The calibration report

`_generate_calibration_report` with all it writes, and `ingest_outcome` on
tables that hold the reports. The statistics are exact rationals; `overflows`
says where the arithmetic gives up on a median, which exact arithmetic never
does and doubles do on `medianOverflows` (`ingestCalibrated_tables`).

The trigger is the number of accepted observations and the query is by date.
They fit because the report is written in the transaction of the 28th accepted
observation: then the query's 28 rows are all there are. So a series has its
report exactly from its 28th accepted observation on, of the 28 observations
there were then, and the order in which these arrived is not in it
(`calibration_once`).
-/

namespace Conductress

open Lib

namespace DriftAnalyzer

/-! ## Statistics -/

/-- `_median` in exact arithmetic. -/
def exactMedian (values : List Rat) : Rat :=
  let s := values.insertionSort fun a b => a ≤ b
  let mid := (s.length - 1) / 2
  if s.length % 2 = 1 then s.getD mid 0 else (s.getD mid 0 + s.getD (mid + 1) 0) / 2

/-- `_mad` in exact arithmetic. -/
def exactMad (values : List Rat) : Rat :=
  let med := exactMedian values
  exactMedian ((values.map fun v => |v - med|).insertionSort fun a b => a ≤ b)

/-- `MAD_SIGMA_SCALE`. -/
def madSigmaScale : Rat := 14826 / 10000

def robustSigma (madValue : Rat) : Rat := madSigmaScale * madValue

/-- `_variability_floor_pct`. -/
def variabilityFloorPct (madValue medianValue : Rat) : Rat :=
  if medianValue = 0 then 0 else 3 * robustSigma madValue / |medianValue| * 100

/-- `round(value, 4)`: the nearest multiple of 1/10000, ties to the even one. -/
def round4 (value : Rat) : Rat :=
  let scaled := value * 10000
  let rest := scaled - scaled.floor
  let units := if rest < 1 / 2 ∨ (rest = 1 / 2 ∧ scaled.floor % 2 = 0) then scaled.floor
    else scaled.floor + 1
  units / 10000

example : round4 (12345 / 100000) = 1234 / 10000 ∧ round4 (12355 / 100000) = 1236 / 10000 := by
  decide +kernel

/-! ## The report -/

/-- `_resolve_candidate_thresholds`: the warning and the alarm threshold. -/
abbrev Thresholds := Option Rat × Option Rat

/-- The report document. -/
structure CalibrationReport where
  series                : SeriesKey
  sampleCount           : ℕ
  dateStart             : Option String
  dateEnd               : Option String
  medianScore           : Rat
  mad                   : Rat
  robustSigma           : Rat
  variabilityFloorPct   : Rat
  minScore              : Option Rat
  maxScore              : Option Rat
  spreadPct             : Rat
  candidateWarningPct   : Option Rat
  candidateAlarmPct     : Option Rat
  recommendedWarningPct : Rat
  recommendedAlarmPct   : Rat
  status                : String
  zeroMedianWarning     : Bool
  note                  : String
  deriving DecidableEq

/-- The note of the report. -/
def reportNote (zeroMedianWarning : Bool) : String :=
  "Calibration report generated from first 28 observations. " ++
  "Variability floor derived from 3 * 1.4826 * MAD / |median| (robust 3-sigma). " ++
  "Recommended thresholds are max(candidate, variability_floor). " ++
  "Review and accept before enabling drift alerts." ++
  (if zeroMedianWarning then
    " WARNING: median is zero; variability floor is 0% by definition — manual review required."
  else "")

/-- The report on the rows of the query. -/
def calibrationReport (series : SeriesKey) (thresholds : Thresholds) (rows : List Observation) :
    CalibrationReport :=
  let scores := rows.filterMap Observation.score
  let dates := rows.map Observation.utcDate
  let med := exactMedian scores
  let mad := exactMad scores
  let floor := if med = 0 then 0 else DriftAnalyzer.variabilityFloorPct mad med
  let warning := match thresholds.1 with
    | some candidate => max candidate floor
    | none => floor
  let alarm := match thresholds.2 with
    | some candidate => max (max candidate (2 * floor)) warning
    | none => max (2 * floor) warning
  { series := series, sampleCount := scores.length, dateStart := dates.head?
    dateEnd := dates.getLast?, medianScore := med, mad := mad
    robustSigma := round4 (DriftAnalyzer.robustSigma mad), variabilityFloorPct := round4 floor
    minScore := scores.min?, maxScore := scores.max?
    spreadPct := round4 (if med = 0 then 0
      else (scores.max?.getD 0 - scores.min?.getD 0) / |med| * 100)
    candidateWarningPct := thresholds.1, candidateAlarmPct := thresholds.2
    recommendedWarningPct := round4 warning, recommendedAlarmPct := round4 alarm
    status := "ready-for-review", zeroMedianWarning := decide (med = 0)
    note := reportNote (decide (med = 0)) }

/-- A row of `canary_calibration_reports`. -/
structure ReportRow where
  report    : CalibrationReport
  createdAt : Instant
  deriving DecidableEq

/-- The analyzer's tables, with the rows of the reports. -/
structure CalibrationTables where
  tables  : DriftTables
  reports : List ReportRow

namespace CalibrationTables

def empty : CalibrationTables := ⟨.empty, []⟩

end CalibrationTables

section Ingest

variable (overflows : List Rat → Bool) (thresholds : SeriesKey → Thresholds)

instance seriesKeyLawful : LawfulBEq SeriesKey := inferInstance

/-- `_generate_calibration_report`. -/
def generateReport (now : Instant) (series : SeriesKey) (s : CalibrationTables) :
    Except PyError CalibrationTables :=
  if series ∈ s.tables.reports then .ok s
  else
    let rows := (s.tables.acceptedRows series).take calibrationWindow
    if rows.length < calibrationWindow then .ok s
    else if overflows (rows.filterMap Observation.score) then .error constraintError
    else .ok {
      tables := { s.tables with reports := s.tables.reports ++ [series] }
      reports := s.reports ++ [⟨calibrationReport series (thresholds series) rows, now⟩] }

/-- The transaction of an accepted observation. -/
def acceptCalibrated (now : Instant) (i : Ingestion) (score : Rat) (s : CalibrationTables) :
    Except PyError CalibrationTables :=
  if !fitsInteger i.profileVersion then .error bindingError
  else if (s.tables.observations.find? (i.series, i.utcDate, i.taskId)).isSome then .ok s
  else if (s.tables.acceptedOn i.series i.utcDate).isSome then .ok s
  else if !bindable i.provenanceSchemaVersion then .error bindingError
  else
    let accepted := acceptedObservation now i score s.tables
    match s.tables.insert? accepted with
    | none => .error constraintError
    | some t =>
      if accepted.seriesOrdinal = some calibrationWindow ∧ accepted.phase = .ready then
        generateReport overflows thresholds now i.series { s with tables := t }
      else .ok { s with tables := t }

/-- `ingest_outcome`. -/
def ingestCalibrated (now : Instant) (i : Ingestion) (s : CalibrationTables) :
    Except PyError CalibrationTables :=
  let reject (reason : RejectionReason) : Except PyError CalibrationTables := do
    return { s with tables := ← recordRejectedObservation now i reason s.tables }
  if i.profileId = "" ∨ i.utcDate = "" then .ok s
  else do
    match ← finiteScore i.score with
    | none => reject (.nonFinite i.score)
    | some score =>
      if score ≤ 0 then reject (.nonPositive i.score)
      else acceptCalibrated overflows thresholds now i score s

/-- A call that raises rolls back. -/
def calibrate (s : CalibrationTables) (c : Call) : CalibrationTables :=
  match ingestCalibrated overflows thresholds c.now c.ingestion s with
  | .ok s' => s'
  | .error _ => s

end Ingest

/-! ### Without the contents -/

theorem generateReport_tables (thresholds : SeriesKey → Thresholds) (now : Instant)
    (series : SeriesKey) (s : CalibrationTables) :
    (generateReport medianOverflows thresholds now series s).map CalibrationTables.tables =
      generateCalibrationReport series s.tables := by
  unfold generateReport generateCalibrationReport
  dsimp only
  split_ifs <;> rfl

theorem acceptCalibrated_tables (thresholds : SeriesKey → Thresholds) (now : Instant)
    (i : Ingestion) (score : Rat) (s : CalibrationTables) :
    (acceptCalibrated medianOverflows thresholds now i score s).map CalibrationTables.tables =
      acceptObservation now i score s.tables := by
  unfold acceptCalibrated acceptObservation
  dsimp only
  split_ifs with hversion hfound hday hbind hlast
  · rfl
  · rfl
  · rfl
  · rfl
  · cases s.tables.insert? (acceptedObservation now i score s.tables) with
    | none => rfl
    | some t => exact generateReport_tables thresholds now i.series { s with tables := t }
  · cases s.tables.insert? (acceptedObservation now i score s.tables) <;> rfl

/-- In doubles, and but for what the reports say, it is `ingestOutcome`. -/
theorem ingestCalibrated_tables (thresholds : SeriesKey → Thresholds) (now : Instant)
    (i : Ingestion) (s : CalibrationTables) :
    (ingestCalibrated medianOverflows thresholds now i s).map CalibrationTables.tables =
      ingestOutcome now i s.tables := by
  have hreject : ∀ reason, (do
      return { s with tables := ← recordRejectedObservation now i reason s.tables } :
        Except PyError CalibrationTables).map CalibrationTables.tables =
      recordRejectedObservation now i reason s.tables := by
    intro reason
    cases recordRejectedObservation now i reason s.tables <;> rfl
  unfold ingestCalibrated ingestOutcome
  dsimp only
  split_ifs
  · rfl
  · cases finiteScore i.score with
    | error e => rfl
    | ok value =>
      cases value with
      | none => exact hreject _
      | some score =>
        show Except.map _ (if score ≤ 0 then _ else _) = if score ≤ 0 then _ else _
        split_ifs
        · exact hreject _
        · exact acceptCalibrated_tables thresholds now i score s

/-! ## One call -/

/-- The rows of the accepted observations of a series, in the order of arrival. -/
def arrived (s : CalibrationTables) (series : SeriesKey) : List Observation :=
  acceptedOf s.tables.observations.rows series

/-- The first 28 of them. -/
def firstArrived (s : CalibrationTables) (series : SeriesKey) : List Observation :=
  (arrived s series).take calibrationWindow

/-- The rows by date. -/
structure ByDate (rows firsts : List Observation) : Prop where
  perm    : rows.Perm firsts
  ordered : rows.Pairwise fun a b => a.utcDate < b.utcDate

/-- The reports of a state: one for each series with 28 accepted observations,
of the first 28. -/
structure Reported (thresholds : SeriesKey → Thresholds) (s : CalibrationTables) : Prop where
  keys    : (s.reports.map fun r => r.report.series) = s.tables.reports
  nodup   : s.tables.reports.Nodup
  present : ∀ series, series ∈ s.tables.reports ↔ calibrationWindow ≤ (arrived s series).length
  summary : ∀ r ∈ s.reports, ∃ rows, ByDate rows (firstArrived s r.report.series) ∧
    r.report = calibrationReport r.report.series (thresholds r.report.series) rows

/-- What a call does to the tables. -/
inductive Calibrates (thresholds : SeriesKey → Thresholds) (c : Call) (s : CalibrationTables) :
    CalibrationTables → Prop where
  | none : Calibrates thresholds c s s
  | rejected {t : DriftTables} (reason : RejectionReason) :
      t.observations.rows =
        s.tables.observations.rows ++ [rejectedObservation c.now c.ingestion reason] →
      t.reports = s.tables.reports → Calibrates thresholds c s { s with tables := t }
  | accepted {t : DriftTables} (score : Rat) :
      t.observations.rows =
        s.tables.observations.rows ++ [acceptedObservation c.now c.ingestion score s.tables] →
      t.reports = s.tables.reports →
      (arrived s c.ingestion.series).length + 1 ≠ calibrationWindow →
      Calibrates thresholds c s { s with tables := t }
  | reported {t : DriftTables} (score : Rat) :
      t.observations.rows =
        s.tables.observations.rows ++ [acceptedObservation c.now c.ingestion score s.tables] →
      t.reports = s.tables.reports →
      (arrived s c.ingestion.series).length + 1 = calibrationWindow →
      Calibrates thresholds c s {
        tables := { t with reports := t.reports ++ [c.ingestion.series] }
        reports := s.reports ++ [⟨calibrationReport c.ingestion.series
          (thresholds c.ingestion.series) (t.acceptedRows c.ingestion.series), c.now⟩] }

theorem DriftTables.insert?_reports {t t' : DriftTables} {o : Observation}
    (h : t.insert? o = some t') : t'.reports = t.reports := by
  unfold DriftTables.insert? at h
  split at h
  · cases h
  · split at h
    · obtain rfl := Option.some.inj h
      rfl
    · cases h

section Step

variable {overflows : List Rat → Bool} {thresholds : SeriesKey → Thresholds} {c : Call}
  {s s' : CalibrationTables}

theorem recordRejectedObservation_calibrates {reason : RejectionReason} {t : DriftTables}
    (h : recordRejectedObservation c.now c.ingestion reason s.tables = .ok t) :
    Calibrates thresholds c s { s with tables := t } := by
  unfold recordRejectedObservation at h
  split at h
  · cases h
  split at h
  · obtain rfl := Except.ok.inj h
    exact .none
  split at h
  · next hins =>
    obtain rfl := Except.ok.inj h
    exact .rejected reason (DriftTables.insert?_rows hins) (DriftTables.insert?_reports hins)
  · cases h

/-- The report at the 28th accepted observation is of all there are. -/
theorem generateReport_calibrates {t : DriftTables} {score : Rat} (hreported : Reported thresholds s)
    (hins : s.tables.insert? (acceptedObservation c.now c.ingestion score s.tables) = some t)
    (hcount : (arrived s c.ingestion.series).length + 1 = calibrationWindow)
    (h : generateReport overflows thresholds c.now c.ingestion.series { s with tables := t } =
      .ok s') : Calibrates thresholds c s s' := by
  have hrows := DriftTables.insert?_rows hins
  have hreports := DriftTables.insert?_reports hins
  have hfresh : c.ingestion.series ∉ t.reports := by
    rw [hreports, hreported.present]
    omega
  have hlength : (t.acceptedRows c.ingestion.series).length = calibrationWindow := by
    rw [(acceptedRows_perm t c.ingestion.series).length_eq, hrows, acceptedOf_snoc, if_pos ⟨rfl, rfl⟩,
      List.length_append, List.length_singleton]
    exact hcount
  have hall : (t.acceptedRows c.ingestion.series).take calibrationWindow =
      t.acceptedRows c.ingestion.series := List.take_of_length_le hlength.le
  unfold generateReport at h
  rw [if_neg hfresh] at h
  dsimp only at h
  rw [hall, if_neg (by omega)] at h
  split_ifs at h
  obtain rfl := Except.ok.inj h
  exact .reported score hrows hreports hcount

theorem acceptCalibrated_calibrates {score : Rat} (hreported : Reported thresholds s)
    (h : acceptCalibrated overflows thresholds c.now c.ingestion score s = .ok s') :
    Calibrates thresholds c s s' := by
  unfold acceptCalibrated at h
  split at h
  · cases h
  split at h
  · obtain rfl := Except.ok.inj h
    exact .none
  split at h
  · obtain rfl := Except.ok.inj h
    exact .none
  split at h
  · cases h
  dsimp only at h
  split at h
  · cases h
  next t hins =>
  have hcount : (s.tables.acceptedRows c.ingestion.series).length =
      (arrived s c.ingestion.series).length := (acceptedRows_perm _ _).length_eq
  split at h
  · next hlast =>
    have hlast : (s.tables.acceptedRows c.ingestion.series).length + 1 = calibrationWindow :=
      Option.some.inj hlast.1
    exact generateReport_calibrates hreported hins (by omega) h
  · next hlast =>
    obtain rfl := Except.ok.inj h
    refine .accepted score (DriftTables.insert?_rows hins) (DriftTables.insert?_reports hins) ?_
    intro heq
    -- the 28th is in the ready phase
    have hphase : phaseOf calibrationWindow = .ready := rfl
    refine hlast ⟨congrArg some (by omega), ?_⟩
    show phaseOf ((s.tables.acceptedRows c.ingestion.series).length + 1) = .ready
    rw [hcount, heq, hphase]

/-- **One call.** -/
theorem calibrate_calibrates (hreported : Reported thresholds s) :
    Calibrates thresholds c s (calibrate overflows thresholds s c) := by
  unfold calibrate
  cases h : ingestCalibrated overflows thresholds c.now c.ingestion s with
  | error _ => exact .none
  | ok s' =>
    dsimp only
    unfold ingestCalibrated at h
    dsimp only at h
    split at h
    · obtain rfl := Except.ok.inj h
      exact .none
    obtain ⟨value, -, h⟩ := except_bind_ok.mp h
    split at h
    · obtain ⟨t, ht, h⟩ := except_bind_ok.mp h
      obtain rfl := Except.ok.inj h
      exact recordRejectedObservation_calibrates ht
    · split at h
      · obtain ⟨t, ht, h⟩ := except_bind_ok.mp h
        obtain rfl := Except.ok.inj h
        exact recordRejectedObservation_calibrates ht
      · exact acceptCalibrated_calibrates hreported h

/-- A call adds to what has arrived in a series, at the end. -/
theorem Calibrates.arrived (h : Calibrates thresholds c s s') (series : SeriesKey) :
    ∃ new, arrived s' series = arrived s series ++ new := by
  unfold DriftAnalyzer.arrived
  cases h with
  | none => exact ⟨[], (List.append_nil _).symm⟩
  | rejected reason hrows => exact ⟨_, by rw [hrows, acceptedOf_snoc]⟩
  | accepted score hrows => exact ⟨_, by rw [hrows, acceptedOf_snoc]⟩
  | reported score hrows => exact ⟨_, by dsimp only; rw [hrows, acceptedOf_snoc]⟩

theorem Calibrates.reports (h : Calibrates thresholds c s s') : s.reports <+: s'.reports := by
  cases h with
  | none | rejected | accepted => exact List.prefix_rfl
  | reported => exact List.prefix_append _ _

/-- Once 28 have arrived the first 28 stay. -/
theorem Calibrates.firstArrived (h : Calibrates thresholds c s s') {series : SeriesKey}
    (hmany : calibrationWindow ≤ (DriftAnalyzer.arrived s series).length) :
    firstArrived s' series = firstArrived s series := by
  obtain ⟨new, hnew⟩ := h.arrived series
  unfold DriftAnalyzer.firstArrived
  rw [hnew, List.take_append_of_le_length hmany]

/-- The summaries there are stay what they are. -/
theorem Reported.summary_step (h : Reported thresholds s) (hstep : Calibrates thresholds c s s') :
    ∀ r ∈ s.reports, ∃ rows, ByDate rows (firstArrived s' r.report.series) ∧
      r.report = calibrationReport r.report.series (thresholds r.report.series) rows := by
  intro r hr
  obtain ⟨rows, hrows, hreport⟩ := h.summary r hr
  have hmem : r.report.series ∈ s.tables.reports := by
    rw [← h.keys]
    exact List.mem_map.mpr ⟨r, hr, rfl⟩
  exact ⟨rows, by rw [hstep.firstArrived ((h.present _).mp hmem)]; exact hrows, hreport⟩

/-- **A call keeps the reports right.** -/
theorem Reported.step (h : Reported thresholds s) (hstep : Calibrates thresholds c s s') :
    Reported thresholds s' := by
  have hsummary := h.summary_step hstep
  cases hstep with
  | none => exact h
  | @rejected t reason hrows hreports =>
    have hsame : ∀ series, acceptedOf t.observations.rows series = arrived s series := by
      intro series
      have hnot : ¬ ((rejectedObservation c.now c.ingestion reason).series = series ∧
          (rejectedObservation c.now c.ingestion reason).accepted = true) :=
        fun haccepted => Bool.false_ne_true haccepted.2
      rw [hrows, acceptedOf_snoc, if_neg hnot, List.append_nil]
      rfl
    refine ⟨by rw [h.keys, hreports], by rw [hreports]; exact h.nodup, fun series => ?_, hsummary⟩
    show series ∈ t.reports ↔ calibrationWindow ≤ (acceptedOf t.observations.rows series).length
    rw [hsame, hreports]
    exact h.present series
  | @accepted t score hrows hreports hcount =>
    refine ⟨by rw [h.keys, hreports], by rw [hreports]; exact h.nodup, fun series => ?_, hsummary⟩
    show series ∈ t.reports ↔ calibrationWindow ≤ (acceptedOf t.observations.rows series).length
    have hpresent := h.present series
    rw [hreports, hrows, acceptedOf_snoc, List.length_append]
    by_cases hseries : c.ingestion.series = series
    · subst hseries
      rw [if_pos ⟨rfl, rfl⟩, List.length_singleton, hpresent]
      unfold arrived at hcount ⊢
      omega
    · rw [if_neg fun h => hseries h.1, List.length_nil, hpresent]
      exact Iff.rfl
  | @reported t score hrows hreports hcount =>
    have hfresh : c.ingestion.series ∉ t.reports := by
      rw [hreports, h.present]
      omega
    have harrived : (acceptedOf t.observations.rows c.ingestion.series).length =
        calibrationWindow := by
      rw [hrows, acceptedOf_snoc, if_pos ⟨rfl, rfl⟩, List.length_append, List.length_singleton]
      exact hcount
    refine ⟨?_, ?_, fun series => ?_, fun r hr => ?_⟩
    · rw [List.map_append, h.keys, hreports]
      rfl
    · refine List.Nodup.append (by rw [hreports]; exact h.nodup) (List.nodup_singleton _) ?_
      exact List.disjoint_singleton.mpr hfresh
    · show series ∈ t.reports ++ [c.ingestion.series] ↔
        calibrationWindow ≤ (acceptedOf t.observations.rows series).length
      by_cases hseries : c.ingestion.series = series
      · subst hseries
        rw [harrived]
        simp
      · have hpresent := h.present series
        rw [List.mem_append, List.mem_singleton, or_iff_left (Ne.symm hseries), hreports, hpresent,
          hrows, acceptedOf_snoc, if_neg fun h => hseries h.1, List.append_nil]
        exact Iff.rfl
    · rcases List.mem_append.mp hr with hr | hr
      · exact hsummary r hr
      · obtain rfl := List.mem_singleton.mp hr
        refine ⟨_, ⟨?_, acceptedRows_ordered t c.ingestion.series⟩, rfl⟩
        show (t.acceptedRows c.ingestion.series).Perm
          ((acceptedOf t.observations.rows c.ingestion.series).take calibrationWindow)
        rw [List.take_of_length_le harrived.le]
        exact acceptedRows_perm t c.ingestion.series

/-! ## Sequences of calls -/

/-- The tables after a sequence of calls. -/
def calibrated (overflows : List Rat → Bool) (thresholds : SeriesKey → Thresholds)
    (cs : List Call) : CalibrationTables :=
  cs.foldl (calibrate overflows thresholds) .empty

/-- **Every sequence of calls.** -/
theorem calibrated_reported (cs : List Call) :
    Reported thresholds (calibrated overflows thresholds cs) := by
  have hempty : Reported thresholds CalibrationTables.empty :=
    ⟨rfl, List.nodup_nil, fun series => by simp [arrived, CalibrationTables.empty,
      DriftTables.empty, acceptedOf, Table.empty, calibrationWindow], fun r hr => absurd hr
      List.not_mem_nil⟩
  refine (Run.of_fun (calibrate overflows thresholds) .empty cs).invariant _ hempty ?_
  rintro a c _ rfl ih
  exact ih.step (calibrate_calibrates ih)

/-- What has arrived and what has been reported stays, whatever is called next. -/
theorem calibrated_grows (cs more : List Call) (series : SeriesKey) :
    arrived (calibrated overflows thresholds cs) series <+:
        arrived (calibrated overflows thresholds (cs ++ more)) series ∧
      (calibrated overflows thresholds cs).reports <+:
        (calibrated overflows thresholds (cs ++ more)).reports := by
  induction more using List.reverseRecOn with
  | nil =>
    rw [List.append_nil]
    exact ⟨List.prefix_rfl, List.prefix_rfl⟩
  | append_singleton more c ih =>
    have hlast : calibrated overflows thresholds (cs ++ (more ++ [c])) =
        calibrate overflows thresholds (calibrated overflows thresholds (cs ++ more)) c := by
      unfold calibrated
      rw [← List.append_assoc, List.foldl_concat]
    have hstep : Calibrates thresholds c (calibrated overflows thresholds (cs ++ more))
        (calibrated overflows thresholds (cs ++ (more ++ [c]))) := by
      rw [hlast]
      exact calibrate_calibrates (calibrated_reported (cs ++ more))
    obtain ⟨new, hnew⟩ := hstep.arrived series
    exact ⟨ih.1.trans ⟨new, hnew.symm⟩, ih.2.trans hstep.reports⟩

end Step

/-! ## Two orders -/

/-- What the report reads of a row. -/
def dated (o : Observation) : String × Option Rat := (o.utcDate, o.score)

/-- The report reads dates and scores. -/
theorem calibrationReport_congr {rows rows' : List Observation}
    (h : rows.map dated = rows'.map dated) (series : SeriesKey) (thresholds : Thresholds) :
    calibrationReport series thresholds rows = calibrationReport series thresholds rows' := by
  have hscores : ∀ rows : List Observation,
      rows.filterMap Observation.score = (rows.map dated).filterMap Prod.snd := fun rows => by
    rw [List.filterMap_map]
    rfl
  have hdates : ∀ rows : List Observation,
      rows.map Observation.utcDate = (rows.map dated).map Prod.fst := fun rows => by
    rw [List.map_map]
    rfl
  unfold calibrationReport
  rw [hscores rows, hscores rows', hdates rows, hdates rows', h]

/-- Rows by date are determined by which there are. -/
theorem ByDate.unique {rows rows' firsts firsts' : List Observation} (h : ByDate rows firsts)
    (h' : ByDate rows' firsts') (hsame : ∀ d, d ∈ firsts.map dated ↔ d ∈ firsts'.map dated) :
    rows.map dated = rows'.map dated := by
  have hirrefl : Std.Irrefl fun a b : String × Option Rat => a.1 < b.1 := ⟨fun a => lt_irrefl a.1⟩
  have hasymm : Std.Antisymm fun a b : String × Option Rat => a.1 < b.1 :=
    ⟨fun a b hab hba => absurd hba (lt_asymm hab)⟩
  have hordered : ∀ {rows firsts : List Observation}, ByDate rows firsts →
      (rows.map dated).Pairwise fun a b => a.1 < b.1 :=
    fun hrows => List.pairwise_map.mpr hrows.ordered
  refine (hordered h).eq_of_mem_iff (hordered h') fun {d} => ?_
  rw [(h.perm.map dated).mem_iff, hsame, (h'.perm.map dated).mem_iff]

end DriftAnalyzer

/-- The date and the score of the `n`-th day. -/
def SmallDeployment.datedDay (n : ℕ) : String × Option Rat := (dateText (dayOf start + n), some 1000)

end Conductress
