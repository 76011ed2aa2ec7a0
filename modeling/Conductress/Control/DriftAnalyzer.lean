import Conductress.Lib.Except
import Conductress.Control.Service

/-!
# The drift analyzer

`DriftAnalyzer.ingest_outcome` on the tables `canary_observations` and
`canary_calibration_reports`: a completed canary outcome becomes one accepted
or one rejected observation, or finds its day taken. It is one transaction of
its own and may raise; then nothing is stored.

* `DriftTables` — the observations under both their UNIQUE constraints, so that
  a day of a series with two accepted observations cannot be built;
* `ingestOutcome_mem` — what an ingestion adds is an observation of its task;
* `ingestOutcome_observed` — an ingestion that does not raise leaves the task's
  observation, or another task's accepted one for the same day;
* `ingestOutcome_ok` — on `Ingestible` arguments it does not raise.

The change against the reference, the candidate thresholds and signal, and the
text of the environment are read by nothing here and are left out; of a report's
statistics only that its median may overflow is kept.
-/

namespace Conductress

open Lib

/-- `PHASE_OBSERVATION`, `PHASE_CALIBRATING` and `PHASE_READY`. -/
inductive Phase where
  | observation | calibrating | ready
  deriving DecidableEq, Repr

/-- `rejection_reason`: its text quotes the score. -/
inductive RejectionReason where
  | nonFinite (score : Json)
  | nonPositive (score : Json)
  deriving DecidableEq

/-- A series of observations: runner, profile and profile version. -/
abbrev SeriesKey := String × String × Int

/-- A row of `canary_observations`. -/
structure Observation where
  series                  : SeriesKey
  utcDate                 : String
  taskId                  : String
  score                   : Option Rat
  completedAt             : String
  phase                   : Phase
  accepted                : Bool
  rejectionReason         : Option RejectionReason
  seriesOrdinal           : Option ℕ
  refMedian               : Option PyFloat
  refMad                  : Option PyFloat
  refSampleCount          : Option ℕ
  windowStart             : Option String
  windowEnd               : Option String
  provenanceSchemaVersion : Json
  createdAt               : Instant
  deriving DecidableEq

/-- The primary key of `canary_observations`. -/
def Observation.key (o : Observation) : SeriesKey × String × String := (o.series, o.utcDate, o.taskId)

/-- `idx_canary_obs_one_accepted_per_date`. -/
def OneAcceptedPerDate (observations : Table Observation.key) : Prop :=
  ∀ a ∈ observations, ∀ b ∈ observations, a.accepted = true → b.accepted = true →
    a.series = b.series → a.utcDate = b.utcDate → a = b

/-- The analyzer's tables; of a calibration report only its key. -/
structure DriftTables where
  observations : Table Observation.key
  oneAccepted  : OneAcceptedPerDate observations
  reports      : List SeriesKey

namespace DriftTables

/-- The tables of a new database. -/
def empty : DriftTables := ⟨.empty, fun a ha => absurd ha (Table.not_mem_empty a), []⟩

/-- The accepted observation of a day of a series. -/
def acceptedOn (t : DriftTables) (series : SeriesKey) (utcDate : String) : Option Observation :=
  t.observations.rows.find? fun o =>
    decide (o.series = series ∧ o.utcDate = utcDate ∧ o.accepted = true)

theorem acceptedOn_mem {t : DriftTables} {series : SeriesKey} {utcDate : String} {o : Observation}
    (h : t.acceptedOn series utcDate = some o) :
    o ∈ t.observations ∧ o.series = series ∧ o.utcDate = utcDate ∧ o.accepted = true :=
  ⟨List.mem_of_find?_eq_some h, by simpa using List.find?_some h⟩

theorem acceptedOn_none {t : DriftTables} {series : SeriesKey} {utcDate : String}
    (h : t.acceptedOn series utcDate = none) {o : Observation} (ho : o ∈ t.observations)
    (hseries : o.series = series) (hdate : o.utcDate = utcDate) : o.accepted = false := by
  have hno := List.find?_eq_none.mp h o ho
  simpa [hseries, hdate] using hno

/-- A row that takes no accepted observation's day keeps one a day. -/
theorem oneAccepted_insert {t : DriftTables} {observations : Table Observation.key} {o : Observation}
    (hins : t.observations.insert? o = some observations)
    (hfree : o.accepted = true → t.acceptedOn o.series o.utcDate = none) :
    OneAcceptedPerDate observations := by
  intro a ha b hb haccepted hbaccepted hseries hdate
  rcases (Table.mem_insert? hins).mp ha with ha | rfl
  · rcases (Table.mem_insert? hins).mp hb with hb | rfl
    · exact t.oneAccepted a ha b hb haccepted hbaccepted hseries hdate
    · have hnot := acceptedOn_none (hfree hbaccepted) ha hseries hdate
      rw [hnot] at haccepted
      cases haccepted
  · rcases (Table.mem_insert? hins).mp hb with hb | rfl
    · have hnot := acceptedOn_none (hfree haccepted) hb hseries.symm hdate.symm
      rw [hnot] at hbaccepted
      cases hbaccepted
    · rfl

/-- `INSERT INTO canary_observations`, refused by either UNIQUE constraint. -/
def insert? (t : DriftTables) (o : Observation) : Option DriftTables :=
  match hins : t.observations.insert? o with
  | none => none
  | some observations =>
    if hfree : o.accepted = true → t.acceptedOn o.series o.utcDate = none then
      some ⟨observations, oneAccepted_insert hins hfree, t.reports⟩
    else none

theorem mem_insert? {t t' : DriftTables} {o : Observation} (h : t.insert? o = some t')
    {o' : Observation} : o' ∈ t'.observations ↔ o' ∈ t.observations ∨ o' = o := by
  unfold insert? at h
  split at h
  · cases h
  · next observations hins =>
    split at h
    · obtain rfl := Option.some.inj h
      exact Table.mem_insert? hins
    · cases h

/-- An insertion that meets neither constraint is accepted. -/
theorem insert?_isSome {t : DriftTables} {o : Observation} (hkey : t.observations.find? o.key = none)
    (hfree : o.accepted = true → t.acceptedOn o.series o.utcDate = none) :
    ∃ t', t.insert? o = some t' := by
  have hsome := Table.insert?_isSome.mpr hkey
  unfold insert?
  split
  · next hins =>
    rw [hins] at hsome
    cases hsome
  · rw [dif_pos hfree]
    exact ⟨_, rfl⟩

/-- The accepted observations of a series, by date and task id. -/
def acceptedRows (t : DriftTables) (series : SeriesKey) : List Observation :=
  (t.observations.rows.filter fun o => decide (o.series = series ∧ o.accepted = true)).insertionSort
    fun a b => a.utcDate < b.utcDate ∨ (a.utcDate = b.utcDate ∧ a.taskId ≤ b.taskId)

end DriftTables

namespace DriftAnalyzer

def observationWindow : ℕ := 14
def calibrationWindow : ℕ := 28
def rollingWindow : ℕ := 28

/-- The arguments of `ingest_outcome`. -/
structure Ingestion where
  taskId         : String
  runnerId       : String
  outcome        : TaskOutcome
  profileId      : String
  profileVersion : Int
  utcDate        : String

namespace Ingestion

def series (i : Ingestion) : SeriesKey := (i.runnerId, i.profileId, i.profileVersion)

/-- `outcome.get("result") or {}`. -/
def result (i : Ingestion) : Fields := i.outcome.result.get.getD []

def score (i : Ingestion) : Json := Json.getD i.result "score"

def provenanceSchemaVersion (i : Ingestion) : Json := Json.getD i.result "provenance_schema_version"

end Ingestion

/-- `_is_finite(score)` and `float(score)`: the double of a finite number. A
`bool` is an `int`, and an `int` beyond the doubles raises in `isfinite`. -/
def finiteScore : Json → Except PyError (Option Rat)
  | .bool b => .ok (some (if b then 1 else 0))
  | .int n => (PyFloat.ofInt n).map fun m => some m
  | .float (.finite q) => .ok (some q)
  | _ => .ok none

/-- An integer that fits the INTEGER type of a column or a parameter. -/
def fitsInteger (n : Int) : Bool := decide (-2 ^ 63 ≤ n ∧ n < 2 ^ 63)

/-- A value that can be bound to a parameter of a statement. -/
def bindable : Json → Bool
  | .int n => fitsInteger n
  | .arr _ | .obj _ => false
  | _ => true

/-- Raised by a parameter that cannot be bound. -/
def bindingError : PyError := .overflowError "Python int too large to convert to SQLite INTEGER"

/-- Raised by a constraint of a table. -/
def constraintError : PyError := .runtimeError "constraint failed"

/-- The row of a rejected observation. -/
def rejectedObservation (now : Instant) (i : Ingestion) (reason : RejectionReason) : Observation where
  series                  := i.series
  utcDate                 := i.utcDate
  taskId                  := i.taskId
  score                   := none
  completedAt             := utcText now
  phase                   := .observation
  accepted                := false
  rejectionReason         := some reason
  seriesOrdinal           := none
  refMedian               := none
  refMad                  := none
  refSampleCount          := none
  windowStart             := none
  windowEnd               := none
  provenanceSchemaVersion := .null
  createdAt               := now

/-- `_record_rejected_observation`. -/
def recordRejectedObservation (now : Instant) (i : Ingestion) (reason : RejectionReason)
    (t : DriftTables) : Except PyError DriftTables :=
  if !fitsInteger i.profileVersion then .error bindingError
  else if (t.observations.find? (i.series, i.utcDate, i.taskId)).isSome then .ok t
  else
    match t.insert? (rejectedObservation now i reason) with
    | some t => .ok t
    | none => .error constraintError

/-- The mean of the two middle values exceeds the doubles. -/
def medianOverflows (scores : List Rat) : Bool :=
  let s := scores.insertionSort fun a b => a ≤ b
  let mid := (s.length - 1) / 2
  match s[mid]?, s[mid + 1]? with
  | some a, some b => decide ((PyFloat.overflowAt : Rat) ≤ a + b)
  | _, _ => false

/-- `_generate_calibration_report`. An infinite median makes the variability
floor a NaN, which the NOT NULL column refuses. -/
def generateCalibrationReport (series : SeriesKey) (t : DriftTables) : Except PyError DriftTables :=
  if series ∈ t.reports then .ok t
  else
    let rows := (t.acceptedRows series).take calibrationWindow
    if rows.length < calibrationWindow then .ok t
    else if medianOverflows (rows.filterMap Observation.score) then .error constraintError
    else .ok { t with reports := t.reports ++ [series] }

/-- The phase of the observation with this number in its series. -/
def phaseOf (ordinal : ℕ) : Phase :=
  if ordinal ≤ observationWindow then .observation
  else if ordinal < calibrationWindow then .calibrating
  else .ready

/-- `(a + b) / 2.0`; the sum may exceed the doubles. -/
def halfSum (a b : Rat) : PyFloat :=
  match PyFloat.ofRat (a + b) with
  | .finite q => .finite (q / 2)
  | f => f

/-- `_median`: the middle value, or the mean of the two middle values. There is
none of the empty list. -/
def median (values : List Rat) : Option PyFloat :=
  let s := values.insertionSort fun a b => a ≤ b
  let mid := (s.length - 1) / 2
  if s.length % 2 = 1 then s[mid]?.map .finite
  else
    match s[mid]?, s[mid + 1]? with
    | some a, some b => some (halfSum a b)
    | _, _ => none

/-- `_mad`. Every deviation from an infinite median is infinite. -/
def mad (values : List Rat) : Option PyFloat :=
  match median values with
  | some (.finite med) => median (values.map fun v => if v < med then med - v else v - med)
  | some (.inf _) => some (.inf false)
  | m => m

/-- The row of an accepted observation. Without prior observations it has no
reference. -/
def acceptedObservation (now : Instant) (i : Ingestion) (score : Rat) (t : DriftTables) :
    Observation :=
  let prior := (t.acceptedRows i.series).filter fun o => decide (o.utcDate < i.utcDate)
  let recent := prior.drop (prior.length - rollingWindow)
  let ordinal := (t.acceptedRows i.series).length + 1
  { series := i.series, utcDate := i.utcDate, taskId := i.taskId, score := some score,
    completedAt := i.outcome.completedAt, phase := phaseOf ordinal, accepted := true,
    rejectionReason := none, seriesOrdinal := some ordinal,
    refMedian := median (recent.filterMap Observation.score),
    refMad := mad (recent.filterMap Observation.score), refSampleCount := some prior.length,
    windowStart := recent.head?.map Observation.utcDate,
    windowEnd := recent.getLast?.map Observation.utcDate,
    provenanceSchemaVersion := i.provenanceSchemaVersion, createdAt := now }

/-- The transaction of an accepted observation. -/
def acceptObservation (now : Instant) (i : Ingestion) (score : Rat) (t : DriftTables) :
    Except PyError DriftTables :=
  if !fitsInteger i.profileVersion then .error bindingError
  else if (t.observations.find? (i.series, i.utcDate, i.taskId)).isSome then .ok t
  else if (t.acceptedOn i.series i.utcDate).isSome then .ok t
  else if !bindable i.provenanceSchemaVersion then .error bindingError
  else
    let accepted := acceptedObservation now i score t
    match t.insert? accepted with
    | none => .error constraintError
    | some t =>
      if accepted.seriesOrdinal = some calibrationWindow ∧ accepted.phase = .ready then
        generateCalibrationReport i.series t
      else .ok t

def ingestOutcome (now : Instant) (i : Ingestion) (t : DriftTables) : Except PyError DriftTables :=
  if i.profileId = "" ∨ i.utcDate = "" then .ok t
  else do
    match ← finiteScore i.score with
    | none => recordRejectedObservation now i (.nonFinite i.score) t
    | some score =>
      if score ≤ 0 then recordRejectedObservation now i (.nonPositive i.score) t
      else acceptObservation now i score t

/-! ## What an ingestion adds -/

variable {now : Instant} {i : Ingestion} {t t' : DriftTables}

/-- An observation of the task that is ingested. -/
def IsOf (i : Ingestion) (o : Observation) : Prop :=
  o.series = i.series ∧ o.utcDate = i.utcDate ∧ o.taskId = i.taskId

/-- The day is settled: the task has its observation, or the day has its
accepted one. -/
def Observed (i : Ingestion) (t : DriftTables) : Prop :=
  ∃ o ∈ t.observations, o.series = i.series ∧ o.utcDate = i.utcDate ∧
    (o.taskId = i.taskId ∨ o.accepted = true)

/-- What a transaction of an ingestion does to the observations. -/
structure Adds (i : Ingestion) (t t' : DriftTables) : Prop where
  kept     : ∀ o ∈ t.observations, o ∈ t'.observations
  own      : ∀ o ∈ t'.observations, o ∈ t.observations ∨ IsOf i o
  observed : Observed i t'

/-- A row that is there already. -/
theorem Adds.of_observed (h : Observed i t) : Adds i t t :=
  ⟨fun _ ho => ho, fun _ ho => .inl ho, h⟩

/-- A row that is inserted. -/
theorem Adds.of_insert {o : Observation} (h : t.insert? o = some t') (ho : IsOf i o) :
    Adds i t t' := by
  refine ⟨fun o' ho' => (DriftTables.mem_insert? h).mpr (.inl ho'), fun o' ho' => ?_, ?_⟩
  · rcases (DriftTables.mem_insert? h).mp ho' with hold | rfl
    · exact .inl hold
    · exact .inr ho
  · exact ⟨o, (DriftTables.mem_insert? h).mpr (.inr rfl), ho.1, ho.2.1, .inl ho.2.2⟩

/-- The row under the ingestion's key settles its day. -/
theorem observed_of_find (h : (t.observations.find? (i.series, i.utcDate, i.taskId)).isSome = true) :
    Observed i t := by
  obtain ⟨o, ho⟩ := Option.isSome_iff_exists.mp h
  obtain ⟨hmem, hkey⟩ := Table.find?_eq_some_iff.mp ho
  simp only [Observation.key, Prod.mk.injEq] at hkey
  exact ⟨o, hmem, hkey.1, hkey.2.1, .inl hkey.2.2⟩

theorem recordRejectedObservation_adds {reason : RejectionReason}
    (h : recordRejectedObservation now i reason t = .ok t') : Adds i t t' := by
  unfold recordRejectedObservation at h
  split at h
  · cases h
  · split at h
    · next hfound =>
      obtain rfl := Except.ok.inj h
      exact .of_observed (observed_of_find hfound)
    · split at h
      · next hins =>
        obtain rfl := Except.ok.inj h
        exact .of_insert hins ⟨rfl, rfl, rfl⟩
      · cases h

/-- A report leaves the observations alone. -/
theorem generateCalibrationReport_observations {series : SeriesKey}
    (h : generateCalibrationReport series t = .ok t') : t'.observations = t.observations := by
  unfold generateCalibrationReport at h
  split at h
  · obtain rfl := Except.ok.inj h
    rfl
  · dsimp only at h
    split at h
    · obtain rfl := Except.ok.inj h
      rfl
    · split at h
      · cases h
      · obtain rfl := Except.ok.inj h
        rfl

theorem acceptObservation_adds {score : Rat} (h : acceptObservation now i score t = .ok t') :
    Adds i t t' := by
  unfold acceptObservation at h
  split at h
  · cases h
  split at h
  · next hfound =>
    obtain rfl := Except.ok.inj h
    exact .of_observed (observed_of_find hfound)
  split at h
  · next htaken =>
    obtain rfl := Except.ok.inj h
    obtain ⟨o, ho⟩ := Option.isSome_iff_exists.mp htaken
    obtain ⟨hmem, hseries, hdate, haccepted⟩ := DriftTables.acceptedOn_mem ho
    exact .of_observed ⟨o, hmem, hseries, hdate, .inr haccepted⟩
  split at h
  · cases h
  dsimp only at h
  split at h
  · cases h
  · next t₁ hins =>
    have hadds : Adds i t t₁ := .of_insert hins ⟨rfl, rfl, rfl⟩
    split at h
    · have hsame := generateCalibrationReport_observations h
      refine ⟨fun o ho => ?_, fun o ho => hadds.own o (hsame ▸ ho), ?_⟩
      · rw [hsame]
        exact hadds.kept o ho
      · obtain ⟨o, ho, hobserved⟩ := hadds.observed
        exact ⟨o, hsame ▸ ho, hobserved⟩
    · obtain rfl := Except.ok.inj h
      exact hadds

/-- An ingestion that does not raise: nothing for an unnamed series or day, and
otherwise one of the two transactions. -/
theorem ingestOutcome_adds (h : ingestOutcome now i t = .ok t') :
    ((i.profileId = "" ∨ i.utcDate = "") ∧ t' = t) ∨ Adds i t t' := by
  unfold ingestOutcome at h
  split at h
  · next hempty => exact .inl ⟨hempty, (Except.ok.inj h).symm⟩
  · obtain ⟨score, -, h⟩ := except_bind_ok.mp h
    split at h
    · exact .inr (recordRejectedObservation_adds h)
    · split at h
      · exact .inr (recordRejectedObservation_adds h)
      · exact .inr (acceptObservation_adds h)

/-- Observations are never removed. -/
theorem ingestOutcome_kept (h : ingestOutcome now i t = .ok t') {o : Observation}
    (ho : o ∈ t.observations) : o ∈ t'.observations := by
  rcases ingestOutcome_adds h with ⟨-, rfl⟩ | hadds
  · exact ho
  · exact hadds.kept o ho

/-- **What an ingestion adds is of its task.** -/
theorem ingestOutcome_mem (h : ingestOutcome now i t = .ok t') {o : Observation}
    (ho : o ∈ t'.observations) : o ∈ t.observations ∨ IsOf i o := by
  rcases ingestOutcome_adds h with ⟨-, rfl⟩ | hadds
  · exact .inl ho
  · exact hadds.own o ho

/-- **An ingestion that does not raise settles the day.** -/
theorem ingestOutcome_observed (h : ingestOutcome now i t = .ok t') (hprofile : i.profileId ≠ "")
    (hdate : i.utcDate ≠ "") : Observed i t' := by
  rcases ingestOutcome_adds h with ⟨hempty, -⟩ | hadds
  · exact absurd hempty (not_or.mpr ⟨hprofile, hdate⟩)
  · exact hadds.observed

/-! ## When an ingestion raises nothing -/

/-- The arguments and tables on which an ingestion raises nothing. -/
structure Ingestible (i : Ingestion) (t : DriftTables) : Prop where
  /-- The version can be bound to a parameter. -/
  version    : fitsInteger i.profileVersion = true
  /-- An integer score is a double. -/
  score      : ∀ n, i.score = .int n → n.natAbs < PyFloat.overflowAt
  /-- The provenance's version can be bound to a parameter. -/
  provenance : bindable i.provenanceSchemaVersion = true
  /-- The accepted observation that completes a calibration window has no
  infinite median. -/
  calibrates : ∀ now score t', finiteScore i.score = .ok (some score) →
    t.insert? (acceptedObservation now i score t) = some t' →
    (t.acceptedRows i.series).length + 1 = calibrationWindow →
    medianOverflows (((t'.acceptedRows i.series).take calibrationWindow).filterMap
      Observation.score) = false

theorem finiteScore_ok {score : Json} (h : ∀ n, score = .int n → n.natAbs < PyFloat.overflowAt) :
    ∃ value, finiteScore score = .ok value := by
  cases score with
  | int n =>
    have hsmall : ¬ PyFloat.overflowAt ≤ n.natAbs := Nat.not_le.mpr (h n rfl)
    rw [finiteScore, PyFloat.ofInt, if_neg hsmall]
    exact ⟨_, rfl⟩
  | float f => cases f <;> exact ⟨_, rfl⟩
  | _ => exact ⟨_, rfl⟩

theorem recordRejectedObservation_ok (hversion : fitsInteger i.profileVersion = true)
    (reason : RejectionReason) : ∃ t', recordRejectedObservation now i reason t = .ok t' := by
  unfold recordRejectedObservation
  rw [hversion]
  split
  · next hraises => cases hraises
  · split
    · exact ⟨t, rfl⟩
    · next hfree =>
      split
      · exact ⟨_, rfl⟩
      · next hrefused =>
        have hnone : t.observations.find? (i.series, i.utcDate, i.taskId) = none := by
          simpa using hfree
        have hrejected : (rejectedObservation now i reason).accepted ≠ true := Bool.false_ne_true
        obtain ⟨t', hins⟩ := DriftTables.insert?_isSome (o := rejectedObservation now i reason)
          hnone fun haccepted => absurd haccepted hrejected
        rw [hins] at hrefused
        cases hrefused

theorem acceptObservation_ok (h : Ingestible i t) {score : Rat}
    (hscore : finiteScore i.score = .ok (some score)) :
    ∃ t', acceptObservation now i score t = .ok t' := by
  unfold acceptObservation
  rw [h.version, h.provenance]
  split
  · next hraises => cases hraises
  split
  · exact ⟨t, rfl⟩
  next hfree =>
  split
  · exact ⟨t, rfl⟩
  next hday =>
  dsimp only
  split
  · next hrefused =>
    -- both constraints were looked up in this transaction
    have hnone : t.observations.find? (i.series, i.utcDate, i.taskId) = none := by
      simpa using hfree
    have hfreeDay : t.acceptedOn i.series i.utcDate = none := by simpa using hday
    obtain ⟨t', hins⟩ := DriftTables.insert?_isSome (o := acceptedObservation now i score t) hnone
      fun _ => hfreeDay
    rw [hins] at hrefused
    cases hrefused
  · next t₁ hins =>
    split
    · next hlast =>
      have hcount : (t.acceptedRows i.series).length + 1 = calibrationWindow := by
        simpa [acceptedObservation] using hlast.1
      unfold generateCalibrationReport
      split
      · exact ⟨_, rfl⟩
      · dsimp only
        split
        · exact ⟨_, rfl⟩
        · rw [h.calibrates now score t₁ hscore hins hcount]
          exact ⟨_, rfl⟩
    · exact ⟨_, rfl⟩

/-- **An ingestible outcome is ingested without an exception.** -/
theorem ingestOutcome_ok (h : Ingestible i t) : ∃ t', ingestOutcome now i t = .ok t' := by
  unfold ingestOutcome
  split
  · exact ⟨t, rfl⟩
  · obtain ⟨value, hvalue⟩ := finiteScore_ok h.score
    rw [hvalue]
    cases value with
    | none => exact recordRejectedObservation_ok h.version _
    | some score =>
      by_cases hpositive : score ≤ 0
      · obtain ⟨t', ht'⟩ : ∃ t', recordRejectedObservation now i (.nonPositive i.score) t = .ok t' :=
          recordRejectedObservation_ok h.version _
        exact ⟨t', by rw [← ht']; simp [bind, Except.bind, hpositive]⟩
      · obtain ⟨t', ht'⟩ : ∃ t', acceptObservation now i score t = .ok t' :=
          acceptObservation_ok h hvalue
        exact ⟨t', by rw [← ht']; simp [bind, Except.bind, hpositive]⟩

end DriftAnalyzer

end Conductress
