import Conductress.Bench.RateSearch
import Conductress.Bench.ReplicationLag
import Conductress.Lib.Except

/-!
# The highest read rate

`_probe_verdict` and `_search`. A probe is judged by its reader, and by the lag of the
replica over its scored window where there is a lag to judge: a window with less than two
samples of both offsets is left to the reader alone, and one in which the replica was
never behind passes whether or not the stream has advanced.

* `probeVerdict_cases` — what a verdict stands on;
* `turn_searched` — what a probe keeps; `knee_evidence` — what a search reports.
-/

namespace Conductress.ReadRate

open Lib

/-! ## A measurement -/

structure HitRate where
  percent : Option ℚ
  hits    : Option ℚ
  misses  : Option ℚ

structure Reader where
  throughputRps : ℚ
  hitRate       : Option HitRate

/-- `_Measurement`, with the rate of the writer. -/
structure Measurement where
  reader        : Reader
  writerRps     : ℚ
  samples       : List OffsetSample
  readerStarted : ℚ

/-- What `_search` reads of a task, which `__post_init__` has let through, and the ports of
its topology. -/
structure ReplicaReadTask where
  writeRate      : ℤ
  warmup         : ℤ
  maxLagSeconds  : ℚ
  maxLagSlope    : ℚ
  rateSearch     : RateSearch
  primaryPort    : ℕ
  replicaPort    : ℕ
  maxLagSeconds_pos : 0 < maxLagSeconds
  maxLagSlope_pos   : 0 < maxLagSlope

/-- `READ_RATE_MIN_DELIVERY`. -/
def readRateMinDelivery : ℚ := 97 / 100

/-- `READER_MIN_HIT_RATE_PCT`. -/
def readerMinHitRatePct : ℚ := 99

/-- `WRITE_RATE_TOLERANCE`. -/
def writeRateTolerance : ℚ := 1 / 10

/-- What a search ends with when it does not return. -/
inductive SearchError where
  | raised (e : PyError)
  | assertionError
  | stopIteration

section

variable (floatRepr : ℚ → String) (task : ReplicaReadTask)

def Measurement.windowStart (m : Measurement) : ℚ := m.readerStarted + task.warmup

/-- The samples of the scored window. -/
def Measurement.scored (m : Measurement) : List OffsetSample :=
  m.samples.filter fun s => decide (m.windowStart task ≤ s.t.getD 0)

/-- Those of them with both offsets. -/
def Measurement.window (m : Measurement) : List OffsetPair :=
  (m.scored task).filterMap (OffsetSample.pair task.primaryPort task.replicaPort)

/-- `_lag`: over all samples, and over the scored window. -/
def lagOf (m : Measurement) : Option LagStats × Option LagStats :=
  (replicationLagStats m.samples task.primaryPort task.replicaPort,
    replicationLagStats (m.scored task) task.primaryPort task.replicaPort)

/-! ## Guards and verdict -/

/-- A value of a dictionary, as an f-string shows it. -/
def optionRepr : Option ℚ → String
  | none => "None"
  | some x => floatRepr x

/-- `_check_cell_guards`. -/
def checkCellGuards (reader : Reader) (writerRps : ℚ) : Except SearchError Unit :=
  let hitRate := reader.hitRate.getD ⟨none, none, none⟩
  let hit := hitRate.percent.getD 0
  if hit < readerMinHitRatePct then
    .error (.raised <| .runtimeError (s!"reader hit rate {floatRepr hit}% < {floatRepr readerMinHitRatePct}% " ++
      s!"({optionRepr floatRepr hitRate.hits} hits, {optionRepr floatRepr hitRate.misses} misses): " ++
      "replica dataset incomplete"))
  else if writerRps < task.writeRate * (1 - writeRateTolerance) then
    .error (.raised <| .runtimeError (s!"writer achieved {fixed 0 writerRps}/s, below " ++
      s!"{percent 0 (1 - writeRateTolerance)} of target {task.writeRate}/s: " ++
      "primary or writer could not sustain the rate"))
  else .ok ()

/-- A reason names the limit that was hit, and what shows it. -/
def reasonOf (limit detail : String) : String := limit ++ ": " ++ detail

/-- The bytes behind a verdict on the lag. -/
def evidence (lag : LagStats) : String :=
  s!"mean {commaFixed 0 lag.meanBytes} bytes, max {commaInt lag.maxBytes} bytes, " ++
    s!"stream {commaFixed 0 (lag.streamBytesPerSecond.getD 0)} bytes/s"

/-- The part of `_probe_verdict` that judges the lag. -/
def lagVerdict (lag : LagStats) : Bool × String :=
  match lag.meanSeconds, lag.endSeconds with
  | some meanSeconds, some endSeconds =>
    -- the trend comes before the level: a replica that loses ground is late in the end
    match lag.slopeSecondsPerSecond.filter fun slope => decide (task.maxLagSlope < slope) with
    | some slope =>
      (false, reasonOf "lag" (s!"growing {fixed 3 slope} s of stream per second > max_lag_slope " ++
        s!"{floatRepr task.maxLagSlope} (replica not applying {percent 1 slope} of the writes; " ++
        s!"{evidence lag})"))
    | none =>
      if task.maxLagSeconds < endSeconds then
        (false, reasonOf "lag" (s!"{fixed 2 endSeconds} s of stream at the end of the window > " ++
          s!"max_lag_seconds {floatRepr task.maxLagSeconds} (window mean {fixed 2 meanSeconds} s; " ++
          s!"{evidence lag})"))
      else (true, "")
  | _, _ =>
    (false, reasonOf "lag" s!"replica behind a stream that did not advance ({evidence lag})")

/-- `_probe_verdict`. -/
def probeVerdict (readRate : ℤ) (reader : Reader) (lag : Option LagStats) : Bool × String :=
  let achieved := reader.throughputRps
  -- a reader that did not offer the rate says nothing about the replica
  if achieved < readRate * readRateMinDelivery then
    (false, reasonOf "reader" (s!"delivered {commaFixed 0 achieved}/s of {commaInt readRate}/s target " ++
      s!"({percent 1 (achieved / readRate)} < {percent 0 readRateMinDelivery})"))
  else
    match lag with
    | none => (true, "")
    | some lag =>
      -- a window that is too short, or in which the replica was never behind, passes
      if 2 ≤ lag.samples ∧ 0 < lag.meanBytes then lagVerdict floatRepr task lag else (true, "")

/-! ## The search -/

/-- `_entry` of a probe. -/
structure ProbeEntry where
  readerRps     : ℚ
  readerHitRate : Option HitRate
  writerRps     : ℚ
  lag           : Option LagStats
  scored        : Option LagStats
  probe         : ℕ
  targetRps     : ℤ
  passed        : Bool
  reason        : String

def entryOf (m : Measurement) (number : ℕ) (rate : ℤ) (verdict : Bool × String) : ProbeEntry where
  readerRps := m.reader.throughputRps
  readerHitRate := m.reader.hitRate
  writerRps := m.writerRps
  lag := (lagOf task m).1
  scored := (lagOf task m).2
  probe := number
  targetRps := rate
  passed := verdict.1
  reason := verdict.2

/-- The search between two probes. -/
structure SearchRun where
  state  : SearchState
  step   : Move
  probes : List ProbeEntry

def SearchRun.first : SearchRun := ⟨task.rateSearch.start, task.rateSearch.first, []⟩

/-- One turn of the loop. Catching up and measuring may raise. -/
def turn (s : SearchRun) (measured : Except SearchError Measurement) :
    Except SearchError SearchRun :=
  match s.step with
  -- the loop is over, and measures nothing more
  | .done _ _ => .ok s
  | .probe rate => do
    let m ← measured
    checkCellGuards floatRepr task m.reader m.writerRps
    let verdict := probeVerdict floatRepr task rate m.reader (lagOf task m).2
    let probes := s.probes ++ [entryOf task m (s.probes.length + 1) rate verdict]
    match task.rateSearch.advance s.state verdict.1 with
    | none => .error .assertionError
    | some (state, step) => .ok ⟨state, step, probes⟩

/-- The loop over the measurements, in their order. -/
def probing (measurements : List (Except SearchError Measurement)) : Except SearchError SearchRun :=
  measurements.foldlM (turn floatRepr task) (.first task)

/-- `reason.split(":", 1)[0]`. -/
def beforeColon (reason : String) : String :=
  String.ofList (reason.toList.takeWhile fun c => c != ':')

/-- The entry of the knee, and the `search` record in it. -/
structure Report where
  entry          : ProbeEntry
  kneeTargetRps  : ℤ
  kneeRps        : ℚ
  hiTargetRps    : Option ℤ
  hiReason       : String
  boundedBy      : String
  ceilingReached : Bool
  probes         : List ProbeEntry

/-- `min(probes, key=lambda p: p["target_rps"])`, the first of several. -/
def lowestProbe : List ProbeEntry → Option ProbeEntry
  | [] => none
  | p :: probes =>
    match lowestProbe probes with
    | none => some p
    | some lowest => some (if lowest.targetRps < p.targetRps then lowest else p)

/-- What `_search` makes of a finished search. -/
def report (knee hi : Option ℤ) (probes : List ProbeEntry) :
    Except SearchError Report :=
  match knee with
  | none =>
    match lowestProbe probes with
    | none => .error (.raised <| .valueError "min() arg is an empty sequence")
    | some lowest =>
      .error (.raised <| .runtimeError (s!"no read rate passed: {lowest.targetRps}/s failed ({lowest.reason}); " ++
        "lower --read-rate-start or raise the lag limits"))
  | some knee =>
    match probes.find? fun p => decide (p.targetRps = knee) && p.passed with
    -- `next` without a default
    | none => .error .stopIteration
    | some entry =>
      let lowest := probes.find? fun p => decide (some p.targetRps = hi)
      .ok {
        entry          := entry
        kneeTargetRps  := knee
        kneeRps        := entry.readerRps
        hiTargetRps    := hi
        hiReason       := (lowest.map ProbeEntry.reason).getD ""
        boundedBy      := (lowest.map fun p => beforeColon p.reason).getD "ceiling"
        ceilingReached := hi.isNone
        probes         := probes }

/-- `_search`; `none` while it waits for a measurement. -/
def search (measurements : List (Except SearchError Measurement)) :
    Except SearchError (Option Report) := do
  let run ← probing floatRepr task measurements
  match run.step with
  | .probe _ => return none
  | .done knee hi => return some (← report knee hi run.probes)

/-! ## Evidence -/

/-- The reader offered the rate. -/
def Delivered (rate : ℤ) (m : Measurement) : Prop :=
  rate * readRateMinDelivery ≤ m.reader.throughputRps

/-- The scored window has two samples of both offsets. -/
def Sampled (m : Measurement) : Prop := 2 ≤ (m.window task).length

/-- The trend and the closing level of the lag are within the limits. -/
def KeptUp (m : Measurement) : Prop :=
  (∃ slope ∈ lagSlope (m.window task), slope ≤ task.maxLagSlope) ∧
    ∃ closing ∈ closingLag (m.window task), closing ≤ task.maxLagSeconds

/-- The replica was never behind, and the stream did not advance. -/
def Idle (m : Measurement) : Prop :=
  (∀ lag ∈ lags (m.window task), lag = 0) ∧ ¬ Advances (m.window task)

/-- The replica was behind a stream that did not advance, or over a limit. -/
def FellBehind (m : Measurement) : Prop :=
  (∃ lag ∈ lags (m.window task), lag ≠ 0) ∧
    (¬ Advances (m.window task) ∨
      (∃ slope ∈ lagSlope (m.window task), task.maxLagSlope < slope) ∨
      ∃ closing ∈ closingLag (m.window task), task.maxLagSeconds < closing)

end

variable {floatRepr : ℚ → String} {task : ReplicaReadTask} {m : Measurement} {rate : ℤ}

/-- A limit is what its reasons begin with. -/
theorem beforeColon_reasonOf {limit : String} (h : ':' ∉ limit.toList) (detail : String) :
    beforeColon (reasonOf limit detail) = limit := by
  have hbefore : limit.toList.takeWhile (fun c => c != ':') = limit.toList := by
    refine List.takeWhile_eq_self_iff.mpr fun c hc => ?_
    simp only [bne_iff_ne]
    rintro rfl
    exact h hc
  have hcolon : (": " ++ detail).toList.takeWhile (fun c => c != ':') = [] := by
    rw [String.toList_append]
    rfl
  unfold beforeColon reasonOf
  rw [String.append_assoc, String.toList_append, List.takeWhile_append, hbefore, if_pos rfl, hcolon,
    List.append_nil, String.ofList_toList]

/-- The lag of a window is judged by its trend and its closing level. -/
theorem lagVerdict_cases (floatRepr : ℚ → String) (task : ReplicaReadTask) (m : Measurement) :
    (KeptUp task m ∧ lagVerdict floatRepr task (.ofPairs (m.window task)) = (true, "")) ∨
    ((¬ Advances (m.window task) ∨
        (∃ slope ∈ lagSlope (m.window task), task.maxLagSlope < slope) ∨
        ∃ closing ∈ closingLag (m.window task), task.maxLagSeconds < closing) ∧
      ∃ detail, lagVerdict floatRepr task (.ofPairs (m.window task)) =
        (false, reasonOf "lag" detail)) := by
  by_cases hadvances : Advances (m.window task)
  · have hmeasured : (inSeconds (m.window task) (meanBytes (m.window task))).isSome :=
      inSeconds_isSome.mpr hadvances
    obtain ⟨mean, hmean⟩ := Option.isSome_iff_exists.mp hmeasured
    obtain ⟨closing, hclosing⟩ := Option.isSome_iff_exists.mp (inSeconds_isSome.mpr hadvances)
    obtain ⟨slope, hslope⟩ := Option.isSome_iff_exists.mp (lagSlope_isSome.mpr hadvances)
    change closingLag _ = some closing at hclosing
    by_cases hgrowing : task.maxLagSlope < slope
    · refine .inr ⟨.inr (.inl ⟨slope, hslope, hgrowing⟩), ?_⟩
      simp only [lagVerdict, LagStats.ofPairs, hmean, hclosing, hslope, Option.filter_some,
        decide_eq_true hgrowing, if_true]
      exact ⟨_, rfl⟩
    -- the trend is within its limit, so that the closing level decides
    have hwithin : decide (task.maxLagSlope < slope) = false := decide_eq_false hgrowing
    by_cases hlate : task.maxLagSeconds < closing
    · refine .inr ⟨.inr (.inr ⟨closing, hclosing, hlate⟩), ?_⟩
      simp only [lagVerdict, LagStats.ofPairs, hmean, hclosing, hslope, Option.filter_some, hwithin,
        Bool.false_eq_true, if_false, if_pos hlate]
      exact ⟨_, rfl⟩
    · refine .inl ⟨⟨⟨slope, hslope, not_lt.mp hgrowing⟩, closing, hclosing, not_lt.mp hlate⟩, ?_⟩
      simp only [lagVerdict, LagStats.ofPairs, hmean, hclosing, hslope, Option.filter_some, hwithin,
        Bool.false_eq_true, if_false, if_neg hlate]
  -- a stream that did not advance has no seconds to measure the lag in
  · have hnone : inSeconds (m.window task) (meanBytes (m.window task)) = none := by
      rw [← Option.not_isSome_iff_eq_none, inSeconds_isSome]
      exact hadvances
    unfold lagVerdict LagStats.ofPairs
    simp only [hnone]
    exact .inr ⟨.inl hadvances, _, rfl⟩

/-- **A replica that was never behind** has kept up, if the stream has advanced. -/
theorem keptUp_of_level (hlevel : ∀ lag ∈ lags (m.window task), lag = 0)
    (hadvances : Advances (m.window task)) : KeptUp task m := by
  obtain ⟨rate, hrate, hpos⟩ := hadvances
  have hseconds (bytes : ℚ) : inSeconds (m.window task) bytes = some (bytes / rate) := by
    rw [inSeconds, Option.mem_def.mp hrate]
    exact if_pos hpos
  have hclosing : closingLag (m.window task) = some 0 := by
    have hzero : (endLags (m.window task)).sum = 0 :=
      List.sum_eq_zero fun lag hlag => hlevel lag (List.mem_of_mem_drop hlag)
    rw [closingLag, hseconds, endBytes, hzero, Int.cast_zero, zero_div, zero_div]
  obtain ⟨slope, hslope⟩ := Option.isSome_iff_exists.mp
    (lagSlope_isSome.mpr ⟨rate, hrate, hpos⟩)
  refine ⟨⟨slope, hslope, ?_⟩, 0, hclosing, task.maxLagSeconds_pos.le⟩
  obtain ⟨bytes, hbytes, heq⟩ := Option.bind_eq_some_iff.mp hslope
  -- a lag of zero at every instant has no trend
  have hflat : bytes = 0 := by
    refine leastSquaresSlope_zero ?_ bytes hbytes
    intro p hp
    obtain ⟨o, ho, hpoint⟩ := List.mem_filterMap.mp hp
    obtain ⟨t, -, rfl⟩ := Option.map_eq_some_iff.mp hpoint
    show ((o.lag : ℤ) : ℚ) = 0
    rw [hlevel o.lag (List.mem_map_of_mem ho), Int.cast_zero]
  rw [hseconds, hflat, zero_div] at heq
  rw [← Option.some.inj heq]
  exact task.maxLagSlope_pos.le

/-- What the scored window makes of the statistics that are judged. -/
theorem lagOf_scored (task : ReplicaReadTask) (m : Measurement) :
    (lagOf task m).2 =
      if m.window task = [] then none else some (.ofPairs (m.window task)) := by
  have hnil : lags (m.window task) = [] ↔ m.window task = [] := List.map_eq_nil_iff
  simp only [lagOf, replicationLagStats, ← hnil]
  rfl

/-- **A verdict**: the reader comes first, then a lag that there is to judge. -/
theorem probeVerdict_cases (floatRepr : ℚ → String) (task : ReplicaReadTask) (rate : ℤ)
    (m : Measurement) :
    (Delivered rate m ∧ (¬ Sampled task m ∨ Idle task m ∨ KeptUp task m) ∧
      probeVerdict floatRepr task rate m.reader (lagOf task m).2 = (true, "")) ∨
    (¬ Delivered rate m ∧ ∃ detail,
      probeVerdict floatRepr task rate m.reader (lagOf task m).2 = (false, reasonOf "reader" detail)) ∨
    (Delivered rate m ∧ Sampled task m ∧ FellBehind task m ∧ ∃ detail,
      probeVerdict floatRepr task rate m.reader (lagOf task m).2 = (false, reasonOf "lag" detail)) := by
  have hlen : (LagStats.ofPairs (m.window task)).samples = (m.window task).length :=
    List.length_map _
  unfold probeVerdict
  by_cases hreader : Delivered rate m
  · rw [if_neg (not_lt.mpr hreader), lagOf_scored]
    by_cases hnil : m.window task = []
    · refine .inl ⟨hreader, .inl ?_, by rw [if_pos hnil]⟩
      simp [Sampled, hnil]
    rw [if_neg hnil]
    -- the lag is judged if there are samples enough and the replica was behind in one
    by_cases hjudged : Sampled task m ∧ ∃ lag ∈ lags (m.window task), lag ≠ 0
    · have hif : 2 ≤ (LagStats.ofPairs (m.window task)).samples ∧
          0 < (LagStats.ofPairs (m.window task)).meanBytes :=
        ⟨hlen.symm ▸ hjudged.1, meanBytes_pos.mpr hjudged.2⟩
      simp only [if_pos hif]
      rcases lagVerdict_cases floatRepr task m with ⟨hkept, heq⟩ | ⟨hbehind, detail, heq⟩
      · exact .inl ⟨hreader, .inr (.inr hkept), heq⟩
      · exact .inr (.inr ⟨hreader, hjudged.1, ⟨hjudged.2, hbehind⟩, detail, heq⟩)
    · have hif : ¬ (2 ≤ (LagStats.ofPairs (m.window task)).samples ∧
          0 < (LagStats.ofPairs (m.window task)).meanBytes) := by
        rintro ⟨hsamples, hmean⟩
        rw [hlen] at hsamples
        exact hjudged ⟨hsamples, meanBytes_pos.mp hmean⟩
      simp only [if_neg hif]
      refine .inl ⟨hreader, ?_, trivial⟩
      by_cases hsampled : Sampled task m
      · have hlevel : ∀ lag ∈ lags (m.window task), lag = 0 := by
          intro lag hlag
          by_contra hne
          exact hjudged ⟨hsampled, lag, hlag, hne⟩
        by_cases hadvances : Advances (m.window task)
        · exact .inr (.inr (keptUp_of_level hlevel hadvances))
        · exact .inr (.inl ⟨hlevel, hadvances⟩)
      · exact .inl hsampled
  · rw [if_pos (not_le.mp hreader)]
    exact .inr (.inl ⟨hreader, _, rfl⟩)

/-! ## A search -/

variable {pre ms : List (Except SearchError Measurement)} {s t : SearchRun} {p : ProbeEntry}

/-- The rates of some probes, with their answers. -/
def answers (probes : List ProbeEntry) : RateSearch.Measured :=
  probes.map fun p => (p.targetRps, p.passed)

/-- The entry is what the verdict made of a measurement. -/
def Judged (floatRepr : ℚ → String) (task : ReplicaReadTask) (m : Measurement) (p : ProbeEntry) :
    Prop :=
  (p.passed, p.reason) = probeVerdict floatRepr task p.targetRps m.reader (lagOf task m).2

/-- The loop has made a probe of every measurement up to here, or is over. -/
structure Searched (floatRepr : ℚ → String) (task : ReplicaReadTask)
    (pre : List (Except SearchError Measurement)) (s : SearchRun) : Prop where
  sound   : task.rateSearch.Sound ⟨s.state, s.step, answers s.probes⟩
  judged  : ∀ (n : ℕ) p, s.probes[n]? = some p → ∃ m, pre[n]? = some (.ok m) ∧ Judged floatRepr task m p
  waiting : ∀ rate, s.step = .probe rate → s.probes.length = pre.length

theorem searched_first : Searched floatRepr task [] (.first task) where
  sound := task.rateSearch.sound_first
  judged := by
    intro n p h
    cases h
  waiting := fun _ _ => rfl

/-- **A turn** adds the probe of its measurement. -/
theorem turn_searched {measured : Except SearchError Measurement} (h : Searched floatRepr task pre s)
    (hturn : turn floatRepr task s measured = .ok t) :
    Searched floatRepr task (pre ++ [measured]) t := by
  obtain ⟨state, step, probes⟩ := s
  cases step with
  | done knee hi =>
    cases hturn
    refine ⟨h.sound, fun n p hp => ?_, fun rate hstep => by cases hstep⟩
    obtain ⟨m, hm, hjudged⟩ := h.judged n p hp
    refine ⟨m, ?_, hjudged⟩
    rw [List.getElem?_append_left (List.getElem?_eq_some_iff.mp hm).1, hm]
  | probe rate =>
    -- every measurement so far has made a probe
    have hlen : probes.length = pre.length := h.waiting rate rfl
    obtain ⟨m, rfl, hguarded⟩ := except_bind_ok.mp hturn
    obtain ⟨-, -, hanswered⟩ := except_bind_ok.mp hguarded
    -- the rate search takes the answer, whatever it is
    obtain ⟨session, hmeasure, hsound⟩ := RateSearch.measure_sound h.sound
      (probeVerdict floatRepr task rate m.reader (lagOf task m).2).1
    obtain ⟨⟨state', step'⟩, hadvance, rfl⟩ := Option.map_eq_some_iff.mp hmeasure
    replace hadvance : task.rateSearch.advance state
        (probeVerdict floatRepr task rate m.reader (lagOf task m).2).1 = some (state', step') :=
      hadvance
    simp only [hadvance, Except.ok.injEq] at hanswered
    subst hanswered
    refine ⟨?_, fun n p hp => ?_, fun _ _ => ?_⟩
    · show RateSearch.Sound _ ⟨state', step', answers (probes ++ [_])⟩
      rw [answers, List.map_append]
      exact hsound
    · rcases lt_or_ge n probes.length with hn | hn
      · rw [List.getElem?_append_left hn] at hp
        obtain ⟨m', hm', hjudged⟩ := h.judged n p hp
        exact ⟨m', by rw [List.getElem?_append_left (hlen ▸ hn), hm'], hjudged⟩
      · obtain ⟨hzero, rfl⟩ : n - probes.length = 0 ∧ entryOf task m _ rate _ = p := by
          rw [List.getElem?_append_right hn, List.getElem?_singleton] at hp
          split at hp
          · next hzero => exact ⟨by omega, Option.some.inj hp⟩
          · cases hp
        refine ⟨m, ?_, rfl⟩
        rw [List.getElem?_append_right (by omega), show n - pre.length = 0 by omega]
        rfl
    · show (probes ++ [_]).length = _
      rw [List.length_append, List.length_append, hlen]
      rfl

theorem probing_snoc (measured : Except SearchError Measurement) :
    probing floatRepr task (ms ++ [measured]) =
      probing floatRepr task ms >>= fun s => turn floatRepr task s measured := by
  unfold probing
  rw [List.foldlM_append]
  refine congrArg _ (funext fun s => ?_)
  rw [List.foldlM_cons]
  exact bind_pure _

/-- **The loop**, however many measurements there are. -/
theorem probing_searched (h : probing floatRepr task ms = .ok t) :
    Searched floatRepr task ms t := by
  -- the loop has made its last turn on the last measurement
  induction ms using List.reverseRecOn generalizing t with
  | nil =>
    cases h
    exact searched_first
  | append_singleton ms measured ih =>
    rw [probing_snoc] at h
    obtain ⟨s, hs, hturn⟩ := except_bind_ok.mp h
    exact turn_searched (ih hs) hturn

/-! ## It ends -/

/-- **A search ends** after as many measurements as there are rates and halvings. -/
theorem search_ends (hlen : task.rateSearch.maxRate + task.rateSearch.maxBisectSteps ≤ ms.length) :
    search floatRepr task ms ≠ .ok none := by
  intro h
  obtain ⟨⟨state, step, probes⟩, hrun, h⟩ := except_bind_ok.mp h
  have hsearched := probing_searched hrun
  cases step with
  | done knee hi =>
    obtain ⟨r, -, heq⟩ := except_bind_ok.mp h
    cases heq
  | probe rate =>
    -- a search that still probes has not measured as often as that
    have hshort := RateSearch.measured_length_le hsearched.sound rfl
    have hcount : probes.length = ms.length := hsearched.waiting rate rfl
    rw [show (answers probes).length = ms.length by rw [answers, List.length_map, hcount]] at hshort
    omega

/-! ## What it reports -/

/-- The probe of a rate in a run, with the measurement it was made of. -/
def ProbeOf (ms : List (Except SearchError Measurement)) (r : Report) (rate : ℤ)
    (p : ProbeEntry) (m : Measurement) : Prop :=
  ∃ n : ℕ, r.probes[n]? = some p ∧ ms[n]? = some (.ok m) ∧ p.targetRps = rate

theorem mem_passes_answers {probes : List ProbeEntry} :
    rate ∈ RateSearch.passes (answers probes) ↔
      ∃ p ∈ probes, p.targetRps = rate ∧ p.passed = true := by
  simp only [RateSearch.passes, answers, List.mem_map, List.mem_filter]
  constructor
  · rintro ⟨_, ⟨⟨p, hp, rfl⟩, hpassed⟩, rfl⟩
    exact ⟨p, hp, rfl, hpassed⟩
  · rintro ⟨p, hp, rfl, hpassed⟩
    exact ⟨_, ⟨⟨p, hp, rfl⟩, hpassed⟩, rfl⟩

theorem mem_failures_answers {probes : List ProbeEntry} :
    rate ∈ RateSearch.failures (answers probes) ↔
      ∃ p ∈ probes, p.targetRps = rate ∧ p.passed = false := by
  simp only [RateSearch.failures, answers, List.mem_map, List.mem_filter]
  constructor
  · rintro ⟨_, ⟨⟨p, hp, rfl⟩, hfailed⟩, rfl⟩
    exact ⟨p, hp, rfl, by simpa using hfailed⟩
  · rintro ⟨p, hp, rfl, hfailed⟩
    exact ⟨_, ⟨⟨p, hp, rfl⟩, by simp [hfailed]⟩, rfl⟩

/-- The knee of a search is the rate of a probe that passed. -/
theorem Searched.knee_passed {knee : ℤ} {hi : Option ℤ} (h : Searched floatRepr task ms s)
    (hstep : s.step = .done (some knee) hi) :
    ∃ p ∈ s.probes, p.targetRps = knee ∧ p.passed = true :=
  mem_passes_answers.mp (List.max?_eq_some_iff.mp (h.sound.knee hstep).highest.symm).1

/-- Its bound is the rate of one that failed. -/
theorem Searched.hi_failed {hi : ℤ} {knee : Option ℤ} (h : Searched floatRepr task ms s)
    (hstep : s.step = .done knee (some hi)) :
    ∃ p ∈ s.probes, p.targetRps = hi ∧ p.passed = false :=
  mem_failures_answers.mp (List.min?_eq_some_iff.mp (h.sound.knee hstep).lowest.symm).1

/-- What a report is of. -/
theorem report_cases {knee hi : Option ℤ} {probes : List ProbeEntry} {r : Report}
    (h : report knee hi probes = .ok r) :
    knee = some r.kneeTargetRps ∧ hi = r.hiTargetRps ∧ probes = r.probes ∧
      r.boundedBy = ((probes.find? fun p => decide (some p.targetRps = hi)).map
        fun p => beforeColon p.reason).getD "ceiling" := by
  unfold report at h
  split at h
  · split at h <;> cases h
  · split at h
    · cases h
    · cases h
      exact ⟨rfl, rfl, rfl, rfl⟩

theorem Searched.probeOf {r : Report} (h : Searched floatRepr task ms s) (hprobes : s.probes = r.probes)
    (hp : p ∈ s.probes) :
    ∃ m, ProbeOf ms r p.targetRps p m ∧ Judged floatRepr task m p := by
  obtain ⟨n, hn⟩ := List.mem_iff_getElem?.mp hp
  obtain ⟨m, hm, hjudged⟩ := h.judged n p hn
  exact ⟨m, ⟨n, hprobes ▸ hn, hm, rfl⟩, hjudged⟩

/-- **The evidence of a search**: the knee is the rate of a probe that delivered it and, where its
window has two samples or more, kept up with the stream or never fell behind one that stood; the
bound above it is the rate of a probe that did not, for the reason that is named. -/
theorem knee_evidence {r : Report} (h : search floatRepr task ms = .ok (some r)) :
    (∃ p m, ProbeOf ms r r.kneeTargetRps p m ∧ Delivered r.kneeTargetRps m ∧
      (¬ Sampled task m ∨ Idle task m ∨ KeptUp task m)) ∧
    (r.hiTargetRps = none ∧ r.boundedBy = "ceiling" ∨
      ∃ hi p m, r.hiTargetRps = some hi ∧ ProbeOf ms r hi p m ∧
        (r.boundedBy = "reader" ∧ ¬ Delivered hi m ∨
          r.boundedBy = "lag" ∧ Delivered hi m ∧ Sampled task m ∧ FellBehind task m)) := by
  obtain ⟨⟨state, step, probes⟩, hrun, h⟩ := except_bind_ok.mp h
  have hsearched := probing_searched hrun
  cases step with
  | probe rate => cases h
  | done knee hi =>
    obtain ⟨r', hreport, heq⟩ := except_bind_ok.mp h
    cases heq
    obtain ⟨hknee, hhi, hprobes, hbounded⟩ := report_cases hreport
    constructor
    · obtain ⟨p, hp, hrate, hpassed⟩ := hsearched.knee_passed (congrArg (Move.done · hi) hknee)
      obtain ⟨m, hof, hjudged⟩ := hsearched.probeOf hprobes hp
      rw [hrate] at hof
      refine ⟨p, m, hof, ?_⟩
      -- the entry passed, so that its verdict is the first of the three
      rw [Judged, hrate] at hjudged
      rcases probeVerdict_cases floatRepr task r.kneeTargetRps m with
        ⟨hdelivered, hlag, -⟩ | ⟨-, detail, heq⟩ | ⟨-, -, -, detail, heq⟩
      · exact ⟨hdelivered, hlag⟩
      all_goals
        rw [heq] at hjudged
        rw [(Prod.mk.inj hjudged).1] at hpassed
        cases hpassed
    · cases hhi' : r.hiTargetRps with
      | none =>
        refine .inl ⟨rfl, ?_⟩
        have hnone : probes.find? (fun p => decide (some p.targetRps = hi)) = none := by
          rw [hhi, hhi', List.find?_eq_none]
          intro p _
          simp
        rw [hbounded, hnone]
        rfl
      | some bound =>
        obtain ⟨p, hp, hrate, hfailed⟩ := hsearched.hi_failed
          (congrArg (Move.done knee) (hhi.trans hhi'))
        -- no rate is probed twice, so that the first probe of the bound is the one that failed
        have hnodup : (probes.map ProbeEntry.targetRps).Nodup := by
          have := hsearched.sound.bracketed.nodup
          rwa [answers, List.map_map] at this
        have hfind : probes.find? (fun p => decide (some p.targetRps = hi)) = some p := by
          have hsome : (probes.find? (fun p => decide (some p.targetRps = hi))).isSome := by
            rw [List.find?_isSome]
            exact ⟨p, hp, by simp [hrate, hhi, hhi']⟩
          obtain ⟨q, hq⟩ := Option.isSome_iff_exists.mp hsome
          have hqrate : some q.targetRps = hi := by simpa using List.find?_some hq
          have hsame : q = p := by
            refine List.inj_on_of_nodup_map hnodup (List.mem_of_find?_eq_some hq) hp ?_
            rw [hhi, hhi', Option.some.injEq] at hqrate
            rw [hqrate, hrate]
          rw [hq, hsame]
        rw [hfind] at hbounded
        obtain ⟨m, hof, hjudged⟩ := hsearched.probeOf hprobes hp
        rw [hrate] at hof
        refine .inr ⟨bound, p, m, rfl, hof, ?_⟩
        rw [Judged, hrate] at hjudged
        rcases probeVerdict_cases floatRepr task bound m with
          ⟨-, -, heq⟩ | ⟨hnot, detail, heq⟩ | ⟨hdelivered, hsampled, hbehind, detail, heq⟩
        · rw [heq] at hjudged
          rw [(Prod.mk.inj hjudged).1] at hfailed
          cases hfailed
        · rw [heq] at hjudged
          refine .inl ⟨?_, hnot⟩
          show r.boundedBy = _
          rw [hbounded]
          show beforeColon p.reason = _
          rw [(Prod.mk.inj hjudged).2, beforeColon_reasonOf (by decide)]
        · rw [heq] at hjudged
          refine .inr ⟨?_, hdelivered, hsampled, hbehind⟩
          rw [hbounded]
          show beforeColon p.reason = _
          rw [(Prod.mk.inj hjudged).2, beforeColon_reasonOf (by decide)]

/-! ## What it raises -/

/-- A guard raises. -/
theorem checkCellGuards_error {reader : Reader} {writerRps : ℚ} {e : SearchError}
    (h : checkCellGuards floatRepr task reader writerRps = .error e) : ∃ raised, e = .raised raised := by
  unfold checkCellGuards at h
  simp only at h
  split at h
  · cases h
    exact ⟨_, rfl⟩
  split at h
  · cases h
    exact ⟨_, rfl⟩
  · cases h

/-- A turn raises what the measurement raised, or what a guard does. -/
theorem turn_error {measured : Except SearchError Measurement} {e : SearchError}
    (h : Searched floatRepr task pre s) (hturn : turn floatRepr task s measured = .error e) :
    measured = .error e ∨ ∃ raised, e = .raised raised := by
  obtain ⟨state, step, probes⟩ := s
  cases step with
  | done knee hi => cases hturn
  | probe rate =>
    rcases except_bind_error.mp hturn with hmeasured | ⟨m, -, hguarded⟩
    · exact .inl hmeasured
    refine .inr ?_
    rcases except_bind_error.mp hguarded with hguard | ⟨_, -, hanswered⟩
    · exact checkCellGuards_error hguard
    -- the assertion of the rate search holds of every search
    obtain ⟨session, hmeasure, -⟩ := RateSearch.measure_sound h.sound
      (probeVerdict floatRepr task rate m.reader (lagOf task m).2).1
    obtain ⟨⟨state', step'⟩, hadvance, -⟩ := Option.map_eq_some_iff.mp hmeasure
    replace hadvance : task.rateSearch.advance state
        (probeVerdict floatRepr task rate m.reader (lagOf task m).2).1 = some (state', step') :=
      hadvance
    simp only [hadvance] at hanswered
    cases hanswered

theorem probing_error {e : SearchError} (h : probing floatRepr task ms = .error e) :
    .error e ∈ ms ∨ ∃ raised, e = .raised raised := by
  induction ms using List.reverseRecOn with
  | nil => cases h
  | append_singleton ms measured ih =>
    rw [probing_snoc] at h
    rcases except_bind_error.mp h with hrun | ⟨s, hrun, hturn⟩
    · exact (ih hrun).imp_left fun hmem => List.mem_append_left _ hmem
    · refine (turn_error (probing_searched hrun) hturn).imp_left fun heq => ?_
      exact heq ▸ List.mem_append_right _ (List.mem_singleton_self _)

/-- **No search** fails an assertion or an iteration of its own. -/
theorem search_error {e : SearchError} (h : search floatRepr task ms = .error e) :
    .error e ∈ ms ∨ ∃ raised, e = .raised raised := by
  rcases except_bind_error.mp h with hrun | ⟨⟨state, step, probes⟩, hrun, h⟩
  · exact probing_error hrun
  refine .inr ?_
  cases step with
  | probe rate => cases h
  | done knee hi =>
    rcases except_bind_error.mp h with hreport | ⟨r, -, h⟩
    · unfold report at hreport
      split at hreport
      · split at hreport
        · cases hreport
          exact ⟨_, rfl⟩
        · cases hreport
          exact ⟨_, rfl⟩
      · obtain ⟨p, hp, hrate, hpassed⟩ := (probing_searched hrun).knee_passed rfl
        split at hreport
        · next hnone =>
          have hnot := List.find?_eq_none.mp hnone p hp
          simp [hrate, hpassed] at hnot
        · cases hreport
    · cases h

/-! ## Runs -/

theorem oneSecond_pos : (0 : ℚ) < 1 := zero_lt_one

/-- A task that probes 1000 and 2000 reads a second. -/
def twoRates : ReplicaReadTask where
  writeRate := 100
  warmup := 5
  maxLagSeconds := 1
  maxLagSlope := 2 / 100
  rateSearch :=
    { startRate := 1000, stepMultiplier := 2, maxRate := 2000, tolerance := 1 / 2
      maxBisectSteps := 0
      startRate_pos := by decide
      startRate_le := by decide
      stepMultiplier_gt_one := by decide
      tolerance_nonneg := by decide +kernel
      tolerance_lt_one := by decide +kernel
      maxBisectSteps_nonneg := by decide }
  primaryPort := 6379
  replicaPort := 6380
  maxLagSeconds_pos := oneSecond_pos
  maxLagSlope_pos := by decide +kernel

/-- The offsets of the two ports at an instant. -/
def offsetsAt (t : ℚ) (primary replica : ℤ) : OffsetSample :=
  ⟨some t, ⟨[(6379, some primary), (6380, some replica)], by simp⟩⟩

/-- A measurement at whose rate the generators delivered. -/
def deliveredAt (rate : ℚ) (samples : List OffsetSample) : Measurement :=
  ⟨⟨rate, some ⟨some 100, none, none⟩⟩, 100, samples, 0⟩

def steadySamples : List OffsetSample :=
  [offsetsAt 5 100 90, offsetsAt 6 200 190, offsetsAt 7 300 290]

def laggingSamples : List OffsetSample :=
  [offsetsAt 5 400 390, offsetsAt 6 500 440, offsetsAt 7 600 490]

/-- The replica loses ground at twice the rate, and the search says so. -/
theorem twoRates_searched :
    ∃ r, search (fun _ => "") twoRates
        [.ok (deliveredAt 1000 steadySamples), .ok (deliveredAt 2000 laggingSamples)] = .ok (some r) ∧
      (r.kneeTargetRps, r.hiTargetRps, r.boundedBy) = (1000, some 2000, "lag") := by
  have hrun : ((search (fun _ => "") twoRates
      [.ok (deliveredAt 1000 steadySamples), .ok (deliveredAt 2000 laggingSamples)]).toOption.join.map
        fun r => (r.kneeTargetRps, r.hiTargetRps, r.boundedBy)) = some (1000, some 2000, "lag") := by
    decide +kernel
  obtain ⟨r, hr, heq⟩ := Option.map_eq_some_iff.mp hrun
  exact ⟨r, except_toOption_some.mp (Option.join_eq_some_iff.mp hr), heq⟩

theorem twoRates_evidence :
    ∃ r, search (fun _ => "") twoRates
        [.ok (deliveredAt 1000 steadySamples), .ok (deliveredAt 2000 laggingSamples)] = .ok (some r) ∧
      (∃ p m, ProbeOf [.ok (deliveredAt 1000 steadySamples), .ok (deliveredAt 2000 laggingSamples)]
          r r.kneeTargetRps p m ∧ Delivered r.kneeTargetRps m ∧
        (¬ Sampled twoRates m ∨ Idle twoRates m ∨ KeptUp twoRates m)) ∧
      (r.hiTargetRps = none ∧ r.boundedBy = "ceiling" ∨
        ∃ hi p m, r.hiTargetRps = some hi ∧
          ProbeOf [.ok (deliveredAt 1000 steadySamples), .ok (deliveredAt 2000 laggingSamples)]
            r hi p m ∧
          (r.boundedBy = "reader" ∧ ¬ Delivered hi m ∨
            r.boundedBy = "lag" ∧ Delivered hi m ∧ Sampled twoRates m ∧ FellBehind twoRates m)) := by
  obtain ⟨r, hr, -⟩ := twoRates_searched
  exact ⟨r, hr, knee_evidence hr⟩

/-- **A knee without evidence**: no sample of the scored window has the replica's offset. -/
theorem unsampled_knee :
    ∃ r, search (fun _ => "") twoRates
        [.ok (deliveredAt 1000 []), .ok (deliveredAt 2000 [])] = .ok (some r) ∧
      ¬ ∃ p m, ProbeOf [.ok (deliveredAt 1000 []), .ok (deliveredAt 2000 [])] r r.kneeTargetRps p m ∧
        Delivered r.kneeTargetRps m ∧ Sampled twoRates m ∧ KeptUp twoRates m := by
  have hrun : (search (fun _ => "") twoRates
      [.ok (deliveredAt 1000 []), .ok (deliveredAt 2000 [])]).toOption.join.isSome = true := by
    decide +kernel
  obtain ⟨r, hr⟩ := Option.isSome_iff_exists.mp hrun
  refine ⟨r, except_toOption_some.mp (Option.join_eq_some_iff.mp hr), ?_⟩
  rintro ⟨p, m, ⟨n, -, hm, -⟩, -, hsampled, -⟩
  have hempty : m.samples = [] := by
    match n, hm with
    | 0, hm => cases hm; rfl
    | 1, hm => cases hm; rfl
    | n + 2, hm => cases hm
  have hwindow : m.window twoRates = [] := by
    rw [Measurement.window, Measurement.scored, hempty]
    rfl
  rw [Sampled, hwindow] at hsampled
  cases hsampled

end Conductress.ReadRate
