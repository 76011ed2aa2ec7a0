import Mathlib.Algebra.Order.BigOperators.Group.List
import Mathlib.Data.List.Sort
import Mathlib.Tactic.Positivity
import Conductress.Base.Rounding
import Conductress.Lib.Table

/-!
# How far a replica is behind

`replication_lag_stats` over the samples of a window. A sample counts when it has both
offsets, and for the rate of the stream and the trend of the lag when it has a clock too.

* `leastSquaresSlope_eq_none_iff` — a trend needs two instants;
* `lagSlope_isSome` — wherever the stream has a rate, the lag has a trend.
-/

namespace Conductress

/-! ## Samples -/

/-- What a sample of the topology says of the offsets. -/
structure OffsetSample where
  t         : Option ℚ
  instances : Lib.Table (Prod.fst : ℕ × Option ℤ → ℕ)

/-- `inst.get(port, {}).get("master_repl_offset")`. -/
def OffsetSample.offset (s : OffsetSample) (port : ℕ) : Option ℤ := do
  let row ← s.instances.find? port
  row.2

/-- A sample with both offsets. -/
structure OffsetPair where
  t       : Option ℚ
  primary : ℤ
  replica : ℤ
  deriving DecidableEq

namespace OffsetPair

def lag (o : OffsetPair) : ℤ := max 0 (o.primary - o.replica)

/-- On the clock, a value of the sample. -/
def point (value : OffsetPair → ℤ) (o : OffsetPair) : Option (ℚ × ℚ) :=
  o.t.map fun t => (t, (value o : ℚ))

theorem lag_nonneg (o : OffsetPair) : 0 ≤ o.lag := le_max_left _ _

end OffsetPair

def OffsetSample.pair (primaryPort replicaPort : ℕ) (s : OffsetSample) : Option OffsetPair := do
  let p ← s.offset primaryPort
  let r ← s.offset replicaPort
  return ⟨s.t, p, r⟩

/-! ## Statistics -/

/-- `_least_squares_slope`. -/
def leastSquaresSlope (points : List (ℚ × ℚ)) : Option ℚ :=
  if points.length < 2 then none
  else
    let meanX := (points.map Prod.fst).sum / points.length
    let meanY := (points.map Prod.snd).sum / points.length
    let varX := (points.map fun p => (p.1 - meanX) ^ 2).sum
    -- all points are of one instant
    if varX = 0 then none
    else some ((points.map fun p => (p.1 - meanX) * (p.2 - meanY)).sum / varX)

section

variable (pairs : List OffsetPair)

def lags : List ℤ := pairs.map OffsetPair.lag

def primaryPoints : List (ℚ × ℚ) := pairs.filterMap (OffsetPair.point OffsetPair.primary)

def lagPoints : List (ℚ × ℚ) := pairs.filterMap (OffsetPair.point OffsetPair.lag)

/-- `stream_bytes_per_second`. -/
def streamRate : Option ℚ :=
  if (primaryPoints pairs).length < 2 then none
  else
    match (primaryPoints pairs).head?, (primaryPoints pairs).getLast? with
    -- the rate is from the first point to the last, whatever is between them
    | some (t0, p0), some (t1, p1) => if t0 < t1 then some ((p1 - p0) / (t1 - t0)) else none
    | _, _ => none

/-- `bytes / rate if rate is not None and rate > 0 else None`. -/
def inSeconds (bytes : ℚ) : Option ℚ :=
  match streamRate pairs with
  | none => none
  | some rate => if 0 < rate then some (bytes / rate) else none

/-- `END_WINDOW_SAMPLES`. -/
def endWindowSamples : ℕ := 3

def meanBytes : ℚ := ((lags pairs).sum : ℚ) / (lags pairs).length

/-- The last samples, of which there may be fewer. -/
def endLags : List ℤ := (lags pairs).drop ((lags pairs).length - endWindowSamples)

def endBytes : ℚ := ((endLags pairs).sum : ℚ) / (endLags pairs).length

/-- `end_seconds`. -/
def closingLag : Option ℚ := inSeconds pairs (endBytes pairs)

/-- `slope_seconds_per_second`. -/
def lagSlope : Option ℚ := (leastSquaresSlope (lagPoints pairs)).bind (inSeconds pairs)

end

/-- A summary of one sample or more. -/
structure LagStats where
  samples               : ℕ
  meanBytes             : ℚ
  maxBytes              : ℤ
  p99Bytes              : ℤ
  endBytes              : ℚ
  streamBytesPerSecond  : Option ℚ
  meanSeconds           : Option ℚ
  endSeconds            : Option ℚ
  slopeSecondsPerSecond : Option ℚ
  deriving DecidableEq

/-- The summary of some samples with both offsets. -/
def LagStats.ofPairs (pairs : List OffsetPair) : LagStats :=
  let sorted := (lags pairs).insertionSort (· ≤ ·)
  let n := sorted.length
  { samples               := (lags pairs).length
    meanBytes             := Conductress.meanBytes pairs
    maxBytes              := sorted.getLast?.getD 0
    p99Bytes              := sorted.getD (min (n - 1) (pyRound (99 / 100 * (n - 1 : ℕ))).toNat) 0
    endBytes              := Conductress.endBytes pairs
    streamBytesPerSecond  := streamRate pairs
    meanSeconds           := inSeconds pairs (Conductress.meanBytes pairs)
    endSeconds            := closingLag pairs
    slopeSecondsPerSecond := lagSlope pairs }

/-- `replication_lag_stats`; `none` is `{"samples": 0}`. -/
def replicationLagStats (samples : List OffsetSample) (primaryPort replicaPort : ℕ) :
    Option LagStats :=
  let pairs := samples.filterMap (OffsetSample.pair primaryPort replicaPort)
  if lags pairs = [] then none else some (LagStats.ofPairs pairs)

/-! ## The trend -/

/-- **A trend** is there when two of the points are of different instants. -/
theorem leastSquaresSlope_eq_none_iff {points : List (ℚ × ℚ)} :
    leastSquaresSlope points = none ↔ ∀ p ∈ points, ∀ q ∈ points, p.1 = q.1 := by
  unfold leastSquaresSlope
  split
  · next hshort =>
    refine ⟨fun _ => ?_, fun _ => rfl⟩
    match points, hshort with
    | [], _ => simp
    | [p], _ => simp
  · next hlong =>
    have hlen : (points.length : ℚ) ≠ 0 := by
      have hpos : 0 < points.length := by omega
      exact_mod_cast hpos.ne'
    set mean := (points.map Prod.fst).sum / (points.length : ℚ) with hmean
    -- a sum of squares is zero when each of them is
    have hvar : (points.map fun p => (p.1 - mean) ^ 2).sum = 0 ↔ ∀ p ∈ points, p.1 = mean := by
      constructor
      · intro hsum p hp
        have hsq : ∀ x ∈ points.map fun p => (p.1 - mean) ^ 2, 0 ≤ x := by
          intro x hx
          obtain ⟨q, -, rfl⟩ := List.mem_map.mp hx
          positivity
        have hzero : (p.1 - mean) ^ 2 = 0 :=
          List.all_zero_of_le_zero_le_of_sum_eq_zero hsq hsum (List.mem_map_of_mem hp)
        have hsub : p.1 - mean = 0 := by simpa using hzero
        exact sub_eq_zero.mp hsub
      · intro h
        refine List.sum_eq_zero fun x hx => ?_
        obtain ⟨q, hq, rfl⟩ := List.mem_map.mp hx
        simp [h q hq]
    have hconst : (∀ p ∈ points, p.1 = mean) ↔ ∀ p ∈ points, ∀ q ∈ points, p.1 = q.1 := by
      constructor
      · intro h p hp q hq
        rw [h p hp, h q hq]
      · intro h p hp
        -- the mean of equal instants is that instant
        have hmap : points.map Prod.fst = List.replicate points.length p.1 := by
          rw [List.eq_replicate_iff, List.length_map]
          refine ⟨rfl, fun x hx => ?_⟩
          obtain ⟨q, hq, rfl⟩ := List.mem_map.mp hx
          exact h q hq p hp
        rw [hmean, hmap, List.sum_replicate, nsmul_eq_mul, mul_div_cancel_left₀ _ hlen]
    rw [← hconst, ← hvar]
    show (if _ then none else some _) = none ↔ _
    rw [ite_eq_left_iff]
    simp only [reduceCtorEq, imp_false, not_not]

/-- Zero at every instant is no trend. -/
theorem leastSquaresSlope_zero {points : List (ℚ × ℚ)} (h : ∀ p ∈ points, p.2 = 0) :
    ∀ slope ∈ leastSquaresSlope points, slope = 0 := by
  have hmean : (points.map Prod.snd).sum = 0 := by
    refine List.sum_eq_zero fun y hy => ?_
    obtain ⟨p, hp, rfl⟩ := List.mem_map.mp hy
    exact h p hp
  -- with values of zero, whatever the mean instant is
  have hcross (x : ℚ) : (points.map fun p => (p.1 - x) * (p.2 - 0)).sum = 0 := by
    refine List.sum_eq_zero fun y hy => ?_
    obtain ⟨p, hp, rfl⟩ := List.mem_map.mp hy
    rw [h p hp, sub_zero, mul_zero]
  intro slope hslope
  simp only [leastSquaresSlope, hmean, zero_div, hcross, Option.mem_def] at hslope
  split at hslope
  · cases hslope
  split at hslope
  · cases hslope
  · exact (Option.some.inj hslope).symm

variable {pairs : List OffsetPair}

theorem lagPoints_map_fst : (lagPoints pairs).map Prod.fst = (primaryPoints pairs).map Prod.fst := by
  simp only [lagPoints, primaryPoints, OffsetPair.point, List.map_filterMap, Option.map_map]
  rfl

/-- A rate is one between two instants. -/
theorem exists_lt_of_streamRate {rate : ℚ} (h : streamRate pairs = some rate) :
    ∃ p ∈ primaryPoints pairs, ∃ q ∈ primaryPoints pairs, p.1 < q.1 := by
  unfold streamRate at h
  split at h
  · cases h
  split at h
  · next t0 p0 t1 p1 hfirst hlast =>
    split at h
    · next hlt =>
      exact ⟨_, List.mem_of_mem_head? hfirst, _, List.mem_of_mem_getLast? hlast, hlt⟩
    · cases h
  · cases h

/-- The stream has advanced from the first instant to the last. -/
def Advances (pairs : List OffsetPair) : Prop := ∃ rate ∈ streamRate pairs, 0 < rate

theorem inSeconds_isSome {bytes : ℚ} : (inSeconds pairs bytes).isSome ↔ Advances pairs := by
  unfold inSeconds Advances
  cases streamRate pairs with
  | none => simp
  | some rate =>
    by_cases hrate : 0 < rate
    · simp [hrate]
    · simp [hrate]

/-- **Where the stream has a rate**, the lag has a trend. -/
theorem lagSlope_isSome : (lagSlope pairs).isSome ↔ Advances pairs := by
  unfold lagSlope
  cases hslope : leastSquaresSlope (lagPoints pairs) with
  | some slope => exact inSeconds_isSome
  | none =>
    -- the points of the lag are of the instants of those of the stream
    have hsame := leastSquaresSlope_eq_none_iff.mp hslope
    refine ⟨fun h => (by cases h), ?_⟩
    rintro ⟨rate, hrate, -⟩
    -- the two instants of the rate are two of the lag's points
    obtain ⟨p, hp, q, hq, hlt⟩ := exists_lt_of_streamRate hrate
    have hmem : ∀ r ∈ primaryPoints pairs, ∃ s ∈ lagPoints pairs, s.1 = r.1 := by
      intro r hr
      have : r.1 ∈ (lagPoints pairs).map Prod.fst :=
        lagPoints_map_fst ▸ List.mem_map_of_mem hr
      exact List.mem_map.mp this
    obtain ⟨p', hp', hpt⟩ := hmem p hp
    obtain ⟨q', hq', hqt⟩ := hmem q hq
    have heq := hsame p' hp' q' hq'
    rw [hpt, hqt] at heq
    exact absurd heq hlt.ne

/-! ## The mean -/

theorem lags_nonneg : ∀ lag ∈ lags pairs, 0 ≤ lag := by
  intro lag hlag
  obtain ⟨o, -, rfl⟩ := List.mem_map.mp hlag
  exact o.lag_nonneg

/-- The mean is above zero when the replica was behind in some sample. -/
theorem meanBytes_pos : 0 < meanBytes pairs ↔ ∃ lag ∈ lags pairs, lag ≠ 0 := by
  have hsum : 0 ≤ (lags pairs).sum := List.sum_nonneg lags_nonneg
  unfold meanBytes
  constructor
  · intro hpos
    -- were every lag zero, so would the sum be
    by_contra hall
    have hzero : (lags pairs).sum = 0 := by
      refine List.sum_eq_zero fun lag hlag => ?_
      by_contra hne
      exact hall ⟨lag, hlag, hne⟩
    rw [hzero] at hpos
    simp at hpos
  · rintro ⟨lag, hlag, hne⟩
    have hpos : 0 < (lags pairs).sum := by
      rcases hsum.lt_or_eq with hlt | heq
      · exact hlt
      · exact absurd (List.all_zero_of_le_zero_le_of_sum_eq_zero lags_nonneg heq.symm hlag) hne
    have hlen : 0 < (lags pairs).length := List.length_pos_of_mem hlag
    exact div_pos (by exact_mod_cast hpos) (by exact_mod_cast hlen)

end Conductress
