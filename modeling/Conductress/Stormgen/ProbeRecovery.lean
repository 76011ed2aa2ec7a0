import Mathlib.Algebra.BigOperators.Group.List.Basic
import Mathlib.Data.List.Dedup
import Mathlib.Data.List.Sort
import Mathlib.Tactic.FieldSimp
import Conductress.Base.Rounding
import Conductress.Lib.Streak
import Conductress.Stormgen.SlowLoop

/-!
# When the probe has recovered

`_bucketize` and `probe_recovery_s`, as `build_document` calls it: with the end of the
stall for both its start and its end. The buckets of the stall are therefore part of the
mean the figure is measured against, and the three buckets in a row are three that were
recorded, which need not be three seconds. The mean, the threshold and what is compared with
it are doubles (`roundDouble`); the times are whole seconds, which a double holds, and the figure
is their distance from the end of the stall as it stands.

* `recoveryScan_eq` — the pass over the buckets finds the first run;
* `probeRecovery_eq` — the figure of a document, by the runs in its timeline;
* `recovery_iff` — when it is that of the three seconds.
-/

namespace Conductress.Stormgen

open Lib

/-! ## Buckets -/

structure ProbeSample where
  tSend     : ℚ
  latencyMs : Option ℚ
  served    : Bool
  skipped   : Bool
  deriving DecidableEq

structure ProbeBucket where
  tMs     : ℤ
  sent    : ℕ
  served  : ℕ
  skipped : ℕ
  p50Ms   : ℚ
  p99Ms   : ℚ
  maxMs   : ℚ
  deriving DecidableEq

/-- `_percentile`. -/
def percentile (pct : ℚ) : List ℚ → ℚ
  | [] => 0
  | [value] => value
  | values => values[nearestRank (pct / 100) values.length - 1]?.getD 0

/-- `int(s.t_send // bucket_s)`. -/
def ProbeSample.bucketIndex (bucketMs : ℤ) (s : ProbeSample) : ℤ := ⌊s.tSend / (bucketMs / 1000)⌋

/-- The bucket of an index. -/
def bucketOf (bucketMs : ℤ) (samples : List ProbeSample) (idx : ℤ) : ProbeBucket :=
  let here := samples.filter fun s => decide (s.bucketIndex bucketMs = idx)
  let answered := here.filter fun s => !s.skipped && s.served
  let lat := (answered.filterMap ProbeSample.latencyMs).insertionSort (· ≤ ·)
  { tMs     := idx * bucketMs
    sent    := here.length
    served  := answered.length
    skipped := (here.filter ProbeSample.skipped).length
    p50Ms   := percentile 50 lat
    p99Ms   := percentile 99 lat
    maxMs   := lat.getLast?.getD 0 }

/-- `_bucketize`. -/
def bucketize (samples : List ProbeSample) (bucketMs : ℤ) : Except String (List ProbeBucket) :=
  if bucketMs ≤ 0 then .error s!"bucket_ms must be > 0, got {bucketMs}"
  else .ok (((samples.map (·.bucketIndex bucketMs)).dedup.insertionSort (· ≤ ·)).map
    (bucketOf bucketMs samples))

/-- The buckets of a probe, in order and at whole seconds. -/
structure ProbeTimeline where
  buckets : List ProbeBucket
  ordered : buckets.Pairwise (·.tMs < ·.tMs)
  seconds : ∀ b ∈ buckets, 1000 ∣ b.tMs

/-- The indices of the buckets go up. -/
theorem bucketIndices_ordered (indices : List ℤ) :
    (indices.dedup.insertionSort (· ≤ ·)).Pairwise (· < ·) := by
  have hsorted := List.pairwise_insertionSort (· ≤ ·) indices.dedup
  have hnodup : (indices.dedup.insertionSort (· ≤ ·)).Nodup :=
    (List.perm_insertionSort (· ≤ ·) indices.dedup).nodup_iff.mpr (List.nodup_dedup indices)
  exact (hsorted.and hnodup).imp fun h => lt_of_le_of_ne h.1 h.2

/-- **What `_bucketize` returns** for buckets of a second is a timeline. -/
def ProbeTimeline.ofSamples (samples : List ProbeSample) : ProbeTimeline where
  buckets := ((samples.map (·.bucketIndex 1000)).dedup.insertionSort (· ≤ ·)).map
    (bucketOf 1000 samples)
  ordered := List.pairwise_map.mpr ((bucketIndices_ordered _).imp fun h =>
    Int.mul_lt_mul_of_pos_right h (by decide))
  seconds := by
    intro b hb
    obtain ⟨idx, -, rfl⟩ := List.mem_map.mp hb
    exact Int.dvd_mul_left idx 1000

theorem bucketize_seconds (samples : List ProbeSample) :
    bucketize samples 1000 = .ok (ProbeTimeline.ofSamples samples).buckets :=
  rfl

/-! ## The figure -/

/-- `bucket["t_ms"] / 1000.0`. -/
def ProbeBucket.axis (b : ProbeBucket) : ℚ := b.tMs / 1000

theorem ProbeBucket.axis_le {b c : ProbeBucket} (h : b.tMs ≤ c.tMs) : b.axis ≤ c.axis := by
  have hcast : (b.tMs : ℚ) ≤ c.tMs := by exact_mod_cast h
  unfold ProbeBucket.axis
  linarith

/-- The pass over the buckets. -/
def recoveryScan (threshold recoverFrom : ℚ) (consecutive : ℕ) :
    List ProbeBucket → ℕ → ℚ → Option ℚ
  | [], _, _ => none
  | bucket :: rest, streak, streakStart =>
    -- a bucket before the end of the stall neither counts nor breaks a streak
    if bucket.axis < recoverFrom then
      recoveryScan threshold recoverFrom consecutive rest streak streakStart
    else if threshold ≤ roundDouble bucket.served then
      let streakStart := if streak = 0 then bucket.axis else streakStart
      if consecutive ≤ streak + 1 then some (max 0 (streakStart - recoverFrom))
      else recoveryScan threshold recoverFrom consecutive rest (streak + 1) streakStart
    else recoveryScan threshold recoverFrom consecutive rest 0 streakStart

/-- `sum(pre)`, each addition rounded; below `2 ^ 53` no addition is. -/
def sumServed (buckets : List ProbeBucket) : ℚ :=
  buckets.foldl (fun sum b => roundDouble (sum + roundDouble b.served)) 0

/-- `pre_mean`. -/
def preMean (buckets : List ProbeBucket) : ℚ := roundDouble (sumServed buckets / buckets.length)

/-- `pre_mean * (1.0 - within_frac)`. -/
def recoveryThreshold (buckets : List ProbeBucket) (withinFrac : ℚ) : ℚ :=
  roundDouble (preMean buckets * roundDouble (1 - roundDouble withinFrac))

/-- `probe_recovery_s`. -/
def probeRecoveryS (timeline : List ProbeBucket) (stallEnd : Option ℚ) (stormOrigin : ℚ)
    (preWindowEnd : Option ℚ) (withinFrac : ℚ) (consecutive : ℕ) : Option ℚ :=
  let buckets := timeline.insertionSort (·.tMs ≤ ·.tMs)
  let recoverFrom := (stallEnd.map (· - stormOrigin)).getD 0
  -- without an end of its own, the window before the stall ends with the stall
  let disturbAxis := preWindowEnd.getD recoverFrom
  let pre := buckets.filter fun b => decide (b.axis < disturbAxis)
  if pre = [] then none
  else if preMean pre ≤ 0 then none
  else recoveryScan (recoveryThreshold pre withinFrac) recoverFrom consecutive buckets 0 recoverFrom

/-- `StormResult`, as far as the figure depends on it. -/
structure StormResult where
  stall         : StallRecord
  originWall    : ℚ
  probeTimeline : ProbeTimeline

/-- `stall_end_relative`. -/
def StormResult.stallEndRelative (result : StormResult) : Option ℚ :=
  result.stall.ended.map fun ended => max 0 (roundDouble (ended - result.originWall))

/-- `probe_recovery_s` in `build_document`. -/
def StormResult.probeRecovery (result : StormResult) : Option ℚ :=
  probeRecoveryS result.probeTimeline.buckets result.stallEndRelative 0 none (1 / 10) 3

/-! ## The pass -/

section Pass

variable {threshold recoverFrom start : ℚ} {n : ℕ} {l pre : List ProbeBucket}

/-- Earlier buckets are passed over. -/
theorem recoveryScan_filter (k : ℕ) (start : ℚ) :
    recoveryScan threshold recoverFrom n l k start =
      recoveryScan threshold recoverFrom n
        (l.filter fun b => decide (recoverFrom ≤ b.axis)) k start := by
  induction l generalizing k start with
  | nil => rfl
  | cons b l ih =>
    rw [List.filter_cons]
    by_cases hearly : b.axis < recoverFrom
    · rw [if_neg (by simpa using hearly)]
      conv_lhs => unfold recoveryScan
      rw [if_pos hearly]
      exact ih k start
    · rw [if_pos (by simpa using hearly)]
      unfold recoveryScan
      rw [if_neg hearly, if_neg hearly]
      simp only [ih]

/-- **The pass finds the first run.** The streak is what has been passed of a run. -/
theorem recoveryScan_eq (hlate : ∀ b ∈ l, recoverFrom ≤ b.axis) (hpre : pre.length < n)
    (hgood : ∀ b ∈ pre, threshold ≤ roundDouble b.served) (hstart : ∀ b ∈ pre.head?, start = b.axis) :
    recoveryScan threshold recoverFrom n l pre.length start =
      (firstRun (fun b : ProbeBucket => threshold ≤ roundDouble b.served) n (pre ++ l)).map
        fun b => max 0 (b.axis - recoverFrom) := by
  induction l generalizing pre start with
  -- fewer buckets are left than a run has
  | nil =>
    rw [List.append_nil, firstRun_of_short hpre]
    rfl
  | cons b l ih =>
    have hlate' : ∀ c ∈ l, recoverFrom ≤ c.axis := fun c hc => hlate c (List.mem_cons_of_mem b hc)
    unfold recoveryScan
    rw [if_neg (not_lt.mpr (hlate b List.mem_cons_self))]
    by_cases hb : threshold ≤ roundDouble b.served
    · rw [if_pos hb]
      dsimp only
      -- the bucket lengthens the streak
      have hgood' : ∀ c ∈ pre ++ [b], threshold ≤ roundDouble c.served := by
        intro c hc
        rcases List.mem_append.mp hc with hc | hc
        · exact hgood c hc
        · obtain rfl := List.mem_singleton.mp hc
          exact hb
      have hlength : (pre ++ [b]).length = pre.length + 1 := by
        rw [List.length_append, List.length_singleton]
      -- the start of the streak is that of what has been passed
      obtain ⟨first, passed, hpassed, hfirst⟩ : ∃ first passed, pre ++ [b] = first :: passed ∧
          (if pre.length = 0 then b.axis else start) = first.axis := by
        cases pre with
        | nil => exact ⟨b, [], rfl, rfl⟩
        | cons c pre => exact ⟨c, pre ++ [b], rfl, hstart c rfl⟩
      rw [hfirst]
      split
      · have hn : (first :: passed).length = n := by
          rw [← hpassed, hlength]
          omega
        rw [hpassed] at hgood'
        have hrun := firstRun_of_all (l := l) hn hgood'
        rw [← hpassed, List.append_assoc, List.singleton_append] at hrun
        rw [hrun]
        rfl
      · have hstart' : ∀ c ∈ (pre ++ [b]).head?, first.axis = c.axis := by
          intro c hc
          rw [hpassed] at hc
          obtain rfl := Option.some.inj hc
          rfl
        have hnext := ih hlate' (by omega) hgood' hstart'
        rw [hlength, List.append_assoc] at hnext
        exact hnext
    -- it breaks the streak, and no run has begun in it
    · rw [if_neg hb, firstRun_append_break hpre hb]
      exact @ih start [] hlate' (by rw [List.length_nil]; omega) (by simp) (by simp)

end Pass

/-! ## Runs of a timeline -/

namespace ProbeTimeline

variable (timeline : ProbeTimeline)

/-- The buckets that began before a time. -/
def before (t : ℚ) : List ProbeBucket := timeline.buckets.filter fun b => decide (b.axis < t)

/-- The buckets at or after a time. -/
def since (t : ℚ) : List ProbeBucket := timeline.buckets.filter fun b => decide (t ≤ b.axis)

/-- The bucket and the next two that were recorded pass the threshold of the mean before `t`,
which is not 0. -/
def RecordedRun (t : ℚ) (b : ProbeBucket) : Prop :=
  0 < preMean (timeline.before t) ∧
    BeginsRun (fun c : ProbeBucket =>
        recoveryThreshold (timeline.before t) (1 / 10) ≤ roundDouble c.served) 3
      (timeline.buckets.filter fun c => decide (b.tMs ≤ c.tMs))

/-- The mean served of some buckets. -/
def meanServed (buckets : List ProbeBucket) : ℚ :=
  (buckets.map fun b => (b.served : ℚ)).sum / buckets.length

/-- The bucket and those of the next two seconds serve at least 90 % of the mean before `t`. -/
def SecondsRun (t : ℚ) (b : ProbeBucket) : Prop :=
  timeline.before t ≠ [] ∧ ∀ i ∈ List.range 3, ∃ c ∈ timeline.buckets,
    c.tMs = b.tMs + 1000 * i ∧ 9 / 10 * meanServed (timeline.before t) ≤ c.served

instance (t : ℚ) (b : ProbeBucket) : Decidable (timeline.RecordedRun t b) :=
  inferInstanceAs (Decidable (_ ∧ _))

instance (t : ℚ) (b : ProbeBucket) : Decidable (timeline.SecondsRun t b) :=
  inferInstanceAs (Decidable (_ ∧ _))

/-- The recovery figure of a stall from `s` to `e`: the distance from its end to the first
three seconds, against the mean before its start. -/
def recovery (s e : ℚ) : Option ℚ :=
  ((timeline.since e).find? fun b => decide (timeline.SecondsRun s b)).map fun b => b.axis - e

/-- **The two kinds of run agree**: from `e` on, up to the first bucket that begins a run of
both kinds, none begins a run of only one kind. -/
def RunsAgree (s e : ℚ) : Prop :=
  ∀ b ∈ timeline.since e, (timeline.RecordedRun e b ↔ timeline.SecondsRun s b) ∨
    ∃ c ∈ timeline.since e, c.tMs < b.tMs ∧ timeline.RecordedRun e c ∧ timeline.SecondsRun s c

instance (s e : ℚ) : Decidable (timeline.RunsAgree s e) :=
  inferInstanceAs (Decidable (∀ b ∈ timeline.since e, _))

variable {timeline} {s e : ℚ} {b c : ProbeBucket}

theorem mem_since : b ∈ timeline.since e ↔ b ∈ timeline.buckets ∧ e ≤ b.axis := by
  rw [since, List.mem_filter, decide_eq_true_iff]

theorem since_ordered : (timeline.since e).Pairwise (·.tMs < ·.tMs) :=
  timeline.ordered.sublist List.filter_sublist

/-- A bucket is known by its time. -/
theorem eq_of_axis (hb : b ∈ timeline.buckets) (hc : c ∈ timeline.buckets)
    (h : b.axis = c.axis) : b = c := by
  have htMs : b.tMs = c.tMs := by
    unfold ProbeBucket.axis at h
    have hcast : (b.tMs : ℚ) = c.tMs := by linarith
    exact_mod_cast hcast
  have hnodup : (timeline.buckets.map ProbeBucket.tMs).Nodup :=
    List.pairwise_map.mpr (timeline.ordered.imp fun hlt => ne_of_lt hlt)
  exact List.inj_on_of_nodup_map hnodup hb hc htMs

/-- The first recorded run from a time on, as the pass finds it. -/
theorem firstRun_since (timeline : ProbeTimeline) (hpos : 0 < preMean (timeline.before e)) :
    firstRun (fun c : ProbeBucket =>
        recoveryThreshold (timeline.before e) (1 / 10) ≤ roundDouble c.served) 3 (timeline.since e) =
      (timeline.since e).find? fun b => decide (timeline.RecordedRun e b) := by
  rw [firstRun_eq_find? ProbeTimeline.since_ordered]
  refine (find?_eq_find?_iff ProbeTimeline.since_ordered).mpr fun b hb => .inl ?_
  -- what is recorded from the bucket on is all at or after the time
  have hsuffix : (timeline.since e).filter (fun c => decide (b.tMs ≤ c.tMs)) =
      timeline.buckets.filter fun c => decide (b.tMs ≤ c.tMs) := by
    unfold ProbeTimeline.since
    rw [List.filter_filter]
    refine List.filter_congr fun c _ => ?_
    by_cases hle : b.tMs ≤ c.tMs
    · have hlate := (ProbeTimeline.mem_since.mp hb).2.trans (ProbeBucket.axis_le hle)
      rw [decide_eq_true hle, decide_eq_true hlate]
      rfl
    · rw [decide_eq_false hle, Bool.false_and]
  rw [hsuffix]
  exact ⟨fun h => ⟨hpos, h⟩, And.right⟩

end ProbeTimeline

namespace StormResult

variable {result : StormResult} {e : ℚ}

/-- **The figure of a document**, for a stall that has ended. -/
theorem probeRecovery_eq (he : result.stallEndRelative = some e) :
    result.probeRecovery =
      ((result.probeTimeline.since e).find? fun b =>
        decide (result.probeTimeline.RecordedRun e b)).map fun b => b.axis - e := by
  -- without a mean there is no figure, and no run either
  have hnone : ¬ 0 < preMean (result.probeTimeline.before e) →
      (result.probeTimeline.since e).find?
        (fun b => decide (result.probeTimeline.RecordedRun e b)) = none := by
    intro hzero
    rw [List.find?_eq_none]
    exact fun b _ hrun => hzero (of_decide_eq_true hrun).1
  -- a timeline is sorted already
  have hsorted : result.probeTimeline.buckets.insertionSort (·.tMs ≤ ·.tMs) =
      result.probeTimeline.buckets :=
    List.Pairwise.insertionSort_eq (result.probeTimeline.ordered.imp le_of_lt)
  unfold probeRecovery probeRecoveryS
  rw [he, hsorted]
  dsimp only [Option.map_some, Option.getD_some, Option.getD_none]
  rw [sub_zero]
  show (if result.probeTimeline.before e = [] then none
    else if preMean (result.probeTimeline.before e) ≤ 0 then none else _) = _
  split
  · next hempty =>
    have hzero : preMean (result.probeTimeline.before e) = 0 := by
      rw [hempty]
      decide +kernel
    rw [hnone (by rw [hzero]; exact lt_irrefl _)]
    rfl
  · split
    · next hzero =>
      rw [hnone (not_lt.mpr hzero)]
      rfl
    · next hpos =>
      have hlate : ∀ b ∈ result.probeTimeline.since e, e ≤ b.axis :=
        fun b hb => (ProbeTimeline.mem_since.mp hb).2
      rw [recoveryScan_filter]
      have hscan := @recoveryScan_eq
        (recoveryThreshold (result.probeTimeline.before e) (1 / 10)) e e 3
        (result.probeTimeline.since e) [] hlate (by decide) (by simp) (by simp)
      rw [List.nil_append, ProbeTimeline.firstRun_since _ (not_le.mp hpos)] at hscan
      refine hscan.trans ?_
      refine Option.map_congr fun b hb => ?_
      exact max_eq_right (sub_nonneg.mpr (hlate b (List.mem_of_find?_eq_some hb)))

/-- **The recovery figure** of a document is that of the stall, if and only if the two kinds
of run agree in its timeline. -/
theorem recovery_iff (he : result.stallEndRelative = some e) (s : ℚ) :
    result.probeRecovery = result.probeTimeline.recovery s e ↔
      result.probeTimeline.RunsAgree s e := by
  rw [probeRecovery_eq he]
  unfold ProbeTimeline.recovery ProbeTimeline.RunsAgree
  rw [← find?_eq_find?_iff ProbeTimeline.since_ordered]
  constructor
  · intro heq
    -- a bucket is known by its distance from the end
    generalize hp : List.find? _ _ = found at heq ⊢
    generalize hq : List.find? _ _ = found' at heq ⊢
    cases found with
    | none =>
      cases found' with
      | none => rfl
      | some c => cases heq
    | some b =>
      cases found' with
      | none => cases heq
      | some c =>
        have haxis : b.axis - e = c.axis - e := Option.some.inj heq
        have hb := (ProbeTimeline.mem_since.mp (List.mem_of_find?_eq_some hp)).1
        have hc := (ProbeTimeline.mem_since.mp (List.mem_of_find?_eq_some hq)).1
        rw [ProbeTimeline.eq_of_axis hb hc (by linarith)]
  · intro heq
    rw [heq]

/-- A bucket of a second. -/
def second (t : ℤ) (served : ℕ) : ProbeBucket := ⟨t * 1000, served, served, 0, 0, 0, 0⟩

/-- A storm whose stall ends after 5 s, and what is served from then on. -/
def stalledStorm (later : ℕ) : StormResult where
  stall         := { StallRecord.new "debug-sleep" with started := some 3, ended := some 5 }
  originWall    := 0
  probeTimeline :=
    { buckets := [second 0 1000, second 1 1000, second 2 1000, second 3 50, second 4 20,
        second 5 later, second 6 later, second 7 later]
      ordered := List.pairwise_map.mp
        (by decide : [0, 1000, 2000, 3000, 4000, 5000, 6000, 7000].Pairwise fun t u : ℤ => t < u)
      seconds := by
        simp only [second, List.forall_mem_cons]
        decide }

/-- The probe is back at 95 % at once. -/
theorem stalledStorm_recovers :
    (stalledStorm 950).stallEndRelative = some 5 ∧
      (stalledStorm 950).probeTimeline.RunsAgree 3 5 ∧
      (stalledStorm 950).probeRecovery = (stalledStorm 950).probeTimeline.recovery 3 5 := by
  have hend : (stalledStorm 950).stallEndRelative = some 5 := by decide +kernel
  have hagree : (stalledStorm 950).probeTimeline.RunsAgree 3 5 := by decide +kernel
  exact ⟨hend, hagree, (recovery_iff hend 3).mpr hagree⟩

/-- At 60 % it never is, yet the document says that it is at once: the seconds of the stall
have lowered the mean to 614. -/
theorem stall_lowers_mean :
    (stalledStorm 600).stallEndRelative = some 5 ∧
      (stalledStorm 600).probeTimeline.recovery 3 5 = none ∧
      (stalledStorm 600).probeRecovery = some 0 := by
  refine ⟨?_, ?_, ?_⟩ <;> decide +kernel

end StormResult

end Conductress.Stormgen
