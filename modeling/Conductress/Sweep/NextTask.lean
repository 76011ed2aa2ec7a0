import Conductress.Sweep.Planner
import Conductress.Lib.Neighbours
import Conductress.Lib.Transition
import Mathlib.Algebra.Order.Field.Rat
import Mathlib.Data.List.Dedup

/-!
# Which commit to measure next

`SweepPlanner.get_next_task` and the four rules it asks in turn: the tip, the
release landmarks, bisection of the segment that moved most, and backfill of the
largest gap. A planner that does not track history stops after the landmarks.

* `tasks_sound` — what a task says about the commit it names;
* `run_issued`, `run_length` — no run issues a commit twice;
* `allAttempted_iff` — when an empty answer means that nothing is left.
-/

namespace Conductress.Sweep

open Lib

inductive TaskPriority where
  | nightly
  | landmark
  | bisection
  | backfill
  deriving DecidableEq, Repr

/-- A range between two measured commits. -/
structure Segment where
  leftCommit  : String
  rightCommit : String
  leftValue   : Rat
  rightValue  : Rat
  /-- The commits strictly between the two. -/
  commitCount : Nat
  leftCv      : Rat
  rightCv     : Rat
  leftReps    : Nat
  rightReps   : Nat
  deriving DecidableEq

/-- `abs(x)`. -/
def absRat (x : Rat) : Rat := if x < 0 then -x else x

namespace Segment

variable (seg : Segment)

/-- The relative change from left to right. -/
def delta : Rat :=
  if seg.leftValue = 0 then 0 else (seg.rightValue - seg.leftValue) / seg.leftValue

def absDelta : Rat := absRat seg.delta

def noiseFloor : Rat := (if seg.leftCv < seg.rightCv then seg.rightCv else seg.leftCv) / 100

/-- The square of a standard error, so that no root is taken. -/
def errorSq (value cv : Rat) (reps : Nat) : Rat := (value * (cv / 100)) ^ 2 / reps

/-- The critical value for the degrees of freedom. -/
def tCrit (df : Rat) : Rat :=
  if df ≤ 3 then 318 / 100
  else if df ≤ 5 then 278 / 100
  else if df ≤ 7 then 245 / 100
  else if df ≤ 10 then 223 / 100
  else if df ≤ 20 then 209 / 100
  else 2

/-- `is_significant`: the comparison of the statistic with its critical value,
both squared. -/
def isSignificant : Bool :=
  if seg.leftReps < 2 ∨ seg.rightReps < 2 then
    decide ((if seg.noiseFloor < 2 / 100 then 2 / 100 else seg.noiseFloor) ≤ seg.absDelta)
  else
    let left := errorSq seg.leftValue seg.leftCv seg.leftReps
    let right := errorSq seg.rightValue seg.rightCv seg.rightReps
    if left + right = 0 then decide (2 / 100 ≤ seg.absDelta)
    else
      let df : Rat :=
        if left = 0 ∨ right = 0 then ((max seg.leftReps seg.rightReps : Nat) : Rat) - 1
        else (left + right) ^ 2 /
          (left ^ 2 / ((seg.leftReps : Rat) - 1) + right ^ 2 / ((seg.rightReps : Rat) - 1))
      decide (tCrit df ^ 2 * (left + right) < (seg.rightValue - seg.leftValue) ^ 2)

end Segment

/-- A stretch of the sweep ref between two measured commits, or before the
first (`left` is `none`), or after the last. -/
structure Gap where
  left  : Option String
  right : Option String
  /-- How many commits the planner counts in it. -/
  size  : Nat
  deriving DecidableEq

/-- The explanation of a task, before it is written out. -/
inductive Reason where
  | newHead
  | release (label : String)
  | bisecting (segment : Segment)
  | gap (gap : Gap)
  | skeleton
  | skeletonLast
  deriving DecidableEq

structure SweepTask where
  commit   : String
  date     : String
  priority : TaskPriority
  reason   : Reason
  deriving DecidableEq

namespace SweepState

variable (s : SweepState)

/-! ## Positions -/

/-- `merge_commits[i]`. -/
def commitAt (i : Nat) : String := s.mergeCommits.getD i ""

def attempted (commit : String) : Bool := (s.points.find? commit).isSome

/-- `range(start, stop)`. -/
def positions (start stop : Nat) : List Nat := List.range' start (stop - start)

/-- `_commits_between`: build failures are not counted. -/
def commitsBetween (left right : String) : Nat :=
  match s.commitIndex left, s.commitIndex right with
  | some l, some r => ((positions (l + 1) r).filter fun i =>
      (s.points.find? (s.commitAt i)).all fun p => decide (p.status ≠ .buildFailed)).length
  | _, _ => 0

/-- `_count_unattempted_in_range`. -/
def countUnattemptedInRange (start stop : Nat) : Nat :=
  ((positions start stop).filter fun i => !s.attempted (s.commitAt i)).length

/-- Where the candidates of a gap begin: the empty text is no commit. -/
def gapStart (left : Option String) : Nat :=
  match left with
  | none => 0
  | some left => if left = "" then 0 else s.indexOf left + 1

def gapStop (right : Option String) : Nat :=
  match right with
  | none => s.mergeCommits.length
  | some right => if right = "" then s.mergeCommits.length else s.indexOf right

/-- The places of a gap nothing was attempted at. -/
def candidates (left right : Option String) : List Nat :=
  (positions (s.gapStart left) (s.gapStop right)).filter fun i => !s.attempted (s.commitAt i)

/-- `_find_midpoint_by_index`. -/
def findMidpointByIndex (left right : Option String) : Option String :=
  let places := s.candidates left right
  places[places.length / 2]?.map s.commitAt

/-! ## Segments -/

/-- Neighbours in the list of completed points. -/
def neighbours : List (BenchmarkPoint × BenchmarkPoint) := Lib.neighbours s.orderedCompleted

def segmentOf (left right : BenchmarkPoint) : Segment where
  leftCommit  := left.commit
  rightCommit := right.commit
  leftValue   := left.value.getD 0
  rightValue  := right.value.getD 0
  commitCount := s.commitsBetween left.commit right.commit
  leftCv      := left.cv.getD 0
  rightCv     := right.cv.getD 0
  leftReps    := left.reps
  rightReps   := right.reps

/-- `get_segments`: the largest change first. -/
def getSegments : List Segment :=
  ((s.neighbours.map fun pair => s.segmentOf pair.1 pair.2).filter
    fun seg => decide (0 < seg.commitCount)).mergeSort fun a b => decide (b.absDelta ≤ a.absDelta)

def getUnresolvedSegments : List Segment :=
  s.getSegments.filter fun seg =>
    decide (s.threshold ≤ seg.absDelta) && seg.isSignificant && decide (0 < seg.commitCount)

/-! ## The rules -/

/-- `_check_landmarks`. -/
def checkLandmarks : Option SweepTask :=
  (s.landmarks.find? fun landmark =>
    !s.attempted landmark.commit && (s.commitIndex landmark.commit).isSome).map fun landmark =>
      { commit := landmark.commit, date := landmark.date, priority := .landmark,
        reason := .release landmark.label }

/-- `_check_bisection`. -/
def checkBisection : Option SweepTask := do
  let segment ← s.getUnresolvedSegments.head?
  let midpoint ← s.findMidpointByIndex (some segment.leftCommit) (some segment.rightCommit)
  return { commit := midpoint, date := s.dateOf midpoint, priority := .bisection,
           reason := .bisecting segment }

/-- The places of the skeleton pass: evenly spaced, and the last one. -/
def skeletonStep : Nat := max 1 (s.mergeCommits.length / 16)

/-- `range(0, total, step)`. -/
def skeletonPlaces : List Nat :=
  (List.range s.mergeCommits.length).filter fun i => decide (i % s.skeletonStep = 0)

/-- `_skeleton_task`. -/
def skeletonTask : Option SweepTask :=
  match (s.skeletonPlaces.map s.commitAt).find? fun commit => !s.attempted commit with
  | some commit =>
    some { commit, date := s.dateOf commit, priority := .backfill, reason := .skeleton }
  | none =>
    s.mergeCommits.getLast?.bind fun last =>
      if s.attempted last then none
      else some { commit := last, date := s.dateOf last, priority := .backfill,
                  reason := .skeletonLast }

/-- The gaps `_check_backfill` compares, in its order. -/
def gaps : List Gap :=
  (s.neighbours.map fun pair =>
    ⟨some pair.1.commit, some pair.2.commit, s.commitsBetween pair.1.commit pair.2.commit⟩) ++
  (match s.orderedCompleted.head?, s.orderedCompleted.getLast? with
    | some first, some last =>
      [⟨none, some first.commit, s.countUnattemptedInRange 0 (s.indexOf first.commit)⟩,
        ⟨some last.commit, none, s.countUnattemptedInRange (s.indexOf last.commit + 1)
          s.mergeCommits.length⟩]
    | _, _ => [])

/-- The first of the largest gaps, if any is larger than none at all. -/
def largestGap : Gap :=
  s.gaps.foldl (fun best gap => if best.size < gap.size then gap else best) ⟨none, none, 0⟩

/-- `_check_backfill`. -/
def checkBackfill : Option SweepTask :=
  if s.mergeCommits = [] then none
  else if s.orderedCompleted.length < 2 then s.skeletonTask
  else if s.largestGap.size = 0 then none
  else (s.findMidpointByIndex s.largestGap.left s.largestGap.right).map fun midpoint =>
    { commit := midpoint, date := s.dateOf midpoint, priority := .backfill,
      reason := .gap s.largestGap }

end SweepState

structure SweepPlanner where
  state              : SweepState
  tracksHistory      : Bool
  tipIntervalSeconds : Rat

namespace SweepPlanner

variable (planner : SweepPlanner) (now : Rat) (currentHead : Option String)

/-- `last_at` is there and the interval since it has not passed. -/
def tipTooSoon : Bool :=
  decide (0 < planner.tipIntervalSeconds) &&
    planner.state.lastBenchmarkedHeadAt.any fun lastAt =>
      decide (now - lastAt < planner.tipIntervalSeconds)

/-- `tip_due`, at the time `now` of the planner's clock. -/
def tipDue : Bool :=
  match currentHead with
  | none => false
  | some head =>
    decide (some head ≠ planner.state.lastBenchmarkedHead) && !planner.state.attempted head &&
      !planner.tipTooSoon now

/-- `_check_nightly`. -/
def checkNightly : Option SweepTask :=
  if planner.tipDue now currentHead then
    currentHead.map fun head =>
      { commit := head, date := planner.state.dateOf head, priority := .nightly,
        reason := .newHead }
  else none

/-- `get_next_task`. -/
def getNextTask : Option SweepTask :=
  (planner.checkNightly now currentHead).or <| planner.state.checkLandmarks.or <|
    if planner.tracksHistory then planner.state.checkBisection.or planner.state.checkBackfill
    else none

end SweepPlanner

namespace SweepState

variable {s : SweepState}

/-! ## Positions and candidates -/

theorem mem_positions {start stop i : Nat} : i ∈ positions start stop ↔ start ≤ i ∧ i < stop := by
  rw [positions, List.mem_range'_1]
  omega

theorem commitIndex_getElem? {commit : String} {i : Nat} (h : s.commitIndex commit = some i) :
    s.mergeCommits[i]? = some commit := by
  obtain ⟨⟨c, j⟩, hfind, hj⟩ := Option.map_eq_some_iff.mp h
  have hc : c = commit := by simpa using List.find?_some hfind
  have hmem := List.mem_reverse.mp (List.mem_of_find?_eq_some hfind)
  rw [List.mem_zipIdx_iff_getElem?] at hmem
  rw [← hj, ← hc]
  exact hmem

/-- Where every commit is listed once the index is its place. -/
theorem commitIndex_eq_some (hnodup : s.mergeCommits.Nodup) {commit : String} {i : Nat} :
    s.commitIndex commit = some i ↔ s.mergeCommits[i]? = some commit := by
  constructor
  · exact commitIndex_getElem?
  · intro h
    obtain ⟨j, hj⟩ := Option.isSome_iff_exists.mp (commitIndex_isSome.mpr (List.mem_of_getElem? h))
    have hj' := commitIndex_getElem? hj
    obtain ⟨hi, hic⟩ := List.getElem?_eq_some_iff.mp h
    obtain ⟨hjl, hjc⟩ := List.getElem?_eq_some_iff.mp hj'
    have : i = j := (hnodup.getElem_inj_iff).mp (hic.trans hjc.symm)
    rw [this]
    exact hj

theorem commitAt_eq_getElem {i : Nat} (h : i < s.mergeCommits.length) :
    s.commitAt i = s.mergeCommits[i] := by
  rw [commitAt, List.getD_eq_getElem?_getD, List.getElem?_eq_getElem h, Option.getD_some]

theorem commitAt_mem {i : Nat} (h : i < s.mergeCommits.length) : s.commitAt i ∈ s.mergeCommits := by
  rw [commitAt_eq_getElem h]
  exact List.getElem_mem h

theorem commitIndex_commitAt (hnodup : s.mergeCommits.Nodup) {i : Nat}
    (h : i < s.mergeCommits.length) : s.commitIndex (s.commitAt i) = some i := by
  rw [commitIndex_eq_some hnodup, commitAt_eq_getElem h]
  exact List.getElem?_eq_getElem h

theorem commitAt_indexOf {commit : String} (h : commit ∈ s.mergeCommits) :
    s.commitAt (s.indexOf commit) = commit ∧ s.indexOf commit < s.mergeCommits.length := by
  obtain ⟨i, hi⟩ := Option.isSome_iff_exists.mp (commitIndex_isSome.mpr h)
  have hget := commitIndex_getElem? hi
  obtain ⟨hlt, -⟩ := List.getElem?_eq_some_iff.mp hget
  rw [indexOf, hi, Option.getD_some, commitAt, List.getD_eq_getElem?_getD, hget]
  exact ⟨rfl, hlt⟩

theorem mem_candidates {left right : Option String} {i : Nat} :
    i ∈ s.candidates left right ↔
      (s.gapStart left ≤ i ∧ i < s.gapStop right) ∧ s.attempted (s.commitAt i) = false := by
  rw [candidates, List.mem_filter, mem_positions, Bool.not_eq_true']

/-- The midpoint is a candidate. -/
theorem exists_of_midpoint {left right : Option String} {commit : String}
    (h : s.findMidpointByIndex left right = some commit) :
    ∃ i ∈ s.candidates left right, s.commitAt i = commit := by
  obtain ⟨i, hi, rfl⟩ := Option.map_eq_some_iff.mp h
  exact ⟨i, List.mem_of_getElem? hi, rfl⟩

theorem midpoint_isSome {left right : Option String} {i : Nat}
    (h : i ∈ s.candidates left right) : (s.findMidpointByIndex left right).isSome := by
  have hpos := List.length_pos_of_mem h
  rw [findMidpointByIndex, Option.isSome_map, List.getElem?_eq_getElem (by omega)]
  rfl

end SweepState

namespace SweepPlanner

open SweepState

variable {planner : SweepPlanner} {now : Rat} {currentHead : Option String} {task : SweepTask}

/-- Every answer comes from one of the four rules. -/
theorem getNextTask_cases (h : planner.getNextTask now currentHead = some task) :
    planner.checkNightly now currentHead = some task ∨
      planner.state.checkLandmarks = some task ∨
      planner.state.checkBisection = some task ∨ planner.state.checkBackfill = some task := by
  unfold getNextTask at h
  rcases Option.or_eq_some_iff.mp h with h | ⟨-, h⟩
  · exact .inl h
  · rcases Option.or_eq_some_iff.mp h with h | ⟨-, h⟩
    · exact .inr (.inl h)
    · split at h
      · rcases Option.or_eq_some_iff.mp h with h | ⟨-, h⟩
        · exact .inr (.inr (.inl h))
        · exact .inr (.inr (.inr h))
      · cases h

theorem checkNightly_eq_some (h : planner.checkNightly now currentHead = some task) :
    currentHead = some task.commit ∧ planner.tipDue now currentHead = true ∧
      task.priority = .nightly ∧ task.reason = .newHead := by
  unfold checkNightly at h
  split at h
  · next hdue =>
    obtain ⟨head, rfl, rfl⟩ := Option.map_eq_some_iff.mp h
    exact ⟨rfl, hdue, rfl, rfl⟩
  · cases h

theorem tipDue_some {head : String} : planner.tipDue now (some head) = true ↔
    some head ≠ planner.state.lastBenchmarkedHead ∧ planner.state.attempted head = false ∧
      planner.tipTooSoon now = false := by
  simp [tipDue, and_assoc]

end SweepPlanner

namespace SweepState

variable {s : SweepState} {task : SweepTask}

theorem checkLandmarks_eq_some (h : s.checkLandmarks = some task) :
    s.attempted task.commit = false ∧ task.commit ∈ s.mergeCommits ∧ task.priority = .landmark ∧
      ∃ label, task.reason = .release label := by
  obtain ⟨landmark, hfind, rfl⟩ := Option.map_eq_some_iff.mp h
  have hfound := List.find?_some hfind
  rw [Bool.and_eq_true, Bool.not_eq_true', commitIndex_isSome] at hfound
  exact ⟨hfound.1, hfound.2, rfl, landmark.label, rfl⟩

theorem checkBisection_eq_some (h : s.checkBisection = some task) :
    ∃ segment, s.getUnresolvedSegments.head? = some segment ∧
      s.findMidpointByIndex (some segment.leftCommit) (some segment.rightCommit) =
        some task.commit ∧
      task.priority = .bisection ∧ task.reason = .bisecting segment := by
  unfold checkBisection at h
  obtain ⟨segment, hsegment, h⟩ := Option.bind_eq_some_iff.mp h
  obtain ⟨midpoint, hmidpoint, h⟩ := Option.bind_eq_some_iff.mp h
  cases h
  exact ⟨segment, hsegment, hmidpoint, rfl, rfl⟩

theorem skeletonTask_eq_some (h : s.skeletonTask = some task) :
    s.attempted task.commit = false ∧ task.commit ∈ s.mergeCommits ∧
      (task.reason = .skeleton ∨ task.reason = .skeletonLast) ∧ task.priority = .backfill := by
  unfold skeletonTask at h
  split at h
  · next commit hfind =>
    cases h
    have hopen := List.find?_some hfind
    obtain ⟨i, hi, rfl⟩ := List.mem_map.mp (List.mem_of_find?_eq_some hfind)
    rw [skeletonPlaces, List.mem_filter, List.mem_range] at hi
    exact ⟨by simpa using hopen, commitAt_mem hi.1, .inl rfl, rfl⟩
  · obtain ⟨last, hlast, h⟩ := Option.bind_eq_some_iff.mp h
    split at h
    · cases h
    · next hopen =>
      cases h
      exact ⟨by simpa using hopen, List.mem_of_getLast? hlast, .inr rfl, rfl⟩

theorem checkBackfill_eq_some (h : s.checkBackfill = some task) :
    (s.orderedCompleted.length < 2 ∧ s.skeletonTask = some task) ∨
      (2 ≤ s.orderedCompleted.length ∧ s.largestGap.size ≠ 0 ∧
        s.findMidpointByIndex s.largestGap.left s.largestGap.right = some task.commit ∧
        task.priority = .backfill ∧ task.reason = .gap s.largestGap) := by
  unfold checkBackfill at h
  split_ifs at h with hempty hfew hzero
  · exact .inl ⟨hfew, h⟩
  · obtain ⟨midpoint, hmidpoint, rfl⟩ := Option.map_eq_some_iff.mp h
    exact .inr ⟨by omega, hzero, hmidpoint, rfl, rfl⟩

/-! ## The completed points in order -/

theorem indexOf_inj {c d : String} (hc : c ∈ s.mergeCommits) (hd : d ∈ s.mergeCommits)
    (h : s.indexOf c = s.indexOf d) : c = d := by
  rw [← (commitAt_indexOf hc).1, ← (commitAt_indexOf hd).1, h]

theorem indexOf_commitAt (hnodup : s.mergeCommits.Nodup) {i : Nat}
    (h : i < s.mergeCommits.length) : s.indexOf (s.commitAt i) = i := by
  rw [indexOf, commitIndex_commitAt hnodup h, Option.getD_some]

/-- No two completed points share a place. -/
theorem orderedCompleted_sorted :
    s.orderedCompleted.Pairwise fun p q => s.indexOf p.commit < s.indexOf q.commit := by
  have hle : s.orderedCompleted.Pairwise fun p q => s.indexOf p.commit ≤ s.indexOf q.commit := by
    have hpairwise : s.orderedCompleted.Pairwise fun p q =>
        decide (s.indexOf p.commit ≤ s.indexOf q.commit) = true := by
      refine List.pairwise_mergeSort ?_ ?_ _
      · intro a b c hab hbc
        simp only [decide_eq_true_eq] at *
        omega
      · intro a b
        simp only [Bool.or_eq_true, decide_eq_true_eq]
        omega
    exact hpairwise.imp fun h => of_decide_eq_true h
  have hne : s.orderedCompleted.Pairwise fun p q => p.commit ≠ q.commit := by
    rw [orderedCompleted, (List.mergeSort_perm _ _).pairwise_iff fun h => Ne.symm h]
    exact (List.pairwise_map.mp s.points.nodup).filter _
  refine (hle.and hne).imp_of_mem ?_
  intro p q hp hq h
  have hplaces : s.indexOf p.commit ≠ s.indexOf q.commit := fun heq =>
    h.2 (indexOf_inj (mem_orderedCompleted.mp hp).2.2 (mem_orderedCompleted.mp hq).2.2 heq)
  exact lt_of_le_of_ne h.1 hplaces

theorem neighbours_adjacent {p q x : BenchmarkPoint} (h : (p, q) ∈ s.neighbours)
    (hx : x ∈ s.orderedCompleted) :
    ¬ (s.indexOf p.commit < s.indexOf x.commit ∧ s.indexOf x.commit < s.indexOf q.commit) :=
  not_between_neighbours (fun p => s.indexOf p.commit) orderedCompleted_sorted h hx

theorem neighbours_mem {p q : BenchmarkPoint} (h : (p, q) ∈ s.neighbours) :
    p ∈ s.orderedCompleted ∧ q ∈ s.orderedCompleted :=
  mem_of_mem_neighbours h

/-! ## Inside a gap -/

/-- Each commit is listed once, and none is the empty text. -/
structure Listed (s : SweepState) : Prop where
  nodup : s.mergeCommits.Nodup
  named : "" ∉ s.mergeCommits

theorem gapStart_some (hlisted : s.Listed) {left : String} (hleft : left ∈ s.mergeCommits) :
    s.gapStart (some left) = s.indexOf left + 1 := by
  refine if_neg ?_
  rintro rfl
  exact hlisted.named hleft

theorem gapStop_some (hlisted : s.Listed) {right : String} (hright : right ∈ s.mergeCommits) :
    s.gapStop (some right) = s.indexOf right := by
  refine if_neg ?_
  rintro rfl
  exact hlisted.named hright

/-- The ends of a gap are commits of the sweep ref. -/
def EndsListed (s : SweepState) (left right : Option String) : Prop :=
  (∀ l ∈ left, l ∈ s.mergeCommits) ∧ ∀ r ∈ right, r ∈ s.mergeCommits

theorem gapStop_le {left right : Option String} (hends : s.EndsListed left right) :
    s.gapStop right ≤ s.mergeCommits.length := by
  unfold gapStop
  split
  · exact Nat.le_refl _
  · next r =>
    split
    · exact Nat.le_refl _
    · exact Nat.le_of_lt (commitAt_indexOf (hends.2 r rfl)).2

/-- A midpoint is a commit of the sweep ref nothing was attempted at. -/
theorem midpoint_unattempted {left right : Option String} {commit : String}
    (h : s.findMidpointByIndex left right = some commit) (hends : s.EndsListed left right) :
    s.attempted commit = false ∧ commit ∈ s.mergeCommits := by
  obtain ⟨i, hi, rfl⟩ := exists_of_midpoint h
  obtain ⟨⟨-, hstop⟩, hopen⟩ := mem_candidates.mp hi
  exact ⟨hopen, commitAt_mem (lt_of_lt_of_le hstop (gapStop_le hends))⟩

/-- It lies strictly between the ends. -/
theorem midpoint_inside (hlisted : s.Listed) {left right : Option String} {commit : String}
    (h : s.findMidpointByIndex left right = some commit) (hends : s.EndsListed left right) :
    (∀ l ∈ left, s.indexOf l < s.indexOf commit) ∧
      ∀ r ∈ right, s.indexOf commit < s.indexOf r := by
  obtain ⟨i, hi, rfl⟩ := exists_of_midpoint h
  obtain ⟨⟨hstart, hstop⟩, -⟩ := mem_candidates.mp hi
  rw [indexOf_commitAt hlisted.nodup (lt_of_lt_of_le hstop (gapStop_le hends))]
  constructor
  · rintro l rfl
    rw [gapStart_some hlisted (hends.1 l rfl)] at hstart
    omega
  · rintro r rfl
    rwa [gapStop_some hlisted (hends.2 r rfl)] at hstop

/-! ## Segments and gaps -/

theorem mem_getSegments {seg : Segment} : seg ∈ s.getSegments ↔
    (∃ pair ∈ s.neighbours, s.segmentOf pair.1 pair.2 = seg) ∧ 0 < seg.commitCount := by
  rw [getSegments, List.mem_mergeSort, List.mem_filter, List.mem_map, decide_eq_true_eq]

/-- The largest change stands first. -/
theorem getSegments_sorted : s.getSegments.Pairwise fun a b => b.absDelta ≤ a.absDelta := by
  have hpairwise : s.getSegments.Pairwise fun a b => decide (b.absDelta ≤ a.absDelta) = true := by
    refine List.pairwise_mergeSort ?_ ?_ _
    · intro a b c hab hbc
      simp only [decide_eq_true_eq] at *
      exact le_trans hbc hab
    · intro a b
      simp only [Bool.or_eq_true, decide_eq_true_eq]
      exact le_total _ _
  exact hpairwise.imp fun h => of_decide_eq_true h

/-- The segment bisected is the one that moved most. -/
theorem head_unresolved {seg : Segment} (h : s.getUnresolvedSegments.head? = some seg) :
    seg ∈ s.getUnresolvedSegments ∧
      ∀ other ∈ s.getUnresolvedSegments, other.absDelta ≤ seg.absDelta := by
  have hunresolved := s.getSegments_sorted.filter fun seg =>
    decide (s.threshold ≤ seg.absDelta) && seg.isSignificant && decide (0 < seg.commitCount)
  change s.getUnresolvedSegments.Pairwise _ at hunresolved
  obtain ⟨rest, hrest⟩ := List.head?_eq_some_iff.mp h
  rw [hrest] at hunresolved ⊢
  refine ⟨List.mem_cons_self, ?_⟩
  intro other hother
  rcases List.mem_cons.mp hother with rfl | hother
  · exact le_refl _
  · exact (List.pairwise_cons.mp hunresolved).1 other hother

theorem neighbours_ends {p q : BenchmarkPoint} (h : (p, q) ∈ s.neighbours) :
    s.EndsListed (some p.commit) (some q.commit) := by
  obtain ⟨hp, hq⟩ := neighbours_mem h
  constructor
  · rintro l ⟨rfl⟩
    exact (mem_orderedCompleted.mp hp).2.2
  · rintro r ⟨rfl⟩
    exact (mem_orderedCompleted.mp hq).2.2

theorem gaps_ends {gap : Gap} (h : gap ∈ s.gaps) : s.EndsListed gap.left gap.right := by
  rw [gaps, List.mem_append] at h
  rcases h with h | h
  · obtain ⟨pair, hpair, rfl⟩ := List.mem_map.mp h
    exact neighbours_ends hpair
  · split at h
    · next first last hfirst hlast =>
      have hfirst' := (mem_orderedCompleted.mp (List.mem_of_head? hfirst)).2.2
      have hlast' := (mem_orderedCompleted.mp (List.mem_of_getLast? hlast)).2.2
      simp only [List.mem_cons, List.not_mem_nil, or_false] at h
      rcases h with rfl | rfl
      · refine ⟨by simp, ?_⟩
        rintro r ⟨rfl⟩
        exact hfirst'
      · refine ⟨?_, by simp⟩
        rintro l ⟨rfl⟩
        exact hlast'
    · cases h

/-- The loop keeps the first of the largest. -/
theorem foldl_largest (gaps : List Gap) (start : Gap) :
    let best := gaps.foldl (fun best gap => if best.size < gap.size then gap else best) start
    (best = start ∨ best ∈ gaps) ∧ start.size ≤ best.size ∧ ∀ gap ∈ gaps, gap.size ≤ best.size := by
  induction gaps generalizing start with
  | nil => exact ⟨.inl rfl, Nat.le_refl _, by simp⟩
  | cons gap gaps ih =>
    obtain ⟨hfrom, hstart, hall⟩ := ih (if start.size < gap.size then gap else start)
    have hnext : start.size ≤ (if start.size < gap.size then gap else start).size ∧
        gap.size ≤ (if start.size < gap.size then gap else start).size := by
      split <;> omega
    refine ⟨?_, hnext.1.trans hstart, ?_⟩
    · rw [List.foldl_cons]
      rcases hfrom with h | h
      · rw [h]
        split
        · exact .inr List.mem_cons_self
        · exact .inl rfl
      · exact .inr (List.mem_cons_of_mem _ h)
    · intro other hother
      rcases List.mem_cons.mp hother with rfl | hother
      · exact hnext.2.trans hstart
      · exact hall other hother

theorem largestGap_mem (h : s.largestGap.size ≠ 0) : s.largestGap ∈ s.gaps := by
  rcases (foldl_largest s.gaps ⟨none, none, 0⟩).1 with hstart | hmem
  · exact absurd (congrArg Gap.size hstart) h
  · exact hmem

theorem size_le_largestGap {gap : Gap} (h : gap ∈ s.gaps) : gap.size ≤ s.largestGap.size :=
  (foldl_largest s.gaps ⟨none, none, 0⟩).2.2 gap h

end SweepState

/-! ## Runs -/

/-- What became of an issued task. -/
inductive Outcome where
  | measured (value cv : Rat) (reps : Nat) (pr : Option Int) (prTitle sample : Option String)
  | buildFailed

/-- The commits of the sweep ref as `git log` lists them: each once. -/
structure MergeHistory where
  commits : List String
  nodup   : commits.Nodup
  named   : "" ∉ commits

namespace SweepState

def record (s : SweepState) (commit : String) : Outcome → SweepState
  | .measured value cv reps pr prTitle sample =>
    s.recordResult commit value cv reps pr prTitle sample
  | .buildFailed => s.recordBuildFailure commit

/-- The states the two writers lead to, from one without points. -/
inductive Reachable (history : MergeHistory) : SweepState → Prop
  | start {s : SweepState} : s.mergeCommits = history.commits → s.points = .empty →
      Reachable history s
  | record {s : SweepState} (commit : String) (outcome : Outcome) : Reachable history s →
      Reachable history (s.record commit outcome)

/-- Every point is measured or failed: none is left pending. -/
def Settled (s : SweepState) : Prop :=
  ∀ p ∈ s.points, p.isComplete = true ∨ p.status = .buildFailed

variable {s : SweepState} {history : MergeHistory}

theorem writes_record (commit : String) (outcome : Outcome) :
    Writes commit s (s.record commit outcome) := by
  cases outcome with
  | measured => exact writes_recordResult
  | buildFailed => exact writes_recordBuildFailure

/-- Recording an outcome leaves a settled point. -/
theorem record_settled (commit : String) (outcome : Outcome) :
    ∃ p, (s.record commit outcome).points.find? commit = some p ∧
      (p.isComplete = true ∨ p.status = .buildFailed) := by
  cases outcome with
  | measured value cv reps pr prTitle sample =>
    show ∃ p, (s.recordResult commit value cv reps pr prTitle sample).points.find? commit = some p ∧ _
    unfold recordResult
    split
    · refine ⟨s.newPoint commit value cv reps pr prTitle sample, ?_, .inl rfl⟩
      exact (Table.find?_put _ _ _).trans (if_pos rfl)
    · next p hp =>
      refine ⟨rescore value cv reps pr prTitle sample p, ?_, .inl rfl⟩
      refine (find?_setPoint _ ?_ commit).trans ?_
      rw [if_pos rfl, hp, Option.map_some]
  | buildFailed =>
    show ∃ p, (s.recordBuildFailure commit).points.find? commit = some p ∧ _
    unfold recordBuildFailure
    split
    · refine ⟨s.failedPoint commit, ?_, .inr rfl⟩
      exact (Table.find?_put _ _ _).trans (if_pos rfl)
    · next p hp =>
      refine ⟨{ p with status := .buildFailed }, ?_, .inr rfl⟩
      refine (find?_setPoint _ ?_ commit).trans ?_
      rw [if_pos rfl, hp, Option.map_some]

/-- After a record its commit has been attempted, and no other one changes. -/
theorem attempted_record (commit other : String) (outcome : Outcome) :
    (s.record commit outcome).attempted other = (decide (other = commit) || s.attempted other) := by
  by_cases hother : other = commit
  · obtain ⟨p, hp, -⟩ := record_settled (s := s) commit outcome
    rw [attempted, hother, hp]
    simp
  · rw [attempted, (writes_record commit outcome).others other hother]
    simp [hother, attempted]

theorem Settled.record (h : s.Settled) (commit : String) (outcome : Outcome) :
    (s.record commit outcome).Settled := by
  intro p hp
  have hfind := Table.find?_key hp
  by_cases hcommit : p.commit = commit
  · obtain ⟨p', hp', hsettled⟩ := record_settled (s := s) commit outcome
    rw [hcommit, hp'] at hfind
    cases hfind
    exact hsettled
  · rw [(writes_record commit outcome).others _ hcommit] at hfind
    exact h p (Table.find?_eq_some_iff.mp hfind).1

theorem Reachable.mergeCommits (h : Reachable history s) : s.mergeCommits = history.commits := by
  induction h with
  | start hcommits _ => exact hcommits
  | record commit outcome _ ih => rw [(writes_record commit outcome).mergeCommits, ih]

theorem Reachable.listed (h : Reachable history s) : s.Listed where
  nodup := h.mergeCommits ▸ history.nodup
  named := h.mergeCommits ▸ history.named

theorem Reachable.settled (h : Reachable history s) : s.Settled := by
  induction h with
  | @start s _ hempty =>
    intro p hp
    rw [hempty] at hp
    exact absurd hp (Table.not_mem_empty p)
  | record commit outcome _ ih => exact ih.record commit outcome

end SweepState

/-- One call of `get_next_task` and what became of the task it issued. -/
structure Call where
  now     : Rat
  head    : Option String
  task    : SweepTask
  outcome : Outcome

/-- A planner over the state issues a task, and its outcome is recorded. -/
def Issue (tracksHistory : Bool) (tipInterval : Rat) (s : SweepState) (call : Call)
    (t : SweepState) : Prop :=
  SweepPlanner.getNextTask ⟨s, tracksHistory, tipInterval⟩ call.now call.head = some call.task ∧
    t = s.record call.task.commit call.outcome

/-! ## What an issued task says -/

/-- The commit of a task has no point; a bisection halves the unresolved
segment that moved most, a backfill the largest gap. -/
structure TaskSound (s : SweepState) (task : SweepTask) : Prop where
  unattempted : s.attempted task.commit = false
  bisection   : task.priority = .bisection → ∃ p q, (p, q) ∈ s.neighbours ∧
    s.segmentOf p q ∈ s.getUnresolvedSegments ∧
    (∀ other ∈ s.getUnresolvedSegments, other.absDelta ≤ (s.segmentOf p q).absDelta) ∧
    task.commit ∈ s.mergeCommits ∧ s.indexOf p.commit < s.indexOf task.commit ∧
    s.indexOf task.commit < s.indexOf q.commit
  backfill    : ∀ gap, task.reason = .gap gap → gap ∈ s.gaps ∧
    (∀ other ∈ s.gaps, other.size ≤ gap.size) ∧ task.commit ∈ s.mergeCommits ∧
    (∀ l ∈ gap.left, s.indexOf l < s.indexOf task.commit) ∧
    ∀ r ∈ gap.right, s.indexOf task.commit < s.indexOf r

section Sound

open SweepState

variable {planner : SweepPlanner} {now : Rat} {head : Option String} {task : SweepTask}

/-- A task of the other rules names a commit without a point, and no range. -/
theorem TaskSound.of_plain {s : SweepState} (hopen : s.attempted task.commit = false)
    (hpriority : task.priority ≠ .bisection) (hreason : ∀ gap, task.reason ≠ .gap gap) :
    TaskSound s task where
  unattempted := hopen
  bisection h := absurd h hpriority
  backfill gap h := absurd h (hreason gap)

theorem checkBisection_sound {s : SweepState} (hlisted : s.Listed)
    (h : s.checkBisection = some task) : TaskSound s task := by
  obtain ⟨segment, hhead, hmidpoint, hpriority, hreason⟩ := checkBisection_eq_some h
  obtain ⟨hmem, hlargest⟩ := head_unresolved hhead
  obtain ⟨⟨⟨p, q⟩, hpair, rfl⟩, -⟩ := mem_getSegments.mp (List.mem_filter.mp hmem).1
  have hends : s.EndsListed (some (s.segmentOf p q).leftCommit)
      (some (s.segmentOf p q).rightCommit) := neighbours_ends hpair
  obtain ⟨hopen, hcommit⟩ := midpoint_unattempted hmidpoint hends
  have hinside := midpoint_inside hlisted hmidpoint hends
  refine ⟨hopen, ?_, ?_⟩
  · intro _
    exact ⟨p, q, hpair, hmem, hlargest, hcommit, hinside.1 p.commit rfl, hinside.2 q.commit rfl⟩
  · intro gap hgap
    rw [hreason] at hgap
    cases hgap

theorem checkBackfill_sound {s : SweepState} (hlisted : s.Listed)
    (h : s.checkBackfill = some task) : TaskSound s task := by
  rcases checkBackfill_eq_some h with ⟨-, h⟩ | ⟨-, hsize, hmidpoint, hpriority, hreason⟩
  · obtain ⟨hopen, -, hreason, hpriority⟩ := skeletonTask_eq_some h
    refine .of_plain hopen (by simp [hpriority]) ?_
    intro gap
    rcases hreason with hreason | hreason <;> simp [hreason]
  · have hmem := largestGap_mem hsize
    obtain ⟨hopen, hcommit⟩ := midpoint_unattempted hmidpoint (gaps_ends hmem)
    refine ⟨hopen, ?_, ?_⟩
    · intro hbisection
      rw [hpriority] at hbisection
      cases hbisection
    · intro gap hgap
      rw [hreason] at hgap
      cases hgap
      exact ⟨hmem, fun other hother => size_le_largestGap hother, hcommit,
        midpoint_inside hlisted hmidpoint (gaps_ends hmem)⟩

/-- Whichever rule it comes from. -/
theorem getNextTask_sound (hlisted : planner.state.Listed)
    (h : planner.getNextTask now head = some task) : TaskSound planner.state task := by
  rcases SweepPlanner.getNextTask_cases h with h | h | h | h
  · obtain ⟨rfl, hdue, hpriority, hreason⟩ := SweepPlanner.checkNightly_eq_some h
    have hopen := (SweepPlanner.tipDue_some.mp hdue).2.1
    exact .of_plain hopen (by simp [hpriority]) (by simp [hreason])
  · obtain ⟨hopen, -, hpriority, label, hreason⟩ := checkLandmarks_eq_some h
    exact .of_plain hopen (by simp [hpriority]) (by simp [hreason])
  · exact checkBisection_sound hlisted h
  · exact checkBackfill_sound hlisted h

/-- A task is for a commit of the sweep ref or for the head it was asked about. -/
theorem getNextTask_mem (h : planner.getNextTask now head = some task) :
    task.commit ∈ planner.state.mergeCommits ∨ head = some task.commit := by
  rcases SweepPlanner.getNextTask_cases h with h | h | h | h
  · exact .inr (SweepPlanner.checkNightly_eq_some h).1
  · exact .inl (checkLandmarks_eq_some h).2.1
  · obtain ⟨segment, hhead, hmidpoint, -⟩ := checkBisection_eq_some h
    obtain ⟨⟨⟨p, q⟩, hpair, rfl⟩, -⟩ :=
      mem_getSegments.mp (List.mem_filter.mp (head_unresolved hhead).1).1
    exact .inl (midpoint_unattempted hmidpoint (neighbours_ends hpair)).2
  · rcases checkBackfill_eq_some h with ⟨-, h⟩ | ⟨-, hsize, hmidpoint, -⟩
    · exact .inl (skeletonTask_eq_some h).2.1
    · exact .inl (midpoint_unattempted hmidpoint (gaps_ends (largestGap_mem hsize))).2

end Sound

/-! ## Every commit is issued once -/

section Issued

open SweepState

variable {tracksHistory : Bool} {tipInterval : Rat} {s t : SweepState} {calls : List Call}

/-- The commits of a run, in the order they were issued. -/
def issued (calls : List Call) : List String := calls.map fun call => call.task.commit

/-- A run issues different commits, all of them without a point at its start
and with one at its end. -/
theorem run_issued {history : MergeHistory} (h : Lib.Run (Issue tracksHistory tipInterval) s calls t)
    (hs : Reachable history s) :
    Reachable history t ∧ (issued calls).Nodup ∧
      (∀ c, t.attempted c = (decide (c ∈ issued calls) || s.attempted c)) ∧
      ∀ c ∈ issued calls, c ∈ history.commits ∨ c ∈ calls.filterMap Call.head := by
  induction h with
  | refl => exact ⟨hs, List.nodup_nil, by simp [issued], by simp [issued]⟩
  | @snoc t u calls call _ hstep ih =>
    obtain ⟨hreach, hnodup, hattempted, hfrom⟩ := ih
    obtain ⟨hnext, rfl⟩ := hstep
    have hopen := (getNextTask_sound hreach.listed hnext).unattempted
    rw [show issued (calls ++ [call]) = issued calls ++ [call.task.commit] by simp [issued]]
    refine ⟨hreach.record _ _, ?_, ?_, ?_⟩
    · -- the commit had no point, and every commit issued before has one
      refine List.nodup_append.mpr ⟨hnodup, List.nodup_singleton _, ?_⟩
      intro c hc d hd heq
      rw [List.mem_singleton.mp hd] at heq
      have hdone := hattempted c
      rw [heq, hopen] at hdone
      simp [← heq, hc] at hdone
    · intro c
      rw [attempted_record, hattempted]
      simp only [List.mem_append, List.mem_singleton, Bool.decide_or, Bool.or_assoc]
      rw [Bool.or_left_comm]
    · intro c hc
      rcases List.mem_append.mp hc with hc | hc
      · rcases hfrom c hc with h | h
        · exact .inl h
        · exact .inr (by simp only [List.filterMap_append, List.mem_append]; exact .inl h)
      · rw [List.mem_singleton.mp hc]
        rcases getNextTask_mem hnext with h | h
        · exact .inl (hreach.mergeCommits ▸ h)
        · exact .inr (by simp [h])

/-- There are no more tasks than commits and heads to issue. -/
theorem run_length {history : MergeHistory} (h : Lib.Run (Issue tracksHistory tipInterval) s calls t)
    (hs : Reachable history s) :
    calls.length ≤ history.commits.length + (calls.filterMap Call.head).dedup.length := by
  obtain ⟨-, hnodup, -, hfrom⟩ := run_issued h hs
  have hsubset : issued calls ⊆ history.commits ++ (calls.filterMap Call.head).dedup := by
    intro c hc
    rw [List.mem_append, List.mem_dedup]
    exact hfrom c hc
  have hle := (List.subperm_of_subset hnodup hsubset).length_le
  rwa [issued, List.length_map, List.length_append] at hle

end Issued

/-- In every state the two writers lead to a task is sound, and a run over a
fixed history issues each commit once, so it ends. -/
theorem tasks_sound {history : MergeHistory} {s : SweepState}
    (h : SweepState.Reachable history s) (tracksHistory : Bool) (tipInterval : Rat) :
    (∀ now head task,
      SweepPlanner.getNextTask ⟨s, tracksHistory, tipInterval⟩ now head = some task →
        TaskSound s task) ∧
    ∀ calls t, Lib.Run (Issue tracksHistory tipInterval) s calls t →
      (issued calls).Nodup ∧
        calls.length ≤ history.commits.length + (calls.filterMap Call.head).dedup.length := by
  constructor
  · intro now head task hnext
    have hlisted : (⟨s, tracksHistory, tipInterval⟩ : SweepPlanner).state.Listed := h.listed
    exact getNextTask_sound hlisted hnext
  · intro calls t hrun
    exact ⟨(run_issued hrun h).2.1, run_length hrun h⟩

/-- Five commits, of which the first and the last are measured. -/
def endsMeasured : SweepState :=
  (({ SweepState.empty with mergeCommits := ["a", "b", "c", "d", "e"] } : SweepState).record "a"
    (.measured 100 0 1 none none none)).record "e" (.measured 200 0 1 none none none)

/-- The commit in the middle. -/
def middleTask : SweepTask :=
  ⟨"c", "", .bisection, .bisecting ⟨"a", "e", 100, 200, 3, 0, 0, 1, 1⟩⟩

/-- It scores as the first one; of the others one does not build and one is measured. -/
def bisectedCalls : List Call :=
  [⟨0, none, middleTask, .measured 100 0 1 none none none⟩,
    ⟨0, none, ⟨"d", "", .bisection, .bisecting ⟨"c", "e", 100, 200, 1, 0, 0, 1, 1⟩⟩, .buildFailed⟩,
    ⟨0, none, ⟨"b", "", .backfill, .gap ⟨some "a", some "c", 1⟩⟩,
      .measured 100 0 1 none none none⟩]

def recordCall (s : SweepState) (call : Call) : SweepState := s.record call.task.commit call.outcome

/-- The completed points, sorted by hand. -/
theorem SweepState.orderedCompleted_of_perm {s : SweepState} {ordered : List BenchmarkPoint}
    (hperm : (s.points.rows.filter fun p => p.isComplete && (s.commitIndex p.commit).isSome).Perm
      ordered)
    (hsorted : ordered.Pairwise fun p q => s.indexOf p.commit < s.indexOf q.commit) :
    s.orderedCompleted = ordered := by
  refine List.Perm.eq_of_pairwise ?_ s.orderedCompleted_sorted hsorted
    ((List.mergeSort_perm _ _).trans hperm)
  intro p q _ _ hpq hqp
  exact absurd hpq (Nat.lt_asymm hqp)

/-- The segments, sorted by hand, when no two changed alike. -/
theorem SweepState.getSegments_of_perm {s : SweepState} {ordered : List BenchmarkPoint}
    {segments : List Segment} (hordered : s.orderedCompleted = ordered)
    (hperm : (((Lib.neighbours ordered).map fun pair => s.segmentOf pair.1 pair.2).filter
      fun seg => decide (0 < seg.commitCount)).Perm segments)
    (hsorted : segments.Pairwise fun a b => b.absDelta < a.absDelta) :
    s.getSegments = segments := by
  subst hordered
  have hnodup : (segments.map Segment.absDelta).Nodup :=
    List.pairwise_map.mpr (hsorted.imp ne_of_gt)
  have hmem := (List.mergeSort_perm _ fun a b : Segment => decide (b.absDelta ≤ a.absDelta)).trans hperm
  refine List.Perm.eq_of_pairwise ?_ s.getSegments_sorted (hsorted.imp le_of_lt) hmem
  intro a b ha hb hba hab
  exact List.inj_on_of_nodup_map hnodup (hmem.mem_iff.mp ha) hb (le_antisymm hab hba)

theorem tasks_sound_bisected : TaskSound endsMeasured middleTask ∧ (issued bisectedCalls).Nodup ∧
    bisectedCalls.length ≤ 5 + (bisectedCalls.filterMap Call.head).dedup.length := by
  have hreach : SweepState.Reachable ⟨["a", "b", "c", "d", "e"], by decide, by decide⟩ endsMeasured :=
    .record _ _ (.record _ _ (.start rfl rfl))
  let middleMeasured := endsMeasured.record "c" (.measured 100 0 1 none none none)
  let broken := middleMeasured.record "d" .buildFailed
  have hmiddle : SweepPlanner.getNextTask ⟨endsMeasured, true, 0⟩ 0 none = some middleTask := by
    have hordered : endsMeasured.orderedCompleted = endsMeasured.points.rows :=
      SweepState.orderedCompleted_of_perm (by decide +kernel) (by decide +kernel)
    have hsegments : endsMeasured.getSegments = [⟨"a", "e", 100, 200, 3, 0, 0, 1, 1⟩] :=
      SweepState.getSegments_of_perm hordered (by decide +kernel) (by decide +kernel)
    simp only [SweepPlanner.getNextTask, SweepState.checkBisection,
      SweepState.getUnresolvedSegments, hsegments]
    decide +kernel
  have hright : SweepPlanner.getNextTask ⟨middleMeasured, true, 0⟩ 0 none =
      some ⟨"d", "", .bisection, .bisecting ⟨"c", "e", 100, 200, 1, 0, 0, 1, 1⟩⟩ := by
    have hordered : middleMeasured.orderedCompleted =
        ["a", "c", "e"].filterMap middleMeasured.points.find? :=
      SweepState.orderedCompleted_of_perm (by decide +kernel) (by decide +kernel)
    have hsegments : middleMeasured.getSegments =
        [⟨"c", "e", 100, 200, 1, 0, 0, 1, 1⟩, ⟨"a", "c", 100, 100, 1, 0, 0, 1, 1⟩] :=
      SweepState.getSegments_of_perm hordered (by decide +kernel) (by decide +kernel)
    simp only [SweepPlanner.getNextTask, SweepState.checkBisection,
      SweepState.getUnresolvedSegments, hsegments]
    decide +kernel
  have hgap : SweepPlanner.getNextTask ⟨broken, true, 0⟩ 0 none =
      some ⟨"b", "", .backfill, .gap ⟨some "a", some "c", 1⟩⟩ := by
    have hordered : broken.orderedCompleted = ["a", "c", "e"].filterMap broken.points.find? :=
      SweepState.orderedCompleted_of_perm (by decide +kernel) (by decide +kernel)
    have hsegments : broken.getSegments = [⟨"a", "c", 100, 100, 1, 0, 0, 1, 1⟩] :=
      SweepState.getSegments_of_perm hordered (by decide +kernel) (by decide +kernel)
    simp only [SweepPlanner.getNextTask, SweepState.checkBisection, SweepState.checkBackfill,
      SweepState.largestGap, SweepState.gaps, SweepState.neighbours,
      SweepState.getUnresolvedSegments, hsegments, hordered]
    decide +kernel
  have hrun : Lib.Run (Issue true 0) endsMeasured bisectedCalls
      (bisectedCalls.foldl recordCall endsMeasured) :=
    .cons ⟨hmiddle, rfl⟩ (.cons ⟨hright, rfl⟩ (.single ⟨hgap, rfl⟩))
  have hsound := tasks_sound hreach true 0
  exact ⟨hsound.1 0 none _ hmiddle, hsound.2 _ _ hrun⟩

/-! ## When nothing is left -/

namespace SweepState

variable {s : SweepState}

/-- Every commit of the sweep ref has a point. -/
def AllAttempted (s : SweepState) : Prop := ∀ commit ∈ s.mergeCommits, s.attempted commit = true

/-- A release commit of the sweep ref is still to be measured. -/
def LandmarkDue (s : SweepState) : Prop :=
  ∃ landmark ∈ s.landmarks, s.attempted landmark.commit = false ∧ landmark.commit ∈ s.mergeCommits

/-- The commits of the skeleton pass: every `skeletonStep`-th, and the last. -/
def skeletonCommits (s : SweepState) : List String :=
  s.skeletonPlaces.map s.commitAt ++ s.mergeCommits.getLast?.toList

/-- The skeleton pass has a commit left. -/
def SkeletonOpen (s : SweepState) : Prop := ∃ commit ∈ s.skeletonCommits, s.attempted commit = false

theorem landmarkDue_iff : s.LandmarkDue ↔ s.checkLandmarks.isSome = true := by
  rw [checkLandmarks, Option.isSome_map, List.find?_isSome]
  simp only [LandmarkDue, Bool.and_eq_true, Bool.not_eq_true', commitIndex_isSome]

theorem skeletonOpen_iff : s.SkeletonOpen ↔ s.skeletonTask.isSome = true := by
  unfold SkeletonOpen skeletonCommits skeletonTask
  cases hfind : (s.skeletonPlaces.map s.commitAt).find? fun commit => !s.attempted commit with
  | some commit =>
    refine iff_of_true ⟨commit, ?_, by simpa using List.find?_some hfind⟩ rfl
    exact List.mem_append_left _ (List.mem_of_find?_eq_some hfind)
  | none =>
    have hdone : ∀ commit ∈ s.skeletonPlaces.map s.commitAt, s.attempted commit = true := by
      simpa using List.find?_eq_none.mp hfind
    cases hlast : s.mergeCommits.getLast? with
    | none =>
      refine iff_of_false ?_ (by simp)
      rintro ⟨commit, hmem, hopen⟩
      rw [Option.toList_none, List.append_nil] at hmem
      exact absurd (hdone commit hmem) (by simp [hopen])
    | some last =>
      simp only [Option.toList_some, List.mem_append, List.mem_singleton, Option.bind_some]
      constructor
      · rintro ⟨commit, hmem | rfl, hopen⟩
        · exact absurd (hdone commit hmem) (by simp [hopen])
        · simp [hopen]
      · intro hsome
        refine ⟨last, .inr rfl, ?_⟩
        by_contra hattempted
        simp [Bool.not_eq_false _ ▸ hattempted] at hsome

theorem commitsBetween_eq {left right : String} (hleft : left ∈ s.mergeCommits)
    (hright : right ∈ s.mergeCommits) :
    s.commitsBetween left right = ((positions (s.indexOf left + 1) (s.indexOf right)).filter fun i =>
      (s.points.find? (s.commitAt i)).all fun p => decide (p.status ≠ .buildFailed)).length := by
  obtain ⟨l, hl⟩ := Option.isSome_iff_exists.mp (commitIndex_isSome.mpr hleft)
  obtain ⟨r, hr⟩ := Option.isSome_iff_exists.mp (commitIndex_isSome.mpr hright)
  simp only [commitsBetween, indexOf, hl, hr, Option.getD_some]

theorem countUnattempted_pos {start stop i : Nat} (h : start ≤ i ∧ i < stop)
    (hopen : s.attempted (s.commitAt i) = false) : 0 < s.countUnattemptedInRange start stop := by
  refine List.length_pos_of_mem (List.mem_filter.mpr ⟨mem_positions.mpr h, ?_⟩)
  simpa using hopen

theorem exists_of_countUnattempted {start stop : Nat}
    (h : 0 < s.countUnattemptedInRange start stop) :
    ∃ i, (start ≤ i ∧ i < stop) ∧ s.attempted (s.commitAt i) = false := by
  obtain ⟨i, hi⟩ := List.exists_mem_of_length_pos h
  obtain ⟨hrange, hopen⟩ := List.mem_filter.mp hi
  exact ⟨i, mem_positions.mp hrange, by simpa using hopen⟩

/-- A commit that was not attempted lies in a gap, and the planner counts it. -/
theorem exists_gap (htwo : 2 ≤ s.orderedCompleted.length) {commit : String}
    (hcommit : commit ∈ s.mergeCommits) (hopen : s.attempted commit = false) :
    ∃ gap ∈ s.gaps, 0 < gap.size := by
  have hne : s.orderedCompleted ≠ [] := by
    intro h
    rw [h] at htwo
    simp at htwo
  obtain ⟨hcommitAt, hlt⟩ := commitAt_indexOf hcommit
  have hedges : ∀ gap ∈ [(⟨none, some (s.orderedCompleted.head hne).commit,
        s.countUnattemptedInRange 0 (s.indexOf (s.orderedCompleted.head hne).commit)⟩ : Gap),
      ⟨some (s.orderedCompleted.getLast hne).commit, none, s.countUnattemptedInRange
        (s.indexOf (s.orderedCompleted.getLast hne).commit + 1) s.mergeCommits.length⟩],
      gap ∈ s.gaps := by
    intro gap hgap
    rw [gaps, List.head?_eq_some_head hne, List.getLast?_eq_some_getLast hne]
    exact List.mem_append_right _ hgap
  -- the point at its place would be its own
  have hplace : ∀ p ∈ s.orderedCompleted, s.indexOf p.commit ≠ s.indexOf commit := by
    intro p hp heq
    obtain ⟨hpoint, -, hlisted⟩ := mem_orderedCompleted.mp hp
    have hsame := indexOf_inj hlisted hcommit heq
    rw [attempted, ← hsame, Table.find?_key hpoint] at hopen
    cases hopen
  rw [← hcommitAt] at hopen
  rcases stretch_of_notMem (fun p : BenchmarkPoint => s.indexOf p.commit) hne hplace with
    h | ⟨⟨p, q⟩, hpair, hbetween⟩ | h
  · exact ⟨_, hedges _ List.mem_cons_self, countUnattempted_pos ⟨Nat.zero_le _, h⟩ hopen⟩
  · obtain ⟨hp, hq⟩ := neighbours_mem hpair
    refine ⟨⟨some p.commit, some q.commit, s.commitsBetween p.commit q.commit⟩,
      List.mem_append_left _ (List.mem_map.mpr ⟨(p, q), hpair, rfl⟩), ?_⟩
    show 0 < s.commitsBetween p.commit q.commit
    rw [commitsBetween_eq (mem_orderedCompleted.mp hp).2.2 (mem_orderedCompleted.mp hq).2.2]
    refine List.length_pos_of_mem (List.mem_filter.mpr ⟨mem_positions.mpr hbetween, ?_⟩)
    have hnone : s.points.find? (s.commitAt (s.indexOf commit)) = none := by
      simpa [attempted] using hopen
    rw [hnone]
    rfl
  · refine ⟨_, hedges _ (List.mem_cons_of_mem _ List.mem_cons_self), ?_⟩
    exact countUnattempted_pos ⟨h, hlt⟩ hopen

/-- What is counted between neighbours was not attempted: a failed build is not
counted, and a measured commit would be a neighbour itself. -/
theorem exists_of_commitsBetween (hlisted : s.Listed) (hsettled : s.Settled)
    {p q : BenchmarkPoint} (hpair : (p, q) ∈ s.neighbours)
    (h : 0 < s.commitsBetween p.commit q.commit) :
    ∃ i, (s.indexOf p.commit < i ∧ i < s.indexOf q.commit) ∧
      s.attempted (s.commitAt i) = false := by
  obtain ⟨hp, hq⟩ := neighbours_mem hpair
  have hqc := (mem_orderedCompleted.mp hq).2.2
  rw [commitsBetween_eq (mem_orderedCompleted.mp hp).2.2 hqc] at h
  obtain ⟨i, hi⟩ := List.exists_mem_of_length_pos h
  obtain ⟨hrange, hcounted⟩ := List.mem_filter.mp hi
  obtain ⟨hleft, hright⟩ := mem_positions.mp hrange
  refine ⟨i, ⟨hleft, hright⟩, ?_⟩
  by_contra hattempted
  have hsome : s.attempted (s.commitAt i) = true := by simpa using hattempted
  obtain ⟨x, hx⟩ := Option.isSome_iff_exists.mp hsome
  obtain ⟨hmem, hxc⟩ := Table.find?_eq_some_iff.mp hx
  have hlt : i < s.mergeCommits.length := hright.trans (commitAt_indexOf hqc).2
  have hcounted' : x.status ≠ .buildFailed := by simpa [hx] using hcounted
  have hcomplete : x ∈ s.orderedCompleted := by
    refine mem_orderedCompleted.mpr ⟨hmem, (hsettled x hmem).resolve_right hcounted', ?_⟩
    rw [hxc]
    exact commitAt_mem hlt
  refine neighbours_adjacent hpair hcomplete ?_
  rw [hxc, indexOf_commitAt hlisted.nodup hlt]
  exact ⟨hleft, hright⟩

/-- A gap that counts a commit has a candidate. -/
theorem exists_candidate (hlisted : s.Listed) (hsettled : s.Settled) {gap : Gap}
    (hgap : gap ∈ s.gaps) (hsize : 0 < gap.size) : ∃ i, i ∈ s.candidates gap.left gap.right := by
  have hends := gaps_ends hgap
  rw [gaps, List.mem_append] at hgap
  rcases hgap with hgap | hgap
  · obtain ⟨⟨p, q⟩, hpair, rfl⟩ := List.mem_map.mp hgap
    obtain ⟨i, hbetween, hopen⟩ := exists_of_commitsBetween hlisted hsettled hpair hsize
    refine ⟨i, mem_candidates.mpr ⟨?_, hopen⟩⟩
    rw [gapStart_some hlisted (hends.1 _ rfl), gapStop_some hlisted (hends.2 _ rfl)]
    exact hbetween
  · split at hgap
    · next first last hfirst hlast =>
      simp only [List.mem_cons, List.not_mem_nil, or_false] at hgap
      rcases hgap with rfl | rfl
      · obtain ⟨i, hrange, hopen⟩ := exists_of_countUnattempted hsize
        refine ⟨i, mem_candidates.mpr ⟨?_, hopen⟩⟩
        rw [gapStop_some hlisted (hends.2 _ rfl)]
        exact hrange
      · obtain ⟨i, hrange, hopen⟩ := exists_of_countUnattempted hsize
        refine ⟨i, mem_candidates.mpr ⟨?_, hopen⟩⟩
        rw [gapStart_some hlisted (hends.1 _ rfl)]
        exact hrange
    · cases hgap

/-- With two measured commits, backfill finds a commit as long as there is one. -/
theorem checkBackfill_isSome (hlisted : s.Listed) (hsettled : s.Settled)
    (htwo : 2 ≤ s.orderedCompleted.length) {commit : String} (hcommit : commit ∈ s.mergeCommits)
    (hopen : s.attempted commit = false) : s.checkBackfill.isSome = true := by
  obtain ⟨gap, hgap, hsize⟩ := exists_gap htwo hcommit hopen
  have hlargest : 0 < s.largestGap.size := lt_of_lt_of_le hsize (size_le_largestGap hgap)
  have hmem : s.largestGap ∈ s.gaps := largestGap_mem (by omega)
  obtain ⟨i, hi⟩ := exists_candidate hlisted hsettled hmem hlargest
  unfold checkBackfill
  rw [if_neg (List.ne_nil_of_mem hcommit), if_neg (by omega), if_neg (by omega), Option.isSome_map]
  exact midpoint_isSome hi

end SweepState

open SweepState

/-- What a planner needs to find the next commit: a rule that still has one. Two
measured commits are enough; with fewer only the skeleton pass is left. -/
def Finds (planner : SweepPlanner) (now : Rat) (head : Option String) : Prop :=
  planner.state.AllAttempted ∨ planner.tipDue now head = true ∨ planner.state.LandmarkDue ∨
    2 ≤ planner.state.orderedCompleted.length ∨ planner.state.SkeletonOpen

section Complete

variable {planner : SweepPlanner} {now : Rat} {head : Option String}

theorem checkBisection_two {s : SweepState} {task : SweepTask} (h : s.checkBisection = some task) :
    2 ≤ s.orderedCompleted.length := by
  obtain ⟨segment, hhead, -⟩ := checkBisection_eq_some h
  obtain ⟨⟨⟨p, q⟩, hpair, -⟩, -⟩ :=
    mem_getSegments.mp (List.mem_filter.mp (head_unresolved hhead).1).1
  have hlength := List.length_pos_of_mem hpair
  rw [SweepState.neighbours, Lib.neighbours, List.length_zip, List.length_tail] at hlength
  omega

/-- A rule that has a commit is heard. -/
theorem getNextTask_isSome (hlisted : planner.state.Listed) (hsettled : planner.state.Settled)
    (htracks : planner.tracksHistory = true) (hleft : ¬ planner.state.AllAttempted)
    (h : Finds planner now head) : (planner.getNextTask now head).isSome = true := by
  obtain ⟨commit, hcommit, hopen⟩ : ∃ commit ∈ planner.state.mergeCommits,
      planner.state.attempted commit = false := by
    simpa [AllAttempted] using hleft
  unfold SweepPlanner.getNextTask
  rw [htracks]
  simp only [Option.isSome_or, Bool.or_eq_true, if_true]
  rcases h with h | h | h | h | h
  · exact absurd h hleft
  · left
    cases head with
    | none => cases h
    | some head => rw [SweepPlanner.checkNightly, if_pos h]; rfl
  · exact .inr (.inl (landmarkDue_iff.mp h))
  · exact .inr (.inr (.inr (checkBackfill_isSome hlisted hsettled h hcommit hopen)))
  · by_cases htwo : 2 ≤ planner.state.orderedCompleted.length
    · exact .inr (.inr (.inr (checkBackfill_isSome hlisted hsettled htwo hcommit hopen)))
    · have hskeleton := skeletonOpen_iff.mp h
      refine .inr (.inr (.inr ?_))
      rw [checkBackfill, if_neg (List.ne_nil_of_mem hcommit), if_pos (by omega)]
      exact hskeleton

/-- The skeleton pass of a short history tries every commit. -/
theorem finds_of_short (h : planner.state.mergeCommits.length < 32) : Finds planner now head := by
  by_cases hall : planner.state.AllAttempted
  · exact .inl hall
  · obtain ⟨commit, hcommit, hopen⟩ : ∃ commit ∈ planner.state.mergeCommits,
        planner.state.attempted commit = false := by
      simpa [AllAttempted] using hall
    obtain ⟨hcommitAt, hlt⟩ := commitAt_indexOf hcommit
    have hstep : planner.state.skeletonStep = 1 := by
      unfold skeletonStep
      omega
    have hplace : planner.state.indexOf commit ∈ planner.state.skeletonPlaces := by
      rw [skeletonPlaces, List.mem_filter, List.mem_range, hstep]
      exact ⟨hlt, decide_eq_true (Nat.mod_one _)⟩
    refine .inr (.inr (.inr (.inr ⟨commit, ?_, hopen⟩)))
    exact List.mem_append_left _ (List.mem_map.mpr ⟨_, hplace, hcommitAt⟩)

/-- A task comes from a rule that had a commit. -/
theorem finds_of_task {task : SweepTask} (h : planner.getNextTask now head = some task) :
    Finds planner now head := by
  rcases SweepPlanner.getNextTask_cases h with h | h | h | h
  · exact .inr (.inl (SweepPlanner.checkNightly_eq_some h).2.1)
  · exact .inr (.inr (.inl (landmarkDue_iff.mpr (Option.isSome_of_eq_some h))))
  · exact .inr (.inr (.inr (.inl (checkBisection_two h))))
  · rcases checkBackfill_eq_some h with ⟨-, h⟩ | ⟨htwo, -⟩
    · exact .inr (.inr (.inr (.inr (skeletonOpen_iff.mpr (Option.isSome_of_eq_some h)))))
    · exact .inr (.inr (.inr (.inl htwo)))

end Complete

/-- After any run of a history-tracking planner, an empty answer means that
every commit was attempted exactly where a rule has a commit if any is left. -/
theorem allAttempted_iff {history : MergeHistory} {start s : SweepState} {calls : List Call}
    {tipInterval : Rat} (hcommits : start.mergeCommits = history.commits)
    (hempty : start.points = .empty) (hrun : Lib.Run (Issue true tipInterval) start calls s)
    (now : Rat) (head : Option String) :
    (SweepPlanner.getNextTask ⟨s, true, tipInterval⟩ now head = none → s.AllAttempted) ↔
      Finds ⟨s, true, tipInterval⟩ now head := by
  have hreach : Reachable history s := (run_issued hrun (.start hcommits hempty)).1
  constructor
  · intro h
    cases hnext : SweepPlanner.getNextTask ⟨s, true, tipInterval⟩ now head with
    | none => exact .inl (h hnext)
    | some task => exact finds_of_task hnext
  · intro h hnone
    by_contra hleft
    have hsome : (SweepPlanner.getNextTask ⟨s, true, tipInterval⟩ now head).isSome = true :=
      getNextTask_isSome hreach.listed hreach.settled rfl hleft h
    rw [hnone] at hsome
    cases hsome

/-- Three commits: the first is measured, the second does not build, the third is measured. -/
def threeCommits : SweepState := { SweepState.empty with mergeCommits := ["a", "b", "c"] }

def threeCalls : List Call :=
  [⟨0, none, ⟨"a", "", .backfill, .skeleton⟩, .measured 100 0 1 none none none⟩,
    ⟨0, none, ⟨"b", "", .backfill, .skeleton⟩, .buildFailed⟩,
    ⟨0, none, ⟨"c", "", .backfill, .skeleton⟩, .measured 100 0 1 none none none⟩]

theorem allAttempted_iff_three :
    (SweepPlanner.getNextTask ⟨threeCalls.foldl recordCall threeCommits, true, 0⟩ 0 none = none →
      (threeCalls.foldl recordCall threeCommits).AllAttempted) ↔
      Finds ⟨threeCalls.foldl recordCall threeCommits, true, 0⟩ 0 none := by
  have hcommits : threeCommits.mergeCommits =
    (⟨["a", "b", "c"], by decide, by decide⟩ : MergeHistory).commits := rfl
  have hrun : Lib.Run (Issue true 0) threeCommits threeCalls (threeCalls.foldl recordCall threeCommits) :=
    Lib.Run.of_guarded recordCall
      (fun (s : SweepState) (call : Call) =>
        SweepPlanner.getNextTask ⟨s, true, 0⟩ call.now call.head = some call.task)
      threeCalls threeCommits (by decide +kernel)
  exact allAttempted_iff hcommits rfl hrun 0 none

/-- A history of 32 commits, of which the skeleton pass tries 17. -/
def longHistory : SweepState :=
  { SweepState.empty with mergeCommits := (List.range 32).map toString }

/-- None of the 17 builds. -/
def failedBuilds : List Call :=
  longHistory.skeletonPlaces.map (fun i =>
    ⟨0, none, ⟨longHistory.commitAt i, "", .backfill, .skeleton⟩, .buildFailed⟩) ++
  [⟨0, none, ⟨"31", "", .backfill, .skeletonLast⟩, .buildFailed⟩]

def afterFailedBuilds : SweepState := failedBuilds.foldl recordCall longHistory

theorem failedBuilds_run : Lib.Run (Issue true 0) longHistory failedBuilds afterFailedBuilds :=
  Lib.Run.of_guarded recordCall
    (fun (s : SweepState) (call : Call) => SweepPlanner.getNextTask ⟨s, true, 0⟩ call.now call.head = some call.task)
    failedBuilds longHistory (by decide +kernel)

/-- The planner has no task left, and fifteen commits it never tried. -/
theorem failedBuilds_end : ¬ ∀ (history : MergeHistory) (start s : SweepState) (calls : List Call)
    (tipInterval now : Rat) (head : Option String), start.mergeCommits = history.commits →
    start.points = .empty → Lib.Run (Issue true tipInterval) start calls s →
    SweepPlanner.getNextTask ⟨s, true, tipInterval⟩ now head = none → s.AllAttempted := by
  intro h
  have hall := h ⟨longHistory.mergeCommits, by decide +kernel, by decide +kernel⟩ longHistory
    afterFailedBuilds failedBuilds 0 0 none rfl rfl failedBuilds_run (by decide +kernel)
  have hone := hall "1" (by decide +kernel)
  revert hone
  decide +kernel

end Conductress.Sweep
