import Conductress.Base.Json
import Conductress.Lib.Table

/-!
# The state of a sweep

`SweepState` and its points, and the two writers of the planner:
`record_result` and `record_build_failure`. Both touch the point of one commit
and create it when there is none; neither touches what a measurement collected
beside its score.

A `BenchmarkPoint` carries JSON values where it only keeps what a result row
held. Scores, their deviations and the threshold are rationals, where the code
has doubles: what it computes from them it may round.
-/

namespace Conductress.Sweep

open Lib

inductive PointStatus where
  | completed
  | buildFailed
  | pending
  deriving DecidableEq, Repr

/-- A benchmarked commit with its result; null where the source has `None`. -/
structure BenchmarkPoint where
  commit              : String
  date                : String
  value               : Option Rat := none
  cv                  : Option Rat := none
  reps                : Nat := 3
  scoreMin            : Json := .null
  scoreMax            : Json := .null
  clientCoresBusy     : Json := .null
  clientAllocatedCores : Json := .null
  clientUtilization   : Json := .null
  clientSaturated     : Json := .null
  pr                  : Option Int := none
  prTitle             : Option String := none
  perfCounters        : Json := .null
  perfCountersMain    : Json := .null
  perfCountersIo      : Json := .null
  perfDurationSeconds : Json := .null
  perfRps             : Json := .null
  perfRepCount        : Json := .null
  perfCountersScope   : Json := .null
  breakdown           : Json := .null
  rawStacks           : Json := .null
  latencyData         : Json := .null
  cpuStacksMain       : Json := .null
  cpuStacksIo         : Json := .null
  sample              : Option String := none
  status              : PointStatus := .pending
  deriving DecidableEq

namespace BenchmarkPoint

def isComplete (p : BenchmarkPoint) : Bool :=
  decide (p.status = .completed) && p.value.isSome

def cpuStacks (p : BenchmarkPoint) : Json × Json := (p.cpuStacksMain, p.cpuStacksIo)

/-- `point.cpu_stacks_main or point.cpu_stacks_io`. -/
def carriesStacks (p : BenchmarkPoint) : Bool :=
  p.cpuStacksMain.truthy || p.cpuStacksIo.truthy

end BenchmarkPoint

/-- A release commit that must always be benchmarked. -/
structure Landmark where
  commit : String
  date   : String
  label  : String
  deriving DecidableEq

/-- The dictionary of points: the key of a point is its commit. -/
abbrev Points := Table BenchmarkPoint.commit

structure SweepState where
  points                : Points
  landmarks             : List Landmark
  /-- Every commit of the sweep ref, oldest first. -/
  mergeCommits          : List String
  commitDates           : List (String × String)
  commitPrs             : List (String × Int)
  commitTitles          : List (String × String)
  lastBenchmarkedHead   : Option String
  lastBenchmarkedHeadAt : Option Rat
  threshold             : Rat

namespace SweepState

/-- `SweepState()`. -/
def empty : SweepState := ⟨.empty, [], [], [], [], [], none, none, 1 / 50⟩

variable (s : SweepState)

/-- `commit_dates.get(commit, "")`. -/
def dateOf (commit : String) : String := (s.commitDates.lookup commit).getD ""

/-- The stacks of the point of a commit; null when it has none. -/
def stacksAt (commit : String) : Json × Json :=
  (s.points.find? commit).elim (.null, .null) BenchmarkPoint.cpuStacks

/-- Assignments to attributes of the point of a commit, when there is one. -/
def setPoint (commit : String) (f : BenchmarkPoint → BenchmarkPoint)
    (hf : ∀ p, (f p).commit = p.commit := by intro _; rfl) : SweepState :=
  { s with points := s.points.update commit f hf }

/-! ## The writers of the planner -/

section RecordResult

variable (commit : String) (value cv : Rat) (reps : Nat) (pr : Option Int)
  (prTitle sample : Option String)

/-- What `record_result` does to a point that is there. -/
def rescore (point : BenchmarkPoint) : BenchmarkPoint :=
  { point with
    value := some value
    cv := some cv
    reps := reps
    status := .completed
    pr := pr.or point.pr
    prTitle := prTitle.or point.prTitle
    sample := sample.or point.sample }

/-- What it stores for a commit that has none. -/
def newPoint : BenchmarkPoint where
  commit  := commit
  date    := s.dateOf commit
  value   := some value
  cv      := some cv
  reps    := reps
  pr      := pr
  prTitle := prTitle
  sample  := sample
  status  := .completed

def recordResult : SweepState :=
  match s.points.find? commit with
  | none => { s with points := s.points.put (s.newPoint commit value cv reps pr prTitle sample) }
  | some _ => s.setPoint commit (rescore value cv reps pr prTitle sample)

end RecordResult

/-- What `record_build_failure` stores for a commit that has no point. -/
def failedPoint (commit : String) : BenchmarkPoint where
  commit := commit
  date   := s.dateOf commit
  status := .buildFailed

def recordBuildFailure (commit : String) : SweepState :=
  match s.points.find? commit with
  | none => { s with points := s.points.put (s.failedPoint commit) }
  | some _ => s.setPoint commit fun p => { p with status := .buildFailed }

/-! ## The completed points -/

/-- `{c: i for i, c in enumerate(merge_commits)}`: of a commit listed twice the
last place counts. -/
def commitIndex (commit : String) : Option Nat :=
  (s.mergeCommits.zipIdx.reverse.find? fun entry => decide (entry.1 = commit)).map Prod.snd

/-- `commit_index.get(commit, 0)`. -/
def indexOf (commit : String) : Nat := (s.commitIndex commit).getD 0

/-- `_get_ordered_completed_points`. -/
def orderedCompleted : List BenchmarkPoint :=
  (s.points.rows.filter fun p => p.isComplete && (s.commitIndex p.commit).isSome).mergeSort
    fun p q => decide (s.indexOf p.commit ≤ s.indexOf q.commit)

variable {s}

/-! ## What the writers leave -/

/-- One commit's point is written, and the stacks it carries stay. -/
structure Writes (commit : String) (s t : SweepState) : Prop where
  others       : ∀ other, other ≠ commit → t.points.find? other = s.points.find? other
  mergeCommits : t.mergeCommits = s.mergeCommits
  stays        : (s.points.find? commit).isSome → (t.points.find? commit).isSome
  kept         : t.stacksAt commit = s.stacksAt commit

section Writers

variable {commit : String} {t u : SweepState}

theorem Writes.refl (s : SweepState) : Writes commit s s := ⟨fun _ _ => rfl, rfl, id, rfl⟩

theorem Writes.trans (h : Writes commit s t) (h' : Writes commit t u) : Writes commit s u where
  others other hne := (h'.others other hne).trans (h.others other hne)
  mergeCommits := h'.mergeCommits.trans h.mergeCommits
  stays hsome := h'.stays (h.stays hsome)
  kept := h'.kept.trans h.kept

theorem Writes.stacksAt (h : Writes commit s t) (other : String) :
    t.stacksAt other = s.stacksAt other := by
  by_cases hother : other = commit
  · rw [hother, h.kept]
  · rw [SweepState.stacksAt, h.others other hother, SweepState.stacksAt]

theorem find?_setPoint (f : BenchmarkPoint → BenchmarkPoint) (hf : ∀ p, (f p).commit = p.commit)
    (other : String) : (s.setPoint commit f hf).points.find? other =
      if other = commit then (s.points.find? commit).map f else s.points.find? other :=
  Table.find?_update s.points commit f hf other

theorem setPoint_self {f : BenchmarkPoint → BenchmarkPoint} {hf : ∀ p, (f p).commit = p.commit}
    (h : ∀ p, s.points.find? commit = some p → f p = p) : s.setPoint commit f hf = s := by
  rw [setPoint, Table.update_self h]

/-- Assignments that leave the stacks alone. -/
theorem writes_setPoint {f : BenchmarkPoint → BenchmarkPoint} {hf : ∀ p, (f p).commit = p.commit}
    (hstacks : ∀ p, (f p).cpuStacks = p.cpuStacks) :
    Writes commit s (s.setPoint commit f hf) where
  others other hne := by rw [find?_setPoint, if_neg hne]
  mergeCommits := rfl
  stays hsome := by rwa [find?_setPoint, if_pos rfl, Option.isSome_map]
  kept := by
    rw [SweepState.stacksAt, find?_setPoint, if_pos rfl, SweepState.stacksAt]
    rcases s.points.find? commit with _ | p
    · rfl
    · exact hstacks p

/-- A new point is stored where there was none, and carries no stacks. -/
theorem writes_put {p : BenchmarkPoint} (hcommit : p.commit = commit)
    (hstacks : p.cpuStacks = (.null, .null)) (hnone : s.points.find? commit = none) :
    Writes commit s { s with points := s.points.put p } where
  others other hne := by
    show (s.points.put p).find? other = _
    rw [Table.find?_put, if_neg (hcommit ▸ hne)]
  mergeCommits := rfl
  stays hsome := by
    rw [hnone] at hsome
    cases hsome
  kept := by
    show ((s.points.put p).find? commit).elim _ _ = _
    rw [Table.find?_put, if_pos hcommit.symm, SweepState.stacksAt, hnone]
    exact hstacks

variable {value cv : Rat} {reps : Nat} {pr : Option Int} {prTitle sample : Option String}

theorem writes_recordResult :
    Writes commit s (s.recordResult commit value cv reps pr prTitle sample) := by
  unfold recordResult
  split
  · next hnone => exact writes_put rfl rfl hnone
  · exact writes_setPoint fun _ => rfl

theorem writes_recordBuildFailure : Writes commit s (s.recordBuildFailure commit) := by
  unfold recordBuildFailure
  split
  · next hnone => exact writes_put rfl rfl hnone
  · exact writes_setPoint fun _ => rfl

/-- After a result its commit has a point. -/
theorem recordResult_isSome :
    ((s.recordResult commit value cv reps pr prTitle sample).points.find? commit).isSome := by
  unfold recordResult
  split
  · show ((s.points.put _).find? commit).isSome
    rw [Table.find?_put, newPoint, if_pos rfl]
    rfl
  · next p hp =>
    refine (writes_setPoint ?_).stays (Option.isSome_of_eq_some hp)
    exact fun _ => rfl

end Writers

theorem commitIndex_isSome {commit : String} :
    (s.commitIndex commit).isSome = true ↔ commit ∈ s.mergeCommits := by
  rw [commitIndex, Option.isSome_map, List.find?_isSome]
  constructor
  · rintro ⟨⟨c, i⟩, hmem, hc⟩
    have hc' : c = commit := of_decide_eq_true hc
    rw [← hc']
    exact (List.mem_zipIdx' (List.mem_reverse.mp hmem)).2 ▸ List.getElem_mem _
  · intro hmem
    obtain ⟨i, hi, rfl⟩ := List.mem_iff_getElem.mp hmem
    refine ⟨(s.mergeCommits[i], i), List.mem_reverse.mpr ?_, decide_eq_true rfl⟩
    rw [List.mem_zipIdx_iff_getElem?]
    exact List.getElem?_eq_getElem hi

theorem mem_orderedCompleted {p : BenchmarkPoint} :
    p ∈ s.orderedCompleted ↔ p ∈ s.points ∧ p.isComplete = true ∧ p.commit ∈ s.mergeCommits := by
  rw [orderedCompleted, List.mem_mergeSort, List.mem_filter, Bool.and_eq_true,
    commitIndex_isSome, Table.mem_rows]

end SweepState

end Conductress.Sweep
