import Mathlib.Data.List.ReduceOption
import Mathlib.Data.List.Sort
import Mathlib.Data.Prod.Lex
import Mathlib.Data.String.Basic
import Mathlib.Order.Lattice
import Conductress.Base.Rounding
import Conductress.Lib.Except
import Conductress.Sweep.NextTask
import Conductress.Sweep.StacksExport

/-!
# What a bisection pinpointed

An exporter annotates a commit at which the measured value jumps: the commit
right before it is measured too, and the change between the two is large and
significant. The feed of a platform puts the annotations of its series together,
the newest first. A change from a measured zero has no size, and ends the export.

* `jumps_explained` — when nothing is left to bisect, every jump is annotated, or
  no commit inside it could be built;
* `annotations_kept` — while a planner measures on and upstream grows, no
  annotation is withdrawn;
* `exportNotable_spec` — what the feed is, and when there is none.
-/

namespace Conductress.Sweep

open Lib

/-! ## Annotations -/

/-- `ANNOTATION_THRESHOLD`. -/
def annotationThreshold : Rat := 4 / 100

inductive ChangeType where
  | increase
  | decrease
  deriving DecidableEq, Repr

structure Annotation where
  commit   : String
  date     : String
  delta    : Rat
  workload : String
  type     : ChangeType
  good     : Bool
  pr       : Option Int
  prTitle  : Option String
  deriving DecidableEq

inductive ExportError where
  | zeroDivisionError
  deriving DecidableEq, Repr

namespace SweepState

variable (s : SweepState) (workload : String) (lowerIsBetter : Bool)

/-- `right_idx - left_idx == 1`. -/
def Adjacent (left right : BenchmarkPoint) : Prop :=
  s.indexOf right.commit = s.indexOf left.commit + 1

instance (left right : BenchmarkPoint) : Decidable (s.Adjacent left right) :=
  inferInstanceAs (Decidable (_ = _))

/-- The segment the exporter makes of two adjacent commits. -/
def adjacentSegment (left right : BenchmarkPoint) : Segment :=
  { s.segmentOf left right with commitCount := 0 }

def annotate (delta : Rat) (right : BenchmarkPoint) : Annotation where
  commit   := right.commit
  date     := right.date
  -- `round(delta, 4)`
  delta    := pyRound (delta * 10000) / 10000
  workload := workload
  type     := if 0 < delta then .increase else .decrease
  good     := if lowerIsBetter then decide (delta < 0) else decide (0 < delta)
  pr       := Series.prOf s right
  prTitle  := Series.prTitleOf s right

/-- A turn of the loop over neighbours. -/
def annotationOf (pair : BenchmarkPoint × BenchmarkPoint) :
    Except ExportError (Option Annotation) :=
  match pair.1.value, pair.2.value with
  | some left, some right =>
    if ¬ s.Adjacent pair.1 pair.2 then .ok none
    else if left = 0 then .error .zeroDivisionError
    else
      let delta := (right - left) / left
      if ¬ annotationThreshold ≤ absRat delta then .ok none
      else if ¬ (s.adjacentSegment pair.1 pair.2).isSignificant then .ok none
      else .ok (some (s.annotate workload lowerIsBetter delta pair.2))
  | _, _ => .ok none

/-- `_build_annotations`. -/
def buildAnnotations : Except ExportError (List Annotation) :=
  (s.neighbours.mapM (s.annotationOf workload lowerIsBetter)).map List.reduceOption

/-! ## What is annotated -/

/-- A change that is large, and significant. -/
def Jumps (left right : BenchmarkPoint) : Prop :=
  annotationThreshold ≤ (s.segmentOf left right).absDelta ∧
    (s.segmentOf left right).isSignificant = true

instance (left right : BenchmarkPoint) : Decidable (s.Jumps left right) :=
  inferInstanceAs (Decidable (_ ∧ _))

/-- The change has no size. -/
def FromZero (pair : BenchmarkPoint × BenchmarkPoint) : Prop :=
  s.Adjacent pair.1 pair.2 ∧ pair.1.value = some 0

instance (pair : BenchmarkPoint × BenchmarkPoint) : Decidable (s.FromZero pair) :=
  inferInstanceAs (Decidable (_ ∧ _))

/-- The jumps that are pinned to one commit, in the order of history. -/
def pinpointed : List (BenchmarkPoint × BenchmarkPoint) :=
  s.neighbours.filter fun pair => decide (s.Adjacent pair.1 pair.2 ∧ s.Jumps pair.1 pair.2)

/-- The annotation of a jump. -/
def annotationAt (pair : BenchmarkPoint × BenchmarkPoint) : Annotation :=
  s.annotate workload lowerIsBetter (s.segmentOf pair.1 pair.2).delta pair.2

variable {s} {workload} {lowerIsBetter} {p q : BenchmarkPoint}

theorem mem_pinpointed :
    (p, q) ∈ s.pinpointed ↔ (p, q) ∈ s.neighbours ∧ s.Adjacent p q ∧ s.Jumps p q := by
  rw [pinpointed, List.mem_filter, decide_eq_true_eq]

/-- A completed point has a value. -/
theorem value_of_completed (h : p ∈ s.orderedCompleted) : ∃ value, p.value = some value := by
  have hcomplete := (mem_orderedCompleted.mp h).2.1
  rw [BenchmarkPoint.isComplete, Bool.and_eq_true] at hcomplete
  exact Option.isSome_iff_exists.mp hcomplete.2

theorem annotationOf_eq {pair : BenchmarkPoint × BenchmarkPoint} (h : pair ∈ s.neighbours) :
    s.annotationOf workload lowerIsBetter pair =
      if s.FromZero pair then .error .zeroDivisionError
      else .ok (if s.Adjacent pair.1 pair.2 ∧ s.Jumps pair.1 pair.2 then
        some (s.annotationAt workload lowerIsBetter pair) else none) := by
  obtain ⟨left, hleft⟩ := value_of_completed (neighbours_mem h).1
  obtain ⟨right, hright⟩ := value_of_completed (neighbours_mem h).2
  have hdelta : left ≠ 0 → (s.segmentOf pair.1 pair.2).delta = (right - left) / left := by
    intro hne
    rw [Segment.delta, segmentOf, hleft, hright, Option.getD_some, Option.getD_some, if_neg hne]
  -- the number of commits between is not looked at
  have hsignificant : (s.adjacentSegment pair.1 pair.2).isSignificant =
      (s.segmentOf pair.1 pair.2).isSignificant := rfl
  have hzero : s.FromZero pair ↔ s.Adjacent pair.1 pair.2 ∧ left = 0 := by
    rw [FromZero, hleft, Option.some_inj]
  unfold annotationOf
  rw [hleft, hright]
  dsimp only
  by_cases hadjacent : s.Adjacent pair.1 pair.2
  · rw [if_neg (not_not.mpr hadjacent)]
    by_cases hleftZero : left = 0
    · rw [if_pos hleftZero, if_pos (hzero.mpr ⟨hadjacent, hleftZero⟩)]
    · rw [if_neg hleftZero, if_neg fun h => hleftZero (hzero.mp h).2, hsignificant,
        ← hdelta hleftZero]
      by_cases hlarge : annotationThreshold ≤ (s.segmentOf pair.1 pair.2).absDelta
      · rw [Segment.absDelta] at hlarge
        rw [if_neg (not_not.mpr hlarge)]
        by_cases hclear : (s.segmentOf pair.1 pair.2).isSignificant = true
        · rw [if_neg (not_not.mpr hclear), if_pos ⟨hadjacent, hlarge, hclear⟩]
          rfl
        · rw [if_pos hclear, if_neg fun h => hclear h.2.2]
      · have hsmall : ¬ annotationThreshold ≤ absRat (s.segmentOf pair.1 pair.2).delta := hlarge
        rw [if_pos hsmall, if_neg fun h => hlarge h.2.1]
  · rw [if_pos hadjacent, if_neg fun h => hadjacent (hzero.mp h).1,
      if_neg fun h => hadjacent h.1]

theorem reduceOption_map_ite {α β : Type*} {P : α → Prop} [DecidablePred P] {g : α → β}
    (xs : List α) : (xs.map fun x => if P x then some (g x) else none).reduceOption =
      (xs.filter fun x => decide (P x)).map g := by
  induction xs with
  | nil => rfl
  | cons x xs ih =>
    rw [List.map_cons]
    by_cases hx : P x
    · rw [if_pos hx, List.reduceOption_cons_of_some, ih,
        List.filter_cons, if_pos (decide_eq_true hx), List.map_cons]
    · rw [if_neg hx, List.reduceOption_cons_of_none, ih,
        List.filter_cons, if_neg (mt of_decide_eq_true hx)]

/-- **The annotations** are those of the jumps that are pinned to one commit. -/
theorem buildAnnotations_eq : s.buildAnnotations workload lowerIsBetter =
    if ∃ pair ∈ s.neighbours, s.FromZero pair then .error .zeroDivisionError
    else .ok (s.pinpointed.map (s.annotationAt workload lowerIsBetter)) := by
  rw [buildAnnotations, except_mapM_ite fun _ => annotationOf_eq, pinpointed]
  split_ifs
  · rfl
  · exact congrArg Except.ok (reduceOption_map_ite _)

/-! ## After the bisection -/

/-- An attempt was made, and the commit could not be built. -/
def FailedBuild (s : SweepState) (commit : String) : Prop :=
  ∃ point, s.points.find? commit = some point ∧ point.status = .buildFailed

/-- Where nothing is counted between two commits, nothing between them could be built. -/
theorem failedBuild_of_commitsBetween (hp : p.commit ∈ s.mergeCommits)
    (hq : q.commit ∈ s.mergeCommits) (h : s.commitsBetween p.commit q.commit = 0) {i : Nat}
    (hleft : s.indexOf p.commit < i) (hright : i < s.indexOf q.commit) :
    s.FailedBuild (s.commitAt i) := by
  rw [commitsBetween_eq hp hq, List.length_eq_zero_iff, List.filter_eq_nil_iff] at h
  have hnone := h i (mem_positions.mpr ⟨by omega, hright⟩)
  rw [Option.all_eq_true] at hnone
  push Not at hnone
  obtain ⟨point, hpoint, hstatus⟩ := hnone
  refine ⟨point, hpoint, ?_⟩
  by_contra hother
  exact hstatus (decide_eq_true hother)

/-- While a segment is unresolved there is a commit to bisect at. -/
theorem checkBisection_isSome (hlisted : s.Listed) (hsettled : s.Settled) {seg : Segment}
    (h : seg ∈ s.getUnresolvedSegments) : s.checkBisection.isSome = true := by
  obtain ⟨first, hfirst⟩ : ∃ first, s.getUnresolvedSegments.head? = some first := by
    cases hsegments : s.getUnresolvedSegments with
    | nil => exact absurd (hsegments ▸ h) List.not_mem_nil
    | cons first _ => exact ⟨first, rfl⟩
  -- the segment bisected is the first one, and something in it is not attempted
  obtain ⟨⟨⟨l, r⟩, hpair, rfl⟩, hcount⟩ :=
    mem_getSegments.mp (List.mem_filter.mp (head_unresolved hfirst).1).1
  obtain ⟨i, hbetween, hopen⟩ := exists_of_commitsBetween hlisted hsettled hpair hcount
  have hends := neighbours_ends hpair
  have hcandidate : i ∈ s.candidates (some l.commit) (some r.commit) := by
    refine mem_candidates.mpr ⟨?_, hopen⟩
    rw [gapStart_some hlisted (hends.1 _ rfl), gapStop_some hlisted (hends.2 _ rfl)]
    exact hbetween
  obtain ⟨midpoint, hmidpoint⟩ := Option.isSome_iff_exists.mp (midpoint_isSome hcandidate)
  rw [checkBisection, hfirst]
  show (s.findMidpointByIndex (some l.commit) (some r.commit) >>= _).isSome = true
  rw [hmidpoint]
  rfl

theorem neighbours_lt (h : (p, q) ∈ s.neighbours) : s.indexOf p.commit < s.indexOf q.commit := by
  have hsorted := @orderedCompleted_sorted s
  exact lt_of_mem_neighbours (fun p : BenchmarkPoint => s.indexOf p.commit) hsorted h

end SweepState

section Explained

open SweepState

variable {s : SweepState} {history : MergeHistory} {workload : String} {lowerIsBetter : Bool}
  {annotations : List Annotation}

/-- **Every jump is explained** when nothing is left to bisect: its commit is annotated, or it is a
jump over commits none of which could be built. And nothing else is annotated. -/
theorem jumps_explained (h : Reachable history s) (hdone : s.checkBisection = none)
    (hthreshold : s.threshold ≤ annotationThreshold)
    (hok : s.buildAnnotations workload lowerIsBetter = .ok annotations) :
    (∀ p q, (p, q) ∈ s.neighbours → s.Jumps p q →
      (s.Adjacent p q ∧ s.annotationAt workload lowerIsBetter (p, q) ∈ annotations) ∨
      (s.indexOf p.commit + 1 < s.indexOf q.commit ∧
        ∀ i, s.indexOf p.commit < i → i < s.indexOf q.commit → s.FailedBuild (s.commitAt i))) ∧
    ∀ a ∈ annotations, ∃ p q, (p, q) ∈ s.neighbours ∧ s.Adjacent p q ∧ s.Jumps p q ∧
      a = s.annotationAt workload lowerIsBetter (p, q) := by
  rw [buildAnnotations_eq] at hok
  split_ifs at hok
  cases hok
  refine ⟨fun p q hpair hjumps => ?_, fun a ha => ?_⟩
  · by_cases hadjacent : s.Adjacent p q
    · exact .inl ⟨hadjacent, List.mem_map_of_mem (mem_pinpointed.mpr ⟨hpair, hadjacent, hjumps⟩)⟩
    · have hlt := neighbours_lt hpair
      refine .inr ⟨by unfold Adjacent at hadjacent; omega, fun i hleft hright => ?_⟩
      obtain ⟨hp, hq⟩ := neighbours_mem hpair
      refine failedBuild_of_commitsBetween (mem_orderedCompleted.mp hp).2.2
        (mem_orderedCompleted.mp hq).2.2 ?_ hleft hright
      -- with a commit to build between them, the two would be bisected
      by_contra hcount
      have hseg : s.segmentOf p q ∈ s.getUnresolvedSegments := by
        have hpos : 0 < (s.segmentOf p q).commitCount := Nat.pos_of_ne_zero hcount
        refine List.mem_filter.mpr ⟨mem_getSegments.mpr ⟨⟨_, hpair, rfl⟩, hpos⟩, ?_⟩
        rw [Bool.and_eq_true, Bool.and_eq_true]
        exact ⟨⟨decide_eq_true (hthreshold.trans hjumps.1), hjumps.2⟩, decide_eq_true hpos⟩
      have hsome := checkBisection_isSome h.listed h.settled hseg
      rw [hdone] at hsome
      cases hsome
  · obtain ⟨⟨p, q⟩, hpinned, rfl⟩ := List.mem_map.mp ha
    obtain ⟨hpair, hadjacent, hjumps⟩ := mem_pinpointed.mp hpinned
    exact ⟨p, q, hpair, hadjacent, hjumps, rfl⟩

/-- Points that were recorded in the order of history are completed in it. -/
theorem orderedCompleted_of_rows {points : List BenchmarkPoint}
    (hrows : (s.points.rows.filter fun p => p.isComplete && (s.commitIndex p.commit).isSome) =
      points)
    (hsorted : points.Pairwise fun p q => s.indexOf p.commit ≤ s.indexOf q.commit) :
    s.orderedCompleted = points := by
  rw [orderedCompleted, hrows]
  exact List.mergeSort_of_pairwise (hsorted.imp fun h => decide_eq_true h)

/-- A measurement without noise. -/
def quietly (value : Rat) : Outcome := .measured value 0 3 none none none

def fourCommits : SweepState := { SweepState.empty with mergeCommits := ["a", "b", "c", "d"] }

/-- The second commit is better, the third cannot be built, and the last is better still. -/
def sweptFour : SweepState :=
  (((fourCommits.record "a" (quietly 100)).record "b" (quietly 110)).record "c" .buildFailed).record
    "d" (quietly 150)

def quietPoint (commit : String) (value : Rat) : BenchmarkPoint :=
  fourCommits.newPoint commit value 0 3 none none none

theorem neighbours_sweptFour : sweptFour.neighbours =
    [(quietPoint "a" 100, quietPoint "b" 110), (quietPoint "b" 110, quietPoint "d" 150)] := by
  have hrows : (sweptFour.points.rows.filter fun p =>
      p.isComplete && (sweptFour.commitIndex p.commit).isSome) =
        [quietPoint "a" 100, quietPoint "b" 110, quietPoint "d" 150] := by decide +kernel
  rw [SweepState.neighbours, orderedCompleted_of_rows hrows (by decide +kernel)]
  rfl

/-- The second commit is annotated. The last one is not, since the commit before it cannot be
built. -/
theorem jumps_explained_four : ∃ annotations,
    sweptFour.buildAnnotations "get" false = .ok annotations ∧
      annotations.map Annotation.commit = ["b"] ∧ sweptFour.FailedBuild "c" := by
  have hreachable : Reachable ⟨["a", "b", "c", "d"], by decide, by decide⟩ sweptFour :=
    .record _ _ (.record _ _ (.record _ _ (.record _ _ (.start rfl rfl))))
  have hok : sweptFour.buildAnnotations "get" false =
      .ok [sweptFour.annotationAt "get" false (quietPoint "a" 100, quietPoint "b" 110)] := by
    rw [buildAnnotations, neighbours_sweptFour]
    decide +kernel
  have hdone : sweptFour.checkBisection = none := by
    have hnone : sweptFour.getUnresolvedSegments = [] := by
      refine List.filter_eq_nil_iff.mpr fun seg hseg => ?_
      obtain ⟨⟨pair, hpair, rfl⟩, hcount⟩ := mem_getSegments.mp hseg
      rw [neighbours_sweptFour] at hpair
      -- nothing between two neighbours is left to build
      rcases List.mem_pair.mp hpair with rfl | rfl <;> exact absurd hcount (by decide +kernel)
    rw [checkBisection, hnone]
    rfl
  have hlast : (quietPoint "b" 110, quietPoint "d" 150) ∈ sweptFour.neighbours := by
    rw [neighbours_sweptFour]
    exact List.mem_cons_of_mem _ List.mem_cons_self
  obtain ⟨hadjacent, -⟩ | ⟨-, hfailed⟩ :=
    (jumps_explained hreachable hdone (by decide +kernel) hok).1 _ _ hlast (by decide +kernel)
  · exact absurd hadjacent (by decide +kernel)
  · exact ⟨_, hok, rfl, hfailed 2 (by decide +kernel) (by decide +kernel)⟩

end Explained

/-! ## While the sweep goes on -/

/-- `_refresh_commits`, when upstream has moved on: what was listed stays, and its subjects say what
they said. -/
structure Refreshed (s t : SweepState) : Prop where
  points  : t.points = s.points
  commits : s.mergeCommits <+: t.mergeCommits
  listed  : t.Listed
  prs     : ∀ c ∈ s.mergeCommits, t.commitPrs.lookup c = s.commitPrs.lookup c
  titles  : ∀ c ∈ s.mergeCommits, t.commitTitles.lookup c = s.commitTitles.lookup c

inductive Activity where
  /-- A planner issues a task, and what became of it is recorded. -/
  | measured (call : Call)
  | refreshed

def Works (tracksHistory : Bool) (tipInterval : Rat) (s : SweepState) :
    Activity → SweepState → Prop
  | .measured call, t => Issue tracksHistory tipInterval s call t
  | .refreshed, t => Refreshed s t

namespace SweepState

variable {s t u : SweepState} {p q : BenchmarkPoint}

/-- The completed points of a state stay where they are, and so does what is said about them. -/
def Keeps (s t : SweepState) : Prop :=
  ∀ p ∈ s.orderedCompleted, p ∈ t.orderedCompleted ∧ t.indexOf p.commit = s.indexOf p.commit ∧
    Series.prOf t p = Series.prOf s p ∧ Series.prTitleOf t p = Series.prTitleOf s p

theorem Keeps.refl (s : SweepState) : Keeps s s := fun _ hp => ⟨hp, rfl, rfl, rfl⟩

theorem Keeps.trans (h : Keeps s t) (h' : Keeps t u) : Keeps s u := by
  intro p hp
  obtain ⟨ht, hplace, hpr, htitle⟩ := h p hp
  obtain ⟨hu, hplace', hpr', htitle'⟩ := h' p ht
  exact ⟨hu, hplace'.trans hplace, hpr'.trans hpr, htitle'.trans htitle⟩

/-- Adjacent commits stay adjacent, with the jump there was. -/
theorem Keeps.pinpointed (h : Keeps s t) (hpair : (p, q) ∈ s.pinpointed) :
    (p, q) ∈ t.pinpointed := by
  obtain ⟨hneighbours, hadjacent, hjumps⟩ := mem_pinpointed.mp hpair
  obtain ⟨hp, hq⟩ := neighbours_mem hneighbours
  obtain ⟨hp', hpplace, -⟩ := h p hp
  obtain ⟨hq', hqplace, -⟩ := h q hq
  have hadjacent' : t.Adjacent p q := by
    unfold Adjacent at hadjacent ⊢
    rw [hpplace, hqplace, hadjacent]
  refine mem_pinpointed.mpr ⟨?_, hadjacent', hjumps⟩
  refine mem_neighbours_of_not_between (fun p => t.indexOf p.commit) orderedCompleted_sorted hp' hq'
    ?_ fun x _ => ?_
  · unfold Adjacent at hadjacent'
    omega
  · unfold Adjacent at hadjacent'
    omega

theorem Keeps.annotationAt (h : Keeps s t) (hq : q ∈ s.orderedCompleted) (workload : String)
    (lowerIsBetter : Bool) :
    t.annotationAt workload lowerIsBetter (p, q) =
      s.annotationAt workload lowerIsBetter (p, q) := by
  obtain ⟨-, -, hpr, htitle⟩ := h q hq
  unfold SweepState.annotationAt annotate
  rw [hpr, htitle]
  rfl

/-- Only points are written. -/
theorem record_points (s : SweepState) (commit : String) (outcome : Outcome) :
    ∃ points, s.record commit outcome = { s with points } := by
  cases outcome with
  | measured value cv reps pr prTitle sample =>
    show ∃ points, s.recordResult commit value cv reps pr prTitle sample = { s with points }
    unfold recordResult
    split <;> exact ⟨_, rfl⟩
  | buildFailed =>
    show ∃ points, s.recordBuildFailure commit = { s with points }
    unfold recordBuildFailure
    split <;> exact ⟨_, rfl⟩

/-- A commit without a point is recorded: no other point changes. -/
theorem keeps_record {commit : String} (hopen : s.attempted commit = false) (outcome : Outcome) :
    Keeps s (s.record commit outcome) := by
  have hwrites := writes_record (s := s) commit outcome
  obtain ⟨points, hpoints⟩ := record_points s commit outcome
  intro p hp
  obtain ⟨hpoint, hcomplete, hlisted⟩ := mem_orderedCompleted.mp hp
  have hfind := Table.find?_key hpoint
  have hne : p.commit ≠ commit := by
    rintro rfl
    rw [attempted, hfind] at hopen
    cases hopen
  refine ⟨mem_orderedCompleted.mpr ⟨?_, hcomplete, hwrites.mergeCommits ▸ hlisted⟩, ?_, ?_, ?_⟩
  · rw [← hwrites.others _ hne] at hfind
    exact (Table.find?_eq_some_iff.mp hfind).1
  all_goals
    rw [hpoints]
    rfl

theorem keeps_refreshed (hlisted : s.Listed) (h : Refreshed s t) : Keeps s t := by
  intro p hp
  obtain ⟨hpoint, hcomplete, hmem⟩ := mem_orderedCompleted.mp hp
  have hmem' := h.commits.subset hmem
  refine ⟨mem_orderedCompleted.mpr ⟨h.points ▸ hpoint, hcomplete, hmem'⟩, ?_, ?_, ?_⟩
  · -- its place in the shorter list is its place in the longer one
    obtain ⟨i, hi⟩ := Option.isSome_iff_exists.mp (commitIndex_isSome.mpr hmem)
    have hget := (commitIndex_eq_some hlisted.nodup).mp hi
    obtain ⟨more, hmore⟩ := h.commits
    have hget' : t.mergeCommits[i]? = some p.commit := by
      rw [← hmore, List.getElem?_append_left (List.getElem?_eq_some_iff.mp hget).1, hget]
    rw [indexOf, indexOf, hi, (commitIndex_eq_some h.listed.nodup).mpr hget']
  · rw [Series.prOf, h.prs _ hmem]
    rfl
  · rw [Series.prTitleOf, h.titles _ hmem]
    rfl

variable {tracksHistory : Bool} {tipInterval : Rat}

/-- **A step of the sweep.** -/
theorem keeps_works {e : Activity} (hlisted : s.Listed)
    (h : Works tracksHistory tipInterval s e t) : Keeps s t ∧ t.Listed := by
  cases e with
  | measured call =>
    obtain ⟨hnext, rfl⟩ := h
    have hlisted' : (⟨s, tracksHistory, tipInterval⟩ : SweepPlanner).state.Listed := hlisted
    have hopen := (getNextTask_sound hlisted' hnext).unattempted
    have hcommits := (writes_record (s := s) call.task.commit call.outcome).mergeCommits
    exact ⟨keeps_record hopen _, hcommits ▸ hlisted.nodup, hcommits ▸ hlisted.named⟩
  | refreshed => exact ⟨keeps_refreshed hlisted h, Refreshed.listed h⟩

end SweepState

section Kept

open SweepState

variable {s t : SweepState} {tracksHistory : Bool} {tipInterval : Rat} {workload : String}
  {lowerIsBetter : Bool} {annotations later : List Annotation}

/-- **No annotation is withdrawn**, however many commits are measured after it, in whatever order,
and however far upstream moves on. -/
theorem annotations_kept {es : List Activity} (hlisted : s.Listed)
    (hrun : Run (Works tracksHistory tipInterval) s es t)
    (hbefore : s.buildAnnotations workload lowerIsBetter = .ok annotations)
    (hafter : t.buildAnnotations workload lowerIsBetter = .ok later) :
    ∀ a ∈ annotations, a ∈ later := by
  have hkeeps : Keeps s t ∧ t.Listed := by
    refine hrun.invariant (fun u => Keeps s u ∧ u.Listed) ⟨.refl s, hlisted⟩ ?_
    intro u e v hstep hu
    obtain ⟨hkeeps, hlisted⟩ := keeps_works hu.2 hstep
    exact ⟨hu.1.trans hkeeps, hlisted⟩
  rw [buildAnnotations_eq] at hbefore hafter
  split_ifs at hbefore hafter
  cases hbefore
  cases hafter
  intro a ha
  obtain ⟨⟨p, q⟩, hpair, rfl⟩ := List.mem_map.mp ha
  have hq := (neighbours_mem (mem_pinpointed.mp hpair).1).2
  rw [← hkeeps.1.annotationAt hq]
  exact List.mem_map_of_mem (hkeeps.1.pinpointed hpair)

/-- Two commits measured. -/
def sweptTwo : SweepState := (fourCommits.record "a" (quietly 100)).record "b" (quietly 110)

def sweptThree : SweepState := sweptTwo.record "d" (quietly 150)

/-- The head is measured next, before anything between. -/
theorem annotations_kept_head : ∃ a later, sweptTwo.buildAnnotations "get" false = .ok [a] ∧
    sweptThree.buildAnnotations "get" false = .ok later ∧ a ∈ later := by
  have hrows : (sweptTwo.points.rows.filter fun p =>
      p.isComplete && (sweptTwo.commitIndex p.commit).isSome) =
        [quietPoint "a" 100, quietPoint "b" 110] := by decide +kernel
  have hok : sweptTwo.buildAnnotations "get" false =
      .ok [sweptTwo.annotationAt "get" false (quietPoint "a" 100, quietPoint "b" 110)] := by
    rw [buildAnnotations, SweepState.neighbours,
      orderedCompleted_of_rows hrows (by decide +kernel)]
    decide +kernel
  have hrows' : (sweptThree.points.rows.filter fun p =>
      p.isComplete && (sweptThree.commitIndex p.commit).isSome) =
        [quietPoint "a" 100, quietPoint "b" 110, quietPoint "d" 150] := by decide +kernel
  have hok' : sweptThree.buildAnnotations "get" false =
      .ok [sweptThree.annotationAt "get" false (quietPoint "a" 100, quietPoint "b" 110)] := by
    rw [buildAnnotations, SweepState.neighbours,
      orderedCompleted_of_rows hrows' (by decide +kernel)]
    decide +kernel
  have hrun : Run (Works true 0) sweptTwo
      [.measured ⟨0, some "d", ⟨"d", "", .nightly, .newHead⟩, quietly 150⟩] sweptThree :=
    .single ⟨by decide +kernel, rfl⟩
  exact ⟨_, _, hok, hok', annotations_kept ⟨by decide +kernel, by decide +kernel⟩ hrun hok hok' _
    List.mem_cons_self⟩

end Kept

/-! ## The feed -/

structure NotableSource where
  state         : SweepState
  workload      : String
  metric        : String
  lowerIsBetter : Bool

/-- An entry of the feed: an annotation with its metric. -/
structure Notable where
  metric     : String
  annotation : Annotation
  deriving DecidableEq

/-- The key of the sort. -/
def Notable.key (entry : Notable) : String ×ₗ String :=
  toLex (entry.annotation.date, entry.annotation.commit)

/-- The annotations of a source. -/
def NotableSource.annotations (source : NotableSource) : Except ExportError (List Notable) :=
  (source.state.buildAnnotations source.workload source.lowerIsBetter).map
    (List.map (⟨source.metric, ·⟩))

/-- `export_notable`, the entries of the file. -/
def exportNotable (sources : List NotableSource) : Except ExportError (List Notable) := do
  let annotations ← sources.mapM NotableSource.annotations
  return annotations.flatten.insertionSort fun a b => b.key ≤ a.key

/-- The entries of a source. -/
def NotableSource.entries (source : NotableSource) : List Notable :=
  source.state.pinpointed.map fun pair =>
    ⟨source.metric, source.state.annotationAt source.workload source.lowerIsBetter pair⟩

theorem NotableSource.annotations_eq (source : NotableSource) : source.annotations =
    if ∃ pair ∈ source.state.neighbours, source.state.FromZero pair then .error .zeroDivisionError
    else .ok source.entries := by
  rw [annotations, SweepState.buildAnnotations_eq]
  split_ifs
  · rfl
  · exact congrArg Except.ok (List.map_map ..)

/-- **The feed** has an entry for each jump of each series that is pinned to one commit, the newest
first; there is none exactly when a series has a change from zero. -/
theorem exportNotable_spec (sources : List NotableSource) :
    (∀ feed, exportNotable sources = .ok feed →
      feed.Perm (sources.flatMap NotableSource.entries) ∧
        feed.Pairwise fun a b => b.key ≤ a.key) ∧
    ((∃ feed, exportNotable sources = .ok feed) ↔
      ∀ source ∈ sources, ∀ pair ∈ source.state.neighbours, ¬ source.state.FromZero pair) := by
  have heq : exportNotable sources =
      if ∃ source ∈ sources, ∃ pair ∈ source.state.neighbours, source.state.FromZero pair then
        .error .zeroDivisionError
      else .ok
        ((sources.flatMap NotableSource.entries).insertionSort fun a b => b.key ≤ a.key) := by
    rw [exportNotable, except_mapM_ite fun source _ => source.annotations_eq]
    split_ifs
    · rfl
    · rw [List.flatMap_def]
      rfl
  constructor
  · intro feed hfeed
    rw [heq] at hfeed
    split_ifs at hfeed
    cases hfeed
    refine ⟨List.perm_insertionSort _ _, ?_⟩
    exact List.pairwise_insertionSort _ _
  · rw [heq]
    split_ifs with hzero
    · obtain ⟨source, hsource, pair, hpair, hfrom⟩ := hzero
      constructor
      · rintro ⟨feed, hfeed⟩
        cases hfeed
      · intro hnone
        exact absurd hfrom (hnone source hsource pair hpair)
    · push Not at hzero
      exact ⟨fun _ => hzero, fun _ => ⟨_, rfl⟩⟩

end Conductress.Sweep
