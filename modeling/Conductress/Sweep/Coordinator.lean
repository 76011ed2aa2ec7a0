import Conductress.Sweep.NextTask
import Conductress.Sweep.CoordinatorV3

/-!
# When a coordinator measures the tip

`BaseSweepCoordinator`: what it knows of its clone, `has_nightly_task`, which the
runner asks first, `queue_next_if_needed`, which queues, and `record_result`,
which remembers when a tip was measured.

* `nightly_promise_iff` — when a coordinator that claims a nightly task queues
  one;
* `spaced_of_kept` — runs in which tip measurements keep their distance.
-/

namespace Conductress.Sweep

open Lib

/-! ## The clone -/

/-- What git says in the clone of a series: the head of the sweep ref, `none`
where it raises, and the commits up to it. -/
structure Clone where
  head      : Option String
  commits   : List String
  dates     : List (String × String)
  prs       : List (String × Int)
  titles    : List (String × String)
  landmarks : List Landmark

/-- `label[:1].isdigit()`. -/
def Landmark.isRelease (landmark : Landmark) : Bool :=
  landmark.label.toList.head?.any PyText.isDigit

/-- `latest_release_landmark`: the newest release by its place. -/
def latestReleaseLandmark (s : SweepState) : List Landmark :=
  (s.landmarks.filter fun landmark =>
      landmark.isRelease && (s.commitIndex landmark.commit).isSome).foldl
    (fun best landmark =>
      if best.all fun b => decide (s.indexOf b.commit < s.indexOf landmark.commit)
      then [landmark] else best) []

structure Coordinator where
  state         : SweepState
  tracksHistory : Bool
  tipInterval   : Rat
  retired       : Bool
  lastFetchTime : Rat

namespace Coordinator

variable (c : Coordinator)

def planner : SweepPlanner := ⟨c.state, c.tracksHistory, c.tipInterval⟩

/-- `_refresh_commits`. -/
def refreshCommits (clone : Clone) : Coordinator :=
  let listed : SweepState := { c.state with
    mergeCommits := clone.commits
    commitDates := clone.dates
    commitPrs := clone.prs
    commitTitles := clone.titles
    landmarks := clone.landmarks }
  { c with state :=
      if c.tracksHistory then listed
      else { listed with landmarks := latestReleaseLandmark listed } }

/-- `_fetch_and_refresh`: the fetch gives a clone, or raises. -/
def fetchAndRefresh (clone : Clone) (fetched : Option Clone) (now : Rat) : Coordinator × Clone :=
  if fetched.isNone ∧ c.state.mergeCommits ≠ [] then (c, clone)
  else
    let after := fetched.getD clone
    let c' := { c with lastFetchTime := now }
    let headNotInList := after.head.any fun head =>
      decide (head ≠ "" ∧ head ∉ c.state.mergeCommits)
    if after.head ≠ clone.head ∨ c.state.mergeCommits = [] ∨ headNotInList then
      (c'.refreshCommits after, after)
    else (c', after)

def sweepFetchInterval : Rat := 3600

/-- `has_nightly_task`: the answer, and what the fetch it may do leaves. -/
def hasNightlyTask (clone : Clone) (fetched : Option Clone) (now : Rat) :
    Bool × Coordinator × Clone :=
  match clone.head with
  | none => (false, c, clone)
  | some head =>
    let (c', clone') :=
      if head ∈ c.state.mergeCommits then (c, clone) else c.fetchAndRefresh clone fetched now
    if head ∉ c'.state.mergeCommits then (false, c', clone')
    else
      match c'.state.points.find? head with
      | some point =>
        if point.isComplete then (c'.planner.tipDue now (some head), c', clone')
        -- a pending or failed tip is re-tried
        else (decide (some head ≠ c'.state.lastBenchmarkedHead), c', clone')
      | none => (c'.planner.tipDue now (some head), c', clone')

/-- `_get_next_task`. -/
def getNextTask (clone : Clone) (fetched : Option Clone) (now : Rat) :
    Option SweepTask × Coordinator × Clone :=
  let (c', clone') :=
    if sweepFetchInterval ≤ now - c.lastFetchTime then c.fetchAndRefresh clone fetched now
    else (c, clone)
  (c'.planner.getNextTask now clone'.head, c', clone')

/-- `queue_next_if_needed`: the task it queues. -/
def queueNextIfNeeded (ownQueued : Bool) (clone : Clone) (fetched : Option Clone) (now : Rat) :
    Option SweepTask × Coordinator × Clone :=
  if c.retired || ownQueued then (none, c, clone) else c.getNextTask clone fetched now

/-- `record_result`, with the head as git names it then. -/
def recordResult (commit : String) (moment : Moment) (result : Rat × Rat × Nat) : Coordinator :=
  { c with state := CoordinatorV3.recordResult c.state commit moment result }

/-- `record_build_failure`. -/
def recordBuildFailure (commit : String) : Coordinator :=
  { c with state := c.state.recordBuildFailure commit }

end Coordinator

/-! ## What a claimed nightly task is worth -/

/-- The commit list is up to date: the head is in it, and a fetch brings no
other one. -/
structure UpToDate (c : Coordinator) (clone : Clone) (head : String) : Prop where
  named  : clone.head = some head
  listed : head ∈ c.state.mergeCommits

/-- The commits are listed, and the head of the clone among them, if it has one. -/
structure Listed (c : Coordinator) (clone : Clone) : Prop where
  commits : c.state.mergeCommits ≠ []
  listed  : ∀ head ∈ clone.head, head ∈ c.state.mergeCommits

/-- A fetch that finds nothing new. -/
def NothingNew (clone : Clone) (fetched : Option Clone) : Prop :=
  ∀ clone' ∈ fetched, clone'.head = clone.head

/-- Claiming a nightly task for the head, and queueing it when asked next. -/
def KeepsPromise (c : Coordinator) (clone : Clone) (head : String) (now now' : Rat)
    (fetched fetched' : Option Clone) : Prop :=
  let asked := c.hasNightlyTask clone fetched now
  asked.1 = true → ∃ task, (asked.2.1.queueNextIfNeeded false asked.2.2 fetched' now').1 = some task ∧
    task.commit = head ∧ task.priority = .nightly

section Promise

variable {c : Coordinator} {clone : Clone} {head : String} {now now' : Rat}
  {fetched fetched' : Option Clone}

theorem UpToDate.toListed (h : UpToDate c clone head) : Listed c clone where
  commits := List.ne_nil_of_mem h.listed
  listed := by
    intro named hnamed
    rw [h.named] at hnamed
    exact Option.some.inj hnamed ▸ h.listed

/-- With the list up to date a fetch changes no more than its own time. -/
theorem fetchAndRefresh_listed (now : Rat) (h : Listed c clone) (hnew : NothingNew clone fetched) :
    ∃ time clone', c.fetchAndRefresh clone fetched now = ({ c with lastFetchTime := time }, clone') ∧
      clone'.head = clone.head := by
  cases fetched with
  | none =>
    have heq : c.fetchAndRefresh clone none now = (c, clone) := by
      simp [Coordinator.fetchAndRefresh, h.commits]
    exact ⟨c.lastFetchTime, clone, heq, rfl⟩
  | some after =>
    have hafter : after.head = clone.head := hnew after rfl
    have hknown : (after.head.any fun head =>
        decide (head ≠ "" ∧ head ∉ c.state.mergeCommits)) = false := by
      rw [Option.any_eq_false]
      intro head hhead
      have hin := h.listed head (hafter ▸ hhead)
      simp [hin]
    have heq : c.fetchAndRefresh clone (some after) now = ({ c with lastFetchTime := now }, after) := by
      unfold Coordinator.fetchAndRefresh
      simp only [Option.isNone_some, Bool.false_eq_true, false_and, if_false, Option.getD_some,
        hafter, ne_eq, not_true_eq_false, h.commits, false_or]
      rw [hafter] at hknown
      rw [hknown]
      rfl
    exact ⟨now, after, heq, hafter⟩

/-- What is queued next, and what a call leaves, with the list up to date. -/
theorem queueNext_listed (own : Bool) (now : Rat) (h : Listed c clone)
    (hnew : NothingNew clone fetched) :
    ∃ time clone', c.queueNextIfNeeded own clone fetched now =
        (if c.retired || own then none else c.planner.getNextTask now clone.head,
          { c with lastFetchTime := time }, clone') ∧ clone'.head = clone.head := by
  unfold Coordinator.queueNextIfNeeded
  split
  · exact ⟨c.lastFetchTime, clone, rfl, rfl⟩
  · unfold Coordinator.getNextTask
    by_cases hstale : Coordinator.sweepFetchInterval ≤ now - c.lastFetchTime
    · obtain ⟨time, clone', heq, hhead⟩ := fetchAndRefresh_listed now h hnew
      refine ⟨time, clone', ?_, hhead⟩
      simp only [if_pos hstale, heq, hhead]
      rfl
    · refine ⟨c.lastFetchTime, clone, ?_, rfl⟩
      simp only [if_neg hstale]

/-- The answer of `has_nightly_task`: no fetch is needed for it. -/
theorem hasNightlyTask_upToDate (h : UpToDate c clone head) :
    c.hasNightlyTask clone fetched now =
      (match c.state.points.find? head with
        | some point =>
          if point.isComplete then c.planner.tipDue now (some head)
          else decide (some head ≠ c.state.lastBenchmarkedHead)
        | none => c.planner.tipDue now (some head), c, clone) := by
  unfold Coordinator.hasNightlyTask
  rw [h.named]
  simp only [h.listed, if_true, not_true_eq_false, if_false]
  cases c.state.points.find? head with
  | none => rfl
  | some point =>
    dsimp only
    split <;> rfl

/-- What is queued next, before anything else of the series is. -/
theorem queueNext_upToDate (h : UpToDate c clone head) (hnew : NothingNew clone fetched') :
    (c.queueNextIfNeeded false clone fetched' now').1 =
      if c.retired then none else c.planner.getNextTask now' (some head) := by
  obtain ⟨time, clone', heq, -⟩ := queueNext_listed false now' h.toListed hnew
  rw [heq, Bool.or_false, h.named]

/-- The interval has passed since the tip was measured. -/
theorem tipTooSoon_false {planner : SweepPlanner} : planner.tipTooSoon now = false ↔
    ∀ lastAt ∈ planner.state.lastBenchmarkedHeadAt, 0 < planner.tipIntervalSeconds →
      planner.tipIntervalSeconds ≤ now - lastAt := by
  unfold SweepPlanner.tipTooSoon
  cases planner.state.lastBenchmarkedHeadAt with
  | none => simp
  | some lastAt =>
    by_cases hpos : 0 < planner.tipIntervalSeconds
    · simp [hpos]
    · simp [hpos]

/-- A tip that is due stays due. -/
theorem tipDue_mono {planner : SweepPlanner} (hle : now ≤ now')
    (h : planner.tipDue now (some head) = true) : planner.tipDue now' (some head) = true := by
  rw [SweepPlanner.tipDue_some, tipTooSoon_false] at h ⊢
  refine ⟨h.1, h.2.1, ?_⟩
  intro lastAt hlast hpos
  exact le_trans (h.2.2 lastAt hlast hpos) (sub_le_sub_right hle lastAt)

/-- A due tip is the first thing a planner issues. -/
theorem getNextTask_nightly {planner : SweepPlanner} (h : planner.tipDue now (some head) = true) :
    ∃ task, planner.getNextTask now (some head) = some task ∧ task.commit = head ∧
      task.priority = .nightly := by
  have hnightly : planner.checkNightly now (some head) =
      some ⟨head, planner.state.dateOf head, .nightly, .newHead⟩ := by
    rw [SweepPlanner.checkNightly, if_pos h]
    rfl
  refine ⟨⟨head, planner.state.dateOf head, .nightly, .newHead⟩, ?_, rfl, rfl⟩
  rw [SweepPlanner.getNextTask, hnightly]
  rfl

/-- A nightly task is for a tip that is due. -/
theorem tipDue_of_nightly {planner : SweepPlanner} {task : SweepTask} {current : Option String}
    (h : planner.getNextTask now current = some task) (hpriority : task.priority = .nightly) :
    current = some task.commit ∧ planner.tipDue now current = true := by
  rcases SweepPlanner.getNextTask_cases h with h | h | h | h
  · obtain ⟨hcommit, hdue, -⟩ := SweepPlanner.checkNightly_eq_some h
    exact ⟨hcommit, hdue⟩
  · obtain ⟨-, -, hother, -⟩ := SweepState.checkLandmarks_eq_some h
    rw [hpriority] at hother
    cases hother
  · obtain ⟨-, -, -, hother, -⟩ := SweepState.checkBisection_eq_some h
    rw [hpriority] at hother
    cases hother
  · rcases SweepState.checkBackfill_eq_some h with ⟨-, h⟩ | ⟨-, -, -, hother, -⟩
    · obtain ⟨-, -, -, hother⟩ := SweepState.skeletonTask_eq_some h
      rw [hpriority] at hother
      cases hother
    · rw [hpriority] at hother
      cases hother

/-- The head has a point that is no measurement, and is not the head measured
last: claimed, and never issued. -/
def RetriedInVain (c : Coordinator) (head : String) : Prop :=
  ∃ point, c.state.points.find? head = some point ∧ point.isComplete = false ∧
    some head ≠ c.state.lastBenchmarkedHead

/-- Why a nightly task is claimed, and that it is when a tip is due, with the
list up to date. -/
theorem hasNightlyTask_listed (fetched : Option Clone) (now : Rat) (h : Listed c clone) :
    (c.hasNightlyTask clone fetched now).2 = (c, clone) ∧
      ((c.hasNightlyTask clone fetched now).1 = true → ∃ head, clone.head = some head ∧
        (RetriedInVain c head ∨ c.planner.tipDue now (some head) = true)) ∧
      (c.planner.tipDue now clone.head = true → (c.hasNightlyTask clone fetched now).1 = true) := by
  cases hhead : clone.head with
  | none =>
    have heq : c.hasNightlyTask clone fetched now = (false, c, clone) := by
      unfold Coordinator.hasNightlyTask
      rw [hhead]
    rw [heq]
    refine ⟨rfl, fun hclaims => ?_, fun hdue => ?_⟩
    · cases hclaims
    · cases hdue
  | some head =>
    rw [hasNightlyTask_upToDate ⟨hhead, h.listed head hhead⟩]
    refine ⟨rfl, fun hclaims => ⟨head, rfl, ?_⟩, fun hdue => ?_⟩
    · cases hpoint : c.state.points.find? head with
      | none =>
        rw [hpoint] at hclaims
        exact .inr hclaims
      | some point =>
        rw [hpoint] at hclaims
        dsimp only at hclaims
        split at hclaims
        · exact .inr hclaims
        · next hincomplete =>
          rw [Bool.not_eq_true] at hincomplete
          exact .inl ⟨point, hpoint, hincomplete, of_decide_eq_true hclaims⟩
    · have hnone : c.state.points.find? head = none := by
        have hattempted := (SweepPlanner.tipDue_some.mp hdue).2.1
        exact Option.isSome_eq_false_iff.mp hattempted |> Option.isNone_iff_eq_none.mp
      rw [hnone]
      exact hdue

end Promise

/-- A claimed nightly task is queued next exactly when the head has no failed or
pending point and the series is not retired. -/
theorem nightly_promise_iff {c : Coordinator} {clone : Clone} {head : String} {now now' : Rat}
    {fetched fetched' : Option Clone} (h : UpToDate c clone head)
    (hnew : NothingNew clone fetched') (hle : now ≤ now') :
    KeepsPromise c clone head now now' fetched fetched' ↔
      ¬ RetriedInVain c head ∧
        ¬ (c.retired = true ∧ c.planner.tipDue now (some head) = true) := by
  unfold KeepsPromise
  rw [hasNightlyTask_upToDate h]
  simp only
  rw [queueNext_upToDate h hnew]
  have hqueued : (∃ task, (if c.retired then none else c.planner.getNextTask now' (some head)) =
      some task ∧ task.commit = head ∧ task.priority = .nightly) ↔
      c.retired = false ∧ c.planner.tipDue now' (some head) = true := by
    cases c.retired with
    | true => simp
    | false =>
      simp only [Bool.false_eq_true, if_false, true_and]
      constructor
      · rintro ⟨task, hnext, -, hpriority⟩
        exact (tipDue_of_nightly hnext hpriority).2
      · exact getNextTask_nightly
  rw [hqueued]
  unfold RetriedInVain
  cases hpoint : c.state.points.find? head with
  | none =>
    -- no point: the tip is due or not, for the predicate and for the queue
    simp only [reduceCtorEq, false_and, exists_false, not_false_eq_true, true_and]
    constructor
    · rintro hkeeps ⟨hretired, hdue⟩
      rw [(hkeeps hdue).1] at hretired
      cases hretired
    · intro hnot hdue
      refine ⟨?_, tipDue_mono hle hdue⟩
      cases hretired : c.retired with
      | false => rfl
      | true => exact absurd ⟨hretired, hdue⟩ hnot
  | some point =>
    -- with a point the queue never sees a tip
    have hdone : ∀ time, c.planner.tipDue time (some head) = false := by
      intro time
      have hattempted : c.planner.state.attempted head = true := by
        show (c.state.points.find? head).isSome = true
        rw [hpoint]
        rfl
      simp [SweepPlanner.tipDue, hattempted]
    simp only [hdone, Bool.false_eq_true, and_false, not_false_eq_true, and_true, imp_false,
      Option.some.injEq]
    cases hcomplete : point.isComplete with
    | true => simp [hcomplete]
    | false => simp [hcomplete]

/-- A clone with three commits. -/
def threeClone : Clone := ⟨some "c", ["a", "b", "c"], [], [], [], []⟩

/-- A series that has measured nothing yet. -/
def newSeries : Coordinator := ⟨threeCommits, true, 0, false, 0⟩

theorem nightly_promise_three :
    KeepsPromise newSeries threeClone "c" 0 10 none none ↔
      ¬ RetriedInVain newSeries "c" ∧
        ¬ (newSeries.retired = true ∧ newSeries.planner.tipDue 0 (some "c") = true) :=
  nightly_promise_iff ⟨rfl, by decide⟩ (fun _ h => nomatch h) (by decide +kernel)

/-- The build of the head has failed. -/
def failedHead : Coordinator := newSeries.recordBuildFailure "c"

theorem failedHead_claims : ¬ ∀ (c : Coordinator) (clone : Clone) (head : String) (now now' : Rat)
    (fetched fetched' : Option Clone), UpToDate c clone head → NothingNew clone fetched' →
    now ≤ now' → KeepsPromise c clone head now now' fetched fetched' := by
  intro h
  have hdate : UpToDate failedHead threeClone "c" := ⟨rfl, by decide +kernel⟩
  obtain ⟨task, htask, -, hpriority⟩ := h failedHead threeClone "c" 0 10 none none hdate
    (fun _ h => nomatch h) (by decide +kernel) (by decide +kernel)
  have hbackfill : (failedHead.queueNextIfNeeded false threeClone none 10).1 =
      some ⟨"a", "", .backfill, .skeleton⟩ := by decide +kernel
  have hasked : failedHead.hasNightlyTask threeClone none 0 = (true, failedHead, threeClone) :=
    (hasNightlyTask_upToDate hdate).trans (congrArg (·, failedHead, threeClone) (by decide +kernel))
  rw [hasked, hbackfill] at htask
  cases htask
  cases hpriority

/-! ## The spacing of tip measurements -/

/-- A release-and-tip series, the clone it asks, and what it has running. -/
structure TipWorld where
  coordinator : Coordinator
  clone       : Clone
  running     : List SweepTask
  now         : Rat

inductive TipEvent where
  /-- The clone moves: another series of the engine has fetched. -/
  | advanced (now : Rat) (clone : Clone)
  /-- The runner asks for a nightly task. -/
  | polled (now : Rat) (fetched : Option Clone)
  /-- A task is queued. -/
  | issued (now : Rat) (fetched : Option Clone) (task : SweepTask)
  /-- A task completes, with the result read back from the log. -/
  | completed (now : Rat) (task : SweepTask) (result : Option (Rat × Rat × Nat))
  | failed (now : Rat) (task : SweepTask)
  /-- The runner starts again from the state file. -/
  | restarted (now : Rat)

def TipEvent.time : TipEvent → Rat
  | .advanced now _ | .polled now _ | .issued now _ _ | .completed now _ _ | .failed now _
  | .restarted now => now

namespace TipWorld

/-- What can happen: time does not run backwards, the task a coordinator queues
is issued, and only an issued task completes or fails. -/
def Allowed (w : TipWorld) (e : TipEvent) : Prop :=
  w.now ≤ e.time ∧
    match e with
    | .issued now fetched task =>
      (w.coordinator.queueNextIfNeeded false w.clone fetched now).1 = some task
    | .completed _ task _ | .failed _ task => task ∈ w.running
    | _ => True

def next (w : TipWorld) : TipEvent → TipWorld
  | .advanced now clone => { w with clone, now }
  | .polled now fetched =>
    let (_, coordinator, clone) := w.coordinator.hasNightlyTask w.clone fetched now
    { w with coordinator, clone, now }
  | .issued now fetched task =>
    let (_, coordinator, clone) := w.coordinator.queueNextIfNeeded false w.clone fetched now
    { coordinator, clone, running := task :: w.running, now }
  | .completed now task result =>
    { w with
      coordinator := result.elim w.coordinator
        (w.coordinator.recordResult task.commit ⟨w.clone.head, now⟩)
      running := w.running.erase task
      now }
  | .failed now task =>
    { w with
      coordinator := w.coordinator.recordBuildFailure task.commit
      running := w.running.erase task
      now }
  | .restarted now =>
    { w with coordinator := { w.coordinator with lastFetchTime := 0 }, now }

def Step (w : TipWorld) (e : TipEvent) (w' : TipWorld) : Prop := Allowed w e ∧ w' = w.next e

instance Allowed.decidable (w : TipWorld) : ∀ e, Decidable (Allowed w e)
  | .advanced now _ | .polled now _ | .restarted now =>
    inferInstanceAs (Decidable (w.now ≤ now ∧ True))
  | .issued now fetched task => inferInstanceAs (Decidable (w.now ≤ now ∧
      (w.coordinator.queueNextIfNeeded false w.clone fetched now).1 = some task))
  | .completed now task _ | .failed now task =>
    inferInstanceAs (Decidable (w.now ≤ now ∧ task ∈ w.running))

/-- A tip measurement that completes leaves its time behind: its result is read,
and the head has not moved on since it was issued. -/
def Kept (w : TipWorld) : TipEvent → Prop
  | .completed _ task result =>
    task.priority = .nightly → result.isSome = true ∧ w.clone.head = some task.commit
  | _ => True

instance Kept.decidable (w : TipWorld) : ∀ e, Decidable (Kept w e)
  | .completed _ task result => inferInstanceAs (Decidable (task.priority = .nightly →
      result.isSome = true ∧ w.clone.head = some task.commit))
  | .advanced .. | .polled .. | .issued .. | .failed .. | .restarted .. => isTrue trivial

end TipWorld

/-- A later issue of a tip keeps its distance from a completed one. -/
def Apart (interval : Rat) : TipEvent → TipEvent → Prop
  | .completed now task _, .issued now' _ tip =>
    task.priority = .nightly → tip.priority = .nightly → interval ≤ now' - now
  | _, _ => True

/-- After a tip measurement has completed, the next one is issued no earlier
than the interval later. -/
def Spaced (interval : Rat) (events : List TipEvent) : Prop := events.Pairwise (Apart interval)

/-! ### What changes the time of the last tip -/

/-- Nothing the spacing depends on changes. -/
structure SameTip (c c' : Coordinator) : Prop where
  at_      : c'.state.lastBenchmarkedHeadAt = c.state.lastBenchmarkedHeadAt
  interval : c'.tipInterval = c.tipInterval

section SameTip

variable {c : Coordinator} {clone : Clone} {fetched : Option Clone} {now : Rat}

theorem SameTip.refl (c : Coordinator) : SameTip c c := ⟨rfl, rfl⟩

theorem sameTip_fetchAndRefresh : SameTip c (c.fetchAndRefresh clone fetched now).1 := by
  unfold Coordinator.fetchAndRefresh
  split
  · exact .refl c
  · dsimp only
    split
    · unfold Coordinator.refreshCommits
      dsimp only
      split
      · exact ⟨rfl, rfl⟩
      · exact ⟨rfl, rfl⟩
    · exact ⟨rfl, rfl⟩

theorem sameTip_hasNightlyTask : SameTip c (c.hasNightlyTask clone fetched now).2.1 := by
  unfold Coordinator.hasNightlyTask
  split
  · exact .refl c
  · next head _ =>
    by_cases hlisted : head ∈ c.state.mergeCommits
    · simp only [if_pos hlisted]
      split
      · exact .refl c
      · split
        · split <;> exact .refl c
        · exact .refl c
    · simp only [if_neg hlisted]
      split
      · exact sameTip_fetchAndRefresh
      · split
        · split <;> exact sameTip_fetchAndRefresh
        · exact sameTip_fetchAndRefresh

theorem sameTip_queueNext :
    SameTip c (c.queueNextIfNeeded false clone fetched now).2.1 := by
  unfold Coordinator.queueNextIfNeeded
  split
  · exact .refl c
  · unfold Coordinator.getNextTask
    by_cases hstale : Coordinator.sweepFetchInterval ≤ now - c.lastFetchTime
    · simp only [if_pos hstale]
      exact sameTip_fetchAndRefresh
    · simp only [if_neg hstale]
      exact .refl c

/-- A queued tip was due by the time of the last one. -/
theorem queueNext_nightly {task : SweepTask}
    (h : (c.queueNextIfNeeded false clone fetched now).1 = some task)
    (hpriority : task.priority = .nightly) :
    ∀ lastAt ∈ c.state.lastBenchmarkedHeadAt, 0 < c.tipInterval → c.tipInterval ≤ now - lastAt := by
  have hdue : ∀ c' : Coordinator, SameTip c c' → ∀ head,
      c'.planner.getNextTask now head = some task →
      ∀ lastAt ∈ c.state.lastBenchmarkedHeadAt, 0 < c.tipInterval →
        c.tipInterval ≤ now - lastAt := by
    intro c' hsame head hnext
    obtain ⟨rfl, hdue⟩ := tipDue_of_nightly hnext hpriority
    have hsoon := tipTooSoon_false.mp (SweepPlanner.tipDue_some.mp hdue).2.2
    rw [← hsame.at_, ← hsame.interval]
    exact hsoon
  unfold Coordinator.queueNextIfNeeded at h
  split at h
  · cases h
  · unfold Coordinator.getNextTask at h
    by_cases hstale : Coordinator.sweepFetchInterval ≤ now - c.lastFetchTime
    · simp only [if_pos hstale] at h
      exact hdue _ sameTip_fetchAndRefresh _ h
    · simp only [if_neg hstale] at h
      exact hdue c (.refl c) _ h

theorem recordResult_at (commit : String) (moment : Moment) (result : Rat × Rat × Nat) :
    (c.recordResult commit moment result).state.lastBenchmarkedHeadAt =
      if moment.head = some commit then some moment.now else c.state.lastBenchmarkedHeadAt := by
  show (CoordinatorV3.recordResult c.state commit moment result).lastBenchmarkedHeadAt = _
  unfold CoordinatorV3.recordResult
  split
  · rfl
  · unfold SweepState.recordResult
    split <;> rfl

theorem recordBuildFailure_at (commit : String) :
    (c.recordBuildFailure commit).state.lastBenchmarkedHeadAt = c.state.lastBenchmarkedHeadAt := by
  show (c.state.recordBuildFailure commit).lastBenchmarkedHeadAt = _
  unfold SweepState.recordBuildFailure
  split <;> rfl

end SameTip

/-! ### Runs -/

namespace TipWorld

variable {w : TipWorld} {e : TipEvent} {events : List TipEvent} {interval : Rat}

theorem next_now (w : TipWorld) (e : TipEvent) : (w.next e).now = e.time := by
  cases e <;> rfl

/-- Only a completion changes the time of the last tip. -/
theorem sameTip_next (hother : ∀ now task result, e ≠ .completed now task result) :
    SameTip w.coordinator (w.next e).coordinator := by
  cases e with
  | advanced => exact .refl _
  | polled => exact sameTip_hasNightlyTask
  | issued => exact sameTip_queueNext
  | completed now task result => exact absurd rfl (hother now task result)
  | failed => exact ⟨recordBuildFailure_at _, rfl⟩
  | restarted => exact ⟨rfl, rfl⟩

/-- A completion stamps its own time, or leaves the last one. -/
theorem completed_at {now : Rat} {task : SweepTask} {result : Option (Rat × Rat × Nat)} :
    (w.next (.completed now task result)).coordinator.state.lastBenchmarkedHeadAt =
      if result.isSome = true ∧ w.clone.head = some task.commit then some now
      else w.coordinator.state.lastBenchmarkedHeadAt := by
  cases result with
  | none => rfl
  | some result =>
    show (w.coordinator.recordResult task.commit ⟨w.clone.head, now⟩
      result).state.lastBenchmarkedHeadAt = _
    rw [recordResult_at]
    simp

/-- Every completed tip has left its time, or a later one. -/
structure Timed (interval : Rat) (events : List TipEvent) (w : TipWorld) : Prop where
  interval : w.coordinator.tipInterval = interval
  past     : ∀ e ∈ events, e.time ≤ w.now
  stamped  : ∀ now task result, .completed now task result ∈ events → task.priority = .nightly →
    ∃ lastAt ∈ w.coordinator.state.lastBenchmarkedHeadAt, now ≤ lastAt

/-- The step lemma: the new stamp is the latest time of all. -/
theorem Timed.step (h : Timed interval events w) (hallowed : Allowed w e) (hkept : Kept w e) :
    Timed interval (events ++ [e]) (w.next e) := by
  have hle := hallowed.1
  refine ⟨?_, ?_, ?_⟩
  · rw [← h.interval]
    by_cases hcompleted : ∃ now task result, e = .completed now task result
    · obtain ⟨now, task, result, rfl⟩ := hcompleted
      cases result <;> rfl
    · exact (sameTip_next fun now task result heq => hcompleted ⟨now, task, result, heq⟩).interval
  · intro e' he'
    rw [next_now]
    rcases List.mem_append.mp he' with he' | he'
    · exact le_trans (h.past e' he') hle
    · rw [List.mem_singleton.mp he']
  · intro time tip measured hmem hpriority
    rcases List.mem_append.mp hmem with hmem | hmem
    · obtain ⟨lastAt, hlast, htime⟩ := h.stamped time tip measured hmem hpriority
      have hpast : time ≤ w.now := h.past _ hmem
      by_cases hcompleted : ∃ now task result, e = .completed now task result
      · obtain ⟨now, task, result, rfl⟩ := hcompleted
        rw [completed_at]
        split
        · exact ⟨now, rfl, le_trans hpast hle⟩
        · exact ⟨lastAt, hlast, htime⟩
      · have hsame := sameTip_next (w := w)
          fun now task result heq => hcompleted ⟨now, task, result, heq⟩
        rw [hsame.at_]
        exact ⟨lastAt, hlast, htime⟩
    · -- the completion itself
      have heq := List.mem_singleton.mp hmem
      subst heq
      rw [completed_at, if_pos (hkept hpriority)]
      exact ⟨time, rfl, le_refl time⟩

/-- A tip that is issued keeps its distance from those completed before. -/
theorem Timed.apart (h : Timed interval events w) (hallowed : Allowed w e) {past : TipEvent}
    (hpast : past ∈ events) : Apart interval past e := by
  match past, e with
  | .completed time tip result, .issued now fetched task =>
    intro htip hpriority
    obtain ⟨lastAt, hlast, htime⟩ := h.stamped time tip result hpast htip
    by_cases hpos : 0 < w.coordinator.tipInterval
    · have hspaced := queueNext_nightly hallowed.2 hpriority lastAt hlast hpos
      rw [h.interval] at hspaced
      exact le_trans hspaced (sub_le_sub_left htime now)
    · have hearlier : time ≤ now := le_trans (h.past _ hpast) hallowed.1
      rw [h.interval] at hpos
      exact le_trans (not_lt.mp hpos) (sub_nonneg.mpr hearlier)
  | .advanced .., _ | .polled .., _ | .issued .., _ | .failed .., _ | .restarted .., _ => trivial
  | .completed .., .advanced .. | .completed .., .polled .. | .completed .., .completed ..
  | .completed .., .failed .. | .completed .., .restarted .. => trivial

/-- In every run whose completed tips are read back before the head moves on,
tip measurements keep the interval. -/
theorem spaced_of_kept {w w' : TipWorld} {events : List TipEvent}
    (hrun : Lib.Run (fun w e w' => (Allowed w e ∧ Kept w e) ∧ w' = w.next e) w events w') :
    Spaced w.coordinator.tipInterval events := by
  have hall : Spaced w.coordinator.tipInterval events ∧
      Timed w.coordinator.tipInterval events w' := by
    induction hrun with
    | refl => exact ⟨.nil, rfl, by simp, by simp⟩
    | snoc _ hstep ih =>
      obtain ⟨hspaced, htimed⟩ := ih
      obtain ⟨⟨hallowed, hkept⟩, rfl⟩ := hstep
      refine ⟨List.pairwise_append.mpr ⟨hspaced, List.pairwise_singleton _ _, ?_⟩,
        htimed.step hallowed hkept⟩
      intro past hpast e he
      rw [List.mem_singleton.mp he]
      exact htimed.apart hallowed hpast
  exact hall.1

end TipWorld

/-- A release-and-tip series that samples the tip once a day. -/
def dailySeries : Coordinator := ⟨threeCommits, false, 86400, false, 0⟩

def dailyWorld : TipWorld := ⟨dailySeries, threeClone, [], 0⟩

def tipTask (commit : String) : SweepTask := ⟨commit, "", .nightly, .newHead⟩

/-- A tip measurement that finds its head unmoved, and the next head a day later. -/
def quietDay : List TipEvent :=
  [.issued 0 none (tipTask "c"), .completed 100 (tipTask "c") (some (1000, 1, 3)),
    .advanced 200 { threeClone with head := some "d" }, .issued 86500 none (tipTask "d")]

theorem quietDay_spaced : Spaced dailyWorld.coordinator.tipInterval quietDay :=
  TipWorld.spaced_of_kept (Lib.Run.of_guarded TipWorld.next
    (fun w e => TipWorld.Allowed w e ∧ TipWorld.Kept w e) quietDay dailyWorld (by decide +kernel))

/-- The head moves on while its measurement runs. -/
def busyDay : List TipEvent :=
  [.issued 0 none (tipTask "c"), .advanced 50 { threeClone with head := some "d" },
    .completed 100 (tipTask "c") (some (1000, 1, 3)), .issued 200 none (tipTask "d")]

/-- The next tip is measured right away. -/
theorem busyDay_crowded : ¬ ∀ (w w' : TipWorld) (events : List TipEvent),
    0 < w.coordinator.tipInterval → w.coordinator.tracksHistory = false →
    Lib.Run TipWorld.Step w events w' → Spaced w.coordinator.tipInterval events := by
  intro h
  have hspaced := h dailyWorld _ busyDay (by decide +kernel) rfl
    (Lib.Run.of_guarded TipWorld.next TipWorld.Allowed busyDay dailyWorld (by decide +kernel))
  have hapart : Apart 86400 (.completed 100 (tipTask "c") (some (1000, 1, 3)))
      (.issued 200 none (tipTask "d")) :=
    List.rel_of_pairwise_cons hspaced.tail.tail List.mem_cons_self
  revert hapart
  unfold Apart
  decide +kernel

end Conductress.Sweep
