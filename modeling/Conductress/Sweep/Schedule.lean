import Mathlib.Data.List.Sort
import Mathlib.Logic.Function.Basic
import Mathlib.Order.Lattice
import Conductress.Sweep.Coordinator
import Conductress.Sweep.SweepConfig

/-!
# Which series queues next

`TaskRunner._schedule_next` over the registered coordinators: a series with a
nightly task first, in the order of the epochs, and then the others by tier and
urgency. A memory series is also asked when a task of its own completes; the
file of that task lies in the queue until the callbacks are done, so it finds
one of its own there.

* `scheduleNext_inOrder` — what one decision queues;
* `queued_in_order` — what is queued in a run: allowed series only, nightly
  tasks first, deferred backfill last;
* `failed_tip_first` — a series whose tip has failed takes the place of a
  nightly task.
-/

namespace Conductress.Sweep

open Lib

/-! ## The runner -/

/-- The coordinators of a runner, with what their classes define: scores of a
type `υ` and task documents of a type `τ`. -/
structure SweepRunner (ι τ υ : Type) where
  /-- In the order they were registered in. -/
  subscribers     : List ι
  workloadId      : ι → String
  epochId         : ι → String
  repoPath        : ι → String
  /-- The series is a `MemorySweepCoordinator`. -/
  isMemory        : ι → Bool
  urgencyScore    : ι → Coordinator → υ
  createTask      : ι → SweepTask → τ
  isMyTask        : ι → τ → Bool
  sweepCommit     : τ → String
  epochPrecedence : List String
  named           : ∀ i, workloadId i ≠ ""

/-- What one call of a coordinator meets: the fetch it may make, and the time. -/
structure Answer where
  fetched : Option Clone
  now     : Rat

/-- The calls of one decision to one coordinator: for its nightly task, for a
task once it has claimed one, and for a task in its turn. -/
structure Answers where
  asked   : Answer
  claimed : Answer
  queued  : Answer

/-- What decisions are made on: coordinators, the clones by their paths, the
tasks in the queue directory, and `sweep_config.json` as it loads. -/
structure Planning (ι τ : Type) where
  coordinator : ι → Coordinator
  clone       : String → Clone
  queue       : List τ
  config      : SweepConfig
  now         : Rat

/-- What a pass over the subscribers comes to; once it has ended, the decision
is over. -/
structure Pass (ι τ : Type) where
  issued : Option (ι × SweepTask)
  ended  : Bool
  after  : Planning ι τ

/-- After a call of a coordinator. -/
def Planning.called {ι τ : Type} [DecidableEq ι] (w : Planning ι τ) (i : ι) (repo : String)
    (now : Rat) (c : Coordinator) (clone : Clone) : Planning ι τ :=
  { w with
    coordinator := Function.update w.coordinator i c
    clone := Function.update w.clone repo clone
    now }

namespace SweepRunner

variable {ι τ υ : Type} [DecidableEq ι] (R : SweepRunner ι τ υ)

/-- `has_nightly_task`. -/
def hasNightlyTask (i : ι) (a : Answer) (w : Planning ι τ) : Bool × Planning ι τ :=
  let (claims, c, clone) :=
    (w.coordinator i).hasNightlyTask (w.clone (R.repoPath i)) a.fetched a.now
  (claims, w.called i (R.repoPath i) a.now c clone)

/-- `queue_next_if_needed`, which is all that `on_queue_empty` does. -/
def queueNextIfNeeded (i : ι) (a : Answer) (w : Planning ι τ) : Option SweepTask × Planning ι τ :=
  let (task, c, clone) := (w.coordinator i).queueNextIfNeeded (w.queue.any (R.isMyTask i))
    (w.clone (R.repoPath i)) a.fetched a.now
  let w := w.called i (R.repoPath i) a.now c clone
  (task, { w with queue := w.queue ++ (task.map (R.createTask i)).toList })

/-- `defer_backfill`. -/
def deferBackfill (i : ι) : Bool := R.isMemory i

/-- `schedule_tier`. -/
def scheduleTier (i : ι) (w : Planning ι τ) : ℕ :=
  if R.deferBackfill i then
    match (w.coordinator i).planner.getNextTask w.now none with
    | some task => if task.priority = .backfill then 1 else 0
    | none => 0
  else 0

/-- `config.is_allowed`, for the workload and epoch of a series. -/
def isAllowed (config : SweepConfig) (i : ι) : Except PyError Bool :=
  config.isAllowed (R.workloadId i) (R.epochId i)

/-- `_epoch_ordered_subscribers`: an epoch that is not listed comes after all
that are. -/
def epochOrderedSubscribers : List ι :=
  R.subscribers.insertionSort fun i j =>
    R.epochPrecedence.idxOf (R.epochId i) ≤ R.epochPrecedence.idxOf (R.epochId j)

/-- The subscribers that are not retired, in that order. -/
def ordered (w : Planning ι τ) : List ι :=
  R.epochOrderedSubscribers.filter fun i => !(w.coordinator i).retired

/-! ## `_schedule_next` -/

/-- The first pass: the first coordinator with a nightly task queues. -/
def nightlyPass (answers : ι → Answers) : List ι → Planning ι τ → Pass ι τ
  | [], w => ⟨none, false, w⟩
  | i :: rest, w =>
    match R.isAllowed w.config i with
    -- what `is_allowed` raises ends the decision, and the runner with it
    | .error _ => ⟨none, true, w⟩
    | .ok false => nightlyPass answers rest w
    | .ok true =>
      let (claims, w) := R.hasNightlyTask i (answers i).asked w
      if claims then
        let (task, w) := R.queueNextIfNeeded i (answers i).claimed w
        if w.queue.isEmpty then nightlyPass answers rest w
        else ⟨task.map fun task => (i, task), true, w⟩
      else nightlyPass answers rest w

/-- The candidates of the second pass. -/
def candidates (config : SweepConfig) : List ι → Except PyError (List ι)
  | [] => .ok []
  | i :: rest => do
    if ← R.isAllowed config i then
      let rest ← candidates config rest
      return i :: rest
    else candidates config rest

/-- The order of the candidates: by tier, and the most urgent first. -/
def comesFirst [LE υ] [DecidableLE υ] (w : Planning ι τ) (i j : ι) : Bool :=
  decide (R.scheduleTier i w < R.scheduleTier j w ∨ R.scheduleTier i w = R.scheduleTier j w ∧
    R.urgencyScore j (w.coordinator j) ≤ R.urgencyScore i (w.coordinator i))

/-- The second pass: each queues in its turn, until a task is queued. -/
def queuePass (answers : ι → Answers) : List ι → Planning ι τ → Pass ι τ
  | [], w => ⟨none, true, w⟩
  | i :: rest, w =>
    let (task, w) := R.queueNextIfNeeded i (answers i).queued w
    if w.queue.isEmpty then queuePass answers rest w
    else ⟨task.map fun task => (i, task), true, w⟩

/-- `_schedule_next`. -/
def scheduleNext [LE υ] [DecidableLE υ] (answers : ι → Answers) (w : Planning ι τ) : Pass ι τ :=
  let nightly := R.nightlyPass answers (R.ordered w) w
  if nightly.ended then nightly
  else
    match R.candidates w.config (R.ordered w) with
    | .error _ => nightly
    | .ok candidates =>
      R.queuePass answers
        (candidates.insertionSort fun i j => R.comesFirst nightly.after i j = true) nightly.after

/-! ## Callbacks -/

/-- `record_result`. -/
def recordResult (i : ι) (task : τ) (now : Rat) (w : Planning ι τ) (result : Rat × Rat × Nat) :
    Planning ι τ :=
  let c := (w.coordinator i).recordResult (R.sweepCommit task)
    ⟨(w.clone (R.repoPath i)).head, now⟩ result
  { w with coordinator := Function.update w.coordinator i c }

/-- `on_task_completed` of one coordinator: `report` is what it reads back of the
task, if it takes it. -/
def onTaskCompleted (task : τ) (report : Option (Rat × Rat × Nat)) (a : Answer) (i : ι)
    (w : Planning ι τ) : Option SweepTask × Planning ι τ :=
  if R.isMyTask i task then
    let recorded := report.elim w (R.recordResult i task a.now w)
    if R.isMemory i then R.queueNextIfNeeded i a recorded else (none, recorded)
  else (none, w)

/-- The callbacks of a completed task, in the order of the subscribers. -/
def completedCallbacks (task : τ) (report : ι → Option (Rat × Rat × Nat)) (answers : ι → Answer) :
    List ι → Planning ι τ → List (ι × SweepTask) × Planning ι τ
  | [], w => ([], w)
  | i :: rest, w =>
    let (next, w) := R.onTaskCompleted task (report i) (answers i) i w
    let (issued, w) := completedCallbacks task report answers rest w
    ((next.map fun next => (i, next)).toList ++ issued, w)

/-- `on_task_failed` of all of them. -/
def failedCallbacks (task : τ) (w : Planning ι τ) : Planning ι τ :=
  { w with coordinator := fun i =>
      if R.isMyTask i task ∧ i ∈ R.subscribers then
        (w.coordinator i).recordBuildFailure (R.sweepCommit task)
      else w.coordinator i }

end SweepRunner

/-! ## Runs -/

/-- A sweep task that was queued, with what its decision was made on. -/
structure QueuedTask (ι τ : Type) where
  before : Planning ι τ
  series : ι
  task   : SweepTask

/-- A runner with the task it runs, whose file lies in the queue. -/
structure SweepWorld (ι τ : Type) where
  planning : Planning ι τ
  running  : Option τ
  issued   : List (QueuedTask ι τ)

/-- A runner that has just started. -/
def SweepWorld.start {ι τ : Type} (planning : Planning ι τ) : SweepWorld ι τ := ⟨planning, none, []⟩

inductive SweepEvent (ι τ : Type) where
  | passed (now : Rat)
  /-- The CLI changes `sweep_config.json`. -/
  | configured (config : SweepConfig)
  /-- A clone moves by another hand. -/
  | advanced (repo : String) (clone : Clone)
  /-- Someone else adds a task, or removes one. -/
  | submitted (task : τ)
  | removed (task : τ)
  /-- The runner picks a task of the queue. -/
  | chosen (task : τ)
  | completed (report : ι → Option (Rat × Rat × Nat)) (answers : ι → Answer)
  | failed
  | scheduled (answers : ι → Answers)
  | restarted

namespace SweepWorld

variable {ι τ υ : Type} [DecidableEq ι] [DecidableEq τ] [LinearOrder υ] (R : SweepRunner ι τ υ)

/-- Time does not run backwards, in a decision neither, and the runner picks and
schedules only when it runs nothing. -/
def Allowed (w : SweepWorld ι τ) : SweepEvent ι τ → Prop
  | .passed now => w.planning.now ≤ now
  | .chosen task => w.running = none ∧ task ∈ w.planning.queue
  | .scheduled answers => w.running = none ∧ ∀ i ∈ R.subscribers,
      w.planning.now ≤ (answers i).asked.now ∧ (answers i).asked.now ≤ (answers i).claimed.now
  | _ => True

/-- The state with more tasks issued on what there was before. -/
def issue (w : SweepWorld ι τ) (issued : List (ι × SweepTask)) (after : Planning ι τ) :
    SweepWorld ι τ :=
  { w with
    planning := after
    issued := w.issued ++ issued.map fun issue => ⟨w.planning, issue.1, issue.2⟩ }

/-- `finish_task`. -/
def finish (w : SweepWorld ι τ) (task : τ) : SweepWorld ι τ :=
  { w with planning := { w.planning with queue := w.planning.queue.erase task }, running := none }

def next (w : SweepWorld ι τ) : SweepEvent ι τ → SweepWorld ι τ
  | .passed now => { w with planning := { w.planning with now } }
  | .configured config => { w with planning := { w.planning with config } }
  | .advanced repo clone =>
    { w with planning := { w.planning with clone := Function.update w.planning.clone repo clone } }
  | .submitted task =>
    { w with planning := { w.planning with queue := w.planning.queue ++ [task] } }
  | .removed task =>
    { w with planning := { w.planning with queue := w.planning.queue.erase task } }
  | .chosen task => { w with running := some task }
  | .completed report answers =>
    match w.running with
    | some task =>
      let (issued, after) := R.completedCallbacks task report answers R.subscribers w.planning
      (w.issue issued after).finish task
    | none => w
  | .failed =>
    match w.running with
    | some task =>
      ({ w with planning := R.failedCallbacks task w.planning } : SweepWorld ι τ).finish task
    | none => w
  | .scheduled answers =>
    let pass := R.scheduleNext answers w.planning
    w.issue pass.issued.toList pass.after
  | .restarted =>
    { w with
      running := none
      planning := { w.planning with
        coordinator := fun i => { w.planning.coordinator i with lastFetchTime := 0 } } }

def Step (w : SweepWorld ι τ) (e : SweepEvent ι τ) (w' : SweepWorld ι τ) : Prop :=
  Allowed R w e ∧ w' = w.next R e

end SweepWorld

/-! ## What is in order -/

namespace SweepRunner

section InOrder

variable {ι τ υ : Type} (R : SweepRunner ι τ υ)

/-- The runner may ask the series for a task. -/
structure Asked (w : Planning ι τ) (i : ι) : Prop where
  subscribed : i ∈ R.subscribers
  live       : (w.coordinator i).retired = false
  allowed    : R.isAllowed w.config i = .ok true

/-- The task that a series has to queue at a time. -/
def taskAt (w : Planning ι τ) (now : Rat) (i : ι) : Option SweepTask :=
  if (w.coordinator i).retired || w.queue.any (R.isMyTask i) then none
  else (w.coordinator i).planner.getNextTask now (w.clone (R.repoPath i)).head

/-- A task is queued in order: for a series that is allowed, after every nightly
task, and after the tasks of all series of the first tier if it is deferred. -/
structure InOrder (issue : QueuedTask ι τ) : Prop where
  asked        : R.Asked issue.before issue.series
  nightlyFirst : issue.task.priority ≠ .nightly → ∀ i, R.Asked issue.before i →
    ∀ task, R.taskAt issue.before issue.before.now i = some task → task.priority ≠ .nightly
  deferredLast : R.deferBackfill issue.series = true → issue.task.priority = .backfill →
    ∀ i, R.Asked issue.before i → R.scheduleTier i issue.before = 0 →
      R.taskAt issue.before issue.before.now i = none

/-- The decisions that go right: the list of every series that may be asked has
the head of its clone, which carries no failed or pending point, and a fetch
moves no head. -/
structure Calm (answers : ι → Answers) (w : Planning ι τ) : Prop where
  listed : ∀ i, R.Asked w i → Listed (w.coordinator i) (w.clone (R.repoPath i))
  tried  : ∀ i, R.Asked w i → ∀ head ∈ (w.clone (R.repoPath i)).head,
    ¬ RetriedInVain (w.coordinator i) head
  news   : ∀ i, R.Asked w i →
    NothingNew (w.clone (R.repoPath i)) (answers i).claimed.fetched ∧
      NothingNew (w.clone (R.repoPath i)) (answers i).queued.fetched

end InOrder

end SweepRunner

/-! ## Calls that find nothing new -/

/-- What a call leaves that finds nothing new and queues nothing. -/
structure Still {ι τ : Type} (w w' : Planning ι τ) : Prop where
  coordinator : ∀ i, ∃ time, w'.coordinator i = { w.coordinator i with lastFetchTime := time }
  head        : ∀ repo, (w'.clone repo).head = (w.clone repo).head
  queue       : w'.queue = w.queue
  config      : w'.config = w.config

theorem Still.refl {ι τ : Type} (w : Planning ι τ) : Still w w :=
  ⟨fun _ => ⟨_, rfl⟩, fun _ => rfl, rfl, rfl⟩

section Called

variable {ι τ : Type} [DecidableEq ι] (w : Planning ι τ) (i : ι) (repo : String) (now : Rat)
  (c : Coordinator) (clone : Clone)

@[simp] theorem Planning.called_coordinator : (w.called i repo now c clone).coordinator =
    Function.update w.coordinator i c := rfl

@[simp] theorem Planning.called_clone : (w.called i repo now c clone).clone =
    Function.update w.clone repo clone := rfl

end Called

theorem Still.called {ι τ : Type} [DecidableEq ι] {w w' : Planning ι τ} (h : Still w w') {i : ι}
    {repo : String} {c : Coordinator} {clone : Clone} {time : Rat}
    (hc : c = { w'.coordinator i with lastFetchTime := time })
    (hclone : clone.head = (w'.clone repo).head) (now : Rat) :
    Still w (w'.called i repo now c clone) := by
  refine ⟨fun j => ?_, fun path => ?_, h.queue, h.config⟩
  · by_cases hj : j = i
    · subst hj
      obtain ⟨_, hw⟩ := h.coordinator j
      refine ⟨time, ?_⟩
      rw [Planning.called_coordinator, Function.update_self, hc, hw]
    · obtain ⟨before, hw⟩ := h.coordinator j
      exact ⟨before, by rw [Planning.called_coordinator, Function.update_of_ne hj, hw]⟩
  · by_cases hpath : path = repo
    · subst hpath
      rw [Planning.called_clone, Function.update_self, hclone, h.head]
    · rw [Planning.called_clone, Function.update_of_ne hpath, h.head]

namespace SweepRunner

variable {ι τ υ : Type} {R : SweepRunner ι τ υ} {i : ι} {a : Answer} {w w' : Planning ι τ}

theorem taskAt_still (h : Still w w') (now : Rat) (i : ι) :
    R.taskAt w' now i = R.taskAt w now i := by
  obtain ⟨time, hc⟩ := h.coordinator i
  unfold taskAt
  rw [hc, h.queue, h.head]
  rfl

theorem scheduleTier_still (h : Still w w') (i : ι) : R.scheduleTier i w' = R.scheduleTier i w := by
  obtain ⟨time, hc⟩ := h.coordinator i
  unfold scheduleTier
  rw [hc]
  -- without a head the time plays no part
  rfl

theorem Listed.still (h : Still w w') {repo : String}
    (hlisted : Listed (w.coordinator i) (w.clone repo)) :
    Listed (w'.coordinator i) (w'.clone repo) := by
  obtain ⟨time, hc⟩ := h.coordinator i
  refine ⟨?_, fun head hhead => ?_⟩
  · rw [hc]
    exact hlisted.commits
  · rw [hc]
    rw [h.head] at hhead
    exact hlisted.listed head hhead

section Calls

variable [DecidableEq ι]

/-- **What a call to queue does.** -/
theorem queueNextIfNeeded_still (h : Still w w')
    (hlisted : Listed (w.coordinator i) (w.clone (R.repoPath i)))
    (hnew : NothingNew (w.clone (R.repoPath i)) a.fetched) :
    (R.queueNextIfNeeded i a w').1 = R.taskAt w a.now i ∧
      (R.queueNextIfNeeded i a w').2.queue =
        w.queue ++ ((R.taskAt w a.now i).map (R.createTask i)).toList ∧
      (R.taskAt w a.now i = none → Still w (R.queueNextIfNeeded i a w').2) := by
  have hnew' : NothingNew (w'.clone (R.repoPath i)) a.fetched := by
    intro fetched hfetched
    rw [h.head]
    exact hnew fetched hfetched
  obtain ⟨time, clone, heq, hclone⟩ := queueNext_listed (w'.queue.any (R.isMyTask i))
    a.now (Listed.still h hlisted) hnew'
  have htask : (if (w'.coordinator i).retired || w'.queue.any (R.isMyTask i) then none
      else (w'.coordinator i).planner.getNextTask a.now (w'.clone (R.repoPath i)).head) =
        R.taskAt w a.now i := taskAt_still h a.now i
  rw [htask] at heq
  unfold queueNextIfNeeded
  rw [heq]
  have hcalled : Still w (w'.called i (R.repoPath i) a.now
      { w'.coordinator i with lastFetchTime := time } clone) := h.called rfl hclone a.now
  refine ⟨rfl, congrArg (· ++ _) h.queue, fun hnone => ?_⟩
  rw [hnone]
  refine ⟨hcalled.coordinator, hcalled.head, ?_, hcalled.config⟩
  exact (List.append_nil _).trans hcalled.queue

/-- **What a call for the nightly task does.** -/
theorem hasNightlyTask_still (h : Still w w')
    (hlisted : Listed (w.coordinator i) (w.clone (R.repoPath i))) :
    Still w (R.hasNightlyTask i a w').2 ∧
      ((R.hasNightlyTask i a w').1 = true → ∃ head, (w.clone (R.repoPath i)).head = some head ∧
        (RetriedInVain (w.coordinator i) head ∨
          (w.coordinator i).planner.tipDue a.now (some head) = true)) ∧
      ((w.coordinator i).planner.tipDue a.now (w.clone (R.repoPath i)).head = true →
        (R.hasNightlyTask i a w').1 = true) := by
  obtain ⟨hsame, hclaims, hdue⟩ := hasNightlyTask_listed a.fetched a.now (Listed.still h hlisted)
  obtain ⟨time, hc⟩ := h.coordinator i
  have hplanner : (w'.coordinator i).planner = (w.coordinator i).planner := by
    rw [hc]
    rfl
  rw [hplanner, h.head] at hdue
  rw [hplanner, h.head] at hclaims
  refine ⟨?_, fun hanswer => ?_, hdue⟩
  · have hcalled : Still w (w'.called i (R.repoPath i) a.now (w'.coordinator i)
        (w'.clone (R.repoPath i))) := h.called rfl rfl a.now
    unfold hasNightlyTask
    dsimp only
    rw [congrArg Prod.fst hsame, congrArg Prod.snd hsame]
    exact hcalled
  · obtain ⟨head, hhead, hwhy⟩ := hclaims hanswer
    refine ⟨head, hhead, hwhy.imp_left fun hvain => ?_⟩
    rw [hc] at hvain
    exact hvain

end Calls

/-! ## The two passes -/

section Passes

variable {answers : ι → Answers} {l : List ι}

/-- The time of a decision does not run backwards. -/
def Timed (R : SweepRunner ι τ υ) (answers : ι → Answers) (w : Planning ι τ) : Prop :=
  ∀ i ∈ R.subscribers,
    w.now ≤ (answers i).asked.now ∧ (answers i).asked.now ≤ (answers i).claimed.now

/-- A nightly task at a time is a tip that is due. -/
theorem tipDue_of_taskAt {now : Rat} {task : SweepTask} (h : R.taskAt w now i = some task)
    (hpriority : task.priority = .nightly) :
    (w.clone (R.repoPath i)).head = some task.commit ∧
      (w.coordinator i).planner.tipDue now (some task.commit) = true := by
  unfold taskAt at h
  split at h
  · cases h
  · obtain ⟨hhead, hdue⟩ := tipDue_of_nightly h hpriority
    rw [hhead] at hdue
    exact ⟨hhead, hdue⟩

/-- A due tip is the task of a series that has none of its own queued. -/
theorem taskAt_of_tipDue {now : Rat} {head : String} (hlive : (w.coordinator i).retired = false)
    (hfree : w.queue.any (R.isMyTask i) = false) (hhead : (w.clone (R.repoPath i)).head = some head)
    (hdue : (w.coordinator i).planner.tipDue now (some head) = true) :
    ∃ task, R.taskAt w now i = some task ∧ task.priority = .nightly := by
  obtain ⟨task, htask, -, hpriority⟩ := getNextTask_nightly hdue
  refine ⟨task, ?_, hpriority⟩
  rw [taskAt, hlive, hfree, hhead]
  exact htask

variable [DecidableEq ι]

/-- **The first pass** queues a nightly task, or finds that no series has one. -/
theorem nightlyPass_spec {w₀ : Planning ι τ} (hcalm : R.Calm answers w₀)
    (htimed : R.Timed answers w₀)
    (hl : ∀ i ∈ l, i ∈ R.subscribers ∧ (w₀.coordinator i).retired = false) (h : Still w₀ w) :
    (∀ issue ∈ (R.nightlyPass answers l w).issued,
        R.Asked w₀ issue.1 ∧ issue.2.priority = .nightly) ∧
      ((R.nightlyPass answers l w).ended = false →
        (R.nightlyPass answers l w).issued = none ∧ Still w₀ (R.nightlyPass answers l w).after ∧
          ∀ i ∈ l, R.Asked w₀ i → ∀ task, R.taskAt w₀ w₀.now i = some task →
            task.priority ≠ .nightly) := by
  induction l generalizing w with
  | nil =>
    refine ⟨fun issue hissue => ?_, fun _ => ⟨rfl, h, fun i hi => ?_⟩⟩
    · cases hissue
    · cases hi
  | cons i rest ih =>
    have hrest : ∀ j ∈ rest, j ∈ R.subscribers ∧ (w₀.coordinator j).retired = false :=
      fun j hj => hl j (List.mem_cons_of_mem _ hj)
    obtain ⟨hsub, hlive⟩ := hl i List.mem_cons_self
    unfold nightlyPass
    cases hallowed : R.isAllowed w.config i with
    | error e =>
      refine ⟨fun issue hissue => ?_, fun hended => ?_⟩
      · cases hissue
      · cases hended
    | ok admitted =>
      rw [h.config] at hallowed
      cases admitted with
      | false =>
        refine ⟨(ih hrest h).1, fun hended => ?_⟩
        obtain ⟨hnone, hstill, hothers⟩ := (ih hrest h).2 hended
        refine ⟨hnone, hstill, fun j hj hasked => ?_⟩
        rcases List.mem_cons.mp hj with rfl | hj
        · rw [hasked.allowed] at hallowed
          cases hallowed
        · exact hothers j hj hasked
      | true =>
        have hasked : R.Asked w₀ i := ⟨hsub, hlive, hallowed⟩
        have hlisted := hcalm.listed i hasked
        obtain ⟨hstill, hclaims, hdue⟩ :=
          hasNightlyTask_still (a := (answers i).asked) h hlisted
        obtain ⟨htime, htime'⟩ := htimed i hsub
        dsimp only
        cases hanswer : (R.hasNightlyTask i (answers i).asked w).1 with
        | false =>
          simp only [Bool.false_eq_true, if_false]
          refine ⟨(ih hrest hstill).1, fun hended => ?_⟩
          obtain ⟨hnone, hafter, hothers⟩ := (ih hrest hstill).2 hended
          refine ⟨hnone, hafter, fun j hj hj' task htask hpriority => ?_⟩
          rcases List.mem_cons.mp hj with rfl | hj
          · -- a tip that was due would have been claimed
            obtain ⟨hhead, hwas⟩ := tipDue_of_taskAt htask hpriority
            rw [hhead] at hdue
            rw [hdue (tipDue_mono htime hwas)] at hanswer
            cases hanswer
          · exact hothers j hj hj' task htask hpriority
        | true =>
          simp only [if_true]
          obtain ⟨head, hhead, hwhy⟩ := hclaims hanswer
          have hdue' :
              (w₀.coordinator i).planner.tipDue (answers i).claimed.now (some head) = true := by
            rcases hwhy with hvain | hdue'
            · exact absurd hvain (hcalm.tried i hasked head hhead)
            · exact tipDue_mono htime' hdue'
          obtain ⟨htask, hqueue, -⟩ :=
            queueNextIfNeeded_still (a := (answers i).claimed) hstill hlisted
            (hcalm.news i hasked).1
          split
          · next hempty =>
            -- with an empty queue the tip is queued, and the queue is not empty
            exfalso
            rw [List.isEmpty_iff, hqueue, List.append_eq_nil_iff] at hempty
            obtain ⟨task, hsome, -⟩ := taskAt_of_tipDue hlive
              (by rw [hempty.1]; rfl) hhead hdue'
            rw [hsome] at hempty
            exact absurd hempty.2 (by simp)
          · refine ⟨fun issue hissue => ?_, fun hended => ?_⟩
            swap
            · cases hended
            rw [htask] at hissue
            obtain ⟨task, hsome, rfl⟩ := Option.mem_map.mp hissue
            refine ⟨hasked, ?_⟩
            -- what it has to queue at that time is the tip
            unfold taskAt at hsome
            split at hsome
            · cases hsome
            · obtain ⟨tip, htip, -, hpriority⟩ := getNextTask_nightly hdue'
              rw [hhead, htip] at hsome
              exact Option.some.inj hsome ▸ hpriority

/-- **The second pass** queues the task of the first series that has one. -/
theorem queuePass_spec {w₀ : Planning ι τ} (hcalm : R.Calm answers w₀)
    (hl : ∀ i ∈ l, R.Asked w₀ i) (h : Still w₀ w) {issue : ι × SweepTask}
    (hissue : issue ∈ (R.queuePass answers l w).issued) :
    ∃ earlier later, l = earlier ++ issue.1 :: later ∧
      R.taskAt w₀ (answers issue.1).queued.now issue.1 = some issue.2 ∧
      ∀ i ∈ earlier, R.taskAt w₀ (answers i).queued.now i = none := by
  induction l generalizing w with
  | nil => cases hissue
  | cons i rest ih =>
    have hasked := hl i List.mem_cons_self
    obtain ⟨htask, hqueue, hstill⟩ := queueNextIfNeeded_still (a := (answers i).queued) h
      (hcalm.listed i hasked) (hcalm.news i hasked).2
    unfold queuePass at hissue
    dsimp only at hissue
    split at hissue
    · next hempty =>
      rw [List.isEmpty_iff, hqueue, List.append_eq_nil_iff] at hempty
      have hnone : R.taskAt w₀ (answers i).queued.now i = none := by
        cases hsome : R.taskAt w₀ (answers i).queued.now i with
        | none => rfl
        | some task =>
          rw [hsome] at hempty
          exact absurd hempty.2 (by simp)
      obtain ⟨earlier, later, rfl, hsome, hearlier⟩ :=
        ih (fun j hj => hl j (List.mem_cons_of_mem _ hj)) (hstill hnone) hissue
      refine ⟨i :: earlier, later, rfl, hsome, fun j hj => ?_⟩
      rcases List.mem_cons.mp hj with rfl | hj
      · exact hnone
      · exact hearlier j hj
    · rw [htask] at hissue
      obtain ⟨task, hsome, rfl⟩ := Option.mem_map.mp hissue
      exact ⟨[], rest, rfl, hsome, fun j hj => (by cases hj)⟩

end Passes

/-! ## A decision -/

theorem mem_candidates {config : SweepConfig} {l cs : List ι} (h : R.candidates config l = .ok cs)
    {j : ι} : j ∈ cs ↔ j ∈ l ∧ R.isAllowed config j = .ok true := by
  induction l generalizing cs with
  | nil =>
    obtain rfl := Except.ok.inj h
    simp
  | cons i rest ih =>
    unfold candidates at h
    obtain ⟨admitted, hadmitted, h⟩ := except_bind_ok.mp h
    cases admitted with
    | true =>
      simp only [if_true] at h
      obtain ⟨others, hothers, h⟩ := except_bind_ok.mp h
      obtain rfl := except_pure_ok.mp h
      rw [List.mem_cons, List.mem_cons, ih hothers, or_and_right]
      refine or_congr_left ⟨?_, fun hj => hj.1⟩
      rintro rfl
      exact ⟨rfl, hadmitted⟩
    | false =>
      simp only [Bool.false_eq_true, if_false] at h
      rw [ih h, List.mem_cons, or_and_right]
      refine ⟨.inr, fun hj => hj.resolve_left ?_⟩
      rintro ⟨rfl, hallowed⟩
      rw [hadmitted] at hallowed
      cases hallowed

/-- What is not the tip's turn does not depend on head or time. -/
theorem getNextTask_eq {planner : SweepPlanner} (now now' : Rat) (head : Option String) :
    planner.getNextTask now head =
      (planner.checkNightly now head).or (planner.getNextTask now' none) := rfl

theorem getNextTask_untipped {planner : SweepPlanner} {now : Rat} {head : Option String}
    {task : SweepTask} (h : planner.getNextTask now head = some task)
    (hpriority : task.priority ≠ .nightly) (now' : Rat) :
    planner.getNextTask now' none = some task := by
  rw [getNextTask_eq now now' head, Option.or_eq_some_iff] at h
  rcases h with htip | ⟨-, hrest⟩
  · exact absurd (SweepPlanner.checkNightly_eq_some htip).2.2.1 hpriority
  · exact hrest

/-- A deferred series is in the second tier while backfill is its task. -/
theorem scheduleTier_deferred {now : Rat} {task : SweepTask} (h : R.taskAt w now i = some task)
    (hdefer : R.deferBackfill i = true) (hpriority : task.priority = .backfill) :
    R.scheduleTier i w = 1 := by
  unfold taskAt at h
  split at h
  · cases h
  · have huntipped := getNextTask_untipped h (by rw [hpriority]; decide) w.now
    rw [scheduleTier, if_pos hdefer, huntipped]
    exact if_pos hpriority

/-- A series that has nothing at its turn had nothing but a tip before. -/
theorem taskAt_none {now now' : Rat} (h : R.taskAt w now' i = none)
    (htip : ∀ task, R.taskAt w now i = some task → task.priority ≠ .nightly) :
    R.taskAt w now i = none := by
  cases hsome : R.taskAt w now i with
  | none => rfl
  | some task =>
    have hpriority := htip task hsome
    unfold taskAt at h hsome
    split at hsome
    · cases hsome
    · next hfree =>
      rw [if_neg hfree, getNextTask_eq now' now, getNextTask_untipped hsome hpriority now,
        Option.or_eq_none_iff] at h
      cases h.2

theorem mem_ordered {j : ι} :
    j ∈ R.ordered w ↔ j ∈ R.subscribers ∧ (w.coordinator j).retired = false := by
  simp [ordered, epochOrderedSubscribers, List.mem_insertionSort]

section Decision

variable [LinearOrder υ]

/-- Candidates in order of their turns. -/
theorem pairwise_candidates (w : Planning ι τ) (l : List ι) :
    (l.insertionSort fun i j => R.comesFirst w i j = true).Pairwise
      fun i j => R.comesFirst w i j = true := by
  have htrans : IsTrans ι fun i j => R.comesFirst w i j = true := by
    constructor
    intro i j k hij hjk
    simp only [comesFirst, decide_eq_true_eq] at hij hjk ⊢
    rcases hij with hij | ⟨hij, hle⟩
    · rcases hjk with hjk | ⟨hjk, -⟩
      · exact .inl (hij.trans hjk)
      · exact .inl (hjk ▸ hij)
    · rcases hjk with hjk | ⟨hjk, hle'⟩
      · exact .inl (hij ▸ hjk)
      · exact .inr ⟨hij.trans hjk, hle'.trans hle⟩
  have htotal : Std.Total fun i j => R.comesFirst w i j = true := by
    constructor
    intro i j
    simp only [comesFirst, decide_eq_true_eq]
    rcases lt_trichotomy (R.scheduleTier i w) (R.scheduleTier j w) with hlt | heq | hgt
    · exact .inl (.inl hlt)
    · rcases le_total (R.urgencyScore j (w.coordinator j)) (R.urgencyScore i (w.coordinator i))
        with hle | hle
      · exact .inl (.inr ⟨heq, hle⟩)
      · exact .inr (.inr ⟨heq.symm, hle⟩)
    · exact .inr (.inl hgt)
  exact List.pairwise_insertionSort _ l

/-- **One decision queues in order.** -/
theorem scheduleNext_inOrder [DecidableEq ι] {answers : ι → Answers} (hcalm : R.Calm answers w)
    (htimed : R.Timed answers w)
    {issue : ι × SweepTask} (hissue : issue ∈ (R.scheduleNext answers w).issued) :
    R.InOrder ⟨w, issue.1, issue.2⟩ := by
  obtain ⟨hnightly, hopen⟩ :=
    nightlyPass_spec hcalm htimed (fun i hi => mem_ordered.mp hi) (.refl w)
  unfold scheduleNext at hissue
  dsimp only at hissue
  split at hissue
  · obtain ⟨hasked, hpriority⟩ := hnightly issue hissue
    refine ⟨hasked, fun hother => absurd hpriority hother, fun _ hbackfill => ?_⟩
    rw [hpriority] at hbackfill
    cases hbackfill
  · next hended =>
    obtain ⟨hnone, hstill, hothers⟩ := hopen (by simpa using hended)
    have htips : ∀ i, R.Asked w i → ∀ task, R.taskAt w w.now i = some task →
        task.priority ≠ .nightly := fun i hasked =>
      hothers i (mem_ordered.mpr ⟨hasked.subscribed, hasked.live⟩) hasked
    split at hissue
    · rw [hnone] at hissue
      cases hissue
    · next cs hcandidates =>
      have hmem : ∀ j, (j ∈ cs.insertionSort fun i j =>
          R.comesFirst (R.nightlyPass answers (R.ordered w) w).after i j = true) ↔ R.Asked w j := by
        intro j
        rw [List.mem_insertionSort, mem_candidates hcandidates, mem_ordered]
        exact ⟨fun ⟨⟨hsub, hlive⟩, hallowed⟩ => ⟨hsub, hlive, hallowed⟩,
          fun hasked => ⟨⟨hasked.subscribed, hasked.live⟩, hasked.allowed⟩⟩
      obtain ⟨earlier, later, hsplit, htask, hearlier⟩ :=
        queuePass_spec hcalm (fun i hi => (hmem i).mp hi) hstill hissue
      have hsorted := pairwise_candidates (R := R) (R.nightlyPass answers (R.ordered w) w).after cs
      rw [hsplit] at hsorted
      have hself : R.Asked w issue.1 := by
        rw [← hmem, hsplit]
        exact List.mem_append_right _ List.mem_cons_self
      refine ⟨hself, fun _ => htips, fun hdefer hbackfill i hasked htier => ?_⟩
      have hdeferred := scheduleTier_deferred htask hdefer hbackfill
      have hi := (hmem i).mpr hasked
      rw [hsplit] at hi
      rcases List.mem_append.mp hi with hi | hi
      · exact taskAt_none (hearlier i hi) (htips i hasked)
      · rcases List.mem_cons.mp hi with rfl | hi
        · dsimp only at htier
          rw [hdeferred] at htier
          cases htier
        · -- a series of the first tier does not come after one of the second
          have hfirst := (List.pairwise_cons.mp (List.pairwise_append.mp hsorted).2.1).1 i hi
          simp only [comesFirst, decide_eq_true_eq, scheduleTier_still hstill] at hfirst
          dsimp only at htier
          rw [hdeferred, htier] at hfirst
          rcases hfirst with hlt | ⟨heq, -⟩
          · cases hlt
          · cases heq

end Decision

/-! ## Callbacks -/

section Callbacks

variable [DecidableEq ι]

/-- A coordinator that finds a task of its own in the queue adds none. -/
theorem onTaskCompleted_queued {task : τ} (report : Option (Rat × Rat × Nat)) (a : Answer) (i : ι)
    (hqueued : task ∈ w.queue) : (R.onTaskCompleted task report a i w).1 = none ∧
      (R.onTaskCompleted task report a i w).2.queue = w.queue := by
  have hself : ∀ w' : Planning ι τ, w'.queue = w.queue → R.isMyTask i task = true →
      (R.queueNextIfNeeded i a w').1 = none ∧ (R.queueNextIfNeeded i a w').2.queue = w.queue := by
    intro w' hsame hmine
    have hown : w'.queue.any (R.isMyTask i) = true :=
      List.any_eq_true.mpr ⟨task, hsame ▸ hqueued, hmine⟩
    unfold queueNextIfNeeded Coordinator.queueNextIfNeeded
    rw [hown, Bool.or_true]
    exact ⟨rfl, (List.append_nil _).trans hsame⟩
  unfold onTaskCompleted
  split
  · next hmine =>
    dsimp only
    split
    · cases report with
      | none => exact hself _ rfl hmine
      | some result => exact hself _ rfl hmine
    · cases report <;> exact ⟨rfl, rfl⟩
  · exact ⟨rfl, rfl⟩

theorem completedCallbacks_queued {task : τ} (report : ι → Option (Rat × Rat × Nat))
    (answers : ι → Answer) (l : List ι) (hqueued : task ∈ w.queue) :
    (R.completedCallbacks task report answers l w).1 = [] := by
  induction l generalizing w with
  | nil => rfl
  | cons i rest ih =>
    obtain ⟨hnone, hsame⟩ := onTaskCompleted_queued (R := R) (report i) (answers i) i hqueued
    unfold completedCallbacks
    dsimp only
    rw [hnone, ih (hsame ▸ hqueued)]
    rfl

end Callbacks

end SweepRunner

/-! ## Runs in order -/

namespace SweepWorld

variable {ι τ υ : Type} [DecidableEq ι] [DecidableEq τ] [LinearOrder υ] {R : SweepRunner ι τ υ}
  {w w' : SweepWorld ι τ} {e : SweepEvent ι τ}

/-- The steps that go right: calm decisions, and no removal of the file of the
task that runs. -/
def Orderly (R : SweepRunner ι τ υ) (w : SweepWorld ι τ) : SweepEvent ι τ → Prop
  | .removed task => w.running ≠ some task
  | .scheduled answers => R.Calm answers w.planning
  | _ => True

/-- The task that runs is in the queue, and what was queued is in order. -/
structure Ordered (R : SweepRunner ι τ υ) (w : SweepWorld ι τ) : Prop where
  running : ∀ task ∈ w.running, task ∈ w.planning.queue
  issued  : ∀ issue ∈ w.issued, R.InOrder issue

theorem ordered_step (h : Ordered R w) (hallowed : Allowed R w e) (horderly : Orderly R w e) :
    Ordered R (w.next R e) := by
  cases e with
  | passed | configured | advanced => exact ⟨h.running, h.issued⟩
  | submitted task =>
    exact ⟨fun running hrunning => List.mem_append_left _ (h.running running hrunning), h.issued⟩
  | removed task =>
    refine ⟨fun running hrunning => ?_, h.issued⟩
    have hne : running ≠ task := by
      rintro rfl
      exact horderly hrunning
    exact (List.mem_erase_of_ne hne).mpr (h.running running hrunning)
  | chosen task =>
    refine ⟨fun running hrunning => ?_, h.issued⟩
    obtain rfl := Option.some.inj hrunning
    exact hallowed.2
  | restarted => exact ⟨fun running hrunning => (by cases hrunning), h.issued⟩
  | failed =>
    unfold next
    dsimp only
    split
    · exact ⟨fun running hrunning => (by cases hrunning), h.issued⟩
    · exact h
  | completed report answers =>
    unfold next
    dsimp only
    split
    · next task hrunning =>
      refine ⟨fun running hrunning => (by cases hrunning), fun issue hissue => ?_⟩
      -- the file of the task lies in the queue: no callback queues another
      have hnone := SweepRunner.completedCallbacks_queued (R := R) report answers R.subscribers
        (h.running task hrunning)
      simp only [finish, SweepWorld.issue, hnone, List.map_nil, List.append_nil] at hissue
      exact h.issued issue hissue
    · exact h
  | scheduled answers =>
    unfold next
    refine ⟨fun running hrunning => ?_, fun issue hissue => ?_⟩
    · have hnone : running ∈ w.running := hrunning
      rw [hallowed.1] at hnone
      cases hnone
    · rcases List.mem_append.mp hissue with hissue | hissue
      · exact h.issued issue hissue
      · obtain ⟨new, hnew, rfl⟩ := List.mem_map.mp hissue
        exact SweepRunner.scheduleNext_inOrder horderly hallowed.2 (Option.mem_toList.mp hnew)

/-- **What a run queues is in order.** From any coordinators and clones, in every
run whose decisions are calm and in which no one removes the file of the task
that runs: a sweep task is queued for an allowed series, no other one while an
allowed series has a nightly task, and no deferred backfill while a series of
the first tier has a task. -/
theorem queued_in_order {planning : Planning ι τ} {es : List (SweepEvent ι τ)}
    (hrun : Lib.Run (fun w e w' => Orderly R w e ∧ Step R w e w') (start planning) es w) :
    ∀ issue ∈ w.issued, R.InOrder issue := by
  have hordered : Ordered R w := by
    refine hrun.invariant (Ordered R)
      ⟨fun task htask => (by cases htask), fun _ h => (by cases h)⟩ ?_
    rintro a e _ ⟨horderly, hallowed, rfl⟩ ih
    exact ordered_step ih hallowed horderly
  exact hordered.issued

end SweepWorld

/-! ## A throughput and a memory series -/

inductive TwoSeries where
  | throughput
  | memory
  deriving DecidableEq

/-- A throughput and a memory series of one repository; a task document names
its series and commit. -/
def twoSeries : SweepRunner TwoSeries (TwoSeries × String) ℕ where
  subscribers     := [.throughput, .memory]
  workloadId      := fun | .throughput => "get-k16-v16-t7-p10" | .memory => "memory-set-k16-v64"
  epochId         := fun _ => "v3"
  repoPath        := fun _ => "valkey"
  isMemory        := fun i => decide (i = .memory)
  urgencyScore    := fun _ _ => 0
  createTask      := fun i task => (i, task.commit)
  isMyTask        := fun i task => decide (task.1 = i)
  sweepCommit     := Prod.snd
  epochPrecedence := ["v3"]
  named           := fun i => by cases i <;> decide

/-- Two new series at a clone with three commits. -/
def newPlanning : Planning TwoSeries (TwoSeries × String) where
  coordinator := fun _ => newSeries
  clone       := fun _ => threeClone
  queue       := []
  config      := .default
  now         := 0

/-- The answers of one moment, with no fetch. -/
def answersAt (now : Rat) : TwoSeries → Answers := fun _ => ⟨⟨none, now⟩, ⟨none, now⟩, ⟨none, now⟩⟩

namespace SweepWorld

/-- The tip is measured for one series. -/
def firstTip : List (SweepEvent TwoSeries (TwoSeries × String)) :=
  [.scheduled (answersAt 10), .chosen (.throughput, "c")]

theorem newSeries_listed : Listed newSeries threeClone := by
  refine ⟨by decide, fun head hhead => ?_⟩
  obtain rfl := Option.some.inj hhead
  decide

/-- Its task is in the queue. -/
theorem first_chosen : Allowed twoSeries
    ((start newPlanning).next twoSeries (.scheduled (answersAt 10)))
    (.chosen (.throughput, "c")) := by
  refine ⟨rfl, ?_⟩
  decide +kernel

theorem first_scheduled : Allowed twoSeries (start newPlanning) (.scheduled (answersAt 10)) := by
  have htime : (0 : Rat) ≤ 10 := by decide +kernel
  exact ⟨rfl, fun i _ => ⟨htime, le_refl _⟩⟩

theorem queued_in_order_first :
    (firstTip.foldl (next twoSeries) (start newPlanning)).issued.length = 1 ∧
    ∀ queued ∈ (firstTip.foldl (next twoSeries) (start newPlanning)).issued,
      twoSeries.InOrder queued := by
  have hcalm : twoSeries.Calm (answersAt 10) newPlanning := by
    refine ⟨fun i _ => newSeries_listed, fun i _ head _ => ?_, fun i _ => ⟨?_, ?_⟩⟩
    · rintro ⟨point, hpoint, -⟩
      cases hpoint
    · intro fetched hfetched
      cases hfetched
    · intro fetched hfetched
      cases hfetched
  have hrun : Lib.Run (fun w e w' => Orderly twoSeries w e ∧ Step twoSeries w e w')
      (start newPlanning) firstTip (firstTip.foldl (next twoSeries) (start newPlanning)) :=
    .cons ⟨hcalm, first_scheduled, rfl⟩ (.single ⟨trivial, first_chosen, rfl⟩)
  exact ⟨by decide +kernel, queued_in_order hrun⟩

/-- The build of the tip fails, and the next task is chosen. -/
def failedTip : List (SweepEvent TwoSeries (TwoSeries × String)) :=
  firstTip ++ [.failed, .scheduled (answersAt 20)]

/-- The throughput series claims the failed tip again, and the first pass lets it
queue backfill while the memory series has the tip to measure. -/
theorem failed_tip_first :
    ¬ ∀ (R : SweepRunner TwoSeries (TwoSeries × String) ℕ)
      (planning : Planning TwoSeries (TwoSeries × String))
      (es : List (SweepEvent TwoSeries (TwoSeries × String)))
      (w : SweepWorld TwoSeries (TwoSeries × String)),
      Lib.Run (Step R) (start planning) es w → ∀ queued ∈ w.issued, R.InOrder queued := by
  intro h
  have hbackfill : ∃ queued ∈ (failedTip.foldl (next twoSeries) (start newPlanning)).issued,
      queued.task.priority = .backfill ∧
      ((queued.before.coordinator .memory).retired = false ∧
        twoSeries.isAllowed queued.before.config .memory = .ok true) ∧
      (twoSeries.taskAt queued.before queued.before.now .memory).map SweepTask.priority =
        some .nightly := by
    decide +kernel
  obtain ⟨queued, hmem, hpriority, ⟨hlive, hallowed⟩, htip⟩ := hbackfill
  obtain ⟨task, htask, hnightly⟩ := Option.map_eq_some_iff.mp htip
  have hlater : ((firstTip.foldl (next twoSeries) (start newPlanning)).next twoSeries
      .failed).planning.now ≤ 20 := by decide +kernel
  have hrun : Lib.Run (Step twoSeries) (start newPlanning) failedTip
      (failedTip.foldl (next twoSeries) (start newPlanning)) :=
    .cons ⟨first_scheduled, rfl⟩ (.cons ⟨first_chosen, rfl⟩ (.cons ⟨trivial, rfl⟩
      (.single ⟨⟨rfl, fun i _ => ⟨hlater, le_refl _⟩⟩, rfl⟩)))
  refine (h twoSeries newPlanning failedTip _ hrun queued hmem).nightlyFirst ?_ .memory
    ⟨by decide, hlive, hallowed⟩ task htask hnightly
  rw [hpriority]
  decide

end SweepWorld

end Conductress.Sweep
