import Conductress.Queue.TaskDocument
import Conductress.Sweep.Planner

/-!
# The coordinators of epoch 3

A coordinator owns one series. `on_task_completed` decides in two steps whether
a completed task belongs to it: `_is_my_task` compares one list of fields,
`_identity_mismatch` a second one. What it then records is a point for the
`sweep_commit` of the task.

The two lists leave fields out that change what was measured: a task may carry
the mark of a sweep and differ from the cell of its commit in any of
`unpinnedFields` (`faithful_iff`).

The base class says that it refuses a task by returning. The latency series calls
it and goes on: the latency detail of a refused task is written to the point that
is there (`refused_unchanged_iff`).
-/

namespace Conductress.Sweep

open Lib

/-! ## One series -/

structure SweepEngine where
  source           : String
  makeArgs         : String
  profileInternals : Bool

inductive SeriesKind where
  /-- `CachecannonThroughputSweepCoordinatorV3` and the mixed one. -/
  | throughput
  /-- `CachecannonLatencySweepCoordinatorV3`. -/
  | latency
  deriving DecidableEq

/-- The attributes the constructor stores. -/
structure CoordinatorV3 where
  kind           : SeriesKind
  label          : String
  engine         : Option SweepEngine
  test           : String
  setRatio       : Int
  valSize        : Int
  ioThreads      : Int
  pipelining     : Int
  connections    : Int
  threads        : Int
  distribution   : String
  rateLimit      : Int
  scoreMetric    : String
  scoreAggregate : String
  repetitions    : Nat
  maxReps        : Int
  targetCv       : Rat
  tls            : Bool

/-- When a task completes: the head of the sweep ref, if git names one, and the
time. -/
structure Moment where
  head : Option String
  now  : Rat

namespace CoordinatorV3

variable (c : CoordinatorV3)

def sweepSource : String := (c.engine.map SweepEngine.source).getD "valkey"

def sweepMakeArgs : String := (c.engine.map SweepEngine.makeArgs).getD ""

def warmup : Int := 10
def duration : Int := 30
def keyspace : Int := 3000000

/-! ## The cell of a commit -/

/-- The arguments `_create_task` calls the class with, `topology` apart. -/
def cellArguments (commit reason : String) : Fields :=
  [("source", .str c.sweepSource), ("specifier", .str commit), ("make_args", .str c.sweepMakeArgs),
    ("note", .str ("[cachecannon-sweep-v3:" ++ c.sweepSource ++ "/" ++ c.label ++ "] " ++ reason)),
    ("requirements", .obj []), ("test", .str c.test), ("set_ratio", .int c.setRatio),
    ("val_size", .int c.valSize), ("io_threads", .int c.ioThreads),
    ("pipelining", .int c.pipelining), ("connections", .int c.connections),
    ("threads", .int c.threads), ("warmup", .int warmup), ("duration", .int duration),
    ("keyspace_count", .int keyspace), ("distribution", .str c.distribution),
    ("repetitions", .int c.repetitions), ("max_reps", .int c.maxReps),
    ("target_cv", .float (.finite c.targetCv)), ("rate_limit", .int c.rateLimit),
    ("score_metric", .str c.scoreMetric), ("score_aggregate", .str c.scoreAggregate),
    ("tls", .bool c.tls), ("perf_stat_enabled", .bool true)]

/-- `_create_task`, and the assignment `queue_next_if_needed` makes after it. -/
def createTask {δ : Type} (config : TaskConfig) (commit reason : String) (now : δ) :
    Except PyError (TaskData δ) := do
  let task ← TaskData.construct config.cachecannonTaskData (c.cellArguments commit reason)
    TaskData.standalone now
  pure { task with fields := Json.setField task.fields "sweep_commit" (.str commit) }

/-! ## Whose task is it -/

/-- The fields `_is_my_task` compares, with the values it wants. -/
def ownedShape : Fields :=
  [("source", .str c.sweepSource), ("test", .str c.test), ("set_ratio", .int c.setRatio),
    ("val_size", .int c.valSize), ("io_threads", .int c.ioThreads),
    ("pipelining", .int c.pipelining), ("connections", .int c.connections),
    ("distribution", .str c.distribution), ("rate_limit", .int c.rateLimit),
    ("score_metric", .str c.scoreMetric), ("tls", .bool c.tls)]

/-- `_IDENTITY_FIELDS`, with the values of the private attributes. -/
def identityShape : Fields :=
  [("threads", .int c.threads), ("connections", .int c.connections),
    ("pipelining", .int c.pipelining), ("val_size", .int c.valSize),
    ("io_threads", .int c.ioThreads), ("test", .str c.test), ("set_ratio", .int c.setRatio),
    ("tls", .bool c.tls)]

section Task

variable {δ : Type}

def matchesField (task : TaskData δ) (f : String × Json) : Bool :=
  Json.pyEq (Json.getD task.fields f.1) f.2

def isMyTask (task : TaskData δ) : Bool :=
  decide (task.cls.name = "CachecannonTaskData") &&
    (Json.getD task.fields "sweep_commit").truthy && c.ownedShape.all (matchesField task)

/-- The first identity field where the task disagrees: its name, the value of the
task and the own one. -/
def identityMismatch (task : TaskData δ) : Option (String × Json × Json) :=
  (c.identityShape.find? fun f => !matchesField task f).map fun f =>
    (f.1, Json.getD task.fields f.1, f.2)

/-- `task.sweep_commit`, a text as the class declares it. -/
def sweepCommit (task : TaskData δ) : Option String :=
  match Json.getD task.fields "sweep_commit" with
  | .str commit => some commit
  | _ => none

end Task

/-! ## The result row of a task -/

def fieldsOf : Json → Fields
  | .obj fields => fields
  | _ => []

def itemsOf : Json → List Json
  | .arr items => items
  | _ => []

/-- `entry.get("data", {})`. -/
def dataOf (entry : Fields) : Fields := fieldsOf (Json.getD entry "data")

/-- `_find_task_entry`: the last row of the log with the id of the task. -/
def findTaskEntry (log : List Fields) (taskId : String) : Option Fields :=
  log.reverse.find? fun entry => Json.pyEq (Json.getD entry "task_id") (.str taskId)

/-- `entry.get("score")`, unless it is none or zero. -/
def scoreOf (entry : Fields) : Option Rat :=
  match (Json.getD entry "score").number? with
  | some (.finite score) => if score = 0 then none else some score
  | _ => none

/-- `_per_run_scores`. -/
def perRunScores (entry : Fields) : List Json :=
  itemsOf (Json.getD (dataOf entry)
    (if c.scoreMetric = "throughput" then "per_run_rps" else "per_run_" ++ c.scoreMetric ++ "_us"))

/-- `_extract_result`: value, cv and repetitions. `stdev` is that of the
statistics module. -/
def extractResult (stdev : List Json → Rat) (entry : Fields) : Option (Rat × Rat × Nat) := do
  let score ← scoreOf entry
  let perRun := c.perRunScores entry
  let cv := if 2 ≤ perRun.length then stdev perRun / score * 100 else 0
  let reps := if perRun.isEmpty then c.repetitions else perRun.length
  some (score, cv, reps)

structure PerfCounterRecord where
  counters     : Json
  duration     : Json
  rps          : Json
  countersMain : Json
  countersIo   : Json
  repCount     : Json
  scope        : Json

/-- `perf_counters_from_entry`, for the two shapes of a row. -/
def perfCountersFromEntry (entry : Fields) : Option PerfCounterRecord :=
  let data := dataOf entry
  let raw := Json.getD data "perf_counters"
  let buckets := fieldsOf raw
  let bucketed := buckets.any fun f => decide (f.1 ∈ ["all", "main", "io"])
  let counters := if bucketed then (Json.getD buckets "all").orElse (.obj []) else raw
  if ¬ raw.truthy ∨ ¬ counters.truthy then none
  else some {
    counters
    duration := (Json.lookup data "perf_duration_seconds").getD (.float (.finite 0))
    rps := (Json.getD data "mean_rps").orElse ((Json.lookup entry "score").getD (.float (.finite 0)))
    countersMain := if bucketed then (Json.getD buckets "main").orElse .null
      else Json.getD data "perf_counters_main"
    countersIo := if bucketed then (Json.getD buckets "io").orElse .null
      else Json.getD data "perf_counters_io"
    repCount := Json.getD data "perf_rep_count"
    scope := Json.getD data "perf_counters_scope" }

/-- `max` of numbers. -/
def maxOf : List Json → Json
  | [] => .null
  | first :: rest => rest.foldl (fun best x => if Json.pyLt best x = .ok true then x else best) first

/-! ## What a completed task changes -/

/-- `_sample_kind`. -/
def sampleKind (state : SweepState) (commit : String) (head : Option String) : String :=
  if state.landmarks.any fun landmark => decide (landmark.commit = commit) then "release"
  else if head = some commit then "tip"
  else "history"

section Record

variable (state : SweepState) (commit : String) (entry : Fields)

/-- `BaseSweepCoordinator.record_result`. -/
def recordResult (moment : Moment) (result : Rat × Rat × Nat) : SweepState :=
  let recorded := state.recordResult commit result.1 result.2.1 result.2.2 none none
    (some (sampleKind state commit moment.head))
  if moment.head = some commit then
    { recorded with lastBenchmarkedHead := some commit, lastBenchmarkedHeadAt := some moment.now }
  else recorded

/-- `record_perf_counters`, when there are some. -/
def recordPerfCounters : SweepState :=
  match perfCountersFromEntry entry with
  | none => state
  | some perf => state.setPoint commit fun p =>
    { p with
      perfCounters := perf.counters
      perfCountersMain := perf.countersMain
      perfCountersIo := perf.countersIo
      perfDurationSeconds := perf.duration
      perfRps := perf.rps
      perfRepCount := perf.repCount
      perfCountersScope := if perf.scope = .null then p.perfCountersScope else perf.scope }

/-- `_store_cpu_stacks_from_entry`. -/
def storeCpuStacks : SweepState :=
  let main := Json.getD (dataOf entry) "cpu_stacks_main"
  if main.truthy then
    state.setPoint commit fun p =>
      { p with
        cpuStacksMain := main
        cpuStacksIo := (Json.lookup (dataOf entry) "cpu_stacks_io").getD (.arr []) }
  else state

/-- `_record_score_bounds`. -/
def recordScoreBounds : SweepState :=
  let low := Json.getD (dataOf entry) "score_min"
  let high := Json.getD (dataOf entry) "score_max"
  if low = .null ∧ high = .null then state
  else state.setPoint commit fun p => { p with scoreMin := low, scoreMax := high }

/-- `_record_client_cpu`. -/
def recordClientCpu : SweepState :=
  let cpu := Json.getD (dataOf entry) "client_cpu"
  if cpu.truthy then
    state.setPoint commit fun p =>
      { p with
        clientCoresBusy := maxOf (itemsOf (Json.getD (fieldsOf cpu) "cores_busy_per_rep"))
        clientAllocatedCores := Json.getD (fieldsOf cpu) "allocated_cores"
        clientUtilization := Json.getD (fieldsOf cpu) "utilization"
        clientSaturated := Json.getD (fieldsOf cpu) "saturated" }
  else state

/-- A number of milliseconds, in microseconds; a `KeyError` or `TypeError` when
there is none. -/
def microseconds? (latency : Fields) (key : String) : Option Json :=
  match (Json.getD latency key).number? with
  | some (.finite ms) => some (.float (.finite (ms * 1000)))
  | some x => some (.float x)
  | none => none

/-- `latency_data_from_entry`; nothing is recorded when it raises. -/
def latencyDataFromEntry : Option Json := do
  let data := dataOf entry
  let latency := Json.getD data "latency"
  if latency.truthy then
    let p50 ← microseconds? (fieldsOf latency) "p50_ms"
    let p99 ← microseconds? (fieldsOf latency) "p99_ms"
    let p999 ← microseconds? (fieldsOf latency) "p999_ms"
    let max ← microseconds? (fieldsOf latency) "max_ms"
    some (.obj [("p50_us", p50), ("p99_us", p99), ("p99_9_us", p999), ("p100_us", max),
      ("target_rps", Json.getD data "rate_limit"), ("actual_rps", Json.getD data "mean_rps")])
  else none

/-- What `on_task_completed` of the latency series adds to a point. -/
def recordLatencyData (latency : Json) : SweepState :=
  state.setPoint commit fun p => { p with latencyData := latency }

end Record

section Completed

variable {δ : Type} (datetime : DatetimeClass δ) (stdev : List Json → Rat)

/-- `BaseCachecannonSweepCoordinatorV3.on_task_completed`: the state it saves,
when it records anything. -/
def baseCompleted (log : List Fields) (moment : Moment) (task : TaskData δ) (state : SweepState) :
    Option SweepState := do
  let commit ← sweepCommit task
  if c.isMyTask task ∧ c.identityMismatch task = none then
    let entry ← findTaskEntry log (task.taskId datetime)
    let result ← c.extractResult stdev entry
    let recorded := recordResult state commit moment result
    let profiled := storeCpuStacks (recordPerfCounters recorded commit entry) commit entry
    some (recordClientCpu (recordScoreBounds profiled commit entry) commit entry)
  else none

/-- `on_task_completed` of the latency series, which goes on after the base class
whether that has recorded the task or refused it. -/
def latencyCompleted (log : List Fields) (moment : Moment) (task : TaskData δ)
    (state : SweepState) : Option SweepState := do
  let commit ← sweepCommit task
  if c.isMyTask task then
    let entry ← findTaskEntry log (task.taskId datetime)
    let _ ← c.extractResult stdev entry
    let based := c.baseCompleted datetime stdev log moment task state
    match latencyDataFromEntry entry with
    | some latency =>
      if ((based.getD state).points.find? commit).isSome then
        some (recordLatencyData (based.getD state) commit latency)
      else based
    | none => based
  else none

/-- `on_task_completed`. -/
def onTaskCompleted (log : List Fields) (moment : Moment) (task : TaskData δ) (state : SweepState) :
    Option SweepState :=
  match c.kind with
  | .throughput => c.baseCompleted datetime stdev log moment task state
  | .latency => c.latencyCompleted datetime stdev log moment task state

/-- `on_task_failed`. -/
def onTaskFailed (task : TaskData δ) (state : SweepState) : Option SweepState := do
  let commit ← sweepCommit task
  if c.isMyTask task then some (state.recordBuildFailure commit) else none

end Completed

/-! ## What a recording writes -/

section Writers

variable (state : SweepState) (commit : String) (entry : Fields)

open SweepState (Writes)

theorem writes_recordResult (moment : Moment) (result : Rat × Rat × Nat) :
    Writes commit state (recordResult state commit moment result) := by
  unfold recordResult
  dsimp only
  split
  · exact ⟨SweepState.writes_recordResult.others, SweepState.writes_recordResult.mergeCommits,
      SweepState.writes_recordResult.stays, SweepState.writes_recordResult.kept⟩
  · exact SweepState.writes_recordResult

theorem recordResult_isSome (moment : Moment) (result : Rat × Rat × Nat) :
    ((recordResult state commit moment result).points.find? commit).isSome := by
  unfold recordResult
  dsimp only
  split <;> exact SweepState.recordResult_isSome

theorem writes_recordPerfCounters :
    Writes commit state (recordPerfCounters state commit entry) := by
  unfold recordPerfCounters
  split
  · exact .refl state
  · exact SweepState.writes_setPoint fun _ => rfl

theorem writes_recordScoreBounds :
    Writes commit state (recordScoreBounds state commit entry) := by
  unfold recordScoreBounds
  dsimp only
  split
  · exact .refl state
  · exact SweepState.writes_setPoint fun _ => rfl

theorem writes_recordClientCpu : Writes commit state (recordClientCpu state commit entry) := by
  unfold recordClientCpu
  dsimp only
  split
  · exact SweepState.writes_setPoint fun _ => rfl
  · exact .refl state

theorem writes_recordLatencyData (latency : Json) :
    Writes commit state (recordLatencyData state commit latency) :=
  SweepState.writes_setPoint fun _ => rfl

/-- The stacks a result row stores, if it stores any. -/
def storedStacks (entry : Fields) : Option (Json × Json) :=
  let main := Json.getD (dataOf entry) "cpu_stacks_main"
  if main.truthy then some (main, (Json.lookup (dataOf entry) "cpu_stacks_io").getD (.arr []))
  else none

variable {state commit entry}

theorem storeCpuStacks_others {other : String} (hne : other ≠ commit) :
    (storeCpuStacks state commit entry).points.find? other = state.points.find? other := by
  unfold storeCpuStacks
  dsimp only
  split
  · rw [SweepState.find?_setPoint, if_neg hne]
  · rfl

theorem storeCpuStacks_mergeCommits :
    (storeCpuStacks state commit entry).mergeCommits = state.mergeCommits := by
  unfold storeCpuStacks
  dsimp only
  split <;> rfl

variable (entry) in
theorem storeCpuStacks_stacksAt (hsome : (state.points.find? commit).isSome) :
    (storeCpuStacks state commit entry).stacksAt commit =
      (storedStacks entry).getD (state.stacksAt commit) ∧
    ((storeCpuStacks state commit entry).points.find? commit).isSome := by
  obtain ⟨p, hp⟩ := Option.isSome_iff_exists.mp hsome
  unfold storeCpuStacks storedStacks
  dsimp only
  split
  · rw [SweepState.stacksAt, SweepState.find?_setPoint, if_pos rfl, hp]
    exact ⟨rfl, rfl⟩
  · exact ⟨rfl, hsome⟩

end Writers

/-! ## What is recorded -/

section Recorded

variable {δ : Type} {datetime : DatetimeClass δ} {stdev : List Json → Rat} {log : List Fields}
  {moment : Moment} {task : TaskData δ} {state t : SweepState}

/-- The coordinator takes the task for its own, and the log has a row with a
score for it. -/
def Records (datetime : DatetimeClass δ) (log : List Fields) (task : TaskData δ) (commit : String)
    (entry : Fields) : Prop :=
  sweepCommit task = some commit ∧ c.isMyTask task = true ∧ c.identityMismatch task = none ∧
    findTaskEntry log (task.taskId datetime) = some entry ∧ (scoreOf entry).isSome

variable {c} {commit : String} {entry : Fields}

theorem extractResult_isSome (stdev : List Json → Rat) :
    (c.extractResult stdev entry).isSome = (scoreOf entry).isSome := by
  unfold extractResult
  rcases scoreOf entry with _ | score <;> rfl

/-- What a recording leaves: the point of its commit is there and the others are
as they were, and of the stacks only those the row stores are new. -/
structure Leaves (commit : String) (entry : Fields) (state t : SweepState) : Prop where
  others       : ∀ other, other ≠ commit → t.points.find? other = state.points.find? other
  mergeCommits : t.mergeCommits = state.mergeCommits
  there        : (t.points.find? commit).isSome
  kept         : t.stacksAt commit = (storedStacks entry).getD (state.stacksAt commit)

theorem Leaves.writes {u : SweepState} (h : Leaves commit entry state t)
    (hwrites : SweepState.Writes commit t u) : Leaves commit entry state u where
  others other hne := (hwrites.others other hne).trans (h.others other hne)
  mergeCommits := hwrites.mergeCommits.trans h.mergeCommits
  there := hwrites.stays h.there
  kept := hwrites.kept.trans h.kept

theorem baseCompleted_spec (h : c.baseCompleted datetime stdev log moment task state = some t) :
    ∃ commit entry, c.Records datetime log task commit entry ∧ Leaves commit entry state t := by
  unfold baseCompleted at h
  obtain ⟨commit, hcommit, h⟩ := Option.bind_eq_some_iff.mp h
  split at h
  · next hmine =>
    obtain ⟨entry, hentry, h⟩ := Option.bind_eq_some_iff.mp h
    obtain ⟨result, hresult, h⟩ := Option.bind_eq_some_iff.mp h
    cases h
    have hscore : (scoreOf entry).isSome := by
      rw [← extractResult_isSome (c := c) stdev, hresult]
      rfl
    refine ⟨commit, entry, ⟨hcommit, hmine.1, hmine.2, hentry, hscore⟩, ?_⟩
    -- before the stacks, the stacks, after the stacks
    have hbefore := (writes_recordResult state commit moment result).trans
      (writes_recordPerfCounters _ commit entry)
    have hsome := (writes_recordPerfCounters _ commit entry).stays
      (recordResult_isSome state commit moment result)
    obtain ⟨hstored, hsome'⟩ := storeCpuStacks_stacksAt entry hsome
    have hafter := (writes_recordScoreBounds (storeCpuStacks (recordPerfCounters
      (recordResult state commit moment result) commit entry) commit entry) commit entry).trans
        (writes_recordClientCpu _ commit entry)
    refine ⟨fun other hne => ?_, ?_, hafter.stays hsome', ?_⟩
    · rw [hafter.others other hne, storeCpuStacks_others hne, hbefore.others other hne]
    · rw [hafter.mergeCommits, storeCpuStacks_mergeCommits, hbefore.mergeCommits]
    · rw [hafter.kept, hstored, hbefore.kept]
  · cases h

/-- The base class records what is to be recorded in every state. -/
theorem Records.baseCompleted (h : c.Records datetime log task commit entry)
    (stdev : List Json → Rat) (moment : Moment) (state : SweepState) :
    ∃ t, c.baseCompleted datetime stdev log moment task state = some t := by
  obtain ⟨hcommit, hmine, hmatch, hentry, hscore⟩ := h
  rw [← extractResult_isSome (c := c) stdev] at hscore
  obtain ⟨result, hresult⟩ := Option.isSome_iff_exists.mp hscore
  unfold CoordinatorV3.baseCompleted
  rw [hcommit]
  simp only [Option.bind_eq_bind, Option.bind_some, hmine, hmatch, and_self, if_true, hentry,
    hresult]
  exact ⟨_, rfl⟩

theorem baseCompleted_refused (hmismatch : c.identityMismatch task ≠ none) :
    c.baseCompleted datetime stdev log moment task state = none := by
  cases h : c.baseCompleted datetime stdev log moment task state with
  | none => rfl
  | some t =>
    obtain ⟨commit, entry, hrecords, -⟩ := baseCompleted_spec h
    exact absurd hrecords.2.2.1 hmismatch

/-- A task the base class refuses, of which the latency series keeps the latency
detail all the same. -/
structure KeepsRefused (c : CoordinatorV3) (datetime : DatetimeClass δ) (log : List Fields)
    (task : TaskData δ) (commit : String) (latency : Json) : Prop where
  latencySeries : c.kind = .latency
  commits       : sweepCommit task = some commit
  mine          : c.isMyTask task = true
  mismatch      : c.identityMismatch task ≠ none
  measured      : ∃ entry, findTaskEntry log (task.taskId datetime) = some entry ∧
    (scoreOf entry).isSome ∧ latencyDataFromEntry entry = some latency

theorem latencyDataFromEntry_ne_null {latency : Json}
    (h : latencyDataFromEntry entry = some latency) : latency ≠ .null := by
  unfold latencyDataFromEntry at h
  dsimp only at h
  split at h
  · obtain ⟨p50, -, h⟩ := Option.bind_eq_some_iff.mp h
    obtain ⟨p99, -, h⟩ := Option.bind_eq_some_iff.mp h
    obtain ⟨p999, -, h⟩ := Option.bind_eq_some_iff.mp h
    obtain ⟨max, -, h⟩ := Option.bind_eq_some_iff.mp h
    cases h
    exact Json.noConfusion
  · cases h

theorem KeepsRefused.latency_ne_null {latency : Json}
    (h : KeepsRefused c datetime log task commit latency) : latency ≠ .null := by
  obtain ⟨entry, -, -, hlatency⟩ := h.measured
  exact latencyDataFromEntry_ne_null hlatency

/-- The detail is that of the task's row. -/
theorem KeepsRefused.latency_unique {commit' : String} {latency latency' : Json}
    (h : KeepsRefused c datetime log task commit latency)
    (h' : KeepsRefused c datetime log task commit' latency') : latency = latency' := by
  obtain ⟨entry, hentry, -, hlatency⟩ := h.measured
  obtain ⟨entry', hentry', -, hlatency'⟩ := h'.measured
  obtain rfl := Option.some.inj (hentry.symm.trans hentry')
  exact Option.some.inj (hlatency.symm.trans hlatency')

/-- The latency series goes on only with a task that is its own and has a score. -/
theorem latencyCompleted_eq (hcommit : sweepCommit task = some commit)
    (hmine : c.isMyTask task = true)
    (hentry : findTaskEntry log (task.taskId datetime) = some entry)
    (hscore : (scoreOf entry).isSome) :
    c.latencyCompleted datetime stdev log moment task state =
      match latencyDataFromEntry entry with
      | some latency =>
        if (((c.baseCompleted datetime stdev log moment task state).getD state).points.find?
            commit).isSome then
          some (recordLatencyData
            ((c.baseCompleted datetime stdev log moment task state).getD state) commit latency)
        else c.baseCompleted datetime stdev log moment task state
      | none => c.baseCompleted datetime stdev log moment task state := by
  rw [← extractResult_isSome (c := c) stdev] at hscore
  obtain ⟨result, hresult⟩ := Option.isSome_iff_exists.mp hscore
  unfold latencyCompleted
  rw [hcommit]
  simp only [Option.bind_eq_bind, Option.bind_some, hmine, if_true, hentry, hresult]

theorem latencyCompleted_selects
    (h : c.latencyCompleted datetime stdev log moment task state = some t) :
    ∃ commit entry, sweepCommit task = some commit ∧ c.isMyTask task = true ∧
      findTaskEntry log (task.taskId datetime) = some entry ∧ (scoreOf entry).isSome := by
  unfold latencyCompleted at h
  obtain ⟨commit, hcommit, h⟩ := Option.bind_eq_some_iff.mp h
  split at h
  · next hmine =>
    obtain ⟨entry, hentry, h⟩ := Option.bind_eq_some_iff.mp h
    obtain ⟨result, hresult, -⟩ := Option.bind_eq_some_iff.mp h
    refine ⟨commit, entry, hcommit, hmine, hentry, ?_⟩
    rw [← extractResult_isSome (c := c) stdev, hresult]
    rfl
  · cases h

/-- **What a completed task changes**: it is recorded, or a refused one has its
latency detail written to the point that is there. -/
theorem onTaskCompleted_spec
    (h : c.onTaskCompleted datetime stdev log moment task state = some t) :
    (∃ commit entry, c.Records datetime log task commit entry ∧ Leaves commit entry state t) ∨
    ∃ commit latency, KeepsRefused c datetime log task commit latency ∧
      (state.points.find? commit).isSome ∧ t = recordLatencyData state commit latency := by
  unfold onTaskCompleted at h
  split at h
  · exact .inl (baseCompleted_spec h)
  · next hkind =>
    obtain ⟨commit, entry, hcommit, hmine, hentry, hscore⟩ := latencyCompleted_selects h
    rw [latencyCompleted_eq hcommit hmine hentry hscore] at h
    by_cases hmatch : c.identityMismatch task = none
    · refine .inl ⟨commit, entry, ⟨hcommit, hmine, hmatch, hentry, hscore⟩, ?_⟩
      obtain ⟨u, hu⟩ := Records.baseCompleted ⟨hcommit, hmine, hmatch, hentry, hscore⟩ stdev moment
        state
      obtain ⟨commit', entry', hrecords, hleaves⟩ := baseCompleted_spec hu
      obtain rfl := Option.some.inj (hcommit.symm.trans hrecords.1)
      obtain rfl := Option.some.inj (hentry.symm.trans hrecords.2.2.2.1)
      rw [hu, Option.getD_some] at h
      cases hlatency : latencyDataFromEntry entry with
      | none =>
        rw [hlatency] at h
        obtain rfl := Option.some.inj h
        exact hleaves
      | some latency =>
        rw [hlatency] at h
        dsimp only at h
        rw [if_pos hleaves.there] at h
        obtain rfl := Option.some.inj h
        exact hleaves.writes (writes_recordLatencyData u commit latency)
    · rw [baseCompleted_refused hmatch, Option.getD_none] at h
      cases hlatency : latencyDataFromEntry entry with
      | none =>
        rw [hlatency] at h
        cases h
      | some latency =>
        rw [hlatency] at h
        dsimp only at h
        split at h
        · next hthere =>
          exact .inr ⟨commit, latency, ⟨hkind, hcommit, hmine, hmatch,
            entry, hentry, hscore, hlatency⟩, hthere, (Option.some.inj h).symm⟩
        · cases h

/-- A recording takes place in every state. -/
theorem Records.onTaskCompleted (h : c.Records datetime log task commit entry)
    (stdev : List Json → Rat) (moment : Moment) (state : SweepState) :
    ∃ t, c.onTaskCompleted datetime stdev log moment task state = some t := by
  obtain ⟨u, hu⟩ := h.baseCompleted stdev moment state
  obtain ⟨hcommit, hmine, hmatch, hentry, hscore⟩ := h
  unfold CoordinatorV3.onTaskCompleted
  split
  · exact ⟨u, hu⟩
  · rw [latencyCompleted_eq hcommit hmine hentry hscore, hu]
    split
    · split
      · exact ⟨_, rfl⟩
      · exact ⟨u, rfl⟩
    · exact ⟨u, rfl⟩

/-- A refused task's latency detail is written wherever its commit has a point. -/
theorem KeepsRefused.onTaskCompleted {latency : Json}
    (h : KeepsRefused c datetime log task commit latency) (stdev : List Json → Rat)
    (moment : Moment) (hthere : (state.points.find? commit).isSome) :
    c.onTaskCompleted datetime stdev log moment task state =
      some (recordLatencyData state commit latency) := by
  obtain ⟨hkind, hcommit, hmine, hmismatch, entry, hentry, hscore, hlatency⟩ := h
  unfold CoordinatorV3.onTaskCompleted
  rw [hkind]
  dsimp only
  rw [latencyCompleted_eq hcommit hmine hentry hscore, baseCompleted_refused hmismatch, hlatency,
    Option.getD_none]
  exact if_pos hthere

variable (c datetime stdev log moment task state) in
/-- The state after `on_task_completed`. -/
def completed : SweepState :=
  (c.onTaskCompleted datetime stdev log moment task state).getD state

/-- **A task of another client budget leaves the state as it was exactly when**
no point of its commit gets another latency detail from it. -/
theorem refused_unchanged_iff (hmismatch : c.identityMismatch task ≠ none) :
    c.completed datetime stdev log moment task state = state ↔
      ∀ commit latency p, KeepsRefused c datetime log task commit latency →
        state.points.find? commit = some p → p.latencyData = latency := by
  constructor
  · intro hsame commit latency p hkeeps hp
    rw [completed, hkeeps.onTaskCompleted stdev moment (by rw [hp]; rfl), Option.getD_some] at hsame
    have hpoint : (recordLatencyData state commit latency).points.find? commit =
        (state.points.find? commit).map fun p => { p with latencyData := latency } := by
      rw [recordLatencyData, SweepState.find?_setPoint, if_pos rfl]
    rw [hp, hsame, hp] at hpoint
    exact congrArg BenchmarkPoint.latencyData (Option.some.inj hpoint)
  · intro hkept
    unfold completed
    cases h : c.onTaskCompleted datetime stdev log moment task state with
    | none => rfl
    | some t =>
      rcases onTaskCompleted_spec h with ⟨_, _, hrecords, -⟩ | ⟨commit, latency, hkeeps, -, rfl⟩
      · exact absurd hrecords.2.2.1 hmismatch
      · refine SweepState.setPoint_self fun p hp => ?_
        rw [← hkept commit latency p hkeeps hp]

end Recorded

/-! ## What a task measured -/

/-- The fields that decide what a task measures, `topology` apart. -/
def workloadFields : List String :=
  ["specifier", "source", "make_args", "test", "set_ratio", "val_size", "keyspace_count",
    "io_threads", "pipelining", "connections", "threads", "distribution", "rate_limit", "duration",
    "warmup", "server_args", "tls", "client_netns", "score_metric", "score_aggregate"]

/-- Those of them neither list of the coordinator names. -/
def unpinnedFields : List String :=
  ["specifier", "make_args", "keyspace_count", "duration", "warmup", "server_args",
    "client_netns", "score_aggregate"]

section Cell

variable (config : TaskConfig) (commit : String)

/-- A field of the cell of a commit: the argument of `_create_task`, or the
default of the class. -/
def cellValue (name : String) : Json :=
  ((Json.lookup (c.cellArguments commit "") name).or
    ((config.cachecannonTaskData.params.find? fun p => decide (p.name = name)).bind
      FieldDecl.default)).getD .null

variable {δ : Type}

/-- The arguments of a cell bound to the parameters of the class. -/
theorem lookup_bound_cell (reason : String) : ∀ name ∈ workloadFields,
    Json.lookup (config.cachecannonTaskData.params.map fun p => (p.name,
      ((Json.lookup (c.cellArguments commit reason) p.name).or p.default).getD .null)) name =
        some (c.cellValue config commit name) := by
  simp only [workloadFields, List.forall_mem_cons]
  refine ⟨rfl, rfl, rfl, rfl, rfl, rfl, rfl, rfl, rfl, rfl, rfl, rfl, rfl, rfl, rfl, rfl, rfl, rfl,
    rfl, rfl, fun name hname => absurd hname List.not_mem_nil⟩

/-- No conversion of the class changes a value of a cell. -/
theorem cell_fixed : ∀ name ∈ workloadFields, ∀ convert,
    .rewrite name convert ∈ config.cachecannonTaskData.postInit →
      convert (c.cellValue config commit name) = .ok (c.cellValue config commit name) := by
  intro name hname convert hmem
  simp only [TaskConfig.cachecannonTaskData, TaskConfig.sourceStep, TaskConfig.infoSectionsStep,
    InitStep.toInt, InitStep.refuse1, InitStep.refuse2, List.mem_cons, InitStep.rewrite.injEq,
    List.not_mem_nil, reduceCtorEq, or_false, false_or] at hmem
  rcases hmem with ⟨rfl, rfl⟩ | ⟨rfl, rfl⟩ | ⟨rfl, -⟩
  · rfl
  · rfl
  · exact absurd hname (by decide)

/-- **The task a coordinator queues for a commit has the values of its cell.** -/
theorem createTask_cell {reason : String} {now : δ} {cell : TaskData δ}
    (h : c.createTask config commit reason now = .ok cell) :
    cell.topology = TaskData.standalone ∧
      ∀ name ∈ workloadFields, Json.getD cell.fields name = c.cellValue config commit name := by
  obtain ⟨task, htask, h⟩ := except_bind_ok.mp h
  cases h
  obtain ⟨bound, hbound, htask⟩ := except_bind_ok.mp htask
  obtain ⟨fields, hrun, htask⟩ := except_bind_ok.mp htask
  cases htask
  refine ⟨rfl, fun name hname => ?_⟩
  have hne : name ≠ "sweep_commit" := by
    rintro rfl
    exact absurd hname (by decide)
  have hbind := c.lookup_bound_cell config commit reason name hname
  unfold TaskType.bindArguments at hbound
  split at hbound
  · cases hbound
  · split at hbound
    · cases hbound
    · cases hbound
      have hkept := InitStep.run_fixed hrun (c.cell_fixed config commit name hname) hbind
      rw [Json.getD, Json.lookup_setField_of_ne hne, hkept]
      rfl

/-- The task measured what the cell of the commit would have measured. -/
def SameMeasurement (task : TaskData δ) : Prop :=
  task.topology = TaskData.standalone ∧
    ∀ name ∈ workloadFields, Json.pyEq (Json.getD task.fields name) (c.cellValue config commit name)

/-- The task agrees with the cell where nothing compares it. -/
def AgreesUnpinned (task : TaskData δ) : Prop :=
  task.topology = TaskData.standalone ∧
    ∀ name ∈ unpinnedFields, Json.pyEq (Json.getD task.fields name) (c.cellValue config commit name)

/-- A point is added or changed only for the commit whose cell the task measured. -/
def Faithful (datetime : DatetimeClass δ) (stdev : List Json → Rat) (log : List Fields)
    (task : TaskData δ) : Prop :=
  ∀ moment state t, c.onTaskCompleted datetime stdev log moment task state = some t →
    ∀ commit, t.points.find? commit ≠ state.points.find? commit →
      c.SameMeasurement config commit task

/-- What the two lists want is what the cell has. -/
theorem shape_of_cell : ∀ f ∈ c.ownedShape ++ c.identityShape,
    f.2 = c.cellValue config commit f.1 := by
  simp only [ownedShape, identityShape, List.cons_append, List.nil_append, List.forall_mem_cons]
  refine ⟨rfl, rfl, rfl, rfl, rfl, rfl, rfl, rfl, rfl, rfl, rfl, rfl, rfl, rfl, rfl, rfl, rfl, rfl,
    rfl, fun f hf => absurd hf List.not_mem_nil⟩

theorem workload_covered : ∀ name ∈ workloadFields,
    name ∈ unpinnedFields ∨ name ∈ (c.ownedShape ++ c.identityShape).map Prod.fst :=
  of_decide_eq_true rfl

theorem unpinned_workload : ∀ name ∈ unpinnedFields, name ∈ workloadFields := by decide

variable {config} {c}

/-- A task that passes both comparisons has the values they want. -/
theorem matches_of_mine {task : TaskData δ} (hmine : c.isMyTask task = true)
    (hmatch : c.identityMismatch task = none) :
    ∀ f ∈ c.ownedShape ++ c.identityShape, matchesField task f = true := by
  intro f hf
  rcases List.mem_append.mp hf with hf | hf
  · rw [isMyTask, Bool.and_eq_true, List.all_eq_true] at hmine
    exact hmine.2 f hf
  · rw [identityMismatch, Option.map_eq_none_iff, List.find?_eq_none] at hmatch
    have hsame := hmatch f hf
    simpa using hsame

/-- **Of what is measured, the comparisons leave `unpinnedFields` and the
topology open.** -/
theorem sameMeasurement_iff {task : TaskData δ} (hmine : c.isMyTask task = true)
    (hmatch : c.identityMismatch task = none) {commit : String} :
    c.SameMeasurement config commit task ↔ c.AgreesUnpinned config commit task := by
  constructor
  · rintro ⟨htopology, hfields⟩
    exact ⟨htopology, fun name hname => hfields name (unpinned_workload name hname)⟩
  · rintro ⟨htopology, hfields⟩
    refine ⟨htopology, fun name hname => ?_⟩
    rcases c.workload_covered name hname with hopen | hpinned
    · exact hfields name hopen
    · obtain ⟨f, hf, rfl⟩ := List.mem_map.mp hpinned
      rw [← c.shape_of_cell config commit f hf]
      exact matches_of_mine hmine hmatch f hf

/-- A mismatch is a difference in what is measured. -/
theorem not_sameMeasurement {task : TaskData δ} (hmismatch : c.identityMismatch task ≠ none)
    (commit : String) : ¬ c.SameMeasurement config commit task := by
  rintro ⟨-, hfields⟩
  apply hmismatch
  rw [identityMismatch, Option.map_eq_none_iff, List.find?_eq_none]
  intro f hf
  have hname : ∀ f ∈ c.identityShape, f.1 ∈ workloadFields := by
    simp [identityShape, workloadFields]
  have hsame := hfields f.1 (hname f hf)
  rw [← c.shape_of_cell config commit f (List.mem_append_right _ hf)] at hsame
  simp [matchesField, hsame]

/-- **A coordinator changes points only for tasks that measured the cell of their
commit exactly when** what it records agrees with the cell on the fields it does
not compare, and it keeps nothing of a task it refuses. -/
theorem faithful_iff {datetime : DatetimeClass δ} {stdev : List Json → Rat} {log : List Fields}
    {task : TaskData δ} : c.Faithful config datetime stdev log task ↔
      (∀ commit entry, c.Records datetime log task commit entry →
        c.AgreesUnpinned config commit task) ∧
      ∀ commit latency, ¬ KeepsRefused c datetime log task commit latency := by
  constructor
  · refine fun hfaithful => ⟨fun commit entry hrecords => ?_, fun commit latency hkeeps => ?_⟩
    · -- in a state without points the recording adds one
      obtain ⟨t, ht⟩ := hrecords.onTaskCompleted stdev ⟨none, 0⟩ SweepState.empty
      rcases onTaskCompleted_spec ht with ⟨commit', entry', hrecords', hleaves⟩ |
        ⟨_, _, hkeeps, _⟩
      · obtain rfl := Option.some.inj (hrecords'.1.symm.trans hrecords.1)
        have hchanged : t.points.find? commit' ≠ SweepState.empty.points.find? commit' := by
          intro hsame
          have hthere := hleaves.there
          rw [hsame] at hthere
          cases hthere
        exact (sameMeasurement_iff hrecords.2.1 hrecords.2.2.1).mp
          (hfaithful _ _ _ ht commit' hchanged)
      · exact absurd hrecords.2.2.1 hkeeps.mismatch
    · -- in a state with a point of the commit its latency detail changes
      let state := SweepState.empty.recordBuildFailure commit
      have hpoint : state.points.find? commit = some (SweepState.empty.failedPoint commit) := by
        show (SweepState.empty.points.put _).find? commit = _
        rw [Table.find?_put]
        exact if_pos rfl
      have hthere : (state.points.find? commit).isSome := by
        rw [hpoint]
        rfl
      have ht := hkeeps.onTaskCompleted stdev ⟨none, 0⟩ hthere
      refine not_sameMeasurement hkeeps.mismatch commit (hfaithful _ _ _ ht commit ?_)
      rw [recordLatencyData, SweepState.find?_setPoint, if_pos rfl, hpoint]
      intro hsame
      have hlatency : latency = .null := congrArg BenchmarkPoint.latencyData (Option.some.inj hsame)
      exact hkeeps.latency_ne_null hlatency
  · rintro ⟨hagrees, hkeeps⟩ moment state t ht commit hchanged
    rcases onTaskCompleted_spec ht with ⟨commit', entry, hrecords, hleaves⟩ |
      ⟨commit', latency, hkept, -⟩
    · have hcommit : commit = commit' := by
        by_contra hne
        exact hchanged (hleaves.others commit hne)
      subst hcommit
      exact (sameMeasurement_iff hrecords.2.1 hrecords.2.2.1).mpr (hagrees commit entry hrecords)
    · exact absurd hkept (hkeeps commit' latency)

/-! ### A hairpin cell -/

/-- GET throughput at P10. -/
def getSeries : CoordinatorV3 where
  kind           := .throughput
  label          := "get-k16-v16-t7-p10"
  engine         := none
  test           := "get"
  setRatio       := 0
  valSize        := 16
  ioThreads      := 7
  pipelining     := 10
  connections    := 400
  threads        := 8
  distribution   := "uniform"
  rateLimit      := 0
  scoreMetric    := "throughput"
  scoreAggregate := "mean"
  repetitions    := 5
  maxReps        := 10
  targetCv       := 1 / 2
  tls            := false

def oneCommit : String := "8f5a1b2c3d4e5f60718293a4b5c6d7e8f9a0b1c2"

/-- A cell of the series, to be run in a network namespace. -/
def hairpinArguments : Fields :=
  getSeries.cellArguments oneCommit "by hand" ++
    [("sweep_commit", .str oneCommit), ("client_netns", .str "bench")]

/-- The row its run leaves. -/
def hairpinRow : Fields :=
  [("task_id", .str "2026.03.01_00.00.00.000000"), ("score", .float (.finite 1850000)),
    ("data", .obj [])]

/-- The series takes the point of a task that drove the server through a network
namespace. -/
theorem hairpin_recorded : ∃ task : TaskData Unit, TaskData.Constructible TaskData.oneRepo task ∧
    ¬ getSeries.Faithful TaskData.oneRepo TaskData.oneDay (fun _ => 0) [hairpinRow] task := by
  have hchecked : (TaskData.construct TaskData.oneRepo.cachecannonTaskData hairpinArguments
      TaskData.standalone ()).toOption.any (fun t => getSeries.isMyTask t &&
        (getSeries.identityMismatch t).isNone && decide (sweepCommit t = some oneCommit) &&
        decide (Json.getD t.fields "client_netns" = .str "bench") && t.override.isNone) = true := by
    decide +kernel
  rcases h : TaskData.construct TaskData.oneRepo.cachecannonTaskData hairpinArguments
      TaskData.standalone () with e | task
  · rw [h] at hchecked
    cases hchecked
  · rw [h] at hchecked
    simp only [Except.toOption, Option.any_some, Bool.and_eq_true, Option.isNone_iff_eq_none,
      decide_eq_true_eq] at hchecked
    obtain ⟨⟨⟨⟨hmine, hmatch⟩, hcommit⟩, hnetns⟩, hid⟩ := hchecked
    refine ⟨task, .built List.mem_cons_self h, fun hfaithful => ?_⟩
    have hentry : findTaskEntry [hairpinRow] (task.taskId TaskData.oneDay) = some hairpinRow := by
      rw [TaskData.taskId, hid]
      show findTaskEntry [hairpinRow] "2026.03.01_00.00.00.000000" = some hairpinRow
      decide
    have hagrees := (faithful_iff.mp hfaithful).1 oneCommit hairpinRow
      ⟨hcommit, hmine, hmatch, hentry, rfl⟩
    have hsame := hagrees.2 "client_netns" (by decide)
    rw [hnetns] at hsame
    exact absurd hsame (by decide)

/-! ### A cell of another client budget -/

/-- GET latency at a fixed rate. -/
def latencySeries : CoordinatorV3 where
  kind           := .latency
  label          := "get-k16-v16-t7-p1-r100k"
  engine         := none
  test           := "get"
  setRatio       := 0
  valSize        := 16
  ioThreads      := 7
  pipelining     := 1
  connections    := 400
  threads        := 8
  distribution   := "uniform"
  rateLimit      := 100000
  scoreMetric    := "p99"
  scoreAggregate := "mean"
  repetitions    := 3
  maxReps        := 10
  targetCv       := 2
  tls            := false

/-- The cell of a commit, queued when the series ran 16 client threads. -/
def staleArguments : Fields :=
  Json.setField (latencySeries.cellArguments oneCommit "before the change") "threads" (.int 16) ++
    [("sweep_commit", .str oneCommit)]

/-- The row its run leaves. -/
def staleRow : Fields :=
  [("task_id", .str "2026.03.01_00.00.00.000000"), ("score", .float (.finite 600)),
    ("data", .obj [("latency", .obj [("p50_ms", .float (.finite (3 / 10))),
      ("p99_ms", .float (.finite (6 / 10))), ("p999_ms", .float (.finite (9 / 10))),
      ("max_ms", .float (.finite 4))])])]

theorem exists_stale : ∃ task : TaskData Unit, TaskData.Constructible TaskData.oneRepo task ∧
    latencySeries.isMyTask task = true ∧ latencySeries.identityMismatch task ≠ none ∧
    sweepCommit task = some oneCommit ∧
    findTaskEntry [staleRow] (task.taskId TaskData.oneDay) = some staleRow := by
  have hchecked : (TaskData.construct TaskData.oneRepo.cachecannonTaskData staleArguments
      TaskData.standalone ()).toOption.any (fun t => latencySeries.isMyTask t &&
        (latencySeries.identityMismatch t).isSome && decide (sweepCommit t = some oneCommit) &&
        t.override.isNone) = true := by
    decide +kernel
  rcases h : TaskData.construct TaskData.oneRepo.cachecannonTaskData staleArguments
      TaskData.standalone () with e | task
  · rw [h] at hchecked
    cases hchecked
  · rw [h] at hchecked
    simp only [Except.toOption, Option.any_some, Bool.and_eq_true, Option.isNone_iff_eq_none,
      decide_eq_true_eq] at hchecked
    obtain ⟨⟨⟨hmine, hmismatch⟩, hcommit⟩, hid⟩ := hchecked
    refine ⟨task, .built List.mem_cons_self h, hmine, fun hnone => ?_, hcommit, ?_⟩
    · rw [hnone] at hmismatch
      cases hmismatch
    · rw [TaskData.taskId, hid]
      rfl

/-- The latency series refuses the cell, and writes its percentiles to the point
of its commit. -/
theorem stale_overwrites : ∃ task : TaskData Unit, TaskData.Constructible TaskData.oneRepo task ∧
    latencySeries.isMyTask task = true ∧ latencySeries.identityMismatch task ≠ none ∧
    ∃ state, latencySeries.completed TaskData.oneDay (fun _ => 0) [staleRow] ⟨none, 0⟩ task state ≠
      state := by
  obtain ⟨task, hbuilt, hmine, hmismatch, hcommit, hentry⟩ := exists_stale
  refine ⟨task, hbuilt, hmine, hmismatch, SweepState.empty.recordBuildFailure oneCommit, ?_⟩
  have hkeeps : ∃ latency, KeepsRefused latencySeries TaskData.oneDay [staleRow] task oneCommit
      latency := ⟨_, rfl, hcommit, hmine, hmismatch, staleRow, hentry, rfl, rfl⟩
  obtain ⟨latency, hkeeps⟩ := hkeeps
  have hpoint : (SweepState.empty.recordBuildFailure oneCommit).points.find? oneCommit =
      some (SweepState.empty.failedPoint oneCommit) := rfl
  rw [completed, hkeeps.onTaskCompleted _ _ (by rw [hpoint]; rfl), Option.getD_some]
  intro hsame
  have hafter : (recordLatencyData (SweepState.empty.recordBuildFailure oneCommit) oneCommit
      latency).points.find? oneCommit = some (SweepState.empty.failedPoint oneCommit) := by
    rw [hsame, hpoint]
  rw [recordLatencyData, SweepState.find?_setPoint, if_pos rfl, hpoint] at hafter
  exact hkeeps.latency_ne_null (congrArg BenchmarkPoint.latencyData (Option.some.inj hafter))

/-- Where the point of its commit has the row's percentiles, the cell changes nothing. -/
theorem refused_unchanged_stale : ∃ (task : TaskData Unit) (state : SweepState),
    latencySeries.isMyTask task = true ∧
    (∃ p, state.points.find? oneCommit = some p ∧ p.latencyData ≠ .null) ∧
    latencySeries.completed TaskData.oneDay (fun _ => 0) [staleRow] ⟨none, 0⟩ task state =
      state := by
  obtain ⟨task, -, hmine, hmismatch, hcommit, hentry⟩ := exists_stale
  have hkeeps : ∃ latency, KeepsRefused latencySeries TaskData.oneDay [staleRow] task oneCommit
      latency := ⟨_, rfl, hcommit, hmine, hmismatch, staleRow, hentry, rfl, rfl⟩
  obtain ⟨latency, hkeeps⟩ := hkeeps
  have hpoint : (recordLatencyData (SweepState.empty.recordBuildFailure oneCommit) oneCommit
      latency).points.find? oneCommit =
      some { SweepState.empty.failedPoint oneCommit with latencyData := latency } := by
    rw [recordLatencyData, SweepState.find?_setPoint, if_pos rfl]
    rfl
  refine ⟨task, recordLatencyData (SweepState.empty.recordBuildFailure oneCommit) oneCommit latency,
    hmine, ⟨_, hpoint, hkeeps.latency_ne_null⟩,
    (refused_unchanged_iff hmismatch).mpr fun commit other p hother hp => ?_⟩
  -- there is one commit and one row the cell can write of
  obtain rfl : commit = oneCommit := Option.some.inj (hother.commits.symm.trans hcommit)
  obtain rfl := Option.some.inj (hpoint.symm.trans hp)
  exact hkeeps.latency_unique hother

end Cell

end CoordinatorV3

end Conductress.Sweep
