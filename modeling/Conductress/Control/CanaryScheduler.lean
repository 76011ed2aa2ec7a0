import Conductress.Control.Service

/-!
# The canary scheduler

`CanaryScheduler.tick`: for every enabled runner with a known profile, first
yesterday and then today, one transaction each. A transaction that raises ends
the tick; what the earlier ones committed stays.
-/

namespace Conductress

open Lib

namespace CanaryScheduler

def priorityCanary : Int := 50
def canarySubmitter : String := "canary-scheduler"

/-- Deterministic task id of a runner, profile and day. -/
def canaryTaskId (runnerId profileId : String) (utcDate : ℕ) : String :=
  "canary:" ++ runnerId ++ ":" ++ profileId ++ ":" ++ dateText utcDate

/-- The task body of a canary. -/
def canaryTask (profile : CanaryProfile) (utcDate : ℕ) (now : Instant) : Fields :=
  let wl := Json.getD profile.workload
  [("task_type", .str "CanaryPerfTaskData"),
    ("source", .str profile.source),
    ("specifier", .str profile.pinnedCommit),
    ("timestamp", .str (isoText now)),
    ("requirements", .obj []),
    ("make_args", profile.makeArgs),
    ("note", .str ("canary " ++ profile.profileId ++ " v" ++ toString profile.profileVersion ++
      " (" ++ dateText utcDate ++ ")")),
    ("test", wl "test"),
    ("val_size", wl "val_size"),
    ("key_size", wl "key_size"),
    ("io_threads", wl "io_threads"),
    ("pipelining", wl "pipelining"),
    ("warmup", wl "warmup_seconds"),
    ("duration", wl "duration_seconds"),
    ("perf_stat_enabled", .bool false),
    ("has_expire", .bool false),
    ("preload_keys", .bool true),
    ("repetitions", wl "repetitions"),
    ("bench_clients", wl "clients"),
    ("bench_threads", wl "threads"),
    ("keyspace", wl "keyspace"),
    ("seed", wl "seed")]

/-- Build a task envelope from a canary profile. -/
def buildEnvelope (runnerId : String) (profile : CanaryProfile) (utcDate : ℕ) (now : Instant) :
    TaskEnvelope where
  taskId      := canaryTaskId runnerId profile.profileId utcDate
  runnerId    := runnerId
  taskClass   := .canary
  priority    := priorityCanary
  submittedAt := utcText now
  submittedBy := canarySubmitter
  canaryId    := .value (profile.profileId ++ ":" ++ dateText utcDate)
  batchId     := .absent
  submitter   := .absent
  provenance  := .absent
  task        := canaryTask profile utcDate now

/-- A schedule row for a day. -/
def scheduleRow (runnerId profileId : String) (utcDate : ℕ) (state : ScheduleState)
    (taskId : Option String) (now : Instant) : ScheduleRow :=
  ⟨runnerId, profileId, utcDate, state, taskId, now, now⟩

/-- `INSERT OR IGNORE INTO canary_schedule`. -/
def ignoreInsert (db : Database) (row : ScheduleRow) : Database :=
  match db.canarySchedule.insert? row with
  | some canarySchedule => { db with canarySchedule }
  | none => db

/-- The detail of a canary's audit records. -/
def auditDetail (profileId : String) (utcDate : ℕ) : Fields :=
  [("profile_id", .str profileId), ("utc_date", .str (dateText utcDate))]

/-- Insert the schedule row and the task row together. -/
def createCanary (db : Database) (runnerId : String) (profile : CanaryProfile) (utcDate : ℕ)
    (now : Instant) : Except PyError Database :=
  let taskId := canaryTaskId runnerId profile.profileId utcDate
  let schedule := scheduleRow runnerId profile.profileId utcDate .created (some taskId) now
  if (db.task? taskId).isSome then .ok (ignoreInsert db schedule)
  else
    let row := ControlService.newRow (buildEnvelope runnerId profile utcDate now) .queued none
      (some taskId) now
    match (ignoreInsert db schedule).insertTask row with
    | none => .error (.runtimeError "UNIQUE constraint failed: tasks.idempotency_key")
    | some inserted =>
      let detail := auditDetail profile.profileId utcDate ++
        [("profile_version", .int profile.profileVersion)]
      .ok (inserted.audit
        (ControlService.insertRecord .canaryCreated now canarySubmitter (some detail) row))

/-- The audit record of a missed day. -/
def missedRecord (runnerId profileId : String) (utcDate : ℕ) (now : Instant) : AuditRecord where
  timestamp := now
  actor     := canarySubmitter
  action    := .canaryMissed
  taskId    := none
  runnerId  := some runnerId
  oldState  := none
  newState  := none
  detail    := some (auditDetail profileId utcDate)

/-- Past freshness without a canary: recorded, never backfilled. -/
def markMissed (db : Database) (runnerId profileId : String) (utcDate : ℕ) (now : Instant) :
    Database :=
  (ignoreInsert db (scheduleRow runnerId profileId utcDate .missed none now)).audit
    (missedRecord runnerId profileId utcDate now)

/-- Past freshness with the canary still queued: cancelled. -/
def markExpired (db : Database) (runnerId profileId : String) (utcDate : ℕ) (row : TaskRow)
    (now : Instant) : Database :=
  let db := db.write .expireCanary now canarySubmitter (some (auditDetail profileId utcDate)) row
  { db with
    canarySchedule := db.canarySchedule.update (runnerId, profileId, utcDate)
      fun r => { r with state := .expired, updatedAt := now } }

/-- Create or expire a single canary for one runner, profile and day. -/
def evaluateRunner (now : Instant) (runnerId : String) (profile : CanaryProfile) (utcDate : ℕ)
    (db : Database) : Except PyError Database :=
  let dueStart := utcDate * microsPerDay + profile.utcHour * microsPerHour
  let deadline := dueStart + profile.freshnessHours * microsPerHour
  match db.canarySchedule.find? (runnerId, profile.profileId, utcDate) with
  | some entry =>
    match entry.taskId.bind db.task? with
    | some task =>
      if entry.state = .created ∧ deadline ≤ now ∧ task.state = .queued then
        .ok (markExpired db runnerId profile.profileId utcDate task now)
      else .ok db
    | none => .ok db
  | none =>
    if now < dueStart then .ok db
    else if deadline ≤ now then .ok (markMissed db runnerId profile.profileId utcDate now)
    else createCanary db runnerId profile utcDate now

/-- The evaluations of one tick, in order. -/
def evaluations (svc : ControlService) (now : Instant) : List (String × CanaryProfile × ℕ) :=
  svc.registry.enabledRunners.flatMap fun runner =>
    match runner.canaryProfile.bind svc.canaryProfiles.find? with
    | some profile =>
      [(runner.runnerId, profile, dayOf now - 1), (runner.runnerId, profile, dayOf now)]
    | none => []

/-- Run transactions until one raises. -/
def tickFrom (now : Instant) : List (String × CanaryProfile × ℕ) → Database → Database
  | [], db => db
  | (runnerId, profile, utcDate) :: rest, db =>
    match evaluateRunner now runnerId profile utcDate db with
    | .ok db => tickFrom now rest db
    | .error _ => db

def tick (svc : ControlService) (now : Instant) (db : Database) : Database :=
  tickFrom now (evaluations svc now) db

end CanaryScheduler

end Conductress
