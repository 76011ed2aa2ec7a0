import Conductress.Lib.Table
import Conductress.Control.Schema

/-!
# The control database

The `tasks`, `audit_log` and `canary_schedule` tables. `task_id` is the
primary key of `tasks`, so the table is keyed; the second UNIQUE column,
`idempotency_key`, is checked on insertion. Every write of a task's state is
paired with an audit record: `Database.write` does both.
-/

namespace Conductress

open Lib

/-- The states the schema's CHECK constraint admits. -/
inductive TaskState where
  | queued | claimed | accepted | completed | failed | cancelled
  | pendingApproval | cancelRequested
  deriving DecidableEq, Repr

/-- The state a reported outcome puts a task in. -/
def Terminal.taskState : Terminal → TaskState
  | .completed => .completed
  | .failed => .failed

namespace TaskState

/-- No operation leaves these. -/
def isTerminal : TaskState → Bool
  | completed | failed | cancelled => true
  | _ => false

end TaskState

/-- A claim token: the number of the `secrets.token_urlsafe(32)` draw it came
from. -/
abbrev ClaimToken := ℕ

/-- A row of `tasks`. `envelope` and `outcome` are the parsed canonical texts
of `envelope_json` and `outcome_json`. -/
structure TaskRow where
  taskId         : String
  runnerId       : String
  taskClass      : TaskClass
  priority       : Int
  state          : TaskState
  submittedAt    : String
  submittedBy    : String
  canaryId       : Option String
  batchId        : Option String
  submitterLogin : Option String
  envelope       : TaskEnvelope
  idempotencyKey : Option String
  claimedAt      : Option Instant
  leaseExpires   : Option Instant
  claimToken     : Option ClaimToken
  acceptedAt     : Option Instant
  completedAt    : Option String
  outcome        : Option TaskOutcome
  createdAt      : Instant
  updatedAt      : Instant
  deriving DecidableEq

inductive AuditAction where
  | taskSubmit | taskCancel | taskCancelRequested | taskApprove | taskReject
  | taskClaimExpired | taskClaim | taskAccept | taskCompleted | taskFailed
  | canaryCreated | canaryMissed | canaryExpired
  deriving DecidableEq, Repr

/-- `task.{terminal}`. -/
def Terminal.auditAction : Terminal → AuditAction
  | .completed => .taskCompleted
  | .failed => .taskFailed

/-- A row of `audit_log`. -/
structure AuditRecord where
  timestamp : Instant
  actor     : String
  action    : AuditAction
  taskId    : Option String
  runnerId  : Option String
  oldState  : Option TaskState
  newState  : Option TaskState
  detail    : Option Fields
  deriving DecidableEq

inductive ScheduleState where
  | created | missed | expired
  deriving DecidableEq, Repr

/-- A row of `canary_schedule`; the date is kept as its day number. -/
structure ScheduleRow where
  runnerId  : String
  profileId : String
  utcDate   : ℕ
  state     : ScheduleState
  taskId    : Option String
  createdAt : Instant
  updatedAt : Instant
  deriving DecidableEq

/-- The primary key of `canary_schedule`. -/
def ScheduleRow.key (r : ScheduleRow) : String × String × ℕ := (r.runnerId, r.profileId, r.utcDate)

structure Database where
  tasks          : Table TaskRow.taskId
  auditLog       : List AuditRecord
  canarySchedule : Table ScheduleRow.key

/-- The UPDATE statements that write a task's state. -/
inductive StateWrite where
  | cancel
  | requestCancel
  | approve
  | reject
  | expireClaim
  | claim (token : ClaimToken) (leaseExpires : Instant)
  | accept
  | report (outcome : TaskOutcome)
  | expireCanary
  deriving DecidableEq

namespace StateWrite

/-- The state a write sets. -/
def newState : StateWrite → TaskState
  | cancel | reject | expireCanary => .cancelled
  | requestCancel => .cancelRequested
  | approve | expireClaim => .queued
  | claim .. => .claimed
  | accept => .accepted
  | report outcome => outcome.state.taskState

/-- The audit action a write is recorded under. -/
def action : StateWrite → AuditAction
  | cancel => .taskCancel
  | requestCancel => .taskCancelRequested
  | approve => .taskApprove
  | reject => .taskReject
  | expireClaim => .taskClaimExpired
  | claim .. => .taskClaim
  | accept => .taskAccept
  | report outcome => outcome.state.auditAction
  | expireCanary => .canaryExpired

/-- The columns a write sets. -/
def set (now : Instant) (row : TaskRow) : StateWrite → TaskRow
  | cancel | reject | expireCanary => { row with state := .cancelled, updatedAt := now }
  | requestCancel => { row with state := .cancelRequested, updatedAt := now }
  | approve => { row with state := .queued, updatedAt := now }
  | expireClaim =>
    { row with
      state := .queued, claimedAt := none, leaseExpires := none, claimToken := none,
      updatedAt := now }
  | claim token leaseExpires =>
    { row with
      state := .claimed, claimedAt := some now, leaseExpires := some leaseExpires,
      claimToken := some token, updatedAt := now }
  | accept =>
    { row with
      state := .accepted, acceptedAt := some now, leaseExpires := none, updatedAt := now }
  | report outcome =>
    { row with
      state := outcome.state.taskState, completedAt := some outcome.completedAt,
      outcome := some outcome, updatedAt := now }

section Simp

variable (w : StateWrite) (now : Instant) (row : TaskRow)

@[simp] theorem set_state : (w.set now row).state = w.newState := by cases w <;> rfl
@[simp] theorem set_taskId : (w.set now row).taskId = row.taskId := by cases w <;> rfl
@[simp] theorem set_runnerId : (w.set now row).runnerId = row.runnerId := by cases w <;> rfl
@[simp] theorem set_taskClass : (w.set now row).taskClass = row.taskClass := by cases w <;> rfl
@[simp] theorem set_envelope : (w.set now row).envelope = row.envelope := by cases w <;> rfl
@[simp] theorem set_idempotencyKey : (w.set now row).idempotencyKey = row.idempotencyKey := by
  cases w <;> rfl

end Simp

end StateWrite

namespace Database

/-- The database after `initialize()` on a new file. -/
def empty : Database := ⟨.empty, [], .empty⟩

/-- `SELECT * FROM tasks WHERE task_id = ?`. -/
def task? (db : Database) (taskId : String) : Option TaskRow := db.tasks.find? taskId

/-- `SELECT * FROM tasks WHERE idempotency_key = ?`. -/
def taskByKey? (db : Database) (key : String) : Option TaskRow :=
  db.tasks.rows.find? fun row => decide (row.idempotencyKey = some key)

/-- The UNIQUE constraint on `idempotency_key`, where NULLs never collide. -/
def keyTaken (db : Database) (row : TaskRow) : Bool :=
  match row.idempotencyKey with
  | none => false
  | some key => (db.taskByKey? key).isSome

/-- `INSERT INTO tasks`, refused by either UNIQUE constraint or when the
priority does not fit the column. -/
def insertTask (db : Database) (row : TaskRow) : Option Database :=
  if db.keyTaken row = true ∨ row.priority < -2 ^ 63 ∨ 2 ^ 63 ≤ row.priority then none
  else (db.tasks.insert? row).map fun tasks => { db with tasks }

/-- `insert_audit`. -/
def audit (db : Database) (record : AuditRecord) : Database :=
  { db with auditLog := db.auditLog ++ [record] }

/-- The audit record of a state write on `row`. -/
def writeRecord (w : StateWrite) (now : Instant) (actor : String) (detail : Option Fields)
    (row : TaskRow) : AuditRecord where
  timestamp := now
  actor     := actor
  action    := w.action
  taskId    := some row.taskId
  runnerId  := some row.runnerId
  oldState  := some row.state
  newState  := some w.newState
  detail    := detail

/-- One UPDATE of a row that was read in the same transaction, and its audit
record. The WHERE clause names the state that was read. -/
def write (db : Database) (w : StateWrite) (now : Instant) (actor : String)
    (detail : Option Fields) (row : TaskRow) : Database :=
  { db with
    tasks := db.tasks.update row.taskId
      (fun r => if r.state = row.state then w.set now r else r)
      (fun r => by split <;> simp)
    auditLog := db.auditLog ++ [writeRecord w now actor detail row] }

/-- The audit records of one task, oldest first. -/
def trail (db : Database) (taskId : String) : List AuditRecord :=
  db.auditLog.filter fun r => decide (r.taskId = some taskId)

theorem task?_eq_some_iff {db : Database} {taskId : String} {row : TaskRow} :
    db.task? taskId = some row ↔ row ∈ db.tasks ∧ row.taskId = taskId :=
  Table.find?_eq_some_iff

theorem task?_of_mem {db : Database} {row : TaskRow} (h : row ∈ db.tasks) :
    db.task? row.taskId = some row :=
  Table.find?_key h

@[simp] theorem task?_audit (db : Database) (record : AuditRecord) (id : String) :
    (db.audit record).task? id = db.task? id := rfl

/-- A write changes the row it was read from, and no other. -/
theorem task?_write {db : Database} {row : TaskRow} (hrow : row ∈ db.tasks) (w : StateWrite)
    (now : Instant) (actor : String) (detail : Option Fields) (id : String) :
    (db.write w now actor detail row).task? id =
      if id = row.taskId then some (w.set now row) else db.task? id := by
  have hfind := Table.find?_update db.tasks row.taskId
    (fun r => if r.state = row.state then w.set now r else r) (fun r => by split <;> simp) id
  rw [task?, write, hfind]
  split
  · rw [Table.find?_key hrow]
    simp
  · rfl

/-- An accepted insertion adds its row under a free task id. -/
theorem insertTask_eq_some {db db' : Database} {row : TaskRow} (h : db.insertTask row = some db') :
    db.task? row.taskId = none ∧ db'.auditLog = db.auditLog ∧
      ∀ id, db'.task? id = if id = row.taskId then some row else db.task? id := by
  unfold insertTask at h
  split at h
  · cases h
  · obtain ⟨tasks, hins, rfl⟩ := Option.map_eq_some_iff.mp h
    exact ⟨(Table.insert?_eq_some hins).1, rfl, Table.find?_insert? hins⟩

/-- A taken key is the key of a row of the table. -/
theorem keyTaken_iff {db : Database} {row : TaskRow} :
    db.keyTaken row = true ↔
      ∃ key, row.idempotencyKey = some key ∧
        ∃ other ∈ db.tasks, other.idempotencyKey = some key := by
  unfold keyTaken
  cases hkey : row.idempotencyKey with
  | none => simp
  | some key =>
    simp only [taskByKey?, List.find?_isSome, decide_eq_true_eq, Option.some.injEq, exists_eq_left']
    rfl

/-- An insertion of a row with a free id and a priority that fits is refused
for its key alone. -/
theorem keyTaken_of_insertTask_eq_none {db : Database} {row : TaskRow}
    (h : db.insertTask row = none) (hfree : db.task? row.taskId = none)
    (hpriority : -2 ^ 63 ≤ row.priority ∧ row.priority < 2 ^ 63) : db.keyTaken row = true := by
  by_contra hkey
  have hfits : ¬ (db.keyTaken row = true ∨ row.priority < -2 ^ 63 ∨ 2 ^ 63 ≤ row.priority) := by
    rintro (htaken | hlow | hhigh)
    · exact hkey htaken
    · omega
    · omega
  rw [insertTask, if_neg hfits] at h
  have hsome : (db.tasks.insert? row).isSome = true := Table.insert?_isSome.mpr hfree
  rw [Option.map_eq_none_iff.mp h] at hsome
  cases hsome

/-- An accepted insertion found its key free. -/
theorem not_keyTaken_of_insertTask {db db' : Database} {row : TaskRow}
    (h : db.insertTask row = some db') : db.keyTaken row = false := by
  unfold insertTask at h
  split at h
  · cases h
  · next hfit =>
    rw [not_or] at hfit
    exact Bool.eq_false_iff.mpr hfit.1

end Database

end Conductress
