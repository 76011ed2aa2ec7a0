import Mathlib.Data.List.MinMax
import Mathlib.Data.Prod.Lex
import Mathlib.Order.OrderDual
import Mathlib.Data.String.Basic
import Conductress.Control.Admission

/-!
# The control service

The operations of `ControlService` on the database. Each is one transaction:
it answers with the new database, or with an error and no database, which is a
rollback. Handlers call the service synchronously, so operations do not
overlap and each reads the clock once.
-/

namespace Conductress

open Lib

/-- An immutable canary profile: what the scheduler and the envelope builder
read of it. -/
structure CanaryProfile where
  profileId      : String
  profileVersion : Int
  source         : String
  pinnedCommit   : String
  makeArgs       : Json
  workload       : Fields
  utcHour        : ℕ
  freshnessHours : ℕ
  deriving DecidableEq

/-- The service's configuration. `parsesWithTimezone` says of a text whether
`datetime.fromisoformat` reads it and finds a timezone, which depends on the
interpreter's version. -/
structure ControlService where
  registry           : FleetRegistry
  claimLeaseSeconds  : ℕ
  userDirectory      : Option UserDirectory
  provenanceGate     : Option ProvenanceGate
  canaryProfiles     : Table CanaryProfile.profileId
  parsesWithTimezone : String → Bool

/-- Raise unless a check passes. -/
def check (passes : Bool) (code : ErrorCode) (message : String) : Except ControlError Unit :=
  if passes then .ok () else .error ⟨code, message⟩

/-- An exception that is no `ControlError` is answered as an internal error. -/
def orInternal {α : Type} (x : Except PyError α) : Except ControlError α :=
  match x with
  | .ok a => .ok a
  | .error _ => .error .internal

namespace ControlService

/-! ## Submission -/

def evaluateProvenance (svc : ControlService) (github : GitHubLookup) (envelope : TaskEnvelope)
    (submitter : Option User) (ownerBypass : Bool) : Except PyError ProvenanceVerdict :=
  match svc.provenanceGate with
  | none => .ok ⟨true, "provenance gate not configured", none⟩
  | some gate =>
    let gate := match submitter with
      | some user => gate.withExtraRepos (forkRepos user)
      | none => gate
    let allowBypass := ownerBypass && submitter.any User.isOwner
    gate.evaluate github envelope.provenance.get allowBypass

/-- Store the resolved pull request on the envelope. -/
def resolvePullRequest (envelope : TaskEnvelope) (pullRequest : Option PullRequest) : TaskEnvelope :=
  match pullRequest with
  | some pr => { envelope with provenance := envelope.provenance.map fun p => { p with pr := .value pr } }
  | none => envelope

/-- The provenance is all that changes. -/
theorem resolvePullRequest_taskClass (envelope : TaskEnvelope) (pullRequest : Option PullRequest) :
    (resolvePullRequest envelope pullRequest).taskClass = envelope.taskClass := by
  cases pullRequest <;> rfl

theorem resolvePullRequest_task (envelope : TaskEnvelope) (pullRequest : Option PullRequest) :
    (resolvePullRequest envelope pullRequest).task = envelope.task := by
  cases pullRequest <;> rfl

/-- The row a submission stores. -/
def newRow (envelope : TaskEnvelope) (initialState : TaskState) (submitterLogin : Option String)
    (idempotencyKey : Option String) (now : Instant) : TaskRow where
  taskId         := envelope.taskId
  runnerId       := envelope.runnerId
  taskClass      := envelope.taskClass
  priority       := envelope.priority
  state          := initialState
  submittedAt    := envelope.submittedAt
  submittedBy    := envelope.submittedBy
  canaryId       := envelope.canaryId.get
  batchId        := envelope.batchId.get
  submitterLogin := submitterLogin
  envelope       := envelope.canonical
  idempotencyKey := idempotencyKey
  claimedAt      := none
  leaseExpires   := none
  claimToken     := none
  acceptedAt     := none
  completedAt    := none
  outcome        := none
  createdAt      := now
  updatedAt      := now

/-- The audit record of a new row. -/
def insertRecord (action : AuditAction) (now : Instant) (actor : String) (detail : Option Fields)
    (row : TaskRow) : AuditRecord where
  timestamp := now
  actor     := actor
  action    := action
  taskId    := some row.taskId
  runnerId  := some row.runnerId
  oldState  := none
  newState  := some row.state
  detail    := detail

/-- The task a submission repeats, by its idempotency key and then by task id. -/
def existingTask (db : Database) (idempotencyKey : Option String) (taskId : String) :
    Option TaskRow :=
  let byKey := match idempotencyKey with
    | some key => if key = "" then none else db.taskByKey? key
    | none => none
  byKey.or (db.task? taskId)

/-- The transaction of `submit_task`: replay an existing task or insert. -/
def storeTask (envelope : TaskEnvelope) (initialState : TaskState) (reason : Option String)
    (submitterLogin : Option String) (m : Moment) (actor : String) (idempotencyKey : Option String)
    (db : Database) : Except ControlError (Database × TaskRow × Bool) :=
  match existingTask db idempotencyKey envelope.taskId with
  | some existing =>
    if existing.envelope = envelope.canonical then .ok (db, existing, false)
    else .error ⟨.idempotencyConflict,
      "task ID or idempotency key already exists with a different payload"⟩
  | none =>
    let row := newRow envelope initialState submitterLogin idempotencyKey m.now
    match db.insertTask row with
    | none => .error .internal
    | some inserted =>
      let detail := reason.map fun text => [("reason", Json.str text)]
      .ok (inserted.audit (insertRecord .taskSubmit m.now actor detail row), row, true)

def submitTask (svc : ControlService) (m : Moment) (envelope : TaskEnvelope) (actor : String)
    (idempotencyKey identityLogin : Option String) (ownerBypass : Bool) (db : Database) :
    Except ControlError (Database × TaskRow × Bool) := do
  check envelope.schemaValid .schemaInvalid "invalid task envelope"
  check (svc.parsesWithTimezone envelope.submittedAt) .schemaInvalid
    "invalid date-time at submitted_at"
  let _ ← svc.registry.getRunner envelope.runnerId
  let submitter := resolveSubmitter svc.userDirectory envelope identityLogin
  let verdict ← orInternal (svc.evaluateProvenance m.github envelope submitter ownerBypass)
  check verdict.accepted .provenanceRejected verdict.reason
  let envelope := resolvePullRequest envelope verdict.pullRequest
  let (initialState, reason) ←
    orInternal (approvalDecision svc.userDirectory db m.now envelope submitter identityLogin)
  let submitterLogin := match submitter with
    | some user => some user.login
    | none => identityLogin
  storeTask envelope initialState reason submitterLogin m actor idempotencyKey db

/-! ## Cancellation and approval -/

/-- `SQLITE_MAX_VARIABLE_NUMBER`: the parameters a statement may have. -/
def maxVariableNumber : ℕ := 32766

/-- `SELECT * FROM tasks WHERE task_id IN (?,?,..)`, a parameter for each id. -/
def selectTasks (db : Database) (taskIds : List String) : Except ControlError (List TaskRow) :=
  if maxVariableNumber < taskIds.length then .error .internal
  else .ok (db.tasks.rows.filter fun row => decide (row.taskId ∈ taskIds))

/-- `task_id = ? OR batch_id = ?`. -/
def selects (selector : String) (row : TaskRow) : Bool :=
  decide (row.taskId = selector ∨ row.batchId = some selector)

/-- The write a cancellation makes on a row in this state, if any. -/
def cancelWrite : TaskState → Option StateWrite
  | .queued | .pendingApproval => some .cancel
  | .claimed | .accepted => some .requestCancel
  | .cancelled | .cancelRequested | .completed | .failed => none

/-- A non-owner may only cancel their own tasks. -/
def mayCancel (identityLogin : Option String) (isOwner : Bool) (row : TaskRow) : Bool :=
  isOwner || identityLogin.isNone || decide (row.submitterLogin = identityLogin)

/-- One row of `cancel_task`. -/
def cancelRow (now : Instant) (actor : String) (identityLogin : Option String) (isOwner : Bool)
    (db : Database) (row : TaskRow) : Database :=
  if mayCancel identityLogin isOwner row then
    match cancelWrite row.state with
    | some w => db.write w now actor none row
    | none => db
  else db

def cancelTask (now : Instant) (selector : String) (actor : String) (identityLogin : Option String)
    (isOwner : Bool) (db : Database) : Except ControlError (Database × List TaskRow) :=
  let rows := db.tasks.rows.filter (selects selector)
  if rows.isEmpty then .error ⟨.taskNotFound, "unknown task or batch: " ++ selector⟩
  else
    let db' := rows.foldl (cancelRow now actor identityLogin isOwner) db
    (selectTasks db' (rows.map TaskRow.taskId)).map fun updated => (db', updated)

/-- `_resolve_approval`: `w` is the approve or the reject write. -/
def resolveApproval (w : StateWrite) (now : Instant) (selector : String) (actor : String)
    (db : Database) : Except ControlError (Database × List TaskRow) :=
  let rows := db.tasks.rows.filter fun row =>
    selects selector row && decide (row.state = .pendingApproval)
  if rows.isEmpty then
    .error ⟨.pendingNotFound, "no pending-approval task or batch: " ++ selector⟩
  else
    let db' := rows.foldl (fun db row => db.write w now actor none row) db
    (selectTasks db' (rows.map TaskRow.taskId)).map fun updated => (db', updated)

def approveTasks (now : Instant) (selector actor : String) (db : Database) :
    Except ControlError (Database × List TaskRow) :=
  resolveApproval .approve now selector actor db

def rejectTasks (now : Instant) (selector actor : String) (db : Database) :
    Except ControlError (Database × List TaskRow) :=
  resolveApproval .reject now selector actor db

/-! ## Claims -/

/-- `state='claimed' AND lease_expires <= ?`, where a NULL lease never passes. -/
def isStale (now : Instant) (row : TaskRow) : Bool :=
  decide (row.state = .claimed) && row.leaseExpires.any fun lease => textLe lease now

/-- `_expire_stale_claims_in_transaction`. -/
def expireStaleClaims (now : Instant) (actor : String) (db : Database) : Database :=
  (db.tasks.rows.filter (isStale now)).foldl
    (fun db row => db.write .expireClaim now actor none row) db

/-- `CASE task_class WHEN 'manual' THEN 3 WHEN 'canary' THEN 2 ELSE 1 END`. -/
def classRank : TaskClass → ℕ
  | .manual => 3
  | .canary => 2
  | .sweep => 1

/-- Priorities compare as integers do; named so that the queue's order is
computable whatever else is imported. -/
local instance priorityOrder : Preorder ℤ := Int.instLinearOrder.toPreorder

/-- The ORDER BY of the queue: class and priority descending, then submission
time and task id. -/
def queueKey (row : TaskRow) : ℕᵒᵈ ×ₗ ℤᵒᵈ ×ₗ String ×ₗ String :=
  toLex (.toDual (classRank row.taskClass),
    toLex (.toDual row.priority, toLex (row.submittedAt, row.taskId)))

/-- The rows of a runner in a state. -/
def rowsOf (db : Database) (runnerId : String) (state : TaskState) : List TaskRow :=
  db.tasks.rows.filter fun row => decide (row.runnerId = runnerId ∧ row.state = state)

/-- The queued task a claim hands out next. -/
def nextQueued (db : Database) (runnerId : String) : Option TaskRow :=
  (rowsOf db runnerId .queued).argmin queueKey

/-- The claimed row a repeated claim returns. -/
def existingClaim (db : Database) (runnerId : String) : Option TaskRow :=
  (rowsOf db runnerId .claimed).argmin fun row => (row.claimedAt.map utcText).getD ""

/-- The lease a claim made now gets. -/
def leaseUntil (svc : ControlService) (now : Instant) : Instant :=
  now + svc.claimLeaseSeconds * microsPerSecond

/-- Answers the claimed row; its token and lease are the claim's. -/
def claimTask (svc : ControlService) (m : Moment) (runnerId : String) (actor : String)
    (db : Database) : Except ControlError (Database × Option TaskRow) := do
  let _ ← svc.registry.getRunner runnerId
  let db := expireStaleClaims m.now "system" db
  match (rowsOf db runnerId .accepted).head? with
  | some accepted =>
    .error ⟨.runnerHasAcceptedTask, "runner already owns accepted task " ++ accepted.taskId⟩
  | none =>
    match existingClaim db runnerId with
    | some existing => .ok (db, some existing)
    | none =>
      match nextQueued db runnerId with
      | none => .ok (db, none)
      | some row =>
        let db := db.write (.claim m.token (svc.leaseUntil m.now)) m.now actor none row
        .ok (db, db.task? row.taskId)

/-! ## Acceptance and outcome -/

/-- `_verify_task_runner`. -/
def verifyTaskRunner (row : TaskRow) (runnerId : String) : Except ControlError Unit :=
  check (decide (row.runnerId = runnerId)) .wrongRunner "task is assigned to a different runner"

/-- The row of a task that must exist. -/
def requireTask (db : Database) (taskId : String) : Except ControlError TaskRow :=
  match db.task? taskId with
  | some row => .ok row
  | none => .error ⟨.taskNotFound, "unknown task: " ++ taskId⟩

/-- A token matches a row's column. -/
def checkToken (row : TaskRow) (claimToken : ClaimToken) : Except ControlError Unit :=
  check (decide (row.claimToken = some claimToken)) .claimTokenInvalid "claim token does not match"

def acceptTask (now : Instant) (runnerId taskId : String) (claimToken : ClaimToken) (actor : String)
    (db : Database) : Except ControlError (Database × TaskRow × Bool) := do
  let row ← requireTask db taskId
  verifyTaskRunner row runnerId
  if row.state = .accepted ∨ row.state = .completed ∨ row.state = .failed then
    checkToken row claimToken
    return (db, row, false)
  check (decide (row.state = .claimed)) .taskNotClaimed "task is not currently claimed"
  checkToken row claimToken
  check (row.leaseExpires.any fun lease => decide (now < lease)) .claimExpired
    "claim lease expired before acceptance"
  return (db.write .accept now actor none row, StateWrite.accept.set now row, true)

def recordOutcome (svc : ControlService) (now : Instant) (runnerId taskId : String)
    (outcome : TaskOutcome) (actor : String) (db : Database) : Except ControlError (Database × TaskRow × Bool) := do
  check outcome.schemaValid .schemaInvalid "invalid task outcome"
  check (svc.parsesWithTimezone outcome.completedAt) .schemaInvalid
    "invalid date-time at completed_at"
  check (decide (outcome.taskId = taskId ∧ outcome.runnerId = runnerId)) .outcomeIdentityMismatch
    "outcome task_id/runner_id does not match request"
  let row ← requireTask db taskId
  verifyTaskRunner row runnerId
  if row.state = .completed ∨ row.state = .failed then
    check (decide (row.state = outcome.state.taskState ∧ row.outcome = some outcome.canonical))
      .outcomeConflict "task already has a different terminal outcome"
    return (db, row, false)
  check (decide (row.state = .accepted ∨ row.state = .cancelRequested)) .taskNotAccepted
    "task must be accepted before reporting outcome"
  let w := StateWrite.report outcome.canonical
  return (db.write w now actor none row, w.set now row, true)

end ControlService

end Conductress
