import Mathlib.Data.List.MinMax
import Mathlib.Data.String.Basic
import Conductress.Runner.TrimTask
import Conductress.Runner.World

/-!
# The task queue and the mailbox

`TaskQueue`, `FleetClient` and `RunnerMailbox` as programs over the commands of
the world. The statistics the journal also keeps are left out: nothing reads
them back.
-/

namespace Conductress

open Lib

/-- A program of the runner. -/
abbrev Act (α : Type) := Prog Command PyError α

/-! ## The queue directory -/

namespace TaskQueue

/-- `remove_task`, and `unlink` of a file that exists. -/
def removeTask (taskId : String) : Act Unit := .run (.unlinkTask taskId)

/-- `existing != persisted`, up to the order of keys. -/
def sameDocument (content : Option Json) (document : Fields) : Bool :=
  match content with
  | some existing => decide (existing.canonical = (Json.obj document).canonical)
  | none => false

/-- The document an import writes: the body and the sidecar. -/
def persisted (document : Fields) (taskId : String) : Fields :=
  Json.setField document envelopeTaskIdKey (.str taskId)

/-- `import_task`. -/
def importTask (classes : TaskClasses) (document : Fields) (envelopeTaskId : String) : Act Unit :=
  if (Json.lookup document envelopeTaskIdKey).isSome then
    .raise (.valueError ("reserved task field is not allowed: " ++ envelopeTaskIdKey))
  else do
    let task ← .lift (classes.fromDict (.obj document) (.str envelopeTaskId))
    match ← .run (.readTask task.taskId) with
    | some existing =>
      if sameDocument existing (persisted document task.taskId) then .pure ()
      else .raise (.valueError
        ("task file already exists with different content: " ++ task.taskId))
    | none => .run (.installTask task.taskId (persisted document task.taskId))

/-- `sorted(queue_dir.glob("task_*.json"))[0]`. -/
def firstFile (taskIds : List String) : Option String := taskIds.argmin QueueFile.name

/-- `get_next_task`: a file that cannot be loaded is set aside. -/
def getNextTask (classes : TaskClasses) : Act (Option Task) := do
  match firstFile (← .run .taskIds) with
  | none => .pure none
  | some taskId =>
    match ← .run (.readTask taskId) with
    | none => do
      .run (.unlinkTask taskId)
      .pure none
    | some content =>
      match classes.fromFile content with
      | .ok task => .pure (some task)
      | .error (.valueError _) => do
        .run (.parkTask taskId)
        .pure none
      | .error e => .raise e

/-- `data.get("timestamp") == task.timestamp.isoformat()`. -/
def matchesTimestamp (task : Task) (content : Option Json) : Bool :=
  match content with
  | some (.obj fields) => decide (Json.lookup fields "timestamp" = some (.str task.timestamp.isoText))
  | _ => false

/-- The search of `finish_task` for a file with the task's timestamp. -/
def removeByTimestamp (task : Task) : List String → Act Unit
  | [] => .pure ()
  | taskId :: rest => do
    match ← .run (.readTask taskId) with
    | some content =>
      if matchesTimestamp task content then removeTask taskId else removeByTimestamp task rest
    | none => removeByTimestamp task rest

/-- `finish_task`. -/
def finishTask (task : Task) : Act Unit := do
  if ← .run (.hasTask task.taskId) then removeTask task.taskId
  else removeByTimestamp task (← .run .taskIds)

end TaskQueue

/-! ## The client -/

namespace FleetClient

/-- `http.client` refuses a path with a blank or a control character. -/
def isSafePath (taskId : String) : Bool :=
  taskId.toList.all fun c => decide (0x20 < c.toNat) && decide (c.toNat ≠ 0x7f)

/-- The task id a request has in its path. -/
def pathId : RunnerRequest → Option String
  | .claim => none
  | .accept taskId _ | .report taskId _ => some taskId

/-- The attempts of `_request`. -/
def attempts (req : RunnerRequest) : ℕ → Act (Except ClientError Reply)
  | 0 => .raise (.runtimeError "retry loop exhausted")
  | n + 1 => do
    match ← .run (.request req) with
    | .ok (.ok reply) => .pure (.ok reply)
    | .ok (.error e) => if e.isRetried && decide (0 < n) then attempts req n else .pure (.error e)
    | .error e => .raise e

/-- One request: all three carry an idempotency key, so they are retried. -/
def request (req : RunnerRequest) : Act (Except ClientError Reply) :=
  if (pathId req).all isSafePath then attempts req 3
  else .raise (.httpException "URL can't contain control characters")

end FleetClient

/-! ## The mailbox -/

namespace RunnerMailbox

variable (d : Deployment)

/-- `DeliveryJournal.update_active(stage=..)`. -/
def updateStage (stage : Stage) : Act Unit := do
  match ← .run .active with
  | some a => .run (.setActive { a with stage })
  | none => .raise (.valueError "delivery journal has no active task")

/-- `owns`. -/
def owns (taskId : String) : Act Bool := do
  return (← .run .active).any fun a => decide (a.taskId = taskId)

/-- `blocks_execution`. -/
def blocksExecution : Act Bool := do
  return (← .run .active).any fun a => decide (a.stage = .claimed ∨ a.stage = .imported)

/-- `_require_active`. -/
def requireActive (taskId : String) : Act Unit := do
  if ← owns taskId then .pure ()
  else .raise (.valueError ("task is not the active remote delivery: " ++ taskId))

/-! ### Staging an outcome -/

/-- `_RESULT_OMIT_KEYS`. -/
def resultOmitKeys : List String := ["raw_stacks", "cpu_stacks_main", "cpu_stacks_io"]

def omitKeys (fields : Fields) : Fields := fields.filter fun f => !resultOmitKeys.contains f.1

/-- `_strip_raw_stacks`. -/
def stripRawStacks (data : Fields) : Fields :=
  let cleaned := omitKeys data
  match Json.lookup cleaned "results" with
  | some (.arr results) => Json.setField cleaned "results" (.arr (results.map fun entry =>
      match entry with
      | .obj fields => .obj (omitKeys fields)
      | other => other))
  | _ => cleaned

/-- `_summarize_result`. -/
def summarizeResult (result : Fields) : Fields :=
  let summary := omitKeys result
  match Json.lookup summary "data" with
  | some (.obj data) => Json.setField summary "data" (.obj (stripRawStacks data))
  | _ => summary

/-- The failure report of a task. -/
def failedOutcome (taskId completedAt error : String) : TaskOutcome where
  taskId      := taskId
  runnerId    := d.runnerId
  state       := .failed
  completedAt := completedAt
  result      := .null
  error       := .value error

/-- What `trim_outcome` lets through of `_delete_path`. -/
def deletionError : OutcomeSize.DeleteError → PyError
  | .keyError (.key name) => .keyError name
  | .keyError (.index i) => .keyError (toString i)
  | .indexError message => .indexError message
  | .typeError message => .typeError message
  | .attributeError message => .attributeError message

/-- Why an outcome of a size is trimmed before it is sent. -/
def preflightReason (size : ℕ) : String :=
  "preflight: " ++ toString size ++ " bytes over max_outcome_bytes " ++ toString d.maxOutcomeBytes

/-- The trimming of an outcome that is over the limit. -/
def preflightTrim (outcome : TaskOutcome) :
    Except OutcomeSize.DeleteError (TaskOutcome × List String) :=
  OutcomeSize.trimTask d.wireBytes outcome d.maxOutcomeBytes
    (preflightReason d (d.wireBytes outcome.toJson)) d.outputPath

/-- `_preflight_size`. -/
def preflightSize (outcome : TaskOutcome) : Act TaskOutcome :=
  if d.wireBytes outcome.toJson ≤ d.maxOutcomeBytes then .pure outcome
  else
    match preflightTrim d outcome with
    | .error e => .raise (deletionError e)
    | .ok (trimmed, dropped) =>
      if dropped.isEmpty then .pure outcome
      else do
        .run (.recordDowngrade outcome.taskId .trimmed)
        .pure trimmed

/-- The result of a task: the one at hand, the one in the log, or none. -/
def resultOf (taskId : String) : Option Fields → Act Fields
  | some result => .pure result
  | none => do
    return (← .run (.findResult taskId)).getD [("task_id", .str taskId)]

/-- The success report of a task, in full. -/
def completedOutcome (taskId completedAt : String) (result : Fields) : TaskOutcome where
  taskId      := taskId
  runnerId    := d.runnerId
  state       := .completed
  completedAt := completedAt
  result      := .value (summarizeResult result)
  error       := .null

/-- `stage_success`. -/
def stageSuccess (taskId : String) (result : Option Fields) : Act Unit := do
  requireActive taskId
  let result ← resultOf taskId result
  let outcome ← preflightSize d (completedOutcome d taskId (← .run .utcText) result)
  updateStage (.outcomePending outcome [])

/-- `stage_failure`, which leaves the rejections of the entry as they are. -/
def stageFailure (taskId error : String) : Act Unit := do
  requireActive taskId
  let completedAt ← .run .utcText
  match ← .run .active with
  | some a =>
    .run (.setActive { a with
      stage := .outcomePending (failedOutcome d taskId completedAt error) a.stage.rejections })
  | none => .raise (.valueError "delivery journal has no active task")

/-! ### Delivering an outcome -/

/-- `OUTCOME_REJECTED_PREFIX`. -/
def outcomeRejectedPrefix : String := "outcome_rejected:"

/-- `f"{exc.code} (HTTP {exc.status}), {size} bytes"`. -/
def rejectionText (e : ClientError) (size : ℕ) : String :=
  e.code.text ++ " (HTTP " ++ (match e.status with
    | some status => toString status
    | none => "None") ++ "), " ++ toString size ++ " bytes"

/-- The failure report is itself the last step of the ladder. -/
def isLastStep (outcome : TaskOutcome) : Bool :=
  decide (outcome.state = .failed) &&
    outcomeRejectedPrefix.toList.isPrefixOf (outcome.error.get.getD "").toList

/-- The error of the report an outcome is replaced by. -/
def rejectedMessage (outcome : TaskOutcome) (rejection : String) : String :=
  match outcome.state with
  | .completed => outcomeRejectedPrefix ++ " " ++ rejection ++ "; full result kept at " ++ d.outputPath
  | .failed =>
    outcomeRejectedPrefix ++ " " ++ rejection ++ "; original error: " ++
      String.ofList ((outcome.error.get.getD "").toList.take 200) ++ "; record kept at " ++
      d.failedLogPath

/-- The outcome with every bulk value dropped. -/
def reducedOutcome (outcome : TaskOutcome) (rejection : String) :
    Except OutcomeSize.DeleteError (TaskOutcome × List String) :=
  OutcomeSize.trimTask d.wireBytes outcome 0 ("rejected: " ++ rejection) d.outputPath

/-- The steps below the reduced outcome: the report of the rejection, and then
nothing. -/
def reportRejection (taskId : String) (outcome : TaskOutcome) (rejection : String)
    (rejections : List Rejection) : Act Unit := do
  if isLastStep outcome then
    .run (.recordDowngrade taskId .dropped)
    .run (.clearActive .dropped)
  else
    let completedAt ← .run .utcText
    .run (.recordDowngrade taskId .failed)
    updateStage (.outcomePending
      (failedOutcome d taskId completedAt (rejectedMessage d outcome rejection)) rejections)

/-- `_downgrade_rejected_outcome`: the next step of the ladder. -/
def downgradeRejectedOutcome (taskId : String) (outcome : TaskOutcome)
    (earlier : List Rejection) (e : ClientError) : Act Unit :=
  let size := d.wireBytes outcome.toJson
  let rejection := rejectionText e size
  let rejections := earlier ++ [⟨e.code.text, e.status, size⟩]
  if outcome.state = .completed ∧ rejections.length = 1 then
    match reducedOutcome d outcome rejection with
    | .error error => .raise (deletionError error)
    | .ok (reduced, dropped) =>
      if dropped ≠ [] then do
        .run (.recordDowngrade taskId .reduced)
        updateStage (.outcomePending reduced rejections)
      else reportRejection d taskId outcome rejection rejections
  else reportRejection d taskId outcome rejection rejections

/-- The loop of `flush_pending_outcome`. The ladder has three steps down, so
the fourth turn finds nothing pending: see `flushPendingOutcome_safe`. -/
def flushLoop : ℕ → Act Bool
  | 0 => .raise (.runtimeError "the ladder has no further step")
  | n + 1 => do
    match ← .run .active with
    | some ⟨taskId, _, _, .outcomePending outcome rejections⟩ =>
      match ← FleetClient.request (.report taskId outcome) with
      | .ok _ => do
        .run (.clearActive .delivered)
        .pure true
      | .error e =>
        if OutcomeSize.isPermanentRejection e.status then do
          downgradeRejectedOutcome d taskId outcome rejections e
          flushLoop n
        else .pure false
    | _ => .pure true

/-- `flush_pending_outcome`. -/
def flushPendingOutcome : Act Bool := flushLoop d 4

/-- `_fail_unloadable_task`. -/
def failUnloadableTask (taskId error : String) : Act Unit := do
  stageFailure d taskId error
  let _ ← flushPendingOutcome d

/-! ### Reconciliation -/

/-- `claimed` to `imported`. -/
def importClaimed (a : Active) : Act Unit := do
  if ← .run (.hasTask a.taskId) then .pure ()
  else TaskQueue.importTask d.classes a.envelope.task a.taskId
  updateStage .imported

/-- Ask the service to accept an imported task; a claim it refuses for good is
given up. -/
def requestAcceptance (a : Active) (task : Task) : Act (Option Task) := do
  if ← .run (.hasTask a.taskId) then
    match ← FleetClient.request (.accept a.taskId a.claimToken) with
    | .error e =>
      if e.givesUp then do
        TaskQueue.removeTask a.taskId
        .run (.clearActive (.refused e.code))
        .pure none
      else .pure none
    | .ok _ => do
      updateStage .accepted
      requireFile task
  else .raise (.runtimeError ("claimed task is missing from local queue: " ++ a.taskId))
where
  /-- An accepted task is in the queue until it has an outcome. -/
  requireFile (task : Task) : Act (Option Task) := do
    if ← .run (.hasTask a.taskId) then .pure (some task)
    else .raise (.runtimeError
      ("accepted task is missing from local queue and results: " ++ a.taskId))

/-- A delivery with no record of its execution goes on where it stopped. -/
def resumeDelivery (a : Active) (task : Task) : Act (Option Task) :=
  match a.stage with
  | .claimed => do
    importClaimed d a
    requestAcceptance a task
  | .imported => requestAcceptance a task
  | _ => requestAcceptance.requireFile a task

/-- An executed task has its outcome staged and delivered. -/
def deliverRecorded (taskId : String) (stage : Act Unit) : Act (Option Task) := do
  stage
  TaskQueue.removeTask taskId
  let _ ← flushPendingOutcome d
  .pure none

/-- The part of `reconcile` for a loaded task. -/
def reconcileLoaded (a : Active) (task : Task) : Act (Option Task) := do
  if task.taskId = a.taskId then
    match ← .run (.findResult a.taskId) with
    | some result => deliverRecorded d a.taskId (stageSuccess d a.taskId (some result))
    | none =>
      match ← .run (.findFailure a.taskId) with
      | some error => deliverRecorded d a.taskId (stageFailure d a.taskId error)
      | none => resumeDelivery d a task
  else .raise (.valueError ("journal task ID mismatch: " ++ a.taskId ++ " != " ++ task.taskId))

/-- `reconcile`. -/
def reconcile : Act (Option Task) := do
  match ← .run .active with
  | none => .pure none
  | some a =>
    if a.stage.isPending then
      let _ ← flushPendingOutcome d
      .pure none
    else
      match d.classes.fromDict (.obj a.envelope.task) (.str a.taskId) with
      | .error (.valueError message) | .error (.typeError message) => do
        failUnloadableTask d a.taskId message
        TaskQueue.removeTask a.taskId
        .pure none
      | .error e => .raise e
      | .ok task => reconcileLoaded d a task

/-- The part of `poll` that asks for a task. -/
def claimNext : Act (Option Task) := do
  match ← FleetClient.request .claim with
  | .error _ => .pure none
  | .ok .noTask => .pure none
  | .ok (.task _) => .raise (.keyError "claim")
  | .ok (.claimed row) =>
    if row.envelope.taskId = row.taskId ∧ row.envelope.runnerId = d.runnerId then
      .run (.setActive ⟨row.taskId, row.claimToken, row.envelope, .claimed⟩)
      reconcile d
    else .raise (.valueError "claimed envelope identity does not match runner/task")

/-- `poll`. -/
def poll : Act (Option Task) := do
  match ← reconcile d with
  | some task => .pure (some task)
  | none =>
    if (← .run .active).isSome then .pure none
    else if !d.live || !(← .run .taskIds).isEmpty then .pure none
    else claimNext d

end RunnerMailbox

/-! ## The runner -/

namespace TaskRunner

variable (d : Deployment)

/-- Poll, and go on unless that found a task or a claim that must be accepted
first. -/
def pollThen (rest : Act (Option Task)) : Act (Option Task) := do
  match ← RunnerMailbox.poll d with
  | some task => .pure (some task)
  | none => if ← RunnerMailbox.blocksExecution then .pure none else rest

/-- A local task before a new remote one. What `_schedule_next` submits is the
outside's doing: subscribers write local task files. -/
def localFirst : Act (Option Task) := do
  match ← TaskQueue.getNextTask d.classes with
  | some task => .pure (some task)
  | none => pollThen d (TaskQueue.getNextTask d.classes)

/-- `_choose_next`. -/
def chooseNext : Act (Option Task) := do
  if (← .run .active).isSome then pollThen d (localFirst d) else localFirst d

/-- The idle loop, once around. -/
def idle : Act (Option Task) := do
  if (← .run .active).isSome then chooseNext d
  else
    match ← TaskQueue.getNextTask d.classes with
    | some task => .pure (some task)
    | none => if ← .run .pollDue then chooseNext d else .pure none

/-- What follows the execution of a task: its outcome is staged when it is the
active delivery, its file removed, the outcome delivered. -/
def finish (task : Task) (stage : Act Unit) : Act (Option Task) := do
  if ← RunnerMailbox.owns task.taskId then stage else .pure ()
  TaskQueue.finishTask task
  if ← RunnerMailbox.owns task.taskId then
    let _ ← RunnerMailbox.flushPendingOutcome d
    chooseNext d
  else chooseNext d

/-- One task from its start to the choice of the next. -/
def runTask (task : Task) : Act (Option Task) := do
  .run (.starting task)
  match ← .run (.execute task) with
  | some error => do
    .run (.recordFailure task error)
    finish d task (RunnerMailbox.stageFailure d task.taskId error)
  | none => finish d task (RunnerMailbox.stageSuccess d task.taskId none)

/-- `run`: the process chooses a task when it starts, and goes on with the
task it has, or idles. -/
def machine : Machine Command PyError (Option Task) where
  boot := chooseNext d
  body := fun
    | some task => runTask d task
    | none => idle d

/-- A state of the process: the world, and the rest of the turn. -/
abbrev State := World × Act (Option Task)

/-- Anything that can happen next. -/
abbrev Happening := Occurrence Choice Outside

def step (s : State) (e : Happening) : State := (machine d).step (World.effects d) s e

/-- A step of the process and its surroundings. -/
def Step (s : State) (e : Happening) (s' : State) : Prop := s' = step d s e

/-- The process starts. -/
def booted (w : World) : State := (w, chooseNext d)

end TaskRunner

end Conductress
