import Conductress.Lib.Prog
import Conductress.Control.Lifecycle
import Conductress.Runner.Task
import Conductress.Runner.OutcomeSize

/-!
# A runner and its control service

The state the runner's programs work on: its delivery journal, queue directory
and logs, the control database on the other side of the network, and the
requests the runner has put on the wire, any of which may arrive once more.
Every command is one durable write, one read, or one attempt at a request;
whatever happens outside the runner happens between two commands.
-/

namespace Conductress

open Lib

/-! ## The delivery journal -/

/-- An outcome the control service refused for good. -/
structure Rejection where
  code   : String
  status : Option ℕ
  bytes  : ℕ
  deriving DecidableEq

/-- The stage of the active delivery; an undelivered outcome comes with the
rejections it has met. -/
inductive Stage where
  | claimed
  | imported
  | accepted
  | outcomePending (outcome : TaskOutcome) (rejections : List Rejection)
  deriving DecidableEq

namespace Stage

/-- `active.get("rejections") or []`. -/
def rejections : Stage → List Rejection
  | outcomePending _ rejections => rejections
  | _ => []

def isPending : Stage → Bool
  | outcomePending .. => true
  | _ => false

end Stage

/-- The journal's active entry. -/
structure Active where
  taskId     : String
  claimToken : Option ClaimToken
  envelope   : TaskEnvelope
  stage      : Stage
  deriving DecidableEq

/-! ## Requests -/

/-- The requests of a runner that touch a task. -/
inductive RunnerRequest where
  | claim
  | accept (taskId : String) (claimToken : Option ClaimToken)
  | report (taskId : String) (outcome : TaskOutcome)
  deriving DecidableEq

/-- A successful answer. -/
inductive Reply where
  | noTask
  | claimed (task : TaskRow)
  | task (task : TaskRow)

/-- The code of a `FleetClientError`: the service's own, that of a proxy, that of
an answer which is no JSON, or none at all. -/
inductive ClientCode where
  | control (code : ErrorCode)
  | http (status : ℕ)
  | responseInvalid
  | unreachable
  deriving DecidableEq

def ClientCode.text : ClientCode → String
  | control code => code.text
  | http status => "HTTP_" ++ toString status
  | responseInvalid => "RESPONSE_INVALID"
  | unreachable => "CONTROL_UNREACHABLE"

structure ClientError where
  code   : ClientCode
  status : Option ℕ
  deriving DecidableEq

namespace ClientError

def ofControl (e : ControlError) : ClientError := ⟨.control e.code, some e.code.status⟩

/-- Whether the client tries once more. -/
def isRetried (e : ClientError) : Bool :=
  match e.status with
  | some status => status = 502 || status = 503 || status = 504
  | none => decide (e.code = .unreachable)

/-- The codes on which reconciliation gives a claim up. -/
def givesUp (e : ClientError) : Bool :=
  decide (e.code = .control .claimExpired ∨ e.code = .control .claimTokenInvalid ∨
    e.code = .control .taskNotClaimed)

end ClientError

/-- What becomes of one attempt at a request. -/
inductive Network where
  | passed
  | lost (delivered : Bool)
  | proxy (delivered : Bool) (status : ℕ)
  /-- The answer is no JSON. -/
  | garbled (delivered : Bool)
  /-- An exception that the client does not catch: the connection is closed or reset
  while the answer is read, or the answer is JSON and no object. -/
  | cut (delivered : Bool) (error : PyError)
  deriving DecidableEq

/-- The attempt ends in the client. -/
def Network.isCaught : Network → Bool
  | cut .. => false
  | passed | lost _ | proxy .. | garbled _ => true

/-! ## Files -/

/-- A file `task_{id}.json` of the queue directory; `none` is no JSON. -/
structure QueueFile where
  id      : String
  content : Option Json
  deriving DecidableEq

namespace QueueFile

def name (id : String) : String := "task_" ++ id ++ ".json"

/-- The file was written by an import. -/
def fromClaim (f : QueueFile) : Bool :=
  match f.content with
  | some (.obj fields) => (Json.lookup fields envelopeTaskIdKey).isSome
  | _ => false

end QueueFile

/-- A line of a log, with the bytes it takes up. -/
structure LogLine (α : Type) where
  size   : ℕ
  taskId : String
  record : α

/-- `FIND_RECORD_MAX_BYTES`. -/
def findRecordMaxBytes : ℕ := 64 * 1024 * 1024

/-- `find_record_by_task_id` on a log, newest line first: the newest line of
the task among those that lie in the window whole. -/
def findRecord {α : Type} (taskId : String) : ℕ → List (LogLine α) → Option α
  | _, [] => none
  | window, line :: lines =>
    if window < line.size then none
    else if line.taskId = taskId then some line.record
    else findRecord taskId (window - line.size) lines

/-! ## The world -/

/-- Why the journal was cleared. -/
inductive Clearing where
  | delivered
  | refused (code : ClientCode)
  | dropped
  deriving DecidableEq

inductive Downgrade where
  | trimmed | reduced | failed | dropped
  deriving DecidableEq

/-- What is remembered of a run. -/
inductive Event where
  /-- The service answered the runner's accept request with success. -/
  | granted (taskId : String)
  | staged (taskId : String) (stage : Stage)
  /-- With the row the service held, and when. -/
  | cleared (active : Active) (why : Clearing) (row : Option TaskRow) (now : Instant)
  | downgraded (taskId : String) (stage : Downgrade)
  /-- The runner announced that it starts a task. -/
  | starting (task : Task)
  /-- A result or failure record of a task was appended. -/
  | recorded (task : Task)
  deriving DecidableEq

/-- A runner's deployment and the service it talks to. -/
structure Deployment where
  runnerId        : String
  actor           : String
  service         : ControlService
  classes         : TaskClasses
  live            : Bool
  maxOutcomeBytes : ℕ
  /-- `RunnerMailbox` refuses a smaller limit. -/
  minOutcomeBytes : 1024 ≤ maxOutcomeBytes
  maxBodyBytes    : ℕ
  wireBytes       : Json → ℕ
  outputPath      : String
  failedLogPath   : String

/-- Logs and history are newest first. -/
structure World where
  db      : Database
  now     : Instant
  tokens  : ClaimToken
  sent    : List RunnerRequest
  journal : Option Active
  queue   : Table QueueFile.id
  output  : List (LogLine Fields)
  failed  : List (LogLine String)
  history : List Event

namespace World

/-- An idle runner with an empty disk. -/
def start (db : Database) (now : Instant) (tokens : ClaimToken) : World :=
  ⟨db, now, tokens, [], none, .empty, [], [], []⟩

def has (w : World) (taskId : String) : Bool := (w.queue.find? taskId).isSome

def log (w : World) (e : Event) : World := { w with history := e :: w.history }

def findResult (w : World) (taskId : String) : Option Fields :=
  findRecord taskId findRecordMaxBytes w.output

def findFailure (w : World) (taskId : String) : Option String :=
  findRecord taskId findRecordMaxBytes w.failed

/-- The next operation's moment; `github` answers its lookups. -/
def moment (w : World) (github : GitHubLookup) : Moment := ⟨w.now, w.tokens, github⟩

/-- The service performs an operation. Every operation draws a fresh token. -/
def perform (d : Deployment) (w : World) (op : Operation) (github : GitHubLookup) : World :=
  { w with db := Conductress.perform d.service (w.moment github) op w.db, tokens := w.tokens + 1 }

end World

/-! ## The service's side of a request -/

namespace Deployment

/-- The operation behind a request, none when the handler refuses it first. -/
def operation (d : Deployment) : RunnerRequest → Except ControlError Operation
  | .claim => .ok (.claim d.runnerId d.actor)
  | .accept taskId (some token) => .ok (.accept d.runnerId taskId token d.actor)
  | .accept _ none => .error ⟨.claimTokenRequired, "claim_token is required"⟩
  | .report taskId outcome =>
    if d.maxBodyBytes < d.wireBytes outcome.toJson then
      .error ⟨.bodyTooLarge, "request body exceeds configured limit"⟩
    else .ok (.recordOutcome d.runnerId taskId outcome d.actor)

/-- The lookups no request of a runner makes. -/
def noGitHub : GitHubLookup := ⟨fun _ _ => .ok false, fun _ => .ok none⟩

/-- The database after a request was served. -/
def serve (d : Deployment) (w : World) (req : RunnerRequest) : World :=
  match d.operation req with
  | .ok op => w.perform d op noGitHub
  | .error _ => w

/-- The answer to a request. -/
def answer (d : Deployment) (w : World) (req : RunnerRequest) : Except ControlError Reply :=
  match d.operation req with
  | .error e => .error e
  | .ok (.claim runnerId actor) =>
    match d.service.claimTask (w.moment noGitHub) runnerId actor w.db with
    | .ok (_, some row) => .ok (.claimed row)
    | .ok (_, none) => .ok .noTask
    | .error e => .error e
  | .ok (.accept runnerId taskId token actor) =>
    (ControlService.acceptTask w.now runnerId taskId token actor w.db).map fun r => .task r.2.1
  | .ok (.recordOutcome runnerId taskId outcome actor) =>
    (d.service.recordOutcome w.now runnerId taskId outcome actor w.db).map fun r => .task r.2.1
  | .ok _ => .error .internal

end Deployment

/-! ## Commands -/

/-- One attempt at a request, one read, or one durable write. -/
inductive Command : Type → Type where
  | active : Command (Option Active)
  | setActive (a : Active) : Command Unit
  | clearActive (why : Clearing) : Command Unit
  | recordDowngrade (taskId : String) (stage : Downgrade) : Command Unit
  | hasTask (taskId : String) : Command Bool
  | taskIds : Command (List String)
  | readTask (taskId : String) : Command (Option (Option Json))
  | installTask (taskId : String) (document : Fields) : Command Unit
  | unlinkTask (taskId : String) : Command Unit
  | parkTask (taskId : String) : Command Unit
  | findResult (taskId : String) : Command (Option Fields)
  | findFailure (taskId : String) : Command (Option String)
  | request (req : RunnerRequest) : Command (Except PyError (Except ClientError Reply))
  | utcText : Command String
  | starting (task : Task) : Command Unit
  | execute (task : Task) : Command (Option String)
  | recordFailure (task : Task) (error : String) : Command Unit
  | pollDue : Command Bool

/-- What the state does not decide: the network, what an execution appends and
how it ends, the size of a failure record, the idle timer. -/
structure Choice where
  network : Network
  results : List (ℕ × Fields)
  error   : Option String
  size    : ℕ
  due     : Bool

/-- What happens outside the runner. -/
inductive Outside where
  /-- The service performs someone else's operation. -/
  | operation (op : Operation) (github : GitHubLookup)
  /-- A request of the runner arrives once more. -/
  | redeliver (req : RunnerRequest)
  | pass (micros : ℕ)
  /-- A task file is written by someone other than the runner. -/
  | submitLocal (file : QueueFile)
  | removeLocal (taskId : String)

/-- Claims, acceptances and outcomes of a runner come from that runner only. -/
def Operation.isForeign (runnerId : String) : Operation → Bool
  | claim r _ | accept r _ _ _ | recordOutcome r _ _ _ => decide (r ≠ runnerId)
  | _ => true

namespace World

variable (d : Deployment) (w : World)

/-- One attempt: the request is on the wire from now on. -/
def attempt (req : RunnerRequest) (network : Network) :
    Except PyError (Except ClientError Reply) × World :=
  let w := { w with sent := req :: w.sent }
  let served (delivered : Bool) : World := if delivered then d.serve w req else w
  match network with
  | .passed =>
    match d.answer w req, req with
    | .ok reply, .accept taskId _ => (.ok (.ok reply), (d.serve w req).log (.granted taskId))
    | .ok reply, _ => (.ok (.ok reply), d.serve w req)
    | .error e, _ => (.ok (.error (.ofControl e)), d.serve w req)
  | .lost delivered => (.ok (.error ⟨.unreachable, none⟩), served delivered)
  | .proxy delivered status => (.ok (.error ⟨.http status, some status⟩), served delivered)
  | .garbled delivered => (.ok (.error ⟨.responseInvalid, none⟩), served delivered)
  | .cut delivered error => (.error error, served delivered)

/-- The lines an execution appends, newest first. -/
def resultLines (task : Task) (results : List (ℕ × Fields)) : List (LogLine Fields) :=
  (results.map fun r =>
    ⟨r.1, task.taskId, Json.setField r.2 "task_id" (.str task.taskId)⟩).reverse

/-- What each command answers and leaves. -/
def exec {β : Type} (c : Command β) (x : Choice) (w : World) : β × World :=
  match c with
  | .active => (w.journal, w)
  | .setActive a => ((), { w with journal := some a }.log (.staged a.taskId a.stage))
  | .clearActive why =>
    ((), match w.journal with
      | some a => { w with journal := none }.log (.cleared a why (w.db.task? a.taskId) w.now)
      | none => w)
  | .recordDowngrade taskId stage => ((), w.log (.downgraded taskId stage))
  | .hasTask taskId => (w.has taskId, w)
  | .taskIds => (w.queue.rows.map QueueFile.id, w)
  | .readTask taskId => ((w.queue.find? taskId).map QueueFile.content, w)
  | .installTask taskId document =>
    ((), { w with queue := w.queue.put ⟨taskId, some (.obj document)⟩ })
  | .unlinkTask taskId | .parkTask taskId => ((), { w with queue := w.queue.erase taskId })
  | .findResult taskId => (w.findResult taskId, w)
  | .findFailure taskId => (w.findFailure taskId, w)
  | .request req => w.attempt d req x.network
  | .utcText => (Conductress.utcText w.now, w)
  | .starting task => ((), w.log (.starting task))
  | .execute task =>
    (x.error,
      if x.results.isEmpty then w
      else { w with output := resultLines task x.results ++ w.output }.log (.recorded task))
  | .recordFailure task error =>
    ((), { w with failed := ⟨x.size, task.taskId, error⟩ :: w.failed }.log (.recorded task))
  | .pollDue => (x.due, w)

/-- What an outside event leaves. A file written locally carries no sidecar:
`save_to_file` writes one for imported tasks alone. -/
def interfere (e : Outside) (w : World) : World :=
  match e with
  | .operation op github => if op.isForeign d.runnerId then w.perform d op github else w
  | .redeliver req => if req ∈ w.sent then d.serve w req else w
  | .pass micros => { w with now := w.now + micros }
  | .submitLocal file => if file.fromClaim then w else { w with queue := w.queue.put file }
  | .removeLocal taskId => { w with queue := w.queue.erase taskId }

/-- The effects of the runner's commands and of the outside. -/
def effects : Effects Command World Choice Outside where
  exec      := exec d
  interfere := interfere d

end World

end Conductress
