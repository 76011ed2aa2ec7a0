import Conductress.Runner.Standing

/-!
# The invariants of a delivery

What holds between the control database, the journal, the queue directory, the
logs and the wire at every point of every run; what the runner promises at
each durable write; and under which conditions on the run. A `Regime` says
which of the conditions are assumed, so that one proof about the runner's
programs serves every property: the empty regime assumes nothing.
-/

namespace Conductress

open Lib

/-- Conditions a run may be assumed to meet. -/
structure Regime where
  /-- Nobody cancels a claimed task, or an accepted one whose acceptance the
  journal has not recorded. -/
  gentle   : Bool := false
  /-- No death with an outcome staged and its task file still queued; records
  fit the search window. -/
  exact    : Bool := false
  /-- No death between removing the file of a given-up claim and clearing the
  journal; claimed tasks load or are refused cleanly; nobody else touches the
  file of the active delivery. -/
  recovers : Bool := false
  /-- Every request is answered; claimed tasks load and have no record yet. -/
  settles  : Bool := false

namespace World

variable (R : Regime) (d : Deployment) (w : World)

/-! ## Ownership -/

/-- A state in which the service expects the runner to have the task. -/
def Held (s : TaskState) : Prop := s = .accepted ∨ (R.gentle ∧ s = .cancelRequested)

/-- The row's task is the active delivery, or the ladder dropped it. An
imported entry owns it only under the token the row was accepted with. -/
def Owned (row : TaskRow) : Prop :=
  (∃ a, w.journal = some a ∧ a.taskId = row.taskId ∧ a.stage ≠ .claimed ∧
    (a.stage = .imported → row.state = .accepted ∧ a.claimToken = row.claimToken)) ∨
  (.downgraded row.taskId .dropped ∈ w.history ∧ ∀ a, w.journal = some a → a.taskId ≠ row.taskId)

/-- The service does not expect the runner to have the task. -/
def NotHeld (taskId : String) : Prop :=
  ∀ row, w.db.task? taskId = some row → row.runnerId = d.runnerId → ¬ Held R row.state

/-- Every claim token was drawn before. -/
structure Issued : Prop where
  rows    : ∀ row ∈ w.db.tasks, ∀ token, row.claimToken = some token → token < w.tokens
  journal : ∀ a, w.journal = some a → ∀ token, a.claimToken = some token → token < w.tokens
  sent    : ∀ taskId token, .accept taskId (some token) ∈ w.sent → token < w.tokens

/-- How the row of a refused claim was left. -/
def RefusedRow (a : Active) (now : Instant) (row : TaskRow) : Prop :=
  row.runnerId = d.runnerId ∧ row.state ≠ .pendingApproval ∧ ¬ Held R row.state ∧
    (row.state = .claimed → row.claimToken = a.claimToken →
      ∀ lease, row.leaseExpires = some lease → lease ≤ now)

structure Ownership : Prop where
  handed   : ∀ a, w.journal = some a → w.Stands d (· ≠ .pendingApproval) a.taskId
  /-- A request to accept that can still succeed is the journal's own. -/
  accepts  : ∀ taskId token, .accept taskId (some token) ∈ w.sent → w.Live taskId token →
    ∃ a, w.journal = some a ∧ a.stage = .imported ∧ a.taskId = taskId ∧ a.claimToken = some token
  held     : ∀ row ∈ w.db.tasks, row.runnerId = d.runnerId → Held R row.state → w.Owned row
  refusals : ∀ a code row? now, .cleared a (.refused code) row? now ∈ w.history →
    ∃ row, row? = some row ∧ RefusedRow R d a now row

/-! ## Custody of files -/

end World

/-- What must have happened before an event. -/
def Event.Follows (R : Regime) : Event → List Event → Prop
  | .staged taskId .accepted, h => .granted taskId ∈ h
  | .starting task, h => ∀ taskId, task.override = some taskId →
      .staged taskId .accepted ∈ h ∧
        (R.exact → ∀ task' : Task, task'.override = some taskId → .recorded task' ∉ h)
  | .recorded task, h => ∀ taskId, task.override = some taskId → .staged taskId .accepted ∈ h
  | _, _ => True

/-- Every event of a history, newest first, follows what must precede it. -/
def Ordered (R : Regime) : List Event → Prop
  | [] => True
  | e :: h => e.Follows R h ∧ Ordered R h

namespace World

variable (R : Regime) (d : Deployment) (w : World)

structure Custody : Prop where
  /-- An imported file names the task it is filed under. -/
  sidecar    : ∀ file ∈ w.queue, file.fromClaim = true → ∃ fields,
    file.content = some (.obj fields) ∧ Json.lookup fields envelopeTaskIdKey = some (.str file.id)
  /-- An imported file was accepted, or is the delivery that still has to be. -/
  file       : ∀ taskId, w.ClaimFile taskId → .staged taskId .accepted ∈ w.history ∨
    ∃ a, w.journal = some a ∧ a.taskId = taskId ∧ (a.stage = .claimed ∨ a.stage = .imported)
  fresh      : ∀ a, w.journal = some a → a.stage = .claimed ∨ a.stage = .imported →
    .staged a.taskId .accepted ∉ w.history
  accepted   : ∀ a, w.journal = some a → a.stage = .accepted →
    .staged a.taskId .accepted ∈ w.history
  past       : ∀ taskId, .staged taskId .accepted ∈ w.history → w.Stands d TaskState.isPast taskId
  loads      : ∀ a, w.journal = some a → a.stage = .accepted → a.Loads d.classes
  safe       : ∀ taskId, .staged taskId .accepted ∈ w.history → FleetClient.isSafePath taskId = true
  imported   : ∀ a, w.journal = some a →
    a.stage = .imported ∨ (a.stage = .claimed ∧ w.ClaimFile a.taskId) →
      a.Loads d.classes ∧ w.NoRecord a.taskId
  order      : Ordered R w.history

/-- An imported file belongs to the active delivery, and a recorded execution
of that delivery is found. -/
structure Once : Prop where
  file  : R.exact → ∀ taskId, w.ClaimFile taskId → ∃ a, w.journal = some a ∧ a.taskId = taskId
  found : R.exact → ∀ a, w.journal = some a → a.stage = .accepted → w.Recorded a.taskId →
    ¬ w.NoRecord a.taskId

/-! ## Outcomes that settle -/

structure Settled : Prop where
  claimed  : R.settles → ∀ a, w.journal = some a → a.stage = .claimed →
    a.Loads d.classes ∧ w.NoRecord a.taskId
  accepted : R.settles → ∀ a, w.journal = some a → a.stage = .accepted →
    w.Stands d TaskState.isOpen a.taskId
  pending  : R.settles → ∀ a o rejections, w.journal = some a →
    a.stage = .outcomePending o rejections →
      w.Settles d a.taskId o ∧ o.taskId = a.taskId ∧ o.runnerId = d.runnerId ∧
        .staged a.taskId .accepted ∈ w.history
  /-- An outcome was reported by an accepted delivery. -/
  done     : R.settles → ∀ row ∈ w.db.tasks, row.runnerId = d.runnerId → row.state.isDone →
    .staged row.taskId .accepted ∈ w.history
  /-- A report on the wire is the staged one, or can do nothing. -/
  reports  : R.settles → ∀ taskId o, .report taskId o ∈ w.sent →
    .staged taskId .accepted ∈ w.history ∧
      ∀ a, w.journal = some a → a.taskId = taskId →
        ∃ o' rejections, a.stage = .outcomePending o' rejections ∧ (o = o' ∨ d.Rejects o)

end World

/-! ## Recovery -/

/-- The body loads and an import takes it, or loading fails in a way that is
reported. -/
def Active.Recoverable (classes : TaskClasses) (a : Active) : Prop :=
  (a.Loads classes ∧ Json.lookup a.envelope.task envelopeTaskIdKey = none) ∨
  ∃ message, classes.fromDict (.obj a.envelope.task) (.str a.taskId) = .error (.valueError message) ∨
    classes.fromDict (.obj a.envelope.task) (.str a.taskId) = .error (.typeError message)

/-- To fit the limit, a bulk value of the outcome must go that lies in an
`outcome_delivery`. -/
abbrev RunnerMailbox.PreflightDrops (d : Deployment) (o : TaskOutcome) : Prop :=
  OutcomeSize.DropsInDelivery d.wireBytes o d.maxOutcomeBytes
    (preflightReason d (d.wireBytes o.toJson)) d.outputPath

namespace World

variable (R : Regime) (d : Deployment) (w : World)

structure Recoverable : Prop where
  clean : R.recovers → ∀ a, w.journal = some a →
    FleetClient.isSafePath a.taskId = true ∧ a.Recoverable d.classes
  file  : R.recovers → ∀ a, w.journal = some a → a.stage = .accepted → w.has a.taskId = true

/-- What holds at every point of every run of a regime. -/
structure Inv : Prop where
  issued      : w.Issued
  ownership   : w.Ownership R d
  custody     : w.Custody R d
  once        : w.Once R
  settled     : w.Settled R d
  recoverable : w.Recoverable R d

/-! ## What the runner promises -/

/-- What a claim must bring to become the active delivery. -/
structure Claimable (a : Active) : Prop where
  handed   : w.Stands d (· ≠ .pendingApproval) a.taskId
  issued   : ∀ token, a.claimToken = some token → token < w.tokens
  notHeld  : w.NotHeld R d a.taskId
  fresh    : .staged a.taskId .accepted ∉ w.history
  settles  : R.settles → a.Loads d.classes ∧ w.NoRecord a.taskId
  recovers : R.recovers → FleetClient.isSafePath a.taskId = true ∧ a.Recoverable d.classes

/-- The writes of the journal's entry. -/
inductive Move : Active → Prop
  | claim {a : Active} : w.journal = none → a.stage = .claimed → w.Claimable R d a → Move a
  | import {a : Active} : w.journal = some a → a.stage = .claimed → a.Loads d.classes →
      w.NoRecord a.taskId → Move { a with stage := .imported }
  | accept {a : Active} : w.journal = some a → a.stage = .imported →
      w.Stands d TaskState.isPast a.taskId → .granted a.taskId ∈ w.history →
      (R.settles → w.Stands d TaskState.isOpen a.taskId) →
      (R.recovers → w.has a.taskId = true) → Move { a with stage := .accepted }
  | outcome {a : Active} {o : TaskOutcome} {rejections : List Rejection} :
      w.journal = some a → a.stage ≠ .imported → (a.stage = .claimed → ¬ w.ClaimFile a.taskId) →
      (R.settles → o.taskId = a.taskId ∧ o.runnerId = d.runnerId ∧ (a.stage = .accepted ∨
        ∃ o' rejections', a.stage = .outcomePending o' rejections' ∧ d.Rejects o')) →
      Move { a with stage := .outcomePending o rejections }

/-- When the journal is cleared. -/
def Clears (a : Active) : Clearing → Prop
  | .delivered => a.stage.isPending = true ∧ w.Stands d TaskState.isDone a.taskId ∧
      (R.exact → ¬ w.ClaimFile a.taskId)
  | .dropped => a.stage.isPending = true ∧ .downgraded a.taskId .dropped ∈ w.history ∧
      (R.exact → ¬ w.ClaimFile a.taskId)
  | .refused _ => a.stage = .imported ∧ w.NotHeld R d a.taskId ∧ ¬ w.ClaimFile a.taskId ∧
      ∃ token, a.claimToken = some token ∧ ¬ w.Live a.taskId token

/-- When a request is sent. -/
def Asks : RunnerRequest → Prop
  | .claim => w.journal = none
  | .accept taskId token => ∃ a, w.journal = some a ∧ a.stage = .imported ∧ a.taskId = taskId ∧
      a.claimToken = token
  | .report taskId o => ∃ a rejections, w.journal = some a ∧ a.taskId = taskId ∧
      a.stage = .outcomePending o rejections

/-- When a task may run: no delivery is waiting for its acceptance, and an
accepted one is this task. -/
structure Runnable (task : Task) : Prop where
  blocked  : ∀ a, w.journal = some a → a.stage ≠ .claimed ∧ a.stage ≠ .imported
  delivery : ∀ a, w.journal = some a → a.stage = .accepted → task.override = some a.taskId
  accepted : ∀ taskId, task.override = some taskId → .staged taskId .accepted ∈ w.history

/-- What the runner promises at each command. -/
def Guard {β : Type} (c : Command β) (w : World) : Prop :=
  match c with
  | .setActive a => w.Move R d a
  | .clearActive why => ∃ a, w.journal = some a ∧ w.Clears R d a why
  | .installTask taskId document => ∃ a, w.journal = some a ∧ a.stage = .claimed ∧
      a.taskId = taskId ∧ document = TaskQueue.persisted a.envelope.task taskId ∧
      a.Loads d.classes ∧ w.NoRecord taskId
  | .unlinkTask taskId | .parkTask taskId =>
    R.recovers → ∀ a, w.journal = some a → a.stage = .accepted → a.taskId ≠ taskId
  | .request req => w.Asks req
  | .starting task => Event.Follows R (.starting task) w.history
  | .execute task | .recordFailure task _ => w.Runnable task
  | .active | .recordDowngrade .. | .hasTask _ | .taskIds | .readTask _ | .findResult _
  | .findFailure _ | .utcText | .pollDue => True

/-! ## What a regime assumes of a run -/

/-- What a claim made now would hand out. -/
def ClaimOk : Prop :=
  ∀ row, d.answer w .claim = .ok (.claimed row) →
    let a : Active := ⟨row.taskId, row.claimToken, row.envelope, .claimed⟩
    (R.settles → a.Loads d.classes ∧ w.NoRecord a.taskId) ∧
    (R.recovers → FleetClient.isSafePath a.taskId = true ∧ a.Recoverable d.classes)

/-- The result on record of the active delivery, reported now, needs no bulk value
dropped that lies in an `outcome_delivery` of its own. -/
def Trims : Prop :=
  ∀ a, w.journal = some a → ∀ result, w.findResult a.taskId = some result →
    ¬ RunnerMailbox.PreflightDrops d
      (RunnerMailbox.completedOutcome d a.taskId (utcText w.now) result)

def ChoiceOk {β : Type} (c : Command β) (x : Choice) (w : World) : Prop :=
  match c with
  | .request req => (R.settles → x.network = .passed) ∧
      (R.recovers → x.network.isCaught = true) ∧ (req = .claim → w.ClaimOk R d)
  | .utcText => R.recovers → w.Trims d
  | .execute _ => R.exact → ∀ r ∈ x.results, r.1 ≤ findRecordMaxBytes
  | .recordFailure .. => R.exact → x.size ≤ findRecordMaxBytes
  | _ => True

/-- A cancellation that leaves alone the runner's claimed tasks and those whose
acceptance its journal has not recorded. -/
def Gentle (w : World) : Operation → Prop
  | .cancel selector _ login isOwner => ∀ row ∈ w.db.tasks, row.runnerId = d.runnerId →
      ControlService.selects selector row = true →
      ControlService.mayCancel login isOwner row = true →
        row.state ≠ .claimed ∧
          (row.state = .accepted → ∀ a, w.journal = some a → a.taskId = row.taskId →
            a.stage ≠ .imported)
  | _ => True

def OutsideOk (e : Outside) (w : World) : Prop :=
  match e with
  | .operation op _ => R.gentle → w.Gentle d op
  | .submitLocal file => R.recovers → ∀ a, w.journal = some a → a.stage = .claimed →
      w.has a.taskId = false → file.id ≠ a.taskId
  | .removeLocal taskId => R.recovers → ∀ a, w.journal = some a → a.taskId ≠ taskId
  | .redeliver _ | .pass _ => True

/-- When the process may die. -/
structure Calm : Prop where
  finished : R.exact → ∀ a, w.journal = some a → a.stage.isPending = true → ¬ w.ClaimFile a.taskId
  imported : R.recovers → ∀ a, w.journal = some a → a.stage = .imported → w.has a.taskId = true

/-! ## What the outside keeps -/

/-- What neither an outside event nor a request of the runner takes away. -/
structure Kept (w w' : World) : Prop where
  journal   : w'.journal = w.journal
  output    : w'.output = w.output
  failed    : w'.failed = w.failed
  history   : ∀ e, e ∈ w.history → e ∈ w'.history
  staged    : ∀ taskId stage, .staged taskId stage ∈ w'.history → .staged taskId stage ∈ w.history
  recorded  : ∀ task, .recorded task ∈ w'.history → .recorded task ∈ w.history
  tokens    : w.tokens ≤ w'.tokens
  claimFile : ∀ taskId, w'.ClaimFile taskId → w.ClaimFile taskId
  has       : R.recovers → ∀ a, w.journal = some a → w.has a.taskId = true →
    w'.has a.taskId = true
  absent    : R.recovers → ∀ a, w.journal = some a → a.stage = .claimed →
    w.has a.taskId = false → w'.has a.taskId = false
  stands    : ∀ p, StateWrite.Closed p → ∀ taskId, w.Stands d p taskId → w'.Stands d p taskId
  notLive   : ∀ taskId token, token < w.tokens → ¬ w.Live taskId token → ¬ w'.Live taskId token
  isOpen    : R.settles → ∀ a, w.journal = some a → a.stage = .imported →
    w.Stands d TaskState.isOpen a.taskId → w'.Stands d TaskState.isOpen a.taskId

/-- No acceptance of the task is on its way, and no row expects the runner to
have it. -/
def Untaken (taskId : String) : Prop :=
  w.NotHeld R d taskId ∧ ∀ token, .accept taskId (some token) ∈ w.sent → ¬ w.Live taskId token

/-- What an outside event does not take away. -/
structure Rely (w w' : World) : Prop extends Kept R d w w' where
  untaken : ∀ taskId, w.Untaken R d taskId → w'.Untaken R d taskId

end World

end Conductress
