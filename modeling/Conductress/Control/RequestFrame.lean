import Conductress.Control.CanarySchedule
import Conductress.Control.Submitters
import Conductress.Control.Tokens

/-!
# What a request may change

The service with its tokens: a request is authenticated, authorised and served
on the task database and the table of runner statuses. `requests_framed` says of
every request of every run what it leaves alone. With a runner's token only rows
assigned to that runner change, and no status but its own; with any other token
no task gets into a state that a runner puts it in.

The exceptions are stale claims, which any claim puts back, and the canaries: a
status push is followed by a tick of the scheduler for the whole fleet. The tick
takes what is stored under a canary's task id for its own, whoever stored it.

* `RunnerFrame`, `PersonFrame` — what a request leaves alone;
* `tick_frame` — a tick touches canary ids only;
* `squatted_task_cancelled` — a status push of one runner cancels a manual task
  of another one that was submitted under a canary's id.
-/

namespace Conductress

open Lib

/-! ## The service -/

/-- A row of `runner_status`. -/
structure StatusRow where
  runnerId  : String
  status    : Json
  updatedAt : Instant

/-- A `runner.status` record of `audit_log`, which is about no task. -/
structure StatusRecord where
  timestamp       : Instant
  actor           : String
  runnerId        : String
  statusTimestamp : String

/-- The database, with the table of statuses and the records of their writes. -/
structure ApiState where
  db           : Database
  runnerStatus : Table StatusRow.runnerId
  statusLog    : List StatusRecord

namespace ApiState

/-- The database after `initialize()`. -/
def empty : ApiState := ⟨.empty, .empty, []⟩

end ApiState

/-- The application: `statusValid` is the schema of a runner status, `hashToken`
the digest of tokens. -/
structure ControlApp where
  service     : ControlService
  tokens      : TokenStore
  hashToken   : String → String
  statusValid : Fields → Bool

/-- What a status push is refused with. -/
inductive StatusError where
  | control (e : ControlError)
  | statusIdentityMismatch

/-- The request pushes a status. -/
def Request.isPush : Request → Bool
  | .pushStatus .. => true
  | _ => false

/-- A request: one that writes tasks alone, a status push with its document, or
one that reads or is refused before the service is called. -/
inductive ApiRequest where
  | tasks (request : Request) (noPush : request.isPush = false)
  | pushStatus (runnerId : String) (status : Fields)
  | other

/-- The request is a status push, which a tick follows. -/
def ApiRequest.isPush : ApiRequest → Bool
  | pushStatus .. => true
  | _ => false

namespace ControlApp

variable (app : ControlApp)

/-- `status["timestamp"]`, as a time with a timezone. -/
def statusTimestamp (status : Fields) : Except ControlError String :=
  match Json.lookup status "timestamp" with
  | some (.str text) => do
    check (app.service.parsesWithTimezone text) .schemaInvalid "invalid date-time at timestamp"
    return text
  | _ => .error .internal

/-- `push_status`. -/
def pushStatus (now : Instant) (runnerId : String) (status : Fields) (actor : String) (s : ApiState) :
    Except StatusError ApiState := do
  let _ ← (app.service.registry.getRunner runnerId).mapError .control
  (check (app.statusValid status) .schemaInvalid "invalid runner status").mapError .control
  let timestamp ← (app.statusTimestamp status).mapError .control
  match Json.lookup status "runner_id" with
  | none => .error (.control .internal)
  | some named =>
    if named = .str runnerId then
      return { s with
        runnerStatus := s.runnerStatus.put ⟨runnerId, Json.canonical (.obj status), now⟩
        statusLog := s.statusLog ++ [⟨now, actor, runnerId, timestamp⟩] }
    else .error .statusIdentityMismatch

/-- `_push_status`, up to the tick. -/
def putStatus (m : Moment) (identity : AuthIdentity) (runnerId : String) (status : Fields)
    (s : ApiState) : Except StatusError ApiState := do
  let _ ← (requireRunner identity (some runnerId)).mapError .control
  app.pushStatus m.now runnerId status identity.actor s

/-- The state after a request was served. What a tick raises is logged. -/
def handle (m : Moment) (identity : AuthIdentity) (s : ApiState) : ApiRequest → ApiState
  | .tasks request _ =>
    { s with db := (AppEvent.request m identity request).apply app.service s.db }
  | .pushStatus runnerId status =>
    match app.putStatus m identity runnerId status s with
    | .ok s => { s with db := perform app.service m .tick s.db }
    | .error _ => s
  | .other => s

end ControlApp

/-- A request with its authorization header, or a start of the service. -/
inductive ApiEvent where
  | request (m : Moment) (authorization : Option String) (request : ApiRequest)
  | startup (m : Moment)

namespace ApiEvent

variable (app : ControlApp)

/-- The state after an event. -/
def apply (s : ApiState) : ApiEvent → ApiState
  | .request m authorization req =>
    match TokenStore.authenticate app.hashToken app.tokens authorization with
    | .ok identity => app.handle m identity s req
    | .error _ => s
  | .startup m => { s with db := (AppEvent.startup m).apply app.service s.db }

/-- The condition on an event: it stores no task under the task id of a canary. -/
def KeepsOffCanaryIds (s : ApiState) : ApiEvent → Prop
  | .request _ _ (.tasks (.submitTask envelope key _) _) =>
    IsCanaryId app.service envelope.taskId →
      (ControlService.existingTask s.db key envelope.taskId).isSome = true
  | _ => True

/-- A step of the deployed service. -/
def Step (s : ApiState) (e : ApiEvent) (s' : ApiState) : Prop := s' = e.apply app s

end ApiEvent

/-! ## What a request leaves alone -/

/-- The row is one the scheduler created, a canary of the fleet. -/
def TickOwned (svc : ControlService) (db : Database) (row : TaskRow) : Prop :=
  CreatedByScheduler db row.taskId ∧ ∃ profile utcDate, CanaryOf svc row profile utcDate

/-- A state before an outcome that only a person's decision leads to or from. -/
def TaskState.isDecided : TaskState → Bool
  | pendingApproval | cancelled | cancelRequested => true
  | _ => false

/-- What a request with a runner's token leaves alone. -/
structure RunnerFrame (svc : ControlService) (now : Instant) (runnerId : String) (req : ApiRequest)
    (s s' : ApiState) : Prop where
  /-- A row that changes is the runner's, had a stale claim, or is the tick's. -/
  rows : ∀ taskId row, s.db.task? taskId = some row → ∃ row', s'.db.task? taskId = some row' ∧
    (row' = row ∨ (req.isPush = false ∧ row.runnerId = runnerId) ∨
      (ControlService.isStale now row = true ∧ row' = StateWrite.expireClaim.set now row) ∨
      (req.isPush = true ∧ TickOwned svc s.db row))
  /-- A new row is the tick's. -/
  created : ∀ taskId row', s.db.task? taskId = none → s'.db.task? taskId = some row' →
    req.isPush = true ∧ TickOwned svc s'.db row'
  /-- The tick apart, no task is held, approved, rejected or cancelled. -/
  undecided : req.isPush = false → ∀ taskId row row',
    s.db.task? taskId = some row → s'.db.task? taskId = some row' → row'.state ≠ row.state →
      row.state ≠ .pendingApproval ∧ row'.state.isDecided = false
  /-- No other runner's status changes. -/
  status : ∀ other, other ≠ runnerId → s'.runnerStatus.find? other = s.runnerStatus.find? other

/-- A state that a runner's request puts a task in. -/
def TaskState.isRunners : TaskState → Bool
  | claimed | accepted | completed | failed => true
  | _ => false

/-- What a request with another token leaves alone: a task in a state of the
runner's was in it before, with the same row. -/
structure PersonFrame (s s' : ApiState) : Prop where
  rows   : ∀ taskId row', s'.db.task? taskId = some row' → row'.state.isRunners = true →
    s.db.task? taskId = some row'
  status : s'.runnerStatus = s.runnerStatus

/-! ## Who may ask for what -/

namespace Operation

/-- The operations of operators and users. -/
def isPersons : Operation → Bool
  | submit .. | cancel .. | approve .. | reject .. => true
  | _ => false

/-- The runner an operation of a runner is made for. -/
def runner? : Operation → Option String
  | claim runnerId _ | accept runnerId _ _ _ | recordOutcome runnerId _ _ _ => some runnerId
  | _ => none

end Operation

section Authorize

variable {svc : ControlService} {identity : AuthIdentity} {req : Request} {op : Operation}
  {scope : Option String} {runnerId : String}

theorem requireRunner_ok (h : requireRunner identity scope = .ok runnerId) :
    identity.runnerId = some runnerId := by
  unfold requireRunner at h
  cases identity with
  | runner label runnerId' hasRunner =>
    dsimp only at h
    split at h
    · exact congrArg some (Except.ok.inj h)
    · cases h
  | operator | user => cases h

theorem requireRunner_scope {named : String} (h : requireRunner identity (some named) = .ok runnerId) :
    runnerId = named := by
  unfold requireRunner at h
  cases identity with
  | runner label runnerId' hasRunner =>
    dsimp only at h
    split at h
    · next hscope =>
      obtain rfl := Except.ok.inj h
      rw [Option.all_some, decide_eq_true_eq] at hscope
      exact hscope.symm
    · cases h
  | operator | user => cases h

/-- A runner's token is no submitter's and no approver's. -/
theorem not_person (h : identity.runnerId = some runnerId) :
    identity.isSubmitter = false ∧ identity.isApprover svc = false := by
  cases identity with
  | runner label runnerId' hasRunner =>
    refine ⟨rfl, ?_⟩
    cases hdirectory : svc.userDirectory <;>
      simp [AuthIdentity.isApprover, AuthIdentity.directoryUser, AuthIdentity.login, hdirectory]
  | operator | user => cases h

/-- **The guards of the routes**: a runner's token gets operations of that runner
and, for a status push, the tick; any other token gets those of people. -/
theorem authorize_ok (h : authorize svc identity req = .ok op) :
    (∃ runnerId, identity.runnerId = some runnerId ∧
        (op.runner? = some runnerId ∨ (op = .tick ∧ req.isPush = true))) ∨
      (identity.runnerId = none ∧ op.isPersons = true) := by
  have hperson : identity.isSubmitter = true ∨ identity.isApprover svc = true →
      identity.runnerId = none := by
    intro hallowed
    by_contra hsome
    obtain ⟨runnerId, hrunner⟩ := Option.ne_none_iff_exists'.mp hsome
    have hneither : identity.isSubmitter = false ∧ identity.isApprover svc = false :=
      not_person hrunner
    rcases hallowed with hallowed | hallowed
    · rw [hneither.1] at hallowed
      cases hallowed
    · rw [hneither.2] at hallowed
      cases hallowed
  cases req with
  | submitTask envelope key bypass =>
    obtain ⟨_, hallowed, h⟩ := except_bind_ok.mp h
    obtain rfl := except_pure_ok.mp h
    exact .inr ⟨hperson (.inl (ControlService.check_ok.mp hallowed)), rfl⟩
  | cancelTask selector =>
    obtain ⟨_, hallowed, h⟩ := except_bind_ok.mp h
    obtain rfl := except_pure_ok.mp h
    exact .inr ⟨hperson (.inl (ControlService.check_ok.mp hallowed)), rfl⟩
  | approveTasks selector | rejectTasks selector =>
    obtain ⟨_, hallowed, h⟩ := except_bind_ok.mp h
    obtain rfl := except_pure_ok.mp h
    exact .inr ⟨hperson (.inr (ControlService.check_ok.mp hallowed)), rfl⟩
  | claimTask =>
    obtain ⟨runnerId, hrunner, h⟩ := except_bind_ok.mp h
    obtain rfl := except_pure_ok.mp h
    exact .inl ⟨runnerId, requireRunner_ok hrunner, .inl rfl⟩
  | acceptTask taskId claimToken =>
    obtain ⟨runnerId, hrunner, h⟩ := except_bind_ok.mp h
    cases claimToken with
    | none => cases h
    | some token =>
      obtain rfl := except_pure_ok.mp h
      exact .inl ⟨runnerId, requireRunner_ok hrunner, .inl rfl⟩
  | recordOutcome expectedState taskId outcome =>
    obtain ⟨runnerId, hrunner, h⟩ := except_bind_ok.mp h
    obtain ⟨_, -, h⟩ := except_bind_ok.mp h
    obtain rfl := except_pure_ok.mp h
    exact .inl ⟨runnerId, requireRunner_ok hrunner, .inl rfl⟩
  | pushStatus named valid =>
    obtain ⟨runnerId, hrunner, h⟩ := except_bind_ok.mp h
    obtain ⟨_, -, h⟩ := except_bind_ok.mp h
    obtain ⟨_, -, h⟩ := except_bind_ok.mp h
    obtain rfl := except_pure_ok.mp h
    exact .inl ⟨runnerId, requireRunner_ok hrunner, .inr ⟨rfl, rfl⟩⟩

end Authorize

/-! ## The changes of an operation -/

section Changes

variable {svc : ControlService} {m : Moment} {op : Operation} {c : Change} {db db₀ db' : Database}

/-- A person's operation inserts fresh rows and makes writes that lead to no
state of a runner's. -/
theorem Operation.Permits.person (h : op.Permits svc m c) (hop : op.isPersons = true) :
    (∃ action now actor detail row, c = .inserted action now actor detail row) ∨
      ∃ w now actor detail row, c = .wrote w now actor detail row ∧
        w.newState.isRunners = false := by
  cases op with
  | submit envelope actor key login bypass =>
    obtain ⟨-, _, _, _, _, rfl⟩ := h
    exact .inl ⟨_, _, _, _, _, rfl⟩
  | cancel selector actor login isOwner =>
    obtain ⟨w, row, -, -, hw, rfl⟩ := h
    refine .inr ⟨w, _, _, _, _, rfl, ?_⟩
    cases hstate : row.state <;> rw [hstate] at hw <;> cases hw <;> rfl
  | approve selector actor =>
    obtain ⟨row, -, rfl⟩ := h
    exact .inr ⟨_, _, _, _, _, rfl, rfl⟩
  | reject selector actor =>
    obtain ⟨row, -, rfl⟩ := h
    exact .inr ⟨_, _, _, _, _, rfl, rfl⟩
  | expireStaleClaims | claim | accept | recordOutcome | tick => cases hop

/-- **People's operations put no task in a state of a runner's.** -/
theorem perform_person (hop : op.isPersons = true) {taskId : String} {row' : TaskRow}
    (hrow' : (perform svc m op db).task? taskId = some row') (hstate : row'.state.isRunners = true) :
    db.task? taskId = some row' := by
  obtain ⟨cs, hrun, hcs⟩ := perform_changes svc m op db
  revert row'
  refine hrun.invariant_of_mem (fun b => ∀ {row'}, b.task? taskId = some row' →
    row'.state.isRunners = true → db.task? taskId = some row') (fun h _ => h)
    fun a c b hc hstep ih row' hrow' hstate => ?_
  obtain ⟨hmem, rfl⟩ := Database.task?_eq_some_iff.mp hrow'
  rcases hstep.mem_after hmem with ⟨hbefore, -⟩ | ⟨_, _, _, _, -, -, hfresh⟩ |
    ⟨w, now, _, _, row, rfl, -, -, rfl⟩
  · exact ih (Database.task?_of_mem hbefore) hstate
  · -- a new row is queued or held
    rcases hfresh.state with hqueued | hheld
    · rw [hqueued] at hstate
      cases hstate
    · rw [hheld] at hstate
      cases hstate
  · rcases (hcs _ hc).person hop with ⟨_, _, _, _, _, heq⟩ | ⟨_, _, _, _, _, heq, hnot⟩
    · cases heq
    · cases heq
      rw [StateWrite.set_state, hnot] at hstate
      cases hstate

/-- The writes of a runner's operations. -/
def StateWrite.isRunners : StateWrite → Bool
  | expireClaim | claim .. | accept | report _ => true
  | _ => false

/-- A runner's write starts from a decided task and leaves it decided. -/
theorem StateWrite.Allowed.runners {w : StateWrite} {now : Instant} {row : TaskRow}
    (h : w.Allowed db now row) (hw : w.isRunners = true) :
    row.state ≠ .pendingApproval ∧ w.newState.isDecided = false := by
  cases w with
  | expireClaim => exact ⟨by rw [ControlService.isStale_claimed h]; decide, rfl⟩
  | claim token lease => exact ⟨by rw [h.1]; decide, rfl⟩
  | accept => exact ⟨by rw [h.1]; decide, rfl⟩
  | report outcome =>
    refine ⟨?_, by cases hstate : outcome.state <;> simp [newState, hstate, Terminal.taskState,
      TaskState.isDecided]⟩
    rcases h.1 with hstate | hstate
    · rw [hstate]
      decide
    · rw [hstate]
      decide
  | cancel | requestCancel | approve | reject | expireCanary => cases hw

/-- What becomes of a row while a runner's operation is performed. -/
structure RunnerKept (now : Instant) (runnerId : String) (row row' : TaskRow) : Prop where
  became  : row' = row ∨ (row.runnerId = runnerId ∧ row'.runnerId = runnerId) ∨
    (ControlService.isStale now row = true ∧ row' = StateWrite.expireClaim.set now row)
  decided : row'.state ≠ row.state → row.state ≠ .pendingApproval ∧ row'.state.isDecided = false

/-- **One write of a runner's operation.** -/
theorem RunnerKept.write {now : Instant} {runnerId : String} {row row' : TaskRow} {w : StateWrite}
    (h : RunnerKept now runnerId row row') (hallowed : w.Allowed db now row')
    (hw : w.isRunners = true) (hown : w = .expireClaim ∨ row'.runnerId = runnerId) :
    RunnerKept now runnerId row (w.set now row') := by
  obtain ⟨hheld, hdecided⟩ := hallowed.runners hw
  constructor
  · rcases h.became with rfl | ⟨hrow, hrow'⟩ | ⟨hstale, rfl⟩
    · rcases hown with rfl | hown
      · exact .inr (.inr ⟨hallowed, rfl⟩)
      · exact .inr (.inl ⟨hown, by rw [StateWrite.set_runnerId]; exact hown⟩)
    · exact .inr (.inl ⟨hrow, by rw [StateWrite.set_runnerId]; exact hrow'⟩)
    · rcases hown with rfl | hown
      · -- a claim that was put back is not stale
        have hclaimed := ControlService.isStale_claimed hallowed
        rw [StateWrite.set_state] at hclaimed
        cases hclaimed
      · rw [StateWrite.set_runnerId] at hown
        exact .inr (.inl ⟨hown, by rw [StateWrite.set_runnerId, StateWrite.set_runnerId]; exact hown⟩)
  · rw [StateWrite.set_state]
    refine fun _ => ⟨fun hpending => ?_, hdecided⟩
    by_cases hsame : row'.state = row.state
    · exact hheld (hsame.trans hpending)
    · exact (h.decided hsame).1 hpending

/-- The changes of a runner's operation. -/
theorem Operation.Permits.runner (h : op.Permits svc m c) {runnerId : String}
    (hop : op.runner? = some runnerId) :
    ∃ w actor row, c = .wrote w m.now actor none row ∧ w.isRunners = true ∧
      (w = .expireClaim ∨ row.runnerId = runnerId) := by
  cases op with
  | claim runnerId' actor =>
    obtain rfl := Option.some.inj hop
    rcases h with ⟨row, rfl⟩ | ⟨row, hrunner, rfl⟩
    · exact ⟨_, _, _, rfl, rfl, .inl rfl⟩
    · exact ⟨_, _, _, rfl, rfl, .inr hrunner⟩
  | accept runnerId' taskId token actor =>
    obtain rfl := Option.some.inj hop
    obtain ⟨row, -, hrunner, -, rfl⟩ := h
    exact ⟨_, _, _, rfl, rfl, .inr hrunner⟩
  | recordOutcome runnerId' taskId outcome actor =>
    obtain rfl := Option.some.inj hop
    obtain ⟨row, -, hrunner, rfl⟩ := h
    exact ⟨_, _, _, rfl, rfl, .inr hrunner⟩
  | submit | cancel | approve | reject | expireStaleClaims | tick => cases hop

/-- **A runner's operation** keeps the rows there are, and adds none. -/
theorem perform_runner {runnerId : String} (hop : op.runner? = some runnerId) (taskId : String) :
    (∀ row, db.task? taskId = some row → ∃ row', (perform svc m op db).task? taskId = some row' ∧
        RunnerKept m.now runnerId row row') ∧
      (db.task? taskId = none → (perform svc m op db).task? taskId = none) := by
  obtain ⟨cs, hrun, hcs⟩ := perform_changes svc m op db
  refine hrun.invariant_of_mem (fun b => (∀ row, db.task? taskId = some row →
      ∃ row', b.task? taskId = some row' ∧ RunnerKept m.now runnerId row row') ∧
    (db.task? taskId = none → b.task? taskId = none))
    ⟨fun row hrow => ⟨row, hrow, .inl rfl, fun h => absurd rfl h⟩, id⟩
    fun a c b hc hstep ih => ?_
  obtain ⟨w, actor, written, rfl, hw, hown⟩ := (hcs _ hc).runner hop
  refine ⟨fun row hrow => ?_, fun hnone => ?_⟩
  · obtain ⟨row', hrow', hkept⟩ := ih.1 row hrow
    rcases hstep.row_after hrow' with hsame | ⟨w', now, _, _, heq, hallowed, hset⟩
    · exact ⟨row', hsame, hkept⟩
    · cases heq
      exact ⟨_, hset, hkept.write hallowed hw hown⟩
  · cases hstep with
    | wrote hmem _ hlook _ =>
      rw [hlook, if_neg, ih.2 hnone]
      rintro rfl
      have hfree := ih.2 hnone
      rw [Database.task?_of_mem hmem] at hfree
      cases hfree

end Changes

/-! ## What a tick leaves alone -/

namespace CanaryScheduler

variable {svc : ControlService} {now : Instant} {runnerId : String} {profile : CanaryProfile}
  {utcDate : ℕ} {db db' : Database} {taskId : String}

/-- **One evaluation** touches the canary's id only: the task that it expires is
stored under it. -/
theorem Evaluated.frame (h : Evaluated now runnerId profile utcDate db db')
    (hcanary : IsCanaryId svc (canaryTaskId runnerId profile.profileId utcDate))
    (hown : ScheduleOwn db) (hid : ¬ IsCanaryId svc taskId) : db'.task? taskId = db.task? taskId := by
  have hother : taskId ≠ canaryTaskId runnerId profile.profileId utcDate := by
    rintro rfl
    exact hid hcanary
  cases h with
  | kept => rfl
  | missed => exact task?_ignoreInsert _ taskId
  | adopted => exact task?_ignoreInsert _ taskId
  | created _ _ _ _ hins =>
    obtain ⟨-, -, hlook⟩ := Database.insertTask_eq_some hins
    have hinserted := hlook taskId
    rw [canaryRow_taskId, if_neg hother, task?_ignoreInsert] at hinserted
    exact hinserted
  | expired hentry _ htask hmem =>
    obtain ⟨hentryMem, hkey⟩ := Table.find?_eq_some_iff.mp hentry
    obtain ⟨-, hname⟩ := hown _ hentryMem _ htask
    simp only [ScheduleRow.key, Prod.mk.injEq] at hkey
    rw [hkey.1, hkey.2.1, hkey.2.2] at hname
    rw [task?_markExpired hmem, if_neg (hname ▸ hother)]

theorem tickFrom_frame {due : List (String × CanaryProfile × ℕ)}
    (hdue : ∀ d ∈ due, IsCanaryId svc (canaryTaskId d.1 d.2.1.profileId d.2.2))
    (hrows : CanaryIdRows svc db) (hown : ScheduleOwn db) (hid : ¬ IsCanaryId svc taskId) :
    (tickFrom now due db).task? taskId = db.task? taskId := by
  induction due generalizing db with
  | nil => rfl
  | cons d rest ih =>
    obtain ⟨runnerId, profile, utcDate⟩ := d
    unfold tickFrom
    cases heval : evaluateRunner now runnerId profile utcDate db with
    | error _ => rfl
    | ok db₁ =>
      have hcanary := hdue (runnerId, profile, utcDate) List.mem_cons_self
      have hstep := (evaluateRunner_evaluated heval).frame hcanary hown hid
      have hrest := ih (fun d hd => hdue d (List.mem_cons_of_mem _ hd))
        (evaluateRunner_canaryIdRows heval hrows)
        (evaluateRunner_scheduleOwn heval hcanary hrows hown)
      exact hrest.trans hstep

end CanaryScheduler

/-- The state in which what is stored under canary ids is the scheduler's. -/
structure CanariesOwn (svc : ControlService) (db : Database) : Prop where
  created  : CanariesCreated svc db
  rows     : CanaryIdRows svc db
  schedule : ScheduleOwn db

namespace CanariesOwn

variable {svc : ControlService} {m : Moment} {db : Database}

theorem empty (svc : ControlService) : CanariesOwn svc .empty where
  created := canariesCreated_empty svc
  rows := fun row hrow => absurd hrow (Table.not_mem_empty row)
  schedule := fun entry hentry => absurd hentry (Table.not_mem_empty entry)

/-- **One operation** keeps them so, unless it stores a submission under a
canary's id. -/
theorem perform {op : Operation} (h : CanariesOwn svc db)
    (hkeeps : ∀ envelope actor key login bypass, op = .submit envelope actor key login bypass →
      IsCanaryId svc envelope.taskId →
        (ControlService.existingTask db key envelope.taskId).isSome = true) :
    CanariesOwn svc (Conductress.perform svc m op db) where
  created := perform_canariesCreated m op h.created
  schedule := perform_scheduleOwn h.rows h.schedule
  rows := by
    refine perform_schedulerRows CanaryScheduler.isCanaryId_of_set ?_ h.rows
    intro envelope actor key login bypass hop
    by_cases hid : IsCanaryId svc envelope.taskId
    · exact .inl (hkeeps _ _ _ _ _ hop hid)
    · refine .inr fun row _ _ hrow hcanary => hid ?_
      rwa [hrow] at hcanary

/-- A row under a canary's id is the tick's. -/
theorem tickOwned {taskId : String} {row : TaskRow} (h : CanariesOwn svc db)
    (hid : IsCanaryId svc taskId) (hrow : db.task? taskId = some row) : TickOwned svc db row := by
  obtain ⟨hmem, rfl⟩ := Database.task?_eq_some_iff.mp hrow
  have hcreated := h.rows row hmem hid
  obtain ⟨row', profile, utcDate, hrow', hcanary⟩ := h.created _ hcreated
  rw [hrow] at hrow'
  obtain rfl := Option.some.inj hrow'
  exact ⟨hcreated, profile, utcDate, hcanary⟩

end CanariesOwn

/-- **A tick** touches rows of its own only, and adds only such rows. -/
theorem tick_frame {svc : ControlService} {m : Moment} {db : Database} (h : CanariesOwn svc db)
    (taskId : String) :
    (∀ row, db.task? taskId = some row →
        ∃ row', (perform svc m .tick db).task? taskId = some row' ∧
          (row' = row ∨ TickOwned svc db row)) ∧
      ∀ row', db.task? taskId = none → (perform svc m .tick db).task? taskId = some row' →
        TickOwned svc (perform svc m .tick db) row' := by
  have hafter : CanariesOwn svc (perform svc m .tick db) :=
    h.perform fun _ _ _ _ _ hop => by cases hop
  by_cases hid : IsCanaryId svc taskId
  · refine ⟨fun row hrow => ?_, fun row' _ hrow' => hafter.tickOwned hid hrow'⟩
    obtain ⟨row', hrow'⟩ : ∃ row', (perform svc m .tick db).task? taskId = some row' := by
      obtain ⟨cs, hrun, -⟩ := perform_changes svc m .tick db
      refine hrun.invariant (fun b => ∃ row', b.task? taskId = some row') ⟨row, hrow⟩ ?_
      rintro a c b hstep ⟨row', hrow'⟩
      rcases hstep.row_after hrow' with hsame | ⟨_, _, _, _, -, -, hset⟩
      · exact ⟨_, hsame⟩
      · exact ⟨_, hset⟩
    exact ⟨row', hrow', .inr (h.tickOwned hid hrow)⟩
  · have hsame : (perform svc m .tick db).task? taskId = db.task? taskId :=
      CanaryScheduler.tickFrom_frame (fun d hd => CanaryScheduler.isCanaryId_of_mem hd) h.rows
        h.schedule hid
    refine ⟨fun row hrow => ⟨row, hsame.trans hrow, .inl rfl⟩, fun row' hnone hrow' => ?_⟩
    rw [hsame, hnone] at hrow'
    cases hrow'

/-! ## What a request leaves alone -/

section Requests

variable {app : ControlApp} {m : Moment} {identity : AuthIdentity} {runnerId : String}
  {req : ApiRequest} {s s' : ApiState}

theorem RunnerFrame.refl (svc : ControlService) (now : Instant) (runnerId : String)
    (req : ApiRequest) (s : ApiState) : RunnerFrame svc now runnerId req s s where
  rows := fun _ row hrow => ⟨row, hrow, .inl rfl⟩
  created := fun taskId row' hnone hrow' => by
    rw [hnone] at hrow'
    cases hrow'
  undecided := fun _ taskId row row' hrow hrow' hstate => by
    rw [hrow] at hrow'
    exact absurd (Option.some.inj hrow').symm fun heq => hstate (congrArg TaskRow.state heq)
  status := fun _ _ => rfl

theorem PersonFrame.refl (s : ApiState) : PersonFrame s s where
  rows := fun _ _ hrow' _ => hrow'
  status := rfl

/-- A status that is stored is that of the token's runner, and no task changes
yet. -/
theorem ControlApp.putStatus_ok {named : String} {status : Fields}
    (h : app.putStatus m identity named status s = .ok s') :
    identity.runnerId = some named ∧ s'.db = s.db ∧
      ∀ other, other ≠ named → s'.runnerStatus.find? other = s.runnerStatus.find? other := by
  obtain ⟨runnerId, hrunner, h⟩ := except_bind_ok.mp h
  have hrunner := except_mapError_ok.mp hrunner
  obtain rfl := requireRunner_scope hrunner
  obtain ⟨_, -, h⟩ := except_bind_ok.mp h
  obtain ⟨_, -, h⟩ := except_bind_ok.mp h
  obtain ⟨timestamp, -, h⟩ := except_bind_ok.mp h
  split at h
  · cases h
  · split at h
    · obtain rfl := except_pure_ok.mp h
      refine ⟨requireRunner_ok hrunner, rfl, fun other hother => ?_⟩
      rw [Table.find?_put, if_neg hother]
    · cases h

/-- **A request with a runner's token.** -/
theorem ControlApp.handle_runner (h : CanariesOwn app.service s.db)
    (hrunner : identity.runnerId = some runnerId) :
    RunnerFrame app.service m.now runnerId req s (app.handle m identity s req) := by
  cases req with
  | other => exact .refl ..
  | tasks request noPush =>
    unfold ControlApp.handle AppEvent.apply
    dsimp only
    cases hop : authorize app.service identity request with
    | error _ => exact .refl ..
    | ok op =>
      have hop' : op.runner? = some runnerId := by
        rcases authorize_ok hop with ⟨runnerId', hid, hown | ⟨-, hpush⟩⟩ | ⟨hnone, -⟩
        · rw [hrunner] at hid
          exact hown.trans hid.symm
        · rw [noPush] at hpush
          cases hpush
        · rw [hrunner] at hnone
          cases hnone
      have hframe : ∀ taskId,
          (∀ row, s.db.task? taskId = some row →
            ∃ row', (perform app.service m op s.db).task? taskId = some row' ∧
              RunnerKept m.now runnerId row row') ∧
          (s.db.task? taskId = none → (perform app.service m op s.db).task? taskId = none) :=
        fun taskId => perform_runner hop' taskId
      refine ⟨fun taskId row hrow => ?_, fun taskId row' hnone hrow' => ?_,
        fun _ taskId row row' hrow hrow' hstate => ?_, fun _ _ => rfl⟩
      · obtain ⟨row', hrow', hkept⟩ := (hframe taskId).1 row hrow
        refine ⟨row', hrow', ?_⟩
        rcases hkept.became with hsame | ⟨hown, -⟩ | hstale
        · exact .inl hsame
        · exact .inr (.inl ⟨rfl, hown⟩)
        · exact .inr (.inr (.inl hstale))
      · have hstays := (hframe taskId).2 hnone
        rw [hstays] at hrow'
        cases hrow'
      · obtain ⟨kept, hkeptRow, hkept⟩ := (hframe taskId).1 row hrow
        obtain rfl : kept = row' := Option.some.inj (hkeptRow.symm.trans hrow')
        exact hkept.decided hstate
  | pushStatus named status =>
    unfold ControlApp.handle
    dsimp only
    cases hput : app.putStatus m identity named status s with
    | error _ => exact .refl ..
    | ok pushed =>
      obtain ⟨hid, hdb, hstatus⟩ := ControlApp.putStatus_ok hput
      obtain rfl : runnerId = named := Option.some.inj (hrunner.symm.trans hid)
      dsimp only
      rw [hdb]
      refine ⟨fun taskId row hrow => ?_, fun taskId row' hnone hrow' => ?_, fun hpush => ?_, hstatus⟩
      · obtain ⟨row', hrow', hkept⟩ := (tick_frame h taskId).1 row hrow
        refine ⟨row', hrow', ?_⟩
        rcases hkept with hsame | howned
        · exact .inl hsame
        · exact .inr (.inr (.inr ⟨rfl, howned⟩))
      · exact ⟨rfl, (tick_frame h taskId).2 row' hnone hrow'⟩
      · cases hpush

/-- **A request with an operator's or a user's token.** -/
theorem ControlApp.handle_person (hnone : identity.runnerId = none) :
    PersonFrame s (app.handle m identity s req) := by
  cases req with
  | other => exact .refl s
  | tasks request noPush =>
    unfold ControlApp.handle AppEvent.apply
    dsimp only
    cases hop : authorize app.service identity request with
    | error _ => exact .refl s
    | ok op =>
      rcases authorize_ok hop with ⟨runnerId, hid, -⟩ | ⟨-, hpersons⟩
      · rw [hnone] at hid
        cases hid
      · exact ⟨fun taskId row' hrow' hstate => perform_person hpersons hrow' hstate, rfl⟩
  | pushStatus named status =>
    unfold ControlApp.handle
    dsimp only
    cases hput : app.putStatus m identity named status s with
    | error _ => exact .refl s
    | ok pushed =>
      have hid := (ControlApp.putStatus_ok hput).1
      rw [hnone] at hid
      cases hid

/-- **One event keeps the canaries the scheduler's.** -/
theorem ApiEvent.canariesOwn {e : ApiEvent} (h : CanariesOwn app.service s.db)
    (hkeeps : e.KeepsOffCanaryIds app s) : CanariesOwn app.service (e.apply app s).db := by
  have htick : ∀ {db m}, CanariesOwn app.service db →
      CanariesOwn app.service (perform app.service m .tick db) :=
    fun h => h.perform fun _ _ _ _ _ hop => by cases hop
  cases e with
  | startup m => exact htick (h.perform fun _ _ _ _ _ hop => by cases hop)
  | request m authorization req =>
    unfold ApiEvent.apply
    dsimp only
    split
    · next identity hidentity =>
      cases req with
      | other => exact h
      | tasks request noPush =>
        unfold ControlApp.handle AppEvent.apply
        dsimp only
        cases hop : authorize app.service identity request with
        | error _ => exact h
        | ok op =>
          refine h.perform fun envelope actor key login bypass hsubmit => ?_
          subst hsubmit
          obtain ⟨rfl, -⟩ := authorize_submit hop
          exact hkeeps
      | pushStatus named status =>
        unfold ControlApp.handle
        dsimp only
        cases hput : app.putStatus m identity named status s with
        | error _ => exact h
        | ok pushed =>
          dsimp only
          rw [(ControlApp.putStatus_ok hput).2.1]
          exact htick h
    · exact h

end Requests

/-! ## Requests of a run -/

/-- **What requests leave alone.** In every run that stores no submission under a
canary's task id, each further request stands for a record of the tokens file.
With a runner's record, only rows of that runner change, stale claims and the
tick's canaries apart, and no status but the runner's; the tick apart, it
creates, holds, approves, rejects and cancels nothing. With another record, no
task gets to `claimed`, `accepted`, `completed` or `failed`. -/
theorem requests_framed {app : ControlApp} {records : List TokenRecord}
    (hload : TokenStore.load records = .ok app.tokens) {es : List ApiEvent} {s : ApiState}
    (hrun : Run (fun s e s' => e.KeepsOffCanaryIds app s ∧ e.Step app s s') .empty es s)
    (m : Moment) {authorization : Option String} (req : ApiRequest) {identity : AuthIdentity}
    (hauth : TokenStore.authenticate app.hashToken app.tokens authorization = .ok identity) :
    ∃ token, authorization = some (TokenStore.bearer ++ token) ∧
      ∃ r ∈ records, r.tokenHash = app.hashToken token ∧
        (∀ runnerId, r.role = "runner" → r.runnerId = some runnerId →
          RunnerFrame app.service m.now runnerId req s
            ((ApiEvent.request m authorization req).apply app s)) ∧
        (r.role ≠ "runner" → PersonFrame s ((ApiEvent.request m authorization req).apply app s)) := by
  have hown : CanariesOwn app.service s.db := by
    refine hrun.invariant (fun s => CanariesOwn app.service s.db) (.empty app.service) ?_
    rintro a e _ ⟨hkeeps, rfl⟩ ih
    exact ApiEvent.canariesOwn ih hkeeps
  have happly : (ApiEvent.request m authorization req).apply app s = app.handle m identity s req := by
    simp only [ApiEvent.apply, hauth]
  obtain ⟨token, hheader, r, hr, hhash, hidentity⟩ := TokenStore.authenticate_ok hload hauth
  refine ⟨token, hheader, r, hr, hhash, fun runnerId _ hrunner => ?_, fun hperson => ?_⟩
  · rw [happly]
    exact ControlApp.handle_runner hown ((TokenRecord.identity_runner hidentity).trans hrunner)
  · rw [happly]
    exact ControlApp.handle_person
      ((TokenRecord.identity_runner hidentity).trans (TokenRecord.runnerId_of_person hidentity hperson))

namespace SmallDeployment

/-- A digest of sixty-four characters, of one-letter tokens. -/
def digest (token : String) : String := String.ofList (List.replicate 63 '0') ++ token

/-- The records of an operator and of the second runner. -/
def tokenRecords : List TokenRecord :=
  [⟨digest "a", "operator", "ops", none, none⟩,
    ⟨digest "b", "runner", "runner-2", some "runner-2", none⟩]

/-- What the records stand for. -/
def tokens : TokenStore :=
  ⟨[⟨digest "a", .operator "ops"⟩, ⟨digest "b", .runner "runner-2" "runner-2" (by decide)⟩],
    by decide⟩

theorem load_tokenRecords : TokenStore.load tokenRecords = .ok tokens := by rfl

def canariedApp : ControlApp := ⟨canaried, tokens, digest, fun _ => true⟩

/-- The operator's submission of a manual task for the first runner. -/
def postManual (n : ℕ) (taskId : String) : ApiEvent :=
  .request (moment n) (some "Bearer a") (.tasks (.submitTask (envelope taskId .manual) none false) rfl)

/-- The second runner's status. -/
def secondStatus : ApiRequest :=
  .pushStatus "runner-2" [("timestamp", .str "2026-01-01T00:00:00Z"), ("runner_id", .str "runner-2")]

def pushSecond (n : ℕ) : ApiEvent := .request (moment n) (some "Bearer b") secondStatus

end SmallDeployment

namespace SmallDeployment

/-- A manual task of the first runner under an id, and then a status push. -/
def postedAndPushed (taskId : String) : ApiState :=
  [postManual 0 taskId, pushSecond 1].foldl (ApiEvent.apply canariedApp) .empty

theorem second_authenticates : TokenStore.authenticate canariedApp.hashToken canariedApp.tokens
    (some "Bearer b") = .ok (.runner "runner-2" "runner-2" (by decide)) := by rfl

end SmallDeployment

open SmallDeployment in
/-- A status push while a task of another runner waits. -/
theorem requests_framed_push :
    ∃ token, some "Bearer b" = some (TokenStore.bearer ++ token) ∧
      ∃ r ∈ tokenRecords, r.tokenHash = digest token ∧
        (∀ runnerId, r.role = "runner" → r.runnerId = some runnerId →
          RunnerFrame canaried (moment 2).now runnerId secondStatus (postedAndPushed "t1")
            ((pushSecond 2).apply canariedApp (postedAndPushed "t1"))) ∧
        (r.role ≠ "runner" → PersonFrame (postedAndPushed "t1")
          ((pushSecond 2).apply canariedApp (postedAndPushed "t1"))) := by
  have hkeeps : (postManual 0 "t1").KeepsOffCanaryIds canariedApp .empty := by
    intro hcanary
    have hhead : some 't' = some 'c' := hcanary.head
    cases hhead
  have hrun := Run.of_guarded (ApiEvent.apply canariedApp)
    (fun s e => e.KeepsOffCanaryIds canariedApp s) [postManual 0 "t1", pushSecond 1] .empty
    ⟨hkeeps, trivial, trivial⟩
  exact requests_framed load_tokenRecords hrun (moment 2) secondStatus second_authenticates

open SmallDeployment in
/-- A manual task of the first runner, submitted under the id of the runner's
canary: the next tick enters it in the schedule, and the first one past the
canary's deadline cancels it, in a request of the second runner. -/
theorem squatted_task_cancelled :
    ¬ ∀ (app : ControlApp) (records : List TokenRecord) (es : List ApiEvent) (s : ApiState)
      (m : Moment) (authorization : Option String) (req : ApiRequest) (identity : AuthIdentity),
      TokenStore.load records = .ok app.tokens → Run (fun s e s' => e.Step app s s') .empty es s →
      TokenStore.authenticate app.hashToken app.tokens authorization = .ok identity →
      ∀ runnerId, identity.runnerId = some runnerId →
        RunnerFrame app.service m.now runnerId req s
          ((ApiEvent.request m authorization req).apply app s) := by
  intro h
  have hrun : Run (fun s e s' => e.Step canariedApp s s') .empty
      [postManual 0 "canary:runner-1:standard:2026-01-01", pushSecond 1]
      (postedAndPushed "canary:runner-1:standard:2026-01-01") := Run.of_fun _ _ _
  have hframe := h _ _ _ _ (moment 43200) _ secondStatus _ load_tokenRecords hrun
    second_authenticates "runner-2" rfl
  have hbefore : ∃ row, (postedAndPushed "canary:runner-1:standard:2026-01-01").db.task?
      "canary:runner-1:standard:2026-01-01" = some row ∧ row.state = .queued ∧
        row.runnerId = "runner-1" := by
    refine ⟨_, rfl, by rfl, by rfl⟩
  have hafter : (((pushSecond 43200).apply canariedApp (postedAndPushed
      "canary:runner-1:standard:2026-01-01")).db.task?
        "canary:runner-1:standard:2026-01-01").map TaskRow.state = some .cancelled := by
    decide +kernel
  obtain ⟨row, hrow, hqueued, hrunner⟩ := hbefore
  obtain ⟨row', hrow', hchange⟩ := hframe.rows _ row hrow
  have hcancelled : row'.state = .cancelled := by
    have hfound : ((pushSecond 43200).apply canariedApp (postedAndPushed
      "canary:runner-1:standard:2026-01-01")).db.task?
        "canary:runner-1:standard:2026-01-01" = some row' := hrow'
    rw [hfound] at hafter
    exact Option.some.inj hafter
  rcases hchange with rfl | ⟨hpush, -⟩ | ⟨hstale, -⟩ | ⟨-, hcreated, -⟩
  · rw [hqueued] at hcancelled
    cases hcancelled
  · cases hpush
  · have hclaimed := ControlService.isStale_claimed hstale
    rw [hqueued] at hclaimed
    cases hclaimed
  · obtain ⟨-, hid⟩ := Database.task?_eq_some_iff.mp hrow
    rw [hid] at hcreated
    revert hcreated
    unfold CreatedByScheduler
    decide +kernel

end Conductress
