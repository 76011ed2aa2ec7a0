import Conductress.Control.Lifecycle

/-!
# The HTTP API

Which identity may ask for which operation. A token's identity carries what
its role requires (a runner its runner id, a user a non-empty login), so an
identity the token store would refuse cannot be built. `authorize` maps a
request to the operation it performs; `AppStep` is a step of the deployed
service, a start included.
-/

namespace Conductress

open Lib

/-! ## Identities -/

/-- What a bearer token stands for. -/
inductive AuthIdentity where
  | operator (label : String)
  | runner (label runnerId : String) (hasRunner : runnerId ≠ "")
  | user (label login : String) (hasLogin : login ≠ "")

namespace AuthIdentity

/-- `_actor(identity)`. -/
def actor : AuthIdentity → String
  | operator label => "operator:" ++ label
  | runner label _ _ => "runner:" ++ label
  | user label _ _ => "user:" ++ label

def login : AuthIdentity → Option String
  | user _ login _ => some login
  | _ => none

/-- The directory entry of a user token. -/
def directoryUser (svc : ControlService) (identity : AuthIdentity) : Option User :=
  match svc.userDirectory, identity.login with
  | some directory, some login => directory.get login
  | _, _ => none

/-- `_is_owner`. -/
def isOwner (svc : ControlService) : AuthIdentity → Bool
  | operator _ => true
  | identity => (identity.directoryUser svc).any User.isOwner

/-- The test of `_require_approver`. -/
def isApprover (svc : ControlService) : AuthIdentity → Bool
  | operator _ => true
  | identity => (identity.directoryUser svc).any User.isApprover

/-- The test of `_require_submitter`. -/
def isSubmitter : AuthIdentity → Bool
  | operator _ | user .. => true
  | runner .. => false

end AuthIdentity

/-! ## Requests -/

/-- The requests that write the tasks table. A status push carries whether its
document passes validation; only then is the canary schedule evaluated. -/
inductive Request where
  | submitTask (envelope : TaskEnvelope) (idempotencyKey : Option String) (bypassProvenance : Bool)
  | approveTasks (selector : String)
  | rejectTasks (selector : String)
  | cancelTask (selector : String)
  | claimTask (runnerId : String)
  | acceptTask (taskId : String) (claimToken : Option ClaimToken)
  | recordOutcome (expectedState : Terminal) (taskId : String) (outcome : TaskOutcome)
  | pushStatus (runnerId : String) (valid : Bool)

/-- `_require_runner`: the runner id of a runner token, scoped when a runner is named. -/
def requireRunner (identity : AuthIdentity) (scope : Option String) : Except ControlError String :=
  match identity with
  | .runner _ runnerId _ =>
    if scope.all fun r => decide (r = runnerId) then .ok runnerId
    else .error ⟨.runnerScopeMismatch, "runner token is scoped to another runner"⟩
  | _ => .error ⟨.runnerRequired, "runner token required"⟩

/-- The operation a request asks for, when its sender may. -/
def authorize (svc : ControlService) (identity : AuthIdentity) : Request →
    Except ControlError Operation
  | .submitTask envelope idempotencyKey bypassProvenance => do
    check identity.isSubmitter .submitterRequired "operator or user token required"
    return .submit envelope identity.actor idempotencyKey identity.login bypassProvenance
  | .approveTasks selector => do
    check (identity.isApprover svc) .approverRequired "approver token required"
    return .approve selector identity.actor
  | .rejectTasks selector => do
    check (identity.isApprover svc) .approverRequired "approver token required"
    return .reject selector identity.actor
  | .cancelTask selector => do
    check identity.isSubmitter .submitterRequired "operator or user token required"
    return .cancel selector identity.actor identity.login (identity.isOwner svc)
  | .claimTask runnerId => do
    let runnerId ← requireRunner identity (some runnerId)
    return .claim runnerId identity.actor
  | .acceptTask taskId claimToken => do
    let runnerId ← requireRunner identity none
    match claimToken with
    | some token => return .accept runnerId taskId token identity.actor
    | none => .error ⟨.claimTokenRequired, "claim_token is required"⟩
  | .recordOutcome expectedState taskId outcome => do
    let runnerId ← requireRunner identity none
    check (decide (outcome.state = expectedState)) .outcomeStateInvalid
      "outcome state must match the request"
    return .recordOutcome runnerId taskId outcome identity.actor
  | .pushStatus runnerId valid => do
    let runnerId ← requireRunner identity (some runnerId)
    let _ ← svc.registry.getRunner runnerId
    check valid .schemaInvalid "invalid runner status"
    return .tick

/-- `_submit_task`: the handler of a submission, with the service's answer. -/
def postTask (svc : ControlService) (m : Moment) (identity : AuthIdentity) (envelope : TaskEnvelope)
    (idempotencyKey : Option String) (bypassProvenance : Bool) (db : Database) :
    Except ControlError (Database × TaskRow × Bool) := do
  check identity.isSubmitter .submitterRequired "operator or user token required"
  svc.submitTask m envelope identity.actor idempotencyKey identity.login bypassProvenance db

/-! ## The deployed service -/

/-- A request with its sender, or a start of the service. -/
inductive AppEvent where
  | request (m : Moment) (identity : AuthIdentity) (request : Request)
  | startup (m : Moment)

/-- The database after an event. -/
def AppEvent.apply (svc : ControlService) (db : Database) : AppEvent → Database
  | .request m identity req =>
    match authorize svc identity req with
    | .ok op => perform svc m op db
    | .error _ => db
  | .startup m => perform svc m .tick (perform svc m (.expireStaleClaims "system:startup") db)

def AppStep (svc : ControlService) (db : Database) (e : AppEvent) (db' : Database) : Prop :=
  db' = e.apply svc db

/-- The handler stores what the authorised operation stores. -/
theorem postTask_apply {svc : ControlService} {m : Moment} {identity : AuthIdentity}
    {envelope : TaskEnvelope} {key : Option String} {bypass : Bool} {db db' : Database}
    {answer : TaskRow × Bool} (h : postTask svc m identity envelope key bypass db = .ok (db', answer)) :
    db' = (AppEvent.request m identity (.submitTask envelope key bypass)).apply svc db := by
  obtain ⟨_, hsubmitter, h⟩ := except_bind_ok.mp h
  have hop : authorize svc identity (.submitTask envelope key bypass) =
      .ok (.submit envelope identity.actor key identity.login bypass) := by
    simp [authorize, hsubmitter, bind, Except.bind, pure, Except.pure]
  simp [AppEvent.apply, hop, perform, h, committed]

/-- The changes behind an event: those of the operation its sender may ask
for, and those of a start. -/
theorem AppEvent.apply_changes (svc : ControlService) (db : Database) (e : AppEvent) :
    ∃ cs, Run Change.Step db cs (e.apply svc db) ∧
      ∀ c ∈ cs, ∃ m op, op.Permits svc m c ∧
        ((∃ identity req, e = .request m identity req ∧ authorize svc identity req = .ok op) ∨
          op = .tick ∨ ∃ actor, op = .expireStaleClaims actor) := by
  cases e with
  | request m identity req =>
    dsimp only [AppEvent.apply]
    cases hop : authorize svc identity req with
    | error _ => exact ⟨[], .refl db, by simp⟩
    | ok op =>
      obtain ⟨cs, hrun, hcs⟩ := perform_changes svc m op db
      exact ⟨cs, hrun, fun c hc => ⟨m, op, hcs c hc, .inl ⟨identity, req, rfl, hop⟩⟩⟩
  | startup m =>
    obtain ⟨cs, hrun, hcs⟩ := perform_changes svc m (.expireStaleClaims "system:startup") db
    obtain ⟨ds, hrun', hds⟩ := perform_changes svc m .tick
      (perform svc m (.expireStaleClaims "system:startup") db)
    refine ⟨cs ++ ds, hrun.append hrun', fun c hc => ?_⟩
    rcases List.mem_append.mp hc with hc | hc
    · exact ⟨m, _, hcs c hc, .inr (.inr ⟨_, rfl⟩)⟩
    · exact ⟨m, _, hds c hc, .inr (.inl rfl)⟩

end Conductress
