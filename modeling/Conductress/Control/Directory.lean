import Conductress.Lib.Table
import Conductress.Control.Schema

/-!
# Errors, the user directory and the fleet registry

The configuration the service reads at start and never writes: who may submit
and approve, and which runners exist.
-/

namespace Conductress

open Lib

/-! ## Errors -/

/-- The stable error codes of the control API. -/
inductive ErrorCode where
  | schemaInvalid
  | runnerNotFound
  | runnerDisabled
  | provenanceRejected
  | idempotencyConflict
  | taskNotFound
  | pendingNotFound
  | runnerHasAcceptedTask
  | wrongRunner
  | claimTokenInvalid
  | taskNotClaimed
  | claimExpired
  | outcomeIdentityMismatch
  | outcomeConflict
  | taskNotAccepted
  | operatorRequired
  | submitterRequired
  | approverRequired
  | runnerRequired
  | runnerScopeMismatch
  | runnerIdRequired
  | claimTokenRequired
  | outcomeStateInvalid
  | bodyTooLarge
  | internalError
  deriving DecidableEq, Repr

namespace ErrorCode

/-- The HTTP status a code is answered with. -/
def status : ErrorCode → ℕ
  | runnerNotFound | taskNotFound | pendingNotFound => 404
  | runnerDisabled | idempotencyConflict | runnerHasAcceptedTask | wrongRunner
  | claimTokenInvalid | taskNotClaimed | claimExpired | outcomeConflict
  | taskNotAccepted => 409
  | provenanceRejected | operatorRequired | submitterRequired | approverRequired
  | runnerRequired | runnerScopeMismatch | runnerIdRequired => 403
  | schemaInvalid | outcomeIdentityMismatch | claimTokenRequired | outcomeStateInvalid => 400
  | bodyTooLarge => 413
  | internalError => 500

/-- The code as it stands in an error response. -/
def text : ErrorCode → String
  | schemaInvalid => "SCHEMA_INVALID"
  | runnerNotFound => "RUNNER_NOT_FOUND"
  | runnerDisabled => "RUNNER_DISABLED"
  | provenanceRejected => "PROVENANCE_REJECTED"
  | idempotencyConflict => "IDEMPOTENCY_CONFLICT"
  | taskNotFound => "TASK_NOT_FOUND"
  | pendingNotFound => "PENDING_NOT_FOUND"
  | runnerHasAcceptedTask => "RUNNER_HAS_ACCEPTED_TASK"
  | wrongRunner => "WRONG_RUNNER"
  | claimTokenInvalid => "CLAIM_TOKEN_INVALID"
  | taskNotClaimed => "TASK_NOT_CLAIMED"
  | claimExpired => "CLAIM_EXPIRED"
  | outcomeIdentityMismatch => "OUTCOME_IDENTITY_MISMATCH"
  | outcomeConflict => "OUTCOME_CONFLICT"
  | taskNotAccepted => "TASK_NOT_ACCEPTED"
  | operatorRequired => "OPERATOR_REQUIRED"
  | submitterRequired => "SUBMITTER_REQUIRED"
  | approverRequired => "APPROVER_REQUIRED"
  | runnerRequired => "RUNNER_REQUIRED"
  | runnerScopeMismatch => "RUNNER_SCOPE_MISMATCH"
  | runnerIdRequired => "RUNNER_ID_REQUIRED"
  | claimTokenRequired => "CLAIM_TOKEN_REQUIRED"
  | outcomeStateInvalid => "OUTCOME_STATE_INVALID"
  | bodyTooLarge => "BODY_TOO_LARGE"
  | internalError => "INTERNAL_ERROR"

end ErrorCode

/-- A `ControlError`: a stable code and a message for people. -/
structure ControlError where
  code    : ErrorCode
  message : String
  deriving DecidableEq, Repr

/-- What the error middleware makes of any other exception. -/
def ControlError.internal : ControlError := ⟨.internalError, "internal server error"⟩

/-! ## Users -/

inductive UserRole where
  | owner | collaborator | approver
  deriving DecidableEq, Repr

/-- One entry in the user directory. -/
structure User where
  login   : String
  github  : String
  isAgent : Bool
  role    : UserRole
  quotaRunnerMinutesPerDay : ℕ
  sources : List String
  sponsor : Option String
  deriving DecidableEq, Repr

def User.isOwner (u : User) : Bool := decide (u.role = .owner)

/-- Owners are implicitly approvers. -/
def User.isApprover (u : User) : Bool := decide (u.role = .approver ∨ u.role = .owner)

/-- All users keyed by login. -/
structure UserDirectory where
  users : Table User.login

namespace UserDirectory

def get (d : UserDirectory) (login : String) : Option User := d.users.find? login

def require (d : UserDirectory) (login : String) : Except PyError User :=
  match d.get login with
  | some user => .ok user
  | none => .error (.keyError ("unknown user login: " ++ login))

/-- The GitHub account a login's runner-minutes are charged to. -/
def quotaAccount (d : UserDirectory) (login : String) : Except PyError String :=
  (d.require login).map User.github

/-- The daily runner-minute quota of a login. -/
def quotaMinutes (d : UserDirectory) (login : String) : Except PyError ℕ :=
  (d.require login).map User.quotaRunnerMinutesPerDay

theorem require_of_mem {d : UserDirectory} {u : User} (hu : u ∈ d.users) :
    d.require u.login = .ok u := by
  simp [require, get, Table.find?_key hu]

theorem mem_of_get {d : UserDirectory} {login : String} {u : User}
    (h : d.get login = some u) : u ∈ d.users ∧ u.login = login :=
  Table.find?_eq_some_iff.mp h

end UserDirectory

/-! ## Runners -/

/-- One entry of the fleet manifest. -/
structure RunnerEntry where
  runnerId      : String
  enabled       : Bool
  canaryProfile : Option String
  deriving DecidableEq, Repr

/-- The fleet manifest. -/
structure FleetRegistry where
  runners : Table RunnerEntry.runnerId

namespace FleetRegistry

/-- `get_runner(runner_id)`, with the runner required to be enabled. -/
def getRunner (r : FleetRegistry) (runnerId : String) : Except ControlError RunnerEntry :=
  match r.runners.find? runnerId with
  | none => .error ⟨.runnerNotFound, "unknown runner: " ++ runnerId⟩
  | some runner =>
    if runner.enabled then .ok runner
    else .error ⟨.runnerDisabled, "runner is disabled: " ++ runnerId⟩

/-- `list_runners(enabled_only=True)`. -/
def enabledRunners (r : FleetRegistry) : List RunnerEntry := r.runners.rows.filter (·.enabled)

end FleetRegistry

end Conductress
