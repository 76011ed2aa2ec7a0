import Conductress.Control.Database
import Conductress.Control.Directory

/-!
# Admission: provenance, duration estimates, quota and approval

What `submit_task` consults before it stores a row: the provenance gate, the
estimate of a task's runner time, the usage already charged to an account
today, and the approval decision built from them.
-/

namespace Conductress

open Lib

/-! ## Provenance -/

/-- The reachability queries the gate asks GitHub; either may fail. -/
structure GitHubLookup where
  commitInRepo : String → String → Except PyError Bool
  openPullRequestForHead : String → Except PyError (Option PullRequest)

/-- What the outside supplies to one operation: the clock, the next random
token and GitHub's answers. -/
structure Moment where
  now    : Instant
  token  : ClaimToken
  github : GitHubLookup

structure ProvenanceVerdict where
  accepted    : Bool
  reason      : String
  pullRequest : Option PullRequest
  deriving DecidableEq, Repr

/-- The provenance gate; `verifies` says whether it was given a lookup. -/
structure ProvenanceGate where
  verifies     : Bool
  allowlist    : List String
  upstreamRepo : String

/-- The fork repositories a user's own account is trusted to supply. -/
def forkRepos (user : User) : List String :=
  let repos := user.sources.map fun source =>
    if source.toList.contains '/' then source else user.github ++ "/valkey"
  if repos.isEmpty then [user.github ++ "/valkey"] else repos.dedup

namespace ProvenanceGate

def withExtraRepos (gate : ProvenanceGate) (repos : List String) : ProvenanceGate :=
  { gate with allowlist := gate.allowlist ++ repos }

/-- Decide whether a submission's provenance is acceptable. -/
def evaluate (gate : ProvenanceGate) (github : GitHubLookup) (provenance : Option Provenance)
    (ownerBypass : Bool) : Except PyError ProvenanceVerdict := do
  if ownerBypass then return ⟨true, "owner bypass", none⟩
  match provenance with
  | none => return ⟨false, "provenance is required", none⟩
  | some p =>
    if p.repo = "" ∨ p.sha = "" then
      return ⟨false, "provenance must name repo and sha", none⟩
    if !gate.verifies then
      return ⟨false, "provenance verification is unavailable", none⟩
    let allowed := decide (p.repo ∈ gate.allowlist)
    let reachable ← if allowed then github.commitInRepo p.repo p.sha else pure false
    if reachable then
      return ⟨true, "reachable from allowlisted repo " ++ p.repo, none⟩
    match ← github.openPullRequestForHead p.sha with
    | some pr => return ⟨true, "head of an open upstream pull request", some pr⟩
    | none =>
      if allowed then
        return ⟨false, "sha " ++ p.sha ++ " is not reachable from " ++ p.repo ++
          " and is not an open upstream pull request head", none⟩
      return ⟨false, "repo " ++ p.repo ++
        " is not allowlisted and sha is not an open upstream pull request head", none⟩

end ProvenanceGate

/-! ## Duration estimates -/

namespace DurationEstimator

def defaultTaskDurationSeconds : Int := 300

/-- `int(document.get(key) or default)`. -/
def intField (task : Fields) (key : String) (default : Int) : Except PyError Int :=
  ((Json.getD task key).orElse (.int default)).pyInt

/-- The `perf_stat_enabled` surcharge. -/
def perfStatSeconds (task : Fields) : Int :=
  if (Json.getD task "perf_stat_enabled").truthy then 45 else 0

/-- The repetitions a perf task is charged for: adaptive runs get two more. -/
def perfRepetitions (task : Fields) (repetitions : Int) : Except PyError Int := do
  let maxReps := max 0 (← intField task "max_reps" 0)
  if repetitions < maxReps then
    let targetCv ← ((Json.getD task "target_cv").orElse (.int 0)).pyFloat
    if targetCv.isPositive then return min maxReps (repetitions + 2)
  return repetitions

/-- The uncalibrated estimate of a task body's wall-clock seconds. -/
def shapeSeconds (task : Fields) : Except PyError Int := do
  let taskType := Json.getD task "task_type"
  let repetitions := max 1 (← intField task "repetitions" 1)
  let warmup := max 0 (← intField task "warmup" 0)
  let duration := max 0 (← intField task "duration" 0)
  if taskType = .str "PerfTaskData" ∨ taskType = .str "CanaryPerfTaskData" then
    let repetitions ← perfRepetitions task repetitions
    return 60 + repetitions * (warmup + duration + 18) + perfStatSeconds task
  else if taskType = .str "BoundedInsertionTaskData" then
    let insertions := max 1 (← intField task "insertions" 1)
    let fillSeconds := (insertions + 499999) / 500000
    return 60 + repetitions * (fillSeconds + 18) + perfStatSeconds task
  else if taskType = .str "CachecannonTaskData" then
    return 90 + repetitions * (warmup + duration + 15)
  else if taskType = .str "ScenarioTaskData" then
    return 180 + repetitions * (2 * (warmup + duration) + 20)
  else if taskType = .str "MemTaskData" then
    let sizes ← ((Json.getD task "val_sizes").orElse (.arr [.int 0])).pyLen
    return 180 + sizes * (120 + if (Json.getD task "settle").truthy then 90 else 0)
  else return defaultTaskDurationSeconds

/-- `estimate_task_duration_seconds(task)` without host calibration: the
product with the factor 1.0 goes through a double. -/
def estimate (task : Fields) : Except PyError Int := do
  return max 60 (← PyFloat.ofInt (← shapeSeconds task))

end DurationEstimator

/-! ## Quota -/

/-- Is the row counted against an account's budget of `day`? -/
def chargedRow (logins : List String) (day : ℕ) (row : TaskRow) : Bool :=
  (match row.submitterLogin with
    | some login => decide (login ∈ logins)
    | none => false) &&
  decide (row.state ≠ .cancelled ∧ row.state ≠ .failed) && decide (dayOf row.createdAt = day)

/-- The seconds already charged: a float accumulated row by row. -/
def usedSeconds (rows : List TaskRow) : Except PyError Int :=
  rows.foldlM (fun used row => do
    return PyFloat.roundInt (used + (← DurationEstimator.estimate row.envelope.task))) 0

/-- `_over_quota`: would adding a task exceed the account's daily quota? A
quota of zero means unlimited. -/
def overQuota (directory : UserDirectory) (db : Database) (now : Instant) (submitter : User)
    (additionalSeconds : Int) : Except PyError Bool := do
  let quotaMinutes ← directory.quotaMinutes submitter.login
  if quotaMinutes = 0 then return false
  let account ← directory.quotaAccount submitter.login
  let logins := (directory.users.rows.filter fun u => decide (u.github = account)).map User.login
  let used ← usedSeconds (db.tasks.rows.filter (chargedRow logins (dayOf now)))
  return decide ((quotaMinutes : Int) * 60 < PyFloat.roundInt (used + additionalSeconds))

/-- The login a submission presents: the token's, else the envelope's. -/
def presentedLogin (envelope : TaskEnvelope) (identityLogin : Option String) : Option String :=
  match identityLogin with
  | some login => some login
  | none => envelope.submitter.get.map Submitter.login

/-- `_resolve_submitter`: the directory user a submission is charged to. -/
def resolveSubmitter (userDirectory : Option UserDirectory) (envelope : TaskEnvelope)
    (identityLogin : Option String) : Option User :=
  match userDirectory with
  | none => none
  | some directory =>
    match presentedLogin envelope identityLogin with
    | none => none
    | some login => if login = "" then none else directory.get login

/-- `_approval_decision`: the initial state and an optional reason. -/
def approvalDecision (userDirectory : Option UserDirectory) (db : Database) (now : Instant)
    (envelope : TaskEnvelope) (submitter : Option User) (identityLogin : Option String) :
    Except PyError (TaskState × Option String) := do
  -- canary and sweep classes are taken to be generated by the system
  if envelope.taskClass = .canary ∨ envelope.taskClass = .sweep then return (.queued, none)
  match userDirectory with
  | none => return (.queued, none)
  | some directory =>
    match presentedLogin envelope identityLogin with
    | none => return (.queued, none)
    | some _ =>
      match submitter with
      | none => return (.pendingApproval, some "submitter is not a known user")
      | some user =>
        let estimated ← DurationEstimator.estimate envelope.task
        if ← overQuota directory db now user estimated then
          return (.pendingApproval, some "submitter is over the daily runner-minute quota")
        return (.queued, none)

end Conductress
