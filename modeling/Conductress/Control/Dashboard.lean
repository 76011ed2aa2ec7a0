import Conductress.Control.Idempotency

/-!
# Estimates of stored bodies: the public dashboard and the quota check

The task body of an envelope is open, and the duration estimator converts
several of its fields with `int` and `float`. Both readers of stored bodies,
`dashboard_status` and the quota check, let its exceptions through, and a
submission stores a body without an estimate whenever the approval decision
returns early.

* `Convertible` — the bodies the estimator does not raise on (`estimate_ok_iff`);
* `dashboardStatus_ok_iff`, `approvalDecision_ok_iff` — each reader returns
  exactly when the bodies it reads are convertible;
* `readers_return` — in every run that stores convertible bodies both return;
* `stored_body_raises` — a body that makes the dashboard raise, and one that
  makes the submissions of the same account raise.
-/

namespace Conductress

open Lib

/-! ## What the estimator converts -/

namespace PyFloat

theorem ofInt_ok_iff {n : Int} : (∃ m, ofInt n = .ok m) ↔ n.natAbs < overflowAt := by
  unfold ofInt
  by_cases hlarge : overflowAt ≤ n.natAbs
  · simp [hlarge]
  · have hfits : n.natAbs < overflowAt := by omega
    simp [hlarge, hfits]

theorem ofInt_zero : ofInt 0 = .ok 0 := by
  have hsmall : ¬ overflowAt ≤ (0 : Int).natAbs := by
    have := overflowAt_pos
    simp only [Int.natAbs_zero]
    omega
  rw [ofInt, if_neg hsmall]
  rfl

end PyFloat

namespace Json

/-- `int(value or default)` does not raise. -/
def readsInt : Json → Bool
  | .null | .bool _ | .int _ | .float (.finite _) => true
  | .float _ => false
  | .str s => decide (s = "") || (PyText.parseInt s).isSome
  | .arr items => items.isEmpty
  | .obj fields => fields.isEmpty

/-- `float(value or default)` does not raise. -/
def readsFloat : Json → Bool
  | .null | .bool _ | .float _ => true
  | .int n => decide (n.natAbs < PyFloat.overflowAt)
  | .str s => decide (s = "") || (PyText.parseFloat s).isSome
  | .arr items => items.isEmpty
  | .obj fields => fields.isEmpty

/-- `len(value or default)` does not raise: a value of no length is falsy. -/
def readsLen : Json → Bool
  | .null | .str _ | .arr _ | .obj _ => true
  | value => !value.truthy

theorem pyInt_orElse_ok {v : Json} {n : Int} :
    (∃ m, (v.orElse (.int n)).pyInt = .ok m) ↔ v.readsInt = true := by
  cases v with
  | null => simp [orElse, truthy, pyInt, readsInt]
  | bool b => cases b <;> simp [orElse, truthy, pyInt, readsInt]
  | int k => by_cases hk : k = 0 <;> simp [orElse, truthy, pyInt, readsInt, hk]
  | float f =>
    cases f with
    | finite q => by_cases hq : q = 0 <;> simp [orElse, truthy, pyInt, readsInt, hq]
    | inf _ => simp [orElse, truthy, pyInt, readsInt]
    | nan => simp [orElse, truthy, pyInt, readsInt]
  | str s =>
    by_cases hs : s = ""
    · simp [orElse, truthy, pyInt, readsInt, hs]
    · cases hparse : PyText.parseInt s <;> simp [orElse, truthy, pyInt, readsInt, hs, hparse]
  | arr items => cases items <;> simp [orElse, truthy, pyInt, readsInt]
  | obj fields => cases fields <;> simp [orElse, truthy, pyInt, readsInt]

theorem pyFloat_orElse_ok {v : Json} :
    (∃ f, (v.orElse (.int 0)).pyFloat = .ok f) ↔ v.readsFloat = true := by
  have hzero := PyFloat.ofInt_zero
  cases v with
  | null => simp [orElse, truthy, pyFloat, readsFloat, hzero, Except.map]
  | bool b => cases b <;> simp [orElse, truthy, pyFloat, readsFloat, hzero, Except.map]
  | int k =>
    by_cases hk : k = 0
    · simp [orElse, truthy, pyFloat, readsFloat, hk, hzero, Except.map, PyFloat.overflowAt_pos]
    · by_cases hlarge : PyFloat.overflowAt ≤ k.natAbs
      · simp [orElse, truthy, pyFloat, readsFloat, hk, PyFloat.ofInt, hlarge, Except.map]
      · have hfits : k.natAbs < PyFloat.overflowAt := by omega
        simp [orElse, truthy, pyFloat, readsFloat, hk, PyFloat.ofInt, hlarge, Except.map, hfits]
  | float f =>
    have hread : (Json.float f).readsFloat = true := rfl
    rw [hread]
    by_cases htruthy : (Json.float f).truthy = true
    · simp [orElse, htruthy, pyFloat]
    · simp [orElse, htruthy, pyFloat, hzero, Except.map]
  | str s =>
    by_cases hs : s = ""
    · simp [orElse, truthy, pyFloat, readsFloat, hs, hzero, Except.map]
    · cases hparse : PyText.parseFloat s <;> simp [orElse, truthy, pyFloat, readsFloat, hs, hparse]
  | arr items => cases items <;> simp [orElse, truthy, pyFloat, readsFloat, hzero, Except.map]
  | obj fields => cases fields <;> simp [orElse, truthy, pyFloat, readsFloat, hzero, Except.map]

theorem pyLen_orElse_ok {v : Json} {d : List Json} :
    (∃ n, (v.orElse (.arr d)).pyLen = .ok n) ↔ v.readsLen = true := by
  by_cases htruthy : v.truthy = true
  · cases v <;> simp [orElse, htruthy, pyLen, readsLen]
    · simp [truthy] at htruthy
  · cases v <;> simp_all [orElse, pyLen, readsLen]

end Json

theorem getD_canonicalObject (fields : Fields) (key : String) :
    Json.getD (canonicalObject fields) key = (Json.getD fields key).canonical := by
  rw [Json.getD, canonicalObject, Json.lookup_insertionSort, Json.lookup_canonicalFields, Json.getD]
  cases Json.lookup fields key <;> rfl

namespace DurationEstimator

theorem intField_ok_iff {task : Fields} {key : String} {n : Int} :
    (∃ m, intField task key n = .ok m) ↔ (Json.getD task key).readsInt = true :=
  Json.pyInt_orElse_ok

/-- The fields the estimator converts for a body of this type. -/
structure Readable (task : Fields) : Prop where
  repetitions : (Json.getD task "repetitions").readsInt = true
  warmup      : (Json.getD task "warmup").readsInt = true
  duration    : (Json.getD task "duration").readsInt = true
  maxReps     : Json.getD task "task_type" = .str "PerfTaskData" ∨
    Json.getD task "task_type" = .str "CanaryPerfTaskData" →
      (Json.getD task "max_reps").readsInt = true
  targetCv    : Json.getD task "task_type" = .str "PerfTaskData" ∨
    Json.getD task "task_type" = .str "CanaryPerfTaskData" →
      ∀ reps most, intField task "repetitions" 1 = .ok reps → intField task "max_reps" 0 = .ok most →
        max 1 reps < max 0 most → (Json.getD task "target_cv").readsFloat = true
  insertions  : Json.getD task "task_type" = .str "BoundedInsertionTaskData" →
    (Json.getD task "insertions").readsInt = true
  valSizes    : Json.getD task "task_type" = .str "MemTaskData" →
    (Json.getD task "val_sizes").readsLen = true

/-- The bodies the estimator does not raise on: the fields it converts are
readable and the seconds they make fit a double. -/
structure Convertible (task : Fields) : Prop extends Readable task where
  fits : ∀ seconds, shapeSeconds task = .ok seconds → seconds.natAbs < PyFloat.overflowAt

theorem perfRepetitions_ok_iff {task : Fields} {reps : Int} :
    (∃ n, perfRepetitions task reps = .ok n) ↔
      (Json.getD task "max_reps").readsInt = true ∧
        ∀ most, intField task "max_reps" 0 = .ok most → reps < max 0 most →
          (Json.getD task "target_cv").readsFloat = true := by
  rw [← intField_ok_iff (n := 0)]
  constructor
  · rintro ⟨n, h⟩
    obtain ⟨most, hmost, h⟩ := except_bind_ok.mp h
    refine ⟨⟨most, hmost⟩, fun most' hmost' hlt => ?_⟩
    obtain rfl : most = most' := Except.ok.inj (hmost.symm.trans hmost')
    dsimp only at h
    rw [if_pos hlt] at h
    obtain ⟨cv, hcv, -⟩ := except_bind_ok.mp h
    exact Json.pyFloat_orElse_ok.mp ⟨cv, hcv⟩
  · rintro ⟨⟨most, hmost⟩, hcv⟩
    by_cases hlt : reps < max 0 most
    · obtain ⟨cv, hcv⟩ := Json.pyFloat_orElse_ok.mpr (hcv most hmost hlt)
      by_cases hpos : cv.isPositive = true
      · refine ⟨min (max 0 most) (reps + 2), ?_⟩
        simp [perfRepetitions, hmost, bind, Except.bind, hlt, hcv, hpos, pure, Except.pure]
      · refine ⟨reps, ?_⟩
        simp [perfRepetitions, hmost, bind, Except.bind, hlt, hcv, hpos, pure, Except.pure]
    · refine ⟨reps, ?_⟩
      simp only [perfRepetitions, hmost, bind, Except.bind, if_neg hlt, pure, Except.pure]

/-- The estimator's branches, by the type of the body. -/
theorem shapeSeconds_ok_iff {task : Fields} :
    (∃ seconds, shapeSeconds task = .ok seconds) ↔ Readable task := by
  constructor
  · rintro ⟨seconds, h⟩
    obtain ⟨reps, hreps, h⟩ := except_bind_ok.mp h
    obtain ⟨warmup, hwarmup, h⟩ := except_bind_ok.mp h
    obtain ⟨duration, hduration, h⟩ := except_bind_ok.mp h
    have hperf : Json.getD task "task_type" = .str "PerfTaskData" ∨
        Json.getD task "task_type" = .str "CanaryPerfTaskData" →
          ∃ n, perfRepetitions task (max 1 reps) = .ok n := by
      intro htype
      rw [if_pos htype] at h
      obtain ⟨n, hn, -⟩ := except_bind_ok.mp h
      exact ⟨n, hn⟩
    refine ⟨intField_ok_iff.mp ⟨reps, hreps⟩, intField_ok_iff.mp ⟨warmup, hwarmup⟩,
      intField_ok_iff.mp ⟨duration, hduration⟩, fun htype => ?_, fun htype reps' most hreps' => ?_,
      fun htype => ?_, fun htype => ?_⟩
    · exact (perfRepetitions_ok_iff.mp (hperf htype)).1
    · obtain rfl : reps = reps' := Except.ok.inj (hreps.symm.trans hreps')
      exact (perfRepetitions_ok_iff.mp (hperf htype)).2 most
    · simp only [htype, Json.str.injEq, String.reduceEq, or_self, if_false, if_true] at h
      obtain ⟨n, hn, -⟩ := except_bind_ok.mp h
      exact intField_ok_iff.mp ⟨n, hn⟩
    · simp only [htype, Json.str.injEq, String.reduceEq, or_self, if_false, if_true] at h
      obtain ⟨n, hn, -⟩ := except_bind_ok.mp h
      exact Json.pyLen_orElse_ok.mp ⟨n, hn⟩
  · intro h
    obtain ⟨reps, hreps⟩ := intField_ok_iff (n := 1).mpr h.repetitions
    obtain ⟨warmup, hwarmup⟩ := intField_ok_iff (n := 0).mpr h.warmup
    obtain ⟨duration, hduration⟩ := intField_ok_iff (n := 0).mpr h.duration
    simp only [shapeSeconds, hreps, hwarmup, hduration, bind, Except.bind]
    split
    · next htype =>
      obtain ⟨n, hn⟩ := perfRepetitions_ok_iff.mpr ⟨h.maxReps htype,
        fun most hmost => h.targetCv htype reps most hreps hmost⟩
      rw [hn]
      exact ⟨_, rfl⟩
    · split
      · next htype =>
        obtain ⟨n, hn⟩ := intField_ok_iff (n := 1).mpr (h.insertions htype)
        rw [hn]
        exact ⟨_, rfl⟩
      · split
        · exact ⟨_, rfl⟩
        · split
          · exact ⟨_, rfl⟩
          · split
            · next htype =>
              obtain ⟨n, hn⟩ := Json.pyLen_orElse_ok (d := [.int 0]).mpr (h.valSizes htype)
              rw [hn]
              exact ⟨_, rfl⟩
            · exact ⟨_, rfl⟩

/-- **The estimator returns exactly on convertible bodies.** -/
theorem estimate_ok_iff {task : Fields} : (∃ n, estimate task = .ok n) ↔ Convertible task := by
  constructor
  · rintro ⟨n, h⟩
    obtain ⟨seconds, hseconds, h⟩ := except_bind_ok.mp h
    obtain ⟨rounded, hrounded, -⟩ := except_bind_ok.mp h
    refine ⟨shapeSeconds_ok_iff.mp ⟨seconds, hseconds⟩, fun seconds' hseconds' => ?_⟩
    obtain rfl : seconds = seconds' := Except.ok.inj (hseconds.symm.trans hseconds')
    exact PyFloat.ofInt_ok_iff.mp ⟨rounded, hrounded⟩
  · intro h
    obtain ⟨seconds, hseconds⟩ := shapeSeconds_ok_iff.mpr h.toReadable
    obtain ⟨rounded, hrounded⟩ := PyFloat.ofInt_ok_iff.mpr (h.fits seconds hseconds)
    exact ⟨max 60 rounded, by simp only [estimate, hseconds, hrounded, bind, Except.bind, pure, Except.pure]⟩

theorem intField_canonicalObject (task : Fields) (key : String) (n : Int) :
    intField (canonicalObject task) key n = intField task key n := by
  rw [intField, intField, getD_canonicalObject, Json.orElse, Json.orElse, Json.truthy_canonical]
  split
  · rw [Json.pyInt_canonical]
  · rfl

/-- The stored body, its keys sorted, is estimated like the submitted one. -/
theorem estimate_canonicalObject (task : Fields) : estimate (canonicalObject task) = estimate task := by
  have hrepetitions : ∀ n, perfRepetitions (canonicalObject task) n = perfRepetitions task n := by
    intro n
    simp only [perfRepetitions, intField_canonicalObject, getD_canonicalObject, Json.orElse,
      Json.truthy_canonical]
    split
    · simp only [Json.pyFloat_canonical]
    · rfl
  have hsizes : ((Json.getD task "val_sizes").canonical.orElse (.arr [.int 0])).pyLen =
      ((Json.getD task "val_sizes").orElse (.arr [.int 0])).pyLen := by
    rw [Json.orElse, Json.orElse, Json.truthy_canonical]
    split
    · rw [Json.pyLen_canonical]
    · rfl
  have hshape : shapeSeconds (canonicalObject task) = shapeSeconds task := by
    simp only [shapeSeconds, hrepetitions, hsizes, intField_canonicalObject, perfStatSeconds,
      getD_canonicalObject, Json.truthy_canonical, Json.canonical_eq_str]
  rw [estimate, hshape, estimate]

theorem convertible_canonicalObject {task : Fields} :
    Convertible (canonicalObject task) ↔ Convertible task := by
  rw [← estimate_ok_iff, ← estimate_ok_iff, estimate_canonicalObject]

end DurationEstimator

/-! ## The public dashboard -/

/-- A task as the public dashboard lists it. -/
structure RemoteTask where
  id                  : String
  type                : Json
  note                : Json
  source              : Json
  specifier           : Json
  state               : TaskState
  taskClass           : TaskClass
  priority            : Int
  submittedAt         : String
  expectedDurationSec : Int

/-- The mailbox of one runner as the public dashboard shows it. -/
structure RunnerMailboxStatus where
  runnerId                 : String
  totalCount               : ℕ
  returnedCount            : ℕ
  truncated                : Bool
  expectedDurationComplete : Bool
  expectedDurationSec      : Int
  remoteTasks              : List RemoteTask

structure DashboardStatus where
  generatedAt : Instant
  runners     : List RunnerMailboxStatus

namespace ControlService

def publicDashboardTaskLimit : ℕ := 50

/-- The rows of a runner's mailbox: queued, claimed and accepted. -/
def mailboxRows (db : Database) (runnerId : String) : List TaskRow :=
  db.tasks.rows.filter fun row => decide (row.runnerId = runnerId ∧
    (row.state = .queued ∨ row.state = .claimed ∨ row.state = .accepted))

/-- The rows listed, in the order of the queue. -/
def listedRows (db : Database) (runnerId : String) : List TaskRow :=
  ((mailboxRows db runnerId).insertionSort fun a b => queueKey a ≤ queueKey b).take
    publicDashboardTaskLimit

def remoteTask (row : TaskRow) : Except PyError RemoteTask := do
  let task := row.envelope.task
  return {
    id := row.taskId, type := Json.getD task "task_type", note := Json.getD task "note",
    source := Json.getD task "source", specifier := Json.getD task "specifier", state := row.state,
    taskClass := row.taskClass, priority := row.priority, submittedAt := row.submittedAt,
    expectedDurationSec := ← DurationEstimator.estimate task }

def runnerMailboxStatus (db : Database) (runner : RunnerEntry) : Except PyError RunnerMailboxStatus := do
  let totalCount := (mailboxRows db runner.runnerId).length
  let remoteTasks ← (listedRows db runner.runnerId).mapM remoteTask
  return {
    runnerId := runner.runnerId, totalCount, returnedCount := remoteTasks.length,
    truncated := decide (remoteTasks.length < totalCount),
    expectedDurationComplete := decide (totalCount = remoteTasks.length),
    expectedDurationSec := (remoteTasks.map RemoteTask.expectedDurationSec).sum, remoteTasks }

/-- `dashboard_status`. -/
def dashboardStatus (svc : ControlService) (now : Instant) (db : Database) :
    Except PyError DashboardStatus := do
  return ⟨now, ← svc.registry.enabledRunners.mapM (runnerMailboxStatus db)⟩

/-- A listed row is a row of the table. -/
theorem mem_of_listedRows {db : Database} {runnerId : String} {row : TaskRow}
    (h : row ∈ listedRows db runnerId) : row ∈ db.tasks := by
  have hsorted := List.mem_of_mem_take h
  rw [List.mem_insertionSort] at hsorted
  exact (List.mem_filter.mp hsorted).1

theorem remoteTask_ok_iff {row : TaskRow} :
    (∃ task, remoteTask row = .ok task) ↔ DurationEstimator.Convertible row.envelope.task := by
  rw [← DurationEstimator.estimate_ok_iff]
  constructor
  · rintro ⟨task, h⟩
    obtain ⟨n, hn, -⟩ := except_bind_ok.mp h
    exact ⟨n, hn⟩
  · rintro ⟨n, hn⟩
    exact ⟨_, except_bind_ok.mpr ⟨n, hn, rfl⟩⟩

/-- **The dashboard returns exactly when every body it lists is convertible.** -/
theorem dashboardStatus_ok_iff {svc : ControlService} {now : Instant} {db : Database} :
    (∃ status, svc.dashboardStatus now db = .ok status) ↔
      ∀ runner ∈ svc.registry.enabledRunners, ∀ row ∈ listedRows db runner.runnerId,
        DurationEstimator.Convertible row.envelope.task := by
  have hrunner : ∀ runner, (∃ status, runnerMailboxStatus db runner = .ok status) ↔
      ∀ row ∈ listedRows db runner.runnerId, DurationEstimator.Convertible row.envelope.task := by
    intro runner
    have htasks : (∃ tasks, (listedRows db runner.runnerId).mapM remoteTask = .ok tasks) ↔ _ :=
      except_mapM_ok
    simp only [remoteTask_ok_iff] at htasks
    rw [← htasks]
    constructor
    · rintro ⟨status, h⟩
      obtain ⟨tasks, hok, -⟩ := except_bind_ok.mp h
      exact ⟨tasks, hok⟩
    · rintro ⟨tasks, hok⟩
      exact ⟨_, except_bind_ok.mpr ⟨tasks, hok, rfl⟩⟩
  have hall : (∃ runners, svc.registry.enabledRunners.mapM (runnerMailboxStatus db) = .ok runners) ↔ _ :=
    except_mapM_ok
  simp only [hrunner] at hall
  rw [← hall]
  constructor
  · rintro ⟨status, h⟩
    obtain ⟨runners, hok, -⟩ := except_bind_ok.mp h
    exact ⟨runners, hok⟩
  · rintro ⟨runners, hok⟩
    exact ⟨_, except_bind_ok.mpr ⟨runners, hok, rfl⟩⟩

end ControlService

/-! ## The quota check -/

/-- The rows charged to a user's account today. -/
def chargedRows (directory : UserDirectory) (db : Database) (now : Instant) (user : User) :
    List TaskRow :=
  db.tasks.rows.filter (chargedRow
    ((directory.users.rows.filter fun u => decide (u.github = user.github)).map User.login) (dayOf now))

/-- The bodies the approval decision estimates: none for a class taken to be
the system's, without a directory, without a login and for an unknown one. -/
def bodiesEstimated (userDirectory : Option UserDirectory) (db : Database) (now : Instant)
    (envelope : TaskEnvelope) (identityLogin : Option String) : List Fields :=
  if envelope.taskClass = .canary ∨ envelope.taskClass = .sweep then []
  else
    match userDirectory, resolveSubmitter userDirectory envelope identityLogin with
    | some directory, some user =>
      envelope.task :: if user.quotaRunnerMinutesPerDay = 0 then []
        else (chargedRows directory db now user).map fun row => row.envelope.task
    | _, _ => []

theorem usedSeconds_ok_iff {rows : List TaskRow} :
    (∃ used, usedSeconds rows = .ok used) ↔
      ∀ row ∈ rows, DurationEstimator.Convertible row.envelope.task := by
  refine except_foldlM_ok fun used row => ?_
  rw [← DurationEstimator.estimate_ok_iff]
  constructor
  · rintro ⟨used', h⟩
    obtain ⟨n, hn, -⟩ := except_bind_ok.mp h
    exact ⟨n, hn⟩
  · rintro ⟨n, hn⟩
    exact ⟨_, except_bind_ok.mpr ⟨n, hn, rfl⟩⟩

theorem overQuota_ok_iff {directory : UserDirectory} {db : Database} {now : Instant} {user : User}
    {seconds : Int} (huser : user ∈ directory.users) :
    (∃ exceeded, overQuota directory db now user seconds = .ok exceeded) ↔
      (user.quotaRunnerMinutesPerDay ≠ 0 → ∀ row ∈ chargedRows directory db now user,
        DurationEstimator.Convertible row.envelope.task) := by
  have hrequire := UserDirectory.require_of_mem huser
  rw [chargedRows, ← usedSeconds_ok_iff]
  by_cases hquota : user.quotaRunnerMinutesPerDay = 0
  · simp [overQuota, UserDirectory.quotaMinutes, hrequire, Except.map, bind, Except.bind, hquota, pure,
      Except.pure]
  · simp only [overQuota, UserDirectory.quotaMinutes, UserDirectory.quotaAccount, hrequire, Except.map,
      bind, Except.bind, if_neg hquota, pure, Except.pure]
    constructor
    · rintro ⟨exceeded, h⟩ -
      obtain ⟨used, hused, -⟩ := except_bind_ok.mp h
      exact ⟨used, hused⟩
    · intro h
      obtain ⟨used, hused⟩ := h hquota
      exact ⟨_, except_bind_ok.mpr ⟨used, hused, rfl⟩⟩

theorem mem_of_resolveSubmitter {directory : UserDirectory} {envelope : TaskEnvelope}
    {login : Option String} {user : User}
    (h : resolveSubmitter (some directory) envelope login = some user) :
    user ∈ directory.users ∧ ∃ presented, presentedLogin envelope login = some presented := by
  unfold resolveSubmitter at h
  cases hpresented : presentedLogin envelope login with
  | none => simp [hpresented] at h
  | some presented =>
    simp only [hpresented] at h
    split at h
    · cases h
    · exact ⟨(UserDirectory.mem_of_get h).1, presented, rfl⟩

/-- **The quota check returns exactly when every body it estimates is
convertible.** -/
theorem approvalDecision_ok_iff {userDirectory : Option UserDirectory} {db : Database} {now : Instant}
    {envelope : TaskEnvelope} {login : Option String} :
    (∃ decision, approvalDecision userDirectory db now envelope
        (resolveSubmitter userDirectory envelope login) login = .ok decision) ↔
      ∀ task ∈ bodiesEstimated userDirectory db now envelope login,
        DurationEstimator.Convertible task := by
  unfold approvalDecision bodiesEstimated
  by_cases hsystem : envelope.taskClass = .canary ∨ envelope.taskClass = .sweep
  · simp [hsystem, pure, Except.pure]
  rw [if_neg hsystem, if_neg hsystem]
  cases userDirectory with
  | none => simp [pure, Except.pure]
  | some directory =>
    cases huser : resolveSubmitter (some directory) envelope login with
    | none => cases presentedLogin envelope login <;> simp [pure, Except.pure]
    | some user =>
      obtain ⟨hmem, presented, hpresented⟩ := mem_of_resolveSubmitter huser
      simp only [hpresented]
      rw [List.forall_mem_cons]
      have hquota : (∀ task ∈ (if user.quotaRunnerMinutesPerDay = 0 then []
          else (chargedRows directory db now user).map fun row => row.envelope.task),
            DurationEstimator.Convertible task) ↔
          (user.quotaRunnerMinutesPerDay ≠ 0 → ∀ row ∈ chargedRows directory db now user,
            DurationEstimator.Convertible row.envelope.task) := by
        by_cases hzero : user.quotaRunnerMinutesPerDay = 0 <;> simp [hzero]
      rw [hquota, ← DurationEstimator.estimate_ok_iff]
      constructor
      · rintro ⟨decision, h⟩
        obtain ⟨seconds, hseconds, h⟩ := except_bind_ok.mp h
        obtain ⟨exceeded, hover, -⟩ := except_bind_ok.mp h
        exact ⟨⟨seconds, hseconds⟩, (overQuota_ok_iff hmem).mp ⟨exceeded, hover⟩⟩
      · rintro ⟨⟨seconds, hseconds⟩, hrows⟩
        obtain ⟨exceeded, hover⟩ : ∃ exceeded, overQuota directory db now user seconds = .ok exceeded :=
          (overQuota_ok_iff hmem).mpr hrows
        simp only [hseconds, bind, Except.bind, hover]
        split <;> exact ⟨_, rfl⟩

/-! ## Runs -/

/-- Every stored body is convertible. -/
def BodiesConvertible (db : Database) : Prop :=
  ∀ row ∈ db.tasks, DurationEstimator.Convertible row.envelope.task

/-- The condition on a step: the body of an admitted submission, and of every
canary a tick may create, is convertible. -/
def StoresConvertible (svc : ControlService) (db : Database) (e : ServiceEvent) : Prop :=
  (∀ s : Submission, e = s.event → (∃ a, s.admitted svc db = .ok a) →
    DurationEstimator.Convertible s.envelope.task) ∧
  (e.operation = .tick → ∀ d ∈ CanaryScheduler.evaluations svc e.moment.now,
    DurationEstimator.Convertible (CanaryScheduler.canaryTask d.2.1 d.2.2 e.moment.now))

/-- A change whose insertions store convertible bodies keeps them so. -/
theorem Change.Step.bodiesConvertible {db db' : Database} {c : Change} (h : Change.Step db c db')
    (hc : ∀ action now actor detail row, c = .inserted action now actor detail row →
      DurationEstimator.Convertible row.envelope.task)
    (hbodies : BodiesConvertible db) : BodiesConvertible db' := by
  intro row' hrow'
  rcases h.mem_after hrow' with ⟨hrow, -⟩ | ⟨action, now, actor, detail, heq, -, -⟩ |
    ⟨w, now, actor, detail, row, -, hrow, -, rfl⟩
  · exact hbodies row' hrow
  · exact hc action now actor detail row' heq
  · rw [StateWrite.set_envelope]
    exact hbodies row hrow

/-- A new row stores the body of its envelope, its keys sorted. -/
theorem newRow_convertible {envelope : TaskEnvelope} {state : TaskState} {login key : Option String}
    {now : Instant} (h : DurationEstimator.Convertible envelope.task) :
    DurationEstimator.Convertible (ControlService.newRow envelope state login key now).envelope.task :=
  DurationEstimator.convertible_canonicalObject.mpr h

/-- **One step under the condition keeps the stored bodies convertible.** -/
theorem perform_bodiesConvertible {svc : ControlService} {e : ServiceEvent} {db : Database}
    (hstores : StoresConvertible svc db e) (hbodies : BodiesConvertible db) :
    BodiesConvertible (perform svc e.moment e.operation db) := by
  obtain ⟨m, op⟩ := e
  cases op with
  | submit envelope actor key login bypass =>
    simp only [perform]
    cases h : svc.submitTask m envelope actor key login bypass db with
    | error _ => exact hbodies
    | ok answer =>
      obtain ⟨db', row, created⟩ := answer
      rcases ControlService.submitTask_ok h with ⟨-, rfl⟩ |
        ⟨-, -, pullRequest, state, reason, inserted, hdecision, rfl, hins, rfl⟩
      · exact hbodies
      · have hstep := ControlService.insert_step hins (ControlService.newRow_fresh
          (ControlService.approvalDecision_state hdecision)) .taskSubmit m.now actor
          (reason.map fun text => [("reason", Json.str text)])
        refine hstep.bodiesConvertible ?_ hbodies
        rintro _ _ _ _ row heq
        cases heq
        let s : Submission := ⟨m, envelope, actor, key, login, bypass⟩
        have hbody := hstores.1 s rfl (Submission.admitted_of_answer (s := s) h)
        refine newRow_convertible ?_
        rw [ControlService.resolvePullRequest_task]
        exact hbody
  | tick =>
    obtain ⟨cs, hrun, hcs⟩ :=
      CanaryScheduler.tickFrom_changes (CanaryScheduler.evaluations svc m.now) db
    refine hrun.invariant_of_mem _ hbodies fun a c b hc hstep ih => hstep.bodiesConvertible ?_ ih
    rintro action now actor detail row rfl
    rcases hcs _ hc with ⟨d, hd, _, heq⟩ | ⟨_, _, heq⟩ | ⟨_, heq⟩
    · simp only [Change.inserted.injEq] at heq
      rw [heq.2.2.2.2]
      exact newRow_convertible (hstores.2 rfl d hd)
    · cases heq
    · cases heq
  | _ =>
    obtain ⟨cs, hrun, hcs⟩ := perform_changes svc m _ db
    refine hrun.invariant_of_mem _ hbodies fun a c b hc hstep ih => hstep.bodiesConvertible ?_ ih
    rintro action now actor detail row rfl
    have hpermits := hcs _ hc
    simp [Operation.Permits] at hpermits

/-- A body the approval decision estimates is the submission's own or stored. -/
theorem bodiesEstimated_convertible {userDirectory : Option UserDirectory} {db : Database}
    {now : Instant} {envelope : TaskEnvelope} {login : Option String}
    (hbodies : BodiesConvertible db) (hown : DurationEstimator.Convertible envelope.task) :
    ∀ task ∈ bodiesEstimated userDirectory db now envelope login,
      DurationEstimator.Convertible task := by
  intro task htask
  unfold bodiesEstimated at htask
  split at htask
  · cases htask
  · split at htask
    · rcases List.mem_cons.mp htask with rfl | htask
      · exact hown
      · split at htask
        · cases htask
        · obtain ⟨row, hrow, rfl⟩ := List.mem_map.mp htask
          exact hbodies row (List.mem_filter.mp hrow).1
    · cases htask

/-- **Both readers return** in every state reached by a run that stores
convertible bodies: the dashboard whenever it is asked, and the quota check for
every submission whose own body is convertible. -/
theorem readers_return {svc : ControlService} {es : List ServiceEvent} {db : Database}
    (h : Run (fun db e db' => StoresConvertible svc db e ∧ ServiceStep svc db e db') .empty es db) :
    (∀ now, ∃ status, svc.dashboardStatus now db = .ok status) ∧
    (∀ now envelope login, DurationEstimator.Convertible envelope.task →
      ∃ decision, approvalDecision svc.userDirectory db now envelope
        (resolveSubmitter svc.userDirectory envelope login) login = .ok decision) := by
  have hbodies : BodiesConvertible db := by
    refine h.invariant _ (fun row hrow => absurd hrow (Table.not_mem_empty row)) ?_
    rintro a e _ ⟨hstores, rfl⟩ ih
    exact perform_bodiesConvertible hstores ih
  refine ⟨fun now => ?_, fun now envelope login hown => ?_⟩
  · refine ControlService.dashboardStatus_ok_iff.mpr fun runner _ row hrow => ?_
    exact hbodies row (ControlService.mem_of_listedRows hrow)
  · exact approvalDecision_ok_iff.mpr (bodiesEstimated_convertible hbodies hown)

namespace SmallDeployment

/-- A manual task whose repetitions are a word. -/
def wordedEnvelope (taskId : String) (taskClass : TaskClass) : TaskEnvelope :=
  { envelope taskId taskClass with
    task := body "PerfTaskData" ++ [("repetitions", .str "three")] }

/-- A user and her agent, who share an account with a quota. -/
def shared : ControlService :=
  { service with
    userDirectory := some ⟨⟨[⟨"alice", "alice", false, .collaborator, 60, [], none⟩,
      ⟨"alice-bot", "alice", true, .collaborator, 60, [], some "alice"⟩], by decide⟩⟩ }

/-- The agent's submission of a sweep with that body. -/
def wordedSweep : ServiceEvent :=
  ⟨moment 0, .submit (wordedEnvelope "t1" .sweep) "user:laptop" none (some "alice-bot") false⟩

end SmallDeployment

open SmallDeployment in
/-- The dashboard after an ordinary submission. -/
theorem readers_return_ordinary :
    ∃ status, service.dashboardStatus (moment 1).now (serve service .empty [submit 0 "t1"]) =
      .ok status := by
  have hbody : DurationEstimator.Convertible (body "PerfTaskData") :=
    DurationEstimator.estimate_ok_iff.mp ⟨78, by decide +kernel⟩
  have hrun : Run (fun db e db' => StoresConvertible service db e ∧ ServiceStep service db e db')
      .empty [submit 0 "t1"] (serve service .empty [submit 0 "t1"]) := by
    refine .single ⟨⟨?_, ?_⟩, rfl⟩
    · rintro ⟨_, _, _, _, _, _⟩ heq -
      cases heq
      exact hbody
    · intro htick
      cases htick
  exact (readers_return hrun).1 _

open SmallDeployment in
/-- An operator's task makes the dashboard raise; an agent's sweep, stored
without an estimate, makes its sponsor's next submission raise. -/
theorem stored_body_raises :
    (¬ ∀ (svc : ControlService) (es : List ServiceEvent) (db : Database) (now : Instant),
      Run (ServiceStep svc) .empty es db → ∃ status, svc.dashboardStatus now db = .ok status) ∧
    ¬ ∀ (svc : ControlService) (es : List ServiceEvent) (db : Database) (now : Instant)
      (envelope : TaskEnvelope) (login : Option String), Run (ServiceStep svc) .empty es db →
        DurationEstimator.Convertible envelope.task →
          ∃ decision, approvalDecision svc.userDirectory db now envelope
            (resolveSubmitter svc.userDirectory envelope login) login = .ok decision := by
  constructor
  · intro h
    let worded : ServiceEvent :=
      ⟨moment 0, .submit (wordedEnvelope "t1" .manual) "operator:ops" none none false⟩
    obtain ⟨status, hstatus⟩ := h service _ _ (moment 1).now (serve_run service .empty [worded])
    have hraises : (service.dashboardStatus (moment 1).now (serve service .empty [worded])).toBool =
        false := by decide +kernel
    rw [hstatus] at hraises
    cases hraises
  · intro h
    have hbody : DurationEstimator.Convertible (envelope "t2" .manual).task :=
      DurationEstimator.estimate_ok_iff.mp ⟨78, by decide +kernel⟩
    obtain ⟨decision, hdecision⟩ := h shared _ _ (moment 1).now (envelope "t2" .manual) (some "alice")
      (serve_run shared .empty [wordedSweep]) hbody
    have hraises : (approvalDecision shared.userDirectory (serve shared .empty [wordedSweep])
        (moment 1).now (envelope "t2" .manual)
        (resolveSubmitter shared.userDirectory (envelope "t2" .manual) (some "alice"))
        (some "alice")).toBool = false := by decide +kernel
    rw [hdecision] at hraises
    cases hraises

end Conductress
