import Conductress.Control.CanaryTick

/-!
# The canaries the scheduler created

A task is the scheduler's own when the audit log has its `canary.created`
record: only a tick writes one, with the insertion of the row. The columns that
make a row a canary (class, runner, canary id, envelope) are written by no later
statement, so a scheduler's canary stays the canary of its runner, profile and
day.

* `created_canary` — in every state of every run, a task with a
  `canary.created` record is the canary of a runner, profile and day.
-/

namespace Conductress

open Lib

@[simp] theorem StateWrite.set_canaryId (w : StateWrite) (now : Instant) (row : TaskRow) :
    (w.set now row).canaryId = row.canaryId := by cases w <;> rfl

/-- The canary id of a profile and day. -/
def canaryIdOf (profile : CanaryProfile) (utcDate : ℕ) : String :=
  profile.profileId ++ ":" ++ dateText utcDate

/-- The row is the scheduler's canary of its runner for a profile and day. -/
structure CanaryOf (svc : ControlService) (row : TaskRow) (profile : CanaryProfile) (utcDate : ℕ) :
    Prop where
  assigned  : ∃ runner ∈ svc.registry.enabledRunners, runner.runnerId = row.runnerId ∧
    runner.canaryProfile.bind svc.canaryProfiles.find? = some profile
  taskId    : row.taskId = CanaryScheduler.canaryTaskId row.runnerId profile.profileId utcDate
  taskClass : row.taskClass = .canary
  canaryId  : row.canaryId = some (canaryIdOf profile utcDate)
  body      : ∃ now, row.envelope =
    (CanaryScheduler.buildEnvelope row.runnerId profile utcDate now).canonical

/-- The audit log has the task's `canary.created` record. -/
def CreatedByScheduler (db : Database) (taskId : String) : Prop :=
  ∃ r ∈ db.auditLog, r.action = .canaryCreated ∧ r.taskId = some taskId

namespace CanaryOf

variable {svc : ControlService} {row : TaskRow} {profile : CanaryProfile} {utcDate : ℕ}

/-- A canary's profile is the registry's. -/
theorem registered (h : CanaryOf svc row profile utcDate) :
    svc.canaryProfiles.find? profile.profileId = some profile := by
  obtain ⟨runner, -, -, hprofile⟩ := h.assigned
  obtain ⟨name, -, hfind⟩ := Option.bind_eq_some_iff.mp hprofile
  exact Table.find?_key (Table.find?_eq_some_iff.mp hfind).1

/-- No write makes a canary another row. -/
theorem set (h : CanaryOf svc row profile utcDate) (w : StateWrite) (now : Instant) :
    CanaryOf svc (w.set now row) profile utcDate := by
  constructor
  · rw [StateWrite.set_runnerId]
    exact h.assigned
  · rw [StateWrite.set_taskId, StateWrite.set_runnerId]
    exact h.taskId
  · rw [StateWrite.set_taskClass]
    exact h.taskClass
  · rw [StateWrite.set_canaryId]
    exact h.canaryId
  · rw [StateWrite.set_envelope, StateWrite.set_runnerId]
    exact h.body

/-- The row a tick inserts for what is due. -/
theorem of_due {now : Instant} {due : String × CanaryProfile × ℕ}
    (h : due ∈ CanaryScheduler.evaluations svc now) (key : Option String) :
    CanaryOf svc (ControlService.newRow
      (CanaryScheduler.buildEnvelope due.1 due.2.1 due.2.2 now) .queued none key now)
      due.2.1 due.2.2 := by
  obtain ⟨runner, hrunner, hdue⟩ := List.mem_flatMap.mp h
  cases hprofile : runner.canaryProfile.bind svc.canaryProfiles.find? with
  | none =>
    rw [hprofile] at hdue
    cases hdue
  | some profile =>
    rw [hprofile] at hdue
    simp only [List.mem_cons, List.not_mem_nil, or_false] at hdue
    rcases hdue with rfl | rfl <;>
      exact ⟨⟨runner, hrunner, rfl, hprofile⟩, rfl, rfl, rfl, now, rfl⟩

end CanaryOf

/-- Every task with a `canary.created` record is a canary. -/
def CanariesCreated (svc : ControlService) (db : Database) : Prop :=
  ∀ taskId, CreatedByScheduler db taskId →
    ∃ row profile utcDate, db.task? taskId = some row ∧ CanaryOf svc row profile utcDate

/-! ## What an operation inserts -/

/-- The row an operation may insert, under its audit action: a submission's, or
the canary of what is due in a tick. -/
def Inserts (svc : ControlService) (m : Moment) (op : Operation) (action : AuditAction)
    (row : TaskRow) : Prop :=
  (action = .taskSubmit ∧ ∃ envelope actor key login bypass pullRequest state submitterLogin,
      op = .submit envelope actor key login bypass ∧
      row = ControlService.newRow (ControlService.resolvePullRequest envelope pullRequest) state
        submitterLogin key m.now) ∨
    (action = .canaryCreated ∧ op = .tick ∧ ∃ profile utcDate, CanaryOf svc row profile utcDate)

/-- An operation is a run of changes that inserts its own rows only. -/
theorem perform_inserts (svc : ControlService) (m : Moment) (op : Operation) (db : Database) :
    ∃ cs, Run Change.Step db cs (perform svc m op db) ∧
      ∀ action now actor detail row, Change.inserted action now actor detail row ∈ cs →
        Inserts svc m op action row := by
  cases op with
  | tick =>
    obtain ⟨cs, hrun, hcs⟩ :=
      CanaryScheduler.tickFrom_changes (CanaryScheduler.evaluations svc m.now) db
    refine ⟨cs, hrun, fun action now actor detail row hc => ?_⟩
    rcases hcs _ hc with ⟨due, hdue, _, heq⟩ | ⟨_, _, heq⟩ | ⟨_, heq⟩
    · cases heq
      exact .inr ⟨rfl, rfl, due.2.1, due.2.2, CanaryOf.of_due hdue _⟩
    · cases heq
    · cases heq
  | submit envelope actor key login bypass =>
    obtain ⟨cs, hrun, hcs⟩ := perform_changes svc m (.submit envelope actor key login bypass) db
    refine ⟨cs, hrun, fun action now actor' detail row hc => ?_⟩
    obtain ⟨-, _, pullRequest, state, submitterLogin, heq⟩ := hcs _ hc
    cases heq
    exact .inl ⟨rfl, envelope, actor, key, login, bypass, pullRequest, state, submitterLogin, rfl, rfl⟩
  | _ =>
    obtain ⟨cs, hrun, hcs⟩ := perform_changes svc m _ db
    refine ⟨cs, hrun, fun action now actor detail row hc => ?_⟩
    have hpermits := hcs _ hc
    simp [Operation.Permits] at hpermits

/-! ## The scheduler's canaries over runs -/

/-- The records of a change that are about a task with a `canary.created`. -/
theorem Change.Step.created_before {db db' : Database} {c : Change} (h : Change.Step db c db')
    {taskId : String} (hcreated : CreatedByScheduler db' taskId) :
    CreatedByScheduler db taskId ∨
      ∃ now actor detail row, c = .inserted .canaryCreated now actor detail row ∧
        row.taskId = taskId := by
  obtain ⟨r, hr, haction, hid⟩ := hcreated
  cases h with
  | @inserted _ action now actor detail row _ _ _ hlog =>
    rw [hlog, List.mem_append, List.mem_singleton] at hr
    rcases hr with hr | rfl
    · exact .inl ⟨r, hr, haction, hid⟩
    · obtain rfl : action = .canaryCreated := haction
      exact .inr ⟨now, actor, detail, row, rfl, Option.some.inj hid⟩
  | @wrote _ w _ _ _ _ _ _ _ hlog =>
    rw [hlog, List.mem_append, List.mem_singleton] at hr
    rcases hr with hr | rfl
    · exact .inl ⟨r, hr, haction, hid⟩
    · -- no write is recorded as a creation
      cases w with
      | report outcome =>
        cases hstate : outcome.state <;>
          simp [Database.writeRecord, StateWrite.action, Terminal.auditAction, hstate] at haction
      | _ => cases haction
  | scheduled hrecord _ hlog =>
    rw [hlog, List.mem_append, Option.mem_toList] at hr
    rcases hr with hr | hr
    · exact .inl ⟨r, hr, haction, hid⟩
    · rw [hrecord r hr] at hid
      cases hid

/-- Records stay in the log. -/
theorem Change.Step.created_after {db db' : Database} {c : Change} (h : Change.Step db c db')
    {taskId : String} (hcreated : CreatedByScheduler db taskId) : CreatedByScheduler db' taskId := by
  obtain ⟨r, hr, hcreates⟩ := hcreated
  refine ⟨r, ?_, hcreates⟩
  cases h with
  | inserted _ _ _ hlog | wrote _ _ _ hlog | scheduled _ _ hlog =>
    rw [hlog]
    exact List.mem_append_left _ hr

/-- A change whose insertions are the scheduler's canaries keeps the creations
tied to their rows. -/
theorem Change.Step.canariesCreated {svc : ControlService} {db db' : Database} {c : Change}
    (h : Change.Step db c db')
    (hc : ∀ now actor detail row, c = .inserted .canaryCreated now actor detail row →
      ∃ profile utcDate, CanaryOf svc row profile utcDate)
    (hcanaries : CanariesCreated svc db) : CanariesCreated svc db' := by
  intro taskId hcreated
  rcases h.created_before hcreated with hcreated | ⟨now, actor, detail, row, rfl, rfl⟩
  · obtain ⟨row, profile, utcDate, hrow, hcanary⟩ := hcanaries taskId hcreated
    rcases h.row_after hrow with hsame | ⟨w, now, actor, detail, -, -, hwritten⟩
    · exact ⟨row, profile, utcDate, hsame, hcanary⟩
    · exact ⟨_, profile, utcDate, hwritten, hcanary.set w now⟩
  · obtain ⟨profile, utcDate, hcanary⟩ := hc _ _ _ _ rfl
    cases h with
    | inserted _ _ hlook _ => exact ⟨row, profile, utcDate, by rw [hlook, if_pos rfl], hcanary⟩

theorem perform_canariesCreated {svc : ControlService} (m : Moment) (op : Operation) {db : Database}
    (hcanaries : CanariesCreated svc db) : CanariesCreated svc (perform svc m op db) := by
  obtain ⟨cs, hrun, hinserts⟩ := perform_inserts svc m op db
  refine hrun.invariant_of_mem _ hcanaries fun a c b hc hstep ih => hstep.canariesCreated ?_ ih
  rintro now actor detail row rfl
  rcases hinserts _ _ _ _ _ hc with ⟨hsubmit, -⟩ | ⟨-, -, hcanary⟩
  · cases hsubmit
  · exact hcanary

theorem canariesCreated_empty (svc : ControlService) : CanariesCreated svc .empty := by
  rintro taskId ⟨r, hr, -⟩
  cases hr

theorem perform_created (svc : ControlService) (m : Moment) (op : Operation) {db : Database}
    {taskId : String} (hcreated : CreatedByScheduler db taskId) :
    CreatedByScheduler (perform svc m op db) taskId := by
  obtain ⟨cs, hrun, -⟩ := perform_changes svc m op db
  exact hrun.invariant (CreatedByScheduler · taskId) hcreated fun _ _ _ hstep ih =>
    hstep.created_after ih

/-- **A task the scheduler created is a canary of the fleet**, in every state
of every run. -/
theorem created_canary {svc : ControlService} {es : List ServiceEvent} {db : Database}
    (h : Run (ServiceStep svc) .empty es db) : CanariesCreated svc db := by
  refine h.invariant _ (canariesCreated_empty svc) ?_
  rintro a e _ rfl ih
  exact perform_canariesCreated e.moment e.operation ih

end Conductress
