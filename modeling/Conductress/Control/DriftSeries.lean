import Conductress.Control.DataHost

/-!
# Whose scores are in a drift series

The service ingests the outcome of every completed row whose class is `canary`
and whose canary id names a profile and a date, and the scheduler takes a task
that is already stored under a canary's task id for that canary. A submission
may have both, so the columns alone say nothing about who created a row.

* `KeepsOffCanaries` — a submission that stores no canary of its own and
  nothing under a canary's task id;
* `series_of_scheduler` — in every run of such submissions every observation
  is the scheduler's canary's, and every scheduled task one the scheduler
  created;
* `submitted_canary_observed` — one submission of class `canary` puts its score
  into the series.
-/

namespace Conductress

open Lib

/-- The canary id names a profile and a date. -/
def NamesSeries (canaryId : Option String) : Prop :=
  ∃ text profileId utcDate, canaryId = some text ∧
    ControlService.splitCanaryId text = some (profileId, utcDate) ∧ profileId ≠ "" ∧ utcDate ≠ ""

/-- A row the service or the scheduler takes for a canary. -/
def TakenForCanary (svc : ControlService) (row : TaskRow) : Prop :=
  (row.taskClass = .canary ∧ NamesSeries row.canaryId) ∨ IsCanaryId svc row.taskId

/-- The condition on an operation: it stores no submission that is taken for a
canary. -/
def KeepsOffCanaries (svc : ControlService) (db : Database) : Operation → Prop
  | .submit envelope _ key _ _ =>
    (ControlService.existingTask db key envelope.taskId).isSome = true ∨
      (¬ (envelope.taskClass = .canary ∧ NamesSeries envelope.canaryId.get) ∧
        ¬ IsCanaryId svc envelope.taskId)
  | _ => True

/-- Every row that is taken for a canary was created by the scheduler. -/
def CanaryRows (svc : ControlService) (db : Database) : Prop :=
  ∀ row ∈ db.tasks, TakenForCanary svc row → CreatedByScheduler db row.taskId

/-- Every row under a canary's task id was created by the scheduler. -/
def CanaryIdRows (svc : ControlService) (db : Database) : Prop :=
  ∀ row ∈ db.tasks, IsCanaryId svc row.taskId → CreatedByScheduler db row.taskId

/-- Every task of the schedule was created by the scheduler, for its runner,
profile and day. -/
def ScheduleOwn (db : Database) : Prop :=
  ∀ entry ∈ db.canarySchedule, ∀ taskId, entry.taskId = some taskId →
    CreatedByScheduler db taskId ∧
      taskId = CanaryScheduler.canaryTaskId entry.runnerId entry.profileId entry.utcDate

/-! ## Rows -/

/-- A submission of a task that is stored changes nothing. -/
theorem perform_submit_existing {svc : ControlService} {m : Moment} {envelope : TaskEnvelope}
    {actor : String} {key login : Option String} {bypass : Bool} {db : Database}
    (h : (ControlService.existingTask db key envelope.taskId).isSome = true) :
    perform svc m (.submit envelope actor key login bypass) db = db := by
  simp only [perform]
  cases hsubmit : svc.submitTask m envelope actor key login bypass db with
  | error _ => rfl
  | ok answer =>
    obtain ⟨db', row, created⟩ := answer
    rcases ControlService.submitTask_ok hsubmit with ⟨-, rfl⟩ |
      ⟨-, -, pullRequest, state, reason, inserted, -, rfl, hins, -⟩
    · rfl
    · have hnone := ControlService.existingTask_eq_none hins
      have hid : (ControlService.resolvePullRequest envelope pullRequest).taskId =
          envelope.taskId := by cases pullRequest <;> rfl
      simp only [ControlService.newRow, hid] at hnone
      rw [hnone] at h
      cases h

section Taken

variable {Taken : TaskRow → Prop}

/-- Rows that are taken for something no write changes, each created by the
scheduler: a change whose insertions are the scheduler's, or are not taken for
it, keeps them so. -/
theorem Change.Step.schedulerRows {db db' : Database} {c : Change} (h : Change.Step db c db')
    (hset : ∀ (w : StateWrite) now row, Taken (w.set now row) → Taken row)
    (hc : ∀ action now actor detail row, c = .inserted action now actor detail row →
      action = .canaryCreated ∨ ¬ Taken row)
    (hrows : ∀ row ∈ db.tasks, Taken row → CreatedByScheduler db row.taskId) :
    ∀ row ∈ db'.tasks, Taken row → CreatedByScheduler db' row.taskId := by
  intro row' hrow' htaken
  rcases h.mem_after hrow' with ⟨hrow, -⟩ | ⟨action, now, actor, detail, rfl, -, -⟩ |
    ⟨w, now, actor, detail, row, rfl, hrow, -, rfl⟩
  · exact h.created_after (hrows row' hrow htaken)
  · rcases hc _ _ _ _ _ rfl with rfl | hnot
    · cases h with
      | inserted _ _ _ hlog =>
        refine ⟨ControlService.insertRecord .canaryCreated now actor detail row', ?_, rfl, rfl⟩
        rw [hlog]
        exact List.mem_append_right _ (List.mem_singleton_self _)
    · exact absurd htaken hnot
  · rw [StateWrite.set_taskId]
    exact h.created_after (hrows row hrow (hset w now row htaken))

/-- An operation keeps them so when it stores no submission that is taken. -/
theorem perform_schedulerRows {svc : ControlService} {m : Moment} {op : Operation} {db : Database}
    (hset : ∀ (w : StateWrite) now row, Taken (w.set now row) → Taken row)
    (hkeeps : ∀ envelope actor key login bypass, op = .submit envelope actor key login bypass →
      (ControlService.existingTask db key envelope.taskId).isSome = true ∨
        ∀ row : TaskRow, row.taskClass = envelope.taskClass → row.canaryId = envelope.canaryId.get →
          row.taskId = envelope.taskId → ¬ Taken row)
    (hrows : ∀ row ∈ db.tasks, Taken row → CreatedByScheduler db row.taskId) :
    ∀ row ∈ (perform svc m op db).tasks, Taken row →
      CreatedByScheduler (perform svc m op db) row.taskId := by
  by_cases hexisting : ∃ envelope actor key login bypass,
      op = .submit envelope actor key login bypass ∧
        (ControlService.existingTask db key envelope.taskId).isSome = true
  · obtain ⟨envelope, actor, key, login, bypass, rfl, hsome⟩ := hexisting
    rw [perform_submit_existing hsome]
    exact hrows
  · obtain ⟨cs, hrun, hinserts⟩ := perform_inserts svc m op db
    refine hrun.invariant_of_mem (fun db => ∀ row ∈ db.tasks, Taken row →
      CreatedByScheduler db row.taskId) hrows fun a c b hc hstep ih => hstep.schedulerRows hset ?_ ih
    rintro action now actor detail row rfl
    rcases hinserts _ _ _ _ _ hc with ⟨-, envelope, actor', key, login, bypass, pullRequest, state,
      submitterLogin, rfl, rfl⟩ | ⟨hcreated, -⟩
    · right
      rcases hkeeps _ _ _ _ _ rfl with hsome | hnot
      · exact absurd ⟨envelope, actor', key, login, bypass, rfl, hsome⟩ hexisting
      · -- the pull request is all that is resolved
        have hresolved : ∀ resolved, resolved = ControlService.resolvePullRequest envelope pullRequest →
            resolved.taskClass = envelope.taskClass ∧ resolved.canaryId = envelope.canaryId ∧
              resolved.taskId = envelope.taskId := by
          rintro _ rfl
          cases pullRequest <;> exact ⟨rfl, rfl, rfl⟩
        obtain ⟨hresolvedClass, hresolvedCanary, hresolvedId⟩ := hresolved _ rfl
        refine hnot _ hresolvedClass ?_ hresolvedId
        rw [ControlService.newRow, hresolvedCanary]
    · exact .inl hcreated

end Taken

/-- What a row is taken for is in columns no write changes. -/
theorem TakenForCanary.of_set {svc : ControlService} {w : StateWrite} {now : Instant} {row : TaskRow}
    (h : TakenForCanary svc (w.set now row)) : TakenForCanary svc row := by
  simpa only [TakenForCanary, StateWrite.set_taskClass, StateWrite.set_canaryId,
    StateWrite.set_taskId] using h

theorem CanaryScheduler.isCanaryId_of_set {svc : ControlService} (w : StateWrite) (now : Instant)
    (row : TaskRow) (h : IsCanaryId svc (w.set now row).taskId) : IsCanaryId svc row.taskId := by
  rwa [StateWrite.set_taskId] at h

theorem perform_canaryRows {svc : ControlService} {m : Moment} {op : Operation} {db : Database}
    (hkeeps : KeepsOffCanaries svc db op) (hrows : CanaryRows svc db) :
    CanaryRows svc (perform svc m op db) := by
  refine perform_schedulerRows (fun _ _ _ => TakenForCanary.of_set) ?_ hrows
  rintro envelope actor key login bypass rfl
  rcases hkeeps with hsome | ⟨hclass, hid⟩
  · exact .inl hsome
  · refine .inr fun row hrowClass hrowCanary hrowId htaken => ?_
    rcases htaken with htaken | htaken
    · rw [hrowClass, hrowCanary] at htaken
      exact hclass htaken
    · exact hid (hrowId ▸ htaken)

theorem CanaryRows.ids {svc : ControlService} {db : Database} (h : CanaryRows svc db) :
    CanaryIdRows svc db := fun row hrow hid => h row hrow (.inr hid)

/-! ## The schedule -/

/-- Creations are never taken back. -/
theorem CreatedByScheduler.mono {db db' : Database} {taskId : String}
    (h : CreatedByScheduler db taskId) (hlog : db.auditLog ⊆ db'.auditLog) :
    CreatedByScheduler db' taskId := by
  obtain ⟨r, hr, hcreates⟩ := h
  exact ⟨r, hlog hr, hcreates⟩

/-- A loop of row updates leaves the schedule alone. -/
theorem foldl_canarySchedule {f : Database → TaskRow → Database}
    (hf : ∀ db row, (f db row).canarySchedule = db.canarySchedule) (rows : List TaskRow)
    (db : Database) : (rows.foldl f db).canarySchedule = db.canarySchedule := by
  induction rows generalizing db with
  | nil => rfl
  | cons row rows ih => rw [List.foldl_cons, ih, hf]

theorem insertTask_canarySchedule {db db' : Database} {row : TaskRow}
    (h : db.insertTask row = some db') : db'.canarySchedule = db.canarySchedule := by
  unfold Database.insertTask at h
  split at h
  · cases h
  · obtain ⟨tasks, -, rfl⟩ := Option.map_eq_some_iff.mp h
    rfl

theorem expireStaleClaims_canarySchedule (now : Instant) (actor : String) (db : Database) :
    (ControlService.expireStaleClaims now actor db).canarySchedule = db.canarySchedule :=
  foldl_canarySchedule (f := fun db row => db.write .expireClaim now actor none row)
    (fun _ _ => rfl) _ db

/-- Only a tick writes the schedule. -/
theorem perform_canarySchedule (svc : ControlService) (m : Moment) {op : Operation} (db : Database)
    (hop : op ≠ .tick) : (perform svc m op db).canarySchedule = db.canarySchedule := by
  have hcommitted : ∀ {α : Type} (x : Except ControlError (Database × α)),
      (∀ db' a, x = .ok (db', a) → db'.canarySchedule = db.canarySchedule) →
        (committed db x).canarySchedule = db.canarySchedule := by
    intro α x hx
    cases x with
    | error _ => rfl
    | ok answer => exact hx answer.1 answer.2 rfl
  have hresolve : ∀ (w : StateWrite) (selector actor : String),
      (committed db (ControlService.resolveApproval w m.now selector actor db)).canarySchedule =
        db.canarySchedule := by
    intro w selector actor
    refine hcommitted _ fun db' _ h => ?_
    unfold ControlService.resolveApproval at h
    dsimp only at h
    split at h
    · cases h
    · obtain ⟨_, -, hanswer⟩ := except_map_ok.mp h
      obtain ⟨rfl, -⟩ := Prod.mk.inj hanswer
      exact foldl_canarySchedule (f := fun db row => db.write w m.now actor none row)
        (fun _ _ => rfl) _ db
  cases op with
  | tick => exact absurd rfl hop
  | approve selector actor => exact hresolve .approve selector actor
  | reject selector actor => exact hresolve .reject selector actor
  | expireStaleClaims actor => exact expireStaleClaims_canarySchedule m.now actor db
  | submit envelope actor key login bypass =>
    refine hcommitted _ fun db' _ h => ?_
    rcases ControlService.submitTask_ok h with ⟨-, rfl⟩ | ⟨-, -, _, _, _, _, -, -, hins, rfl⟩
    · rfl
    · have hinserted := insertTask_canarySchedule hins
      exact hinserted
  | cancel selector actor login isOwner =>
    refine hcommitted _ fun db' _ h => ?_
    unfold ControlService.cancelTask at h
    dsimp only at h
    split at h
    · cases h
    · obtain ⟨_, -, hanswer⟩ := except_map_ok.mp h
      obtain ⟨rfl, -⟩ := Prod.mk.inj hanswer
      refine foldl_canarySchedule (fun db row => ?_) _ db
      unfold ControlService.cancelRow
      split
      · split <;> rfl
      · rfl
  | claim runnerId actor =>
    refine hcommitted _ fun db' _ h => ?_
    have hexpire := expireStaleClaims_canarySchedule m.now "system" db
    obtain ⟨-, ⟨_, -, -, -, rfl, -⟩ | ⟨-, -, rfl, -⟩ | ⟨-, _, -, -, -, rfl, -⟩⟩ :=
      ControlService.claimTask_ok h
    · exact hexpire
    · exact hexpire
    · exact hexpire
  | accept runnerId taskId token actor =>
    refine hcommitted _ fun db' _ h => ?_
    obtain ⟨_, -, -, -, -, ⟨-, rfl, -⟩ | ⟨-, -, rfl, -⟩⟩ := ControlService.acceptTask_ok h <;> rfl
  | recordOutcome runnerId taskId outcome actor =>
    refine hcommitted _ fun db' _ h => ?_
    obtain ⟨-, -, _, -, -, -, ⟨-, rfl, -⟩ | ⟨-, -, rfl, -⟩⟩ := ControlService.recordOutcome_ok h <;>
      rfl

namespace CanaryScheduler

/-- A schedule row that is inserted, or ignored because its key is taken. -/
theorem mem_ignoreInsert {db : Database} {row entry : ScheduleRow}
    (h : entry ∈ (ignoreInsert db row).canarySchedule) : entry ∈ db.canarySchedule ∨ entry = row := by
  unfold ignoreInsert at h
  split at h
  · next hins => exact (Table.mem_insert? hins).mp h
  · exact .inl h

/-- The entries of an expired canary's schedule, with the key and task they had. -/
theorem mem_markExpired {db : Database} {runnerId profileId : String} {utcDate : ℕ} {row : TaskRow}
    {now : Instant} {entry : ScheduleRow}
    (h : entry ∈ (markExpired db runnerId profileId utcDate row now).canarySchedule) :
    ∃ old ∈ db.canarySchedule, old.key = entry.key ∧ old.taskId = entry.taskId := by
  have hmap : entry ∈ db.canarySchedule.rows.map fun r =>
      if r.key = (runnerId, profileId, utcDate) then { r with state := .expired, updatedAt := now }
      else r := h
  obtain ⟨old, hold, rfl⟩ := List.mem_map.mp hmap
  refine ⟨old, hold, ?_⟩
  split <;> exact ⟨rfl, rfl⟩

/-- A schedule that gains at most a row without a task, or with a task the
scheduler created. -/
theorem scheduleOwn_of_ignoreInsert {db db' : Database} {row : ScheduleRow} (hown : ScheduleOwn db)
    (hschedule : db'.canarySchedule = (ignoreInsert db row).canarySchedule)
    (hlog : db.auditLog ⊆ db'.auditLog)
    (hrow : ∀ taskId, row.taskId = some taskId → CreatedByScheduler db' taskId ∧
      taskId = canaryTaskId row.runnerId row.profileId row.utcDate) : ScheduleOwn db' := by
  intro entry hentry taskId hid
  rw [hschedule] at hentry
  rcases mem_ignoreInsert hentry with hold | rfl
  · exact ⟨(hown entry hold taskId hid).1.mono hlog, (hown entry hold taskId hid).2⟩
  · exact hrow taskId hid

/-- An evaluation creates the rows it adds. -/
theorem evaluateRunner_canaryIdRows {svc : ControlService} {now : Instant} {runnerId : String}
    {profile : CanaryProfile} {utcDate : ℕ} {db db' : Database}
    (h : evaluateRunner now runnerId profile utcDate db = .ok db') (hrows : CanaryIdRows svc db) :
    CanaryIdRows svc db' := by
  obtain ⟨cs, hrun, hcs⟩ := evaluateRunner_changes h
  refine hrun.invariant_of_mem _ hrows fun a c b hc hstep ih =>
    hstep.schedulerRows isCanaryId_of_set ?_ ih
  rintro action now actor detail row rfl
  rcases hcs _ hc with ⟨_, _, _, heq⟩ | ⟨_, _, heq⟩ | ⟨_, heq⟩
  · cases heq
    exact .inl rfl
  · cases heq
  · cases heq

/-- **One evaluation keeps the schedule**: a task it finds under the canary's id
was created by the scheduler. -/
theorem evaluateRunner_scheduleOwn {svc : ControlService} {now : Instant} {runnerId : String}
    {profile : CanaryProfile} {utcDate : ℕ} {db db' : Database}
    (h : evaluateRunner now runnerId profile utcDate db = .ok db')
    (hcanary : IsCanaryId svc (canaryTaskId runnerId profile.profileId utcDate))
    (hrows : CanaryIdRows svc db) (hown : ScheduleOwn db) : ScheduleOwn db' := by
  unfold evaluateRunner at h
  dsimp only at h
  split at h
  · split at h
    · next entry _ task _ =>
      split at h
      · -- the canary expires: its entry keeps its key and its task
        obtain rfl := Except.ok.inj h
        intro entry hentry taskId hid
        have hlog : db.auditLog ⊆
            (markExpired db runnerId profile.profileId utcDate task now).auditLog := by
          intro r hr
          unfold markExpired Database.write
          exact List.mem_append_left _ hr
        obtain ⟨old, hold, hkey, htask⟩ := mem_markExpired hentry
        obtain ⟨hcreated, hname⟩ := hown old hold taskId (htask.trans hid)
        simp only [ScheduleRow.key, Prod.mk.injEq] at hkey
        rw [hkey.1, hkey.2.1, hkey.2.2] at hname
        exact ⟨hcreated.mono hlog, hname⟩
      · exact Except.ok.inj h ▸ hown
    · exact Except.ok.inj h ▸ hown
  · split at h
    · exact Except.ok.inj h ▸ hown
    · split at h
      · obtain rfl := Except.ok.inj h
        refine scheduleOwn_of_ignoreInsert hown rfl (fun r hr => ?_) fun taskId hid => by cases hid
        unfold markMissed Database.audit
        rw [ignoreInsert_auditLog]
        exact List.mem_append_left _ hr
      · unfold createCanary at h
        dsimp only at h
        split at h
        · next hsome =>
          obtain rfl := Except.ok.inj h
          have hlog : db.auditLog ⊆ (ignoreInsert db (scheduleRow runnerId profile.profileId utcDate
              .created (some (canaryTaskId runnerId profile.profileId utcDate)) now)).auditLog := by
            rw [ignoreInsert_auditLog]
            exact List.Subset.refl _
          refine scheduleOwn_of_ignoreInsert hown rfl hlog fun taskId hid => ?_
          obtain rfl := Option.some.inj hid
          -- the adopted task is stored under a canary's id
          obtain ⟨row, hrow⟩ := Option.isSome_iff_exists.mp hsome
          obtain ⟨hmem, hrowId⟩ := Database.task?_eq_some_iff.mp hrow
          have hcreated := hrows row hmem (hrowId ▸ hcanary)
          rw [hrowId] at hcreated
          exact ⟨hcreated.mono hlog, rfl⟩
        · split at h
          · cases h
          · next inserted hins =>
            obtain rfl := Except.ok.inj h
            obtain ⟨-, hsame, -⟩ := Database.insertTask_eq_some hins
            have hinserted := insertTask_canarySchedule hins
            refine scheduleOwn_of_ignoreInsert hown hinserted (fun r hr => ?_) fun taskId hid => ?_
            · unfold Database.audit
              rw [hsame, ignoreInsert_auditLog]
              exact List.mem_append_left _ hr
            · obtain rfl := Option.some.inj hid
              refine ⟨⟨_, List.mem_append_right _ (List.mem_singleton_self _), rfl, rfl⟩, rfl⟩

/-- The loop of a tick keeps rows and schedule. -/
theorem tickFrom_scheduleOwn {svc : ControlService} {now : Instant}
    {due : List (String × CanaryProfile × ℕ)} {db : Database}
    (hdue : ∀ d ∈ due, IsCanaryId svc (canaryTaskId d.1 d.2.1.profileId d.2.2))
    (hrows : CanaryIdRows svc db) (hown : ScheduleOwn db) : ScheduleOwn (tickFrom now due db) := by
  induction due generalizing db with
  | nil => exact hown
  | cons d rest ih =>
    obtain ⟨runnerId, profile, utcDate⟩ := d
    unfold tickFrom
    cases heval : evaluateRunner now runnerId profile utcDate db with
    | error _ => exact hown
    | ok db₁ =>
      have hcanary := hdue (runnerId, profile, utcDate) List.mem_cons_self
      have hown₁ := evaluateRunner_scheduleOwn heval hcanary hrows hown
      exact ih (fun d hd => hdue d (List.mem_cons_of_mem _ hd))
        (evaluateRunner_canaryIdRows heval hrows) hown₁

end CanaryScheduler

theorem perform_scheduleOwn {svc : ControlService} {m : Moment} {op : Operation} {db : Database}
    (hrows : CanaryIdRows svc db) (hown : ScheduleOwn db) : ScheduleOwn (perform svc m op db) := by
  by_cases hop : op = .tick
  · rw [hop]
    exact CanaryScheduler.tickFrom_scheduleOwn (fun d hd => CanaryScheduler.isCanaryId_of_mem hd)
      hrows hown
  · intro entry hentry taskId hid
    rw [perform_canarySchedule svc m db hop] at hentry
    obtain ⟨hcreated, hname⟩ := hown entry hentry taskId hid
    exact ⟨perform_created svc m op hcreated, hname⟩

/-! ## Observations -/

/-- The observation is that of a canary the scheduler created, for the runner,
profile and day of its series. -/
def ObservationOwn (svc : ControlService) (db : Database) (o : Observation) : Prop :=
  ∃ row profile utcDate, db.task? o.taskId = some row ∧ row.IsReported ∧
    CreatedByScheduler db o.taskId ∧ CanaryOf svc row profile utcDate ∧
    o.series = (row.runnerId, profile.profileId, profile.profileVersion) ∧ o.utcDate = dateText utcDate

/-- What the ingestion of a row adds is the row's observation, for the profile
and date its canary id names. -/
theorem ingestCanaryObservation_mem {svc : ControlService} {now : Instant} {outcome : TaskOutcome}
    {canaryId : String} {row : TaskRow} {t : DriftTables} {o : Observation}
    (h : o ∈ (svc.ingestCanaryObservation now outcome canaryId row t).observations) :
    o ∈ t.observations ∨ ∃ profileId utcDate profileVersion,
      ControlService.splitCanaryId canaryId = some (profileId, utcDate) ∧ profileId ≠ "" ∧
      utcDate ≠ "" ∧ o.taskId = row.taskId ∧ o.utcDate = utcDate ∧
      o.series = (row.runnerId, profileId, profileVersion) ∧
      ∀ profile, svc.canaryProfiles.find? profileId = some profile →
        profileVersion = profile.profileVersion := by
  unfold ControlService.ingestCanaryObservation at h
  split at h
  · next i hi =>
    split at h
    · next hingest =>
      rcases DriftAnalyzer.ingestOutcome_mem hingest h with hold | ⟨hseries, hdate, htask⟩
      · exact .inl hold
      · right
        unfold ControlService.canaryIngestion at hi
        split at hi
        · cases hi
        · next profileId utcDate hsplit =>
          split at hi
          · cases hi
          · next hnamed =>
            rw [not_or] at hnamed
            obtain ⟨profileVersion, hversion, hi⟩ := except_bind_ok.mp hi
            obtain ⟨_, -, hi⟩ := except_bind_ok.mp hi
            obtain rfl := Option.some.inj (except_pure_ok.mp hi)
            refine ⟨profileId, utcDate, profileVersion, hsplit, hnamed.1, hnamed.2, htask, hdate,
              hseries, fun profile hprofile => ?_⟩
            rw [ControlService.profileVersion, hprofile] at hversion
            exact (Except.ok.inj hversion).symm
    · exact .inl h
  · exact .inl h
  · exact .inl h

/-- A reported canary stays whose observation it is. -/
theorem ObservationOwn.perform {svc : ControlService} {db : Database} {o : Observation}
    (h : ObservationOwn svc db o) (m : Moment) (op : Operation) :
    ObservationOwn svc (Conductress.perform svc m op db) o := by
  obtain ⟨row, profile, utcDate, hrow, hreported, hcreated, hcanary, hseries, hdate⟩ := h
  exact ⟨row, profile, utcDate, perform_reported_after svc m op hrow hreported, hreported,
    perform_created svc m op hcreated, hcanary, hseries, hdate⟩

/-- The state in which every series is the scheduler's. -/
structure SeriesOwn (svc : ControlService) (host : DataHost) : Prop where
  created      : CanariesCreated svc host.db
  rows         : CanaryRows svc host.db
  schedule     : ScheduleOwn host.db
  observations : ∀ o ∈ host.drift.observations, ObservationOwn svc host.db o

/-- **One step keeps the series the scheduler's**: an observation is ingested
for a row that is taken for a canary, and such a row is the scheduler's. -/
theorem SeriesOwn.step {svc : ControlService} {host : DataHost} {e : HostEvent}
    (hkeeps : KeepsOffCanaries svc host.db e.operation) (h : SeriesOwn svc host) :
    SeriesOwn svc (DataHost.step svc host e) := by
  have hcreated := perform_canariesCreated e.moment e.operation h.created
  have hrows := perform_canaryRows (m := e.moment) hkeeps h.rows
  have hschedule : ScheduleOwn (perform svc e.moment e.operation host.db) :=
    perform_scheduleOwn h.rows.ids h.schedule
  have hold : ∀ o ∈ host.drift.observations,
      ObservationOwn svc (perform svc e.moment e.operation host.db) o :=
    fun o ho => (h.observations o ho).perform e.moment e.operation
  refine ⟨?_, ?_, ?_, fun o ho => ?_⟩
  · rw [DataHost.step_db]
    exact hcreated
  · rw [DataHost.step_db]
    exact hrows
  · rw [DataHost.step_db]
    exact hschedule
  · rw [DataHost.step_db]
    rcases DataHost.step_cases svc host e with ⟨outcome, row, hrecords, hstep⟩ | ⟨hdrift, -, -⟩
    · rw [hstep, DataHost.afterCommit] at ho
      dsimp only at ho
      split at ho
      · next canaryId hmetadata =>
        split at ho
        · rcases ingestCanaryObservation_mem ho with ho | ⟨profileId, date, version, hsplit,
            hprofile, hdate, htask, hoDate, hoSeries, hversion⟩
          · exact hold o ho
          · obtain ⟨hreported, -, -, -, -, hlook⟩ := hrecords.row_eq
            have hrow : (perform svc e.moment e.operation host.db).task? row.taskId = some row := by
              rw [hlook, if_pos rfl]
            have hcanaryRow : row.taskClass = .canary ∧ row.canaryId = some canaryId := by
              unfold ControlService.canaryMetadata at hmetadata
              split at hmetadata
              · next hclass => exact ⟨hclass.1, (Option.filter_eq_some_iff.mp hmetadata).1⟩
              · cases hmetadata
            have hrowCreated := hrows row (Database.task?_eq_some_iff.mp hrow).1
              (.inl ⟨hcanaryRow.1, canaryId, profileId, date, hcanaryRow.2, hsplit, hprofile, hdate⟩)
            obtain ⟨row', profile, utcDate, hrow', hcanary⟩ := hcreated _ hrowCreated
            rw [hrow] at hrow'
            obtain rfl := Option.some.inj hrow'
            -- the id names the profile and day the scheduler created the row for
            obtain rfl : canaryId = canaryIdOf profile utcDate := by
              have hid := hcanaryRow.2
              rw [hcanary.canaryId] at hid
              exact (Option.some.inj hid).symm
            rw [ControlService.splitCanaryId_canaryIdOf] at hsplit
            obtain ⟨rfl, rfl⟩ := Prod.mk.inj (Option.some.inj hsplit)
            rw [← htask] at hrow hrowCreated
            exact ⟨row, profile, utcDate, hrow, hreported, hrowCreated, hcanary,
              by rw [hoSeries, hversion profile hcanary.registered], hoDate⟩
        · exact hold o ho
      · exact hold o ho
    · rw [hdrift] at ho
      exact hold o ho

/-! ## Runs -/

/-- **Every drift series is the scheduler's.** In every run, with whatever
crashes, that stores no submission taken for a canary, every observation is
that of a task the scheduler created for the runner, profile and day, with the
profile's task body, and every task of the schedule was created by the
scheduler for that entry. -/
theorem series_of_scheduler {svc : ControlService} {es : List HostEvent} {host : DataHost}
    (h : Run (fun host e host' => KeepsOffCanaries svc host.db e.operation ∧
      host' = DataHost.step svc host e) .empty es host) :
    (∀ o ∈ host.drift.observations, ObservationOwn svc host.db o) ∧ ScheduleOwn host.db := by
  have hown : SeriesOwn svc host := by
    refine h.invariant _ ?_ ?_
    · exact ⟨canariesCreated_empty svc, fun row hrow => absurd hrow (Table.not_mem_empty row),
        fun entry hentry => absurd hentry (Table.not_mem_empty entry),
        fun o ho => absurd ho (Table.not_mem_empty o)⟩
    · rintro a e _ ⟨hkeeps, rfl⟩ ih
      exact ih.step hkeeps
  exact ⟨hown.observations, hown.schedule⟩

open SmallDeployment in
/-- A run of the scheduler's own canary. -/
theorem series_of_scheduler_canary :
    (∀ o ∈ (DataHost.run canaried (canaryAccepted ++ [reportCanary 3 .answered])).drift.observations,
      ObservationOwn canaried
        (DataHost.run canaried (canaryAccepted ++ [reportCanary 3 .answered])).db o) ∧
    ScheduleOwn (DataHost.run canaried (canaryAccepted ++ [reportCanary 3 .answered])).db :=
  series_of_scheduler (Run.of_guarded (DataHost.step canaried)
    (fun host e => KeepsOffCanaries canaried host.db e.operation) _ .empty
    ⟨trivial, trivial, trivial, trivial, trivial⟩)

namespace SmallDeployment

/-- An operator's submission of class `canary` with a canary id of its own. -/
def submitCanary (n : ℕ) (taskId canaryId : String) : HostEvent :=
  hosted ⟨moment n, .submit { envelope taskId .canary with canaryId := .value canaryId }
    "operator:ops" none none false⟩

/-- The submitted canary is claimed, accepted and completed with a score. -/
def submittedCanary : List HostEvent :=
  [submitCanary 0 "t1" "standard:2026-01-01", hosted (claim 1), hosted (accept 2 "t1" 1),
    hosted ⟨moment 3, .recordOutcome "runner-1" "t1"
      { outcome "t1" .completed with result := .value [("score", .float (.finite 1000))] }
      "runner:runner-1"⟩]

end SmallDeployment

open SmallDeployment in
/-- An operator submits a task of class `canary` under the canary id of a
profile and a day: its score is that day's accepted observation. -/
theorem submitted_canary_observed :
    ¬ ∀ (svc : ControlService) (es : List HostEvent),
      ∀ o ∈ (DataHost.run svc es).drift.observations, o.accepted = true →
        ObservationOwn svc (DataHost.run svc es).db o := by
  intro h
  have hobserved : ∃ o ∈ (DataHost.run canaried submittedCanary).drift.observations.rows,
      o.accepted = true ∧ o.taskId = "t1" := by decide +kernel
  obtain ⟨o, ho, haccepted, htask⟩ := hobserved
  obtain ⟨-, -, -, -, -, hcreated, -⟩ := h canaried submittedCanary o ho haccepted
  rw [htask] at hcreated
  revert hcreated
  unfold CreatedByScheduler
  decide +kernel

end Conductress
