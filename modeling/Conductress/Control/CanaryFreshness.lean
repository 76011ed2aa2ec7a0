import Conductress.Control.CanarySchedule

/-!
# Stale canaries

A tick looks at today and yesterday. A canary that was still queued when the
service went down, or whose claim ran out after its day, is neither: it stays
queued past its deadline and is claimed on a later day (`forgotten_canary`).

* `fresh_after_tick` — in every run whose ticks get to every stale canary there
  is, none is left after a tick.
-/

namespace Conductress

open Lib CanaryScheduler

variable {svc : ControlService} {now : Instant} {runnerId : String} {profile : CanaryProfile}
  {utcDate : ℕ} {db db' : Database} {row : TaskRow}

/-- A task the scheduler created for an enabled runner with a known profile, and
the day of its schedule row. -/
structure IsCanary (svc : ControlService) (db : Database) (row : TaskRow) (profile : CanaryProfile)
    (utcDate : ℕ) : Prop where
  stored    : row ∈ db.tasks
  created   : CreatedByScheduler db row.taskId
  assigned  : ∃ runner ∈ svc.registry.enabledRunners, runner.runnerId = row.runnerId ∧
    runner.canaryProfile.bind svc.canaryProfiles.find? = some profile
  scheduled : ∃ entry, db.canarySchedule.find? (row.runnerId, profile.profileId, utcDate) = some entry ∧
    entry.taskId = some row.taskId

/-- It is still queued at its freshness deadline. -/
structure Stale (svc : ControlService) (now : Instant) (db : Database) (row : TaskRow)
    (profile : CanaryProfile) (utcDate : ℕ) : Prop extends IsCanary svc db row profile utcDate where
  queued : row.state = .queued
  late   : profile.deadline utcDate ≤ now

/-- The id of what is due is no other task's idempotency key. -/
def KeyFree (db : Database) (due : String × CanaryProfile × ℕ) : Prop :=
  ∀ other ∈ db.tasks, other.idempotencyKey = some (canaryTaskId due.1 due.2.1.profileId due.2.2) →
    other.taskId = canaryTaskId due.1 due.2.1.profileId due.2.2

/-- The canary would be created now, and its id is another task's key. -/
structure Blocked (now : Instant) (db : Database) (due : String × CanaryProfile × ℕ) : Prop where
  unscheduled : db.canarySchedule.find? (due.1, due.2.1.profileId, due.2.2) = none
  started     : due.2.1.dueStart due.2.2 ≤ now
  fresh       : now < due.2.1.deadline due.2.2
  taken       : ¬ KeyFree db due

/-- A tick evaluates it, and nothing before it is blocked. -/
def GetsTo (svc : ControlService) (now : Instant) (db : Database)
    (due : String × CanaryProfile × ℕ) : Prop :=
  ∃ before after, evaluations svc now = before ++ due :: after ∧ ∀ d ∈ before, ¬ Blocked now db d

/-! ## Tasks along a tick -/

/-- A task is as it was, or cancelled. -/
def KeptOrCancelled (db db' : Database) : Prop :=
  ∀ id row, db.task? id = some row →
    db'.task? id = some row ∨ ∃ row', db'.task? id = some row' ∧ row'.state = .cancelled

theorem KeptOrCancelled.refl (db : Database) : KeptOrCancelled db db := fun _ _ h => .inl h

theorem KeptOrCancelled.trans {db'' : Database} (h : KeptOrCancelled db db')
    (h' : KeptOrCancelled db' db'') (hcancelled : ∀ id row, db'.task? id = some row →
      row.state = .cancelled → ∃ row', db''.task? id = some row' ∧ row'.state = .cancelled) :
    KeptOrCancelled db db'' := by
  intro id row hrow
  rcases h id row hrow with hsame | ⟨row', hrow', hstate⟩
  · exact h' id row hsame
  · exact .inr (hcancelled id row' hrow' hstate)

/-- Nothing is written to a cancelled task. -/
theorem StateWrite.not_allowed_cancelled {w : StateWrite} (hstate : row.state = .cancelled) :
    ¬ w.Allowed db now row := by
  intro hallowed
  cases w with
  | expireClaim =>
    have hclaimed := ControlService.isStale_claimed hallowed
    rw [hstate] at hclaimed
    cases hclaimed
  | _ => simp [StateWrite.Allowed, hstate] at hallowed

/-- A task that was cancelled stays so along any changes. -/
theorem Change.run_cancelled {cs : List Change} (h : Run Change.Step db cs db') {id : String}
    (hrow : db.task? id = some row) : ∃ row', db'.task? id = some row' ∧
      (row.state = .cancelled → row'.state = .cancelled) := by
  refine h.invariant (fun db => ∃ row', db.task? id = some row' ∧
    (row.state = .cancelled → row'.state = .cancelled)) ⟨row, hrow, fun h => h⟩ ?_
  rintro a c b hstep ⟨row', hrow', hkeeps⟩
  rcases hstep.row_after hrow' with hsame | ⟨w, at', actor, detail, -, hallowed, hwritten⟩
  · exact ⟨row', hsame, hkeeps⟩
  · refine ⟨_, hwritten, fun hcancelled => ?_⟩
    exact absurd hallowed (StateWrite.not_allowed_cancelled (hkeeps hcancelled))

theorem evaluateRunner_tasks (h : evaluateRunner now runnerId profile utcDate db = .ok db') :
    KeptOrCancelled db db' := by
  intro id row hrow
  cases evaluateRunner_evaluated h with
  | kept => exact .inl hrow
  | missed => exact .inl ((task?_ignoreInsert _ _).trans hrow)
  | adopted => exact .inl ((task?_ignoreInsert _ _).trans hrow)
  | created _ _ _ hfree hins =>
    obtain ⟨-, -, hlook⟩ := Database.insertTask_eq_some hins
    rw [Database.task?_audit, hlook, task?_ignoreInsert]
    split
    · next hid =>
      rw [hid, canaryRow_taskId, hfree] at hrow
      cases hrow
    · exact .inl hrow
  | expired _ _ _ hmem =>
    rw [task?_markExpired hmem]
    split
    · exact .inr ⟨_, rfl, rfl⟩
    · exact .inl hrow

theorem tickFrom_tasks (due : List (String × CanaryProfile × ℕ)) (db : Database) :
    KeptOrCancelled db (tickFrom now due db) := by
  induction due generalizing db with
  | nil => exact .refl db
  | cons d rest ih =>
    obtain ⟨runnerId, profile, utcDate⟩ := d
    unfold tickFrom
    cases heval : evaluateRunner now runnerId profile utcDate db with
    | error _ => exact .refl db
    | ok db₁ =>
      refine (evaluateRunner_tasks heval).trans (ih db₁) fun id row hrow hstate => ?_
      obtain ⟨cs, hrun, -⟩ : ∃ cs, Run Change.Step db₁ cs (tickFrom now rest db₁) ∧
        ∀ c ∈ cs, TickChange now rest c := tickFrom_changes rest db₁
      obtain ⟨row', hrow', hkeeps⟩ := Change.run_cancelled hrun hrow
      exact ⟨row', hrow', hkeeps hstate⟩

/-- A task that is queued after a tick was as it is all along. -/
theorem tickFrom_queued {due : List (String × CanaryProfile × ℕ)} {id : String} {row' : TaskRow}
    (hrow : db.task? id = some row) (hrow' : (tickFrom now due db).task? id = some row')
    (hqueued : row'.state = .queued) : row' = row := by
  have hkept : KeptOrCancelled db (tickFrom now due db) := tickFrom_tasks due db
  rcases hkept id row hrow with hsame | ⟨row'', hrow'', hcancelled⟩
  · exact Option.some.inj (hrow'.symm.trans hsame)
  · obtain rfl := Option.some.inj (hrow'.symm.trans hrow'')
    rw [hqueued] at hcancelled
    cases hcancelled

/-- What a tick creates was not there before it. -/
theorem tickCreations_unborn {due : List (String × CanaryProfile × ℕ)} {c : Creation}
    (hc : c ∈ tickCreations now due db) : db.task? c.taskId = none := by
  induction due generalizing db with
  | nil => cases hc
  | cons d rest ih =>
    obtain ⟨runnerId, profile, utcDate⟩ := d
    unfold tickCreations at hc
    cases heval : evaluateRunner now runnerId profile utcDate db with
    | error _ =>
      rw [heval] at hc
      cases hc
    | ok db₁ =>
      rw [heval] at hc
      rcases List.mem_append.mp hc with hc | hc
      · unfold creationOf at hc
        dsimp only at hc
        split at hc
        · next hnew =>
          rw [List.mem_singleton.mp hc]
          exact Option.isNone_iff_eq_none.mp hnew.1
        · cases hc
      · have hnone := ih hc
        cases hfind : db.task? c.taskId with
        | none => rfl
        | some row =>
          rcases evaluateRunner_tasks heval c.taskId row hfind with hsame | ⟨row', hrow', -⟩
          · rw [hnone] at hsame
            cases hsame
          · rw [hnone] at hrow'
            cases hrow'

/-! ## Schedule rows and their tasks -/

/-- A schedule row names a task that exists, and is still created unless the task
is cancelled. -/
def ScheduleLinked (db : Database) : Prop :=
  ∀ key entry id, db.canarySchedule.find? key = some entry → entry.taskId = some id →
    ∃ row, db.task? id = some row ∧ (entry.state ≠ .created → row.state = .cancelled)

/-- The row of a key that names a task was there before, or is that of a canary
still within its window. -/
theorem CanaryScheduler.Evaluated.entry_before (h : Evaluated now runnerId profile utcDate db db')
    {key : String × String × ℕ} {entry' : ScheduleRow} {id : String}
    (hentry' : db'.canarySchedule.find? key = some entry') (hid : entry'.taskId = some id) :
    (∃ entry, db.canarySchedule.find? key = some entry ∧ entry.taskId = some id) ∨
      (key = (runnerId, profile.profileId, utcDate) ∧ now < profile.deadline utcDate ∧
        entry'.state = .created ∧ (db'.task? id).isSome = true) := by
  have hinsert : ∀ (entry : ScheduleRow) (db₁ : Database), db.canarySchedule.find? entry.key = none →
      db₁.canarySchedule = (ignoreInsert db entry).canarySchedule →
      db₁.canarySchedule.find? key = some entry' →
      (∃ entry, db.canarySchedule.find? key = some entry ∧ entry.taskId = some id) ∨
        (key = entry.key ∧ entry' = entry) := by
    intro entry db₁ hfree hschedule hfind
    rw [hschedule, find?_ignoreInsert hfree] at hfind
    split at hfind
    · next hkey => exact .inr ⟨hkey, (Option.some.inj hfind).symm⟩
    · exact .inl ⟨entry', hfind, hid⟩
  cases h with
  | kept => exact .inl ⟨entry', hentry', hid⟩
  | missed hfree =>
    rcases hinsert (scheduleRow runnerId profile.profileId utcDate .missed none now) _ hfree rfl
      hentry' with hold | ⟨-, rfl⟩
    · exact .inl hold
    · cases hid
  | adopted hfree _ hend hsome =>
    rcases hinsert (createdRow now runnerId profile utcDate) _ hfree rfl hentry' with
      hold | ⟨hkey, rfl⟩
    · exact .inl hold
    · obtain rfl := Option.some.inj hid
      refine .inr ⟨hkey, hend, rfl, ?_⟩
      rw [task?_ignoreInsert]
      exact hsome
  | @created inserted record hfree _ hend _ hins =>
    have hschedule := insertTask_canarySchedule hins
    rcases hinsert (createdRow now runnerId profile utcDate) _ hfree hschedule hentry' with
      hold | ⟨hkey, rfl⟩
    · exact .inl hold
    · obtain rfl := Option.some.inj hid
      refine .inr ⟨hkey, hend, rfl, ?_⟩
      obtain ⟨-, -, hlook⟩ := Database.insertTask_eq_some hins
      rw [Database.task?_audit, hlook, canaryRow_taskId, if_pos rfl]
      rfl
  | @expired entry task hentry =>
    rw [find?_markExpired] at hentry'
    split at hentry'
    · next hkey =>
      rw [hentry] at hentry'
      obtain rfl := Option.some.inj hentry'
      exact .inl ⟨entry, hkey ▸ hentry, hid⟩
    · exact .inl ⟨entry', hentry', hid⟩

/-- A row of the schedule that names a task and is no longer created was so
before, or its task was cancelled. -/
theorem CanaryScheduler.Evaluated.entry_expired (h : Evaluated now runnerId profile utcDate db db')
    {key : String × String × ℕ} {entry' : ScheduleRow} {id : String}
    (hentry' : db'.canarySchedule.find? key = some entry') (hid : entry'.taskId = some id)
    (hover : entry'.state ≠ .created) :
    db.canarySchedule.find? key = some entry' ∨
      ∃ row, db'.task? id = some row ∧ row.state = .cancelled := by
  have hinsert : ∀ (entry : ScheduleRow) (db₁ : Database), db.canarySchedule.find? entry.key = none →
      entry.state = .created ∨ entry.taskId = none →
      db₁.canarySchedule = (ignoreInsert db entry).canarySchedule →
      db₁.canarySchedule.find? key = some entry' → db.canarySchedule.find? key = some entry' := by
    intro entry db₁ hfree hkind hschedule hfind
    rw [hschedule, find?_ignoreInsert hfree] at hfind
    split at hfind
    · exfalso
      obtain rfl := Option.some.inj hfind
      rcases hkind with hcreated | hnone
      · exact hover hcreated
      · rw [hnone] at hid
        cases hid
    · exact hfind
  cases h with
  | kept => exact .inl hentry'
  | missed hfree => exact .inl (hinsert (scheduleRow runnerId profile.profileId utcDate .missed none
      now) _ hfree (.inr rfl) rfl hentry')
  | adopted hfree => exact .inl (hinsert (createdRow now runnerId profile utcDate) _ hfree
      (.inl rfl) rfl hentry')
  | created hfree _ _ _ hins =>
    have hschedule := insertTask_canarySchedule hins
    exact .inl (hinsert (createdRow now runnerId profile utcDate) _ hfree (.inl rfl) hschedule
      hentry')
  | @expired entry task hentry hcreated htask hmem =>
    rw [find?_markExpired] at hentry'
    split at hentry'
    · rw [hentry] at hentry'
      obtain rfl := Option.some.inj hentry'
      have hid : entry.taskId = some id := hid
      obtain rfl : task.taskId = id := Option.some.inj (htask.symm.trans hid)
      refine .inr ⟨StateWrite.expireCanary.set now task, ?_, rfl⟩
      rw [task?_markExpired hmem, if_pos rfl]
    · exact .inl hentry'

/-- Tasks that are kept or go on from where they were keep the links of rows that
were there. -/
theorem ScheduleLinked.of_changes {cs : List Change} (hlinked : ScheduleLinked db)
    (hrun : Run Change.Step db cs db') {key : String × String × ℕ} {entry : ScheduleRow} {id : String}
    (hentry : db.canarySchedule.find? key = some entry) (hid : entry.taskId = some id) :
    ∃ row, db'.task? id = some row ∧ (entry.state ≠ .created → row.state = .cancelled) := by
  obtain ⟨row, hrow, hstate⟩ := hlinked key entry id hentry hid
  obtain ⟨row', hrow', hkeeps⟩ := Change.run_cancelled hrun hrow
  exact ⟨row', hrow', fun hover => hkeeps (hstate hover)⟩

theorem evaluateRunner_linked (h : evaluateRunner now runnerId profile utcDate db = .ok db')
    (hlinked : ScheduleLinked db) : ScheduleLinked db' := by
  have heval := evaluateRunner_evaluated h
  obtain ⟨cs, hrun, -⟩ := evaluateRunner_changes h
  intro key entry' id hentry' hid
  by_cases hcreated : entry'.state = .created
  · rcases heval.entry_before hentry' hid with ⟨entry, hentry, hid⟩ | ⟨-, -, -, hsome⟩
    · obtain ⟨row, hrow, -⟩ := hlinked.of_changes hrun hentry hid
      exact ⟨row, hrow, fun h => absurd hcreated h⟩
    · obtain ⟨row, hrow⟩ := Option.isSome_iff_exists.mp hsome
      exact ⟨row, hrow, fun h => absurd hcreated h⟩
  · rcases heval.entry_expired hentry' hid hcreated with hold | ⟨row, hrow, hstate⟩
    · exact hlinked.of_changes hrun hold hid
    · exact ⟨row, hrow, fun _ => hstate⟩

theorem tickFrom_linked (due : List (String × CanaryProfile × ℕ)) (hlinked : ScheduleLinked db) :
    ScheduleLinked (tickFrom now due db) := by
  induction due generalizing db with
  | nil => exact hlinked
  | cons d rest ih =>
    obtain ⟨runnerId, profile, utcDate⟩ := d
    unfold tickFrom
    cases heval : evaluateRunner now runnerId profile utcDate db with
    | error _ => exact hlinked
    | ok db₁ => exact ih (evaluateRunner_linked heval hlinked)

theorem perform_linked (svc : ControlService) (m : Moment) (op : Operation)
    (hlinked : ScheduleLinked db) : ScheduleLinked (perform svc m op db) := by
  by_cases hop : op = .tick
  · rw [hop]
    exact tickFrom_linked (evaluations svc m.now) hlinked
  · obtain ⟨cs, hrun, -⟩ := perform_changes svc m op db
    intro key entry id hentry hid
    rw [perform_canarySchedule svc m db hop] at hentry
    exact hlinked.of_changes hrun hentry hid

theorem reachable_linked {es : List ServiceEvent} (h : Run (ServiceStep svc) .empty es db) :
    ScheduleLinked db := by
  refine h.invariant _ (fun key entry id hentry => by cases hentry) ?_
  rintro a e _ rfl hlinked
  exact perform_linked svc e.moment e.operation hlinked

/-! ## The tick -/

/-- A key that is no other task's stays so. -/
theorem evaluateRunner_keyFree (h : evaluateRunner now runnerId profile utcDate db = .ok db')
    {due : String × CanaryProfile × ℕ} (hfree : KeyFree db due) : KeyFree db' due := by
  obtain ⟨cs, hrun, hcs⟩ := evaluateRunner_changes h
  refine hrun.invariant_of_mem (KeyFree · due) hfree fun a c b hc hstep ih => ?_
  intro other hother hkey
  rcases hstep.mem_after hother with ⟨hold, -⟩ | ⟨action, at', actor, detail, rfl, -, -⟩ |
    ⟨w, at', actor, detail, row, rfl, hrow, -, rfl⟩
  · exact ih other hold hkey
  · exact (hcs _ hc).ownKey _ _ _ _ _ rfl _ hkey
  · rw [StateWrite.set_idempotencyKey] at hkey
    rw [StateWrite.set_taskId]
    exact ih row hrow hkey

/-- What is not blocked stays so: schedule rows are kept. -/
theorem evaluateRunner_blocked (h : evaluateRunner now runnerId profile utcDate db = .ok db')
    {due : String × CanaryProfile × ℕ} (hblocked : Blocked now db' due) : Blocked now db due where
  unscheduled := by
    cases hfind : db.canarySchedule.find? (due.1, due.2.1.profileId, due.2.2) with
    | none => rfl
    | some entry =>
      obtain ⟨entry', hentry', -⟩ := (evaluateRunner_evaluated h).keeps _ entry hfind
      have hnone := hblocked.unscheduled
      rw [hentry'] at hnone
      cases hnone
  started := hblocked.started
  fresh   := hblocked.fresh
  taken hfree := hblocked.taken (evaluateRunner_keyFree h hfree)

/-- An evaluation that is not blocked raises nothing. -/
theorem evaluateRunner_of_not_blocked {due : String × CanaryProfile × ℕ}
    (hclear : ¬ Blocked now db due) : ∃ db', evaluateRunner now due.1 due.2.1 due.2.2 db = .ok db' := by
  by_cases hfree : KeyFree db due
  · exact evaluateRunner_ok hfree
  · unfold evaluateRunner
    dsimp only
    split
    · split
      · split <;> exact ⟨_, rfl⟩
      · exact ⟨_, rfl⟩
    · next hnone =>
      split
      · exact ⟨_, rfl⟩
      · next hearly =>
        split
        · exact ⟨_, rfl⟩
        · next hlate => exact absurd ⟨hnone, not_lt.mp hearly, not_le.mp hlate, hfree⟩ hclear

/-- The tick gets past evaluations that are not blocked. -/
theorem tickFrom_reaches {before : List (String × CanaryProfile × ℕ)}
    (hclear : ∀ d ∈ before, ¬ Blocked now db d) (rest : List (String × CanaryProfile × ℕ)) :
    tickFrom now (before ++ rest) db = tickFrom now rest (tickFrom now before db) := by
  induction before generalizing db with
  | nil => rfl
  | cons d before ih =>
    obtain ⟨runnerId, profile, utcDate⟩ := d
    obtain ⟨db₀, heval⟩ := evaluateRunner_of_not_blocked (hclear _ List.mem_cons_self)
    dsimp only at heval
    rw [List.cons_append, tickFrom, tickFrom, heval]
    exact ih fun d hd hblocked =>
      hclear d (List.mem_cons_of_mem _ hd) (evaluateRunner_blocked heval hblocked)

/-- **A queued canary past its deadline** does not survive its evaluation. -/
theorem evaluateRunner_expires {entry : ScheduleRow}
    (hentry : db.canarySchedule.find? (runnerId, profile.profileId, utcDate) = some entry)
    (hcreated : entry.state = .created) (hid : entry.taskId = some row.taskId)
    (hrow : db.task? row.taskId = some row) (hqueued : row.state = .queued)
    (hlate : profile.deadline utcDate ≤ now) :
    evaluateRunner now runnerId profile utcDate db =
      .ok (markExpired db runnerId profile.profileId utcDate row now) := by
  unfold evaluateRunner
  dsimp only
  rw [hentry]
  dsimp only
  rw [hid, Option.bind_some, hrow]
  exact if_pos ⟨hcreated, hlate, hqueued⟩

/-- A row of the schedule after a tick that names a task was there before, or is
that of an evaluation still within its window. -/
theorem tickFrom_entry_before {due : List (String × CanaryProfile × ℕ)} {key : String × String × ℕ}
    {entry' : ScheduleRow} {id : String}
    (hentry' : (tickFrom now due db).canarySchedule.find? key = some entry')
    (hid : entry'.taskId = some id) :
    (∃ entry, db.canarySchedule.find? key = some entry ∧ entry.taskId = some id) ∨
      ∃ d ∈ due, key = (d.1, d.2.1.profileId, d.2.2) ∧ now < d.2.1.deadline d.2.2 := by
  induction due generalizing db with
  | nil => exact .inl ⟨entry', hentry', hid⟩
  | cons d rest ih =>
    obtain ⟨runnerId, profile, utcDate⟩ := d
    unfold tickFrom at hentry'
    cases heval : evaluateRunner now runnerId profile utcDate db with
    | error _ =>
      rw [heval] at hentry'
      exact .inl ⟨entry', hentry', hid⟩
    | ok db₁ =>
      rw [heval] at hentry'
      rcases ih hentry' with ⟨entry, hentry, hid⟩ | ⟨d, hd, hkey, hearly⟩
      · rcases (evaluateRunner_evaluated heval).entry_before hentry hid with
          hold | ⟨hkey, hearly, -⟩
        · exact .inl hold
        · exact .inr ⟨_, List.mem_cons_self, hkey, hearly⟩
      · exact .inr ⟨d, List.mem_cons_of_mem _ hd, hkey, hearly⟩

/-- What is due is due under the registry's profile. -/
theorem profile_of_due {d : String × CanaryProfile × ℕ} (h : d ∈ evaluations svc now) :
    svc.canaryProfiles.find? d.2.1.profileId = some d.2.1 := by
  obtain ⟨runner, hrunner, hdue⟩ := List.mem_flatMap.mp h
  cases hprofile : runner.canaryProfile.bind svc.canaryProfiles.find? with
  | none =>
    rw [hprofile] at hdue
    cases hdue
  | some profile =>
    rw [hprofile] at hdue
    obtain ⟨name, -, hfind⟩ := Option.bind_eq_some_iff.mp hprofile
    have hregistered := Table.find?_key (Table.find?_eq_some_iff.mp hfind).1
    simp only [List.mem_cons, List.not_mem_nil, or_false] at hdue
    rcases hdue with rfl | rfl <;> exact hregistered

theorem IsCanary.registered (h : IsCanary svc db row profile utcDate) :
    svc.canaryProfiles.find? profile.profileId = some profile := by
  obtain ⟨runner, -, -, hprofile⟩ := h.assigned
  obtain ⟨name, -, hfind⟩ := Option.bind_eq_some_iff.mp hprofile
  exact Table.find?_key (Table.find?_eq_some_iff.mp hfind).1

/-- A canary that is stale after a tick was so before it. -/
theorem stale_before (hlinked : ScheduleLinked db)
    (h : Stale svc now (tick svc now db) row profile utcDate) : Stale svc now db row profile utcDate := by
  obtain ⟨entry', hentry', hid⟩ := h.scheduled
  -- a schedule row this tick made is within its window
  have hold : ∃ entry,
      db.canarySchedule.find? (row.runnerId, profile.profileId, utcDate) = some entry ∧
        entry.taskId = some row.taskId := by
    rcases tickFrom_entry_before hentry' hid with hold | ⟨d, hd, hkey, hearly⟩
    · exact hold
    · exfalso
      simp only [Prod.mk.injEq] at hkey
      have hprofile := profile_of_due hd
      rw [← hkey.2.1, h.registered] at hprofile
      rw [← Option.some.inj hprofile, ← hkey.2.2] at hearly
      exact absurd hearly (not_lt.mpr h.late)
  obtain ⟨entry, hentry, hid⟩ := hold
  obtain ⟨row₀, hrow₀, -⟩ := hlinked _ entry row.taskId hentry hid
  have hrow := Database.task?_of_mem h.stored
  -- and nothing is put back into the queue
  obtain rfl : row = row₀ := tickFrom_queued hrow₀ hrow h.queued
  refine ⟨⟨(Database.task?_eq_some_iff.mp hrow₀).1, ?_, h.assigned, entry, hentry, hid⟩, h.queued,
    h.late⟩
  rcases (tickFrom_creates.recorded row.taskId).mp h.created with hcreated | ⟨c, hc, hcid⟩
  · exact hcreated
  · have hnone := tickCreations_unborn hc
    rw [hcid, hrow₀] at hnone
    cases hnone

/-- A stale canary that the tick gets to is not left. -/
theorem not_stale_of_getsTo (hlinked : ScheduleLinked db)
    (h : Stale svc now db row profile utcDate)
    (hgets : GetsTo svc now db (row.runnerId, profile, utcDate)) :
    ¬ Stale svc now (tick svc now db) row profile utcDate := by
  intro hafter
  obtain ⟨before, after, hdue, hclear⟩ := hgets
  have htick : tick svc now db =
      tickFrom now ((row.runnerId, profile, utcDate) :: after) (tickFrom now before db) := by
    rw [tick, hdue, tickFrom_reaches hclear]
  have hqueued := Database.task?_of_mem hafter.stored
  rw [htick] at hqueued
  obtain ⟨entry, hentry, hid⟩ := h.scheduled
  obtain ⟨entry₁, hentry₁, htask, -⟩ := tickFrom_creates.keeps _ entry hentry
  have hid₁ : entry₁.taskId = some row.taskId := htask.trans hid
  -- where its evaluation starts, the task is still queued and its row created
  obtain ⟨row₁, hrow₁, hstate₁⟩ := tickFrom_linked before hlinked _ entry₁ _ hentry₁ hid₁
  obtain rfl := tickFrom_queued hrow₁ hqueued h.queued
  have hcreated : entry₁.state = .created := by
    by_contra hover
    have hcancelled := hstate₁ hover
    rw [h.queued] at hcancelled
    cases hcancelled
  -- so the evaluation cancels it
  have heval := evaluateRunner_expires hentry₁ hcreated hid₁ hrow₁ h.queued h.late
  rw [tickFrom, heval] at hqueued
  have hcancelled : (markExpired (tickFrom now before db) row.runnerId profile.profileId utcDate row
      now).task? row.taskId = some (StateWrite.expireCanary.set now row) := by
    rw [task?_markExpired (Database.task?_eq_some_iff.mp hrow₁).1, if_pos rfl]
  have hsame := tickFrom_queued hcancelled hqueued h.queued
  have hstate := h.queued
  rw [hsame] at hstate
  cases hstate

/-- With canary keys of their own, a tick gets to the canaries of today and
yesterday. -/
theorem getsTo_of_recent (hown : CanaryKeysOwn svc db) (h : IsCanary svc db row profile utcDate)
    (hrecent : utcDate = dayOf now - 1 ∨ utcDate = dayOf now) :
    GetsTo svc now db (row.runnerId, profile, utcDate) := by
  obtain ⟨runner, hrunner, hid, hprofile⟩ := h.assigned
  have hdue : (row.runnerId, profile, utcDate) ∈ evaluations svc now := by
    refine List.mem_flatMap.mpr ⟨runner, hrunner, ?_⟩
    rw [hprofile, hid]
    rcases hrecent with rfl | rfl <;> simp
  obtain ⟨before, after, hsplit⟩ := List.append_of_mem hdue
  refine ⟨before, after, hsplit, fun d hd hblocked => hblocked.taken fun other hother hkey => ?_⟩
  have hmem : d ∈ evaluations svc now := by
    rw [hsplit]
    exact List.mem_append_left _ hd
  exact hown other hother _ hkey (isCanaryId_of_mem hmem)

/-! ## Runs -/

/-- The condition on an event: a tick gets to every stale canary there is. -/
def ReachesStale (svc : ControlService) (db : Database) (e : ServiceEvent) : Prop :=
  e.operation = .tick → ∀ row profile utcDate,
    Stale svc e.moment.now db row profile utcDate →
      GetsTo svc e.moment.now db (row.runnerId, profile, utcDate)

/-- **No stale canary after a tick**, in every run whose ticks get to every stale
canary they find. -/
theorem fresh_after_tick {es fs : List ServiceEvent} {m : Moment}
    (h : Run (fun db e db' => ReachesStale svc db e ∧ ServiceStep svc db e db') .empty es db)
    (hlast : es = fs ++ [⟨m, .tick⟩]) (row : TaskRow) (profile : CanaryProfile) (utcDate : ℕ) :
    ¬ Stale svc m.now db row profile utcDate := by
  cases h with
  | refl => simp at hlast
  | @snoc before _ es' e hrun hstep =>
    obtain ⟨-, heq⟩ := List.append_inj' hlast rfl
    obtain rfl := List.singleton_inj.mp heq
    obtain ⟨hreaches, rfl⟩ := hstep
    have hlinked : ScheduleLinked before := reachable_linked (hrun.monotone fun _ _ _ h => h.2)
    intro hafter
    have hbefore : Stale svc m.now before row profile utcDate := stale_before hlinked hafter
    exact not_stale_of_getsTo hlinked hbefore (hreaches rfl _ _ _ hbefore) hafter

open SmallDeployment in
/-- Two ticks, a day apart: the second finds the canaries of the first still
queued, and gets to them. -/
theorem fresh_after_tick_next_day :
    ¬ Stale canaried (moment 86400).now
      (serve canaried .empty [⟨moment 0, .tick⟩, ⟨moment 86400, .tick⟩])
      (canaryRow (moment 0).now "runner-1" SmallDeployment.profile 20454)
      SmallDeployment.profile 20454 := by
  have hown : CanaryKeysOwn canaried (serve canaried .empty [⟨moment 0, .tick⟩]) := by
    have hkeys : ∀ row ∈ (serve canaried .empty [⟨moment 0, .tick⟩]).tasks.rows,
      row.idempotencyKey = some row.taskId := by decide +kernel
    intro row hrow key hkey _
    exact Option.some.inj ((hkeys row hrow).symm.trans hkey)
  have hdays : ∀ entry ∈ (serve canaried .empty [⟨moment 0, .tick⟩]).canarySchedule.rows,
      entry.taskId ≠ none →
        entry.key.2.2 = dayOf (moment 86400).now - 1 ∨ entry.key.2.2 = dayOf (moment 86400).now := by
    decide +kernel
  have hguarded : Run.Guarded (fun db (e : ServiceEvent) => perform canaried e.moment e.operation db)
      (ReachesStale canaried) .empty [⟨moment 0, .tick⟩, ⟨moment 86400, .tick⟩] := by
    refine ⟨?_, ?_, trivial⟩
    · intro _ row _ _ hstale
      exact absurd hstale.stored (Table.not_mem_empty row)
    · intro _ row profile utcDate hstale
      refine getsTo_of_recent hown hstale.toIsCanary ?_
      obtain ⟨entry, hentry, hid⟩ := hstale.scheduled
      obtain ⟨hmem, hkey⟩ := Table.find?_eq_some_iff.mp hentry
      have hday := hdays entry hmem (by simp [hid])
      rw [hkey] at hday
      exact hday
  have hlast : [⟨moment 0, .tick⟩, ⟨moment 86400, .tick⟩] =
    [(⟨moment 0, .tick⟩ : ServiceEvent)] ++ [⟨moment 86400, .tick⟩] := rfl
  exact fresh_after_tick (Run.of_guarded _ _ _ _ hguarded) hlast _ _ _

open SmallDeployment in
/-- The canary of the first day, three days later: no tick was made in between,
this one looks at two other days, and the task is there to be claimed. -/
theorem forgotten_canary :
    ¬ ∀ (svc : ControlService) (es : List ServiceEvent) (db : Database) (m : Moment),
      Run (ServiceStep svc) .empty (es ++ [⟨m, .tick⟩]) db →
        ∀ row profile utcDate, ¬ Stale svc m.now db row profile utcDate := by
  intro h
  refine h canaried [⟨moment 0, .tick⟩] _ (moment 259200) (serve_run canaried .empty _)
    (canaryRow (moment 0).now "runner-1" profile 20454) profile 20454 ?_
  refine ⟨⟨?_, ?_, ?_, ?_⟩, rfl, by decide +kernel⟩
  · exact (by decide +kernel : canaryRow (moment 0).now "runner-1" profile 20454 ∈
      (serve canaried .empty [⟨moment 0, .tick⟩, ⟨moment 259200, .tick⟩]).tasks.rows)
  · exact (by decide +kernel : ∃ r ∈
      (serve canaried .empty [⟨moment 0, .tick⟩, ⟨moment 259200, .tick⟩]).auditLog,
        r.action = .canaryCreated ∧
          r.taskId = some (canaryRow (moment 0).now "runner-1" profile 20454).taskId)
  · exact ⟨⟨"runner-1", true, some "standard"⟩, by decide +kernel, rfl, by decide +kernel⟩
  · exact ⟨createdRow (moment 0).now "runner-1" profile 20454, by decide +kernel, rfl⟩

end Conductress
