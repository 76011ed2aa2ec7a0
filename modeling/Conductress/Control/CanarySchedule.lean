import Conductress.Control.DriftSeries

/-!
# The canary schedule over runs

What one evaluation can do to the schedule and the tasks is said once, in
`Evaluated`. From it: schedule rows stay and move from created to expired alone
(`Evaluated.keeps`), and a canary is created inside its freshness window, for a
day that has no row yet (`Evaluated.creates`).

* `canary_once` — over any events, whatever the configuration each of them is
  served under: no canary is created twice, none outside its window, none for a
  day that has a row.
-/

namespace Conductress

open Lib

namespace CanaryProfile

/-- The start of a day's freshness window. -/
def dueStart (profile : CanaryProfile) (utcDate : ℕ) : Instant :=
  utcDate * microsPerDay + profile.utcHour * microsPerHour

/-- The end of a day's freshness window. -/
def deadline (profile : CanaryProfile) (utcDate : ℕ) : Instant :=
  profile.dueStart utcDate + profile.freshnessHours * microsPerHour

end CanaryProfile

namespace CanaryScheduler

variable {now : Instant} {runnerId : String} {profile : CanaryProfile} {utcDate : ℕ}
  {db db' db'' : Database}

/-- The schedule row of a canary. -/
def createdRow (now : Instant) (runnerId : String) (profile : CanaryProfile) (utcDate : ℕ) :
    ScheduleRow :=
  scheduleRow runnerId profile.profileId utcDate .created
    (some (canaryTaskId runnerId profile.profileId utcDate)) now

/-- The task row of a canary. -/
def canaryRow (now : Instant) (runnerId : String) (profile : CanaryProfile) (utcDate : ℕ) : TaskRow :=
  ControlService.newRow (buildEnvelope runnerId profile utcDate now) .queued none
    (some (canaryTaskId runnerId profile.profileId utcDate)) now

@[simp] theorem canaryRow_taskId (now : Instant) (runnerId : String) (profile : CanaryProfile)
    (utcDate : ℕ) : (canaryRow now runnerId profile utcDate).taskId =
      canaryTaskId runnerId profile.profileId utcDate := rfl

/-- Everything one evaluation can do. -/
inductive Evaluated (now : Instant) (runnerId : String) (profile : CanaryProfile) (utcDate : ℕ)
    (db : Database) : Database → Prop where
  | kept : Evaluated now runnerId profile utcDate db db
  | missed : db.canarySchedule.find? (runnerId, profile.profileId, utcDate) = none →
      profile.deadline utcDate ≤ now →
      Evaluated now runnerId profile utcDate db (markMissed db runnerId profile.profileId utcDate now)
  | adopted : db.canarySchedule.find? (runnerId, profile.profileId, utcDate) = none →
      profile.dueStart utcDate ≤ now → now < profile.deadline utcDate →
      (db.task? (canaryTaskId runnerId profile.profileId utcDate)).isSome = true →
      Evaluated now runnerId profile utcDate db
        (ignoreInsert db (createdRow now runnerId profile utcDate))
  | created {inserted : Database} {record : AuditRecord} :
      db.canarySchedule.find? (runnerId, profile.profileId, utcDate) = none →
      profile.dueStart utcDate ≤ now → now < profile.deadline utcDate →
      db.task? (canaryTaskId runnerId profile.profileId utcDate) = none →
      (ignoreInsert db (createdRow now runnerId profile utcDate)).insertTask
        (canaryRow now runnerId profile utcDate) = some inserted →
      record.action = .canaryCreated →
      record.taskId = some (canaryTaskId runnerId profile.profileId utcDate) →
      Evaluated now runnerId profile utcDate db (inserted.audit record)
  | expired {entry : ScheduleRow} {task : TaskRow} :
      db.canarySchedule.find? (runnerId, profile.profileId, utcDate) = some entry →
      entry.state = .created → entry.taskId = some task.taskId → task ∈ db.tasks →
      task.state = .queued → profile.deadline utcDate ≤ now →
      Evaluated now runnerId profile utcDate db
        (markExpired db runnerId profile.profileId utcDate task now)

theorem evaluateRunner_evaluated (h : evaluateRunner now runnerId profile utcDate db = .ok db') :
    Evaluated now runnerId profile utcDate db db' := by
  unfold evaluateRunner at h
  dsimp only at h
  split at h
  · next entry hentry =>
    split at h
    · next task htask =>
      split at h
      · next hdue =>
        obtain rfl := Except.ok.inj h
        obtain ⟨taskId, hid, hfind⟩ := Option.bind_eq_some_iff.mp htask
        obtain ⟨hmem, rfl⟩ := Database.task?_eq_some_iff.mp hfind
        exact .expired hentry hdue.1 hid hmem hdue.2.2 hdue.2.1
      · exact Except.ok.inj h ▸ .kept
    · exact Except.ok.inj h ▸ .kept
  · next hnone =>
    split at h
    · exact Except.ok.inj h ▸ .kept
    · next hearly =>
      rw [not_lt] at hearly
      split at h
      · next hlate => exact Except.ok.inj h ▸ .missed hnone hlate
      · next hfresh =>
        rw [not_le] at hfresh
        unfold createCanary at h
        dsimp only at h
        split at h
        · next hsome => exact Except.ok.inj h ▸ .adopted hnone hearly hfresh hsome
        · next hfree =>
          split at h
          · cases h
          · next inserted hins =>
            rw [Bool.not_eq_true, Option.isSome_eq_false_iff, Option.isNone_iff_eq_none] at hfree
            exact Except.ok.inj h ▸ .created hnone hearly hfresh hfree hins rfl rfl

/-! ## Schedule rows -/

/-- A row only moves from created to expired. -/
def Moves (s t : ScheduleState) : Prop := t = s ∨ (s = .created ∧ t = .expired)

theorem Moves.trans {s t u : ScheduleState} (h : Moves s t) (h' : Moves t u) : Moves s u := by
  rcases h with rfl | ⟨rfl, rfl⟩
  · exact h'
  · rcases h' with rfl | ⟨hs, -⟩
    · exact .inr ⟨rfl, rfl⟩
    · cases hs

/-- The schedule row of a key is still there, for the same task. -/
def Keeps (db db' : Database) (key : String × String × ℕ) : Prop :=
  ∀ entry, db.canarySchedule.find? key = some entry →
    ∃ entry', db'.canarySchedule.find? key = some entry' ∧ entry'.taskId = entry.taskId ∧
      Moves entry.state entry'.state

theorem Keeps.refl (db : Database) (key : String × String × ℕ) : Keeps db db key :=
  fun entry h => ⟨entry, h, rfl, .inl rfl⟩

theorem Keeps.trans {key : String × String × ℕ} (h : Keeps db db' key) (h' : Keeps db' db'' key) :
    Keeps db db'' key := by
  intro entry hentry
  obtain ⟨entry', hentry', htask, hmoves⟩ := h entry hentry
  obtain ⟨entry'', hentry'', htask', hmoves'⟩ := h' entry' hentry'
  exact ⟨entry'', hentry'', htask'.trans htask, hmoves.trans hmoves'⟩

/-- The same schedule. -/
theorem Keeps.of_same (h : db'.canarySchedule = db.canarySchedule) (key : String × String × ℕ) :
    Keeps db db' key := by
  intro entry hentry
  rw [h]
  exact ⟨entry, hentry, rfl, .inl rfl⟩

theorem find?_ignoreInsert {row : ScheduleRow} (hfree : db.canarySchedule.find? row.key = none)
    (key : String × String × ℕ) :
    (ignoreInsert db row).canarySchedule.find? key =
      if key = row.key then some row else db.canarySchedule.find? key := by
  obtain ⟨inserted, hins⟩ := Option.isSome_iff_exists.mp (Table.insert?_isSome.mpr hfree)
  unfold ignoreInsert
  rw [hins]
  exact Table.find?_insert? hins key

theorem Keeps.of_ignoreInsert {row : ScheduleRow} (hfree : db.canarySchedule.find? row.key = none)
    (hschedule : db'.canarySchedule = (ignoreInsert db row).canarySchedule)
    (key : String × String × ℕ) : Keeps db db' key := by
  intro entry hentry
  rw [hschedule, find?_ignoreInsert hfree, if_neg]
  · exact ⟨entry, hentry, rfl, .inl rfl⟩
  · rintro rfl
    rw [hfree] at hentry
    cases hentry

theorem find?_markExpired {task : TaskRow} (key : String × String × ℕ) :
    (markExpired db runnerId profile.profileId utcDate task now).canarySchedule.find? key =
      if key = (runnerId, profile.profileId, utcDate) then
        (db.canarySchedule.find? (runnerId, profile.profileId, utcDate)).map fun r =>
          { r with state := .expired, updatedAt := now }
      else db.canarySchedule.find? key :=
  Table.find?_update db.canarySchedule (runnerId, profile.profileId, utcDate)
    (fun r => { r with state := .expired, updatedAt := now }) (fun _ => rfl) key

theorem task?_markExpired {task : TaskRow} (hmem : task ∈ db.tasks) (id : String) :
    (markExpired db runnerId profile.profileId utcDate task now).task? id =
      if id = task.taskId then some (StateWrite.expireCanary.set now task) else db.task? id :=
  Database.task?_write hmem .expireCanary now canarySubmitter
    (auditDetail profile.profileId utcDate) id

/-- **One evaluation** keeps every schedule row. -/
theorem Evaluated.keeps (h : Evaluated now runnerId profile utcDate db db')
    (key : String × String × ℕ) : Keeps db db' key := by
  cases h with
  | kept => exact .refl db key
  | missed hfree =>
    have hkey : db.canarySchedule.find?
      (scheduleRow runnerId profile.profileId utcDate .missed none now).key = none := hfree
    exact .of_ignoreInsert hkey rfl key
  | adopted hfree =>
    have hkey : db.canarySchedule.find? (createdRow now runnerId profile utcDate).key = none := hfree
    exact .of_ignoreInsert hkey rfl key
  | created hfree _ _ _ hins =>
    have hkey : db.canarySchedule.find? (createdRow now runnerId profile utcDate).key = none := hfree
    have hschedule := insertTask_canarySchedule hins
    exact .of_ignoreInsert hkey hschedule key
  | expired hentry hcreated =>
    intro entry hkey
    rw [find?_markExpired]
    split
    · next heq =>
      rw [heq, hentry] at hkey
      obtain rfl := Option.some.inj hkey
      rw [hentry]
      exact ⟨_, rfl, rfl, .inr ⟨hcreated, rfl⟩⟩
    · exact ⟨entry, hkey, rfl, .inl rfl⟩

/-! ## Creations -/

/-- The creation of a canary. -/
structure Creation where
  now      : Instant
  runnerId : String
  profile  : CanaryProfile
  utcDate  : ℕ

namespace Creation

def key (c : Creation) : String × String × ℕ := (c.runnerId, c.profile.profileId, c.utcDate)

def taskId (c : Creation) : String := canaryTaskId c.runnerId c.profile.profileId c.utcDate

/-- It happened within the freshness window of its day. -/
def InWindow (c : Creation) : Prop :=
  c.profile.dueStart c.utcDate ≤ c.now ∧ c.now < c.profile.deadline c.utcDate

end Creation

/-- An evaluation that leaves the canary's task where there was none. -/
def creationOf (now : Instant) (runnerId : String) (profile : CanaryProfile) (utcDate : ℕ)
    (db db' : Database) : List Creation :=
  let taskId := canaryTaskId runnerId profile.profileId utcDate
  if (db.task? taskId).isNone ∧ (db'.task? taskId).isSome then [⟨now, runnerId, profile, utcDate⟩]
  else []

/-- The creations of the evaluations of a tick, until one raises. -/
def tickCreations (now : Instant) : List (String × CanaryProfile × ℕ) → Database → List Creation
  | [], _ => []
  | (runnerId, profile, utcDate) :: rest, db =>
    match evaluateRunner now runnerId profile utcDate db with
    | .ok db' => creationOf now runnerId profile utcDate db db' ++ tickCreations now rest db'
    | .error _ => []

/-- An evaluation that leaves no new canary, and records none. -/
structure Quiet (now : Instant) (runnerId : String) (profile : CanaryProfile) (utcDate : ℕ)
    (db db' : Database) : Prop where
  creations : creationOf now runnerId profile utcDate db db' = []
  records   : ∃ records, db'.auditLog = db.auditLog ++ records ∧
    ∀ r ∈ records, r.action ≠ .canaryCreated

/-- An evaluation that creates a canary: within its window, on a day that has a
row from then on and had none before. -/
structure Fresh (db db' : Database) (c : Creation) : Prop where
  inWindow : c.InWindow
  free     : db.canarySchedule.find? c.key = none
  stored   : (db'.canarySchedule.find? c.key).isSome = true
  recorded : ∃ record : AuditRecord, db'.auditLog = db.auditLog ++ [record] ∧
    record.action = .canaryCreated ∧ record.taskId = some c.taskId

/-- The task is there already, or still is not. -/
theorem creationOf_eq_nil (h : (db.task? (canaryTaskId runnerId profile.profileId utcDate)).isSome =
      true ∨ db'.task? (canaryTaskId runnerId profile.profileId utcDate) =
        db.task? (canaryTaskId runnerId profile.profileId utcDate)) :
    creationOf now runnerId profile utcDate db db' = [] := by
  unfold creationOf
  dsimp only
  rw [if_neg]
  rintro ⟨hnone, hsome⟩
  rw [Option.isNone_iff_eq_none] at hnone
  rcases h with htaken | hsame
  · rw [hnone] at htaken
    cases htaken
  · rw [hsame, hnone] at hsome
    cases hsome

/-- **One evaluation** creates a canary within its window, or none. -/
theorem Evaluated.quiet_or_fresh (h : Evaluated now runnerId profile utcDate db db') :
    Quiet now runnerId profile utcDate db db' ∨
      (creationOf now runnerId profile utcDate db db' = [⟨now, runnerId, profile, utcDate⟩] ∧
        Fresh db db' ⟨now, runnerId, profile, utcDate⟩) := by
  cases h with
  | kept => exact .inl ⟨creationOf_eq_nil (.inr rfl), [], by simp, by simp⟩
  | missed =>
    refine .inl ⟨creationOf_eq_nil (.inr (task?_ignoreInsert _ _)),
      [missedRecord runnerId profile.profileId utcDate now], ?_, ?_⟩
    · unfold markMissed Database.audit
      rw [ignoreInsert_auditLog]
    · simp [missedRecord]
  | adopted =>
    refine .inl ⟨creationOf_eq_nil (.inr (task?_ignoreInsert _ _)), [], ?_, by simp⟩
    rw [ignoreInsert_auditLog, List.append_nil]
  | @created inserted record hnone hstart hend hfree hins haction htask =>
    obtain ⟨-, hlog, hlook⟩ := Database.insertTask_eq_some hins
    have hnew : (inserted.audit record).task? (canaryTaskId runnerId profile.profileId utcDate) =
        some (canaryRow now runnerId profile utcDate) := by
      rw [Database.task?_audit, hlook]
      exact if_pos rfl
    refine .inr ⟨?_, ⟨hstart, hend⟩, hnone, ?_, record, ?_, haction, htask⟩
    · unfold creationOf
      dsimp only
      rw [hnew, hfree]
      rfl
    · have hkey : db.canarySchedule.find? (createdRow now runnerId profile utcDate).key = none := hnone
      have hsame : Creation.key ⟨now, runnerId, profile, utcDate⟩ =
        (createdRow now runnerId profile utcDate).key := rfl
      have hschedule := insertTask_canarySchedule hins
      unfold Database.audit
      rw [hschedule, find?_ignoreInsert hkey, if_pos hsame]
      rfl
    · unfold Database.audit
      rw [hlog, ignoreInsert_auditLog]
  | @expired entry task _ _ _ hmem =>
    refine .inl ⟨creationOf_eq_nil ?_, [_], rfl, by simp [Database.writeRecord, StateWrite.action]⟩
    rw [task?_markExpired hmem]
    split
    · next hid =>
      rw [hid, Database.task?_of_mem hmem]
      exact .inl rfl
    · exact .inr rfl

/-- A database whose log has gained these records. -/
theorem created_append {records : List AuditRecord} (h : db'.auditLog = db.auditLog ++ records)
    (taskId : String) : CreatedByScheduler db' taskId ↔ CreatedByScheduler db taskId ∨
      ∃ r ∈ records, r.action = .canaryCreated ∧ r.taskId = some taskId := by
  unfold CreatedByScheduler
  rw [h]
  simp only [List.mem_append, or_and_right, exists_or]

/-- What some steps did to the schedule, and the canaries they created. -/
structure Creates (db db' : Database) (cs : List Creation) : Prop where
  keeps    : ∀ key, Keeps db db' key
  once     : (cs.map Creation.key).Nodup
  inWindow : ∀ c ∈ cs, c.InWindow
  fresh    : ∀ c ∈ cs, db.canarySchedule.find? c.key = none
  stored   : ∀ c ∈ cs, (db'.canarySchedule.find? c.key).isSome = true
  recorded : ∀ taskId, CreatedByScheduler db' taskId ↔
    CreatedByScheduler db taskId ∨ ∃ c ∈ cs, c.taskId = taskId

theorem Creates.none (h : ∀ key, Keeps db db' key)
    (hrecorded : ∀ taskId, CreatedByScheduler db' taskId ↔ CreatedByScheduler db taskId) :
    Creates db db' [] :=
  ⟨h, List.nodup_nil, by simp, by simp, by simp, by simpa using hrecorded⟩

theorem Creates.refl (db : Database) : Creates db db [] := .none (Keeps.refl db) fun _ => Iff.rfl

/-- A row that is there is not created again, so the creations of the later steps
are for other days. -/
theorem Creates.append {cs ds : List Creation} (h : Creates db db' cs) (h' : Creates db' db'' ds) :
    Creates db db'' (cs ++ ds) where
  keeps key := (h.keeps key).trans (h'.keeps key)
  once := by
    rw [List.map_append]
    refine h.once.append h'.once fun key hcreated hd => ?_
    obtain ⟨c, hc, rfl⟩ := List.mem_map.mp hcreated
    obtain ⟨d, hd, hkey⟩ := List.mem_map.mp hd
    have hstored := h.stored c hc
    rw [← hkey, h'.fresh d hd] at hstored
    cases hstored
  inWindow c hc := by
    rcases List.mem_append.mp hc with hc | hc
    · exact h.inWindow c hc
    · exact h'.inWindow c hc
  fresh c hc := by
    rcases List.mem_append.mp hc with hc | hc
    · exact h.fresh c hc
    · cases hfind : db.canarySchedule.find? c.key with
      | none => rfl
      | some entry =>
        obtain ⟨entry', hentry', -⟩ := h.keeps c.key entry hfind
        have hnone := h'.fresh c hc
        rw [hentry'] at hnone
        cases hnone
  stored c hc := by
    rcases List.mem_append.mp hc with hc | hc
    · obtain ⟨entry, hentry⟩ := Option.isSome_iff_exists.mp (h.stored c hc)
      obtain ⟨entry', hentry', -⟩ := h'.keeps c.key entry hentry
      rw [hentry']
      rfl
    · exact h'.stored c hc
  recorded taskId := by
    rw [h'.recorded, h.recorded, or_assoc]
    simp only [List.mem_append, or_and_right, exists_or]

/-- **One evaluation.** -/
theorem Evaluated.creates (h : Evaluated now runnerId profile utcDate db db') :
    Creates db db' (creationOf now runnerId profile utcDate db db') := by
  rcases h.quiet_or_fresh with ⟨hnil, records, hlog, hother⟩ | ⟨hone, hfresh⟩
  · rw [hnil]
    refine .none h.keeps fun taskId => ?_
    rw [created_append hlog]
    constructor
    · rintro (hbefore | ⟨r, hr, haction, -⟩)
      · exact hbefore
      · exact absurd haction (hother r hr)
    · exact .inl
  · obtain ⟨record, hlog, haction, htask⟩ := hfresh.recorded
    rw [hone]
    refine ⟨h.keeps, List.nodup_singleton _, ?_, ?_, ?_, fun taskId => ?_⟩
    · simpa using hfresh.inWindow
    · simpa using hfresh.free
    · simpa using hfresh.stored
    · rw [created_append hlog]
      simp [haction, htask]

/-- The evaluations of a tick, up to one that raises. -/
theorem tickFrom_creates {due : List (String × CanaryProfile × ℕ)} :
    Creates db (tickFrom now due db) (tickCreations now due db) := by
  induction due generalizing db with
  | nil => exact .refl db
  | cons d rest ih =>
    obtain ⟨runnerId, profile, utcDate⟩ := d
    unfold tickFrom tickCreations
    cases heval : evaluateRunner now runnerId profile utcDate db with
    | error _ => exact .refl db
    | ok db₁ => exact (evaluateRunner_evaluated heval).creates.append ih

end CanaryScheduler

/-! ## Runs -/

open CanaryScheduler

/-- An event, with the configuration the service was started with. -/
abbrev ServedEvent := ControlService × ServiceEvent

/-- The database after some events; a restart may change the configuration. -/
def dbAfter (db : Database) (es : List ServedEvent) : Database :=
  es.foldl (fun db e => perform e.1 e.2.moment e.2.operation db) db

/-- The creations of one event: only ticks create. -/
def eventCreations (db : Database) (e : ServedEvent) : List Creation :=
  match e.2.operation with
  | .tick => tickCreations e.2.moment.now (evaluations e.1 e.2.moment.now) db
  | _ => []

/-- The canaries created along some events, in order. -/
def creations : Database → List ServedEvent → List Creation
  | _, [] => []
  | db, e :: es => eventCreations db e ++ creations (perform e.1 e.2.moment e.2.operation db) es

theorem perform_creates (db : Database) (e : ServedEvent) :
    Creates db (perform e.1 e.2.moment e.2.operation db) (eventCreations db e) := by
  obtain ⟨svc, moment, operation⟩ := e
  by_cases htick : operation = .tick
  · subst htick
    exact tickFrom_creates
  · have hnone : eventCreations db (svc, ⟨moment, operation⟩) = [] := by
      unfold eventCreations
      cases operation with
      | tick => exact absurd rfl htick
      | _ => rfl
    rw [hnone]
    refine .none (Keeps.of_same (perform_canarySchedule svc moment db htick)) fun taskId => ⟨?_, ?_⟩
    · intro hcreated
      obtain ⟨cs, hrun, hinserts⟩ := perform_inserts svc moment operation db
      by_contra hbefore
      obtain ⟨a, c, b, hc, hstep, ha, hb⟩ := hrun.crossing (P := fun db => ¬ CreatedByScheduler db taskId)
        hbefore (not_not_intro hcreated)
      rcases hstep.created_before (not_not.mp hb) with hcreated | ⟨_, _, _, _, rfl, -⟩
      · exact ha hcreated
      · rcases hinserts _ _ _ _ _ hc with ⟨hsubmit, -⟩ | ⟨-, heq, -⟩
        · cases hsubmit
        · exact htick heq
    · exact perform_created svc moment operation

/-- **What any events do to the schedule**, by induction on them. -/
theorem dbAfter_creates (es : List ServedEvent) (db : Database) :
    Creates db (dbAfter db es) (creations db es) := by
  induction es generalizing db with
  | nil => exact .refl db
  | cons e es ih => exact (perform_creates db e).append (ih _)

/-- **A canary is created once**: over any events from an empty database, at any
times and under any configurations, every runner, profile and day has at most one
schedule row and at most one creation, which is within the day's freshness
window, and the tasks recorded as created are those; a schedule row stays, moves
from created to expired alone, and no canary is created for its day any more. -/
theorem canary_once (es fs : List ServedEvent) :
    ((dbAfter .empty es).canarySchedule.rows.map ScheduleRow.key).Nodup ∧
      ((creations .empty es).map Creation.key).Nodup ∧
      (∀ c ∈ creations .empty es, c.InWindow) ∧
      (∀ taskId, CreatedByScheduler (dbAfter .empty es) taskId ↔
        ∃ c ∈ creations .empty es, c.taskId = taskId) ∧
      ∀ entry ∈ (dbAfter .empty es).canarySchedule,
        (∃ entry', (dbAfter (dbAfter .empty es) fs).canarySchedule.find? entry.key = some entry' ∧
          Moves entry.state entry'.state) ∧
        ∀ c ∈ creations (dbAfter .empty es) fs, c.key ≠ entry.key := by
  have hes := dbAfter_creates es .empty
  have hfs := dbAfter_creates fs (dbAfter .empty es)
  refine ⟨(dbAfter .empty es).canarySchedule.nodup, hes.once, hes.inWindow, fun taskId => ?_,
    fun entry hentry => ?_⟩
  · rw [hes.recorded]
    constructor
    · rintro (⟨r, hr, -⟩ | hcreated)
      · cases hr
      · exact hcreated
    · exact .inr
  have hfind := Table.find?_key hentry
  obtain ⟨entry', hentry', -, hmoves⟩ := hfs.keeps entry.key entry hfind
  refine ⟨⟨entry', hentry', hmoves⟩, fun c hc hkey => ?_⟩
  have hnone := hfs.fresh c hc
  rw [hkey, hfind] at hnone
  cases hnone

open SmallDeployment in
/-- Two ticks of one day and one of the next: two creations for each runner. -/
example : ((creations .empty ([0, 3600, 86400].map fun n =>
    (canaried, ⟨moment n, .tick⟩))).map Creation.runnerId) =
      ["runner-1", "runner-2", "runner-1", "runner-2"] := by decide +kernel

end Conductress
