import Conductress.Lib.Except
import Conductress.Lib.Transition
import Conductress.Control.CanaryScheduler

/-!
# Every operation is a sequence of changes

A `Change` is one write of a task's state: the insertion of a row or one
UPDATE, with its audit record. `Change.Step` says what a change does and under
which guard, once; `perform_changes` says that every operation of the service,
batch cancels and canary ticks included, is a sequence of changes the
operation permits. The invariants of the later modules are proved per change.
-/

namespace Conductress

open Lib

/-! ## Operations -/

/-- One call of the service, with the arguments its callers pass. -/
inductive Operation where
  | submit (envelope : TaskEnvelope) (actor : String) (idempotencyKey identityLogin : Option String)
      (ownerBypass : Bool)
  | cancel (selector actor : String) (identityLogin : Option String) (isOwner : Bool)
  | approve (selector actor : String)
  | reject (selector actor : String)
  | expireStaleClaims (actor : String)
  | claim (runnerId actor : String)
  | accept (runnerId taskId : String) (claimToken : ClaimToken) (actor : String)
  | recordOutcome (runnerId taskId : String) (outcome : TaskOutcome) (actor : String)
  | tick

/-- The database a transaction leaves: unchanged when it raised. -/
def committed {α : Type} (db : Database) : Except ControlError (Database × α) → Database
  | .ok (db', _) => db'
  | .error _ => db

/-- The database after an operation. -/
def perform (svc : ControlService) (m : Moment) (op : Operation) (db : Database) : Database :=
  match op with
  | .submit envelope actor key login bypass =>
    committed db (svc.submitTask m envelope actor key login bypass db)
  | .cancel selector actor login isOwner =>
    committed db (ControlService.cancelTask m.now selector actor login isOwner db)
  | .approve selector actor => committed db (ControlService.approveTasks m.now selector actor db)
  | .reject selector actor => committed db (ControlService.rejectTasks m.now selector actor db)
  | .expireStaleClaims actor => ControlService.expireStaleClaims m.now actor db
  | .claim runnerId actor => committed db (svc.claimTask m runnerId actor db)
  | .accept runnerId taskId token actor =>
    committed db (ControlService.acceptTask m.now runnerId taskId token actor db)
  | .recordOutcome runnerId taskId outcome actor =>
    committed db (svc.recordOutcome m.now runnerId taskId outcome actor db)
  | .tick => CanaryScheduler.tick svc m.now db

/-! ## Changes -/

/-- One write of a task's state, or one of the canary schedule alone, with an
audit record about no task if any. -/
inductive Change where
  | inserted (action : AuditAction) (now : Instant) (actor : String) (detail : Option Fields)
      (row : TaskRow)
  | wrote (w : StateWrite) (now : Instant) (actor : String) (detail : Option Fields) (row : TaskRow)
  | scheduled (record : Option AuditRecord)

/-- A row no runner has touched. -/
structure TaskRow.Fresh (row : TaskRow) : Prop where
  state       : row.state = .queued ∨ row.state = .pendingApproval
  claimToken  : row.claimToken = none
  acceptedAt  : row.acceptedAt = none
  completedAt : row.completedAt = none
  outcome     : row.outcome = none

/-- No task of the runner is claimed or accepted. -/
def RunnerFree (db : Database) (runnerId : String) : Prop :=
  ∀ row ∈ db.tasks, row.runnerId = runnerId → row.state ≠ .claimed ∧ row.state ≠ .accepted

/-- When the service makes a write on a row. -/
def StateWrite.Allowed (db : Database) (now : Instant) (row : TaskRow) : StateWrite → Prop
  | cancel => row.state = .queued ∨ row.state = .pendingApproval
  | requestCancel => row.state = .claimed ∨ row.state = .accepted
  | approve | reject => row.state = .pendingApproval
  | expireClaim => ControlService.isStale now row = true
  | claim .. => row.state = .queued ∧ RunnerFree db row.runnerId
  | accept => row.state = .claimed ∧ ∃ lease, row.leaseExpires = some lease ∧ now < lease
  | report outcome =>
    (row.state = .accepted ∨ row.state = .cancelRequested) ∧
      outcome.taskId = row.taskId ∧ outcome.runnerId = row.runnerId
  | expireCanary => row.state = .queued

/-- What a change does to the database, and when it happens. -/
inductive Change.Step : Database → Change → Database → Prop
  | inserted {db db' : Database} {action : AuditAction} {now : Instant} {actor : String}
      {detail : Option Fields} {row : TaskRow} :
      db.task? row.taskId = none → row.Fresh →
      (∀ id, db'.task? id = if id = row.taskId then some row else db.task? id) →
      db'.auditLog = db.auditLog ++ [ControlService.insertRecord action now actor detail row] →
      Step db (.inserted action now actor detail row) db'
  | wrote {db db' : Database} {w : StateWrite} {now : Instant} {actor : String}
      {detail : Option Fields} {row : TaskRow} :
      row ∈ db.tasks → w.Allowed db now row →
      (∀ id, db'.task? id = if id = row.taskId then some (w.set now row) else db.task? id) →
      db'.auditLog = db.auditLog ++ [Database.writeRecord w now actor detail row] →
      Step db (.wrote w now actor detail row) db'
  | scheduled {db db' : Database} {record : Option AuditRecord} :
      (∀ r ∈ record, r.taskId = none) → (∀ id, db'.task? id = db.task? id) →
      db'.auditLog = db.auditLog ++ record.toList →
      Step db (.scheduled record) db'

namespace Change

/-- The row of a task after a change that did not insert or write it. -/
def rowId : Change → Option String
  | inserted _ _ _ _ row | wrote _ _ _ _ row => some row.taskId
  | scheduled _ => none

/-- A change leaves every other task alone. -/
theorem Step.task?_of_ne {db db' : Database} {c : Change} (h : Step db c db') {id : String}
    (hid : c.rowId ≠ some id) : db'.task? id = db.task? id := by
  cases h with
  | inserted _ _ hlook _ | wrote _ _ hlook _ =>
    rw [hlook, if_neg fun heq => hid (by rw [rowId, heq])]
  | scheduled _ hlook _ => exact hlook id

/-- Where a row of the table after a change comes from. -/
theorem Step.mem_after {db db' : Database} {c : Change} (h : Step db c db') {row' : TaskRow}
    (hrow' : row' ∈ db'.tasks) :
    (row' ∈ db.tasks ∧ c.rowId ≠ some row'.taskId) ∨
    (∃ action now actor detail, c = .inserted action now actor detail row' ∧
      db.task? row'.taskId = none ∧ row'.Fresh) ∨
    (∃ w now actor detail row, c = .wrote w now actor detail row ∧ row ∈ db.tasks ∧
      w.Allowed db now row ∧ row' = w.set now row) := by
  have hfind := Database.task?_of_mem hrow'
  by_cases hid : c.rowId = some row'.taskId
  · cases h with
    | inserted hfree hfresh hlook _ =>
      have hid := Option.some.inj hid
      rw [hlook, if_pos hid.symm] at hfind
      cases hfind
      exact .inr (.inl ⟨_, _, _, _, rfl, hfree, hfresh⟩)
    | wrote hrow hallowed hlook _ =>
      have hid := Option.some.inj hid
      rw [hlook, if_pos hid.symm] at hfind
      cases hfind
      exact .inr (.inr ⟨_, _, _, _, _, rfl, hrow, hallowed, rfl⟩)
    | scheduled _ _ _ => cases hid
  · rw [h.task?_of_ne hid] at hfind
    exact .inl ⟨(Database.task?_eq_some_iff.mp hfind).1, hid⟩

end Change

/-- Where the row of a task is after a change. -/
theorem Change.Step.row_after {db db' : Database} {c : Change} (h : Change.Step db c db')
    {taskId : String} {row : TaskRow} (hrow : db.task? taskId = some row) :
    db'.task? taskId = some row ∨
      ∃ w now actor detail, c = .wrote w now actor detail row ∧ w.Allowed db now row ∧
        db'.task? taskId = some (w.set now row) := by
  by_cases hid : c.rowId = some taskId
  · cases h with
    | inserted hfree _ _ _ =>
      have hid := Option.some.inj hid
      rw [← hid, hfree] at hrow
      cases hrow
    | @wrote _ w now actor detail written hmem hallowed hlook _ =>
      have hid := Option.some.inj hid
      have hsame : written = row := by
        have hfind := Database.task?_of_mem hmem
        rw [hid, hrow] at hfind
        exact (Option.some.inj hfind).symm
      subst hsame
      exact .inr ⟨w, now, actor, detail, rfl, hallowed, by rw [hlook, if_pos hid.symm]⟩
    | scheduled _ _ _ => cases hid
  · exact .inl (by rw [h.task?_of_ne hid, hrow])

/-- The UPDATE of a row of the table is a change. -/
theorem Database.write_step {db : Database} {row : TaskRow} {w : StateWrite} {now : Instant}
    (hrow : row ∈ db.tasks) (hallowed : w.Allowed db now row) (actor : String)
    (detail : Option Fields) :
    Change.Step db (.wrote w now actor detail row) (db.write w now actor detail row) :=
  .wrote hrow hallowed (Database.task?_write hrow w now actor detail) rfl

/-- A write to one row leaves the other rows in the table. -/
theorem Database.mem_write_of_ne {db : Database} {row other : TaskRow} (w : StateWrite)
    (now : Instant) (actor : String) (detail : Option Fields) (hother : other ∈ db.tasks)
    (hne : other.taskId ≠ row.taskId) : other ∈ (db.write w now actor detail row).tasks := by
  rw [Database.write, Table.mem_update]
  exact .inr ⟨hother, hne⟩

/-- A loop over rows of the table, each pass of which rewrites its own row, has
rewritten those rows and no others; by induction on the rows still to come. -/
theorem Database.task?_foldl {f : Database → TaskRow → Database} {g : TaskRow → TaskRow}
    (hone : ∀ (db : Database) (row : TaskRow), row ∈ db.tasks → ∀ id,
      (f db row).task? id = if id = row.taskId then some (g row) else db.task? id)
    (hkey : ∀ row, (g row).taskId = row.taskId) :
    ∀ (rows : List TaskRow) (db : Database), rows.Pairwise (fun a b => a.taskId ≠ b.taskId) →
      (∀ row ∈ rows, row ∈ db.tasks) → ∀ id,
        (rows.foldl f db).task? id = (db.task? id).map fun r => if r ∈ rows then g r else r
  | [], db, _, _, id => by simp
  | row :: rest, db, hapart, hmem, id => by
    obtain ⟨hne, hrest⟩ := List.pairwise_cons.mp hapart
    have hrow := hmem row List.mem_cons_self
    have hstill : ∀ other ∈ rest, other ∈ (f db row).tasks := by
      intro other hother
      have hfind := hone db row hrow other.taskId
      rw [if_neg (hne other hother).symm,
        Database.task?_of_mem (hmem other (List.mem_cons_of_mem _ hother))] at hfind
      exact (Database.task?_eq_some_iff.mp hfind).1
    rw [List.foldl_cons, task?_foldl hone hkey rest _ hrest hstill, hone db row hrow]
    by_cases hid : id = row.taskId
    · -- the row just written is not among those still to come
      have hnot : g row ∉ rest := fun hin => hne _ hin (hkey row).symm
      rw [if_pos hid, hid, Database.task?_of_mem hrow, Option.map_some, Option.map_some, if_neg hnot,
        if_pos List.mem_cons_self]
    · rw [if_neg hid]
      cases hfind : db.task? id with
      | none => rfl
      | some r =>
        have hr : r ≠ row := by
          rintro rfl
          exact hid (Database.task?_eq_some_iff.mp hfind).2.symm
        simp [hr]

/-- Different rows of one table have different task ids. -/
theorem Database.pairwise_filter (db : Database) (p : TaskRow → Bool) :
    (db.tasks.rows.filter p).Pairwise fun a b => a.taskId ≠ b.taskId :=
  List.Pairwise.filter p (List.pairwise_map.mp db.tasks.nodup)

namespace ControlService

variable {svc : ControlService} {m : Moment} {db db' : Database}

theorem check_ok {passes : Bool} {code : ErrorCode} {message : String} {u : Unit} :
    check passes code message = .ok u ↔ passes = true := by
  cases passes <;> simp [check]

theorem orInternal_ok {α : Type} {x : Except PyError α} {a : α} :
    orInternal x = .ok a ↔ x = .ok a := by
  cases x <;> simp [orInternal]

/-- A loop of one kind of write over rows of the table. -/
theorem writes_changes (db : Database) (p : TaskRow → Bool) (w : StateWrite) (now : Instant) (actor : String)
    (hallowed : ∀ (db : Database) (row : TaskRow), p row = true → w.Allowed db now row) :
    ∃ cs, Run Change.Step db cs
        ((db.tasks.rows.filter p).foldl (fun db row => db.write w now actor none row) db) ∧
      ∀ c ∈ cs, ∃ row ∈ db.tasks.rows.filter p, c = .wrote w now actor none row := by
  refine Run.of_foldl (fun db row => row ∈ db.tasks ∧ p row = true)
    (fun db row h => ⟨_, .single (Database.write_step h.1 (hallowed db row h.2) actor none), ?_⟩)
    (fun db row other h h' hne => ⟨Database.mem_write_of_ne w now actor none h'.1 hne.symm, h'.2⟩)
    _ db (db.pairwise_filter p) fun row hrow => ?_
  · simp
  · exact List.mem_filter.mp hrow

/-! ## The operations, one by one -/

theorem newRow_fresh {envelope : TaskEnvelope} {state : TaskState} {login key : Option String}
    {now : Instant} (hstate : state = .queued ∨ state = .pendingApproval) :
    (newRow envelope state login key now).Fresh :=
  ⟨hstate, rfl, rfl, rfl, rfl⟩

/-- The decision only ever queues or holds. -/
theorem approvalDecision_state {directory : Option UserDirectory} {now : Instant}
    {envelope : TaskEnvelope} {submitter : Option User} {login : Option String}
    {state : TaskState} {reason : Option String}
    (h : approvalDecision directory db now envelope submitter login = .ok (state, reason)) :
    state = .queued ∨ state = .pendingApproval := by
  simp only [approvalDecision, pure, Except.pure] at h
  split at h
  · cases h; exact .inl rfl
  · cases directory with
    | none => cases h; exact .inl rfl
    | some directory =>
      cases hlogin : presentedLogin envelope login with
      | none => rw [hlogin] at h; cases h; exact .inl rfl
      | some presented =>
        rw [hlogin] at h
        cases submitter with
        | none => cases h; exact .inr rfl
        | some user =>
          obtain ⟨estimated, -, h⟩ := except_bind_ok.mp h
          obtain ⟨exceeded, -, h⟩ := except_bind_ok.mp h
          split at h
          · cases h; exact .inr rfl
          · cases h; exact .inl rfl

/-- What a submission that went through did: it replayed a stored task, or it
inserted the row of the (resolved) envelope in the decided state. -/
theorem submitTask_ok {envelope : TaskEnvelope} {actor : String}
    {key login : Option String} {bypass : Bool} {row : TaskRow} {created : Bool}
    (h : svc.submitTask m envelope actor key login bypass db = .ok (db', row, created)) :
    (created = false ∧ db' = db) ∨
    (created = true ∧ envelope.schemaValid = true ∧ ∃ pullRequest state reason inserted,
      let submitter := resolveSubmitter svc.userDirectory envelope login
      let resolved := resolvePullRequest envelope pullRequest
      approvalDecision svc.userDirectory db m.now resolved submitter login = .ok (state, reason) ∧
      row = newRow resolved state (match submitter with
        | some user => some user.login
        | none => login) key m.now ∧
      db.insertTask row = some inserted ∧
      db' = inserted.audit (insertRecord .taskSubmit m.now actor
        (reason.map fun text => [("reason", Json.str text)]) row)) := by
  unfold submitTask at h
  obtain ⟨_, hvalid, h⟩ := except_bind_ok.mp h
  obtain ⟨_, -, h⟩ := except_bind_ok.mp h
  obtain ⟨_, -, h⟩ := except_bind_ok.mp h
  obtain ⟨verdict, -, h⟩ := except_bind_ok.mp h
  obtain ⟨_, -, h⟩ := except_bind_ok.mp h
  obtain ⟨⟨state, reason⟩, hdecision, h⟩ := except_bind_ok.mp h
  simp only [storeTask] at h
  split at h
  · next existing _ =>
    split at h
    · simp only [Except.ok.injEq, Prod.mk.injEq] at h
      exact .inl ⟨h.2.2.symm, h.1.symm⟩
    · cases h
  · split at h
    · cases h
    · next inserted hins =>
      simp only [Except.ok.injEq, Prod.mk.injEq] at h
      obtain ⟨rfl, rfl, rfl⟩ := h
      exact .inr ⟨rfl, check_ok.mp hvalid, verdict.pullRequest, state, reason, inserted,
        orInternal_ok.mp hdecision, rfl, hins, rfl⟩

/-- An insertion with its audit record is a change. -/
theorem insert_step {inserted : Database} {row : TaskRow} (h : db.insertTask row = some inserted)
    (hfresh : row.Fresh) (action : AuditAction) (now : Instant) (actor : String)
    (detail : Option Fields) :
    Change.Step db (.inserted action now actor detail row)
      (inserted.audit (insertRecord action now actor detail row)) := by
  obtain ⟨hfree, hlog, hlook⟩ := Database.insertTask_eq_some h
  exact .inserted hfree hfresh hlook (by simp [Database.audit, hlog])

/-- An insertion found neither its key nor its task id in the table. -/
theorem existingTask_eq_none {inserted : Database} {row : TaskRow}
    (h : db.insertTask row = some inserted) :
    existingTask db row.idempotencyKey row.taskId = none := by
  have hkey := Database.not_keyTaken_of_insertTask h
  have hfree := (Database.insertTask_eq_some h).1
  unfold existingTask
  rw [hfree, Option.or_none]
  split
  · next key hsome =>
    split
    · rfl
    · rw [Database.keyTaken, hsome] at hkey
      simpa using hkey
  · rfl

/-- A cancellation's write is one the service makes in that state. -/
theorem cancelWrite_allowed {row : TaskRow} {w : StateWrite} {now : Instant}
    (h : cancelWrite row.state = some w) : w.Allowed db now row := by
  cases hstate : row.state <;> rw [hstate] at h <;> simp only [cancelWrite, reduceCtorEq,
    Option.some.injEq] at h <;> subst h
  · exact .inl hstate
  · exact .inl hstate
  · exact .inr hstate
  · exact .inr hstate

/-- A cancellation is no claim. -/
theorem cancelWrite_ne_claim {state : TaskState} {token : ClaimToken} {lease : Instant} :
    cancelWrite state ≠ some (.claim token lease) := by
  cases state <;> simp [cancelWrite]

/-- A stale row is claimed. -/
theorem isStale_claimed {now : Instant} {row : TaskRow} (h : isStale now row = true) :
    row.state = .claimed := by
  simp only [isStale, Bool.and_eq_true, decide_eq_true_eq] at h
  exact h.1

/-- The loop of `cancel_task`. -/
theorem cancel_changes (db : Database) (now : Instant) (actor : String) (login : Option String) (isOwner : Bool)
    (p : TaskRow → Bool) :
    ∃ cs, Run Change.Step db cs
        ((db.tasks.rows.filter p).foldl (cancelRow now actor login isOwner) db) ∧
      ∀ c ∈ cs, ∃ row ∈ db.tasks.rows.filter p, ∃ w,
        mayCancel login isOwner row = true ∧ cancelWrite row.state = some w ∧
        c = .wrote w now actor none row := by
  refine Run.of_foldl (fun db row => row ∈ db.tasks) (fun db row h => ?_)
    (fun db row other h h' hne => ?_) _ db (db.pairwise_filter p)
    fun row hrow => (List.mem_filter.mp hrow).1
  · unfold cancelRow
    split
    · next hmay =>
      cases hw : cancelWrite row.state with
      | none => exact ⟨[], .refl db, by simp⟩
      | some w =>
        refine ⟨_, .single (Database.write_step h (cancelWrite_allowed hw) actor none), ?_⟩
        rintro c hc
        exact ⟨w, hmay, rfl, List.mem_singleton.mp hc⟩
    · exact ⟨[], .refl db, by simp⟩
  · unfold cancelRow
    split
    · split
      · exact Database.mem_write_of_ne _ now actor none h' hne.symm
      · exact h'
    · exact h'

/-- The expiry of stale claims. -/
theorem expire_changes (db : Database) (now : Instant) (actor : String) :
    ∃ cs, Run Change.Step db cs (expireStaleClaims now actor db) ∧
      ∀ c ∈ cs, ∃ row, c = .wrote .expireClaim now actor none row := by
  obtain ⟨cs, hrun, hcs⟩ := writes_changes db (isStale now) .expireClaim now actor
    fun _ _ h => h
  refine ⟨cs, hrun, fun c hc => ?_⟩
  obtain ⟨row, -, rfl⟩ := hcs c hc
  exact ⟨row, rfl⟩

theorem mem_rowsOf {runnerId : String} {state : TaskState} {row : TaskRow} :
    row ∈ rowsOf db runnerId state ↔ row ∈ db.tasks ∧ row.runnerId = runnerId ∧ row.state = state := by
  simp [rowsOf, Table.mem_rows]

/-- What a claim that went through did, after the expiry of stale claims: it
returned the claim the runner already holds, found nothing, or claimed the
next queued task of a free runner. -/
theorem claimTask_ok {runnerId actor : String} {result : Option TaskRow}
    (h : svc.claimTask m runnerId actor db = .ok (db', result)) :
    let db₁ := expireStaleClaims m.now "system" db
    (∀ row ∈ db₁.tasks, row.runnerId = runnerId → row.state ≠ .accepted) ∧
    ((∃ row ∈ db₁.tasks, row.runnerId = runnerId ∧ row.state = .claimed ∧
        db' = db₁ ∧ result = some row) ∨
      (RunnerFree db₁ runnerId ∧ (∀ row ∈ db₁.tasks, row.runnerId = runnerId → row.state ≠ .queued) ∧
        db' = db₁ ∧ result = none) ∨
      (RunnerFree db₁ runnerId ∧ ∃ row ∈ db₁.tasks, row.runnerId = runnerId ∧ row.state = .queued ∧
        let w := StateWrite.claim m.token (svc.leaseUntil m.now)
        db' = db₁.write w m.now actor none row ∧ result = some (w.set m.now row))) := by
  intro db₁
  unfold claimTask at h
  obtain ⟨_, -, h⟩ := except_bind_ok.mp h
  have haccepted : rowsOf db₁ runnerId .accepted = [] := by
    cases hrows : rowsOf db₁ runnerId .accepted with
    | nil => rfl
    | cons row rows => simp only [db₁] at hrows; simp [hrows] at h
  have hnone : ∀ row ∈ db₁.tasks, row.runnerId = runnerId → row.state ≠ .accepted := by
    intro row hrow hrunner hstate
    have := mem_rowsOf.mpr ⟨hrow, hrunner, hstate⟩
    simp [haccepted] at this
  refine ⟨hnone, ?_⟩
  simp only [haccepted, List.head?_nil, db₁] at h
  cases hclaim : existingClaim (expireStaleClaims m.now "system" db) runnerId with
  | some row =>
    obtain ⟨hrow, hrunner, hstate⟩ := mem_rowsOf.mp (List.argmin_mem hclaim)
    simp only [hclaim, Except.ok.injEq, Prod.mk.injEq] at h
    exact .inl ⟨row, hrow, hrunner, hstate, h.1.symm, h.2.symm⟩
  | none =>
    have hfree : RunnerFree db₁ runnerId := by
      intro row hrow hrunner
      refine ⟨fun hstate => ?_, hnone row hrow hrunner⟩
      have := mem_rowsOf.mpr ⟨hrow, hrunner, hstate⟩
      rw [List.argmin_eq_none.mp hclaim] at this
      simp at this
    simp only [hclaim] at h
    cases hnext : nextQueued (expireStaleClaims m.now "system" db) runnerId with
    | none =>
      simp only [hnext, Except.ok.injEq, Prod.mk.injEq] at h
      refine .inr (.inl ⟨hfree, fun row hrow hrunner hstate => ?_, h.1.symm, h.2.symm⟩)
      have := mem_rowsOf.mpr ⟨hrow, hrunner, hstate⟩
      rw [List.argmin_eq_none.mp hnext] at this
      simp at this
    | some row =>
      obtain ⟨hrow, hrunner, hstate⟩ := mem_rowsOf.mp (List.argmin_mem hnext)
      simp only [hnext, Except.ok.injEq, Prod.mk.injEq] at h
      refine .inr (.inr ⟨hfree, row, hrow, hrunner, hstate, h.1.symm, ?_⟩)
      rw [← h.2, Database.task?_write hrow, if_pos rfl]

theorem requireTask_ok {taskId : String} {row : TaskRow} :
    requireTask db taskId = .ok row ↔ row ∈ db.tasks ∧ row.taskId = taskId := by
  rw [← Database.task?_eq_some_iff, requireTask]
  cases db.task? taskId <;> simp

theorem verifyTaskRunner_ok {row : TaskRow} {runnerId : String} {u : Unit} :
    verifyTaskRunner row runnerId = .ok u ↔ row.runnerId = runnerId := by
  simp [verifyTaskRunner, check_ok]

theorem checkToken_ok {row : TaskRow} {token : ClaimToken} {u : Unit} :
    checkToken row token = .ok u ↔ row.claimToken = some token := by
  simp [checkToken, check_ok]

/-- What an acceptance that went through did: the row is the runner's and the
token its own; a claimed row in its lease is accepted, an accepted, completed
or failed one is left alone. -/
theorem acceptTask_ok {now : Instant} {runnerId taskId actor : String} {token : ClaimToken}
    {result : TaskRow} {changed : Bool}
    (h : acceptTask now runnerId taskId token actor db = .ok (db', result, changed)) :
    ∃ row ∈ db.tasks, row.taskId = taskId ∧ row.runnerId = runnerId ∧ row.claimToken = some token ∧
      ((changed = false ∧ db' = db ∧ result = row ∧
          (row.state = .accepted ∨ row.state = .completed ∨ row.state = .failed)) ∨
        (changed = true ∧ StateWrite.accept.Allowed db now row ∧
          db' = db.write .accept now actor none row ∧ result = StateWrite.accept.set now row)) := by
  unfold acceptTask at h
  obtain ⟨row, hrow, h⟩ := except_bind_ok.mp h
  obtain ⟨hmem, hid⟩ := requireTask_ok.mp hrow
  obtain ⟨_, hrunner, h⟩ := except_bind_ok.mp h
  have hrunner := verifyTaskRunner_ok.mp hrunner
  split at h
  · next hstate =>
    obtain ⟨_, htoken, h⟩ := except_bind_ok.mp h
    have htoken := checkToken_ok.mp htoken
    simp only [except_pure_ok, Prod.mk.injEq] at h
    exact ⟨row, hmem, hid, hrunner, htoken, .inl ⟨h.2.2.symm, h.1.symm, h.2.1.symm, hstate⟩⟩
  · obtain ⟨_, hclaimed, h⟩ := except_bind_ok.mp h
    obtain ⟨_, htoken, h⟩ := except_bind_ok.mp h
    obtain ⟨_, hlease, h⟩ := except_bind_ok.mp h
    have hclaimed : row.state = .claimed := by simpa [check_ok] using hclaimed
    have htoken := checkToken_ok.mp htoken
    have hlease : ∃ lease, row.leaseExpires = some lease ∧ now < lease := by
      simpa [check_ok, Option.any_eq_true] using hlease
    simp only [except_pure_ok, Prod.mk.injEq] at h
    exact ⟨row, hmem, hid, hrunner, htoken, .inr ⟨h.2.2.symm, ⟨hclaimed, hlease⟩, h.1.symm,
      h.2.1.symm⟩⟩

/-- What an outcome report that went through did: the row is the runner's; the
same terminal outcome is left alone, an accepted or cancel-requested row takes
the outcome. -/
theorem recordOutcome_ok {now : Instant} {runnerId taskId actor : String} {outcome : TaskOutcome}
    {result : TaskRow} {changed : Bool}
    (h : svc.recordOutcome now runnerId taskId outcome actor db = .ok (db', result, changed)) :
    outcome.taskId = taskId ∧ outcome.runnerId = runnerId ∧
    ∃ row ∈ db.tasks, row.taskId = taskId ∧ row.runnerId = runnerId ∧
      ((changed = false ∧ db' = db ∧ result = row ∧ row.state = outcome.state.taskState ∧
          row.outcome = some outcome.canonical) ∨
        (changed = true ∧ (StateWrite.report outcome.canonical).Allowed db now row ∧
          db' = db.write (.report outcome.canonical) now actor none row ∧
          result = (StateWrite.report outcome.canonical).set now row)) := by
  unfold recordOutcome at h
  obtain ⟨_, -, h⟩ := except_bind_ok.mp h
  obtain ⟨_, -, h⟩ := except_bind_ok.mp h
  obtain ⟨_, hids, h⟩ := except_bind_ok.mp h
  obtain ⟨hoTask, hoRunner⟩ : outcome.taskId = taskId ∧ outcome.runnerId = runnerId := by
    simpa [check_ok] using hids
  refine ⟨hoTask, hoRunner, ?_⟩
  obtain ⟨row, hrow, h⟩ := except_bind_ok.mp h
  obtain ⟨hmem, hid⟩ := requireTask_ok.mp hrow
  obtain ⟨_, hrunner, h⟩ := except_bind_ok.mp h
  have hrunner := verifyTaskRunner_ok.mp hrunner
  split at h
  · obtain ⟨_, hsame, h⟩ := except_bind_ok.mp h
    have hsame : row.state = outcome.state.taskState ∧ row.outcome = some outcome.canonical := by
      simpa [check_ok] using hsame
    simp only [except_pure_ok, Prod.mk.injEq] at h
    exact ⟨row, hmem, hid, hrunner, .inl ⟨h.2.2.symm, h.1.symm, h.2.1.symm, hsame⟩⟩
  · obtain ⟨_, hstate, h⟩ := except_bind_ok.mp h
    have hstate : row.state = .accepted ∨ row.state = .cancelRequested := by
      simpa [check_ok] using hstate
    simp only [except_pure_ok, Prod.mk.injEq] at h
    exact ⟨row, hmem, hid, hrunner, .inr ⟨h.2.2.symm,
      ⟨hstate, hoTask.trans hid.symm, hoRunner.trans hrunner.symm⟩, h.1.symm, h.2.1.symm⟩⟩

end ControlService

namespace CanaryScheduler

variable {db db' : Database}

theorem ignoreInsert_tasks (row : ScheduleRow) : (ignoreInsert db row).tasks = db.tasks := by
  unfold ignoreInsert
  split <;> rfl

theorem ignoreInsert_auditLog (row : ScheduleRow) :
    (ignoreInsert db row).auditLog = db.auditLog := by
  unfold ignoreInsert
  split <;> rfl

theorem task?_ignoreInsert (row : ScheduleRow) (id : String) :
    (ignoreInsert db row).task? id = db.task? id := by
  rw [Database.task?, ignoreInsert_tasks, Database.task?]

end CanaryScheduler

/-- The changes an operation may make. -/
def Operation.Permits (svc : ControlService) (m : Moment) : Operation → Change → Prop
  | submit envelope actor key _ _, c =>
    envelope.schemaValid = true ∧ ∃ detail pullRequest state submitterLogin,
      c = .inserted .taskSubmit m.now actor detail
        (ControlService.newRow (ControlService.resolvePullRequest envelope pullRequest) state
          submitterLogin key m.now)
  | cancel selector actor login isOwner, c =>
    ∃ w row, ControlService.selects selector row = true ∧
      ControlService.mayCancel login isOwner row = true ∧
      ControlService.cancelWrite row.state = some w ∧ c = .wrote w m.now actor none row
  | approve selector actor, c =>
    ∃ row, ControlService.selects selector row = true ∧ c = .wrote .approve m.now actor none row
  | reject selector actor, c =>
    ∃ row, ControlService.selects selector row = true ∧ c = .wrote .reject m.now actor none row
  | expireStaleClaims actor, c => ∃ row, c = .wrote .expireClaim m.now actor none row
  | claim runnerId actor, c =>
    (∃ row, c = .wrote .expireClaim m.now "system" none row) ∨
    ∃ row, row.runnerId = runnerId ∧
      c = .wrote (.claim m.token (svc.leaseUntil m.now)) m.now actor none row
  | accept runnerId taskId token actor, c =>
    ∃ row, row.taskId = taskId ∧ row.runnerId = runnerId ∧ row.claimToken = some token ∧
      c = .wrote .accept m.now actor none row
  | recordOutcome runnerId taskId outcome actor, c =>
    ∃ row, row.taskId = taskId ∧ row.runnerId = runnerId ∧
      c = .wrote (.report outcome.canonical) m.now actor none row
  | tick, c =>
    (∃ detail runnerId profile utcDate, c = .inserted .canaryCreated m.now
      CanaryScheduler.canarySubmitter detail
      (ControlService.newRow (CanaryScheduler.buildEnvelope runnerId profile utcDate m.now) .queued
        none (some (CanaryScheduler.canaryTaskId runnerId profile.profileId utcDate)) m.now)) ∨
    (∃ detail row, c = .wrote .expireCanary m.now CanaryScheduler.canarySubmitter detail row) ∨
    ∃ record, c = .scheduled record

/-- `cs` leads from one database to another by changes the operation permits. -/
def PermittedRun (svc : ControlService) (m : Moment) (op : Operation) (db : Database)
    (cs : List Change) (db' : Database) : Prop :=
  Run Change.Step db cs db' ∧ ∀ c ∈ cs, op.Permits svc m c

namespace PermittedRun

variable {svc : ControlService} {m : Moment} {op : Operation} {db db' db'' : Database}
  {cs ds : List Change} {c : Change}

theorem refl (db : Database) : PermittedRun svc m op db [] db := ⟨.refl db, by simp⟩

theorem single (h : Change.Step db c db') (hc : op.Permits svc m c) :
    PermittedRun svc m op db [c] db' :=
  ⟨.single h, by simpa using hc⟩

theorem append (h : PermittedRun svc m op db cs db') (h' : PermittedRun svc m op db' ds db'') :
    PermittedRun svc m op db (cs ++ ds) db'' :=
  ⟨h.1.append h'.1, fun c hc => (List.mem_append.mp hc).elim (h.2 c) (h'.2 c)⟩

end PermittedRun

namespace CanaryScheduler

variable {svc : ControlService} {m : Moment} {db db' : Database}

/-- A write together with an update of the schedule table. -/
theorem markExpired_step (runnerId profileId : String) (utcDate : ℕ) {row : TaskRow} (now : Instant)
    (hrow : row ∈ db.tasks) (hstate : row.state = .queued) :
    Change.Step db (.wrote .expireCanary now canarySubmitter (some (auditDetail profileId utcDate)) row)
      (markExpired db runnerId profileId utcDate row now) :=
  .wrote hrow hstate
    (Database.task?_write hrow .expireCanary now canarySubmitter (auditDetail profileId utcDate)) rfl

/-- A write of the schedule table alone. -/
theorem scheduled_step (record : Option AuditRecord) (hrecord : ∀ r ∈ record, r.taskId = none)
    (hlook : ∀ id, db'.task? id = db.task? id) (hlog : db'.auditLog = db.auditLog ++ record.toList) :
    Change.Step db (.scheduled record) db' :=
  .scheduled hrecord hlook hlog

/-- The changes the transactions of a tick make, for the runners, profiles and
days that are due. -/
def TickChange (now : Instant) (due : List (String × CanaryProfile × ℕ)) (c : Change) : Prop :=
  (∃ d ∈ due, ∃ detail, c = .inserted .canaryCreated now canarySubmitter detail
    (ControlService.newRow (buildEnvelope d.1 d.2.1 d.2.2 now) .queued none
      (some (canaryTaskId d.1 d.2.1.profileId d.2.2)) now)) ∨
  (∃ detail row, c = .wrote .expireCanary now canarySubmitter detail row) ∨
  ∃ record, c = .scheduled record

theorem createCanary_changes {now : Instant} {runnerId : String} {profile : CanaryProfile}
    {utcDate : ℕ} (h : createCanary db runnerId profile utcDate now = .ok db') :
    ∃ cs, Run Change.Step db cs db' ∧ ∀ c ∈ cs, TickChange now [(runnerId, profile, utcDate)] c := by
  unfold createCanary at h
  dsimp only at h
  split at h
  · cases h
    refine ⟨_, .single (scheduled_step none (by simp) (task?_ignoreInsert _)
      (by simp [ignoreInsert_auditLog])), fun c hc => ?_⟩
    exact .inr (.inr ⟨_, List.mem_singleton.mp hc⟩)
  · split at h
    · cases h
    · next inserted hins =>
      cases h
      obtain ⟨hfree, hlog, hlook⟩ := Database.insertTask_eq_some hins
      let row := ControlService.newRow (buildEnvelope runnerId profile utcDate now) .queued none
        (some (canaryTaskId runnerId profile.profileId utcDate)) now
      let detail := auditDetail profile.profileId utcDate ++
        [("profile_version", .int profile.profileVersion)]
      have hstep : Change.Step db (.inserted .canaryCreated now canarySubmitter (some detail) row)
          (inserted.audit
            (ControlService.insertRecord .canaryCreated now canarySubmitter (some detail) row)) := by
        refine .inserted ?_ (ControlService.newRow_fresh (.inl rfl)) (fun id => ?_) ?_
        · rw [← hfree, task?_ignoreInsert]
        · rw [Database.task?_audit, hlook, task?_ignoreInsert]
        · simp [Database.audit, hlog, ignoreInsert_auditLog]
      refine ⟨_, .single hstep, fun c hc => ?_⟩
      exact .inl ⟨_, List.mem_singleton.mpr rfl, _, List.mem_singleton.mp hc⟩

theorem evaluateRunner_changes {now : Instant} {runnerId : String} {profile : CanaryProfile}
    {utcDate : ℕ} (h : evaluateRunner now runnerId profile utcDate db = .ok db') :
    ∃ cs, Run Change.Step db cs db' ∧ ∀ c ∈ cs, TickChange now [(runnerId, profile, utcDate)] c := by
  unfold evaluateRunner at h
  dsimp only at h
  split at h
  · split at h
    · next entry _ task htask =>
      split at h
      · next hdue =>
        cases h
        obtain ⟨taskId, -, htask⟩ := Option.bind_eq_some_iff.mp htask
        have hmem := (Database.task?_eq_some_iff.mp htask).1
        refine ⟨_, .single (markExpired_step _ _ _ _ hmem hdue.2.2), fun c hc => ?_⟩
        exact .inr (.inl ⟨_, _, List.mem_singleton.mp hc⟩)
      · cases h
        exact ⟨[], .refl db, by simp⟩
    · cases h
      exact ⟨[], .refl db, by simp⟩
  · split at h
    · cases h
      exact ⟨[], .refl db, by simp⟩
    · split at h
      · cases h
        refine ⟨_, .single (scheduled_step (some (missedRecord runnerId profile.profileId utcDate now))
          (by simp [missedRecord]) (task?_ignoreInsert _)
          (by simp [markMissed, Database.audit, ignoreInsert_auditLog])), fun c hc => ?_⟩
        exact .inr (.inr ⟨_, List.mem_singleton.mp hc⟩)
      · exact createCanary_changes h

/-- A tick makes the changes of what is due; by induction on what is left. -/
theorem tickFrom_changes {now : Instant} : ∀ (due : List (String × CanaryProfile × ℕ)) (db : Database),
    ∃ cs, Run Change.Step db cs (tickFrom now due db) ∧ ∀ c ∈ cs, TickChange now due c
  | [], db => ⟨[], .refl db, by simp⟩
  | (runnerId, profile, utcDate) :: rest, db => by
    unfold tickFrom
    cases heval : evaluateRunner now runnerId profile utcDate db with
    | error _ => exact ⟨[], .refl db, by simp⟩
    | ok db₁ =>
      obtain ⟨cs, hrun, hcs⟩ := evaluateRunner_changes heval
      obtain ⟨ds, hrun', hds⟩ := tickFrom_changes rest db₁
      refine ⟨cs ++ ds, hrun.append hrun', fun c hc => ?_⟩
      rcases List.mem_append.mp hc with hc | hc
      · rcases hcs c hc with ⟨d, hd, hins⟩ | hother
        · exact .inl ⟨d, List.mem_cons.mpr (.inl (List.mem_singleton.mp hd)), hins⟩
        · exact .inr hother
      · rcases hds c hc with ⟨d, hd, hins⟩ | hother
        · exact .inl ⟨d, List.mem_cons_of_mem _ hd, hins⟩
        · exact .inr hother

end CanaryScheduler

/-- The two ways of resolving held tasks are loops of one write. -/
theorem resolveApproval_changes {svc : ControlService} {m : Moment} {op : Operation} {db : Database}
    (w : StateWrite) {selector actor : String}
    (hallowed : ∀ (db : Database) (row : TaskRow), row.state = .pendingApproval →
      w.Allowed db m.now row)
    (hpermits : ∀ row, ControlService.selects selector row = true →
      op.Permits svc m (.wrote w m.now actor none row)) :
    ∃ cs, PermittedRun svc m op db cs
      (committed db (ControlService.resolveApproval w m.now selector actor db)) := by
  unfold ControlService.resolveApproval
  dsimp only
  split
  · exact ⟨[], .refl db⟩
  · obtain ⟨cs, hrun, hcs⟩ := ControlService.writes_changes db
      (fun row => ControlService.selects selector row && decide (row.state = .pendingApproval))
      w m.now actor fun db row hrow => hallowed db row (by simpa using (Bool.and_eq_true_iff.mp hrow).2)
    unfold ControlService.selectTasks
    split
    · exact ⟨[], .refl db⟩
    · refine ⟨cs, hrun, fun c hc => ?_⟩
      obtain ⟨row, hrow, rfl⟩ := hcs c hc
      exact hpermits row (Bool.and_eq_true_iff.mp (List.mem_filter.mp hrow).2).1

/-- **Every operation is a sequence of changes it permits.** -/
theorem perform_changes (svc : ControlService) (m : Moment) (op : Operation) (db : Database) :
    ∃ cs, PermittedRun svc m op db cs (perform svc m op db) := by
  cases op with
  | submit envelope actor key login bypass =>
    simp only [perform]
    cases h : svc.submitTask m envelope actor key login bypass db with
    | error _ => exact ⟨[], .refl db⟩
    | ok answer =>
      obtain ⟨db', row, created⟩ := answer
      rcases ControlService.submitTask_ok h with ⟨-, rfl⟩ |
        ⟨-, hvalid, pullRequest, state, reason, inserted, hdecision, rfl, hins, rfl⟩
      · exact ⟨[], .refl _⟩
      · exact ⟨_, .single (ControlService.insert_step hins (ControlService.newRow_fresh
          (ControlService.approvalDecision_state hdecision)) _ _ _ _)
          ⟨hvalid, _, pullRequest, state, _, rfl⟩⟩
  | cancel selector actor login isOwner =>
    simp only [perform, ControlService.cancelTask]
    split
    · exact ⟨[], .refl db⟩
    · obtain ⟨cs, hrun, hcs⟩ := ControlService.cancel_changes db m.now actor login isOwner
        (ControlService.selects selector)
      unfold ControlService.selectTasks
      split
      -- the refused statement takes the transaction back
      · exact ⟨[], .refl db⟩
      · refine ⟨cs, hrun, fun c hc => ?_⟩
        obtain ⟨row, hrow, w, hmay, hw, rfl⟩ := hcs c hc
        exact ⟨w, row, (List.mem_filter.mp hrow).2, hmay, hw, rfl⟩
  | approve selector actor =>
    exact resolveApproval_changes .approve (fun _ _ h => h) fun row hrow => ⟨row, hrow, rfl⟩
  | reject selector actor =>
    exact resolveApproval_changes .reject (fun _ _ h => h) fun row hrow => ⟨row, hrow, rfl⟩
  | expireStaleClaims actor =>
    obtain ⟨cs, hrun, hcs⟩ := ControlService.expire_changes db m.now actor
    exact ⟨cs, hrun, hcs⟩
  | claim runnerId actor =>
    simp only [perform]
    cases h : svc.claimTask m runnerId actor db with
    | error _ => exact ⟨[], .refl db⟩
    | ok answer =>
      obtain ⟨db', result⟩ := answer
      obtain ⟨cs, hrun, hcs⟩ := ControlService.expire_changes db m.now "system"
      have hexpire : PermittedRun svc m (.claim runnerId actor) db cs
          (ControlService.expireStaleClaims m.now "system" db) :=
        ⟨hrun, fun c hc => .inl (hcs c hc)⟩
      obtain ⟨-, ⟨row, -, -, -, rfl, -⟩ | ⟨-, -, rfl, -⟩ |
        ⟨hfree, row, hrow, hrunner, hstate, rfl, -⟩⟩ := ControlService.claimTask_ok h
      · exact ⟨cs, hexpire⟩
      · exact ⟨cs, hexpire⟩
      · have hallowed : (StateWrite.claim m.token (svc.leaseUntil m.now)).Allowed
            (ControlService.expireStaleClaims m.now "system" db) m.now row :=
          ⟨hstate, hrunner ▸ hfree⟩
        exact ⟨_, hexpire.append (.single (Database.write_step hrow hallowed actor none)
          (.inr ⟨row, hrunner, rfl⟩))⟩
  | accept runnerId taskId token actor =>
    simp only [perform]
    cases h : ControlService.acceptTask m.now runnerId taskId token actor db with
    | error _ => exact ⟨[], .refl db⟩
    | ok answer =>
      obtain ⟨db', result, changed⟩ := answer
      obtain ⟨row, hrow, hid, hrunner, htoken, ⟨-, rfl, -, -⟩ | ⟨-, hallowed, rfl, -⟩⟩ :=
        ControlService.acceptTask_ok h
      · exact ⟨[], .refl _⟩
      · exact ⟨_, .single (Database.write_step hrow hallowed actor none)
          ⟨row, hid, hrunner, htoken, rfl⟩⟩
  | recordOutcome runnerId taskId outcome actor =>
    simp only [perform]
    cases h : svc.recordOutcome m.now runnerId taskId outcome actor db with
    | error _ => exact ⟨[], .refl db⟩
    | ok answer =>
      obtain ⟨db', result, changed⟩ := answer
      obtain ⟨-, -, row, hrow, hid, hrunner, ⟨-, rfl, -, -, -⟩ | ⟨-, hallowed, rfl, -⟩⟩ :=
        ControlService.recordOutcome_ok h
      · exact ⟨[], .refl _⟩
      · exact ⟨_, .single (Database.write_step hrow hallowed actor none) ⟨row, hid, hrunner, rfl⟩⟩
  | tick =>
    obtain ⟨cs, hrun, hcs⟩ := CanaryScheduler.tickFrom_changes (CanaryScheduler.evaluations svc m.now) db
    refine ⟨cs, hrun, fun c hc => ?_⟩
    rcases hcs c hc with ⟨d, -, detail, rfl⟩ | hother
    · exact .inl ⟨detail, d.1, d.2.1, d.2.2, rfl⟩
    · exact .inr hother

/-! ## Runs of the service -/

/-- One operation at one moment. -/
structure ServiceEvent where
  moment    : Moment
  operation : Operation

/-- A step of the control service. -/
def ServiceStep (svc : ControlService) (db : Database) (e : ServiceEvent) (db' : Database) : Prop :=
  db' = perform svc e.moment e.operation db

/-- The database after a list of events. -/
def serve (svc : ControlService) (db : Database) (es : List ServiceEvent) : Database :=
  es.foldl (fun db e => perform svc e.moment e.operation db) db

theorem serve_run (svc : ControlService) (db : Database) (es : List ServiceEvent) :
    Run (ServiceStep svc) db es (serve svc db es) :=
  Run.of_fun (fun db (e : ServiceEvent) => perform svc e.moment e.operation db) db es

/-- A run whose operations each pass a guard on the state they find. -/
theorem serve_guarded (svc : ControlService) (ok : Database → Operation → Prop) (db : Database)
    (es : List ServiceEvent)
    (h : Run.Guarded (fun db (e : ServiceEvent) => perform svc e.moment e.operation db)
      (fun db e => ok db e.operation) db es) :
    Run (fun db (e : ServiceEvent) db' => ok db e.operation ∧ ServiceStep svc db e db') db es
      (serve svc db es) :=
  Run.of_guarded _ _ es db h

/-! ## A small deployment

One enabled runner without a canary profile, no user directory and no
provenance gate: what the concrete runs below and in later modules use. -/

namespace SmallDeployment

def service : ControlService where
  registry           := ⟨⟨[⟨"runner-1", true, none⟩], by decide⟩⟩
  claimLeaseSeconds  := 300
  userDirectory      := none
  provenanceGate     := none
  canaryProfiles     := .empty
  parsesWithTimezone := fun text => decide (text.toList.getLast? = some 'Z')

/-- 2026-01-01T00:00:00Z. -/
def start : Instant := 1767225600000000

/-- The `n`-th second, with the `n`-th token. -/
def moment (n : ℕ) : Moment where
  now    := start + n * microsPerSecond
  token  := n
  github := ⟨fun _ _ => .ok false, fun _ => .ok none⟩

def body (taskType : String) : Fields :=
  [("task_type", .str taskType), ("source", .str "valkey"), ("specifier", .str "unstable"),
    ("timestamp", .str "2026-01-01T00:00:00")]

def envelope (taskId : String) (taskClass : TaskClass) : TaskEnvelope where
  taskId      := taskId
  runnerId    := "runner-1"
  taskClass   := taskClass
  priority    := 100
  submittedAt := "2026-01-01T00:00:00Z"
  submittedBy := "operator"
  canaryId    := .absent
  batchId     := .absent
  submitter   := .absent
  provenance  := .absent
  task        := body "PerfTaskData"

/-- Submit a manual task as an operator. -/
def submit (n : ℕ) (taskId : String) : ServiceEvent :=
  ⟨moment n, .submit (envelope taskId .manual) "operator:ops" none none false⟩

def claim (n : ℕ) : ServiceEvent := ⟨moment n, .claim "runner-1" "runner:runner-1"⟩

def accept (n : ℕ) (taskId : String) (token : ClaimToken) : ServiceEvent :=
  ⟨moment n, .accept "runner-1" taskId token "runner:runner-1"⟩

/-- An operator cancels. -/
def cancel (n : ℕ) (selector : String) : ServiceEvent :=
  ⟨moment n, .cancel selector "operator:ops" none true⟩

def outcome (taskId : String) (state : Terminal) : TaskOutcome :=
  ⟨taskId, "runner-1", state, "2026-01-01T01:00:00Z", .absent, .absent⟩

def report (n : ℕ) (taskId : String) (state : Terminal) : ServiceEvent :=
  ⟨moment n, .recordOutcome "runner-1" taskId (outcome taskId state) "runner:runner-1"⟩

end SmallDeployment

end Conductress
