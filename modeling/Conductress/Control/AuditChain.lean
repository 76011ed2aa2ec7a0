import Conductress.Control.History
import Conductress.Control.CanaryTick

/-!
# The audit log reproduces the tasks table

Read off the audit log alone: the records of a task that carry a new state, in
the order they were written, start with its creation, link up, and end in the
state the table holds. A record is written in the transaction of its change,
so an operation that raises writes neither; only a tick is more than one
transaction, and the one that raises is undone alone.

* `RecordedChange` — a task's state changes together with its one record;
* `AuditChain` — what the records of a task say;
* `Raises` — the operations that end in an exception;
* `audit_log_reproduces` — all three, in every reachable state.
-/

namespace Conductress

open Lib

/-- The records of a task that carry a new state, oldest first. -/
def Database.stateRecords (db : Database) (taskId : String) : List AuditRecord :=
  (db.trail taskId).filter (·.newState.isSome)

/-- The records lead from the creation of a task to a state. -/
structure AuditChain (records : List AuditRecord) (state : TaskState) : Prop where
  created : ∃ r, records.head? = some r ∧ r.oldState = none
  linked  : records.IsChain fun r next => next.oldState = r.newState
  last    : ∃ r, records.getLast? = some r ∧ r.newState = some state

/-- Records that link up from a state form a chain whose first record starts
there; by induction on the records. -/
theorem Linked.isChain {t : Option TaskState} :
    ∀ {records : List AuditRecord} {s : Option TaskState}, Linked s records t →
      records.IsChain (fun r next => next.oldState = r.newState) ∧
      (∀ r, records.head? = some r → r.oldState = s) ∧
      (∀ r, records.getLast? = some r → r.newState = t)
  | [], _, _ => ⟨.nil, by simp, by simp⟩
  | [r], _, h => by
    obtain ⟨hold, hnew⟩ := h
    have hnew : r.newState = t := hnew
    exact ⟨.singleton r, by simpa using hold, by simpa using hnew⟩
  | r :: next :: rest, _, h => by
    obtain ⟨hold, hrest⟩ := h
    obtain ⟨hchain, hhead, hlast⟩ := Linked.isChain hrest
    refine ⟨List.isChain_cons_cons.mpr ⟨hhead next rfl, hchain⟩, by simpa using hold, ?_⟩
    intro last hlast'
    rw [List.getLast?_cons_cons] at hlast'
    exact hlast last hlast'

/-- Every record of a task carries a new state. -/
theorem TaskHistory.stateRecords_eq {db : Database} {row : TaskRow}
    (h : TaskHistory (db.trail row.taskId) row) :
    db.stateRecords row.taskId = db.trail row.taskId := by
  refine List.filter_eq_self.mpr fun r hr => ?_
  rcases h.edges r hr with ⟨-, hnew | hnew⟩ | ⟨_, _, -, hnew, -⟩ <;> rw [hnew] <;> rfl

/-- A task's history is a chain of its records. -/
theorem TaskHistory.auditChain {db : Database} {row : TaskRow}
    (h : TaskHistory (db.trail row.taskId) row) :
    AuditChain (db.stateRecords row.taskId) row.state := by
  rw [h.stateRecords_eq]
  obtain ⟨hchain, hhead, hlast⟩ := h.linked.isChain
  -- a row in some state cannot have come about without a record
  have hne : db.trail row.taskId ≠ [] := by
    intro hnil
    have hlinked := h.linked
    rw [hnil] at hlinked
    cases hlinked
  have hfirst := List.head?_eq_some_head hne
  have hfinal := List.getLast?_eq_some_getLast hne
  exact ⟨⟨_, hfirst, hhead _ hfirst⟩, hchain, ⟨_, hfinal, hlast _ hfinal⟩⟩

/-! ## Changes and their records -/

/-- A task comes to a state it was not in, and one record of that is appended, with
the old state and the new one; or no task changes, and no record of one is. -/
inductive RecordedChange (db db' : Database) : Prop
  | changed {id : String} {state : TaskState} {record : AuditRecord} :
      (db'.task? id).map TaskRow.state = some state →
      (db.task? id).map TaskRow.state ≠ some state →
      (∀ other, other ≠ id → db'.task? other = db.task? other) →
      record.taskId = some id → record.oldState = (db.task? id).map TaskRow.state →
      record.newState = some state → db'.auditLog = db.auditLog ++ [record] →
      RecordedChange db db'
  | unchanged {records : List AuditRecord} :
      (∀ id, db'.task? id = db.task? id) → (∀ r ∈ records, r.taskId = none) →
      db'.auditLog = db.auditLog ++ records → RecordedChange db db'

/-- No edge of the lifecycle stays where it is. -/
theorem Edge.ne {s t : TaskState} (h : Edge s t) : s ≠ t := by
  cases h with
  | documented h => cases h <;> decide
  | report terminal => cases terminal <;> decide

/-- **Every change is written together with its record.** -/
theorem Change.Step.recorded {db db' : Database} {c : Change} (h : Change.Step db c db') :
    RecordedChange db db' := by
  cases h with
  | @inserted _ action now actor detail row hfree hfresh hlook hlog =>
    have hstored : db'.task? row.taskId = some row := by rw [hlook, if_pos rfl]
    have hothers : ∀ other, other ≠ row.taskId → db'.task? other = db.task? other :=
      fun other hne => by rw [hlook, if_neg hne]
    have hold : (db.task? row.taskId).map TaskRow.state = none := by rw [hfree, Option.map_none]
    have hnew : (db'.task? row.taskId).map TaskRow.state = some row.state := by
      rw [hstored, Option.map_some]
    exact .changed hnew (by rw [hold]; exact Option.some_ne_none _ |>.symm) hothers rfl hold.symm rfl
      hlog
  | @wrote _ w now actor detail row hrow hallowed hlook hlog =>
    have hold : (db.task? row.taskId).map TaskRow.state = some row.state := by
      rw [Database.task?_of_mem hrow, Option.map_some]
    have hnew : (db'.task? row.taskId).map TaskRow.state = some w.newState := by
      rw [hlook, if_pos rfl, Option.map_some, StateWrite.set_state]
    have hothers : ∀ other, other ≠ row.taskId → db'.task? other = db.task? other :=
      fun other hne => by rw [hlook, if_neg hne]
    have hmoves : some row.state ≠ some w.newState :=
      mt Option.some.inj (StateWrite.edge hallowed).ne
    exact .changed hnew (by rw [hold]; exact hmoves) hothers rfl hold.symm rfl hlog
  | scheduled hrecord hlook hlog =>
    exact .unchanged hlook (fun r hr => hrecord r (by simpa using hr)) hlog

/-! ## Operations that raise -/

/-- The operation ends in an exception. -/
def Raises (svc : ControlService) (m : Moment) (op : Operation) (db : Database) : Prop :=
  match op with
  | .submit envelope actor key login bypass =>
    ∃ e, svc.submitTask m envelope actor key login bypass db = .error e
  | .cancel selector actor login isOwner =>
    ∃ e, ControlService.cancelTask m.now selector actor login isOwner db = .error e
  | .approve selector actor => ∃ e, ControlService.approveTasks m.now selector actor db = .error e
  | .reject selector actor => ∃ e, ControlService.rejectTasks m.now selector actor db = .error e
  | .expireStaleClaims _ => False
  | .claim runnerId actor => ∃ e, svc.claimTask m runnerId actor db = .error e
  | .accept runnerId taskId token actor =>
    ∃ e, ControlService.acceptTask m.now runnerId taskId token actor db = .error e
  | .recordOutcome runnerId taskId outcome actor =>
    ∃ e, svc.recordOutcome m.now runnerId taskId outcome actor db = .error e
  | .tick =>
    ∃ e, CanaryScheduler.evaluateAll m.now (CanaryScheduler.evaluations svc m.now) db = .error e

/-- An operation of one transaction that raises is rolled back whole. -/
theorem perform_of_raises {svc : ControlService} {m : Moment} {op : Operation} {db : Database}
    (h : Raises svc m op db) (hop : op ≠ .tick) : perform svc m op db = db := by
  cases op with
  | expireStaleClaims => exact absurd h id
  | tick => exact absurd rfl hop
  | _ =>
    obtain ⟨e, he⟩ := h
    simp only [perform, he, committed]

/-! ## Runs -/

/-- **The audit log reproduces the tasks table** in every reachable state: whatever
an operation changes there it changes one task's state at a time, each together with
its one record, so that the records of a task are a chain. What raises leaves no trace
in either: an operation that is one transaction changes nothing, and a tick keeps what
the transactions before the raising one committed and nothing of that one. -/
theorem audit_log_reproduces {svc : ControlService} {es : List ServiceEvent} {db : Database}
    (h : Run (ServiceStep svc) .empty es db) :
    (∀ m op, ∃ cs : List Change,
      Run (fun a _ b => RecordedChange a b) db cs (perform svc m op db)) ∧
    (∀ row ∈ db.tasks, AuditChain (db.stateRecords row.taskId) row.state) ∧
    (∀ m op, Raises svc m op db → op ≠ .tick → perform svc m op db = db) ∧
    (∀ m, Raises svc m .tick db → ∃ before d after e,
      CanaryScheduler.evaluations svc m.now = before ++ d :: after ∧
      CanaryScheduler.evaluateAll m.now before db = .ok (perform svc m .tick db) ∧
      CanaryScheduler.evaluate m.now (perform svc m .tick db) d = .error e) := by
  refine ⟨fun m op => ?_, fun row hrow => ?_, fun m op hraises hop => perform_of_raises hraises hop,
    fun m hraises => ?_⟩
  · obtain ⟨cs, hrun, -⟩ := perform_changes svc m op db
    exact ⟨cs, hrun.monotone fun _ _ _ hstep => hstep.recorded⟩
  · exact ((reachable_history svc h).rows row hrow).auditChain
  · obtain ⟨e, he⟩ := hraises
    obtain ⟨before, d, after, hsplit, hok, herror⟩ := CanaryScheduler.tickFrom_error he
    exact ⟨before, d, after, e, hsplit, hok, herror⟩

open SmallDeployment in
/-- The records of a task that was claimed, cancelled and reported. -/
theorem audit_log_reproduces_cancelled :
    AuditChain ((serve service .empty cancelledRun).stateRecords "t1") .failed := by
  have hstate : ((serve service .empty cancelledRun).task? "t1").map (·.state) = some .failed := by
    decide +kernel
  obtain ⟨row, htask, hfailed⟩ := Option.map_eq_some_iff.mp hstate
  obtain ⟨hrow, hid⟩ := Database.task?_eq_some_iff.mp htask
  have hchain := (audit_log_reproduces (serve_run service .empty cancelledRun)).2.1 row hrow
  rwa [hid, hfailed] at hchain

open SmallDeployment in
/-- A tick that raises on the second runner has already created the first
runner's canary. -/
theorem raising_tick_commits :
    ¬ ∀ (svc : ControlService) (es : List ServiceEvent) (db : Database) (m : Moment) (op : Operation),
      Run (ServiceStep svc) .empty es db → Raises svc m op db → perform svc m op db = db := by
  intro h
  let es : List ServiceEvent := [submitKeyed 0 "t1" "canary:runner-2:standard:2026-01-01"]
  have hraises : Raises canaried (moment 1) .tick (serve canaried .empty es) := by
    cases heval : CanaryScheduler.evaluateAll (moment 1).now
      (CanaryScheduler.evaluations canaried (moment 1).now) (serve canaried .empty es) with
    | error e => exact ⟨e, heval⟩
    | ok db' =>
      have hraises : (CanaryScheduler.evaluateAll (moment 1).now
          (CanaryScheduler.evaluations canaried (moment 1).now) (serve canaried .empty es)).toBool =
            false := by decide +kernel
      rw [heval] at hraises
      cases hraises
  have hsame := h canaried es _ (moment 1) .tick (serve_run canaried .empty es) hraises
  have hcount : (perform canaried (moment 1) .tick (serve canaried .empty es)).tasks.rows.length ≠
      (serve canaried .empty es).tasks.rows.length := by decide +kernel
  exact hcount (by rw [hsame])

end Conductress
