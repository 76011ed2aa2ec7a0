import Mathlib.Logic.Relation
import Conductress.Control.Lifecycle

/-!
# Task histories

The audit log holds one record for every write of a task's state. This module
reads a task's whole history off it and checks it against the lifecycle.

* `TaskHistory` — the records of a task link up from its creation to its
  present state, each is an edge of the lifecycle, and a completed or failed
  task was accepted first unless a cancellation was requested while it was
  only claimed;
* `reachable_history` — every row of every reachable database has one;
* `later_history` — between two states of a run a row moves along edges, its
  records are appended to, and a terminal state is never left.

`Edge` is the documented lifecycle and the two edges the service adds to it:
an outcome may be reported for a cancel-requested task.
-/

namespace Conductress

open Lib

/-! ## The lifecycle -/

/-- The state changes the documentation lists. -/
inductive DocumentedEdge : TaskState → TaskState → Prop
  | claim : DocumentedEdge .queued .claimed
  | accept : DocumentedEdge .claimed .accepted
  | complete : DocumentedEdge .accepted .completed
  | fail : DocumentedEdge .accepted .failed
  | expire : DocumentedEdge .claimed .queued
  | cancelQueued : DocumentedEdge .queued .cancelled
  | approve : DocumentedEdge .pendingApproval .queued
  | cancelPending : DocumentedEdge .pendingApproval .cancelled
  | requestClaimed : DocumentedEdge .claimed .cancelRequested
  | requestAccepted : DocumentedEdge .accepted .cancelRequested

/-- The state changes the service makes. -/
inductive Edge : TaskState → TaskState → Prop
  | documented {s t : TaskState} : DocumentedEdge s t → Edge s t
  | report (terminal : Terminal) : Edge .cancelRequested terminal.taskState

/-- A record of the audit log that is an edge, or the creation of a row. -/
def RecordsEdge (r : AuditRecord) : Prop :=
  (r.oldState = none ∧ (r.newState = some .queued ∨ r.newState = some .pendingApproval)) ∨
    ∃ s t, r.oldState = some s ∧ r.newState = some t ∧ Edge s t

/-- The edges never leave a terminal state. -/
theorem Edge.not_terminal {s t : TaskState} (h : Edge s t) : s.isTerminal = false := by
  cases h with
  | documented h => cases h <;> rfl
  | report _ => rfl

/-- Once accepted, a task is accepted, cancel-requested, completed or failed. -/
theorem Edge.after_acceptance {s t : TaskState} (h : Edge s t)
    (hs : s = .accepted ∨ s = .cancelRequested) :
    t = .cancelRequested ∨ t = .completed ∨ t = .failed := by
  cases h with
  | documented h => cases h <;> simp at hs ⊢
  | report terminal => cases terminal <;> simp [Terminal.taskState]

/-- An accepted task stays accepted, or is cancel-requested, completed or failed. -/
theorem Edge.path_from_accepted {t : TaskState}
    (h : Relation.ReflTransGen Edge .accepted t) :
    t = .accepted ∨ t = .cancelRequested ∨ t = .completed ∨ t = .failed := by
  induction h with
  | refl => exact .inl rfl
  | tail _ hedge ih =>
    rcases ih with rfl | rfl | rfl | rfl
    · exact .inr (hedge.after_acceptance (.inl rfl))
    · exact .inr (hedge.after_acceptance (.inr rfl))
    · cases hedge.not_terminal
    · cases hedge.not_terminal

/-- Every allowed write is an edge. -/
theorem StateWrite.edge {db : Database} {now : Instant} {row : TaskRow} {w : StateWrite}
    (h : w.Allowed db now row) : Edge row.state w.newState := by
  cases w with
  | cancel =>
    rcases h with h | h <;> rw [h]
    · exact .documented .cancelQueued
    · exact .documented .cancelPending
  | requestCancel =>
    rcases h with h | h <;> rw [h]
    · exact .documented .requestClaimed
    · exact .documented .requestAccepted
  | approve => rw [show row.state = .pendingApproval from h]; exact .documented .approve
  | reject => rw [show row.state = .pendingApproval from h]; exact .documented .cancelPending
  | expireClaim => rw [ControlService.isStale_claimed h]; exact .documented .expire
  | claim => rw [h.1]; exact .documented .claim
  | accept => rw [h.1]; exact .documented .accept
  | report outcome =>
    rcases h.1 with h | h <;> rw [h]
    · cases hstate : outcome.state <;> simp only [newState, Terminal.taskState, hstate]
      · exact .documented .complete
      · exact .documented .fail
    · exact .report outcome.state
  | expireCanary => rw [show row.state = .queued from h]; exact .documented .cancelQueued

/-! ## Trails -/

/-- Records that link up: each starts where the one before ended. -/
def Linked : Option TaskState → List AuditRecord → Option TaskState → Prop
  | s, [], t => s = t
  | s, r :: rs, t => r.oldState = s ∧ Linked r.newState rs t

theorem Linked.snoc {t : Option TaskState} {r : AuditRecord} (hr : r.oldState = t) :
    ∀ {rs : List AuditRecord} {s : Option TaskState}, Linked s rs t →
      Linked s (rs ++ [r]) r.newState
  | [], _, h => ⟨hr.trans h.symm, rfl⟩
  | _ :: _, _, h => ⟨h.1, Linked.snoc hr h.2⟩

/-- The row was accepted by its runner, or a cancellation was requested while
it was only claimed. -/
def AcceptedFirst (trail : List AuditRecord) (row : TaskRow) : Prop :=
  (row.acceptedAt.isSome = true ∧
    ∃ r ∈ trail, r.action = .taskAccept ∧ r.runnerId = some row.runnerId) ∨
  ∃ r ∈ trail, r.action = .taskCancelRequested ∧ r.oldState = some .claimed

/-- A row and the audit records about it. -/
structure TaskHistory (trail : List AuditRecord) (row : TaskRow) : Prop where
  linked        : Linked none trail (some row.state)
  edges         : ∀ r ∈ trail, RecordsEdge r
  assigned      : ∀ r ∈ trail, r.runnerId = some row.runnerId
  acceptedFirst : row.state = .accepted ∨ row.state = .cancelRequested ∨ row.state = .completed ∨
    row.state = .failed → AcceptedFirst trail row

/-- A write extends the history of its row. -/
theorem TaskHistory.write {trail : List AuditRecord} {row : TaskRow} {db : Database} {w : StateWrite}
    {now : Instant} (h : TaskHistory trail row) (hallowed : w.Allowed db now row) (actor : String)
    (detail : Option Fields) :
    TaskHistory (trail ++ [Database.writeRecord w now actor detail row]) (w.set now row) where
  linked := by
    rw [StateWrite.set_state]
    exact h.linked.snoc rfl
  edges := by
    intro r hr
    rcases List.mem_append.mp hr with hr | hr
    · exact h.edges r hr
    · rw [List.mem_singleton.mp hr]
      exact .inr ⟨_, _, rfl, rfl, StateWrite.edge hallowed⟩
  assigned := by
    intro r hr
    rw [StateWrite.set_runnerId]
    rcases List.mem_append.mp hr with hr | hr
    · exact h.assigned r hr
    · rw [List.mem_singleton.mp hr]
      rfl
  acceptedFirst := by
    intro hstate
    have hkeep : row.state = .accepted ∨ row.state = .cancelRequested →
        (w.set now row).acceptedAt = row.acceptedAt →
        AcceptedFirst (trail ++ [Database.writeRecord w now actor detail row]) (w.set now row) := by
      intro hs hacc
      rcases h.acceptedFirst (by tauto) with ⟨hsome, r, hr, hact, hrunner⟩ | ⟨r, hr, hact, hold⟩
      · exact .inl ⟨hacc ▸ hsome, r, List.mem_append_left _ hr, hact, by simpa using hrunner⟩
      · exact .inr ⟨r, List.mem_append_left _ hr, hact, hold⟩
    cases w with
    | requestCancel =>
      rcases hallowed with hs | hs
      · exact .inr ⟨_, List.mem_append_right _ (List.mem_singleton.mpr rfl), rfl,
          congrArg some hs⟩
      · exact hkeep (.inl hs) rfl
    | accept =>
      exact .inl ⟨rfl, _, List.mem_append_right _ (List.mem_singleton.mpr rfl), rfl, rfl⟩
    | report outcome => exact hkeep hallowed.1 rfl
    | _ => simp [StateWrite.newState] at hstate

/-! ## One change -/

/-- What the audit log keeps of the tasks table. -/
structure Audited (db : Database) : Prop where
  rows   : ∀ row ∈ db.tasks, TaskHistory (db.trail row.taskId) row
  absent : ∀ id, db.task? id = none → db.trail id = []

theorem trail_append {db db' : Database} {rs : List AuditRecord}
    (h : db'.auditLog = db.auditLog ++ rs) (id : String) :
    db'.trail id = db.trail id ++ rs.filter fun r => decide (r.taskId = some id) := by
  rw [Database.trail, h, List.filter_append, Database.trail]

/-- A change appends to the trail of its row only. -/
theorem Change.Step.trail_of_ne {db db' : Database} {c : Change} (h : Change.Step db c db')
    {id : String} (hid : c.rowId ≠ some id) : db'.trail id = db.trail id := by
  cases h with
  | inserted _ _ _ hlog | wrote _ _ _ hlog =>
    rw [trail_append hlog]
    simp only [Change.rowId, ne_eq, Option.some.injEq] at hid
    simp [ControlService.insertRecord, Database.writeRecord, hid]
  | scheduled hrecord _ hlog =>
    rw [trail_append hlog, List.filter_eq_nil_iff.mpr, List.append_nil]
    intro r hr
    simp [hrecord r (by simpa using hr)]

/-- **Every change keeps the log in step with the table.** -/
theorem Change.Step.audited {db db' : Database} {c : Change} (h : Change.Step db c db')
    (hA : Audited db) : Audited db' where
  rows := by
    intro row' hrow'
    rcases h.mem_after hrow' with ⟨hrow, hid⟩ | ⟨action, now, actor, detail, rfl, hfree, hfresh⟩ |
      ⟨w, now, actor, detail, row, rfl, hrow, hallowed, rfl⟩
    · rw [h.trail_of_ne hid]
      exact hA.rows row' hrow
    · cases h with
      | inserted _ _ _ hlog =>
        rw [trail_append hlog, hA.absent _ hfree]
        simp only [ControlService.insertRecord, List.nil_append, decide_true, List.filter_cons_of_pos,
          List.filter_nil]
        refine ⟨⟨rfl, rfl⟩, ?_, by simp, fun hstate => ?_⟩
        · intro r hr
          rw [List.mem_singleton.mp hr]
          exact .inl ⟨rfl, by simpa using hfresh.state⟩
        · rcases hfresh.state with hs | hs <;> simp [hs] at hstate
    · cases h with
      | wrote _ _ _ hlog =>
        have htrail : db'.trail row.taskId =
            db.trail row.taskId ++ [Database.writeRecord w now actor detail row] := by
          rw [trail_append hlog]
          simp [Database.writeRecord]
        rw [StateWrite.set_taskId, htrail]
        exact (hA.rows row hrow).write hallowed actor detail
  absent := by
    intro id hnone
    by_cases hid : c.rowId = some id
    · cases h with
      | inserted _ _ hlook _ | wrote _ _ hlook _ =>
        simp only [Change.rowId, Option.some.injEq] at hid
        rw [hlook, if_pos hid.symm] at hnone
        cases hnone
      | scheduled => cases hid
    · rw [h.trail_of_ne hid]
      exact hA.absent id (by rw [← h.task?_of_ne hid]; exact hnone)

/-! ## Runs -/

theorem audited_empty : Audited .empty :=
  ⟨fun row hrow => absurd hrow (Table.not_mem_empty row), fun _ _ => rfl⟩

theorem perform_audited (svc : ControlService) (m : Moment) (op : Operation) {db : Database}
    (hA : Audited db) : Audited (perform svc m op db) := by
  obtain ⟨cs, hrun, -⟩ := perform_changes svc m op db
  exact hrun.invariant _ hA fun _ _ _ hstep ih => hstep.audited ih

theorem reachable_history (svc : ControlService) {es : List ServiceEvent} {db : Database}
    (h : Run (ServiceStep svc) .empty es db) : Audited db :=
  h.invariant _ audited_empty fun _ _ _ hstep ih => by
    rw [hstep]
    exact perform_audited svc _ _ ih

/-- What happens to a row between two states of a run. -/
structure Later (db : Database) (row : TaskRow) (db' : Database) (row' : TaskRow) : Prop where
  mem      : row' ∈ db'.tasks
  taskId   : row'.taskId = row.taskId
  runnerId : row'.runnerId = row.runnerId
  path     : Relation.ReflTransGen Edge row.state row'.state
  trail    : db.trail row.taskId <+: db'.trail row.taskId

namespace Later

variable {db db' db'' : Database} {row row' row'' : TaskRow}

theorem refl (h : row ∈ db.tasks) : Later db row db row :=
  ⟨h, rfl, rfl, .refl, List.prefix_rfl⟩

theorem trans (h : Later db row db' row') (h' : Later db' row' db'' row'') :
    Later db row db'' row'' :=
  ⟨h'.mem, h'.taskId.trans h.taskId, h'.runnerId.trans h.runnerId, h.path.trans h'.path,
    h.trail.trans (h.taskId ▸ h'.trail)⟩

/-- A terminal state is never left. -/
theorem terminal (h : Later db row db' row') (hterm : row.state.isTerminal = true) :
    row'.state = row.state := by
  rcases Relation.ReflTransGen.cases_head h.path with heq | ⟨s, hedge, -⟩
  · exact heq.symm
  · rw [hedge.not_terminal] at hterm
    cases hterm

/-- An accepted task never returns to the queue. -/
theorem accepted (h : Later db row db' row') (hstate : row.state = .accepted) :
    row'.state = .accepted ∨ row'.state = .cancelRequested ∨ row'.state = .completed ∨
      row'.state = .failed :=
  Edge.path_from_accepted (hstate ▸ h.path)

end Later

/-- A change keeps every row, moved along at most one edge. -/
theorem Change.Step.later {db db' : Database} {c : Change} (h : Change.Step db c db') {row : TaskRow}
    (hrow : row ∈ db.tasks) : ∃ row', Later db row db' row' := by
  have hfind := Database.task?_of_mem hrow
  by_cases hid : c.rowId = some row.taskId
  · cases h with
    | inserted hfree _ _ _ =>
      simp only [Change.rowId, Option.some.injEq] at hid
      rw [hid, hfind] at hfree
      cases hfree
    | @wrote _ w now actor detail old hold hallowed hlook hlog =>
      simp only [Change.rowId, Option.some.injEq] at hid
      obtain rfl : old = row := Table.eq_of_key_eq hold hrow hid
      have hnew : db'.task? old.taskId = some (w.set now old) := by rw [hlook, if_pos rfl]
      refine ⟨w.set now old, (Database.task?_eq_some_iff.mp hnew).1, by simp, by simp, ?_, ?_⟩
      · rw [StateWrite.set_state]
        exact .single (StateWrite.edge hallowed)
      · rw [trail_append hlog]
        exact List.prefix_append ..
    | scheduled => cases hid
  · rw [← h.task?_of_ne hid] at hfind
    exact ⟨row, (Database.task?_eq_some_iff.mp hfind).1, rfl, rfl, .refl,
      h.trail_of_ne hid ▸ List.prefix_rfl⟩

/-- **Every row of a state is there in every later one**, moved along edges of
the lifecycle, its records appended to. -/
theorem later_history (svc : ControlService) {es : List ServiceEvent} {db db' : Database}
    (h : Run (ServiceStep svc) db es db') {row : TaskRow} (hrow : row ∈ db.tasks) :
    ∃ row', Later db row db' row' := by
  induction h with
  | refl => exact ⟨row, .refl hrow⟩
  | @snoc db₁ db₂ es e _ hstep ih =>
    obtain ⟨row₁, hlater⟩ := ih
    obtain ⟨cs, hrun, -⟩ := perform_changes svc e.moment e.operation db₁
    rw [← show db₂ = _ from hstep] at hrun
    have hlater' : ∃ row₂, Later db₁ row₁ db₂ row₂ := by
      clear hstep
      induction hrun with
      | refl => exact ⟨row₁, .refl hlater.mem⟩
      | snoc _ hchange ih =>
        obtain ⟨row₂, hrow₂⟩ := ih
        obtain ⟨row₃, hrow₃⟩ := hchange.later hrow₂.mem
        exact ⟨row₃, hrow₂.trans hrow₃⟩
    obtain ⟨row₂, hrow₂⟩ := hlater'
    exact ⟨row₂, hlater.trans hrow₂⟩

/-- **The lifecycle over whole runs.** In every state reached from the empty
database the records of a task link up along edges, and a completed or failed
task was accepted by its runner first unless a cancellation was requested while
it was only claimed; from there on the row moves along edges, a terminal state
is never left and an accepted task never queued again. -/
theorem lifecycle_of_runs (svc : ControlService) {es fs : List ServiceEvent} {db db' : Database}
    (h : Run (ServiceStep svc) .empty es db) (h' : Run (ServiceStep svc) db fs db') {row : TaskRow}
    (hrow : row ∈ db.tasks) :
    TaskHistory (db.trail row.taskId) row ∧
    (row.state = .completed ∨ row.state = .failed → AcceptedFirst (db.trail row.taskId) row) ∧
    ∃ row' ∈ db'.tasks, row'.taskId = row.taskId ∧ row'.runnerId = row.runnerId ∧
      db.trail row.taskId <+: db'.trail row.taskId ∧
      Relation.ReflTransGen Edge row.state row'.state ∧
      (row.state.isTerminal = true → row'.state = row.state) ∧
      (row.state = .accepted → row'.state ≠ .queued) := by
  have hhistory := (reachable_history svc h).rows row hrow
  obtain ⟨row', hlater⟩ := later_history svc h' hrow
  refine ⟨hhistory, fun hstate => hhistory.acceptedFirst (.inr (.inr hstate)), row', hlater.mem,
    hlater.taskId, hlater.runnerId, hlater.trail, hlater.path, hlater.terminal, fun hstate => ?_⟩
  rcases hlater.accepted hstate with hs | hs | hs | hs <;> simp [hs]

namespace SmallDeployment

/-- A task cancelled while it runs, and then reported. -/
def cancelledRun : List ServiceEvent :=
  [submit 0 "t1", claim 1, accept 2 "t1" 1, cancel 3 "t1", report 4 "t1" .failed]

/-- A task cancelled while it is only claimed, and then reported. -/
def unacceptedRun : List ServiceEvent :=
  [submit 0 "t1", claim 1, cancel 2 "t1", report 3 "t1" .completed]

end SmallDeployment

open SmallDeployment in
/-- The failed task is still failed after a later claim. -/
theorem lifecycle_of_runs_cancelled :
    ∃ row ∈ (serve service (serve service .empty cancelledRun) [claim 5]).tasks,
      row.state = .failed := by
  have hfailed : ∃ row ∈ (serve service .empty cancelledRun).tasks.rows, row.state = .failed := by
    decide
  obtain ⟨row, hrow, hstate⟩ := hfailed
  obtain ⟨-, -, row', hrow', -, -, -, -, hterm, -⟩ :=
    lifecycle_of_runs service (serve_run service .empty cancelledRun) (serve_run service _ [claim 5])
      hrow
  exact ⟨row', hrow', (hterm (by rw [hstate]; rfl)).trans hstate⟩

open SmallDeployment in
/-- A cancellation requested while the task is only claimed, then an outcome:
a completed task that was never accepted, over an edge that is not documented. -/
theorem completed_unaccepted :
    ¬ ∀ (svc : ControlService) (es : List ServiceEvent) (db : Database),
      Run (ServiceStep svc) .empty es db → ∀ row ∈ db.tasks,
        (∀ r ∈ db.trail row.taskId, ∀ s ∈ r.oldState, ∀ t ∈ r.newState, DocumentedEdge s t) ∧
        (row.state = .completed ∨ row.state = .failed → row.acceptedAt.isSome = true) := by
  intro h
  have hcompleted : ∃ row ∈ (serve service .empty unacceptedRun).tasks.rows,
      row.state = .completed ∧ row.acceptedAt = none := by decide
  obtain ⟨row, hrow, hstate, hacc⟩ := hcompleted
  have := (h service unacceptedRun _ (serve_run service .empty unacceptedRun) row hrow).2 (.inl hstate)
  rw [hacc] at this
  cases this

end Conductress
