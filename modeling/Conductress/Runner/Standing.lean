import Conductress.Base.Compare
import Conductress.Runner.Mailbox

/-!
# Where a task stands

Properties of a world that the proofs about the runner are stated in, and what
one change of the database does to them. Most are about the state of a task's
row and are never lost again (`StateWrite.Closed`); a claim that is no longer
live never becomes so, since every claim draws a fresh token (`notLive_step`).
-/

namespace Conductress

open Lib

/-! ## Dictionaries and files -/

/-- An imported file names its task. -/
theorem TaskQueue.lookup_persisted (document : Fields) (taskId : String) :
    Json.lookup (TaskQueue.persisted document taskId) envelopeTaskIdKey = some (.str taskId) :=
  Json.lookup_setField document envelopeTaskIdKey (.str taskId)

/-! ## Task ids in a path -/

theorem Pattern.toNat_of_isAlnum {c : Char} (h : Pattern.isAlnum c = true) :
    0x20 < c.toNat ∧ c.toNat ≠ 0x7f := by
  simp only [Pattern.isAlnum, Bool.or_eq_true, decide_eq_true_eq, Char.le_def] at h
  have hle : ∀ a b : Char, a.val ≤ b.val ↔ a.toNat ≤ b.toNat := fun a b => UInt32.le_iff_toNat_le
  simp only [hle] at h
  have hA : ('A'.toNat, 'Z'.toNat, 'a'.toNat, 'z'.toNat, '0'.toNat, '9'.toNat) =
      (65, 90, 97, 122, 48, 57) := rfl
  simp only [Prod.mk.injEq] at hA
  omega

/-- The client takes every id the runner's own pattern takes. -/
theorem FleetClient.isSafePath_of_taskIdFull {taskId : String}
    (h : Pattern.taskIdFull taskId = true) : FleetClient.isSafePath taskId = true := by
  have hchar : ∀ c, Pattern.isTaskIdChar c = true → 0x20 < c.toNat ∧ c.toNat ≠ 0x7f := by
    intro c hc
    simp only [Pattern.isTaskIdChar, Bool.or_eq_true, beq_iff_eq] at hc
    rcases hc with (((hc | rfl) | rfl) | rfl) | rfl
    · exact Pattern.toNat_of_isAlnum hc
    all_goals decide
  unfold Pattern.taskIdFull at h
  unfold FleetClient.isSafePath
  rw [List.all_eq_true]
  cases htext : taskId.toList with
  | nil => simp
  | cons first rest =>
    rw [htext] at h
    obtain ⟨hfirst, hrest⟩ := Bool.and_eq_true_iff.mp h
    intro c hc
    have hsafe : 0x20 < c.toNat ∧ c.toNat ≠ 0x7f := by
      rcases List.mem_cons.mp hc with rfl | hc
      · exact Pattern.toNat_of_isAlnum hfirst
      · exact hchar c (List.all_eq_true.mp hrest c hc)
    simpa using hsafe

/-- The path of a task that loads is one the client takes. -/
theorem TaskClasses.isSafePath_of_fromDict {classes : TaskClasses} {fields : Fields} {taskId : String}
    {task : Task} (h : classes.fromDict (.obj fields) (.str taskId) = .ok task) :
    FleetClient.isSafePath taskId = true :=
  FleetClient.isSafePath_of_taskIdFull (TaskClasses.fromDict_override h).2

/-! ## State writes by the state they start from -/

/-- The states a write starts from. -/
def StateWrite.From (s : TaskState) : StateWrite → Prop
  | cancel => s = .queued ∨ s = .pendingApproval
  | requestCancel => s = .claimed ∨ s = .accepted
  | approve | reject => s = .pendingApproval
  | expireClaim | accept => s = .claimed
  | claim .. | expireCanary => s = .queued
  | report _ => s = .accepted ∨ s = .cancelRequested

theorem StateWrite.Allowed.from {db : Database} {now : Instant} {row : TaskRow} {w : StateWrite}
    (h : w.Allowed db now row) : w.From row.state := by
  cases w with
  | expireClaim => exact ControlService.isStale_claimed h
  | claim token lease => exact h.1
  | accept => exact h.1
  | report outcome => exact h.1
  | _ => exact h

/-- A set of states no write leaves. -/
def StateWrite.Closed (p : TaskState → Prop) : Prop :=
  ∀ (w : StateWrite) (s : TaskState), w.From s → p s → p w.newState

/-! ## Properties of a world -/

/-- The states after a runner was granted a task or stopped while it was asking. -/
def TaskState.isPast (s : TaskState) : Prop :=
  s = .accepted ∨ s = .cancelRequested ∨ s = .completed ∨ s = .failed

/-- Waiting for an outcome. -/
def TaskState.isOpen (s : TaskState) : Prop := s = .accepted ∨ s = .cancelRequested

/-- An outcome has been recorded. -/
def TaskState.isDone (s : TaskState) : Prop := s = .completed ∨ s = .failed

namespace World

variable (d : Deployment) (w : World)

/-- The task's row is the runner's, in a state with the property. -/
def Stands (p : TaskState → Prop) (taskId : String) : Prop :=
  ∃ row, w.db.task? taskId = some row ∧ row.runnerId = d.runnerId ∧ p row.state

/-- The claim under this token can still be accepted. -/
def Live (taskId : String) (token : ClaimToken) : Prop :=
  ∃ row, w.db.task? taskId = some row ∧ row.state = .claimed ∧ row.claimToken = some token ∧
    ∃ lease, row.leaseExpires = some lease ∧ w.now < lease

/-- The queue holds a file an import wrote for this task. -/
def ClaimFile (taskId : String) : Prop :=
  ∃ file, w.queue.find? taskId = some file ∧ file.fromClaim = true

/-- No record of the task is found in the logs. -/
def NoRecord (taskId : String) : Prop :=
  w.findResult taskId = none ∧ w.findFailure taskId = none

/-- Some task that came under this id has a record in the logs. -/
def Recorded (taskId : String) : Prop :=
  ∃ task : Task, .recorded task ∈ w.history ∧ task.override = some taskId

end World

/-- The entry's task body loads on this deployment. -/
def Active.Loads (classes : TaskClasses) (a : Active) : Prop :=
  ∃ task, classes.fromDict (.obj a.envelope.task) (.str a.taskId) = .ok task

/-- The service refuses the payload of a report, whatever its database holds. -/
def Deployment.Rejects (d : Deployment) (o : TaskOutcome) : Prop :=
  d.maxBodyBytes < d.wireBytes o.toJson ∨ o.schemaValid = false ∨
    d.service.parsesWithTimezone o.completedAt = false

/-- The row takes the outcome, or already holds it, having taken it. -/
def World.Settles (d : Deployment) (w : World) (taskId : String) (o : TaskOutcome) : Prop :=
  ∃ row, w.db.task? taskId = some row ∧ row.runnerId = d.runnerId ∧
    (row.state.isOpen ∨
      (row.state = o.state.taskState ∧ row.outcome = some o.canonical ∧ ¬ d.Rejects o))

/-! ## One change -/

theorem closed_handed : StateWrite.Closed (· ≠ .pendingApproval) := by
  intro w s hfrom _
  cases w with
  | report o => cases ho : o.state <;> simp [StateWrite.newState, Terminal.taskState, ho]
  | _ => simp [StateWrite.newState]

theorem closed_past : StateWrite.Closed TaskState.isPast := by
  intro w s hfrom hs
  cases w with
  | report o =>
    cases ho : o.state <;> simp [StateWrite.newState, Terminal.taskState, TaskState.isPast, ho]
  | _ => cases s <;> simp_all [StateWrite.From, TaskState.isPast, StateWrite.newState]

theorem closed_done : StateWrite.Closed TaskState.isDone := by
  intro w s hfrom hs
  cases w <;> cases s <;> simp_all [StateWrite.From, TaskState.isDone]

section Change

variable {d : Deployment} {w w' : World} {c : Change} {taskId : String}

/-- A closed property of a task's state survives a change. -/
theorem World.Stands.step {p : TaskState → Prop} (hp : StateWrite.Closed p)
    (hstep : Change.Step w.db c w'.db) (h : w.Stands d p taskId) : w'.Stands d p taskId := by
  obtain ⟨row, hrow, hmine, hs⟩ := h
  rcases hstep.row_after hrow with hsame | ⟨wr, now, actor, detail, -, hallowed, hrow'⟩
  · exact ⟨row, hsame, hmine, hs⟩
  · exact ⟨_, hrow', by rw [StateWrite.set_runnerId]; exact hmine,
      by rw [StateWrite.set_state]; exact hp wr _ hallowed.from hs⟩

/-- A claim that is not live stays so, unless the change is a claim under its
very token. -/
theorem World.notLive_step {token : ClaimToken} (hstep : Change.Step w.db c w'.db)
    (hnow : w'.now = w.now)
    (htoken : ∀ t lease now actor detail row, c = .wrote (.claim t lease) now actor detail row →
      t ≠ token)
    (h : ¬ w.Live taskId token) : ¬ w'.Live taskId token := by
  rintro ⟨row', hrow', hstate, htok, lease, hlease, hlt⟩
  obtain ⟨hmem', hid⟩ := Database.task?_eq_some_iff.mp hrow'
  rcases hstep.mem_after hmem' with ⟨hmem, -⟩ | ⟨_, _, _, _, -, -, hfresh⟩ |
    ⟨wr, now, actor, detail, row, rfl, hmem, hallowed, rfl⟩
  · rw [hnow] at hlt
    exact h ⟨row', Database.task?_eq_some_iff.mpr ⟨hmem, hid⟩, hstate, htok, lease, hlease, hlt⟩
  · rw [hfresh.claimToken] at htok
    cases htok
  · rw [StateWrite.set_state] at hstate
    cases wr with
    | claim t l =>
      have : t = token := by simpa [StateWrite.set] using htok
      exact htoken t l now actor detail row rfl this
    | report o =>
      cases ho : o.state <;> simp [StateWrite.newState, Terminal.taskState, ho] at hstate
    | _ => simp [StateWrite.newState] at hstate

end Change

end Conductress
