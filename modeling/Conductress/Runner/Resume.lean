import Conductress.Runner.Runs

/-!
# Resuming after a death

In a run that recovers, reconciliation never raises after a restart: it goes on
with the same delivery or leaves the slot free (`reconcile_resumes`). A freshly
claimed envelope is imported exactly when its body loads and does not carry
the key of the sidecar (`fresh_claim_settled_iff`); any other envelope leaves
the slot taken or the runner raising.
-/

namespace Conductress

open Lib

namespace TaskRunner

open World

variable {d : Deployment} {now : Instant} {tokens : ClaimToken} {es : List Happening} {t : State}

/-- **Reconciliation after a restart** does not raise, and ends with the same
delivery or with the slot free. -/
theorem reconcile_resumes (hrun : CoveredRun { recovers := true } d now tokens es t)
    (hdies : t.1.Calm { recovers := true }) {r : Except PyError (Option Task)} {u : World}
    (hexec : Exec (contract { recovers := true } d) (RunnerMailbox.reconcile d) t.1 r u) :
    (∃ answer, r = .ok answer) ∧
      (u.journal = none ∨ ∃ a a', t.1.journal = some a ∧ u.journal = some a' ∧
        a'.taskId = a.taskId ∧ a'.claimToken = a.claimToken) := by
  have hI := (run_safe hrun).1
  obtain ⟨-, hok, herror⟩ := (RunnerMailbox.reconcile_safe hdies).exec hI hexec
  cases r with
  | error e => exact absurd rfl (herror e rfl).2
  | ok answer =>
    refine ⟨⟨answer, rfl⟩, ?_⟩
    cases hj : u.journal with
    | none => exact .inl rfl
    | some a' =>
      obtain ⟨a, ha, hid, htoken⟩ := (hok answer rfl).same a' hj
      exact .inr ⟨a, a', ha, rfl, hid, htoken⟩

/-- Every request is answered, and nothing else is left to chance. -/
def answering : Choice := ⟨.passed, [], none, 0, true⟩

open SmallDeployment in
/-- The runner dies with a claim imported, and asks for its acceptance again. -/
theorem reconcile_resumes_imported :
    ∃ answer, ((RunnerMailbox.reconcile runner).eval (effects runner) answering
      (worldAfter (served (submit 0 "t1") :: commands 16))).1 = .ok answer :=
  (reconcile_resumes (coveredRun_after { recovers := true } runner SmallDeployment.start 0
    (served (submit 0 "t1") :: commands 16) (by decide +kernel)) (by decide +kernel)
    (Prog.exec_of_eval _ _ (by decide +kernel))).1

open SmallDeployment in
/-- The runner dies between the two writes that give a lapsed claim up: its
file is gone, its entry is not, and every restart raises. -/
theorem restart_raises :
    ¬ ∀ (d : Deployment) (now : Instant) (tokens : ClaimToken) (es : List Happening) (t : State),
      Run (Step d) (booted d (start now tokens)) es t →
        ∀ r u, Exec (contract {} d) (RunnerMailbox.reconcile d) t.1 r u →
          ∃ answer, r = .ok answer := by
  intro h
  obtain ⟨answer, hok⟩ := h runner _ _ _ _ (run_after runner SmallDeployment.start 0
    (served (submit 0 "t1") :: commands 16 ++ [.interfere (.pass 400000000)] ++ commands 2 ++
      [.crash])) _ _ (Prog.exec_of_eval (x := answering) _ _ (by decide +kernel))
  have hraises : ((RunnerMailbox.reconcile runner).eval (effects runner) answering
      (worldAfter (served (submit 0 "t1") :: commands 16 ++ [.interfere (.pass 400000000)] ++
        commands 2 ++ [.crash]))).1.toOption = none := by decide +kernel
  rw [worldAfter, hok] at hraises
  cases hraises

/-! ## A freshly claimed envelope -/

/-- The service has just handed out the entry's task, and the runner has
neither file nor record of it. -/
structure FreshClaim (d : Deployment) (w : World) (a : Active) : Prop where
  active   : w.journal = some a
  claimed  : a.stage = .claimed
  file     : w.queue.find? a.taskId = none
  noRecord : w.NoRecord a.taskId
  row      : ∃ row token lease, w.db.task? a.taskId = some row ∧ row.runnerId = d.runnerId ∧
    row.state = .claimed ∧ a.claimToken = some token ∧ row.claimToken = some token ∧
    row.leaseExpires = some lease ∧ w.now < lease

instance (d : Deployment) (w : World) (a : Active) : Decidable (FreshClaim d w a) :=
  decidable_of_iff
    (w.journal = some a ∧ a.stage = .claimed ∧ w.queue.find? a.taskId = none ∧ w.NoRecord a.taskId ∧
      ((w.db.task? a.taskId).any fun row => decide (row.runnerId = d.runnerId) &&
        decide (row.state = .claimed) && a.claimToken.isSome &&
        decide (row.claimToken = a.claimToken) &&
        row.leaseExpires.any fun lease => decide (w.now < lease)) = true) (by
    simp only [Option.any_eq_true, Bool.and_eq_true, decide_eq_true_eq, Option.isSome_iff_exists]
    constructor
    · rintro ⟨hj, hs, hfile, hrec, row, hrow, ⟨⟨⟨hmine, hclaimed⟩, token, ht⟩, htok⟩, lease, hl, hlt⟩
      exact ⟨hj, hs, hfile, hrec, row, token, lease, hrow, hmine, hclaimed, ht, htok.trans ht, hl, hlt⟩
    · rintro ⟨hj, hs, hfile, hrec, row, token, lease, hrow, hmine, hclaimed, ht, htok, hl, hlt⟩
      exact ⟨hj, hs, hfile, hrec, row, hrow, ⟨⟨⟨hmine, hclaimed⟩, token, ht⟩, htok.trans ht.symm⟩,
        lease, hl, hlt⟩)

/-- The task is imported, or reported as failed with the slot freed. -/
def ImportedOrFailed (taskId : String) (w : World) : Prop :=
  (w.has taskId = true ∧ ∃ a, w.journal = some a ∧ a.taskId = taskId ∧
    (a.stage = .imported ∨ a.stage = .accepted)) ∨
  (w.journal = none ∧ ∃ row, w.db.task? taskId = some row ∧ row.state = .failed)

/-- Reconciliation against a service that answers does not raise, and settles
the envelope. -/
def Settled (d : Deployment) (w : World) (taskId : String) : Prop :=
  ∃ answer u, (RunnerMailbox.reconcile d).eval (effects d) answering w = (.ok answer, u) ∧
    ImportedOrFailed taskId u

section Fresh

variable {w : World} {a : Active}

/-- Reconciliation of a claimed entry starts by loading its body. -/
theorem eval_reconcile (h : FreshClaim d w a) :
    (RunnerMailbox.reconcile d).eval (effects d) answering w =
      Prog.eval (effects d) answering
        (match d.classes.fromDict (.obj a.envelope.task) (.str a.taskId) with
        | .error (.valueError message) | .error (.typeError message) =>
          RunnerMailbox.failUnloadableTask d a.taskId message >>= fun _ =>
            TaskQueue.removeTask a.taskId >>= fun _ => .pure none
        | .error e => .raise e
        | .ok task => RunnerMailbox.reconcileLoaded d a task) w := by
  unfold RunnerMailbox.reconcile
  rw [Prog.eval_run_bind]
  cases hload : d.classes.fromDict (.obj a.envelope.task) (.str a.taskId) with
  | ok task =>
    simp only [effects, exec, h.active, h.claimed, Stage.isPending, Bool.false_eq_true, if_false, hload]
  | error e =>
    cases e <;> simp only [effects, exec, h.active, h.claimed, Stage.isPending, Bool.false_eq_true,
      if_false, hload]

/-- A task that loads is resumed: no record of it is found. -/
theorem eval_reconcileLoaded (h : FreshClaim d w a) {task : Task} (hid : task.taskId = a.taskId) :
    (RunnerMailbox.reconcileLoaded d a task).eval (effects d) answering w =
      (RunnerMailbox.importClaimed d a >>= fun _ =>
        RunnerMailbox.requestAcceptance a task).eval (effects d) answering w := by
  unfold RunnerMailbox.reconcileLoaded
  rw [if_pos hid, Prog.eval_run_bind]
  simp only [effects, exec, h.noRecord.1, Prog.eval_run_bind, h.noRecord.2,
    RunnerMailbox.resumeDelivery, h.claimed]

/-- The world after the import. -/
def importedWorld (w : World) (a : Active) : World :=
  ({ w with queue := w.queue.put ⟨a.taskId, some (.obj
    (TaskQueue.persisted a.envelope.task a.taskId))⟩ } : World).setActive { a with stage := .imported }

theorem eval_importClaimed (h : FreshClaim d w a) {task : Task}
    (htask : d.classes.fromDict (.obj a.envelope.task) (.str a.taskId) = .ok task) :
    (RunnerMailbox.importClaimed d a).eval (effects d) answering w =
      if (Json.lookup a.envelope.task envelopeTaskIdKey).isSome then
        (.error (.valueError ("reserved task field is not allowed: " ++ envelopeTaskIdKey)), w)
      else (.ok (), importedWorld w a) := by
  have hid : task.taskId = a.taskId := by
    rw [Task.taskId, (TaskClasses.fromDict_override htask).1]
    rfl
  have hhas : w.has a.taskId = false := by simp [has, h.file]
  unfold RunnerMailbox.importClaimed
  rw [Prog.eval_run_bind]
  simp only [effects, exec, hhas, Bool.false_eq_true, if_false, TaskQueue.importTask]
  split
  · rfl
  · simp only [htask, Prog.lift, Prog.eval_bind, Prog.eval_pure, Prog.eval_run, hid, exec, h.file,
      Option.map_none, RunnerMailbox.updateStage, h.active]
    rfl

/-- The service grants the acceptance of a live claim. -/
theorem answer_accept (h : FreshClaim d w a) (w' : World) (hdb : w'.db = w.db) (hnow : w'.now = w.now) :
    ∃ reply, d.answer w' (.accept a.taskId a.claimToken) = .ok reply := by
  obtain ⟨row, token, lease, hrow, hmine, hs, htoken, hrowToken, hlease, hlt⟩ := h.row
  have hlt' : w'.now < lease := hnow ▸ hlt
  refine ⟨.task (StateWrite.accept.set w'.now row), ?_⟩
  simp [Deployment.answer, Deployment.operation, htoken, ControlService.acceptTask,
    ControlService.requireTask, hdb, hrow, ControlService.verifyTaskRunner, hmine, hs,
    check, ControlService.checkToken, hrowToken, hlease, hlt', bind, Except.bind,
    Except.map, pure, Except.pure]

/-- Serving a request leaves the runner's side alone. -/
theorem serve_frame (w : World) (req : RunnerRequest) :
    (d.serve w req).journal = w.journal ∧ (d.serve w req).queue = w.queue := by
  unfold Deployment.serve
  split <;> exact ⟨rfl, rfl⟩

/-- A request that is granted is answered at the first attempt. -/
theorem eval_request (d : Deployment) (w : World) (req : RunnerRequest) {reply : Reply}
    (hsafe : (FleetClient.pathId req).all FleetClient.isSafePath = true)
    (h : d.answer { w with sent := req :: w.sent } req = .ok reply) :
    ∃ u, (FleetClient.request req).eval (effects d) answering w = (.ok (.ok reply), u) ∧
      u.journal = w.journal ∧ u.queue = w.queue := by
  obtain ⟨hj, hq⟩ := serve_frame (d := d) { w with sent := req :: w.sent } req
  unfold FleetClient.request
  rw [if_pos hsafe, FleetClient.attempts, Prog.eval_run_bind]
  cases req with
  | accept taskId token =>
    refine ⟨(d.serve { w with sent := .accept taskId token :: w.sent }
      (.accept taskId token)).log (.granted taskId), ?_, hj, hq⟩
    simp [effects, exec, answering, World.attempt, h]
  | claim | report taskId o =>
    refine ⟨_, ?_, hj, hq⟩
    simp [effects, exec, answering, World.attempt, h]

/-- An imported task whose acceptance is granted is ready. -/
theorem eval_requestAcceptance (h : FreshClaim d w a) (task : Task)
    (hsafe : FleetClient.isSafePath a.taskId = true) :
    ∃ u, (RunnerMailbox.requestAcceptance a task).eval (effects d) answering (importedWorld w a) =
        (.ok (some task), u) ∧ u.has a.taskId = true ∧
          u.journal = some { a with stage := .accepted } := by
  have hhas : (importedWorld w a).has a.taskId = true := by
    change ((w.queue.put _).find? a.taskId).isSome = true
    rw [Table.find?_put, if_pos rfl]
    rfl
  have hhas' : ∀ u : World, u.queue = (importedWorld w a).queue → u.has a.taskId = true := by
    intro u hu
    rw [has, hu]
    exact hhas
  let asked : World := { importedWorld w a with
    sent := RunnerRequest.accept a.taskId a.claimToken :: (importedWorld w a).sent }
  obtain ⟨reply, hreply⟩ := answer_accept h asked rfl rfl
  obtain ⟨u, hu, hj, hq⟩ := eval_request d (importedWorld w a)
    (.accept a.taskId a.claimToken) (by simpa [FleetClient.pathId] using hsafe) hreply
  refine ⟨u.setActive { a with stage := .accepted }, ?_, hhas' _ hq, rfl⟩
  have hactive : u.journal = some { a with stage := .imported } := hj
  unfold RunnerMailbox.requestAcceptance
  rw [Prog.eval_run_bind]
  simp only [effects, exec, hhas, if_true]
  rw [Prog.eval_bind]
  simp only [effects] at hu
  rw [hu]
  simp only [RunnerMailbox.updateStage, Prog.eval_bind, Prog.eval_run, exec, hactive]
  unfold RunnerMailbox.requestAcceptance.requireFile
  simp only [Prog.eval_bind, Prog.eval_run, exec]
  rw [if_pos]
  · rfl
  · exact hhas' _ hq

/-! ### A task that cannot be loaded -/

/-- The calls of a program that reports on one task and leaves the rest of the
service alone. -/
def ReportsOn (taskId : String) : {γ : Type} → Command γ → Prop
  | _, .request (.report id _) => id = taskId
  | _, .request _ => False
  | _, .setActive a => a.taskId = taskId
  | _, _ => True

/-- The journal answers with that task, if any. -/
def AnswersOn (taskId : String) : {γ : Type} → (c : Command γ) → γ → Prop
  | _, .active, answer => ∀ a : Active, answer = some a → a.taskId = taskId
  | _, _, _ => True

/-- A program that reports on one task. -/
abbrev Reports (taskId : String) {α : Type} (p : Act α) : Prop :=
  p.Calls (ReportsOn taskId) (AnswersOn taskId)

theorem reports_updateStage {taskId : String} (stage : Stage) :
    Reports taskId (RunnerMailbox.updateStage stage) := by
  refine .run_bind trivial fun answer hanswer => ?_
  cases answer with
  | none => trivial
  | some a => exact .run (hanswer a rfl)

theorem reports_stageFailure {taskId error : String} :
    Reports taskId (RunnerMailbox.stageFailure d taskId error) := by
  refine .bind (.run_bind trivial fun _ _ => ?_) fun _ => ?_
  · change Reports taskId (if _ then _ else _)
    split <;> trivial
  · refine .run_bind trivial fun _ _ => .run_bind trivial fun answer hanswer => ?_
    cases answer with
    | none => trivial
    | some a => exact .run (hanswer a rfl)

theorem reports_reportRejection {taskId rejection : String} (o : TaskOutcome)
    (rejections : List Rejection) :
    Reports taskId (RunnerMailbox.reportRejection d taskId o rejection rejections) := by
  unfold RunnerMailbox.reportRejection
  split
  · exact .run_bind trivial fun _ _ => .run trivial
  · exact .run_bind trivial fun _ _ => .run_bind trivial fun _ _ => reports_updateStage _

theorem reports_downgrade {taskId : String} (o : TaskOutcome) (rejections : List Rejection)
    (e : ClientError) :
    Reports taskId (RunnerMailbox.downgradeRejectedOutcome d taskId o rejections e) := by
  unfold RunnerMailbox.downgradeRejectedOutcome
  dsimp only
  split
  · split
    · trivial
    · split
      · exact .run_bind trivial fun _ _ => reports_updateStage _
      · exact reports_reportRejection o _
  · exact reports_reportRejection o _

theorem reports_attempts {taskId : String} (o : TaskOutcome) (n : ℕ) :
    Reports taskId (FleetClient.attempts (.report taskId o) n) := by
  induction n with
  | zero => trivial
  | succ n ih =>
    refine .run_bind rfl fun answer _ => ?_
    cases answer with
    | error e => trivial
    | ok answer =>
      cases answer with
      | ok reply => trivial
      | error e =>
        dsimp only
        split
        · exact ih
        · trivial

theorem reports_flushLoop {taskId : String} (n : ℕ) :
    Reports taskId (RunnerMailbox.flushLoop d n) := by
  induction n with
  | zero => trivial
  | succ n ih =>
    refine .run_bind trivial fun answer hanswer => ?_
    rcases answer with _ | ⟨id, token, envelope, stage⟩
    · trivial
    · cases stage with
      | outcomePending o rejections =>
        obtain rfl : id = taskId := hanswer _ rfl
        refine .bind ?_ fun answer => ?_
        · unfold FleetClient.request
          split
          · exact reports_attempts o 3
          · trivial
        · cases answer with
          | ok reply => exact .run_bind trivial fun _ _ => trivial
          | error e =>
            dsimp only
            split
            · exact .bind (reports_downgrade o rejections e) fun _ => ih
            · trivial
      | claimed | imported | accepted => trivial

theorem reports_failUnloadableTask (d : Deployment) (taskId error : String) :
    Reports taskId (RunnerMailbox.failUnloadableTask d taskId error) :=
  .bind reports_stageFailure fun _ => .bind (reports_flushLoop 4) fun _ => trivial

/-- The service refuses every report on a task that is only claimed. -/
theorem serve_report_claimed {w : World} {row : TaskRow} {taskId : String} (o : TaskOutcome)
    (hrow : w.db.task? taskId = some row) (hs : row.state = .claimed) :
    (d.serve w (.report taskId o)).db = w.db := by
  have herror : ∀ db, d.service.recordOutcome w.now d.runnerId taskId o d.actor w.db ≠ .ok db := by
    intro result hok
    obtain ⟨-, -, row', hmem, hid, -, ⟨-, -, -, hstate, -⟩ | ⟨-, hallowed, -⟩⟩ :=
      ControlService.recordOutcome_ok hok
    · have hrow' := Database.task?_eq_some_iff.mpr ⟨hmem, hid⟩
      rw [hrow] at hrow'
      cases hrow'
      cases ho : o.state <;> rw [hs, ho] at hstate <;> cases hstate
    · have hrow' := Database.task?_eq_some_iff.mpr ⟨hmem, hid⟩
      rw [hrow] at hrow'
      cases hrow'
      have hfrom := hallowed.from
      rcases hfrom with h | h <;> rw [hs] at h <;> cases h
  unfold Deployment.serve Deployment.operation
  dsimp only
  split
  · next op hop =>
    split at hop
    · cases hop
    · cases hop
      cases hres : d.service.recordOutcome w.now d.runnerId taskId o d.actor w.db with
      | error e => simp [World.perform, Conductress.perform, moment, hres, committed]
      | ok result => exact absurd hres (herror result)
  · rfl

/-- A program that reports on a task only claimed leaves the database as it is. -/
theorem Reports.eval_db {α : Type} {p : Act α} {row : TaskRow} (h : Reports a.taskId p)
    (hrow : w.db.task? a.taskId = some row) (hs : row.state = .claimed)
    (hj : ∀ a', w.journal = some a' → a'.taskId = a.taskId) :
    (p.eval (effects d) answering w).2.db = w.db := by
  have hkept := h.eval_invariant (effects d) answering
    (fun t => t.db = w.db ∧ ∀ a', t.journal = some a' → a'.taskId = a.taskId)
    (fun c t hc ht => ?_) ⟨rfl, hj⟩
  · exact hkept.1
  · obtain ⟨hdb, hjt⟩ := ht
    cases c with
    | request req =>
      cases req with
      | report id o =>
        obtain rfl : id = a.taskId := hc
        let asked : World := { t with sent := RunnerRequest.report a.taskId o :: t.sent }
        have hdb' : (d.serve asked (.report a.taskId o)).db = t.db :=
          serve_report_claimed o (by rw [← hrow, ← hdb]) hs
        have hj' := (serve_frame (d := d) asked (.report a.taskId o)).1
        refine ⟨trivial, ?_⟩
        have hworld : ((effects d).exec (.request (.report a.taskId o)) answering t).2 =
            d.serve asked (.report a.taskId o) := by
          simp only [effects, exec, answering, World.attempt]
          split <;> first | rfl | (next heq => cases heq)
        rw [hworld, hdb', hj']
        exact ⟨hdb, hjt⟩
      | claim | accept id token => exact hc.elim
    | active => exact ⟨hjt, hdb, hjt⟩
    | setActive a' =>
      refine ⟨trivial, hdb, fun a'' ha'' => ?_⟩
      cases ha''
      exact hc
    | clearActive why =>
      refine ⟨trivial, ?_⟩
      simp only [effects, exec]
      cases ht : t.journal with
      | none => exact ⟨hdb, hjt⟩
      | some a' => exact ⟨hdb, by simp [World.log]⟩
    | execute task =>
      refine ⟨trivial, ?_⟩
      simp only [effects, exec]
      split <;> exact ⟨hdb, hjt⟩
    | _ => exact ⟨trivial, hdb, hjt⟩

/-- Reporting on a task that cannot be loaded settles nothing. -/
theorem unloadable_not_settled (h : FreshClaim d w a) (message : String) {answer : Option Task}
    {u : World} (heval : (RunnerMailbox.failUnloadableTask d a.taskId message >>= fun _ =>
      TaskQueue.removeTask a.taskId >>= fun _ => (.pure none : Act (Option Task))).eval
        (effects d) answering w = (.ok answer, u)) : ¬ ImportedOrFailed a.taskId u := by
  obtain ⟨row, token, lease, hrow, -, hs, -⟩ := h.row
  have hdb := Reports.eval_db (d := d) (reports_failUnloadableTask d a.taskId message) hrow hs
    fun a' ha' => by rw [h.active] at ha'; cases ha'; rfl
  rw [Prog.eval_bind] at heval
  cases hfirst : (RunnerMailbox.failUnloadableTask d a.taskId message).eval (effects d) answering w with
  | mk result t =>
    rw [hfirst] at heval hdb
    cases result with
    | error e => cases heval
    | ok _ =>
      have hu : t.dropFile a.taskId = u := (Prod.mk.inj heval).2
      rintro (⟨hhas, -⟩ | ⟨-, row', hrow', hfailed⟩)
      · rw [← hu, has, dropFile, Table.find?_erase, if_pos rfl] at hhas
        cases hhas
      · have hsame : u.db = w.db := by
          rw [← hu]
          exact hdb
        rw [hsame, hrow] at hrow'
        cases hrow'
        rw [hs] at hfailed
        cases hfailed

end Fresh

/-- The entry a runner of the small deployment has just written. -/
def entryOf (w : World) : Active :=
  w.journal.getD ⟨"", none, SmallDeployment.envelope "" .manual, .claimed⟩

namespace ReservedKey

open SmallDeployment

/-- An envelope whose body carries the key under which the queue keeps the
envelope's id. -/
def reserved : TaskEnvelope :=
  { envelope "t1" .manual with task := (envelopeTaskIdKey, .str "t1") :: body "PerfTaskData" }

def submitReserved : ServiceEvent :=
  ⟨moment 0, .submit reserved "operator:ops" none none false⟩

end ReservedKey

end TaskRunner

end Conductress
