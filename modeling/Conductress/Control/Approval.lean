import Conductress.Control.App

/-!
# Held submissions

A submission with a user token must be held for approval when its login is not
in the directory, or when its estimate would put the account over a positive
daily quota. The decision returns before either test for the classes canary
and sweep, which the submitter may write into the envelope.

* `submission_held_iff` — a submission that must be held is held, and stays so
  until it is approved, rejected or cancelled, exactly when its class is
  manual;
* `unknown_login_queued` — the run in which it is not.
-/

namespace Conductress

open Lib

/-! ## When a submission must be held -/

/-- Adding a task of `estimated` seconds would put the user's account over a
positive quota. -/
structure WouldExceedQuota (directory : UserDirectory) (db : Database) (now : Instant) (user : User)
    (estimated : Int) : Prop where
  positive : 0 < user.quotaRunnerMinutesPerDay
  exceeds  : ∃ used,
    usedSeconds (db.tasks.rows.filter (chargedRow
      ((directory.users.rows.filter fun u => decide (u.github = user.github)).map User.login)
      (dayOf now))) = .ok used ∧
    (user.quotaRunnerMinutesPerDay : Int) * 60 < PyFloat.roundInt (used + estimated)

/-- The login is unknown, or its account would be over quota. -/
def MustBeHeld (directory : UserDirectory) (db : Database) (now : Instant) (login : String)
    (envelope : TaskEnvelope) : Prop :=
  directory.get login = none ∨
    ∃ user estimated, directory.get login = some user ∧
      DurationEstimator.estimate envelope.task = .ok estimated ∧
      WouldExceedQuota directory db now user estimated

/-- The code's quota test decides the specification's. -/
theorem overQuota_of_wouldExceed {directory : UserDirectory} {db : Database} {now : Instant}
    {user : User} {estimated : Int} (huser : user ∈ directory.users)
    (h : WouldExceedQuota directory db now user estimated) :
    overQuota directory db now user estimated = .ok true := by
  obtain ⟨used, hused, hexceeds⟩ := h.exceeds
  have hpos : user.quotaRunnerMinutesPerDay ≠ 0 := Nat.pos_iff_ne_zero.mp h.positive
  simp [overQuota, UserDirectory.quotaMinutes, UserDirectory.quotaAccount,
    UserDirectory.require_of_mem huser, Except.map, bind, Except.bind, hpos, hused, hexceeds,
    pure, Except.pure]

/-- A manual submission that must be held is. -/
theorem approvalDecision_held {directory : UserDirectory} {db : Database} {now : Instant}
    {envelope : TaskEnvelope} {login : String} {state : TaskState} {reason : Option String}
    (hlogin : login ≠ "") (hclass : envelope.taskClass = .manual)
    (hheld : MustBeHeld directory db now login envelope)
    (h : approvalDecision (some directory) db now envelope
      (resolveSubmitter (some directory) envelope (some login)) (some login) = .ok (state, reason)) :
    state = .pendingApproval := by
  rcases hheld with hunknown | ⟨user, estimated, hget, hestimate, hexceeds⟩
  · simp only [approvalDecision, hclass, presentedLogin, resolveSubmitter, hunknown, pure,
      Except.pure] at h
    simp at h
    exact h.1.symm
  · have hover := overQuota_of_wouldExceed (UserDirectory.mem_of_get hget).1 hexceeds
    simp only [approvalDecision, hclass, presentedLogin, resolveSubmitter, if_neg hlogin, hget,
      hestimate, bind, Except.bind, pure, Except.pure] at h
    simp [hover] at h
    exact h.1.symm

/-- A canary or sweep submission is queued, whoever sends it. -/
theorem approvalDecision_queued {directory : Option UserDirectory} {db : Database} {now : Instant}
    {envelope : TaskEnvelope} {submitter : Option User} {login : Option String} {state : TaskState}
    {reason : Option String} (hclass : envelope.taskClass ≠ .manual)
    (h : approvalDecision directory db now envelope submitter login = .ok (state, reason)) :
    state = .queued := by
  have hsystem : envelope.taskClass = .canary ∨ envelope.taskClass = .sweep := by
    cases hc : envelope.taskClass <;> simp_all
  simp only [approvalDecision, if_pos hsystem, pure, Except.pure] at h
  simp only [Except.ok.injEq, Prod.mk.injEq] at h
  exact h.1.symm

/-! ## Leaving pending-approval -/

/-- The task is held in this state. -/
def Held (taskId : String) (db : Database) : Prop :=
  ∃ row, db.task? taskId = some row ∧ row.state = .pendingApproval

/-- An approval or a rejection by an approver whose selector names the stored
task or its batch, or a cancellation that may cancel it. -/
def Resolves (svc : ControlService) (db : Database) (taskId : String) : AppEvent → Prop
  | .request _ identity (.approveTasks selector) | .request _ identity (.rejectTasks selector) =>
    identity.isApprover svc = true ∧
      ∃ row, db.task? taskId = some row ∧ ControlService.selects selector row = true
  | .request _ identity (.cancelTask selector) =>
    identity.isSubmitter = true ∧
      ∃ row, db.task? taskId = some row ∧ ControlService.selects selector row = true ∧
        ControlService.mayCancel identity.login (identity.isOwner svc) row = true
  | _ => False

/-- A held row that is no longer as it was has been written by one of the writes
that take a row out of pending-approval. -/
theorem Change.Step.resolves {db db' : Database} {c : Change} (h : Change.Step db c db')
    {taskId : String} {row : TaskRow} (hrow : db.task? taskId = some row)
    (hstate : row.state = .pendingApproval) (hleft : db'.task? taskId ≠ some row) :
    ∃ w now actor detail, c = .wrote w now actor detail row ∧
      (w = .cancel ∨ w = .approve ∨ w = .reject) := by
  rcases h.row_after hrow with hsame | ⟨w, now, actor, detail, rfl, hallowed, -⟩
  · exact absurd hsame hleft
  refine ⟨w, now, actor, detail, rfl, ?_⟩
  cases w with
  | cancel => exact .inl rfl
  | approve => exact .inr (.inl rfl)
  | reject => exact .inr (.inr rfl)
  | requestCancel => rcases hallowed with hs | hs <;> simp [hstate] at hs
  | expireClaim => cases hstate.symm.trans (ControlService.isStale_claimed hallowed)
  | claim => cases hstate.symm.trans hallowed.1
  | accept => cases hstate.symm.trans hallowed.1
  | report => rcases hallowed.1 with hs | hs <;> simp [hstate] at hs
  | expireCanary => cases hstate.symm.trans hallowed

/-- The operations that permit such a write, and what they ask of its row. -/
theorem Operation.Permits.resolving {svc : ControlService} {m : Moment} {op : Operation}
    {w : StateWrite} {now : Instant} {actor : String} {detail : Option Fields} {row : TaskRow}
    (h : op.Permits svc m (.wrote w now actor detail row)) (hw : w = .cancel ∨ w = .approve ∨ w = .reject) :
    ∃ selector, ControlService.selects selector row = true ∧
      ((∃ actor, op = .approve selector actor) ∨ (∃ actor, op = .reject selector actor) ∨
        ∃ actor login isOwner, op = .cancel selector actor login isOwner ∧
          ControlService.mayCancel login isOwner row = true) := by
  cases op with
  | approve selector actor =>
    obtain ⟨row', hselects, heq⟩ := h
    cases heq
    exact ⟨selector, hselects, .inl ⟨actor, rfl⟩⟩
  | reject selector actor =>
    obtain ⟨row', hselects, heq⟩ := h
    cases heq
    exact ⟨selector, hselects, .inr (.inl ⟨actor, rfl⟩)⟩
  | cancel selector actor login isOwner =>
    obtain ⟨w', row', hselects, hmay, -, heq⟩ := h
    cases heq
    exact ⟨selector, hselects, .inr (.inr ⟨actor, login, isOwner, rfl, hmay⟩)⟩
  | _ =>
    simp only [Operation.Permits] at h
    grind

/-- The request behind an approval. -/
theorem authorize_approve {svc : ControlService} {identity : AuthIdentity} {req : Request}
    {selector actor : String} (h : authorize svc identity req = .ok (.approve selector actor)) :
    identity.isApprover svc = true ∧ req = .approveTasks selector := by
  cases req with
  | approveTasks sel =>
    obtain ⟨_, hcheck, h⟩ := except_bind_ok.mp h
    cases except_pure_ok.mp h
    exact ⟨ControlService.check_ok.mp hcheck, rfl⟩
  | acceptTask taskId token =>
    cases token <;> simp only [authorize, except_bind_ok, except_pure_ok] at h <;> grind
  | _ =>
    simp only [authorize, except_bind_ok, except_pure_ok] at h
    grind

theorem authorize_reject {svc : ControlService} {identity : AuthIdentity} {req : Request}
    {selector actor : String} (h : authorize svc identity req = .ok (.reject selector actor)) :
    identity.isApprover svc = true ∧ req = .rejectTasks selector := by
  cases req with
  | rejectTasks sel =>
    obtain ⟨_, hcheck, h⟩ := except_bind_ok.mp h
    cases except_pure_ok.mp h
    exact ⟨ControlService.check_ok.mp hcheck, rfl⟩
  | acceptTask taskId token =>
    cases token <;> simp only [authorize, except_bind_ok, except_pure_ok] at h <;> grind
  | _ =>
    simp only [authorize, except_bind_ok, except_pure_ok] at h
    grind

/-- The request behind a cancellation, whose login and ownership are its sender's. -/
theorem authorize_cancel {svc : ControlService} {identity : AuthIdentity} {req : Request}
    {selector actor : String} {login : Option String} {isOwner : Bool}
    (h : authorize svc identity req = .ok (.cancel selector actor login isOwner)) :
    identity.isSubmitter = true ∧ req = .cancelTask selector ∧ identity.login = login ∧
      identity.isOwner svc = isOwner := by
  cases req with
  | cancelTask sel =>
    obtain ⟨_, hcheck, h⟩ := except_bind_ok.mp h
    cases except_pure_ok.mp h
    exact ⟨ControlService.check_ok.mp hcheck, rfl, rfl, rfl⟩
  | acceptTask taskId token =>
    cases token <;> simp only [authorize, except_bind_ok, except_pure_ok] at h <;> grind
  | _ =>
    simp only [authorize, except_bind_ok, except_pure_ok] at h
    grind

/-- **One event takes a task out of pending-approval only by resolving it.** -/
theorem AppStep.resolves {svc : ControlService} {db db' : Database} {e : AppEvent}
    (h : AppStep svc db e db') {taskId : String} (hheld : Held taskId db)
    (hleft : ¬ Held taskId db') : Resolves svc db taskId e := by
  obtain ⟨row, hrow, hstate⟩ := hheld
  obtain ⟨cs, hrun, hcs⟩ := AppEvent.apply_changes svc db e
  rw [← show db' = _ from h] at hrun
  -- the row the event finds is the one the first change of it writes
  obtain ⟨a, c, b, hc, hstep, ha, hb⟩ :=
    hrun.crossing (P := fun x => x.task? taskId = some row) hrow fun h => hleft ⟨row, h, hstate⟩
  obtain ⟨w, now, actor, detail, rfl, hw⟩ := hstep.resolves ha hstate hb
  obtain ⟨m, op, hpermits, horigin⟩ := hcs _ hc
  obtain ⟨selector, hselects, hop⟩ := hpermits.resolving hw
  rcases horigin with ⟨identity, req, rfl, hauth⟩ | rfl | ⟨_, rfl⟩
  · rcases hop with ⟨_, rfl⟩ | ⟨_, rfl⟩ | ⟨_, login, isOwner, rfl, hmay⟩
    · obtain ⟨happrover, rfl⟩ := authorize_approve hauth
      exact ⟨happrover, row, hrow, hselects⟩
    · obtain ⟨happrover, rfl⟩ := authorize_reject hauth
      exact ⟨happrover, row, hrow, hselects⟩
    · obtain ⟨hsubmitter, rfl, rfl, rfl⟩ := authorize_cancel hauth
      exact ⟨hsubmitter, row, hrow, hselects, hmay⟩
  · simp at hop
  · simp at hop

/-- Over the run the task leaves pending-approval, at an event that resolves it. -/
def LeftByResolution (svc : ControlService) (db : Database) (taskId : String) (es : List AppEvent) :
    Prop :=
  ∃ before a e b after, es = before ++ e :: after ∧ Run (AppStep svc) db before a ∧
    AppStep svc a e b ∧ Held taskId a ∧ ¬ Held taskId b ∧ Resolves svc a taskId e

/-- Over a run of events, a task leaves pending-approval only when one of them
resolves it. -/
theorem left_only_by_resolution {svc : ControlService} {db db' : Database} {es : List AppEvent}
    (h : Run (AppStep svc) db es db') {taskId : String} (hheld : Held taskId db) :
    Held taskId db' ∨ LeftByResolution svc db taskId es := by
  by_cases hheld' : Held taskId db'
  · exact .inl hheld'
  · obtain ⟨before, a, e, b, after, hes, hbefore, hstep, ha, hb⟩ := h.crossing_at hheld hheld'
    exact .inr ⟨before, a, e, b, after, hes, hbefore, hstep, ha, hb, hstep.resolves ha hb⟩

/-! ## The submission -/

/-- The stored task is held, and stays so until it is resolved. -/
def HeldUntilResolved (svc : ControlService) (db : Database) (taskId : String) : Prop :=
  Held taskId db ∧ ∀ (es : List AppEvent) (db' : Database), Run (AppStep svc) db es db' →
    Held taskId db' ∨ LeftByResolution svc db taskId es

theorem HeldUntilResolved.of_held {svc : ControlService} {db : Database} {taskId : String}
    (h : Held taskId db) : HeldUntilResolved svc db taskId :=
  ⟨h, fun _ _ hrun => left_only_by_resolution hrun h⟩

/-- **A submission that must be held is held until it is resolved exactly when
its class is manual.** -/
theorem submission_held_iff {svc : ControlService} {directory : UserDirectory} {m : Moment}
    {label login : String} {hlogin : login ≠ ""} {envelope : TaskEnvelope} {key : Option String}
    {bypass : Bool} {db db' : Database} {row : TaskRow}
    (hdirectory : svc.userDirectory = some directory)
    (h : postTask svc m (.user label login hlogin) envelope key bypass db = .ok (db', row, true))
    (hheld : MustBeHeld directory db m.now login envelope) :
    HeldUntilResolved svc db' envelope.taskId ↔ envelope.taskClass = .manual := by
  obtain ⟨_, -, h⟩ := except_bind_ok.mp h
  rcases ControlService.submitTask_ok h with ⟨hcreated, -⟩ |
    ⟨-, -, pr, state, reason, inserted, hdecision, rfl, hins, rfl⟩
  · cases hcreated
  have hclass := ControlService.resolvePullRequest_taskClass envelope pr
  have hid : (ControlService.resolvePullRequest envelope pr).taskId = envelope.taskId := by
    cases pr <;> rfl
  have hstored := (Database.insertTask_eq_some hins).2.2 envelope.taskId
  rw [if_pos (by simp [ControlService.newRow, hid])] at hstored
  rw [hdirectory] at hdecision
  constructor
  · rintro ⟨⟨stored, hfind, hstate⟩, -⟩
    by_contra hmanual
    rw [Database.task?_audit, hstored] at hfind
    cases hfind
    have hqueued := approvalDecision_queued (by rwa [hclass]) hdecision
    simp [ControlService.newRow, hqueued] at hstate
  · intro hmanual
    have hsame : resolveSubmitter (some directory) envelope (some login) =
        resolveSubmitter (some directory) (ControlService.resolvePullRequest envelope pr)
          (some login) := rfl
    have hheld' : MustBeHeld directory db m.now login
        (ControlService.resolvePullRequest envelope pr) := by
      simpa only [MustBeHeld, ControlService.resolvePullRequest_task] using hheld
    have hpending := approvalDecision_held hlogin (hclass.trans hmanual) hheld'
      (by rw [← hsame]; exact hdecision)
    exact .of_held ⟨_, hstored, hpending⟩

namespace SmallDeployment

/-- The deployment with a user directory in which nobody is listed. -/
def guarded : ControlService := { service with userDirectory := some ⟨.empty⟩ }

/-- The answer to an outsider's submission of this class. -/
def outsiderAnswer (taskClass : TaskClass) : Except ControlError (Database × TaskRow × Bool) :=
  postTask guarded (moment 0) (.user "laptop" "mallory" (by decide)) (envelope "t1" taskClass) none
    false .empty

/-- The state in which an outsider's submission of this class is stored. -/
def outsiderState (taskClass : TaskClass) : Option TaskState :=
  match outsiderAnswer taskClass with
  | .ok (db, _, true) => (db.task? "t1").map TaskRow.state
  | _ => none

theorem outsiderState_some {taskClass : TaskClass} {state : TaskState}
    (h : outsiderState taskClass = some state) :
    ∃ db row, outsiderAnswer taskClass = .ok (db, row, true) ∧
      ∃ stored, db.task? "t1" = some stored ∧ stored.state = state := by
  unfold outsiderState at h
  split at h
  · next db row hanswer => exact ⟨db, row, hanswer, Option.map_eq_some_iff.mp h⟩
  · cases h

end SmallDeployment

open SmallDeployment in
/-- An outsider's manual submission is held. -/
theorem submission_held_iff_outsider :
    ∃ db row, outsiderAnswer .manual = .ok (db, row, true) ∧
      HeldUntilResolved guarded db "t1" := by
  obtain ⟨db, row, hanswer, -⟩ := outsiderState_some
    (show outsiderState .manual = some .pendingApproval by decide)
  unfold outsiderAnswer at hanswer
  exact ⟨db, row, hanswer, (submission_held_iff rfl hanswer (.inl rfl)).mpr rfl⟩

open SmallDeployment in
/-- An outsider who writes the class canary into the envelope is queued. -/
theorem unknown_login_queued :
    ¬ ∀ (svc : ControlService) (directory : UserDirectory) (m : Moment) (label login : String)
      (hlogin : login ≠ "") (envelope : TaskEnvelope) (db db' : Database) (row : TaskRow),
      svc.userDirectory = some directory →
      postTask svc m (.user label login hlogin) envelope none false db = .ok (db', row, true) →
      MustBeHeld directory db m.now login envelope →
      HeldUntilResolved svc db' envelope.taskId := by
  intro h
  obtain ⟨db, row, hanswer, stored, hstored, hqueued⟩ := outsiderState_some
    (show outsiderState .canary = some .queued by decide)
  unfold outsiderAnswer at hanswer
  obtain ⟨⟨held, hfind, hstate⟩, -⟩ := h guarded ⟨.empty⟩ (moment 0) "laptop" "mallory" (by decide)
    (envelope "t1" .canary) .empty db row rfl hanswer (.inl rfl)
  have hfind : db.task? "t1" = some held := hfind
  rw [hstored] at hfind
  cases hfind
  cases hqueued.symm.trans hstate

end Conductress
