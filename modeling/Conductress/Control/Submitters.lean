import Conductress.Control.App

/-!
# Whose a task is

`submit_task` resolves the login a task is charged to from the token and the
envelope, and nothing writes that column afterwards. A row with a login stands
for a submission of the login (`appServe_submittedBy`), and from then on it
keeps its task id, its login, its envelope and its time of creation; once it is
cancelled or failed it stays so (`perform_rowsFrom`).
-/

namespace Conductress

open Lib

/-! ## The login of a submission -/

/-- The submission is charged to the login: the sender's token carries it, or
an operator's envelope names it and the directory knows it. -/
def SubmitsAs (svc : ControlService) (identity : AuthIdentity) (envelope : TaskEnvelope)
    (login : String) : Prop :=
  identity.login = some login ∨
    (identity.login = none ∧ envelope.submitter.get.map Submitter.login = some login ∧
      ∃ directory, svc.userDirectory = some directory ∧ (directory.get login).isSome = true)

/-- The event stores a new task of the login. -/
def Stores (svc : ControlService) (db : Database) (e : AppEvent) (login taskId : String) : Prop :=
  db.task? taskId = none ∧ ∃ m identity envelope key bypass,
    e = .request m identity (.submitTask envelope key bypass) ∧ envelope.taskId = taskId ∧
      SubmitsAs svc identity envelope login

/-- `submit_task` resolves the login from the token and the envelope. -/
theorem submitsAs_of_resolved {svc : ControlService} {identity : AuthIdentity}
    {envelope : TaskEnvelope} {login : String}
    (h : (match resolveSubmitter svc.userDirectory envelope identity.login with
      | some user => some user.login
      | none => identity.login) = some login) : SubmitsAs svc identity envelope login := by
  unfold resolveSubmitter at h
  cases hdirectory : svc.userDirectory with
  | none =>
    rw [hdirectory] at h
    exact .inl h
  | some directory =>
    rw [hdirectory] at h
    cases hlogin : identity.login with
    | some presented =>
      left
      rw [hlogin] at h ⊢
      simp only [presentedLogin] at h
      split_ifs at h with hempty
      · exact h
      · cases huser : directory.get presented with
        | none =>
          rw [huser] at h
          exact h
        | some user =>
          rw [huser] at h
          have hkey : user.login = presented := (Table.find?_eq_some_iff.mp huser).2
          rw [← hkey]
          exact h
    | none =>
      right
      rw [hlogin] at h
      simp only [presentedLogin] at h
      cases hsubmitter : envelope.submitter.get.map Submitter.login with
      | none =>
        rw [hsubmitter] at h
        cases h
      | some named =>
        rw [hsubmitter] at h
        simp only at h
        split_ifs at h with hempty
        cases huser : directory.get named with
        | none =>
          rw [huser] at h
          cases h
        | some user =>
          rw [huser] at h
          have hkey : user.login = named := (Table.find?_eq_some_iff.mp huser).2
          have hsame : named = login := by
            rw [← hkey]
            exact Option.some.inj h
          subst hsame
          exact ⟨hlogin, rfl, directory, hdirectory, by rw [huser]; rfl⟩

/-! ## Rows over time -/

section Columns

variable (w : StateWrite) (now : Instant) (row : TaskRow)

@[simp] theorem StateWrite.set_submitterLogin :
    (w.set now row).submitterLogin = row.submitterLogin := by cases w <;> rfl

@[simp] theorem StateWrite.set_createdAt : (w.set now row).createdAt = row.createdAt := by
  cases w <;> rfl

end Columns

/-- A cancelled or a failed task is written no more. -/
theorem StateWrite.Allowed.not_spent {db : Database} {now : Instant} {row : TaskRow} {w : StateWrite}
    (h : w.Allowed db now row) : row.state ≠ .cancelled ∧ row.state ≠ .failed := by
  have hof : ∀ {a : TaskState}, row.state = a → a ≠ .cancelled → a ≠ .failed →
      row.state ≠ .cancelled ∧ row.state ≠ .failed := by
    rintro a rfl hcancelled hfailed
    exact ⟨hcancelled, hfailed⟩
  cases w with
  | cancel => rcases h with h | h <;> exact hof h (by decide) (by decide)
  | requestCancel => rcases h with h | h <;> exact hof h (by decide) (by decide)
  | approve => exact hof h (by decide) (by decide)
  | reject => exact hof h (by decide) (by decide)
  | expireClaim => exact hof (ControlService.isStale_claimed h) (by decide) (by decide)
  | claim => exact hof h.1 (by decide) (by decide)
  | accept => exact hof h.1 (by decide) (by decide)
  | report => rcases h.1 with h | h <;> exact hof h (by decide) (by decide)
  | expireCanary => exact hof h (by decide) (by decide)

/-- A later row of the task. -/
structure TaskRow.Continues (before after : TaskRow) : Prop where
  taskId         : before.taskId = after.taskId
  submitterLogin : before.submitterLogin = after.submitterLogin
  envelope       : before.envelope = after.envelope
  createdAt      : before.createdAt = after.createdAt
  spent          : before.state = .cancelled ∨ before.state = .failed → after.state = before.state

theorem TaskRow.Continues.refl (row : TaskRow) : row.Continues row :=
  ⟨rfl, rfl, rfl, rfl, fun _ => rfl⟩

theorem TaskRow.Continues.trans {a b c : TaskRow} (hab : a.Continues b) (hbc : b.Continues c) :
    a.Continues c where
  taskId         := hab.taskId.trans hbc.taskId
  submitterLogin := hab.submitterLogin.trans hbc.submitterLogin
  envelope       := hab.envelope.trans hbc.envelope
  createdAt      := hab.createdAt.trans hbc.createdAt
  spent          := by
    intro hspent
    have hb := hab.spent hspent
    rw [hbc.spent (by rw [hb]; exact hspent), hb]

/-- Every row with a login continues an earlier row. -/
def RowsFrom (before db : Database) : Prop :=
  ∀ row ∈ db.tasks, ∀ login, row.submitterLogin = some login →
    ∃ row' ∈ before.tasks, row'.Continues row

theorem RowsFrom.refl (db : Database) : RowsFrom db db :=
  fun row hrow _ _ => ⟨row, hrow, .refl row⟩

theorem RowsFrom.trans {a b c : Database} (hab : RowsFrom a b) (hbc : RowsFrom b c) :
    RowsFrom a c := by
  intro row hrow login hlogin
  obtain ⟨row₁, hrow₁, hlater⟩ := hbc row hrow login hlogin
  obtain ⟨row₀, hrow₀, hearlier⟩ := hab row₁ hrow₁ login (hlater.submitterLogin.trans hlogin)
  exact ⟨row₀, hrow₀, hearlier.trans hlater⟩

/-- Writes continue rows, and the tasks the service makes have no login. -/
theorem Change.Step.rowsFrom {db db' : Database} {c : Change} (h : Change.Step db c db')
    (hc : ∀ action now actor detail row, c = .inserted action now actor detail row →
      row.submitterLogin = none) : RowsFrom db db' := by
  intro row' hrow' login hlogin
  rcases h.mem_after hrow' with ⟨hrow, -⟩ | ⟨action, now, actor, detail, hinserted, -, -⟩ |
    ⟨w, now, actor, detail, row, -, hrow, hallowed, rfl⟩
  · exact ⟨row', hrow, .refl row'⟩
  · rw [hc _ _ _ _ _ hinserted] at hlogin
    cases hlogin
  · obtain ⟨hcancelled, hfailed⟩ := hallowed.not_spent
    refine ⟨row, hrow, by simp, by simp, by simp, by simp, ?_⟩
    rintro (hstate | hstate)
    · exact absurd hstate hcancelled
    · exact absurd hstate hfailed

/-- **Only submissions bring logins.** -/
theorem perform_rowsFrom {svc : ControlService} {m : Moment} {op : Operation}
    (hop : ∀ envelope actor key login bypass, op ≠ .submit envelope actor key login bypass)
    (db : Database) : RowsFrom db (perform svc m op db) := by
  obtain ⟨cs, hrun, hcs⟩ := perform_changes svc m op db
  refine hrun.invariant_of_mem _ (.refl db) fun a c b hc hstep ih => ih.trans (hstep.rowsFrom ?_)
  rintro action now actor detail row rfl
  have hpermits := hcs _ hc
  cases op with
  | submit envelope actor key login bypass => exact absurd rfl (hop envelope actor key login bypass)
  | tick =>
    rcases hpermits with ⟨_, runnerId, profile, utcDate, heq⟩ | ⟨_, _, heq⟩ | ⟨_, heq⟩
    · cases heq
      rfl
    · cases heq
    · cases heq
  | claim runnerId claimant =>
    rcases hpermits with ⟨_, heq⟩ | ⟨_, -, heq⟩ <;> cases heq
  | cancel selector canceller login isOwner =>
    obtain ⟨_, _, -, -, -, heq⟩ := hpermits
    cases heq
  | approve | reject =>
    obtain ⟨_, -, heq⟩ := hpermits
    cases heq
  | expireStaleClaims =>
    obtain ⟨_, heq⟩ := hpermits
    cases heq
  | accept =>
    obtain ⟨_, -, -, -, heq⟩ := hpermits
    cases heq
  | recordOutcome =>
    obtain ⟨_, -, -, heq⟩ := hpermits
    cases heq

/-- A submission leaves the rows as they were, or creates one row. -/
theorem submit_creates {svc : ControlService} {m : Moment} {envelope : TaskEnvelope} {actor : String}
    {key login : Option String} {bypass : Bool} (db : Database) :
    (perform svc m (.submit envelope actor key login bypass) db = db ∧
      ∀ db' row, svc.submitTask m envelope actor key login bypass db ≠ .ok (db', row, true)) ∨
    ∃ row pullRequest state reason,
      svc.submitTask m envelope actor key login bypass db =
        .ok (perform svc m (.submit envelope actor key login bypass) db, row, true) ∧
      approvalDecision svc.userDirectory db m.now
        (ControlService.resolvePullRequest envelope pullRequest)
        (resolveSubmitter svc.userDirectory envelope login) login = .ok (state, reason) ∧
      row = ControlService.newRow (ControlService.resolvePullRequest envelope pullRequest) state
        (match resolveSubmitter svc.userDirectory envelope login with
          | some user => some user.login
          | none => login) key m.now ∧
      db.task? row.taskId = none ∧
      (perform svc m (.submit envelope actor key login bypass) db).task? row.taskId = some row ∧
      ∀ other ∈ (perform svc m (.submit envelope actor key login bypass) db).tasks,
        other = row ∨ other ∈ db.tasks := by
  dsimp only [perform]
  cases h : svc.submitTask m envelope actor key login bypass db with
  | error _ => exact .inl ⟨rfl, fun _ _ heq => by cases heq⟩
  | ok answer =>
    obtain ⟨db', row, created⟩ := answer
    rcases ControlService.submitTask_ok h with ⟨rfl, rfl⟩ |
      ⟨rfl, -, pullRequest, state, reason, inserted, hdecision, hrow, hins, rfl⟩
    · exact .inl ⟨rfl, fun _ _ heq => by cases heq⟩
    · right
      obtain ⟨hfree, -, hlook⟩ := Database.insertTask_eq_some hins
      have hnew : inserted.task? row.taskId = some row := by rw [hlook, if_pos rfl]
      refine ⟨row, pullRequest, state, reason, rfl, hdecision, hrow, hfree, hnew,
        fun other hother => ?_⟩
      have hother : other ∈ inserted.tasks := hother
      have hfind := hlook other.taskId
      rw [Database.task?_of_mem hother] at hfind
      split_ifs at hfind
      · exact .inl (Option.some.inj hfind)
      · exact .inr (Database.task?_eq_some_iff.mp hfind.symm).1

/-! ## Logins over whole runs -/

/-- A submission is authorised as it was sent. -/
theorem authorize_submit {svc : ControlService} {identity : AuthIdentity} {req : Request}
    {envelope : TaskEnvelope} {actor : String} {key login : Option String} {bypass : Bool}
    (h : authorize svc identity req = .ok (.submit envelope actor key login bypass)) :
    req = .submitTask envelope key bypass ∧ login = identity.login := by
  cases req with
  | submitTask envelope' key' bypass' =>
    obtain ⟨_, -, h⟩ := except_bind_ok.mp h
    cases h
    exact ⟨rfl, rfl⟩
  | acceptTask taskId token =>
    cases token <;> simp only [authorize, except_bind_ok, except_pure_ok] at h <;> grind
  | _ =>
    simp only [authorize, except_bind_ok, except_pure_ok] at h
    grind

/-- A login on a row after an event was there before, or the event stored it. -/
theorem apply_login {svc : ControlService} {db : Database} {e : AppEvent} {row : TaskRow}
    {login : String} (hrow : row ∈ (e.apply svc db).tasks) (hlogin : row.submitterLogin = some login) :
    (∃ row' ∈ db.tasks, row'.taskId = row.taskId ∧ row'.submitterLogin = some login) ∨
      Stores svc db e login row.taskId := by
  have hkept : ∀ {before : Database}, RowsFrom db before → row ∈ before.tasks →
      ∃ row' ∈ db.tasks, row'.taskId = row.taskId ∧ row'.submitterLogin = some login := by
    intro before hfrom hrow
    obtain ⟨row', hrow', hlater⟩ := hfrom row hrow login hlogin
    exact ⟨row', hrow', hlater.taskId, hlater.submitterLogin.trans hlogin⟩
  cases e with
  | startup m =>
    exact .inl (hkept ((perform_rowsFrom (by simp) db).trans (perform_rowsFrom (by simp) _)) hrow)
  | request m identity req =>
    unfold AppEvent.apply at hrow
    dsimp only at hrow
    cases hop : authorize svc identity req with
    | error _ =>
      rw [hop] at hrow
      exact .inl (hkept (.refl db) hrow)
    | ok op =>
      rw [hop] at hrow
      dsimp only at hrow
      by_cases hsubmit : ∃ envelope actor key presented bypass,
          op = .submit envelope actor key presented bypass
      · obtain ⟨envelope, actor, key, presented, bypass, rfl⟩ := hsubmit
        obtain ⟨rfl, rfl⟩ := authorize_submit hop
        rcases submit_creates db with ⟨hsame, -⟩ |
          ⟨stored, pullRequest, state, reason, -, -, hnew, hfree, -, hrows⟩
        · rw [hsame] at hrow
          exact .inl (hkept (.refl db) hrow)
        · rcases hrows row hrow with rfl | hrow
          · have hid : row.taskId = envelope.taskId := by
              rw [hnew]
              cases pullRequest <;> rfl
            rw [hnew] at hlogin
            exact .inr ⟨hfree, m, identity, envelope, key, bypass, rfl, hid.symm,
              submitsAs_of_resolved hlogin⟩
          · exact .inl (hkept (.refl db) hrow)
      · exact .inl (hkept (perform_rowsFrom (fun envelope actor key presented bypass heq =>
          hsubmit ⟨envelope, actor, key, presented, bypass, heq⟩) db) hrow)

/-- The database after a list of events. -/
def appServe (svc : ControlService) (es : List AppEvent) : Database :=
  es.foldl (AppEvent.apply svc) .empty

/-- The task of the row was stored by a submission of the login. -/
def SubmittedBy (svc : ControlService) (es : List AppEvent) (login taskId : String) : Prop :=
  ∃ before e after, es = before ++ e :: after ∧ Stores svc (appServe svc before) e login taskId

/-- **Logins come from submissions.** -/
theorem appServe_submittedBy (svc : ControlService) (es : List AppEvent) :
    ∀ row ∈ (appServe svc es).tasks, ∀ login, row.submitterLogin = some login →
      SubmittedBy svc es login row.taskId := by
  induction es using List.reverseRecOn with
  | nil => exact fun row hrow => absurd hrow (Table.not_mem_empty row)
  | append_singleton es e ih =>
    intro row hrow login hlogin
    rw [appServe, List.foldl_append] at hrow
    rcases apply_login hrow hlogin with ⟨row', hrow', hid, hlogin'⟩ | hstores
    · obtain ⟨before, e', after, rfl, hstores⟩ := ih row' hrow' login hlogin'
      refine ⟨before, e', after ++ [e], by simp, ?_⟩
      rw [← hid]
      exact hstores
    · exact ⟨es, e, [], rfl, hstores⟩

end Conductress
