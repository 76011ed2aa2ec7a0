import Conductress.Runner.Contract

/-!
# What an answer tells the runner

The runner learns about the service from answers alone. `World.Answered` says
what each answer means for the world it arrives in, and stays true until the
runner acts on it; `request_safe` is the contract of `FleetClient.request`.
-/

namespace Conductress

open Lib

namespace ControlService

variable {svc : ControlService} {db : Database}

/-- What a refusal that makes the runner give a claim up says about the row. -/
theorem acceptTask_refused {now : Instant} {runnerId taskId actor : String} {token : ClaimToken}
    {e : ControlError} (h : acceptTask now runnerId taskId token actor db = .error e)
    (hcode : (ClientError.ofControl e).givesUp = true) :
    ∃ row, db.task? taskId = some row ∧ row.runnerId = runnerId ∧
      (row.state = .accepted → row.claimToken ≠ some token) ∧
      (row.state = .claimed → row.claimToken = some token →
        ∀ lease, row.leaseExpires = some lease → lease ≤ now) := by
  unfold acceptTask at h
  cases hrow : requireTask db taskId with
  | error e' =>
    rw [hrow] at h
    cases h
    unfold requireTask at hrow
    split at hrow
    · cases hrow
    · cases hrow
      simp [ClientError.ofControl, ClientError.givesUp] at hcode
  | ok row =>
    have hfind := Database.task?_eq_some_iff.mpr (requireTask_ok.mp hrow)
    rw [hrow] at h
    simp only [bind, Except.bind] at h
    cases hrunner : verifyTaskRunner row runnerId with
    | error e' =>
      rw [hrunner] at h
      cases h
      unfold verifyTaskRunner check at hrunner
      split at hrunner
      · cases hrunner
      · cases hrunner
        simp [ClientError.ofControl, ClientError.givesUp] at hcode
    | ok _ =>
      have hmine := verifyTaskRunner_ok.mp hrunner
      rw [hrunner] at h
      refine ⟨row, hfind, hmine, fun haccepted htoken => ?_, fun hclaimed htoken lease hlease => ?_⟩
      · simp [haccepted, checkToken, htoken, check, pure, Except.pure] at h
      · by_contra hlt
        simp [hclaimed, checkToken, htoken, check, hlease, not_le.mp hlt, pure, Except.pure] at h

/-- A report the service could take is refused for its payload only. -/
theorem recordOutcome_error {d : Deployment} {w : World} {o : TaskOutcome} {taskId : String}
    {e : ControlError} (hsettles : w.Settles d taskId o) (hid : o.taskId = taskId)
    (hrunner : o.runnerId = d.runnerId)
    (h : d.service.recordOutcome w.now d.runnerId taskId o d.actor w.db = .error e) :
    e.code = .schemaInvalid ∧ d.Rejects o := by
  obtain ⟨row, hrow, hmine, hstate⟩ := hsettles
  unfold recordOutcome at h
  cases hvalid : o.schemaValid with
  | false =>
    simp only [hvalid, check, Bool.false_eq_true, if_false, bind, Except.bind, Except.error.injEq] at h
    exact ⟨by rw [← h], .inr (.inl hvalid)⟩
  | true =>
    cases htime : d.service.parsesWithTimezone o.completedAt with
    | false =>
      simp only [hvalid, htime, check, Bool.false_eq_true, if_true, if_false, bind, Except.bind,
        Except.error.injEq] at h
      exact ⟨by rw [← h], .inr (.inr htime)⟩
    | true =>
      exfalso
      rcases hstate with hopen | ⟨hdone, hout, -⟩
      · rcases hopen with hs | hs <;>
          simp [hvalid, htime, check, bind, Except.bind, hid, hrunner, requireTask, hrow,
            verifyTaskRunner, hmine, hs, pure, Except.pure] at h
      · cases hterm : o.state <;> rw [hterm] at hdone <;>
          simp [hvalid, htime, check, bind, Except.bind, hid, hrunner, requireTask, hrow,
            verifyTaskRunner, hmine, hdone, hterm, Terminal.taskState, hout, pure, Except.pure] at h

end ControlService

namespace World

variable {R : Regime} {d : Deployment} {w : World}

/-- What an answer says, once it has arrived. -/
def Answered (R : Regime) (d : Deployment) (w : World) :
    RunnerRequest → Except ClientError Reply → Prop
  | .claim, .ok (.claimed row) =>
    w.Claimable R d ⟨row.taskId, row.claimToken, row.envelope, .claimed⟩ ∧
      w.Untaken R d row.taskId
  | .accept taskId _, .ok _ => w.Stands d TaskState.isPast taskId ∧ .granted taskId ∈ w.history ∧
      (R.settles → w.Stands d TaskState.isOpen taskId)
  | .accept taskId token, .error e => e.givesUp = true → w.Untaken R d taskId ∧
      ∃ t, token = some t ∧ t < w.tokens ∧ ¬ w.Live taskId t
  | .report taskId _, .ok _ => w.Stands d TaskState.isDone taskId
  | .report _ o, .error e => R.settles →
      OutcomeSize.isPermanentRejection e.status = true ∧ d.Rejects o
  | _, _ => True

/-- The records of a task, and its absence from the logs, are the runner's. -/
theorem Kept.noRecord {w' : World} (hk : Kept R d w w') {taskId : String} :
    w'.NoRecord taskId ↔ w.NoRecord taskId := by
  rw [NoRecord, NoRecord, findResult, findResult, findFailure, findFailure, hk.output, hk.failed]

/-- An answer keeps its meaning while the outside goes on. -/
theorem Answered.rely {w' : World} {req : RunnerRequest} {r : Except ClientError Reply}
    (h : w.Answered R d req r) (hasks : w.Asks req) (hr : Rely R d w w') :
    w'.Answered R d req r := by
  match req, r, h with
  | .claim, .ok (.claimed row), ⟨hclaim, hun⟩ =>
    have hun' := hr.untaken row.taskId hun
    refine ⟨?_, hun'⟩
    exact {
      handed := hr.stands _ closed_handed _ hclaim.handed
      issued := fun token ht => (hclaim.issued token ht).trans_le hr.tokens
      notHeld := hun'.1
      fresh := fun hmem => hclaim.fresh (hr.staged _ _ hmem)
      settles := fun hR => (hclaim.settles hR).imp_right hr.noRecord.mpr
      recovers := hclaim.recovers }
  | .accept taskId token, .ok _, ⟨hpast, hgranted, hopen⟩ =>
    obtain ⟨a, ha, hstage, rfl, -⟩ := hasks
    exact ⟨hr.stands _ closed_past _ hpast, hr.history _ hgranted,
      fun hR => hr.isOpen hR a ha hstage (hopen hR)⟩
  | .accept taskId token, .error e, h =>
    intro hgives
    obtain ⟨hun, t, ht, hlt, hdead⟩ := h hgives
    exact ⟨hr.untaken _ hun, t, ht, hlt.trans_le hr.tokens, hr.notLive _ _ hlt hdead⟩
  | .report taskId o, .ok _, h => exact hr.stands _ closed_done _ h
  | .report taskId o, .error e, h => exact h
  | .claim, .ok .noTask, _ | .claim, .ok (.task _), _ | .claim, .error _, _ => trivial

/-! ## One attempt -/

theorem Asks.of_journal {w' : World} {req : RunnerRequest} (h : w.Asks req)
    (hj : w'.journal = w.journal) : w'.Asks req := by
  cases req with
  | claim => exact hj.trans h
  | accept taskId token =>
    obtain ⟨a, ha, hrest⟩ := h
    exact ⟨a, hj.trans ha, hrest⟩
  | report taskId o =>
    obtain ⟨a, rejections, ha, hrest⟩ := h
    exact ⟨a, rejections, hj.trans ha, hrest⟩

/-- Sending a request and having it served take nothing away. -/
theorem kept_serve (hInv : Inv R d w) {req : RunnerRequest} (hasks : w.Asks req) :
    Kept R d w (d.serve { w with sent := req :: w.sent } req) := by
  have hsent := hInv.send hasks
  have hr := (serve_ok hsent req List.mem_cons_self).2
  have hsame : Kept R d w { w with sent := req :: w.sent } := { Kept.refl w with }
  exact hsame.trans hr.toKept

/-- The row a claim hands out is the runner's, and claimed. -/
theorem claimed_row {row : TaskRow} (h : d.answer w .claim = .ok (.claimed row)) :
    (d.serve w .claim).db.task? row.taskId = some row ∧ row.runnerId = d.runnerId ∧
      row.state = .claimed := by
  rw [Deployment.answer] at h
  simp only [Deployment.operation] at h
  cases hclaim : d.service.claimTask (w.moment Deployment.noGitHub) d.runnerId d.actor w.db with
  | error e => simp [hclaim] at h
  | ok r =>
    obtain ⟨db', result⟩ := r
    have hdb : (d.serve w .claim).db = db' := by
      simp [Deployment.serve, Deployment.operation, perform, Conductress.perform, hclaim, committed]
    cases result with
    | none => simp [hclaim] at h
    | some row' =>
      have hrow : row' = row := by simpa [hclaim] using h
      subst hrow
      rw [hdb]
      obtain ⟨-, ⟨row₁, hmem, hrunner, hstate, rfl, hres⟩ | ⟨-, -, -, hres⟩ |
        ⟨-, row₁, hmem, hrunner, hstate, rfl, hres⟩⟩ := ControlService.claimTask_ok hclaim
      · cases hres
        exact ⟨Database.task?_of_mem hmem, hrunner, hstate⟩
      · cases hres
      · cases hres
        refine ⟨?_, by rw [StateWrite.set_runnerId]; exact hrunner, by rw [StateWrite.set_state]; rfl⟩
        rw [Database.task?_write hmem, StateWrite.set_taskId, if_pos rfl]

/-- What a claimed task brings. -/
theorem answered_claim (hnone : w.journal = none) (hok : w.ClaimOk R d)
    {row : TaskRow} (h : d.answer w .claim = .ok (.claimed row)) {w' : World}
    (hw' : w' = d.serve w .claim) (hInv' : Inv R d w') (hk : Kept R d w w') :
    w'.Claimable R d ⟨row.taskId, row.claimToken, row.envelope, .claimed⟩ ∧
      w'.Untaken R d row.taskId := by
  obtain ⟨hrow, hmine, hstate⟩ := claimed_row h
  rw [← hw'] at hrow
  have hnot : w'.NotHeld R d row.taskId := by
    intro row' hrow' _ hheld
    rw [hrow] at hrow'
    cases hrow'
    simp [Held, hstate] at hheld
  have huntaken : w'.Untaken R d row.taskId := by
    refine ⟨hnot, fun token hsent hlive => ?_⟩
    obtain ⟨a, ha, -⟩ := hInv'.ownership.accepts _ token hsent hlive
    rw [hk.journal, hnone] at ha
    cases ha
  have hmem := (Database.task?_eq_some_iff.mp hrow).1
  obtain ⟨hsettles, hrecovers⟩ := hok row h
  refine ⟨?_, huntaken⟩
  exact {
    handed := ⟨row, hrow, hmine, by simp [hstate]⟩
    issued := hInv'.issued.rows row hmem
    notHeld := hnot
    fresh := fun hstaged => by
      obtain ⟨row', hrow', -, hpast⟩ := hInv'.custody.past _ hstaged
      rw [hrow] at hrow'
      cases hrow'
      simp [TaskState.isPast, hstate] at hpast
    settles := fun hR => (hsettles hR).imp_right hk.noRecord.mpr
    recovers := hrecovers }

/-- What a granted acceptance says. -/
theorem answered_accept (hInv : Inv R d w) {taskId : String} {token : Option ClaimToken}
    (hasks : w.Asks (.accept taskId token)) {reply : Reply}
    (h : d.answer w (.accept taskId token) = .ok reply) :
    (d.serve w (.accept taskId token)).Stands d TaskState.isPast taskId ∧
      (R.settles → (d.serve w (.accept taskId token)).Stands d TaskState.isOpen taskId) := by
  cases token with
  | none => simp [Deployment.answer, Deployment.operation] at h
  | some t =>
    simp only [Deployment.answer, Deployment.operation] at h
    obtain ⟨⟨db', result, changed⟩, haccept, -⟩ := except_map_ok.mp h
    have hdb : (d.serve w (.accept taskId (some t))).db = db' := by
      simp [Deployment.serve, Deployment.operation, perform, Conductress.perform, moment, haccept,
        committed]
    obtain ⟨row, hmem, hid, hmine, -, ⟨-, hsame, -, hstate⟩ | ⟨-, hallowed, hwrite, -⟩⟩ :=
      ControlService.acceptTask_ok haccept
    · have hrow : w.db.task? taskId = some row := Database.task?_eq_some_iff.mpr ⟨hmem, hid⟩
      refine ⟨⟨row, by rw [hdb, hsame]; exact hrow, hmine, ?_⟩, fun hR =>
        ⟨row, by rw [hdb, hsame]; exact hrow, hmine, ?_⟩⟩
      · rcases hstate with hs | hs | hs
        · exact .inl hs
        · exact .inr (.inr (.inl hs))
        · exact .inr (.inr (.inr hs))
      · -- an outcome would have been reported by an accepted delivery
        rcases hstate with hs | hs
        · exact .inl hs
        · obtain ⟨a, ha, himported, haid, -⟩ := hasks
          have hstaged := hInv.settled.done hR row hmem hmine hs
          refine absurd hstaged ?_
          rw [hid, ← haid]
          exact hInv.custody.fresh a ha (.inr himported)
    · have hrow : db'.task? taskId = some (StateWrite.accept.set w.now row) := by
        rw [hwrite, Database.task?_write hmem, if_pos hid.symm]
      have hrow' : (d.serve w (.accept taskId (some t))).db.task? taskId =
          some (StateWrite.accept.set w.now row) := by
        rw [hdb]
        exact hrow
      exact ⟨⟨_, hrow', hmine, .inl rfl⟩, fun _ => ⟨_, hrow', hmine, .inl rfl⟩⟩

/-- What a refused acceptance says, when the runner gives the claim up. -/
theorem answered_refusal (hInv : Inv R d w) {taskId : String} {token : Option ClaimToken}
    (hasks : w.Asks (.accept taskId token)) {e : ControlError}
    (h : d.answer w (.accept taskId token) = .error e)
    (hgives : (ClientError.ofControl e).givesUp = true) :
    w.Untaken R d taskId ∧ ∃ t, token = some t ∧ t < w.tokens ∧ ¬ w.Live taskId t := by
  cases token with
  | none =>
    have he : (⟨.claimTokenRequired, "claim_token is required"⟩ : ControlError) = e := by
      simpa [Deployment.answer, Deployment.operation] using h
    rw [← he] at hgives
    simp [ClientError.ofControl, ClientError.givesUp] at hgives
  | some t =>
    obtain ⟨a, ha, himported, haid, hatoken⟩ := hasks
    have haccept : ControlService.acceptTask w.now d.runnerId taskId t d.actor w.db = .error e := by
      simp only [Deployment.answer, Deployment.operation] at h
      cases hres : ControlService.acceptTask w.now d.runnerId taskId t d.actor w.db with
      | error e' => rw [hres] at h; simpa [Except.map] using h
      | ok r => rw [hres] at h; simp [Except.map] at h
    obtain ⟨row, hrow, hmine, haccepted, hlease⟩ :=
      ControlService.acceptTask_refused haccept hgives
    obtain ⟨hmem, hid⟩ := Database.task?_eq_some_iff.mp hrow
    have hdead : ¬ w.Live taskId t := by
      rintro ⟨row', hrow', hclaimed, htoken, lease, hle, hlt⟩
      rw [hrow] at hrow'
      cases hrow'
      exact absurd (hlease hclaimed htoken lease hle) (not_le.mpr hlt)
    refine ⟨⟨fun row' hrow' _ hheld => ?_, fun t' hsent hlive => ?_⟩, t, rfl,
      hInv.issued.journal a ha t hatoken, hdead⟩
    · -- the delivery is imported, so a held row would bear its token
      rw [hrow] at hrow'
      cases hrow'
      rcases hInv.ownership.held row hmem hmine hheld with ⟨a', ha', -, -, hown⟩ | ⟨-, hother⟩
      · cases ha.symm.trans ha'
        obtain ⟨hs, htok⟩ := hown himported
        exact haccepted hs (htok.symm.trans hatoken)
      · exact hother a ha (haid.trans hid.symm)
    · obtain ⟨a', ha', -, -, htoken'⟩ := hInv.ownership.accepts taskId t' hsent hlive
      cases ha.symm.trans ha'
      rw [hatoken] at htoken'
      cases htoken'
      exact hdead hlive

/-- What an answer to a report says. -/
theorem answered_report (hInv : Inv R d w) {taskId : String} {o : TaskOutcome}
    (hasks : w.Asks (.report taskId o)) :
    (∀ reply, d.answer w (.report taskId o) = .ok reply →
      (d.serve w (.report taskId o)).Stands d TaskState.isDone taskId) ∧
    (∀ e, d.answer w (.report taskId o) = .error e → R.settles →
      OutcomeSize.isPermanentRejection (ClientError.ofControl e).status = true ∧ d.Rejects o) := by
  obtain ⟨a, rejections, ha, rfl, hstage⟩ := hasks
  constructor
  · intro reply h
    simp only [Deployment.answer, Deployment.operation] at h
    split at h
    · cases h
    · next hop =>
      split at hop
      · cases hop
      · cases hop
    · next hop =>
      split at hop
      · cases hop
      · cases hop
    · next runnerId id outcome actor hop =>
      split at hop
      · cases hop
      · next hsize =>
        cases hop
        obtain ⟨⟨db', result, changed⟩, hrec, -⟩ := except_map_ok.mp h
        have hdb : (d.serve w (.report a.taskId o)).db = db' := by
          simp [Deployment.serve, Deployment.operation, hsize, perform, Conductress.perform, moment,
            hrec, committed]
        obtain ⟨-, -, row, hmem, hid, hmine, ⟨-, hsame, -, hstate, -⟩ | ⟨-, -, hwrite, -⟩⟩ :=
          ControlService.recordOutcome_ok hrec
        · refine ⟨row, by rw [hdb, hsame]; exact Database.task?_eq_some_iff.mpr ⟨hmem, hid⟩, hmine, ?_⟩
          cases hterm : o.state <;> rw [hterm] at hstate
          · exact .inl hstate
          · exact .inr hstate
        · refine ⟨(StateWrite.report o.canonical).set w.now row, ?_, hmine, ?_⟩
          · rw [hdb, hwrite, Database.task?_write hmem, if_pos hid.symm]
          · rw [StateWrite.set_state, StateWrite.newState]
            cases hterm : o.state <;> simp [hterm, Terminal.taskState, TaskState.isDone]
    · cases h
  · intro e h hR
    obtain ⟨hsettles, hid, hrunner, -⟩ := hInv.settled.pending hR a o rejections ha hstage
    by_cases hsize : d.maxBodyBytes < d.wireBytes o.toJson
    · have he : (⟨.bodyTooLarge, "request body exceeds configured limit"⟩ : ControlError) = e := by
        simpa [Deployment.answer, Deployment.operation, hsize] using h
      rw [← he]
      exact ⟨by decide, .inl hsize⟩
    · have hrec : d.service.recordOutcome w.now d.runnerId a.taskId o d.actor w.db = .error e := by
        simp only [Deployment.answer, Deployment.operation, hsize, if_false] at h
        cases hres : d.service.recordOutcome w.now d.runnerId a.taskId o d.actor w.db with
        | error e' => rw [hres] at h; simpa [Except.map] using h
        | ok r => rw [hres] at h; simp [Except.map] at h
      obtain ⟨hcode, hrej⟩ := ControlService.recordOutcome_error hsettles hid hrunner hrec
      exact ⟨by rw [ClientError.ofControl, hcode]; decide, hrej⟩

/-- An error that no handler of the service sent. -/
theorem answered_transport (hpassed : ¬ R.settles) (req : RunnerRequest) {e : ClientError}
    (he : ∀ code, e.code ≠ .control code) : w.Answered R d req (.error e) := by
  cases req with
  | claim => trivial
  | accept taskId token =>
    intro hgives
    simp [ClientError.givesUp, he] at hgives
  | report taskId o => exact fun hR => absurd hR hpassed

/-- **One attempt at a request**: nothing is taken away, and an answer means what it
says. -/
theorem attempt_ok (hInv : Inv R d w) {req : RunnerRequest} (hasks : w.Asks req)
    {network : Network} (hpassed : R.settles → network = .passed)
    (hclaim : req = .claim → w.ClaimOk R d) (hInv' : Inv R d (w.attempt d req network).2) :
    Kept R d w (w.attempt d req network).2 ∧
      ∀ answer, (w.attempt d req network).1 = .ok answer →
        (w.attempt d req network).2.Answered R d req answer := by
  have hkept := kept_serve hInv hasks
  have hsent := hInv.send hasks
  have hasks' : { w with sent := req :: w.sent }.Asks req := hasks.of_journal rfl
  have hserved := (serve_ok hsent req List.mem_cons_self).1
  cases network with
  | passed =>
    simp only [attempt] at hInv' ⊢
    cases hans : d.answer { w with sent := req :: w.sent } req with
    | ok reply =>
      rw [hans] at hInv'
      cases req with
      | claim =>
        refine ⟨hkept, ?_⟩
        rintro _ ⟨⟩
        cases reply with
        | claimed row =>
          exact answered_claim (w := { w with sent := .claim :: w.sent }) hasks (hclaim rfl) hans rfl
            hserved { hkept with }
        | noTask | task row => trivial
      | accept taskId token =>
        obtain ⟨hpast, hopen⟩ := answered_accept hsent hasks' hans
        refine ⟨{ hkept with
          history := fun e he => List.mem_cons_of_mem _ (hkept.history e he)
          staged := fun id stage he => hkept.staged id stage (by
            simpa using List.mem_cons.mp he)
          recorded := fun task he => hkept.recorded task (by
            simpa using List.mem_cons.mp he) }, ?_⟩
        rintro _ ⟨⟩
        exact ⟨hpast, List.mem_cons_self, hopen⟩
      | report taskId o =>
        refine ⟨hkept, ?_⟩
        rintro _ ⟨⟩
        exact (answered_report hsent hasks').1 reply hans
    | error e =>
      refine ⟨hkept, ?_⟩
      rintro _ ⟨⟩
      cases req with
      | claim => trivial
      | accept taskId token =>
        intro hgives
        obtain ⟨hun, t, ht, hlt, hdead⟩ := answered_refusal hsent hasks' hans hgives
        have hr := (serve_ok hsent (.accept taskId token) List.mem_cons_self).2
        exact ⟨hr.untaken _ hun, t, ht, hlt.trans_le hr.tokens, hr.notLive _ _ hlt hdead⟩
      | report taskId o => exact (answered_report hsent hasks').2 e hans
  | lost delivered | proxy delivered status | garbled delivered =>
    have hnot : ¬ R.settles := fun hR => by simpa using hpassed hR
    refine ⟨?_, ?_⟩
    · cases delivered
      · exact { Kept.refl w with }
      · exact hkept
    · rintro _ ⟨⟩
      exact answered_transport hnot req (by simp)
  | cut delivered error =>
    refine ⟨?_, fun _ hanswer => by cases hanswer⟩
    cases delivered
    · exact { Kept.refl w with }
    · exact hkept

end World

/-! ## Requests -/

namespace FleetClient

open World

variable {R : Regime} {d : Deployment} {w : World}

/-- An attempt whose answer comes through, or that ends in the client, raises
nothing. -/
theorem attempt_caught_ok {req : RunnerRequest} {network : Network} {e : PyError}
    (hcaught : network.isCaught = true) (h : (w.attempt d req network).1 = .error e) : False := by
  cases network with
  | cut => cases hcaught
  | passed =>
    simp only [World.attempt] at h
    split at h <;> cases h
  | lost | proxy | garbled => cases h

/-- The attempts of one request. -/
theorem attempts_safe {req : RunnerRequest} {n : ℕ} (hn : 0 < n) {w : World} (hasks : w.Asks req) :
    Safe (contract R d) (attempts req n)
      (fun r t => Kept R d w t ∧ t.Answered R d req r)
      (fun _ t => Kept R d w t ∧ ¬ R.settles ∧ ¬ R.recovers) w := by
  induction n generalizing w with
  | zero => exact absurd hn (lt_irrefl 0)
  | succ n ih =>
    refine Safe.seq fun t hr hI => ⟨hasks.of_journal hr.journal, fun x hx hI' => ?_⟩
    have hasks' := hasks.of_journal hr.journal
    obtain ⟨hk, hans⟩ := attempt_ok hI hasks' hx.1 hx.2.2 hI'
    have hkept := hr.toKept.trans hk
    have hdone : ∀ answer, (t.attempt d req x.network).1 = .ok answer →
        ∀ u, Rely R d (t.attempt d req x.network).2 u → Kept R d w u ∧ u.Answered R d req answer :=
      fun answer hanswer u hu =>
        ⟨hkept.trans hu.toKept, (hans answer hanswer).rely (hasks'.of_journal hk.journal) hu⟩
    simp only [World.effects, World.exec]
    cases hres : (t.attempt d req x.network).1 with
    | error e =>
      refine fun u hu _ => ⟨hkept.trans hu.toKept, fun hR => ?_, fun hR => ?_⟩
      · exact attempt_caught_ok (by rw [hx.1 hR]; rfl) hres
      · exact attempt_caught_ok (hx.2.1 hR) hres
    | ok answer =>
      cases answer with
      | ok reply => exact fun u hu _ => hdone _ hres u hu
      | error e =>
        dsimp only
        split
        · next hretry =>
          have hmore : 0 < n := by simpa using (Bool.and_eq_true_iff.mp hretry).2
          exact (ih hmore (hasks'.of_journal hk.journal)).conseq
            (fun r u _ h => ⟨hkept.trans h.1, h.2⟩) (fun _ u _ h => ⟨hkept.trans h.1, h.2⟩)
        · exact fun u hu _ => hdone _ hres u hu

/-- **A request** is answered, with what its answer means; or its path is one the
client refuses, or an attempt was cut off. -/
theorem request_safe {req : RunnerRequest} (hasks : w.Asks req) :
    Safe (contract R d) (request req) (fun r t => Kept R d w t ∧ t.Answered R d req r)
      (fun _ t => Kept R d w t ∧ (R.settles ∨ R.recovers → (pathId req).all isSafePath = false)) w := by
  unfold request
  split
  · exact (attempts_safe (by decide) hasks).conseq (fun _ _ _ h => h)
      fun _ _ _ h => ⟨h.1, fun hR => (hR.elim h.2.1 h.2.2).elim⟩
  · next hpath => exact fun t hr _ => ⟨hr.toKept, fun _ => by simpa using hpath⟩

end FleetClient

end Conductress
