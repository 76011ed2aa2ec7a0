import Conductress.Runner.Invariant

/-!
# What the service does meanwhile

The control service serves other callers, and requests of the runner that may
have been under way for long. `World.Permits` says which changes of the
database that can make, `Served` what they leave of a world, and
`Inv.served` that the invariants survive.
-/

namespace Conductress

open Lib

namespace World

variable (R : Regime) (d : Deployment) (w : World)

/-- The world with another database, one operation later. -/
def withDb (db : Database) : World := { w with db := db, tokens := w.tokens + 1 }

/-- The changes an operation can make to the runner's rows: acceptances and
outcomes only as the runner has asked for them. -/
def Permits : Change → Prop
  | .wrote wr now _ _ row =>
    now = w.now ∧ (∀ token lease, wr = .claim token lease → token = w.tokens) ∧
    (row.runnerId = d.runnerId →
      (wr = .accept → ∃ token, row.claimToken = some token ∧
        .accept row.taskId (some token) ∈ w.sent) ∧
      (∀ o, wr = .report o → ∃ o', o = o'.canonical ∧ .report row.taskId o' ∈ w.sent ∧
        ¬ d.Rejects o') ∧
      (wr = .requestCancel → R.gentle → row.state ≠ .claimed ∧
        (row.state = .accepted → ∀ a, w.journal = some a → a.taskId = row.taskId →
          a.stage ≠ .imported)))
  | _ => True

/-- A change that is no acceptance, outcome or cancel request is permitted. -/
theorem permits_wrote {wr : StateWrite} {actor : String} {detail : Option Fields} {row : TaskRow}
    (hclaim : ∀ token lease, wr = .claim token lease → token = w.tokens)
    (haccept : wr ≠ .accept) (hreport : ∀ o, wr ≠ .report o) (hcancel : wr ≠ .requestCancel) :
    w.Permits R d (.wrote wr w.now actor detail row) :=
  ⟨rfl, hclaim, fun _ => ⟨fun h => absurd h haccept, fun o h => absurd h (hreport o),
    fun h => absurd h hcancel⟩⟩

variable {R d w}

/-- What someone else's operation may change; a cancellation is looked at
row by row below. -/
theorem permits_of_foreign {op : Operation} {github : GitHubLookup} {c : Change}
    (hforeign : op.isForeign d.runnerId = true)
    (hcancel : ∀ selector actor login isOwner, op ≠ .cancel selector actor login isOwner)
    (h : op.Permits d.service (w.moment github) c) : w.Permits R d c := by
  cases op with
  | submit envelope actor key login bypass =>
    obtain ⟨-, detail, pullRequest, state, login, rfl⟩ := h
    exact trivial
  | cancel selector actor login isOwner => exact absurd rfl (hcancel selector actor login isOwner)
  | approve selector actor | reject selector actor =>
    obtain ⟨row, -, rfl⟩ := h
    exact permits_wrote R d w (by simp) (by simp) (by simp) (by simp)
  | expireStaleClaims actor =>
    obtain ⟨row, rfl⟩ := h
    exact permits_wrote R d w (by simp) (by simp) (by simp) (by simp)
  | claim runnerId actor =>
    rcases h with ⟨row, rfl⟩ | ⟨row, -, rfl⟩
    · exact permits_wrote R d w (by simp) (by simp) (by simp) (by simp)
    · exact permits_wrote R d w (by simp [moment]) (by simp) (by simp) (by simp)
  | accept runnerId taskId token actor =>
    obtain ⟨row, -, hrunner, -, rfl⟩ := h
    have hne : row.runnerId ≠ d.runnerId := by simpa [hrunner, Operation.isForeign] using hforeign
    exact ⟨rfl, by simp, fun hmine => absurd hmine hne⟩
  | recordOutcome runnerId taskId outcome actor =>
    obtain ⟨row, -, hrunner, rfl⟩ := h
    have hne : row.runnerId ≠ d.runnerId := by simpa [hrunner, Operation.isForeign] using hforeign
    exact ⟨rfl, by simp, fun hmine => absurd hmine hne⟩
  | tick =>
    rcases h with ⟨_, _, _, _, rfl⟩ | ⟨detail, row, rfl⟩ | ⟨record, rfl⟩
    · exact trivial
    · exact permits_wrote R d w (by simp) (by simp) (by simp) (by simp)
    · exact trivial

/-- The rows a cancellation writes are rows of the database it starts from. -/
theorem cancel_permitted {selector actor : String} {login : Option String} {isOwner : Bool}
    (hgentle : R.gentle → w.Gentle d (.cancel selector actor login isOwner)) :
    ∃ cs, Run Change.Step w.db cs
        (committed w.db (ControlService.cancelTask w.now selector actor login isOwner w.db)) ∧
      ∀ c ∈ cs, w.Permits R d c := by
  rw [ControlService.cancelTask]
  dsimp only
  split
  · exact ⟨[], .refl _, by simp⟩
  · obtain ⟨cs, hrun, hcs⟩ := ControlService.cancel_changes w.db w.now actor login isOwner
      (ControlService.selects selector)
    unfold ControlService.selectTasks
    split
    · exact ⟨[], .refl _, by simp⟩
    refine ⟨cs, hrun, fun c hc => ?_⟩
    obtain ⟨row, hrow, wr, hmay, hwr, rfl⟩ := hcs c hc
    obtain ⟨hmem, hsel⟩ := List.mem_filter.mp hrow
    have hkind : wr = .cancel ∨ wr = .requestCancel := by
      cases hs : row.state <;> simp [ControlService.cancelWrite, hs] at hwr <;> simp [← hwr]
    refine ⟨rfl, ?_, fun hmine => ⟨?_, ?_, fun _ hg => hgentle hg row hmem hmine hsel hmay⟩⟩
    · rintro token lease rfl
      simp at hkind
    · rintro rfl
      simp at hkind
    · rintro o rfl
      simp at hkind

/-- What someone else's operation changes. -/
theorem foreign_changes {op : Operation} (github : GitHubLookup)
    (hforeign : op.isForeign d.runnerId = true) (hgentle : R.gentle → w.Gentle d op) :
    ∃ cs, Run Change.Step w.db cs (Conductress.perform d.service (w.moment github) op w.db) ∧
      ∀ c ∈ cs, w.Permits R d c := by
  by_cases hcancel : ∃ selector actor login isOwner, op = .cancel selector actor login isOwner
  · obtain ⟨selector, actor, login, isOwner, rfl⟩ := hcancel
    exact cancel_permitted hgentle
  · obtain ⟨cs, hrun, hcs⟩ := perform_changes d.service (w.moment github) op w.db
    refine ⟨cs, hrun, fun c hc => permits_of_foreign hforeign ?_ (hcs c hc)⟩
    intro selector actor login isOwner hop
    exact hcancel ⟨selector, actor, login, isOwner, hop⟩

/-- An outcome the service refuses leaves the database alone. -/
theorem recordOutcome_rejected {o : TaskOutcome} (hrej : d.Rejects o)
    (hsize : ¬ d.maxBodyBytes < d.wireBytes o.toJson) (m : Moment) (taskId : String)
    (db : Database) :
    ∃ e, d.service.recordOutcome m.now d.runnerId taskId o d.actor db = .error e ∧
      e.code = .schemaInvalid := by
  rcases hrej with hlarge | hinvalid | htime
  · exact absurd hlarge hsize
  · exact ⟨⟨.schemaInvalid, "invalid task outcome"⟩,
      by simp [ControlService.recordOutcome, hinvalid, check, bind, Except.bind], rfl⟩
  · cases hvalid : o.schemaValid with
    | false =>
      exact ⟨⟨.schemaInvalid, "invalid task outcome"⟩,
        by simp [ControlService.recordOutcome, hvalid, check, bind, Except.bind], rfl⟩
    | true =>
      exact ⟨⟨.schemaInvalid, "invalid date-time at completed_at"⟩,
        by simp [ControlService.recordOutcome, hvalid, htime, check, bind, Except.bind], rfl⟩

/-- What a request of the runner changes: the database of `serve`, and no
change of a rejected outcome. -/
theorem serve_changes {req : RunnerRequest} (hsent : req ∈ w.sent) :
    d.serve w req = w ∨ ∃ cs db', Run Change.Step w.db cs db' ∧ (∀ c ∈ cs, w.Permits R d c) ∧
      d.serve w req = w.withDb db' := by
  cases hop : d.operation req with
  | error e => exact .inl (by rw [Deployment.serve, hop])
  | ok op =>
    right
    have hserve : d.serve w req =
        w.withDb (Conductress.perform d.service (w.moment Deployment.noGitHub) op w.db) := by
      rw [Deployment.serve, hop]
      rfl
    obtain ⟨cs, hrun, hcs⟩ := perform_changes d.service (w.moment Deployment.noGitHub) op w.db
    cases req with
    | claim =>
      cases hop
      refine ⟨cs, _, hrun, fun c hc => ?_, hserve⟩
      rcases hcs c hc with ⟨row, rfl⟩ | ⟨row, -, rfl⟩
      · exact permits_wrote R d w (by simp) (by simp) (by simp) (by simp)
      · exact permits_wrote R d w (by simp [moment]) (by simp) (by simp) (by simp)
    | accept taskId claimToken =>
      cases claimToken with
      | none => cases hop
      | some token =>
        cases hop
        refine ⟨cs, _, hrun, fun c hc => ?_, hserve⟩
        obtain ⟨row, hid, -, htoken, rfl⟩ := hcs c hc
        refine ⟨rfl, by simp, fun _ => ⟨fun _ => ⟨token, htoken, ?_⟩, by simp, by simp⟩⟩
        rw [hid]
        exact hsent
    | report taskId o =>
      rw [Deployment.operation] at hop
      split at hop
      · cases hop
      · next hsize =>
        cases hop
        by_cases hrej : d.Rejects o
        · obtain ⟨e, he, -⟩ := recordOutcome_rejected hrej hsize (w.moment Deployment.noGitHub)
            taskId w.db
          refine ⟨[], w.db, .refl _, by simp, ?_⟩
          rw [hserve, Conductress.perform, he, committed]
        · refine ⟨cs, _, hrun, fun c hc => ?_, hserve⟩
          obtain ⟨row, hid, -, rfl⟩ := hcs c hc
          refine ⟨rfl, by simp, fun _ => ⟨by simp, fun o' ho' => ?_, by simp⟩⟩
          have : o.canonical = o' := by simpa using ho'
          exact ⟨o, this.symm, by rw [hid]; exact hsent, hrej⟩

/-! ## Changes and the invariants -/

/-- What changes of the database leave of a world. -/
structure Served (R : Regime) (d : Deployment) (w : World) (db : Database) : Prop where
  rows    : ∀ row ∈ db.tasks, ∀ token, row.claimToken = some token → token < w.tokens + 1
  stands  : ∀ p, StateWrite.Closed p → ∀ taskId, w.Stands d p taskId →
    (w.withDb db).Stands d p taskId
  notLive : ∀ taskId token, token ≠ w.tokens → ¬ w.Live taskId token →
    ¬ (w.withDb db).Live taskId token
  held    : ∀ row ∈ db.tasks, row.runnerId = d.runnerId → Held R row.state → w.Owned row
  isOpen  : R.settles → ∀ a, w.journal = some a → a.stage = .imported ∨ a.stage = .accepted →
    w.Stands d TaskState.isOpen a.taskId → (w.withDb db).Stands d TaskState.isOpen a.taskId
  pending : R.settles → ∀ a o rejections, w.journal = some a →
    a.stage = .outcomePending o rejections → (w.withDb db).Settles d a.taskId o
  done    : R.settles → ∀ row ∈ db.tasks, row.runnerId = d.runnerId → row.state.isDone →
    .staged row.taskId .accepted ∈ w.history
  untaken : ∀ taskId, w.Untaken R d taskId → (w.withDb db).NotHeld R d taskId

namespace Served

theorem refl (hInv : Inv R d w) : Served R d w w.db where
  rows row hrow token htoken := Nat.lt_succ_of_lt (hInv.issued.rows row hrow token htoken)
  stands _ _ _ h := h
  notLive _ _ _ h := h
  held := hInv.ownership.held
  isOpen _ _ _ _ h := h
  pending hR a o rejections ha hstage := (hInv.settled.pending hR a o rejections ha hstage).1
  done := hInv.settled.done
  untaken _ h := h.1

variable {db db' : Database} {c : Change}

/-- A live claim with an acceptance on the wire is the journal's. -/
theorem accepts (h : Served R d w db) (hInv : Inv R d w) {taskId : String} {token : ClaimToken}
    (hsent : .accept taskId (some token) ∈ w.sent) (hlive : (w.withDb db).Live taskId token) :
    w.Live taskId token ∧ ∃ a, w.journal = some a ∧ a.stage = .imported ∧ a.taskId = taskId ∧
      a.claimToken = some token := by
  have hne : token ≠ w.tokens := Nat.ne_of_lt (hInv.issued.sent taskId token hsent)
  have hbefore : w.Live taskId token := by
    by_contra hnot
    exact h.notLive taskId token hne hnot hlive
  exact ⟨hbefore, hInv.ownership.accepts taskId token hsent hbefore⟩

/-- The row an acceptance is written to is live under its token. -/
theorem live_of_accept (hp : w.Permits R d c) {now : Instant} {actor : String}
    {detail : Option Fields} {row : TaskRow} (hc : c = .wrote .accept now actor detail row)
    (hmem : row ∈ db.tasks) (hallowed : StateWrite.accept.Allowed db now row)
    (hmine : row.runnerId = d.runnerId) :
    ∃ token, row.claimToken = some token ∧ .accept row.taskId (some token) ∈ w.sent ∧
      (w.withDb db).Live row.taskId token := by
  subst hc
  obtain ⟨hnow, -, hrow⟩ := hp
  obtain ⟨token, htoken, hsent⟩ := (hrow hmine).1 rfl
  obtain ⟨hclaimed, lease, hlease, hlt⟩ := hallowed
  refine ⟨token, htoken, hsent, row, Database.task?_of_mem hmem, hclaimed, htoken, lease, hlease, ?_⟩
  rw [hnow] at hlt
  exact hlt

/-- Which writes lead to a state in which the runner is expected to have the
task, and from where. -/
theorem held_before {wr : StateWrite} {row : TaskRow} {now : Instant}
    (h : Held R (wr.set now row).state) : wr = .accept ∨ (wr = .requestCancel ∧ R.gentle) := by
  rw [StateWrite.set_state] at h
  rcases h with h | ⟨hg, h⟩
  · cases wr with
    | report o => cases ho : o.state <;> simp [StateWrite.newState, Terminal.taskState, ho] at h
    | accept => exact .inl rfl
    | _ => simp [StateWrite.newState] at h
  · cases wr with
    | report o => cases ho : o.state <;> simp [StateWrite.newState, Terminal.taskState, ho] at h
    | requestCancel => exact .inr ⟨rfl, hg⟩
    | _ => simp [StateWrite.newState] at h

/-- The token of a row after a change: the fresh one of a claim, or an old one. -/
theorem token_after {wr : StateWrite} {row : TaskRow} {now : Instant} {token : ClaimToken}
    (h : (wr.set now row).claimToken = some token) :
    row.claimToken = some token ∨ ∃ lease, wr = .claim token lease := by
  cases wr with
  | claim t lease =>
    have : t = token := by simpa [StateWrite.set] using h
    exact .inr ⟨lease, by rw [this]⟩
  | expireClaim => simp [StateWrite.set] at h
  | _ => exact .inl h

variable (hInv : Inv R d w) (hstep : Change.Step db c db') (hp : w.Permits R d c)

include hstep hp

theorem step_rows (h : Served R d w db) :
    ∀ row ∈ db'.tasks, ∀ token, row.claimToken = some token → token < w.tokens + 1 := by
  intro row' hrow' token htoken
  rcases hstep.mem_after hrow' with ⟨hrow, -⟩ | ⟨_, _, _, _, -, -, hfresh⟩ |
    ⟨wr, now, actor, detail, row, rfl, hrow, -, rfl⟩
  · exact h.rows row' hrow token htoken
  · rw [hfresh.claimToken] at htoken
    cases htoken
  · rcases token_after htoken with hold | ⟨lease, rfl⟩
    · exact h.rows row hrow token hold
    · rw [hp.2.1 token lease rfl]
      exact Nat.lt_succ_self _

include hInv

theorem step_held (h : Served R d w db) :
    ∀ row ∈ db'.tasks, row.runnerId = d.runnerId → Held R row.state → w.Owned row := by
  intro row' hrow' hmine hheld
  rcases hstep.mem_after hrow' with ⟨hrow, -⟩ | ⟨_, _, _, _, -, -, hfresh⟩ |
    ⟨wr, now, actor, detail, row, rfl, hrow, hallowed, rfl⟩
  · exact h.held row' hrow hmine hheld
  · rcases hfresh.state with hs | hs <;> simp [Held, hs] at hheld
  · rw [StateWrite.set_runnerId] at hmine
    rcases held_before hheld with rfl | ⟨rfl, hg⟩
    · -- an acceptance: its request is the journal's own
      obtain ⟨token, htoken, hsent, hlive⟩ := live_of_accept hp rfl hrow hallowed hmine
      obtain ⟨-, a, ha, hstage, hid, hatoken⟩ := h.accepts hInv hsent hlive
      refine .inl ⟨a, ha, hid, by rw [hstage]; simp, fun _ => ⟨rfl, ?_⟩⟩
      rw [hatoken, ← htoken]
      rfl
    · -- a gentle cancellation: the row was accepted, and the journal knows
      obtain ⟨hnot, hstage⟩ := (hp.2.2 hmine).2.2 rfl hg
      have haccepted : row.state = .accepted := hallowed.resolve_left hnot
      rcases h.held row hrow hmine (.inl haccepted) with ⟨a, ha, hid, hclaimed, -⟩ | hdropped
      · refine .inl ⟨a, ha, hid, hclaimed, fun himported => ?_⟩
        exact absurd himported (hstage haccepted a ha hid)
      · exact .inr hdropped

/-- What is written to the row of a delivery that waits for its outcome. -/
theorem step_open (hR : R.settles) {a : Active} (ha : w.journal = some a)
    {row : TaskRow} (hrow : db.task? a.taskId = some row) (hmine : row.runnerId = d.runnerId)
    (hopen : row.state.isOpen) :
    ∃ row', db'.task? a.taskId = some row' ∧ row'.runnerId = d.runnerId ∧
      (row'.state.isOpen ∨ ∃ o rejections, a.stage = .outcomePending o rejections ∧
        row'.state = o.state.taskState ∧ row'.outcome = some o.canonical ∧ ¬ d.Rejects o) := by
  rcases hstep.row_after hrow with hsame | ⟨wr, now, actor, detail, rfl, hallowed, hrow'⟩
  · exact ⟨row, hsame, hmine, .inl hopen⟩
  · refine ⟨_, hrow', by rw [StateWrite.set_runnerId]; exact hmine, ?_⟩
    have hid := (Database.task?_eq_some_iff.mp hrow).2
    have hfrom := hallowed.from
    cases wr with
    | requestCancel => exact .inl (.inr rfl)
    | report o =>
      -- only a report that is on the wire, and only the staged one
      obtain ⟨o', rfl, hsent, hok⟩ := (hp.2.2 hmine).2.1 o rfl
      obtain ⟨-, hreport⟩ := hInv.settled.reports hR _ _ hsent
      obtain ⟨o'', rejections, hstage, rfl | hrej⟩ := hreport a ha hid.symm
      · exact .inr ⟨o', rejections, hstage, rfl, rfl, hok⟩
      · exact absurd hrej hok
    | _ => rcases hopen with hs | hs <;> simp [StateWrite.From, hs] at hfrom

theorem step_isOpen (h : Served R d w db) (hR : R.settles) (a : Active) (ha : w.journal = some a)
    (hstage : a.stage = .imported ∨ a.stage = .accepted)
    (hbefore : w.Stands d TaskState.isOpen a.taskId) :
    (w.withDb db').Stands d TaskState.isOpen a.taskId := by
  obtain ⟨row, hrow, hmine, hopen⟩ := h.isOpen hR a ha hstage hbefore
  obtain ⟨row', hrow', hmine', hopen' | ⟨o, rejections, hpending, -⟩⟩ :=
    step_open hInv hstep hp hR ha hrow hmine hopen
  · exact ⟨row', hrow', hmine', hopen'⟩
  · rcases hstage with hs | hs <;> simp [hs] at hpending

theorem step_pending (h : Served R d w db) (hR : R.settles) (a : Active) (o : TaskOutcome)
    (rejections : List Rejection) (ha : w.journal = some a)
    (hstage : a.stage = .outcomePending o rejections) :
    (w.withDb db').Settles d a.taskId o := by
  obtain ⟨row, hrow, hmine, hsettles⟩ := h.pending hR a o rejections ha hstage
  rcases hsettles with hopen | ⟨hstate, hout, hok⟩
  · obtain ⟨row', hrow', hmine', hopen' | ⟨o', rejections', hpending, hdone⟩⟩ :=
      step_open hInv hstep hp hR ha hrow hmine hopen
    · exact ⟨row', hrow', hmine', .inl hopen'⟩
    · rw [hstage] at hpending
      cases hpending
      exact ⟨row', hrow', hmine', .inr hdone⟩
  · -- a recorded outcome is final
    rcases hstep.row_after hrow with hsame | ⟨wr, now, actor, detail, -, hallowed, -⟩
    · exact ⟨row, hsame, hmine, .inr ⟨hstate, hout, hok⟩⟩
    · have hfrom := hallowed.from
      cases ho : o.state <;> rw [ho] at hstate <;>
        cases wr <;> simp [StateWrite.From, hstate, Terminal.taskState] at hfrom

theorem step_done (h : Served R d w db) (hR : R.settles) :
    ∀ row ∈ db'.tasks, row.runnerId = d.runnerId → row.state.isDone →
      .staged row.taskId .accepted ∈ w.history := by
  intro row' hrow' hmine hdone
  rcases hstep.mem_after hrow' with ⟨hrow, -⟩ | ⟨_, _, _, _, -, -, hfresh⟩ |
    ⟨wr, now, actor, detail, row, rfl, hrow, hallowed, rfl⟩
  · exact h.done hR row' hrow hmine hdone
  · rcases hfresh.state with hs | hs <;> simp [TaskState.isDone, hs] at hdone
  · rw [StateWrite.set_runnerId] at hmine
    rw [StateWrite.set_state] at hdone
    rw [StateWrite.set_taskId]
    cases wr with
    | report o =>
      obtain ⟨o', -, hsent, -⟩ := (hp.2.2 hmine).2.1 o rfl
      exact (hInv.settled.reports hR _ _ hsent).1
    | _ => rcases hdone with hs | hs <;> simp [StateWrite.newState] at hs

theorem step_untaken (h : Served R d w db) (taskId : String) (hbefore : w.Untaken R d taskId) :
    (w.withDb db').NotHeld R d taskId := by
  intro row' hrow' hmine hheld
  obtain ⟨hmem', hid⟩ := Database.task?_eq_some_iff.mp hrow'
  have hnot := h.untaken taskId hbefore
  rcases hstep.mem_after hmem' with ⟨hmem, -⟩ | ⟨_, _, _, _, -, -, hfresh⟩ |
    ⟨wr, now, actor, detail, row, rfl, hmem, hallowed, rfl⟩
  · exact hnot row' (Database.task?_eq_some_iff.mpr ⟨hmem, hid⟩) hmine hheld
  · rcases hfresh.state with hs | hs <;> simp [Held, hs] at hheld
  · rw [StateWrite.set_runnerId] at hmine
    rw [StateWrite.set_taskId] at hid
    have hrow : db.task? taskId = some row := Database.task?_eq_some_iff.mpr ⟨hmem, hid⟩
    rcases held_before hheld with rfl | ⟨rfl, hg⟩
    · obtain ⟨token, htoken, hsent, hlive⟩ := live_of_accept hp rfl hmem hallowed hmine
      have hbeforeLive := (h.accepts hInv hsent hlive).1
      rw [hid] at hsent hbeforeLive
      exact hbefore.2 token hsent hbeforeLive
    · obtain ⟨hclaimed, -⟩ := (hp.2.2 hmine).2.2 rfl hg
      have haccepted : row.state = .accepted := hallowed.resolve_left hclaimed
      exact hnot row hrow hmine (.inl haccepted)

/-- One permitted change. -/
theorem step (h : Served R d w db) : Served R d w db' where
  rows := h.step_rows hstep hp
  stands p hclosed taskId hbefore :=
    World.Stands.step (w := w.withDb db) hclosed hstep (h.stands p hclosed taskId hbefore)
  notLive taskId token hne hbefore := by
    refine World.notLive_step (w := w.withDb db) hstep rfl ?_ (h.notLive taskId token hne hbefore)
    rintro t lease now actor detail row rfl
    rw [hp.2.1 t lease rfl]
    exact Ne.symm hne
  held := h.step_held hInv hstep hp
  isOpen := h.step_isOpen hInv hstep hp
  pending := h.step_pending hInv hstep hp
  done := h.step_done hInv hstep hp
  untaken := h.step_untaken hInv hstep hp

omit hInv hstep hp in
/-- Permitted changes, one after the other. -/
theorem of_run (hInv : Inv R d w) {cs : List Change} (hrun : Run Change.Step w.db cs db)
    (hp : ∀ c ∈ cs, w.Permits R d c) : Served R d w db := by
  refine Run.invariant_of_mem (Served R d w) hrun (.refl hInv) fun a c b hc hstep ih => ?_
  exact ih.step hInv hstep (hp c hc)

end Served

/-- What the outside may rely on after the service's changes. -/
theorem Served.rely {db : Database} (h : Served R d w db) (hInv : Inv R d w) :
    Rely R d w (w.withDb db) where
  journal := rfl
  output := rfl
  failed := rfl
  history _ := id
  staged _ _ := id
  recorded _ := id
  tokens := Nat.le_succ _
  claimFile _ := id
  has _ _ _ := id
  absent _ _ _ _ := id
  stands := h.stands
  notLive _ _ hlt := h.notLive _ _ (Nat.ne_of_lt hlt)
  isOpen hR a ha hstage := h.isOpen hR a ha (.inl hstage)
  untaken taskId hbefore := by
    refine ⟨h.untaken taskId hbefore, fun token hsent => ?_⟩
    exact h.notLive taskId token (Nat.ne_of_lt (hInv.issued.sent taskId token hsent))
      (hbefore.2 token hsent)

/-- **The service's changes keep the invariants.** -/
theorem Served.inv {db : Database} (h : Served R d w db) (hInv : Inv R d w) :
    Inv R d (w.withDb db) where
  issued := {
    rows := h.rows
    journal := fun a ha token htoken => Nat.lt_succ_of_lt (hInv.issued.journal a ha token htoken)
    sent := fun taskId token hsent => Nat.lt_succ_of_lt (hInv.issued.sent taskId token hsent) }
  ownership := {
    handed := fun a ha => h.stands _ closed_handed _ (hInv.ownership.handed a ha)
    accepts := fun _ _ hsent hlive => (h.accepts hInv hsent hlive).2
    held := h.held
    refusals := hInv.ownership.refusals }
  custody := { hInv.custody with
    past := fun taskId hstaged => h.stands _ closed_past _ (hInv.custody.past taskId hstaged) }
  once := ⟨hInv.once.file, hInv.once.found⟩
  settled := {
    claimed := hInv.settled.claimed
    accepted := fun hR a ha hstage =>
      h.isOpen hR a ha (.inr hstage) (hInv.settled.accepted hR a ha hstage)
    pending := fun hR a o rejections ha hstage =>
      ⟨h.pending hR a o rejections ha hstage, (hInv.settled.pending hR a o rejections ha hstage).2⟩
    done := h.done
    reports := hInv.settled.reports }
  recoverable := ⟨hInv.recoverable.clean, hInv.recoverable.file⟩

/-! ## Outside events -/

theorem Rely.refl (w : World) : Rely R d w w where
  journal := rfl
  output := rfl
  failed := rfl
  history _ := id
  staged _ _ := id
  recorded _ := id
  tokens := Nat.le_refl _
  claimFile _ := id
  has _ _ _ := id
  absent _ _ _ _ := id
  stands _ _ _ := id
  notLive _ _ _ := id
  isOpen _ _ _ _ := id
  untaken _ := id

theorem Kept.refl (w : World) : Kept R d w w := (Rely.refl w).toKept

theorem Kept.trans {w w₁ w₂ : World} (h : Kept R d w w₁) (h' : Kept R d w₁ w₂) :
    Kept R d w w₂ where
  journal := h'.journal.trans h.journal
  output := h'.output.trans h.output
  failed := h'.failed.trans h.failed
  history e he := h'.history e (h.history e he)
  staged _ _ he := h.staged _ _ (h'.staged _ _ he)
  recorded _ he := h.recorded _ (h'.recorded _ he)
  tokens := h.tokens.trans h'.tokens
  claimFile taskId := h.claimFile taskId ∘ h'.claimFile taskId
  has hR a ha hhas := h'.has hR a (h.journal ▸ ha) (h.has hR a ha hhas)
  absent hR a ha hstage habs := h'.absent hR a (h.journal ▸ ha) hstage (h.absent hR a ha hstage habs)
  stands p hp taskId := h'.stands p hp taskId ∘ h.stands p hp taskId
  notLive _ _ hlt hnot := h'.notLive _ _ (hlt.trans_le h.tokens) (h.notLive _ _ hlt hnot)
  isOpen hR a ha hstage hopen := h'.isOpen hR a (h.journal ▸ ha) hstage (h.isOpen hR a ha hstage hopen)

theorem Rely.trans {w w₁ w₂ : World} (h : Rely R d w w₁) (h' : Rely R d w₁ w₂) : Rely R d w w₂ where
  toKept := h.toKept.trans h'.toKept
  untaken taskId := h'.untaken taskId ∘ h.untaken taskId

/-- A request of the runner that is served. -/
theorem serve_ok (hInv : Inv R d w) (req : RunnerRequest) (hsent : req ∈ w.sent) :
    Inv R d (d.serve w req) ∧ Rely R d w (d.serve w req) := by
  rcases serve_changes (R := R) hsent with hsame | ⟨cs, db', hrun, hp, hserve⟩
  · rw [hsame]
    exact ⟨hInv, .refl w⟩
  · have hserved := Served.of_run hInv hrun hp
    rw [hserve]
    exact ⟨hserved.inv hInv, hserved.rely hInv⟩

end World

end Conductress
