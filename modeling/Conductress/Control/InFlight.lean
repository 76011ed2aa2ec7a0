import Conductress.Control.Lifecycle

/-!
# At most one task in flight

A runner executes one task at a time, so at most one of its tasks may be
claimed, accepted, or cancel-requested with the execution still going on.
`claim_task` tests for accepted and claimed rows only: a cancel request moves
the executing task out of both tests, and the next claim hands out a second
one (`claims_while_executing`). In every run that makes no such claim the
bound holds (`at_most_one_in_flight`).
-/

namespace Conductress

open Lib

/-- Cancel-requested after acceptance, with no outcome recorded yet. -/
def executingCancelled (row : TaskRow) : Bool :=
  decide (row.state = .cancelRequested) && row.acceptedAt.isSome && row.outcome.isNone

/-- Claimed, accepted, or cancel-requested while executing. -/
def inFlight (row : TaskRow) : Bool :=
  decide (row.state = .claimed ∨ row.state = .accepted) || executingCancelled row

/-- No two tasks of a runner are in flight. -/
def AtMostOneInFlight (db : Database) (runnerId : String) : Prop :=
  ∀ a ∈ db.tasks, ∀ b ∈ db.tasks, a.runnerId = runnerId → b.runnerId = runnerId →
    inFlight a = true → inFlight b = true → a = b

instance (db : Database) (runnerId : String) : Decidable (AtMostOneInFlight db runnerId) :=
  inferInstanceAs (Decidable (∀ a ∈ db.tasks.rows, ∀ b ∈ db.tasks.rows, _ → _ → _ → _ → _))

/-- The condition on a claim: a runner with an executing cancel-requested task
has no queued task. -/
def ClaimSafe (db : Database) : Operation → Prop
  | .claim runnerId _ =>
    (∃ row ∈ db.tasks, row.runnerId = runnerId ∧ executingCancelled row = true) →
      ∀ row ∈ db.tasks, row.runnerId = runnerId → row.state ≠ .queued
  | _ => True

instance (db : Database) : (op : Operation) → Decidable (ClaimSafe db op)
  | .claim runnerId _ => inferInstanceAs (Decidable
      ((∃ row ∈ db.tasks.rows, row.runnerId = runnerId ∧ executingCancelled row = true) →
        ∀ row ∈ db.tasks.rows, row.runnerId = runnerId → row.state ≠ .queued))
  | .submit .. | .cancel .. | .approve .. | .reject .. | .expireStaleClaims _ | .accept ..
  | .recordOutcome .. | .tick => isTrue trivial

/-! ## One change -/

/-- Every write but a claim leaves a row in flight only if it was. -/
theorem inFlight_of_set {db : Database} {w : StateWrite} {now : Instant} {row : TaskRow}
    (hallowed : w.Allowed db now row) (hw : ∀ token lease, w ≠ .claim token lease)
    (h : inFlight (w.set now row) = true) : inFlight row = true := by
  cases w with
  | claim token lease => exact absurd rfl (hw token lease)
  | requestCancel =>
    have hstate : row.state = .claimed ∨ row.state = .accepted := hallowed
    simp [inFlight, hstate]
  | accept =>
    have hstate : row.state = .claimed := hallowed.1
    simp [inFlight, hstate]
  | report outcome =>
    cases hterm : outcome.state <;>
      simp [inFlight, executingCancelled, StateWrite.newState, Terminal.taskState, hterm] at h
  | _ => simp [inFlight, executingCancelled, StateWrite.newState] at h

/-- A row in flight after a change that is no claim was in flight before. -/
theorem Change.Step.inFlight_before {db db' : Database} {c : Change} (h : Change.Step db c db')
    (hc : ∀ token lease now actor detail row, c ≠ .wrote (.claim token lease) now actor detail row)
    {row' : TaskRow} (hrow' : row' ∈ db'.tasks) (hflight : inFlight row' = true) :
    ∃ row ∈ db.tasks, row.taskId = row'.taskId ∧ row.runnerId = row'.runnerId ∧
      inFlight row = true := by
  rcases h.mem_after hrow' with ⟨hrow, -⟩ | ⟨_, _, _, _, -, -, hfresh⟩ |
    ⟨w, now, actor, detail, row, rfl, hrow, hallowed, rfl⟩
  · exact ⟨row', hrow, rfl, rfl, hflight⟩
  · rcases hfresh.state with hstate | hstate <;>
      simp [inFlight, executingCancelled, hstate] at hflight
  · refine ⟨row, hrow, by simp, by simp, inFlight_of_set hallowed (fun token lease hw => ?_) hflight⟩
    exact hc token lease now actor detail row (by rw [hw])

/-- A change that is no claim keeps the bound. -/
theorem Change.Step.atMostOne {db db' : Database} {c : Change} (h : Change.Step db c db')
    (hc : ∀ token lease now actor detail row, c ≠ .wrote (.claim token lease) now actor detail row)
    (hOne : ∀ runnerId, AtMostOneInFlight db runnerId) (runnerId : String) :
    AtMostOneInFlight db' runnerId := by
  intro a ha b hb hra hrb hfa hfb
  obtain ⟨a₀, ha₀, hida, hra₀, hfa₀⟩ := h.inFlight_before hc ha hfa
  obtain ⟨b₀, hb₀, hidb, hrb₀, hfb₀⟩ := h.inFlight_before hc hb hfb
  have hsame : a₀ = b₀ :=
    hOne runnerId a₀ ha₀ b₀ hb₀ (hra₀.trans hra) (hrb₀.trans hrb) hfa₀ hfb₀
  exact Table.eq_of_key_eq ha hb (by rw [← hida, ← hidb, hsame])

/-! ## One operation -/

/-- The rows after the expiry of stale claims. -/
theorem ControlService.mem_expireStaleClaims {now : Instant} {actor : String} {db : Database}
    {row : TaskRow} (h : row ∈ (expireStaleClaims now actor db).tasks) :
    row ∈ db.tasks ∨
      ∃ row₀ ∈ db.tasks, row₀.state = .claimed ∧ row = StateWrite.expireClaim.set now row₀ := by
  obtain ⟨cs, hrun, hcs⟩ := expire_changes db now actor
  refine Run.invariant_of_mem (fun after => ∀ row ∈ after.tasks, row ∈ db.tasks ∨
    ∃ row₀ ∈ db.tasks, row₀.state = .claimed ∧ row = StateWrite.expireClaim.set now row₀)
    hrun (fun row hrow => .inl hrow) (fun a c b hc hstep ih row' hrow' => ?_) row h
  obtain ⟨expired, rfl⟩ := hcs c hc
  rcases hstep.mem_after hrow' with ⟨hrow, -⟩ | ⟨_, _, _, _, heq, -, -⟩ |
    ⟨w, _, _, _, row, heq, hrow, hallowed, rfl⟩
  · exact ih row' hrow
  · cases heq
  · cases heq
    have hstate : expired.state = .claimed := isStale_claimed hallowed
    rcases ih expired hrow with hmem | ⟨row₀, -, -, rfl⟩
    · exact .inr ⟨expired, hmem, hstate, rfl⟩
    · simp [StateWrite.newState] at hstate

/-- A claim of a free runner keeps the bound when the runner executes nothing. -/
theorem claim_atMostOne {db : Database} {w : StateWrite} {now : Instant} {actor : String}
    {row : TaskRow} (hOne : ∀ runnerId, AtMostOneInFlight db runnerId)
    (hfree : ∀ other ∈ db.tasks, other.runnerId = row.runnerId → inFlight other = false)
    (hrow : row ∈ db.tasks) (runnerId : String) :
    AtMostOneInFlight (db.write w now actor none row) runnerId := by
  have hbefore : ∀ a ∈ (db.write w now actor none row).tasks, inFlight a = true →
      a = w.set now row ∨ (a ∈ db.tasks ∧ a.runnerId ≠ row.runnerId) := by
    intro a ha hflight
    have hfind := Database.task?_of_mem ha
    rw [Database.task?_write hrow] at hfind
    split at hfind
    · exact .inl (Option.some.inj hfind).symm
    · have hmem := (Database.task?_eq_some_iff.mp hfind).1
      refine .inr ⟨hmem, fun hrunner => ?_⟩
      rw [hfree a hmem hrunner] at hflight
      cases hflight
  intro a ha b hb hra hrb hfa hfb
  rcases hbefore a ha hfa with rfl | ⟨ha₀, hane⟩ <;> rcases hbefore b hb hfb with rfl | ⟨hb₀, hbne⟩
  · rfl
  · exact absurd (hrb.trans (hra.symm.trans (StateWrite.set_runnerId ..))) hbne
  · exact absurd (hra.trans (hrb.symm.trans (StateWrite.set_runnerId ..))) hane
  · exact hOne runnerId a ha₀ b hb₀ hra hrb hfa hfb

/-- Under the condition on the claim, the expiry leaves a runner with a queued
task and no claimed or accepted one executing nothing. -/
theorem ClaimSafe.idle {db : Database} {runnerId actor : String} {now : Instant} {row : TaskRow}
    (hsafe : ClaimSafe db (.claim runnerId actor)) (hOne : AtMostOneInFlight db runnerId)
    (hfree : RunnerFree (ControlService.expireStaleClaims now "system" db) runnerId)
    (hrow : row ∈ (ControlService.expireStaleClaims now "system" db).tasks)
    (hrunner : row.runnerId = runnerId) (hstate : row.state = .queued) :
    ∀ other ∈ (ControlService.expireStaleClaims now "system" db).tasks,
      other.runnerId = runnerId → inFlight other = false := by
  intro other hother hrunner'
  obtain ⟨hclaimed, haccepted⟩ := hfree other hother hrunner'
  by_contra hflight
  have hexec : executingCancelled other = true := by simpa [inFlight, hclaimed, haccepted] using hflight
  rcases ControlService.mem_expireStaleClaims hother with hmem | ⟨row₀, -, -, rfl⟩
  · have hqueued := hsafe ⟨other, hmem, hrunner', hexec⟩
    rcases ControlService.mem_expireStaleClaims hrow with hmem' | ⟨row₀, hmem₀, hclaimed₀, rfl⟩
    · exact hqueued row hmem' hrunner hstate
    · -- the queued row is a lapsed claim: it and the executing task were both in flight
      have hsame := hOne other hmem row₀ hmem₀ hrunner' (by simpa using hrunner)
        (by simp [inFlight, hexec]) (by simp [inFlight, hclaimed₀])
      exact hclaimed (hsame ▸ hclaimed₀)
  · simp [executingCancelled, StateWrite.newState] at hexec

/-- **One operation keeps the bound**, claims under their condition. -/
theorem perform_atMostOne (svc : ControlService) (m : Moment) (op : Operation) {db : Database}
    (hsafe : ClaimSafe db op) (hOne : ∀ runnerId, AtMostOneInFlight db runnerId) (runnerId : String) :
    AtMostOneInFlight (perform svc m op db) runnerId := by
  cases op with
  | claim claimant actor =>
    have hexpire : ∀ runnerId, AtMostOneInFlight
        (ControlService.expireStaleClaims m.now "system" db) runnerId := by
      obtain ⟨cs, hrun, hcs⟩ := ControlService.expire_changes db m.now "system"
      refine Run.invariant_of_mem _ hrun hOne fun a c b hc hstep ih => hstep.atMostOne ?_ ih
      obtain ⟨row, rfl⟩ := hcs c hc
      simp
    simp only [perform]
    cases h : svc.claimTask m claimant actor db with
    | error _ => exact hOne runnerId
    | ok answer =>
      obtain ⟨db', result⟩ := answer
      obtain ⟨-, ⟨row, -, -, -, rfl, -⟩ | ⟨-, -, rfl, -⟩ |
        ⟨hfree, row, hrow, hrunner, hstate, rfl, -⟩⟩ := ControlService.claimTask_ok h
      · exact hexpire runnerId
      · exact hexpire runnerId
      · refine claim_atMostOne hexpire (fun other hother hsame => ?_) hrow runnerId
        exact hsafe.idle (hOne claimant) hfree hrow hrunner hstate other hother (hsame.trans hrunner)
  | _ =>
    obtain ⟨cs, hrun, hcs⟩ := perform_changes svc m _ db
    refine Run.invariant_of_mem _ hrun hOne (fun a c b hc hstep ih => hstep.atMostOne ?_ ih) runnerId
    rintro token lease now actor detail row rfl
    have hpermits := hcs _ hc
    simp only [Operation.Permits] at hpermits
    grind [ControlService.cancelWrite_ne_claim]

/-! ## Runs -/

/-- **At most one task in flight**, in every state reached by a run that makes
no claim for a runner executing a cancel-requested task while it has another
one queued. -/
theorem at_most_one_in_flight (svc : ControlService) {es : List ServiceEvent} {db : Database}
    (h : Run (fun db e db' => ClaimSafe db e.operation ∧ ServiceStep svc db e db') .empty es db)
    (runnerId : String) : AtMostOneInFlight db runnerId := by
  refine Run.invariant_of_mem (fun db => ∀ runnerId, AtMostOneInFlight db runnerId) h ?_ ?_ runnerId
  · intro _ a ha
    exact absurd ha (Table.not_mem_empty a)
  · rintro a e _ - ⟨hsafe, rfl⟩ ih
    exact perform_atMostOne svc e.moment e.operation hsafe ih

open SmallDeployment in
/-- A cancelled execution whose outcome is reported before the next claim. -/
theorem at_most_one_in_flight_reported :
    AtMostOneInFlight (serve service .empty [submit 0 "t1", submit 1 "t2", claim 2,
      accept 3 "t1" 2, cancel 4 "t1", report 5 "t1" .failed, claim 6]) "runner-1" :=
  at_most_one_in_flight service (serve_guarded service ClaimSafe .empty _ (by decide)) "runner-1"

open SmallDeployment in
/-- The operator cancels the executing task, and the next claim hands out the
second one. -/
theorem claims_while_executing :
    ¬ ∀ (svc : ControlService) (es : List ServiceEvent) (db : Database),
      Run (ServiceStep svc) .empty es db → ∀ runnerId, AtMostOneInFlight db runnerId := by
  intro h
  have hrun := serve_run service .empty
    [submit 0 "t1", submit 1 "t2", claim 2, accept 3 "t1" 2, cancel 4 "t1", claim 5]
  exact absurd (h _ _ _ hrun "runner-1") (by decide)

end Conductress
