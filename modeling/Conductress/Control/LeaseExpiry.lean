import Conductress.Base.ClockOrder
import Conductress.Control.Leases

/-!
# The two readings of a lease

`_expire_stale_claims_in_transaction` compares the texts of the lease and of
the time, `accept_task` compares the times. They agree exactly when the texts of the two
are in the order of the times, which within one second fails when one of them
is the whole second (`sweep_agrees_with_accept`): on a lease that ends at a
whole second an acceptance is refused for the rest of that second and the sweep
leaves the claim alone, and a lease that ends later in a second is swept from
the start of that second, while an acceptance would still go through.
-/

namespace Conductress

open Lib

/-! ## Claimed rows -/

/-- A claimed row has a lease and a token. -/
def ClaimsLeased (db : Database) : Prop :=
  ∀ row ∈ db.tasks, row.state = .claimed →
    ∃ lease token, row.leaseExpires = some lease ∧ row.claimToken = some token

/-- Only a claim leaves a row claimed, with its token and its lease. -/
theorem Change.Step.claimsLeased {db db' : Database} {c : Change} (h : Change.Step db c db')
    (hleased : ClaimsLeased db) : ClaimsLeased db' := by
  intro row' hrow' hstate
  rcases h.mem_after hrow' with ⟨hrow, -⟩ | ⟨_, _, _, _, -, -, hfresh⟩ |
    ⟨w, now, actor, detail, row, -, -, -, rfl⟩
  · exact hleased row' hrow hstate
  · rcases hfresh.state with hqueued | hpending
    · rw [hqueued] at hstate
      cases hstate
    · rw [hpending] at hstate
      cases hstate
  · by_cases hclaim : ∃ token lease, w = .claim token lease
    · obtain ⟨token, lease, rfl⟩ := hclaim
      exact ⟨lease, token, rfl, rfl⟩
    · exact absurd hstate (StateWrite.set_of_not_claim (fun token lease heq =>
        hclaim ⟨token, lease, heq⟩) now row).2

theorem served_claimsLeased (svc : ControlService) (es : List ServiceEvent) :
    ClaimsLeased (serve svc .empty es) := by
  refine (serve_run svc .empty es).invariant _
    (fun row hrow => absurd hrow (Table.not_mem_empty row)) ?_
  rintro a e _ rfl ih
  obtain ⟨cs, hrun, -⟩ := perform_changes svc e.moment e.operation a
  exact hrun.invariant _ ih fun _ _ _ hstep ih => hstep.claimsLeased ih

/-! ## The two checks -/

/-- The sweep puts the task of a row back in the queue. -/
def Requeues (now : Instant) (actor : String) (db : Database) (row : TaskRow) : Prop :=
  ∃ row', (ControlService.expireStaleClaims now actor db).task? row.taskId = some row' ∧
    row'.state = .queued

/-- An acceptance under the row's own token is refused for its lease. -/
def RefusedAsExpired (now : Instant) (actor : String) (db : Database) (row : TaskRow) : Prop :=
  ∃ token message, row.claimToken = some token ∧
    ControlService.acceptTask now row.runnerId row.taskId token actor db =
      .error ⟨.claimExpired, message⟩

section Claimed

variable {db : Database} {row : TaskRow} {lease : Instant} {token : ClaimToken}

theorem requeues_iff (hrow : row ∈ db.tasks) (hstate : row.state = .claimed)
    (hlease : row.leaseExpires = some lease) (now : Instant) (actor : String) :
    Requeues now actor db row ↔ textLe lease now = true := by
  have hstale : ControlService.isStale now row = textLe lease now := by
    unfold ControlService.isStale
    rw [hstate, hlease, Option.any_some, decide_eq_true rfl, Bool.true_and]
  unfold Requeues
  rw [ControlService.task?_expireStaleClaims, Database.task?_of_mem hrow, Option.map_some, hstale]
  generalize textLe lease now = swept
  constructor
  · rintro ⟨row', hrow', hqueued⟩
    by_contra hfresh
    rw [if_neg hfresh] at hrow'
    cases hrow'
    rw [hstate] at hqueued
    cases hqueued
  · intro hle
    exact ⟨StateWrite.expireClaim.set now row, by rw [if_pos hle], rfl⟩

theorem refusedAsExpired_iff (hrow : row ∈ db.tasks) (hstate : row.state = .claimed)
    (hlease : row.leaseExpires = some lease) (htoken : row.claimToken = some token) (now : Instant)
    (actor : String) : RefusedAsExpired now actor db row ↔ lease ≤ now := by
  have hfind : ControlService.requireTask db row.taskId = .ok row :=
    ControlService.requireTask_ok.mpr ⟨hrow, rfl⟩
  have hrunner : ControlService.verifyTaskRunner row row.runnerId = .ok () :=
    ControlService.verifyTaskRunner_ok.mpr rfl
  have htokens : ControlService.checkToken row token = .ok () :=
    ControlService.checkToken_ok.mpr htoken
  have haccept : ControlService.acceptTask now row.runnerId row.taskId token actor db =
      (check (decide (now < lease)) .claimExpired "claim lease expired before acceptance").bind
        fun _ => .ok (db.write .accept now actor none row, StateWrite.accept.set now row, true) := by
    unfold ControlService.acceptTask
    simp only [hfind, hrunner, htokens, hstate, hlease, check, Except.bind, bind, pure, Except.pure,
      Option.any_some]
    rfl
  unfold RefusedAsExpired
  simp only [htoken, Option.some.injEq]
  constructor
  · rintro ⟨_, message, rfl, hrefused⟩
    by_contra hlt
    rw [haccept, check, if_pos (by simpa using hlt)] at hrefused
    cases hrefused
  · intro hle
    refine ⟨token, "claim lease expired before acceptance", rfl, ?_⟩
    rw [haccept, check, if_neg (by simpa using hle)]
    rfl

/-- The two checks agree when the texts are in the order of the times. -/
theorem requeues_iff_refused (hrow : row ∈ db.tasks) (hstate : row.state = .claimed)
    (hlease : row.leaseExpires = some lease) (htoken : row.claimToken = some token) {now : Instant}
    (hends : Representable lease) (hnow : Representable now) (sweeper actor : String) :
    (Requeues now sweeper db row ↔ RefusedAsExpired now actor db row) ↔
      ¬ SameSecondClash lease now := by
  rw [requeues_iff hrow hstate hlease, refusedAsExpired_iff hrow hstate hlease htoken,
    textLe_iff hends hnow]

end Claimed

/-- **Texts and times.** Of two UTC times the texts are in the order of the
times unless the two lie in one second and exactly one is a whole second; and
of every claimed task of every run the sweep requeues it exactly when an
acceptance would be refused as expired, unless its lease and the time do. -/
theorem sweep_agrees_with_accept (svc : ControlService) (es : List ServiceEvent) :
    (∀ a b : UtcDatetime, (a.text ≤ b.text ↔ a ≤ b) ↔ ¬ a.Clash b) ∧
    ∀ row ∈ (serve svc .empty es).tasks, row.state = .claimed →
      ∃ lease, row.leaseExpires = some lease ∧
        ∀ now sweeper actor, Representable lease → Representable now →
          ((Requeues now sweeper (serve svc .empty es) row ↔
              RefusedAsExpired now actor (serve svc .empty es) row) ↔
            ¬ SameSecondClash lease now) := by
  refine ⟨UtcDatetime.text_le_iff, fun row hrow hstate => ?_⟩
  obtain ⟨lease, token, hlease, htoken⟩ := served_claimsLeased svc es row hrow hstate
  exact ⟨lease, hlease, fun now sweeper actor hends hnow =>
    requeues_iff_refused hrow hstate hlease htoken hends hnow sweeper actor⟩

open SmallDeployment in
/-- A claim whose lease ends at a whole second, swept and accepted at that second. -/
theorem sweep_agrees_with_accept_lapsed :
    ∃ row ∈ (serve service .empty [submit 0 "t1", claim 1]).tasks, ∀ sweeper actor,
      Requeues (moment 301).now sweeper (serve service .empty [submit 0 "t1", claim 1]) row ↔
        RefusedAsExpired (moment 301).now actor (serve service .empty [submit 0 "t1", claim 1])
          row := by
  have hclaimed : ∃ row ∈ (serve service .empty [submit 0 "t1", claim 1]).tasks.rows,
      row.state = .claimed ∧ row.leaseExpires = some (moment 301).now := by decide +kernel
  obtain ⟨row, hrow, hstate, hlease⟩ := hclaimed
  obtain ⟨lease, hlease', hagree⟩ :=
    (sweep_agrees_with_accept service [submit 0 "t1", claim 1]).2 row hrow hstate
  rw [hlease] at hlease'
  cases hlease'
  exact ⟨row, hrow, fun sweeper actor =>
    (hagree _ sweeper actor (by decide) (by decide)).mpr (by decide)⟩

open SmallDeployment in
/-- Half a second after the end of a lease that ends at a whole second the
texts are the other way round, and the sweep leaves the claim alone. -/
theorem sweep_leaves_refused_claim :
    (¬ ∀ a b : UtcDatetime, a.text ≤ b.text ↔ a ≤ b) ∧
    ¬ ∀ (svc : ControlService) (es : List ServiceEvent) (now : Instant) (sweeper actor : String),
      ∀ row ∈ (serve svc .empty es).tasks, row.state = .claimed → Representable now →
        (Requeues now sweeper (serve svc .empty es) row ↔
          RefusedAsExpired now actor (serve svc .empty es) row) := by
  have hends : Representable (moment 301).now := by decide
  have hnow : Representable ((moment 301).now + 500000) := by decide
  have hclash : SameSecondClash (moment 301).now ((moment 301).now + 500000) := by decide
  constructor
  · intro h
    have hagree := h (UtcDatetime.ofInstant _ hends) (UtcDatetime.ofInstant _ hnow)
    exact (UtcDatetime.text_le_iff _ _).mp hagree ((UtcDatetime.clash_ofInstant _ _).mpr hclash)
  · intro h
    have hclaimed : ∃ row ∈ (serve service .empty [submit 0 "t1", claim 1]).tasks.rows,
        row.state = .claimed ∧ row.leaseExpires = some (moment 301).now ∧
          row.claimToken = some 1 := by decide +kernel
    obtain ⟨row, hrow, hstate, hlease, htoken⟩ := hclaimed
    have hagree := h service _ ((moment 301).now + 500000) "system" "runner:runner-1" row hrow
      hstate hnow
    exact (requeues_iff_refused hrow hstate hlease htoken hends hnow _ _).mp hagree hclash

end Conductress
