import Conductress.Runner.Runs

/-!
# Who has a task

A task the service expects the runner to have is the active entry of the
runner's journal: in every run when it is accepted; when it is
cancel-requested, in every run that cancels no task between its claim and the
journal's record of its acceptance. Only the last step of the ladder gives an
accepted task up.
-/

namespace Conductress

open Lib TaskRunner

namespace World

variable (d : Deployment) (w : World)

/-- The task is the active delivery, or the ladder dropped it. -/
def InHand (taskId : String) : Prop :=
  (∃ a, w.journal = some a ∧ a.taskId = taskId) ∨ .downgraded taskId .dropped ∈ w.history

/-- The runner has every task the service holds as accepted or
cancel-requested. -/
def NoOrphans : Prop :=
  ∀ row ∈ w.db.tasks, row.runnerId = d.runnerId →
    row.state = .accepted ∨ row.state = .cancelRequested → w.InHand row.taskId

/-- A refused acceptance cleared the journal only when the row was queued or
terminal. -/
def RefusedFree : Prop :=
  ∀ a code row? now, .cleared a (.refused code) row? now ∈ w.history →
    ∃ row, row? = some row ∧ (row.state = .queued ∨ row.state.isTerminal = true)

instance (taskId : String) : Decidable (w.InHand taskId) :=
  decidable_of_iff ((w.journal.any fun a => decide (a.taskId = taskId)) = true ∨
    .downgraded taskId .dropped ∈ w.history) (by simp [InHand, Option.any_eq_true])

instance : Decidable (w.NoOrphans d) :=
  inferInstanceAs (Decidable (∀ row ∈ w.db.tasks.rows, row.runnerId = d.runnerId →
    row.state = .accepted ∨ row.state = .cancelRequested → w.InHand row.taskId))

/-- Whether an event leaves `RefusedFree` as it is. -/
def freed : Event → Bool
  | .cleared _ (.refused _) row? _ =>
    row?.any fun row => decide (row.state = .queued) || row.state.isTerminal
  | _ => true

instance : Decidable w.RefusedFree :=
  decidable_of_iff (w.history.all freed = true) (by
    rw [List.all_eq_true]
    constructor
    · intro h a code row? now hmem
      simpa [freed, Option.any_eq_true] using h _ hmem
    · intro h e hmem
      cases e with
      | cleared a why row? now =>
        cases why with
        | refused code => simpa [freed, Option.any_eq_true] using h a code row? now hmem
        | _ => rfl
      | _ => rfl)

/-- The row is claimed in a way the entry's token cannot accept any more: it
has another token, or its lease has run out. -/
def DeadClaim (a : Active) (now : Instant) (row : TaskRow) : Prop :=
  row.state = .claimed ∧ (row.claimToken = a.claimToken →
    ∀ lease, row.leaseExpires = some lease → lease ≤ now)

/-- The same, or when the claim was dead. -/
def RefusedFreeOrDead : Prop :=
  ∀ a code row? now, .cleared a (.refused code) row? now ∈ w.history →
    ∃ row, row? = some row ∧
      (row.state = .queued ∨ row.state.isTerminal = true ∨ DeadClaim a now row)

end World

namespace TaskRunner

variable {R : Regime} {d : Deployment} {w : World}

/-- The journal's hold on a task, as the invariant has it. -/
theorem inHand_of_owned {row : TaskRow} (h : w.Owned row) : w.InHand row.taskId := by
  rcases h with ⟨a, ha, hid, -⟩ | ⟨hdropped, -⟩
  · exact .inl ⟨a, ha, hid⟩
  · exact .inr hdropped

/-- An accepted task is in hand, whatever the regime. -/
theorem accepted_inHand (hI : World.Inv R d w) {row : TaskRow} (hrow : row ∈ w.db.tasks)
    (hmine : row.runnerId = d.runnerId) (hs : row.state = .accepted) : w.InHand row.taskId :=
  inHand_of_owned (hI.ownership.held row hrow hmine (.inl hs))

/-- Under gentle cancellations every task handed out is in hand. -/
theorem noOrphans_of_inv (hI : World.Inv R d w) (hR : R.gentle = true) : w.NoOrphans d := by
  intro row hrow hmine hs
  refine inHand_of_owned (hI.ownership.held row hrow hmine ?_)
  exact hs.imp_right fun hs => ⟨hR, hs⟩

/-- Under gentle cancellations a refusal leaves no row the runner should have. -/
theorem refused_of_inv (hI : World.Inv R d w) (hR : R.gentle = true) : w.RefusedFreeOrDead := by
  intro a code row? now hmem
  obtain ⟨row, hrow, -, hpending, hheld, hdead⟩ := hI.ownership.refusals a code row? now hmem
  refine ⟨row, hrow, ?_⟩
  cases hs : row.state with
  | queued => exact .inl rfl
  | claimed => exact .inr (.inr ⟨hs, hdead hs⟩)
  | accepted => exact absurd (.inl hs) hheld
  | cancelRequested => exact absurd (.inr ⟨hR, hs⟩) hheld
  | pendingApproval => exact absurd hs hpending
  | completed | failed | cancelled => exact .inr (.inl rfl)

/-- **Nothing handed out is orphaned**: an accepted task is in hand in every
run; with gentle cancellations so is a cancel-requested one, and a refused
acceptance leaves the row queued, terminal, or with a dead claim. -/
theorem handed_out_in_hand {now : Instant} {tokens : ClaimToken} {es : List Happening} {t : State}
    (hrun : Run (Step d) (booted d (start now tokens)) es t) :
    (∀ row ∈ t.1.db.tasks, row.runnerId = d.runnerId → row.state = .accepted →
      t.1.InHand row.taskId) ∧
    (CoveredRun { gentle := true } d now tokens es t →
      t.1.NoOrphans d ∧ t.1.RefusedFreeOrDead) := by
  constructor
  · intro row hrow hmine hs
    exact accepted_inHand (run_safe (coveredRun_of_run hrun)).1 hrow hmine hs
  · intro hgentle
    have hI := (run_safe hgentle).1
    exact ⟨noOrphans_of_inv hI rfl, refused_of_inv hI rfl⟩

open SmallDeployment in
/-- A cancellation the runner knows of: its task was accepted, and it has it
still. -/
theorem handed_out_in_hand_cancelled :
    (worldAfter (served (submit 0 "t1") :: commands 20 ++ [served (cancel 5 "t1")])).NoOrphans
      runner :=
  ((handed_out_in_hand (run_after runner SmallDeployment.start 0 _)).2
    (coveredRun_after _ _ _ _ _ (by decide +kernel))).1

open SmallDeployment in
/-- A task cancelled between its claim and its acceptance has no owner left;
and a lease that runs out leaves a claimed row behind. -/
theorem orphaned_by_cancellation :
    (¬ ∀ (d : Deployment) (now : Instant) (tokens : ClaimToken) (es : List Happening) (t : State),
      Run (Step d) (booted d (start now tokens)) es t → t.1.NoOrphans d) ∧
    ¬ ∀ (d : Deployment) (now : Instant) (tokens : ClaimToken) (es : List Happening) (t : State),
      CoveredRun { gentle := true } d now tokens es t → t.1.RefusedFree := by
  constructor
  · intro h
    have horphan := h runner _ _ _ _ (run_after runner SmallDeployment.start 0
      (served (submit 0 "t1") :: commands 16 ++ [served (cancel 5 "t1")] ++ commands 3))
    exact absurd horphan (by decide +kernel)
  · intro h
    have hfree := h runner _ _ _ _ (coveredRun_after { gentle := true } runner
      SmallDeployment.start 0
      (served (submit 0 "t1") :: commands 16 ++ [.interfere (.pass 400000000)] ++ commands 3)
      (by decide +kernel))
    exact absurd hfree (by decide +kernel)

end TaskRunner

end Conductress
