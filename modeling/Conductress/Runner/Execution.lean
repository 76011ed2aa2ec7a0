import Conductress.Runner.Runs

/-!
# What the runner executes

A task that came from the control service is started only after its acceptance
was granted and written to the journal, in every run. In an exact run, where
the runner does not die between staging an outcome and removing the task's
file, it is never started again once a record of it was appended.
-/

namespace Conductress

open Lib

/-! ## Orders in a history -/

/-- Whatever happened follows what must precede it. -/
theorem Ordered.follows {R : Regime} {later earlier : List Event} {e : Event}
    (h : Ordered R (later ++ e :: earlier)) : e.Follows R earlier ∧ Ordered R earlier := by
  induction later with
  | nil => exact h
  | cons e' later ih => exact ih h.2

/-- An acceptance in the journal was granted before. -/
theorem Ordered.granted {R : Regime} {history : List Event} (h : Ordered R history)
    {taskId : String} (hmem : .staged taskId .accepted ∈ history) :
    ∃ later earlier, history = later ++ .staged taskId .accepted :: earlier ∧
      .granted taskId ∈ earlier := by
  obtain ⟨later, earlier, rfl⟩ := List.append_of_mem hmem
  exact ⟨later, earlier, rfl, h.follows.1⟩

namespace TaskRunner

open World

variable {R : Regime} {d : Deployment} {now : Instant} {tokens : ClaimToken}
  {es : List Happening} {t : State}

/-- The task a turn of a covered run ends with may run. -/
theorem chosen_of_yield (hrun : CoveredRun R d now tokens es t) {task : Task}
    (hyield : t.2 = .pure (some task)) : t.1.Chosen R task := by
  obtain ⟨hI, hsafe⟩ := run_safe hrun
  rw [hyield] at hsafe
  exact (hsafe t.1 (Rely.refl _) hI).chosen task rfl

/-! ## Acceptance first -/

/-- **A task from the control service is started only after its acceptance**:
before each start the journal had reached `accepted` for the task, and before
that the service had granted the acceptance; the same holds of each task a
turn ends with. The task's row is the runner's, and past its claim. -/
theorem started_after_acceptance (hrun : Run (Step d) (booted d (start now tokens)) es t) :
    (∀ later task earlier taskId, t.1.history = later ++ .starting task :: earlier →
      task.override = some taskId →
        (∃ since before, earlier = since ++ .staged taskId .accepted :: before ∧
          .granted taskId ∈ before) ∧ t.1.Stands d TaskState.isPast taskId) ∧
    (∀ task taskId, t.2 = .pure (some task) → task.override = some taskId →
      (∃ since before, t.1.history = since ++ .staged taskId .accepted :: before ∧
        .granted taskId ∈ before) ∧ t.1.Stands d TaskState.isPast taskId) := by
  have hcovered := coveredRun_of_run hrun
  have hI := (run_safe hcovered).1
  constructor
  · intro later task earlier taskId hhistory hover
    have hordered := hI.custody.order
    rw [hhistory] at hordered
    obtain ⟨hstart, hearlier⟩ := hordered.follows
    have hstaged := (hstart taskId hover).1
    refine ⟨hearlier.granted hstaged, hI.custody.past taskId ?_⟩
    rw [hhistory]
    exact List.mem_append_right _ (List.mem_cons_of_mem _ hstaged)
  · intro task taskId hyield hover
    have hstaged := (chosen_of_yield hcovered hyield).runnable.accepted taskId hover
    exact ⟨hI.custody.order.granted hstaged, hI.custody.past taskId hstaged⟩

open SmallDeployment in
/-- The first start of a claimed task. -/
theorem started_after_acceptance_first :
    .granted "t1" ∈ (worldAfter (served (submit 0 "t1") :: commands 22)).history ∧
      (worldAfter (served (submit 0 "t1") :: commands 22)).Stands runner TaskState.isPast "t1" := by
  have hhistory : (after runner SmallDeployment.start 0
      (served (submit 0 "t1") :: commands 22)).1.history =
        [] ++ .starting ⟨some "t1", ⟨"2026-01-01T00:00:00", "2026-01-01T00:00:00"⟩⟩ ::
          (worldAfter (served (submit 0 "t1") :: commands 22)).history.tail := by decide +kernel
  obtain ⟨⟨since, before, hsplit, hgranted⟩, hpast⟩ := (started_after_acceptance
    (run_after runner SmallDeployment.start 0 _)).1 [] _ _ "t1" hhistory rfl
  refine ⟨List.mem_of_mem_tail ?_, hpast⟩
  rw [hsplit]
  exact List.mem_append_right _ (List.mem_cons_of_mem _ hgranted)

/-! ## At most once -/

/-- **A recorded task is never started again** in an exact run, nor does a turn
end with it. -/
theorem never_started_again (hrun : CoveredRun { exact := true } d now tokens es t) :
    (∀ later task earlier taskId, t.1.history = later ++ .starting task :: earlier →
      task.override = some taskId →
        ∀ task' : Task, task'.override = some taskId → .recorded task' ∉ earlier) ∧
    (∀ task taskId, t.2 = .pure (some task) → task.override = some taskId →
      ¬ t.1.Recorded taskId) := by
  have hI := (run_safe hrun).1
  constructor
  · intro later task earlier taskId hhistory hover
    have hordered := hI.custody.order
    rw [hhistory] at hordered
    exact (hordered.follows.1 taskId hover).2 rfl
  · intro task taskId hyield hover
    exact (chosen_of_yield hrun hyield).fresh rfl taskId hover

open SmallDeployment in
/-- The runner dies with the record appended and no outcome staged: the record
is found, and the task reported after its only start. -/
theorem never_started_again_restarted :
    .recorded ⟨some "t1", ⟨"2026-01-01T00:00:00", "2026-01-01T00:00:00"⟩⟩ ∉
      (worldAfter (served (submit 0 "t1") :: commands 22 ++ [executes] ++ commands 4 ++
        [.crash] ++ commands 12)).history.drop 4 :=
  (never_started_again (coveredRun_after _ runner SmallDeployment.start 0
    (served (submit 0 "t1") :: commands 22 ++ [executes] ++ commands 4 ++ [.crash] ++ commands 12)
    (by decide +kernel))).1
    ((worldAfter (served (submit 0 "t1") :: commands 22 ++ [executes] ++ commands 4 ++
      [.crash] ++ commands 12)).history.take 3) ⟨some "t1", ⟨"2026-01-01T00:00:00",
      "2026-01-01T00:00:00"⟩⟩ _ "t1" (by decide +kernel) rfl _ rfl

open SmallDeployment in
/-- The runner dies with the outcome staged and the file still queued: once
the outcome is delivered, the file is taken for a local task. -/
theorem started_again :
    ¬ ∀ (d : Deployment) (now : Instant) (tokens : ClaimToken) (es : List Happening) (t : State),
      Run (Step d) (booted d (start now tokens)) es t →
        ∀ later task earlier taskId, t.1.history = later ++ .starting task :: earlier →
          task.override = some taskId →
            ∀ task' : Task, task'.override = some taskId → .recorded task' ∉ earlier := by
  intro h
  have hagain := h runner _ _ _ _ (run_after runner SmallDeployment.start 0
    (served (submit 0 "t1") :: commands 22 ++ [executes] ++ commands 6 ++ [.crash] ++ commands 12))
    [] ⟨some "t1", ⟨"2026-01-01T00:00:00", "2026-01-01T00:00:00"⟩⟩
    (worldAfter (served (submit 0 "t1") :: commands 22 ++ [executes] ++ commands 6 ++ [.crash] ++
      commands 12)).history.tail "t1" (by decide +kernel) rfl
    ⟨some "t1", ⟨"2026-01-01T00:00:00", "2026-01-01T00:00:00"⟩⟩ rfl
  exact absurd hagain (by decide +kernel)

end TaskRunner

end Conductress
