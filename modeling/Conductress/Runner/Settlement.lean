import Conductress.Runner.Runs

/-!
# Outcomes that settle

Against a service that answers, and while every task it hands out loads on the
runner and has no record there yet, a pending outcome is one the service takes
or already has: delivering it frees the slot.
-/

namespace Conductress

open Lib

namespace World

/-- The service takes an outcome of this task, or already has this one. -/
def Takes (d : Deployment) (w : World) (taskId : String) (o : TaskOutcome) : Prop :=
  ∃ row, w.db.task? taskId = some row ∧ row.runnerId = d.runnerId ∧
    (row.state = .accepted ∨ row.state = .cancelRequested ∨
      (row.state = o.state.taskState ∧ row.outcome = some o.canonical))

theorem Settles.takes {d : Deployment} {w : World} {taskId : String} {o : TaskOutcome}
    (h : w.Settles d taskId o) : w.Takes d taskId o := by
  obtain ⟨row, hrow, hmine, (haccepted | hcancel) | ⟨hstate, hout, -⟩⟩ := h
  · exact ⟨row, hrow, hmine, .inl haccepted⟩
  · exact ⟨row, hrow, hmine, .inr (.inl hcancel)⟩
  · exact ⟨row, hrow, hmine, .inr (.inr ⟨hstate, hout⟩)⟩

end World

namespace TaskRunner

open World

variable {d : Deployment} {now : Instant} {tokens : ClaimToken} {es : List Happening} {t : State}

/-- The service answers the request of this step, if there is one. -/
def Answers : Happening → Prop
  | .act x => x.network = .passed
  | .interfere _ | .crash => True

instance : (e : Happening) → Decidable (Answers e)
  | .act x => inferInstanceAs (Decidable (x.network = .passed))
  | .interfere _ | .crash => isTrue trivial

/-- **Pending outcomes settle**: the service takes the staged outcome or
already has it, and every delivery of it leaves the slot free. -/
theorem pending_outcomes_settle (hrun : CoveredRun { settles := true } d now tokens es t)
    {a : Active} {o : TaskOutcome} {rejections : List Rejection} (ha : t.1.journal = some a)
    (hstage : a.stage = .outcomePending o rejections) :
    t.1.Takes d a.taskId o ∧
      ∀ r u, Exec (contract { settles := true } d) (RunnerMailbox.flushPendingOutcome d) t.1 r u →
        (∃ delivered, r = .ok delivered) ∧ u.journal = none := by
  have hI := (run_safe hrun).1
  refine ⟨(hI.settled.pending rfl a o rejections ha hstage).1.takes, fun r u hexec => ?_⟩
  have hflushed : RunnerMailbox.Flushed { settles := true } t.1.journal t.1 := by
    refine ⟨⟨by simp, by simp⟩, fun a' ha' => ?_, fun a' ha' => ⟨a', ha', rfl, rfl⟩⟩
    cases ha.symm.trans ha'
    rw [hstage]
    rfl
  obtain ⟨-, hok, herror⟩ := (RunnerMailbox.flushPendingOutcome_safe hflushed).exec hI hexec
  cases r with
  | ok delivered => exact ⟨⟨delivered, rfl⟩, (hok delivered rfl).2 rfl⟩
  | error e => exact absurd rfl (herror e rfl).2.2

open SmallDeployment in
/-- An executed task, staged and not yet delivered. -/
theorem pending_outcomes_settle_staged :
    ∃ a o rejections, (worldAfter (served (submit 0 "t1") :: commands 22 ++ [executes] ++
      commands 6)).journal = some a ∧ a.stage = .outcomePending o rejections ∧
      (worldAfter (served (submit 0 "t1") :: commands 22 ++ [executes] ++
        commands 6)).Takes runner a.taskId o := by
  have hrun := coveredRun_after { settles := true } runner SmallDeployment.start 0
    (served (submit 0 "t1") :: commands 22 ++ [executes] ++ commands 6) (by decide +kernel)
  have hpending : ((worldAfter (served (submit 0 "t1") :: commands 22 ++ [executes] ++
      commands 6)).journal.any fun a => a.stage.isPending) = true := by decide +kernel
  obtain ⟨⟨taskId, token, envelope, stage⟩, ha, hstage⟩ := (Option.any_eq_true _ _).mp hpending
  cases stage with
  | outcomePending o rejections =>
    exact ⟨_, o, rejections, ha, rfl, (pending_outcomes_settle hrun ha rfl).1⟩
  | claimed | imported | accepted => cases hstage

namespace UnknownType

open SmallDeployment

/-- A body the runner has no task class for. -/
def submitUnknown : ServiceEvent :=
  ⟨moment 0, .submit { envelope "t1" .manual with task := body "NoSuchTask" } "operator:ops"
    none none false⟩

end UnknownType

open SmallDeployment UnknownType in
/-- A task that cannot be loaded is reported as failed before it was ever
accepted, and the service refuses the report for good. -/
theorem unloadable_never_settles :
    ¬ ∀ (d : Deployment) (now : Instant) (tokens : ClaimToken) (es : List Happening) (t : State),
      Run (fun a e b => Answers e ∧ Step d a e b) (booted d (start now tokens)) es t →
        ∀ a o rejections, t.1.journal = some a → a.stage = .outcomePending o rejections →
          t.1.Takes d a.taskId o := by
  intro h
  have hrun := Run.of_guarded (step runner) (fun _ e => Answers e)
    (served submitUnknown :: commands 24) (booted runner (start SmallDeployment.start 0))
    (by decide +kernel)
  have hpending : ((worldAfter (served submitUnknown :: commands 24)).journal.any
      fun a => a.stage.isPending) = true := by decide +kernel
  have hclaimed : ∀ row ∈ (worldAfter (served submitUnknown :: commands 24)).db.tasks.rows,
      row.state = .claimed := by decide +kernel
  obtain ⟨⟨taskId, token, envelope, stage⟩, ha, hstage⟩ := (Option.any_eq_true _ _).mp hpending
  cases stage with
  | outcomePending o rejections =>
    obtain ⟨row, hrow, -, hstate⟩ := h runner _ _ _ _ hrun _ o rejections ha rfl
    have hs := hclaimed row (Database.task?_eq_some_iff.mp hrow).1
    rcases hstate with hstate | hstate | ⟨hstate, -⟩
    · rw [hs] at hstate
      cases hstate
    · rw [hs] at hstate
      cases hstate
    · cases ho : o.state <;> rw [hs, ho] at hstate <;> cases hstate
  | claimed | imported | accepted => cases hstage

end TaskRunner

end Conductress
