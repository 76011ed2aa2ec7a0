import Conductress.Runner.Reconcile

/-!
# Every turn of the runner

Choosing a task, running it and idling keep the promises of the contract and
end where the next turn may start.
-/

namespace Conductress

open Lib

namespace RunnerMailbox

open World

variable {R : Regime} {d : Deployment} {w : World}

/-! ## Polling -/

theorem reconcile_polled (hcalm : w.Calm R) :
    Safe (contract R d) (reconcile d) (fun r t => Polled R r t) (fun _ => Calm R) w :=
  (reconcile_safe hcalm).conseq (fun _ _ _ h => h.toPolled) (fun _ _ _ h => h.1)

theorem Polled.kept {t : World} {r : Option Task} (h : Polled R r w) (hk : Kept R d w t) :
    Polled R r t where
  calm := h.calm.kept hk
  ready task hr := (h.ready task hr).kept hk
  waiting hr a ha := h.waiting hr a (hk.journal ▸ ha)
  settled hr hR a ha := h.settled hr hR a (hk.journal ▸ ha)

theorem polled_of_none (h : w.journal = none) : Polled R none w :=
  (reconciled_of_none (j := none) h).toPolled

/-- Asking for a task with an empty journal. -/
theorem claimNext_safe (hnone : w.journal = none) :
    Safe (contract R d) (claimNext d) (fun r t => Polled R r t) (fun _ => Calm R) w := by
  have hasks : w.Asks .claim := hnone
  refine Safe.bind ((FleetClient.request_safe hasks).conseq (fun r t _ ht => ?_)
    (fun _ t _ ht => calm_of_none (ht.1.journal.trans hnone)))
  obtain ⟨hk, hanswered⟩ := ht
  have ht := hk.journal.trans hnone
  have hpass : Safe (contract R d) (.pure none : Act (Option Task))
      (fun r t => Polled R r t) (fun _ => Calm R) t :=
    fun u hu _ => polled_of_none (hu.journal.trans ht)
  have hraise : ∀ e, Safe (contract R d) (.raise e : Act (Option Task))
      (fun r t => Polled R r t) (fun _ => Calm R) t :=
    fun _ u hu _ => calm_of_none (hu.journal.trans ht)
  cases r with
  | error e => exact hpass
  | ok reply =>
    cases reply with
    | noTask => exact hpass
    | task row => exact hraise _
    | claimed row =>
      dsimp only
      split
      · refine Safe.bind ((setActive_safe fun u hu _ => ?_).conseq (fun _ u _ hu => ?_)
          (fun _ _ _ h => h))
        · obtain ⟨hclaim, -⟩ := hanswered.rely (ht : t.Asks .claim) hu
          exact .claim (hu.journal.trans ht) rfl hclaim
        · exact reconcile_polled (calm_of_stage hu.journal rfl fun _ hs => by cases hs)
      · exact hraise _

theorem poll_safe (hcalm : w.Calm R) :
    Safe (contract R d) (poll d) (fun r t => Polled R r t) (fun _ => Calm R) w := by
  refine Safe.bind ((reconcile_polled hcalm).conseq (fun r t _ ht => ?_) (fun _ _ _ h => h))
  cases r with
  | some task => exact fun u hu _ => ht.kept hu.toKept
  | none =>
    refine active_then fun u hu _ => ?_
    have hu' := ht.kept hu.toKept
    split
    · exact fun v hv _ => hu'.kept hv.toKept
    · next hnone =>
      have hnone : u.journal = none := by simpa using hnone
      refine taskIds_then fun v hv _ => ?_
      have hnone := hv.journal.trans hnone
      split
      · exact fun x hx _ => polled_of_none (hx.journal.trans hnone)
      · exact claimNext_safe hnone

theorem blocksExecution_then {α : Type} {Q : α → World → Prop} {E : PyError → World → Prop}
    {f : Bool → Act α}
    (h : ∀ t, Rely R d w t → Inv R d t → Safe (contract R d)
      (f (t.journal.any fun a => decide (a.stage = .claimed ∨ a.stage = .imported))) Q E t) :
    Safe (contract R d) (blocksExecution >>= f) Q E w :=
  Safe.seq fun t hr hI => ⟨trivial, fun _ _ _ => h t hr hI⟩

end RunnerMailbox

/-! ## Tasks that may run -/

namespace World

variable {R : Regime} {d : Deployment} {w : World}

/-- What the runner knows of the task it has chosen. -/
structure Chosen (R : Regime) (w : World) (task : Task) : Prop where
  runnable : w.Runnable task
  fresh    : R.exact → ∀ taskId, task.override = some taskId → ¬ w.Recorded taskId
  settled  : R.settles → ∀ a, w.journal = some a → a.stage = .accepted

theorem Runnable.kept {t : World} {task : Task} (h : w.Runnable task) (hk : Kept R d w t) :
    t.Runnable task where
  blocked a ha := h.blocked a (hk.journal ▸ ha)
  delivery a ha := h.delivery a (hk.journal ▸ ha)
  accepted taskId hover := hk.history _ (h.accepted taskId hover)

theorem Chosen.kept {t : World} {task : Task} (h : w.Chosen R task) (hk : Kept R d w t) :
    t.Chosen R task where
  runnable := h.runnable.kept hk
  fresh hR taskId hover hrec := by
    obtain ⟨task', hmem, hover'⟩ := hrec
    exact h.fresh hR taskId hover ⟨task', hk.recorded task' hmem, hover'⟩
  settled hR a ha := h.settled hR a (hk.journal ▸ ha)

/-- Between two turns: the runner has a task that may run, or none, and the
world is one it may die in. -/
structure Turn (R : Regime) (choice : Option Task) (w : World) : Prop where
  calm   : w.Calm R
  chosen : ∀ task, choice = some task → w.Chosen R task

theorem Turn.kept {t : World} {choice : Option Task} (h : Turn R choice w) (hk : Kept R d w t) :
    Turn R choice t :=
  ⟨h.calm.kept hk, fun task hc => (h.chosen task hc).kept hk⟩

/-- The active delivery, once accepted, may run. -/
theorem Turn.of_ready {task : Task} (hI : Inv R d w) (hcalm : w.Calm R)
    (h : RunnerMailbox.Ready R w task) : Turn R (some task) w := by
  obtain ⟨a, ha, hs, hover, hfresh⟩ := h
  refine ⟨hcalm, fun _ hsome => ?_⟩
  cases hsome
  refine ⟨⟨fun a' ha' => ?_, fun a' ha' _ => ?_, fun taskId hover' => ?_⟩, fun hR taskId hover' => ?_,
    fun _ a' ha' => ?_⟩
  · cases ha.symm.trans ha'
    simp [hs]
  · cases ha.symm.trans ha'
    exact hover
  · cases hover.symm.trans hover'
    exact hI.custody.accepted a ha hs
  · cases hover.symm.trans hover'
    exact hfresh hR
  · cases ha.symm.trans ha'
    exact hs

/-- Nothing but an undelivered outcome holds the runner back from local work. -/
structure Resting (R : Regime) (w : World) : Prop where
  calm    : w.Calm R
  idle    : w.Idle
  settled : R.settles → w.journal = none

theorem Resting.kept {t : World} (h : Resting R w) (hk : Kept R d w t) : Resting R t :=
  ⟨h.calm.kept hk, h.idle.kept hk, fun hR => hk.journal.trans (h.settled hR)⟩

theorem resting_of_none (h : w.journal = none) : Resting R w :=
  ⟨calm_of_none h, idle_of_none h, fun _ => h⟩

theorem Resting.dropFile (h : Resting R w) (taskId : String) : Resting R (w.dropFile taskId) where
  calm := Idle.calm h.idle fun hR a ha hfile =>
    h.calm.finished hR a ha (h.idle a ha) (claimFile_dropFile hfile)
  idle := h.idle
  settled := h.settled

/-- The task of a file in the queue of a resting runner may run. A file that
came from a claim was accepted, and in an exact run there is none left. -/
theorem Resting.chosen {task : Task} {file : QueueFile} (h : Resting R w) (hI : Inv R d w)
    (hfile : w.queue.find? file.id = some file)
    (hload : d.classes.fromFile file.content = .ok task) : w.Chosen R task := by
  have hover : ∀ taskId, task.override = some taskId → taskId = file.id ∧ w.ClaimFile taskId := by
    intro taskId hover
    obtain ⟨hmem, -⟩ := Table.find?_eq_some_iff.mp hfile
    cases hfrom : file.fromClaim with
    | true =>
      obtain ⟨fields, hcontent, hkey⟩ := hI.custody.sidecar file hmem hfrom
      rw [hcontent] at hload
      simp only [TaskClasses.fromFile, Json.getD, hkey] at hload
      have hid := (TaskClasses.fromDict_override hload).1
      rw [hover] at hid
      cases hid
      exact ⟨rfl, file, hfile, hfrom⟩
    | false =>
      -- a file without the sidecar loads without an override
      exfalso
      unfold TaskClasses.fromFile at hload
      split at hload
      · cases hload
      · next fields hcontent =>
        have hkey : Json.lookup fields envelopeTaskIdKey = none := by
          simpa [QueueFile.fromClaim, hcontent] using hfrom
        simp only [Json.getD, hkey] at hload
        rw [TaskClasses.fromDict_null hload] at hover
        cases hover
      · cases hload
  have hpending : ∀ a, w.journal = some a → a.stage.isPending = true := h.idle
  refine ⟨⟨fun a ha => ?_, fun a ha hs => ?_, fun taskId hid => ?_⟩, fun hR taskId hid => ?_,
    fun hR a ha => ?_⟩
  · have := hpending a ha
    constructor <;> intro hs <;> simp [hs, Stage.isPending] at this
  · have := hpending a ha
    simp [hs, Stage.isPending] at this
  · rcases hI.custody.file taskId (hover taskId hid).2 with haccepted | ⟨a, ha, -, hs⟩
    · exact haccepted
    · have := hpending a ha
      rcases hs with hs | hs <;> simp [hs, Stage.isPending] at this
  · obtain ⟨a, ha, hsame⟩ := hI.once.file hR taskId (hover taskId hid).2
    refine absurd (hover taskId hid).2 ?_
    rw [← hsame]
    exact h.calm.finished hR a ha (hpending a ha)
  · rw [h.settled hR] at ha
    cases ha

end World

/-! ## The local queue -/

namespace TaskQueue

open World

variable {R : Regime} {d : Deployment} {w : World}

theorem getNextTask_safe (h : Resting R w) :
    Safe (contract R d) (getNextTask d.classes) (fun r t => Turn R r t) (fun _ => Calm R) w := by
  refine taskIds_then fun t ht _ => ?_
  have ht := h.kept ht.toKept
  split
  · exact fun u hu _ => ⟨ht.calm.kept hu.toKept, by simp⟩
  · next taskId _ =>
    refine readTask_then fun u hu hI => ?_
    have hu := ht.kept hu.toKept
    have hnone : ∀ v : World, Rely R d u v → Safe (contract R d) (.pure none : Act (Option Task))
        (fun r t => Turn R r t) (fun _ => Calm R) (v.dropFile taskId) := fun v hv x hx _ =>
      ⟨(((hu.kept hv.toKept).dropFile taskId).kept hx.toKept).calm, by simp⟩
    cases hfile : u.queue.find? taskId with
    | none =>
      exact removeTask_then (fun _ => RunnerMailbox.not_accepted_of_idle hu.idle)
        fun v hv _ => hnone v hv
    | some file =>
      have hid : file.id = taskId := (Table.find?_eq_some_iff.mp hfile).2
      cases hload : d.classes.fromFile file.content with
      | ok task =>
        have hchosen : u.Chosen R task := hu.chosen hI (by rw [hid]; exact hfile) hload
        have hturn : Turn R (some task) u := ⟨hu.calm, fun _ hsome => by cases hsome; exact hchosen⟩
        simp only [Option.map_some, hload]
        exact fun v hv _ => hturn.kept hv.toKept
      | error e =>
        have hraise : Safe (contract R d) (.raise e : Act (Option Task))
            (fun r t => Turn R r t) (fun _ => Calm R) u := fun v hv _ => hu.calm.kept hv.toKept
        simp only [Option.map_some, hload]
        cases e with
        | valueError m =>
          refine Safe.seq fun v hv _ => ⟨fun _ a ha => ?_, fun _ _ _ => hnone v hv⟩
          exact RunnerMailbox.not_accepted_of_idle (hu.kept hv.toKept).idle a ha
        | _ => exact hraise

/-- What is left when the files of a finished task are gone. -/
structure Finished (R : Regime) (d : Deployment) (w : World) (taskId : String) (t : World) : Prop where
  journal   : t.journal = w.journal
  claimFile : ∀ id, t.ClaimFile id → w.ClaimFile id
  removed   : ¬ t.ClaimFile taskId

theorem Finished.kept {taskId : String} {t u : World} (h : Finished R d w taskId t)
    (hk : Kept R d t u) : Finished R d w taskId u where
  journal := hk.journal.trans h.journal
  claimFile id hfile := h.claimFile id (hk.claimFile id hfile)
  removed hfile := h.removed (hk.claimFile _ hfile)

/-- A file of another name goes, and no imported one of the task was there. -/
theorem Finished.of_kept {taskId : String} {t : World} (hk : Kept R d w t)
    (hnone : ¬ t.ClaimFile taskId) : Finished R d w taskId t :=
  ⟨hk.journal, hk.claimFile, hnone⟩

theorem Finished.dropFile {taskId : String} {t : World} (h : Finished R d w taskId t)
    (removed : String) : Finished R d w taskId (t.dropFile removed) :=
  ⟨h.journal, fun id hfile => h.claimFile id (claimFile_dropFile hfile),
    fun hfile => h.removed (claimFile_dropFile hfile)⟩

/-- The search by timestamp removes at most one file more. -/
theorem removeByTimestamp_safe {task : Task} {taskIds : List String} {E : PyError → World → Prop}
    (hidle : w.Idle) (hnone : ¬ w.ClaimFile task.taskId) :
    Safe (contract R d) (removeByTimestamp task taskIds)
      (fun _ t => Finished R d w task.taskId t) E w := by
  induction taskIds generalizing w with
  | nil =>
    exact fun t ht _ => .of_kept ht.toKept fun hfile => hnone (ht.claimFile _ hfile)
  | cons taskId rest ih =>
    refine readTask_then fun t ht _ => ?_
    have hnone' : ¬ t.ClaimFile task.taskId := fun hfile => hnone (ht.claimFile _ hfile)
    have hsame : Finished R d w task.taskId t := .of_kept ht.toKept hnone'
    have hrest : Safe (contract R d) (removeByTimestamp task rest)
        (fun _ u => Finished R d w task.taskId u) E t := by
      refine (ih (hidle.kept ht.toKept) hnone').conseq (fun _ u _ hu => ?_) (fun _ _ _ h => h)
      exact ⟨hu.journal.trans hsame.journal, fun id hfile => hsame.claimFile id (hu.claimFile id hfile),
        hu.removed⟩
    cases (t.queue.find? taskId).map QueueFile.content with
    | none => exact hrest
    | some content =>
      dsimp only
      split
      · refine Safe.run fun u hu _ => ⟨fun _ a ha => ?_, fun _ _ _ v hv _ => ?_⟩
        · exact RunnerMailbox.not_accepted_of_idle ((hidle.kept ht.toKept).kept hu.toKept) a ha
        · exact ((hsame.kept hu.toKept).dropFile taskId).kept hv.toKept
      · exact hrest

/-- `finish_task`: afterwards no imported file of the task is queued. -/
theorem finishTask_safe {task : Task} {E : PyError → World → Prop} (hidle : w.Idle) :
    Safe (contract R d) (finishTask task) (fun _ t => Finished R d w task.taskId t) E w := by
  refine hasTask_then fun t ht _ => ?_
  have hidle' := hidle.kept ht.toKept
  split
  · refine Safe.run fun u hu _ => ⟨fun _ a ha => ?_, fun _ _ _ v hv _ => ?_⟩
    · exact RunnerMailbox.not_accepted_of_idle (hidle'.kept hu.toKept) a ha
    · have hk := ht.toKept.trans hu.toKept
      have hdropped : Finished R d w task.taskId (u.dropFile task.taskId) :=
        ⟨hk.journal, fun id hfile => hk.claimFile id (claimFile_dropFile hfile),
          not_claimFile_dropFile u task.taskId⟩
      exact hdropped.kept hv.toKept
  · next hhas =>
    refine taskIds_then fun u hu _ => ?_
    have hnone : ¬ u.ClaimFile task.taskId := by
      intro hfile
      obtain ⟨file, hfind, -⟩ := hu.claimFile _ hfile
      exact hhas (has_iff.mpr ⟨file, hfind⟩)
    refine (removeByTimestamp_safe (hidle'.kept hu.toKept) hnone).conseq (fun _ v _ hv => ?_)
      (fun _ _ _ h => h)
    have hk := ht.toKept.trans hu.toKept
    exact ⟨hv.journal.trans hk.journal, fun id hfile => hk.claimFile id (hv.claimFile id hfile),
      hv.removed⟩

end TaskQueue

/-! ## Choosing -/

namespace TaskRunner

open World

variable {R : Regime} {d : Deployment} {w : World}

/-- With no claim to accept and no accepted delivery, the runner is at rest. -/
theorem resting_of_polled (h : RunnerMailbox.Polled R none w)
    (hblocked : (w.journal.any fun a => decide (a.stage = .claimed ∨ a.stage = .imported)) = false) :
    Resting R w := by
  have hidle : w.Idle := by
    intro a ha
    have hnot : ¬ (a.stage = .claimed ∨ a.stage = .imported) := by simpa [ha] using hblocked
    have hwaiting := h.waiting rfl a ha
    cases hs : a.stage with
    | outcomePending o rejections => rfl
    | _ => simp [hs] at hnot hwaiting
  refine ⟨h.calm, hidle, fun hR => ?_⟩
  cases ha : w.journal with
  | none => rfl
  | some a =>
    have hsettled := h.settled rfl hR a ha
    rw [hidle a ha] at hsettled
    cases hsettled

theorem pollThen_safe {rest : Act (Option Task)} (hcalm : w.Calm R)
    (hrest : ∀ t, Resting R t →
      Safe (contract R d) rest (fun r u => Turn R r u) (fun _ => Calm R) t) :
    Safe (contract R d) (pollThen d rest) (fun r t => Turn R r t) (fun _ => Calm R) w := by
  refine Safe.bind ((RunnerMailbox.poll_safe hcalm).conseq (fun r t _ ht => ?_) (fun _ _ _ h => h))
  cases r with
  | some task =>
    intro u hu hI
    have hu' := ht.kept hu.toKept
    exact .of_ready hI hu'.calm (hu'.ready task rfl)
  | none =>
    refine RunnerMailbox.blocksExecution_then fun u hu _ => ?_
    have hu' := ht.kept hu.toKept
    split
    · exact fun v hv _ => ⟨hu'.calm.kept hv.toKept, by simp⟩
    · next hblocked => exact hrest u (resting_of_polled hu' (by simpa using hblocked))

theorem localFirst_safe (h : Resting R w) :
    Safe (contract R d) (localFirst d) (fun r t => Turn R r t) (fun _ => Calm R) w := by
  refine Safe.bind ((TaskQueue.getNextTask_safe h).conseq (fun r t _ ht => ?_) (fun _ _ _ h => h))
  cases r with
  | some task => exact fun u hu _ => ht.kept hu.toKept
  | none => exact pollThen_safe ht.calm fun _ => TaskQueue.getNextTask_safe

/-- **Choosing a task**, from any world the runner may have died in. -/
theorem chooseNext_safe (hcalm : w.Calm R) :
    Safe (contract R d) (chooseNext d) (fun r t => Turn R r t) (fun _ => Calm R) w := by
  refine active_then fun t ht _ => ?_
  split
  · exact pollThen_safe (hcalm.kept ht.toKept) fun _ => localFirst_safe
  · next hnone => exact localFirst_safe (resting_of_none (by simpa using hnone))

theorem idle_safe (hcalm : w.Calm R) :
    Safe (contract R d) (idle d) (fun r t => Turn R r t) (fun _ => Calm R) w := by
  refine active_then fun t ht _ => ?_
  split
  · exact chooseNext_safe (hcalm.kept ht.toKept)
  · next hnone =>
    have hresting : Resting R t := resting_of_none (by simpa using hnone)
    refine Safe.bind ((TaskQueue.getNextTask_safe hresting).conseq (fun r u _ hu => ?_)
      (fun _ _ _ h => h))
    cases r with
    | some task => exact fun v hv _ => hu.kept hv.toKept
    | none =>
      refine Safe.seq fun v hv _ => ⟨trivial, fun x _ _ => ?_⟩
      have hcalm' : Calm R ((effects d).exec .pollDue x v).2 := hu.calm.kept hv.toKept
      split
      · exact chooseNext_safe hcalm'
      · exact fun y hy _ => ⟨hcalm'.kept hy.toKept, by simp⟩

/-! ## Running -/

/-- Once the outcome is staged, if there is one. -/
theorem finishFile_safe {task : Task} (hidle : w.Idle)
    (hother : R.exact → ∀ a, w.journal = some a → a.taskId ≠ task.taskId →
      ¬ w.ClaimFile a.taskId) :
    Safe (contract R d) (TaskQueue.finishTask task >>= fun _ =>
        RunnerMailbox.owns task.taskId >>= fun owned =>
          if owned then (RunnerMailbox.flushPendingOutcome d >>= fun _ => chooseNext d)
          else chooseNext d)
      (fun r t => Turn R r t) (fun _ => Calm R) w := by
  refine Safe.bind ((TaskQueue.finishTask_safe hidle).conseq (fun _ t _ ht => ?_)
    (fun _ _ _ h => h))
  refine RunnerMailbox.owns_then fun u hu _ => ?_
  have hu' := ht.kept hu.toKept
  have hidle' : u.Idle := fun a ha => hidle a (hu'.journal ▸ ha)
  have hcalm : u.Calm R := by
    refine hidle'.calm fun hR a ha hfile => ?_
    by_cases hid : a.taskId = task.taskId
    · exact hu'.removed (hid ▸ hfile)
    · exact hother hR a (hu'.journal ▸ ha) hid (hu'.claimFile _ hfile)
  split
  · have hflushed : RunnerMailbox.Flushed R u.journal u :=
      ⟨hcalm, hidle', fun a ha => ⟨a, ha, rfl, rfl⟩⟩
    refine Safe.bind ((RunnerMailbox.flushPendingOutcome_safe hflushed).conseq
      (fun _ v _ hv => chooseNext_safe hv.1.calm) (fun _ _ _ h => h.1))
  · exact chooseNext_safe hcalm

/-- What follows an execution: the outcome of a delivery is staged, the file
removed, the outcome delivered, the next task chosen. -/
theorem finish_safe {task : Task} {stage : Act Unit} (hcalm : w.Calm R) (hrun : w.Runnable task)
    (hsettled : R.settles → ∀ a, w.journal = some a → a.stage = .accepted)
    (hstage : ∀ t a, RunnerMailbox.Stageable R t a → t.Calm R → a.taskId = task.taskId →
      Safe (contract R d) stage (fun _ u => RunnerMailbox.Staged R t a u) (fun _ => Calm R) t) :
    Safe (contract R d) (finish d task stage) (fun r t => Turn R r t) (fun _ => Calm R) w := by
  refine RunnerMailbox.owns_then fun t ht _ => ?_
  have hrun' := hrun.kept ht.toKept
  have hcalm' := hcalm.kept ht.toKept
  dsimp only
  split
  · next howned =>
    obtain ⟨a, ha, hid⟩ := (Option.any_eq_true _ _).mp howned
    have hid : a.taskId = task.taskId := by simpa using hid
    have hblocked := hrun'.blocked a ha
    refine Safe.bind ((hstage t a ⟨ha, hblocked.2, fun hs => absurd hs hblocked.1,
      fun hR => hsettled hR a (ht.journal ▸ ha)⟩ hcalm' hid).conseq (fun _ u _ hu => ?_) (fun _ _ _ h => h))
    obtain ⟨o, rejections, hw⟩ := hu
    refine finishFile_safe (RunnerMailbox.Staged.idle ⟨o, rejections, hw⟩) fun _ a' ha' hne => ?_
    rw [hw.journal] at ha'
    cases ha'
    exact absurd hid hne
  · next howned =>
    have hnotOwned : ∀ a, t.journal = some a → a.taskId ≠ task.taskId := by
      intro a ha hid
      exact howned (by simp [ha, hid])
    have hidle : t.Idle := by
      intro a ha
      have hblocked := hrun'.blocked a ha
      cases hs : a.stage with
      | claimed => exact absurd hs hblocked.1
      | imported => exact absurd hs hblocked.2
      | accepted =>
        -- an accepted delivery is the task that ran
        refine absurd ?_ (hnotOwned a ha)
        rw [Task.taskId, hrun'.delivery a ha hs]
        rfl
      | outcomePending o rejections => rfl
    exact finishFile_safe hidle fun hR a ha _ => hcalm'.finished hR a ha (hidle a ha)

/-- Logs and history have no part in what may be lost. -/
theorem calm_of_eq {t : World} (h : w.Calm R) (hj : t.journal = w.journal)
    (hq : t.queue = w.queue) : t.Calm R := by
  obtain ⟨finished, imported⟩ := h
  constructor <;> simp only [ClaimFile, has, hj, hq] <;> assumption

theorem runnable_of_eq {t : World} {task : Task} (h : w.Runnable task)
    (hj : t.journal = w.journal) (hhistory : ∀ e, e ∈ w.history → e ∈ t.history) :
    t.Runnable task :=
  ⟨fun a ha => h.blocked a (hj ▸ ha), fun a ha => h.delivery a (hj ▸ ha),
    fun taskId hover => hhistory _ (h.accepted taskId hover)⟩

/-- What an execution leaves alone. -/
theorem execute_frame (task : Task) (x : Choice) (w : World) :
    (w.exec d (.execute task) x).2.journal = w.journal ∧
      (w.exec d (.execute task) x).2.queue = w.queue ∧
      ∀ e, e ∈ w.history → e ∈ (w.exec d (.execute task) x).2.history := by
  simp only [exec]
  split
  · exact ⟨rfl, rfl, fun _ => id⟩
  · exact ⟨rfl, rfl, fun _ => List.mem_cons_of_mem _⟩

/-- **Running a task**: it is announced, executed, recorded and reported. -/
theorem runTask_safe {task : Task} (h : Turn R (some task) w) :
    Safe (contract R d) (runTask d task) (fun r t => Turn R r t) (fun _ => Calm R) w := by
  refine Safe.seq fun t ht _ => ?_
  obtain ⟨hcalm, hchosen⟩ := h.kept ht.toKept
  have hchosen := hchosen task rfl
  refine ⟨fun taskId hover => ⟨hchosen.runnable.accepted taskId hover, fun hR task' hover' hmem =>
    hchosen.fresh hR taskId hover ⟨task', hmem, hover'⟩⟩, fun _ _ _ => ?_⟩
  -- from here on the task may have been recorded
  have hcalm : (t.log (.starting task)).Calm R := calm_of_eq hcalm rfl rfl
  have hrun : (t.log (.starting task)).Runnable task :=
    runnable_of_eq hchosen.runnable rfl fun _ => List.mem_cons_of_mem _
  have hsettled : R.settles → ∀ a, (t.log (.starting task)).journal = some a →
      a.stage = .accepted := hchosen.settled
  refine Safe.seq fun u hu _ => ⟨hrun.kept hu.toKept, fun x _ _ => ?_⟩
  obtain ⟨hj, hq, hhistory⟩ := execute_frame (d := d) task x u
  have hcalm := calm_of_eq (hcalm.kept hu.toKept) hj hq
  have hrun := runnable_of_eq (hrun.kept hu.toKept) hj hhistory
  have hsettled : R.settles → ∀ a, (u.exec d (.execute task) x).2.journal = some a →
      a.stage = .accepted := fun hR a ha => hsettled hR a (hu.journal ▸ hj ▸ ha)
  cases herror : ((effects d).exec (.execute task) x u).1 with
  | some error =>
    refine Safe.seq fun v hv _ => ⟨hrun.kept hv.toKept, fun y _ _ => ?_⟩
    refine finish_safe (calm_of_eq (hcalm.kept hv.toKept) rfl rfl)
      (runnable_of_eq (hrun.kept hv.toKept) rfl fun _ => List.mem_cons_of_mem _)
      (fun hR a ha => hsettled hR a (hv.journal ▸ ha)) fun y a hy _ hid => ?_
    rw [← hid]
    exact RunnerMailbox.stageFailure_safe hy
  | none =>
    refine finish_safe hcalm hrun hsettled fun y a hy hcalm' hid => ?_
    rw [← hid]
    exact (RunnerMailbox.stageSuccess_safe hy (by simp)).conseq (fun _ _ _ h => h)
      (fun _ _ _ h => hcalm'.kept h.1)

end TaskRunner

end Conductress
