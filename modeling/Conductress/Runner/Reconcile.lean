import Conductress.Runner.Delivery

/-!
# Reconciliation

`reconcile` takes the active delivery on from wherever a death has left it. It
ends with a task that was accepted and never recorded, with a claim that still
has to be accepted, with an outcome that still has to be delivered, or with
the slot free.
-/

namespace Conductress

open Lib

namespace World

variable {R : Regime} {d : Deployment} {w : World} {α : Type}
  {Q : α → World → Prop} {E : PyError → World → Prop}

/-! ## Removing a file -/

/-- The world without a file of the queue. -/
def dropFile (w : World) (taskId : String) : World := { w with queue := w.queue.erase taskId }

theorem not_claimFile_dropFile (w : World) (taskId : String) :
    ¬ (w.dropFile taskId).ClaimFile taskId := by
  rintro ⟨f, hf, -⟩
  rw [dropFile, Table.find?_erase, if_pos rfl] at hf
  cases hf

theorem claimFile_dropFile {taskId removed : String} (h : (w.dropFile removed).ClaimFile taskId) :
    w.ClaimFile taskId := by
  obtain ⟨f, hf, hfrom⟩ := h
  rw [dropFile, Table.find?_erase] at hf
  split at hf
  · cases hf
  · exact ⟨f, hf, hfrom⟩

theorem removeTask_then {taskId : String} {f : Unit → Act α}
    (hguard : R.recovers → ∀ a, w.journal = some a → a.stage = .accepted → a.taskId ≠ taskId)
    (h : ∀ t, Rely R d w t → Inv R d t → Safe (contract R d) (f ()) Q E (t.dropFile taskId)) :
    Safe (contract R d) (TaskQueue.removeTask taskId >>= f) Q E w := by
  refine Safe.seq fun t hr hI => ⟨fun hR a ha => hguard hR a (hr.journal ▸ ha), fun _ _ _ => ?_⟩
  exact h t hr hI

/-- A stage that no death can harm. -/
theorem calm_of_stage {a : Active} (ha : w.journal = some a) (hpending : a.stage.isPending = false)
    (himported : R.recovers → a.stage = .imported → w.has a.taskId = true) : w.Calm R where
  finished _ a' ha' hp := by
    cases ha.symm.trans ha'
    rw [hpending] at hp
    cases hp
  imported hR a' ha' hs := by
    cases ha.symm.trans ha'
    exact himported hR hs

end World

namespace RunnerMailbox

open World

variable {R : Regime} {d : Deployment} {w : World} {α : Type}
  {Q : α → World → Prop} {E : PyError → World → Prop}

/-! ## Where reconciliation ends -/

/-- The task is the active delivery, accepted, and never recorded. -/
def Ready (R : Regime) (w : World) (task : Task) : Prop :=
  ∃ a, w.journal = some a ∧ a.stage = .accepted ∧ task.override = some a.taskId ∧
    (R.exact → ¬ w.Recorded a.taskId)

/-- What the answer of `poll` means. -/
structure Polled (R : Regime) (answer : Option Task) (w : World) : Prop where
  calm    : w.Calm R
  ready   : ∀ task, answer = some task → Ready R w task
  waiting : answer = none → ∀ a, w.journal = some a → a.stage ≠ .accepted
  settled : answer = none → R.settles → ∀ a, w.journal = some a → a.stage.isPending = false

/-- What the answer of `reconcile` means: also, the delivery is the same. -/
structure Reconciled (R : Regime) (j : Option Active) (answer : Option Task) (w : World) : Prop
    extends Polled R answer w where
  same : w.Same j

/-- An exception of `reconcile` leaves a calm world, and there is none in a
regime that recovers. -/
def Broken (R : Regime) (w : World) : Prop := w.Calm R ∧ ¬ R.recovers

theorem Flushed.reconciled {j : Option Active} (h : Flushed R j w)
    (hsettles : R.settles → w.journal = none) : Reconciled R j none w where
  calm := h.calm
  ready _ hsome := by cases hsome
  waiting _ a ha haccepted := by
    have hpending := h.idle a ha
    simp [haccepted, Stage.isPending] at hpending
  settled _ hR a ha := by
    rw [hsettles hR] at ha
    cases ha
  same := h.same

theorem Flushed.dropFile {j : Option Active} (h : Flushed R j w) (taskId : String) :
    Flushed R j (w.dropFile taskId) where
  calm := Idle.calm h.idle fun hR a ha hfile =>
    h.calm.finished hR a ha (h.idle a ha) (claimFile_dropFile hfile)
  idle := h.idle
  same := h.same

/-! ## Outcomes of the active delivery -/

/-- Outside of a delivery that loads and has no record, an outcome may be
staged: it was accepted, or its file was never imported. -/
theorem stageable {a : Active} (hI : Inv R d w) (ha : w.journal = some a)
    (hpending : a.stage.isPending = false)
    (hnot : ¬ (a.Loads d.classes ∧ w.NoRecord a.taskId)) : Stageable R w a where
  active := ha
  imported hs := hnot (hI.custody.imported a ha (.inl hs))
  claimFile hs hfile := hnot (hI.custody.imported a ha (.inr ⟨hs, hfile⟩))
  settles hR := by
    cases hs : a.stage with
    | claimed => exact absurd (hI.settled.claimed hR a ha hs) hnot
    | imported => exact absurd (hI.custody.imported a ha (.inl hs)) hnot
    | accepted => rfl
    | outcomePending o rejections => simp [hs, Stage.isPending] at hpending

/-- A pending outcome with no imported file is ready to be delivered. -/
theorem flushed_of_pending {a : Active} {o : TaskOutcome} {rejections : List Rejection}
    (hj : w.journal = some { a with stage := .outcomePending o rejections })
    (hfile : R.exact → ¬ w.ClaimFile a.taskId) : Flushed R (some a) w := by
  have hidle : w.Idle := by
    intro a' ha'
    rw [hj] at ha'
    cases ha'
    rfl
  refine ⟨hidle.calm fun hR a' ha' => ?_, hidle, fun a' ha' => ?_⟩
  · rw [hj] at ha'
    cases ha'
    exact hfile hR
  · rw [hj] at ha'
    cases ha'
    exact ⟨a, rfl, rfl, rfl⟩

theorem Staged.idle {a : Active} {u : World} (h : Staged R w a u) : u.Idle := by
  obtain ⟨o, rejections, hw⟩ := h
  intro a' ha'
  rw [hw.journal] at ha'
  cases ha'
  rfl

/-- An idle journal has no accepted entry. -/
theorem not_accepted_of_idle (h : w.Idle) {taskId : String} (a : Active) (ha : w.journal = some a)
    (hs : a.stage = .accepted) : a.taskId ≠ taskId := by
  have hpending := h a ha
  simp [hs, Stage.isPending] at hpending

/-- An executed task: its outcome is staged, its file removed, the outcome
delivered. -/
theorem deliverRecorded_safe {a : Active} {stage : Act Unit}
    (hstage : Safe (contract R d) stage (fun _ u => Staged R w a u) (fun _ => Broken R) w) :
    Safe (contract R d) (deliverRecorded d a.taskId stage)
      (fun r t => Reconciled R (some a) r t) (fun _ => Broken R) w := by
  refine Safe.bind (hstage.conseq (fun _ t _ ht => ?_) (fun _ _ _ h => h))
  refine removeTask_then (fun _ => not_accepted_of_idle ht.idle) fun u hu _ => ?_
  obtain ⟨o, rejections, hw⟩ := ht
  have hflushed : Flushed R (some a) (u.dropFile a.taskId) :=
    flushed_of_pending (hu.journal.trans hw.journal) fun _ => not_claimFile_dropFile u a.taskId
  refine Safe.bind ((flushPendingOutcome_safe hflushed).conseq (fun _ v _ hv => ?_)
    (fun _ _ _ h => ⟨h.1, h.2.1⟩))
  exact fun x hx _ => (hv.1.kept hx.toKept).reconciled fun hR => hx.journal.trans (hv.2 hR)

/-- A task that cannot be loaded is reported as failed. -/
theorem failUnloadableTask_safe {a : Active} {message : String} (hI : Inv R d w)
    (ha : w.journal = some a) (hpending : a.stage.isPending = false)
    (hnot : ¬ a.Loads d.classes) :
    Safe (contract R d) (failUnloadableTask d a.taskId message)
      (fun _ t => Flushed R (some a) t ∧ (R.settles → t.journal = none)) (fun _ => Broken R) w := by
  have hstageable := stageable hI ha hpending fun h => hnot h.1
  have hnofile : ¬ w.ClaimFile a.taskId := by
    intro hfile
    cases hs : a.stage with
    | claimed => exact hstageable.claimFile hs hfile
    | imported => exact hstageable.imported hs
    | accepted => exact hnot (hI.custody.loads a ha hs)
    | outcomePending o rejections => simp [hs, Stage.isPending] at hpending
  refine Safe.bind ((stageFailure_safe hstageable).conseq (fun _ t _ ht => ?_) (fun _ _ _ h => h))
  obtain ⟨o, rejections, hw⟩ := ht
  have hflushed : Flushed R (some a) t :=
    flushed_of_pending hw.journal fun _ hfile => hnofile (hw.claimFile _ hfile)
  refine Safe.bind ((flushPendingOutcome_safe hflushed).conseq (fun _ u _ hu => ?_)
    (fun _ _ _ h => ⟨h.1, h.2.1⟩))
  exact fun v hv _ => ⟨hu.1.kept hv.toKept, fun hR => hv.journal.trans (hu.2 hR)⟩

/-! ## Importing -/

/-- What an import needs of the entry, and what it leaves. -/
structure Importable (R : Regime) (d : Deployment) (w : World) (a : Active) : Prop where
  active   : w.journal = some a
  claimed  : a.stage = .claimed
  loads    : a.Loads d.classes
  noRecord : w.NoRecord a.taskId

theorem Importable.kept {a : Active} {t : World} (h : Importable R d w a) (hk : Kept R d w t) :
    Importable R d t a :=
  ⟨hk.journal.trans h.active, h.claimed, h.loads, hk.noRecord.mpr h.noRecord⟩

theorem Importable.broken {a : Active} (h : Importable R d w a) (hnot : ¬ R.recovers) :
    Broken R w :=
  ⟨calm_of_stage h.active (by rw [h.claimed]; rfl) fun hR => absurd hR hnot, hnot⟩

/-- `import_task` of a claimed body puts its file in the queue. -/
theorem importTask_safe {a : Active} (h : Importable R d w a)
    (habsent : R.recovers → w.has a.taskId = false) :
    Safe (contract R d) (TaskQueue.importTask d.classes a.envelope.task a.taskId)
      (fun _ t => Importable R d t a ∧ (R.recovers → t.has a.taskId = true))
      (fun _ => Broken R) w := by
  obtain ⟨task, htask⟩ := h.loads
  have hid : task.taskId = a.taskId := by
    rw [Task.taskId, (TaskClasses.fromDict_override htask).1]
    rfl
  unfold TaskQueue.importTask
  split
  · next hreserved =>
    -- an import that recovers takes the body
    refine fun t hr hI => (h.kept hr.toKept).broken fun hR => ?_
    rcases (hI.recoverable.clean hR a (hr.journal.trans h.active)).2 with ⟨-, hnone⟩ | ⟨m, hm | hm⟩
    · simp [hnone] at hreserved
    · rw [htask] at hm
      cases hm
    · rw [htask] at hm
      cases hm
  · rw [htask]
    change Safe (contract R d) (Prog.run (.readTask task.taskId) >>= _) _ _ w
    rw [hid]
    refine readTask_then fun t hr hI => ?_
    have ht := h.kept hr.toKept
    cases hfile : t.queue.find? a.taskId with
    | some file =>
      -- a file that came in between is nobody's when the runner recovers
      have hhas : t.has a.taskId = true := has_iff.mpr ⟨file, hfile⟩
      have hnot : ¬ R.recovers := by
        intro hR
        have habs := hr.absent hR a h.active h.claimed (habsent hR)
        rw [hhas] at habs
        cases habs
      change Safe (contract R d) (if _ then _ else _) _ _ t
      split
      · exact fun u hu _ => ⟨ht.kept hu.toKept, fun hR => absurd hR hnot⟩
      · exact fun u hu _ => (ht.kept hu.toKept).broken hnot
    | none =>
      refine Safe.run fun u hu hI' => ⟨⟨a, hu.journal.trans ht.active, h.claimed, rfl, rfl, h.loads,
        (ht.kept hu.toKept).noRecord⟩, fun x _ _ v hv _ => ?_⟩
      have hu' := ht.kept hu.toKept
      have hinstalled : Importable R d { u with queue := u.queue.put ⟨a.taskId, some (.obj
          (TaskQueue.persisted a.envelope.task a.taskId))⟩ } a :=
        ⟨hu'.active, hu'.claimed, hu'.loads, hu'.noRecord⟩
      refine ⟨hinstalled.kept hv.toKept, fun hR => hv.has hR a hu'.active ?_⟩
      change ((u.queue.put _).find? a.taskId).isSome = true
      rw [Table.find?_put, if_pos rfl]
      rfl

/-- `claimed` to `imported`. -/
theorem importClaimed_safe {a : Active} (h : Importable R d w a) :
    Safe (contract R d) (importClaimed d a)
      (fun _ t => t.journal = some { a with stage := .imported } ∧
        (R.recovers → t.has a.taskId = true)) (fun _ => Broken R) w := by
  have hmove : ∀ t, Importable R d t a → (R.recovers → t.has a.taskId = true) →
      Safe (contract R d) (updateStage .imported) (fun _ u =>
        u.journal = some { a with stage := .imported } ∧ (R.recovers → u.has a.taskId = true))
        (fun _ => Broken R) t := by
    intro t ht hhas
    refine (updateStage_safe ht.active fun u hu _ => ?_).conseq (fun _ u _ hu => ?_)
      (fun _ _ _ h => h)
    · have hu' := ht.kept hu.toKept
      exact .import hu'.active hu'.claimed hu'.loads hu'.noRecord
    · exact ⟨hu.journal, fun hR => hu.has hR a ht.active rfl (hhas hR)⟩
  refine hasTask_then fun t ht _ => ?_
  have ht' := h.kept ht.toKept
  dsimp only
  split
  · next hhas => exact hmove t ht' fun _ => hhas
  · next hhas =>
    have habsent : t.has a.taskId = false := by simpa using hhas
    refine Safe.bind ((importTask_safe ht' fun _ => habsent).conseq (fun _ u _ hu => ?_)
      (fun _ _ _ h => h))
    exact hmove u hu.1 hu.2

/-! ## Accepting -/

theorem Broken.of_stage {a : Active} (ha : w.journal = some a)
    (hpending : a.stage.isPending = false) (hnot : ¬ R.recovers) : Broken R w :=
  ⟨calm_of_stage ha hpending fun hR => absurd hR hnot, hnot⟩

/-- What is known of an imported delivery that asks for its acceptance. -/
structure Asking (R : Regime) (w : World) (a : Active) : Prop where
  active : w.journal = some a
  stage  : a.stage = .imported
  has    : R.recovers → w.has a.taskId = true

theorem Asking.kept {a : Active} {t : World} (h : Asking R w a) (hk : Kept R d w t) :
    Asking R t a :=
  ⟨hk.journal.trans h.active, h.stage, fun hR => hk.has hR a h.active (h.has hR)⟩

/-- An imported delivery may wait. -/
theorem Asking.reconciled {a : Active} (h : Asking R w a) : Reconciled R (some a) none w where
  calm := calm_of_stage h.active (by rw [h.stage]; rfl) fun hR _ => h.has hR
  ready _ hsome := by cases hsome
  waiting _ a' ha' := by
    cases h.active.symm.trans ha'
    simp [h.stage]
  settled _ _ a' ha' := by
    cases h.active.symm.trans ha'
    simp [h.stage, Stage.isPending]
  same a' ha' := by
    cases h.active.symm.trans ha'
    exact ⟨a, rfl, rfl, rfl⟩

theorem Ready.kept {t : World} {task : Task} (h : Ready R w task) (hk : Kept R d w t) :
    Ready R t task := by
  obtain ⟨a, ha, hs, hover, hfresh⟩ := h
  refine ⟨a, hk.journal.trans ha, hs, hover, fun hR hrec => hfresh hR ?_⟩
  obtain ⟨task', hmem, hover'⟩ := hrec
  exact ⟨task', hk.recorded task' hmem, hover'⟩

/-- A delivery that is ready answers the task. -/
theorem Ready.reconciled {task : Task} {a : Active} (h : Ready R w task)
    (ha : w.journal = some a) : Reconciled R (some a) (some task) w := by
  obtain ⟨a', ha', hs, hover, hfresh⟩ := h
  cases ha.symm.trans ha'
  exact {
    calm := calm_of_stage ha (by rw [hs]; rfl) fun _ himported => by simp [hs] at himported
    ready := fun _ hsome => by
      cases hsome
      exact ⟨a, ha, hs, hover, hfresh⟩
    waiting := fun hnone => by cases hnone
    settled := fun hnone => by cases hnone
    same := fun a' ha' => by
      cases ha.symm.trans ha'
      exact ⟨a, rfl, rfl, rfl⟩ }

/-- An accepted task is in the queue until it has an outcome. -/
theorem requireFile_safe {a b : Active} {task : Task} (h : Ready R w task)
    (hb : w.journal = some b) (hs : b.stage = .accepted) (hid : a.taskId = b.taskId) :
    Safe (contract R d) (requestAcceptance.requireFile a task)
      (fun r t => Reconciled R (some b) r t) (fun _ => Broken R) w := by
  refine hasTask_then fun t ht hI => ?_
  have hb' := ht.journal.trans hb
  split
  · exact fun u hu _ => ((h.kept ht.toKept).kept hu.toKept).reconciled (hu.journal.trans hb')
  · next hhas =>
    refine fun u hu _ => .of_stage (hu.journal.trans hb') (by rw [hs]; rfl) fun hR => hhas ?_
    rw [hid]
    exact hI.recoverable.file hR b hb' hs

/-- The same delivery in another stage. -/
theorem Reconciled.of_same {a b : Active} {r : Option Task} (h : Reconciled R (some b) r w)
    (hid : b.taskId = a.taskId) (htoken : b.claimToken = a.claimToken) :
    Reconciled R (some a) r w where
  toPolled := h.toPolled
  same a' ha' := by
    obtain ⟨_, hsome, hid', htoken'⟩ := h.same a' ha'
    cases hsome
    exact ⟨a, rfl, hid'.trans hid, htoken'.trans htoken⟩

/-- The journal after a claim was given up. -/
theorem reconciled_of_none {j : Option Active} (h : w.journal = none) : Reconciled R j none w :=
  (Flushed.of_none h).reconciled fun _ => h

/-- **Acceptance**: the task is ready when the service grants it; a claim that
is refused for good is given up, and the slot is free. -/
theorem requestAcceptance_safe {a b : Active} {task : Task} (h : Asking R w b)
    (hid : b.taskId = a.taskId) (htoken : b.claimToken = a.claimToken)
    (hover : task.override = some a.taskId) :
    Safe (contract R d) (requestAcceptance a task)
      (fun r t => Reconciled R (some b) r t) (fun _ => Broken R) w := by
  have hpending : b.stage.isPending = false := by rw [h.stage]; rfl
  refine hasTask_then fun t ht hI => ?_
  have ht := h.kept ht.toKept
  split
  · have hasks : t.Asks (.accept a.taskId a.claimToken) :=
      ⟨b, ht.active, ht.stage, hid, htoken⟩
    refine Safe.bind ((FleetClient.request_safe hasks).conseq (fun r u hI' hu => ?_)
      (fun e u hI' hu => .of_stage (hu.1.journal.trans ht.active) hpending fun hR => ?_))
    · obtain ⟨hk, hanswered⟩ := hu
      have hu := ht.kept hk
      cases r with
      | error e =>
        dsimp only
        split
        · next hgives =>
          -- the claim is gone for good: its file goes first, then the entry
          obtain ⟨huntaken, token, hsome, hlt, hdead⟩ := hanswered hgives
          refine removeTask_then (fun _ a' ha' hs => ?_) fun v hv _ => ?_
          · cases hu.active.symm.trans ha'
            simp [h.stage] at hs
          · refine Safe.seq fun x hx _ => ⟨⟨b, ?_, h.stage, ?_, ?_, token, ?_, ?_⟩, ?_⟩
            · exact hx.journal.trans (hv.journal.trans hu.active)
            · rw [hid]
              exact (hx.untaken _ (hv.untaken _ huntaken)).1
            · rw [hid]
              exact fun hfile => not_claimFile_dropFile v a.taskId (hx.claimFile _ hfile)
            · exact htoken.trans hsome
            · rw [hid]
              exact hx.notLive _ _ (hlt.trans_le hv.tokens) (hv.notLive _ _ hlt hdead)
            · intro _ _ _ y hy _
              refine reconciled_of_none ?_
              have hxj := hx.journal.trans (hv.journal.trans hu.active)
              rw [hy.journal]
              simp [effects, exec, hxj, World.log]
        · exact fun v hv _ => (hu.kept hv.toKept).reconciled
      | ok reply =>
        obtain ⟨hpast, hgranted, hopen⟩ := hanswered
        have hmove : ∀ v, Rely R d u v → Inv R d v → v.Move R d { b with stage := .accepted } := by
          intro v hv hI''
          have hv' := hu.kept hv.toKept
          refine .accept hv'.active h.stage ?_ ?_ (fun hR => ?_) hv'.has
          · rw [hid]
            exact hv.stands _ closed_past _ hpast
          · rw [hid]
            exact hv.history _ hgranted
          · exact hv.isOpen hR b hu.active h.stage (hid ▸ hopen hR)
        have hfresh : ¬ u.Recorded b.taskId := fun hrec =>
          hI'.custody.fresh b hu.active (.inr h.stage) (hI'.custody.accepted_of_recorded hrec)
        refine Safe.bind ((updateStage_safe hu.active hmove).conseq (fun _ v _ hv => ?_)
          (fun _ _ _ h => h))
        have hready : Ready R v task := by
          refine ⟨_, hv.journal, rfl, hover.trans (by rw [hid]), fun _ hrec => hfresh ?_⟩
          obtain ⟨task', hmem, hover'⟩ := hrec
          exact ⟨task', hv.recorded task' hmem, hover'⟩
        refine (requireFile_safe hready hv.journal rfl hid.symm).conseq (fun r x _ hx => ?_)
          (fun _ _ _ h => h)
        exact hx.of_same rfl rfl
    · have hclean := (hI'.recoverable.clean hR b (hu.1.journal.trans ht.active)).1
      rw [hid] at hclean
      have hrefused := hu.2 (.inr hR)
      simp [FleetClient.pathId, hclean] at hrefused
  · next hhas =>
    refine fun u hu _ => .of_stage (hu.journal.trans ht.active) hpending fun hR => hhas ?_
    rw [← hid]
    exact ht.has hR

/-! ## Reconciling -/

/-- A delivery with no record of its execution. -/
theorem resumeDelivery_safe {a : Active} {task : Task} (hI : Inv R d w) (hcalm : w.Calm R)
    (ha : w.journal = some a) (hpending : a.stage.isPending = false)
    (htask : d.classes.fromDict (.obj a.envelope.task) (.str a.taskId) = .ok task)
    (hnone : w.NoRecord a.taskId) :
    Safe (contract R d) (resumeDelivery d a task)
      (fun r t => Reconciled R (some a) r t) (fun _ => Broken R) w := by
  have hover := (TaskClasses.fromDict_override htask).1
  unfold resumeDelivery
  split
  · next hs =>
    refine Safe.bind ((importClaimed_safe ⟨ha, hs, ⟨task, htask⟩, hnone⟩).conseq
      (fun _ t _ ht => ?_) (fun _ _ _ h => h))
    refine (requestAcceptance_safe ⟨ht.1, rfl, ht.2⟩ rfl rfl hover).conseq (fun r u _ hu => ?_)
      (fun _ _ _ h => h)
    exact hu.of_same rfl rfl
  · next hs =>
    exact requestAcceptance_safe ⟨ha, hs, fun hR => hcalm.imported hR a ha hs⟩ rfl rfl hover
  · next hclaimed himported =>
    have hs : a.stage = .accepted := by
      cases hs : a.stage with
      | claimed => exact absurd hs hclaimed
      | imported => exact absurd hs himported
      | accepted => rfl
      | outcomePending o rejections => simp [hs, Stage.isPending] at hpending
    refine requireFile_safe ⟨a, ha, hs, hover, fun hR hrec => ?_⟩ ha hs rfl
    exact hI.once.found hR a ha hs hrec hnone

theorem reconcileLoaded_safe {a : Active} {task : Task} (hcalm : w.Calm R)
    (ha : w.journal = some a) (hpending : a.stage.isPending = false)
    (htask : d.classes.fromDict (.obj a.envelope.task) (.str a.taskId) = .ok task) :
    Safe (contract R d) (reconcileLoaded d a task)
      (fun r t => Reconciled R (some a) r t) (fun _ => Broken R) w := by
  have hid : task.taskId = a.taskId := by
    rw [Task.taskId, (TaskClasses.fromDict_override htask).1]
    rfl
  unfold reconcileLoaded
  rw [if_pos hid]
  refine findResult_then fun t ht hI' => ?_
  have ha' := ht.journal.trans ha
  cases hresult : t.findResult a.taskId with
  | some result =>
    have hstageable := stageable hI' ha' hpending fun h => absurd h.2.1 (by simp [hresult])
    refine deliverRecorded_safe ((stageSuccess_safe hstageable ?_).conseq (fun _ _ _ h => h)
      (fun _ _ _ h => .of_stage (h.1.journal.trans ha') hpending h.2))
    rintro _ ⟨⟩
    exact hresult
  | none =>
    refine findFailure_then fun u hu hI'' => ?_
    have ha'' := hu.journal.trans ha'
    cases hfailure : u.findFailure a.taskId with
    | some error =>
      refine deliverRecorded_safe (stageFailure_safe (stageable hI'' ha'' hpending fun h => ?_))
      exact absurd h.2.2 (by simp [hfailure])
    | none =>
      have hnone : u.NoRecord a.taskId := by
        refine ⟨?_, hfailure⟩
        rw [← hresult, findResult, findResult, hu.output]
      exact resumeDelivery_safe hI'' ((hcalm.kept ht.toKept).kept hu.toKept) ha'' hpending htask
        hnone

/-- **Reconciliation** ends with the same delivery where it may wait or run,
or with the slot free; in a regime that recovers it does not raise. -/
theorem reconcile_safe (hcalm : w.Calm R) :
    Safe (contract R d) (reconcile d) (fun r t => Reconciled R w.journal r t)
      (fun _ => Broken R) w := by
  refine active_then fun t ht hI => ?_
  have hcalm := hcalm.kept ht.toKept
  rw [← ht.journal]
  cases ha : t.journal with
  | none => exact fun u hu _ => reconciled_of_none (hu.journal.trans ha)
  | some a =>
    dsimp only
    split
    · next hpending =>
      have hflushed : Flushed R (some a) t := by
        refine ⟨hcalm, fun a' ha' => ?_, fun a' ha' => ?_⟩
        · cases ha.symm.trans ha'
          exact hpending
        · cases ha.symm.trans ha'
          exact ⟨a, rfl, rfl, rfl⟩
      refine Safe.bind ((flushPendingOutcome_safe hflushed).conseq (fun _ u _ hu => ?_)
        (fun _ _ _ h => ⟨h.1, h.2.1⟩))
      exact fun v hv _ => (hu.1.kept hv.toKept).reconciled fun hR => hv.journal.trans (hu.2 hR)
    · next hpending =>
      have hpending : a.stage.isPending = false := by simpa using hpending
      have hunloadable : ∀ message, ¬ a.Loads d.classes → Safe (contract R d)
          (failUnloadableTask d a.taskId message >>= fun _ =>
            TaskQueue.removeTask a.taskId >>= fun _ => (.pure none : Act (Option Task)))
          (fun r t => Reconciled R (some a) r t) (fun _ => Broken R) t := by
        intro message hnot
        refine Safe.bind ((failUnloadableTask_safe hI ha hpending hnot).conseq
          (fun _ u _ hu => ?_) (fun _ _ _ h => h))
        refine removeTask_then (fun _ => not_accepted_of_idle hu.1.idle) fun v hv _ => ?_
        have hdropped := (hu.1.kept hv.toKept).dropFile a.taskId
        exact fun x hx _ => (hdropped.kept hx.toKept).reconciled fun hR =>
          hx.journal.trans (hv.journal.trans (hu.2 hR))
      cases htask : d.classes.fromDict (.obj a.envelope.task) (.str a.taskId) with
      | ok task => exact reconcileLoaded_safe hcalm ha hpending htask
      | error e =>
        have hnot : ¬ a.Loads d.classes := by
          rintro ⟨task, hok⟩
          rw [htask] at hok
          cases hok
        have hother : (∀ m, e ≠ .valueError m) → (∀ m, e ≠ .typeError m) →
            Safe (contract R d) (.raise e : Act (Option Task))
              (fun r t => Reconciled R (some a) r t) (fun _ => Broken R) t := by
          intro hvalue htype u hu hI'
          refine ⟨hcalm.kept hu.toKept, fun hR => ?_⟩
          rcases (hI'.recoverable.clean hR a (hu.journal.trans ha)).2 with
            ⟨hloads, -⟩ | ⟨m, hm | hm⟩
          · exact hnot hloads
          · rw [htask] at hm
            exact hvalue m (Except.error.inj hm)
          · rw [htask] at hm
            exact htype m (Except.error.inj hm)
        cases e with
        | valueError m | typeError m => exact hunloadable m hnot
        | _ => exact hother (by simp) (by simp)

end RunnerMailbox

end Conductress
