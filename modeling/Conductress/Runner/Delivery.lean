import Conductress.Runner.Requests

/-!
# The mailbox keeps its promises

The contracts of the programs that write the journal: staging an outcome, the
ladder of `flush_pending_outcome` and reconciliation. Each says from which
worlds the program keeps every promise of `World.Guard`, and where it ends.
-/

namespace Conductress

open Lib

namespace World

variable {R : Regime} {d : Deployment} {w : World} {α : Type}
  {Q : α → World → Prop} {E : PyError → World → Prop}

/-! ## Reads -/

theorem active_then {f : Option Active → Act α}
    (h : ∀ t, Rely R d w t → Inv R d t → Safe (contract R d) (f t.journal) Q E t) :
    Safe (contract R d) (Prog.run .active >>= f) Q E w :=
  Safe.seq fun t hr hI => ⟨trivial, fun _ _ _ => h t hr hI⟩

theorem hasTask_then {taskId : String} {f : Bool → Act α}
    (h : ∀ t, Rely R d w t → Inv R d t → Safe (contract R d) (f (t.has taskId)) Q E t) :
    Safe (contract R d) (Prog.run (.hasTask taskId) >>= f) Q E w :=
  Safe.seq fun t hr hI => ⟨trivial, fun _ _ _ => h t hr hI⟩

theorem taskIds_then {f : List String → Act α}
    (h : ∀ t, Rely R d w t → Inv R d t →
      Safe (contract R d) (f (t.queue.rows.map QueueFile.id)) Q E t) :
    Safe (contract R d) (Prog.run .taskIds >>= f) Q E w :=
  Safe.seq fun t hr hI => ⟨trivial, fun _ _ _ => h t hr hI⟩

theorem readTask_then {taskId : String} {f : Option (Option Json) → Act α}
    (h : ∀ t, Rely R d w t → Inv R d t →
      Safe (contract R d) (f ((t.queue.find? taskId).map QueueFile.content)) Q E t) :
    Safe (contract R d) (Prog.run (.readTask taskId) >>= f) Q E w :=
  Safe.seq fun t hr hI => ⟨trivial, fun _ _ _ => h t hr hI⟩

theorem findResult_then {taskId : String} {f : Option Fields → Act α}
    (h : ∀ t, Rely R d w t → Inv R d t → Safe (contract R d) (f (t.findResult taskId)) Q E t) :
    Safe (contract R d) (Prog.run (.findResult taskId) >>= f) Q E w :=
  Safe.seq fun t hr hI => ⟨trivial, fun _ _ _ => h t hr hI⟩

theorem findFailure_then {taskId : String} {f : Option String → Act α}
    (h : ∀ t, Rely R d w t → Inv R d t → Safe (contract R d) (f (t.findFailure taskId)) Q E t) :
    Safe (contract R d) (Prog.run (.findFailure taskId) >>= f) Q E w :=
  Safe.seq fun t hr hI => ⟨trivial, fun _ _ _ => h t hr hI⟩

theorem utcText_then {f : String → Act α}
    (h : ∀ t, Rely R d w t → Inv R d t → (R.recovers → t.Trims d) →
      Safe (contract R d) (f (Conductress.utcText t.now)) Q E t) :
    Safe (contract R d) (Prog.run .utcText >>= f) Q E w :=
  Safe.seq fun t hr hI => ⟨trivial, fun _ htrims _ => h t hr hI htrims⟩

/-! ## Contexts -/

/-- Nothing but an undelivered outcome is active. -/
def Idle (w : World) : Prop := ∀ a, w.journal = some a → a.stage.isPending = true

/-- The active delivery, if any, is the one that was. -/
def Same (j : Option Active) (w : World) : Prop :=
  ∀ a, w.journal = some a → ∃ a₀, j = some a₀ ∧ a.taskId = a₀.taskId ∧ a.claimToken = a₀.claimToken

theorem Calm.kept {t : World} (h : w.Calm R) (hk : Kept R d w t) : t.Calm R where
  finished hR a ha hstage hfile := h.finished hR a (hk.journal ▸ ha) hstage (hk.claimFile _ hfile)
  imported hR a ha hstage :=
    hk.has hR a (hk.journal ▸ ha) (h.imported hR a (hk.journal ▸ ha) hstage)

theorem Idle.kept {t : World} (h : w.Idle) (hk : Kept R d w t) : t.Idle :=
  fun a ha => h a (hk.journal ▸ ha)

theorem Same.kept {t : World} {j : Option Active} (h : w.Same j) (hk : Kept R d w t) : t.Same j :=
  fun a ha => h a (hk.journal ▸ ha)

/-- With nothing active there is nothing to lose. -/
theorem calm_of_none (h : w.journal = none) : w.Calm R :=
  ⟨fun _ a ha => absurd ha (by simp [h]), fun _ a ha => absurd ha (by simp [h])⟩

theorem idle_of_none (h : w.journal = none) : w.Idle := fun a ha => absurd ha (by simp [h])

theorem same_of_none {j : Option Active} (h : w.journal = none) : w.Same j :=
  fun a ha => absurd ha (by simp [h])

/-- The delivery is not waiting for its acceptance with its file gone. -/
theorem Idle.calm (h : w.Idle) (hfile : R.exact → ∀ a, w.journal = some a → ¬ w.ClaimFile a.taskId) :
    w.Calm R where
  finished hR a ha _ := hfile hR a ha
  imported _ a ha hstage := by
    have hpending := h a ha
    simp [hstage, Stage.isPending] at hpending

/-! ## Durable writes -/

/-- What the world is like after an entry of the journal was written. -/
structure Written (R : Regime) (w : World) (a : Active) (u : World) : Prop where
  journal   : u.journal = some a
  staged    : .staged a.taskId a.stage ∈ u.history
  claimFile : ∀ taskId, u.ClaimFile taskId → w.ClaimFile taskId
  has       : R.recovers → ∀ a₀, w.journal = some a₀ → a₀.taskId = a.taskId →
    w.has a.taskId = true → u.has a.taskId = true
  recorded  : ∀ task, .recorded task ∈ u.history → .recorded task ∈ w.history

/-- A write from a world that keeps what an earlier one had. -/
theorem Written.after {t u : World} {a : Active} (h : Written R t a u) (hk : Kept R d w t) :
    Written R w a u where
  journal := h.journal
  staged := h.staged
  claimFile _ hfile := hk.claimFile _ (h.claimFile _ hfile)
  has hR a₀ ha₀ hid hhas := h.has hR a₀ (hk.journal.trans ha₀) hid
    (hid ▸ hk.has hR a₀ ha₀ (hid ▸ hhas))
  recorded task hmem := hk.recorded task (h.recorded task hmem)

theorem setActive_safe {a : Active} (hmove : ∀ t, Rely R d w t → Inv R d t → t.Move R d a) :
    Safe (contract R d) (Prog.run (.setActive a)) (fun _ u => Written R w a u) E w := by
  refine Safe.run fun t hr hI => ⟨hmove t hr hI, fun _ _ _ u hu _ => ?_⟩
  have hu : Rely R d (t.setActive a) u := hu
  exact {
    journal := hu.journal
    staged := hu.history _ List.mem_cons_self
    claimFile := fun taskId hfile => hr.claimFile _ (hu.claimFile _ hfile)
    has := fun hR a₀ ha₀ hid hhas => hu.has hR a rfl (hid ▸ hr.has hR a₀ ha₀ (hid ▸ hhas))
    recorded := fun task hmem => hr.recorded task (by simpa using List.mem_cons.mp (hu.recorded task hmem)) }

/-- `update_active(stage=..)` on an active entry. -/
theorem updateStage_safe {a : Active} {stage : Stage} (ha : w.journal = some a)
    (hmove : ∀ t, Rely R d w t → Inv R d t → t.Move R d { a with stage }) :
    Safe (contract R d) (RunnerMailbox.updateStage stage)
      (fun _ u => Written R w { a with stage } u) E w := by
  refine active_then fun t hr hI => ?_
  rw [hr.journal, ha]
  exact (setActive_safe fun u hu hI' => hmove u (hr.trans hu) hI').conseq
    (fun _ u _ h => h.after hr.toKept) (fun _ _ _ h => h)

theorem recordDowngrade_then {taskId : String} {stage : Downgrade} {f : Unit → Act α}
    (h : ∀ t, Kept R d w t → Inv R d t → .downgraded taskId stage ∈ t.history →
      Safe (contract R d) (f ()) Q E t) :
    Safe (contract R d) (Prog.run (.recordDowngrade taskId stage) >>= f) Q E w := by
  refine Safe.seq fun t hr _ => ⟨trivial, fun _ _ hI' => ?_⟩
  refine h _ ?_ hI' List.mem_cons_self
  exact { hr.toKept with
    history := fun e he => List.mem_cons_of_mem _ (hr.history e he)
    staged := fun id s he => hr.staged id s (by simpa using List.mem_cons.mp he)
    recorded := fun task he => hr.recorded task (by simpa using List.mem_cons.mp he) }

end World

/-! ## Staging an outcome -/

namespace RunnerMailbox

open World

variable {R : Regime} {d : Deployment} {w : World} {α : Type}
  {Q : α → World → Prop} {E : PyError → World → Prop}

/-- What an outcome may be staged over. -/
structure Stageable (R : Regime) (w : World) (a : Active) : Prop where
  active    : w.journal = some a
  imported  : a.stage ≠ .imported
  claimFile : a.stage = .claimed → ¬ w.ClaimFile a.taskId
  settles   : R.settles → a.stage = .accepted

theorem Stageable.kept {a : Active} {t : World} (h : Stageable R w a) (hk : Kept R d w t) :
    Stageable R t a :=
  ⟨hk.journal.trans h.active, h.imported, fun hs hf => h.claimFile hs (hk.claimFile _ hf), h.settles⟩

/-- Staging is a move of the journal. -/
theorem Stageable.move {a : Active} {o : TaskOutcome} {rejections : List Rejection}
    (h : Stageable R w a) (hid : o.taskId = a.taskId) (hrunner : o.runnerId = d.runnerId) :
    w.Move R d { a with stage := .outcomePending o rejections } :=
  .outcome h.active h.imported h.claimFile fun hR => ⟨hid, hrunner, .inl (h.settles hR)⟩

theorem owns_then {taskId : String} {f : Bool → Act α}
    (h : ∀ t, Rely R d w t → Inv R d t →
      Safe (contract R d) (f (t.journal.any fun a => decide (a.taskId = taskId))) Q E t) :
    Safe (contract R d) (owns taskId >>= f) Q E w :=
  Safe.seq fun t hr hI => ⟨trivial, fun _ _ _ => h t hr hI⟩

/-- `_require_active` lets the active delivery pass. -/
theorem requireActive_then {a : Active} {f : Unit → Act α} (ha : w.journal = some a)
    (h : ∀ t, Rely R d w t → Inv R d t → Safe (contract R d) (f ()) Q E t) :
    Safe (contract R d) (requireActive a.taskId >>= f) Q E w := by
  refine Safe.seq fun t hr hI => ⟨trivial, fun _ _ _ => ?_⟩
  have hj : t.journal = some a := hr.journal.trans ha
  have howns : (t.journal.any fun a' => decide (a'.taskId = a.taskId)) = true := by simp [hj]
  change Safe (contract R d) (((if (t.journal.any fun a' => decide (a'.taskId = a.taskId)) = true
    then Prog.pure () else _ : Act Unit)) >>= f) Q E t
  rw [if_pos howns]
  exact h t hr hI

/-- After staging: the outcome is pending, and nothing else has moved. -/
def Staged (R : Regime) (w : World) (a : Active) (u : World) : Prop :=
  ∃ o rejections, Written R w { a with stage := .outcomePending o rejections } u

/-- `stage_failure` of the active delivery. -/
theorem stageFailure_safe {a : Active} {error : String} (h : Stageable R w a) :
    Safe (contract R d) (stageFailure d a.taskId error) (fun _ u => Staged R w a u) E w := by
  refine requireActive_then h.active fun t hr hI => ?_
  refine utcText_then fun u hu _ _ => ?_
  refine active_then fun v hv _ => ?_
  have hk := (hr.trans hu).trans hv
  have hv' : Stageable R v a := h.kept hk.toKept
  rw [hv'.active]
  change Safe (contract R d) (Prog.run (.setActive _)) _ E v
  refine (setActive_safe fun x hx _ => (hv'.kept hx.toKept).move rfl rfl).conseq
    (fun _ x _ hw => ?_) (fun _ _ _ h => h)
  exact ⟨_, _, hw.after hk.toKept⟩

theorem preflightSize_safe {o : TaskOutcome} (htrims : R.recovers → ¬ PreflightDrops d o) :
    Safe (contract R d) (preflightSize d o)
      (fun o' t => Kept R d w t ∧ o'.taskId = o.taskId ∧ o'.runnerId = o.runnerId)
      (fun _ t => Kept R d w t ∧ ¬ R.recovers) w := by
  have hsame : Safe (contract R d) (.pure o : Act TaskOutcome)
      (fun o' t => Kept R d w t ∧ o'.taskId = o.taskId ∧ o'.runnerId = o.runnerId)
      (fun _ t => Kept R d w t ∧ ¬ R.recovers) w :=
    fun t hr _ => ⟨hr.toKept, rfl, rfl⟩
  unfold preflightSize
  split
  · exact hsame
  · split
    · next e hraised =>
      refine fun t hr _ => ⟨hr.toKept, fun hR => ?_⟩
      obtain ⟨trimmed, hok⟩ := OutcomeSize.trimTask_ok_iff.mpr (htrims hR)
      have hok : preflightTrim d o = .ok trimmed := hok
      rw [hraised] at hok
      cases hok
    · next trimmed dropped htrim =>
      obtain ⟨hid, hrunner, -⟩ := OutcomeSize.trimTask_frame htrim
      split
      · exact hsame
      · refine recordDowngrade_then fun t hk _ _ => ?_
        exact fun u hu _ => ⟨hk.trans hu.toKept, hid, hrunner⟩

/-- The result on record, or one with nothing to drop. -/
def Reportable (w : World) (taskId : String) (result : Fields) : Prop :=
  w.findResult taskId = some result ∨ result = [("task_id", .str taskId)]

theorem resultOf_safe {taskId : String} {result : Option Fields}
    (hresult : ∀ r, result = some r → w.findResult taskId = some r) :
    Safe (contract R d) (resultOf taskId result)
      (fun r t => Kept R d w t ∧ Reportable w taskId r) E w := by
  cases result with
  | some result => exact fun t hr _ => ⟨hr.toKept, .inl (hresult result rfl)⟩
  | none =>
    refine findResult_then fun t hr _ u hu _ => ⟨hr.toKept.trans hu.toKept, ?_⟩
    have hsame : t.findResult taskId = w.findResult taskId := by
      rw [findResult, findResult, hr.output]
    rw [hsame]
    cases hfound : w.findResult taskId with
    | some result => exact .inl hfound
    | none => exact .inr rfl

/-- A reportable result needs no bulk value dropped from an `outcome_delivery`. -/
theorem Reportable.not_preflightDrops {a : Active} {result : Fields}
    (h : Reportable w a.taskId result) (ha : w.journal = some a) (htrims : w.Trims d) :
    ¬ PreflightDrops d (completedOutcome d a.taskId (Conductress.utcText w.now) result) := by
  rcases h with hfound | rfl
  · exact htrims a ha result hfound
  · exact OutcomeSize.not_dropsInDelivery rfl rfl

theorem Reportable.kept {taskId : String} {result : Fields} {t : World}
    (h : Reportable w taskId result) (hk : Kept R d w t) : Reportable t taskId result := by
  refine h.imp_left fun hfound => ?_
  rw [findResult, hk.output]
  exact hfound

/-- `stage_success` of the active delivery. -/
theorem stageSuccess_safe {a : Active} {result : Option Fields} (h : Stageable R w a)
    (hresult : ∀ r, result = some r → w.findResult a.taskId = some r) :
    Safe (contract R d) (stageSuccess d a.taskId result) (fun _ u => Staged R w a u)
      (fun _ u => Kept R d w u ∧ ¬ R.recovers) w := by
  refine requireActive_then h.active fun t ht _ => ?_
  have hresult : ∀ r, result = some r → t.findResult a.taskId = some r := fun r hr => by
    rw [findResult, ht.output]
    exact hresult r hr
  refine Safe.bind ((resultOf_safe hresult).conseq (fun result' u _ hu => ?_) (fun _ _ _ h => h))
  obtain ⟨hu, hreport⟩ := hu
  refine utcText_then fun v hv _ htrims => ?_
  have hk := (ht.toKept.trans hu).trans hv.toKept
  refine Safe.bind ((preflightSize_safe fun hR => ?_).conseq (fun o x _ hx => ?_)
    (fun _ _ _ h => ⟨hk.trans h.1, h.2⟩))
  · exact ((hreport.kept hu).kept hv.toKept).not_preflightDrops (h.kept hk).active (htrims hR)
  obtain ⟨hx, hid, hrunner⟩ := hx
  have hk := hk.trans hx
  refine (updateStage_safe (h.kept hk).active fun y hy _ =>
    ((h.kept hk).kept hy.toKept).move hid hrunner).conseq (fun _ y _ hw => ?_) (fun _ _ _ h => h)
  exact ⟨_, _, hw.after hk⟩

/-! ## The ladder -/

/-- How many turns `flush_pending_outcome` still takes at most. -/
def turnsLeft : Option Active → ℕ
  | some ⟨_, _, _, .outcomePending o rejections⟩ =>
    if isLastStep o then 2
    else if o.state = .completed ∧ rejections = [] then 4
    else 3
  | _ => 1

theorem turnsLeft_pos (j : Option Active) : 0 < turnsLeft j := by
  unfold turnsLeft
  repeat' split
  all_goals decide

theorem turnsLeft_le (j : Option Active) : turnsLeft j ≤ 4 := by
  unfold turnsLeft
  repeat' split
  all_goals decide

/-- The failure report of a rejection is the last step of the ladder. -/
theorem isLastStep_rejected (o : TaskOutcome) (taskId completedAt rejection : String) :
    isLastStep (failedOutcome d taskId completedAt (rejectedMessage d o rejection)) = true := by
  unfold isLastStep failedOutcome rejectedMessage
  cases o.state <;> simp [Optional.get, String.toList_append]

/-- Where delivering an outcome ends, whatever was delivered. -/
structure Flushed (R : Regime) (j : Option Active) (w : World) : Prop where
  calm : w.Calm R
  idle : w.Idle
  same : w.Same j

theorem Flushed.kept {t : World} {j : Option Active} (h : Flushed R j w) (hk : Kept R d w t) :
    Flushed R j t :=
  ⟨h.calm.kept hk, h.idle.kept hk, h.same.kept hk⟩

theorem Flushed.of_none {j : Option Active} (h : w.journal = none) : Flushed R j w :=
  ⟨calm_of_none h, idle_of_none h, same_of_none h⟩

/-- Restaging an undelivered outcome keeps all that. -/
theorem Flushed.written {a : Active} {o : TaskOutcome} {rejections : List Rejection}
    {j : Option Active} {u : World} (h : Flushed R j w) (ha : w.journal = some a)
    (hw : Written R w { a with stage := .outcomePending o rejections } u) : Flushed R j u where
  calm := by
    refine Idle.calm (fun a' ha' => ?_) fun hR a' ha' hfile => ?_
    · rw [hw.journal] at ha'
      cases ha'
      rfl
    · rw [hw.journal] at ha'
      cases ha'
      exact h.calm.finished hR a ha (h.idle a ha) (hw.claimFile _ hfile)
  idle a' ha' := by
    rw [hw.journal] at ha'
    cases ha'
    rfl
  same a' ha' := by
    rw [hw.journal] at ha'
    cases ha'
    exact h.same a ha

theorem turnsLeft_pending {a : Active} {o : TaskOutcome} {rejections : List Rejection}
    (hstage : a.stage = .outcomePending o rejections) :
    turnsLeft (some a) = if isLastStep o then 2
      else if o.state = .completed ∧ rejections = [] then 4 else 3 := by
  obtain ⟨taskId, token, envelope, stage⟩ := a
  cases hstage
  rfl

section Step

variable {a : Active} {o : TaskOutcome} {rejections : List Rejection} {j : Option Active}

/-- The moves of the ladder. -/
theorem restage {t : World} (ha : w.journal = some a) (hstage : a.stage = .outcomePending o rejections)
    (hrej : R.settles → d.Rejects o) (hk : Kept R d w t) (o' : TaskOutcome)
    (rejections' : List Rejection)
    (hids : R.settles → o'.taskId = a.taskId ∧ o'.runnerId = d.runnerId) :
    t.Move R d { a with stage := .outcomePending o' rejections' } := by
  refine .outcome (hk.journal.trans ha) (by simp [hstage]) (by simp [hstage]) fun hR => ?_
  exact ⟨(hids hR).1, (hids hR).2, .inr ⟨o, rejections, hstage, hrej hR⟩⟩

/-- The outcome is replaced by a report, or given up. -/
theorem reportRejection_safe {rejection : String} {rejections' : List Rejection}
    (h : Flushed R j w) (ha : w.journal = some a)
    (hstage : a.stage = .outcomePending o rejections) (hrej : R.settles → d.Rejects o) :
    Safe (contract R d) (reportRejection d a.taskId o rejection rejections')
      (fun _ t => Flushed R j t ∧ turnsLeft t.journal < turnsLeft w.journal) E w := by
  have hturns := turnsLeft_pending hstage
  rw [← ha] at hturns
  unfold reportRejection
  split
  · next hlast =>
    refine recordDowngrade_then fun t hk hI' hdropped => ?_
    refine Safe.run fun u hu _ => ⟨⟨a, hu.journal.trans (hk.journal.trans ha), ?_, ?_, ?_⟩, ?_⟩
    · rw [hstage]
      rfl
    · exact hu.history _ hdropped
    · exact fun hR hfile => h.calm.finished hR a ha (h.idle a ha)
        (hk.claimFile _ (hu.claimFile _ hfile))
    · intro x _ _ v hv _
      have hnone : v.journal = none := by
        rw [hv.journal]
        simp [effects, exec, hu.journal, hk.journal, ha, World.log]
      refine ⟨.of_none hnone, ?_⟩
      rw [hturns, if_pos hlast, hnone]
      exact Nat.lt_succ_self 1
  · next hlast =>
    refine utcText_then fun t ht _ _ => ?_
    refine recordDowngrade_then fun u hu _ _ => ?_
    have hk := ht.toKept.trans hu
    refine (updateStage_safe (hk.journal.trans ha) fun v hv _ =>
      restage ha hstage hrej (hk.trans hv.toKept) _ _ fun hR => ⟨rfl, rfl⟩).conseq
        (fun _ v _ hw => ?_) (fun _ _ _ h => h)
    have hw := hw.after hk
    refine ⟨h.written ha hw, ?_⟩
    rw [hturns, if_neg hlast, hw.journal]
    simp only [turnsLeft, isLastStep_rejected, if_true]
    split <;> decide

/-- **One step of the ladder**: the outcome is replaced or given up, and fewer
steps are left. -/
theorem downgradeRejectedOutcome_safe {e : ClientError} (h : Flushed R j w)
    (ha : w.journal = some a) (hstage : a.stage = .outcomePending o rejections)
    (hrej : R.settles → d.Rejects o) (hI : Inv R d w) :
    Safe (contract R d) (downgradeRejectedOutcome d a.taskId o rejections e)
      (fun _ t => Flushed R j t ∧ turnsLeft t.journal < turnsLeft w.journal) E w := by
  have hturns := turnsLeft_pending hstage
  rw [← ha] at hturns
  unfold downgradeRejectedOutcome
  dsimp only
  split
  · next hfirst =>
    obtain ⟨hcompleted, hlength⟩ := hfirst
    have hnil : rejections = [] := by simpa using hlength
    have hnot : isLastStep o = false := by simp [isLastStep, hcompleted]
    split
    · next error hraised =>
      obtain ⟨trimmed, hok⟩ := OutcomeSize.trimTask_zero d.wireBytes o
        ("rejected: " ++ rejectionText e (d.wireBytes o.toJson)) d.outputPath
      have hok : reducedOutcome d o (rejectionText e (d.wireBytes o.toJson)) = .ok trimmed := hok
      rw [hraised] at hok
      cases hok
    · next reduced dropped hreduced =>
      obtain ⟨hid, hrunner, hstate, -⟩ := OutcomeSize.trimTask_frame hreduced
      split
      · refine recordDowngrade_then fun t hk _ _ => ?_
        refine (updateStage_safe (hk.journal.trans ha) fun u hu _ =>
          restage ha hstage hrej (hk.trans hu.toKept) _ _ fun hR => ?_).conseq
            (fun _ u _ hw => ?_) (fun _ _ _ h => h)
        · obtain ⟨-, hid', hrunner', -⟩ := hI.settled.pending hR a o rejections ha hstage
          exact ⟨hid.trans hid', hrunner.trans hrunner'⟩
        · have hw := hw.after hk
          refine ⟨h.written ha hw, ?_⟩
          have hcompleted' := hstate.trans hcompleted
          have hnot' : isLastStep reduced = false := by simp [isLastStep, hcompleted']
          rw [hturns, hnot, hw.journal]
          simp [turnsLeft, hnot', hcompleted, hnil]
      · exact reportRejection_safe h ha hstage hrej
  · exact reportRejection_safe h ha hstage hrej

end Step

/-- **Delivering a pending outcome** takes the turns the ladder has, and ends
with the slot free unless an answer is missing. -/
theorem flushLoop_safe {n : ℕ} {j : Option Active} (h : Flushed R j w)
    (hn : turnsLeft w.journal ≤ n) :
    Safe (contract R d) (flushLoop d n)
      (fun _ t => Flushed R j t ∧ (R.settles → t.journal = none))
      (fun _ t => t.Calm R ∧ ¬ R.recovers ∧ ¬ R.settles) w := by
  induction n generalizing w with
  | zero => exact absurd hn (not_le.mpr (turnsLeft_pos _))
  | succ n ih =>
    refine active_then fun t ht hI => ?_
    have h := h.kept ht.toKept
    cases hj : t.journal with
    | none => exact fun u hu _ => ⟨h.kept hu.toKept, fun _ => hu.journal.trans hj⟩
    | some a =>
      obtain ⟨taskId, token, envelope, stage⟩ := a
      have hpending := h.idle _ hj
      cases stage with
      | claimed | imported | accepted => simp [Stage.isPending] at hpending
      | outcomePending o rejections =>
        dsimp only
        have hasks : t.Asks (.report taskId o) := ⟨_, rejections, hj, rfl, rfl⟩
        refine Safe.bind ((FleetClient.request_safe hasks).conseq
          (fun r u hI' hu => ?_) (fun e u hI' hu => ⟨h.calm.kept hu.1, fun hR => ?_, fun hR => ?_⟩))
        · obtain ⟨hu, hanswered⟩ := hu
          have h := h.kept hu
          have hj' := hu.journal.trans hj
          cases r with
          | ok reply =>
            refine Safe.seq fun v hv _ => ⟨⟨_, hv.journal.trans hj', rfl, ?_, ?_⟩, ?_⟩
            · exact hv.stands _ closed_done _ hanswered
            · exact fun hR hfile => h.calm.finished hR _ hj' rfl (hv.claimFile _ hfile)
            · intro x _ _ y hy _
              have hnone : y.journal = none := by
                rw [hy.journal]
                simp [effects, exec, hv.journal, hj', World.log]
              exact ⟨.of_none hnone, fun _ => hnone⟩
          | error e =>
            dsimp only
            split
            · refine Safe.bind ((downgradeRejectedOutcome_safe h hj' rfl
                (fun hR => (hanswered hR).2) hI').conseq (fun _ v _ hv => ?_) (fun _ _ _ h => h))
              have hless := hv.2
              rw [hu.journal, ht.journal] at hless
              exact ih hv.1 (by omega)
            · next hpermanent =>
              exact fun v hv _ => ⟨h.kept hv.toKept, fun hR =>
                absurd (hanswered hR).1 hpermanent⟩
        · -- the client takes the path of an active delivery
          have hclean := (hI'.recoverable.clean hR _ (hu.1.journal.trans hj)).1
          have hrefused := hu.2 (.inr hR)
          simp [FleetClient.pathId, hclean] at hrefused
        · -- nor is there another one when outcomes settle: the task was accepted
          have hstaged := (hI'.settled.pending hR _ o rejections (hu.1.journal.trans hj) rfl).2.2.2
          have hclean := hI'.custody.safe taskId hstaged
          have hrefused := hu.2 (.inl hR)
          simp [FleetClient.pathId, hclean] at hrefused

theorem flushPendingOutcome_safe {j : Option Active} (h : Flushed R j w) :
    Safe (contract R d) (flushPendingOutcome d)
      (fun _ t => Flushed R j t ∧ (R.settles → t.journal = none))
      (fun _ t => t.Calm R ∧ ¬ R.recovers ∧ ¬ R.settles) w :=
  flushLoop_safe h (turnsLeft_le _)

end RunnerMailbox

end Conductress
