import Mathlib.Data.List.Dedup
import Mathlib.Data.List.Pairwise
import Mathlib.Data.List.Perm.Subperm
import Conductress.Runner.Runs

/-!
# The ladder of a rejected outcome

`flush_pending_outcome` against a service that answers whatever it likes, with
the process dying at any moment. A desk is the world with a log of what was sent
and what came back; the journal's entry goes down a ladder, whose rungs are in
`Rung` and whose measure is `turnsLeft`. `flush_descends` is the result.

A process that dies after a rejection has come back and before the next rung is
in the journal sends the same document again: `flush_resends`.
-/

namespace Conductress

open Lib RunnerMailbox

/-- One attempt at a request, with the journal's entry at that moment. -/
structure Sent where
  active  : Option Active
  request : RunnerRequest
  answer  : Except PyError (Except ClientError Reply)

namespace Sent

/-- The payload was refused for good. -/
def rejected (e : Sent) : Bool :=
  match e.answer with
  | .ok (.error e) => OutcomeSize.isPermanentRejection e.status
  | .ok (.ok _) | .error _ => false

/-- The document of an outcome that was sent. -/
def document (e : Sent) : Option Json :=
  match e.request with
  | .report _ outcome => some outcome.toJson
  | _ => none

end Sent

/-- The log is oldest first. -/
structure Desk where
  world : World
  log   : List Sent

namespace Desk

variable (d : Deployment)

/-- Every attempt at a request gets the answer that was chosen for it, or ends in
the exception that was; the other commands are those of the world. -/
def exec {β : Type} (c : Command β) (x : Choice × Except PyError (Except ClientError Reply))
    (s : Desk) : β × Desk :=
  match c with
  | .request req =>
    (x.2, ⟨{ s.world with sent := req :: s.world.sent }, s.log ++ [⟨s.world.journal, req, x.2⟩]⟩)
  | c => ((World.exec d c x.1 s.world).1, { s with world := (World.exec d c x.1 s.world).2 })

def effects : Effects Command Desk (Choice × Except PyError (Except ClientError Reply)) Outside where
  exec      := exec d
  interfere := fun e s => { s with world := World.interfere d e s.world }

/-- A process that delivers its staged outcome, again and again. -/
def machine : Machine Command PyError Bool where
  boot := flushPendingOutcome d
  body := fun _ => flushPendingOutcome d

abbrev State := Desk × Act Bool

abbrev Happening := Occurrence (Choice × Except PyError (Except ClientError Reply)) Outside

def step (s : State) (e : Happening) : State := (machine d).step (effects d) s e

/-- A process about to deliver what its journal holds. -/
def start (w : World) : State := (⟨w, []⟩, flushPendingOutcome d)

end Desk

/-! ## The rungs -/

/-- The steps of the ladder before it ends. -/
inductive LadderStep where
  | full | reduced | failed
  deriving DecidableEq

namespace LadderStep

def index : LadderStep → ℕ
  | full => 0
  | reduced => 1
  | failed => 2

end LadderStep

/-- What the journal may hold of an outcome that was staged as `a₀`: the outcome
itself, the same without its bulk values, or the report that it was rejected. -/
inductive Rung (d : Deployment) (a₀ : Active) : LadderStep → Active → Prop where
  | full : Rung d a₀ .full a₀
  | reduced {outcome reduced : TaskOutcome} {dropped : List String} (rejection : String)
      (rejections : List Rejection) :
      a₀.stage = .outcomePending outcome [] → outcome.state = .completed →
      reducedOutcome d outcome rejection = .ok (reduced, dropped) → dropped ≠ [] →
      rejections ≠ [] →
      Rung d a₀ .reduced { a₀ with stage := .outcomePending reduced rejections }
  | failed (completedAt error : String) (rejections : List Rejection) :
      isLastStep (failedOutcome d a₀.taskId completedAt error) = true →
      Rung d a₀ .failed { a₀ with
        stage := .outcomePending (failedOutcome d a₀.taskId completedAt error) rejections }

/-- The ladder goes down, or ends. -/
inductive Below (d : Deployment) (a₀ : Active) : Option Active → Option Active → Prop where
  | cleared (a : Active) : Below d a₀ (some a) none
  | lower {i j : LadderStep} {a b : Active} :
      Rung d a₀ i a → Rung d a₀ j b → i.index < j.index → Below d a₀ (some a) (some b)

namespace Rung

variable {d : Deployment} {a₀ a b : Active} {i j : LadderStep}

theorem taskId (h : Rung d a₀ i a) : a.taskId = a₀.taskId := by
  cases h <;> rfl

theorem pending (h : Rung d a₀ i a) (h₀ : a₀.stage.isPending = true) :
    ∃ o rejections, a.stage = .outcomePending o rejections := by
  cases h with
  | full =>
    cases hstage : a₀.stage with
    | outcomePending o rejections => exact ⟨o, rejections, rfl⟩
    | claimed | imported | accepted => simp [hstage, Stage.isPending] at h₀
  | reduced => exact ⟨_, _, rfl⟩
  | failed => exact ⟨_, _, rfl⟩

end Rung

/-- The document of an outcome shows whether it is the last step. -/
theorem isLastStep_of_toJson {o o' : TaskOutcome} (h : o.toJson = o'.toJson) :
    isLastStep o = isLastStep o' := by
  simp only [TaskOutcome.toJson, Json.obj.injEq, List.cons.injEq, Prod.mk.injEq, true_and,
    and_true, Json.str.injEq] at h
  obtain ⟨-, -, hstate, -, -, herror⟩ := h
  have hstates : o.state = o'.state := by
    cases ho : o.state <;> cases ho' : o'.state <;> simp [ho, ho'] at hstate ⊢
  have herrors : o.error.get.getD "" = o'.error.get.getD "" := by
    cases ho : o.error <;> cases ho' : o'.error <;> simp_all [Optional.get]
  rw [isLastStep, isLastStep, hstates, herrors]

theorem two_le_turnsLeft {a : Active} (h : a.stage.isPending = true) : 2 ≤ turnsLeft (some a) := by
  obtain ⟨taskId, token, envelope, stage⟩ := a
  cases stage with
  | outcomePending o rejections =>
    rw [turnsLeft_pending rfl]
    split
    · exact Nat.le_refl 2
    · split <;> decide
  | claimed | imported | accepted => simp [Stage.isPending] at h

namespace Rung

variable {d : Deployment} {a₀ a b : Active} {i j : LadderStep}

theorem turnsLeft_reduced {outcome reduced : TaskOutcome} {dropped : List String}
    {rejection : String} {rejections : List Rejection} (hcompleted : outcome.state = .completed)
    (hreduced : reducedOutcome d outcome rejection = .ok (reduced, dropped))
    (hsome : rejections ≠ []) :
    turnsLeft (some { a₀ with stage := .outcomePending reduced rejections }) = 3 := by
  obtain ⟨-, -, hstate, -⟩ := OutcomeSize.trimTask_frame hreduced
  have hcompleted' : reduced.state = .completed := hstate.trans hcompleted
  rw [turnsLeft_pending rfl, isLastStep, hcompleted']
  simp [hsome]

theorem turnsLeft_failed {completedAt error : String} {rejections : List Rejection}
    (hlast : isLastStep (failedOutcome d a₀.taskId completedAt error) = true) :
    turnsLeft (some { a₀ with
      stage := .outcomePending (failedOutcome d a₀.taskId completedAt error) rejections }) = 2 := by
  rw [turnsLeft_pending rfl, if_pos hlast]

/-- The measure and the ladder agree. -/
theorem below (ha : Rung d a₀ i a) (hb : Rung d a₀ j b) (h₀ : a₀.stage.isPending = true)
    (hless : turnsLeft (some b) < turnsLeft (some a)) : i.index < j.index := by
  have hmin := two_le_turnsLeft h₀
  cases ha with
  | full =>
    cases hb with
    | full => exact absurd hless (lt_irrefl _)
    | reduced => decide
    | failed => decide
  | reduced rejection rejections hstage hcompleted hreduced _ hsome =>
    rw [turnsLeft_reduced hcompleted hreduced hsome] at hless
    cases hb with
    | full =>
      rw [turnsLeft_pending hstage, isLastStep, hcompleted] at hless
      simp at hless
    | reduced rejection' rejections' _ hcompleted' hreduced' _ hsome' =>
      rw [turnsLeft_reduced hcompleted' hreduced' hsome'] at hless
      exact absurd hless (lt_irrefl _)
    | failed => decide
  | failed completedAt error rejections hlast =>
    rw [turnsLeft_failed hlast] at hless
    cases hb with
    | full => omega
    | reduced rejection' rejections' _ hcompleted' hreduced' _ hsome' =>
      rw [turnsLeft_reduced hcompleted' hreduced' hsome'] at hless
      omega
    | failed completedAt' error' rejections' hlast' =>
      rw [turnsLeft_failed hlast'] at hless
      exact absurd hless (lt_irrefl _)

/-- The documents of two rungs differ. -/
theorem document_ne {o o' : TaskOutcome} {rejections rejections' : List Rejection}
    (ha : Rung d a₀ i a) (hb : Rung d a₀ j b) (h₀ : a₀.stage.isPending = true)
    (hless : turnsLeft (some b) < turnsLeft (some a))
    (hstage : a.stage = .outcomePending o rejections)
    (hstage' : b.stage = .outcomePending o' rejections') : o'.toJson ≠ o.toJson := by
  intro hsame
  have hindex := ha.below hb h₀ hless
  cases hb with
  | full => exact absurd hindex (Nat.not_lt_zero _)
  | reduced rejection rejected hfull hcompleted hreduced hdropped hsome =>
    cases ha with
    | full =>
      -- a bulk value is missing
      rw [hfull] at hstage
      cases hstage
      cases hstage'
      exact OutcomeSize.toJson_trimTask_ne hreduced hdropped hsame
    | reduced => exact absurd hindex (lt_irrefl _)
    | failed => exact absurd hindex (by decide)
  | failed completedAt error rejected hreport =>
    -- no earlier rung is the report of a rejection
    cases hstage'
    rw [turnsLeft_pending hstage, turnsLeft_pending rfl, ← isLastStep_of_toJson hsame, hreport,
      if_pos rfl, if_pos rfl] at hless
    exact lt_irrefl _ hless

end Rung

/-! ## What delivering promises -/

namespace Desk

variable {strict : Prop} {d : Deployment} {a₀ : Active} {s t : Desk}

/-- The second entry is the first one, or fewer turns are left. -/
def Later (j k : Option Active) : Prop := k = j ∨ turnsLeft k < turnsLeft j

/-- Nothing that was refused for good is in the journal any more. -/
def Processed (s : Desk) : Prop :=
  ∀ e ∈ s.log, e.rejected = true → turnsLeft s.world.journal < turnsLeft e.active

instance (s : Desk) : Decidable s.Processed :=
  inferInstanceAs (Decidable (∀ e ∈ s.log, _ → _))

instance (s : State) : (e : Happening) → Decidable (e = .crash → s.1.Processed)
  | .crash => decidable_of_iff s.1.Processed ⟨fun h _ => h, fun h => h rfl⟩
  | .act _ | .interfere _ => isTrue nofun

/-- What was sent and what is staged are rungs of one ladder, taken downwards. A
rejected rung is not sent again when deaths are kept away from it. -/
structure Inv (strict : Prop) (d : Deployment) (a₀ : Active) (s : Desk) : Prop where
  current : ∀ a, s.world.journal = some a → ∃ i, Rung d a₀ i a
  sent    : ∀ e ∈ s.log, ∃ a o rejections, e.active = some a ∧
    a.stage = .outcomePending o rejections ∧ e.request = .report a₀.taskId o ∧ ∃ i, Rung d a₀ i a
  clean   : s.log ≠ [] → FleetClient.isSafePath a₀.taskId = true
  order   : ∀ e ∈ s.log, Later e.active s.world.journal
  pairs   : s.log.Pairwise fun e f => Later e.active f.active ∧
    (strict → e.rejected = true → turnsLeft f.active < turnsLeft e.active)

/-- What a program that delivers may do. -/
def Guard (strict : Prop) (d : Deployment) (a₀ : Active) {β : Type} (c : Command β) (s : Desk) : Prop :=
  match c with
  | .setActive a => ∃ b i, s.world.journal = some b ∧ Rung d a₀ i a ∧
      turnsLeft (some a) < turnsLeft (some b)
  | .request req => ∃ a o rejections i, s.world.journal = some a ∧ Rung d a₀ i a ∧
      a.stage = .outcomePending o rejections ∧ req = .report a₀.taskId o ∧
      FleetClient.isSafePath a₀.taskId = true ∧ (strict → s.Processed)
  | .clearActive _ | .active | .recordDowngrade .. | .utcText => True
  | _ => False

theorem Inv.pendingSent (h : Inv strict d a₀ s) {e : Sent} (he : e ∈ s.log) :
    2 ≤ turnsLeft e.active := by
  obtain ⟨a, o, rejections, ha, hstage, -⟩ := h.sent e he
  rw [ha]
  exact two_le_turnsLeft (by rw [hstage]; rfl)

/-- A step down the ladder deals with every rejection so far. -/
theorem Inv.processed_of_less (h : Inv strict d a₀ s) (hlog : t.log = s.log)
    (hless : turnsLeft t.world.journal < turnsLeft s.world.journal) : t.Processed := by
  intro e he _
  rw [hlog] at he
  rcases h.order e he with hsame | hlower
  · rwa [← hsame]
  · exact hless.trans hlower

/-- Another world with the same journal. -/
theorem Inv.of_same (h : Inv strict d a₀ s) (hjournal : t.world.journal = s.world.journal)
    (hlog : t.log = s.log) : Inv strict d a₀ t := by
  refine ⟨?_, ?_, ?_, ?_, ?_⟩
  · rw [hjournal]
    exact h.current
  · rw [hlog]
    exact h.sent
  · rw [hlog]
    exact h.clean
  · rw [hlog, hjournal]
    exact h.order
  · rw [hlog]
    exact h.pairs

/-- The journal goes down. -/
theorem Inv.descend (h : Inv strict d a₀ s) (hlog : t.log = s.log)
    (hcurrent : ∀ a, t.world.journal = some a → ∃ i, Rung d a₀ i a)
    (horder : ∀ e ∈ s.log, Later e.active t.world.journal) : Inv strict d a₀ t where
  current := hcurrent
  sent := by rw [hlog]; exact h.sent
  clean := by rw [hlog]; exact h.clean
  order := by rw [hlog]; exact horder
  pairs := by rw [hlog]; exact h.pairs

theorem Later.trans {j k l : Option Active} (h : Later j k) (h' : turnsLeft l < turnsLeft k) :
    Later j l := by
  rcases h with rfl | hless
  · exact .inr h'
  · exact .inr (h'.trans hless)

/-- A request puts what is staged on the wire. -/
theorem Inv.send (h : Inv strict d a₀ s) {a : Active} {o : TaskOutcome}
    {rejections : List Rejection} {i : LadderStep}
    {answer : Except PyError (Except ClientError Reply)}
    (hjournal : s.world.journal = some a) (hrung : Rung d a₀ i a)
    (hstage : a.stage = .outcomePending o rejections)
    (hclean : FleetClient.isSafePath a₀.taskId = true) (hprocessed : strict → s.Processed)
    (htjournal : t.world.journal = s.world.journal)
    (hlog : t.log = s.log ++ [⟨s.world.journal, .report a₀.taskId o, answer⟩]) :
    Inv strict d a₀ t where
  current := by rw [htjournal]; exact h.current
  sent e he := by
    rw [hlog] at he
    rcases List.mem_append.mp he with he | he
    · exact h.sent e he
    · rw [List.mem_singleton.mp he]
      exact ⟨a, o, rejections, hjournal, hstage, rfl, i, hrung⟩
  clean _ := hclean
  order e he := by
    rw [hlog] at he
    rw [htjournal]
    rcases List.mem_append.mp he with he | he
    · exact h.order e he
    · rw [List.mem_singleton.mp he]
      exact .inl rfl
  pairs := by
    rw [hlog, List.pairwise_append]
    refine ⟨h.pairs, List.pairwise_singleton _ _, fun e he f hf => ?_⟩
    rw [List.mem_singleton.mp hf]
    exact ⟨h.order e he, fun hstrict => hprocessed hstrict e he⟩

/-- The contract of delivering: nobody else touches the journal. -/
def ladder (strict : Prop) (d : Deployment) (a₀ : Active) : Discipline (effects d) where
  Inv       := Inv strict d a₀
  Rely s t  := t.world.journal = s.world.journal ∧ t.log = s.log
  envOk _ _ := True
  choiceOk _ _ _ := True
  guard c s := Guard strict d a₀ c s
  rely_refl _ := ⟨rfl, rfl⟩
  rely_trans h h' := ⟨h'.1.trans h.1, h'.2.trans h.2⟩
  interfere_ok {e s} hI _ := by
    have hjournal : ((effects d).interfere e s).world.journal = s.world.journal := by
      cases e with
      | operation op github =>
        simp only [effects, World.interfere]
        split <;> rfl
      | redeliver req =>
        simp only [effects, World.interfere, Deployment.serve]
        split
        · split <;> rfl
        · rfl
      | submitLocal file =>
        simp only [effects, World.interfere]
        split <;> rfl
      | pass micros | removeLocal taskId => rfl
    exact ⟨hI.of_same hjournal rfl, hjournal, rfl⟩
  exec_ok {β c x s} hI hguard _ := by
    cases c with
    | setActive a =>
      obtain ⟨b, i, hb, hrung, hless⟩ := hguard
      refine hI.descend rfl (fun a' ha' => ?_) fun e he => ?_
      · cases ha'
        exact ⟨i, hrung⟩
      · have hlater := hI.order e he
        rw [hb] at hlater
        exact hlater.trans hless
    | clearActive why =>
      have hnone : (exec d (.clearActive why) x s).2.world.journal = none := by
        simp only [exec, World.exec]
        split
        · rfl
        · next hnone => exact hnone
      refine hI.descend rfl (fun a ha => ?_) fun e he => .inr ?_
      · exact absurd (hnone.symm.trans ha) (by simp)
      · have := hI.pendingSent he
        change turnsLeft (exec d (.clearActive why) x s).2.world.journal < _
        rw [hnone]
        exact this
    | request req =>
      obtain ⟨a, o, rejections, i, hjournal, hrung, hstage, rfl, hclean, hprocessed⟩ := hguard
      exact hI.send hjournal hrung hstage hclean hprocessed rfl rfl
    | active | recordDowngrade | utcText => exact hI.of_same rfl rfl
    | hasTask | taskIds | readTask | installTask | unlinkTask | parkTask | findResult | findFailure
    | starting | execute | recordFailure | pollDue => exact hguard.elim

/-! ### The programs -/

variable {α : Type} {Q : α → Desk → Prop} {E : PyError → Desk → Prop}

theorem active_then {f : Option Active → Act α}
    (h : ∀ t, (ladder strict d a₀).Rely s t → Inv strict d a₀ t →
      Safe (ladder strict d a₀) (f t.world.journal) Q E t) :
    Safe (ladder strict d a₀) (Prog.run .active >>= f) Q E s :=
  Safe.seq fun t hr hI => ⟨trivial, fun _ _ _ => h t hr hI⟩

theorem utcText_then {f : String → Act α}
    (h : ∀ t text, (ladder strict d a₀).Rely s t → Inv strict d a₀ t →
      Safe (ladder strict d a₀) (f text) Q E t) :
    Safe (ladder strict d a₀) (Prog.run .utcText >>= f) Q E s :=
  Safe.seq fun t hr hI => ⟨trivial, fun _ _ _ => h t _ hr hI⟩

theorem recordDowngrade_then {taskId : String} {stage : Downgrade} {f : Unit → Act α}
    (h : ∀ t, (ladder strict d a₀).Rely s t → Inv strict d a₀ t →
      Safe (ladder strict d a₀) (f ()) Q E t) :
    Safe (ladder strict d a₀) (Prog.run (.recordDowngrade taskId stage) >>= f) Q E s :=
  Safe.seq fun t hr _ => ⟨trivial, fun x _ hI' =>
    h ((effects d).exec (.recordDowngrade taskId stage) x t).2 hr hI'⟩

/-- The journal holds this entry, with this outcome to deliver. -/
structure Holds (d : Deployment) (a₀ : Active) (a : Active) (o : TaskOutcome)
    (rejections : List Rejection) (s : Desk) : Prop where
  journal : s.world.journal = some a
  stage   : a.stage = .outcomePending o rejections
  rung    : ∃ i, Rung d a₀ i a

theorem Holds.of_same {a : Active} {o : TaskOutcome} {rejections : List Rejection}
    (h : Holds d a₀ a o rejections s) (hjournal : t.world.journal = s.world.journal) :
    Holds d a₀ a o rejections t :=
  ⟨hjournal.trans h.journal, h.stage, h.rung⟩

/-- The last answer is the one to what is staged. -/
structure Answered (strict : Prop) (d : Deployment) (a₀ : Active) (a : Active) (o : TaskOutcome)
    (rejections : List Rejection) (answer : Except PyError (Except ClientError Reply))
    (s : Desk) : Prop where
  holds     : Holds d a₀ a o rejections s
  last      : s.log.getLast? = some ⟨some a, .report a₀.taskId o, answer⟩
  processed : strict →
    (∀ e, answer = .ok (.error e) → OutcomeSize.isPermanentRejection e.status = false) → s.Processed

/-- An attempt, and what it leaves. -/
theorem Answered.attempt {a : Active} {o : TaskOutcome} {rejections : List Rejection}
    (h : Holds d a₀ a o rejections s) (hprocessed : strict → s.Processed)
    (x : Choice × Except PyError (Except ClientError Reply)) :
    Answered strict d a₀ a o rejections x.2 (exec d (.request (.report a₀.taskId o)) x s).2 where
  holds := h.of_same rfl
  last := by
    change (s.log ++ [_]).getLast? = _
    rw [List.getLast?_concat, h.journal]
  processed hstrict hkeep e he hrejected := by
    rcases List.mem_append.mp he with he | he
    · exact hprocessed hstrict e he hrejected
    · -- the answer just received refuses nothing for good
      rw [List.mem_singleton.mp he] at hrejected
      cases hanswer : x.2 with
      | error error => simp [Sent.rejected, hanswer] at hrejected
      | ok answer =>
        cases answer with
        | ok reply => simp [Sent.rejected, hanswer] at hrejected
        | error error => simp [Sent.rejected, hanswer, hkeep error hanswer] at hrejected

theorem Answered.of_same {a : Active} {o : TaskOutcome} {rejections : List Rejection}
    {answer : Except PyError (Except ClientError Reply)}
    (h : Answered strict d a₀ a o rejections answer s)
    (hr : (ladder strict d a₀).Rely s t) : Answered strict d a₀ a o rejections answer t where
  holds := h.holds.of_same hr.1
  last := by rw [hr.2]; exact h.last
  processed hstrict hkeep e he hrejected := by
    rw [hr.2] at he
    rw [hr.1]
    exact h.processed hstrict hkeep e he hrejected

theorem processed_of_rely (h : s.Processed) (hr : (ladder strict d a₀).Rely s t) : t.Processed := by
  intro e he hrejected
  rw [hr.2] at he
  rw [hr.1]
  exact h e he hrejected

/-- An error that is retried refuses nothing for good. -/
theorem not_permanent_of_isRetried {e : ClientError} (h : e.isRetried = true) :
    OutcomeSize.isPermanentRejection e.status = false := by
  unfold ClientError.isRetried at h
  cases hstatus : e.status with
  | none => rfl
  | some status =>
    rw [hstatus] at h
    simp only [Bool.or_eq_true, decide_eq_true_eq] at h
    simp only [OutcomeSize.isPermanentRejection, Option.any_some, Bool.or_eq_false_iff,
      decide_eq_false_iff_not]
    omega

theorem attempts_descends {a : Active} {o : TaskOutcome} {rejections : List Rejection} {n : ℕ}
    (hn : 0 < n) (hclean : FleetClient.isSafePath a₀.taskId = true)
    (h : Holds d a₀ a o rejections s) (hprocessed : strict → s.Processed) :
    Safe (ladder strict d a₀) (FleetClient.attempts (.report a₀.taskId o) n)
      (fun answer t => Answered strict d a₀ a o rejections (.ok answer) t)
      (fun e t => Answered strict d a₀ a o rejections (.error e) t) s := by
  induction n generalizing s with
  | zero => exact absurd hn (lt_irrefl 0)
  | succ n ih =>
    refine Safe.seq fun t hr _ => ?_
    have hholds := h.of_same hr.1
    have hprocessed := fun hstrict => processed_of_rely (hprocessed hstrict) hr
    obtain ⟨i, hrung⟩ := hholds.rung
    refine ⟨⟨a, o, rejections, i, hholds.journal, hrung, hholds.stage, rfl, hclean, hprocessed⟩, ?_⟩
    rintro ⟨event, answer⟩ _ _
    have hanswered := Answered.attempt hholds hprocessed (event, answer)
    have hreply : ((effects d).exec (.request (.report a₀.taskId o)) (event, answer) t).1 =
        answer := rfl
    rw [hreply]
    cases answer with
    | error e => exact fun u hu _ => hanswered.of_same hu
    | ok answer =>
      cases answer with
      | ok reply => exact fun u hu _ => hanswered.of_same hu
      | error e =>
        dsimp only
        split
        · next hretry =>
          rw [Bool.and_eq_true, decide_eq_true_eq] at hretry
          refine ih hretry.2 hanswered.holds fun hstrict => hanswered.processed hstrict ?_
          intro e' he'
          cases he'
          exact not_permanent_of_isRetried hretry.1
        · exact fun u hu _ => hanswered.of_same hu

/-- How a delivery may raise: the rung that is staged makes no request that could be
sent, or the last request was for it and was cut off. -/
def Broken (strict : Prop) (d : Deployment) (a₀ : Active) (e : PyError) (t : Desk) : Prop :=
  (strict → t.Processed) ∧ ∃ a o rejections, Holds d a₀ a o rejections t ∧
    (FleetClient.isSafePath a₀.taskId = false ∨
      t.log.getLast? = some ⟨some a, .report a₀.taskId o, .error e⟩)

/-- **One request** is answered, or raises. -/
theorem request_descends {a : Active} {o : TaskOutcome} {rejections : List Rejection}
    (h : Holds d a₀ a o rejections s) (hprocessed : strict → s.Processed) :
    Safe (ladder strict d a₀) (FleetClient.request (.report a₀.taskId o))
      (fun answer t => Answered strict d a₀ a o rejections (.ok answer) t)
      (Broken strict d a₀) s := by
  unfold FleetClient.request
  split
  · next hclean =>
    have hclean : FleetClient.isSafePath a₀.taskId = true := by
      simpa [FleetClient.pathId] using hclean
    exact (attempts_descends (by decide) hclean h hprocessed).conseq (fun _ _ _ h => h)
      fun _ _ _ h => ⟨fun hstrict => h.processed hstrict (by simp), a, o, rejections, h.holds,
        .inr h.last⟩
  · next hclean =>
    refine fun t hr _ => ⟨fun hstrict => processed_of_rely (hprocessed hstrict) hr, a, o, rejections,
      h.of_same hr.1, .inl ?_⟩
    simpa [FleetClient.pathId] using hclean

/-- `update_active(stage=..)`, down the ladder. -/
theorem updateStage_descends {a : Active} {stage : Stage} {i : LadderStep} (hI : Inv strict d a₀ s)
    (hjournal : s.world.journal = some a) (hrung : Rung d a₀ i { a with stage })
    (hless : turnsLeft (some { a with stage }) < turnsLeft (some a)) :
    Safe (ladder strict d a₀) (updateStage stage)
      (fun _ t => turnsLeft t.world.journal < turnsLeft (some a) ∧ t.Processed) E s := by
  refine active_then fun t ht _ => ?_
  rw [ht.1, hjournal]
  refine Safe.run fun u hu _ => ?_
  have hu : (ladder strict d a₀).Rely s u := (ladder strict d a₀).rely_trans ht hu
  refine ⟨⟨a, i, hu.1.trans hjournal, hrung, hless⟩, fun x _ _ v hv _ => ?_⟩
  have hv' : v.world.journal = some { a with stage } := hv.1
  refine ⟨by rwa [hv'], hI.processed_of_less (hv.2.trans hu.2) ?_⟩
  rwa [hv', hjournal]

/-- `clear_active`. -/
theorem clearActive_descends {why : Clearing} {a : Active} (hjournal : s.world.journal = some a) :
    Safe (ladder strict d a₀) (Prog.run (.clearActive why))
      (fun _ t => t.world.journal = none ∧ t.Processed) E s := by
  refine Safe.run fun t ht _ => ⟨trivial, fun x _ hI' u hu hIu => ?_⟩
  have hnone : u.world.journal = none := by
    rw [hu.1]
    change ((World.exec d (.clearActive why) x.1 t.world).2).journal = none
    simp only [World.exec]
    rw [ht.1, hjournal]
    rfl
  refine ⟨hnone, fun e he _ => ?_⟩
  rw [hnone]
  exact hIu.pendingSent he

section Step

variable {a : Active} {o : TaskOutcome} {rejections : List Rejection}

/-- The report of a rejection is the rung below the others. -/
theorem reportRejection_descends {rejection : String} {rejections' : List Rejection}
    (h : Holds d a₀ a o rejections s) :
    Safe (ladder strict d a₀) (reportRejection d a₀.taskId o rejection rejections')
      (fun _ t => turnsLeft t.world.journal < turnsLeft (some a) ∧ t.Processed) E s := by
  obtain ⟨i, hrung⟩ := h.rung
  have hturns := turnsLeft_pending h.stage
  unfold reportRejection
  split
  · next hlast =>
    refine recordDowngrade_then fun t ht hI' => ?_
    refine (clearActive_descends (ht.1.trans h.journal)).conseq (fun _ u _ hu => ?_)
      (fun _ _ _ h => h)
    refine ⟨?_, hu.2⟩
    rw [hu.1, hturns, if_pos hlast]
    decide
  · next hlast =>
    refine utcText_then fun t completedAt ht _ => ?_
    refine recordDowngrade_then fun u hu hI' => ?_
    have hreport := isLastStep_rejected (d := d) o a₀.taskId completedAt rejection
    -- every rung is the staged entry in another stage
    have hentry : ∀ stage, { a with stage } = { a₀ with stage } := by
      intro stage
      cases hrung <;> rfl
    refine updateStage_descends hI' (hu.1.trans (ht.1.trans h.journal)) (i := .failed) ?_ ?_
    · rw [hentry]
      exact .failed _ _ _ hreport
    · rw [hentry, Rung.turnsLeft_failed hreport, hturns, if_neg hlast]
      split <;> decide

/-- **One step of the ladder.** -/
theorem downgradeRejectedOutcome_descends {e : ClientError} (h : Holds d a₀ a o rejections s) :
    Safe (ladder strict d a₀) (downgradeRejectedOutcome d a₀.taskId o rejections e)
      (fun _ t => turnsLeft t.world.journal < turnsLeft (some a) ∧ t.Processed) E s := by
  obtain ⟨i, hrung⟩ := h.rung
  have hturns := turnsLeft_pending h.stage
  unfold downgradeRejectedOutcome
  dsimp only
  split
  · next hfirst =>
    obtain ⟨hcompleted, hlength⟩ := hfirst
    have hnil : rejections = [] := by simpa using hlength
    subst hnil
    have hfull : turnsLeft (some a) = 4 := by
      rw [hturns, isLastStep, hcompleted]
      simp
    -- only the outcome as it was staged has no rejection
    have ha : a = a₀ := by
      cases hrung with
      | full => rfl
      | reduced _ _ _ hcompleted' hreduced _ hsome =>
        rw [Rung.turnsLeft_reduced hcompleted' hreduced hsome] at hfull
        omega
      | failed _ _ _ hlast =>
        rw [Rung.turnsLeft_failed hlast] at hfull
        omega
    subst ha
    split
    · next error hraised =>
      obtain ⟨trimmed, hok⟩ := OutcomeSize.trimTask_zero d.wireBytes o
        ("rejected: " ++ rejectionText e (d.wireBytes o.toJson)) d.outputPath
      have hok : reducedOutcome d o (rejectionText e (d.wireBytes o.toJson)) = .ok trimmed := hok
      rw [hraised] at hok
      cases hok
    · next reduced dropped hreduced =>
      split
      · next hdropped =>
        refine recordDowngrade_then fun t ht hI' => ?_
        have hsome : ([⟨e.code.text, e.status, d.wireBytes o.toJson⟩] : List Rejection) ≠ [] := by simp
        refine updateStage_descends hI' (ht.1.trans h.journal)
          (Rung.reduced _ _ h.stage hcompleted hreduced hdropped hsome) ?_
        rw [List.nil_append, Rung.turnsLeft_reduced hcompleted hreduced hsome, hfull]
        decide
      · exact reportRejection_descends h
  · exact reportRejection_descends h

end Step

/-- How a delivery may end: with nothing staged, or with the last answer not
telling what will become of what still is. -/
def Ended (strict : Prop) (d : Deployment) (a₀ : Active) (delivered : Bool) (t : Desk) : Prop :=
  (strict → t.Processed) ∧
    if delivered then t.world.journal = none
    else ∃ a o rejections e, Answered strict d a₀ a o rejections (.ok (.error e)) t ∧
      OutcomeSize.isPermanentRejection e.status = false

/-- The loop ends before its turns are up. -/
theorem flushLoop_descends {n : ℕ} (h₀ : a₀.stage.isPending = true)
    (hn : turnsLeft s.world.journal ≤ n) (hprocessed : strict → s.Processed) :
    Safe (ladder strict d a₀) (flushLoop d n) (Ended strict d a₀) (Broken strict d a₀) s := by
  induction n generalizing s with
  | zero => exact absurd hn (not_le.mpr (turnsLeft_pos _))
  | succ n ih =>
    refine active_then fun t ht hI => ?_
    have hprocessed : strict → t.Processed := fun hstrict => processed_of_rely (hprocessed hstrict) ht
    cases hj : t.world.journal with
    | none =>
      exact fun u hu _ => ⟨fun hstrict => processed_of_rely (hprocessed hstrict) hu, hu.1.trans hj⟩
    | some a =>
      obtain ⟨i, hrung⟩ := hI.current a hj
      obtain ⟨o, rejections, hstage⟩ := hrung.pending h₀
      have hholds : Holds d a₀ a o rejections t := ⟨hj, hstage, i, hrung⟩
      have hid := hrung.taskId
      obtain ⟨taskId, token, envelope, stage⟩ := a
      dsimp only at hid hstage
      subst hid hstage
      dsimp only
      refine Safe.bind ((request_descends hholds hprocessed).conseq (fun answer u _ hu => ?_)
        (fun _ _ _ h => h))
      cases answer with
      | ok reply =>
        refine Safe.bind ((clearActive_descends hu.holds.journal).conseq (fun _ v _ hv => ?_)
          (fun _ _ _ h => h))
        exact fun x hx _ => ⟨fun _ => processed_of_rely hv.2 hx, hx.1.trans hv.1⟩
      | error e =>
        dsimp only
        split
        · refine Safe.bind ((downgradeRejectedOutcome_descends hu.holds).conseq
            (fun _ v _ hv => ?_) (fun _ _ _ h => h))
          have hless := hv.1
          rw [← ht.1, hj] at hn
          refine ih ?_ fun _ => hv.2
          omega
        · next hpermanent =>
          rw [Bool.not_eq_true] at hpermanent
          have hkeep : ∀ e', (Except.ok (.error e) : Except PyError (Except ClientError Reply)) =
              .ok (.error e') → OutcomeSize.isPermanentRejection e'.status = false := by
            rintro e' ⟨⟩
            exact hpermanent
          refine fun v hv _ => ⟨fun hstrict => processed_of_rely (hu.processed hstrict hkeep) hv, ?_⟩
          exact ⟨_, _, _, e, hu.of_same hv, hpermanent⟩

theorem flushPendingOutcome_descends (h₀ : a₀.stage.isPending = true)
    (hprocessed : strict → s.Processed) :
    Safe (ladder strict d a₀) (flushPendingOutcome d) (Ended strict d a₀) (Broken strict d a₀) s :=
  flushLoop_descends h₀ (turnsLeft_le _) hprocessed

/-! ## Any answers, any restarts -/

/-- Where the ladder of `a₀` stands, with everything that was sent. -/
structure Descent (d : Deployment) (a₀ : Active) (t : State) : Prop where
  /-- Only what the journal holds is sent, so a restart goes on at that rung. -/
  persisted : ∀ e ∈ t.1.log, ∃ a o rejections i, e.active = some a ∧ Rung d a₀ i a ∧
    a.stage = .outcomePending o rejections ∧ e.request = .report a₀.taskId o
  staged    : ∀ a, t.1.world.journal = some a → ∃ i, Rung d a₀ i a
  /-- One after the other, and what is staged now last. -/
  descends  : (t.1.log.map Sent.active ++ [t.1.world.journal]).Pairwise fun j k =>
    k = j ∨ Below d a₀ j k
  atMost    : (t.1.log.map Sent.document).dedup.length ≤ 3
  cleared   : t.2 = .pure true → t.1.world.journal = none
  transient : t.2 = .pure false → ∃ a e, t.1.world.journal = some a ∧
    a.stage.isPending = true ∧ (t.1.log.getLast?.map fun s => (s.active, s.answer)) =
      some (some a, .ok (.error e)) ∧ OutcomeSize.isPermanentRejection e.status = false
  /-- No request was made, as the task id makes none that could be sent, or the
  exception is the one that cut off the last request, which was for what is staged. -/
  raised    : ∀ e, t.2 = .raise e → ∃ a, t.1.world.journal = some a ∧ a.stage.isPending = true ∧
    ((FleetClient.isSafePath a₀.taskId = false ∧ t.1.log = []) ∨
      (t.1.log.getLast?.map fun s => (s.active, s.answer)) = some (some a, .error e))

theorem Inv.below (h : Inv strict d a₀ s) (h₀ : a₀.stage.isPending = true) {e : Sent} (he : e ∈ s.log)
    {k : Option Active} (hk : ∀ a, k = some a → ∃ i, Rung d a₀ i a) (hlater : Later e.active k) :
    k = e.active ∨ Below d a₀ e.active k := by
  obtain ⟨a, o, rejections, ha, -, -, i, hrung⟩ := h.sent e he
  rcases hlater with hsame | hless
  · exact .inl hsame
  · rw [ha] at hless ⊢
    cases k with
    | none => exact .inr (.cleared a)
    | some b =>
      obtain ⟨j, hrung'⟩ := hk b rfl
      exact .inr (.lower hrung hrung' (hrung.below hrung' h₀ hless))

/-- The entry decides the document, and the turns left decide the entry. -/
theorem Inv.document_eq (h : Inv strict d a₀ s) {e f : Sent} (he : e ∈ s.log) (hf : f ∈ s.log)
    (hturns : turnsLeft e.active = turnsLeft f.active) : e.document = f.document := by
  have hsame : e.active = f.active := by
    have hpairs : s.log.Pairwise fun e f =>
        turnsLeft e.active = turnsLeft f.active → e.active = f.active := by
      refine h.pairs.imp ?_
      rintro x y ⟨hsame | hless, -⟩ heq
      · exact hsame.symm
      · omega
    have : Std.Symm fun e f : Sent => turnsLeft e.active = turnsLeft f.active → e.active = f.active :=
      ⟨fun _ _ h heq => (h heq.symm).symm⟩
    exact hpairs.forall_of_forall (fun _ _ _ => rfl) he hf hturns
  obtain ⟨a, o, rejections, ha, hstage, hreq, -⟩ := h.sent e he
  obtain ⟨b, o', rejections', hb, hstage', hreq', -⟩ := h.sent f hf
  rw [ha, hb] at hsame
  cases hsame
  rw [hstage] at hstage'
  cases hstage'
  rw [Sent.document, Sent.document, hreq, hreq']

/-- At most three documents, one for each number of turns left. -/
theorem Inv.atMost (h : Inv strict d a₀ s) : (s.log.map Sent.document).dedup.length ≤ 3 := by
  let byTurns (n : ℕ) : Option Json :=
    (s.log.find? fun e => decide (turnsLeft e.active = n)).bind Sent.document
  have hsub : (s.log.map Sent.document).dedup ⊆ [byTurns 2, byTurns 3, byTurns 4] := by
    intro document hdocument
    obtain ⟨e, he, rfl⟩ := List.mem_map.mp (List.mem_dedup.mp hdocument)
    have hfound : e.document = byTurns (turnsLeft e.active) := by
      cases hfind : s.log.find? fun f => decide (turnsLeft f.active = turnsLeft e.active) with
      | none => simpa using List.find?_eq_none.mp hfind e he
      | some f =>
        have hf := List.mem_of_find?_eq_some hfind
        have hturns : turnsLeft f.active = turnsLeft e.active := by
          simpa using List.find?_some hfind
        simp only [byTurns, hfind, Option.bind_some]
        exact h.document_eq he hf hturns.symm
    have hlow := h.pendingSent he
    have hhigh := turnsLeft_le e.active
    obtain hn | hn | hn : turnsLeft e.active = 2 ∨ turnsLeft e.active = 3 ∨
        turnsLeft e.active = 4 := by omega
    all_goals
      rw [hn] at hfound
      rw [hfound]
      simp
  exact (List.Nodup.subperm (List.nodup_dedup _) hsub).length_le

/-- A step is covered as long as a death keeps the promise it must keep. -/
theorem covers {Calm : Desk → Prop} {a : State} {e : Happening} (h : e = .crash → Calm a.1) :
    Machine.Covers (ladder strict d a₀) Calm a e := by
  obtain ⟨s, p⟩ := a
  cases e with
  | crash =>
    have hcalm : Calm s := h rfl
    cases p <;> exact hcalm
  | act x => cases p <;> trivial
  | interfere e => cases p <;> trivial

/-- What holds along a run, rejections kept from deaths or not. -/
theorem run_descends (h₀ : a₀.stage.isPending = true) {w : World} (hw : w.journal = some a₀)
    {es : List Happening} {t : State}
    (hrun : Run (fun a e b => (e = .crash → strict → a.1.Processed) ∧ b = step d a e)
      (start d w) es t) :
    Inv strict d a₀ t.1 ∧
      Safe (ladder strict d a₀) t.2 (Ended strict d a₀) (Broken strict d a₀) t.1 := by
  refine Machine.run_safe_raising (machine d) (ladder strict d a₀) (fun s => strict → s.Processed)
    (fun _ _ h => h.1) (fun s _ hcalm => flushPendingOutcome_descends h₀ hcalm)
    (fun _ s _ hend => flushPendingOutcome_descends h₀ hend.1)
    (hrun.monotone fun _ _ _ h => ⟨covers h.1, h.2⟩) ?_ (fun _ => by simp [Processed])
  refine ⟨fun a ha => ?_, by simp, by simp, by simp, List.Pairwise.nil⟩
  obtain rfl : a = a₀ := Option.some.inj (ha.symm.trans hw)
  exact ⟨.full, .full⟩

/-- **The ladder is only climbed down**: whatever is answered and whenever the
process dies, only what the journal holds is sent, at most three documents are,
and a delivery ends with nothing staged or, after an answer that rejects nothing
for good or an exception, with the rung it was on. As long as the process does not die between a
rejection and the write of the next rung, no rejected document is sent again. -/
theorem flush_descends (d : Deployment) (w : World) (a₀ : Active) (o₀ : TaskOutcome)
    (rejections₀ : List Rejection) (hw : w.journal = some a₀)
    (hstage : a₀.stage = .outcomePending o₀ rejections₀) (es : List Happening) (t : State) :
    (Run (fun a e b => b = step d a e) (start d w) es t → Descent d a₀ t) ∧
      (Run (fun a e b => (e = .crash → a.1.Processed) ∧ b = step d a e) (start d w) es t →
        t.1.log.Pairwise fun e f => e.rejected = true → f.document ≠ e.document) := by
  have h₀ : a₀.stage.isPending = true := by
    rw [hstage]
    rfl
  constructor
  · intro hrun
    have hrun' : Run (fun a e b => (e = .crash → False → a.1.Processed) ∧ b = step d a e)
        (start d w) es t := hrun.monotone fun _ _ _ h => ⟨fun _ hfalse => hfalse.elim, h⟩
    obtain ⟨hI, hsafe⟩ := run_descends h₀ hw hrun'
    refine ⟨?_, hI.current, ?_, hI.atMost, fun hend => ?_, fun hend => ?_, fun e hend => ?_⟩
    · intro e he
      obtain ⟨a, o, rejections, ha, hstage, hreq, i, hrung⟩ := hI.sent e he
      exact ⟨a, o, rejections, i, ha, hrung, hstage, hreq⟩
    · rw [List.pairwise_append]
      refine ⟨List.pairwise_map.mpr (hI.pairs.imp_of_mem fun {e f} he hf h => ?_),
        List.pairwise_singleton _ _, fun j hj k hk => ?_⟩
      · refine hI.below h₀ he (fun a ha => ?_) h.1
        obtain ⟨b, o, rejections, hb, -, -, hrung⟩ := hI.sent f hf
        cases ha.symm.trans hb
        exact hrung
      · obtain ⟨e, he, rfl⟩ := List.mem_map.mp hj
        rw [List.mem_singleton.mp hk]
        exact hI.below h₀ he hI.current (hI.order e he)
    · rw [hend] at hsafe
      exact (hsafe t.1 ((ladder False d a₀).rely_refl _) hI).2
    · rw [hend] at hsafe
      obtain ⟨-, a, o, rejections, e, hanswered, htransient⟩ :=
        hsafe t.1 ((ladder False d a₀).rely_refl _) hI
      refine ⟨a, e, hanswered.holds.journal, ?_, ?_, htransient⟩
      · rw [hanswered.holds.stage]
        rfl
      · rw [hanswered.last]
        rfl
    · rw [hend] at hsafe
      obtain ⟨-, a, o, rejections, hholds, hcause⟩ :=
        hsafe t.1 ((ladder False d a₀).rely_refl _) hI
      refine ⟨a, hholds.journal, by rw [hholds.stage]; rfl, hcause.imp (fun hstuck => ?_) fun hlast => ?_⟩
      · refine ⟨hstuck, by_contra fun hsome => ?_⟩
        rw [hI.clean hsome] at hstuck
        cases hstuck
      · rw [hlast]
        rfl
  · intro hrun
    have hrun' : Run (fun a e b => (e = .crash → True → a.1.Processed) ∧ b = step d a e)
        (start d w) es t := hrun.monotone fun _ _ _ h => ⟨fun hcrash _ => h.1 hcrash, h.2⟩
    obtain ⟨hI, -⟩ := run_descends h₀ hw hrun'
    refine hI.pairs.imp_of_mem fun {e f} he hf h hrejected => ?_
    obtain ⟨a, o, rejections, ha, hstage, hreq, i, hrung⟩ := hI.sent e he
    obtain ⟨b, o', rejections', hb, hstage', hreq', j, hrung'⟩ := hI.sent f hf
    have hless := h.2 trivial hrejected
    rw [ha, hb] at hless
    rw [Sent.document, Sent.document, hreq, hreq']
    exact fun hsame => hrung.document_ne hrung' h₀ hless hstage hstage' (Option.some.inj hsame)

section Example

open SmallDeployment

/-- A completed outcome with a bulk value. -/
def stagedOutcome : TaskOutcome where
  taskId      := "t1"
  runnerId    := "runner-1"
  state       := .completed
  completedAt := "2026-01-01T00:00:00Z"
  result      := .value [("score", .int 7), ("lscpu", .str "Architecture: x86_64")]
  error       := .null

def stagedEntry : Active :=
  ⟨"t1", none, envelope "t1" .manual, .outcomePending stagedOutcome []⟩

def stagedWorld : World :=
  { TaskRunner.start SmallDeployment.start 0 with journal := some stagedEntry }

/-- The next commands, their requests refused as too large. -/
def refusals (n : ℕ) : List Happening :=
  List.replicate n
    (.act (⟨.passed, [], none, 0, true⟩, .ok (.error ⟨.control .bodyTooLarge, some 413⟩)))

/-- The connection is reset while the answer is read. -/
def reset : Happening :=
  .act (⟨.passed, [], none, 0, true⟩, .error (.osError "Connection reset by peer"))

/-- The first request is cut off and made again. Then each rung is refused in turn,
the process dying once in between. -/
def descending : List Happening :=
  refusals 1 ++ [reset] ++ refusals 6 ++ [.crash] ++ refusals 12

/-- All three rungs are sent, and nothing is left. -/
theorem flush_descends_refused :
    let t := descending.foldl (step runner) (start runner stagedWorld)
    t.1.log.length = 4 ∧ t.1.world.journal = none ∧ Descent runner stagedEntry t ∧
      t.1.log.Pairwise fun e f => e.rejected = true → f.document ≠ e.document := by
  intro t
  obtain ⟨hany, hapart⟩ := flush_descends runner stagedWorld stagedEntry stagedOutcome [] rfl rfl
    descending t
  refine ⟨by decide +kernel, by decide +kernel, hany (Run.of_fun _ _ _), hapart ?_⟩
  exact Run.of_guarded (step runner) (fun a e => e = .crash → a.1.Processed) _ _ (by decide +kernel)

/-- Dying with the rejection in hand and the next rung not yet written, the
process sends the same again. -/
theorem flush_resends :
    ¬ ∀ (d : Deployment) (w : World) (a₀ : Active) (o₀ : TaskOutcome) (rejections₀ : List Rejection)
      (es : List Happening) (t : State), w.journal = some a₀ →
        a₀.stage = .outcomePending o₀ rejections₀ →
        Run (fun a e b => b = step d a e) (start d w) es t →
        t.1.log.Pairwise fun e f => e.rejected = true → f.document ≠ e.document := by
  intro h
  have hrun := Run.of_fun (step runner) (start runner stagedWorld) (refusals 2 ++ [.crash] ++ refusals 2)
  have hpairs := h runner stagedWorld stagedEntry stagedOutcome [] _ _ rfl rfl hrun
  revert hpairs
  decide +kernel

end Example

end Desk

end Conductress
