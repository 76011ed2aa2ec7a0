import Conductress.Runner.Turn

/-!
# Runs of the runner

A run starts with an idle runner and an empty control database; anything may
happen next. `run_safe`: in every state of every run that a regime covers, the
invariants hold and the rest of the turn keeps its promises. Which runs a
regime covers is decidable, and so are the concrete runs of a small deployment.
-/

namespace Conductress

open Lib

namespace TaskRunner

open World

variable {R : Regime} {d : Deployment}

/-- The starts of a system: an idle runner, and an empty control database. -/
def start (now : Instant) (tokens : ClaimToken) : World := .start .empty now tokens

/-- The invariants hold at the start. -/
theorem inv_start (now : Instant) (tokens : ClaimToken) : Inv R d (start now tokens) := by
  have hrow : ∀ row, row ∉ (start now tokens).db.tasks := fun _ => Table.not_mem_empty _
  have hjournal : ∀ a, (start now tokens).journal ≠ some a := by simp [start, World.start]
  have hsent : ∀ req, req ∉ (start now tokens).sent := by simp [start, World.start]
  have hhistory : ∀ e, e ∉ (start now tokens).history := by simp [start, World.start]
  have hfile : ∀ file, file ∉ (start now tokens).queue := fun _ => Table.not_mem_empty _
  have hclaimFile : ∀ taskId, ¬ (start now tokens).ClaimFile taskId := by
    rintro taskId ⟨file, hfind, -⟩
    exact hfile file (Table.find?_eq_some_iff.mp hfind).1
  exact {
    issued := ⟨fun row h => absurd h (hrow row), fun a h => absurd h (hjournal a),
      fun _ _ h => absurd h (hsent _)⟩
    ownership := ⟨fun a h => absurd h (hjournal a), fun _ _ h => absurd h (hsent _),
      fun row h => absurd h (hrow row), fun _ _ _ _ h => absurd h (hhistory _)⟩
    custody := {
      sidecar := fun file h => absurd h (hfile file)
      file := fun taskId h => absurd h (hclaimFile taskId)
      fresh := fun a h => absurd h (hjournal a)
      accepted := fun a h => absurd h (hjournal a)
      past := fun _ h => absurd h (hhistory _)
      loads := fun a h => absurd h (hjournal a)
      safe := fun _ h => absurd h (hhistory _)
      imported := fun a h => absurd h (hjournal a)
      order := trivial }
    once := ⟨fun _ taskId h => absurd h (hclaimFile taskId), fun _ a h => absurd h (hjournal a)⟩
    settled := {
      claimed := fun _ a h => absurd h (hjournal a)
      accepted := fun _ a h => absurd h (hjournal a)
      pending := fun _ a _ _ h => absurd h (hjournal a)
      done := fun _ row h => absurd h (hrow row)
      reports := fun _ _ _ h => absurd h (hsent _) }
    recoverable := ⟨fun _ a h => absurd h (hjournal a), fun _ a h => absurd h (hjournal a)⟩ }

/-- A run of the runner and its surroundings that a regime covers. -/
def CoveredRun (R : Regime) (d : Deployment) (now : Instant) (tokens : ClaimToken)
    (es : List Happening) (t : State) : Prop :=
  Run (fun a e b => Machine.Covers (contract R d) (Calm R) a e ∧ Step d a e b)
    (booted d (start now tokens)) es t

/-- **Every covered run keeps the invariants**, and what is left of the turn
keeps its promises. -/
theorem run_safe {now : Instant} {tokens : ClaimToken} {es : List Happening} {t : State}
    (hrun : CoveredRun R d now tokens es t) :
    Inv R d t.1 ∧ Safe (contract R d) t.2 (Turn R) (fun _ => Calm R) t.1 := by
  refine Machine.run_safe (m := machine d) (contract R d) (Calm R)
    (fun s _ hcalm => chooseNext_safe hcalm) (fun choice s _ hturn => ?_) hrun
    (inv_start now tokens) (calm_of_none rfl)
  cases choice with
  | none => exact idle_safe hturn.calm
  | some task => exact runTask_safe hturn

/-- A regime that assumes nothing covers every step. -/
theorem covers_all (s : State) (e : Happening) : Machine.Covers (contract {} d) (Calm {}) s e := by
  obtain ⟨w, p⟩ := s
  cases e with
  | act x =>
    cases p with
    | call c k =>
      change w.ChoiceOk {} d c x
      cases c with
      | request req => exact ⟨by simp, by simp, fun _ row _ => by simp⟩
      | execute task | recordFailure task error | utcText => simp [ChoiceOk]
      | _ => trivial
    | _ => trivial
  | interfere e =>
    have hok : w.OutsideOk {} d e := by cases e <;> simp [OutsideOk]
    cases p <;> exact hok
  | crash =>
    have hcalm : w.Calm {} := ⟨by simp, by simp⟩
    cases p <;> exact hcalm

theorem coveredRun_of_run {now : Instant} {tokens : ClaimToken} {es : List Happening} {t : State}
    (hrun : Run (Step d) (booted d (start now tokens)) es t) : CoveredRun {} d now tokens es t :=
  hrun.monotone fun a e _ hstep => ⟨covers_all a e, hstep⟩

end TaskRunner

/-! ## Deciding what a regime covers -/

namespace World

variable (R : Regime) (d : Deployment) (w : World)

instance decidableForallSome {α : Type} (o : Option α) (p : α → Prop) [DecidablePred p] :
    Decidable (∀ a, o = some a → p a) :=
  match o with
  | none => isTrue (by simp)
  | some a => decidable_of_iff (p a) (by simp)

instance (classes : TaskClasses) (a : Active) : Decidable (a.Loads classes) :=
  match h : classes.fromDict (.obj a.envelope.task) (.str a.taskId) with
  | .ok task => isTrue ⟨task, h⟩
  | .error _ => isFalse (by rintro ⟨task, hok⟩; rw [h] at hok; cases hok)

instance (classes : TaskClasses) (a : Active) : Decidable (a.Recoverable classes) :=
  have : Decidable (∃ message,
      classes.fromDict (.obj a.envelope.task) (.str a.taskId) = .error (.valueError message) ∨
      classes.fromDict (.obj a.envelope.task) (.str a.taskId) = .error (.typeError message)) :=
    match h : classes.fromDict (.obj a.envelope.task) (.str a.taskId) with
    | .error (.valueError message) => isTrue ⟨message, .inl rfl⟩
    | .error (.typeError message) => isTrue ⟨message, .inr rfl⟩
    | .ok _ | .error (.attributeError _) | .error (.overflowError _) | .error (.keyError _)
    | .error (.runtimeError _) | .error (.osError _) | .error (.httpException _)
    | .error (.indexError _) | .error .memoryError =>
      isFalse (by simp)
  inferInstanceAs (Decidable ((_ ∧ _) ∨ _))

instance (taskId : String) : Decidable (w.NoRecord taskId) :=
  inferInstanceAs (Decidable (w.findResult taskId = none ∧ w.findFailure taskId = none))

instance (taskId : String) : Decidable (w.ClaimFile taskId) :=
  decidable_of_iff ((w.queue.find? taskId).any QueueFile.fromClaim = true) (by
    simp [ClaimFile, Option.any_eq_true])

instance : Decidable (w.Calm R) :=
  decidable_of_iff
    ((R.exact → ∀ a, w.journal = some a → a.stage.isPending = true → ¬ w.ClaimFile a.taskId) ∧
      (R.recovers → ∀ a, w.journal = some a → a.stage = .imported → w.has a.taskId = true))
    ⟨fun h => ⟨h.1, h.2⟩, fun h => ⟨h.finished, h.imported⟩⟩

/-- The entry a claimed row would become. -/
abbrev claimedEntry (row : TaskRow) : Active := ⟨row.taskId, row.claimToken, row.envelope, .claimed⟩

instance : Decidable (w.ClaimOk R d) :=
  match h : d.answer w .claim with
  | .ok (.claimed row) =>
    decidable_of_iff
      ((R.settles → (claimedEntry row).Loads d.classes ∧ w.NoRecord row.taskId) ∧
        (R.recovers → FleetClient.isSafePath row.taskId = true ∧
          (claimedEntry row).Recoverable d.classes))
      ⟨fun hok row' hrow' => by
        rw [h] at hrow'
        cases hrow'
        exact hok, fun hok => hok row h⟩
  | .ok .noTask | .ok (.task _) | .error _ => isTrue (by
      intro row hrow
      rw [h] at hrow
      cases hrow)

instance : Decidable (w.Trims d) :=
  inferInstanceAs (Decidable (∀ a, w.journal = some a → ∀ result, _ = some result → ¬ _))

instance {β : Type} (c : Command β) (x : Choice) : Decidable (w.ChoiceOk R d c x) := by
  cases c <;> unfold ChoiceOk <;> infer_instance

instance (op : Operation) : Decidable (w.Gentle d op) :=
  match op with
  | .cancel selector _ login isOwner => inferInstanceAs (Decidable (∀ row ∈ w.db.tasks.rows,
      row.runnerId = d.runnerId → ControlService.selects selector row = true →
        ControlService.mayCancel login isOwner row = true → row.state ≠ .claimed ∧
          (row.state = .accepted → ∀ a, w.journal = some a → a.taskId = row.taskId →
            a.stage ≠ .imported)))
  | .submit .. | .approve .. | .reject .. | .expireStaleClaims _ | .claim .. | .accept ..
  | .recordOutcome .. | .tick => isTrue trivial

instance (e : Outside) : Decidable (w.OutsideOk R d e) := by
  cases e <;> unfold OutsideOk <;> infer_instance

end World

namespace TaskRunner

open World

instance (R : Regime) (d : Deployment) :
    (s : State) → (e : Happening) → Decidable (Machine.Covers (contract R d) (Calm R) s e)
  | (w, .call c _), .act x => inferInstanceAs (Decidable (w.ChoiceOk R d c x))
  | (_, .pure _), .act _ | (_, .raise _), .act _ => isTrue trivial
  | (w, .call ..), .interfere e | (w, .pure _), .interfere e | (w, .raise _), .interfere e =>
    inferInstanceAs (Decidable (w.OutsideOk R d e))
  | (w, .call ..), .crash | (w, .pure _), .crash | (w, .raise _), .crash =>
    inferInstanceAs (Decidable (w.Calm R))

instance (R : Regime) (d : Deployment) (x : Choice) {β : Type} (c : Command β) (w : World) :
    Decidable ((contract R d).choiceOk c x w) :=
  inferInstanceAs (Decidable (w.ChoiceOk R d c x))

/-- Where a list of happenings leads. -/
def after (d : Deployment) (now : Instant) (tokens : ClaimToken) (es : List Happening) : State :=
  es.foldl (step d) (booted d (start now tokens))

theorem run_after (d : Deployment) (now : Instant) (tokens : ClaimToken) (es : List Happening) :
    Run (Step d) (booted d (start now tokens)) es (after d now tokens es) :=
  Run.of_fun (step d) _ es

/-- Which lists of happenings a regime covers. -/
def Covered (R : Regime) (d : Deployment) (now : Instant) (tokens : ClaimToken)
    (es : List Happening) : Prop :=
  Run.Guarded (step d) (Machine.Covers (contract R d) (Calm R)) (booted d (start now tokens)) es

instance (R : Regime) (d : Deployment) (now : Instant) (tokens : ClaimToken)
    (es : List Happening) : Decidable (Covered R d now tokens es) :=
  inferInstanceAs (Decidable (Run.Guarded ..))

theorem coveredRun_after (R : Regime) (d : Deployment) (now : Instant) (tokens : ClaimToken)
    (es : List Happening) (h : Covered R d now tokens es) :
    CoveredRun R d now tokens es (after d now tokens es) :=
  Run.of_guarded _ _ es _ h

end TaskRunner

/-! ## A small deployment of a runner

The runner of the control service's small deployment, with one task class. -/

namespace SmallDeployment

def perfTask : TaskClassSpec where
  name     := "PerfTaskData"
  accepted := ["source", "specifier"]
  required := ["source", "specifier"]
  postInit := fun _ _ => .ok ()

def runner : Deployment where
  runnerId        := "runner-1"
  actor           := "runner:runner-1"
  service         := service
  classes         := ⟨⟨[perfTask], by decide⟩, fun text => some ⟨text, text⟩, fun _ => .ok ()⟩
  live            := true
  maxOutcomeBytes := OutcomeSize.defaultMaxOutcomeBytes
  minOutcomeBytes := by decide
  maxBodyBytes    := 4 * 1024 * 1024
  wireBytes       := fun _ => 100
  outputPath      := "output.jsonl"
  failedLogPath   := "failed_tasks.jsonl"

/-- The runner's next `n` commands, every request answered. -/
def commands (n : ℕ) : List TaskRunner.Happening :=
  List.replicate n (.act ⟨.passed, [], none, 0, true⟩)

/-- An execution that appends one record. -/
def executes : TaskRunner.Happening := .act ⟨.passed, [(100, [])], none, 0, true⟩

/-- The service performs an operation. -/
def served (e : ServiceEvent) : TaskRunner.Happening :=
  .interfere (.operation e.operation e.moment.github)

/-- The world some happenings lead to. -/
def worldAfter (es : List TaskRunner.Happening) : World :=
  (TaskRunner.after runner start 0 es).1

end SmallDeployment

end Conductress
