import Conductress.Control.Lifecycle

/-!
# Ticks that raise

A tick runs one transaction for every runner, profile and day, and the first
transaction that raises ends it: `evaluateAll` is the loop with its exception,
`tickFrom` the database it leaves behind. The only statement that can raise is
the insertion of a canary, whose idempotency key is its task id: the scheduler
looks for the task id first and never for the key, and submitters choose keys.

* `evaluateRunner_ok` — an evaluation does not raise while every row stored
  under a canary's key is that canary's;
* `tick_never_raises` — in every run in which no submission is stored under a
  canary's id for another task, no tick raises;
* `key_stops_canaries` — one foreign key stops the tick, and with it the
  canaries of the runners after it.
-/

namespace Conductress

open Lib

namespace CanaryScheduler

/-- The transaction of one runner, profile and day. -/
def evaluate (now : Instant) (db : Database) (due : String × CanaryProfile × ℕ) :
    Except PyError Database :=
  evaluateRunner now due.1 due.2.1 due.2.2 db

/-- The loop of `tick`, with the exception that ends it. -/
def evaluateAll (now : Instant) (due : List (String × CanaryProfile × ℕ)) (db : Database) :
    Except PyError Database :=
  due.foldlM (evaluate now) db

/-- A loop that raises nothing leaves what its transactions committed. -/
theorem tickFrom_ok {now : Instant} {due : List (String × CanaryProfile × ℕ)} {db db' : Database}
    (h : evaluateAll now due db = .ok db') : tickFrom now due db = db' := by
  induction due generalizing db with
  | nil =>
    rw [evaluateAll, List.foldlM_nil] at h
    exact except_pure_ok.mp h
  | cons d rest ih =>
    rw [evaluateAll, List.foldlM_cons] at h
    obtain ⟨db₁, heval, hrest⟩ := except_bind_ok.mp h
    have hstep : evaluateRunner now d.1 d.2.1 d.2.2 db = .ok db₁ := heval
    rw [tickFrom, hstep]
    exact ih hrest

/-- A loop that raises leaves what the transactions before the failing one
committed, and that one finds them. -/
theorem tickFrom_error {now : Instant} {due : List (String × CanaryProfile × ℕ)} {db : Database}
    {e : PyError} (h : evaluateAll now due db = .error e) :
    ∃ before d after, due = before ++ d :: after ∧
      evaluateAll now before db = .ok (tickFrom now due db) ∧
      evaluate now (tickFrom now due db) d = .error e := by
  induction due generalizing db with
  | nil =>
    rw [evaluateAll, List.foldlM_nil] at h
    cases h
  | cons d rest ih =>
    rw [evaluateAll, List.foldlM_cons] at h
    cases heval : evaluate now db d with
    | error e' =>
      have hstep : evaluateRunner now d.1 d.2.1 d.2.2 db = .error e' := heval
      have hsame : e' = e := by
        rw [heval] at h
        exact Except.error.inj h
      have hstay : tickFrom now (d :: rest) db = db := by
        rw [tickFrom, hstep]
      refine ⟨[], d, rest, rfl, ?_, ?_⟩
      · rw [hstay]
        rfl
      · rw [hstay, heval, hsame]
    | ok db₁ =>
      have hstep : evaluateRunner now d.1 d.2.1 d.2.2 db = .ok db₁ := heval
      rw [heval] at h
      have hgo : tickFrom now (d :: rest) db = tickFrom now rest db₁ := by
        rw [tickFrom, hstep]
      obtain ⟨before, d', after, hsplit, hok, herror⟩ := ih h
      refine ⟨d :: before, d', after, by rw [hsplit, List.cons_append], ?_, ?_⟩
      · rw [hgo, evaluateAll, List.foldlM_cons, heval]
        exact hok
      · rw [hgo]
        exact herror

end CanaryScheduler

/-! ## Keys that belong to canaries -/

/-- The text is the task id of a canary of an enabled runner with a profile. -/
def IsCanaryId (svc : ControlService) (text : String) : Prop :=
  ∃ runner ∈ svc.registry.enabledRunners, ∃ profile,
    runner.canaryProfile.bind svc.canaryProfiles.find? = some profile ∧
    ∃ utcDate, text = CanaryScheduler.canaryTaskId runner.runnerId profile.profileId utcDate

/-- What a canary's task id starts with. -/
theorem IsCanaryId.head {svc : ControlService} {text : String} (h : IsCanaryId svc text) :
    text.toList.head? = some 'c' := by
  obtain ⟨runner, -, profile, -, utcDate, rfl⟩ := h
  simp [CanaryScheduler.canaryTaskId]

/-- Every row stored under a canary's id is that canary's row. -/
def CanaryKeysOwn (svc : ControlService) (db : Database) : Prop :=
  ∀ row ∈ db.tasks, ∀ key, row.idempotencyKey = some key → IsCanaryId svc key → row.taskId = key

/-- The condition on an operation: it stores no submission under the id of a
canary that is not the submission's own task id. -/
def KeepsOffCanaryKeys (svc : ControlService) (db : Database) : Operation → Prop
  | .submit envelope _ (some key) _ _ =>
    IsCanaryId svc key →
      envelope.taskId = key ∨
        (ControlService.existingTask db (some key) envelope.taskId).isSome = true
  | _ => True

namespace CanaryScheduler

/-- Creating a canary does not raise while no other row is stored under its id. -/
theorem createCanary_ok {db : Database} {runnerId : String} {profile : CanaryProfile} {utcDate : ℕ}
    {now : Instant}
    (hown : ∀ row ∈ db.tasks,
      row.idempotencyKey = some (canaryTaskId runnerId profile.profileId utcDate) →
        row.taskId = canaryTaskId runnerId profile.profileId utcDate) :
    ∃ db', createCanary db runnerId profile utcDate now = .ok db' := by
  unfold createCanary
  dsimp only
  split
  · exact ⟨_, rfl⟩
  · next hnone =>
    split
    · next hins =>
      -- the refused insertion can only have met the UNIQUE constraint on the key
      exfalso
      have hfree : db.task? (canaryTaskId runnerId profile.profileId utcDate) = none := by
        simpa using hnone
      have htaken := Database.keyTaken_of_insertTask_eq_none hins (by rw [task?_ignoreInsert]; exact hfree)
        ⟨by simp [ControlService.newRow, buildEnvelope, priorityCanary],
          by simp [ControlService.newRow, buildEnvelope, priorityCanary]⟩
      obtain ⟨key, hkey, other, hother, hstored⟩ := Database.keyTaken_iff.mp htaken
      have hkey' : canaryTaskId runnerId profile.profileId utcDate = key := Option.some.inj hkey
      rw [ignoreInsert_tasks] at hother
      have hid := hown other hother (by rw [hkey', hstored])
      have hfind := Database.task?_of_mem hother
      rw [hid, hfree] at hfind
      cases hfind
    · exact ⟨_, rfl⟩

/-- **An evaluation does not raise** while canary keys belong to canaries. -/
theorem evaluateRunner_ok {db : Database} {runnerId : String} {profile : CanaryProfile} {utcDate : ℕ}
    {now : Instant}
    (hown : ∀ row ∈ db.tasks,
      row.idempotencyKey = some (canaryTaskId runnerId profile.profileId utcDate) →
        row.taskId = canaryTaskId runnerId profile.profileId utcDate) :
    ∃ db', evaluateRunner now runnerId profile utcDate db = .ok db' := by
  unfold evaluateRunner
  dsimp only
  split
  · split
    · split <;> exact ⟨_, rfl⟩
    · exact ⟨_, rfl⟩
  · split
    · exact ⟨_, rfl⟩
    · split
      · exact ⟨_, rfl⟩
      · exact createCanary_ok hown

end CanaryScheduler

/-! ## The invariant -/

/-- A change whose insertions keep off canary keys keeps the invariant: writes
leave key and task id alone. -/
theorem Change.Step.canaryKeysOwn {svc : ControlService} {db db' : Database} {c : Change}
    (h : Change.Step db c db')
    (hc : ∀ action now actor detail row, c = .inserted action now actor detail row →
      ∀ key, row.idempotencyKey = some key → IsCanaryId svc key → row.taskId = key)
    (hown : CanaryKeysOwn svc db) : CanaryKeysOwn svc db' := by
  intro row' hrow' key hkey hcanary
  rcases h.mem_after hrow' with ⟨hrow, -⟩ | ⟨action, now, actor, detail, rfl, -, -⟩ |
    ⟨w, now, actor, detail, row, rfl, hrow, -, rfl⟩
  · exact hown row' hrow key hkey hcanary
  · exact hc action now actor detail row' rfl key hkey hcanary
  · rw [StateWrite.set_idempotencyKey] at hkey
    rw [StateWrite.set_taskId]
    exact hown row hrow key hkey hcanary

/-- A tick inserts every canary under its own id. -/
theorem CanaryScheduler.TickChange.ownKey {now : Instant} {due : List (String × CanaryProfile × ℕ)}
    {c : Change} (h : TickChange now due c) :
    ∀ action now actor detail row, c = .inserted action now actor detail row →
      ∀ key, row.idempotencyKey = some key → row.taskId = key := by
  rintro action now' actor detail row rfl key hkey
  rcases h with ⟨_, _, _, heq⟩ | ⟨_, _, heq⟩ | ⟨_, heq⟩
  · cases heq
    exact Option.some.inj hkey
  · cases heq
  · cases heq

/-- **One operation keeps canary keys with their canaries**, submissions under
their condition. -/
theorem perform_canaryKeysOwn {svc : ControlService} {m : Moment} {op : Operation} {db : Database}
    (hkeeps : KeepsOffCanaryKeys svc db op) (hown : CanaryKeysOwn svc db) :
    CanaryKeysOwn svc (perform svc m op db) := by
  cases op with
  | submit envelope actor key login bypass =>
    simp only [perform]
    cases h : svc.submitTask m envelope actor key login bypass db with
    | error _ => exact hown
    | ok answer =>
      obtain ⟨db', row, created⟩ := answer
      rcases ControlService.submitTask_ok h with ⟨-, rfl⟩ |
        ⟨-, -, pullRequest, state, reason, inserted, hdecision, rfl, hins, rfl⟩
      · exact hown
      · have hstep := ControlService.insert_step hins (ControlService.newRow_fresh
          (ControlService.approvalDecision_state hdecision)) .taskSubmit m.now actor
          (reason.map fun text => [("reason", Json.str text)])
        refine hstep.canaryKeysOwn ?_ hown
        rintro _ _ _ _ row heq stored hstored hcanary
        cases heq
        have hid : (ControlService.resolvePullRequest envelope pullRequest).taskId =
            envelope.taskId := by cases pullRequest <;> rfl
        obtain rfl : key = some stored := hstored
        rcases hkeeps hcanary with hsame | hexisting
        · exact hid.trans hsame
        · -- an insertion found neither the key nor the task id
          have hnone := ControlService.existingTask_eq_none hins
          simp only [ControlService.newRow, hid] at hnone
          rw [hnone] at hexisting
          cases hexisting
  | tick =>
    obtain ⟨cs, hrun, hcs⟩ :=
      CanaryScheduler.tickFrom_changes (CanaryScheduler.evaluations svc m.now) db
    refine hrun.invariant_of_mem _ hown fun a c b hc hstep ih => hstep.canaryKeysOwn ?_ ih
    intro action now actor detail row heq key hkey _
    exact (hcs c hc).ownKey action now actor detail row heq key hkey
  | _ =>
    obtain ⟨cs, hrun, hcs⟩ := perform_changes svc m _ db
    refine hrun.invariant_of_mem _ hown fun a c b hc hstep ih => hstep.canaryKeysOwn ?_ ih
    rintro action now actor detail row rfl
    have hpermits := hcs _ hc
    simp [Operation.Permits] at hpermits

/-- The evaluations of a tick are about canaries of the fleet. -/
theorem CanaryScheduler.isCanaryId_of_mem {svc : ControlService} {now : Instant}
    {due : String × CanaryProfile × ℕ} (h : due ∈ evaluations svc now) :
    IsCanaryId svc (canaryTaskId due.1 due.2.1.profileId due.2.2) := by
  obtain ⟨runner, hrunner, hdue⟩ := List.mem_flatMap.mp h
  cases hprofile : runner.canaryProfile.bind svc.canaryProfiles.find? with
  | none =>
    rw [hprofile] at hdue
    cases hdue
  | some profile =>
    rw [hprofile] at hdue
    simp only [List.mem_cons, List.not_mem_nil, or_false] at hdue
    rcases hdue with rfl | rfl <;> exact ⟨runner, hrunner, profile, hprofile, _, rfl⟩

/-- The loop raises nothing while canary keys belong to canaries: each of its
transactions leaves them so. -/
theorem CanaryScheduler.evaluateAll_ok {svc : ControlService} {m : Moment}
    {due : List (String × CanaryProfile × ℕ)} {db : Database}
    (hdue : ∀ d ∈ due, IsCanaryId svc (canaryTaskId d.1 d.2.1.profileId d.2.2))
    (hown : CanaryKeysOwn svc db) : ∃ db', evaluateAll m.now due db = .ok db' := by
  induction due generalizing db with
  | nil => exact ⟨db, rfl⟩
  | cons d rest ih =>
    have hcanary := hdue d List.mem_cons_self
    obtain ⟨db₁, heval⟩ : ∃ db₁, evaluateRunner m.now d.1 d.2.1 d.2.2 db = .ok db₁ :=
      evaluateRunner_ok fun row hrow hkey => hown row hrow _ hkey hcanary
    obtain ⟨cs, hrun, hcs⟩ := evaluateRunner_changes heval
    have hown₁ : CanaryKeysOwn svc db₁ := by
      refine hrun.invariant_of_mem _ hown fun a c b hc hstep ih => hstep.canaryKeysOwn ?_ ih
      intro action now actor detail row heq key hkey _
      exact (hcs c hc).ownKey action now actor detail row heq key hkey
    obtain ⟨db', hrest⟩ := ih (fun d hd => hdue d (List.mem_cons_of_mem _ hd)) hown₁
    refine ⟨db', ?_⟩
    rw [evaluateAll, List.foldlM_cons]
    exact except_bind_ok.mpr ⟨db₁, heval, hrest⟩

/-! ## Runs -/

/-- **No tick raises**, whenever it is made, in a state reached by a run in
which no submission is stored under another task's canary id. -/
theorem tick_never_raises {svc : ControlService} {es : List ServiceEvent} {db : Database}
    (h : Run (fun db e db' => KeepsOffCanaryKeys svc db e.operation ∧ ServiceStep svc db e db')
      .empty es db) (m : Moment) :
    ∃ db', CanaryScheduler.evaluateAll m.now (CanaryScheduler.evaluations svc m.now) db = .ok db' := by
  have hown : CanaryKeysOwn svc db := by
    refine h.invariant _ (fun row hrow => absurd hrow (Table.not_mem_empty row)) ?_
    rintro a e _ ⟨hkeeps, rfl⟩ ih
    exact perform_canaryKeysOwn hkeeps ih
  exact CanaryScheduler.evaluateAll_ok (fun d hd => CanaryScheduler.isCanaryId_of_mem hd) hown

namespace SmallDeployment

def profile : CanaryProfile where
  profileId      := "standard"
  profileVersion := 1
  source         := "valkey"
  pinnedCommit   := "0123456789abcdef0123456789abcdef01234567"
  makeArgs       := .str ""
  workload       := [("test", .str "get"), ("duration_seconds", .int 60)]
  utcHour        := 0
  freshnessHours := 12

/-- Two enabled runners with one canary profile. -/
def canaried : ControlService :=
  { service with
    registry := ⟨⟨[⟨"runner-1", true, some "standard"⟩, ⟨"runner-2", true, some "standard"⟩],
      by decide⟩⟩
    canaryProfiles := ⟨[profile], by decide⟩ }

/-- An operator's submission under an idempotency key. -/
def submitKeyed (n : ℕ) (taskId key : String) : ServiceEvent :=
  ⟨moment n, .submit (envelope taskId .manual) "operator:ops" (some key) none false⟩

end SmallDeployment

open SmallDeployment in
/-- A submission under a key of its own does not disturb the tick. -/
theorem tick_never_raises_keyed :
    ∃ db', CanaryScheduler.evaluateAll (moment 1).now
      (CanaryScheduler.evaluations canaried (moment 1).now)
      (serve canaried .empty [submitKeyed 0 "t1" "retry-1"]) = .ok db' := by
  refine tick_never_raises (serve_guarded canaried (KeepsOffCanaryKeys canaried) .empty _ ?_) (moment 1)
  refine ⟨?_, trivial⟩
  intro hcanary
  have hhead : some 'r' = some 'c' := hcanary.head
  cases hhead

open SmallDeployment in
/-- A manual task submitted under the key of the first runner's canary: the
tick raises on it, and the second runner gets no canary either. -/
theorem key_stops_canaries :
    ¬ ∀ (svc : ControlService) (es : List ServiceEvent) (db : Database) (m : Moment),
      Run (ServiceStep svc) .empty es db →
        ∃ db', CanaryScheduler.evaluateAll m.now (CanaryScheduler.evaluations svc m.now) db =
          .ok db' := by
  intro h
  have hrun := serve_run canaried .empty
    [submitKeyed 0 "t1" "canary:runner-1:standard:2026-01-01"]
  obtain ⟨db', hok⟩ := h _ _ _ (moment 1) hrun
  have hraises : (CanaryScheduler.evaluateAll (moment 1).now
      (CanaryScheduler.evaluations canaried (moment 1).now)
      (serve canaried .empty [submitKeyed 0 "t1" "canary:runner-1:standard:2026-01-01"])).toBool =
        false := by decide +kernel
  rw [hok] at hraises
  cases hraises

end Conductress
