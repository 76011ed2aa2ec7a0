import Conductress.Control.CanaryTick

/-!
# Idempotency keys

A submission is looked up by its idempotency key and then by its task id. The
store remembers a key in one place only, the row a submission inserted, so what
a replay found by its task id does for its own key is nothing; and the lookup
passes over the empty key, which the insertion stores like any other.

* `Submission.Regular` — the submissions that reach neither gap;
* `submissions_honour_keys` — in every run of regular submissions the store
  refuses no insertion, and a key that succeeded with a payload replays that task
  for the payload and conflicts for every other;
* `replayed_key_forgotten` — the two gaps.
-/

namespace Conductress

open Lib

/-! ## The two halves of a submission -/

/-- What a submission brings to the store once it is admitted. -/
structure Admitted where
  envelope       : TaskEnvelope
  initialState   : TaskState
  approvalReason : Option String
  submitterLogin : Option String

/-- One call of `submit_task`. -/
structure Submission where
  moment         : Moment
  envelope       : TaskEnvelope
  actor          : String
  idempotencyKey : Option String
  identityLogin  : Option String
  ownerBypass    : Bool

namespace Submission

def operation (s : Submission) : Operation :=
  .submit s.envelope s.actor s.idempotencyKey s.identityLogin s.ownerBypass

def event (s : Submission) : ServiceEvent := ⟨s.moment, s.operation⟩

/-- The event says which call it is. -/
theorem event_injective {s t : Submission} (h : s.event = t.event) : s = t := by
  cases s
  cases t
  simp only [event, operation, ServiceEvent.mk.injEq, Operation.submit.injEq] at h
  obtain ⟨rfl, rfl, rfl, rfl, rfl, rfl⟩ := h
  rfl

/-- The answer of the call. -/
def answer (svc : ControlService) (s : Submission) (db : Database) :
    Except ControlError (Database × TaskRow × Bool) :=
  svc.submitTask s.moment s.envelope s.actor s.idempotencyKey s.identityLogin s.ownerBypass db

/-- The checks before the transaction: schema, runner, provenance, approval. -/
def admitted (svc : ControlService) (s : Submission) (db : Database) : Except ControlError Admitted := do
  check s.envelope.schemaValid .schemaInvalid "invalid task envelope"
  check (svc.parsesWithTimezone s.envelope.submittedAt) .schemaInvalid
    "invalid date-time at submitted_at"
  let _ ← svc.registry.getRunner s.envelope.runnerId
  let submitter := resolveSubmitter svc.userDirectory s.envelope s.identityLogin
  let verdict ← orInternal
    (svc.evaluateProvenance s.moment.github s.envelope submitter s.ownerBypass)
  check verdict.accepted .provenanceRejected verdict.reason
  let envelope := ControlService.resolvePullRequest s.envelope verdict.pullRequest
  let decision ← orInternal
    (approvalDecision svc.userDirectory db s.moment.now envelope submitter s.identityLogin)
  let submitterLogin := match submitter with
    | some user => some user.login
    | none => s.identityLogin
  return ⟨envelope, decision.1, decision.2, submitterLogin⟩

/-- The call is its admission and then the transaction of the store. -/
theorem answer_eq (svc : ControlService) (s : Submission) (db : Database) :
    s.answer svc db = s.admitted svc db >>= fun a =>
      ControlService.storeTask a.envelope a.initialState a.approvalReason a.submitterLogin s.moment
        s.actor s.idempotencyKey db := by
  symm
  simp only [admitted, bind_assoc, pure_bind]
  rfl

/-- An admitted submission is answered by the store. -/
theorem answer_of_admitted {svc : ControlService} {s : Submission} {db : Database} {a : Admitted}
    (h : s.admitted svc db = .ok a) :
    s.answer svc db = ControlService.storeTask a.envelope a.initialState a.approvalReason
      a.submitterLogin s.moment s.actor s.idempotencyKey db := by
  rw [answer_eq, h]
  rfl

/-- A submission that was answered was admitted. -/
theorem admitted_of_answer {svc : ControlService} {s : Submission} {db : Database}
    {answer : Database × TaskRow × Bool} (h : s.answer svc db = .ok answer) :
    ∃ a, s.admitted svc db = .ok a := by
  rw [answer_eq] at h
  obtain ⟨a, hadmitted, -⟩ := except_bind_ok.mp h
  exact ⟨a, hadmitted⟩

/-- The condition on a call, in the state it finds: a replay that only its task
id would find names no key of its own, the empty key is not stored for another
task, and a new task's priority fits the column. -/
structure Regular (svc : ControlService) (s : Submission) (db : Database) : Prop where
  recorded : ∀ a, s.admitted svc db = .ok a → ∀ key, s.idempotencyKey = some key →
    db.taskByKey? key = none → ∀ row, db.task? a.envelope.taskId = some row →
      row.envelope ≠ a.envelope.canonical
  nonempty : ∀ a, s.admitted svc db = .ok a → s.idempotencyKey = some "" →
    ∀ other ∈ db.tasks, other.idempotencyKey = some "" → other.taskId = a.envelope.taskId ∨
      ∃ row, db.task? a.envelope.taskId = some row ∧ row.envelope ≠ a.envelope.canonical
  fits : ∀ a, s.admitted svc db = .ok a →
    ControlService.existingTask db s.idempotencyKey a.envelope.taskId = none →
      -2 ^ 63 ≤ a.envelope.priority ∧ a.envelope.priority < 2 ^ 63

end Submission

/-! ## What the table remembers -/

/-- No two rows share a key, and every row stores the envelope of its task. -/
structure KeyedStore (db : Database) : Prop where
  unique : ∀ a ∈ db.tasks, ∀ b ∈ db.tasks, ∀ key, a.idempotencyKey = some key →
    b.idempotencyKey = some key → a = b
  ids    : ∀ row ∈ db.tasks, row.envelope.taskId = row.taskId

/-- A row is stored under a key with a payload. -/
def StoredUnder (db : Database) (key : String) (payload : TaskEnvelope) : Prop :=
  ∃ row ∈ db.tasks, row.idempotencyKey = some key ∧ row.envelope = payload

namespace KeyedStore

variable {db db' : Database}

theorem of_lookup (h : KeyedStore db) (hlook : ∀ id, db'.task? id = db.task? id) : KeyedStore db' := by
  have hmem : ∀ row, row ∈ db'.tasks → row ∈ db.tasks := by
    intro row hrow
    have hfind := Database.task?_of_mem hrow
    rw [hlook] at hfind
    exact (Database.task?_eq_some_iff.mp hfind).1
  exact ⟨fun a ha b hb => h.unique a (hmem a ha) b (hmem b hb), fun row hrow => h.ids row (hmem row hrow)⟩

/-- The rows after an insertion. -/
theorem mem_insert {row row' : TaskRow} (h : db.insertTask row = some db') (hrow' : row' ∈ db'.tasks) :
    row' = row ∨ row' ∈ db.tasks := by
  have hfind := Database.task?_of_mem hrow'
  rw [(Database.insertTask_eq_some h).2.2] at hfind
  by_cases hid : row'.taskId = row.taskId
  · rw [if_pos hid] at hfind
    exact .inl (Option.some.inj hfind).symm
  · rw [if_neg hid] at hfind
    exact .inr (Database.task?_eq_some_iff.mp hfind).1

/-- An insertion finds its key free. -/
theorem insert {row : TaskRow} (hstore : KeyedStore db) (h : db.insertTask row = some db')
    (hid : row.envelope.taskId = row.taskId) : KeyedStore db' := by
  have hfree : ∀ other ∈ db.tasks, ∀ key, row.idempotencyKey = some key →
      other.idempotencyKey ≠ some key := by
    intro other hother key hkey hstored
    have htaken := Database.keyTaken_iff.mpr ⟨key, hkey, other, hother, hstored⟩
    rw [Database.not_keyTaken_of_insertTask h] at htaken
    cases htaken
  refine ⟨fun a ha b hb key hkeyA hkeyB => ?_, fun row' hrow' => ?_⟩
  · rcases mem_insert h ha with rfl | ha₀ <;> rcases mem_insert h hb with rfl | hb₀
    · rfl
    · exact absurd hkeyB (hfree b hb₀ key hkeyA)
    · exact absurd hkeyA (hfree a ha₀ key hkeyB)
    · exact hstore.unique a ha₀ b hb₀ key hkeyA hkeyB
  · rcases mem_insert h hrow' with rfl | hmem
    · exact hid
    · exact hstore.ids row' hmem

/-- Writes leave keys, ids and envelopes alone. -/
theorem change {c : Change} (hstore : KeyedStore db) (h : Change.Step db c db')
    (hc : ∀ action now actor detail row, c ≠ .inserted action now actor detail row) :
    KeyedStore db' := by
  have hbefore : ∀ row' ∈ db'.tasks, ∃ row ∈ db.tasks, row.taskId = row'.taskId ∧
      row.idempotencyKey = row'.idempotencyKey ∧ row.envelope = row'.envelope := by
    intro row' hrow'
    rcases h.mem_after hrow' with ⟨hrow, -⟩ | ⟨action, now, actor, detail, rfl, -, -⟩ |
      ⟨w, now, actor, detail, row, -, hrow, -, rfl⟩
    · exact ⟨row', hrow, rfl, rfl, rfl⟩
    · exact absurd rfl (hc action now actor detail row')
    · exact ⟨row, hrow, by simp, by simp, by simp⟩
  refine ⟨fun a ha b hb key hkeyA hkeyB => ?_, fun row' hrow' => ?_⟩
  · obtain ⟨a₀, ha₀, hidA, hkA, -⟩ := hbefore a ha
    obtain ⟨b₀, hb₀, hidB, hkB, -⟩ := hbefore b hb
    have hsame := hstore.unique a₀ ha₀ b₀ hb₀ key (hkA.trans hkeyA) (hkB.trans hkeyB)
    exact Table.eq_of_key_eq ha hb (by rw [← hidA, ← hidB, hsame])
  · obtain ⟨row, hrow, hid, -, henv⟩ := hbefore row' hrow'
    rw [← henv, hstore.ids row hrow, hid]

end KeyedStore

namespace CanaryScheduler

/-- The transactions of a tick keep the store keyed. -/
theorem evaluateRunner_keyedStore {db db' : Database} {now : Instant} {runnerId : String}
    {profile : CanaryProfile} {utcDate : ℕ} (hstore : KeyedStore db)
    (h : evaluateRunner now runnerId profile utcDate db = .ok db') : KeyedStore db' := by
  unfold evaluateRunner at h
  dsimp only at h
  split at h
  · split at h
    · next entry _ task htask =>
      split at h
      · next hdue =>
        cases h
        obtain ⟨taskId, -, htask⟩ := Option.bind_eq_some_iff.mp htask
        have hmem := (Database.task?_eq_some_iff.mp htask).1
        exact hstore.change (markExpired_step runnerId profile.profileId utcDate now hmem hdue.2.2)
          (by simp)
      · cases h
        exact hstore
    · cases h
      exact hstore
  · split at h
    · cases h
      exact hstore
    · split at h
      · cases h
        exact hstore.of_lookup (task?_ignoreInsert _)
      · unfold createCanary at h
        dsimp only at h
        split at h
        · cases h
          exact hstore.of_lookup (task?_ignoreInsert _)
        · split at h
          · cases h
          · next inserted hins =>
            cases h
            have hscheduled : KeyedStore (ignoreInsert db (scheduleRow runnerId profile.profileId
                utcDate .created (some (canaryTaskId runnerId profile.profileId utcDate)) now)) :=
              hstore.of_lookup (task?_ignoreInsert _)
            exact (hscheduled.insert hins rfl).of_lookup fun id => Database.task?_audit _ _ id

theorem tickFrom_keyedStore {now : Instant} : ∀ (due : List (String × CanaryProfile × ℕ))
    {db : Database}, KeyedStore db → KeyedStore (tickFrom now due db)
  | [], _, hstore => hstore
  | (runnerId, profile, utcDate) :: rest, db, hstore => by
    unfold tickFrom
    cases heval : evaluateRunner now runnerId profile utcDate db with
    | error _ => exact hstore
    | ok db₁ => exact tickFrom_keyedStore rest (evaluateRunner_keyedStore hstore heval)

end CanaryScheduler

/-- **Every operation keeps the store keyed.** -/
theorem perform_keyedStore (svc : ControlService) (m : Moment) (op : Operation) {db : Database}
    (hstore : KeyedStore db) : KeyedStore (perform svc m op db) := by
  cases op with
  | submit envelope actor key login bypass =>
    simp only [perform]
    cases h : svc.submitTask m envelope actor key login bypass db with
    | error _ => exact hstore
    | ok answer =>
      obtain ⟨db', row, created⟩ := answer
      rcases ControlService.submitTask_ok h with ⟨-, rfl⟩ |
        ⟨-, -, pullRequest, state, reason, inserted, -, rfl, hins, rfl⟩
      · exact hstore
      · exact (hstore.insert hins rfl).of_lookup fun id => Database.task?_audit _ _ id
  | tick => exact CanaryScheduler.tickFrom_keyedStore _ hstore
  | _ =>
    obtain ⟨cs, hrun, hcs⟩ := perform_changes svc m _ db
    refine hrun.invariant_of_mem _ hstore fun a c b hc hstep ih => ih.change hstep ?_
    rintro action now actor detail row rfl
    have hpermits := hcs _ hc
    simp [Operation.Permits] at hpermits

/-- Nothing makes the store forget a row. -/
theorem perform_storedUnder (svc : ControlService) (m : Moment) (op : Operation) {db : Database}
    {key : String} {payload : TaskEnvelope} (h : StoredUnder db key payload) :
    StoredUnder (perform svc m op db) key payload := by
  obtain ⟨cs, hrun, -⟩ := perform_changes svc m op db
  refine hrun.invariant (StoredUnder · key payload) h fun a c b hstep ih => ?_
  obtain ⟨row, hrow, hkey, henv⟩ := ih
  rcases hstep.row_after (Database.task?_of_mem hrow) with hfind | ⟨w, now, _, _, -, -, hfind⟩
  · exact ⟨row, (Database.task?_eq_some_iff.mp hfind).1, hkey, henv⟩
  · exact ⟨w.set now row, (Database.task?_eq_some_iff.mp hfind).1, by simpa using hkey,
      by simpa using henv⟩

/-! ## One call -/

namespace ControlService

variable {db : Database}

/-- A non-empty key finds the row stored under it. -/
theorem existingTask_of_key {key taskId : String} (hkey : key ≠ "") {row : TaskRow}
    (hstore : KeyedStore db) (hrow : row ∈ db.tasks) (hstored : row.idempotencyKey = some key) :
    existingTask db (some key) taskId = some row := by
  have hfind : db.taskByKey? key = some row := by
    cases h : db.taskByKey? key with
    | none =>
      have hnone := List.find?_eq_none.mp h row hrow
      simp [hstored] at hnone
    | some found =>
      have hmem := List.mem_of_find?_eq_some h
      have hfound : found.idempotencyKey = some key := by simpa using List.find?_some h
      rw [hstore.unique found hmem row hrow key hfound hstored]
  simp [existingTask, hkey, hfind]

/-- The empty key is passed over. -/
theorem existingTask_empty (taskId : String) : existingTask db (some "") taskId = db.task? taskId := by
  simp [existingTask]

/-- What the store answers when it finds the task. -/
theorem storeTask_of_existing {envelope : TaskEnvelope} {state : TaskState}
    {reason login key : Option String} {m : Moment} {actor : String} {row : TaskRow}
    (h : existingTask db key envelope.taskId = some row) :
    storeTask envelope state reason login m actor key db =
      if row.envelope = envelope.canonical then .ok (db, row, false)
      else .error ⟨.idempotencyConflict,
        "task ID or idempotency key already exists with a different payload"⟩ := by
  rw [storeTask, h]

end ControlService

namespace Submission

variable {svc : ControlService} {s : Submission} {db db' : Database} {a : Admitted} {key : String}

/-- A regular call finds the row stored under its key, or a row of its task id
with another payload. -/
theorem Regular.existing (hregular : s.Regular svc db) (hadmitted : s.admitted svc db = .ok a)
    (hkey : s.idempotencyKey = some key) (hstore : KeyedStore db) {row : TaskRow}
    (hrow : row ∈ db.tasks) (hstored : row.idempotencyKey = some key) :
    ControlService.existingTask db s.idempotencyKey a.envelope.taskId = some row ∨
      (row.envelope ≠ a.envelope.canonical ∧
        ∃ other, ControlService.existingTask db s.idempotencyKey a.envelope.taskId = some other ∧
          other.envelope ≠ a.envelope.canonical) := by
  rw [hkey]
  by_cases hempty : key = ""
  · subst hempty
    rw [ControlService.existingTask_empty]
    rcases hregular.nonempty a hadmitted hkey row hrow hstored with hid | ⟨other, hother, hne⟩
    · exact .inl (hid ▸ Database.task?_of_mem hrow)
    · by_cases hsame : row.envelope = a.envelope.canonical
      · -- the row stores this payload, so it is the row of its task id
        have hid : row.taskId = a.envelope.taskId := by
          rw [← hstore.ids row hrow, hsame]
          rfl
        exact .inl (hid ▸ Database.task?_of_mem hrow)
      · exact .inr ⟨hsame, other, hother, hne⟩
  · exact .inl (ControlService.existingTask_of_key hempty hstore hrow hstored)

/-- **A remembered key is honoured**: the same payload replays the stored task,
another one conflicts. -/
theorem Regular.honours (hregular : s.Regular svc db) (hadmitted : s.admitted svc db = .ok a)
    (hkey : s.idempotencyKey = some key) (hstore : KeyedStore db) {payload : TaskEnvelope}
    (hstored : StoredUnder db key payload) :
    (a.envelope.canonical = payload →
      ∃ row, s.answer svc db = .ok (db, row, false) ∧ row.taskId = payload.taskId) ∧
    (a.envelope.canonical ≠ payload → ∃ message,
      s.answer svc db = .error ⟨.idempotencyConflict, message⟩) := by
  obtain ⟨row, hrow, hrowKey, rfl⟩ := hstored
  rw [answer_of_admitted hadmitted]
  rcases hregular.existing hadmitted hkey hstore hrow hrowKey with hfind | ⟨hne, other, hfind, hother⟩
  · rw [ControlService.storeTask_of_existing hfind]
    constructor
    · intro hsame
      rw [if_pos hsame.symm]
      exact ⟨row, rfl, (hstore.ids row hrow).symm⟩
    · intro hdiff
      rw [if_neg fun heq => hdiff heq.symm]
      exact ⟨_, rfl⟩
  · rw [ControlService.storeTask_of_existing hfind, if_neg hother]
    exact ⟨fun hsame => absurd hsame.symm hne, fun _ => ⟨_, rfl⟩⟩

/-- **A regular call that succeeds is remembered** under its key. -/
theorem Regular.remembers (hregular : s.Regular svc db) (hadmitted : s.admitted svc db = .ok a)
    (hkey : s.idempotencyKey = some key) (hstore : KeyedStore db) {row : TaskRow} {created : Bool}
    (h : s.answer svc db = .ok (db', row, created)) :
    StoredUnder db' key a.envelope.canonical ∧ row.taskId = a.envelope.taskId := by
  rw [answer_of_admitted hadmitted, ControlService.storeTask] at h
  split at h
  · next existing hfind =>
    split at h
    · next hsame =>
      cases h
      have hrow : row ∈ db.tasks := by
        rw [hkey, ControlService.existingTask] at hfind
        rcases Option.or_eq_some_iff.mp hfind with hby | ⟨-, hby⟩
        · split at hby
          · cases hby
          · exact List.mem_of_find?_eq_some hby
        · exact (Database.task?_eq_some_iff.mp hby).1
      have hid : row.taskId = a.envelope.taskId := by
        rw [← hstore.ids row hrow, hsame]
        rfl
      refine ⟨?_, hid⟩
      -- a replay the key does not find is no regular one
      cases hbyKey : db.taskByKey? key with
      | none =>
        have hfound := Database.task?_of_mem hrow
        rw [hid] at hfound
        exact absurd hsame (hregular.recorded a hadmitted key hkey hbyKey row hfound)
      | some stored =>
        have hmem : stored ∈ db.tasks := List.mem_of_find?_eq_some hbyKey
        have hstored : stored.idempotencyKey = some key := by simpa using List.find?_some hbyKey
        rcases hregular.existing hadmitted hkey hstore hmem hstored with hfind' | ⟨-, other, hfind', hne⟩
        · obtain rfl := Option.some.inj (hfind'.symm.trans hfind)
          exact ⟨stored, hmem, hstored, hsame⟩
        · obtain rfl := Option.some.inj (hfind'.symm.trans hfind)
          exact absurd hsame hne
    · cases h
  · dsimp only at h
    split at h
    · cases h
    · next inserted hins =>
      cases h
      have hfind := (Database.insertTask_eq_some hins).2.2
        (ControlService.newRow a.envelope a.initialState a.submitterLogin s.idempotencyKey
          s.moment.now).taskId
      rw [if_pos rfl] at hfind
      exact ⟨⟨_, (Database.task?_eq_some_iff.mp hfind).1, hkey, rfl⟩, rfl⟩

/-- The store refuses no insertion of a regular call. -/
theorem Regular.stores (hregular : s.Regular svc db) (hadmitted : s.admitted svc db = .ok a)
    (hstore : KeyedStore db) : s.answer svc db ≠ .error .internal := by
  rw [answer_of_admitted hadmitted, ControlService.storeTask]
  split
  · split <;> simp [ControlError.internal]
  · next hnone =>
    dsimp only
    split
    · next hins =>
      exfalso
      have hfree : db.task? a.envelope.taskId = none := (Option.or_eq_none_iff.mp hnone).2
      have htaken := Database.keyTaken_of_insertTask_eq_none hins hfree (hregular.fits a hadmitted hnone)
      obtain ⟨key, hkey, other, hother, hstored⟩ := Database.keyTaken_iff.mp htaken
      rcases hregular.existing hadmitted hkey hstore hother hstored with hfind | ⟨-, _, hfind, -⟩ <;>
        rw [hnone] at hfind <;> cases hfind
    · simp

end Submission

/-! ## Runs -/

/-- A step of the service whose submissions are regular. -/
def RegularStep (svc : ControlService) (db : Database) (e : ServiceEvent) (db' : Database) : Prop :=
  (∀ s : Submission, e = s.event → s.Regular svc db) ∧ ServiceStep svc db e db'

theorem regular_run_keyedStore {svc : ControlService} {es : List ServiceEvent} {db db' : Database}
    (h : Run (RegularStep svc) db es db') (hstore : KeyedStore db) : KeyedStore db' :=
  h.invariant _ hstore fun _ _ _ hstep ih => by
    rw [hstep.2]
    exact perform_keyedStore svc _ _ ih

theorem keyedStore_empty : KeyedStore .empty :=
  ⟨fun a ha => absurd ha (Table.not_mem_empty a), fun row hrow => absurd hrow (Table.not_mem_empty row)⟩

/-- **Keys are honoured over whole runs.** In every run of regular submissions,
whatever the service does between them, no submission ends in an error of the
database; and a key that succeeded with a payload replays the same task for that
payload without a new row, and conflicts for every other payload. -/
theorem submissions_honour_keys (svc : ControlService) :
    (∀ (es : List ServiceEvent) (db : Database) (u : Submission) (c : Admitted),
      Run (RegularStep svc) .empty es db → u.Regular svc db → u.admitted svc db = .ok c →
        u.answer svc db ≠ .error .internal) ∧
    ∀ (es fs : List ServiceEvent) (db₁ db₁' db₂ : Database) (s t : Submission) (a b : Admitted)
      (row : TaskRow) (created : Bool) (key : String),
      Run (RegularStep svc) .empty es db₁ → s.Regular svc db₁ → s.admitted svc db₁ = .ok a →
      s.idempotencyKey = some key → s.answer svc db₁ = .ok (db₁', row, created) →
      Run (RegularStep svc) db₁' fs db₂ → t.Regular svc db₂ → t.admitted svc db₂ = .ok b →
      t.idempotencyKey = some key →
        (b.envelope.canonical = a.envelope.canonical →
          ∃ row', t.answer svc db₂ = .ok (db₂, row', false) ∧ row'.taskId = row.taskId) ∧
        (b.envelope.canonical ≠ a.envelope.canonical →
          ∃ message, t.answer svc db₂ = .error ⟨.idempotencyConflict, message⟩) := by
  constructor
  · intro es db u c hrun hu hadmitted
    exact hu.stores hadmitted (regular_run_keyedStore hrun keyedStore_empty)
  intro es fs db₁ db₁' db₂ s t a b row created key hbefore hs hadmitS hkeyS hanswer hbetween ht
    hadmitT hkeyT
  have hstore₁ := regular_run_keyedStore hbefore keyedStore_empty
  have hafter : db₁' = perform svc s.moment s.operation db₁ := by
    have hsubmit : svc.submitTask s.moment s.envelope s.actor s.idempotencyKey s.identityLogin
        s.ownerBypass db₁ = .ok (db₁', row, created) := hanswer
    simp only [perform, Submission.operation, hsubmit, committed]
  have hstore₁' : KeyedStore db₁' := by
    rw [hafter]
    exact perform_keyedStore svc s.moment s.operation hstore₁
  have hstore₂ := regular_run_keyedStore hbetween hstore₁'
  obtain ⟨hstored, hid⟩ := hs.remembers hadmitS hkeyS hstore₁ hanswer
  have hstored₂ : StoredUnder db₂ key a.envelope.canonical := by
    refine hbetween.invariant (StoredUnder · key a.envelope.canonical) hstored
      fun x e y hstep ih => ?_
    rw [hstep.2]
    exact perform_storedUnder svc _ _ ih
  obtain ⟨hreplay, hconflict⟩ := ht.honours hadmitT hkeyT hstore₂ hstored₂
  refine ⟨fun hsame => ?_, hconflict⟩
  obtain ⟨row', hanswer', hid'⟩ := hreplay hsame
  exact ⟨row', hanswer', hid'.trans hid.symm⟩

namespace SmallDeployment

/-- An operator's submission of a manual task under a key. -/
def submission (n : ℕ) (taskId key : String) : Submission :=
  ⟨moment n, envelope taskId .manual, "operator:ops", some key, none, false⟩

/-- Without a provenance gate the envelope is stored as it is. -/
theorem submission_admitted {n : ℕ} {taskId key : String} {db : Database} {a : Admitted}
    (h : (submission n taskId key).admitted service db = .ok a) : a.envelope = envelope taskId .manual := by
  obtain ⟨_, -, h⟩ := except_bind_ok.mp h
  obtain ⟨_, -, h⟩ := except_bind_ok.mp h
  obtain ⟨_, -, h⟩ := except_bind_ok.mp h
  obtain ⟨verdict, hverdict, h⟩ := except_bind_ok.mp h
  obtain ⟨_, -, h⟩ := except_bind_ok.mp h
  obtain ⟨_, -, h⟩ := except_bind_ok.mp h
  obtain rfl := except_pure_ok.mp h
  cases hverdict
  rfl

/-- A key stored for its task, or not stored with a new task, is regular. -/
theorem submission_regular {n : ℕ} {taskId key : String} {db : Database} (hkey : key ≠ "")
    (hnew : db.taskByKey? key = none → db.task? taskId = none) :
    (submission n taskId key).Regular service db where
  recorded a hadmitted stored hstored hnone row hrow := by
    obtain rfl : key = stored := Option.some.inj hstored
    rw [submission_admitted hadmitted] at hrow
    rw [show db.task? (envelope taskId .manual).taskId = none from hnew hnone] at hrow
    cases hrow
  nonempty a hadmitted hstored := absurd (Option.some.inj hstored) hkey
  fits a hadmitted _ := by
    rw [submission_admitted hadmitted]
    simp [envelope]

/-- The database after one keyed submission. -/
def keyedOnce : Database := serve service .empty [(submission 0 "t1" "k").event]

end SmallDeployment

open SmallDeployment in
/-- The key of a stored task, sent with another task; and a third task under a
key of its own, which the store takes. -/
theorem submissions_honour_keys_conflict :
    (∃ message, (submission 1 "t2" "k").answer service keyedOnce =
      .error ⟨.idempotencyConflict, message⟩) ∧
    (submission 2 "t3" "k3").answer service keyedOnce ≠ .error .internal := by
  have hregular : (submission 0 "t1" "k").Regular service .empty :=
    submission_regular (by decide) fun _ => rfl
  have hconflict : (submission 1 "t2" "k").Regular service keyedOnce :=
    submission_regular (by decide) fun _ => by decide
  have hthird : (submission 2 "t3" "k3").Regular service keyedOnce :=
    submission_regular (by decide) fun _ => by decide
  have hrun : Run (RegularStep service) .empty [(submission 0 "t1" "k").event] keyedOnce := by
    refine .single ⟨fun s hs => ?_, rfl⟩
    obtain rfl := Submission.event_injective hs
    exact hregular
  obtain ⟨hstores, hkeys⟩ := submissions_honour_keys service
  exact ⟨(hkeys [] [] .empty keyedOnce keyedOnce _ _ ⟨envelope "t1" .manual, .queued, none, none⟩
      ⟨envelope "t2" .manual, .queued, none, none⟩ _ _ "k" (.refl _) hregular rfl rfl rfl
      (.refl keyedOnce) hconflict rfl rfl).2 (by decide),
    hstores _ keyedOnce _ ⟨envelope "t3" .manual, .queued, none, none⟩ hrun hthird rfl⟩

open SmallDeployment in
/-- A replay found by its task id succeeds and forgets its key, which another
task then takes; and the empty key, taken once, fails the next task that
carries it in the database. -/
theorem replayed_key_forgotten :
    (¬ ∀ (svc : ControlService) (es : List ServiceEvent) (db db' : Database) (s t : Submission)
      (a b : Admitted) (row : TaskRow) (created : Bool) (key : String),
      Run (ServiceStep svc) .empty es db → s.admitted svc db = .ok a → s.idempotencyKey = some key →
        s.answer svc db = .ok (db', row, created) → t.admitted svc db' = .ok b →
          t.idempotencyKey = some key → b.envelope.canonical ≠ a.envelope.canonical →
            ∃ message, t.answer svc db' = .error ⟨.idempotencyConflict, message⟩) ∧
    ¬ ∀ (svc : ControlService) (es : List ServiceEvent) (db : Database) (t : Submission),
      Run (ServiceStep svc) .empty es db → t.answer svc db ≠ .error .internal := by
  constructor
  · intro h
    -- the first submission carries no key; the replay carries "k"
    have hrun := serve_run service .empty [submit 0 "t1"]
    obtain ⟨message, herror⟩ := h _ _ _ _ (submission 1 "t1" "k") (submission 2 "t2" "k")
      ⟨envelope "t1" .manual, .queued, none, none⟩ ⟨envelope "t2" .manual, .queued, none, none⟩
      _ _ "k" hrun rfl rfl rfl rfl rfl (by decide)
    have hcreated : ((submission 2 "t2" "k").answer service
        (serve service .empty [submit 0 "t1"])).toBool = true := by decide
    rw [herror] at hcreated
    cases hcreated
  · intro h
    have hrun := serve_run service .empty [(submission 0 "t1" "").event]
    exact h _ _ _ (submission 1 "t2" "") hrun rfl

end Conductress
