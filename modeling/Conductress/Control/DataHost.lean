import Conductress.Control.Canaries
import Conductress.Control.DriftAnalyzer
import Conductress.Control.History

/-!
# Outcomes on the data host

`record_outcome` makes three durable writes: the transaction of the row, the
transaction of the drift analyzer, and one line of the results JSONL. The last
two follow the first, raise nothing and are not made again: a replayed outcome
returns before them. A `HostEvent` says after which write the process dies and
whether the mirror can be appended to.

* `DataHost.Sound` — a record in the mirror is that of a completed or failed
  row, and no task has two;
* `recorded_once` — a completed or failed row was recorded by one call, after
  which it never changes;
* `outcome_delivered` — behind every acknowledged outcome is the call that
  recorded it, and what that call lived to do stays done;
* `delivery_not_guaranteed` — a call that dies after its commit is acknowledged
  when it is repeated, with neither an observation nor a record.
-/

namespace Conductress

open Lib

/-! ## What follows the commit -/

namespace ControlService

/-- `canary_id.rsplit(":", 1)`, when it has two parts. -/
def splitCanaryId (canaryId : String) : Option (String × String) :=
  let cs := canaryId.toList.reverse
  match cs.dropWhile fun c => c ≠ ':' with
  | [] => none
  | _ :: profileId =>
    some (String.ofList profileId.reverse, String.ofList (cs.takeWhile fun c => c ≠ ':').reverse)

/-- What stands between the first `" v"` and a space or closing parenthesis. -/
def versionText : List Char → Option (List Char)
  | [] => none
  | [_] => none
  | c :: d :: cs =>
    if c = ' ' ∧ d = 'v' then some (cs.takeWhile fun c => c ≠ ' ' ∧ c ≠ ')')
    else versionText (d :: cs)

/-- `_parse_version_from_note`. -/
def parseVersionFromNote (envelope : TaskEnvelope) : Except PyError Int :=
  match (Json.lookup envelope.task "note").getD (.str "") with
  | .str note =>
    match versionText note.toList with
    | some text => .ok ((PyText.parseInt (String.ofList text)).getD 1)
    | none => .ok 1
  | .arr items =>
    if .str " v" ∈ items then .error (.attributeError "'list' object has no attribute 'split'")
    else .ok 1
  | .obj fields =>
    if (Json.lookup fields " v").isSome then
      .error (.attributeError "'dict' object has no attribute 'split'")
    else .ok 1
  | _ => .error (.typeError "argument is not iterable")

/-- An item `dict(..)` reads as a key and a value, the key a text: any other
key fails when the dictionary is written with its keys sorted. -/
def isTextPair : Json → Bool
  | .arr [.str _, _] => true
  | .str s => s.length = 2
  | .obj [_, _] => true
  | _ => false

/-- Building the environment fingerprint; only that it may raise is kept. -/
def checkEnvironment (svc : ControlService) (runnerId : String) (result : Fields) :
    Except PyError Unit := do
  let environment := Json.getD result "environment"
  if environment.truthy then
    match environment with
    | .obj _ => pure ()
    | .arr items =>
      if !items.all isTextPair then throw (.typeError "cannot convert dictionary update sequence")
    | _ => throw (.typeError "object is not a dictionary")
  if !(Json.getD result "platform").truthy && (svc.registry.runners.find? runnerId).isNone then
    throw (.runtimeError ("unknown runner: " ++ runnerId))

/-- The profile's version, or the one the note of an unknown profile names. -/
def profileVersion (svc : ControlService) (profileId : String) (envelope : TaskEnvelope) :
    Except PyError Int :=
  match svc.canaryProfiles.find? profileId with
  | some profile => .ok profile.profileVersion
  | none => parseVersionFromNote envelope

/-- The arguments `_ingest_canary_observation` hands to the analyzer, if the
canary id names a profile and a date. -/
def canaryIngestion (svc : ControlService) (outcome : TaskOutcome) (canaryId : String)
    (row : TaskRow) : Except PyError (Option DriftAnalyzer.Ingestion) :=
  match splitCanaryId canaryId with
  | none => .ok none
  | some (profileId, utcDate) =>
    if profileId = "" ∨ utcDate = "" then .ok none
    else do
      let profileVersion ← svc.profileVersion profileId row.envelope
      svc.checkEnvironment row.runnerId (outcome.result.get.getD [])
      return some ⟨row.taskId, row.runnerId, outcome, profileId, profileVersion, utcDate⟩

/-- `_ingest_canary_observation`: an exception is logged and nothing is stored. -/
def ingestCanaryObservation (svc : ControlService) (now : Instant) (outcome : TaskOutcome)
    (canaryId : String) (row : TaskRow) (t : DriftTables) : DriftTables :=
  match svc.canaryIngestion outcome canaryId row with
  | .ok (some i) =>
    match DriftAnalyzer.ingestOutcome now i t with
    | .ok t => t
    | .error _ => t
  | .ok none => t
  | .error _ => t

/-- The canary id whose observation a recorded outcome has. -/
def canaryMetadata (outcome : TaskOutcome) (row : TaskRow) : Option String :=
  if row.taskClass = .canary ∧ outcome.state = .completed then
    row.canaryId.filter fun canaryId => decide (canaryId ≠ "")
  else none

end ControlService

/-- A line of the results JSONL. -/
structure OutcomeRecord where
  taskId         : String
  runnerId       : String
  batchId        : Option String
  submitterLogin : Option String
  state          : TaskState
  completedAt    : Option String
  envelope       : TaskEnvelope
  outcome        : Option TaskOutcome
  deriving DecidableEq

/-- The record `_publish_outcome` writes for a row. -/
def outcomeRecord (row : TaskRow) : OutcomeRecord where
  taskId         := row.taskId
  runnerId       := row.runnerId
  batchId        := row.batchId
  submitterLogin := row.submitterLogin
  state          := row.state
  completedAt    := row.completedAt
  envelope       := row.envelope
  outcome        := row.outcome

/-- The durable state of the data host. -/
structure DataHost where
  db      : Database
  drift   : DriftTables
  results : List OutcomeRecord

/-- How far a call that records an outcome gets. -/
inductive Fate where
  | diedAfterCommit | diedAfterIngestion | diedAfterMirror | answered
  deriving DecidableEq, Repr

/-- An operation of the service, with the fate of its process and whether the
results JSONL is configured and can be appended to. -/
structure HostEvent where
  moment         : Moment
  operation      : Operation
  fate           : Fate
  mirrorWritable : Bool

namespace HostEvent

/-- The process lives to ingest the observation. -/
def ingests (e : HostEvent) : Bool := decide (e.fate ≠ .diedAfterCommit)

/-- The process lives to append to the mirror, and can. -/
def mirrors (e : HostEvent) : Bool :=
  decide (e.fate = .diedAfterMirror ∨ e.fate = .answered) && e.mirrorWritable

end HostEvent

namespace DataHost

def empty : DataHost := ⟨.empty, .empty, []⟩

/-- What `record_outcome` does after its transaction changed a row. -/
def afterCommit (svc : ControlService) (e : HostEvent) (outcome : TaskOutcome) (row : TaskRow)
    (host : DataHost) : DataHost where
  db      := host.db
  drift   :=
    match ControlService.canaryMetadata outcome row with
    | some canaryId =>
      if e.ingests then svc.ingestCanaryObservation e.moment.now outcome canaryId row host.drift
      else host.drift
    | none => host.drift
  results := if e.mirrors then host.results ++ [outcomeRecord row] else host.results

/-- One operation on the data host. -/
def step (svc : ControlService) (host : DataHost) (e : HostEvent) : DataHost :=
  match e.operation with
  | .recordOutcome runnerId taskId outcome actor =>
    match svc.recordOutcome e.moment.now runnerId taskId outcome actor host.db with
    | .ok (db, row, true) => afterCommit svc e outcome row { host with db }
    | .ok (db, _, false) => { host with db }
    | .error _ => host
  | op => { host with db := perform svc e.moment op host.db }

/-- The data host after a list of events. -/
def run (svc : ControlService) (es : List HostEvent) : DataHost := es.foldl (step svc) empty

theorem run_snoc (svc : ControlService) (es : List HostEvent) (e : HostEvent) :
    run svc (es ++ [e]) = step svc (run svc es) e := by
  rw [run, List.foldl_append]
  rfl

end DataHost

/-- The call records this outcome: the row it leaves is `row`. -/
def Records (svc : ControlService) (host : DataHost) (e : HostEvent) (outcome : TaskOutcome)
    (row : TaskRow) : Prop :=
  ∃ runnerId taskId actor db, e.operation = .recordOutcome runnerId taskId outcome actor ∧
    svc.recordOutcome e.moment.now runnerId taskId outcome actor host.db = .ok (db, row, true)

/-- The call is answered without an error: the runner stops resending. -/
def Acknowledges (svc : ControlService) (host : DataHost) (e : HostEvent) (outcome : TaskOutcome) :
    Prop :=
  ∃ runnerId taskId actor db row changed,
    e.operation = .recordOutcome runnerId taskId outcome actor ∧ e.fate = .answered ∧
      svc.recordOutcome e.moment.now runnerId taskId outcome actor host.db = .ok (db, row, changed)

/-! ## Reported rows -/

/-- The row has an outcome a runner reported. -/
def TaskRow.IsReported (row : TaskRow) : Prop := row.state = .completed ∨ row.state = .failed

/-- Only `record_outcome` makes the write of an outcome. -/
theorem Operation.Permits.of_report {svc : ControlService} {m : Moment} {op : Operation}
    {outcome : TaskOutcome} {now : Instant} {actor : String} {detail : Option Fields} {row : TaskRow}
    (h : op.Permits svc m (.wrote (.report outcome) now actor detail row)) :
    ∃ runnerId taskId reported reporter,
      op = .recordOutcome runnerId taskId reported reporter := by
  cases op with
  | recordOutcome runnerId taskId reported reporter => exact ⟨_, _, _, _, rfl⟩
  | cancel =>
    obtain ⟨w, row', -, -, hw, heq⟩ := h
    cases heq
    cases hstate : row.state <;> rw [hstate] at hw <;> cases hw
  | _ => simp [Operation.Permits] at h

/-- No other operation leaves a reported row it did not find. -/
theorem perform_reported_before {svc : ControlService} {m : Moment} {op : Operation} {db : Database}
    (hop : ∀ runnerId taskId outcome actor, op ≠ .recordOutcome runnerId taskId outcome actor)
    {row : TaskRow} (hrow : row ∈ (perform svc m op db).tasks) (hreported : row.IsReported) :
    row ∈ db.tasks := by
  obtain ⟨cs, hrun, hcs⟩ := perform_changes svc m op db
  refine hrun.invariant_of_mem (fun db' => ∀ row ∈ db'.tasks, row.IsReported → row ∈ db.tasks)
    (fun row hrow _ => hrow) (fun a c b hc hstep ih row hrow hreported => ?_) row hrow hreported
  rcases hstep.mem_after hrow with ⟨hrow, -⟩ | ⟨_, _, _, _, -, -, hfresh⟩ |
    ⟨w, now, actor, detail, old, rfl, -, -, rfl⟩
  · exact ih row hrow hreported
  · rcases hfresh.state with hstate | hstate <;> rcases hreported with h | h <;>
      rw [hstate] at h <;> cases h
  · exfalso
    cases w with
    | report outcome =>
      obtain ⟨runnerId, taskId, reported, reporter, heq⟩ := (hcs _ hc).of_report
      exact hop _ _ _ _ heq
    | _ => rcases hreported with h | h <;> cases h

/-- A reported row stays as it is. -/
theorem perform_reported_after (svc : ControlService) (m : Moment) (op : Operation) {db : Database}
    {taskId : String} {row : TaskRow} (hrow : db.task? taskId = some row)
    (hreported : row.IsReported) : (perform svc m op db).task? taskId = some row := by
  obtain ⟨cs, hrun, -⟩ := perform_changes svc m op db
  refine hrun.invariant (fun db' => db'.task? taskId = some row) hrow fun a c b hstep ih => ?_
  rcases hstep.row_after ih with hsame | ⟨w, now, actor, detail, -, hallowed, -⟩
  · exact hsame
  · have hopen := (StateWrite.edge hallowed).not_terminal
    rcases hreported with h | h <;> rw [h] at hopen <;> cases hopen

/-- What a call that records an outcome does to the tables. -/
theorem Records.row_eq {svc : ControlService} {host : DataHost} {e : HostEvent} {outcome : TaskOutcome}
    {row : TaskRow} (h : Records svc host e outcome row) :
    row.IsReported ∧ row.taskId = outcome.taskId ∧ row.state = outcome.state.taskState ∧
      row.outcome = some outcome.canonical ∧
      (∃ old, host.db.task? row.taskId = some old ∧ ¬ old.IsReported) ∧
      ∀ id, (perform svc e.moment e.operation host.db).task? id =
        if id = row.taskId then some row else host.db.task? id := by
  obtain ⟨runnerId, taskId, actor, db, hop, hrec⟩ := h
  obtain ⟨htask, -, old, hold, hid, -, ⟨hfalse, -⟩ | ⟨-, hallowed, rfl, rfl⟩⟩ :=
    ControlService.recordOutcome_ok hrec
  · cases hfalse
  · have hstate : ((StateWrite.report outcome.canonical).set e.moment.now old).state =
        outcome.state.taskState := rfl
    refine ⟨?_, ?_, rfl, rfl, ⟨old, Database.task?_of_mem hold, ?_⟩, fun id => ?_⟩
    · unfold TaskRow.IsReported
      rw [hstate]
      cases outcome.state with
      | completed => exact .inl rfl
      | failed => exact .inr rfl
    · rw [StateWrite.set_taskId, hid, htask]
    · rintro (h | h) <;> rcases hallowed.1 with hopen | hopen <;> rw [hopen] at h <;> cases h
    · rw [hop, perform, hrec, committed, StateWrite.set_taskId]
      exact Database.task?_write hold _ _ _ _ id

namespace DataHost

variable {svc : ControlService} {host : DataHost} {e : HostEvent}

/-- The tables of the control service evolve as without the other writes. -/
@[simp] theorem step_db (svc : ControlService) (host : DataHost) (e : HostEvent) :
    (step svc host e).db = perform svc e.moment e.operation host.db := by
  unfold step
  split
  · next runnerId taskId outcome actor hop =>
    rw [hop, perform]
    split <;> next hrec => rw [hrec]; rfl
  · rfl

/-- A step records an outcome, or adds nothing to the other stores and reports
no row. -/
theorem step_cases (svc : ControlService) (host : DataHost) (e : HostEvent) :
    (∃ outcome row, Records svc host e outcome row ∧
      step svc host e = afterCommit svc e outcome row
        { host with db := perform svc e.moment e.operation host.db }) ∨
    ((step svc host e).drift = host.drift ∧ (step svc host e).results = host.results ∧
      ∀ row ∈ (step svc host e).db.tasks, row.IsReported → row ∈ host.db.tasks) := by
  by_cases hop : ∃ runnerId taskId outcome actor,
      e.operation = .recordOutcome runnerId taskId outcome actor
  · obtain ⟨runnerId, taskId, outcome, actor, hop⟩ := hop
    have hdb : (step svc host e).db = _ := step_db svc host e
    unfold step at hdb ⊢
    rw [hop] at hdb ⊢
    dsimp only at hdb ⊢
    split
    · next db row hrec =>
      left
      refine ⟨outcome, row, ⟨runnerId, taskId, actor, db, hop, hrec⟩, ?_⟩
      rw [perform, hrec, committed]
    · next db row hrec =>
      right
      obtain ⟨-, -, old, -, -, -, ⟨-, rfl, -⟩ | ⟨htrue, -⟩⟩ := ControlService.recordOutcome_ok hrec
      · exact ⟨rfl, rfl, fun row hrow _ => hrow⟩
      · cases htrue
    · exact .inr ⟨rfl, rfl, fun row hrow _ => hrow⟩
  · right
    have hne : ∀ runnerId taskId outcome actor,
        e.operation ≠ .recordOutcome runnerId taskId outcome actor :=
      fun runnerId taskId outcome actor h => hop ⟨runnerId, taskId, outcome, actor, h⟩
    refine ⟨?_, ?_, fun row hrow hreported => ?_⟩
    · unfold step
      split
      · next h => exact absurd h (hne _ _ _ _)
      · rfl
    · unfold step
      split
      · next h => exact absurd h (hne _ _ _ _)
      · rfl
    · rw [step_db] at hrow
      exact perform_reported_before hne hrow hreported

/-! ## The mirror -/

/-- Every record of the mirror is that of a reported row, and no task has two. -/
structure Sound (host : DataHost) : Prop where
  reported : ∀ r ∈ host.results, ∃ row, host.db.task? r.taskId = some row ∧ row.IsReported ∧
    r = outcomeRecord row
  nodup    : (host.results.map OutcomeRecord.taskId).Nodup

/-- **One step keeps the mirror sound**: a record is appended for a row that
was not reported before, so that it had none. -/
theorem step_sound (h : Sound host) : Sound (step svc host e) := by
  rcases step_cases svc host e with ⟨outcome, row, hrecords, hstep⟩ | ⟨-, hresults, -⟩
  · obtain ⟨hreported, -, -, -, ⟨old, hold, hopen⟩, hlook⟩ := hrecords.row_eq
    have hkept : ∀ r ∈ host.results, ∃ row', (step svc host e).db.task? r.taskId = some row' ∧
        row'.IsReported ∧ r = outcomeRecord row' := by
      intro r hr
      obtain ⟨row', hrow', hreported', heq⟩ := h.reported r hr
      refine ⟨row', ?_, hreported', heq⟩
      rw [step_db]
      exact perform_reported_after svc e.moment e.operation hrow' hreported'
    have hnew : (step svc host e).db.task? row.taskId = some row := by
      rw [step_db, hlook, if_pos rfl]
    by_cases hmirrors : e.mirrors = true
    · have hresults : (step svc host e).results = host.results ++ [outcomeRecord row] := by
        rw [hstep, afterCommit, if_pos hmirrors]
      constructor
      · intro r hr
        rw [hresults, List.mem_append, List.mem_singleton] at hr
        rcases hr with hr | rfl
        · exact hkept r hr
        · exact ⟨row, hnew, hreported, rfl⟩
      · rw [hresults, List.map_append, List.map_singleton, List.nodup_append]
        refine ⟨h.nodup, List.nodup_singleton _, ?_⟩
        rintro id hid _ hself rfl
        rw [List.mem_singleton] at hself
        obtain ⟨r, hr, rfl⟩ := List.mem_map.mp hid
        obtain ⟨row', hrow', hreported', -⟩ := h.reported r hr
        have hsame : r.taskId = row.taskId := hself
        rw [hsame, hold] at hrow'
        exact hopen (Option.some.inj hrow' ▸ hreported')
    · have hresults : (step svc host e).results = host.results := by
        rw [hstep, afterCommit, if_neg hmirrors]
      exact ⟨fun r hr => hkept r (hresults ▸ hr), hresults ▸ h.nodup⟩
  · refine ⟨fun r hr => ?_, hresults ▸ h.nodup⟩
    obtain ⟨row, hrow, hreported, heq⟩ := h.reported r (hresults ▸ hr)
    refine ⟨row, ?_, hreported, heq⟩
    rw [step_db]
    exact perform_reported_after svc e.moment e.operation hrow hreported

theorem run_invariant {P : DataHost → Prop} (hempty : P empty)
    (hstep : ∀ host e, P host → P (step svc host e)) (es : List HostEvent) : P (run svc es) :=
  (Run.of_fun (step svc) empty es).invariant P hempty fun _ _ _ heq ih => heq ▸ hstep _ _ ih

theorem run_sound (svc : ControlService) (es : List HostEvent) : Sound (run svc es) :=
  run_invariant ⟨fun _ hr => absurd hr List.not_mem_nil, List.nodup_nil⟩ (fun _ _ h => step_sound h) es

/-- What no step undoes holds in every later state. -/
theorem run_append_kept {P : DataHost → Prop} (hstep : ∀ host e, P host → P (step svc host e))
    {es : List HostEvent} (fs : List HostEvent) (h : P (run svc es)) : P (run svc (es ++ fs)) := by
  rw [run, List.foldl_append]
  exact (Run.of_fun (step svc) (run svc es) fs).invariant P h fun _ _ _ heq ih => heq ▸ hstep _ _ ih

/-- A record stays in the mirror. -/
theorem step_results_kept {r : OutcomeRecord} (hr : r ∈ host.results) :
    r ∈ (step svc host e).results := by
  rcases step_cases svc host e with ⟨outcome, row, -, hstep⟩ | ⟨-, hresults, -⟩
  · rw [hstep]
    unfold afterCommit
    dsimp only
    split
    · exact List.mem_append_left _ hr
    · exact hr
  · rw [hresults]
    exact hr

/-- The ingestion keeps the observations it finds. -/
theorem ingestCanaryObservation_kept {now : Instant} {outcome : TaskOutcome} {canaryId : String}
    {row : TaskRow} {t : DriftTables} {o : Observation} (ho : o ∈ t.observations) :
    o ∈ (svc.ingestCanaryObservation now outcome canaryId row t).observations := by
  unfold ControlService.ingestCanaryObservation
  split
  · split
    · next hingest => exact DriftAnalyzer.ingestOutcome_kept hingest ho
    · exact ho
  · exact ho
  · exact ho

/-- An observation stays in its table. -/
theorem step_drift_kept {o : Observation} (ho : o ∈ host.drift.observations) :
    o ∈ (step svc host e).drift.observations := by
  rcases step_cases svc host e with ⟨outcome, row, -, hstep⟩ | ⟨hdrift, -, -⟩
  · rw [hstep]
    unfold afterCommit
    dsimp only
    split
    · split
      · exact ingestCanaryObservation_kept ho
      · exact ho
    · exact ho
  · rw [hdrift]
    exact ho

/-- **A reported row was recorded by one call of the run**, and is the row that
call left. -/
theorem recorded_once {es : List HostEvent} {row : TaskRow} (hrow : row ∈ (run svc es).db.tasks)
    (hreported : row.IsReported) :
    ∃ before e after outcome, es = before ++ e :: after ∧
      Records svc (run svc before) e outcome row := by
  induction es using List.reverseRecOn with
  | nil => exact absurd hrow (Table.not_mem_empty row)
  | append_singleton es e ih =>
    rw [run_snoc] at hrow
    have hold : row ∈ (run svc es).db.tasks → ∃ before e' after outcome,
        es ++ [e] = before ++ e' :: after ∧ Records svc (run svc before) e' outcome row := by
      intro hrow
      obtain ⟨before, e', after, outcome, hsplit, hrecords⟩ := ih hrow
      exact ⟨before, e', after ++ [e], outcome, by rw [hsplit, List.append_assoc, List.cons_append],
        hrecords⟩
    rcases step_cases svc (run svc es) e with ⟨outcome, row', hrecords, -⟩ | ⟨-, -, hnone⟩
    · -- the row is the one the call recorded, or was there before
      obtain ⟨-, -, -, -, -, hlook⟩ := hrecords.row_eq
      have hfind := Database.task?_of_mem hrow
      rw [step_db, hlook] at hfind
      split at hfind
      · obtain rfl := Option.some.inj hfind
        exact ⟨es, e, [], outcome, rfl, hrecords⟩
      · exact hold (Database.task?_eq_some_iff.mp hfind).1
    · exact hold (hnone row hrow hreported)

end DataHost

/-! ## The canary of a recorded outcome -/

/-- A padded number is written in digits. -/
theorem isDigit_of_mem_zeroPad {width n : ℕ} {c : Char} (hc : c ∈ (zeroPad width n).toList) :
    c.isDigit = true := by
  rw [zeroPad, String.toList_ofList, List.mem_append] at hc
  rcases hc with hc | hc
  · rw [List.eq_of_mem_replicate hc]
    decide
  · exact Nat.isDigit_of_mem_toDigits (by omega) (by omega) hc

/-- A date has no colon. -/
theorem colon_not_mem_dateText (utcDate : ℕ) : ':' ∉ (dateText utcDate).toList := by
  have hdigit : (':' : Char).isDigit = false := by decide
  have hpad : ∀ width n, ':' ∉ (zeroPad width n).toList := by
    intro width n hc
    rw [isDigit_of_mem_zeroPad hc] at hdigit
    cases hdigit
  simp only [dateText, String.toList_append, List.mem_append, not_or]
  exact ⟨⟨⟨⟨hpad _ _, by decide⟩, hpad _ _⟩, by decide⟩, hpad _ _⟩

/-- A date is written with a dash. -/
theorem dateText_ne_empty (utcDate : ℕ) : dateText utcDate ≠ "" := by
  intro h
  have hdash : '-' ∈ (dateText utcDate).toList := by
    simp only [dateText, String.toList_append, List.mem_append]
    exact .inl (.inr (by decide))
  rw [h] at hdash
  cases hdash

namespace ControlService

variable {svc : ControlService}

/-- The canary id of a profile and day comes apart at its last colon. -/
theorem splitCanaryId_canaryIdOf (profile : CanaryProfile) (utcDate : ℕ) :
    splitCanaryId (canaryIdOf profile utcDate) = some (profile.profileId, dateText utcDate) := by
  have hreverse : (canaryIdOf profile utcDate).toList.reverse =
      (dateText utcDate).toList.reverse ++ ':' :: profile.profileId.toList.reverse := by
    simp [canaryIdOf]
  have hdate : ∀ c ∈ (dateText utcDate).toList.reverse, decide (c ≠ ':') = true := by
    intro c hc
    rw [List.mem_reverse] at hc
    refine decide_eq_true fun heq => ?_
    exact colon_not_mem_dateText utcDate (heq ▸ hc)
  unfold splitCanaryId
  dsimp only
  rw [hreverse, List.dropWhile_append_of_pos hdate, List.takeWhile_append_of_pos hdate]
  simp

/-- The ingestion of a canary of a profile and day. -/
def canaryArguments (outcome : TaskOutcome) (row : TaskRow) (profile : CanaryProfile) (utcDate : ℕ) :
    DriftAnalyzer.Ingestion :=
  ⟨row.taskId, row.runnerId, outcome, profile.profileId, profile.profileVersion, dateText utcDate⟩

/-- What an outcome must have for its observation to be ingested: a named
profile, an environment and a platform the fingerprint can be built from, and
arguments on which the analyzer raises nothing. -/
structure Ingestible (svc : ControlService) (outcome : TaskOutcome) (row : TaskRow)
    (profile : CanaryProfile) (utcDate : ℕ) (t : DriftTables) : Prop where
  named       : profile.profileId ≠ ""
  environment : svc.checkEnvironment row.runnerId (outcome.result.get.getD []) = .ok ()
  arguments   : DriftAnalyzer.Ingestible (canaryArguments outcome row profile utcDate) t

/-- **The observation of a canary is ingested**, when its outcome can be. -/
theorem ingestCanaryObservation_observed {now : Instant} {outcome : TaskOutcome} {row : TaskRow}
    {profile : CanaryProfile} {utcDate : ℕ} {t : DriftTables}
    (hcanary : CanaryOf svc row profile utcDate)
    (h : Ingestible svc outcome row profile utcDate t) :
    DriftAnalyzer.Observed (canaryArguments outcome row profile utcDate)
      (svc.ingestCanaryObservation now outcome (canaryIdOf profile utcDate) row t) := by
  have harguments : svc.canaryIngestion outcome (canaryIdOf profile utcDate) row =
      .ok (some (canaryArguments outcome row profile utcDate)) := by
    unfold canaryIngestion
    rw [splitCanaryId_canaryIdOf]
    dsimp only
    rw [profileVersion, hcanary.registered, h.environment,
      if_neg (not_or.mpr ⟨h.named, dateText_ne_empty utcDate⟩)]
    rfl
  obtain ⟨t', hingest⟩ := @DriftAnalyzer.ingestOutcome_ok now _ _ h.arguments
  unfold ingestCanaryObservation
  rw [harguments]
  dsimp only
  rw [hingest]
  exact DriftAnalyzer.ingestOutcome_observed hingest h.named (dateText_ne_empty utcDate)

/-- A completed canary has the metadata of its canary id. -/
theorem canaryMetadata_of {outcome : TaskOutcome} {row : TaskRow} {profile : CanaryProfile}
    {utcDate : ℕ} (hcanary : CanaryOf svc row profile utcDate) (hstate : outcome.state = .completed) :
    canaryMetadata outcome row = some (canaryIdOf profile utcDate) := by
  have hne : canaryIdOf profile utcDate ≠ "" := by
    intro h
    have hcolon : ':' ∈ (canaryIdOf profile utcDate).toList := by simp [canaryIdOf]
    rw [h] at hcolon
    cases hcolon
  rw [canaryMetadata, if_pos ⟨hcanary.taskClass, hstate⟩, hcanary.canaryId, Option.filter_some,
    if_pos (decide_eq_true hne)]

end ControlService

/-! ## Runs -/

/-- The records of a task in the mirror. -/
def DataHost.recordsOf (host : DataHost) (taskId : String) : List OutcomeRecord :=
  host.results.filter fun r => decide (r.taskId = taskId)

/-- No task has two records. -/
theorem DataHost.Sound.atMostOne {host : DataHost} (h : DataHost.Sound host) (taskId : String) :
    (host.recordsOf taskId).length ≤ 1 := by
  by_cases hsome : ∃ r ∈ host.results, r.taskId = taskId
  · obtain ⟨r, hr, rfl⟩ := hsome
    rw [DataHost.recordsOf, filter_eq_singleton h.nodup hr, List.length_singleton]
  · have hnone : host.recordsOf taskId = [] :=
      List.filter_eq_nil_iff.mpr fun r hr hid => hsome ⟨r, hr, of_decide_eq_true hid⟩
    rw [hnone]
    exact Nat.zero_le 1

/-- A call that records an outcome goes on to the other writes. -/
theorem Records.step_eq {svc : ControlService} {host : DataHost} {e : HostEvent} {outcome : TaskOutcome}
    {row : TaskRow} (h : Records svc host e outcome row) :
    DataHost.step svc host e = DataHost.afterCommit svc e outcome row
      { host with db := perform svc e.moment e.operation host.db } := by
  obtain ⟨runnerId, taskId, actor, db, hop, hrec⟩ := h
  unfold DataHost.step
  rw [hop]
  dsimp only
  rw [hrec, perform, hrec, committed]

/-- What stands behind an acknowledged outcome: the call `c` that recorded it
in the state after `before`, and what became of its later writes. -/
structure DeliveredBy (svc : ControlService) (before : List HostEvent) (c : HostEvent)
    (recorded : TaskOutcome) (row : TaskRow) (outcome : TaskOutcome) (host : DataHost) : Prop where
  records   : Records svc (DataHost.run svc before) c recorded row
  same      : recorded.canonical = outcome.canonical
  stored    : host.db.task? outcome.taskId = some row
  atMostOne : (host.recordsOf outcome.taskId).length ≤ 1
  mirrored  : c.mirrors = true → host.recordsOf outcome.taskId = [outcomeRecord row]
  ingested  : c.ingests = true → outcome.state = .completed →
    CreatedByScheduler host.db outcome.taskId →
    ∃ profile utcDate, CanaryOf svc row profile utcDate ∧
      (ControlService.Ingestible svc recorded row profile utcDate (DataHost.run svc before).drift →
        DriftAnalyzer.Observed (ControlService.canaryArguments recorded row profile utcDate)
          host.drift)

/-- The call of a run that recorded an outcome, seen from a later state. -/
theorem Records.delivered {svc : ControlService} {before after : List HostEvent} {c : HostEvent}
    {recorded outcome : TaskOutcome} {row : TaskRow}
    (h : Records svc (DataHost.run svc before) c recorded row)
    (hsame : recorded.canonical = outcome.canonical) :
    DeliveredBy svc before c recorded row outcome (DataHost.run svc (before ++ c :: after)) := by
  obtain ⟨hreported, hid, hstate, -, -, hlook⟩ := h.row_eq
  have hsplit : before ++ c :: after = (before ++ [c]) ++ after := by simp
  have htask : row.taskId = outcome.taskId := by
    have hids := congrArg TaskOutcome.taskId hsame
    exact hid.trans hids
  have hnow : DataHost.run svc (before ++ [c]) = DataHost.afterCommit svc c recorded row
      { DataHost.run svc before with
        db := perform svc c.moment c.operation (DataHost.run svc before).db } := by
    rw [DataHost.run_snoc, h.step_eq]
  have hsound := DataHost.run_sound svc (before ++ c :: after)
  have hstored : (DataHost.run svc (before ++ c :: after)).db.task? outcome.taskId = some row := by
    rw [hsplit]
    refine DataHost.run_append_kept (P := fun host => host.db.task? outcome.taskId = some row)
      (fun host e hrow => ?_) after ?_
    · rw [DataHost.step_db]
      exact perform_reported_after svc e.moment e.operation hrow hreported
    · rw [hnow, DataHost.afterCommit]
      dsimp only
      rw [hlook, if_pos htask.symm]
  refine ⟨h, hsame, hstored, hsound.atMostOne _, fun hmirrors => ?_, fun hingests hcompleted hcreated => ?_⟩
  · have hmem : outcomeRecord row ∈ (DataHost.run svc (before ++ c :: after)).results := by
      rw [hsplit]
      refine DataHost.run_append_kept (P := fun host => outcomeRecord row ∈ host.results)
        (fun host e hr => DataHost.step_results_kept hr) after ?_
      rw [hnow, DataHost.afterCommit]
      dsimp only
      rw [if_pos hmirrors]
      exact List.mem_append_right _ (List.mem_singleton_self _)
    rw [← htask]
    exact filter_eq_singleton hsound.nodup hmem
  · have hcanaries : CanariesCreated svc (DataHost.run svc (before ++ c :: after)).db :=
      DataHost.run_invariant (P := fun host => CanariesCreated svc host.db) (canariesCreated_empty svc)
        (fun host e ih => by
          rw [DataHost.step_db]
          exact perform_canariesCreated e.moment e.operation ih) _
    obtain ⟨row', profile, utcDate, hrow', hcanary⟩ := hcanaries _ hcreated
    rw [hstored] at hrow'
    obtain rfl := Option.some.inj hrow'
    refine ⟨profile, utcDate, hcanary, fun hingestible => ?_⟩
    have hcompleted' : recorded.state = .completed := by
      have hstates := congrArg TaskOutcome.state hsame
      exact hstates.trans hcompleted
    rw [hsplit]
    -- the observation is there right after the call, and stays
    obtain ⟨o, ho, hobserved⟩ : DriftAnalyzer.Observed
        (ControlService.canaryArguments recorded row profile utcDate)
        (DataHost.run svc (before ++ [c])).drift := by
      rw [hnow, DataHost.afterCommit]
      dsimp only
      rw [ControlService.canaryMetadata_of hcanary hcompleted']
      dsimp only
      rw [if_pos hingests]
      exact ControlService.ingestCanaryObservation_observed hcanary hingestible
    refine ⟨o, ?_, hobserved⟩
    exact DataHost.run_append_kept (P := fun host => o ∈ host.drift.observations)
      (fun host e ho => DataHost.step_drift_kept ho) after ho

/-- **Behind every acknowledged outcome is the call that recorded it.** The row
is stored and there is at most one record of it in the mirror; there is exactly
one when that call lived to append it and could, and when that call lived to
ingest a scheduler's canary whose outcome can be ingested, its day is settled
in the observations. -/
theorem outcome_delivered {svc : ControlService} {before after : List HostEvent} {e : HostEvent}
    {outcome : TaskOutcome} (h : Acknowledges svc (DataHost.run svc before) e outcome) :
    ∃ before' c after' recorded row, before ++ [e] = before' ++ c :: after' ∧
      DeliveredBy svc before' c recorded row outcome (DataHost.run svc (before ++ e :: after)) := by
  obtain ⟨runnerId, taskId, actor, db, row, changed, hop, -, hrec⟩ := h
  cases changed with
  | true =>
    exact ⟨before, e, [], outcome, row, rfl, Records.delivered ⟨_, _, _, db, hop, hrec⟩ rfl⟩
  | false =>
    -- a replay: the row was reported by an earlier call
    obtain ⟨-, -, old, hold, -, -, ⟨-, -, rfl, hstate, hstored⟩ | ⟨htrue, -⟩⟩ :=
      ControlService.recordOutcome_ok hrec
    · have hreported : row.IsReported := by
        unfold TaskRow.IsReported
        rw [hstate]
        cases outcome.state with
        | completed => exact .inl rfl
        | failed => exact .inr rfl
      obtain ⟨before', c, after', recorded, hsplit, hrecords⟩ :=
        DataHost.recorded_once hold hreported
      have hsame : recorded.canonical = outcome.canonical := by
        obtain ⟨-, -, -, hcanonical, -⟩ := hrecords.row_eq
        rw [hstored] at hcanonical
        exact (Option.some.inj hcanonical).symm
      refine ⟨before', c, after' ++ [e], recorded, row, by rw [hsplit]; simp, ?_⟩
      have hwhole : before ++ e :: after = before' ++ c :: (after' ++ e :: after) := by
        rw [hsplit]
        simp
      rw [hwhole]
      exact hrecords.delivered hsame
    · cases htrue

namespace SmallDeployment

/-- An event of the service on a data host that stays up. -/
def hosted (e : ServiceEvent) : HostEvent := ⟨e.moment, e.operation, .answered, true⟩

def canaryTaskId : String := "canary:runner-1:standard:2026-01-01"

/-- The outcome of the first runner's canary. -/
def canaryOutcome : TaskOutcome :=
  { outcome canaryTaskId .completed with result := .value [("score", .float (.finite 1000))] }

/-- The first runner's canary is created, claimed and accepted. -/
def canaryAccepted : List HostEvent :=
  [⟨moment 0, .tick, .answered, true⟩, hosted (claim 1), hosted (accept 2 canaryTaskId 1)]

/-- The report of the canary's outcome, with the fate of its process. -/
def reportCanary (n : ℕ) (fate : Fate) : HostEvent :=
  ⟨moment n, .recordOutcome "runner-1" canaryTaskId canaryOutcome "runner:runner-1", fate, true⟩

/-- A report that the service answers without an error is acknowledged. -/
theorem acknowledges_reportCanary {host : DataHost} {n : ℕ}
    (h : (canaried.recordOutcome (moment n).now "runner-1" canaryTaskId canaryOutcome
      "runner:runner-1" host.db).toBool = true) :
    Acknowledges canaried host (reportCanary n .answered) canaryOutcome := by
  cases hrec : canaried.recordOutcome (moment n).now "runner-1" canaryTaskId canaryOutcome
      "runner:runner-1" host.db with
  | error err =>
    rw [hrec] at h
    cases h
  | ok answer =>
    obtain ⟨db, row, changed⟩ := answer
    exact ⟨_, _, _, db, row, changed, rfl, rfl, hrec⟩

end SmallDeployment

open SmallDeployment in
/-- The canary of a service that stays up is delivered. -/
theorem outcome_delivered_canary :
    ∃ before' c after' recorded row,
      canaryAccepted ++ [reportCanary 3 .answered] = before' ++ c :: after' ∧
      DeliveredBy canaried before' c recorded row canaryOutcome
        (DataHost.run canaried (canaryAccepted ++ [reportCanary 3 .answered])) :=
  outcome_delivered (acknowledges_reportCanary (by decide +kernel))

open SmallDeployment in
/-- The process dies after the commit of the canary's outcome; the report is
repeated and acknowledged, with neither an observation nor a record. -/
theorem delivery_not_guaranteed :
    ¬ ∀ (svc : ControlService) (es : List HostEvent) (e : HostEvent) (outcome : TaskOutcome),
      (∀ e ∈ es, e.mirrorWritable = true) → e.mirrorWritable = true →
      Acknowledges svc (DataHost.run svc es) e outcome →
        (outcome.state = .completed →
          CreatedByScheduler (DataHost.run svc (es ++ [e])).db outcome.taskId →
          ∃ o ∈ (DataHost.run svc (es ++ [e])).drift.observations, o.taskId = outcome.taskId) ∧
        ((DataHost.run svc (es ++ [e])).recordsOf outcome.taskId).length = 1 := by
  intro h
  have hnone := (h canaried (canaryAccepted ++ [reportCanary 3 .diedAfterCommit])
    (reportCanary 4 .answered) canaryOutcome (by decide) rfl
    (acknowledges_reportCanary (by decide +kernel))).2
  revert hnone
  decide +kernel

end Conductress
