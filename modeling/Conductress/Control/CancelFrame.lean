import Conductress.Control.Submitters
import Conductress.Base.NumberText

/-!
# What a cancellation changes

A user cancels by a selector, a task id or a batch id, and the selector may
name rows of several users. `afterCancel` is what becomes of one row: only a
row the selector names and the user's login stands on is written, and by its
own state. The transaction ends with a statement that carries one parameter for
each row of the selector, and the store refuses it past a limit, which takes
the writes back.

* `cancel_frame_iff` — in every state the service reaches a cancellation makes
  every row `afterCancel` of itself exactly when the selector's rows fit that
  statement or there was nothing to write; the logins on the rows come from the
  token of the submission, or from the submitter an operator named;
* `bulk_cancel_refused` — a batch too large to cancel.
-/

namespace Conductress

open Lib

/-! ## One cancellation -/

/-- The row after a non-owner with this login cancelled by the selector. -/
def afterCancel (login selector : String) (now : Instant) (row : TaskRow) : TaskRow :=
  if (row.taskId = selector ∨ row.batchId = some selector) ∧ row.submitterLogin = some login then
    match row.state with
    | .queued | .pendingApproval => { row with state := .cancelled, updatedAt := now }
    | .claimed | .accepted => { row with state := .cancelRequested, updatedAt := now }
    | .cancelled | .cancelRequested | .completed | .failed => row
  else row

namespace ControlService

/-- What one pass of the loop makes of its row. -/
def rowAfter (now : Instant) (login : Option String) (isOwner : Bool) (row : TaskRow) : TaskRow :=
  if mayCancel login isOwner row then ((cancelWrite row.state).map fun w => w.set now row).getD row
  else row

theorem rowAfter_taskId (now : Instant) (login : Option String) (isOwner : Bool) (row : TaskRow) :
    (rowAfter now login isOwner row).taskId = row.taskId := by
  unfold rowAfter
  split_ifs
  · cases cancelWrite row.state with
    | none => rfl
    | some w => exact StateWrite.set_taskId w now row
  · rfl

theorem task?_cancelRow {db : Database} {row : TaskRow} (hrow : row ∈ db.tasks) (now : Instant)
    (actor : String) (login : Option String) (isOwner : Bool) (id : String) :
    (cancelRow now actor login isOwner db row).task? id =
      if id = row.taskId then some (rowAfter now login isOwner row) else db.task? id := by
  have hsame : db.task? id = if id = row.taskId then some row else db.task? id := by
    split_ifs with hid
    · rw [hid, Database.task?_of_mem hrow]
    · rfl
  unfold cancelRow rowAfter
  by_cases hmay : mayCancel login isOwner row = true
  · rw [if_pos hmay, if_pos hmay]
    cases cancelWrite row.state with
    | none => exact hsame
    | some w => exact Database.task?_write hrow w now actor none id
  · rw [if_neg hmay, if_neg hmay]
    exact hsame

/-- The rows a selector names. -/
def named (db : Database) (selector : String) : List TaskRow :=
  db.tasks.rows.filter (selects selector)

/-- The table after a cancellation whose rows fit the last statement. -/
theorem task?_cancelTask {db : Database} {selector : String}
    (hfits : (named db selector).length ≤ maxVariableNumber) (now : Instant) (actor : String)
    (login : Option String) (isOwner : Bool) (id : String) :
    (committed db (cancelTask now selector actor login isOwner db)).task? id =
      (db.task? id).map fun row =>
        if selects selector row then rowAfter now login isOwner row else row := by
  have hids : ¬ maxVariableNumber < ((named db selector).map TaskRow.taskId).length := by
    rw [List.length_map]
    exact Nat.not_lt.mpr hfits
  unfold named at hids
  unfold cancelTask selectTasks
  dsimp only
  rw [if_neg hids]
  split_ifs with hnone
  · -- nothing is selected
    have hempty : db.tasks.rows.filter (selects selector) = [] := by simpa using hnone
    rw [List.filter_eq_nil_iff] at hempty
    cases hfind : db.task? id with
    | none => exact hfind
    | some row =>
      have hrow : row ∈ db.tasks.rows := (Database.task?_eq_some_iff.mp hfind).1
      rw [Option.map_some, if_neg (hempty row hrow)]
      exact hfind
  · have hmem : ∀ row ∈ db.tasks.rows.filter (selects selector), row ∈ db.tasks :=
      fun row hrow => (List.mem_filter.mp hrow).1
    show ((db.tasks.rows.filter (selects selector)).foldl (cancelRow now actor login isOwner) db).task?
      id = _
    rw [Database.task?_foldl (fun db row hrow => task?_cancelRow hrow now actor login isOwner)
      (rowAfter_taskId now login isOwner) _ db (db.pairwise_filter _) hmem]
    cases hfind : db.task? id with
    | none => rfl
    | some row =>
      have hrow : row ∈ db.tasks.rows := (Database.task?_eq_some_iff.mp hfind).1
      simp [List.mem_filter, hrow]

/-- Rows that do not fit the last statement: the transaction is rolled back. -/
theorem cancelTask_refused {db : Database} {selector : String}
    (hrows : maxVariableNumber < (named db selector).length) (now : Instant) (actor : String)
    (login : Option String) (isOwner : Bool) :
    committed db (cancelTask now selector actor login isOwner db) = db := by
  have hids : maxVariableNumber < ((named db selector).map TaskRow.taskId).length := by
    rwa [List.length_map]
  unfold named at hids
  unfold cancelTask selectTasks
  dsimp only
  rw [if_pos hids]
  split_ifs <;> rfl

/-- What a non-owner's cancellation makes of a row. -/
theorem rowAfter_nonOwner (login selector : String) (now : Instant) (row : TaskRow) :
    (if selects selector row then rowAfter now (some login) false row else row) =
      afterCancel login selector now row := by
  have hnamed : selects selector row = true ↔ row.taskId = selector ∨ row.batchId = some selector := by
    rw [selects, decide_eq_true_eq]
  have hown : mayCancel (some login) false row = true ↔ row.submitterLogin = some login := by
    simp [mayCancel]
  unfold afterCancel rowAfter
  by_cases hselected : selects selector row = true
  · by_cases hmay : mayCancel (some login) false row = true
    · rw [if_pos hselected, if_pos hmay, if_pos ⟨hnamed.mp hselected, hown.mp hmay⟩]
      cases row.state <;> rfl
    · rw [if_pos hselected, if_neg hmay, if_neg fun h => hmay (hown.mpr h.2)]
  · rw [if_neg hselected, if_neg fun h => hselected (hnamed.mpr h.1)]

end ControlService

/-- A row stays as it is when there is no write for it. -/
theorem afterCancel_eq_self_iff {login selector : String} {now : Instant} {row : TaskRow} :
    afterCancel login selector now row = row ↔
      (ControlService.selects selector row = true → row.submitterLogin = some login →
        ControlService.cancelWrite row.state = none) := by
  rw [ControlService.selects, decide_eq_true_eq, ← and_imp]
  unfold afterCancel
  by_cases hown : (row.taskId = selector ∨ row.batchId = some selector) ∧
      row.submitterLogin = some login
  · rw [if_pos hown]
    -- a write moves the row to a state it is not in
    cases hstate : row.state <;> simp [hown, ControlService.cancelWrite]
    all_goals exact fun heq => by simpa [hstate] using congrArg TaskRow.state heq
  · rw [if_neg hown]
    exact iff_of_true rfl fun h => absurd h hown

/-! ## Runs -/

/-- A cancellation by a user who is no owner, as the operation it asks for. -/
theorem apply_cancelTask (svc : ControlService) (m : Moment) {identity : AuthIdentity}
    {login : String} (hlogin : identity.login = some login) (howner : identity.isOwner svc = false)
    (selector : String) (db : Database) :
    (AppEvent.request m identity (.cancelTask selector)).apply svc db =
      committed db (ControlService.cancelTask m.now selector identity.actor (some login) false db) := by
  have hsubmitter : identity.isSubmitter = true := by
    cases identity with
    | user => rfl
    | operator | runner => cases hlogin
  have hop : authorize svc identity (.cancelTask selector) =
      .ok (.cancel selector identity.actor (some login) false) := by
    unfold authorize
    rw [hsubmitter, hlogin, howner]
    rfl
  unfold AppEvent.apply
  dsimp only
  rw [hop]
  rfl

/-- **A user cancels tasks of their own only**, and all of them. In every state the
service reaches, a cancellation by a user token that is no owner's leaves every
row `afterCancel` of itself, and the rows with the login are those its submissions
stored, exactly when the rows the selector names fit one statement or none of the
user's own has a write to make. -/
theorem cancel_frame_iff (svc : ControlService) (es : List AppEvent) (m : Moment)
    {identity : AuthIdentity} {login : String} (hlogin : identity.login = some login)
    (howner : identity.isOwner svc = false) (selector : String) :
    ((∀ taskId, ((AppEvent.request m identity (.cancelTask selector)).apply svc
        (appServe svc es)).task? taskId =
      ((appServe svc es).task? taskId).map (afterCancel login selector m.now)) ∧
    ∀ row ∈ (appServe svc es).tasks, row.submitterLogin = some login →
      SubmittedBy svc es login row.taskId) ↔
    ((ControlService.named (appServe svc es) selector).length ≤ ControlService.maxVariableNumber ∨
      ∀ row ∈ (appServe svc es).tasks, ControlService.selects selector row = true →
        row.submitterLogin = some login → ControlService.cancelWrite row.state = none) := by
  rw [apply_cancelTask svc m hlogin howner]
  generalize hdb : appServe svc es = db
  have howned : ∀ row ∈ db.tasks, row.submitterLogin = some login →
      SubmittedBy svc es login row.taskId := by
    rw [← hdb]
    exact fun row hrow hown => appServe_submittedBy svc es row hrow login hown
  by_cases hfits : (ControlService.named db selector).length ≤ ControlService.maxVariableNumber
  · refine iff_of_true ⟨fun taskId => ?_, howned⟩ (.inl hfits)
    rw [ControlService.task?_cancelTask hfits]
    congr 1
    funext row
    exact ControlService.rowAfter_nonOwner login selector m.now row
  · -- the refused statement leaves every row as it was
    rw [ControlService.cancelTask_refused (Nat.not_le.mp hfits)]
    constructor
    · rintro ⟨hframe, -⟩
      refine .inr fun row hrow => ?_
      have hself := hframe row.taskId
      rw [Database.task?_of_mem hrow, Option.map_some] at hself
      exact afterCancel_eq_self_iff.mp (Option.some.inj hself).symm
    · rintro (h | hnothing)
      · exact absurd h hfits
      refine ⟨fun taskId => ?_, howned⟩
      cases hfind : db.task? taskId with
      | none => rfl
      | some row =>
        have hrow := (Database.task?_eq_some_iff.mp hfind).1
        rw [Option.map_some, afterCancel_eq_self_iff.mpr (hnothing row hrow)]

namespace SmallDeployment

/-- The envelope of a task of the batch. -/
def batchEnvelope (taskId : String) : TaskEnvelope :=
  { envelope taskId .manual with batchId := .value "b1" }

/-- A user submits a task of a batch. -/
def submitBatch (n : ℕ) (taskId login : String) (hlogin : login ≠ "") : AppEvent :=
  .request (moment n) (.user "laptop" login hlogin) (.submitTask (batchEnvelope taskId) none false)

/-- Two users' tasks in one batch. -/
def sharedBatch : List AppEvent :=
  [submitBatch 0 "t1" "alice" (by decide), submitBatch 1 "t2" "bob" (by decide)]

end SmallDeployment

open SmallDeployment in
/-- Alice cancels the batch: her task is cancelled and Bob's stays queued. -/
theorem cancel_frame_iff_shared :
    (((AppEvent.request (moment 2) (.user "laptop" "alice" (by decide)) (.cancelTask "b1")).apply
        service (appServe service sharedBatch)).task? "t1").map TaskRow.state = some .cancelled ∧
    (((AppEvent.request (moment 2) (.user "laptop" "alice" (by decide)) (.cancelTask "b1")).apply
        service (appServe service sharedBatch)).task? "t2").map TaskRow.state = some .queued := by
  have hframe := ((@cancel_frame_iff service sharedBatch (moment 2)
    (.user "laptop" "alice" (by decide)) "alice" rfl rfl "b1").mpr (.inl (by decide +kernel))).1
  rw [hframe, hframe]
  decide +kernel

/-! ## A batch too large to cancel -/

/-- A text of letters and digits passes the pattern of a task id. -/
theorem Pattern.taskId_of_alnum {s : String} (hne : s.toList ≠ [])
    (h : ∀ c ∈ s.toList, Pattern.isAlnum c = true) : Pattern.taskId s = true := by
  have hnewline : s.toList.getLast? ≠ some '\n' := by
    intro hlast
    have hc := h _ (List.mem_of_getLast? hlast)
    revert hc
    decide
  rw [Pattern.taskId, Pattern.dropFinalNewline, if_neg hnewline]
  cases hcs : s.toList with
  | nil => exact absurd hcs hne
  | cons c cs =>
    rw [hcs] at h
    have htail : cs.all Pattern.isTaskIdChar = true := by
      refine List.all_eq_true.mpr fun d hd => ?_
      simp [Pattern.isTaskIdChar, h d (List.mem_cons_of_mem c hd)]
    simp [Pattern.headTail, h c List.mem_cons_self, htail]

theorem Pattern.isAlnum_of_isDigit {c : Char} (h : c.isDigit = true) : Pattern.isAlnum c = true := by
  simp only [Char.isDigit, Bool.and_eq_true, decide_eq_true_eq] at h
  have hdigit : '0' ≤ c ∧ c ≤ '9' := h
  simp [Pattern.isAlnum, hdigit]

namespace SmallDeployment

/-- The tasks of a large batch are numbered. -/
theorem batchEnvelope_valid {n : ℕ} (hn : n < 10 ^ 200) :
    (batchEnvelope n.repr).schemaValid = true := by
  have hdigits : ∀ c ∈ n.repr.toList, Pattern.isAlnum c = true := by
    intro c hc
    have hmem : c ∈ Nat.toDigits 10 n := by simpa [Nat.repr_eq_ofList_toDigits] using hc
    exact Pattern.isAlnum_of_isDigit (Nat.isDigit_of_mem_toDigits (by decide) (by decide) hmem)
  have hne : n.repr.toList ≠ [] := by
    intro hnil
    have hpos : 0 < n.repr.length := Nat.length_repr_pos
    rw [← String.length_toList, hnil] at hpos
    exact absurd hpos (by decide)
  have hid : Pattern.taskId n.repr = true := Pattern.taskId_of_alnum hne hdigits
  have hlength : n.repr.length ≤ 200 := (Nat.length_repr_le_iff (by decide)).mpr hn
  have hrunner : Pattern.runnerId "runner-1" = true := by decide
  have hbatch : TaskEnvelope.batchIdValid "b1" = true := by decide
  have hbody : TaskEnvelope.taskBodyValid (body "PerfTaskData") = true := by decide
  simp [TaskEnvelope.schemaValid, batchEnvelope, envelope, Optional.all, hid, hlength, hrunner,
    hbatch, hbody]

/-- One more task of the batch is stored, queued under its submitter's login. -/
theorem submitBatch_apply {n : ℕ} (hn : n < 10 ^ 200) {db : Database}
    (hfree : db.task? n.repr = none) :
    ∀ id, ((submitBatch n n.repr "alice" (by decide)).apply service db).task? id =
      if id = n.repr then some (ControlService.newRow (batchEnvelope n.repr) .queued (some "alice")
        none (moment n).now) else db.task? id := by
  have hstore : service.submitTask (moment n) (batchEnvelope n.repr) "user:laptop" none
      (some "alice") false db = ControlService.storeTask (batchEnvelope n.repr) .queued none
        (some "alice") (moment n) "user:laptop" none db := by
    have hzone : service.parsesWithTimezone (batchEnvelope n.repr).submittedAt = true := by
      show service.parsesWithTimezone "2026-01-01T00:00:00Z" = true
      decide
    have hrunner : service.registry.getRunner (batchEnvelope n.repr).runnerId =
        .ok ⟨"runner-1", true, none⟩ := by
      show service.registry.getRunner "runner-1" = _
      decide
    unfold ControlService.submitTask
    rw [batchEnvelope_valid hn, hzone, hrunner]
    rfl
  cases hins : db.insertTask (ControlService.newRow (batchEnvelope n.repr) .queued (some "alice")
      none (moment n).now) with
  | none =>
    have htaken := Database.keyTaken_of_insertTask_eq_none hins hfree
      ⟨by simp [ControlService.newRow, batchEnvelope, envelope],
        by simp [ControlService.newRow, batchEnvelope, envelope]⟩
    obtain ⟨key, hkey, -⟩ := Database.keyTaken_iff.mp htaken
    cases hkey
  | some inserted =>
    have happly : (submitBatch n n.repr "alice" (by decide)).apply service db =
        inserted.audit (ControlService.insertRecord .taskSubmit (moment n).now "user:laptop" none
          (ControlService.newRow (batchEnvelope n.repr) .queued (some "alice") none
            (moment n).now)) := by
      show committed db (service.submitTask (moment n) (batchEnvelope n.repr) "user:laptop" none
        (some "alice") false db) = _
      rw [hstore, ControlService.storeTask, ControlService.existingTask, Option.none_or]
      rw [show db.task? (batchEnvelope n.repr).taskId = none from hfree]
      dsimp only
      rw [hins]
      rfl
    intro id
    rw [happly, Database.task?_audit]
    exact (Database.insertTask_eq_some hins).2.2 id

/-- A user's batch of `n` tasks. -/
def largeBatch (n : ℕ) : List AppEvent :=
  (List.range n).map fun i => submitBatch i i.repr "alice" (by decide)

/-- All of them are stored, and no other; by induction on their number. -/
theorem largeBatch_stored {n : ℕ} (hn : n ≤ 10 ^ 200) :
    (∀ i < n, (appServe service (largeBatch n)).task? i.repr =
      some (ControlService.newRow (batchEnvelope i.repr) .queued (some "alice") none (moment i).now)) ∧
    ∀ i, n ≤ i → (appServe service (largeBatch n)).task? i.repr = none := by
  induction n with
  | zero => exact ⟨fun i hi => absurd hi (Nat.not_lt_zero i), fun i _ => rfl⟩
  | succ n ih =>
    obtain ⟨hstored, hfree⟩ := ih (by omega)
    have hlast : appServe service (largeBatch (n + 1)) =
        (submitBatch n n.repr "alice" (by decide)).apply service (appServe service (largeBatch n)) := by
      simp [appServe, largeBatch, List.range_succ]
    have happly := submitBatch_apply (n := n) (by omega) (hfree n le_rfl)
    rw [hlast]
    constructor
    · intro i hi
      rw [happly]
      by_cases hin : i = n
      · rw [hin, if_pos rfl]
      · rw [if_neg fun h => hin (PyText.repr_injective h)]
        exact hstored i (by omega)
    · intro i hi
      rw [happly, if_neg fun h => absurd (PyText.repr_injective h) (by omega)]
      exact hfree i (by omega)

/-- The batch names a row for each of them. -/
theorem le_named_largeBatch {n : ℕ} (hn : n ≤ 10 ^ 200) :
    n ≤ (ControlService.named (appServe service (largeBatch n)) "b1").length := by
  have hnodup : ((List.range n).map Nat.repr).Nodup :=
    List.nodup_range.map fun _ _ => PyText.repr_injective
  have hsubset : (List.range n).map Nat.repr ⊆
      (ControlService.named (appServe service (largeBatch n)) "b1").map TaskRow.taskId := by
    intro id hid
    obtain ⟨i, hi, rfl⟩ := List.mem_map.mp hid
    have hfind := (largeBatch_stored hn).1 i (List.mem_range.mp hi)
    have hrow := (Database.task?_eq_some_iff.mp hfind).1
    have hselected : ControlService.selects "b1" (ControlService.newRow (batchEnvelope i.repr) .queued
        (some "alice") none (moment i).now) = true := decide_eq_true (.inr rfl)
    exact List.mem_map.mpr ⟨_, List.mem_filter.mpr ⟨hrow, hselected⟩, rfl⟩
  have hle := (List.subperm_of_subset hnodup hsubset).length_le
  rwa [List.length_map, List.length_map, List.length_range] at hle

end SmallDeployment

open SmallDeployment in
/-- A user with 32767 queued tasks in one batch cancels it: the service answers an
error and every task stays queued. -/
theorem bulk_cancel_refused :
    ¬ ∀ (svc : ControlService) (es : List AppEvent) (m : Moment) (identity : AuthIdentity)
      (login selector : String), identity.login = some login → identity.isOwner svc = false →
        ∀ taskId, ((AppEvent.request m identity (.cancelTask selector)).apply svc
            (appServe svc es)).task? taskId =
          ((appServe svc es).task? taskId).map (afterCancel login selector m.now) := by
  intro h
  have hlarge : ControlService.maxVariableNumber + 1 ≤ 10 ^ 200 := by
    decide +kernel
  have hframe := h service (largeBatch (ControlService.maxVariableNumber + 1)) (moment 0)
    (.user "laptop" "alice" (by decide)) "alice" "b1" rfl rfl (0 : ℕ).repr
  have hstored := (largeBatch_stored hlarge).1 0 (Nat.succ_pos _)
  rw [apply_cancelTask service (moment 0) rfl rfl,
    ControlService.cancelTask_refused (Nat.lt_of_succ_le (le_named_largeBatch hlarge)), hstored] at hframe
  have hstate := congrArg (Option.map TaskRow.state) hframe
  simp [ControlService.newRow, afterCancel, batchEnvelope, Optional.get] at hstate

end Conductress
