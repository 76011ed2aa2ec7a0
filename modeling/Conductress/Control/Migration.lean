import Conductress.Lib.Except
import Conductress.Lib.Sql

/-!
# The migration of the database file

`ControlDatabase.initialize` brings a file of any earlier schema version to
version 4, one script for each version. Its transaction ends at the first
`executescript`, so every statement after that is durable by itself. The first
three scripts are `IF NOT EXISTS` throughout. The fourth rebuilds `tasks`: it
creates `tasks_v4` unconditionally, copies the rows, drops `tasks` and renames.

* `migrate_throughout`, `migrateV4_throughout` — one version's migration,
  wherever it is cut short;
* `initializeDatabase_throughout` — a whole attempt on an installation, with
  the window in which it leaves `tasks_v4` behind;
* `stuck_throughout` — an attempt on a file with `tasks_v4` in it;
* `no_row_lost` — after any attempts the rows are in one of the two tables;
* `recovers_iff_not_rebuilding` — initializing again recovers exactly when the
  attempt before was not cut short in the rebuild.
-/

namespace Conductress

open Lib

inductive TableName where
  | schemaMigrations | tasks | tasksV4 | runnerStatus | auditLog | canarySchedule
  | canaryObservations | canaryCalibrationReports
  deriving DecidableEq, Repr

inductive IndexName where
  | tasksRunnerStatePriority | tasksState | tasksBatch | tasksSubmitter | auditTask | auditRunner
  | canaryObsSeries | canaryObsAccepted | canaryObsOneAcceptedPerDate
  deriving DecidableEq, Repr

namespace ControlDatabase

abbrev File := Catalogue TableName IndexName

def databaseSchemaVersion : Int := 4

/-! ## The scripts -/

/-- A column that may be NULL. -/
def column (name : String) : SqlColumn := ⟨name, false, none⟩

/-- `NOT NULL`. -/
def required (name : String) : SqlColumn := ⟨name, true, none⟩

/-- `NOT NULL CHECK (name IN (...))`. -/
def oneOf (name : String) (values : List String) : SqlColumn := ⟨name, true, some (values.map .text)⟩

def key (columns : List String) : SqlKey := ⟨columns, none⟩

def taskClassColumn : SqlColumn := oneOf "task_class" ["manual", "canary", "sweep"]

/-- `tasks` as version 1 has it. -/
def taskColumnsV1 : List SqlColumn :=
  [column "task_id", required "runner_id", taskClassColumn, required "priority",
    oneOf "state" ["queued", "claimed", "accepted", "completed", "failed", "cancelled"],
    required "submitted_at", required "submitted_by", column "canary_id", required "envelope_json",
    column "idempotency_key", column "claimed_at", column "lease_expires", column "claim_token",
    column "accepted_at", column "completed_at", column "outcome_json", required "created_at",
    required "updated_at"]

/-- The primary key and the UNIQUE column of `tasks`. -/
def taskKeys : List SqlKey := [key ["task_id"], key ["idempotency_key"]]

def schemaV1 : List (Statement TableName IndexName) :=
  [.createTable true .tasks taskColumnsV1 taskKeys,
  .createIndex .tasksRunnerStatePriority .tasks ["runner_id", "state", "priority", "submitted_at"],
  .createIndex .tasksState .tasks ["state"],
  .createTable true .runnerStatus
    [column "runner_id", required "status_json", required "updated_at"] [key ["runner_id"]],
  .createTable true .auditLog
    [column "id", required "timestamp", required "actor", required "action", column "task_id",
      column "runner_id", column "old_state", column "new_state", column "detail_json"]
    [key ["id"]],
  .createIndex .auditTask .auditLog ["task_id"],
  .createIndex .auditRunner .auditLog ["runner_id"]]

def schemaV2 : List (Statement TableName IndexName) :=
  [.createTable true .canarySchedule
    [required "runner_id", required "profile_id", required "utc_date",
      oneOf "state" ["created", "missed", "expired"], column "task_id", required "created_at",
      required "updated_at"]
    [key ["runner_id", "profile_id", "utc_date"]]]

def schemaV3 : List (Statement TableName IndexName) :=
  [.createTable true .canaryObservations
    [required "runner_id", required "profile_id", required "profile_version", required "utc_date",
      required "task_id", column "score", column "completed_at",
      oneOf "phase" ["observation", "calibrating", "ready"],
      ⟨"accepted", true, some [.integer 0, .integer 1]⟩, column "rejection_reason",
      column "ref_median", column "ref_mad", column "delta_pct", column "series_ordinal",
      column "ref_sample_count", column "candidate_warning_pct", column "candidate_alarm_pct",
      ⟨"candidate_signal", false,
        some [.text "insufficient-data", .text "within", .text "warning", .text "alarm"]⟩,
      ⟨"actionable", true, some [.integer 0]⟩, column "window_start", column "window_end",
      column "environment_json", column "env_change_annotation", column "provenance_schema_version",
      required "created_at"]
    [key ["runner_id", "profile_id", "profile_version", "utc_date", "task_id"]],
  .createIndex .canaryObsSeries .canaryObservations
    ["runner_id", "profile_id", "profile_version", "utc_date"],
  .createIndex .canaryObsAccepted .canaryObservations
    ["runner_id", "profile_id", "profile_version", "accepted", "utc_date"],
  .createUniqueIndex .canaryObsOneAcceptedPerDate .canaryObservations
    ⟨["runner_id", "profile_id", "profile_version", "utc_date"], some ("accepted", .integer 1)⟩,
  .createTable true .canaryCalibrationReports
    [column "report_id", required "runner_id", required "profile_id", required "profile_version",
      required "sample_count", required "date_range_start", required "date_range_end",
      required "median_score", required "mad", required "robust_sigma",
      required "variability_floor_pct", column "candidate_warning_pct", column "candidate_alarm_pct",
      required "recommended_warning_pct", required "recommended_alarm_pct",
      oneOf "status" ["ready-for-review", "accepted", "rejected"], required "report_json",
      required "created_at"]
    [key ["report_id"], key ["runner_id", "profile_id", "profile_version"]]]

/-- `tasks` as version 4 has it: two more states and two more columns. -/
def taskColumnsV4 : List SqlColumn :=
  [column "task_id", required "runner_id", taskClassColumn, required "priority",
    oneOf "state" ["queued", "claimed", "accepted", "completed", "failed", "cancelled",
      "pending-approval", "cancel-requested"],
    required "submitted_at", required "submitted_by", column "canary_id", column "batch_id",
    column "submitter_login", required "envelope_json", column "idempotency_key", column "claimed_at",
    column "lease_expires", column "claim_token", column "accepted_at", column "completed_at",
    column "outcome_json", required "created_at", required "updated_at"]

/-- The columns the rebuild takes from the old table. -/
def copiedNames : List String :=
  ["task_id", "runner_id", "task_class", "priority", "state", "submitted_at", "submitted_by",
    "canary_id", "envelope_json", "idempotency_key", "claimed_at", "lease_expires", "claim_token",
    "accepted_at", "completed_at", "outcome_json", "created_at", "updated_at"]

/-- `INSERT INTO tasks_v4 (...) SELECT ...`. -/
def copiedColumns : List Copied :=
  [⟨"task_id", "task_id"⟩, ⟨"runner_id", "runner_id"⟩, ⟨"task_class", "task_class"⟩,
    ⟨"priority", "priority"⟩, ⟨"state", "state"⟩, ⟨"submitted_at", "submitted_at"⟩,
    ⟨"submitted_by", "submitted_by"⟩, ⟨"canary_id", "canary_id"⟩, ⟨"batch_id", none⟩,
    ⟨"submitter_login", none⟩, ⟨"envelope_json", "envelope_json"⟩,
    ⟨"idempotency_key", "idempotency_key"⟩, ⟨"claimed_at", "claimed_at"⟩,
    ⟨"lease_expires", "lease_expires"⟩, ⟨"claim_token", "claim_token"⟩,
    ⟨"accepted_at", "accepted_at"⟩, ⟨"completed_at", "completed_at"⟩,
    ⟨"outcome_json", "outcome_json"⟩, ⟨"created_at", "created_at"⟩, ⟨"updated_at", "updated_at"⟩]

/-- The first four statements of the fourth script. -/
def rebuild : List (Statement TableName IndexName) :=
  [.createTable false .tasksV4 taskColumnsV4 taskKeys,
  .insertSelect .tasksV4 copiedColumns .tasks,
  .dropTable .tasks,
  .renameTable .tasksV4 .tasks]

/-- Its last four. -/
def reindex : List (Statement TableName IndexName) :=
  [.createIndex .tasksRunnerStatePriority .tasks ["runner_id", "state", "priority", "submitted_at"],
  .createIndex .tasksState .tasks ["state"],
  .createIndex .tasksBatch .tasks ["batch_id"],
  .createIndex .tasksSubmitter .tasks ["submitter_login"]]

def schemaV4 : List (Statement TableName IndexName) := rebuild ++ reindex

/-! ## initialize -/

def migrationColumns : List SqlColumn := [column "version", required "applied_at"]

def createMigrations : Statement TableName IndexName :=
  .createTable true .schemaMigrations migrationColumns [key ["version"]]

/-- `INSERT INTO schema_migrations(version, applied_at) VALUES (?, ?)`. -/
def recordVersion (version : Int) (now : String) : Statement TableName IndexName :=
  .insertValues .schemaMigrations [("version", .integer version), ("applied_at", .text now)]

/-- `SELECT MAX(version)`, with `or 0`. -/
def maxVersion (rows : List SqlRow) : Int :=
  ((rows.filterMap fun r => match r "version" with
    | .integer n => some n
    | _ => none).max?).getD 0

/-- `if version < target`: the script, then the row that records it. -/
def migrate (now : Int → String) (version target : Int) (script : List (Statement TableName IndexName)) :
    Prog (SqlCall TableName IndexName) SqlError Unit :=
  if version < target then do
    Sql.executescript script
    Sql.perform (.execute (recordVersion target (now target)))
  else pure ()

/-- The migrations due from the version read. -/
def migrateFrom (now : Int → String) (version : Int) : Prog (SqlCall TableName IndexName) SqlError Unit :=
  if version > databaseSchemaVersion then
    Prog.raise (.runtime ("database schema " ++ toString version ++ " is newer than supported " ++
      toString databaseSchemaVersion))
  else do
    migrate now version 1 schemaV1
    migrate now version 2 schemaV2
    migrate now version 3 schemaV3
    migrate now version 4 schemaV4
    Sql.perform .commit

/-- `ControlDatabase.initialize` on a new connection; `now` is the time each
version is recorded at. -/
def initializeDatabase (now : Int → String) : Prog (SqlCall TableName IndexName) SqlError Unit := do
  Sql.perform .begin
  Sql.perform (.execute createMigrations)
  let rows ← Sql.perform (.select .schemaMigrations)
  migrateFrom now (maxVersion rows)

/-- The schema version a file says it has. -/
def version (file : File) : Int := maxVersion (file.rows .schemaMigrations)

/-- An attempt to initialize that fails, or dies, after so many calls on its
connection. -/
structure Attempt where
  now   : Int → String
  calls : ℕ

/-- What it leaves in the file: an open transaction is rolled back. -/
def Attempt.leave (a : Attempt) (file : File) : File :=
  ((initializeDatabase a.now).after sqlEffects () a.calls (.connected file)).durable

/-- The file when `initialize` is left alone, or what it raises. -/
def initialized (now : Int → String) (file : File) : Except SqlError File :=
  let result := (initializeDatabase now).eval sqlEffects () (.connected file)
  result.1.map fun _ => result.2.durable

/-! ## Installations -/

/-- The columns the scripts index or copy, which a table must have when it is
already there. -/
def shape : TableName → List String
  | .tasks => copiedNames
  | .auditLog => ["task_id", "runner_id"]
  | .canaryObservations => ["runner_id", "profile_id", "profile_version", "utc_date", "accepted"]
  | _ => []

/-- A file at a version, between two scripts or inside one of the first three,
with these rows in `tasks`. -/
structure Installed (rows : List SqlRow) (v : Int) (file : File) : Prop where
  supported  : 0 ≤ v ∧ v ≤ databaseSchemaVersion
  version    : version file = v
  migrations : ∀ t, file.tables .schemaMigrations = some t →
    t.columns = migrationColumns ∧ t.keys = [key ["version"]]
  conforms   : file.Conforms shape
  noRebuild  : file.tables .tasksV4 = none
  rows       : file.rows .tasks = rows
  present    : 1 ≤ v → ∃ t, file.tables .tasks = some t
  unobserved : v < 3 → file.rows .canaryObservations = []

/-- The table the versions are recorded in is there. -/
def Recording (file : File) : Prop := ∃ t, file.tables .schemaMigrations = some t

/-- What the rebuild leaves until it has renamed: `tasks_v4`, which no rerun
gets past. The rows are in one table or the other. -/
structure Rebuilding (rows : List SqlRow) (file : File) : Prop where
  version   : ControlDatabase.version file = 3
  recording : Recording file
  left      : ∃ t, file.tables .tasksV4 = some t
  rows      : file.rows .tasks = rows ∨ file.rows .tasksV4 = rows

/-- Rows the version 4 table takes, with nothing outside the old columns. -/
structure Copyable (rows : List SqlRow) : Prop where
  checked   : ∀ r ∈ rows, ∀ c ∈ taskColumnsV4, c.admits (r c.name) = true
  keyed     : ∀ k ∈ taskKeys, rows.Pairwise fun r r' => k.clash r r' = false
  supported : ∀ r ∈ rows, ∀ name ∉ copiedNames, r name = .null

/-- A script that leaves `tasks_v4` and the recorded versions alone. -/
structure Plain (script : List (Statement TableName IndexName)) : Prop where
  conforms : ∀ k ∈ script.flatMap (·.declares), shape k.1 ⊆ k.2.map (·.name)
  rebuilds : .tasksV4 ∉ (script.flatMap (·.declares)).map (·.1)
  records  : .schemaMigrations ∉ (script.flatMap (·.declares)).map (·.1) ∧
    .schemaMigrations ∉ script.flatMap (·.indexesUniquely)
  observes : ∀ table ∈ script.flatMap (·.indexesUniquely), table = .canaryObservations

theorem ready_schemaV1 : Statement.Ready shape [] schemaV1 := by decide +kernel

theorem ready_schemaV2 : Statement.Ready shape [] schemaV2 := by decide +kernel

theorem ready_schemaV3 : Statement.Ready shape [] schemaV3 := by decide +kernel

theorem plain_schemaV1 : Plain schemaV1 := by
  constructor <;> decide +kernel

theorem plain_schemaV2 : Plain schemaV2 := by
  constructor <;> decide +kernel

theorem plain_schemaV3 : Plain schemaV3 := by
  constructor <;> decide +kernel

theorem plain_reindex : Plain reindex := by
  constructor <;> decide +kernel

section Installed

variable {rows : List SqlRow} {v target : Int} {file file' : File}
  {script : List (Statement TableName IndexName)}

theorem Installed.extends (h : Installed rows v file) (hplain : Plain script)
    (hext : file.Extends script file') : Installed rows v file' where
  supported := h.supported
  version := by rw [ControlDatabase.version, hext.rows]; exact h.version
  migrations t' ht' := by
    cases hfile : file.tables .schemaMigrations with
    | none =>
      rw [hext.absent hfile hplain.records.1] at ht'
      cases ht'
    | some t =>
      obtain ⟨u, hu, hcolumns, -, hkeys⟩ := hext.kept _ t hfile
      obtain rfl : u = t' := Option.some.inj (hu.symm.trans ht')
      rw [hcolumns, hkeys hplain.records.2]
      exact h.migrations t hfile
  conforms := h.conforms.extends hext hplain.conforms
  noRebuild := hext.absent h.noRebuild hplain.rebuilds
  rows := by rw [hext.rows]; exact h.rows
  present hv := by
    obtain ⟨t, ht⟩ := h.present hv
    obtain ⟨t', ht', -⟩ := hext.kept _ t ht
    exact ⟨t', ht'⟩
  unobserved hv := by rw [hext.rows]; exact h.unobserved hv

theorem Recording.extends (h : Recording file) (hext : file.Extends script file') : Recording file' := by
  obtain ⟨t, ht⟩ := h
  obtain ⟨t', ht', -⟩ := hext.kept _ t ht
  exact ⟨t', ht'⟩

/-- The greatest version, after a greater one is recorded. -/
theorem maxVersion_append {rs : List SqlRow} {r : SqlRow} (hr : r "version" = .integer target)
    (hlt : maxVersion rs < target) : maxVersion (rs ++ [r]) = target := by
  unfold maxVersion at *
  rw [List.filterMap_append]
  have hlast : ([r].filterMap fun r => match r "version" with
      | .integer n => some n
      | _ => none) = [target] := by simp [hr]
  rw [hlast]
  generalize (rs.filterMap fun r => match r "version" with
    | .integer n => some n
    | _ => none) = versions at *
  have hmax : (versions ++ [target]).max? = some target := by
    rw [List.max?_eq_some_iff]
    refine ⟨by simp, fun n hn => ?_⟩
    rcases List.mem_append.mp hn with hn | hn
    · cases hmax : versions.max? with
      | none => simp [List.max?_eq_none_iff.mp hmax] at hn
      | some m =>
        have hle := (List.max?_eq_some_iff.mp hmax).2 n hn
        rw [hmax] at hlt
        simp only [Option.getD_some] at hlt
        omega
    · have hsame := List.mem_singleton.mp hn
      omega
  rw [hmax]
  rfl

/-- A version that is recorded is not above the greatest one. -/
theorem le_maxVersion {rs : List SqlRow} {r : SqlRow} (hr : r ∈ rs) {n : Int}
    (hn : r "version" = .integer n) : n ≤ maxVersion rs := by
  have hmem : n ∈ rs.filterMap fun r => match r "version" with
      | .integer n => some n
      | _ => none := List.mem_filterMap.mpr ⟨r, hr, by simp [hn]⟩
  unfold maxVersion
  cases hmax : (rs.filterMap fun r => match r "version" with
      | .integer n => some n
      | _ => none).max? with
  | none => simp [List.max?_eq_none_iff.mp hmax] at hmem
  | some m => exact (List.max?_eq_some_iff.mp hmax).2 n hmem

/-- Recording a version after its script. -/
theorem Installed.record (h : Installed rows v file) (hlt : v < target)
    (hsupported : target ≤ databaseSchemaVersion) (hrecording : Recording file) (htasks : ∃ t, file.tables .tasks = some t) (now : String) :
    ∃ file', file.execute (recordVersion target now) = .ok file' ∧ Installed rows target file' ∧
      Recording file' := by
  obtain ⟨t, ht⟩ := hrecording
  obtain ⟨hcolumns, hkeys⟩ := h.migrations t ht
  let row := rowOf [("version", .integer target), ("applied_at", .text now)]
  have hrows : file.rows .schemaMigrations = t.rows := by simp [Catalogue.rows, ht]
  have hversion : maxVersion t.rows = v := by rw [← hrows]; exact h.version
  have hadmits : t.admits row = true := by
    simp only [SqlTable.admits, hcolumns, hkeys, Bool.and_eq_true, List.all_eq_true]
    refine ⟨?_, fun k hk r' hr' => ?_⟩
    · have happlied : row "applied_at" = .text now := rfl
      simp [migrationColumns, column, required, SqlColumn.admits, happlied]
    obtain rfl := List.mem_singleton.mp hk
    simp only [Bool.not_eq_true', Bool.eq_false_iff, ne_eq, SqlKey.clash, key, Bool.and_eq_true,
      List.all_cons, List.all_nil, and_true, beq_iff_eq, not_and]
    intro _ hsame
    have hle := le_maxVersion hr' (n := target) hsame.symm
    omega
  have hnames : ["version", "applied_at"] ⊆ t.names := by
    rw [SqlTable.names, hcolumns]
    decide
  have hok : file.execute (recordVersion target now) =
      .ok (file.setTable .schemaMigrations (some { t with rows := t.rows ++ [row] })) :=
    Catalogue.insertValues_ok ht hnames (if_pos hadmits)
  have hpos := h.supported.1
  refine ⟨_, hok, ⟨⟨by omega, hsupported⟩, ?_, ?_, ?_, ?_, ?_, fun _ => ?_, fun hv => ?_⟩,
    ⟨{ t with rows := t.rows ++ [row] }, by simp⟩⟩
  · have happend : maxVersion (t.rows ++ [row]) = target := maxVersion_append rfl (by omega)
    simpa [ControlDatabase.version, Catalogue.rows] using happend
  · intro t' ht'
    obtain rfl : _ = t' := by simpa using ht'
    exact ⟨hcolumns, hkeys⟩
  · intro name t' ht'
    by_cases hname : name = .schemaMigrations
    · subst hname
      simp [shape]
    · exact h.conforms name t' (by simpa [hname] using ht')
  · simpa using h.noRebuild
  · simpa [Catalogue.rows] using h.rows
  · simpa using htasks
  · simpa [Catalogue.rows] using h.unobserved (by omega)

end Installed

/-! ## The first three scripts -/

/-- The calls made before the fourth script's first statement: the three that
open the transaction and read the version, the scripts still due with the
commit before and the version row after each, and the fourth script's commit. -/
def rebuildStart (v : Int) : ℕ :=
  4 + (if v < 1 then schemaV1.length + 2 else 0) + (if v < 2 then schemaV2.length + 2 else 0) +
    (if v < 3 then schemaV3.length + 2 else 0)

/-- The cut comes after `CREATE TABLE tasks_v4` and before the renaming. -/
def RebuildBegun (v : Int) (calls : ℕ) : Prop :=
  v < 4 ∧ rebuildStart v < calls ∧ calls ≤ rebuildStart v + 3

instance (v : Int) (calls : ℕ) : Decidable (RebuildBegun v calls) := by
  unfold RebuildBegun
  infer_instance

/-- What an attempt that found version `v` leaves when it is cut short. -/
def Kept (rows : List SqlRow) (v : Int) (calls : ℕ) (s : Session File) : Prop :=
  (RebuildBegun v calls → Rebuilding rows s.durable) ∧
    (¬ RebuildBegun v calls → ∃ v', Installed rows v' s.durable)

section Initialize

variable {rows : List SqlRow} {v target : Int} {file file' : File} {now : Int → String} {n : ℕ}
  {script : List (Statement TableName IndexName)} {s : Session File}
  {Q : Except SqlError Unit → ℕ → Session File → Prop}

theorem Kept.of_le (hle : n ≤ rebuildStart v) {v' : Int} (h : Installed rows v' s.durable) :
    Kept rows v n s :=
  ⟨fun hbegun => absurd hbegun.2.1 (by omega), fun _ => ⟨v', h⟩⟩

theorem Kept.of_lt (hlt : rebuildStart v + 3 < n) {v' : Int} (h : Installed rows v' s.durable) :
    Kept rows v n s :=
  ⟨fun hbegun => absurd hbegun.2.2 (by omega), fun _ => ⟨v', h⟩⟩

/-- The calls of one version's migration. -/
def migrationCalls (v target : Int) (script : List (Statement TableName IndexName)) : ℕ :=
  if v < target then script.length + 2 else 0

/-- One of the first three migrations. -/
theorem migrate_throughout (hready : Statement.Ready shape [] script) (hplain : Plain script)
    (htarget : target ≤ 3)
    (htasks : 1 < target ∨ .tasks ∈ (script.flatMap (·.declares)).map (·.1))
    (h : Installed rows (max v (target - 1)) s.view) (hrecording : Recording s.view)
    (hkept : Kept rows v n s) (hcalls : n + migrationCalls v target script ≤ rebuildStart v)
    (hQ : ∀ s', Installed rows (max v target) s'.view → Recording s'.view →
      Kept rows v (n + migrationCalls v target script) s' →
        Q (.ok ()) (n + migrationCalls v target script) s') :
    (migrate now v target script).Throughout sqlEffects () (Kept rows v) Q n s := by
  unfold migrate
  by_cases hdue : v < target
  · rw [if_pos hdue]
    have hmigrationCalls : migrationCalls v target script = script.length + 2 := if_pos hdue
    rw [hmigrationCalls] at hcalls hQ
    have hempty : ∀ table ∈ script.flatMap (·.indexesUniquely), s.view.rows table = [] := by
      intro table htable
      rw [hplain.observes table htable]
      exact h.unobserved (by omega)
    refine .bind (Sql.executescript_throughout hready h.conforms hempty hkept ?_ ?_)
    · intro m c' hlt hle hext
      exact .of_le (by omega) (h.extends hplain hext)
    · intro c' hext hdeclared
      have hpresent : ∃ t, c'.tables .tasks = some t := by
        rcases htasks with hlate | hdeclares
        · exact (h.extends hplain hext).present (by omega)
        · exact hdeclared _ hdeclares
      have hbelow : max v (target - 1) < target := by omega
      obtain ⟨c'', hok, hinstalled, hrecording'⟩ :=
        (h.extends hplain hext).record hbelow (by unfold databaseSchemaVersion; omega) (hrecording.extends hext) hpresent (now target)
      have hcount : n + 1 + script.length + 1 = n + (script.length + 2) := by omega
      have hmax : max v target = target := by omega
      refine Sql.execute_throughout hok (.of_le (by omega) (h.extends hplain hext)) ?_
      rw [hcount]
      refine hQ (.connected c'') (by rw [hmax]; exact hinstalled) hrecording' ?_
      exact .of_le (by omega) hinstalled
  · rw [if_neg hdue]
    have hmigrationCalls : migrationCalls v target script = 0 := if_neg hdue
    rw [hmigrationCalls] at hQ
    have hmax : max v target = max v (target - 1) := by omega
    exact hQ s (by rw [hmax]; exact h) hrecording hkept

/-! ## The rebuild -/

/-- A row of the old columns is copied as it is. -/
theorem copied_row {r : SqlRow} (h : ∀ name ∉ copiedNames, r name = .null) :
    Copied.row copiedColumns r = r := by
  funext name
  by_cases hname : name ∈ copiedNames
  · unfold copiedNames at hname
    simp only [List.mem_cons, List.not_mem_nil, or_false] at hname
    rcases hname with rfl | rfl | rfl | rfl | rfl | rfl | rfl | rfl | rfl | rfl | rfl | rfl | rfl |
      rfl | rfl | rfl | rfl | rfl <;> rfl
  · rw [h name hname, Copied.row]
    split
    · next target source hfind =>
      have hmem := List.mem_of_find?_eq_some hfind
      have htarget : target = name := by simpa using List.find?_some hfind
      have hcopied : ∀ c ∈ copiedColumns, ∀ source, c.source = some source → source = c.target ∧
          source ∈ copiedNames := by decide +kernel
      obtain ⟨hsame, hin⟩ := hcopied _ hmem source rfl
      have htaken : source = target := hsame
      exact absurd (htarget ▸ htaken ▸ hin) hname
    · rfl

/-- The file after each statement of the rebuild. -/
structure Rebuilt (rows : List SqlRow) (file c₁ c₂ c₃ c₄ : File) : Prop where
  creates : file.execute (.createTable false .tasksV4 taskColumnsV4 taskKeys) = .ok c₁
  copies  : c₁.execute (.insertSelect .tasksV4 copiedColumns .tasks) = .ok c₂
  drops   : c₂.execute (.dropTable .tasks) = .ok c₃
  renames : c₃.execute (.renameTable .tasksV4 .tasks) = .ok c₄
  created : Rebuilding rows c₁
  copied  : Rebuilding rows c₂
  dropped : Rebuilding rows c₃
  renamed : Installed rows 3 c₄
  records : Recording c₄
  columns : ∃ t, c₄.tables .tasks = some t ∧ t.columns = taskColumnsV4

/-- What the rebuild never touches. -/
theorem Installed.untouched (h : Installed rows v file) (hrecording : Recording file)
    (hsame : ∀ name, name ≠ .tasks → name ≠ .tasksV4 → file'.tables name = file.tables name) :
    ControlDatabase.version file' = v ∧ Recording file' := by
  have hmigrations := hsame .schemaMigrations (by decide) (by decide)
  constructor
  · rw [← h.version, ControlDatabase.version, ControlDatabase.version, Catalogue.rows, Catalogue.rows,
      hmigrations]
  · obtain ⟨t, ht⟩ := hrecording
    exact ⟨t, hmigrations.trans ht⟩

/-- The rebuild raises nothing, copies every row and leaves an installation. -/
theorem rebuild_executes (h : Installed rows 3 file) (hrecording : Recording file)
    (hcopy : Copyable rows) : ∃ c₁ c₂ c₃ c₄, Rebuilt rows file c₁ c₂ c₃ c₄ := by
  obtain ⟨t, ht⟩ := h.present (by omega)
  have hrows : t.rows = rows := by simpa [Catalogue.rows, ht] using h.rows
  let empty : SqlTable := ⟨taskColumnsV4, taskKeys, []⟩
  let full : SqlTable := ⟨taskColumnsV4, taskKeys, rows⟩
  -- the copy: every row as it is, all of them admitted
  have hmapped : t.rows.map (Copied.row copiedColumns) = rows := by
    rw [hrows]
    have hsame : ∀ r ∈ rows, Copied.row copiedColumns r = r := fun r hr =>
      copied_row (hcopy.supported r hr)
    exact (List.map_congr_left hsame).trans (List.map_id' rows)
  have hinsert : (t.rows.map (Copied.row copiedColumns)).foldlM SqlTable.insert empty = .ok full := by
    have hkeyed : ∀ k ∈ empty.keys, (empty.rows ++ rows).Pairwise fun r r' => k.clash r r' = false := by
      simpa [empty] using hcopy.keyed
    rw [hmapped, SqlTable.foldlM_insert_ok empty hcopy.checked hkeyed]
    simp [empty, full]
  have hsources : copiedColumns.filterMap (·.source) ⊆ t.names := by
    have hnames : copiedColumns.filterMap (·.source) = copiedNames := by decide +kernel
    rw [hnames]
    exact h.conforms .tasks t ht
  have htargets : copiedColumns.map (·.target) ⊆ empty.names := by decide +kernel
  let c₁ := file.setTable .tasksV4 (some empty)
  let c₂ := c₁.setTable .tasksV4 (some full)
  let c₃ := c₂.drop .tasks
  let c₄ := c₃.rename .tasksV4 .tasks full
  have ht₁ : c₁.tables .tasks = some t := by simpa [c₁] using ht
  have ht₂ : c₂.tables .tasks = some t := by simpa [c₁, c₂] using ht
  have hrebuilding : ∀ c : File, (∀ name, name ≠ .tasks → name ≠ .tasksV4 → c.tables name = file.tables name) →
      (∃ t, c.tables .tasksV4 = some t) → (c.rows .tasks = rows ∨ c.rows .tasksV4 = rows) →
        Rebuilding rows c := fun c hsame hleft hkept =>
    ⟨(h.untouched hrecording hsame).1, (h.untouched hrecording hsame).2, hleft, hkept⟩
  refine ⟨c₁, c₂, c₃, c₄, Catalogue.createTable_ok h.noRebuild,
    Catalogue.insertSelect_ok (by simp [c₁]) ht₁ htargets hsources hinsert, Catalogue.dropTable_ok ht₂,
    Catalogue.renameTable_ok (by simp [c₂, c₃]) (by simp [c₃]), ?_, ?_, ?_, ?_, ?_,
    ⟨full, by simp [c₄], rfl⟩⟩
  · refine hrebuilding c₁ ?_ ⟨empty, by simp [c₁]⟩ (.inl ?_)
    · intro name _ hname
      simp [c₁, hname]
    · simpa [Catalogue.rows, ht₁] using hrows
  · refine hrebuilding c₂ ?_ ⟨full, by simp [c₂]⟩ (.inl ?_)
    · intro name _ hname
      simp [c₁, c₂, hname]
    · simpa [Catalogue.rows, ht₂] using hrows
  · refine hrebuilding c₃ ?_ ⟨full, by simp [c₂, c₃]⟩ (.inr ?_)
    · intro name htasks hname
      simp [c₁, c₂, c₃, htasks, hname]
    · simp [Catalogue.rows, c₂, c₃, full]
  · have hsame : ∀ name, name ≠ .tasks → name ≠ .tasksV4 → c₄.tables name = file.tables name := by
      intro name htasks hname
      simp [c₁, c₂, c₃, c₄, htasks, hname]
    refine ⟨by decide, (h.untouched hrecording hsame).1, ?_, ?_, by simp [c₄, c₃], by simp [Catalogue.rows, c₄, full],
      fun _ => ⟨full, by simp [c₄]⟩, fun hlt => absurd hlt (by decide)⟩
    · intro u hu
      rw [hsame _ (by decide) (by decide)] at hu
      exact h.migrations u hu
    · intro name u hu
      by_cases htasks : name = .tasks
      · subst htasks
        obtain rfl : full = u := by simpa [c₄] using hu
        have hnames : copiedNames ⊆ taskColumnsV4.map (·.name) := by decide +kernel
        exact hnames
      · by_cases hname : name = .tasksV4
        · subst hname
          simp [c₄, c₃] at hu
        · rw [hsame name htasks hname] at hu
          exact h.conforms name u hu
  · obtain ⟨u, hu⟩ := hrecording
    exact ⟨u, by simpa [c₁, c₂, c₃, c₄] using hu⟩

/-- The columns the last four statements index. -/
def shapeV4 : TableName → List String
  | .tasks => taskColumnsV4.map (·.name)
  | name => shape name

/-- The fourth migration. Between its first statement and its fourth the file
holds `tasks_v4`. -/
theorem migrateV4_throughout (hv : v < 4) (h : Installed rows 3 s.view) (hrecording : Recording s.view)
    (hcopy : Copyable rows) (hkept : Kept rows v n s) (hcalls : n + 1 = rebuildStart v)
    (hQ : ∀ file', Installed rows 4 file' → Q (.ok ()) (n + 1 + schemaV4.length + 1) (.connected file')) :
    (migrate now v 4 schemaV4).Throughout sqlEffects () (Kept rows v) Q n s := by
  obtain ⟨c₁, c₂, c₃, c₄, hrebuilt⟩ := rebuild_executes h hrecording hcopy
  have hbegun : ∀ {m c}, rebuildStart v < m → m ≤ rebuildStart v + 3 → Rebuilding rows c →
      Kept rows v m (.connected c) := fun hlt hle hc =>
    ⟨fun _ => hc, fun hnot => absurd ⟨hv, hlt, hle⟩ hnot⟩
  have hdone : ∀ {m c}, rebuildStart v + 3 < m → Installed rows 3 c → Kept rows v m (.connected c) :=
    fun hlt hc => .of_lt hlt hc
  unfold migrate
  rw [if_pos hv]
  refine .bind (.bind (Sql.perform_throughout rfl hkept ?_))
  have hstart : Kept rows v (n + 1) (.connected s.view) := .of_le (by omega) h
  have hcreated : Kept rows v (n + 1 + 1) (.connected c₁) := hbegun (by omega) (by omega) hrebuilt.created
  have hcopied : Kept rows v (n + 1 + 1 + 1) (.connected c₂) := hbegun (by omega) (by omega) hrebuilt.copied
  have hdropped : Kept rows v (n + 1 + 1 + 1 + 1) (.connected c₃) :=
    hbegun (by omega) (by omega) hrebuilt.dropped
  have hscript : schemaV4 = .createTable false .tasksV4 taskColumnsV4 taskKeys ::
      .insertSelect .tasksV4 copiedColumns .tasks :: .dropTable .tasks :: .renameTable .tasksV4 .tasks ::
        reindex := rfl
  rw [hscript] at hQ ⊢
  refine .bind (Sql.execute_throughout hrebuilt.creates hstart ?_)
  refine .bind (Sql.execute_throughout hrebuilt.copies hcreated ?_)
  refine .bind (Sql.execute_throughout hrebuilt.drops hcopied ?_)
  refine .bind (Sql.execute_throughout hrebuilt.renames hdropped ?_)
  -- renamed: the rest is repeatable again
  have hconforms : c₄.Conforms shapeV4 := by
    intro name t ht
    by_cases hname : name = .tasks
    · subst hname
      obtain ⟨u, hu, hcolumns⟩ := hrebuilt.columns
      obtain rfl : u = t := Option.some.inj (hu.symm.trans ht)
      rw [SqlTable.names, hcolumns]
      exact List.Subset.refl _
    · have hshape : shapeV4 name = shape name := by cases name <;> first | rfl | exact absurd rfl hname
      rw [hshape]
      exact hrebuilt.renamed.conforms name t ht
  have hknown : c₄.Known [.tasks] := by
    intro name hname
    obtain rfl := List.mem_singleton.mp hname
    exact hrebuilt.renamed.present (by decide)
  have hready : Statement.Ready shapeV4 [.tasks] reindex := by decide +kernel
  refine Sql.forM_throughout hready hconforms hknown ?_ ?_ ?_
  · intro table htable
    exact absurd htable (by revert table; decide)
  · intro m c' hle _ hext
    exact hdone (by omega) (hrebuilt.renamed.extends plain_reindex hext)
  · intro c' hext _
    have hinstalled := hrebuilt.renamed.extends plain_reindex hext
    obtain ⟨c'', hok, hrecorded, -⟩ :=
      hinstalled.record (by decide : (3 : Int) < 4) (by decide) (hrebuilt.records.extends hext)
        (hinstalled.present (by decide)) (now 4)
    refine Sql.execute_throughout hok (hdone (by omega) hinstalled) ?_
    have hcount : n + 1 + 1 + 1 + 1 + 1 + reindex.length + 1 = n + 1 + (reindex.length + 4) + 1 := by omega
    rw [hcount]
    exact hQ c'' hrecorded

/-! ## A whole attempt -/

theorem Installed.createMigrations (h : Installed rows v file) :
    ∃ file', file.execute createMigrations = .ok file' ∧ Installed rows v file' ∧ Recording file' := by
  cases hfile : file.tables .schemaMigrations with
  | some t =>
    have hok : file.execute ControlDatabase.createMigrations = .ok file := by
      simp [ControlDatabase.createMigrations, Catalogue.execute, hfile]
    exact ⟨file, hok, h, t, hfile⟩
  | none =>
    let empty : SqlTable := ⟨migrationColumns, [key ["version"]], []⟩
    refine ⟨file.setTable .schemaMigrations (some empty), Catalogue.createTable_ok hfile,
      ⟨h.supported, ?_, ?_, ?_, by simpa using h.noRebuild, by simpa [Catalogue.rows] using h.rows,
        by simpa using h.present, by simpa [Catalogue.rows] using h.unobserved⟩, empty, by simp⟩
    · have hversion := h.version
      rw [ControlDatabase.version, Catalogue.rows, hfile] at hversion
      simpa [ControlDatabase.version, Catalogue.rows, empty] using hversion
    · intro t ht
      obtain rfl : empty = t := by simpa using ht
      exact ⟨rfl, rfl⟩
    · intro name t ht
      by_cases hname : name = .schemaMigrations
      · subst hname
        simp [shape]
      · exact h.conforms name t (by simpa [hname] using ht)

/-- `BEGIN`, the table of the versions, and the version it gives. -/
theorem opening_throughout {J : ℕ → Session File → Prop} {f : Int → Prog (SqlCall TableName IndexName) SqlError Unit}
    {file' : File} (hok : file.execute createMigrations = .ok file') (hrecording : Recording file')
    (hJ : ∀ m p, m ≤ 2 → J m ⟨file, p⟩)
    (hrest : (f (version file')).Throughout sqlEffects () J Q 3 ⟨file, some file'⟩) :
    (do
      Sql.perform .begin
      Sql.perform (.execute createMigrations)
      let rows ← Sql.perform (.select .schemaMigrations)
      f (maxVersion rows)).Throughout sqlEffects () J Q 0 (.connected file) := by
  obtain ⟨t, ht⟩ := hrecording
  have hbegin : (SqlCall.begin : SqlCall TableName IndexName _).exec (.connected file) =
      (.ok (), ⟨file, some file⟩) := rfl
  have hcreate : (SqlCall.execute createMigrations).exec ⟨file, some file⟩ =
      (.ok (), ⟨file, some file'⟩) := by
    simp [SqlCall.exec, Session.view, hok]
  have hselect : (SqlCall.select TableName.schemaMigrations : SqlCall TableName IndexName _).exec
      ⟨file, some file'⟩ = (.ok t.rows, ⟨file, some file'⟩) := by
    simp [SqlCall.exec, Session.view, Catalogue.table, ht, Except.map]
  have hversion : maxVersion t.rows = version file' := by simp [version, Catalogue.rows, ht]
  refine .bind (Sql.perform_throughout hbegin (hJ 0 none (by omega)) ?_)
  refine .bind (Sql.perform_throughout hcreate (hJ 1 _ (by omega)) ?_)
  refine .bind (Sql.perform_throughout hselect (hJ 2 _ (by omega)) ?_)
  rw [← hversion] at hrest
  exact hrest

/-- **An attempt on an installation**: left alone it reaches version 4 with the
rows it found, and wherever it is cut short it leaves an installation, but for
the window of the rebuild. -/
theorem initializeDatabase_throughout (now : Int → String) (h : Installed rows v file) (hcopy : Copyable rows) :
    (initializeDatabase now).Throughout sqlEffects () (Kept rows v)
      (fun r m t => r = .ok () ∧ Installed rows 4 t.durable ∧ ∀ k, m ≤ k → ¬ RebuildBegun v k) 0
      (.connected file) := by
  obtain ⟨file', hok, hinstalled, hrecording⟩ := h.createMigrations
  have hbefore : ∀ m p, m ≤ 3 → Kept rows v m ⟨file, p⟩ := fun m p hle =>
    .of_le (by unfold rebuildStart; omega) h
  refine opening_throughout hok hrecording (fun m p hle => hbefore m p (by omega)) ?_
  obtain ⟨hpos, hle⟩ := h.supported
  unfold databaseSchemaVersion at hle
  have hnotNewer : ¬ v > databaseSchemaVersion := by unfold databaseSchemaVersion; omega
  rw [hinstalled.version, migrateFrom, if_neg hnotNewer]
  -- the calls made by the end of the first three migrations
  have htotal : 3 + migrationCalls v 1 schemaV1 + migrationCalls v 2 schemaV2 +
      migrationCalls v 3 schemaV3 + 1 = rebuildStart v := by
    unfold migrationCalls rebuildStart
    omega
  have hmax : max v (1 - 1) = v := by omega
  have hfirst : Installed rows (max v (1 - 1)) (Session.view ⟨file, some file'⟩) := by
    rw [hmax]
    exact hinstalled
  refine .bind (migrate_throughout ready_schemaV1 plain_schemaV1 (by decide) (.inr (by decide +kernel))
    hfirst hrecording (hbefore 3 _ (by omega)) (by omega) fun s₁ h₁ hrecording₁ hkept₁ => ?_)
  refine .bind (migrate_throughout ready_schemaV2 plain_schemaV2 (by decide) (.inl (by decide)) h₁
    hrecording₁ hkept₁ (by omega) fun s₂ h₂ hrecording₂ hkept₂ => ?_)
  refine .bind (migrate_throughout ready_schemaV3 plain_schemaV3 (by decide) (.inl (by decide)) h₂
    hrecording₂ hkept₂ (by omega) fun s₃ h₃ hrecording₃ hkept₃ => ?_)
  by_cases hv : v < 4
  · have hmax₃ : max v 3 = 3 := by omega
    rw [hmax₃] at h₃
    refine .bind (migrateV4_throughout hv h₃ hrecording₃ hcopy hkept₃ htotal fun file₄ h₄ => ?_)
    have hlength : schemaV4.length = 8 := rfl
    refine Sql.perform_throughout rfl (.of_lt (by omega) h₄) ⟨rfl, h₄, fun k hk hbegun => ?_⟩
    have := hbegun.2.2
    omega
  · have hmax₃ : max v 3 = 4 := by omega
    rw [hmax₃] at h₃
    have hskip : migrate now v 4 schemaV4 = pure () := if_neg hv
    rw [hskip]
    exact Sql.perform_throughout rfl hkept₃ ⟨rfl, h₃, fun k _ hbegun => hv hbegun.1⟩

/-- An attempt on a file that holds `tasks_v4` raises there, and changes
nothing on its way. -/
theorem stuck_throughout (now : Int → String) (h : Rebuilding rows file) :
    (initializeDatabase now).Throughout sqlEffects () (fun _ t => Rebuilding rows t.durable)
      (fun r _ t => r = .error .tableExists ∧ Rebuilding rows t.durable) 0 (.connected file) := by
  obtain ⟨t, ht⟩ := h.recording
  obtain ⟨t', ht'⟩ := h.left
  have hok : file.execute createMigrations = .ok file := by
    simp [createMigrations, Catalogue.execute, ht]
  refine opening_throughout hok h.recording (fun _ _ _ => h) ?_
  rw [h.version]
  have hrest : migrateFrom now 3 = (do
      migrate now 3 4 schemaV4
      Sql.perform .commit) := rfl
  have hdue : migrate now 3 4 schemaV4 = (do
      Sql.executescript schemaV4
      Sql.perform (.execute (recordVersion 4 (now 4)))) := rfl
  rw [hrest, hdue]
  refine .bind (.bind (.bind (Sql.perform_throughout rfl h ?_)))
  exact .bind (Sql.execute_raises (Catalogue.createTable_error ht') h ⟨rfl, h⟩)

end Initialize

/-! ## Attempts, one after another -/

/-- A file as the releases before version 4 leave it: the rows of `tasks` meet
the first schema's constraints, and no attempt to migrate it has begun. -/
structure Prior (file : File) : Prop where
  supported  : 0 ≤ version file ∧ version file ≤ 3
  migrations : ∀ t, file.tables .schemaMigrations = some t →
    t.columns = migrationColumns ∧ t.keys = [key ["version"]]
  tasks      : ∀ t, file.tables .tasks = some t → t.columns = taskColumnsV1 ∧ t.keys = taskKeys ∧ t.Valid
  present    : 1 ≤ version file → ∃ t, file.tables .tasks = some t
  conforms   : file.Conforms shape
  noRebuild  : file.tables .tasksV4 = none
  unobserved : version file < 3 → file.rows .canaryObservations = []

theorem Prior.installed {file : File} (h : Prior file) :
    Installed (file.rows .tasks) (version file) file where
  supported := by
    obtain ⟨hpos, hle⟩ := h.supported
    exact ⟨hpos, by unfold databaseSchemaVersion; omega⟩
  version := rfl
  migrations := h.migrations
  conforms := h.conforms
  noRebuild := h.noRebuild
  rows := rfl
  present := h.present
  unobserved := h.unobserved

/-- The new table takes whatever the old one did: it has the same columns with
the same or wider constraints, and two columns more that may be NULL. -/
theorem Prior.copyable {file : File} (h : Prior file) : Copyable (file.rows .tasks) := by
  cases hfile : file.tables .tasks with
  | none =>
    have hrows : file.rows .tasks = [] := by simp [Catalogue.rows, hfile]
    rw [hrows]
    exact ⟨by simp, by simp, by simp⟩
  | some t =>
    obtain ⟨hcolumns, hkeys, hvalid⟩ := h.tasks t hfile
    have hrows : file.rows .tasks = t.rows := by simp [Catalogue.rows, hfile]
    have hnames : t.names = copiedNames := by
      rw [SqlTable.names, hcolumns]
      decide +kernel
    have hwider : ∀ c ∈ taskColumnsV4, c.admits .null = true ∧ c.name ∉ copiedNames ∨
        ∃ c₁ ∈ taskColumnsV1, c₁.name = c.name ∧ c₁.widens c = true := by decide +kernel
    rw [hrows]
    refine ⟨fun r hr c hc => ?_, fun k hk => hvalid.keyed k (hkeys ▸ hk), fun r hr name hname => ?_⟩
    · rcases hwider c hc with ⟨hnull, hname⟩ | ⟨c₁, hc₁, hname, hwidens⟩
      · rw [hvalid.supported r hr c.name (hnames ▸ hname)]
        exact hnull
      · have hadmits := hvalid.checked r hr c₁ (hcolumns ▸ hc₁)
        rw [hname] at hadmits
        exact SqlColumn.admits_of_widens hwidens hadmits
    · exact hvalid.supported r hr name (hnames ▸ hname)

section Attempts

variable {rows : List SqlRow} {v : Int} {file file' : File}

theorem Attempt.leave_installed (a : Attempt) (h : Installed rows v file) (hcopy : Copyable rows) :
    (RebuildBegun v a.calls → Rebuilding rows (a.leave file)) ∧
      (¬ RebuildBegun v a.calls → ∃ v', Installed rows v' (a.leave file)) := by
  have hkept := (initializeDatabase_throughout a.now h hcopy).after (fun r m t hdone k hk =>
    ⟨fun hbegun => absurd hbegun (hdone.2.2 k hk), fun _ => ⟨4, hdone.2.1⟩⟩) a.calls
  rwa [Nat.zero_add] at hkept

theorem Attempt.leave_rebuilding (a : Attempt) (h : Rebuilding rows file) : Rebuilding rows (a.leave file) :=
  (stuck_throughout a.now h).after (fun _ _ _ hdone _ _ => hdone.2) a.calls

theorem initialized_installed (now : Int → String) (h : Installed rows v file) (hcopy : Copyable rows) :
    ∃ file', initialized now file = .ok file' ∧ Installed rows 4 file' := by
  obtain ⟨_, hok, hinstalled, -⟩ := (initializeDatabase_throughout now h hcopy).eval
  exact ⟨_, by rw [initialized, hok]; rfl, hinstalled⟩

theorem initialized_rebuilding (now : Int → String) (h : Rebuilding rows file) :
    initialized now file = .error .tableExists := by
  obtain ⟨_, herror, -⟩ := (stuck_throughout now h).eval
  rw [initialized, herror]
  rfl

/-- **No task row is ever lost**: after any attempts, cut short anywhere, one
of the two tables holds exactly the rows there were. -/
theorem no_row_lost {as : List Attempt} (h : Prior file)
    (hrun : Run (fun f a f' => f' = a.leave f) file as file') :
    file'.rows .tasks = file.rows .tasks ∨ file'.rows .tasksV4 = file.rows .tasks := by
  have hreached : (∃ v', Installed (file.rows .tasks) v' file') ∨ Rebuilding (file.rows .tasks) file' := by
    refine hrun.invariant (fun f => (∃ v', Installed (file.rows .tasks) v' f) ∨
      Rebuilding (file.rows .tasks) f) (.inl ⟨_, h.installed⟩) ?_
    rintro f a _ rfl (⟨v', hinstalled⟩ | hrebuilding)
    · by_cases hbegun : RebuildBegun v' a.calls
      · exact .inr ((a.leave_installed hinstalled h.copyable).1 hbegun)
      · exact .inl ((a.leave_installed hinstalled h.copyable).2 hbegun)
    · exact .inr (a.leave_rebuilding hrebuilding)
  rcases hreached with ⟨_, hinstalled⟩ | hrebuilding
  · exact .inl hinstalled.rows
  · exact hrebuilding.rows

/-- A queued task of a runner. -/
def queuedTask : SqlRow := fun name =>
  match name with
  | "task_id" => .text "t1"
  | "runner_id" => .text "r1"
  | "task_class" => .text "manual"
  | "priority" => .integer 0
  | "state" => .text "queued"
  | "submitted_at" | "created_at" | "updated_at" => .text "2026-01-01T00:00:00Z"
  | "submitted_by" => .text "ann"
  | "envelope_json" => .text "\x7b\x7d"
  | _ => .null

/-- The file of an attempt that died right after the table of tasks was there. -/
def queuedFile : File where
  tables
    | .tasks => some ⟨taskColumnsV1, taskKeys, [queuedTask]⟩
    | _ => none
  indexes := fun _ => none

theorem prior_queuedFile : Prior queuedFile where
  supported := by decide
  migrations := by
    intro _ h
    cases h
  tasks := by
    rintro _ ⟨⟩
    refine ⟨rfl, rfl, ⟨?_, fun _ _ => List.pairwise_singleton _ _, ?_⟩⟩
    · rintro r hr c hc
      rw [List.mem_singleton] at hr
      subst hr
      revert c
      decide
    · rintro r hr name hname
      rw [List.mem_singleton] at hr
      subst hr
      unfold queuedTask
      split <;> first | rfl | exact absurd (by decide) hname
  present := fun h => absurd h (by decide)
  conforms := by
    intro name t h
    cases name with
    | tasks =>
      cases h
      decide
    | _ => cases h
  noRebuild := rfl
  unobserved := fun _ => rfl

/-- A migration cut off after the copy, and the one that then stops at the copy. -/
theorem no_row_lost_queued :
    let died : Attempt := ⟨fun _ => "2026-01-01T00:00:00Z", rebuildStart 0 + 2⟩
    ((died.leave (died.leave queuedFile)).rows .tasks = [queuedTask] ∨
      (died.leave (died.leave queuedFile)).rows .tasksV4 = [queuedTask]) :=
  no_row_lost prior_queuedFile ((Run.single rfl).snoc rfl)

/-- The rows are all in the file, and initializing it succeeds, reaches version
4 and leaves exactly these rows in `tasks`. -/
def Recovers (rows : List SqlRow) (now : Int → String) (file : File) : Prop :=
  (file.rows .tasks = rows ∨ file.rows .tasksV4 = rows) ∧
    ∃ file', initialized now file = .ok file' ∧ version file' = databaseSchemaVersion ∧
      file'.rows .tasks = rows

/-- **Initializing again recovers exactly when the attempt was not cut short in
the rebuild**: from a file of any earlier version, through any attempts cut
short elsewhere. -/
theorem recovers_iff_not_rebuilding {as : List Attempt} (h : Prior file)
    (hrun : Run (fun f a f' => ¬ RebuildBegun (version f) a.calls ∧ f' = a.leave f) file as file')
    (a : Attempt) (now : Int → String) :
    Recovers (file.rows .tasks) now (a.leave file') ↔ ¬ RebuildBegun (version file') a.calls := by
  have hcopy := h.copyable
  have hreached : Installed (file.rows .tasks) (version file') file' := by
    refine hrun.invariant (fun f => Installed (file.rows .tasks) (version f) f) h.installed ?_
    rintro f b _ ⟨houtside, rfl⟩ hinstalled
    obtain ⟨v', hinstalled'⟩ := (b.leave_installed hinstalled hcopy).2 houtside
    rwa [hinstalled'.version]
  obtain ⟨hinside, houtside⟩ := a.leave_installed hreached hcopy
  constructor
  · rintro ⟨-, file₄, hok, -⟩ hbegun
    rw [initialized_rebuilding now (hinside hbegun)] at hok
    cases hok
  · intro hbegun
    obtain ⟨v', hinstalled⟩ := houtside hbegun
    obtain ⟨file₄, hok, hinstalled₄⟩ := initialized_installed now hinstalled hcopy
    exact ⟨.inl hinstalled.rows, file₄, hok, hinstalled₄.version, hinstalled₄.rows⟩

end Attempts

/-- A new installation's file. -/
def emptyFile : File := ⟨fun _ => none, fun _ => none⟩

theorem prior_emptyFile : Prior emptyFile :=
  ⟨by decide, by simp [emptyFile], by simp [emptyFile], fun hle => absurd hle (by decide), by simp [Catalogue.Conforms, emptyFile],
    rfl, fun _ => rfl⟩

/-- Cut short after version 1 was recorded and again after the renaming, a new
installation still reaches version 4. -/
theorem recovers_iff_not_rebuilding_renamed :
    Recovers [] (fun _ => "2026-01-01T00:00:00Z")
      (Attempt.leave ⟨fun _ => "2026-01-01T00:00:00Z", 18⟩
        (Attempt.leave ⟨fun _ => "2026-01-01T00:00:00Z", 12⟩ emptyFile)) :=
  (recovers_iff_not_rebuilding prior_emptyFile (.single ⟨by decide +kernel, rfl⟩) _ _).mpr (by decide +kernel)

/-- Cut short right after `CREATE TABLE tasks_v4`, a new installation is never
initialized again. -/
theorem rebuild_not_resumed :
    ¬ ∀ (file : File) (a : Attempt) (now : Int → String), Prior file →
      Recovers (file.rows .tasks) now (a.leave file) := by
  intro h
  let a : Attempt := ⟨fun _ => "2026-01-01T00:00:00Z", rebuildStart 0 + 1⟩
  obtain ⟨-, file', hok, -⟩ := h emptyFile a a.now prior_emptyFile
  have hraises : (initialized a.now (a.leave emptyFile)).toBool = false := by decide +kernel
  rw [hok] at hraises
  cases hraises

end ControlDatabase

end Conductress
