import Mathlib.Data.Finset.Union
import Mathlib.Data.String.Basic
import Mathlib.Order.Bounds.Basic
import Mathlib.Order.Lattice
import Conductress.Results.MemorySamples

/-!
# The memory record of several repetitions

`window_engine_peak`, `collect_memory_record` and `fold_memory_records`. A server's record
says of the peak in the scored window where it comes from. Folding takes the highest peaks
field by field, and all that is not a peak from the last repetition that has the server:
also the source, which is then that of another number.

## Results

* `windowEnginePeak_explains` — what the source says of the peak;
* `collected_labelled` — a record that is collected has both or neither;
* `fold_peak?`, `fold_source?` — what folding makes of them;
* `folds_iff` — when the folded source is that of the folded peak;
* `fold_unlabelled` — a peak may lose its source.
-/

namespace Conductress.MemoryCapture

open Lib

/-! ## The record of a server -/

/-- `PEAK_FIELDS`. -/
inductive PeakField where
  | usedMemoryPeak
  | usedMemoryWindowPeak
  | rssHwm
  | vmRss
  | usedMemoryRss
  | cgroupPeak
  deriving DecidableEq

def peakFields : List PeakField :=
  [.usedMemoryPeak, .usedMemoryWindowPeak, .rssHwm, .vmRss, .usedMemoryRss, .cgroupPeak]

theorem mem_peakFields (field : PeakField) : field ∈ peakFields := by cases field <;> decide

/-- `used_memory_window_peak_source`. -/
inductive PeakSource where
  | engine
  | sampler
  deriving DecidableEq

/-- What `reset_memory_peaks` says of a server. -/
structure Reset where
  t                     : ℚ
  clearRefs             : Bool
  cgroupPeak            : Bool
  usedMemoryAtReset     : Option ℤ
  usedMemoryPeakAtReset : Option ℤ
  vmRssAtReset          : Option ℤ
  vmHwmAtReset          : Option ℤ

/-- The record of a server. A peak and its source may be missing, or `None`; the scalars are
the other fields of the dictionary. -/
structure ServerRecord where
  peaks            : PeakField → Option (Option ℤ)
  windowPeakSource : Option (Option PeakSource)
  scalars          : List (String × Json)

namespace ServerRecord

/-- `{}`. -/
def empty : ServerRecord := ⟨fun _ => none, none, []⟩

/-- `.get(field)`. -/
def get (server : ServerRecord) (field : PeakField) : Option ℤ := (server.peaks field).join

/-- `.get("used_memory_window_peak_source")`. -/
def source (server : ServerRecord) : Option PeakSource := server.windowPeakSource.join

/-- `server[field] = value`. -/
def setPeak (server : ServerRecord) (field : PeakField) (value : Option ℤ) : ServerRecord :=
  { server with peaks := Function.update server.peaks field (some value) }

theorem get_setPeak (server : ServerRecord) (field other : PeakField) (value : Option ℤ) :
    (server.setPeak field value).get other = if other = field then value else server.get other := by
  unfold get setPeak
  dsimp only
  rw [Function.update_apply]
  split <;> rfl

/-- The highest of the values, if there are any. -/
def setMax (server : ServerRecord) (field : PeakField) (values : List ℤ) : ServerRecord :=
  match values.max? with
  | some value => server.setPeak field (some value)
  | none => server

theorem get_setMax (server : ServerRecord) (field other : PeakField) (values : List ℤ) :
    (server.setMax field values).get other =
      if other = field then values.max?.or (server.get other) else server.get other := by
  unfold setMax
  split
  · next value hmax =>
    rw [get_setPeak, hmax]
    rfl
  · next hmax =>
    rw [hmax, Option.none_or, ite_self]

@[simp] theorem source_setMax (server : ServerRecord) (field : PeakField) (values : List ℤ) :
    (server.setMax field values).source = server.source := by
  unfold setMax
  split <;> rfl

/-- The two fields that `collect_memory_record` adds. -/
def withWindowPeak (server : ServerRecord) (window : Option ℤ × Option PeakSource) :
    ServerRecord :=
  { server.setPeak .usedMemoryWindowPeak window.1 with windowPeakSource := some window.2 }

@[simp] theorem get_withWindowPeak (server : ServerRecord)
    (window : Option ℤ × Option PeakSource) :
    (server.withWindowPeak window).get .usedMemoryWindowPeak = window.1 := by
  show (server.setPeak .usedMemoryWindowPeak window.1).get .usedMemoryWindowPeak = _
  rw [get_setPeak, if_pos rfl]

@[simp] theorem source_withWindowPeak (server : ServerRecord)
    (window : Option ℤ × Option PeakSource) : (server.withWindowPeak window).source = window.2 :=
  rfl

/-- A peak in the window has a source, and a source is of a peak. -/
def Labelled (server : ServerRecord) : Prop :=
  (server.get .usedMemoryWindowPeak).isSome ↔ server.source.isSome

end ServerRecord

/-! ## Collecting -/

/-- What `/proc` and the cgroup say of a process. -/
structure ProcReading where
  vmHwm            : Option ℤ
  vmRss            : Option ℤ
  cgroupPeak       : Option ℤ
  cgroupPeakShared : Option Bool

def jsonInt (value : Option ℤ) : Json := value.elim .null .int

def Reset.toJson (reset : Reset) : Json :=
  .obj [("t", .float (.finite reset.t)), ("clear_refs", .bool reset.clearRefs),
    ("cgroup_peak", .bool reset.cgroupPeak),
    ("used_memory_at_reset", jsonInt reset.usedMemoryAtReset),
    ("used_memory_peak_at_reset", jsonInt reset.usedMemoryPeakAtReset),
    ("vm_rss_at_reset", jsonInt reset.vmRssAtReset),
    ("vm_hwm_at_reset", jsonInt reset.vmHwmAtReset)]

/-- `build_server_memory_record`; `proc` is what is read of a process. -/
def buildServerMemoryRecord (proc : ℤ → ProcReading) (pid : Option ℤ) (infoFields : InfoFields)
    (reset : Option Reset) : ServerRecord :=
  let int (name : String) : Option ℤ := toInt (infoFields.get name)
  let read : ProcReading := ((pid.filter (0 < ·)).map proc).getD ⟨none, none, none, none⟩
  { peaks := fun
      | .usedMemoryPeak => some (int "used_memory_peak")
      | .usedMemoryWindowPeak => none
      | .rssHwm => some read.vmHwm
      | .vmRss => some read.vmRss
      | .usedMemoryRss => some (int "used_memory_rss")
      | .cgroupPeak => some read.cgroupPeak
    windowPeakSource := none
    scalars := [("pid", jsonInt pid), ("used_memory", jsonInt (int "used_memory")),
      ("cgroup_peak_shared", read.cgroupPeakShared.elim .null .bool),
      ("mem_clients_normal", jsonInt (int "mem_clients_normal")),
      ("mem_replication_backlog", jsonInt (int "mem_replication_backlog")),
      ("allocator_resident", jsonInt (int "allocator_resident")),
      ("allocator_active", jsonInt (int "allocator_active")),
      ("allocator_frag_ratio",
        ((infoFields.get "allocator_frag_ratio").bind PyText.parseFloat).elim .null .float),
      ("reset", reset.elim .null Reset.toJson)] }

/-- The engine's peak is above what it was at the reset. -/
def AboveFloor (peak : ℤ) (reset : Reset) : Prop := ∀ floor ∈ reset.usedMemoryPeakAtReset, floor < peak

instance (peak : ℤ) (reset : Reset) : Decidable (AboveFloor peak reset) :=
  inferInstanceAs (Decidable (∀ floor ∈ reset.usedMemoryPeakAtReset, floor < peak))

/-- The samples of the scored window. -/
def windowValues (reset : Reset) (samples : List SampleRow) : List ℤ :=
  (samples.filter fun row => reset.t ≤ row.t).filterMap SampleRow.usedMemory

/-- `window_engine_peak`. -/
def windowEnginePeak (usedMemoryPeak : Option ℤ) (reset : Option Reset) (samples : List SampleRow) :
    Option ℤ × Option PeakSource :=
  match reset with
  | none => (usedMemoryPeak, usedMemoryPeak.map fun _ => .engine)
  | some reset =>
    match usedMemoryPeak.filter fun peak => AboveFloor peak reset with
    | some peak => (some peak, some .engine)
    | none =>
      match (windowValues reset samples).max? with
      | some peak => (some peak, some .sampler)
      | none => (none, none)

/-- What a source says of a peak. -/
def PeakSource.Explains (peak : ℤ) (usedMemoryPeak : Option ℤ) (reset : Option Reset)
    (samples : List SampleRow) : PeakSource → Prop
  | .engine => usedMemoryPeak = some peak ∧ ∀ r ∈ reset, AboveFloor peak r
  | .sampler => ∃ r, reset = some r ∧ IsGreatest {value | value ∈ windowValues r samples} peak ∧
      ∀ engine ∈ usedMemoryPeak, ¬ AboveFloor engine r

variable {usedMemoryPeak : Option ℤ} {reset : Option Reset} {rows : List SampleRow}

/-- A peak in the window is answered with its source, or neither is. -/
theorem windowEnginePeak_explains (usedMemoryPeak : Option ℤ) (reset : Option Reset)
    (rows : List SampleRow) :
    windowEnginePeak usedMemoryPeak reset rows = (none, none) ∨
      ∃ peak source, windowEnginePeak usedMemoryPeak reset rows = (some peak, some source) ∧
        source.Explains peak usedMemoryPeak reset rows := by
  unfold windowEnginePeak
  cases reset with
  | none =>
    -- the whole run is the window
    cases usedMemoryPeak with
    | none => exact .inl rfl
    | some peak => exact .inr ⟨peak, .engine, rfl, rfl, fun _ hr => by cases hr⟩
  | some reset =>
    dsimp only
    split
    · next peak hpeak =>
      obtain ⟨hsome, habove⟩ := Option.filter_eq_some_iff.mp hpeak
      refine .inr ⟨peak, .engine, rfl, hsome, fun r hr => ?_⟩
      obtain rfl := Option.some.inj hr
      exact of_decide_eq_true habove
    · next hstands =>
      -- the engine's peak is from before the window
      have hbelow : ∀ engine ∈ usedMemoryPeak, ¬ AboveFloor engine reset := by
        intro engine hengine
        have hfilter := Option.filter_eq_none_iff.mp hstands engine hengine
        exact fun habove => hfilter (decide_eq_true habove)
      split
      · next peak hmax =>
        obtain ⟨hmem, hle⟩ := List.max?_eq_some_iff.mp hmax
        exact .inr ⟨peak, .sampler, rfl, reset, rfl, ⟨hmem, fun value hvalue => hle value hvalue⟩,
          hbelow⟩
      · exact .inl rfl

/-! ### The record of a repetition -/

abbrev Servers := Table (Prod.fst : String × ServerRecord → String)

/-- `data.memory`. A field that is missing is read as its default. -/
structure MemoryRecord where
  schema       : ℕ
  servers      : Option Servers
  samples      : Option (List SampleRow)
  sampleErrors : Option ℕ

/-- `MEMORY_SCHEMA_VERSION`. -/
def memorySchemaVersion : ℕ := 2

/-- The record of a role, with the peak in the window. -/
def collectServer (proc : ℤ → ProcReading) (pid : Option ℤ) (infoFields : InfoFields)
    (reset : Option Reset) (rows : List SampleRow) : ServerRecord :=
  let record := buildServerMemoryRecord proc (pid.filter (0 ≤ ·)) infoFields reset
  record.withWindowPeak (windowEnginePeak (record.get .usedMemoryPeak) reset rows)

/-- `collect_memory_record`; a server is its `valkey_pid`. -/
def collectMemoryRecord (proc : ℤ → ProcReading)
    (servers : Table (Prod.fst : String × Option ℤ → String)) (sampler : Option MemorySampler)
    (infoByRole : Table (Prod.fst : String × InfoFields → String))
    (resets : Option (Table (Prod.fst : String × Option Reset → String))) :
    Except SampleError MemoryRecord := do
  let rows := sampler.elim [] MemorySampler.rows
  let serverRecords : Servers := servers.rows.foldl (fun records server =>
    records.put (server.1, collectServer proc server.2
      (((infoByRole.find? server.1).map Prod.snd).getD .empty)
      (((resets.getD .empty).find? server.1).bind Prod.snd) rows)) .empty
  let samples ← sampler.elim (.ok []) MemorySampler.samples
  return ⟨memorySchemaVersion, some serverRecords, some samples,
    some (sampler.elim 0 MemorySampler.sampleErrors)⟩

/-- The record of a role in a repetition. -/
def MemoryRecord.server? (rec : MemoryRecord) (role : String) : Option ServerRecord :=
  ((rec.servers.getD .empty).find? role).map Prod.snd

def MemoryRecord.peak? (rec : MemoryRecord) (role : String) (field : PeakField) : Option ℤ :=
  (rec.server? role).bind fun server => server.get field

def MemoryRecord.source? (rec : MemoryRecord) (role : String) : Option PeakSource :=
  (rec.server? role).bind ServerRecord.source

theorem labelled_collectServer (proc : ℤ → ProcReading) (pid : Option ℤ) (infoFields : InfoFields)
    (reset : Option Reset) (rows : List SampleRow) :
    (collectServer proc pid infoFields reset rows).Labelled := by
  unfold collectServer ServerRecord.Labelled
  dsimp only
  rw [ServerRecord.get_withWindowPeak, ServerRecord.source_withWindowPeak]
  rcases windowEnginePeak_explains ((buildServerMemoryRecord proc (pid.filter (0 ≤ ·)) infoFields
    reset).get .usedMemoryPeak) reset rows with hnone | ⟨peak, source, hsome, -⟩
  · rw [hnone]
    exact Iff.rfl
  · rw [hsome]
    exact Iff.rfl

/-- **What is collected** has of each role a peak with its source, or neither. -/
theorem collected_labelled {proc : ℤ → ProcReading}
    {servers : Table (Prod.fst : String × Option ℤ → String)} {sampler : Option MemorySampler}
    {infoByRole : Table (Prod.fst : String × InfoFields → String)}
    {resets : Option (Table (Prod.fst : String × Option Reset → String))} {rec : MemoryRecord}
    (h : collectMemoryRecord proc servers sampler infoByRole resets = .ok rec)
    {role : String} {server : ServerRecord} (hserver : rec.server? role = some server) :
    server.Labelled := by
  obtain ⟨samples, -, hrec⟩ := except_bind_ok.mp h
  obtain rfl := Except.ok.inj hrec
  obtain ⟨row, hrow, rfl⟩ := Option.map_eq_some_iff.mp hserver
  have hmem := (Table.find?_eq_some_iff.mp hrow).1
  clear h hrec hserver hrow
  -- the induction is on the servers that are left, the records so far labelled
  refine List.foldlRecOn (motive := fun records : Servers => ∀ row ∈ records, row.2.Labelled)
    servers.rows _ (fun row hrow => absurd hrow (Table.not_mem_empty row)) ?_ row hmem
  intro records hrecords entry _ row hrow
  rcases Table.mem_put.mp hrow with rfl | ⟨hold, -⟩
  · exact labelled_collectServer _ _ _ _ _
  · exact hrecords row hold

/-! ## Folding -/

/-- An order in which the elements of a set are gone through. -/
structure SetOrder where
  list  : Finset String → List String
  nodup : ∀ s, (list s).Nodup
  mem   : ∀ s a, a ∈ list s ↔ a ∈ s

section Fold

variable (records : List MemoryRecord) (role : String)

/-- The record of the last repetition that has the role. -/
def baseRecord : ServerRecord :=
  records.foldl (fun base rec => (rec.server? role).getD base) .empty

/-- The values of a field, of the repetitions that recorded it. -/
def peakValues (field : PeakField) : List ℤ := records.filterMap fun rec => rec.peak? role field

def foldServer : ServerRecord :=
  peakFields.foldl (fun base field => base.setMax field (peakValues records role field))
    (baseRecord records role)

def allRoles : Finset String :=
  records.foldl (fun roles rec => roles ∪ ((rec.servers.getD .empty).rows.map Prod.fst).toFinset) ∅

/-- `fold_memory_records`. -/
def foldMemoryRecords (order : SetOrder) : MemoryRecord :=
  match records.getLast? with
  | none => ⟨memorySchemaVersion, some .empty, some [], some 0⟩
  | some last =>
    { schema       := memorySchemaVersion
      servers      := some ((order.list (allRoles records)).foldl
        (fun servers role => servers.put (role, foldServer records role)) .empty)
      samples      := some (last.samples.getD [])
      sampleErrors := (records.map fun rec => rec.sampleErrors.getD 0).max? }

end Fold

/-! ### Field by field -/

variable {order : SetOrder} {records : List MemoryRecord} {role : String}

/-- The fields are set apart from each other. -/
theorem get_foldl_setMax (values : PeakField → List ℤ) (fields : List PeakField)
    (base : ServerRecord) (field : PeakField) :
    (fields.foldl (fun base field => base.setMax field (values field)) base).get field =
      if field ∈ fields then (values field).max?.or (base.get field) else base.get field := by
  induction fields generalizing base with
  | nil => rw [List.foldl_nil, if_neg List.not_mem_nil]
  | cons first fields ih =>
    rw [List.foldl_cons, ih, ServerRecord.get_setMax]
    by_cases hfirst : field = first
    · -- a field that comes again is set to the same value
      subst hfirst
      rw [if_pos rfl, if_pos List.mem_cons_self]
      cases (values field).max? <;> simp
    · rw [if_neg hfirst]
      simp only [List.mem_cons, hfirst, false_or]

theorem source_foldl_setMax (values : PeakField → List ℤ) (fields : List PeakField)
    (base : ServerRecord) :
    (fields.foldl (fun base field => base.setMax field (values field)) base).source =
      base.source := by
  induction fields generalizing base with
  | nil => rfl
  | cons first fields ih => rw [List.foldl_cons, ih, ServerRecord.source_setMax]

/-- The last repetition that has the role. -/
def lastServer (records : List MemoryRecord) (role : String) : Option ServerRecord :=
  (records.filterMap fun rec => rec.server? role).getLast?

theorem baseRecord_eq : baseRecord records role = (lastServer records role).getD .empty := by
  unfold baseRecord lastServer
  generalize ServerRecord.empty = base
  induction records generalizing base with
  | nil => rfl
  | cons rec records ih =>
    rw [List.foldl_cons, ih, List.filterMap_cons]
    cases rec.server? role with
    | none => rfl
    | some server =>
      dsimp only [Option.getD_some]
      rw [List.getLast?_cons]
      cases (records.filterMap fun rec => rec.server? role).getLast? <;> rfl

theorem server?_isSome {rec : MemoryRecord} :
    (rec.server? role).isSome ↔ role ∈ (rec.servers.getD .empty).rows.map Prod.fst := by
  unfold MemoryRecord.server?
  rw [Option.isSome_map, Option.isSome_iff_exists, List.mem_map]
  exact exists_congr fun row => Table.find?_eq_some_iff

theorem mem_allRoles : role ∈ allRoles records ↔ ∃ rec ∈ records, (rec.server? role).isSome := by
  suffices h : ∀ roles : Finset String,
      role ∈ records.foldl (fun roles rec =>
        roles ∪ ((rec.servers.getD .empty).rows.map Prod.fst).toFinset) roles ↔
      role ∈ roles ∨ ∃ rec ∈ records, (rec.server? role).isSome by
    refine (h ∅).trans (or_iff_right (Finset.notMem_empty role))
  induction records with
  | nil => intro roles; simp
  | cons rec records ih =>
    intro roles
    rw [List.foldl_cons, ih, Finset.mem_union, List.mem_toFinset, ← server?_isSome, or_assoc,
      List.exists_mem_cons_iff]

theorem lastServer_isSome :
    (lastServer records role).isSome ↔ ∃ rec ∈ records, (rec.server? role).isSome := by
  unfold lastServer
  rw [List.getLast?_isSome, ne_eq, List.filterMap_eq_nil_iff]
  constructor
  · intro hsome
    by_contra hnone
    refine hsome fun rec hrec => Option.not_isSome_iff_eq_none.mp fun h => hnone ⟨rec, hrec, h⟩
  · rintro ⟨rec, hrec, hsome⟩ hnone
    rw [hnone rec hrec] at hsome
    cases hsome

theorem lastServer_mem {server : ServerRecord} (h : lastServer records role = some server) :
    ∃ rec ∈ records, rec.server? role = some server :=
  List.mem_filterMap.mp (List.mem_of_getLast? h)

/-- What is folded of a role. -/
theorem fold_server? : (foldMemoryRecords records order).server? role =
    (lastServer records role).map fun _ => foldServer records role := by
  unfold foldMemoryRecords
  split
  · next hempty =>
    rw [List.getLast?_eq_none_iff] at hempty
    subst hempty
    rfl
  · unfold MemoryRecord.server?
    rw [Option.getD_some, Table.find?_foldl_put, Table.find?_empty]
    -- the roles are gone through in some order
    simp only [order.mem, mem_allRoles, ← lastServer_isSome]
    cases lastServer records role <;> rfl

/-- **A folded peak** is the highest one of the repetitions that recorded it. -/
theorem fold_peak? (field : PeakField) : (foldMemoryRecords records order).peak? role field =
    (peakValues records role field).max? := by
  unfold MemoryRecord.peak?
  rw [fold_server?]
  cases hlast : lastServer records role with
  | none =>
    -- no repetition has the role
    have hnone : peakValues records role field = [] := by
      refine List.filterMap_eq_nil_iff.mpr fun rec hrec => ?_
      have hserver : rec.server? role = none := by
        refine Option.not_isSome_iff_eq_none.mp fun hsome => ?_
        have hisSome := lastServer_isSome.mpr ⟨rec, hrec, hsome⟩
        rw [hlast] at hisSome
        cases hisSome
      rw [MemoryRecord.peak?, hserver]
      rfl
    rw [hnone]
    rfl
  | some base =>
    show (foldServer records role).get field = _
    unfold foldServer
    rw [get_foldl_setMax, if_pos (mem_peakFields field), baseRecord_eq, hlast, Option.getD_some]
    cases hmax : (peakValues records role field).max? with
    | some value => rfl
    | none =>
      -- what nobody recorded the last repetition did not either
      rw [List.max?_eq_none_iff] at hmax
      obtain ⟨rec, hrec, hserver⟩ := lastServer_mem hlast
      have hpeak := List.filterMap_eq_nil_iff.mp hmax rec hrec
      rw [MemoryRecord.peak?, hserver] at hpeak
      exact hpeak

/-- **A folded source** is that of the last repetition that has the role. -/
theorem fold_source? : (foldMemoryRecords records order).source? role =
    (lastServer records role).bind ServerRecord.source := by
  unfold MemoryRecord.source?
  rw [fold_server?]
  cases hlast : lastServer records role with
  | none => rfl
  | some base =>
    show (foldServer records role).source = base.source
    rw [foldServer, source_foldl_setMax, baseRecord_eq, hlast]
    rfl

/-! ### The peak and its source -/

/-- What the repetitions recorded. -/
def Recorded (records : List MemoryRecord) (role : String) (field : PeakField) : Set ℤ :=
  {value | ∃ rec ∈ records, rec.peak? role field = some value}

theorem max?_peakValues_iff {field : PeakField} {value : ℤ} :
    (peakValues records role field).max? = some value ↔
      IsGreatest (Recorded records role field) value := by
  rw [List.max?_eq_some_iff]
  refine and_congr List.mem_filterMap ?_
  exact ⟨fun h other hother => h other (List.mem_filterMap.mpr hother),
    fun h other hother => h (List.mem_filterMap.mp hother)⟩

theorem recorded_perm {records' : List MemoryRecord} (h : records'.Perm records)
    (field : PeakField) : Recorded records' role field = Recorded records role field :=
  Set.ext fun _ => exists_congr fun _ => and_congr_left' h.mem_iff

/-- What folding a role is for: the highest peaks, whatever the order of the repetitions, and
the source of a repetition with the highest peak in the window. -/
structure Folds (order : SetOrder) (records : List MemoryRecord) (role : String) : Prop where
  greatest  : ∀ field value, (foldMemoryRecords records order).peak? role field = some value ↔
    IsGreatest (Recorded records role field) value
  unordered : ∀ (order' : SetOrder) (records' : List MemoryRecord), records'.Perm records →
    ∀ field, (foldMemoryRecords records' order').peak? role field =
      (foldMemoryRecords records order).peak? role field
  source    : ∀ value, (foldMemoryRecords records order).peak? role .usedMemoryWindowPeak = some value →
    ∃ rec ∈ records, rec.peak? role .usedMemoryWindowPeak = some value ∧
      rec.source? role = (foldMemoryRecords records order).source? role

/-- The last repetition that has the role has the source of one with the highest peak. -/
def LastLabels (records : List MemoryRecord) (role : String) : Prop :=
  ∀ value, IsGreatest (Recorded records role .usedMemoryWindowPeak) value →
    ∃ rec ∈ records, rec.peak? role .usedMemoryWindowPeak = some value ∧
      rec.source? role = (lastServer records role).bind ServerRecord.source

theorem fold_greatest (field : PeakField) (value : ℤ) :
    (foldMemoryRecords records order).peak? role field = some value ↔
      IsGreatest (Recorded records role field) value := by
  rw [fold_peak?, max?_peakValues_iff]

/-- **The peaks do not depend on the order of the repetitions.** -/
theorem fold_perm {order' : SetOrder} {records' : List MemoryRecord} (h : records'.Perm records)
    (field : PeakField) : (foldMemoryRecords records' order').peak? role field =
      (foldMemoryRecords records order).peak? role field := by
  refine Option.ext fun value => ?_
  rw [fold_greatest, fold_greatest, recorded_perm h]

/-- **When folding is right**: the source is the one thing that goes by the order. -/
theorem folds_iff : Folds order records role ↔ LastLabels records role := by
  constructor
  · intro h value hgreatest
    obtain ⟨rec, hrec, hpeak, hsource⟩ := h.source value ((fold_greatest _ value).mpr hgreatest)
    exact ⟨rec, hrec, hpeak, hsource.trans fold_source?⟩
  · intro h
    refine ⟨fold_greatest, fun _ _ hperm field => fold_perm hperm field, fun value hpeak => ?_⟩
    obtain ⟨rec, hrec, hattains, hsource⟩ := h value ((fold_greatest _ value).mp hpeak)
    exact ⟨rec, hrec, hattains, hsource.trans fold_source?.symm⟩

/-- The roles by name. -/
def byName : SetOrder where
  list roles := roles.sort (· ≤ ·)
  nodup roles := roles.sort_nodup (· ≤ ·)
  mem _ _ := Finset.mem_sort (· ≤ ·)

/-- A repetition of one server, of which only the window is known. -/
def windowRep (peak : ℤ) (source : PeakSource) : MemoryRecord where
  schema       := memorySchemaVersion
  servers      := some (Table.empty.put
    ("primary", ServerRecord.empty.withWindowPeak (some peak, some source)))
  samples      := some []
  sampleErrors := some 0

/-- The engine's peak of 200, in the record as one that was sampled. -/
theorem windowRep_mislabelled :
    (foldMemoryRecords [windowRep 200 .engine, windowRep 100 .sampler] byName).peak? "primary"
        .usedMemoryWindowPeak = some 200 ∧
      (foldMemoryRecords [windowRep 200 .engine, windowRep 100 .sampler] byName).source? "primary" =
        some .sampler ∧
      ¬ Folds byName [windowRep 200 .engine, windowRep 100 .sampler] "primary" := by
  have hpeak : (foldMemoryRecords [windowRep 200 .engine, windowRep 100 .sampler] byName).peak?
      "primary" .usedMemoryWindowPeak = some 200 := by
    rw [fold_peak?]
    decide
  have hsource : (foldMemoryRecords [windowRep 200 .engine, windowRep 100 .sampler]
      byName).source? "primary" = some .sampler := by
    rw [fold_source?]
    decide
  refine ⟨hpeak, hsource, fun h => ?_⟩
  obtain ⟨rec, hrec, hattains, hlabel⟩ := h.source 200 hpeak
  rw [hsource] at hlabel
  rcases List.mem_cons.mp hrec with rfl | hrec
  · revert hlabel
    decide
  · obtain rfl := List.mem_singleton.mp hrec
    revert hattains
    decide

/-- **A peak without a source**: of records that are collected, when the last repetition that
has the role knows no peak in the window and another one does. -/
theorem fold_unlabelled {base : ServerRecord} {value : ℤ}
    (hlast : lastServer records role = some base) (hlabelled : base.Labelled)
    (hunknown : base.get .usedMemoryWindowPeak = none)
    (hknown : value ∈ Recorded records role .usedMemoryWindowPeak) :
    ((foldMemoryRecords records order).peak? role .usedMemoryWindowPeak).isSome ∧
      (foldMemoryRecords records order).source? role = none := by
  constructor
  · rw [fold_peak?, List.isSome_max?_iff]
    exact List.ne_nil_of_mem (List.mem_filterMap.mpr hknown)
  · rw [fold_source?, hlast]
    refine Option.not_isSome_iff_eq_none.mp fun hsome => ?_
    have hpeak := hlabelled.mpr hsome
    rw [hunknown] at hpeak
    cases hpeak

end Conductress.MemoryCapture
