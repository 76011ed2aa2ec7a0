import Conductress.Lib.Except
import Conductress.Queue.Submission
import Conductress.Sweep.Planner

/-!
# The state file of a sweep

`SweepState.save` writes every attribute of the state, its landmarks and its points
by name; `SweepState.load` reads them by name, with a default for what an older file
does not have. A dataclass does not check its annotations, so an attribute is
whatever JSON value it was given.

What is saved loads as the state it was saved from, and a loaded state is saved as
the same document: `load_save`.
-/

namespace Conductress.Sweep

open Lib
open Submission (JsonText)

namespace PointStatus

/-- `PointStatus.name`. -/
def name : PointStatus → String
  | .completed => "COMPLETED"
  | .buildFailed => "BUILD_FAILED"
  | .pending => "PENDING"

/-- `PointStatus[name]`. -/
def ofName : Json → Except PyError PointStatus
  | .str "COMPLETED" => .ok .completed
  | .str "BUILD_FAILED" => .ok .buildFailed
  | .str "PENDING" => .ok .pending
  | .str name => .error (.keyError name)
  | .arr _ => .error (.typeError "unhashable type: 'list'")
  | .obj _ => .error (.typeError "unhashable type: 'dict'")
  | _ => .error (.keyError "")

@[simp] theorem ofName_name (status : PointStatus) : ofName (.str status.name) = .ok status := by
  cases status <;> rfl

end PointStatus

/-- A `BenchmarkPoint` with the values it was given; null is `None`. -/
structure PointRecord where
  commit               : Json
  date                 : Json
  value                : Json
  cv                   : Json
  reps                 : Json
  scoreMin             : Json
  scoreMax             : Json
  clientCoresBusy      : Json
  clientAllocatedCores : Json
  clientUtilization    : Json
  clientSaturated      : Json
  pr                   : Json
  prTitle              : Json
  perfCounters         : Json
  perfCountersMain     : Json
  perfCountersIo       : Json
  perfDurationSeconds  : Json
  perfRps              : Json
  perfRepCount         : Json
  perfCountersScope    : Json
  breakdown            : Json
  rawStacks            : Json
  latencyData          : Json
  cpuStacksMain        : Json
  cpuStacksIo          : Json
  sample               : Json
  status               : PointStatus
  deriving DecidableEq

/-- A `Landmark` with the values it was given. -/
structure LandmarkRecord where
  commit : Json
  date   : Json
  label  : Json
  deriving DecidableEq

/-- A `SweepState` with the values it was given. -/
structure StateRecord where
  points                : Table (Prod.fst : String × PointRecord → String)
  landmarks             : List LandmarkRecord
  mergeCommits          : Json
  commitDates           : Json
  commitPrs             : Json
  commitTitles          : Json
  lastBenchmarkedHead   : Json
  lastBenchmarkedHeadAt : Json
  threshold             : Json

/-! ## Saving -/

/-- A point in `save`. -/
def PointRecord.toData (p : PointRecord) : Json :=
  .obj [
    ("commit", p.commit),
    ("date", p.date),
    ("value", p.value),
    ("cv", p.cv),
    ("reps", p.reps),
    ("score_min", p.scoreMin),
    ("score_max", p.scoreMax),
    ("client_cores_busy", p.clientCoresBusy),
    ("client_allocated_cores", p.clientAllocatedCores),
    ("client_utilization", p.clientUtilization),
    ("client_saturated", p.clientSaturated),
    ("pr", p.pr),
    ("pr_title", p.prTitle),
    ("perf_counters", p.perfCounters),
    ("perf_counters_main", p.perfCountersMain),
    ("perf_counters_io", p.perfCountersIo),
    ("perf_duration_seconds", p.perfDurationSeconds),
    ("perf_rps", p.perfRps),
    ("perf_rep_count", p.perfRepCount),
    ("perf_counters_scope", p.perfCountersScope),
    ("breakdown", p.breakdown),
    ("raw_stacks", p.rawStacks),
    ("latency_data", p.latencyData),
    ("cpu_stacks_main", p.cpuStacksMain),
    ("cpu_stacks_io", p.cpuStacksIo),
    ("sample", p.sample),
    ("status", .str p.status.name)]

/-- A landmark in `save`. -/
def LandmarkRecord.toData (lm : LandmarkRecord) : Json :=
  .obj [("commit", lm.commit), ("date", lm.date), ("label", lm.label)]

namespace StateRecord

/-- The document of `save`. -/
def data (s : StateRecord) : Json :=
  .obj [
    ("threshold", s.threshold),
    ("last_benchmarked_head", s.lastBenchmarkedHead),
    ("last_benchmarked_head_at", s.lastBenchmarkedHeadAt),
    ("merge_commits", s.mergeCommits),
    ("commit_dates", s.commitDates),
    ("commit_prs", s.commitPrs),
    ("commit_titles", s.commitTitles),
    ("landmarks", .arr (s.landmarks.map LandmarkRecord.toData)),
    ("points", .obj (s.points.rows.map fun row => (row.1, row.2.toData)))]

/-- `save`: the text of the file. -/
def save (json : JsonText) (s : StateRecord) : List Char := json.dumps s.data

/-- `SweepState()`. -/
def empty : StateRecord where
  points                := .empty
  landmarks             := []
  mergeCommits          := .arr []
  commitDates           := .obj []
  commitPrs             := .obj []
  commitTitles          := .obj []
  lastBenchmarkedHead   := .null
  lastBenchmarkedHeadAt := .null
  threshold             := .float (.finite (1 / 50))

end StateRecord

/-! ## Loading -/

/-- `data[key]`, of a dictionary. -/
def getItem (fields : List (String × Json)) (key : String) : Except PyError Json :=
  (Json.lookup fields key).elim (.error (.keyError key)) .ok

/-- `data.get(key, default)`, of a dictionary. -/
def getOr (fields : List (String × Json)) (key : String) (default : Json) : Json :=
  (Json.lookup fields key).getD default

/-- A point in `load`. -/
def PointRecord.ofData : Json → Except PyError PointRecord
  | .obj p => do
    let commit ← getItem p "commit"
    let status ← PointStatus.ofName (getOr p "status" (.str "PENDING"))
    return {
      commit
      date                 := getOr p "date" (.str "")
      -- the name of older files
      value                := getOr p "value" (getOr p "rps" .null)
      cv                   := getOr p "cv" .null
      reps                 := getOr p "reps" (.int 3)
      scoreMin             := getOr p "score_min" .null
      scoreMax             := getOr p "score_max" .null
      clientCoresBusy      := getOr p "client_cores_busy" .null
      clientAllocatedCores := getOr p "client_allocated_cores" .null
      clientUtilization    := getOr p "client_utilization" .null
      clientSaturated      := getOr p "client_saturated" .null
      pr                   := getOr p "pr" .null
      prTitle              := getOr p "pr_title" .null
      perfCounters         := getOr p "perf_counters" .null
      perfCountersMain     := getOr p "perf_counters_main" .null
      perfCountersIo       := getOr p "perf_counters_io" .null
      perfDurationSeconds  := getOr p "perf_duration_seconds" .null
      perfRps              := getOr p "perf_rps" .null
      perfRepCount         := getOr p "perf_rep_count" .null
      perfCountersScope    := getOr p "perf_counters_scope" .null
      breakdown            := getOr p "breakdown" .null
      rawStacks            := getOr p "raw_stacks" .null
      latencyData          := getOr p "latency_data" .null
      cpuStacksMain        := getOr p "cpu_stacks_main" .null
      cpuStacksIo          := getOr p "cpu_stacks_io" .null
      sample               := getOr p "sample" .null
      status }
  | _ => .error (.typeError "indices must be integers or slices, not str")

/-- A landmark in `load`. -/
def LandmarkRecord.ofData : Json → Except PyError LandmarkRecord
  | .obj lm => do
    let commit ← getItem lm "commit"
    let date ← getItem lm "date"
    let label ← getItem lm "label"
    return { commit, date, label }
  | _ => .error (.typeError "indices must be integers or slices, not str")

/-- The elements of a value that is looped over. -/
def iterate : Json → Except PyError (List Json)
  | .arr items => .ok items
  | .obj fields => .ok (fields.map fun f => .str f.1)
  | .str s => .ok (s.toList.map fun c => .str (String.singleton c))
  | _ => .error (.typeError "object is not iterable")

/-- `items()`. -/
def items : Json → Except PyError (List (String × Json))
  | .obj fields => .ok fields
  | _ => .error (.attributeError "object has no attribute 'items'")

namespace StateRecord

/-- The state of a document in `load`. -/
def ofData : Json → Except PyError StateRecord
  | .obj data => do
    let landmarks ← iterate (getOr data "landmarks" (.arr []))
    let landmarks ← landmarks.mapM LandmarkRecord.ofData
    let points ← items (getOr data "points" (.obj []))
    let points ← points.mapM fun f => (PointRecord.ofData f.2).map fun p => (f.1, p)
    return {
      points                := points.foldl Table.put .empty
      landmarks
      mergeCommits          := getOr data "merge_commits" (.arr [])
      commitDates           := getOr data "commit_dates" (.obj [])
      commitPrs             := getOr data "commit_prs" (.obj [])
      commitTitles          := getOr data "commit_titles" (.obj [])
      lastBenchmarkedHead   := getOr data "last_benchmarked_head" .null
      lastBenchmarkedHeadAt := getOr data "last_benchmarked_head_at" .null
      threshold             := getOr data "threshold" (.float (.finite (1 / 50))) }
  | _ => .error (.attributeError "object has no attribute 'get'")

/-- `load`; a file that is not there is an empty state. -/
def load (json : JsonText) (file : Option (List Char)) : Except PyError StateRecord :=
  match file with
  | none => .ok empty
  | some text =>
    match json.loads text with
    | none => .error (.valueError "Invalid JSON in file")
    | some data => ofData data

end StateRecord

/-! ## There and back -/

theorem PointRecord.ofData_toData (p : PointRecord) : ofData p.toData = .ok p := by
  rw [toData, ofData]
  refine except_bind_ok.mpr ⟨p.commit, rfl, except_bind_ok.mpr ⟨p.status, p.status.ofName_name, ?_⟩⟩
  rfl

theorem LandmarkRecord.ofData_toData (lm : LandmarkRecord) : ofData lm.toData = .ok lm := rfl

namespace StateRecord

/-- Every point is loaded under the commit it was saved under. -/
theorem mapM_points (s : StateRecord) :
    (s.points.rows.map fun row => (row.1, row.2.toData)).mapM
        (fun f => (PointRecord.ofData f.2).map fun p => (f.1, p)) = .ok s.points.rows := by
  refine except_mapM_map fun row _ => ?_
  rw [PointRecord.ofData_toData]
  rfl

/-- The document of a state is that of the state. -/
theorem ofData_data (s : StateRecord) : ofData s.data = .ok s := by
  -- the lists are loaded one by one, every other field is what is under its key
  have hlandmarks : (s.landmarks.map LandmarkRecord.toData).mapM LandmarkRecord.ofData =
      .ok s.landmarks := except_mapM_map fun lm _ => lm.ofData_toData
  rw [data, ofData]
  refine except_bind_ok.mpr ⟨_, rfl, except_bind_ok.mpr ⟨_, hlandmarks, except_bind_ok.mpr ⟨_, rfl,
    except_bind_ok.mpr ⟨_, s.mapM_points, ?_⟩⟩⟩⟩
  -- the commits are different, so no point replaces another
  rw [Table.foldl_put_rows]
  rfl

/-- **Loading what was saved** gives back the state, and a state loaded from what
was saved is saved as the same text, if `json` gives back the document. -/
theorem load_save {json : JsonText} {s : StateRecord}
    (hjson : json.loads (json.dumps s.data) = some s.data) :
    load json (some (s.save json)) = .ok s ∧
      ∀ loaded, load json (some (s.save json)) = .ok loaded → loaded.save json = s.save json := by
  have hload : load json (some (s.save json)) = .ok s := by
    rw [load, save]
    rw [hjson]
    exact s.ofData_data
  refine ⟨hload, fun loaded h => ?_⟩
  rw [hload] at h
  rw [Except.ok.inj h]

/-- A sweep that has measured one commit. -/
def oneCommit : StateRecord where
  points                := Table.empty.put ("a1", {
    commit := .str "a1", date := .str "2024-05-01", value := .int 1000, cv := .null, reps := .int 3,
    scoreMin := .null, scoreMax := .null, clientCoresBusy := .null, clientAllocatedCores := .null,
    clientUtilization := .null, clientSaturated := .null, pr := .null, prTitle := .null,
    perfCounters := .obj [("cycles", .int 7)], perfCountersMain := .null, perfCountersIo := .null,
    perfDurationSeconds := .null, perfRps := .null, perfRepCount := .null,
    perfCountersScope := .null, breakdown := .null, rawStacks := .null, latencyData := .null,
    cpuStacksMain := .null, cpuStacksIo := .null, sample := .str "tip", status := .completed })
  landmarks             := [⟨.str "a1", .str "2024-05-01", .str "8.0.0"⟩]
  mergeCommits          := .arr [.str "a1"]
  commitDates           := .obj [("a1", .str "2024-05-01")]
  commitPrs             := .obj []
  commitTitles          := .obj []
  lastBenchmarkedHead   := .str "a1"
  lastBenchmarkedHeadAt := .int 5
  threshold             := .float (.finite (1 / 50))

/-- Its file. -/
def oneCommitText : List Char :=
  ("\x7b\n  \"threshold\": 0.02,\n  \"last_benchmarked_head\": \"a1\",\n  " ++
    "\"last_benchmarked_head_at\": 5,\n  \"merge_commits\": [\n    \"a1\"\n  ],\n  " ++
    "\"commit_dates\": \x7b\n    \"a1\": \"2024-05-01\"\n  \x7d,\n  " ++
    "\"commit_prs\": \x7b\x7d,\n  \"commit_titles\": \x7b\x7d,\n  \"landmarks\": [\n    " ++
    "\x7b\n      \"commit\": \"a1\",\n      \"date\": \"2024-05-01\",\n      " ++
    "\"label\": \"8.0.0\"\n    \x7d\n  ],\n  \"points\": \x7b\n    \"a1\": \x7b\n      " ++
    "\"commit\": \"a1\",\n      \"date\": \"2024-05-01\",\n      \"value\": 1000,\n      " ++
    "\"cv\": null,\n      \"reps\": 3,\n      \"score_min\": null,\n      " ++
    "\"score_max\": null,\n      \"client_cores_busy\": null,\n      " ++
    "\"client_allocated_cores\": null,\n      \"client_utilization\": null,\n      " ++
    "\"client_saturated\": null,\n      \"pr\": null,\n      \"pr_title\": null,\n      " ++
    "\"perf_counters\": \x7b\n        \"cycles\": 7\n      \x7d,\n      " ++
    "\"perf_counters_main\": null,\n      \"perf_counters_io\": null,\n      " ++
    "\"perf_duration_seconds\": null,\n      \"perf_rps\": null,\n      " ++
    "\"perf_rep_count\": null,\n      \"perf_counters_scope\": null,\n      " ++
    "\"breakdown\": null,\n      \"raw_stacks\": null,\n      \"latency_data\": null,\n      " ++
    "\"cpu_stacks_main\": null,\n      \"cpu_stacks_io\": null,\n      " ++
    "\"sample\": \"tip\",\n      \"status\": \"COMPLETED\"\n    \x7d\n  \x7d\n\x7d").toList

/-- `json` as far as one document needs it. -/
def jsonOf (text : List Char) (document : Json) : JsonText where
  dumps _       := text
  loads content := if content = text then some document else none

theorem jsonOf_loads (text : List Char) (document : Json) :
    (jsonOf text document).loads ((jsonOf text document).dumps document) = some document :=
  if_pos rfl

theorem oneCommit_loaded :
    load (jsonOf oneCommitText oneCommit.data)
      (some (oneCommit.save (jsonOf oneCommitText oneCommit.data))) = .ok oneCommit :=
  (load_save (jsonOf_loads oneCommitText oneCommit.data)).1

end StateRecord

/-! ## The state of a planner -/

/-- A value or `None`. -/
def orNull {α : Type*} (f : α → Json) (value : Option α) : Json := value.elim .null f

theorem orNull_injective {α : Type*} {f : α → Json} (hf : Function.Injective f)
    (hnull : ∀ a, f a ≠ .null) : Function.Injective (orNull f) := by
  intro a b h
  cases a with
  | none =>
    cases b with
    | none => rfl
    | some b => exact absurd h.symm (hnull b)
  | some a =>
    cases b with
    | none => exact absurd h (hnull a)
    | some b => rw [hf h]

/-- A float. -/
def floatOf (q : Rat) : Json := .float (.finite q)

/-- A point of a planner with its values. -/
def BenchmarkPoint.toRecord (p : BenchmarkPoint) : PointRecord where
  commit               := .str p.commit
  date                 := .str p.date
  value                := orNull floatOf p.value
  cv                   := orNull floatOf p.cv
  reps                 := .int p.reps
  scoreMin             := p.scoreMin
  scoreMax             := p.scoreMax
  clientCoresBusy      := p.clientCoresBusy
  clientAllocatedCores := p.clientAllocatedCores
  clientUtilization    := p.clientUtilization
  clientSaturated      := p.clientSaturated
  pr                   := orNull .int p.pr
  prTitle              := orNull .str p.prTitle
  perfCounters         := p.perfCounters
  perfCountersMain     := p.perfCountersMain
  perfCountersIo       := p.perfCountersIo
  perfDurationSeconds  := p.perfDurationSeconds
  perfRps              := p.perfRps
  perfRepCount         := p.perfRepCount
  perfCountersScope    := p.perfCountersScope
  breakdown            := p.breakdown
  rawStacks            := p.rawStacks
  latencyData          := p.latencyData
  cpuStacksMain        := p.cpuStacksMain
  cpuStacksIo          := p.cpuStacksIo
  sample               := orNull .str p.sample
  status               := p.status

def Landmark.toRecord (lm : Landmark) : LandmarkRecord where
  commit := .str lm.commit
  date   := .str lm.date
  label  := .str lm.label

/-- The state of a planner with its values. -/
def SweepState.toRecord (s : SweepState) : StateRecord where
  points := ⟨s.points.rows.map fun p => (p.commit, p.toRecord), by
    rw [List.map_map]
    exact s.points.nodup⟩
  landmarks             := s.landmarks.map Landmark.toRecord
  mergeCommits          := .arr (s.mergeCommits.map .str)
  commitDates           := .obj (s.commitDates.map fun e => (e.1, .str e.2))
  commitPrs             := .obj (s.commitPrs.map fun e => (e.1, .int e.2))
  commitTitles          := .obj (s.commitTitles.map fun e => (e.1, .str e.2))
  lastBenchmarkedHead   := orNull .str s.lastBenchmarkedHead
  lastBenchmarkedHeadAt := orNull floatOf s.lastBenchmarkedHeadAt
  threshold             := floatOf s.threshold

theorem floatOf_injective : Function.Injective floatOf := fun _ _ h => by
  cases h
  rfl

theorem orNull_floatOf_injective : Function.Injective (orNull floatOf) :=
  orNull_injective floatOf_injective fun _ => nofun

theorem orNull_str_injective : Function.Injective (orNull Json.str) :=
  orNull_injective (fun _ _ => Json.str.inj) fun _ => nofun

theorem orNull_int_injective : Function.Injective (orNull Json.int) :=
  orNull_injective (fun _ _ => Json.int.inj) fun _ => nofun

theorem BenchmarkPoint.toRecord_injective : Function.Injective BenchmarkPoint.toRecord := by
  intro p q h
  cases p
  cases q
  simp only [toRecord, PointRecord.mk.injEq, orNull_floatOf_injective.eq_iff,
    orNull_str_injective.eq_iff, orNull_int_injective.eq_iff, Json.str.injEq, Json.int.injEq,
    Nat.cast_inj] at h
  simp only [BenchmarkPoint.mk.injEq]
  exact h

theorem Landmark.toRecord_injective : Function.Injective Landmark.toRecord := by
  intro a b h
  cases a
  cases b
  simpa [toRecord] using h

/-- Different states have different values. -/
theorem SweepState.toRecord_injective : Function.Injective SweepState.toRecord := by
  intro s t h
  obtain ⟨⟨rows, _⟩, landmarks, mergeCommits, dates, prs, titles, head, headAt, threshold⟩ := s
  obtain ⟨⟨rows', _⟩, landmarks', mergeCommits', dates', prs', titles', head', headAt', threshold'⟩ := t
  simp only [toRecord, StateRecord.mk.injEq, Table.mk.injEq, Json.arr.injEq, Json.obj.injEq] at h
  obtain ⟨hrows, hlandmarks, hmerge, hdates, hprs, htitles, hhead, hheadAt, hthreshold⟩ := h
  have hpoint : Function.Injective fun p : BenchmarkPoint => (p.commit, p.toRecord) :=
    fun p q heq => BenchmarkPoint.toRecord_injective (Prod.mk.inj heq).2
  have htext : Function.Injective fun e : String × String => (e.1, Json.str e.2) :=
    fun a b heq => Prod.ext (Prod.mk.inj heq).1 (Json.str.inj (Prod.mk.inj heq).2)
  have hint : Function.Injective fun e : String × ℤ => (e.1, Json.int e.2) :=
    fun a b heq => Prod.ext (Prod.mk.inj heq).1 (Json.int.inj (Prod.mk.inj heq).2)
  obtain rfl := List.map_injective_iff.mpr hpoint hrows
  obtain rfl := List.map_injective_iff.mpr Landmark.toRecord_injective hlandmarks
  obtain rfl := List.map_injective_iff.mpr (fun _ _ => Json.str.inj) hmerge
  obtain rfl := List.map_injective_iff.mpr htext hdates
  obtain rfl := List.map_injective_iff.mpr hint hprs
  obtain rfl := List.map_injective_iff.mpr htext htitles
  obtain rfl := orNull_str_injective hhead
  obtain rfl := orNull_floatOf_injective hheadAt
  obtain rfl := floatOf_injective hthreshold
  rfl

/-- A planner's file says which state it was saved from. -/
theorem SweepState.eq_of_save_eq {json : JsonText} {s t : SweepState}
    (hs : json.loads (json.dumps s.toRecord.data) = some s.toRecord.data)
    (ht : json.loads (json.dumps t.toRecord.data) = some t.toRecord.data)
    (h : s.toRecord.save json = t.toRecord.save json) : s = t := by
  have hdata : s.toRecord.data = t.toRecord.data := by
    refine Option.some.inj (hs.symm.trans (Eq.trans ?_ ht))
    exact congrArg json.loads h
  -- the document says which values it was made of
  have hrecord := congrArg StateRecord.ofData hdata
  rw [StateRecord.ofData_data, StateRecord.ofData_data] at hrecord
  exact SweepState.toRecord_injective (Except.ok.inj hrecord)

end Conductress.Sweep
