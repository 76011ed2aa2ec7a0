import Mathlib.Algebra.BigOperators.Ring.List
import Mathlib.Data.Int.Cast.Lemmas
import Mathlib.Algebra.GroupWithZero.Nat
import Mathlib.Algebra.Order.Field.Rat
import Mathlib.Data.List.Infix
import Mathlib.Tactic.FieldSimp
import Conductress.Sweep.CoordinatorV3

/-!
# Counters per request

The counters of a benchmark are those of all its repetitions, added up; the exporter
divides them by the requests of all repetitions. That is right for an event as long as
the repetitions that did not count it served no requests: `per_request_iff`. A
repetition whose `perf stat` file is missing or has no count is one of them, since the
three empty buckets that are read from it are a dictionary that is not empty
(`truthy_document`).
-/

namespace Conductress.Sweep

open Lib CoordinatorV3

/-! ## Counts by event -/

/-- A dictionary of counts by event. -/
abbrev Counters := Table (Prod.fst : String × ℤ → String)

namespace Counters

/-- `c.get(event, 0)`. -/
def get (c : Counters) (event : String) : ℤ := ((c.find? event).map Prod.snd).getD 0

/-- `event in c`. -/
def Has (c : Counters) (event : String) : Prop := (c.find? event).isSome

instance (c : Counters) (event : String) : Decidable (c.Has event) :=
  inferInstanceAs (Decidable ((c.find? event).isSome = true))

/-- `c[event] = c.get(event, 0) + count`. -/
def add (c : Counters) (row : String × ℤ) : Counters := c.put (row.1, c.get row.1 + row.2)

/-- The loop that adds the counts of a repetition. -/
def merge (c events : Counters) : Counters := events.rows.foldl add c

def fields (c : Counters) : Fields := c.rows.map fun row => (row.1, .int row.2)

def json (c : Counters) : Json := .obj c.fields

end Counters

/-! ## The file of a repetition -/

/-- A line of `perf stat --per-thread` that counts. -/
structure PerfRow where
  tid   : String
  event : String
  count : ℤ

/-- `text.splitlines()`; a break of two characters leaves an empty line as well. -/
def textLines (text : String) : List (List Char) :=
  text.toList.splitOnP fun c =>
    decide (c.toNat ∈ [0x0a, 0x0b, 0x0c, 0x0d, 0x1c, 0x1d, 0x1e, 0x85, 0x2028, 0x2029])

/-- `line.split()`. -/
def textWords (line : List Char) : List (List Char) :=
  (line.splitOnP PyText.isSpace).filter fun word => !word.isEmpty

/-- `text.removesuffix(ending)`. -/
def removeSuffix (text ending : List Char) : List Char :=
  if ending <:+ text then text.take (text.length - ending.length) else text

/-- An event without its modifier. -/
def eventName (text : List Char) : String :=
  String.ofList (removeSuffix (removeSuffix (removeSuffix text ":u".toList) ":k".toList) ":".toList)

/-- The turn of a line in `parse_perf_stat_per_thread`, up to its count. -/
def perfRow (line : List Char) : Option PerfRow :=
  let line := PyText.strip line
  if line = [] ∨ line.head? = some '#' ∨ "seconds time elapsed".toList <:+: line then none
  else
    match textWords line with
    | commTid :: count :: event :: _ =>
      let tid := (commTid.reverse.takeWhile fun c => c ≠ '-').reverse
      if '-' ∉ commTid ∨ tid = [] ∨ ¬ tid.all PyText.isDigit then none
      else
        -- `<not counted>` and `<not supported>` are no numbers
        (PyText.parseInt (String.ofList (count.filter fun c => c ≠ ','))).map fun n =>
          ⟨String.ofList tid, eventName event, n⟩
    | _ => none

structure Buckets where
  all  : Counters
  main : Counters
  io   : Counters

namespace Buckets

def empty : Buckets := ⟨.empty, .empty, .empty⟩

/-- The dictionary they are. -/
def document (b : Buckets) : Json :=
  .obj [("all", b.all.json), ("main", b.main.json), ("io", b.io.json)]

/-- A row counts for the process, and for the threads it is one of. -/
def count (mainTid : Option String) (ioTids : List String) (b : Buckets) (row : PerfRow) : Buckets where
  all  := b.all.add (row.event, row.count)
  main := if mainTid = some row.tid then b.main.add (row.event, row.count) else b.main
  io   := if row.tid ∈ ioTids then b.io.add (row.event, row.count) else b.io

/-- The loop over the buckets of a repetition. -/
def merge (b report : Buckets) : Buckets :=
  ⟨b.all.merge report.all, b.main.merge report.main, b.io.merge report.io⟩

end Buckets

/-- `parse_perf_stat_per_thread`, of a file that may be missing. -/
def parsePerfStatPerThread (file : Option String) (mainTid : Option String) (ioTids : List String) :
    Buckets :=
  match file with
  | none => .empty
  | some text => ((textLines text).filterMap perfRow).foldl (Buckets.count mainTid ioTids) .empty

/-! ## The benchmark -/

/-- A repetition: its `perf stat` file with the threads there were, and its rate. -/
structure Repetition where
  file    : Option String
  mainTid : Option String
  ioTids  : List String
  rate    : ℚ

def Repetition.report (rep : Repetition) : Buckets :=
  parsePerfStatPerThread rep.file rep.mainTid rep.ioTids

/-- What `run` keeps across the repetitions. -/
structure PerfRun where
  perfCounters : Option Buckets
  perfRepCount : ℕ
  perRunRps    : List ℚ

namespace PerfRun

def start : PerfRun := ⟨none, 0, []⟩

/-- A repetition of the loop in `run`, with `perf_stat_enabled`. -/
def collect (run : PerfRun) (rep : Repetition) : PerfRun :=
  let run := { run with perRunRps := run.perRunRps ++ [rep.rate] }
  if rep.report.document.truthy then
    { run with
      perfRepCount := run.perfRepCount + 1
      perfCounters := some (match run.perfCounters with
        | none => rep.report
        | some counters => counters.merge rep.report) }
  else run

/-- `_store_perf_counters`; what is collected is always in buckets. -/
def storePerfCounters (duration : ℚ) (scope : String) (run : PerfRun) (b : Buckets) : Fields :=
  (if b.all.rows ≠ [] then
    [("perf_counters", b.all.json)] ++
      (if scope ≠ "" then [("perf_counters_scope", .str scope)] else []) ++
      [("perf_duration_seconds", .float (.finite duration)),
        ("perf_rep_count", .int (if run.perfRepCount = 0 then 1 else run.perfRepCount))]
  else []) ++
    (if b.main.rows ≠ [] then [("perf_counters_main", b.main.json)] else []) ++
    (if b.io.rows ≠ [] then [("perf_counters_io", b.io.json)] else [])

def meanRps (run : PerfRun) : ℚ := run.perRunRps.sum / run.perRunRps.length

/-- The rates of a row, which names them by how many there were. -/
def rateFields (run : PerfRun) : Fields :=
  if 1 < run.perRunRps.length then
    [("per_run_rps", .arr (run.perRunRps.map fun rps => .float (.finite rps))),
      ("mean_rps", .float (.finite run.meanRps))]
  else [("avg_rps", .float (.finite run.meanRps))]

/-- The data of a row, as far as the exporter reads it. -/
def data (duration : ℚ) (scope : String) (run : PerfRun) : Fields :=
  run.rateFields ++
    match run.perfCounters with
    | none => []
    | some b => run.storePerfCounters duration scope b

def row (duration : ℚ) (scope : String) (run : PerfRun) : Fields :=
  [("score", .float (.finite run.meanRps)), ("data", .obj (run.data duration scope))]

/-- `__record_result`, which raises without a repetition. -/
def resultRow (duration : ℚ) (scope : String) (run : PerfRun) : Option Fields :=
  if run.perRunRps = [] then none else some (run.row duration scope)

end PerfRun

/-! ## The exporter -/

/-- What `record_perf_counters` makes of a point. -/
def BenchmarkPoint.recordPerf (p : BenchmarkPoint) (perf : PerfCounterRecord) : BenchmarkPoint :=
  { p with
    perfCounters := perf.counters
    perfCountersMain := perf.countersMain
    perfCountersIo := perf.countersIo
    perfDurationSeconds := perf.duration
    perfRps := perf.rps
    perfRepCount := perf.repCount
    perfCountersScope := if perf.scope = .null then p.perfCountersScope else perf.scope }

theorem recordPerfCounters_eq (state : SweepState) (commit : String) (entry : Fields) :
    recordPerfCounters state commit entry =
      match perfCountersFromEntry entry with
      | none => state
      | some perf => state.setPoint commit fun p => p.recordPerf perf :=
  rfl

/-- The two metrics of `PERF_METRICS` that count events for a request. -/
inductive PerRequestMetric where
  | instructionsPerReq
  | cyclesPerReq

def PerRequestMetric.event : PerRequestMetric → String
  | instructionsPerReq => "instructions"
  | cyclesPerReq => "cycles"

/-- A number of a row, zero when it is none. -/
def rationalOf (value : Json) : ℚ :=
  match value.number? with
  | some (.finite q) => q
  | _ => 0

/-- `_effective_perf_reps`. -/
def effectivePerfReps (p : BenchmarkPoint) : Json :=
  (p.perfRepCount.orElse (.int p.reps)).orElse (.int 1)

/-- `_compute_metric_from_counters` for one of the two, before it is rounded. -/
def PerRequestMetric.compute (metric : PerRequestMetric) (counters : Json) (rps duration reps : ℚ) :
    Except PyError (Option ℚ) :=
  if ¬ counters.truthy ∨ rps = 0 ∨ duration = 0 then .ok none
  else
    match counters with
    | .obj fields =>
      let count := Json.getD fields metric.event
      if ¬ count.truthy then .ok none
      else .ok (some (rationalOf count / (rps * duration * (if reps = 0 then 1 else reps))))
    | _ => .error (.attributeError "object has no attribute 'get'")

/-- `_compute_metric`. -/
def computeMetric (p : BenchmarkPoint) (metric : PerRequestMetric) : Except PyError (Option ℚ) :=
  metric.compute p.perfCounters (rationalOf p.perfRps) (rationalOf p.perfDurationSeconds)
    (rationalOf (effectivePerfReps p))

/-- What is exported for a point after a benchmark, from its repetitions. -/
def exported (metric : PerRequestMetric) (duration : ℚ) (scope : String) (p : BenchmarkPoint)
    (reps : List Repetition) : Except PyError (Option ℚ) :=
  match (PerfRun.resultRow duration scope (reps.foldl .collect .start)).bind perfCountersFromEntry with
  | none => .ok none
  | some perf => computeMetric (p.recordPerf perf) metric

/-! ## What it should be -/

/-- A repetition counted an event. -/
def Repetition.Counted (rep : Repetition) (event : String) : Prop := rep.report.all.Has event

instance (rep : Repetition) (event : String) : Decidable (rep.Counted event) :=
  inferInstanceAs (Decidable (rep.report.all.Has event))

/-- The counts of an event, of all repetitions. -/
def totalCount (event : String) (reps : List Repetition) : ℤ :=
  (reps.map fun rep => rep.report.all.get event).sum

/-- The requests that some repetitions served, each in the same time. -/
def requests (duration : ℚ) (reps : List Repetition) : ℚ :=
  (reps.map fun rep => rep.rate * duration).sum

/-- What is exported is the count of the event for a request of the repetitions that
counted it. -/
def PerRequest (metric : PerRequestMetric) (duration : ℚ) (scope : String) (p : BenchmarkPoint)
    (reps : List Repetition) : Prop :=
  ∀ value, exported metric duration scope p reps = .ok (some value) →
    value = totalCount metric.event reps /
      requests duration (reps.filter fun rep => rep.Counted metric.event)

/-- An event has the name of a bucket, and the counters are taken for buckets. -/
def NamesBucket (reps : List Repetition) : Prop :=
  ∃ rep ∈ reps, ∃ bucket ∈ ["all", "main", "io"], rep.Counted bucket

/-! ## Adding counts up -/

namespace Counters

/-- The counts of an event in some rows. -/
def sumOf (event : String) (rows : List (String × ℤ)) : ℤ :=
  (rows.map fun row => if row.1 = event then row.2 else 0).sum

theorem get_add (c : Counters) (row : String × ℤ) (event : String) :
    (c.add row).get event = c.get event + if row.1 = event then row.2 else 0 := by
  unfold add get
  rw [Table.find?_put]
  by_cases h : row.1 = event
  · subst h
    simp
  · rw [if_neg (Ne.symm h), if_neg h, add_zero]

theorem has_add (c : Counters) (row : String × ℤ) (event : String) :
    (c.add row).Has event ↔ c.Has event ∨ row.1 = event := by
  unfold add Has
  rw [Table.find?_put]
  by_cases h : row.1 = event
  · simp [h]
  · simp [Ne.symm h, h]

theorem get_foldl_add (rows : List (String × ℤ)) (c : Counters) (event : String) :
    (rows.foldl add c).get event = c.get event + sumOf event rows := by
  induction rows generalizing c with
  | nil => exact (add_zero _).symm
  | cons row rows ih =>
    rw [List.foldl_cons, ih, get_add, sumOf, sumOf, List.map_cons, List.sum_cons, add_assoc]

theorem has_foldl_add (rows : List (String × ℤ)) (c : Counters) (event : String) :
    (rows.foldl add c).Has event ↔ c.Has event ∨ ∃ row ∈ rows, row.1 = event := by
  induction rows generalizing c with
  | nil => simp
  | cons row rows ih =>
    rw [List.foldl_cons, ih, has_add, List.exists_mem_cons_iff, or_assoc]

/-- No event has two rows. -/
theorem sumOf_rows (c : Counters) (event : String) : sumOf event c.rows = c.get event := by
  have hlist : ∀ rows : List (String × ℤ), (rows.map Prod.fst).Nodup → sumOf event rows =
      ((rows.find? fun row => decide (row.1 = event)).map Prod.snd).getD 0 := by
    intro rows hnodup
    induction rows with
    | nil => rfl
    | cons row rows ih =>
      obtain ⟨hnew, hrest⟩ := List.nodup_cons.mp hnodup
      rw [sumOf, List.map_cons, List.sum_cons, ← sumOf, ih hrest]
      by_cases h : row.1 = event
      · have hnone : rows.find? (fun row => decide (row.1 = event)) = none := by
          refine List.find?_eq_none.mpr fun other hother hsame => hnew ?_
          rw [h, ← of_decide_eq_true hsame]
          exact List.mem_map_of_mem hother
        simp [h, hnone]
      · simp [h]
  exact hlist c.rows c.nodup

theorem has_iff (c : Counters) (event : String) : c.Has event ↔ ∃ row ∈ c.rows, row.1 = event := by
  simp [Has, Table.find?]

/-- Merging adds the counts of two dictionaries. -/
theorem get_merge (c events : Counters) (event : String) :
    (c.merge events).get event = c.get event + events.get event := by
  rw [merge, get_foldl_add, sumOf_rows]

theorem has_merge (c events : Counters) (event : String) :
    (c.merge events).Has event ↔ c.Has event ∨ events.Has event := by
  rw [merge, has_foldl_add, has_iff events]

/-- An event that is not in a dictionary counts for nothing. -/
theorem get_eq_zero {c : Counters} {event : String} (h : ¬ c.Has event) : c.get event = 0 := by
  have hnone : c.find? event = none := by simpa [Has] using h
  rw [get, hnone]
  rfl

theorem rows_of_get {c : Counters} {event : String} (h : c.get event ≠ 0) : c.rows ≠ [] := by
  intro hnil
  refine h (get_eq_zero ?_)
  rw [has_iff, hnil]
  exact fun ⟨_, hmem, _⟩ => List.not_mem_nil hmem

theorem truthy_json (c : Counters) : c.json.truthy = true ↔ c.rows ≠ [] := by
  rw [json, fields]
  cases c.rows <;> simp [Json.truthy]

theorem lookup_fields (c : Counters) (event : String) :
    Json.lookup c.fields event = (c.find? event).map fun row => .int row.2 := by
  rw [Json.lookup, fields, Table.find?, List.find?_map, Option.map_map]
  rfl

/-- `c.get(event)`, as a value and as a number. -/
theorem getD_fields (c : Counters) (event : String) :
    (Json.getD c.fields event = .null ∨ ∃ count, Json.getD c.fields event = .int count) ∧
      ((Json.getD c.fields event).truthy = true ↔ c.get event ≠ 0) ∧
      rationalOf (Json.getD c.fields event) = c.get event := by
  rw [Json.getD, lookup_fields, get]
  cases c.find? event with
  | none => exact ⟨.inl rfl, by simp [Json.truthy], rfl⟩
  | some row => exact ⟨.inr ⟨row.2, rfl⟩, by simp [Json.truthy], rfl⟩

theorem any_fields (c : Counters) (names : List String) :
    (c.fields.any fun f => decide (f.1 ∈ names)) = true ↔ ∃ name ∈ names, c.Has name := by
  simp only [fields, List.any_map, List.any_eq_true, Function.comp_apply, decide_eq_true_eq, has_iff]
  constructor
  · rintro ⟨row, hrow, hname⟩
    exact ⟨row.1, hname, row, hrow, rfl⟩
  · rintro ⟨name, hname, row, hrow, rfl⟩
    exact ⟨row, hrow, hname⟩

end Counters

/-! ## The repetitions of a run -/

/-- Three buckets are a dictionary that is not empty, whatever is in them. -/
theorem truthy_document (b : Buckets) : b.document.truthy = true := rfl

namespace PerfRun

/-- The count of an event so far. -/
def countOf (run : PerfRun) (event : String) : ℤ :=
  (run.perfCounters.map fun b => b.all.get event).getD 0

def Has (run : PerfRun) (event : String) : Prop := ∃ b ∈ run.perfCounters, b.all.Has event

/-- **The step lemma**: a repetition is counted in with what it has. -/
theorem collect_eq (run : PerfRun) (rep : Repetition) :
    (run.collect rep).perRunRps = run.perRunRps ++ [rep.rate] ∧
      (run.collect rep).perfRepCount = run.perfRepCount + 1 ∧
      (∀ event, (run.collect rep).countOf event = run.countOf event + rep.report.all.get event) ∧
      ∀ event, (run.collect rep).Has event ↔ run.Has event ∨ rep.Counted event := by
  unfold collect
  dsimp only
  rw [if_pos (truthy_document rep.report)]
  refine ⟨rfl, rfl, fun event => ?_, fun event => ?_⟩
  · cases hrun : run.perfCounters with
    | none => simp [countOf, hrun]
    | some counters => simp [countOf, hrun, Buckets.merge, Counters.get_merge]
  · cases hrun : run.perfCounters with
    | none => simp [Has, hrun, Repetition.Counted]
    | some counters => simp [Has, hrun, Buckets.merge, Counters.has_merge, Repetition.Counted]

/-- **The run lemma.** -/
theorem foldl_collect (reps : List Repetition) (run : PerfRun) :
    (reps.foldl collect run).perRunRps = run.perRunRps ++ reps.map Repetition.rate ∧
      (reps.foldl collect run).perfRepCount = run.perfRepCount + reps.length ∧
      (∀ event, (reps.foldl collect run).countOf event = run.countOf event + totalCount event reps) ∧
      ∀ event, (reps.foldl collect run).Has event ↔
        run.Has event ∨ ∃ rep ∈ reps, rep.Counted event := by
  induction reps generalizing run with
  | nil => simp [totalCount]
  | cons rep reps ih =>
    obtain ⟨hrates, hcount, htotal, hhas⟩ := run.collect_eq rep
    obtain ⟨ihrates, ihcount, ihtotal, ihhas⟩ := ih (run.collect rep)
    rw [List.foldl_cons]
    refine ⟨?_, ?_, fun event => ?_, fun event => ?_⟩
    · rw [ihrates, hrates, List.append_assoc]
      rfl
    · rw [ihcount, hcount, List.length_cons]
      omega
    · rw [ihtotal, htotal, totalCount, totalCount, List.map_cons, List.sum_cons, add_assoc]
    · rw [ihhas, hhas, List.exists_mem_cons_iff, or_assoc]

/-! ## What the exporter is given -/

section Row

variable {run : PerfRun} {b : Buckets} {duration : ℚ} {scope : String}

theorem lookup_rateFields {key : String} (h : key ∉ ["per_run_rps", "mean_rps", "avg_rps"]) :
    Json.lookup run.rateFields key = none := by
  simp only [List.mem_cons, List.not_mem_nil, or_false, not_or] at h
  unfold rateFields
  split <;> simp [Json.lookup, Ne.symm h.1, Ne.symm h.2.1, Ne.symm h.2.2]

theorem lookup_mean_rps :
    Json.lookup (run.data duration scope) "mean_rps" =
      if 1 < run.perRunRps.length then some (.float (.finite run.meanRps)) else none := by
  have hstored : ∀ b, Json.lookup (run.storePerfCounters duration scope b) "mean_rps" = none := by
    intro b
    unfold storePerfCounters
    split_ifs <;> simp [Json.lookup]
  have hrates : Json.lookup run.rateFields "mean_rps" =
      if 1 < run.perRunRps.length then some (.float (.finite run.meanRps)) else none := by
    unfold rateFields
    split_ifs <;> simp [Json.lookup]
  rw [data, Json.lookup_append, hrates]
  cases run.perfCounters with
  | none => exact Option.or_none
  | some b => rw [hstored, Option.or_none]

/-- The stored counters, when an event was counted. -/
theorem lookup_counted (hcounters : run.perfCounters = some b) (hrows : b.all.rows ≠ []) :
    Json.lookup (run.data duration scope) "perf_counters" = some b.all.json ∧
      Json.lookup (run.data duration scope) "perf_duration_seconds" =
        some (.float (.finite duration)) ∧
      Json.lookup (run.data duration scope) "perf_rep_count" =
        some (.int (if run.perfRepCount = 0 then 1 else run.perfRepCount)) := by
  refine ⟨?_, ?_, ?_⟩ <;>
  · rw [data, Json.lookup_append, lookup_rateFields (by decide), Option.none_or, hcounters]
    dsimp only
    rw [storePerfCounters, if_pos hrows]
    split_ifs <;> simp [Json.lookup]

/-- Nothing is stored when no event was counted. -/
theorem lookup_uncounted (hnone : ∀ b ∈ run.perfCounters, b.all.rows = []) :
    Json.lookup (run.data duration scope) "perf_counters" = none := by
  rw [data, Json.lookup_append, lookup_rateFields (by decide), Option.none_or]
  cases hcounters : run.perfCounters with
  | none => rfl
  | some b =>
    dsimp only
    rw [storePerfCounters, if_neg (not_not.mpr (hnone b hcounters))]
    split_ifs <;> simp [Json.lookup]

/-- The counters of a row that has some, whichever of the two shapes they are in. -/
def countersOf (entry : Fields) : Json :=
  let raw := Json.getD (dataOf entry) "perf_counters"
  if (fieldsOf raw).any fun f => decide (f.1 ∈ ["all", "main", "io"]) then
    (Json.getD (fieldsOf raw) "all").orElse (.obj [])
  else raw

/-- **What `perf_counters_from_entry` reads**: the counters, the time, the rate and how many
repetitions they are of. -/
theorem fromEntry_some {entry : Fields} {perf : PerfCounterRecord}
    (h : perfCountersFromEntry entry = some perf) :
    (Json.getD (dataOf entry) "perf_counters").truthy = true ∧
      perf.counters = countersOf entry ∧
      perf.duration = (Json.lookup (dataOf entry) "perf_duration_seconds").getD (.float (.finite 0)) ∧
      perf.rps = (Json.getD (dataOf entry) "mean_rps").orElse
        ((Json.lookup entry "score").getD (.float (.finite 0))) ∧
      perf.repCount = Json.getD (dataOf entry) "perf_rep_count" := by
  by_cases hnone : ¬ (Json.getD (dataOf entry) "perf_counters").truthy ∨ ¬ (countersOf entry).truthy
  · have habsent : none = some perf := (if_pos hnone).symm.trans h
    cases habsent
  · have hperf := (if_neg hnone).symm.trans h
    cases hperf
    rw [not_or, not_not] at hnone
    exact ⟨hnone.1, rfl, rfl, rfl, rfl⟩

theorem fromEntry_of_truthy {entry : Fields}
    (hraw : (Json.getD (dataOf entry) "perf_counters").truthy = true)
    (hcounters : (countersOf entry).truthy = true) :
    ∃ perf, perfCountersFromEntry entry = some perf := by
  exact ⟨_, if_neg (not_or.mpr ⟨not_not.mpr hraw, not_not.mpr hcounters⟩)⟩

/-- Without a counted event there is nothing to record. -/
theorem fromEntry_uncounted (hnone : ∀ b ∈ run.perfCounters, b.all.rows = []) :
    perfCountersFromEntry (run.row duration scope) = none := by
  have hraw : Json.getD (dataOf (run.row duration scope)) "perf_counters" = .null := by
    show Json.getD (run.data duration scope) "perf_counters" = .null
    rw [Json.getD, lookup_uncounted hnone]
    rfl
  rcases hperf : perfCountersFromEntry (run.row duration scope) with _ | perf
  · rfl
  · have htruthy := (fromEntry_some hperf).1
    rw [hraw] at htruthy
    cases htruthy

/-- The counters as they are stored. -/
theorem raw_row (hcounters : run.perfCounters = some b) (hrows : b.all.rows ≠ []) :
    Json.getD (dataOf (run.row duration scope)) "perf_counters" = .obj b.all.fields := by
  show Json.getD (run.data duration scope) "perf_counters" = _
  rw [Json.getD, (lookup_counted hcounters hrows).1]
  rfl

/-- Counters that name a bucket are read as a number, or as no counters at all. -/
theorem countersOf_named (hcounters : run.perfCounters = some b) (hrows : b.all.rows ≠ [])
    (hnamed : ∃ name ∈ ["all", "main", "io"], b.all.Has name) :
    countersOf (run.row duration scope) = .obj [] ∨
      ∃ count, countersOf (run.row duration scope) = .int count := by
  have hany : ((fieldsOf (.obj b.all.fields)).any fun f => decide (f.1 ∈ ["all", "main", "io"])) =
      true := (b.all.any_fields _).mpr hnamed
  rw [countersOf, raw_row hcounters hrows, if_pos hany]
  show (Json.getD b.all.fields "all").orElse (.obj []) = .obj [] ∨
    ∃ count, (Json.getD b.all.fields "all").orElse (.obj []) = .int count
  rw [Json.orElse]
  rcases (b.all.getD_fields "all").1 with hnull | ⟨count, hcount⟩
  · rw [hnull]
    exact .inl rfl
  · rw [hcount]
    split
    · exact .inr ⟨count, rfl⟩
    · exact .inl rfl

/-- Counters that name none are read as they are. -/
theorem countersOf_unnamed (hcounters : run.perfCounters = some b) (hrows : b.all.rows ≠ [])
    (hunnamed : ¬ ∃ name ∈ ["all", "main", "io"], b.all.Has name) :
    countersOf (run.row duration scope) = b.all.json := by
  have hany : ¬ ((fieldsOf (.obj b.all.fields)).any fun f => decide (f.1 ∈ ["all", "main", "io"])) =
      true := fun h => hunnamed ((b.all.any_fields _).mp h)
  rw [countersOf, raw_row hcounters hrows, if_neg hany]
  rfl

/-- The rate a row is read with is the mean of the rates. -/
theorem rps_row {perf : PerfCounterRecord}
    (h : perfCountersFromEntry (run.row duration scope) = some perf) :
    rationalOf perf.rps = run.meanRps := by
  have hscore : Json.lookup (run.row duration scope) "score" = some (.float (.finite run.meanRps)) :=
    rfl
  have hmean : Json.getD (dataOf (run.row duration scope)) "mean_rps" =
      if 1 < run.perRunRps.length then .float (.finite run.meanRps) else .null := by
    show Json.getD (run.data duration scope) "mean_rps" = _
    rw [Json.getD, lookup_mean_rps]
    split <;> rfl
  rw [(fromEntry_some h).2.2.2.1, hscore, hmean]
  split
  · unfold Json.orElse
    split <;> rfl
  · rfl

/-- A record with what the run has: its counters, the mean of its rates, its time and how many
repetitions there were. -/
structure Records (run : PerfRun) (duration : ℚ) (b : Buckets) (perf : PerfCounterRecord) : Prop where
  counters : perf.counters = b.all.json
  rps      : rationalOf perf.rps = run.meanRps
  duration : rationalOf perf.duration = duration
  repCount : perf.repCount = .int run.perfRepCount

/-- The record that is read from a row whose counters name no bucket. -/
theorem record_row (hcount : run.perfRepCount ≠ 0) (hcounters : run.perfCounters = some b)
    (hrows : b.all.rows ≠ []) (hunnamed : ¬ ∃ name ∈ ["all", "main", "io"], b.all.Has name) :
    ∃ perf, perfCountersFromEntry (run.row duration scope) = some perf ∧
      run.Records duration b perf := by
  have hcountersOf : countersOf (run.row duration scope) = b.all.json :=
    countersOf_unnamed hcounters hrows hunnamed
  obtain ⟨-, htime, hreps⟩ := @lookup_counted run b duration scope hcounters hrows
  have hraw : (Json.getD (dataOf (run.row duration scope)) "perf_counters").truthy = true := by
    rw [raw_row hcounters hrows]
    exact b.all.truthy_json.mpr hrows
  have hsome : (countersOf (run.row duration scope)).truthy = true := by
    rw [hcountersOf]
    exact b.all.truthy_json.mpr hrows
  obtain ⟨perf, hperf⟩ := fromEntry_of_truthy hraw hsome
  obtain ⟨-, hread, hduration, -, hrepCount⟩ := fromEntry_some hperf
  refine ⟨perf, hperf, hread.trans hcountersOf, rps_row hperf, ?_, ?_⟩
  · rw [hduration]
    show rationalOf ((Json.lookup (run.data duration scope) "perf_duration_seconds").getD _) = _
    rw [htime]
    rfl
  · rw [hrepCount]
    show Json.getD (run.data duration scope) "perf_rep_count" = _
    rw [Json.getD, hreps, if_neg hcount]
    rfl

end Row

end PerfRun

/-! ## What is exported -/

/-- The metric of counters that are a dictionary. -/
theorem PerRequestMetric.compute_json {metric : PerRequestMetric} {c : Counters} {rps duration : ℚ}
    {reps : ℕ} (hreps : reps ≠ 0) {value : ℚ} :
    metric.compute c.json rps duration reps = .ok (some value) ↔
      c.get metric.event ≠ 0 ∧ rps ≠ 0 ∧ duration ≠ 0 ∧
        value = c.get metric.event / (rps * duration * reps) := by
  obtain ⟨-, htruthy, hrational⟩ := c.getD_fields metric.event
  have hreps' : (reps : ℚ) ≠ 0 := Nat.cast_ne_zero.mpr hreps
  have hcompute : metric.compute c.json rps duration reps =
      if ¬ c.json.truthy ∨ rps = 0 ∨ duration = 0 then .ok none
      else if ¬ (Json.getD c.fields metric.event).truthy then .ok none
      else .ok (some (rationalOf (Json.getD c.fields metric.event) /
        (rps * duration * if (reps : ℚ) = 0 then (1 : ℚ) else (reps : ℚ)))) := rfl
  rw [hcompute, hrational, if_neg hreps']
  by_cases hcount : c.get metric.event = 0
  · have hfalse : ¬ (Json.getD c.fields metric.event).truthy = true :=
      fun h => htruthy.mp h hcount
    rw [if_pos hfalse, ite_self]
    exact iff_of_false (by simp) fun h => h.1 hcount
  · have hsome : c.json.truthy = true := c.truthy_json.mpr (Counters.rows_of_get hcount)
    rw [if_neg (not_not.mpr (htruthy.mpr hcount))]
    by_cases hzero : rps = 0 ∨ duration = 0
    · rw [if_pos (.inr hzero)]
      exact iff_of_false (by simp) fun h => hzero.elim h.2.1 h.2.2.1
    · rw [if_neg (not_or.mpr ⟨not_not.mpr hsome, hzero⟩)]
      obtain ⟨hrps, hduration⟩ := not_or.mp hzero
      simp only [Except.ok.injEq, Option.some.injEq]
      exact ⟨fun h => ⟨hcount, hrps, hduration, h.symm⟩, fun h => h.2.2.2.symm⟩

/-- There is no metric of counters that were taken for buckets. -/
theorem PerRequestMetric.compute_named {metric : PerRequestMetric} {counters : Json}
    {rps duration reps value : ℚ} (h : counters = .obj [] ∨ ∃ count, counters = .int count) :
    metric.compute counters rps duration reps ≠ .ok (some value) := by
  unfold compute
  rcases h with rfl | ⟨count, rfl⟩
  · rw [if_pos (.inl (by decide))]
    simp
  · split <;> simp

/-- The metric of a point with a run's record. -/
theorem computeMetric_recordPerf {metric : PerRequestMetric} {duration : ℚ} {p : BenchmarkPoint}
    {run : PerfRun} {b : Buckets} {perf : PerfCounterRecord} (hcount : run.perfRepCount ≠ 0)
    (h : run.Records duration b perf) :
    computeMetric (p.recordPerf perf) metric =
      metric.compute b.all.json run.meanRps duration run.perfRepCount := by
  have htruthy : (Json.int run.perfRepCount).truthy = true := by
    simpa [Json.truthy] using hcount
  have hreps : rationalOf (effectivePerfReps (p.recordPerf perf)) = run.perfRepCount := by
    show rationalOf ((perf.repCount.orElse _).orElse _) = _
    rw [h.repCount, Json.orElse, Json.orElse, if_pos htruthy, if_pos htruthy]
    rfl
  rw [computeMetric, hreps]
  show metric.compute perf.counters (rationalOf perf.rps) (rationalOf perf.duration) _ = _
  rw [h.counters, h.rps, h.duration]

/-- What a run's row is exported as: the count for a request of all repetitions. -/
theorem exported_run {metric : PerRequestMetric} {duration : ℚ} {scope : String}
    {p : BenchmarkPoint} {run : PerfRun} {value : ℚ} (hcount : run.perfRepCount ≠ 0) :
    (match (run.resultRow duration scope).bind perfCountersFromEntry with
      | none => Except.ok none
      | some perf => computeMetric (p.recordPerf perf) metric) = .ok (some value) ↔
    (¬ ∃ name ∈ ["all", "main", "io"], run.Has name) ∧ run.countOf metric.event ≠ 0 ∧
      run.meanRps ≠ 0 ∧ duration ≠ 0 ∧
      value = run.countOf metric.event / (run.meanRps * duration * run.perfRepCount) := by
  -- without a repetition there is no row
  by_cases hrates : run.perRunRps = []
  · have hmean : run.meanRps = 0 := by simp [PerfRun.meanRps, hrates]
    rw [PerfRun.resultRow, if_pos hrates]
    exact iff_of_false (by simp) fun h => h.2.2.1 hmean
  rw [PerfRun.resultRow, if_neg hrates, Option.bind_some]
  by_cases hnone : ∀ b ∈ run.perfCounters, b.all.rows = []
  · have hzero : run.countOf metric.event = 0 := by
      cases hcounters : run.perfCounters with
      | none => simp [PerfRun.countOf, hcounters]
      | some b =>
        have hget : b.all.get metric.event = 0 :=
          not_not.mp fun h => Counters.rows_of_get h (hnone b hcounters)
        simp [PerfRun.countOf, hcounters, hget]
    rw [PerfRun.fromEntry_uncounted hnone]
    exact iff_of_false (by simp) fun h => h.2.1 hzero
  · obtain ⟨b, hcounters, hrows⟩ : ∃ b, run.perfCounters = some b ∧ b.all.rows ≠ [] := by
      simpa using hnone
    have hhas : ∀ name, run.Has name ↔ b.all.Has name := by
      intro name
      simp [PerfRun.Has, hcounters]
    have hget : run.countOf metric.event = b.all.get metric.event := by
      simp [PerfRun.countOf, hcounters]
    simp only [hhas, hget]
    by_cases hnamed : ∃ name ∈ ["all", "main", "io"], b.all.Has name
    · -- the counters are taken for buckets
      refine iff_of_false (fun h => ?_) fun h => h.1 hnamed
      rcases hperf : perfCountersFromEntry (run.row duration scope) with _ | perf
      · rw [hperf] at h
        cases h
      · rw [hperf] at h
        dsimp only [computeMetric, BenchmarkPoint.recordPerf] at h
        rw [(PerfRun.fromEntry_some hperf).2.1] at h
        exact metric.compute_named (PerfRun.countersOf_named hcounters hrows hnamed) h
    · obtain ⟨perf, hperf, hrecord⟩ := PerfRun.record_row hcount hcounters hrows hnamed
      rw [hperf]
      show computeMetric (p.recordPerf perf) metric = _ ↔ _
      rw [computeMetric_recordPerf hcount hrecord, PerRequestMetric.compute_json hcount]
      exact ⟨fun h => ⟨hnamed, h⟩, fun h => h.2⟩

/-- The requests of all repetitions, from the mean of the rates. -/
theorem requests_eq (duration : ℚ) (reps : List Repetition) :
    requests duration reps = (reps.map Repetition.rate).sum * duration := by
  unfold requests
  exact List.sum_map_mul_right ..

/-- **What is exported**: the count of the event for a request of all repetitions, unless an
event has the name of a bucket, nothing was counted or no requests were served. -/
theorem exported_iff {metric : PerRequestMetric} {duration : ℚ} {scope : String}
    {p : BenchmarkPoint} {reps : List Repetition} {value : ℚ} :
    exported metric duration scope p reps = .ok (some value) ↔
      ¬ NamesBucket reps ∧ totalCount metric.event reps ≠ 0 ∧ requests duration reps ≠ 0 ∧
        value = totalCount metric.event reps / requests duration reps := by
  obtain ⟨hrates, hcount, htotal, hhas⟩ := PerfRun.foldl_collect reps .start
  -- the fold over the repetitions says what the run has, and the row of a run what is exported
  by_cases hempty : reps = []
  · subst hempty
    exact iff_of_false (by simp [exported, PerfRun.resultRow, PerfRun.start]) fun h => h.2.1 rfl
  · have hlength : reps.length ≠ 0 := mt List.length_eq_zero_iff.mp hempty
    have hcount' : (reps.foldl PerfRun.collect .start).perfRepCount = reps.length :=
      hcount.trans (Nat.zero_add _)
    have htotal' : (reps.foldl PerfRun.collect .start).countOf metric.event =
        totalCount metric.event reps := (htotal _).trans (zero_add _)
    have hnamed : (∃ name ∈ ["all", "main", "io"], (reps.foldl PerfRun.collect .start).Has name) ↔
        NamesBucket reps := by
      have hstart : ∀ name, ¬ PerfRun.start.Has name := fun _ ⟨_, hb, _⟩ => by cases hb
      simp only [hhas, hstart, false_or, NamesBucket]
      exact ⟨fun ⟨name, hname, rep, hrep, h⟩ => ⟨rep, hrep, name, hname, h⟩,
        fun ⟨rep, hrep, name, hname, h⟩ => ⟨name, hname, rep, hrep, h⟩⟩
    have hlength' : (reps.length : ℚ) ≠ 0 := Nat.cast_ne_zero.mpr hlength
    have hserved : (reps.foldl PerfRun.collect .start).meanRps * duration * reps.length =
        requests duration reps := by
      rw [PerfRun.meanRps, hrates, requests_eq]
      show (reps.map Repetition.rate).sum / (reps.map Repetition.rate).length * duration *
        reps.length = _
      rw [List.length_map]
      field_simp
    unfold exported
    rw [exported_run (by rw [hcount']; exact hlength), hnamed, htotal', hcount', hserved, ← hserved]
    simp only [ne_eq, mul_eq_zero, hlength', or_false, not_or, and_assoc]

/-- The requests are those of the repetitions that counted an event and of the others. -/
theorem requests_split (duration : ℚ) (reps : List Repetition) (event : String) :
    requests duration reps = requests duration (reps.filter fun rep => rep.Counted event) +
      requests duration (reps.filter fun rep => ¬ rep.Counted event) := by
  unfold requests
  induction reps with
  | nil => exact (add_zero _).symm
  | cons rep reps ih =>
    rw [List.map_cons, List.sum_cons, ih]
    -- each repetition is on one side
    by_cases h : rep.Counted event
    · simp only [List.filter_cons, h, decide_true, if_true, not_true_eq_false, decide_false,
        Bool.false_eq_true, if_false, List.map_cons, List.sum_cons]
      exact (add_assoc _ _ _).symm
    · simp only [List.filter_cons, h, decide_false, Bool.false_eq_true, if_false, not_false_eq_true,
        decide_true, if_true, List.map_cons, List.sum_cons]
      exact add_left_comm _ _ _

/-- **The exported value is the count for a request of the repetitions that counted the
event, if and only if nothing is exported (an event has the name of a bucket, nothing was
counted, or no requests were served), or the other repetitions served no requests.** -/
theorem per_request_iff (metric : PerRequestMetric) (duration : ℚ) (scope : String)
    (p : BenchmarkPoint) (reps : List Repetition) :
    PerRequest metric duration scope p reps ↔
      NamesBucket reps ∨ totalCount metric.event reps = 0 ∨ requests duration reps = 0 ∨
        requests duration (reps.filter fun rep => ¬ rep.Counted metric.event) = 0 := by
  have hsplit := requests_split duration reps metric.event
  constructor
  · intro h
    by_contra hnot
    simp only [not_or] at hnot
    obtain ⟨hnamed, htotal, hserved, hothers⟩ := hnot
    have hvalue := h _ (exported_iff.mpr ⟨hnamed, htotal, hserved, rfl⟩)
    have htotal' : (totalCount metric.event reps : ℚ) ≠ 0 := Int.cast_ne_zero.mpr htotal
    -- a count that is not zero, for the same number of requests
    rw [div_eq_mul_inv, div_eq_mul_inv] at hvalue
    have hsame := inv_inj.mp ((mul_right_inj' htotal').mp hvalue)
    rw [hsplit] at hsame
    exact hothers (add_eq_left.mp hsame)
  · rintro h value hvalue
    obtain ⟨hnamed, htotal, hserved, rfl⟩ := exported_iff.mp hvalue
    rcases h with h | h | h | h
    · exact absurd h hnamed
    · exact absurd h htotal
    · exact absurd h hserved
    · rw [hsplit, h, add_zero]

/-! ### A file that is missing -/

/-- A repetition at 100 requests a second. -/
def measured (file : Option String) : Repetition := ⟨file, some "2770433", [], 100⟩

def oneCount : String := "valkey-server-2770433  1,000,000  instructions:u  #  0.98 insn per cycle\n"

def onePoint : BenchmarkPoint where
  commit := "8f5a1b2c"
  date   := "2026-03-01"

/-- A million instructions for the thousand requests of the one repetition that counted them:
with a second repetition, whose file is missing, the value is half of that. -/
theorem missing_file_halves :
    exported .instructionsPerReq 10 "user" onePoint [measured (some oneCount), measured none] =
        .ok (some 500) ∧
      ¬ PerRequest .instructionsPerReq 10 "user" onePoint
        [measured (some oneCount), measured none] := by
  let metric : PerRequestMetric := .instructionsPerReq
  have htotal : totalCount metric.event [measured (some oneCount), measured none] = 1000000 := by
    decide +kernel
  have hnamed : ¬ NamesBucket [measured (some oneCount), measured none] := by
    have hnone : ∀ rep ∈ [measured (some oneCount), measured none],
        ∀ bucket ∈ ["all", "main", "io"], ¬ rep.Counted bucket := by decide +kernel
    rintro ⟨rep, hrep, bucket, hbucket, h⟩
    exact hnone rep hrep bucket hbucket h
  have hall : requests 10 [measured (some oneCount), measured none] = 2000 := by decide +kernel
  have hcounted : requests 10 ([measured (some oneCount), measured none].filter fun rep =>
      rep.Counted metric.event) = 1000 := by decide +kernel
  have hvalue : exported metric 10 "user" onePoint [measured (some oneCount), measured none] =
      .ok (some 500) := by
    refine exported_iff.mpr ⟨hnamed, ?_, ?_, ?_⟩
    · rw [htotal]
      decide
    · rw [hall]
      decide +kernel
    · rw [htotal, hall]
      decide +kernel
  refine ⟨hvalue, fun h => ?_⟩
  have hhalf := h 500 hvalue
  rw [htotal, hcounted] at hhalf
  exact absurd hhalf (by decide +kernel)

end Conductress.Sweep
