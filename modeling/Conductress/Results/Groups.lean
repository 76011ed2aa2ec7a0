import Conductress.Results.Analysis
import Conductress.Base.NumberText
import Mathlib.Data.List.ReduceOption

/-!
# Comparison groups

`_extract_group_key` and `group_results`: the records of two specifiers are put
into groups by a key rebuilt from the fields of each record, and the samples of
a group are compared as one workload.

The writers record more of a workload than the key reads. `samples_groupResults`
says what a group holds; `groups_faithful_iff` says which runs may share one
without their workloads being the same.
-/

namespace Conductress.Results

open Conductress.Lib

/-! ## The key -/

structure GroupKey where
  method    : Json
  size      : Json
  keySize   : Json
  ioThreads : Json
  pipeline  : Json
  variant   : String
  makeArgs  : Json
  deriving DecidableEq

/-- `text.startswith(prefix)`. -/
def startsWith (text start : String) : Bool := start.toList.isPrefixOf text.toList

section Key

variable (str : ValueText)

/-- The shape of a mixed run. -/
def mixedVariant (data : Fields) : String :=
  let warmupApplied := if (getOr data "warmup_applied" (.bool false)).truthy then "1" else "0"
  "w" ++ str.text (getOr data "warmup" (.int 0)) ++ "-wa" ++ warmupApplied ++
    "-t" ++ str.text (getOr data "threads" (.int 0)) ++
    "-c" ++ str.text (getOr data "clients" (.int 0))

/-- The rate limit and the scored quantity, where they are not the defaults. -/
def cachecannonVariant (data : Fields) : Except PyError String := do
  let rateLimit ← ((getOr data "rate_limit" (.int 0)).orElse (.int 0)).pyInt
  let scoreMetric := getOr data "score_metric" (.str "throughput")
  return "-".intercalate
    ((if 0 < rateLimit then ["r" ++ toString rateLimit] else []) ++
      (if scoreMetric ≠ .str "throughput" then [str.text scoreMetric] else []))

/-- What tells apart records of one method and size. -/
def variantOf (method : String) (data : Fields) : Except PyError String :=
  if startsWith method "perf-mixed-" then .ok (mixedVariant str data)
  else if startsWith method "cachecannon-" then cachecannonVariant str data
  else .ok ""

/-- `_extract_group_key`. -/
def extractGroupKey (record : Fields) : Except PyError GroupKey := do
  let data ← dataOf record
  let method := getOr record "method" (.str "")
  let variant ←
    match method with
    | .str name => variantOf str name data
    | _ => .error (.attributeError "object has no attribute 'startswith'")
  return {
    method
    size      := getOr data "size" (.int 0)
    keySize   := getOr data "key_size" (.int 0)
    ioThreads := getOr data "io-threads" (.int 0)
    pipeline  := getOr data "pipeline" (.int 0)
    variant
    makeArgs  := getOr record "make_args" (.str "") }

/-! ## The loop -/

/-- The two sides of a comparison. -/
structure Sides where
  specifierA : String
  specifierB : String
  sourceA    : Option String
  sourceB    : Option String

/-- `_side_matches`. -/
def sideMatches (specifier source : Json) (sideSpecifier : String)
    (sideSource : Option String) : Bool :=
  decide (specifier = .str sideSpecifier) && sideSource.all fun s => decide (source = .str s)

inductive Side where
  | a
  | b
  deriving DecidableEq

/-- Where a record goes. -/
structure Placement where
  key     : GroupKey
  side    : Side
  source  : Json
  samples : List Json

/-- One pass of the loop, up to the group: `none` for a record passed over. -/
def place (q : Sides) (record : Fields) : Except PyError (Option Placement) := do
  let specifier := getOr record "specifier" (.str "")
  let source := getOr record "source" (.str "")
  let matchesA := sideMatches specifier source q.specifierA q.sourceA
  let matchesB := sideMatches specifier source q.specifierB q.sourceB
  if !matchesA && !matchesB then return none
  let samples ← extractSamples record
  if samples.isEmpty then return none
  let key ← extractGroupKey str record
  return some { key, side := if matchesA then .a else .b, source, samples }

end Key

structure Group where
  key : GroupKey
  a   : List Json
  b   : List Json

def Group.samples (g : Group) : Side → List Json
  | .a => g.a
  | .b => g.b

/-- `groups[key][side].extend(samples)`. -/
def Group.extend (g : Group) : Side → List Json → Group
  | .a, samples => { g with a := g.a ++ samples }
  | .b, samples => { g with b := g.b ++ samples }

/-- How many samples a source gave to a side. -/
structure SourceCount where
  side   : Side
  source : Json
  count  : Nat

def SourceCount.key (c : SourceCount) : Side × Json := (c.side, c.source)

structure Grouping where
  groups       : Table Group.key
  sourceCounts : Table SourceCount.key

namespace Grouping

def empty : Grouping := ⟨.empty, .empty⟩

/-- `groups[key]`, made when it is missing. -/
def groupAt (g : Grouping) (key : GroupKey) : Group := (g.groups.find? key).getD ⟨key, [], []⟩

def countAt (g : Grouping) (side : Side) (source : Json) : Nat :=
  ((g.sourceCounts.find? (side, source)).map SourceCount.count).getD 0

/-- A record that is not passed over. -/
def add (g : Grouping) (p : Placement) : Grouping where
  groups       := g.groups.put ((g.groupAt p.key).extend p.side p.samples)
  sourceCounts := g.sourceCounts.put
    ⟨p.side, p.source, g.countAt p.side p.source + p.samples.length⟩

/-- The samples of one side of a group. -/
def samples (g : Grouping) (key : GroupKey) (side : Side) : List Json :=
  (g.groupAt key).samples side

end Grouping

/-- The rest of a pass. -/
def Grouping.take (g : Grouping) : Option Placement → Grouping
  | none => g
  | some p => g.add p

/-- `group_results`. -/
def groupResults (str : ValueText) (q : Sides) (records : List Fields) :
    Except PyError Grouping :=
  records.foldlM (fun g record => (place str q record).map g.take) .empty

/-! ## What a group holds -/

@[simp] theorem Group.extend_key (g : Group) (side : Side) (samples : List Json) :
    (g.extend side samples).key = g.key := by
  cases side <;> rfl

theorem Group.samples_extend (g : Group) (side s : Side) (samples : List Json) :
    (g.extend side samples).samples s =
      g.samples s ++ if side = s then samples else [] := by
  cases side <;> cases s <;> simp [extend, Group.samples]

namespace Grouping

@[simp] theorem groupAt_key (g : Grouping) (key : GroupKey) : (g.groupAt key).key = key := by
  unfold groupAt
  cases hfind : g.groups.find? key with
  | none => rfl
  | some group => exact (Table.find?_eq_some_iff.mp hfind).2

theorem find?_add (g : Grouping) (p : Placement) (key : GroupKey) :
    (g.add p).groups.find? key =
      if key = p.key then some ((g.groupAt p.key).extend p.side p.samples)
      else g.groups.find? key := by
  rw [add, Table.find?_put]
  simp

/-- A placement adds its samples to one side of one group. -/
theorem samples_add (g : Grouping) (p : Placement) (key : GroupKey) (side : Side) :
    (g.add p).samples key side =
      g.samples key side ++ if p.key = key ∧ p.side = side then p.samples else [] := by
  unfold samples
  by_cases hkey : key = p.key
  · subst hkey
    have hgroup : (g.add p).groupAt p.key = (g.groupAt p.key).extend p.side p.samples := by
      rw [groupAt, find?_add, if_pos rfl, Option.getD_some]
    rw [hgroup, Group.samples_extend]
    simp
  · have hgroup : (g.add p).groupAt key = g.groupAt key := by
      rw [groupAt, find?_add, if_neg hkey]
      rfl
    rw [hgroup, if_neg (fun h => hkey h.1.symm), List.append_nil]

/-- The placements that go to one side of one group. -/
def goesTo (key : GroupKey) (side : Side) (p : Placement) : Bool :=
  decide (p.key = key ∧ p.side = side)

theorem samples_foldl (ps : List Placement) (g : Grouping) (key : GroupKey) (side : Side) :
    (ps.foldl add g).samples key side =
      g.samples key side ++ (ps.filter (goesTo key side)).flatMap Placement.samples := by
  induction ps generalizing g with
  | nil => simp
  | cons p ps ih =>
    rw [List.foldl_cons, ih, samples_add, List.append_assoc]
    congr 1
    by_cases hp : p.key = key ∧ p.side = side
    · rw [if_pos hp, List.filter_cons_of_pos (by simpa [goesTo] using hp), List.flatMap_cons]
    · rw [if_neg hp, List.filter_cons_of_neg (by simpa [goesTo] using hp), List.nil_append]

/-- The groups are those some record was placed in. -/
theorem mem_groups_foldl (ps : List Placement) (g : Grouping) (key : GroupKey) :
    (∃ group ∈ (ps.foldl add g).groups, group.key = key) ↔
      (∃ group ∈ g.groups, group.key = key) ∨ ∃ p ∈ ps, p.key = key := by
  induction ps generalizing g with
  | nil => simp
  | cons p ps ih =>
    rw [List.foldl_cons, ih]
    have hadd : (∃ group ∈ (g.add p).groups, group.key = key) ↔
        (∃ group ∈ g.groups, group.key = key) ∨ p.key = key := by
      constructor
      · rintro ⟨group, hmem, rfl⟩
        have hfind := Table.find?_key hmem
        rw [find?_add] at hfind
        by_cases hkey : group.key = p.key
        · exact .inr hkey.symm
        · rw [if_neg hkey] at hfind
          exact .inl ⟨group, (Table.find?_eq_some_iff.mp hfind).1, rfl⟩
      · intro h
        by_cases hkey : key = p.key
        · have hfind := find?_add g p key
          rw [if_pos hkey] at hfind
          exact ⟨_, (Table.find?_eq_some_iff.mp hfind)⟩
        · rcases h with ⟨group, hmem, rfl⟩ | h
          · have hfind := find?_add g p group.key
            rw [if_neg hkey, Table.find?_key hmem] at hfind
            exact ⟨group, Table.find?_eq_some_iff.mp hfind⟩
          · exact absurd h.symm hkey
    rw [hadd, List.exists_mem_cons_iff, or_assoc]

end Grouping

section Loop

variable {str : ValueText} {q : Sides}

/-- The loop places every record and takes the placements in order. -/
theorem groupResults_ok {records : List Fields} {out : Grouping} :
    groupResults str q records = .ok out ↔
      ∃ placements, records.mapM (place str q) = .ok placements ∧
        placements.foldl Grouping.take .empty = out :=
  except_foldlM_map

theorem Grouping.foldl_take (placements : List (Option Placement)) (g : Grouping) :
    placements.foldl Grouping.take g = placements.reduceOption.foldl Grouping.add g := by
  induction placements generalizing g with
  | nil => rfl
  | cons placed placements ih =>
    rw [List.foldl_cons, ih]
    cases placed with
    | none => rw [List.reduceOption_cons_of_none, Grouping.take]
    | some p => rw [List.reduceOption_cons_of_some, List.foldl_cons, Grouping.take]

end Loop

/-! ## The key of a run -/

/-- What the key reads of a run; what a record has no field for reads as zero. -/
structure Compared where
  method      : String
  valSize     : Int
  keySize     : Int
  ioThreads   : Int
  pipelining  : Int
  rateLimit   : Nat
  scoreMetric : ScoreMetric
  makeArgs    : String
  deriving DecidableEq

namespace Compared

def variant (c : Compared) : String :=
  "-".intercalate ((if 0 < c.rateLimit then ["r" ++ toString c.rateLimit] else []) ++
    (if c.scoreMetric ≠ .throughput then [c.scoreMetric.text] else []))

def key (c : Compared) : GroupKey where
  method    := .str c.method
  size      := .int c.valSize
  keySize   := .int c.keySize
  ioThreads := .int c.ioThreads
  pipeline  := .int c.pipelining
  variant   := c.variant
  makeArgs  := .str c.makeArgs

/-- A decimal has no separator in it. -/
theorem dash_notMem_toDigits (n : Nat) : '-' ∉ Nat.toDigits 10 n := by
  intro h
  have hdigit : ('-').isDigit = true :=
    Nat.isDigit_of_mem_toDigits (by decide) (by decide) h
  exact absurd hdigit (by decide)

theorem variant_toList (c : Compared) :
    c.variant.toList =
      (if 0 < c.rateLimit then 'r' :: (toString c.rateLimit).toList else []) ++
        (if c.scoreMetric = .throughput then [] else
          if 0 < c.rateLimit then ['-', 'p', '9', '9'] else ['p', '9', '9']) := by
  unfold variant
  by_cases hlimit : 0 < c.rateLimit <;> cases hmetric : c.scoreMetric <;>
    simp [hlimit, ScoreMetric.text]

/-- The variant tells limit and quantity apart: only a decimal stands between
an `r` and the separator. -/
theorem variant_injective {c d : Compared} (h : c.variant = d.variant) :
    c.rateLimit = d.rateLimit ∧ c.scoreMetric = d.scoreMetric := by
  have htext := congrArg String.toList h
  rw [variant_toList, variant_toList] at htext
  by_cases hc : 0 < c.rateLimit <;> by_cases hd : 0 < d.rateLimit <;>
    cases hcm : c.scoreMetric <;> cases hdm : d.scoreMetric <;>
    simp [hc, hd, hcm, hdm] at htext
  -- both limited, the same quantity
  case pos.throughput.throughput => exact ⟨PyText.toDigits_injective htext, rfl⟩
  case pos.p99.p99 => exact ⟨PyText.toDigits_injective htext, rfl⟩
  -- a separator on one side only
  case pos.throughput.p99 =>
    exact absurd (htext ▸ by simp) (dash_notMem_toDigits c.rateLimit)
  case pos.p99.throughput =>
    exact absurd (htext ▸ by simp) (dash_notMem_toDigits d.rateLimit)
  -- neither limited
  case neg.throughput.throughput => exact ⟨by omega, rfl⟩
  case neg.p99.p99 => exact ⟨by omega, rfl⟩

theorem key_injective {c d : Compared} (h : c.key = d.key) : c = d := by
  have hvariant := variant_injective (congrArg GroupKey.variant h)
  cases c
  cases d
  simp only [key, GroupKey.mk.injEq, Json.str.injEq, Json.int.injEq] at h
  simp_all

end Compared

/-- The key of a record, from what its fields read. -/
theorem extractGroupKey_record {str : ValueText} {b : BenchmarkResults} {c : Compared}
    (hmethod : b.method = c.method) (hmakeArgs : b.makeArgs = c.makeArgs)
    (hvariant : variantOf str b.method b.data = .ok c.variant)
    (hsize : getOr b.data "size" (.int 0) = .int c.valSize)
    (hkeySize : getOr b.data "key_size" (.int 0) = .int c.keySize)
    (hioThreads : getOr b.data "io-threads" (.int 0) = .int c.ioThreads)
    (hpipeline : getOr b.data "pipeline" (.int 0) = .int c.pipelining) :
    extractGroupKey str b.toRecord = .ok c.key := by
  show (variantOf str b.method b.data >>= fun variant => Except.ok (GroupKey.mk (.str b.method)
    (getOr b.data "size" (.int 0)) (getOr b.data "key_size" (.int 0))
    (getOr b.data "io-threads" (.int 0)) (getOr b.data "pipeline" (.int 0)) variant
    (.str b.makeArgs))) = _
  rw [hvariant, hsize, hkeySize, hioThreads, hpipeline, hmethod, hmakeArgs]
  rfl

theorem variantOf_plain {str : ValueText} {method : String} {data : Fields}
    (hmixed : startsWith method "perf-mixed-" = false)
    (hcannon : startsWith method "cachecannon-" = false) : variantOf str method data = .ok "" := by
  simp [variantOf, hmixed, hcannon]

theorem variantOf_cachecannon {str : ValueText} {label : String} {data : Fields} :
    variantOf str ("cachecannon-" ++ label) data = cachecannonVariant str data := by
  simp [variantOf, startsWith, List.isPrefixOf]

namespace TaskRun

/-- What the key reads of the record of a run. -/
def compared (run : TaskRun) : Compared :=
  let plain (valSize keySize ioThreads pipelining : Int) : Compared :=
    ⟨run.results.method, valSize, keySize, ioThreads, pipelining, 0, .throughput,
      run.results.makeArgs⟩
  match run with
  | .perf r => plain r.valSize r.keySize r.ioThreads r.pipelining
  | .insertion r => plain r.valSize r.keySize r.ioThreads r.pipelining
  | .cachecannon r =>
    { plain r.valSize 0 r.ioThreads r.pipelining with
      rateLimit := r.rateLimit, scoreMetric := r.scoreMetric }
  | .replicaRead r => plain r.valSize 0 r.ioThreads r.pipelining
  -- written as "io_threads"
  | .scenario r => plain r.valSize 0 0 r.pipelining
  | .mem _ => plain 0 0 0 0

theorem perf_startsWith {test : String} (htest : test ∈ perfTests) :
    startsWith ("perf-" ++ test) "perf-mixed-" = false ∧
      startsWith ("perf-" ++ test) "cachecannon-" = false := by
  revert htest
  have : ∀ test ∈ perfTests, startsWith ("perf-" ++ test) "perf-mixed-" = false ∧
      startsWith ("perf-" ++ test) "cachecannon-" = false := by decide +kernel
  exact this test

theorem extractGroupKey_perf (str : ValueText) (r : PerfRun) :
    extractGroupKey str (TaskRun.perf r).toRecord = .ok (TaskRun.perf r).compared.key := by
  obtain ⟨rest, hdata⟩ : ∃ rest, r.results.data = r.shape ++ rest := by
    simp only [PerfRun.results]
    split_ifs <;> exact ⟨_, rfl⟩
  have hplain := perf_startsWith r.known
  refine extractGroupKey_record (b := r.results) rfl rfl
    (variantOf_plain hplain.1 hplain.2) ?_ ?_ ?_ ?_
  all_goals
    rw [hdata]
    rfl

theorem extractGroupKey_insertion (str : ValueText) (r : InsertionRun) :
    extractGroupKey str (TaskRun.insertion r).toRecord = .ok (TaskRun.insertion r).compared.key := by
  refine extractGroupKey_record (b := r.results) rfl rfl (variantOf_plain ?_ ?_) ?_ ?_ ?_ ?_
  · show startsWith "perf-set-insertion" "perf-mixed-" = false
    decide +kernel
  · show startsWith "perf-set-insertion" "cachecannon-" = false
    decide +kernel
  all_goals rfl

theorem cachecannonVariant_results (str : ValueText) (r : CachecannonRun) :
    cachecannonVariant str r.results.data = .ok (TaskRun.cachecannon r).compared.variant := by
  have hlimit : getOr r.results.data "rate_limit" (.int 0) = .int r.rateLimit := rfl
  have hmetric : getOr r.results.data "score_metric" (.str "throughput") =
      .str r.scoreMetric.text := rfl
  -- a limit of zero is false, and read as the default zero
  have hread : (Json.orElse (.int r.rateLimit) (.int 0)).pyInt = .ok (r.rateLimit : Int) := by
    unfold Json.orElse
    split
    · rfl
    · next hzero =>
      have : r.rateLimit = 0 := by simpa [Json.truthy] using hzero
      rw [this]
      rfl
  have hunscored : Json.str r.scoreMetric.text ≠ .str "throughput" ↔
      r.scoreMetric ≠ .throughput := by
    cases r.scoreMetric with
    | throughput => simp [ScoreMetric.text]
    | p99 => simp [ScoreMetric.text]
  unfold cachecannonVariant
  rw [hlimit, hread, hmetric]
  show Except.ok _ = Except.ok _
  simp only [hunscored, str.text_str, Int.natCast_pos]
  rfl

theorem extractGroupKey_cachecannon (str : ValueText) (r : CachecannonRun) :
    extractGroupKey str (TaskRun.cachecannon r).toRecord =
      .ok (TaskRun.cachecannon r).compared.key := by
  refine extractGroupKey_record (b := r.results) rfl rfl
    (variantOf_cachecannon.trans (cachecannonVariant_results str r)) ?_ ?_ ?_ ?_
  · rfl
  · unfold CachecannonRun.results
    cases r.scoreMetric <;> rfl
  · rfl
  · rfl

theorem extractGroupKey_replicaRead (str : ValueText) (r : ReplicaReadRun) :
    extractGroupKey str (TaskRun.replicaRead r).toRecord =
      .ok (TaskRun.replicaRead r).compared.key := by
  refine extractGroupKey_record (b := r.results) rfl rfl (variantOf_plain ?_ ?_) ?_ ?_ ?_ ?_
  · show startsWith "replica-read" "perf-mixed-" = false
    decide +kernel
  · show startsWith "replica-read" "cachecannon-" = false
    decide +kernel
  · rfl
  · unfold ReplicaReadRun.results
    cases r.readRateSearch <;> rfl
  · rfl
  · rfl

theorem extractGroupKey_scenario (str : ValueText) (r : ScenarioRun) :
    extractGroupKey str (TaskRun.scenario r).toRecord = .ok (TaskRun.scenario r).compared.key := by
  refine extractGroupKey_record (b := r.results) rfl rfl (variantOf_plain ?_ ?_) ?_ ?_ ?_ ?_
  · simp [ScenarioRun.results, startsWith, List.isPrefixOf]
  · simp [ScenarioRun.results, startsWith, List.isPrefixOf]
  · rfl
  · unfold ScenarioRun.results ScenarioRun.overlaySizes
    split_ifs <;> rfl
  · unfold ScenarioRun.results ScenarioRun.overlaySizes
    split_ifs <;> rfl
  · rfl

theorem extractGroupKey_mem (str : ValueText) (r : MemRun) :
    extractGroupKey str (TaskRun.mem r).toRecord = .ok (TaskRun.mem r).compared.key := by
  refine extractGroupKey_record (b := r.results) rfl rfl (variantOf_plain ?_ ?_) ?_ ?_ ?_ ?_
  · simp [MemRun.results, startsWith, List.isPrefixOf]
  · simp [MemRun.results, startsWith, List.isPrefixOf]
  all_goals rfl

/-- The key reads the same fields of every record a runner writes. -/
theorem extractGroupKey_toRecord (str : ValueText) (run : TaskRun) :
    extractGroupKey str run.toRecord = .ok run.compared.key := by
  cases run with
  | perf r => exact extractGroupKey_perf str r
  | insertion r => exact extractGroupKey_insertion str r
  | cachecannon r => exact extractGroupKey_cachecannon str r
  | replicaRead r => exact extractGroupKey_replicaRead str r
  | scenario r => exact extractGroupKey_scenario str r
  | mem r => exact extractGroupKey_mem str r

end TaskRun

/-! ## Workloads -/

structure CachecannonShape where
  rateLimit      : Nat
  scoreMetric    : ScoreMetric
  scoreAggregate : ScoreAggregate
  tls            : Bool
  clientNetns    : String
  connections    : Int
  threads        : Int
  keyspaceCount  : Int
  distribution   : String
  deriving DecidableEq

structure ReplicaReadShape where
  writeRate      : Int
  connections    : Int
  threads        : Int
  readRateSearch : Bool
  deriving DecidableEq

/-- What a run measured. -/
structure Workload where
  method      : String
  sizes       : List Int
  ioThreads   : Int
  pipelining  : Int
  cachecannon : Option CachecannonShape
  replicaRead : Option ReplicaReadShape
  deriving DecidableEq

structure CachecannonUnread where
  scoreAggregate : ScoreAggregate
  tls            : Bool
  clientNetns    : String
  connections    : Int
  threads        : Int
  keyspaceCount  : Int
  distribution   : String
  deriving DecidableEq

/-- The fields of a workload the key does not read. -/
structure Unread where
  sizes       : List Int
  ioThreads   : Option Int
  cachecannon : Option CachecannonUnread
  replicaRead : Option ReplicaReadShape
  deriving DecidableEq

namespace ReplicaReadRun

def shape (r : ReplicaReadRun) : ReplicaReadShape :=
  ⟨r.writeRate, r.connections, r.threads, r.readRateSearch⟩

end ReplicaReadRun

namespace TaskRun

/-- A memory run fixes threads and pipelining, and has several sizes. -/
def workload (run : TaskRun) : Workload :=
  let of (sizes : List Int) (ioThreads pipelining : Int) : Workload :=
    ⟨run.results.method, sizes, ioThreads, pipelining, none, none⟩
  match run with
  | .perf r => of [r.valSize, r.keySize] r.ioThreads r.pipelining
  | .insertion r => of [r.valSize, r.keySize] r.ioThreads r.pipelining
  | .cachecannon r =>
    { of [r.valSize] r.ioThreads r.pipelining with
      cachecannon := some ⟨r.rateLimit, r.scoreMetric, r.scoreAggregate, r.tls, r.clientNetns,
        r.connections, r.threads, r.keyspaceCount, r.distribution⟩ }
  | .replicaRead r =>
    { of [r.valSize] r.ioThreads r.pipelining with replicaRead := some r.shape }
  | .scenario r => of (r.valSize :: r.overlaySizes) r.ioThreads r.pipelining
  | .mem r => of (r.keySize :: r.fieldSize :: r.overheads.map Prod.fst) 1 1

def unread : TaskRun → Unread
  | .perf _ => ⟨[], none, none, none⟩
  | .insertion _ => ⟨[], none, none, none⟩
  | .cachecannon r => ⟨[], none, some ⟨r.scoreAggregate, r.tls, r.clientNetns, r.connections,
      r.threads, r.keyspaceCount, r.distribution⟩, none⟩
  | .replicaRead r => ⟨[], none, none, some r.shape⟩
  | .scenario r => ⟨r.overlaySizes, some r.ioThreads, none, none⟩
  | .mem r => ⟨r.keySize :: r.fieldSize :: r.overheads.map Prod.fst, none, none, none⟩

/-! The writers' methods do not overlap. -/

inductive Kind where
  | perf
  | insertion
  | cachecannon
  | replicaRead
  | scenario
  | mem
  deriving DecidableEq

def kind : TaskRun → Kind
  | .perf _ => .perf
  | .insertion _ => .insertion
  | .cachecannon _ => .cachecannon
  | .replicaRead _ => .replicaRead
  | .scenario _ => .scenario
  | .mem _ => .mem

/-- The writer of a method. -/
def kindOf (method : String) : Kind :=
  if method = "perf-set-insertion" then .insertion
  else
    match method.toList with
    | 'p' :: _ => .perf
    | 'c' :: _ => .cachecannon
    | 'r' :: _ => .replicaRead
    | 's' :: _ => .scenario
    | _ => .mem

theorem kindOf_method (run : TaskRun) : kindOf run.results.method = run.kind := by
  cases run with
  | perf r =>
    have hall : ∀ test ∈ perfTests, kindOf ("perf-" ++ test) = .perf := by decide +kernel
    exact hall r.test r.known
  | insertion r => rfl
  | replicaRead r =>
    show kindOf "replica-read" = .replicaRead
    decide +kernel
  | cachecannon r =>
    have hne : "cachecannon-" ++ r.dashed ≠ "perf-set-insertion" := by
      intro h
      simpa using congrArg String.toList h
    simp [kindOf, results, CachecannonRun.results, kind, hne]
  | scenario r =>
    have hne : "scenario-" ++ r.scenario ≠ "perf-set-insertion" := by
      intro h
      simpa using congrArg String.toList h
    simp [kindOf, results, ScenarioRun.results, kind, hne]
  | mem r =>
    have hne : "mem-" ++ r.test ≠ "perf-set-insertion" := by
      intro h
      simpa using congrArg String.toList h
    simp [kindOf, results, MemRun.results, kind, hne]

theorem kind_eq {r s : TaskRun} (h : r.results.method = s.results.method) : r.kind = s.kind := by
  rw [← kindOf_method, ← kindOf_method, h]

theorem compared_method (run : TaskRun) : run.compared.method = run.results.method := by
  cases run <;> rfl

/-- A workload from the two parts of it. -/
def assemble (c : Compared) (u : Unread) : Kind → Workload
  | .perf | .insertion =>
    ⟨c.method, [c.valSize, c.keySize], c.ioThreads, c.pipelining, none, none⟩
  | .cachecannon =>
    ⟨c.method, [c.valSize], c.ioThreads, c.pipelining, u.cachecannon.map fun v =>
      ⟨c.rateLimit, c.scoreMetric, v.scoreAggregate, v.tls, v.clientNetns, v.connections,
        v.threads, v.keyspaceCount, v.distribution⟩, none⟩
  | .replicaRead => ⟨c.method, [c.valSize], c.ioThreads, c.pipelining, none, u.replicaRead⟩
  | .scenario =>
    ⟨c.method, c.valSize :: u.sizes, u.ioThreads.getD 0, c.pipelining, none, none⟩
  | .mem => ⟨c.method, u.sizes, 1, 1, none, none⟩

/-- The part of a workload the key does not read. -/
def remainder (w : Workload) : Kind → Unread
  | .perf | .insertion => ⟨[], none, none, none⟩
  | .cachecannon => ⟨[], none, w.cachecannon.map fun v =>
      ⟨v.scoreAggregate, v.tls, v.clientNetns, v.connections, v.threads, v.keyspaceCount,
        v.distribution⟩, none⟩
  | .replicaRead => ⟨[], none, none, w.replicaRead⟩
  | .scenario => ⟨w.sizes.tail, some w.ioThreads, none, none⟩
  | .mem => ⟨w.sizes, none, none, none⟩

theorem workload_eq_assemble (run : TaskRun) :
    run.workload = assemble run.compared run.unread run.kind := by
  cases run <;> rfl

theorem unread_eq_remainder (run : TaskRun) : run.unread = remainder run.workload run.kind := by
  cases run <;> rfl

/-- Where the key reads the same, a workload is decided by the rest. -/
theorem workload_eq_iff {r s : TaskRun} (h : r.compared = s.compared) :
    r.workload = s.workload ↔ r.unread = s.unread := by
  have hkind : r.kind = s.kind := by
    refine kind_eq ?_
    rw [← compared_method, ← compared_method, h]
  constructor
  · intro hworkload
    rw [unread_eq_remainder r, unread_eq_remainder s, hworkload, hkind]
  · intro hunread
    rw [workload_eq_assemble r, workload_eq_assemble s, h, hunread, hkind]

end TaskRun

/-! ## Which runs share a group -/

section Placed

variable (str : ValueText) (q : Sides)

/-- A side of the comparison wants the run. -/
def TaskRun.Wanted (run : TaskRun) : Prop :=
  (run.results.specifier = q.specifierA ∧ q.sourceA.all (run.results.source = ·)) ∨
    (run.results.specifier = q.specifierB ∧ q.sourceB.all (run.results.source = ·))

/-- The record of a run goes into the group of a key. -/
def PlacedIn (key : GroupKey) (run : TaskRun) : Prop :=
  ∃ p, place str q run.toRecord = .ok (some p) ∧ p.key = key

/-- No group holds the records of two workloads. -/
def GroupsFaithful (runs : List TaskRun) : Prop :=
  ∃ out, groupResults str q (runs.map TaskRun.toRecord) = .ok out ∧
    ∀ group ∈ out.groups, ∀ r ∈ runs, ∀ s ∈ runs,
      PlacedIn str q group.key r → PlacedIn str q group.key s → r.workload = s.workload

/-- Runs the key reads alike are alike in the fields it does not read. -/
def ReadAlikeAreAlike (runs : List TaskRun) : Prop :=
  ∀ r ∈ runs, ∀ s ∈ runs, r.Wanted q → s.Wanted q → r.compared = s.compared → r.unread = s.unread

variable {str q}

theorem sideMatches_iff {specifier source sideSpecifier : String} {sideSource : Option String} :
    sideMatches (.str specifier) (.str source) sideSpecifier sideSource = true ↔
      specifier = sideSpecifier ∧ sideSource.all (source = ·) := by
  simp [sideMatches]

/-- No record of a run is passed over for want of samples. -/
theorem TaskRun.exists_samples (run : TaskRun) :
    ∃ samples, extractSamples run.toRecord = .ok samples ∧ samples ≠ [] := by
  cases run with
  | perf r =>
    have hne : r.perRunRps ≠ [] := by simpa [PerfRun.perRunRps] using r.ran
    by_cases hmulti : 1 < effectiveReps r.repetitions r.maxReps ∧ 1 < r.perRunRps.length
    · have hdata : r.results.data = r.shape ++ [("repetitions", .int r.repetitions),
          ("per_run_rps", numbers r.perRunRps), ("mean_rps", number (mean r.perRunRps))] := by
        simp only [PerfRun.results, if_pos hmulti]
      refine exists_extractSamples r.results (some r.repetitions)
        (some r.perRunRps) ?_ ?_ (by simpa using hne)
      all_goals
        rw [hdata]
        rfl
    · have hdata : r.results.data =
          r.shape ++ [("avg_rps", number (mean (r.reps.getLast r.ran)))] := by
        simp only [PerfRun.results, if_neg hmulti]
      refine exists_extractSamples r.results none none ?_ ?_ (by simp)
      all_goals
        rw [hdata]
        rfl
  | insertion r =>
    exact exists_extractSamples r.results (some r.repetitions)
      (some r.perRunRps) rfl rfl (by simpa using r.ran)
  | cachecannon r =>
    have hne : r.perRunRps ≠ [] := by simpa [CachecannonRun.perRunRps] using r.ran
    exact exists_extractSamples r.results (some r.repetitions)
      (some r.perRunRps) rfl rfl (by simpa using hne)
  | replicaRead r =>
    refine exists_extractSamples r.results none (some r.readerRps) ?_ rfl
      (by simpa using r.ran)
    unfold ReplicaReadRun.results
    cases r.readRateSearch <;> rfl
  | scenario r =>
    exact exists_extractSamples r.results (some r.repetitions)
      (some r.perRunRps) rfl rfl (by simpa using r.ran)
  | mem r =>
    exact exists_extractSamples r.results none none rfl rfl (by simp)

theorem place_toRecord (run : TaskRun) :
    (run.Wanted q → ∃ p, place str q run.toRecord = .ok (some p) ∧ p.key = run.compared.key) ∧
      (¬ run.Wanted q → place str q run.toRecord = .ok none) := by
  obtain ⟨samples, hsamples, hne⟩ := run.exists_samples
  have hkey := TaskRun.extractGroupKey_toRecord str run
  have hspecifier : getOr run.toRecord "specifier" (.str "") = .str run.results.specifier := rfl
  have hsource : getOr run.toRecord "source" (.str "") = .str run.results.source := rfl
  constructor
  · intro hwanted
    have hside : (!sideMatches (.str run.results.specifier) (.str run.results.source)
        q.specifierA q.sourceA && !sideMatches (.str run.results.specifier)
        (.str run.results.source) q.specifierB q.sourceB) = false := by
      rcases hwanted with h | h
      · rw [sideMatches_iff.mpr h]
        rfl
      · rw [sideMatches_iff.mpr h]
        simp
    have hsome : samples.isEmpty = false := by simpa using hne
    refine ⟨⟨run.compared.key, if sideMatches (.str run.results.specifier)
      (.str run.results.source) q.specifierA q.sourceA then .a else .b,
      .str run.results.source, samples⟩, ?_, rfl⟩
    unfold place
    simp only [hspecifier, hsource, hside, hsamples]
    show (if samples.isEmpty = true then _ else _) = _
    rw [hsome, hkey]
    rfl
  · intro hunwanted
    have hside : (!sideMatches (.str run.results.specifier) (.str run.results.source)
        q.specifierA q.sourceA && !sideMatches (.str run.results.specifier)
        (.str run.results.source) q.specifierB q.sourceB) = true := by
      simp only [Bool.and_eq_true, Bool.not_eq_true', ← Bool.not_eq_true, sideMatches_iff]
      exact not_or.mp hunwanted
    unfold place
    simp only [hspecifier, hsource, hside]
    rfl

theorem placedIn_iff {key : GroupKey} {run : TaskRun} :
    PlacedIn str q key run ↔ run.Wanted q ∧ run.compared.key = key := by
  by_cases hwanted : run.Wanted q
  · obtain ⟨p, hp, hkey⟩ := (place_toRecord run).1 hwanted
    unfold PlacedIn
    rw [hp]
    constructor
    · rintro ⟨p', hp', rfl⟩
      cases hp'
      exact ⟨hwanted, hkey.symm⟩
    · rintro ⟨-, rfl⟩
      exact ⟨p, rfl, hkey⟩
  · unfold PlacedIn
    rw [(place_toRecord run).2 hwanted]
    refine iff_of_false ?_ (fun h => hwanted h.1)
    rintro ⟨p, hp, -⟩
    cases hp

/-- A side of a group holds the samples of the records placed there, in order. -/
theorem samples_groupResults {records : List Fields} {placements : List (Option Placement)}
    {out : Grouping} (hplaced : records.mapM (place str q) = .ok placements)
    (hout : groupResults str q records = .ok out) (key : GroupKey) (side : Side) :
    out.samples key side =
      (placements.reduceOption.filter (Grouping.goesTo key side)).flatMap Placement.samples := by
  obtain ⟨placements', hplaced', rfl⟩ := groupResults_ok.mp hout
  rw [hplaced, Except.ok.injEq] at hplaced'
  rw [← hplaced', Grouping.foldl_take, Grouping.samples_foldl]
  cases side <;> rfl

section Runs

variable {runs : List TaskRun}

/-- Over the records of runs the loop returns. -/
theorem exists_groupResults (str : ValueText) (q : Sides) (runs : List TaskRun) :
    ∃ out, groupResults str q (runs.map TaskRun.toRecord) = .ok out := by
  have hplaced : ∃ placements, (runs.map TaskRun.toRecord).mapM (place str q) = .ok placements := by
    refine except_mapM_ok.mpr fun record hrecord => ?_
    obtain ⟨run, -, rfl⟩ := List.mem_map.mp hrecord
    by_cases hwanted : run.Wanted q
    · obtain ⟨p, hp, -⟩ := (place_toRecord run).1 hwanted
      exact ⟨some p, hp⟩
    · exact ⟨none, (place_toRecord run).2 hwanted⟩
  obtain ⟨placements, hplaced⟩ := hplaced
  exact ⟨_, groupResults_ok.mpr ⟨placements, hplaced, rfl⟩⟩

/-- A group is made for a record that goes into it, and for nothing else. -/
theorem mem_groups_iff {out : Grouping}
    (hout : groupResults str q (runs.map TaskRun.toRecord) = .ok out) (key : GroupKey) :
    (∃ group ∈ out.groups, group.key = key) ↔ ∃ run ∈ runs, PlacedIn str q key run := by
  obtain ⟨placements, hplaced, rfl⟩ := groupResults_ok.mp hout
  rw [Grouping.foldl_take, Grouping.mem_groups_foldl]
  constructor
  · rintro (⟨group, hgroup, -⟩ | ⟨p, hp, rfl⟩)
    · exact absurd hgroup (Table.not_mem_empty group)
    · rw [List.reduceOption_mem_iff, except_mem_mapM hplaced] at hp
      obtain ⟨record, hrecord, hp⟩ := hp
      obtain ⟨run, hrun, rfl⟩ := List.mem_map.mp hrecord
      exact ⟨run, hrun, p, hp, rfl⟩
  · rintro ⟨run, hrun, p, hp, rfl⟩
    refine .inr ⟨p, ?_, rfl⟩
    rw [List.reduceOption_mem_iff, except_mem_mapM hplaced]
    exact ⟨run.toRecord, List.mem_map_of_mem hrun, hp⟩

end Runs

/-- Two wanted runs that the key reads alike go into one group. -/
theorem readAlike_of_faithful {runs : List TaskRun} (h : GroupsFaithful str q runs) :
    ReadAlikeAreAlike q runs := by
  obtain ⟨out, hout, hfaithful⟩ := h
  intro r hr s hs hrw hsw hcompared
  have hplacedR : PlacedIn str q r.compared.key r := placedIn_iff.mpr ⟨hrw, rfl⟩
  have hplacedS : PlacedIn str q r.compared.key s :=
    placedIn_iff.mpr ⟨hsw, by rw [hcompared]⟩
  obtain ⟨group, hgroup, hkey⟩ := (mem_groups_iff hout _).mpr ⟨r, hr, hplacedR⟩
  rw [← hkey] at hplacedR hplacedS
  exact (TaskRun.workload_eq_iff hcompared).mp (hfaithful group hgroup r hr s hs hplacedR hplacedS)

/-- The groups are workloads exactly when runs that agree on what the key reads
agree on the rest of their workload: the key itself confuses nothing it reads. -/
theorem groups_faithful_iff (str : ValueText) (q : Sides) (runs : List TaskRun) :
    GroupsFaithful str q runs ↔ ReadAlikeAreAlike q runs := by
  constructor
  · exact readAlike_of_faithful
  · intro halike
    obtain ⟨out, hout⟩ := exists_groupResults str q runs
    refine ⟨out, hout, ?_⟩
    intro group _ r hr s hs hplacedR hplacedS
    obtain ⟨hrw, hrkey⟩ := placedIn_iff.mp hplacedR
    obtain ⟨hsw, hskey⟩ := placedIn_iff.mp hplacedS
    have hcompared := Compared.key_injective (hrkey.trans hskey.symm)
    exact (TaskRun.workload_eq_iff hcompared).mpr (halike r hr s hs hrw hsw hcompared)

/-- The latency cell with a twelfth of the connections. -/
def quietLatencyRun : CachecannonRun := { latencyRun with connections := 100 }

/-- The two cells share a group. -/
theorem latencyRuns_merge :
    ¬ ∀ (str : ValueText) (q : Sides) (runs : List TaskRun), GroupsFaithful str q runs := by
  intro h
  have halike := readAlike_of_faithful (h ⟨fun | .str s => s | _ => "", fun _ => rfl⟩
    ⟨"unstable", "8.1", none, none⟩ [.cachecannon latencyRun, .cachecannon quietLatencyRun])
  have hunread := halike (.cachecannon latencyRun) (by simp) (.cachecannon quietLatencyRun)
    (by simp) (.inl ⟨rfl, rfl⟩) (.inl ⟨rfl, rfl⟩) (by decide +kernel)
  revert hunread
  decide +kernel

end Placed

end Conductress.Results
