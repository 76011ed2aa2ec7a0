import Mathlib.Algebra.Order.Ring.Unbundled.Rat
import Conductress.Control.Schema
import Conductress.Queue.PostInit

/-!
# The registered task classes

Every class `BaseTaskData.register_tasks` finds: the fields its constructor
takes after those of `BaseTaskData`, with their defaults, and its
`__post_init__` as a list of steps.

`registered_stable` and `registered_settled` say that each of these lists gives
the same when it is run a second time. The one conversion with an argument in it
is that of `info_sections`: the text it writes is split into the sections it was
joined from (`parseInfoSections_join`).
-/

namespace Conductress

open Lib

/-! ## What a deployment configures -/

/-- `str.lower` and `str.isalnum`, over all of Unicode. -/
structure UnicodeText where
  lower         : List Char → List Char
  isAlnum       : Char → Bool
  lower_nil     : lower [] = []
  lower_lower   : ∀ s, lower (lower s) = lower s
  alnum_visible : ∀ c, isAlnum c = true → PyText.isSpace c = false
  comma         : isAlnum ',' = false

/-- What the task classes take from the configuration and the interpreter. What
`parse_storm_spec` makes of an overlay is not read here. -/
structure TaskConfig where
  repoNames        : List String
  cachecannonBinary : String
  unicode          : UnicodeText
  parseStormSpec   : Json → Except PyError Unit

/-- A field after those of `BaseTaskData`, with its default. -/
structure FieldDecl where
  name    : String
  default : Option Json

structure TaskType where
  name     : String
  decls    : List FieldDecl
  postInit : List InitStep

namespace TaskType

/-- The fields of `BaseTaskData` that are constructor arguments, `topology`
apart. -/
def baseNames : List String := ["source", "specifier", "note", "requirements", "make_args"]

/-- The fields of a class, `topology` apart. -/
def fieldNames (cls : TaskType) : List String := baseNames ++ cls.decls.map FieldDecl.name

end TaskType

/-! ## Conversions and checks -/

namespace InitStep

/-- `self.field = int(self.field)`. -/
def toInt (field : String) : InitStep := .rewrite field fun v => v.pyInt.map .int

/-- `self.field = float(self.field)`. -/
def toFloat (field : String) : InitStep := .rewrite field fun v => v.pyFloat.map .float

/-- `self.field = bool(self.field)`. -/
def toBool (field : String) : InitStep := .rewrite field fun v => .ok (.bool v.truthy)

/-- A check that raises a `ValueError` when its test is true. -/
def refuse (test : Except PyError Bool) (message : String) : Except PyError Unit := do
  if ← test then throw (.valueError message) else pure ()

/-- `if test(self.field): raise`. -/
def refuse1 (field message : String) (test : Json → Except PyError Bool) : InitStep :=
  .check [field] fun
    | [v] => refuse (test v) message
    | _ => .ok ()

/-- `if test(self.a, self.b): raise`. -/
def refuse2 (a b message : String) (test : Json → Json → Except PyError Bool) : InitStep :=
  .check [a, b] fun
    | [v, w] => refuse (test v w) message
    | _ => .ok ()

/-- `first and second`, the second only evaluated when the first is true. -/
def andThen (first : Bool) (second : Except PyError Bool) : Except PyError Bool :=
  if first then second else .ok false

/-- `first or second`. -/
def orElse (first second : Except PyError Bool) : Except PyError Bool := do
  if ← first then pure true else second

/-- `value < bound`. -/
def below (bound : Int) (value : Json) : Except PyError Bool := Json.pyLt value (.int bound)

@[simp] theorem stable_check (reads : List String) (test : List Json → Except PyError Unit) :
    (check reads test).Stable := trivial

@[simp] theorem stable_layout (test : TopologySpec → Except PyError Unit) :
    (layout test).Stable := trivial

@[simp] theorem stable_refuse1 (field message : String) (test : Json → Except PyError Bool) :
    (refuse1 field message test).Stable := trivial

@[simp] theorem stable_refuse2 (a b message : String) (test : Json → Json → Except PyError Bool) :
    (refuse2 a b message test).Stable := trivial

@[simp] theorem toInt_stable (field : String) : (toInt field).Stable := by
  intro v w h
  obtain ⟨n, -, rfl⟩ := except_map_ok.mp h
  rfl

@[simp] theorem toFloat_stable (field : String) : (toFloat field).Stable := by
  intro v w h
  obtain ⟨x, -, rfl⟩ := except_map_ok.mp h
  rfl

@[simp] theorem toBool_stable (field : String) : (toBool field).Stable := by
  intro v w h
  cases h
  rfl

end InitStep

/-! ## `BaseTaskData` -/

namespace TaskConfig

variable (config : TaskConfig)

def manuallyUploaded : String := "manually_uploaded"

/-- `BaseTaskData.__post_init__`, apart from the topology. -/
def sourceStep : InitStep :=
  InitStep.refuse1 "source" "Unknown source" fun source =>
    .ok (!Json.inNames (manuallyUploaded :: config.repoNames) source)

/-! ## The performance benchmark -/

def perfDecls (keyspace : Int) : List FieldDecl :=
  [⟨"test", none⟩, ⟨"val_size", none⟩, ⟨"io_threads", none⟩, ⟨"pipelining", none⟩,
    ⟨"warmup", none⟩, ⟨"duration", none⟩, ⟨"perf_stat_enabled", none⟩, ⟨"has_expire", none⟩,
    ⟨"preload_keys", none⟩, ⟨"key_size", some (.int 0)⟩, ⟨"repetitions", some (.int 1)⟩,
    ⟨"max_reps", some (.int 0)⟩, ⟨"target_cv", some (.float (.finite 0))⟩,
    ⟨"sweep_commit", some (.str "")⟩, ⟨"server_cpu_override", some (.str "")⟩,
    ⟨"benchmark_cpu_override", some (.str "")⟩, ⟨"server_args", some (.str "")⟩,
    ⟨"bench_threads", some (.int 0)⟩, ⟨"bench_clients", some (.int 0)⟩,
    ⟨"keyspace", some (.int keyspace)⟩, ⟨"client_netns", some (.str "")⟩,
    ⟨"bench_binary", some (.str "")⟩, ⟨"generator_profile", some (.str "")⟩]

def perfTaskData : TaskType where
  name     := "PerfTaskData"
  decls    := perfDecls 0
  postInit := [config.sourceStep, .toInt "warmup", .toInt "duration"]

/-- `PERF_BENCH_KEYSPACE`. -/
def perfBenchKeyspace : Int := 3000000

def canaryPerfTaskData : TaskType where
  name     := "CanaryPerfTaskData"
  decls    := perfDecls perfBenchKeyspace ++ [⟨"seed", some (.int 1)⟩]
  postInit := config.perfTaskData.postInit

/-! ## Bounded insertions -/

def benchmarkMaxIterations : Int := 2000000000

/-- `BASE_KEY_SIZE`, the length of `key:__rand_int__`. -/
def baseKeySize : Int := 16

/-- `if int(value) < 1: raise`. -/
def positiveStep (field : String) : InitStep :=
  InitStep.refuse1 field (field ++ " must be at least 1") fun v => v.pyInt.map (decide <| · < 1)

def boundedInsertionTaskData : TaskType where
  name     := "BoundedInsertionTaskData"
  decls    :=
    [⟨"val_size", none⟩, ⟨"key_size", none⟩, ⟨"io_threads", none⟩, ⟨"pipelining", none⟩,
      ⟨"insertions", none⟩, ⟨"repetitions", none⟩, ⟨"maxmemory_bytes", none⟩,
      ⟨"max_rss_bytes", none⟩, ⟨"perf_stat_enabled", some (.bool false)⟩,
      ⟨"server_cpu_override", some (.str "")⟩, ⟨"benchmark_cpu_override", some (.str "")⟩,
      ⟨"server_args", some (.str "")⟩, ⟨"bench_threads", some (.int 0)⟩,
      ⟨"bench_clients", some (.int 0)⟩]
  postInit :=
    [config.sourceStep, positiveStep "val_size", positiveStep "key_size",
      positiveStep "io_threads", positiveStep "pipelining", positiveStep "insertions",
      positiveStep "repetitions", positiveStep "maxmemory_bytes", positiveStep "max_rss_bytes",
      .refuse1 "key_size" "key_size must be at least 16" (InitStep.below baseKeySize),
      .refuse1 "insertions" "insertions must not exceed 2000000000" fun v =>
        Json.pyLt (.int benchmarkMaxIterations) v,
      .refuse2 "bench_threads" "bench_clients"
        "bench_threads and bench_clients must not be negative" fun threads clients =>
          InitStep.orElse (InitStep.below 0 threads) (InitStep.below 0 clients),
      .refuse2 "max_rss_bytes" "maxmemory_bytes"
        "max_rss_bytes must be greater than or equal to maxmemory_bytes" Json.pyLt,
      .layout fun topology => InitStep.refuse (.ok (!topology.replicas.isEmpty))
        "bounded insertion tasks do not support replicas"]

/-! ## Memory efficiency -/

def memTaskData : TaskType where
  name     := "MemTaskData"
  decls    :=
    [⟨"type", none⟩, ⟨"val_sizes", none⟩, ⟨"has_expire", none⟩, ⟨"sweep_commit", some (.str "")⟩,
      ⟨"enable_profiling", some (.bool false)⟩, ⟨"key_size", some (.int 0)⟩,
      ⟨"field_size", some (.int 0)⟩, ⟨"user_data_bytes", some (.int 0)⟩,
      ⟨"populate_mode", some (.str "random")⟩, ⟨"settle", some (.bool false)⟩]
  postInit := [config.sourceStep]

/-! ## Cachecannon -/

section InfoSections

variable (unicode : UnicodeText)

/-- The loop of `parse_info_sections` over the pieces that are left. -/
def infoSectionsFrom : List (List Char) → List (List Char) → Except PyError (List (List Char))
  | sections, [] => .ok sections
  | sections, raw :: rest =>
    let name := unicode.lower (PyText.strip raw)
    if name.isEmpty then infoSectionsFrom sections rest
    else if ¬ name.all fun c => unicode.isAlnum c || decide (c = '_') then
      .error (.valueError "invalid INFO section name")
    else infoSectionsFrom (if name ∈ sections then sections else sections ++ [name]) rest

/-- `parse_info_sections`. -/
def parseInfoSections (spec : Json) : Except PyError (List (List Char)) :=
  if spec.truthy then
    match spec with
    | .str text => infoSectionsFrom unicode [] (text.toList.splitOn ',')
    | _ => .error (.attributeError "object has no attribute 'split'")
  else infoSectionsFrom unicode [] ("".toList.splitOn ',')

/-- `",".join(sections)`. -/
def joinSections (sections : List (List Char)) : Json :=
  .str (String.ofList (List.intercalate [','] sections))

/-- `self.info_sections = ",".join(parse_info_sections(self.info_sections))`. -/
def infoSectionsStep : InitStep :=
  .rewrite "info_sections" fun v => (parseInfoSections unicode v).map joinSections

end InfoSections

def scoreMetrics : List String := ["throughput", "p99"]
def scoreAggregates : List String := ["mean", "median"]

def cachecannonTaskData : TaskType where
  name     := "CachecannonTaskData"
  decls    :=
    [⟨"test", some (.str "get")⟩, ⟨"val_size", some (.int 512)⟩, ⟨"pipelining", some (.int 10)⟩,
      ⟨"connections", some (.int 1200)⟩, ⟨"threads", some (.int 16)⟩, ⟨"warmup", some (.int 5)⟩,
      ⟨"duration", some (.int 30)⟩, ⟨"repetitions", some (.int 3)⟩,
      ⟨"keyspace_count", some (.int perfBenchKeyspace)⟩, ⟨"io_threads", some (.int 9)⟩,
      ⟨"cachecannon_binary", some (.str config.cachecannonBinary)⟩,
      ⟨"server_args", some (.str "")⟩, ⟨"server_cpu_override", some (.str "")⟩,
      ⟨"benchmark_cpu_override", some (.str "")⟩, ⟨"set_ratio", some (.int 0)⟩,
      ⟨"distribution", some (.str "uniform")⟩, ⟨"max_reps", some (.int 0)⟩,
      ⟨"target_cv", some (.float (.finite 0))⟩, ⟨"sweep_commit", some (.str "")⟩,
      ⟨"rate_limit", some (.int 0)⟩, ⟨"perf_stat_enabled", some (.bool false)⟩,
      ⟨"info_sections", some (.str "")⟩, ⟨"score_metric", some (.str "throughput")⟩,
      ⟨"score_aggregate", some (.str "mean")⟩, ⟨"tls", some (.bool false)⟩,
      ⟨"client_netns", some (.str "")⟩]
  postInit :=
    [config.sourceStep, .toInt "warmup", .toInt "duration",
      .refuse2 "client_netns" "tls"
        "client_netns and tls cannot be combined: the bootstrap certificate only covers loopback"
        fun netns tls => .ok (netns.truthy && tls.truthy),
      .refuse1 "score_metric" "score_metric must be one of ['p99', 'throughput']" fun v =>
        (Json.inFrozenset scoreMetrics v).map (! ·),
      .refuse1 "score_aggregate" "score_aggregate must be one of ['mean', 'median']" fun v =>
        (Json.inFrozenset scoreAggregates v).map (! ·),
      .refuse2 "max_reps" "repetitions" "max_reps must be >= repetitions" fun maxReps repetitions =>
        InitStep.andThen maxReps.truthy (Json.pyLt maxReps repetitions),
      .refuse1 "target_cv" "target_cv must be >= 0" (InitStep.below 0),
      .refuse1 "rate_limit" "rate_limit must be >= 0" (InitStep.below 0),
      infoSectionsStep config.unicode,
      .check ["target_cv", "max_reps", "repetitions"] fun
        | [targetCv, maxReps, repetitions] => InitStep.refuse
            (do if ← Json.pyLt (.int 0) targetCv then Json.pyLe maxReps repetitions else pure false)
            "target_cv requires max_reps > repetitions"
        | _ => .ok ()]

/-! ## Replica reads -/

/-- The checks `RateSearch.__init__` makes. -/
def checkRateSearch (startRate : Int) (step : PyFloat) (maxRate : Int) (tolerance : PyFloat)
    (maxBisectSteps : Int) : Except PyError Unit := do
  InitStep.refuse (.ok (decide (startRate < 1))) "start_rate must be >= 1"
  InitStep.refuse (.ok (decide (maxRate < startRate))) "max_rate must be >= start_rate"
  InitStep.refuse (Json.pyLe (.float step) (.int 1)) "step_multiplier must be > 1"
  InitStep.refuse (.ok (!(PyFloat.lt (.finite 0) tolerance || PyFloat.eq (.finite 0) tolerance) ||
    !PyFloat.lt tolerance (.finite 1))) "tolerance must be in [0, 1)"
  InitStep.refuse (.ok (decide (maxBisectSteps < 0))) "max_bisect_steps must be >= 0"

/-- `rate_search`, its arguments converted. -/
def rateSearch (start step max tolerance steps : Json) : Except PyError Unit := do
  let startRate ← start.pyInt
  let multiplier ← step.pyFloat
  let maxRate ← max.pyInt
  let tolerance ← tolerance.pyFloat
  let maxBisectSteps ← steps.pyInt
  checkRateSearch startRate multiplier maxRate tolerance maxBisectSteps

/-- `host_count`; `none` when a slot is no finite number. -/
def hostCount (topology : TopologySpec) : Option Rat := do
  let keys := (topology.instances.filterMap fun i => i.hostKey.toOption).dedup
  let slots ← (keys.filter fun k => !k.1).mapM fun k =>
    match k.2 with
    | .number (.finite q) => some q
    | _ => none
  let ips := (keys.filter fun k => k.1).length
  some ((if slots.isEmpty then 0 else slots.foldr max 0 + 1) + ips)

/-- `if not self.field > 0: raise`. -/
def aboveZeroStep (field : String) : InitStep :=
  InitStep.refuse1 field (field ++ " must be > 0") fun v => (Json.pyLt (.int 0) v).map (! ·)

/-- `if self.field < 1: raise`. -/
def atLeastOneStep (field : String) : InitStep :=
  InitStep.refuse1 field (field ++ " must be >= 1") (InitStep.below 1)

def replicaReadTaskData : TaskType where
  name     := "ReplicaReadTaskData"
  decls    :=
    [⟨"val_size", some (.int 512)⟩, ⟨"pipelining", some (.int 1)⟩, ⟨"connections", some (.int 400)⟩,
      ⟨"threads", some (.int 8)⟩, ⟨"keyspace_count", some (.int perfBenchKeyspace)⟩,
      ⟨"warmup", some (.int 5)⟩, ⟨"duration", some (.int 30)⟩, ⟨"repetitions", some (.int 3)⟩,
      ⟨"write_rate", some (.int 50000)⟩, ⟨"write_connections", some (.int 16)⟩,
      ⟨"write_threads", some (.int 4)⟩, ⟨"write_pipelining", some (.int 1)⟩,
      ⟨"sample_interval", some (.float (.finite 1))⟩, ⟨"info_fields", some (.str "")⟩,
      ⟨"max_lag_seconds", some (.float (.finite 1))⟩, ⟨"read_rate_search", some (.bool false)⟩,
      ⟨"read_rate_start", some (.int 500000)⟩, ⟨"read_rate_max", some (.int 20000000)⟩,
      ⟨"read_rate_step", some (.float (.finite (3 / 2)))⟩,
      ⟨"read_rate_tolerance", some (.float (.finite (1 / 20)))⟩,
      ⟨"read_rate_max_bisect_steps", some (.int 8)⟩,
      ⟨"max_lag_slope", some (.float (.finite (1 / 50)))⟩,
      ⟨"cachecannon_binary", some (.str config.cachecannonBinary)⟩,
      ⟨"benchmark_cpu_override", some (.str "")⟩, ⟨"cpu_profile", some (.bool false)⟩]
  postInit :=
    [config.sourceStep, .toInt "warmup", .toInt "duration",
      .layout fun topology => InitStep.refuse (.ok topology.replicas.isEmpty)
        "replica-read needs at least one replica in its topology",
      .layout fun topology => InitStep.refuse (.ok (decide (hostCount topology ≠ some 1)))
        "replica-read runs every instance on the runner host; the topology must not name other hosts",
      .layout fun topology => InitStep.refuse
        (.ok (topology.instances.any fun i => decide (i.ioThreads = .null)))
        "every replica-read instance must set io_threads",
      atLeastOneStep "write_rate", atLeastOneStep "repetitions", atLeastOneStep "duration",
      .toFloat "max_lag_seconds", aboveZeroStep "max_lag_seconds",
      .refuse1 "sample_interval" "sample_interval must be > 0" fun v => Json.pyLe v (.int 0),
      atLeastOneStep "connections", atLeastOneStep "threads", atLeastOneStep "write_connections",
      atLeastOneStep "write_threads", atLeastOneStep "pipelining",
      atLeastOneStep "write_pipelining",
      .toBool "read_rate_search", .toFloat "max_lag_slope", aboveZeroStep "max_lag_slope",
      .check ["read_rate_search", "read_rate_start", "read_rate_step", "read_rate_max",
          "read_rate_tolerance", "read_rate_max_bisect_steps", "cpu_profile"] fun
        | [search, start, step, max, tolerance, steps, cpuProfile] =>
          if search.truthy then do
            rateSearch start step max tolerance steps
            InitStep.refuse (.ok cpuProfile.truthy)
              "cpu_profile cannot be combined with read_rate_search"
          else .ok ()
        | _ => .ok ()]

/-! ## Scenarios -/

def scenarioChoices : List String :=
  ["eval-storm", "scan-churn", "multi-exec", "flushall-spike", "expiry-heavy", "bgsave",
    "large-value-reader", "connection-storm"]

def connectionStorm : Json := .str "connection-storm"

def scenarioTaskData : TaskType where
  name     := "ScenarioTaskData"
  decls    :=
    [⟨"scenario", none⟩, ⟨"val_size", none⟩, ⟨"io_threads", none⟩, ⟨"pipelining", none⟩,
      ⟨"duration", none⟩, ⟨"warmup", some (.int 5)⟩, ⟨"perf_stat_enabled", some (.bool false)⟩,
      ⟨"repetitions", some (.int 3)⟩, ⟨"server_cpu_override", some (.str "")⟩,
      ⟨"benchmark_cpu_override", some (.str "")⟩, ⟨"background_set_ratio", some (.int 0)⟩,
      ⟨"server_args", some (.str "")⟩, ⟨"overlay_value_size", some (.int 0)⟩,
      ⟨"overlay_spec", some (.str "")⟩, ⟨"server_sample_ms", some (.int 0)⟩,
      ⟨"tls", some (.bool false)⟩, ⟨"background", some (.str "memtier")⟩,
      ⟨"server_sample_fields", some (.str "")⟩]
  postInit :=
    [config.sourceStep,
      .refuse1 "scenario" "Unknown scenario" fun v => .ok (!Json.inNames scenarioChoices v),
      .refuse1 "background_set_ratio" "background_set_ratio must be 0-100" fun v =>
        (do if ← Json.pyLe (.int 0) v then Json.pyLe v (.int 100) else pure false).map (! ·),
      .refuse1 "overlay_value_size" "overlay_value_size must be >= 0" (InitStep.below 0),
      .refuse1 "server_sample_ms" "server_sample_ms must be 0 (off) or >= 20" fun v =>
        InitStep.andThen (!Json.pyEq v (.int 0)) (InitStep.below 20 v),
      .check ["scenario", "overlay_spec"] fun
        | [scenario, overlay] =>
          if scenario = connectionStorm then config.parseStormSpec overlay
          else InitStep.refuse (.ok overlay.truthy)
            "overlay_spec is only valid for scenario 'connection-storm'"
        | _ => .ok (),
      .refuse1 "background" "background must be 'memtier' or 'none'" fun v =>
        .ok (!Json.inNames ["memtier", "none"] v),
      .refuse2 "background" "scenario"
        "background 'none' is only valid for scenario 'connection-storm'" fun background scenario =>
          .ok (decide (background = .str "none" ∧ scenario ≠ connectionStorm)),
      .refuse2 "tls" "scenario" "tls is only valid for scenario 'connection-storm'"
        fun tls scenario => .ok (tls.truthy && decide (scenario ≠ connectionStorm))]

/-! ## The registry -/

/-- The classes the task modules define. -/
def registered : List TaskType :=
  [config.cachecannonTaskData, config.memTaskData, config.perfTaskData, config.canaryPerfTaskData,
    config.boundedInsertionTaskData, config.replicaReadTaskData, config.scenarioTaskData]

/-! ## Sections written and read -/

section InfoSections

variable {unicode : UnicodeText}

/-- What the loop collects: visible lower-case names, none of them twice. -/
def Sections (unicode : UnicodeText) (sections : List (List Char)) : Prop :=
  (∀ name ∈ sections, name ≠ [] ∧ unicode.lower name = name ∧
    name.all (fun c => unicode.isAlnum c || decide (c = '_')) = true) ∧ sections.Nodup

theorem infoSectionsFrom_sections {sections pieces out : List (List Char)}
    (hsections : Sections unicode sections)
    (h : infoSectionsFrom unicode sections pieces = .ok out) : Sections unicode out := by
  induction pieces generalizing sections with
  | nil => cases h; exact hsections
  | cons raw rest ih =>
    unfold infoSectionsFrom at h
    dsimp only at h
    split at h
    · exact ih hsections h
    · next hne =>
      split at h
      · cases h
      · next hall =>
        refine ih ?_ h
        split
        · exact hsections
        · next hnew =>
          refine ⟨fun name hname => ?_, ?_⟩
          · rcases List.mem_append.mp hname with hname | hname
            · exact hsections.1 name hname
            · rw [List.mem_singleton.mp hname]
              exact ⟨fun he => hne (List.isEmpty_iff.mpr he), unicode.lower_lower _,
                not_not.mp hall⟩
          · rw [List.nodup_append]
            refine ⟨hsections.2, List.nodup_singleton _, ?_⟩
            intro a ha b hb
            rw [List.mem_singleton.mp hb]
            exact fun he => hnew (he ▸ ha)

/-- A visible name has nothing to strip. -/
theorem strip_visible {name : List Char}
    (h : name.all (fun c => unicode.isAlnum c || decide (c = '_')) = true) :
    PyText.strip name = name := by
  have hvisible : ∀ c ∈ name, PyText.isSpace c = false := by
    intro c hc
    have hchar := List.all_eq_true.mp h c hc
    rcases Bool.or_eq_true_iff.mp hchar with halnum | hscore
    · exact unicode.alnum_visible c halnum
    · rw [of_decide_eq_true hscore]
      decide
  have hdrop : ∀ l : List Char, (∀ c ∈ l, PyText.isSpace c = false) →
      l.dropWhile PyText.isSpace = l := by
    intro l hl
    rcases l with _ | ⟨c, l⟩
    · rfl
    · exact List.dropWhile_cons_of_neg (by simp [hl c List.mem_cons_self])
  rw [PyText.strip, hdrop name hvisible, hdrop name.reverse, List.reverse_reverse]
  intro c hc
  exact hvisible c (List.mem_reverse.mp hc)

/-- The loop over the names it has collected collects them again. -/
theorem infoSectionsFrom_self {before rest : List (List Char)}
    (h : Sections unicode (before ++ rest)) :
    infoSectionsFrom unicode before rest = .ok (before ++ rest) := by
  induction rest generalizing before with
  | nil => rw [List.append_nil]; rfl
  | cons name rest ih =>
    obtain ⟨hne, hlower, hall⟩ := h.1 name (by simp)
    have hnew : name ∉ before := by
      intro hmem
      have hdisjoint := (List.nodup_append.mp h.2).2.2 name hmem name List.mem_cons_self
      exact hdisjoint rfl
    have hnext : before ++ name :: rest = (before ++ [name]) ++ rest := by
      rw [List.append_assoc]
      rfl
    rw [infoSectionsFrom, strip_visible hall, hlower]
    simp only [List.isEmpty_iff, hne, if_false, hall, not_true_eq_false, hnew]
    rw [hnext] at h ⊢
    exact ih h

/-- **The sections that were joined are the ones the text is split into.** -/
theorem parseInfoSections_join {sections : List (List Char)} (h : Sections unicode sections) :
    parseInfoSections unicode (joinSections sections) = .ok sections := by
  rcases sections with _ | ⟨name, rest⟩
  · show infoSectionsFrom unicode [] ("".toList.splitOn ',') = .ok []
    have hpieces : "".toList.splitOn ',' = [[]] := List.splitOn_nil ','
    have hempty : unicode.lower (PyText.strip []) = [] := unicode.lower_nil
    rw [hpieces, infoSectionsFrom]
    simp [hempty, infoSectionsFrom]
  · have hcomma : ∀ l ∈ name :: rest, ',' ∉ l := by
      intro l hl hmem
      have hchar := List.all_eq_true.mp (h.1 l hl).2.2 ',' hmem
      rw [unicode.comma] at hchar
      exact absurd hchar (by decide)
    have hsplit : (List.intercalate [','] (name :: rest)).splitOn ',' = name :: rest :=
      List.splitOn_intercalate ',' hcomma (List.cons_ne_nil _ _)
    have htext : String.ofList (List.intercalate [','] (name :: rest)) ≠ "" := by
      intro hempty
      have hlist := congrArg String.toList hempty
      rw [String.toList_ofList] at hlist
      rw [hlist] at hsplit
      -- the text of one empty name is not what the loop collects
      have hname : [] = name := (List.cons.inj hsplit).1
      exact (h.1 name List.mem_cons_self).1 hname.symm
    have htruthy : (Json.str (String.ofList (List.intercalate [','] (name :: rest)))).truthy = true :=
      decide_eq_true htext
    show parseInfoSections unicode (.str _) = _
    rw [parseInfoSections, if_pos htruthy]
    show infoSectionsFrom unicode []
      ((String.ofList (List.intercalate [','] (name :: rest))).toList.splitOn ',') = _
    rw [String.toList_ofList, hsplit]
    exact infoSectionsFrom_self h

theorem infoSections_stable : (infoSectionsStep unicode).Stable := by
  intro v w h
  obtain ⟨sections, hsections, rfl⟩ := except_map_ok.mp h
  have hgood : Sections unicode sections := by
    have hnone : Sections unicode [] := ⟨fun _ hname => absurd hname List.not_mem_nil, List.nodup_nil⟩
    unfold parseInfoSections at hsections
    split at hsections
    · split at hsections
      · exact infoSectionsFrom_sections hnone hsections
      · cases hsections
    · exact infoSectionsFrom_sections hnone hsections
  show (parseInfoSections unicode (joinSections sections)).map joinSections = _
  rw [parseInfoSections_join hgood]
  rfl

end InfoSections

/-! ## Every class settles -/

/-- What the round trip of a document needs of a class. -/
structure WellFormed (cls : TaskType) : Prop where
  distinct : cls.fieldNames.Nodup
  stable   : ∀ step ∈ cls.postInit, step.Stable
  settled  : InitStep.Settled cls.postInit
  written  : ∀ x ∈ cls.postInit.flatMap InitStep.writes, x ∈ cls.fieldNames
  marker   : "sweep_commit" ∉ cls.postInit.flatMap InitStep.reads
  reserved : ∀ x ∈ ["topology", "task_type", "timestamp", "replicas", "__envelope_task_id"],
    x ∉ cls.fieldNames

theorem registered_names : (config.registered.map TaskType.name).Nodup := of_decide_eq_true rfl

theorem registered_distinct : ∀ cls ∈ config.registered, cls.fieldNames.Nodup :=
  of_decide_eq_true rfl

/-- The conversions are those of `InitStep` and that of `info_sections`. -/
theorem registered_stable : ∀ cls ∈ config.registered, ∀ step ∈ cls.postInit, step.Stable := by
  have hperf : ∀ step ∈ config.perfTaskData.postInit, step.Stable := by
    simp [perfTaskData, sourceStep]
  simp only [registered, List.forall_mem_cons]
  refine ⟨?_, ?_, hperf, hperf, ?_, ?_, ?_, by simp⟩
  · simp [cachecannonTaskData, sourceStep, infoSections_stable]
  · simp [memTaskData, sourceStep]
  · simp [boundedInsertionTaskData, sourceStep, positiveStep]
  · simp [replicaReadTaskData, sourceStep, atLeastOneStep, aboveZeroStep]
  · simp [scenarioTaskData, sourceStep]

theorem registered_settled : ∀ cls ∈ config.registered, InitStep.Settled cls.postInit :=
  of_decide_eq_true rfl

theorem registered_written : ∀ cls ∈ config.registered,
    ∀ x ∈ cls.postInit.flatMap InitStep.writes, x ∈ cls.fieldNames :=
  of_decide_eq_true rfl

theorem registered_marker : ∀ cls ∈ config.registered,
    "sweep_commit" ∉ cls.postInit.flatMap InitStep.reads :=
  of_decide_eq_true rfl

theorem registered_reserved : ∀ cls ∈ config.registered,
    ∀ x ∈ ["topology", "task_type", "timestamp", "replicas", "__envelope_task_id"],
      x ∉ cls.fieldNames :=
  of_decide_eq_true rfl

theorem registered_wellFormed {cls : TaskType} (h : cls ∈ config.registered) :
    WellFormed cls where
  distinct := config.registered_distinct cls h
  stable := config.registered_stable cls h
  settled := config.registered_settled cls h
  written := config.registered_written cls h
  marker := config.registered_marker cls h
  reserved := config.registered_reserved cls h

end TaskConfig

end Conductress
