import Conductress.Control.Schema
import Mathlib.Algebra.Order.Field.Rat
import Mathlib.Data.List.Infix

/-!
# The result records

What each task runner writes to the results log when a run has succeeded: a
`BenchmarkResults` with the fields the analysis reads. A `Run` is a task and
what its repetitions measured; `Run.results` is the record of it.

Every writer decides for itself what goes into `data`, and under which name.
-/

namespace Conductress.Results

/-! ## Numbers -/

/-- `statistics.mean`. -/
def mean (xs : List Rat) : Rat := xs.foldr (· + ·) 0 / xs.length

/-- `statistics.median`. -/
def median (xs : List Rat) : Rat :=
  let sorted := xs.mergeSort fun a b => decide (a ≤ b)
  let half := xs.length / 2
  if xs.length % 2 = 1 then sorted.getD half 0
  else (sorted.getD (half - 1) 0 + sorted.getD half 0) / 2

inductive ScoreMetric where
  | throughput
  | p99
  deriving DecidableEq

def ScoreMetric.text : ScoreMetric → String
  | .throughput => "throughput"
  | .p99 => "p99"

inductive ScoreAggregate where
  | mean
  | median
  deriving DecidableEq

namespace ScoreAggregate

def text : ScoreAggregate → String
  | .mean => "mean"
  | .median => "median"

def of : ScoreAggregate → List Rat → Rat
  | .mean => Results.mean
  | .median => Results.median

end ScoreAggregate

def number (x : Rat) : Json := .float (.finite x)

def numbers (xs : List Rat) : Json := .arr (xs.map number)

/-! ## Records -/

structure BenchmarkResults where
  method    : String
  source    : String
  specifier : String
  score     : Rat
  data      : Fields
  makeArgs  : String

/-- The line `write_results` appends. -/
def BenchmarkResults.toRecord (r : BenchmarkResults) : Fields :=
  [("method", .str r.method), ("source", .str r.source), ("specifier", .str r.specifier),
    ("score", number r.score), ("data", .obj r.data), ("make_args", .str r.makeArgs)]

/-- What is measured. -/
structure Origin where
  source    : String
  specifier : String
  makeArgs  : String

/-! ## Performance runs -/

/-- `PerfTaskRunner.tests`. -/
def perfTests : List String :=
  ["set", "get", "sadd", "hset", "zadd", "zrank", "zcount", "zscore", "zrange", "zrangebyscore",
    "zrandmember", "zrem", "zpop", "sismember", "ping", "mget", "httl1", "httl8", "geohash1",
    "geohash8", "geopos8"]

/-- `self.max_reps if self.max_reps > 0 else self.repetitions`. -/
def effectiveReps (repetitions maxReps : Int) : Int := if 0 < maxReps then maxReps else repetitions

structure PerfRun where
  origin      : Origin
  test        : String
  valSize     : Int
  keySize     : Int
  ioThreads   : Int
  pipelining  : Int
  repetitions : Int
  maxReps     : Int
  /-- `rps_data` of every repetition: one sample a second. -/
  reps        : List (List Rat)
  known       : test ∈ perfTests
  ran         : reps ≠ []
  /-- A repetition without a sample raises. -/
  sampled     : ∀ rep ∈ reps, rep ≠ []
  atMost      : (reps.length : Int) ≤ effectiveReps repetitions maxReps

namespace PerfRun

variable (r : PerfRun)

def perRunRps : List Rat := r.reps.map mean

/-- The fields both branches of `__record_result` write. -/
def shape : Fields :=
  [("io-threads", .int r.ioThreads), ("pipeline", .int r.pipelining), ("size", .int r.valSize),
    ("key_size", .int r.keySize)]

/-- `__record_result`: the runs are passed to it when there may be several. -/
def results : BenchmarkResults where
  method    := "perf-" ++ r.test
  source    := r.origin.source
  specifier := r.origin.specifier
  makeArgs  := r.origin.makeArgs
  score     :=
    if 1 < effectiveReps r.repetitions r.maxReps ∧ 1 < r.perRunRps.length then mean r.perRunRps
    else mean (r.reps.getLast r.ran)
  data      :=
    if 1 < effectiveReps r.repetitions r.maxReps ∧ 1 < r.perRunRps.length then
      r.shape ++ [("repetitions", .int r.repetitions), ("per_run_rps", numbers r.perRunRps),
        ("mean_rps", number (mean r.perRunRps))]
    else r.shape ++ [("avg_rps", number (mean (r.reps.getLast r.ran)))]

end PerfRun

/-- Bounded insertions. -/
structure InsertionRun where
  origin      : Origin
  valSize     : Int
  keySize     : Int
  ioThreads   : Int
  pipelining  : Int
  repetitions : Int
  perRunRps   : List Rat
  ran         : perRunRps ≠ []
  all         : (perRunRps.length : Int) = repetitions

def InsertionRun.results (r : InsertionRun) : BenchmarkResults where
  method    := "perf-set-insertion"
  source    := r.origin.source
  specifier := r.origin.specifier
  makeArgs  := r.origin.makeArgs
  score     := if 1 < r.perRunRps.length then mean r.perRunRps else r.perRunRps.head r.ran
  data      :=
    [("key_size", .int r.keySize), ("size", .int r.valSize), ("io-threads", .int r.ioThreads),
      ("pipeline", .int r.pipelining), ("repetitions", .int r.repetitions),
      ("per_run_rps", numbers r.perRunRps)]

/-! ## Cachecannon runs -/

/-- What `parse_json_results` reads of one repetition. -/
structure Parsed where
  throughputRps : Rat
  p99Ms         : Rat

/-- `score_from_parsed`: a latency is scored in microseconds. -/
def scoreFromParsed : ScoreMetric → Parsed → Rat
  | .throughput, parsed => parsed.throughputRps
  | .p99, parsed => parsed.p99Ms * 1000

structure CachecannonRun where
  origin         : Origin
  test           : String
  setRatio       : Int
  distribution   : String
  valSize        : Int
  ioThreads      : Int
  pipelining     : Int
  connections    : Int
  threads        : Int
  keyspaceCount  : Int
  rateLimit      : Nat
  tls            : Bool
  clientNetns    : String
  scoreMetric    : ScoreMetric
  scoreAggregate : ScoreAggregate
  repetitions    : Int
  reps           : List Parsed
  ran            : reps ≠ []

namespace CachecannonRun

variable (r : CachecannonRun)

/-- `self.workload`. -/
def workload : String :=
  (if 0 < r.setRatio then "mixed s" ++ toString r.setRatio else r.test) ++
    (if r.distribution = "uniform" then "" else " " ++ r.distribution)

/-- `self.workload.replace(' ', '-')`. -/
def dashed : String := String.ofList (r.workload.toList.map fun c => if c = ' ' then '-' else c)

def tlsFlag : String := "BUILD_TLS=yes"

/-- `self.make_args`: a TLS cell builds a TLS binary. -/
def makeArgs : String :=
  if r.tls ∧ ¬ tlsFlag.toList <:+: r.origin.makeArgs.toList then
    String.ofList (PyText.strip (r.origin.makeArgs ++ " " ++ tlsFlag).toList)
  else r.origin.makeArgs

def perRunRps : List Rat := r.reps.map Parsed.throughputRps

/-- `per_run_scores`. -/
def scores : List Rat := r.reps.map (scoreFromParsed r.scoreMetric)

def score : Rat :=
  if 2 ≤ r.scores.length then r.scoreAggregate.of r.scores
  else r.scores.head (by simpa [scores] using r.ran)

def results : BenchmarkResults where
  method    := "cachecannon-" ++ r.dashed
  source    := r.origin.source
  specifier := r.origin.specifier
  makeArgs  := r.makeArgs
  score     := r.score
  data      :=
    [("io-threads", .int r.ioThreads), ("pipeline", .int r.pipelining),
      ("connections", .int r.connections), ("threads", .int r.threads), ("size", .int r.valSize),
      ("keyspace_count", .int r.keyspaceCount), ("set_ratio", .int r.setRatio),
      ("distribution", .str r.distribution), ("rate_limit", .int r.rateLimit),
      ("tls", .bool r.tls), ("client_netns", .str r.clientNetns),
      ("repetitions", .int r.repetitions), ("per_run_rps", numbers r.perRunRps),
      ("score_metric", .str r.scoreMetric.text), ("score_aggregate", .str r.scoreAggregate.text)] ++
    (if r.scoreMetric = .throughput then []
    else [("per_run_" ++ r.scoreMetric.text ++ "_us", numbers r.scores)])

end CachecannonRun

/-! ## Replica reads -/

structure ReplicaReadRun where
  origin         : Origin
  valSize        : Int
  ioThreads      : Int
  pipelining     : Int
  connections    : Int
  threads        : Int
  writeRate      : Int
  readRateSearch : Bool
  /-- `reader_rps` of every repetition. -/
  readerRps      : List Rat
  ran            : readerRps ≠ []

/-- `_record_result`; the search leaves a block of its own. -/
def ReplicaReadRun.results (r : ReplicaReadRun) : BenchmarkResults where
  method    := "replica-read"
  source    := r.origin.source
  specifier := r.origin.specifier
  makeArgs  := r.origin.makeArgs
  score     := mean r.readerRps
  data      :=
    [("io-threads", .int r.ioThreads), ("pipeline", .int r.pipelining),
      ("connections", .int r.connections), ("threads", .int r.threads), ("size", .int r.valSize),
      ("write_rate_target", .int r.writeRate), ("per_run_rps", numbers r.readerRps),
      ("mean_rps", number (mean r.readerRps))] ++
    (if r.readRateSearch then [("read_rate_search", .obj [])] else [])

/-! ## Scenarios -/

structure ScenarioRun where
  origin           : Origin
  scenario         : String
  valSize          : Int
  ioThreads        : Int
  pipelining       : Int
  overlayValueSize : Int
  repetitions      : Int
  perRunRps        : List Rat
  ran              : perRunRps ≠ []
  all              : (perRunRps.length : Int) = repetitions

namespace ScenarioRun

variable (r : ScenarioRun)

/-- `LARGE_VALUE_READER_DEFAULT_SIZE`, for a size that is not given. -/
def effectiveOverlaySize : Int := if 0 < r.overlayValueSize then r.overlayValueSize else 10240

/-- The size of the values the overlay reads, where it reads large ones. -/
def overlaySizes : List Int :=
  if r.scenario = "large-value-reader" then [r.effectiveOverlaySize] else []

/-- `run`, after the last repetition. -/
def results : BenchmarkResults where
  method    := "scenario-" ++ r.scenario
  source    := r.origin.source
  specifier := r.origin.specifier
  makeArgs  := r.origin.makeArgs
  score     := mean r.perRunRps
  data      :=
    [("scenario", .str r.scenario), ("io_threads", .int r.ioThreads),
      ("pipeline", .int r.pipelining), ("size", .int r.valSize),
      ("repetitions", .int r.repetitions), ("per_run_rps", numbers r.perRunRps),
      ("mean_rps", number (mean r.perRunRps))] ++
    r.overlaySizes.map fun size => ("overlay_value_size", .int size)

end ScenarioRun

/-! ## Memory efficiency -/

structure MemRun where
  origin    : Origin
  test      : String
  keySize   : Int
  fieldSize : Int
  /-- Every value size with the overhead of an item. -/
  overheads : List (Int × Rat)

namespace MemRun

variable (r : MemRun)

/-- Several sizes have no single score. -/
def score : Rat :=
  match r.overheads with
  | [(_, overhead)] => overhead
  | _ => -1

def results : BenchmarkResults where
  method    := "mem-" ++ r.test
  source    := r.origin.source
  specifier := r.origin.specifier
  makeArgs  := r.origin.makeArgs
  score     := r.score
  data      := [("results", .arr (r.overheads.map fun o =>
    .obj [("val_size", .int o.1), ("per_item_overhead", number o.2)]))]

end MemRun

/-! ## All of them -/

inductive TaskRun where
  | perf (r : PerfRun)
  | insertion (r : InsertionRun)
  | cachecannon (r : CachecannonRun)
  | replicaRead (r : ReplicaReadRun)
  | scenario (r : ScenarioRun)
  | mem (r : MemRun)

namespace TaskRun

def results : TaskRun → BenchmarkResults
  | .perf r => r.results
  | .insertion r => r.results
  | .cachecannon r => r.results
  | .replicaRead r => r.results
  | .scenario r => r.results
  | .mem r => r.results

/-- The record in the results log. -/
def toRecord (run : TaskRun) : Fields := run.results.toRecord

/-- What the repetitions measured of the quantity the score is about; over
several sizes a memory run has no such quantity. -/
def measured : TaskRun → List Rat
  | .perf r => r.perRunRps
  | .insertion r => r.perRunRps
  | .cachecannon r => r.scores
  | .replicaRead r => r.readerRps
  | .scenario r => r.perRunRps
  | .mem r =>
    match r.overheads with
    | [(_, overhead)] => [overhead]
    | _ => []

/-- The aggregate a record declares; the mean where it declares none. -/
def aggregate : TaskRun → ScoreAggregate
  | .cachecannon r => r.scoreAggregate
  | _ => .mean

end TaskRun

end Conductress.Results
