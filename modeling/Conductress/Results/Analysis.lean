import Conductress.Results.Records
import Conductress.Lib.Except
import Conductress.Lib.Table

/-!
# The comparison of result records

`AnalysisModule`: what it reads of a record — its samples and the key of the
comparison group it belongs to — and the loop that groups the records of two
specifiers.

The samples are read back under two names, `per_run_rps` and `score`, by a
requested number of repetitions. `samples_faithful_iff` says for which runs they
are what the score was aggregated from.
-/

namespace Conductress.Results

open Conductress.Lib

/-! ## Reading a record -/

/-- `str(value)` inside a key: a text is itself. -/
structure ValueText where
  text     : Json → String
  text_str : ∀ s, text (.str s) = s

/-- `fields.get(key, default)`. -/
def getOr (fields : Fields) (key : String) (default : Json) : Json :=
  (Json.lookup fields key).getD default

/-- `record.get("data", {})`, as something with a `get`. -/
def dataOf (record : Fields) : Except PyError Fields :=
  match getOr record "data" (.obj []) with
  | .obj data => .ok data
  | _ => .error (.attributeError "object has no attribute 'get'")

/-- `value > 1`. -/
def aboveOne : Json → Except PyError Bool
  | .bool _ => .ok false
  | .int n => .ok (decide (1 < n))
  | .float (.finite q) => .ok (decide (1 < q))
  | .float (.inf negative) => .ok (!negative)
  | .float .nan => .ok false
  | _ => .error (.typeError "'>' not supported")

/-- `list(value)`. -/
def listOf : Json → Except PyError (List Json)
  | .arr items => .ok items
  | .str s => .ok (s.toList.map fun c => .str (String.ofList [c]))
  | .obj fields => .ok (fields.map fun f => .str f.1)
  | _ => .error (.typeError "object is not iterable")

/-- `_extract_samples`. -/
def extractSamples (record : Fields) : Except PyError (List Json) := do
  let data ← dataOf record
  let repeated ← aboveOne (getOr data "repetitions" (.int 1))
  match repeated, Json.lookup data "per_run_rps" with
  | true, some runs => listOf runs
  | _, _ =>
    match getOr record "score" .null with
    | .null => return []
    | score =>
      let value ← score.pyFloat
      return [.float value]

/-! ## The samples of a run -/

/-- The samples are one value for each repetition of the quantity the score is
about, and the declared aggregate of them is the score. -/
def SamplesFaithful (run : TaskRun) : Prop :=
  extractSamples run.toRecord = .ok (run.measured.map number) ∧
    run.aggregate.of run.measured = run.results.score

/-- The runs whose samples survive: one repetition, or more than one asked for
and the scored quantity kept under `per_run_rps`. -/
def TaskRun.SamplesKept : TaskRun → Prop
  | .perf r => r.reps.length = 1 ∨ 1 < r.repetitions
  | .insertion _ => True
  | .cachecannon r =>
    if 1 < r.repetitions then
      r.scoreMetric = .throughput ∨ ∀ parsed ∈ r.reps, parsed.p99Ms * 1000 = parsed.throughputRps
    else r.reps.length = 1
  | .replicaRead r => r.readerRps.length = 1
  | .scenario _ => True
  | .mem r => r.overheads.length = 1

theorem number_injective : Function.Injective number := by
  intro x y h
  simpa [number] using h

theorem mean_singleton (x : Rat) : mean [x] = x := by
  show (x + 0) / ((1 : Nat) : Rat) = x
  rw [Rat.add_zero]
  exact div_one x

theorem median_singleton (x : Rat) : median [x] = x := by
  simp [median]

/-- One repetition is its own aggregate. -/
theorem ScoreAggregate.of_singleton (aggregate : ScoreAggregate) (x : Rat) :
    aggregate.of [x] = x := by
  cases aggregate with
  | mean => exact mean_singleton x
  | median => exact median_singleton x

section Reading

variable (b : BenchmarkResults)

/-- Without a repetition count, or with one, the score is the only sample. -/
theorem extractSamples_score (repetitions : Option Int)
    (hreps : Json.lookup b.data "repetitions" = repetitions.map .int)
    (hone : ∀ n ∈ repetitions, n ≤ 1) : extractSamples b.toRecord = .ok [number b.score] := by
  have habove : aboveOne (getOr b.data "repetitions" (.int 1)) = .ok false := by
    cases repetitions with
    | none => simp [getOr, hreps, aboveOne]
    | some n => simpa [getOr, hreps, aboveOne] using hone n rfl
  show (aboveOne (getOr b.data "repetitions" (.int 1)) >>= _) = _
  rw [habove]
  rfl

/-- With more than one the recorded runs are the samples. -/
theorem extractSamples_runs (repetitions : Int) {runs : List Rat}
    (hreps : Json.lookup b.data "repetitions" = some (.int repetitions))
    (hmany : 1 < repetitions)
    (hruns : Json.lookup b.data "per_run_rps" = some (numbers runs)) :
    extractSamples b.toRecord = .ok (runs.map number) := by
  have habove : aboveOne (getOr b.data "repetitions" (.int 1)) = .ok true := by
    simp [getOr, hreps, aboveOne, hmany]
  show (aboveOne (getOr b.data "repetitions" (.int 1)) >>= _) = _
  rw [habove]
  show (match true, Json.lookup b.data "per_run_rps" with
    | true, some runs => listOf runs
    | _, _ => _) = _
  rw [hruns]
  rfl

/-- A record whose runs, if recorded, are not empty has samples. -/
theorem exists_extractSamples (repetitions : Option Int) (runs : Option (List Rat))
    (hreps : Json.lookup b.data "repetitions" = repetitions.map .int)
    (hruns : Json.lookup b.data "per_run_rps" = runs.map numbers) (hran : ∀ rs ∈ runs, rs ≠ []) :
    ∃ samples, extractSamples b.toRecord = .ok samples ∧ samples ≠ [] := by
  by_cases hone : ∀ n ∈ repetitions, n ≤ 1
  · exact ⟨_, extractSamples_score b repetitions hreps hone, List.cons_ne_nil _ _⟩
  · push Not at hone
    obtain ⟨n, hn, hmany⟩ := hone
    have hcount : Json.lookup b.data "repetitions" = some (.int n) := by
      rw [hreps, Option.mem_def.mp hn]
      rfl
    cases runs with
    | some rs =>
      refine ⟨_, extractSamples_runs b n hcount hmany hruns, ?_⟩
      simpa using hran rs rfl
    | none =>
      have habove : aboveOne (getOr b.data "repetitions" (.int 1)) = .ok true := by
        simp [getOr, hcount, aboveOne, hmany]
      refine ⟨[number b.score], ?_, List.cons_ne_nil _ _⟩
      show (aboveOne (getOr b.data "repetitions" (.int 1)) >>= _) = _
      rw [habove]
      show (match true, Json.lookup b.data "per_run_rps" with
        | true, some runs => listOf runs
        | _, _ => _) = _
      rw [hruns]
      rfl

end Reading

section Verdicts

variable (run : TaskRun)

/-- When the score is all that is read, it has to be the only measurement. -/
theorem samplesFaithful_of_score
    (h : extractSamples run.toRecord = .ok [number run.results.score]) :
    SamplesFaithful run ↔ run.measured = [run.results.score] := by
  unfold SamplesFaithful
  rw [h]
  constructor
  · rintro ⟨hsamples, -⟩
    have hlist : [run.results.score].map number = run.measured.map number := by
      injection hsamples
    exact (number_injective.list_map hlist).symm
  · intro hmeasured
    rw [hmeasured]
    exact ⟨rfl, run.aggregate.of_singleton _⟩

/-- When recorded runs are read, they have to be what was measured. -/
theorem samplesFaithful_of_runs {runs : List Rat}
    (h : extractSamples run.toRecord = .ok (runs.map number))
    (hscore : run.aggregate.of run.measured = run.results.score) :
    SamplesFaithful run ↔ run.measured = runs := by
  unfold SamplesFaithful
  rw [h]
  constructor
  · rintro ⟨hsamples, -⟩
    have hlist : runs.map number = run.measured.map number := by
      injection hsamples
    exact (number_injective.list_map hlist).symm
  · intro hmeasured
    refine ⟨?_, hscore⟩
    rw [hmeasured]

end Verdicts

theorem length_eq_one_or {α : Type} {xs : List α} (h : xs ≠ []) :
    (∃ x, xs = [x]) ∨ 1 < xs.length := by
  match xs with
  | [] => exact absurd rfl h
  | [x] => exact .inl ⟨x, rfl⟩
  | _ :: _ :: _ => exact .inr (by simp)

theorem PerfRun.samplesFaithful_iff (r : PerfRun) :
    SamplesFaithful (.perf r) ↔ r.reps.length = 1 ∨ 1 < r.repetitions := by
  have hlength : r.perRunRps.length = r.reps.length := by simp [PerfRun.perRunRps]
  rcases length_eq_one_or r.ran with ⟨rep, hrep⟩ | hmany
  · -- one repetition: the branch without a count
    have hruns : r.perRunRps = [mean rep] := by simp [PerfRun.perRunRps, hrep]
    have hresults : r.results.score = mean rep ∧
        r.results.data = r.shape ++ [("avg_rps", number (mean rep))] := by
      simp [PerfRun.results, hruns, hrep]
    have hread : extractSamples r.results.toRecord = .ok [number r.results.score] := by
      refine extractSamples_score _ none ?_ (by simp)
      rw [hresults.2]
      rfl
    rw [samplesFaithful_of_score (.perf r) hread]
    show r.perRunRps = [r.results.score] ↔ _
    simp [hruns, hresults.1, hrep]
  · have heffective : 1 < effectiveReps r.repetitions r.maxReps := by
      have := r.atMost
      omega
    have hbranch : 1 < effectiveReps r.repetitions r.maxReps ∧ 1 < r.perRunRps.length :=
      ⟨heffective, by omega⟩
    have hscore : r.results.score = mean r.perRunRps := by
      simp only [PerfRun.results, if_pos hbranch]
    have hdata : r.results.data = r.shape ++ [("repetitions", .int r.repetitions),
        ("per_run_rps", numbers r.perRunRps), ("mean_rps", number (mean r.perRunRps))] := by
      simp only [PerfRun.results, if_pos hbranch]
    by_cases hasked : 1 < r.repetitions
    · have hread : extractSamples r.results.toRecord = .ok (r.perRunRps.map number) := by
        refine extractSamples_runs _ r.repetitions ?_ hasked ?_
        · rw [hdata]
          rfl
        · rw [hdata]
          rfl
      rw [samplesFaithful_of_runs (.perf r) hread hscore.symm]
      exact iff_of_true rfl (.inr hasked)
    · -- an adaptive run that asked for one repetition and made more
      have hread : extractSamples r.results.toRecord = .ok [number r.results.score] := by
        refine extractSamples_score _ (some r.repetitions) ?_ ?_
        · rw [hdata]
          rfl
        · intro n hn
          cases hn
          omega
      rw [samplesFaithful_of_score (.perf r) hread]
      refine iff_of_false ?_ (by omega)
      intro hmeasured
      have := congrArg List.length (show r.perRunRps = [r.results.score] from hmeasured)
      simp at this
      omega

theorem InsertionRun.samplesFaithful (r : InsertionRun) : SamplesFaithful (.insertion r) := by
  have hall := r.all
  rcases length_eq_one_or r.ran with ⟨x, hx⟩ | hmany
  · have hscore : r.results.score = x := by simp [InsertionRun.results, hx]
    have hread : extractSamples r.results.toRecord = .ok [number r.results.score] := by
      refine extractSamples_score _ (some r.repetitions) rfl ?_
      intro n hn
      cases hn
      rw [← hall, hx]
      exact Int.le_refl 1
    rw [samplesFaithful_of_score (.insertion r) hread]
    show r.perRunRps = [r.results.score]
    rw [hx, hscore]
  · have hscore : r.results.score = mean r.perRunRps := by
      simp only [InsertionRun.results, if_pos hmany]
    have hread : extractSamples r.results.toRecord = .ok (r.perRunRps.map number) :=
      extractSamples_runs _ r.repetitions rfl (by omega) rfl
    rw [samplesFaithful_of_runs (.insertion r) hread hscore.symm]
    rfl

theorem ScenarioRun.samplesFaithful (r : ScenarioRun) : SamplesFaithful (.scenario r) := by
  have hall := r.all
  rcases length_eq_one_or r.ran with ⟨x, hx⟩ | hmany
  · have hscore : r.results.score = x := by
      show mean r.perRunRps = x
      rw [hx, mean_singleton]
    have hread : extractSamples r.results.toRecord = .ok [number r.results.score] := by
      refine extractSamples_score _ (some r.repetitions) rfl ?_
      intro n hn
      cases hn
      rw [← hall, hx]
      exact Int.le_refl 1
    rw [samplesFaithful_of_score (.scenario r) hread]
    show r.perRunRps = [r.results.score]
    rw [hx, hscore]
  · have hread : extractSamples r.results.toRecord = .ok (r.perRunRps.map number) :=
      extractSamples_runs _ r.repetitions rfl (by omega) rfl
    rw [samplesFaithful_of_runs (.scenario r) hread rfl]
    rfl

/-- The throughput of every repetition is what is kept, whatever is scored. -/
theorem CachecannonRun.samplesFaithful_iff (r : CachecannonRun) :
    SamplesFaithful (.cachecannon r) ↔ TaskRun.SamplesKept (.cachecannon r) := by
  have hlength : r.scores.length = r.reps.length := by simp [CachecannonRun.scores]
  have hscore : r.scoreAggregate.of r.scores = r.score := by
    unfold CachecannonRun.score
    split
    · rfl
    · next hfew =>
      rcases length_eq_one_or r.ran with ⟨parsed, hreps⟩ | hmany
      · simp [CachecannonRun.scores, hreps, ScoreAggregate.of_singleton]
      · omega
  by_cases hasked : 1 < r.repetitions
  · have hread : extractSamples r.results.toRecord = .ok (r.perRunRps.map number) := by
      refine extractSamples_runs _ r.repetitions ?_ hasked ?_
      all_goals rfl
    rw [samplesFaithful_of_runs (.cachecannon r) hread hscore]
    simp only [TaskRun.SamplesKept, if_pos hasked]
    show r.scores = r.perRunRps ↔ _
    unfold CachecannonRun.scores CachecannonRun.perRunRps
    rw [List.map_inj_left]
    cases hmetric : r.scoreMetric with
    | throughput => exact iff_of_true (fun _ _ => rfl) (.inl rfl)
    | p99 =>
      constructor
      · exact .inr
      · rintro (h | h)
        · cases h
        · exact h
  · have hread : extractSamples r.results.toRecord = .ok [number r.results.score] := by
      refine extractSamples_score _ (some r.repetitions) rfl ?_
      intro n hn
      cases hn
      omega
    rw [samplesFaithful_of_score (.cachecannon r) hread]
    simp only [TaskRun.SamplesKept, if_neg hasked]
    show r.scores = [r.score] ↔ _
    rw [← hlength]
    constructor
    · intro h
      rw [h]
      rfl
    · intro h
      obtain ⟨x, hx⟩ := List.length_eq_one_iff.mp h
      rw [hx, ← hscore, hx, ScoreAggregate.of_singleton]

/-- No repetition count is written, so the score is the only sample. -/
theorem ReplicaReadRun.samplesFaithful_iff (r : ReplicaReadRun) :
    SamplesFaithful (.replicaRead r) ↔ r.readerRps.length = 1 := by
  have hcount : Json.lookup r.results.data "repetitions" = none := by
    unfold ReplicaReadRun.results
    cases r.readRateSearch <;> rfl
  have hread : extractSamples r.results.toRecord = .ok [number r.results.score] :=
    extractSamples_score _ none hcount (by simp)
  rw [samplesFaithful_of_score (.replicaRead r) hread]
  show r.readerRps = [mean r.readerRps] ↔ _
  constructor
  · intro h
    rw [h]
    rfl
  · intro h
    obtain ⟨x, hx⟩ := List.length_eq_one_iff.mp h
    rw [hx, mean_singleton]

theorem MemRun.samplesFaithful_iff (r : MemRun) :
    SamplesFaithful (.mem r) ↔ r.overheads.length = 1 := by
  have hread : extractSamples r.results.toRecord = .ok [number r.results.score] :=
    extractSamples_score _ none rfl (by simp)
  rw [samplesFaithful_of_score (.mem r) hread]
  match hover : r.overheads with
  | [] => simp [TaskRun.measured, hover]
  | [(_, overhead)] => simp [TaskRun.measured, TaskRun.results, MemRun.results, MemRun.score, hover]
  | _ :: _ :: _ => simp [TaskRun.measured, hover]

/-- Reader and writer agree on the samples of exactly the runs whose scored
quantity is kept, repetition by repetition, where the reader looks. -/
theorem samples_faithful_iff (run : TaskRun) : SamplesFaithful run ↔ run.SamplesKept := by
  match run with
  | .perf r => exact r.samplesFaithful_iff
  | .insertion r => exact iff_of_true r.samplesFaithful trivial
  | .cachecannon r => exact r.samplesFaithful_iff
  | .replicaRead r => exact r.samplesFaithful_iff
  | .scenario r => exact iff_of_true r.samplesFaithful trivial
  | .mem r => exact r.samplesFaithful_iff

/-- A latency cell of three repetitions. -/
def latencyRun : CachecannonRun where
  origin         := ⟨"valkey", "unstable", ""⟩
  test           := "get"
  setRatio       := 0
  distribution   := "uniform"
  valSize        := 512
  ioThreads      := 9
  pipelining     := 1
  connections    := 1200
  threads        := 16
  keyspaceCount  := 3000000
  rateLimit      := 100000
  tls            := false
  clientNetns    := ""
  scoreMetric    := .p99
  scoreAggregate := .mean
  repetitions    := 3
  reps           := [⟨100000, 1 / 2⟩, ⟨99999, 3 / 5⟩, ⟨100001, 7 / 10⟩]
  ran            := by simp

/-- Its samples are throughputs, its score is a latency. -/
theorem latencyRun_samples : ¬ ∀ run : TaskRun, SamplesFaithful run := by
  intro h
  have hsamples : extractSamples (TaskRun.cachecannon latencyRun).toRecord =
      .ok [number 100000, number 99999, number 100001] := by decide +kernel
  have hmeasured : extractSamples (TaskRun.cachecannon latencyRun).toRecord =
      .ok ((TaskRun.cachecannon latencyRun).measured.map number) := (h (.cachecannon latencyRun)).1
  rw [hsamples] at hmeasured
  revert hmeasured
  decide +kernel

end Conductress.Results
