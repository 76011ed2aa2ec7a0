import Mathlib.Algebra.BigOperators.Group.List.Basic
import Mathlib.Algebra.Order.Field.Rat
import Mathlib.Data.List.Dedup
import Mathlib.Data.List.Sort
import Mathlib.Tactic.NormNum
import Conductress.Lib.Table

/-!
# What bounded the score

`bottleneck_verdict` over the samples of a run. A thread or a core counts on the intervals
between two samples that both have it, and only where the clock has advanced; what is on no
interval is not in the tables at all (`mem_threadUtilization`, `mem_coreUtilization`).

The verdict takes an empty table of the reader's threads for an idle reader, and an empty
table of cores for a quiet host. `verdict_iff` says when the verdict `server` is one on
evidence all the same.

Rationals stand for the doubles of the code, and its means may come out beside theirs: a
reader whose ticks per second are 60, 86, 97 and 97 has a mean of 0.85 here, which is hot, and
of 0.8499999999999999 in the code, which is not.
-/

namespace Conductress.CpuSampling

open Lib

/-! ## Samples -/

structure ThreadTicks where
  comm  : String
  ticks : ℤ

structure CoreTicks where
  busy    : ℤ
  idle    : ℤ
  softirq : ℤ
  total   : ℤ

/-- A dictionary by thread or core. -/
abbrev Dict (α : Type) := Table (Prod.fst : ℕ × α → ℕ)

/-- A sample of the topology sampler, with the keys that it may lack. -/
structure Sample where
  t          : Option ℚ
  tLocal     : Option ℚ
  generators : Option (Table (Prod.fst : String × Dict ThreadTicks → String))
  cores      : Option (Dict CoreTicks)

/-- `(s.get("generators") or {}).get(role)`. -/
def Sample.generator (role : String) (s : Sample) : Option (Dict ThreadTicks) := do
  let generators ← s.generators
  let threads ← generators.find? role
  return threads.2

/-- `_window`. -/
def windowOf (samples : List Sample) (windowStart : ℚ) : List Sample :=
  samples.filter fun s => decide (windowStart ≤ s.t.getD 0)

/-- `zip(samples, samples[1:])`. -/
def intervals (samples : List Sample) : List (Sample × Sample) := samples.zip samples.tail

/-! ## Utilisation -/

section Utilisation

variable {α β : Type}

/-- What an interval says of the keys that both of its samples have. -/
def observed (value : α → α → Option β) (a b : Dict α) : List (ℕ × β) :=
  b.rows.filterMap fun now => do
    let before ← a.find? now.1
    let v ← value before.2 now.2
    return (now.1, v)

/-- `setdefault(key, []).append(value)`, one after the other. -/
def grouped (rows : List (ℕ × β)) : List (ℕ × List β) :=
  (rows.map Prod.fst).reverse.dedup.reverse.map fun k =>
    (k, (rows.filter fun row => decide (row.1 = k)).map Prod.snd)

def mean (values : List ℚ) : ℚ := values.sum / values.length

end Utilisation

/-- `USER_HZ`. -/
def userHz : ℚ := 100

/-- The utilisation of a thread over some time. -/
def threadUtil (dt : ℚ) (before now : ThreadTicks) : Option (String × ℚ) :=
  some (now.comm, max 0 ((now.ticks - before.ticks) / userHz / dt))

/-- What an interval says of the threads of a process. -/
def threadRows (getter : Sample → Option (Dict ThreadTicks)) (time : Sample → Option ℚ)
    (interval : Sample × Sample) : List (ℕ × String × ℚ) :=
  match getter interval.1, getter interval.2 with
  -- the process was there in both samples
  | some a, some b =>
    let dt := (time interval.2).getD 0 - (time interval.1).getD 0
    if dt ≤ 0 then [] else observed (threadUtil dt) a b
  | _, _ => []

structure ThreadUse where
  tid       : ℕ
  comm      : String
  mean      : ℚ
  max       : ℚ
  intervals : ℕ

/-- `thread_utilization`. -/
def threadUtilization (samples : List Sample) (getter : Sample → Option (Dict ThreadTicks))
    (time : Sample → Option ℚ) : List ThreadUse :=
  (grouped ((intervals samples).flatMap (threadRows getter time))).map fun entry =>
    { tid       := entry.1
      comm      := (entry.2.head?.map Prod.fst).getD ""
      mean      := CpuSampling.mean (entry.2.map Prod.snd)
      max       := (entry.2.map Prod.snd).max?.getD 0
      intervals := entry.2.length }

/-- The busy and softirq fractions of a core, if its counters have advanced. -/
def coreShares (before now : CoreTicks) : Option (ℚ × ℚ) :=
  let total := now.total - before.total
  -- counters that have not advanced say nothing of the core
  if total ≤ 0 then none
  else some ((now.busy - before.busy : ℤ) / total, (now.softirq - before.softirq : ℤ) / total)

/-- What an interval says of the cores. -/
def coreRows (interval : Sample × Sample) : List (ℕ × ℚ × ℚ) :=
  match interval.1.cores, interval.2.cores with
  | some a, some b => observed coreShares a b
  | _, _ => []

structure CoreUse where
  cpu         : ℕ
  busyMean    : ℚ
  busyMax     : ℚ
  softirqMean : ℚ

/-- `core_utilization`. -/
def coreUtilization (samples : List Sample) : List CoreUse :=
  (grouped ((intervals samples).flatMap coreRows)).map fun entry =>
    { cpu         := entry.1
      busyMean    := mean (entry.2.map Prod.fst)
      busyMax     := (entry.2.map Prod.fst).max?.getD 0
      softirqMean := mean (entry.2.map Prod.snd) }

/-! ## The verdict -/

/-- `GENERATOR_SATURATED_UTIL`. -/
def generatorSaturatedUtil : ℚ := 95 / 100

/-- `GENERATOR_HOT_UTIL`. -/
def generatorHotUtil : ℚ := 85 / 100

/-- `FOREIGN_BUSY_MAX`. -/
def foreignBusyMax : ℚ := 5 / 100

structure GeneratorSummary where
  threads        : ℕ
  maxThreadUtil  : Option ℚ
  meanThreadUtil : Option ℚ

/-- `_generator_summary`. -/
def generatorSummary (threads : List ThreadUse) : GeneratorSummary where
  threads        := threads.length
  maxThreadUtil  := (threads.map ThreadUse.mean).max?
  meanThreadUtil := if threads = [] then none else some (mean (threads.map ThreadUse.mean))

/-- `Parties`, as far as the verdict depends on it: the cores by label. -/
structure Parties where
  allocatedCpus : Table (Prod.fst : String × List ℕ → String)

namespace Parties

variable (parties : Parties)

def readerCpus : List ℕ := ((parties.allocatedCpus.find? "reader").map Prod.snd).getD []

def claimedCpus : List ℕ := parties.allocatedCpus.rows.flatMap Prod.snd

end Parties

inductive Verdict where
  | server
  | generator
  | host
  | ambiguous
  | unknown
  deriving DecidableEq

/-- The result, without its texts, the servers and the attribution of foreign cores. -/
structure BottleneckVerdict where
  verdict        : Verdict
  valid          : Bool
  samples        : ℕ
  reader         : Option GeneratorSummary
  writer         : Option GeneratorSummary
  coresSampled   : ℕ
  foreignChecked : Bool
  foreignCores   : ℕ
  foreignBusy    : List CoreUse

/-- `generator_summary`. -/
def summaryOf (window : List Sample) (role : String) : GeneratorSummary :=
  generatorSummary (threadUtilization window (Sample.generator role) Sample.tLocal)

/-- The sampled cores that nobody was given, if the reader is pinned. -/
def foreignCores (window : List Sample) (parties : Parties) : List CoreUse :=
  if parties.readerCpus = [] then []
  else (coreUtilization window).filter fun core => decide (core.cpu ∉ parties.claimedCpus)

/-- Those that are busy. -/
def foreignBusy (window : List Sample) (parties : Parties) : List CoreUse :=
  (foreignCores window parties).filter fun core => decide (foreignBusyMax < core.busyMean)

/-- `bottleneck_verdict`. -/
def bottleneckVerdict (samples : List Sample) (parties : Parties) (windowStart : ℚ) :
    BottleneckVerdict :=
  let window := windowOf samples windowStart
  if window.length < 2 then ⟨.unknown, false, window.length, none, none, 0, false, 0, []⟩
  else
    let reader := summaryOf window "reader"
    let busy := foreignBusy window parties
    let readerPeak := reader.maxThreadUtil.getD 0
    let verdict : Verdict :=
      -- a busy core that nobody was given comes before the generators
      if busy ≠ [] then .host
      else if generatorSaturatedUtil ≤ readerPeak then .generator
      else if generatorHotUtil ≤ readerPeak then .ambiguous
      else .server
    { verdict        := verdict
      valid          := decide (verdict = .server)
      samples        := window.length
      reader         := some reader
      writer         := some (summaryOf window "writer")
      coresSampled   := (coreUtilization window).length
      foreignChecked := decide (parties.readerCpus ≠ [])
      foreignCores   := (foreignCores window parties).length
      foreignBusy    := busy }

/-! ## What the samples have -/

section Measured

variable (window : List Sample)

/-- The utilisations of a thread, on the intervals whose samples both have it. -/
def threadUtils (getter : Sample → Option (Dict ThreadTicks)) (time : Sample → Option ℚ) (tid : ℕ) :
    List ℚ :=
  (intervals window).filterMap fun interval => do
    let a ← getter interval.1
    let b ← getter interval.2
    let before ← a.find? tid
    let now ← b.find? tid
    let dt := (time interval.2).getD 0 - (time interval.1).getD 0
    if 0 < dt then some (max 0 ((now.2.ticks - before.2.ticks) / userHz / dt)) else none

/-- The busy fractions of a core, on the intervals whose samples both have it. -/
def coreBusy (cpu : ℕ) : List ℚ :=
  (intervals window).filterMap fun interval => do
    let a ← interval.1.cores
    let b ← interval.2.cores
    let before ← a.find? cpu
    let now ← b.find? cpu
    if before.2.total < now.2.total then
      some ((now.2.busy - before.2.busy : ℤ) / (now.2.total - before.2.total : ℤ))
    else none

/-- The utilisations of a thread of the reader. -/
def readerUtils (tid : ℕ) : List ℚ := threadUtils window (Sample.generator "reader") Sample.tLocal tid

/-- **The evidence for the server**: the reader was measured and none of its threads is hot;
if it is pinned, cores were sampled, and none that nobody was given is busy. -/
structure Evidence (parties : Parties) : Prop where
  measured : ∃ tid, readerUtils window tid ≠ []
  cool     : ∀ tid, readerUtils window tid ≠ [] → mean (readerUtils window tid) < generatorHotUtil
  sampled  : parties.readerCpus ≠ [] → ∃ cpu, coreBusy window cpu ≠ []
  quiet    : parties.readerCpus ≠ [] → ∀ cpu, cpu ∉ parties.claimedCpus → coreBusy window cpu ≠ [] →
    mean (coreBusy window cpu) ≤ foreignBusyMax

end Measured

/-! ## The tables -/

section Tables

variable {α β γ ι : Type} {k : ℕ}

/-- Selecting what was made of rows is selecting the rows. -/
theorem filter_filterMap_key {f : α → Option β} {p : β → Bool} {q : α → Bool}
    (h : ∀ a b, f a = some b → p b = q a) (l : List α) :
    (l.filterMap f).filter p = (l.filter q).filterMap f := by
  induction l with
  | nil => rfl
  | cons a l ih =>
    rw [List.filterMap_cons, List.filter_cons]
    cases hfa : f a with
    | none =>
      dsimp only
      rw [ih]
      split
      · rw [List.filterMap_cons, hfa]
      · rfl
    | some b =>
      dsimp only
      rw [List.filter_cons, h a b hfa, ih]
      split
      · rw [List.filterMap_cons, hfa]
      · rfl

/-- An interval says at most one thing of a key. -/
theorem observed_key (value : α → α → Option β) (a b : Dict α) :
    ((observed value a b).filter fun row => decide (row.1 = k)).map Prod.snd =
      ((a.find? k).bind fun before => (b.find? k).bind fun now => value before.2 now.2).toList := by
  unfold observed
  -- the second sample has one row of the key at most
  rw [filter_filterMap_key (q := fun now => decide (now.1 = k)) fun now row hrow => ?_]
  · cases hfind : b.find? k with
    | none =>
      have hnone : (b.rows.filter fun now => decide (now.1 = k)) = [] := by
        refine List.filter_eq_nil_iff.mpr fun now hnow hkey => ?_
        exact (Table.find?_eq_none_iff.mp hfind) now hnow (of_decide_eq_true hkey)
      rw [hnone]
      cases a.find? k <;> rfl
    | some now =>
      obtain ⟨hmem, rfl⟩ := Table.find?_eq_some_iff.mp hfind
      rw [filter_eq_singleton b.nodup hmem, List.filterMap_cons, List.filterMap_nil]
      cases hbefore : a.find? now.1 with
      | none => simp
      | some before =>
        cases hvalue : value before.2 now.2 with
        | none => simp [hvalue]
        | some v => simp [hvalue]
  · obtain ⟨before, -, hrest⟩ := Option.bind_eq_some_iff.mp hrow
    obtain ⟨v, -, heq⟩ := Option.bind_eq_some_iff.mp hrest
    rw [← Option.some.inj heq]

/-- What all intervals say of a key. -/
theorem flatMap_key {rows : ι → List (ℕ × β)} {f : β → γ} {value : ι → Option γ}
    (h : ∀ i, ((rows i).filter fun row => decide (row.1 = k)).map (f ∘ Prod.snd) = (value i).toList)
    (l : List ι) :
    ((l.flatMap rows).filter fun row => decide (row.1 = k)).map (f ∘ Prod.snd) =
      l.filterMap value := by
  induction l with
  | nil => rfl
  | cons i l ih =>
    rw [List.flatMap_cons, List.filter_append, List.map_append, h, ih, List.filterMap_cons]
    cases value i <;> rfl

/-- The groups are those of the keys that were seen. -/
theorem mem_grouped {rows : List (ℕ × β)} {values : List β} : (k, values) ∈ grouped rows ↔
    values ≠ [] ∧ values = (rows.filter fun row => decide (row.1 = k)).map Prod.snd := by
  unfold grouped
  rw [List.mem_map]
  constructor
  · rintro ⟨j, hj, heq⟩
    obtain ⟨rfl, rfl⟩ := Prod.mk.inj heq
    refine ⟨?_, rfl⟩
    obtain ⟨row, hrow, rfl⟩ := List.mem_map.mp (by simpa using hj : j ∈ rows.map Prod.fst)
    intro hnil
    exact List.filter_eq_nil_iff.mp (List.map_eq_nil_iff.mp hnil) row hrow (decide_eq_true rfl)
  · rintro ⟨hne, rfl⟩
    obtain ⟨row, hrow⟩ := List.exists_mem_of_ne_nil (rows.filter fun row => decide (row.1 = k))
      fun hnil => hne (by rw [hnil]; rfl)
    obtain ⟨hmem, hkey⟩ := List.mem_filter.mp hrow
    refine ⟨k, ?_, rfl⟩
    have hk : k ∈ rows.map Prod.fst := List.mem_map.mpr ⟨row, hmem, of_decide_eq_true hkey⟩
    simpa using hk

variable {window : List Sample}

/-- What an interval says of a thread. -/
theorem threadRows_key (getter : Sample → Option (Dict ThreadTicks)) (time : Sample → Option ℚ)
    (interval : Sample × Sample) :
    ((threadRows getter time interval).filter fun row => decide (row.1 = k)).map
        (Prod.snd ∘ Prod.snd) =
      (do
        let a ← getter interval.1
        let b ← getter interval.2
        let before ← a.find? k
        let now ← b.find? k
        let dt := (time interval.2).getD 0 - (time interval.1).getD 0
        if 0 < dt then some (max 0 (((now.2.ticks : ℚ) - before.2.ticks) / userHz / dt))
        else none : Option ℚ).toList := by
  unfold threadRows
  cases getter interval.1 with
  | none => rfl
  | some a =>
    cases getter interval.2 with
    | none => rfl
    | some b =>
      dsimp only
      split
      · next hdt =>
        -- the clock has not advanced
        cases hbefore : a.find? k with
        | none => simp [hbefore]
        | some before =>
          cases hnow : b.find? k with
          | none => simp [hnow]
          | some now => simp [not_lt.mpr hdt]
      · next hdt =>
        rw [← List.map_map, observed_key]
        cases hbefore : a.find? k with
        | none => simp [hbefore]
        | some before =>
          cases hnow : b.find? k with
          | none => simp [hnow]
          | some now => simp [hbefore, hnow, not_le.mp hdt, threadUtil]

/-- **The table of threads** has those that were measured, with the means of their
utilisations. -/
theorem mem_threadUtilization {getter : Sample → Option (Dict ThreadTicks)}
    {time : Sample → Option ℚ} {m : ℚ} :
    (∃ use ∈ threadUtilization window getter time, use.tid = k ∧ use.mean = m) ↔
      threadUtils window getter time k ≠ [] ∧ m = mean (threadUtils window getter time k) := by
  have hutils : (((intervals window).flatMap (threadRows getter time)).filter fun row =>
      decide (row.1 = k)).map (Prod.snd ∘ Prod.snd) = threadUtils window getter time k :=
    flatMap_key (threadRows_key getter time) _
  constructor
  · rintro ⟨use, huse, rfl, rfl⟩
    obtain ⟨⟨tid, values⟩, hentry, rfl⟩ := List.mem_map.mp huse
    obtain ⟨hne, rfl⟩ := mem_grouped.mp hentry
    rw [← hutils, ← List.map_map]
    exact ⟨fun hnil => hne (List.map_eq_nil_iff.mp hnil), rfl⟩
  · rintro ⟨hne, rfl⟩
    rw [← hutils, ← List.map_map] at hne ⊢
    exact ⟨_, List.mem_map.mpr ⟨_, mem_grouped.mpr
      ⟨fun hnil => hne (by rw [hnil]; rfl), rfl⟩, rfl⟩, rfl, rfl⟩

/-- What an interval says of a core. -/
theorem coreRows_key (interval : Sample × Sample) :
    ((coreRows interval).filter fun row => decide (row.1 = k)).map (Prod.fst ∘ Prod.snd) =
      (do
        let a ← interval.1.cores
        let b ← interval.2.cores
        let before ← a.find? k
        let now ← b.find? k
        if before.2.total < now.2.total then
          some (((now.2.busy - before.2.busy : ℤ) : ℚ) / (now.2.total - before.2.total : ℤ))
        else none : Option ℚ).toList := by
  unfold coreRows
  cases interval.1.cores with
  | none => rfl
  | some a =>
    cases interval.2.cores with
    | none => rfl
    | some b =>
      rw [← List.map_map, observed_key]
      cases hbefore : a.find? k with
      | none => simp [hbefore]
      | some before =>
        cases hnow : b.find? k with
        | none => simp [hnow]
        | some now =>
          by_cases htotal : before.2.total < now.2.total
          · simp [hbefore, hnow, coreShares, htotal]
          · simp [hbefore, hnow, coreShares, htotal, not_lt.mp htotal]

/-- **The table of cores** has those that were measured, with the means of their busy
fractions. -/
theorem mem_coreUtilization {m : ℚ} :
    (∃ core ∈ coreUtilization window, core.cpu = k ∧ core.busyMean = m) ↔
      coreBusy window k ≠ [] ∧ m = mean (coreBusy window k) := by
  have hbusy : (((intervals window).flatMap coreRows).filter fun row =>
      decide (row.1 = k)).map (Prod.fst ∘ Prod.snd) = coreBusy window k :=
    flatMap_key coreRows_key _
  constructor
  · rintro ⟨core, hcore, rfl, rfl⟩
    obtain ⟨⟨cpu, values⟩, hentry, rfl⟩ := List.mem_map.mp hcore
    obtain ⟨hne, rfl⟩ := mem_grouped.mp hentry
    rw [← hbusy, ← List.map_map]
    exact ⟨fun hnil => hne (List.map_eq_nil_iff.mp hnil), rfl⟩
  · rintro ⟨hne, rfl⟩
    rw [← hbusy, ← List.map_map] at hne ⊢
    exact ⟨_, List.mem_map.mpr ⟨_, mem_grouped.mpr
      ⟨fun hnil => hne (by rw [hnil]; rfl), rfl⟩, rfl⟩, rfl, rfl⟩

end Tables

/-! ## The verdict on evidence -/

section Verdicts

variable (window : List Sample) (parties : Parties)

/-- A measured thread of the reader is hot. -/
def ReaderHot : Prop :=
  ∃ tid, readerUtils window tid ≠ [] ∧ generatorHotUtil ≤ mean (readerUtils window tid)

/-- The reader is pinned, and a measured core that nobody was given is busy. -/
def HostBusy : Prop :=
  parties.readerCpus ≠ [] ∧ ∃ cpu, cpu ∉ parties.claimedCpus ∧ coreBusy window cpu ≠ [] ∧
    foreignBusyMax < mean (coreBusy window cpu)

variable {window parties} {samples : List Sample} {windowStart : ℚ}

theorem foreignBusy_ne_nil_iff : foreignBusy window parties ≠ [] ↔ HostBusy window parties := by
  unfold foreignBusy foreignCores HostBusy
  constructor
  · intro hne
    -- a busy core is in the table, and so it was measured
    obtain ⟨core, hcore⟩ := List.exists_mem_of_ne_nil _ hne
    obtain ⟨hforeign, hbusy⟩ := List.mem_filter.mp hcore
    split at hforeign
    · cases hforeign
    · next hpinned =>
      obtain ⟨hmem, hclaimed⟩ := List.mem_filter.mp hforeign
      obtain ⟨hmeasured, hmean⟩ := mem_coreUtilization.mp ⟨core, hmem, rfl, rfl⟩
      refine ⟨hpinned, core.cpu, of_decide_eq_true hclaimed, hmeasured, ?_⟩
      rw [← hmean]
      exact of_decide_eq_true hbusy
  · rintro ⟨hpinned, cpu, hclaimed, hmeasured, hbusy⟩
    obtain ⟨core, hmem, rfl, hmean⟩ := mem_coreUtilization.mpr ⟨hmeasured, rfl⟩
    rw [if_neg hpinned]
    refine List.ne_nil_of_mem (List.mem_filter.mpr
      ⟨List.mem_filter.mpr ⟨hmem, decide_eq_true hclaimed⟩, decide_eq_true ?_⟩)
    rw [hmean]
    exact hbusy

/-- The reader's peak is below a limit, if and only if every measured thread is. -/
theorem readerPeak_lt_iff {limit : ℚ} (hlimit : 0 < limit) :
    (summaryOf window "reader").maxThreadUtil.getD 0 < limit ↔
      ∀ tid, readerUtils window tid ≠ [] → mean (readerUtils window tid) < limit := by
  show ((threadUtilization window (Sample.generator "reader") Sample.tLocal).map
    ThreadUse.mean).max?.getD 0 < limit ↔ _
  constructor
  · intro hpeak tid hmeasured
    obtain ⟨use, huse, rfl, hmean⟩ := mem_threadUtilization.mpr ⟨hmeasured, rfl⟩
    have hmem : use.mean ∈ (threadUtilization window (Sample.generator "reader")
        Sample.tLocal).map ThreadUse.mean := List.mem_map_of_mem huse
    cases hmax : ((threadUtilization window (Sample.generator "reader")
        Sample.tLocal).map ThreadUse.mean).max? with
    | none =>
      rw [List.max?_eq_none_iff] at hmax
      rw [hmax] at hmem
      cases hmem
    | some peak =>
      rw [hmax] at hpeak
      have hle := (List.max?_eq_some_iff.mp hmax).2 _ hmem
      rw [hmean] at hle
      exact lt_of_le_of_lt hle hpeak
  · intro hall
    cases hmax : ((threadUtilization window (Sample.generator "reader")
        Sample.tLocal).map ThreadUse.mean).max? with
    | none => exact hlimit
    | some peak =>
      obtain ⟨use, huse, rfl⟩ := List.mem_map.mp (List.max?_eq_some_iff.mp hmax).1
      obtain ⟨hmeasured, hmean⟩ := mem_threadUtilization.mp ⟨use, huse, rfl, rfl⟩
      show use.mean < limit
      rw [hmean]
      exact hall use.tid hmeasured

/-- **The verdict is `server`**, if and only if no cause was found in two samples or more. -/
theorem valid_iff : (bottleneckVerdict samples parties windowStart).valid = true ↔
    2 ≤ (windowOf samples windowStart).length ∧
      ¬ HostBusy (windowOf samples windowStart) parties ∧
      ¬ ReaderHot (windowOf samples windowStart) := by
  have hcool : ¬ ReaderHot (windowOf samples windowStart) ↔
      (summaryOf (windowOf samples windowStart) "reader").maxThreadUtil.getD 0 <
        generatorHotUtil := by
    -- a table without threads has the peak 0, which is below the limit
    have hpos : 0 < generatorHotUtil := by unfold generatorHotUtil; norm_num
    rw [readerPeak_lt_iff hpos]
    unfold ReaderHot
    constructor
    · exact fun h tid hmeasured => not_le.mp fun hhot => h ⟨tid, hmeasured, hhot⟩
    · rintro h ⟨tid, hmeasured, hhot⟩
      exact absurd hhot (not_le.mpr (h tid hmeasured))
  -- a saturated reader is hot too
  have hless : generatorHotUtil < generatorSaturatedUtil := by
    unfold generatorHotUtil generatorSaturatedUtil
    norm_num
  rw [hcool, ← foreignBusy_ne_nil_iff, not_not]
  unfold bottleneckVerdict
  dsimp only
  split
  · next hfew =>
    exact ⟨fun h => absurd h Bool.false_ne_true, fun h => absurd h.1 (by omega)⟩
  · next hmany =>
    rw [decide_eq_true_iff]
    split
    · next hbusy => exact ⟨fun h => (by cases h), fun h => absurd h.2.1 hbusy⟩
    · next hquiet =>
      split
      · next hsaturated =>
        exact ⟨fun h => (by cases h), fun h => absurd (hless.le.trans hsaturated) (not_le.mpr h.2.2)⟩
      · split
        · next hhot => exact ⟨fun h => (by cases h), fun h => absurd hhot (not_le.mpr h.2.2)⟩
        · next hcool' => exact ⟨fun _ => ⟨by omega, not_not.mp hquiet, not_le.mp hcool'⟩, fun _ => rfl⟩

/-- **The verdict `server` is on evidence**, if and only if there are fewer than two samples, a
busy core or a hot reader was found, or the reader was measured and, if it is pinned, so were
cores. -/
theorem verdict_iff : ((bottleneckVerdict samples parties windowStart).valid = true →
      Evidence (windowOf samples windowStart) parties) ↔
    (windowOf samples windowStart).length < 2 ∨ HostBusy (windowOf samples windowStart) parties ∨
      ReaderHot (windowOf samples windowStart) ∨
      (∃ tid, readerUtils (windowOf samples windowStart) tid ≠ []) ∧
        (parties.readerCpus ≠ [] → ∃ cpu, coreBusy (windowOf samples windowStart) cpu ≠ []) := by
  rw [valid_iff]
  generalize windowOf samples windowStart = window
  constructor
  · intro h
    -- a verdict that is not `server` needs no evidence
    by_cases hfew : window.length < 2
    · exact .inl hfew
    by_cases hbusy : HostBusy window parties
    · exact .inr (.inl hbusy)
    by_cases hhot : ReaderHot window
    · exact .inr (.inr (.inl hhot))
    have hevidence := h ⟨by omega, hbusy, hhot⟩
    exact .inr (.inr (.inr ⟨hevidence.measured, hevidence.sampled⟩))
  · rintro h ⟨hmany, hbusy, hhot⟩
    rcases h with hfew | hbusy' | hhot' | ⟨hmeasured, hsampled⟩
    · omega
    · exact absurd hbusy' hbusy
    · exact absurd hhot' hhot
    · refine ⟨hmeasured, fun tid htid => ?_, hsampled, fun hpinned cpu hclaimed hcpu => ?_⟩
      · exact not_le.mp fun hle => hhot ⟨tid, htid, hle⟩
      · exact not_lt.mp fun hlt => hbusy ⟨hpinned, cpu, hclaimed, hcpu, hlt⟩

end Verdicts

/-! ### A reader that was not measured -/

/-- Two samples with one core, which was idle between them. -/
def idleSamples : List Sample :=
  [⟨some 0, some 0, none, some ⟨[(0, ⟨0, 0, 0, 0⟩)], by decide⟩⟩,
    ⟨some 1, some 1, none, some ⟨[(0, ⟨0, 100, 0, 100⟩)], by decide⟩⟩]

/-- The reader on one core, the replica on another one. -/
def pinnedParties : Parties := ⟨⟨[("replica", [1]), ("reader", [2])], by decide⟩⟩

/-- The samples have nothing of the reader, and the verdict is `server`. -/
theorem unmeasured_reader_valid : (bottleneckVerdict idleSamples pinnedParties 0).valid = true ∧
    ¬ Evidence (windowOf idleSamples 0) pinnedParties := by
  refine ⟨by decide +kernel, fun hevidence => ?_⟩
  obtain ⟨tid, hmeasured⟩ := hevidence.measured
  exact hmeasured rfl

end Conductress.CpuSampling
