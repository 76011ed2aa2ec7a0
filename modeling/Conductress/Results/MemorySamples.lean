import Mathlib.Data.Finset.Sort
import Mathlib.Tactic.FieldSimp
import Mathlib.Tactic.Positivity
import Conductress.Base.Json
import Conductress.Base.Rounding
import Conductress.Lib.Except
import Conductress.Lib.Table

/-!
# The memory series

`parse_info_blob`, the ticks of `MemorySampler` and `downsample`. With exact numbers the
stride is longer than one, so no two of its multiples are rounded to one index, and the
first and the last are the ends; at a cap of one point it is not defined.

## Results

* `downsample_thins_iff` — when `downsample` answers with a series as it is meant to be;
* `Thins.sublist` — which is in the order of the samples;
* `MemorySampler.samples_increasing` — the series of a sampler whose clock goes forward.
-/

namespace Conductress.MemoryCapture

open Lib

/-! ## Downsampling -/

/-- The exceptions of `downsample`. -/
inductive SampleError where
  | zeroDivisionError
  | indexError
  deriving DecidableEq

/-- `/` of two `int`s, exact. -/
def trueDiv (a b : ℤ) : Except SampleError ℚ :=
  if b = 0 then .error .zeroDivisionError else .ok (a / b)

variable {α : Type}

/-- `samples[i]`; a negative index counts from the end. -/
def pyIndex (samples : List α) (i : ℤ) : Except SampleError α :=
  let k := if i < 0 then i + samples.length else i
  if k < 0 then .error .indexError
  else
    match samples[k.toNat]? with
    | some sample => .ok sample
    | none => .error .indexError

/-- The indices in order, each once. -/
def strideIndices (step : ℚ) (maxPoints : ℤ) : List ℤ :=
  (((List.range maxPoints.toNat).map fun i : ℕ => pyRound (i * step)).toFinset).sort (· ≤ ·)

/-- `downsample`. -/
def downsample (samples : List α) (maxPoints : ℤ) : Except SampleError (List α) :=
  if maxPoints ≤ 0 then .ok []
  else if (samples.length : ℤ) ≤ maxPoints then .ok samples
  else do
    let step ← trueDiv (samples.length - 1) (maxPoints - 1)
    (strideIndices step maxPoints).mapM (pyIndex samples)

/-- A series of at most `maxPoints` of the samples, at these positions, from the first to
the last. -/
structure Thins (samples : List α) (maxPoints : ℤ) (positions : List ℕ) (out : List α) : Prop where
  increasing : positions.Pairwise (· < ·)
  values     : positions.map (samples[·]?) = out.map some
  length     : (out.length : ℤ) = min (samples.length : ℤ) maxPoints
  first      : samples ≠ [] → positions.head? = some 0
  last       : samples ≠ [] → 2 ≤ maxPoints → positions.getLast? = some (samples.length - 1)

/-! ### The stride -/

section Stride

variable {step : ℚ} {i j m n : ℕ}

/-- A stride of more than one never comes to one index twice. -/
theorem round_mul_lt (hstep : 1 < step) (h : i < j) : pyRound (i * step) < pyRound (j * step) := by
  have hnext : (i : ℚ) + 1 ≤ j := by exact_mod_cast h
  have hgap : (i + 1) * step ≤ j * step := mul_le_mul_of_nonneg_right hnext (by linarith)
  exact pyRound_lt_pyRound (by linarith)

theorem round_mul_le (hstep : 1 < step) (h : i ≤ j) : pyRound (i * step) ≤ pyRound (j * step) := by
  rcases h.lt_or_eq with hlt | rfl
  · exact (round_mul_lt hstep hlt).le
  · exact le_rfl

theorem pairwise_round_mul (hstep : 1 < step) (k : ℕ) :
    ((List.range k).map fun i : ℕ => pyRound (i * step)).Pairwise (· < ·) := by
  rw [List.pairwise_map]
  exact List.pairwise_lt_range.imp fun h => round_mul_lt hstep h

/-- So that all of the points are there, in order. -/
theorem strideIndices_eq (hstep : 1 < step) (k : ℕ) :
    strideIndices step k = (List.range k).map fun i : ℕ => pyRound (i * step) := by
  have hincreasing := pairwise_round_mul hstep k
  unfold strideIndices
  rw [Int.toNat_natCast]
  exact (List.toFinset_sort (· ≤ ·) (hincreasing.imp ne_of_lt)).mpr (hincreasing.imp le_of_lt)

/-- The stride of `m + 2` points from 0 to `n`. -/
def strideTo (m n : ℕ) : ℚ := n / (m + 1)

theorem one_lt_strideTo (h : m + 1 < n) : 1 < strideTo m n := by
  have hlt : (m : ℚ) + 1 < n := by exact_mod_cast h
  rw [strideTo, lt_div_iff₀ (by positivity)]
  linarith

theorem round_first : pyRound ((0 : ℕ) * step) = 0 := by
  rw [Nat.cast_zero, zero_mul]
  exact pyRound_intCast 0

theorem round_last (m n : ℕ) : pyRound ((m + 1 : ℕ) * strideTo m n) = n := by
  have hwhole : ((m + 1 : ℕ) : ℚ) * strideTo m n = (n : ℤ) := by
    rw [strideTo]
    push_cast
    field_simp
  rw [hwhole, pyRound_intCast]

theorem mem_strideIndices (h : m + 1 < n) {index : ℤ}
    (hindex : index ∈ strideIndices (strideTo m n) (m + 2 : ℕ)) : 0 ≤ index ∧ index ≤ n := by
  have hstep := one_lt_strideTo h
  rw [strideIndices_eq hstep] at hindex
  obtain ⟨i, hi, rfl⟩ := List.mem_map.mp hindex
  constructor
  · rw [← round_first]
    exact round_mul_le hstep (Nat.zero_le i)
  · rw [← round_last m n]
    exact round_mul_le hstep (Nat.lt_succ_iff.mp (List.mem_range.mp hi))

end Stride

/-! ### What is answered -/

section Answer

variable {samples : List α} {maxPoints : ℤ} {positions : List ℕ} {out : List α}

theorem pyIndex_toOption {i : ℤ} (h : 0 ≤ i) :
    (pyIndex samples i).toOption = samples[i.toNat]? := by
  unfold pyIndex
  dsimp only
  rw [if_neg h.not_gt, if_neg h.not_gt]
  cases samples[i.toNat]? <;> rfl

/-- Indices in range are read. -/
theorem mapM_pyIndex {indices : List ℤ}
    (h : ∀ i ∈ indices, 0 ≤ i ∧ i.toNat < samples.length) :
    ∃ out, indices.mapM (pyIndex samples) = .ok out ∧
      (indices.map Int.toNat).map (samples[·]?) = out.map some := by
  have hread : ∀ i ∈ indices, ∃ sample, pyIndex samples i = .ok sample := by
    intro i hi
    obtain ⟨hnonneg, hlt⟩ := h i hi
    exact ⟨samples[i.toNat], except_toOption_some.mp
      ((pyIndex_toOption hnonneg).trans (List.getElem?_eq_getElem hlt))⟩
  obtain ⟨out, hout⟩ := except_mapM_ok.mpr hread
  refine ⟨out, hout, ?_⟩
  calc (indices.map Int.toNat).map (samples[·]?)
      = indices.map fun i => (pyIndex samples i).toOption := by
        rw [List.map_map]
        exact List.map_congr_left fun i hi => (pyIndex_toOption (h i hi).1).symm
    _ = (out.map .ok).map Except.toOption := by
        rw [← except_mapM_eq_map.mp hout, List.map_map]
        rfl
    _ = out.map some := by
        rw [List.map_map]
        rfl

/-- A series that is kept as it is. -/
theorem thins_self (h : (samples.length : ℤ) ≤ maxPoints) :
    Thins samples maxPoints (List.range samples.length) samples where
  increasing := List.pairwise_lt_range
  values := by
    refine List.ext_getElem? fun k => ?_
    rw [List.getElem?_map, List.getElem?_map]
    rcases lt_or_ge k samples.length with hk | hk
    · rw [List.getElem?_range hk, Option.map_some, List.getElem?_eq_getElem hk]
      rfl
    · rw [List.getElem?_eq_none (by rw [List.length_range]; exact hk), List.getElem?_eq_none hk]
      rfl
  length := (min_eq_left h).symm
  first := fun hne => by
    rw [List.head?_range, if_neg (mt List.length_eq_zero_iff.mp hne)]
  last := fun hne _ => by
    rw [List.getLast?_range, if_neg (mt List.length_eq_zero_iff.mp hne)]

theorem downsample_eq_mapM {m n : ℕ} (hn : samples.length = n + 1) (h : m + 1 < n) :
    downsample samples (m + 2) =
      (strideIndices (strideTo m n) (m + 2 : ℕ)).mapM (pyIndex samples) := by
  have hdiv : trueDiv (samples.length - 1) (m + 2 - 1) = .ok (strideTo m n) := by
    unfold trueDiv strideTo
    rw [if_neg (by omega), hn]
    push_cast
    congr 2 <;> ring
  unfold downsample
  rw [if_neg (by omega), if_neg (by omega), hdiv]
  rfl

/-- **A series that is cut**: its positions are the rounded multiples of the stride. -/
theorem downsample_stride (hpoints : 2 ≤ maxPoints) (hlong : maxPoints < samples.length) :
    ∃ positions out, downsample samples maxPoints = .ok out ∧
      Thins samples maxPoints positions out := by
  obtain ⟨m, rfl⟩ : ∃ m : ℕ, maxPoints = m + 2 := ⟨(maxPoints - 2).toNat, by omega⟩
  obtain ⟨n, hn⟩ : ∃ n : ℕ, samples.length = n + 1 := ⟨samples.length - 1, by omega⟩
  have hmn : m + 1 < n := by omega
  have hstep := one_lt_strideTo hmn
  have hbounds : ∀ i ∈ strideIndices (strideTo m n) (m + 2 : ℕ), 0 ≤ i ∧ i ≤ n :=
    fun _ => mem_strideIndices hmn
  obtain ⟨out, hout, hvalues⟩ := mapM_pyIndex fun i hi => show 0 ≤ i ∧ i.toNat < samples.length by
    have hi := hbounds i hi
    omega
  have hcount : out.length = m + 2 := by
    have hlength := congrArg List.length hvalues
    rw [List.length_map, List.length_map, List.length_map, strideIndices_eq hstep, List.length_map,
      List.length_range] at hlength
    exact hlength.symm
  refine ⟨_, out, (downsample_eq_mapM hn hmn).trans hout, ?_, hvalues, ?_, ?_, ?_⟩
  · rw [List.pairwise_map]
    refine List.Pairwise.imp_of_mem (fun {i j} hi hj hij => ?_)
      (strideIndices_eq hstep (m + 2) ▸ pairwise_round_mul hstep (m + 2))
    have hi := hbounds i hi
    omega
  · rw [hcount]
    push_cast
    omega
  · intro _
    rw [strideIndices_eq hstep, List.head?_map, List.head?_map, List.head?_range, if_neg (by omega),
      Option.map_some, round_first]
    rfl
  · intro _ _
    rw [strideIndices_eq hstep, List.getLast?_map, List.getLast?_map, List.getLast?_range,
      if_neg (by omega), Option.map_some, Nat.add_sub_assoc (by decide), round_last, Option.map_some,
      hn]
    rfl

/-- Two samples and a cap of one point: the stride is divided by zero. -/
theorem downsample_one (h : 2 ≤ samples.length) :
    downsample samples 1 = .error .zeroDivisionError := by
  unfold downsample
  rw [if_neg (by decide), if_neg (by omega)]
  rfl

theorem downsample_of_short (hpoints : 1 ≤ maxPoints) (h : (samples.length : ℤ) ≤ maxPoints) :
    downsample samples maxPoints = .ok samples := by
  unfold downsample
  rw [if_neg (by omega), if_pos h]

/-- With two points and more the series is always as it is meant to be. -/
theorem downsample_thins (hpoints : 2 ≤ maxPoints) :
    ∃ positions out, downsample samples maxPoints = .ok out ∧
      Thins samples maxPoints positions out := by
  rcases le_or_gt (samples.length : ℤ) maxPoints with hshort | hlong
  · exact ⟨_, samples, downsample_of_short (by omega) hshort, thins_self hshort⟩
  · exact downsample_stride hpoints hlong

/-- **When the series is as it is meant to be**: for every cap of two points and more, and
for a cap of one if there is nothing to leave out. -/
theorem downsample_thins_iff (hpoints : 1 ≤ maxPoints) :
    (∃ positions out, downsample samples maxPoints = .ok out ∧
      Thins samples maxPoints positions out) ↔ 2 ≤ maxPoints ∨ samples.length ≤ 1 := by
  constructor
  · rintro ⟨positions, out, hout, -⟩
    by_contra hcap
    obtain ⟨hone, hmany⟩ := not_or.mp hcap
    obtain rfl : maxPoints = 1 := by omega
    rw [downsample_one (by omega)] at hout
    cases hout
  · rintro (htwo | hfew)
    · exact downsample_thins htwo
    · have hshort : (samples.length : ℤ) ≤ maxPoints := by omega
      exact ⟨_, samples, downsample_of_short hpoints hshort, thins_self hshort⟩

/-- Three samples, of which the second is left out. -/
theorem three_thinned : ∃ positions out, downsample [10, 20, 30] 2 = .ok out ∧
    Thins [10, 20, 30] 2 positions out :=
  (downsample_thins_iff (by decide)).mpr (.inl le_rfl)

theorem two_to_one_raises : downsample [10, 20] 1 = .error .zeroDivisionError ∧
    ¬ ∃ positions out, downsample [10, 20] 1 = .ok out ∧ Thins [10, 20] 1 positions out := by
  have hraises : downsample [10, 20] 1 = .error .zeroDivisionError := downsample_one le_rfl
  refine ⟨hraises, ?_⟩
  rintro ⟨positions, out, hout, -⟩
  rw [hraises] at hout
  cases hout

/-- What is answered is in the order of the samples. -/
theorem Thins.sublist (h : Thins samples maxPoints positions out) : out.Sublist samples := by
  have hlt : ∀ p ∈ positions, p < samples.length := by
    intro p hp
    have hmem : samples[p]? ∈ out.map some := h.values ▸ List.mem_map_of_mem hp
    obtain ⟨sample, -, hsample⟩ := List.mem_map.mp hmem
    exact (List.getElem?_eq_some_iff.mp hsample.symm).1
  have hincreasing : (positions.pmap Fin.mk hlt).Pairwise (· < ·) :=
    h.increasing.pmap hlt fun _ _ _ _ hlt => hlt
  have hout : (positions.pmap Fin.mk hlt).map (samples[·]) = out := by
    refine List.map_injective_iff.mpr (Option.some_injective _) ?_
    rw [← h.values, List.map_pmap, List.map_pmap]
    refine (List.pmap_congr_left _ fun p hp _ _ => ?_).trans (List.pmap_eq_map hlt)
    exact (List.getElem?_eq_getElem (hlt p hp)).symm
  exact hout ▸ List.map_getElem_sublist hincreasing

end Answer

/-! ## The sampler -/

/-- The fields of an `INFO` reply. -/
abbrev InfoFields := Table (Prod.fst : String × String → String)

/-- `fields.get(name)`. -/
def InfoFields.get (fields : InfoFields) (name : String) : Option String :=
  (fields.find? name).map Prod.snd

/-- `.replace("\r\n", "\n")`. -/
def replaceCrLf : List Char → List Char
  | '\r' :: '\n' :: rest => '\n' :: replaceCrLf rest
  | c :: rest => c :: replaceCrLf rest
  | [] => []

/-- A line of an `INFO` reply, if it has a field. -/
def infoLine (line : List Char) : Option (String × String) :=
  if ':' ∈ line ∧ line.head? ≠ some '#' then
    some (String.ofList (PyText.strip (line.takeWhile (· ≠ ':'))),
      String.ofList (PyText.strip ((line.dropWhile (· ≠ ':')).drop 1)))
  else none

/-- `parse_info_blob`. -/
def parseInfoBlob (blob : Option String) : InfoFields :=
  (((replaceCrLf (blob.getD "").toList).splitOn '\n').filterMap infoLine).foldl .put .empty

/-- `_to_int`. -/
def toInt (value : Option String) : Option ℤ := value.bind PyText.parseInt

/-- A row of the series. -/
structure SampleRow where
  t                    : ℚ
  usedMemory           : Option ℤ
  usedMemoryRss        : Option ℤ
  memClientsNormal     : Option ℤ
  memReplicationBacklog : Option ℤ
  deriving DecidableEq

/-- What `info_memory()` comes to. -/
inductive Reply where
  | raised
  | blob (text : Option String)

structure MemorySampler where
  maxPoints    : ℤ
  rows         : List SampleRow
  sampleErrors : ℕ

namespace MemorySampler

/-- `_one_tick`, at a reading of the clock. -/
def oneTick (sampler : MemorySampler) (tick : ℚ × Reply) : MemorySampler :=
  match tick.2 with
  | .raised => { sampler with sampleErrors := sampler.sampleErrors + 1 }
  | .blob text =>
    let fields := parseInfoBlob text
    if fields.rows = [] then { sampler with sampleErrors := sampler.sampleErrors + 1 }
    else
      { sampler with
        rows := sampler.rows ++
          [{ t                     := tick.1
             usedMemory            := toInt (fields.get "used_memory")
             usedMemoryRss         := toInt (fields.get "used_memory_rss")
             memClientsNormal      := toInt (fields.get "mem_clients_normal")
             memReplicationBacklog := toInt (fields.get "mem_replication_backlog") }] }

/-- A sampler from `start` to `stop`; without a connection it makes no tick. -/
def sampled (maxPoints : ℤ) (connected : Bool) (ticks : List (ℚ × Reply)) : MemorySampler :=
  if connected then ticks.foldl oneTick ⟨maxPoints, [], 0⟩ else ⟨maxPoints, [], 1⟩

/-- `samples`. -/
def samples (sampler : MemorySampler) : Except SampleError (List SampleRow) :=
  downsample sampler.rows sampler.maxPoints

variable {sampler : MemorySampler} {maxPoints : ℤ} {connected : Bool} {tick : ℚ × Reply}
  {ticks : List (ℚ × Reply)}

/-- A tick counts as a row or as an error. -/
theorem oneTick_cases (sampler : MemorySampler) (tick : ℚ × Reply) :
    (∃ row : SampleRow, row.t = tick.1 ∧
      sampler.oneTick tick = { sampler with rows := sampler.rows ++ [row] }) ∨
    sampler.oneTick tick = { sampler with sampleErrors := sampler.sampleErrors + 1 } := by
  unfold oneTick
  split
  · exact .inr rfl
  · dsimp only
    split
    · exact .inr rfl
    · exact .inl ⟨_, rfl, rfl⟩

/-- **Every tick is accounted for**, and the rows are in the order of the clock. -/
theorem foldl_oneTick (ticks : List (ℚ × Reply)) (sampler : MemorySampler) :
    ∃ rows, (ticks.foldl oneTick sampler).rows = sampler.rows ++ rows ∧
      (rows.map SampleRow.t).Sublist (ticks.map Prod.fst) ∧
      rows.length + (ticks.foldl oneTick sampler).sampleErrors =
        ticks.length + sampler.sampleErrors ∧
      (ticks.foldl oneTick sampler).maxPoints = sampler.maxPoints := by
  induction ticks generalizing sampler with
  | nil => exact ⟨[], (List.append_nil _).symm, .slnil, rfl, rfl⟩
  | cons tick ticks ih =>
    obtain ⟨rows, hrows, hsub, hcount, hmax⟩ := ih (sampler.oneTick tick)
    rw [List.foldl_cons, List.map_cons, List.length_cons]
    rcases oneTick_cases sampler tick with ⟨row, hrow, htick⟩ | htick <;>
      rw [htick] at hrows hcount hmax ⊢
    · refine ⟨row :: rows, ?_, ?_, ?_, hmax⟩
      · rw [hrows, List.append_assoc]
        rfl
      · rw [List.map_cons, hrow]
        exact hsub.cons_cons _
      · rw [List.length_cons]
        dsimp only at hcount
        omega
    · refine ⟨rows, hrows, hsub.cons _, ?_, hmax⟩
      dsimp only at hcount
      omega

theorem sampled_maxPoints : (sampled maxPoints connected ticks).maxPoints = maxPoints := by
  unfold sampled
  split
  · obtain ⟨-, -, -, -, hmax⟩ := foldl_oneTick ticks ⟨maxPoints, [], 0⟩
    exact hmax
  · rfl

theorem sampled_times :
    ((sampled maxPoints connected ticks).rows.map SampleRow.t).Sublist (ticks.map Prod.fst) := by
  unfold sampled
  split
  · obtain ⟨rows, hrows, hsub, -⟩ := foldl_oneTick ticks ⟨maxPoints, [], 0⟩
    rw [hrows, List.nil_append]
    exact hsub
  · exact List.nil_sublist _

/-- **The series of a sampler** is of its rows, and goes forward if its clock does. -/
theorem samples_increasing (hpoints : 2 ≤ maxPoints)
    (hclock : (ticks.map Prod.fst).Pairwise (· < ·)) :
    ∃ out, (sampled maxPoints connected ticks).samples = .ok out ∧
      out.Sublist (sampled maxPoints connected ticks).rows ∧ (out.length : ℤ) ≤ maxPoints ∧
      (out.map SampleRow.t).Pairwise (· < ·) := by
  obtain ⟨positions, out, hout, hthins⟩ :=
    @downsample_thins _ (sampled maxPoints connected ticks).rows _ hpoints
  have hrows := hthins.sublist
  refine ⟨out, ?_, hrows, hthins.length.trans_le (min_le_right _ _), ?_⟩
  · rw [samples, sampled_maxPoints]
    exact hout
  · exact hclock.sublist ((hrows.map _).trans sampled_times)

end MemorySampler

end Conductress.MemoryCapture
