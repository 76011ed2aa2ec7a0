import Mathlib.Algebra.Order.Archimedean.Basic
import Mathlib.Data.Rat.Floor
import Conductress.Bench.RateSearch

/-!
# How many probes a search takes

`max_probes` counts the steps of exact growth up to `max_rate`, one more probe
and every halving. The climb truncates each rate, so it may need more steps than
exact growth does; what it is late by is then made up for only by halvings that
the bracket is too narrow for.

* `halvings` — the most halvings of a bracket any answers lead to;
* `measured_le` and `exists_measured` — a search that fails at a step of the
  climb takes at most as many probes as these say, and some take as many;
* `probes_le_iff` — when no answers exceed `max_probes`.
-/

namespace Conductress

namespace RateSearch

variable (c : RateSearch)

/-! ## The rates of the climb -/

/-- The rate after one that passed. -/
def nextRate (rate : ℤ) : ℤ :=
  min (max (truncate (rate * c.stepMultiplier)) (rate + 1)) c.maxRate

/-- The rates of the climb. -/
def climbRate : ℕ → ℤ
  | 0 => c.startRate
  | j + 1 => c.nextRate (climbRate j)

/-- The lower end of the bracket when a rate of the climb fails. -/
def floorRate : ℕ → ℤ
  | 0 => 0
  | j + 1 => c.climbRate j

/-- Once there the climb stays at the ceiling. -/
theorem maxRate_le_nextRate {rate : ℤ} (h : c.maxRate ≤ rate) : c.maxRate ≤ c.nextRate rate := by
  unfold nextRate
  omega

theorem climbRate_lt {i j : ℕ} (hij : i ≤ j) (h : c.climbRate j < c.maxRate) :
    c.climbRate i < c.maxRate := by
  induction hij with
  | refl => exact h
  | step _ ih =>
    refine ih ?_
    by_contra hceiling
    exact absurd (c.maxRate_le_nextRate (not_lt.mp hceiling)) (not_le.mpr h)

/-! ## Halvings -/

/-- The bracket is not halved again. -/
def Narrow (lo hi : ℤ) : Prop := ((hi - lo : ℤ) : ℚ) / hi ≤ c.tolerance ∨ hi - lo ≤ 1

instance (lo hi : ℤ) : Decidable (c.Narrow lo hi) := inferInstanceAs (Decidable (_ ∨ _))

/-- Where a bracket is halved. -/
def middle (lo hi : ℤ) : ℤ := min (max (lo + (hi - lo) / 2) (lo + 1)) (hi - 1)

/-- The most halvings of a bracket, of as many as are left, over all answers. -/
def halvings : ℕ → ℤ → ℤ → ℕ
  | 0, _, _ => 0
  | left + 1, lo, hi =>
    if c.Narrow lo hi then 0
    else max (halvings left (middle lo hi) hi) (halvings left lo (middle lo hi)) + 1

theorem halvings_le (left : ℕ) (lo hi : ℤ) : c.halvings left lo hi ≤ left := by
  induction left generalizing lo hi with
  | zero => exact le_rfl
  | succ left ih =>
    unfold halvings
    split
    · exact Nat.zero_le _
    · have hhigh := ih (middle lo hi) hi
      have hlow := ih lo (middle lo hi)
      omega

/-- The halvings a search may take. -/
def bisectSteps : ℕ := c.maxBisectSteps.toNat

theorem natCast_bisectSteps : (c.bisectSteps : ℤ) = c.maxBisectSteps :=
  Int.toNat_of_nonneg c.maxBisectSteps_nonneg

/-! ## `max_probes` -/

theorem exists_growth : ∃ k : ℕ, (c.maxRate : ℚ) ≤ c.startRate * c.stepMultiplier ^ k := by
  obtain ⟨k, hk⟩ := pow_unbounded_of_one_lt (c.maxRate : ℚ) c.stepMultiplier_gt_one
  have hstart : (1 : ℚ) ≤ c.startRate := by exact_mod_cast c.startRate_pos
  have hpow : (0 : ℚ) ≤ c.stepMultiplier ^ k := pow_nonneg (zero_le_one.trans c.stepMultiplier_gt_one.le) k
  exact ⟨k, hk.le.trans (le_mul_of_one_le_left hpow hstart)⟩

/-- `ceil(log(max_rate / start_rate) / log(step_multiplier))`. -/
def growthSteps : ℕ := Nat.find c.exists_growth

/-- `max_probes`. -/
def maxProbes : ℤ := c.growthSteps + 1 + c.maxBisectSteps

/-! ## What any answers lead to -/

/-- The session after some more answers. -/
def run (t : Session) (answers : List Bool) : Option Session := answers.foldlM c.measure t

theorem run_cons (t : Session) (passed : Bool) (answers : List Bool) :
    c.run t (passed :: answers) = (c.measure t passed).bind fun u => c.run u answers := rfl

theorem run_append (t : Session) (answers more : List Bool) :
    c.run t (answers ++ more) = (c.run t answers).bind fun u => c.run u more := by
  unfold run
  rw [List.foldlM_append]
  rfl

/-- A search that is over stays as it is. -/
theorem run_done {t : Session} {knee hi : Option ℤ} (hmove : t.move = .done knee hi)
    (answers : List Bool) : c.run t answers = some t := by
  induction answers with
  | nil => rfl
  | cons passed answers ih =>
    rw [run_cons, measure, hmove]
    exact ih

variable {c} {t u : Session} {lo hi : ℤ} {left j : ℕ}

/-- A search between two halvings, or at the end of them. -/
structure Bisecting (c : RateSearch) (lo hi : ℤ) (left : ℕ) (t : Session) : Prop where
  climbing : t.state.climbing = false
  lo_eq    : t.state.lo.getD 0 = lo
  hi_eq    : t.state.hi = some hi
  left_eq  : t.state.bisectSteps + left = c.maxBisectSteps
  ended    : left = 0 ∨ c.Narrow lo hi → ∃ knee high, t.move = .done knee high
  next     : ¬ (left = 0 ∨ c.Narrow lo hi) →
    t.move = .probe (middle lo hi) ∧ t.state.currentRate = middle lo hi

theorem bisecting_of_bisectOrDone {s : SearchState} (hclimbing : s.climbing = false)
    (hlo : s.lo.getD 0 = lo) (hhi : s.hi = some hi) (hleft : s.bisectSteps + left = c.maxBisectSteps)
    (m : Measured) :
    ∃ s' move, c.bisectOrDone s = some (s', move) ∧ Bisecting c lo hi left ⟨s', move, m⟩ := by
  have hover : (left = 0 ∨ c.Narrow lo hi) ↔
      ((hi - lo : ℤ) : ℚ) / hi ≤ c.tolerance ∨ c.maxBisectSteps ≤ s.bisectSteps ∨ hi - lo ≤ 1 := by
    have hspent : left = 0 ↔ c.maxBisectSteps ≤ s.bisectSteps := by omega
    rw [hspent, Narrow]
    exact or_left_comm
  unfold bisectOrDone
  rw [hhi]
  dsimp only
  rw [hlo]
  by_cases h : left = 0 ∨ c.Narrow lo hi
  · rw [if_pos (hover.mp h)]
    exact ⟨_, _, rfl, hclimbing, hlo, hhi, hleft, fun _ => ⟨_, _, rfl⟩, fun hno => absurd h hno⟩
  · rw [if_neg fun hyes => h (hover.mpr hyes)]
    exact ⟨_, _, rfl, hclimbing, hlo, rfl, hleft, fun hyes => absurd hyes h, fun _ => ⟨rfl, rfl⟩⟩

/-- One more halving. -/
theorem Bisecting.measure (h : Bisecting c lo hi (left + 1) t) (hwide : ¬ c.Narrow lo hi)
    (passed : Bool) :
    ∃ u, c.measure t passed = some u ∧ u.measured.length = t.measured.length + 1 ∧
      Bisecting c (if passed then middle lo hi else lo) (if passed then hi else middle lo hi)
        left u := by
  obtain ⟨hmove, hcurrent⟩ := h.next (by simp [hwide])
  have hnoted : (noted t.state passed).climbing = false := by
    rw [noted, h.climbing, Bool.false_and]
  have hlo : (noted t.state passed).lo.getD 0 = if passed then middle lo hi else lo := by
    rw [noted_lo]
    cases passed with
    | true => exact hcurrent
    | false => exact h.lo_eq
  have hhi : (noted t.state passed).hi = some (if passed then hi else middle lo hi) := by
    rw [noted_hi]
    cases passed with
    | true => exact h.hi_eq
    | false => exact congrArg some hcurrent
  have hleft : (noted t.state passed).bisectSteps + left = c.maxBisectSteps := by
    have hspent := h.left_eq
    have hsteps : (noted t.state passed).bisectSteps = t.state.bisectSteps + 1 := by
      rw [noted, h.climbing]
      rfl
    rw [hsteps]
    push_cast at hspent
    omega
  obtain ⟨s', move, hnext, hbisecting⟩ := bisecting_of_bisectOrDone hnoted hlo hhi hleft
    (t.measured ++ [(middle lo hi, passed)])
  refine ⟨_, ?_, ?_, hbisecting⟩
  · rw [RateSearch.measure, hmove]
    dsimp only
    rw [advance_eq, hnoted, if_neg Bool.false_ne_true, hnext]
    rfl
  · simp

/-- No answers lead to more halvings. -/
theorem Bisecting.measured_le (h : Bisecting c lo hi left t) {answers : List Bool}
    (hrun : c.run t answers = some u) :
    u.measured.length ≤ t.measured.length + c.halvings left lo hi := by
  induction answers generalizing t lo hi left with
  | nil =>
    obtain rfl := Option.some.inj hrun
    exact Nat.le_add_right _ _
  | cons passed answers ih =>
    -- a search that is done takes no further answer; else the answer halves the bracket
    by_cases hover : left = 0 ∨ c.Narrow lo hi
    · obtain ⟨knee, high, hmove⟩ := h.ended hover
      rw [run_done c hmove] at hrun
      obtain rfl := Option.some.inj hrun
      exact Nat.le_add_right _ _
    · obtain ⟨hsome, hwide⟩ := not_or.mp hover
      obtain ⟨left, rfl⟩ := Nat.exists_eq_succ_of_ne_zero hsome
      obtain ⟨v, hmeasure, hlength, hnext⟩ := h.measure hwide passed
      rw [run_cons, hmeasure] at hrun
      have hle := ih hnext hrun
      rw [halvings, if_neg hwide]
      cases passed with
      | true => exact hle.trans (by rw [hlength, if_pos rfl, if_pos rfl]; omega)
      | false =>
        exact hle.trans (by rw [hlength, if_neg Bool.false_ne_true, if_neg Bool.false_ne_true]; omega)

/-- Some answers lead to as many. -/
theorem Bisecting.exists_measured (h : Bisecting c lo hi left t) :
    ∃ answers u, c.run t answers = some u ∧
      u.measured.length = t.measured.length + c.halvings left lo hi := by
  induction left generalizing t lo hi with
  | zero => exact ⟨[], t, rfl, rfl⟩
  | succ left ih =>
    by_cases hnarrow : c.Narrow lo hi
    · exact ⟨[], t, rfl, by rw [halvings, if_pos hnarrow, Nat.add_zero]⟩
    · -- the answer after which more halvings are left
      let worse := decide (c.halvings left lo (middle lo hi) ≤ c.halvings left (middle lo hi) hi)
      obtain ⟨v, hmeasure, hlength, hnext⟩ := h.measure hnarrow worse
      obtain ⟨answers, u, hrun, hu⟩ := ih hnext
      refine ⟨worse :: answers, u, by rw [run_cons, hmeasure]; exact hrun, ?_⟩
      rw [hu, hlength, halvings, if_neg hnarrow]
      by_cases hworse : c.halvings left lo (middle lo hi) ≤ c.halvings left (middle lo hi) hi
      · rw [show worse = true from decide_eq_true hworse, if_pos rfl, if_pos rfl, max_eq_left hworse]
        omega
      · rw [show worse = false from decide_eq_false hworse, if_neg Bool.false_ne_true,
          if_neg Bool.false_ne_true, max_eq_right (not_le.mp hworse).le]
        omega

/-! ### The climb -/

/-- A search that climbs, and asks for the next rate of the climb. -/
structure Climbing (c : RateSearch) (j : ℕ) (t : Session) : Prop where
  climbing : t.state.climbing = true
  lo_eq    : t.state.lo.getD 0 = c.floorRate j
  current  : t.state.currentRate = c.climbRate j
  steps    : t.state.bisectSteps = 0
  asked    : t.move = .probe (c.climbRate j)
  length   : t.measured.length = j
  below    : ∀ i, j = i + 1 → c.climbRate i < c.maxRate

theorem climbing_first (c : RateSearch) : Climbing c 0 ⟨c.start, c.first, []⟩ :=
  ⟨rfl, rfl, rfl, rfl, rfl, rfl, fun _ h => nomatch h⟩

/-- A rate of the climb fails. -/
theorem Climbing.fail (h : Climbing c j t) : ∃ u, c.measure t false = some u ∧
    u.measured.length = j + 1 ∧ Bisecting c (c.floorRate j) (c.climbRate j) c.bisectSteps u := by
  have hnoted : (noted t.state false).climbing = false := Bool.and_false _
  have hlo : (noted t.state false).lo.getD 0 = c.floorRate j := by
    rw [noted_lo]
    exact h.lo_eq
  have hhi : (noted t.state false).hi = some (c.climbRate j) := by
    rw [noted_hi]
    exact congrArg some h.current
  have hleft : (noted t.state false).bisectSteps + c.bisectSteps = c.maxBisectSteps := by
    have hsteps : (noted t.state false).bisectSteps = 0 := by
      rw [noted, h.climbing]
      exact h.steps
    rw [hsteps, natCast_bisectSteps, zero_add]
  -- the climb is over, with the last two rates of it for the bracket
  obtain ⟨s', move, hnext, hbisecting⟩ := bisecting_of_bisectOrDone hnoted hlo hhi hleft
    (t.measured ++ [(c.climbRate j, false)])
  refine ⟨_, ?_, ?_, hbisecting⟩
  · rw [RateSearch.measure, h.asked]
    dsimp only
    rw [advance_eq, hnoted, if_neg Bool.false_ne_true, hnext]
    rfl
  · simp [h.length]

/-- A rate of the climb passes: it is the ceiling, or the next one comes. -/
theorem Climbing.pass (h : Climbing c j t) : ∃ u, c.measure t true = some u ∧
    u.measured.length = j + 1 ∧
      (c.maxRate ≤ c.climbRate j → ∃ knee high, u.move = .done knee high) ∧
      (c.climbRate j < c.maxRate → Climbing c (j + 1) u) := by
  have hnoted : (noted t.state true).climbing = true := by
    rw [noted, h.climbing]
    rfl
  rw [RateSearch.measure, h.asked]
  dsimp only
  rw [advance_eq, if_pos hnoted, h.current]
  by_cases hceiling : c.maxRate ≤ c.climbRate j
  · rw [if_pos hceiling]
    exact ⟨_, rfl, by simp [h.length], fun _ => ⟨_, _, rfl⟩, fun hlt => absurd hceiling (not_le.mpr hlt)⟩
  · rw [if_neg hceiling]
    refine ⟨_, rfl, by simp [h.length], fun hle => absurd hle hceiling, fun hlt => ?_⟩
    refine ⟨hnoted, ?_, rfl, ?_, rfl, by simp [h.length], fun i hi => ?_⟩
    · show (noted t.state true).lo.getD 0 = _
      rw [noted_lo]
      exact h.current
    · show (noted t.state true).bisectSteps = 0
      rw [noted, h.climbing]
      exact h.steps
    · obtain rfl := Nat.succ.inj hi
      exact hlt

/-- A search that climbs got there by answers that passed. -/
theorem exists_climbing (h : ∀ i < j, c.climbRate i < c.maxRate) :
    ∃ t, c.run ⟨c.start, c.first, []⟩ (List.replicate j true) = some t ∧ Climbing c j t := by
  induction j with
  | zero => exact ⟨_, rfl, climbing_first c⟩
  | succ j ih =>
    obtain ⟨t, hrun, ht⟩ := ih fun i hi => h i (Nat.lt_succ_of_lt hi)
    obtain ⟨u, hmeasure, -, -, hnext⟩ := ht.pass
    refine ⟨u, ?_, hnext (h j (Nat.lt_succ_self j))⟩
    rw [List.replicate_succ', run_append, hrun, Option.bind_some, run_cons, hmeasure]
    rfl

/-! ### When `max_probes` is a bound -/

/-- **The climb's delay is made up for**: whenever exact growth would be at the
ceiling and the climb is not, the halvings its next bracket may take are short of
`max_bisect_steps` by the steps it is late. -/
def KeepsPace (c : RateSearch) : Prop :=
  ∀ j, c.growthSteps ≤ j → c.climbRate j < c.maxRate →
    j + 1 + c.halvings c.bisectSteps (c.climbRate j) (c.climbRate (j + 1)) ≤
      c.growthSteps + c.bisectSteps

theorem KeepsPace.halvings_le (h : KeepsPace c) (ht : Climbing c j t) :
    j + c.halvings c.bisectSteps (c.floorRate j) (c.climbRate j) ≤
      c.growthSteps + c.bisectSteps := by
  -- before exact growth is there the halvings fit by their number alone
  rcases Nat.lt_or_ge c.growthSteps j with hlate | hearly
  · obtain ⟨i, rfl⟩ := Nat.exists_eq_succ_of_ne_zero (by omega : j ≠ 0)
    exact h i (by omega) (ht.below i rfl)
  · have hle := c.halvings_le c.bisectSteps (c.floorRate j) (c.climbRate j)
    omega

theorem KeepsPace.measured_le (h : KeepsPace c) (ht : Climbing c j t) {answers : List Bool}
    (hrun : c.run t answers = some u) :
    u.measured.length ≤ c.growthSteps + 1 + c.bisectSteps := by
  have hpace := h.halvings_le ht
  induction answers generalizing j t with
  | nil =>
    obtain rfl := Option.some.inj hrun
    rw [ht.length]
    omega
  | cons passed answers ih =>
    cases passed with
    | false =>
      obtain ⟨v, hmeasure, hlength, hbisecting⟩ := ht.fail
      rw [run_cons, hmeasure] at hrun
      have hle := hbisecting.measured_le hrun
      omega
    | true =>
      obtain ⟨v, hmeasure, hlength, hover, hnext⟩ := ht.pass
      rw [run_cons, hmeasure, Option.bind_some] at hrun
      -- at the ceiling the search is done, and `j + 1` probes were made
      rcases lt_or_ge (c.climbRate j) c.maxRate with hlt | hceiling
      · exact ih (hnext hlt) hrun (h.halvings_le (hnext hlt))
      · obtain ⟨knee, high, hmove⟩ := hover hceiling
        rw [run_done c hmove] at hrun
        obtain rfl := Option.some.inj hrun
        omega

/-- **No answers exceed `max_probes` exactly when the climb keeps pace.** -/
theorem probes_le_iff (c : RateSearch) :
    (∀ answers s, c.search answers = some s → (s.measured.length : ℤ) ≤ c.maxProbes) ↔
      KeepsPace c := by
  have hbudget : c.maxProbes = ((c.growthSteps + 1 + c.bisectSteps : ℕ) : ℤ) := by
    rw [maxProbes, ← natCast_bisectSteps]
    push_cast
    rfl
  constructor
  · intro hall j hlate hlt
    -- climb to the rate after, fail there, and answer the halvings at their worst
    obtain ⟨t, hclimb, ht⟩ := exists_climbing (j := j + 1) fun i hi =>
      c.climbRate_lt (Nat.le_of_lt_succ hi) hlt
    obtain ⟨v, hmeasure, hlength, hbisecting⟩ := ht.fail
    obtain ⟨answers, u, hrun, hu⟩ := hbisecting.exists_measured
    have hsearch : c.search (List.replicate (j + 1) true ++ false :: answers) = some u := by
      show c.run _ _ = some u
      rw [run_append, hclimb, Option.bind_some, run_cons, hmeasure]
      exact hrun
    have hle := hall _ u hsearch
    rw [hbudget, Int.ofNat_le, hu, hlength] at hle
    have hfloor : c.floorRate (j + 1) = c.climbRate j := rfl
    rw [hfloor] at hle
    omega
  · intro h answers s hsearch
    rw [hbudget, Int.ofNat_le]
    exact h.measured_le (climbing_first c) hsearch

/-- Three steps of exact growth from 3 to 10, and four of the climb: 3, 4, 6, 9, 10. -/
def slowClimb : RateSearch where
  startRate      := 3
  stepMultiplier := 3 / 2
  maxRate        := 10
  tolerance      := 0
  maxBisectSteps := 0
  startRate_pos         := by decide
  startRate_le          := by decide
  stepMultiplier_gt_one := by decide +kernel
  tolerance_nonneg      := le_rfl
  tolerance_lt_one      := by decide +kernel
  maxBisectSteps_nonneg := le_rfl

theorem growthSteps_slowClimb : slowClimb.growthSteps = 3 := by
  rw [growthSteps, Nat.find_eq_iff]
  decide +kernel

/-- When every rate passes the search takes five probes, and promises four. -/
theorem slowClimb_exceeds : ∃ s, slowClimb.search [true, true, true, true, true] = some s ∧
    slowClimb.maxProbes < s.measured.length := by
  have hprobes : (slowClimb.search [true, true, true, true, true]).map
      (fun s => s.measured.length) = some 5 := by
    decide +kernel
  obtain ⟨s, hs, hlength⟩ := Option.map_eq_some_iff.mp hprobes
  refine ⟨s, hs, ?_⟩
  rw [maxProbes, growthSteps_slowClimb, hlength]
  decide

end RateSearch

end Conductress
