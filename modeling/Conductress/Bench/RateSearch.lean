import Mathlib.Data.Rat.Lemmas
import Mathlib.Algebra.Order.Field.Rat
import Mathlib.Data.List.Induction
import Mathlib.Data.List.TakeWhile
import Conductress.Base.Json

/-!
# Climb and bisect

`RateSearch`: the rate is multiplied after every pass until a probe fails or
`max_rate` passes, and the interval between the last pass and the first failure
is then halved. Nothing is assumed of the answers: a rate may pass above one
that failed, and the search never measures there.

* `measure_sound` — what one answer preserves of the bracket;
* `search_finds_knee` — every search ends, and reports the bracket it measured.
-/

namespace Conductress

/-- `Probe` and `Done`. -/
inductive Move where
  | probe (rate : ℤ)
  | done (knee hi : Option ℤ)
  deriving DecidableEq, Repr

/-- The parameters of a search, as its constructor lets them through. -/
structure RateSearch where
  startRate      : ℤ
  stepMultiplier : ℚ
  maxRate        : ℤ
  tolerance      : ℚ
  maxBisectSteps : ℤ
  startRate_pos         : 1 ≤ startRate
  startRate_le          : startRate ≤ maxRate
  stepMultiplier_gt_one : 1 < stepMultiplier
  tolerance_nonneg      : 0 ≤ tolerance
  tolerance_lt_one      : tolerance < 1
  maxBisectSteps_nonneg : 0 ≤ maxBisectSteps

/-- What a search remembers between two answers. -/
structure SearchState where
  currentRate : ℤ
  climbing    : Bool
  lo          : Option ℤ
  hi          : Option ℤ
  bisectSteps : ℤ
  probes      : ℕ
  deriving DecidableEq, Repr

namespace RateSearch

/-- `__init__`. -/
def init (startRate : ℤ) (stepMultiplier : ℚ) (maxRate : ℤ) (tolerance : ℚ)
    (maxBisectSteps : ℤ) : Except PyError RateSearch :=
  if hstart : startRate < 1 then
    .error (.valueError s!"start_rate must be >= 1, got {startRate}")
  else if hmax : maxRate < startRate then
    .error (.valueError s!"max_rate {maxRate} must be >= start_rate {startRate}")
  else if hstep : stepMultiplier ≤ 1 then .error (.valueError "step_multiplier must be > 1")
  else if htol : ¬ (0 ≤ tolerance ∧ tolerance < 1) then
    .error (.valueError "tolerance must be in [0, 1)")
  else if hsteps : maxBisectSteps < 0 then
    .error (.valueError s!"max_bisect_steps must be >= 0, got {maxBisectSteps}")
  else
    .ok ⟨startRate, stepMultiplier, maxRate, tolerance, maxBisectSteps, by omega, by omega,
      not_le.mp hstep, (not_not.mp htol).1, (not_not.mp htol).2, by omega⟩

/-- The constructor refuses nothing that is a search. -/
theorem init_self (c : RateSearch) :
    init c.startRate c.stepMultiplier c.maxRate c.tolerance c.maxBisectSteps = .ok c := by
  have hstart : ¬ c.startRate < 1 := not_lt.mpr c.startRate_pos
  have hmax : ¬ c.maxRate < c.startRate := not_lt.mpr c.startRate_le
  have hstep : ¬ c.stepMultiplier ≤ 1 := not_le.mpr c.stepMultiplier_gt_one
  have htol : 0 ≤ c.tolerance ∧ c.tolerance < 1 := ⟨c.tolerance_nonneg, c.tolerance_lt_one⟩
  have hsteps : ¬ c.maxBisectSteps < 0 := not_lt.mpr c.maxBisectSteps_nonneg
  simp only [init, dif_neg hstart, dif_neg hmax, dif_neg hstep, dif_neg (not_not.mpr htol),
    dif_neg hsteps]

/-- The state of a new search. -/
def start (c : RateSearch) : SearchState where
  currentRate := c.startRate
  climbing := true
  lo := none
  hi := none
  bisectSteps := 0
  probes := 0

/-- `first`. -/
def first (c : RateSearch) : Move := .probe c.startRate

/-- `int` of a number, towards zero. -/
def truncate (q : ℚ) : ℤ := q.num.tdiv q.den

/-- `_bisect_or_done`; `none` is the failed assertion. -/
def bisectOrDone (c : RateSearch) (s : SearchState) : Option (SearchState × Move) :=
  match s.hi with
  | none => none
  | some hi =>
    let lo := s.lo.getD 0
    let width : ℚ := ((hi - lo : ℤ) : ℚ) / hi
    if width ≤ c.tolerance ∨ c.maxBisectSteps ≤ s.bisectSteps ∨ hi - lo ≤ 1 then
      some (s, .done s.lo (some hi))
    else
      let mid := lo + (hi - lo) / 2
      let rate := min (max mid (lo + 1)) (hi - 1)
      some ({ s with currentRate := rate }, .probe rate)

/-- The counters and the bracket after an answer. -/
def recorded (s : SearchState) (passed : Bool) : SearchState :=
  if passed then { s with probes := s.probes + 1, lo := some s.currentRate }
  else { s with probes := s.probes + 1, hi := some s.currentRate }

/-- `advance`. -/
def advance (c : RateSearch) (s : SearchState) (passed : Bool) : Option (SearchState × Move) :=
  let s := recorded s passed
  if s.climbing then
    if !passed then c.bisectOrDone { s with climbing := false }
    else if c.maxRate ≤ s.currentRate then some (s, .done s.lo none)
    else
      let nxt := truncate (s.currentRate * c.stepMultiplier)
      let rate := min (max nxt (s.currentRate + 1)) c.maxRate
      some ({ s with currentRate := rate }, .probe rate)
  else c.bisectOrDone { s with bisectSteps := s.bisectSteps + 1 }

/-! ## The caller's loop -/

/-- The rates measured, each with the answer reported for it. -/
abbrev Measured := List (ℤ × Bool)

def passes (m : Measured) : List ℤ := (m.filter Prod.snd).map Prod.fst

def failures (m : Measured) : List ℤ := (m.filter fun probe => !probe.2).map Prod.fst

/-- The probes after the first failure. -/
def bisectProbes (m : Measured) : Measured := (m.dropWhile Prod.snd).tail

/-- A search, what it asked for last, and what was measured so far. -/
structure Session where
  state    : SearchState
  move     : Move
  measured : Measured

/-- Every rate the search asked for. -/
def Session.rates (s : Session) : List ℤ :=
  s.measured.map Prod.fst ++
    match s.move with
    | .probe rate => [rate]
    | .done _ _ => []

/-- One turn of the loop: the rate asked for is measured, and reported. -/
def measure (c : RateSearch) (s : Session) (passed : Bool) : Option Session :=
  match s.move with
  | .done _ _ => some s
  | .probe rate =>
    (c.advance s.state passed).map fun (state, move) =>
      ⟨state, move, s.measured ++ [(rate, passed)]⟩

/-- The search under the answers given to it, in their order. -/
def search (c : RateSearch) (answers : List Bool) : Option Session :=
  answers.foldlM c.measure ⟨c.start, c.first, []⟩

/-! ## One answer -/

variable {c : RateSearch} {s t : SearchState} {session : Session} {passed : Bool} {rate hi : ℤ}

/-- The bracket is narrow enough, or cannot or must not be halved again. -/
def Settled (c : RateSearch) (lo hi steps : ℤ) : Prop :=
  ((hi - lo : ℤ) : ℚ) / hi ≤ c.tolerance ∨ hi - lo ≤ 1 ∨ c.maxBisectSteps ≤ steps

instance (c : RateSearch) (lo hi steps : ℤ) : Decidable (Settled c lo hi steps) :=
  inferInstanceAs (Decidable (_ ∨ _ ∨ _))

/-- Once there is a failure the bracket is settled, or its middle comes next. -/
theorem bisectOrDone_cases (hhi : s.hi = some hi) :
    (c.bisectOrDone s = some (s, .done s.lo (some hi)) ∧
      Settled c (s.lo.getD 0) hi s.bisectSteps) ∨
    ∃ rate, c.bisectOrDone s = some ({ s with currentRate := rate }, .probe rate) ∧
      s.lo.getD 0 < rate ∧ rate < hi ∧ s.bisectSteps < c.maxBisectSteps := by
  unfold bisectOrDone
  simp only [hhi]
  split
  · next h =>
    refine .inl ⟨rfl, ?_⟩
    rcases h with h | h | h
    · exact .inl h
    · exact .inr (.inr h)
    · exact .inr (.inl h)
  · next h =>
    push Not at h
    obtain ⟨-, hsteps, hwide⟩ := h
    exact .inr ⟨_, rfl, by omega, by omega, hsteps⟩

/-- While it climbs, a search that may not stop goes up. -/
theorem lt_climbed (nxt : ℤ) (h : rate < c.maxRate) :
    rate < min (max nxt (rate + 1)) c.maxRate ∧ min (max nxt (rate + 1)) c.maxRate ≤ c.maxRate := by
  omega

/-! ### What was measured -/

variable {m : Measured}

theorem max?_snoc {xs : List ℤ} {a : ℤ} (h : ∀ x ∈ xs, x < a) : (xs ++ [a]).max? = some a := by
  rw [List.max?_eq_some_iff]
  refine ⟨by simp, fun b hb => ?_⟩
  rcases List.mem_append.mp hb with hb | hb
  · exact (h b hb).le
  · exact (List.mem_singleton.mp hb).le

theorem min?_snoc {xs : List ℤ} {a : ℤ} (h : ∀ x ∈ xs, a < x) : (xs ++ [a]).min? = some a := by
  rw [List.min?_eq_some_iff]
  refine ⟨by simp, fun b hb => ?_⟩
  rcases List.mem_append.mp hb with hb | hb
  · exact (h b hb).le
  · exact (List.mem_singleton.mp hb).ge

@[simp] theorem passes_pass : passes (m ++ [(rate, true)]) = passes m ++ [rate] := by
  simp [passes]

@[simp] theorem passes_fail : passes (m ++ [(rate, false)]) = passes m := by simp [passes]

@[simp] theorem failures_pass : failures (m ++ [(rate, true)]) = failures m := by simp [failures]

@[simp] theorem failures_fail : failures (m ++ [(rate, false)]) = failures m ++ [rate] := by
  simp [failures]

theorem mem_rates_iff : rate ∈ m.map Prod.fst ↔ rate ∈ passes m ∨ rate ∈ failures m := by
  simp only [passes, failures, List.mem_map, List.mem_filter, Prod.exists]
  constructor
  · rintro ⟨r, passed, hmem, rfl⟩
    cases passed with
    | true => exact .inl ⟨r, true, ⟨hmem, rfl⟩, rfl⟩
    | false => exact .inr ⟨r, false, ⟨hmem, rfl⟩, rfl⟩
  · rintro (⟨r, passed, ⟨hmem, -⟩, rfl⟩ | ⟨r, passed, ⟨hmem, -⟩, rfl⟩)
    · exact ⟨r, passed, hmem, rfl⟩
    · exact ⟨r, passed, hmem, rfl⟩

theorem failures_eq_nil_iff : failures m = [] ↔ ∀ probe ∈ m, probe.2 = true := by
  simp [failures, List.filter_eq_nil_iff]

/-- Without a failure nothing is bisected. -/
theorem bisectProbes_nil (h : failures m = []) : bisectProbes m = [] := by
  unfold bisectProbes
  rw [List.dropWhile_eq_nil_iff.mpr (failures_eq_nil_iff.mp h), List.tail_nil]

/-- The first failure is not a probe of the bisection. -/
theorem bisectProbes_climb (h : failures m = []) : bisectProbes (m ++ [(rate, passed)]) = [] := by
  unfold bisectProbes
  rw [List.dropWhile_append_of_pos (failures_eq_nil_iff.mp h)]
  cases passed <;> rfl

theorem bisectProbes_snoc (h : failures m ≠ []) (probe : ℤ × Bool) :
    (bisectProbes (m ++ [probe])).length = (bisectProbes m).length + 1 := by
  have hdrop : m.dropWhile Prod.snd ≠ [] := by
    intro hnil
    refine h (failures_eq_nil_iff.mpr ?_)
    exact List.dropWhile_eq_nil_iff.mp hnil
  unfold bisectProbes
  rw [List.dropWhile_append, if_neg (by simpa using hdrop), List.tail_append_of_ne_nil hdrop,
    List.length_append, List.length_singleton]

/-! ## The invariant -/

/-- The search state tells what was measured. -/
structure Bracketed (c : RateSearch) (s : SearchState) (m : Measured) : Prop where
  lo_eq    : s.lo = (passes m).max?
  hi_eq    : s.hi = (failures m).min?
  climbing : s.climbing = true ↔ failures m = []
  steps_eq : s.bisectSteps = (bisectProbes m).length
  range    : ∀ rate ∈ m.map Prod.fst, 1 ≤ rate ∧ rate ≤ c.maxRate
  nodup    : (m.map Prod.fst).Nodup
  apart    : ∀ lo ∈ passes m, ∀ hi ∈ failures m, lo < hi

/-- What holds of a rate the search asks for. -/
structure Asked (c : RateSearch) (s : SearchState) (m : Measured) (rate : ℤ) : Prop where
  current : s.currentRate = rate
  range   : 1 ≤ rate ∧ rate ≤ c.maxRate
  above   : ∀ lo ∈ passes m, lo < rate
  below   : ∀ hi ∈ failures m, rate < hi
  climb   : s.climbing = true → m.length < rate
  bisect  : s.climbing = false →
    s.bisectSteps < c.maxBisectSteps ∧ m.length ≤ c.maxRate + s.bisectSteps

/-- What holds of the answer. -/
structure Answered (c : RateSearch) (s : SearchState) (knee hi : Option ℤ) : Prop where
  knee_eq : knee = s.lo
  hi_eq   : hi = s.hi
  ceiling : hi = none → knee = some c.maxRate
  settled : ∀ h ∈ hi, Settled c (knee.getD 0) h s.bisectSteps

/-- The invariant of the caller's loop. -/
structure Sound (c : RateSearch) (s : Session) : Prop where
  bracketed : Bracketed c s.state s.measured
  asked     : ∀ rate, s.move = .probe rate → Asked c s.state s.measured rate
  answered  : ∀ knee hi, s.move = .done knee hi → Answered c s.state knee hi

theorem sound_first (c : RateSearch) : Sound c ⟨c.start, c.first, []⟩ where
  bracketed :=
    { lo_eq := rfl
      hi_eq := rfl
      climbing := by simp [start, failures]
      steps_eq := rfl
      range := by simp
      nodup := List.nodup_nil
      apart := by simp [passes] }
  asked := by
    rintro rate hmove
    cases hmove
    have hpos := c.startRate_pos
    exact ⟨rfl, ⟨hpos, c.startRate_le⟩, by simp [passes], by simp [failures],
      fun _ => by simp only [List.length_nil]; omega, fun h => by cases h⟩
  answered := by rintro knee hi hmove; cases hmove

/-! ### An answer comes in -/

/-- The state an answer leads to, before the next rate is chosen. -/
def noted (s : SearchState) (passed : Bool) : SearchState :=
  { recorded s passed with
    climbing := s.climbing && passed
    bisectSteps := if s.climbing then s.bisectSteps else s.bisectSteps + 1 }

theorem noted_lo : (noted s passed).lo = if passed then some s.currentRate else s.lo := by
  cases passed <;> rfl

theorem noted_hi : (noted s passed).hi = if passed then s.hi else some s.currentRate := by
  cases passed <;> rfl

/-- `advance` notes the answer, then climbs on or bisects. -/
theorem advance_eq (c : RateSearch) (s : SearchState) (passed : Bool) :
    c.advance s passed =
      if (noted s passed).climbing then
        if c.maxRate ≤ s.currentRate then some (noted s passed, .done (noted s passed).lo none)
        else
          let nxt := truncate (s.currentRate * c.stepMultiplier)
          let rate := min (max nxt (s.currentRate + 1)) c.maxRate
          some ({ noted s passed with currentRate := rate }, .probe rate)
      else c.bisectOrDone (noted s passed) := by
  obtain ⟨currentRate, climbing, lo, hi, bisectSteps, probes⟩ := s
  cases climbing <;> cases passed <;> rfl

/-- It was not measured before. -/
theorem Asked.fresh (h : Asked c s m rate) : rate ∉ m.map Prod.fst := by
  intro hmem
  rcases mem_rates_iff.mp hmem with hmem | hmem
  · exact lt_irrefl _ (h.above rate hmem)
  · exact lt_irrefl _ (h.below rate hmem)

/-- The bracket still tells what was measured. -/
theorem bracketed_noted (h : Bracketed c s m) (hasked : Asked c s m rate) :
    Bracketed c (noted s passed) (m ++ [(rate, passed)]) := by
  have hcurrent := hasked.current
  constructor
  case lo_eq =>
    cases passed with
    | true => rw [passes_pass, max?_snoc hasked.above, noted_lo, if_pos rfl, hcurrent]
    | false => rw [passes_fail, noted_lo, if_neg Bool.false_ne_true, h.lo_eq]
  case hi_eq =>
    cases passed with
    | true => rw [failures_pass, noted_hi, if_pos rfl, h.hi_eq]
    | false =>
      rw [failures_fail, min?_snoc hasked.below, noted_hi, if_neg Bool.false_ne_true, hcurrent]
  case climbing =>
    show (s.climbing && passed) = true ↔ _
    rw [Bool.and_eq_true, h.climbing]
    cases passed <;> simp
  case steps_eq =>
    show (if s.climbing then s.bisectSteps else s.bisectSteps + 1) = _
    by_cases hnil : failures m = []
    · rw [if_pos (h.climbing.mpr hnil), bisectProbes_climb hnil, h.steps_eq, bisectProbes_nil hnil]
    · rw [if_neg (fun hc => hnil (h.climbing.mp hc)), bisectProbes_snoc hnil, h.steps_eq]
      push_cast
      rfl
  case range =>
    intro r hr
    rw [List.map_append, List.mem_append] at hr
    rcases hr with hr | hr
    · exact h.range r hr
    · rw [List.mem_singleton.mp hr]
      exact hasked.range
  case nodup =>
    rw [List.map_append, List.map_singleton, List.nodup_append_comm, List.singleton_append]
    exact List.nodup_cons.mpr ⟨hasked.fresh, h.nodup⟩
  case apart =>
    intro lo hlo hi hhi
    cases passed with
    | true =>
      rw [passes_pass, List.mem_append, List.mem_singleton] at hlo
      rw [failures_pass] at hhi
      rcases hlo with hlo | rfl
      · exact h.apart lo hlo hi hhi
      · exact hasked.below hi hhi
    | false =>
      rw [passes_fail] at hlo
      rw [failures_fail, List.mem_append, List.mem_singleton] at hhi
      rcases hhi with hhi | rfl
      · exact h.apart lo hlo hi hhi
      · exact hasked.above lo hlo

/-- Where nothing passed the bracket starts at zero. -/
theorem Bracketed.le_lo (h : Bracketed c s m) : ∀ lo ∈ passes m, lo ≤ s.lo.getD 0 := by
  intro lo hlo
  obtain ⟨top, htop⟩ := Option.ne_none_iff_exists'.mp
    (fun hnone => List.ne_nil_of_mem hlo (List.max?_eq_none_iff.mp hnone) : (passes m).max? ≠ none)
  rw [h.lo_eq, htop]
  exact (List.max?_eq_some_iff.mp htop).2 lo hlo

theorem Bracketed.hi_le (h : Bracketed c s m) (hhi : s.hi = some hi) :
    ∀ fail ∈ failures m, hi ≤ fail :=
  (List.min?_eq_some_iff.mp (h.hi_eq.symm.trans hhi)).2

theorem Bracketed.lo_nonneg (h : Bracketed c s m) : 0 ≤ s.lo.getD 0 := by
  cases hlo : s.lo with
  | none => exact le_rfl
  | some lo =>
    have hmem := (List.max?_eq_some_iff.mp (h.lo_eq.symm.trans hlo)).1
    have := (h.range lo (mem_rates_iff.mpr (.inl hmem))).1
    exact zero_le_one.trans this

theorem Bracketed.hi_range (h : Bracketed c s m) (hhi : s.hi = some hi) : hi ≤ c.maxRate :=
  (h.range hi (mem_rates_iff.mpr
    (.inr (List.min?_eq_some_iff.mp (h.hi_eq.symm.trans hhi)).1))).2

/-- Choosing a rate changes nothing of what was measured. -/
theorem Bracketed.choose (h : Bracketed c s m) (rate : ℤ) :
    Bracketed c { s with currentRate := rate } m :=
  ⟨h.lo_eq, h.hi_eq, h.climbing, h.steps_eq, h.range, h.nodup, h.apart⟩

/-- A search that has seen a failure bisects. -/
theorem sound_bisect (h : Bracketed c s m) (hclimb : s.climbing = false)
    (hlen : m.length ≤ c.maxRate + s.bisectSteps) :
    ∃ t move, c.bisectOrDone s = some (t, move) ∧ Sound c ⟨t, move, m⟩ := by
  have hfail : failures m ≠ [] := by
    intro hnil
    rw [h.climbing.mpr hnil] at hclimb
    cases hclimb
  obtain ⟨hi, hhi⟩ : ∃ hi, s.hi = some hi := by
    rw [h.hi_eq]
    exact Option.ne_none_iff_exists'.mp fun hnone => hfail (List.min?_eq_none_iff.mp hnone)
  rcases bisectOrDone_cases (c := c) hhi with ⟨heq, hsettled⟩ | ⟨rate, heq, hlo, hrate, hsteps⟩
  · refine ⟨_, _, heq, h, ?_, ?_⟩
    · rintro rate hmove
      cases hmove
    · rintro knee hi' hmove
      cases hmove
      refine ⟨rfl, hhi.symm, fun hnone => (by cases hnone), ?_⟩
      intro fail hfail
      rwa [← Option.mem_some_iff.mp hfail]
  · refine ⟨_, _, heq, h.choose rate, ?_, ?_⟩
    · rintro _ hmove
      cases hmove
      have hnonneg := h.lo_nonneg
      have hmax := h.hi_range hhi
      refine ⟨rfl, ⟨by omega, by omega⟩, ?_, ?_, ?_, fun _ => ⟨hsteps, hlen⟩⟩
      · exact fun lo hmem => (h.le_lo lo hmem).trans_lt hlo
      · exact fun fail hmem => hrate.trans_le (h.hi_le hhi fail hmem)
      · intro hclimb'
        exact absurd (hclimb.symm.trans hclimb') Bool.false_ne_true
    · rintro _ _ hmove
      cases hmove

/-- **One answer**: it is taken, and the bracket is kept. -/
theorem measure_sound (h : Sound c session) (passed : Bool) :
    ∃ t, c.measure session passed = some t ∧ Sound c t := by
  obtain ⟨s, move, m⟩ := session
  cases move with
  | done knee hi => exact ⟨_, rfl, h⟩
  | probe rate =>
    have hasked := h.asked rate rfl
    have hcurrent : s.currentRate = rate := hasked.current
    have hbracket : Bracketed c (noted s passed) (m ++ [(rate, passed)]) :=
      bracketed_noted h.bracketed hasked
    suffices hmove : ∃ t move, c.advance s passed = some (t, move) ∧
        Sound c ⟨t, move, m ++ [(rate, passed)]⟩ by
      obtain ⟨t, move, heq, hsound⟩ := hmove
      exact ⟨_, by simp only [measure, heq, Option.map_some], hsound⟩
    have hlen : ((m ++ [(rate, passed)]).length : ℤ) = m.length + 1 := by simp
    rw [advance_eq]
    by_cases hclimb : (noted s passed).climbing = true
    · rw [if_pos hclimb]
      -- it was climbing, and the probe passed
      have hpass : s.climbing = true ∧ passed = true := by
        rwa [noted, Bool.and_eq_true] at hclimb
      have hbelow : (m.length : ℤ) < rate := hasked.climb hpass.1
      have hlo : (noted s passed).lo = some rate := by rw [noted_lo, if_pos hpass.2, hcurrent]
      have hnone : (noted s passed).hi = none := by
        rw [hbracket.hi_eq, hbracket.climbing.mp hclimb]
        rfl
      by_cases hmax : c.maxRate ≤ s.currentRate
      · rw [if_pos hmax]
        refine ⟨_, _, rfl, hbracket, ?_, ?_⟩
        · rintro _ hmove
          cases hmove
        · rintro knee hi hmove
          cases hmove
          refine ⟨rfl, hnone.symm, fun _ => ?_, by rintro _ ⟨⟩⟩
          rw [hlo, le_antisymm hasked.range.2 (hcurrent ▸ hmax)]
      · rw [if_neg hmax]
        obtain ⟨hup, hle⟩ := lt_climbed (truncate (s.currentRate * c.stepMultiplier)) (not_le.mp hmax)
        refine ⟨_, _, rfl, hbracket.choose _, ?_, ?_⟩
        · rintro _ hmove
          cases hmove
          have hpos := hasked.range.1
          refine ⟨rfl, ⟨by omega, hle⟩, ?_, ?_, fun _ => ?_, fun hno => ?_⟩
          · intro lo hmem
            have := hbracket.le_lo lo hmem
            rw [hlo] at this
            exact lt_of_le_of_lt this (hcurrent ▸ hup)
          · rw [hbracket.climbing.mp hclimb]
            exact fun fail hmem => absurd hmem (List.not_mem_nil)
          · show ((m ++ [(rate, passed)]).length : ℤ) < _
            omega
          · exact absurd (hclimb.symm.trans hno) (by decide)
        · rintro _ _ hmove
          cases hmove
    · rw [if_neg hclimb]
      refine sound_bisect hbracket (Bool.eq_false_iff.mpr hclimb) ?_
      rw [hlen]
      show _ ≤ c.maxRate + (if s.climbing then s.bisectSteps else s.bisectSteps + 1)
      cases hwas : s.climbing with
      | true =>
        have hshort : (m.length : ℤ) < rate := hasked.climb hwas
        have hsteps : (0 : ℤ) ≤ s.bisectSteps := by
          rw [h.bracketed.steps_eq]
          exact Int.natCast_nonneg _
        have hmax : rate ≤ c.maxRate := hasked.range.2
        rw [if_pos rfl]
        omega
      | false =>
        have : (m.length : ℤ) ≤ c.maxRate + s.bisectSteps := (hasked.bisect hwas).2
        rw [if_neg Bool.false_ne_true]
        omega

/-- **A search**: it takes every sequence of answers, and keeps the bracket. -/
theorem search_sound (c : RateSearch) (answers : List Bool) :
    ∃ s, c.search answers = some s ∧ Sound c s := by
  have hrun : ∀ (answers : List Bool) (s : Session), Sound c s →
      ∃ t, answers.foldlM c.measure s = some t ∧ Sound c t := by
    intro answers
    induction answers with
    | nil => exact fun s h => ⟨s, rfl, h⟩
    | cons passed answers ih =>
      intro s h
      obtain ⟨t, hmeasure, ht⟩ := measure_sound h passed
      obtain ⟨u, hrun, hu⟩ := ih t ht
      exact ⟨u, by rw [List.foldlM_cons, hmeasure]; exact hrun, hu⟩
  exact hrun answers _ (sound_first c)

/-! ## It ends -/

/-- A search that goes on has measured every rate it was asked to. -/
theorem measured_length_le (h : Sound c session) (hmove : session.move = .probe rate) :
    (session.measured.length : ℤ) < c.maxRate + c.maxBisectSteps := by
  have hasked := h.asked rate hmove
  have hsteps := c.maxBisectSteps_nonneg
  cases hclimb : session.state.climbing with
  | true =>
    have hlen := hasked.climb hclimb
    have hmax := hasked.range.2
    omega
  | false =>
    obtain ⟨hbisect, hlen⟩ := hasked.bisect hclimb
    omega

theorem search_snoc (answers : List Bool) :
    c.search (answers ++ [passed]) = (c.search answers).bind (c.measure · passed) := by
  unfold search
  rw [List.foldlM_append]
  cases answers.foldlM c.measure ⟨c.start, c.first, []⟩ with
  | none => rfl
  | some s => exact bind_pure (c.measure s passed)

/-- While it goes on, each answer is one more probe. -/
theorem length_of_probe {answers : List Bool} (h : c.search answers = some session)
    (hmove : session.move = .probe rate) : session.measured.length = answers.length := by
  induction answers using List.reverseRecOn generalizing session rate with
  | nil =>
    cases h
    rfl
  | append_singleton answers passed ih =>
    rw [search_snoc, Option.bind_eq_some_iff] at h
    obtain ⟨⟨s, move, m⟩, hsearch, hmeasure⟩ := h
    cases move with
    | done knee hi =>
      cases hmeasure
      cases hmove
    | probe asked =>
      have hlen : m.length = answers.length := ih hsearch rfl
      obtain ⟨⟨t, move⟩, -, rfl⟩ := Option.map_eq_some_iff.mp hmeasure
      rw [List.length_append, List.length_append, hlen, List.length_singleton,
        List.length_singleton]

/-- After as many answers as there are rates and halvings the search is over. -/
theorem done_of_length {answers : List Bool} (h : c.search answers = some session)
    (hlen : c.maxRate + c.maxBisectSteps ≤ answers.length) :
    ∃ knee hi, session.move = .done knee hi := by
  cases hmove : session.move with
  | done knee hi => exact ⟨knee, hi, rfl⟩
  | probe rate =>
    obtain ⟨s, hs, hsound⟩ := search_sound c answers
    have heq : s = session := Option.some.inj (hs.symm.trans h)
    subst heq
    have hlt := measured_length_le hsound hmove
    rw [length_of_probe h hmove] at hlt
    omega

/-! ## What the search reports -/

/-- The rates of a sound session, the one asked for included. -/
theorem Sound.rates (h : Sound c session) :
    (∀ rate ∈ session.rates, 1 ≤ rate ∧ rate ≤ c.maxRate) ∧ session.rates.Nodup := by
  obtain ⟨s, move, m⟩ := session
  unfold Session.rates
  cases move with
  | done knee hi =>
    rw [List.append_nil]
    exact ⟨h.bracketed.range, h.bracketed.nodup⟩
  | probe rate =>
    have hasked : Asked c s m rate := h.asked rate rfl
    refine ⟨fun r hr => ?_, ?_⟩
    · rcases List.mem_append.mp hr with hr | hr
      · exact h.bracketed.range r hr
      · rw [List.mem_singleton.mp hr]
        exact hasked.range
    · rw [List.nodup_append_comm, List.singleton_append]
      exact List.nodup_cons.mpr ⟨hasked.fresh, h.bracketed.nodup⟩

/-- While it bisects, a search asks for a rate inside its bracket. -/
theorem Sound.inside (h : Sound c session) (hmove : session.move = .probe rate)
    (hclimb : session.state.climbing = false) :
    ∃ hi, session.state.hi = some hi ∧ session.state.lo.getD 0 < rate ∧ rate < hi := by
  have hasked := h.asked rate hmove
  have hbracket := h.bracketed
  obtain ⟨hi, hhi⟩ : ∃ hi, session.state.hi = some hi := by
    rw [hbracket.hi_eq]
    refine Option.ne_none_iff_exists'.mp fun hnone => ?_
    rw [hbracket.climbing.mpr (List.min?_eq_none_iff.mp hnone)] at hclimb
    cases hclimb
  refine ⟨hi, hhi, ?_, ?_⟩
  · cases hlo : session.state.lo with
    | none => exact hasked.range.1
    | some lo =>
      exact hasked.above lo (List.max?_eq_some_iff.mp (hbracket.lo_eq.symm.trans hlo)).1
  · exact hasked.below hi (List.min?_eq_some_iff.mp (hbracket.hi_eq.symm.trans hhi)).1

/-- What a finished search says of the rates it measured. -/
structure Knee (c : RateSearch) (m : Measured) (knee hi : Option ℤ) : Prop where
  highest : knee = (passes m).max?
  lowest  : hi = (failures m).min?
  lt      : ∀ k ∈ knee, ∀ h ∈ hi, k < h
  ceiling : hi = none → knee = some c.maxRate
  settled : ∀ h ∈ hi, Settled c (knee.getD 0) h (bisectProbes m).length

theorem Sound.knee (h : Sound c session) {knee hi : Option ℤ}
    (hmove : session.move = .done knee hi) : Knee c session.measured knee hi := by
  have hanswer := h.answered knee hi hmove
  have hbracket := h.bracketed
  have hknee := hanswer.knee_eq.trans hbracket.lo_eq
  have hhi := hanswer.hi_eq.trans hbracket.hi_eq
  refine ⟨hknee, hhi, fun k hk fail hfail => ?_, hanswer.ceiling, hbracket.steps_eq ▸ hanswer.settled⟩
  rw [hknee] at hk
  rw [hhi] at hfail
  exact hbracket.apart k (List.max?_eq_some_iff.mp hk).1 fail (List.min?_eq_some_iff.mp hfail).1

/-- **Climb and bisect**: whatever the answers, every rate asked for is in range
and asked for once, a rate of the bisection lies inside the bracket, and the
search ends with the highest pass, the lowest failure and the bracket between
them settled. -/
theorem search_finds_knee (c : RateSearch) :
    (∀ answers : List Bool, ∃ s, c.search answers = some s ∧
      (∀ rate ∈ s.rates, 1 ≤ rate ∧ rate ≤ c.maxRate) ∧ s.rates.Nodup ∧
      (∀ rate, s.move = .probe rate → s.state.climbing = false →
        ∃ hi, s.state.hi = some hi ∧ s.state.lo.getD 0 < rate ∧ rate < hi) ∧
      ∀ knee hi, s.move = .done knee hi → Knee c s.measured knee hi) ∧
    ∀ answers : ℕ → Bool, ∃ n : ℕ, (n : ℤ) ≤ c.maxRate + c.maxBisectSteps ∧
      ∃ s knee hi, c.search ((List.range n).map answers) = some s ∧ s.move = .done knee hi := by
  constructor
  · intro answers
    obtain ⟨s, hs, hsound⟩ := search_sound c answers
    exact ⟨s, hs, hsound.rates.1, hsound.rates.2, fun _ => hsound.inside, fun _ _ => hsound.knee⟩
  · intro answers
    have hrate : 1 ≤ c.maxRate := c.startRate_pos.trans c.startRate_le
    have hsteps := c.maxBisectSteps_nonneg
    have hnat : ((c.maxRate + c.maxBisectSteps).toNat : ℤ) = c.maxRate + c.maxBisectSteps :=
      Int.toNat_of_nonneg (by omega)
    refine ⟨(c.maxRate + c.maxBisectSteps).toNat, hnat.le, ?_⟩
    obtain ⟨s, hs, -⟩ := search_sound c ((List.range (c.maxRate + c.maxBisectSteps).toNat).map answers)
    obtain ⟨knee, hi, hmove⟩ := done_of_length hs (by simp [hnat])
    exact ⟨s, knee, hi, hs, hmove⟩

/-- A knee at 30. -/
example :
    (init 10 2 1000 (1 / 20) 8).toOption.bind (fun c =>
      (c.search [true, true, false, true, false, false, false]).map fun s =>
        (s.move, s.measured.map Prod.fst)) =
    some (.done (some 30) (some 31), [10, 20, 40, 30, 35, 32, 31]) := by decide +kernel

end RateSearch

end Conductress
