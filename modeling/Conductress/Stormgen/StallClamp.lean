import Conductress.Stormgen.SlowLoop

/-!
# A slow loop in the storm's window

`SlowLoopStall.clamp_to_storm`, and `_drive_stall` which calls it, in exact numbers. A loop
that would outlast the storm, counted from the burst on, is given a second less than the
storm, or one period. The second stands where the offset of the burst is meant, and the
duration that the loop has is not looked at: with a burst more than a second after the
stall the loop does not fit, and may become longer than it was.

## Results

* `clampToStorm_fits_iff` — when the clamp shrinks the loop and makes it fit;
* `issued_lt` — the blocks of a run are asked for within the loop's duration;
* `driveStall_within` — with a burst within a second they leave it its offset.
-/

namespace Conductress.Stormgen

namespace SlowLoopStall

variable (stall : SlowLoopStall)

/-! ## The clamp -/

def periodS : ℚ := stall.periodMs / 1000

theorem periodS_pos : 0 < stall.periodS := by
  have hblock := stall.block_pos.trans_le stall.block_le
  unfold periodS
  positivity

/-- The duration of a loop that is clamped. -/
def clamped (stormDurationS : ℚ) : ℚ := max stall.periodS (stormDurationS - 1)

theorem clamped_pos (stormDurationS : ℚ) : 0 < stall.clamped stormDurationS :=
  stall.periodS_pos.trans_le (le_max_left _ _)

/-- What is logged of a clamp. -/
def clampWarning (stormDurationS burstAfterStallS : ℚ) : String :=
  "slow-loop: duration_s " ++ fixed 1 stall.durationS ++ " + burst_after_stall " ++
    fixed 2 burstAfterStallS ++ " exceeds the " ++ fixed 1 stormDurationS ++
    "s storm window; clamping the loop to " ++ fixed 1 (stall.clamped stormDurationS) ++ "s"

/-- `clamp_to_storm`: the loop, and the warning. -/
def clampToStorm (stormDurationS burstAfterStallS : ℚ) : SlowLoopStall × Option String :=
  if stall.durationS + burstAfterStallS ≤ stormDurationS then (stall, none)
  else
    ({ stall with
        durationS    := stall.clamped stormDurationS
        duration_pos := stall.clamped_pos stormDurationS },
      some (stall.clampWarning stormDurationS burstAfterStallS))

variable {stall} {storm burst : ℚ}

theorem clampToStorm_of_le (h : stall.durationS + burst ≤ storm) :
    stall.clampToStorm storm burst = (stall, none) :=
  if_pos h

theorem durationS_clampToStorm_of_lt (h : storm < stall.durationS + burst) :
    (stall.clampToStorm storm burst).1.durationS = stall.clamped storm := by
  unfold clampToStorm
  rw [if_neg h.not_ge]

/-- A clamp is logged, and nothing else is. -/
theorem clampToStorm_silent_iff :
    (stall.clampToStorm storm burst).2 = none ↔ stall.durationS + burst ≤ storm := by
  unfold clampToStorm
  split
  · next h => exact ⟨fun _ => h, fun _ => rfl⟩
  · next h => exact ⟨fun hnone => absurd hnone (Option.some_ne_none _), fun hle => absurd hle h⟩

/-- With a second for the burst the loop is cut so that it fits. -/
theorem durationS_add_le (hburst : burst ≤ 1) (hperiod : stall.periodS ≤ storm - 1) :
    (stall.clampToStorm storm burst).1.durationS + burst ≤ storm := by
  rcases le_or_gt (stall.durationS + burst) storm with hfit | hexceeds
  · rw [clampToStorm_of_le hfit]
    exact hfit
  · rw [durationS_clampToStorm_of_lt hexceeds, clamped, max_eq_right hperiod]
    linarith

/-- What the clamp is for: a loop no longer than before that ends in the window of the
storm, or has one period. -/
structure FitsStorm (before after : SlowLoopStall) (storm burst : ℚ) : Prop where
  shrinks : after.durationS ≤ before.durationS
  fits    : after.durationS + burst ≤ storm ∨ after.durationS = before.periodS

/-- **When the clamp is right.** A loop that does not fit is cut to a period that it has, or
the burst begins within a second. -/
theorem clampToStorm_fits_iff :
    FitsStorm stall (stall.clampToStorm storm burst).1 storm burst ↔
      stall.durationS + burst ≤ storm ∨
      (storm - 1 ≤ stall.periodS ∧ stall.periodS ≤ stall.durationS) ∨
      (stall.periodS < storm - 1 ∧ burst ≤ 1) := by
  rcases le_or_gt (stall.durationS + burst) storm with hfit | hexceeds
  · -- the loop is left alone
    rw [clampToStorm_of_le hfit]
    exact ⟨fun _ => .inl hfit, fun _ => ⟨le_rfl, .inl hfit⟩⟩
  have hduration := durationS_clampToStorm_of_lt hexceeds
  rcases le_or_gt (storm - 1) stall.periodS with hperiod | hperiod
  · -- it is given one period
    rw [clamped, max_eq_left hperiod] at hduration
    constructor
    · rintro ⟨hshrinks, -⟩
      rw [hduration] at hshrinks
      exact .inr (.inl ⟨hperiod, hshrinks⟩)
    · rintro (hfit | ⟨-, hle⟩ | ⟨hlt, -⟩)
      · exact absurd hfit hexceeds.not_ge
      · exact ⟨hduration.trans_le hle, .inr hduration⟩
      · exact absurd hperiod hlt.not_ge
  · -- it is given a second less than the storm
    rw [clamped, max_eq_right hperiod.le] at hduration
    constructor
    · rintro ⟨-, hfits⟩
      rw [hduration] at hfits
      rcases hfits with hfits | hone
      · exact .inr (.inr ⟨hperiod, by linarith⟩)
      · exact absurd hone hperiod.ne'
    · rintro (hfit | ⟨hle, -⟩ | ⟨-, hburst⟩)
      · exact absurd hfit hexceeds.not_ge
      · exact absurd hle hperiod.not_ge
      · refine ⟨?_, .inl (durationS_add_le hburst hperiod.le)⟩
        rw [hduration]
        linarith

/-- Blocks of 50 ms every 100 ms, for 5 s. -/
def fiveSeconds : SlowLoopStall where
  blockKind    := .debugSleep
  blockMs      := 50
  periodMs     := 100
  durationS    := 5
  block_pos    := by norm_num
  block_le     := by norm_num
  duration_pos := by norm_num
  lua_le       := by simp

/-- A burst 6 s after the stall, in a storm of 10 s: the loop becomes longer, and fits less. -/
theorem fiveSeconds_lengthened :
    (fiveSeconds.clampToStorm 10 6).1.durationS = 9 ∧
      ¬ FitsStorm fiveSeconds (fiveSeconds.clampToStorm 10 6).1 10 6 := by
  have hduration : (fiveSeconds.clampToStorm 10 6).1.durationS = 9 := by decide +kernel
  refine ⟨hduration, fun h => ?_⟩
  have hshrinks : (9 : ℚ) ≤ 5 := hduration ▸ h.shrinks
  norm_num at hshrinks

/-! ## The blocks of a run -/

variable {wall clock : ℚ} {rounds : Exchange × Exchange} {start closing : ℚ≥0}
  {lap : Lap} {laps : List Lap} {st st' : LoopState} {first : Span} {delay : ℚ≥0}
  {record : StallRecord} {issued : List Span}

/-- A loop that has begun: its blocks were issued within its duration, each no more than
`delay` after it was asked for. -/
structure Opened (stall : SlowLoopStall) (delay : ℚ≥0) (first : Span) (st : LoopState) : Prop where
  running : st.first = false
  head    : st.issued.head? = some first
  opens   : st.loopStart ≤ first.start
  within  : ∀ span ∈ st.issued, span.start < st.loopStart + stall.durationS + delay

/-- The first lap begins the loop. -/
theorem opened_first (hfirst : st.first = true) (hissued : st.issued = [])
    (hdelay : lap.block.issue ≤ delay) :
    Opened stall delay (stall.oneBlock (st.clock + lap.poll) lap.block st.iters).1
      (stall.turn wall lap st) := by
  have hissue : (0 : ℚ) ≤ lap.block.issue := lap.block.issue.2
  have hle : (lap.block.issue : ℚ) ≤ delay := by exact_mod_cast hdelay
  have hpos := stall.duration_pos
  have hstart : (stall.turn wall lap st).loopStart = st.clock + lap.poll := by
    show (if st.first = true then _ else _) = _
    rw [if_pos hfirst]
  have hblocks : (stall.turn wall lap st).issued =
      [(stall.oneBlock (st.clock + lap.poll) lap.block st.iters).1] := by
    show st.issued ++ _ = _
    rw [hissued, List.nil_append]
  refine ⟨rfl, by rw [hblocks]; rfl, ?_, ?_⟩
  · rw [hstart, oneBlock_start]
    linarith
  · intro span hspan
    rw [hblocks, List.mem_singleton] at hspan
    rw [hspan, hstart, oneBlock_start]
    linarith

/-- A lap that is made is begun before the loop is over. -/
theorem opened_turn (h : Opened stall delay first st) (hdelay : lap.block.issue ≤ delay)
    (hgoes : st.clock + lap.poll - st.loopStart < stall.durationS) :
    Opened stall delay first (stall.turn wall lap st) := by
  have hle : (lap.block.issue : ℚ) ≤ delay := by exact_mod_cast hdelay
  have hstart : (stall.turn wall lap st).loopStart = st.loopStart := by
    show (if st.first = true then _ else _) = _
    rw [if_neg (by rw [h.running]; exact Bool.false_ne_true)]
  refine ⟨rfl, ?_, hstart ▸ h.opens, ?_⟩
  · show (st.issued ++ _).head? = _
    rw [List.head?_append, h.head]
    rfl
  · intro span hspan
    rw [hstart]
    rcases List.mem_append.mp hspan with hold | hnew
    · exact h.within span hold
    · rw [List.mem_singleton.mp hnew, oneBlock_start]
      linarith

/-- **The loop keeps it**, by induction on the laps that are left. -/
theorem opened_loop (h : Opened stall delay first st) (hdelay : ∀ lap ∈ laps, lap.block.issue ≤ delay)
    (hloop : stall.loop wall laps st = some st') : Opened stall delay first st' := by
  induction laps generalizing st with
  | nil => cases hloop
  | cons lap laps ih =>
    obtain ⟨hlap, hrest⟩ := List.forall_mem_cons.mp hdelay
    unfold loop at hloop
    split at hloop
    · -- the loop is over, and only the clock has been read
      obtain rfl := Option.some.inj hloop
      exact ⟨h.running, h.head, h.opens, h.within⟩
    · next hgoes =>
      have hbefore : st.clock + lap.poll - st.loopStart < stall.durationS :=
        not_le.mp fun hover => hgoes ⟨h.running, hover⟩
      exact ih (opened_turn h hlap hbefore) hrest hloop

/-- **The blocks of a run** are issued within the loop's duration from the first one on. -/
theorem issued_lt (h : stall.run wall clock rounds start laps closing = some (record, issued))
    (hdelay : ∀ lap ∈ laps, lap.block.issue ≤ delay) :
    ∃ first, issued.head? = some first ∧
      ∀ span ∈ issued, span.start < first.start + stall.durationS + delay := by
  obtain ⟨st, hloop, heq⟩ := Option.map_eq_some_iff.mp h
  obtain ⟨-, rfl⟩ := Prod.mk.inj heq
  cases laps with
  | nil => cases hloop
  | cons lap laps =>
    obtain ⟨hlap, hrest⟩ := List.forall_mem_cons.mp hdelay
    unfold loop at hloop
    -- the first lap is always made
    rw [if_neg fun hlast => Bool.false_ne_true hlast.1.symm] at hloop
    have hst := opened_loop (opened_first rfl rfl hlap) hrest hloop
    refine ⟨_, hst.head, fun span hspan => ?_⟩
    have hspan := hst.within span hspan
    have hopens := hst.opens
    linarith

end SlowLoopStall

/-! ## The stall of a storm -/

/-- What `config.stall()` answers with. -/
inductive Injector where
  | noStall
  | debugSleep (seconds : ℚ)
  | slowLoop (stall : SlowLoopStall)

/-- `clamp_to_storm`: of an injector without a duration, nothing. -/
def Injector.clampToStorm (stormDurationS burstAfterStallS : ℚ) : Injector → Injector × Option String
  | .noStall => (.noStall, none)
  | .debugSleep seconds => (.debugSleep seconds, none)
  | .slowLoop stall =>
    ((stall.clampToStorm stormDurationS burstAfterStallS).map .slowLoop id)

/-- The times of `StormConfig` that `_drive_stall` reads. -/
structure StormTimes where
  stall             : Injector
  durationS         : ℚ
  stallAfterS       : ℚ
  burstAfterStallMs : ℤ

namespace StormTimes

variable (config : StormTimes)

/-- The storm that is left after the stall's delay. -/
def stormDurationS : ℚ := max 1 (config.durationS - config.stallAfterS)

def burstAfterStallS : ℚ := config.burstAfterStallMs / 1000

/-- The injector that `_drive_stall` runs. -/
def driveStall : Injector × Option String :=
  config.stall.clampToStorm config.stormDurationS config.burstAfterStallS

variable {config} {stall : SlowLoopStall}

theorem driveStall_slowLoop (hstall : config.stall = .slowLoop stall) :
    config.driveStall =
      (.slowLoop (stall.clampToStorm config.stormDurationS config.burstAfterStallS).1,
        (stall.clampToStorm config.stormDurationS config.burstAfterStallS).2) := by
  rw [driveStall, hstall]
  rfl

/-- **A loop that is driven** in a storm of more than a second and a period, with a burst that
begins within a second of the stall, leaves the burst its offset: its blocks are issued in
what the storm has before that. -/
theorem driveStall_within (hstall : config.stall = .slowLoop stall)
    (hburst : config.burstAfterStallMs ≤ 1000)
    (hperiod : stall.periodS ≤ config.stormDurationS - 1) :
    ∃ stall' warning, config.driveStall = (.slowLoop stall', warning) ∧
      ∀ {wall clock : ℚ} {rounds : Exchange × Exchange} {start closing delay : ℚ≥0}
        {laps : List Lap} {record : StallRecord} {issued : List Span},
        stall'.run wall clock rounds start laps closing = some (record, issued) →
        (∀ lap ∈ laps, lap.block.issue ≤ delay) →
        ∃ first, issued.head? = some first ∧ ∀ span ∈ issued,
          span.start + config.burstAfterStallS < first.start + config.stormDurationS + delay := by
  have hsecond : config.burstAfterStallS ≤ 1 := by
    have hcast : (config.burstAfterStallMs : ℚ) ≤ 1000 := by exact_mod_cast hburst
    unfold burstAfterStallS
    linarith
  have hfits := SlowLoopStall.durationS_add_le hsecond hperiod
  refine ⟨_, _, driveStall_slowLoop hstall, fun hrun hdelay => ?_⟩
  obtain ⟨first, hfirst, hissued⟩ := SlowLoopStall.issued_lt hrun hdelay
  refine ⟨first, hfirst, fun span hspan => ?_⟩
  have hbefore := hissued span hspan
  linarith

end StormTimes

end Conductress.Stormgen
