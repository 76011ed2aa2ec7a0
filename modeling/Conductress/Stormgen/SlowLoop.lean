import Mathlib.Algebra.Order.BigOperators.Group.List
import Mathlib.Algebra.Order.Floor.Ring
import Mathlib.Algebra.Order.Ring.Rat
import Mathlib.Data.Rat.Floor
import Mathlib.Tactic.Linarith
import Mathlib.Tactic.NormNum
import Conductress.Base.Rounding
import Conductress.Stormgen.StallFirst

/-!
# The window of a slow loop

`SlowLoopStall.run` over time: one clock, read by `time.monotonic` and, with a constant
added, by `time.time`. What passes between two readings is the server's and the event
loop's choice (`Lap`).

The record takes its start after the reply to the first block, so that its window leaves
that block out, and its duty is the quotient of another window's length. `window_iff` says
which runs are not touched by that: those in which no time passes from the issue of the
first block to the reading.

* `Degraded` — what has been issued lies in the window from the first block to now, and
  takes no more time than it;
* `degraded_turn` — a lap keeps it; `degraded_loop` — so does the loop.
-/

namespace Conductress.Stormgen

/-! ## Rounding -/

/-- `max(1, min(n, round(fraction * n)))`. -/
def nearestRank (fraction : ℚ) (n : ℕ) : ℕ :=
  max 1 (min n (pyRound (fraction * n)).toNat)

/-! ## The record -/

structure StallRecord where
  kind               : String
  started            : Option ℚ
  ended              : Option ℚ
  blocksIssued       : ℕ
  achievedBlockMsP50 : Option ℚ
  achievedBlockMsMax : Option ℚ
  effectiveDuty      : Option ℚ
  deriving DecidableEq

/-- `StallRecord(kind=kind)`. -/
def StallRecord.new (kind : String) : StallRecord := ⟨kind, none, none, 0, none, none, none⟩

/-- `_finalize`. -/
def StallRecord.finalize (record : StallRecord) (blockDurations : List ℚ) : StallRecord :=
  if blockDurations = [] then record
  else
    let ordered := blockDurations.insertionSort (· ≤ ·)
    { record with
      achievedBlockMsP50 := ordered[nearestRank (1 / 2) ordered.length - 1]?.map (· * 1000)
      achievedBlockMsMax := ordered.getLast?.map (· * 1000)
      effectiveDuty :=
        match record.started, record.ended with
        | some started, some ended =>
          if 0 < ended - started then some (blockDurations.sum / (ended - started))
          else record.effectiveDuty
        | _, _ => record.effectiveDuty }

/-! ## The loop -/

/-- `LUA_MAX_BLOCK_MS`. -/
def luaMaxBlockMs : ℚ := 1000

/-- `LUA_CALIBRATION_ITERS`. -/
def luaCalibrationIters : ℕ := 200000

/-- What `SlowLoopStall.__init__` accepts. -/
structure SlowLoopStall where
  blockKind    : BlockKind
  blockMs      : ℚ
  periodMs     : ℚ
  durationS    : ℚ
  block_pos    : 0 < blockMs
  block_le     : blockMs ≤ periodMs
  duration_pos : 0 < durationS
  lua_le       : blockKind = .lua → blockMs ≤ luaMaxBlockMs

/-- One block: the time until the clock is read for its start, and that until the reading
after its reply. -/
structure Exchange where
  issue : ℚ≥0
  reply : ℚ≥0

/-- The times between the readings of one lap: until `now`, its block, until `time.time()`
in the first lap, until the reading before the sleep, and the sleep. -/
structure Lap where
  poll  : ℚ≥0
  block : Exchange
  stamp : ℚ≥0
  rest  : ℚ≥0
  sleep : ℚ≥0

/-- A block as the clock saw it. -/
structure Span where
  start : ℚ
  stop  : ℚ
  deriving DecidableEq

def Span.length (span : Span) : ℚ := span.stop - span.start

structure LoopState where
  clock          : ℚ
  iters          : ℕ
  loopStart      : ℚ
  first          : Bool
  record         : StallRecord
  blockDurations : List ℚ
  /-- Not in the source, which keeps the durations only. -/
  issued         : List Span

namespace SlowLoopStall

variable (stall : SlowLoopStall)

/-- `_one_block`: its two readings and the next iteration count. -/
def oneBlock (clock : ℚ) (exchange : Exchange) (iters : ℕ) : Span × ℕ :=
  let span : Span := ⟨clock + exchange.issue, clock + exchange.issue + exchange.reply⟩
  (span,
    -- an iteration count that missed the length is corrected, by a factor of 2 at most
    if stall.blockKind = .lua ∧ 0 < span.length then
      let factor := max (1 / 2) (min 2 (stall.blockMs / 1000 / span.length))
      max 1 ⌊iters * factor⌋.toNat
    else iters)

/-- A round of `_calibrate_lua`. -/
def calibrationRound (state : ℚ × ℕ) (exchange : Exchange) : ℚ × ℕ :=
  let span := (stall.oneBlock state.1 exchange state.2).1
  (span.stop,
    if 0 < span.length ∧ 0 < span.length / state.2 then
      max 1 ⌊stall.blockMs / 1000 / (span.length / state.2)⌋.toNat
    else state.2)

/-- `_calibrate_lua`, if the kind of the blocks asks for it. -/
def calibrated (clock : ℚ) (rounds : Exchange × Exchange) : ℚ × ℕ :=
  match stall.blockKind with
  | .debugSleep => (clock, 0)
  | .lua =>
    stall.calibrationRound (stall.calibrationRound (clock, luaCalibrationIters) rounds.1) rounds.2

/-- What a lap does that is not the last one; `time.time()` is the clock and `wall`. -/
def turn (wall : ℚ) (lap : Lap) (st : LoopState) : LoopState :=
  let now := st.clock + lap.poll
  let block := stall.oneBlock now lap.block st.iters
  -- only the first lap reads `time.time()`, and it does after its block
  let stamped := if st.first then block.1.stop + lap.stamp else block.1.stop
  let sleepFor := stall.periodMs / 1000 - (stamped + lap.rest - now)
  { clock          := if 0 < sleepFor then stamped + lap.rest + lap.sleep else stamped + lap.rest
    iters          := block.2
    loopStart      := if st.first then now else st.loopStart
    first          := false
    record         := { st.record with
      started      := if st.first then some (stamped + wall) else st.record.started
      blocksIssued := st.record.blocksIssued + 1 }
    blockDurations := st.blockDurations ++ [block.1.length]
    issued         := st.issued ++ [block.1] }

/-- The loop; it has not ended while it wants another lap. -/
def loop (wall : ℚ) : List Lap → LoopState → Option LoopState
  | [], _ => none
  | lap :: laps, st =>
    -- the first lap is made however late it is, since the loop starts with it
    if st.first = false ∧ stall.durationS ≤ st.clock + lap.poll - st.loopStart then
      some { st with clock := st.clock + lap.poll }
    else loop wall laps (stall.turn wall lap st)

/-- The state before the first lap. -/
def opening (clock : ℚ) (rounds : Exchange × Exchange) (start : ℚ≥0) : LoopState where
  clock          := (stall.calibrated clock rounds).1 + start
  iters          := (stall.calibrated clock rounds).2
  loopStart      := (stall.calibrated clock rounds).1 + start
  first          := true
  record         := .new "slow-loop"
  blockDurations := []
  issued         := []

/-- `SlowLoopStall.run`, to its end: the record, and the blocks that were issued. -/
def run (wall clock : ℚ) (rounds : Exchange × Exchange) (start : ℚ≥0) (laps : List Lap)
    (closing : ℚ≥0) : Option (StallRecord × List Span) :=
  (stall.loop wall laps (stall.opening clock rounds start)).map fun st =>
    ({ st.record with ended := some (st.clock + closing + wall) }.finalize st.blockDurations,
      st.issued)

end SlowLoopStall

/-! ## What the record tells -/

/-- The share of a window, if the window has a length. -/
def share (blocked length : ℚ) : Option ℚ := if 0 < length then some (blocked / length) else none

namespace StallRecord

variable {record : StallRecord} {durations : List ℚ} {started ended : ℚ}

@[simp] theorem finalize_started : (record.finalize durations).started = record.started := by
  unfold finalize
  split <;> rfl

@[simp] theorem finalize_ended : (record.finalize durations).ended = record.ended := by
  unfold finalize
  split <;> rfl

theorem finalize_duty (hdurations : durations ≠ []) (hstarted : record.started = some started)
    (hended : record.ended = some ended) (hduty : record.effectiveDuty = none) :
    (record.finalize durations).effectiveDuty = share durations.sum (ended - started) := by
  unfold finalize share
  rw [if_neg hdurations]
  dsimp only
  rw [hstarted, hended, hduty]

/-- The record tells the window of the blocks that were issued, and their share of it. -/
structure Tells (record : StallRecord) (wall : ℚ) (issued : List Span) : Prop where
  covers  : ∃ started ended, record.started = some started ∧ record.ended = some ended ∧
    ∀ span ∈ issued, started ≤ span.start + wall ∧ span.stop + wall ≤ ended
  duty    : ∃ first ended, issued.head? = some first ∧ record.ended = some ended ∧
    record.effectiveDuty = share (issued.map Span.length).sum (ended - (first.start + wall))
  bounded : ∀ duty ∈ record.effectiveDuty, 0 ≤ duty ∧ duty ≤ 1

end StallRecord

/-! ## What the loop keeps -/

/-- The blocks that have been issued, in the window from the first one to now. -/
structure Degraded (st : LoopState) (first : Span) (stamped : ℚ) : Prop where
  running   : st.first = false
  started   : st.record.started = some stamped
  noDuty    : st.record.effectiveDuty = none
  head      : st.issued.head? = some first
  durations : st.blockDurations = st.issued.map Span.length
  within    : ∀ span ∈ st.issued, first.start ≤ span.start ∧ span.start ≤ span.stop ∧
    span.stop ≤ st.clock
  blocked   : st.blockDurations.sum ≤ st.clock - first.start

namespace SlowLoopStall

variable {stall : SlowLoopStall} {wall clock : ℚ} {rounds : Exchange × Exchange} {start : ℚ≥0}
  {lap : Lap} {laps : List Lap} {st st' : LoopState} {first : Span} {stamped : ℚ}

theorem oneBlock_start (clock : ℚ) (exchange : Exchange) (iters : ℕ) :
    (stall.oneBlock clock exchange iters).1.start = clock + exchange.issue :=
  rfl

theorem oneBlock_stop (clock : ℚ) (exchange : Exchange) (iters : ℕ) :
    (stall.oneBlock clock exchange iters).1.stop = clock + exchange.issue + exchange.reply :=
  rfl

theorem oneBlock_length (clock : ℚ) (exchange : Exchange) (iters : ℕ) :
    (stall.oneBlock clock exchange iters).1.length = exchange.reply :=
  add_sub_cancel_left _ _

/-- The sleep of a lap only adds to the time. -/
theorem le_turn_clock (stall : SlowLoopStall) (wall : ℚ) (lap : Lap) (st : LoopState) :
    (stall.oneBlock (st.clock + lap.poll) lap.block st.iters).1.stop ≤
      (stall.turn wall lap st).clock := by
  have hstamp : (0 : ℚ) ≤ lap.stamp := lap.stamp.2
  have hrest : (0 : ℚ) ≤ lap.rest := lap.rest.2
  have hsleep : (0 : ℚ) ≤ lap.sleep := lap.sleep.2
  unfold turn
  dsimp only
  split <;> split <;> linarith

/-- A first lap opens the window. -/
theorem degraded_first (hfirst : st.first = true) (hduty : st.record.effectiveDuty = none)
    (hdurations : st.blockDurations = []) (hissued : st.issued = []) :
    Degraded (stall.turn wall lap st)
      ⟨st.clock + lap.poll + lap.block.issue,
        st.clock + lap.poll + lap.block.issue + lap.block.reply⟩
      (st.clock + lap.poll + lap.block.issue + lap.block.reply + lap.stamp + wall) := by
  have hreply : (0 : ℚ) ≤ lap.block.reply := lap.block.reply.2
  have hclock := le_turn_clock stall wall lap st
  rw [oneBlock_stop] at hclock
  -- the only block is the one of this lap
  refine ⟨rfl, ?_, hduty, ?_, ?_, ?_, ?_⟩
  · show (if st.first = true then some _ else _) = _
    rw [if_pos hfirst]
    show some ((if st.first = true then _ else _) + wall) = _
    rw [if_pos hfirst]
    rfl
  · show (st.issued ++ _).head? = _
    rw [hissued]
    rfl
  · show st.blockDurations ++ _ = (st.issued ++ _).map Span.length
    rw [hdurations, hissued]
    rfl
  · intro span hspan
    have hmem : span ∈ st.issued ++ [(stall.oneBlock (st.clock + lap.poll) lap.block st.iters).1] :=
      hspan
    rw [hissued, List.nil_append, List.mem_singleton] at hmem
    subst hmem
    rw [oneBlock_start, oneBlock_stop]
    exact ⟨le_refl _, by linarith, hclock⟩
  · show (st.blockDurations ++ [_]).sum ≤ _ - (st.clock + lap.poll + lap.block.issue)
    rw [hdurations, List.nil_append, List.sum_singleton, oneBlock_length]
    linarith

/-- **A lap keeps the window**: its block comes after the others. -/
theorem degraded_turn (h : Degraded st first stamped) :
    Degraded (stall.turn wall lap st) first stamped := by
  have hpoll : (0 : ℚ) ≤ lap.poll := lap.poll.2
  have hissue : (0 : ℚ) ≤ lap.block.issue := lap.block.issue.2
  have hreply : (0 : ℚ) ≤ lap.block.reply := lap.block.reply.2
  have hclock := le_turn_clock stall wall lap st
  rw [oneBlock_stop] at hclock
  have hnonempty : st.issued ≠ [] := by
    intro hempty
    have hhead := h.head
    rw [hempty] at hhead
    cases hhead
  -- the first block is over by now, and the clock does not go back
  obtain ⟨-, hfirst, hlast⟩ := h.within first (List.mem_of_mem_head? h.head)
  -- the new block begins at the clock, after the others have ended
  refine ⟨rfl, ?_, h.noDuty, ?_, ?_, ?_, ?_⟩
  · show (if st.first = true then some _ else st.record.started) = _
    rw [if_neg (by rw [h.running]; exact Bool.false_ne_true)]
    exact h.started
  · show (st.issued ++ _).head? = _
    rw [List.head?_append_of_ne_nil _ hnonempty]
    exact h.head
  · show st.blockDurations ++ _ = (st.issued ++ _).map Span.length
    rw [List.map_append, ← h.durations]
    rfl
  · intro span hspan
    rcases List.mem_append.mp hspan with hold | hnew
    · obtain ⟨hstart, hspan, hstop⟩ := h.within span hold
      exact ⟨hstart, hspan, by linarith⟩
    · obtain rfl := List.mem_singleton.mp hnew
      rw [oneBlock_start, oneBlock_stop]
      exact ⟨by linarith, by linarith, hclock⟩
  · show (st.blockDurations ++ [_]).sum ≤ _
    rw [List.sum_append, List.sum_singleton]
    have hblocked := h.blocked
    rw [oneBlock_length]
    linarith

/-- **The loop keeps the window.** -/
theorem degraded_loop (h : Degraded st first stamped) (hloop : stall.loop wall laps st = some st') :
    Degraded st' first stamped := by
  -- the induction is on the laps that are left
  induction laps generalizing st with
  | nil => cases hloop
  | cons lap laps ih =>
    unfold loop at hloop
    split at hloop
    · -- the last reading of the clock
      obtain rfl := Option.some.inj hloop
      have hpoll : (0 : ℚ) ≤ lap.poll := lap.poll.2
      refine { h with within := fun span hspan => ?_, blocked := ?_ }
      · obtain ⟨hstart, hspan, hstop⟩ := h.within span hspan
        exact ⟨hstart, hspan, by show _ ≤ st.clock + _; linarith⟩
      · have hblocked := h.blocked
        show _ ≤ st.clock + _ - _
        linarith
    · exact ih (degraded_turn h) hloop

/-! ## Runs -/

variable {record : StallRecord} {issued : List Span} {closing : ℚ≥0}

/-- **The record of a run**: its window is open from the reading in the first lap to the last
one. -/
theorem run_degraded
    (h : stall.run wall clock rounds start (lap :: laps) closing = some (record, issued)) :
    ∃ st first, Degraded st first (first.start + lap.block.reply + lap.stamp + wall) ∧
      issued = st.issued ∧
      record.started = some (first.start + lap.block.reply + lap.stamp + wall) ∧
      record.ended = some (st.clock + closing + wall) ∧
      record.effectiveDuty = share (st.issued.map Span.length).sum
        (st.clock + closing + wall - (first.start + lap.block.reply + lap.stamp + wall)) := by
  obtain ⟨st, hloop, heq⟩ := Option.map_eq_some_iff.mp h
  obtain ⟨rfl, rfl⟩ := Prod.mk.inj heq
  unfold loop at hloop
  -- the first lap is always made
  rw [if_neg fun hlast => Bool.false_ne_true hlast.1.symm] at hloop
  have hst := degraded_loop (degraded_first rfl rfl rfl rfl) hloop
  -- the first block is among those that were issued
  have hnonempty : st.blockDurations ≠ [] := by
    intro hempty
    have hmem := List.mem_of_mem_head? hst.head
    rw [hst.durations, List.map_eq_nil_iff] at hempty
    rw [hempty] at hmem
    cases hmem
  refine ⟨st, _, hst, rfl, ?_, StallRecord.finalize_ended, ?_⟩
  · rw [StallRecord.finalize_started]
    exact hst.started
  · rw [← hst.durations]
    exact StallRecord.finalize_duty hnonempty hst.started rfl hst.noDuty

/-- **The window of a run** is that of its blocks, and the duty their share of it, if and only
if no time passes from the issue of the first block to the reading for `started`. -/
theorem window_iff
    (h : stall.run wall clock rounds start (lap :: laps) closing = some (record, issued)) :
    record.Tells wall issued ↔ lap.block.reply = 0 ∧ lap.stamp = 0 := by
  obtain ⟨st, first, hst, rfl, hstarted, hended, hduty⟩ := run_degraded h
  have hclosing : (0 : ℚ) ≤ closing := closing.2
  have hmem : first ∈ st.issued := List.mem_of_mem_head? hst.head
  constructor
  · -- the window begins no later than the first block
    rintro ⟨⟨started, ended, hopen, -, hcovers⟩, -, -⟩
    obtain rfl := Option.some.inj (hstarted.symm.trans hopen)
    have hfirst := (hcovers first hmem).1
    have hreply : (0 : ℚ) ≤ lap.block.reply := lap.block.reply.2
    have hstamp : (0 : ℚ) ≤ lap.stamp := lap.stamp.2
    constructor
    · exact_mod_cast (by linarith : (lap.block.reply : ℚ) = 0)
    · exact_mod_cast (by linarith : (lap.stamp : ℚ) = 0)
  · rintro ⟨hreply, hstamp⟩
    -- the window opens at the issue of the first block
    rw [hreply, hstamp, NNRat.cast_zero, add_zero, add_zero] at hstarted hduty
    refine ⟨⟨_, _, hstarted, hended, ?_⟩, ⟨first, _, hst.head, hended, hduty⟩, ?_⟩
    · intro span hspan
      obtain ⟨hstart, -, hstop⟩ := hst.within span hspan
      constructor <;> linarith
    · -- the blocks take no more time than the window has
      intro duty hmemduty
      rw [hduty] at hmemduty
      unfold share at hmemduty
      split at hmemduty
      · next hpos =>
        obtain rfl := Option.some.inj hmemduty
        have hblocked := hst.blocked
        rw [hst.durations] at hblocked
        have hnonneg : 0 ≤ (st.issued.map Span.length).sum := by
          refine List.sum_nonneg fun length hlength => ?_
          obtain ⟨span, hspan, rfl⟩ := List.mem_map.mp hlength
          exact sub_nonneg.mpr (hst.within span hspan).2.1
        refine ⟨div_nonneg hnonneg hpos.le, (div_le_one hpos).mpr ?_⟩
        linarith
      · cases hmemduty

/-! ### Two runs -/

/-- Blocks of 0.4 s every 0.5 s, for a second. -/
def shortStall : SlowLoopStall where
  blockKind    := .debugSleep
  blockMs      := 400
  periodMs     := 500
  durationS    := 1
  block_pos    := by norm_num
  block_le     := by norm_num
  duration_pos := by norm_num
  lua_le       := by simp

/-- A lap whose block takes some time, and the sleep to the next one. -/
def plainLap (reply sleep : ℚ≥0) : Lap := ⟨0, ⟨0, reply⟩, 0, 0, sleep⟩

/-- A first block that takes no time: the window of 1 s, of which 0.4 s are blocked. -/
theorem instant_first_tells :
    shortStall.run 0 0 (⟨0, 0⟩, ⟨0, 0⟩) 0
      [plainLap 0 (1 / 2), plainLap (2 / 5) (1 / 10), plainLap 0 0] 0 =
        some (⟨"slow-loop", some 0, some 1, 2, some 0, some 400, some (2 / 5)⟩,
          [⟨0, 0⟩, ⟨1 / 2, 9 / 10⟩]) ∧
    StallRecord.Tells ⟨"slow-loop", some 0, some 1, 2, some 0, some 400, some (2 / 5)⟩ 0
      [⟨0, 0⟩, ⟨1 / 2, 9 / 10⟩] := by
  have hrun : shortStall.run 0 0 (⟨0, 0⟩, ⟨0, 0⟩) 0
      [plainLap 0 (1 / 2), plainLap (2 / 5) (1 / 10), plainLap 0 0] 0 =
        some (⟨"slow-loop", some 0, some 1, 2, some 0, some 400, some (2 / 5)⟩,
          [⟨0, 0⟩, ⟨1 / 2, 9 / 10⟩]) := by
    decide +kernel
  exact ⟨hrun, (window_iff hrun).mpr ⟨rfl, rfl⟩⟩

/-- Two blocks of 0.4 s: the window opens at the end of the first one, and the duty is
over one. -/
theorem duty_over_one :
    shortStall.run 0 0 (⟨0, 0⟩, ⟨0, 0⟩) 0
      [plainLap (2 / 5) (1 / 10), plainLap (2 / 5) (1 / 10), plainLap 0 0] 0 =
        some (⟨"slow-loop", some (2 / 5), some 1, 2, some 400, some 400, some (4 / 3)⟩,
          [⟨0, 2 / 5⟩, ⟨1 / 2, 9 / 10⟩]) ∧
    ¬ StallRecord.Tells ⟨"slow-loop", some (2 / 5), some 1, 2, some 400, some 400, some (4 / 3)⟩ 0
      [⟨0, 2 / 5⟩, ⟨1 / 2, 9 / 10⟩] := by
  refine ⟨by decide +kernel, fun htells => ?_⟩
  have hduty : (4 / 3 : ℚ) ≤ 1 := (htells.bounded (4 / 3) rfl).2
  norm_num at hduty

end SlowLoopStall

end Conductress.Stormgen
