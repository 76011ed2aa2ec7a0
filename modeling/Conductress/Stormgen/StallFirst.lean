import Conductress.Lib.Transition
import Conductress.Stormgen.Resp

/-!
# The storm waits for its stall

`run_storm` with an injector that stalls the server. Two tasks of one event loop
take turns: the storm itself, and the injector on its own connection. In the
stall-first ordering the storm waits for the event that the injector sets once
its first command is under way; in the other ordering it awaits the injector's
task at the end.

What an awaited operation comes to is the server's choice, and so is what a
comparison of clock readings says (`StallEvent`). The lengths of a stall and the
texts of its commands decide neither, and are left out.

Nothing else ever sets the event, so a stall-first storm whose injector fails
before it has issued its command waits forever; `issued_or_noticed` says that
this is all that can go wrong.

## Results

* `StallInjector.resume_opening` — until it has issued its command, an injector
  fails only where an operation of its connection does.
* `issued_or_noticed` — without such a failure in the stall-first ordering, the
  storm never waits for an injector that has ended, and a stall that fails before
  it is issued is its end.
* `stall_first_hangs` — after such a failure the storm waits for good.
* `refused_stall_hangs` — a refused connection.
-/

namespace Conductress.Stormgen

open Lib

/-! ## The injectors -/

/-- What `_one_block` sends. -/
inductive BlockKind where
  | debugSleep
  | lua
  deriving DecidableEq

/-- The injectors that stall the server. -/
inductive StallInjector where
  | debugSleep
  | slowLoop (kind : BlockKind)
  deriving DecidableEq

/-- What an injector may raise. -/
inductive StormError where
  | os (message : String)
  | timeout
  | parse (error : ParseError)
  deriving DecidableEq

/-- The blocks of a slow loop: the two rounds of `_calibrate_lua`, the block
after which `on_issued` is called, and the others. -/
inductive Block where
  | calibration (round : ℕ)
  | first
  | later
  deriving DecidableEq

/-- Where an injector waits, or has ended. -/
inductive Point where
  /-- The sleep of `_drive_stall`. -/
  | delay
  | connect
  /-- `DebugSleepStall.run`: the drain after its command, and the reads. -/
  | sleepDrain
  | sleepRead (buf : Bytes)
  /-- `SlowLoopStall`: the drain and the reads of a block, and the rest of its
  period. -/
  | blockDrain (block : Block)
  | blockRead (block : Block) (buf : Bytes)
  | pause
  /-- The `finally` of `run`. -/
  | closing (result : Except StormError Unit)
  | ended (result : Except StormError Unit)
  deriving DecidableEq

/-- What an awaited operation comes to. -/
inductive Answer where
  | done
  | raised (error : StormError)
  | chunk (bytes : Bytes)

namespace StallInjector

/-- What follows the connection. -/
def start : StallInjector → Point
  | .debugSleep => .sleepDrain
  | .slowLoop .lua => .blockDrain (.calibration 0)
  | .slowLoop .debugSleep => .blockDrain .first

/-- What follows a block's reply, and whether `on_issued` is called. -/
def answered : Block → Point × Bool
  | .calibration 0 => (.blockDrain (.calibration 1), false)
  | .calibration _ => (.blockDrain .first, false)
  | .first => (.pause, true)
  | .later => (.pause, false)

/-- The head of the loop of `_read_one_reply`. -/
def tryReply (depth : ℕ) (block : Block) (buf : Bytes) : Point × Bool :=
  match ReplyParser.tryParse (depth + 1) buf with
  | .error e => (.closing (.error (.parse e)), false)
  | .ok (some _, _) => answered block
  | .ok (none, buf) => (.blockRead block buf, false)

/-- The reply to `DEBUG SLEEP`; `due` says that the deadline has passed. -/
def trySleepReply (depth : ℕ) (buf : Bytes) (due : Bool) : Point :=
  match ReplyParser.tryParse (depth + 1) buf with
  | .error e => .closing (.error (.parse e))
  | .ok (some _, _) => .closing (.ok ())
  | .ok (none, buf) => if due then .closing (.ok ()) else .sleepRead buf

/-- One turn of an injector, from what it waits for to the next such point, and
whether `on_issued` is called on the way. A connection that fails is raised
outside the `try`; one that is closed ends a read as if a reply had come. -/
def resume (stall : StallInjector) (depth : ℕ) :
    Point → Answer → Bool → Option (Point × Bool)
  | .delay, .done, _ => some (.connect, false)
  | .connect, .done, _ => some (stall.start, false)
  | .connect, .raised e, _ => some (.ended (.error e), false)
  | .sleepDrain, .done, _ => some (.sleepRead [], true)
  | .sleepDrain, .raised e, _ => some (.closing (.error e), false)
  | .sleepRead _, .raised e, _ => some (.closing (.error e), false)
  | .sleepRead _, .chunk [], _ => some (.closing (.ok ()), false)
  | .sleepRead buf, .chunk bytes, due => some (trySleepReply depth (buf ++ bytes) due, false)
  | .blockDrain block, .done, _ => some (tryReply depth block [])
  | .blockDrain _, .raised e, _ => some (.closing (.error e), false)
  | .blockRead _ _, .raised e, _ => some (.closing (.error e), false)
  | .blockRead block _, .chunk [], _ => some (answered block)
  | .blockRead block buf, .chunk bytes, _ => some (tryReply depth block (buf ++ bytes))
  | .pause, .done, due => some (if due then .closing (.ok ()) else .blockDrain .later, false)
  -- errors of `wait_closed` are swallowed
  | .closing result, .done, _ => some (.ended result, false)
  | .closing result, .raised _, _ => some (.ended result, false)
  | _, _, _ => none

end StallInjector

/-! ## The storm -/

/-- How `run_storm` ends. -/
inductive StormEnd where
  | returned
  | clientsRaised (error : StormError)
  | stallRaised (error : StormError)
  | probeRaised (error : StormError)
  deriving DecidableEq

/-- Where `run_storm` waits, from the start of the stall on. -/
inductive MainPoint where
  /-- `issued.wait()`. -/
  | issued
  /-- `_run_clients`. -/
  | clients
  /-- `stall_task`. -/
  | stall
  /-- `probe_task`. -/
  | probe
  | ended (result : StormEnd)
  deriving DecidableEq

/-- What the ordering is decided by, and the room on the interpreter's stack. -/
structure StallSetup where
  stall      : StallInjector
  burstFirst : Bool
  depth      : ℕ

structure StormState where
  main     : MainPoint
  injector : Point
  issued   : Bool
  deriving DecidableEq

/-- What happens next: the injector's operation comes to an end (`due` is what
the comparison of clock readings after it says), or the storm's does. -/
inductive StallEvent where
  | injector (answer : Answer) (due : Bool)
  | main (outcome : Except StormError Unit)

namespace StallSetup

variable (setup : StallSetup)

/-- The injector's task has been started. -/
def initial : StormState where
  main     := if setup.burstFirst then .clients else .issued
  injector := .delay
  issued   := false

/-- The storm's next turn. -/
def mainTurn (s : StormState) (outcome : Except StormError Unit) : Option MainPoint :=
  match s.main, outcome with
  | .issued, _ => if s.issued then some .clients else none
  | .clients, .ok () => some .stall
  | .clients, .error e => some (.ended (.clientsRaised e))
  | .stall, _ =>
    match s.injector with
    | .ended (.ok ()) => some .probe
    | .ended (.error e) => some (.ended (.stallRaised e))
    | _ => none
  | .probe, .ok () => some (.ended .returned)
  | .probe, .error e => some (.ended (.probeRaised e))
  | .ended _, _ => none

def step (s : StormState) : StallEvent → Option StormState
  | .injector answer due => (setup.stall.resume setup.depth s.injector answer due).map
      fun turn => { s with injector := turn.1, issued := s.issued || turn.2 }
  | .main outcome => (mainTurn s outcome).map fun main => { s with main := main }

def Step (s : StormState) (ev : StallEvent) (t : StormState) : Prop := setup.step s ev = some t

end StallSetup

/-! ## Before the command is issued -/

/-- The injector is on its way to its command. -/
def Opening : Point → Prop
  | .delay | .connect | .sleepDrain => True
  | .blockDrain block | .blockRead block _ => block ≠ .later
  | _ => False

/-- The injector has failed. -/
def Failed : Point → Prop
  | .closing (.error _) | .ended (.error _) => True
  | _ => False

/-- The operation of a connection fails: it is refused, times out or breaks, or
what it brings is no reply at all. -/
def Fails (depth : ℕ) : Point → Answer → Prop
  | .connect, .raised _ | .sleepDrain, .raised _ => True
  | .blockDrain _, .raised _ | .blockRead _ _, .raised _ => True
  | .blockRead _ buf, .chunk bytes =>
    bytes ≠ [] ∧ ∃ e, ReplyParser.tryParse (depth + 1) (buf ++ bytes) = .error e
  | _, _ => False

namespace StallInjector

variable {stall : StallInjector} {depth : ℕ}

theorem start_opening : Opening stall.start := by
  rcases stall with _ | _ | _ <;> simp [start, Opening]

theorem answered_opening {block : Block} (h : block ≠ .later) :
    (answered block).2 = true ∨ Opening (answered block).1 := by
  rcases block with (_ | _) | _ | _
  · exact .inr (by simp [answered, Opening])
  · exact .inr (by simp [answered, Opening])
  · exact .inl rfl
  · exact absurd rfl h

/-- What is read of a reply: more is needed, the block is answered, or it is no
reply. -/
theorem tryReply_opening {block : Block} (h : block ≠ .later) (buf : Bytes) :
    ((tryReply depth block buf).2 = true ∨ Opening (tryReply depth block buf).1) ∨
    (Failed (tryReply depth block buf).1 ∧
      ∃ e, ReplyParser.tryParse (depth + 1) buf = .error e) := by
  unfold tryReply
  split
  · next e he => exact .inr ⟨trivial, e, he⟩
  · exact .inl (answered_opening h)
  · exact .inl (.inr h)

/-- **One turn before the command is issued**: the injector issues it, is still
on its way, or fails because an operation of its connection does. -/
theorem resume_opening {p : Point} {answer : Answer} {due : Bool} {turn : Point × Bool}
    (h : stall.resume depth p answer due = some turn) (hp : Opening p) :
    turn.2 = true ∨ Opening turn.1 ∨ (Failed turn.1 ∧ Fails depth p answer) := by
  unfold resume at h
  split at h <;> cases h <;> try (exact hp.elim)
  · exact .inr (.inl trivial)
  · exact .inr (.inl start_opening)
  · exact .inr (.inr ⟨trivial, trivial⟩)
  · exact .inl rfl
  · exact .inr (.inr ⟨trivial, trivial⟩)
  · -- an empty buffer is no reply yet
    rw [tryReply, ReplyParser.tryParse_noLine rfl]
    exact .inr (.inl hp)
  · exact .inr (.inr ⟨trivial, trivial⟩)
  · exact .inr (.inr ⟨trivial, trivial⟩)
  · exact (answered_opening hp).imp id .inl
  · next hne =>
    rcases tryReply_opening hp _ with (h | h) | ⟨h, he⟩
    · exact .inl h
    · exact .inr (.inl h)
    · exact .inr (.inr ⟨h, by simpa using hne, he⟩)

theorem failed_ended {result : Except StormError Unit} (h : Failed (.closing result)) :
    Failed (.ended result) := by
  rcases result with e | u
  · trivial
  · exact h.elim

/-- A failed injector only closes its connection. -/
theorem resume_failed {p : Point} {answer : Answer} {due : Bool} {turn : Point × Bool}
    (h : stall.resume depth p answer due = some turn) (hp : Failed p) :
    turn.2 = false ∧ Failed turn.1 := by
  unfold resume at h
  split at h <;> cases h <;> first
    | exact hp.elim
    | exact ⟨rfl, failed_ended hp⟩

end StallInjector

/-! ## Runs -/

namespace StallSetup

variable {setup : StallSetup}

/-- The ordering is burst-first, the command has been issued, or the injector's
operation does not fail. -/
def Calm (setup : StallSetup) (s : StormState) (ev : StallEvent) : Prop :=
  setup.burstFirst = true ∨ s.issued = true ∨
    ∀ answer due, ev = .injector answer due → ¬ Fails setup.depth s.injector answer

/-- What the storm's own turns leave behind. -/
def Told (s : StormState) : Prop :=
  match s.main with
  | .probe | .ended .returned | .ended (.probeRaised _) => s.injector = .ended (.ok ())
  | .ended (.stallRaised e) => s.injector = .ended (.error e)
  | _ => True

/-- What holds in every run. -/
structure Inv (setup : StallSetup) (s : StormState) : Prop where
  ordering : s.main = .issued → setup.burstFirst = false
  begun    : s.main ≠ .issued → setup.burstFirst = true ∨ s.issued = true
  early    : s.issued = false → Opening s.injector ∨ Failed s.injector
  told     : Told s

theorem inv_initial : setup.Inv setup.initial where
  ordering h := by
    unfold initial at h
    by_cases hb : setup.burstFirst = true
    · rw [if_pos hb] at h
      cases h
    · exact eq_false_of_ne_true hb
  begun h := by
    by_cases hb : setup.burstFirst = true
    · exact .inl hb
    · exact absurd (if_neg hb) h
  early _ := .inl trivial
  told := by
    unfold Told initial
    by_cases hb : setup.burstFirst = true <;> simp [hb]

/-- An injector that has ended has no turn. -/
theorem resume_ended {r : Except StormError Unit} (answer : Answer) (due : Bool) :
    setup.stall.resume setup.depth (.ended r) answer due = none := by
  rcases answer with _ | _ | _ <;> rfl

/-- What a turn of the injector does. -/
theorem step_injector {s t : StormState} {answer : Answer} {due : Bool}
    (h : setup.step s (.injector answer due) = some t) :
    ∃ turn, setup.stall.resume setup.depth s.injector answer due = some turn ∧
      t = { s with injector := turn.1, issued := s.issued || turn.2 } := by
  obtain ⟨turn, hturn, ht⟩ := Option.map_eq_some_iff.mp h
  exact ⟨turn, hturn, ht.symm⟩

/-- What a turn of the storm does. -/
theorem step_main {s t : StormState} {outcome : Except StormError Unit}
    (h : setup.step s (.main outcome) = some t) :
    ∃ main, mainTurn s outcome = some main ∧ t = { s with main := main } := by
  obtain ⟨main, hmain, ht⟩ := Option.map_eq_some_iff.mp h
  exact ⟨main, hmain, ht.symm⟩

/-- The storm leaves the wait only once the event is set, and takes the
injector's result as it is. -/
theorem mainTurn_cases {s : StormState} {outcome : Except StormError Unit} {main : MainPoint}
    (h : mainTurn s outcome = some main) :
    main ≠ .issued ∧ (s.main = .issued → s.issued = true) ∧
      (Told s → Told { s with main := main }) := by
  unfold mainTurn at h
  split at h
  · next hs =>
    split at h
    · next hissued =>
      cases h
      exact ⟨by simp, fun _ => hissued, fun _ => trivial⟩
    · cases h
  · next hs => cases h; exact ⟨by simp, by simp [hs], fun _ => trivial⟩
  · next hs => cases h; exact ⟨by simp, by simp [hs], fun _ => trivial⟩
  · next hs =>
    split at h <;> cases h
    · next hr => exact ⟨by simp, by simp [hs], fun _ => hr⟩
    · next hr => exact ⟨by simp, by simp [hs], fun _ => hr⟩
  · next hs => cases h; exact ⟨by simp, by simp [hs], fun ht => by simpa [Told, hs] using ht⟩
  · next hs => cases h; exact ⟨by simp, by simp [hs], fun ht => by simpa [Told, hs] using ht⟩
  · cases h

/-- **The step lemma.** -/
theorem Inv.step {s t : StormState} {ev : StallEvent} (hs : setup.Inv s)
    (h : setup.Step s ev t) : setup.Inv t := by
  rcases ev with ⟨answer, due⟩ | outcome
  · obtain ⟨turn, hturn, rfl⟩ := step_injector h
    refine ⟨hs.ordering, fun hm => (hs.begun hm).imp id fun hi => by simp [hi], ?_, ?_⟩
    · intro hi
      rw [Bool.or_eq_false_iff] at hi
      rcases hs.early hi.1 with hopen | hfail
      · rcases StallInjector.resume_opening hturn hopen with hnow | hnext | hbad
        · rw [hi.2] at hnow
          cases hnow
        · exact .inl hnext
        · exact .inr hbad.1
      · exact .inr (StallInjector.resume_failed hturn hfail).2
    · -- where the storm has told the injector's end, the injector has no turn
      have hmoves : ∀ r, s.injector ≠ .ended r := by
        intro r hr
        rw [hr, resume_ended] at hturn
        cases hturn
      have htold := hs.told
      unfold Told at htold ⊢
      split at htold
      · exact absurd htold (hmoves _)
      · exact absurd htold (hmoves _)
      · exact absurd htold (hmoves _)
      · exact absurd htold (hmoves _)
      · trivial
  · obtain ⟨main, hmain, rfl⟩ := step_main h
    obtain ⟨hne, hwait, htold⟩ := mainTurn_cases hmain
    refine ⟨fun hm => absurd hm hne, fun _ => ?_, hs.early, htold hs.told⟩
    by_cases hm : s.main = .issued
    · exact .inr (hwait hm)
    · exact hs.begun hm

/-- Before the command is issued, a calm stall-first run is on its way to it. -/
def OnItsWay (setup : StallSetup) (s : StormState) : Prop :=
  setup.burstFirst = false → s.issued = false → Opening s.injector

theorem OnItsWay.step {s t : StormState} {ev : StallEvent} (hs : setup.OnItsWay s)
    (h : setup.Step s ev t) (hcalm : setup.Calm s ev) : setup.OnItsWay t := by
  intro hfirst hissued
  rcases ev with ⟨answer, due⟩ | outcome
  · obtain ⟨turn, hturn, rfl⟩ := step_injector h
    rw [Bool.or_eq_false_iff] at hissued
    rcases StallInjector.resume_opening hturn (hs hfirst hissued.1) with hnow | hnext | ⟨-, hbad⟩
    · rw [hissued.2] at hnow
      cases hnow
    · exact hnext
    · rcases hcalm with hb | hi | hgood
      · rw [hfirst] at hb
        cases hb
      · rw [hissued.1] at hi
        cases hi
      · exact absurd hbad (hgood answer due rfl)
  · obtain ⟨main, -, rfl⟩ := step_main h
    exact hs hfirst hissued

/-! ## What a storm makes of its stall -/

/-- The storm comes to its end with `e`: it has, unless its clients raised
first; or it does once its clients have returned. -/
def EndsWith (setup : StallSetup) (s : StormState) (e : StormError) : Prop :=
  match s.main with
  | .issued | .probe => False
  | .clients => ∀ outcome, (setup.step s (.main (.ok ()))).bind
      (fun t => setup.step t (.main outcome)) = some { s with main := .ended (.stallRaised e) }
  | .stall => ∀ outcome,
      setup.step s (.main outcome) = some { s with main := .ended (.stallRaised e) }
  | .ended result => result = .stallRaised e ∨ ∃ e', result = .clientsRaised e'

/-- The storm is not waiting for an injector that has ended, and a stall that
failed before it was issued is its end. -/
structure Sound (setup : StallSetup) (s : StormState) : Prop where
  noticed  : ∀ r, s.main = .issued → s.issued = false → s.injector ≠ .ended r
  reported : ∀ e, s.issued = false → s.injector = .ended (.error e) → setup.EndsWith s e

theorem Inv.sound {s : StormState} (hs : setup.Inv s) (hway : setup.OnItsWay s) :
    setup.Sound s := by
  constructor
  · intro r hmain hissued hended
    have hopen := hway (hs.ordering hmain) hissued
    rw [hended] at hopen
    exact hopen
  · intro e hissued hended
    have hburst : setup.burstFirst = true := by
      by_contra hb
      have hopen := hway (eq_false_of_ne_true hb) hissued
      rw [hended] at hopen
      exact hopen
    have htold := hs.told
    unfold Told at htold
    unfold EndsWith
    split
    · next hm =>
      have hfirst := hs.ordering hm
      rw [hburst] at hfirst
      cases hfirst
    · next hm =>
      rw [hm] at htold
      simp [hended] at htold
    · next hm =>
      intro outcome
      simp [StallSetup.step, mainTurn, hm, hended]
    · next hm =>
      intro outcome
      simp [StallSetup.step, mainTurn, hm, hended]
    · next result hm =>
      rw [hm] at htold
      rcases result with _ | e' | e' | e'
      · simp [hended] at htold
      · exact .inr ⟨e', rfl⟩
      · left
        simp only [hended, Point.ended.injEq, Except.error.injEq] at htold
        rw [htold]
      · simp [hended] at htold

/-- **A storm whose stall does not fail before it is issued**, or whose burst
comes first: it never waits for an injector that has ended, and a stall that
fails before it is issued is its end. -/
theorem issued_or_noticed (setup : StallSetup) (events : List StallEvent) (s : StormState)
    (h : Run (fun s ev t => setup.Step s ev t ∧ setup.Calm s ev) setup.initial events s) :
    setup.Sound s := by
  have hboth : setup.Inv s ∧ setup.OnItsWay s := by
    refine h.invariant (fun s => setup.Inv s ∧ setup.OnItsWay s) ?_ ?_
    · exact ⟨inv_initial, fun _ _ => trivial⟩
    · rintro a ev b ⟨hstep, hcalm⟩ ⟨hinv, hway⟩
      exact ⟨hinv.step hstep, hway.step hstep hcalm⟩
  exact hboth.1.sound hboth.2

/-- Once a stall-first storm's injector has failed before its command, nothing
sets the event any more. -/
theorem stall_first_hangs {s t : StormState} {events : List StallEvent}
    (hmain : s.main = .issued) (hissued : s.issued = false) (hfailed : Failed s.injector)
    (h : Run setup.Step s events t) :
    t.main = .issued ∧ t.issued = false ∧ Failed t.injector := by
  refine h.invariant (fun t => t.main = .issued ∧ t.issued = false ∧ Failed t.injector)
    ⟨hmain, hissued, hfailed⟩ ?_
  rintro a ev b hstep ⟨hm, hi, hf⟩
  rcases ev with ⟨answer, due⟩ | outcome
  · obtain ⟨turn, hturn, rfl⟩ := step_injector hstep
    obtain ⟨hnow, hnext⟩ := StallInjector.resume_failed hturn hf
    exact ⟨hm, by simp [hi, hnow], hnext⟩
  · obtain ⟨main, hmain', rfl⟩ := step_main hstep
    have hset := (mainTurn_cases hmain').2.1 hm
    rw [hi] at hset
    cases hset

end StallSetup

/-! ## A refused connection -/

namespace RefusedStall

/-- `debug-sleep`, stall first. -/
def setup : StallSetup := ⟨.debugSleep, false, 1000⟩

def refused : Answer := .raised (.os "Connect call failed")

end RefusedStall

open RefusedStall StallSetup in
/-- A calm run with a burst that comes first: the refused stall is the end of
the storm. -/
theorem issued_or_noticed_burst_first :
    ({ setup with burstFirst := true } : StallSetup).Sound
      ⟨.clients, .ended (.error (.os "Connect call failed")), false⟩ := by
  let burst : StallSetup := { setup with burstFirst := true }
  have hslept : burst.step burst.initial (.injector .done false) =
      some ⟨.clients, .connect, false⟩ := rfl
  have hrefused : burst.step ⟨.clients, .connect, false⟩ (.injector refused false) =
      some ⟨.clients, .ended (.error (.os "Connect call failed")), false⟩ := rfl
  have hrun : Run (fun s ev t => burst.Step s ev t ∧ burst.Calm s ev) burst.initial _ _ :=
    .cons ⟨hslept, .inl rfl⟩ (.single ⟨hrefused, .inl rfl⟩)
  exact issued_or_noticed burst _ _ hrun

open RefusedStall StallSetup in
/-- The server refuses the stall's connection, and the storm waits for an
injector that has ended. -/
theorem refused_stall_hangs :
    ¬ ∀ (setup : StallSetup) (events : List StallEvent) (s : StormState),
      Run setup.Step setup.initial events s → setup.Sound s := by
  intro h
  have hslept : setup.step setup.initial (.injector .done false) =
      some ⟨.issued, .connect, false⟩ := rfl
  have hrefused : setup.step ⟨.issued, .connect, false⟩ (.injector refused false) =
      some ⟨.issued, .ended (.error (.os "Connect call failed")), false⟩ := rfl
  have hrun : Run setup.Step setup.initial _ _ := .cons hslept (.single hrefused)
  exact (h setup _ _ hrun).noticed _ rfl rfl rfl

end Conductress.Stormgen
