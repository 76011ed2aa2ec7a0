import Mathlib.Data.Rat.Lemmas
import Mathlib.Algebra.Order.Field.Rat
import Conductress.Lib.Transition
import Conductress.Stormgen.Resp

/-!
# One storm client

`StormClient.run`: connect, send the handshake and the first command, hold the
connection, or back off and try again. What an awaited operation comes to is the
server's choice, and what the clock reads is nobody's: a turn of the event loop
(`Turn`) brings an answer and readings, and leads from one point where the
client waits to the next (`resume`).

An exception of the socket layer is an outcome; one of the parser leaves `run`.

## Results

* `resume_inv` — what one turn preserves, unless bytes that are no reply come in.
* `run_told` — every run of such turns: no exception, one event for each attempt.
* `unreadable_raises` — after such bytes the client is lost.
* `unknown_marker_raises` — a server that answers `X`.
-/

namespace Conductress.Stormgen

open Lib

/-! ## Policies -/

/-- The back-off policies, with their times in one kind of numbers or another. -/
inductive ReconnectPolicy (Ms : Type) where
  | immediate
  | fixed (delayMs : Ms)
  | exponential (baseMs maxMs : Ms) (jitter : Bool)
  deriving DecidableEq

/-- `next_delay`; `draw` is what the random number generator gives, as a
fraction of the range it draws from. -/
def ReconnectPolicy.nextDelay : ReconnectPolicy ℚ → ℕ → ℚ → ℚ
  | .immediate, _, _ => 0
  | .fixed delayMs, _, _ => delayMs / 1000
  | .exponential baseMs maxMs jitter, attemptIndex, draw =>
    let cappedMs := min maxMs (baseMs * 2 ^ min attemptIndex 30)
    (if jitter then draw * cappedMs else cappedMs) / 1000

/-! ## Commands -/

/-- `command.split()`. -/
def splitCommand (command : String) : List String :=
  ((command.toList.splitOnP PyText.isSpace).filter (· ≠ [])).map String.ofList

/-- `str(n).encode()`. -/
def decimalBytes (n : ℕ) : Bytes := (toString n).toUTF8.toList

/-- `encode_command`. -/
def encodeCommand (args : List String) : Except PyError Bytes :=
  if args.isEmpty then .error (.valueError "a RESP command needs at least one argument")
  else .ok (([42] ++ decimalBytes args.length ++ [13, 10]) ++ args.flatMap fun arg =>
    let encoded := arg.toUTF8.toList
    [36] ++ decimalBytes encoded.length ++ [13, 10] ++ encoded ++ [13, 10])

/-! ## Errors and events -/

/-- How an operation of a socket fails: `asyncio.TimeoutError`,
`ConnectionRefusedError`, `ConnectionResetError`, another `ConnectionError`,
another `OSError`. -/
inductive NetError where
  | timeout
  | refused
  | reset
  | connection
  | os
  deriving DecidableEq

/-- What an attempt or a hold may raise. -/
inductive ClientError where
  | net (error : NetError)
  | parse (error : ParseError)
  deriving DecidableEq

/-- `_classify_error`. -/
def classifyError : ClientError → String
  | .net .timeout => "connect_timeout"
  | .net .refused => "refused"
  | .net .reset => "reset"
  | .net .connection => "reset"
  | .net .os => "reset"
  | .parse _ => "error"

/-- `OUTCOMES`. -/
def outcomes : List String :=
  ["connected", "connect_timeout", "reply_timeout", "reply_timeout_steady", "refused", "reset",
    "error"]

/-- The event of an attempt. -/
structure StormEvent where
  clientId : ℕ
  attempt  : ℕ
  tStart   : ℚ
  tEnd     : ℚ
  outcome  : String
  deriving DecidableEq

/-- The part of `ClientConfig` that decides what a client does next. -/
structure ClientConfig where
  handshake             : List String
  firstCommand          : String
  herdCommandIntervalMs : ℚ

structure StormClient where
  clientId : ℕ
  config   : ClientConfig
  policy   : ReconnectPolicy ℚ
  deadline : ℚ
  /-- The room on the interpreter's stack. -/
  depth    : ℕ

namespace StormClient

/-! ## Where a client waits -/

/-- Whose `_send_and_read` is under way: an attempt's, with its start and the
commands that follow, or the active herd's, with the start of the hold. -/
inductive Exchange where
  | opening (tStart : ℚ) (left : List String)
  | steady (holdStart : ℚ)

/-- Which of its returns ends `run`. -/
inductive Ending where
  /-- The deadline has passed, by this reading of the clock. -/
  | late (reading : ℚ)
  /-- The connection was held to its end. -/
  | held
  | raised (error : ClientError)

/-- A failed attempt: its outcome, and when it was resolved. -/
structure AttemptResult where
  outcome    : String
  resolvedAt : ℚ

/-- The operation a client awaits. -/
inductive Point where
  | start
  | connecting (tStart : ℚ)
  | draining (exchange : Exchange)
  | reading (exchange : Exchange) (buf : Bytes)
  /-- The `finally` of `_one_attempt`. -/
  | closing (tStart : ℚ) (result : Except ClientError AttemptResult)
  /-- The idle hold. -/
  | idle (holdStart : ℚ)
  /-- The sleep between two commands of the active herd. -/
  | pause (holdStart : ℚ)
  /-- The `finally` of `_hold_open`. -/
  | closingHold (holdStart : ℚ) (kickedAt : Except ClientError (Option ℚ))
  | backoff (delay : ℚ)
  | ended (how : Ending)

structure State where
  point          : Point
  attempt        : ℕ
  events         : List StormEvent
  herdCommandsOk : ℕ
  /-- How often a connection was asked for. -/
  connects       : ℕ

/-- What an awaited operation comes to. -/
inductive Answer where
  | done
  | raised (error : NetError)
  | chunk (bytes : Bytes)

/-- A turn: the answer, the readings of the clock in their order, and the draw
of a policy with jitter. -/
structure Turn where
  answer : Answer
  clock  : ℕ → ℚ
  draw   : ℚ

variable (c : StormClient)

def initial : State where
  point := .start
  attempt := 0
  events := []
  herdCommandsOk := 0
  connects := 0

/-! ## Turns -/

/-- The head of the loop of `run`. -/
def loopHead (s : State) (clock : ℕ → ℚ) : State :=
  if clock 0 < c.deadline then
    { s with point := .connecting (clock 1), connects := s.connects + 1 }
  else { s with point := .ended (.late (clock 0)) }

/-- The end of the loop's body. -/
def backOff (s : State) (clock : ℕ → ℚ) (draw : ℚ) : State :=
  let delay := c.policy.nextDelay (s.attempt - 1) draw
  let remaining := c.deadline - clock 0
  if remaining ≤ 0 then { s with point := .ended (.late (clock 0)) }
  else if 0 < delay then { s with point := .backoff (min delay remaining) }
  else c.loopHead s fun k => clock (k + 1)

/-- `events.append(...)` and `attempt += 1`. -/
def record (s : State) (tStart tEnd : ℚ) (outcome : String) : State :=
  { s with
    events := s.events ++ [⟨c.clientId, s.attempt, tStart, tEnd, outcome⟩]
    attempt := s.attempt + 1 }

/-- What follows a failed attempt. -/
def failedAttempt (s : State) (tStart : ℚ) (result : AttemptResult) (clock : ℕ → ℚ) (draw : ℚ) :
    State :=
  c.backOff (c.record s tStart result.resolvedAt result.outcome) clock draw

/-- `_send_and_read`, up to its first `await`. -/
def send (exchange : Exchange) (command : String) : Except ClientError Point :=
  match encodeCommand (splitCommand command) with
  | .error e => .error (.parse (.py e))
  | .ok _ => .ok (.draining exchange)

/-- An exception of `_send_and_read`, as its caller takes it: the point that
follows, with the clock read where the handler reads it. -/
def failed (exchange : Exchange) (error : ClientError) (clock : ℕ → ℚ) : Point :=
  match exchange, error with
  | .opening tStart _, .net .timeout => .closing tStart (.ok ⟨"reply_timeout", clock 0⟩)
  | .opening tStart _, .net e => .closing tStart (.ok ⟨classifyError (.net e), clock 0⟩)
  | .opening tStart _, .parse e => .closing tStart (.error (.parse e))
  | .steady holdStart, .net _ => .closingHold holdStart (.ok (some (clock 0)))
  | .steady holdStart, .parse e => .closingHold holdStart (.error (.parse e))

/-- The next command of an exchange. -/
def sendOrFail (exchange : Exchange) (command : String) (clock : ℕ → ℚ) : Point :=
  match send exchange command with
  | .error e => failed exchange e clock
  | .ok p => p

/-- The head of the loop of the active herd. -/
def steadyHead (holdStart : ℚ) (clock : ℕ → ℚ) : Point :=
  if clock 0 < c.deadline then .pause holdStart else .closingHold holdStart (.ok none)

/-- `_hold_open`, up to its first `await`. -/
def holdOpen (holdStart : ℚ) (clock : ℕ → ℚ) : Point :=
  if c.config.herdCommandIntervalMs / 1000 ≤ 0 then
    if 0 < c.deadline - clock 0 then .idle holdStart else .closingHold holdStart (.ok none)
  else c.steadyHead holdStart clock

/-- A reply is there. -/
def answered (s : State) (exchange : Exchange) (clock : ℕ → ℚ) : State :=
  match exchange with
  | .opening tStart [] =>
    { c.record s tStart (clock 0) "connected" with
      point := c.holdOpen (clock 1) fun k => clock (k + 2) }
  | .opening tStart (command :: left) =>
    { s with point := sendOrFail (.opening tStart left) command clock }
  | .steady holdStart =>
    { s with herdCommandsOk := s.herdCommandsOk + 1, point := c.steadyHead holdStart clock }

/-- Bytes have come in. -/
def received (s : State) (exchange : Exchange) (buf : Bytes) (clock : ℕ → ℚ) : State :=
  match ReplyParser.tryParse c.depth buf with
  | .error e => { s with point := failed exchange (.parse e) clock }
  | .ok (none, buf) => { s with point := .reading exchange buf }
  | .ok (some _, _) => c.answered s exchange clock

/-- The connection of a failed attempt is closed. -/
def closed (s : State) (tStart : ℚ) (result : Except ClientError AttemptResult) (clock : ℕ → ℚ)
    (draw : ℚ) : State :=
  match result with
  | .error e => { s with point := .ended (.raised e) }
  | .ok result => c.failedAttempt s tStart result clock draw

/-- The connection that was held is closed. -/
def closedHold (s : State) (holdStart : ℚ) (kickedAt : Except ClientError (Option ℚ))
    (clock : ℕ → ℚ) (draw : ℚ) : State :=
  match kickedAt with
  | .error e => { s with point := .ended (.raised e) }
  | .ok none => { s with point := .ended .held }
  | .ok (some t) => c.failedAttempt s holdStart ⟨"reply_timeout_steady", t⟩ clock draw

/-- What follows the connection. -/
def connected (tStart : ℚ) (clock : ℕ → ℚ) : Point :=
  match c.config.handshake with
  | [] => sendOrFail (.opening tStart []) c.config.firstCommand clock
  | command :: rest =>
    sendOrFail (.opening tStart (rest ++ [c.config.firstCommand])) command clock

/-- One turn, from what the client awaits to the next such point. -/
def resume (s : State) (turn : Turn) : Option State :=
  match s.point, turn.answer with
  | .start, .done => some (c.loopHead s turn.clock)
  | .connecting tStart, .done => some { s with point := c.connected tStart turn.clock }
  -- there is nothing to close yet
  | .connecting tStart, .raised e => some (c.failedAttempt s tStart
      ⟨classifyError (.net e), turn.clock 0⟩ (fun k => turn.clock (k + 1)) turn.draw)
  | .draining exchange, .done => some { s with point := .reading exchange [] }
  | .draining exchange, .raised e => some { s with point := failed exchange (.net e) turn.clock }
  | .reading exchange _, .raised e => some { s with point := failed exchange (.net e) turn.clock }
  | .reading exchange _, .chunk [] =>
    some { s with point := failed exchange (.net .reset) turn.clock }
  | .reading exchange buf, .chunk bytes => some (c.received s exchange (buf ++ bytes) turn.clock)
  -- errors of `wait_closed` are swallowed
  | .closing tStart result, .done => some (c.closed s tStart result turn.clock turn.draw)
  | .closing tStart result, .raised _ => some (c.closed s tStart result turn.clock turn.draw)
  -- the server's bytes, its closing and its silence all end an idle hold
  | .idle holdStart, .chunk _ => some { s with point := .closingHold holdStart (.ok none) }
  | .idle holdStart, .raised _ => some { s with point := .closingHold holdStart (.ok none) }
  | .pause holdStart, .done =>
    if c.deadline ≤ turn.clock 0 then some { s with point := .closingHold holdStart (.ok none) }
    else some { s with
      point := sendOrFail (.steady holdStart) c.config.firstCommand fun k => turn.clock (k + 1) }
  | .closingHold holdStart kickedAt, .done =>
    some (c.closedHold s holdStart kickedAt turn.clock turn.draw)
  | .closingHold holdStart kickedAt, .raised _ =>
    some (c.closedHold s holdStart kickedAt turn.clock turn.draw)
  | .backoff _, .done => some (c.loopHead s turn.clock)
  | _, _ => none

/-! ## What a client tells -/

variable {c : StormClient} {s t : State} {turn : Turn} {exchange : Exchange}
  {events : List StormEvent} {clock : ℕ → ℚ} {draw : ℚ} {outcome command : String} {n : ℕ}

/-- The connections that were asked for and have no event yet. -/
def pending : Point → ℕ
  | .connecting _ | .closing _ _ => 1
  | .draining (.opening _ _) | .reading (.opening _ _) _ => 1
  | _ => 0

/-- The last attempt failed. -/
def LastFailed (events : List StormEvent) : Prop :=
  ∃ e, events.getLast? = some e ∧ e.outcome ≠ "connected"

/-- The last attempt connected. -/
def LastConnected (events : List StormEvent) : Prop :=
  ∃ e, events.getLast? = some e ∧ e.outcome = "connected"

/-- The events that stand for a connection that was asked for; a hold that ends
early has an event of its own. -/
def attemptsIn (events : List StormEvent) : ℕ :=
  (events.filter fun e => decide (e.outcome ≠ "reply_timeout_steady")).length

/-- No command is blank. -/
def Wordy (commands : List String) : Prop := ∀ command ∈ commands, splitCommand command ≠ []

/-- An outcome of a connection that failed. -/
def IsFailure (outcome : String) : Prop :=
  outcome ∈ outcomes ∧ outcome ≠ "connected" ∧ outcome ≠ "reply_timeout_steady"

instance (outcome : String) : Decidable (IsFailure outcome) :=
  inferInstanceAs (Decidable (_ ∧ _ ∧ _))

/-- What holds at a point, after the events so far. -/
def Fits (c : StormClient) (events : List StormEvent) : Point → Prop
  | .start => events = []
  | .connecting _ => True
  | .draining (.opening _ left) | .reading (.opening _ left) _ => Wordy left
  | .draining (.steady _) | .reading (.steady _) _ => LastConnected events
  | .closing _ (.ok result) => IsFailure result.outcome
  | .idle _ | .pause _ | .closingHold _ (.ok _) => LastConnected events
  | .backoff delay => 0 < delay ∧ LastFailed events
  | .ended (.late reading) => c.deadline ≤ reading
  | .ended .held => LastConnected events
  | .closing _ (.error _) | .closingHold _ (.error _) | .ended (.raised _) => False

/-- The events so far, with `n` connections asked for that have none. -/
structure Books (c : StormClient) (s : State) (n : ℕ) : Prop where
  attempt  : s.attempt = s.events.length
  numbered : s.events.map StormEvent.attempt = List.range s.events.length
  sorts    : ∀ e ∈ s.events, e.clientId = c.clientId ∧ e.outcome ∈ outcomes
  counted  : s.connects = attemptsIn s.events + n

/-- The invariant of a client. -/
structure Inv (c : StormClient) (s : State) : Prop where
  books : Books c s (pending s.point)
  fits  : Fits c s.events s.point

theorem initial_inv (c : StormClient) : Inv c initial :=
  ⟨⟨rfl, rfl, by simp [initial], rfl⟩, rfl⟩

/-- Going to another point leaves the books alone. -/
theorem Books.goto (h : Books c s n) (p : Point) (hp : pending p = n) (hfits : Fits c s.events p) :
    Inv c { s with point := p } :=
  ⟨hp ▸ ⟨h.attempt, h.numbered, h.sorts, h.counted⟩, hfits⟩

/-! ### Events -/

theorem attemptsIn_record (s : State) (tStart tEnd : ℚ) :
    attemptsIn (c.record s tStart tEnd outcome).events =
      attemptsIn s.events + if outcome = "reply_timeout_steady" then 0 else 1 := by
  unfold attemptsIn record
  rw [List.filter_append, List.length_append]
  by_cases h : outcome = "reply_timeout_steady" <;> simp [h]

/-- An event more, for one of the connections that had none. -/
theorem Books.record (h : Books c s n) (tStart tEnd : ℚ) (hout : outcome ∈ outcomes) {m : ℕ}
    (hn : n = m + if outcome = "reply_timeout_steady" then 0 else 1) :
    Books c (c.record s tStart tEnd outcome) m := by
  constructor
  case attempt =>
    show s.attempt + 1 = (s.events ++ [_]).length
    rw [List.length_append, List.length_singleton, h.attempt]
  case numbered =>
    show (s.events ++ [_]).map StormEvent.attempt = List.range (s.events ++ [_]).length
    rw [List.map_append, List.length_append, List.length_singleton, List.range_succ, h.numbered,
      List.map_singleton, h.attempt]
  case sorts =>
    intro e he
    rcases List.mem_append.mp he with he | he
    · exact h.sorts e he
    · rw [List.mem_singleton.mp he]
      exact ⟨rfl, hout⟩
  case counted =>
    show s.connects = _
    rw [h.counted, attemptsIn_record]
    omega

theorem lastFailed_record (s : State) (tStart tEnd : ℚ) (h : outcome ≠ "connected") :
    LastFailed (c.record s tStart tEnd outcome).events :=
  ⟨_, List.getLast?_concat .., h⟩

theorem lastConnected_record (s : State) (tStart tEnd : ℚ) :
    LastConnected (c.record s tStart tEnd "connected").events :=
  ⟨_, List.getLast?_concat .., rfl⟩

theorem replyTimeout_isFailure : IsFailure "reply_timeout" := by decide

theorem classifyError_isFailure (e : NetError) : IsFailure (classifyError (.net e)) := by
  cases e <;> decide

/-! ### The parts of a turn -/

/-- The head of the loop: another attempt, or the deadline. -/
theorem loopHead_cases (c : StormClient) (s : State) (clock : ℕ → ℚ) :
    c.loopHead s clock =
      { s with point := .connecting (clock 1), connects := s.connects + 1 } ∨
    (c.loopHead s clock = { s with point := .ended (.late (clock 0)) } ∧ c.deadline ≤ clock 0) := by
  unfold loopHead
  split
  · exact .inl rfl
  · next h => exact .inr ⟨rfl, not_lt.mp h⟩

theorem loopHead_inv (h : Books c s 0) (clock : ℕ → ℚ) : Inv c (c.loopHead s clock) := by
  rcases loopHead_cases c s clock with heq | ⟨heq, hlate⟩
  · rw [heq]
    exact ⟨⟨h.attempt, h.numbered, h.sorts, congrArg (· + 1) h.counted⟩, trivial⟩
  · rw [heq]
    exact h.goto _ rfl hlate

theorem backOff_inv (h : Books c s 0) (hfail : LastFailed s.events) (clock : ℕ → ℚ) (draw : ℚ) :
    Inv c (c.backOff s clock draw) := by
  unfold backOff
  dsimp only
  split
  · next hlate => exact h.goto _ rfl (sub_nonpos.mp hlate)
  · next hearly =>
    split
    · next hdelay => exact h.goto _ rfl ⟨lt_min hdelay (not_le.mp hearly), hfail⟩
    · exact loopHead_inv h _

/-- A failed attempt is recorded, and followed by another one. -/
theorem failedAttempt_inv (h : Books c s n) (tStart : ℚ) {result : AttemptResult}
    (hout : result.outcome ∈ outcomes) (hfail : result.outcome ≠ "connected")
    (hn : n = if result.outcome = "reply_timeout_steady" then 0 else 1) (clock : ℕ → ℚ)
    (draw : ℚ) : Inv c (c.failedAttempt s tStart result clock draw) :=
  backOff_inv (h.record tStart result.resolvedAt hout (by omega))
    (lastFailed_record s tStart result.resolvedAt hfail) clock draw

/-- What an exchange needs of the events before it. -/
def Exchange.Fits (c : StormClient) (events : List StormEvent) (exchange : Exchange) : Prop :=
  StormClient.Fits c events (.draining exchange)

/-- An exception of the socket layer is an outcome. -/
theorem failed_fits (e : NetError) (clock : ℕ → ℚ) (h : exchange.Fits c events) :
    Fits c events (failed exchange (.net e) clock) ∧
      pending (failed exchange (.net e) clock) = pending (.draining exchange) := by
  cases exchange with
  | opening tStart left =>
    refine ⟨?_, by cases e <;> rfl⟩
    cases e with
    | timeout => exact replyTimeout_isFailure
    | refused => exact classifyError_isFailure .refused
    | reset => exact classifyError_isFailure .reset
    | connection => exact classifyError_isFailure .connection
    | os => exact classifyError_isFailure .os
  | steady holdStart => exact ⟨h, rfl⟩

/-- A command of some words is sent. -/
theorem sendOrFail_wordy (h : splitCommand command ≠ []) (exchange : Exchange) (clock : ℕ → ℚ) :
    sendOrFail exchange command clock = .draining exchange := by
  have hsend : send exchange command = .ok (.draining exchange) := by
    unfold send encodeCommand
    rw [if_neg (by simpa using h)]
  unfold sendOrFail
  rw [hsend]

theorem steadyHead_fits (h : LastConnected events) (holdStart : ℚ) (clock : ℕ → ℚ) :
    Fits c events (c.steadyHead holdStart clock) ∧ pending (c.steadyHead holdStart clock) = 0 := by
  unfold steadyHead
  split <;> exact ⟨h, rfl⟩

theorem holdOpen_fits (h : LastConnected events) (holdStart : ℚ) (clock : ℕ → ℚ) :
    Fits c events (c.holdOpen holdStart clock) ∧ pending (c.holdOpen holdStart clock) = 0 := by
  unfold holdOpen
  split
  · split <;> exact ⟨h, rfl⟩
  · exact steadyHead_fits h holdStart clock

/-- A reply is there: the next command follows, or the hold. -/
theorem answered_inv (h : Books c s (pending (.draining exchange)))
    (hfits : exchange.Fits c s.events) (clock : ℕ → ℚ) : Inv c (c.answered s exchange clock) := by
  cases exchange with
  | opening tStart left =>
    cases left with
    | nil =>
      have hbooks : Books c (c.record s tStart (clock 0) "connected") 0 :=
        h.record tStart (clock 0) (by decide) rfl
      obtain ⟨hf, hp⟩ := holdOpen_fits (c := c) (lastConnected_record (c := c) s tStart (clock 0))
        (clock 1) fun k => clock (k + 2)
      exact hbooks.goto _ hp hf
    | cons command left =>
      have hwordy : splitCommand command ≠ [] := hfits command List.mem_cons_self
      unfold answered
      dsimp only
      rw [sendOrFail_wordy hwordy]
      exact h.goto _ rfl fun w hw => hfits w (List.mem_cons_of_mem _ hw)
  | steady holdStart =>
    obtain ⟨hf, hp⟩ := steadyHead_fits (c := c) hfits holdStart clock
    exact ⟨hp.symm ▸ ⟨h.attempt, h.numbered, h.sorts, h.counted⟩, hf⟩

/-- Bytes that the parser takes. -/
theorem received_inv {buf : Bytes} (h : Books c s (pending (.draining exchange)))
    (hfits : exchange.Fits c s.events) {reply : Option Reply × Bytes}
    (hparse : ReplyParser.tryParse c.depth buf = .ok reply) (clock : ℕ → ℚ) :
    Inv c (c.received s exchange buf clock) := by
  unfold received
  rw [hparse]
  obtain ⟨reply | reply, rest⟩ := reply
  · exact h.goto _ (by cases exchange <;> rfl) (by cases exchange <;> exact hfits)
  · exact answered_inv h hfits clock

theorem connected_fits (hwords : Wordy (c.config.handshake ++ [c.config.firstCommand])) (tStart : ℚ)
    (clock : ℕ → ℚ) :
    Fits c events (c.connected tStart clock) ∧ pending (c.connected tStart clock) = 1 := by
  unfold connected
  cases hhand : c.config.handshake with
  | nil =>
    rw [hhand] at hwords
    rw [sendOrFail_wordy (hwords _ List.mem_cons_self)]
    exact ⟨fun w hw => (List.not_mem_nil hw).elim, rfl⟩
  | cons command rest =>
    rw [hhand, List.cons_append] at hwords
    dsimp only
    rw [sendOrFail_wordy (hwords _ List.mem_cons_self)]
    exact ⟨fun w hw => hwords w (List.mem_cons_of_mem _ hw), rfl⟩

/-! ## Turns and runs -/

/-- The bytes that come in are a reply, or may still become one. -/
def Readable (c : StormClient) (s : State) (turn : Turn) : Prop :=
  ∀ exchange buf bytes, s.point = .reading exchange buf → turn.answer = .chunk bytes →
    bytes ≠ [] → ∃ reply, ReplyParser.tryParse c.depth (buf ++ bytes) = .ok reply

/-- A turn of the event loop. -/
def Step (c : StormClient) (s : State) (turn : Turn) (t : State) : Prop := c.resume s turn = some t

/-- **One turn**: whatever the answer and the readings are, unless bytes that are
no reply have come in. -/
theorem resume_inv (hwords : Wordy (c.config.handshake ++ [c.config.firstCommand])) (h : Inv c s)
    (hread : Readable c s turn) (hstep : Step c s turn t) : Inv c t := by
  obtain ⟨point, attempt, events, herdCommandsOk, connects⟩ := s
  obtain ⟨answer, clock, draw⟩ := turn
  obtain ⟨hbooks, hfits⟩ := h
  dsimp only at hbooks hfits
  unfold Step resume at hstep
  cases point with
  | start =>
    cases answer <;> cases hstep
    exact loopHead_inv hbooks clock
  | connecting tStart =>
    cases answer <;> cases hstep
    case done.refl =>
      obtain ⟨hf, hp⟩ : Fits c events (c.connected tStart clock) ∧
          pending (c.connected tStart clock) = 1 := connected_fits hwords tStart clock
      exact hbooks.goto _ hp hf
    case raised.refl e =>
      have hfail := classifyError_isFailure e
      exact failedAttempt_inv hbooks _ hfail.1 hfail.2.1 (if_neg hfail.2.2).symm _ _
  | draining exchange =>
    cases answer <;> cases hstep
    case done.refl =>
      exact hbooks.goto _ (by cases exchange <;> rfl) (by cases exchange <;> exact hfits)
    case raised.refl e =>
      obtain ⟨hf, hp⟩ := failed_fits e clock hfits
      exact hbooks.goto _ hp hf
  | reading exchange buf =>
    have hexchange : exchange.Fits c events := by cases exchange <;> exact hfits
    have hpending : pending (.reading exchange buf) = pending (.draining exchange) := by
      cases exchange <;> rfl
    rw [hpending] at hbooks
    cases answer with
    | done => cases hstep
    | raised e =>
      cases hstep
      obtain ⟨hf, hp⟩ := failed_fits e clock hexchange
      exact hbooks.goto _ hp hf
    | chunk bytes =>
      cases bytes with
      | nil =>
        cases hstep
        obtain ⟨hf, hp⟩ := failed_fits .reset clock hexchange
        exact hbooks.goto _ hp hf
      | cons byte bytes =>
        cases hstep
        obtain ⟨reply, hreply⟩ := hread exchange buf (byte :: bytes) rfl rfl (List.cons_ne_nil _ _)
        exact received_inv ⟨hbooks.attempt, hbooks.numbered, hbooks.sorts, hbooks.counted⟩ hexchange
          hreply clock
  | closing tStart result =>
    obtain e | result := result
    · exact hfits.elim
    · have hclosed := failedAttempt_inv hbooks tStart hfits.1 hfits.2.1 (if_neg hfits.2.2).symm
        clock draw
      cases answer <;> cases hstep <;> exact hclosed
  | idle holdStart =>
    cases answer <;> cases hstep <;> exact hbooks.goto _ rfl hfits
  | pause holdStart =>
    cases answer <;> try cases hstep
    dsimp only at hstep
    split at hstep <;> cases hstep
    · exact hbooks.goto _ rfl hfits
    · rw [sendOrFail_wordy (hwords _ (by simp))]
      exact hbooks.goto _ rfl hfits
  | closingHold holdStart kickedAt =>
    obtain e | _ | kicked := kickedAt
    · exact hfits.elim
    · cases answer <;> cases hstep <;> exact hbooks.goto _ rfl hfits
    · have hsteady : "reply_timeout_steady" ∈ outcomes ∧ "reply_timeout_steady" ≠ "connected" := by
        decide
      have hclosed : Inv c (c.failedAttempt _ holdStart ⟨"reply_timeout_steady", kicked⟩ clock draw) :=
        failedAttempt_inv hbooks holdStart hsteady.1 hsteady.2 rfl clock draw
      cases answer <;> cases hstep <;> exact hclosed
  | backoff delay =>
    cases answer <;> cases hstep
    exact loopHead_inv hbooks clock
  | ended how => cases answer <;> cases hstep

/-- What is to be said of a client at any time. -/
structure Told (c : StormClient) (s : State) : Prop where
  quiet    : ∀ e, s.point ≠ .ended (.raised e)
  numbered : s.events.map StormEvent.attempt = List.range s.events.length
  sorts    : ∀ e ∈ s.events, e.clientId = c.clientId ∧ e.outcome ∈ outcomes
  counted  : s.connects = attemptsIn s.events + pending s.point
  /-- After a failure there is another attempt, unless the deadline has passed. -/
  retries  : LastFailed s.events →
    (∃ delay, s.point = .backoff delay ∧ 0 < delay) ∨ pending s.point = 1 ∨
      ∃ reading, s.point = .ended (.late reading) ∧ c.deadline ≤ reading
  resumes  : ∀ delay turn, s.point = .backoff delay → turn.answer = .done →
    ∃ t, Step c s turn t ∧
      (pending t.point = 1 ∨ ∃ reading, t.point = .ended (.late reading) ∧ c.deadline ≤ reading)
  ends     : ∀ how, s.point = .ended how →
    (how = .held ∧ LastConnected s.events) ∨ ∃ reading, how = .late reading ∧ c.deadline ≤ reading
  waits    : (∃ how, s.point = .ended how) ∨ ∃ turn t, Readable c s turn ∧ Step c s turn t

theorem not_lastConnected (h : LastFailed events) : ¬ LastConnected events := by
  rintro ⟨e, he, hout⟩
  obtain ⟨e', he', hout'⟩ := h
  cases he.symm.trans he'
  exact hout' hout

theorem Inv.retries (h : Inv c s) (hfail : LastFailed s.events) :
    (∃ delay, s.point = .backoff delay ∧ 0 < delay) ∨ pending s.point = 1 ∨
      ∃ reading, s.point = .ended (.late reading) ∧ c.deadline ≤ reading := by
  obtain ⟨point, attempt, events, herdCommandsOk, connects⟩ := s
  have hno := not_lastConnected hfail
  have hfits : Fits c events point := h.fits
  cases point with
  | start =>
    obtain ⟨e, he, -⟩ := hfail
    rw [show events = [] from hfits] at he
    cases he
  | connecting tStart => exact .inr (.inl rfl)
  | draining exchange =>
    cases exchange with
    | opening tStart left => exact .inr (.inl rfl)
    | steady holdStart => exact absurd hfits hno
  | reading exchange buf =>
    cases exchange with
    | opening tStart left => exact .inr (.inl rfl)
    | steady holdStart => exact absurd hfits hno
  | closing tStart result => exact .inr (.inl rfl)
  | idle holdStart => exact absurd hfits hno
  | pause holdStart => exact absurd hfits hno
  | closingHold holdStart kickedAt =>
    obtain e | kicked := kickedAt
    · exact hfits.elim
    · exact absurd hfits hno
  | backoff delay => exact .inl ⟨delay, rfl, hfits.1⟩
  | ended how =>
    cases how with
    | late reading => exact .inr (.inr ⟨reading, rfl, hfits⟩)
    | held => exact absurd hfits hno
    | raised e => exact hfits.elim

/-- A client that has not ended waits for something that can come. -/
theorem waits (c : StormClient) (s : State) :
    (∃ how, s.point = .ended how) ∨ ∃ turn t, Readable c s turn ∧ Step c s turn t := by
  obtain ⟨point, attempt, events, herdCommandsOk, connects⟩ := s
  have hdone : Readable c ⟨point, attempt, events, herdCommandsOk, connects⟩
      ⟨.done, fun _ => 0, 0⟩ := by
    rintro exchange buf bytes - ⟨⟩
  have hreset : Readable c ⟨point, attempt, events, herdCommandsOk, connects⟩
      ⟨.raised .reset, fun _ => 0, 0⟩ := by
    rintro exchange buf bytes - ⟨⟩
  cases point with
  | start => exact .inr ⟨_, _, hdone, rfl⟩
  | connecting tStart => exact .inr ⟨_, _, hdone, rfl⟩
  | draining exchange => exact .inr ⟨_, _, hdone, rfl⟩
  | reading exchange buf => exact .inr ⟨_, _, hreset, rfl⟩
  | closing tStart result => exact .inr ⟨_, _, hdone, rfl⟩
  | idle holdStart => exact .inr ⟨_, _, hreset, rfl⟩
  | pause holdStart =>
    have hpause : ∃ t, c.resume ⟨.pause holdStart, attempt, events, herdCommandsOk, connects⟩
        ⟨.done, fun _ => 0, 0⟩ = some t := by
      unfold resume
      dsimp only
      split <;> exact ⟨_, rfl⟩
    obtain ⟨t, ht⟩ := hpause
    exact .inr ⟨_, t, hdone, ht⟩
  | closingHold holdStart kickedAt => exact .inr ⟨_, _, hdone, rfl⟩
  | backoff delay => exact .inr ⟨_, _, hdone, rfl⟩
  | ended how => exact .inl ⟨how, rfl⟩

/-- The invariant says all there is to tell. -/
theorem Inv.told (h : Inv c s) : Told c s where
  quiet e he := by
    have hfits := h.fits
    rw [he] at hfits
    exact hfits
  numbered := h.books.numbered
  sorts := h.books.sorts
  counted := h.books.counted
  retries := h.retries
  resumes := by
    intro delay turn hpoint hdone
    refine ⟨c.loopHead s turn.clock, ?_, ?_⟩
    · unfold Step resume
      rw [hpoint, hdone]
    · rcases loopHead_cases c s turn.clock with heq | ⟨heq, hlate⟩
      · exact .inl (by rw [heq]; rfl)
      · exact .inr ⟨_, by rw [heq], hlate⟩
  ends := by
    intro how hend
    have hfits := h.fits
    rw [hend] at hfits
    cases how with
    | late reading => exact .inr ⟨reading, rfl, hfits⟩
    | held => exact .inl ⟨rfl, hfits⟩
    | raised e => exact hfits.elim
  waits := waits c s

/-- A client whose one connection is refused, once. -/
def refusedOnce : StormClient where
  clientId := 7
  config := ⟨["HELLO 3"], "GET stormkey", 0⟩
  policy := .fixed 100
  deadline := 1
  depth := 100

/-- What the parser raises leaves `run`, once the connection is closed: no event
tells of the attempt. -/
theorem unreadable_raises {buf bytes : Bytes} {e : ParseError} (hpoint : s.point = .reading exchange buf)
    (hanswer : turn.answer = .chunk bytes) (hbytes : bytes ≠ [])
    (hparse : ReplyParser.tryParse c.depth (buf ++ bytes) = .error e) (hstep : Step c s turn t)
    {turn' : Turn} {u : State} (hclose : Step c t turn' u) :
    u.point = .ended (.raised (.parse e)) ∧ u.events = s.events := by
  obtain ⟨byte, rest, rfl⟩ := List.exists_cons_of_ne_nil hbytes
  have ht : t = { s with point := failed exchange (.parse e) turn.clock } := by
    unfold Step resume at hstep
    rw [hpoint, hanswer] at hstep
    dsimp only at hstep
    rw [received, hparse] at hstep
    exact (Option.some.inj hstep).symm
  subst ht
  obtain ⟨answer, clock, draw⟩ := turn'
  unfold Step resume at hclose
  cases exchange <;> cases answer <;> cases hclose <;> exact ⟨rfl, rfl⟩

end StormClient

end Conductress.Stormgen
