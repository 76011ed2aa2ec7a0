import Mathlib.Data.Finset.Card
import Mathlib.Data.List.Chain
import Conductress.Stormgen.StormClient
import Conductress.Stormgen.Workers

/-!
# When a storm is quiet

`time_to_quiescence` takes a client for recovered once it has connected. The
active herd can lose a connection again: a steady command times out, and the
deadline may come before the client is back.

A storm is a slice of clients for each worker, a slice an event loop (`Loop`), and
a loop one list of events that its clients append to in any order.

* `resume_tells` — one turn keeps a client's events in order: after `connected`
  comes a steady timeout;
* `stormRun_tells` — so they are in the list of every storm;
* `quiet_iff` — when the metric and the clients' last events agree;
* `idle_agrees` — always, for an idle herd.
-/

namespace Conductress.Stormgen

open Lib

/-! ## The metric -/

/-- The two values of `time_to_quiescence`. -/
structure Quiescence where
  fromStart    : Option ℚ
  fromStallEnd : Option ℚ
  deriving DecidableEq

/-- `{e["client_id"] for e in events if e.get("outcome") == OUTCOME_CONNECTED}`. -/
def connectedIds (events : List StormEvent) : Finset ℕ :=
  ((events.filter fun e => decide (e.outcome = "connected")).map StormEvent.clientId).toFinset

/-- `time_to_quiescence`. -/
def timeToQuiescence (events : List StormEvent) (clientCount : ℕ) (stormStart : ℚ)
    (stallEnd : Option ℚ) : Quiescence :=
  let reached := 0 < clientCount ∧ clientCount ≤ (connectedIds events).card
  match (events.map StormEvent.tEnd).max? with
  | some lastEnd =>
    if reached then ⟨some (max 0 (lastEnd - stormStart)), stallEnd.map fun t => max 0 (lastEnd - t)⟩
    else ⟨none, none⟩
  | none => ⟨none, none⟩

/-- The events of one client. -/
def clientEvents (events : List StormEvent) (id : ℕ) : List StormEvent :=
  events.filter fun e => decide (e.clientId = id)

/-- The client has connected at some time. -/
def HasConnected (events : List StormEvent) : Prop := ∃ e ∈ events, e.outcome = "connected"

/-- The client has lost its connection to a steady command, and none of its later
attempts connected. -/
def KickedOut (events : List StormEvent) : Prop :=
  ∃ before e later, events = before ++ e :: later ∧ e.outcome = "reply_timeout_steady" ∧
    ∀ e' ∈ later, e'.outcome ≠ "connected"

/-! ## The events of a client -/

namespace StormClient

/-- The client sends commands while it holds its connection. -/
def Active (c : StormClient) : Prop := 0 < c.config.herdCommandIntervalMs

/-- What a point says of the last event. -/
def Phase (c : StormClient) (events : List StormEvent) : Point → Prop
  | .start | .connecting _ | .backoff _ => ¬ LastConnected events
  | .draining (.opening _ _) | .reading (.opening _ _) _ => ¬ LastConnected events
  | .closing _ (.error _) => ¬ LastConnected events
  | .closing _ (.ok result) => ¬ LastConnected events ∧ IsFailure result.outcome
  | .draining (.steady _) | .reading (.steady _) _ => LastConnected events ∧ Active c
  | .pause _ | .closingHold _ (.ok (some _)) => LastConnected events ∧ Active c
  | .idle _ | .closingHold _ (.ok none) | .closingHold _ (.error _) => LastConnected events
  | .ended _ => True

/-- What the events of a client are like, with `before` among them. -/
structure Orderly (c : StormClient) (before events : List StormEvent) : Prop where
  kept    : before <+: events
  mine    : ∀ e ∈ events, e.clientId = c.clientId
  follows : events.IsChain fun a b => a.outcome = "connected" → b.outcome = "reply_timeout_steady"
  active  : ∀ e ∈ events, e.outcome = "reply_timeout_steady" → Active c

variable {c : StormClient} {s t : State} {turn : Turn} {exchange : Exchange}
  {before events : List StormEvent} {clock : ℕ → ℚ} {draw : ℚ} {outcome : String}

theorem Orderly.record (h : Orderly c before s.events) (tStart tEnd : ℚ)
    (hlast : LastConnected s.events → outcome = "reply_timeout_steady")
    (hactive : outcome = "reply_timeout_steady" → Active c) :
    Orderly c before (c.record s tStart tEnd outcome).events := by
  refine ⟨h.kept.trans (List.prefix_append _ _), ?_, ?_, ?_⟩
  · intro e he
    rcases List.mem_append.mp he with he | he
    · exact h.mine e he
    · rw [List.mem_singleton.mp he]
  · refine List.isChain_append.mpr ⟨h.follows, List.isChain_singleton _, ?_⟩
    intro a ha b hb hout
    -- the new event follows the last one: if that was `connected`, the new one is a steady
    -- timeout
    obtain rfl : b = _ := by simpa using hb.symm
    exact hlast ⟨a, ha, hout⟩
  · intro e he hout
    rcases List.mem_append.mp he with he | he
    · exact h.active e he hout
    · rw [List.mem_singleton.mp he] at hout
      exact hactive hout

theorem not_lastConnected_record (s : State) (tStart tEnd : ℚ) (h : outcome ≠ "connected") :
    ¬ LastConnected (c.record s tStart tEnd outcome).events :=
  not_lastConnected (lastFailed_record s tStart tEnd h)

/-- The events are in order, and the last one is what the point says. -/
structure Tells (c : StormClient) (before : List StormEvent) (s : State) : Prop where
  orderly : Orderly c before s.events
  phase   : Phase c s.events s.point

theorem initial_tells (c : StormClient) : Tells c [] initial := by
  refine ⟨⟨List.prefix_rfl, by simp [initial], List.isChain_nil, by simp [initial]⟩, ?_⟩
  rintro ⟨e, he, -⟩
  simp [initial] at he

/-! ### The parts of a turn -/

theorem loopHead_tells (h : Orderly c before s.events) (hlast : ¬ LastConnected s.events)
    (clock : ℕ → ℚ) : Tells c before (c.loopHead s clock) := by
  rcases loopHead_cases c s clock with heq | ⟨heq, -⟩
  · rw [heq]
    exact ⟨h, hlast⟩
  · rw [heq]
    exact ⟨h, trivial⟩

theorem failedAttempt_tells (h : Orderly c before s.events) (tStart : ℚ) {result : AttemptResult}
    (hout : result.outcome ≠ "connected")
    (hlast : LastConnected s.events → result.outcome = "reply_timeout_steady")
    (hactive : result.outcome = "reply_timeout_steady" → Active c) (clock : ℕ → ℚ) (draw : ℚ) :
    Tells c before (c.failedAttempt s tStart result clock draw) := by
  have horderly := h.record tStart result.resolvedAt hlast hactive
  have hfailed := not_lastConnected_record (c := c) s tStart result.resolvedAt hout
  unfold failedAttempt backOff
  dsimp only
  split
  · exact ⟨horderly, trivial⟩
  · split
    · exact ⟨horderly, hfailed⟩
    · exact loopHead_tells horderly hfailed _

theorem failed_phase (e : ClientError) (clock : ℕ → ℚ) (h : Phase c events (.draining exchange)) :
    Phase c events (failed exchange e clock) := by
  cases exchange with
  | opening tStart left =>
    cases e with
    | net e =>
      cases e with
      | timeout => exact ⟨h, replyTimeout_isFailure⟩
      | refused => exact ⟨h, classifyError_isFailure .refused⟩
      | reset => exact ⟨h, classifyError_isFailure .reset⟩
      | connection => exact ⟨h, classifyError_isFailure .connection⟩
      | os => exact ⟨h, classifyError_isFailure .os⟩
    -- what the parser raises is not an event: the connection is closed and `run` ends
    | parse e => exact h
  | steady holdStart =>
    cases e with
    | net e => exact h
    | parse e => exact h.1

theorem sendOrFail_phase (command : String) (clock : ℕ → ℚ)
    (h : Phase c events (.draining exchange)) :
    Phase c events (sendOrFail exchange command clock) := by
  unfold sendOrFail send
  cases encodeCommand (splitCommand command) with
  | error e => exact failed_phase _ clock h
  | ok bytes => exact h

theorem steadyHead_phase (h : LastConnected events ∧ Active c) (holdStart : ℚ) (clock : ℕ → ℚ) :
    Phase c events (c.steadyHead holdStart clock) := by
  unfold steadyHead
  split
  · exact h
  · exact h.1

theorem holdOpen_phase (h : LastConnected events) (holdStart : ℚ) (clock : ℕ → ℚ) :
    Phase c events (c.holdOpen holdStart clock) := by
  unfold holdOpen
  split
  · split <;> exact h
  · next hinterval =>
    -- the interval is positive in seconds exactly if it is in milliseconds
    have hactive : Active c := by
      by_contra hno
      exact hinterval (div_nonpos_of_nonpos_of_nonneg (not_lt.mp hno) (by decide +kernel))
    exact steadyHead_phase ⟨h, hactive⟩ holdStart clock

theorem answered_tells (h : Orderly c before s.events) (hphase : Phase c s.events (.draining exchange))
    (clock : ℕ → ℚ) : Tells c before (c.answered s exchange clock) := by
  cases exchange with
  | opening tStart left =>
    cases left with
    | nil =>
      exact ⟨h.record tStart (clock 0) (fun hlast => absurd hlast hphase) (fun hout => by simp at hout),
        holdOpen_phase (lastConnected_record s tStart (clock 0)) _ _⟩
    | cons command left => exact ⟨h, sendOrFail_phase command clock hphase⟩
  | steady holdStart => exact ⟨h, steadyHead_phase hphase holdStart clock⟩

theorem received_tells {buf : Bytes} (h : Orderly c before s.events)
    (hphase : Phase c s.events (.draining exchange)) (clock : ℕ → ℚ) :
    Tells c before (c.received s exchange buf clock) := by
  unfold received
  cases ReplyParser.tryParse c.depth buf with
  | error e => exact ⟨h, failed_phase _ clock hphase⟩
  | ok answer =>
    obtain ⟨reply | reply, rest⟩ := answer
    · exact ⟨h, by cases exchange <;> exact hphase⟩
    · exact answered_tells h hphase clock

/-! ### Turns -/

/-- **One turn**: the events stay in order, whatever comes in, and none is taken back. -/
theorem resume_tells (h : Tells c before s) (hstep : Step c s turn t) :
    Tells c before t := by
  obtain ⟨answer, clock, draw⟩ := turn
  obtain ⟨horderly, hphase⟩ := h
  unfold Step resume at hstep
  cases hpoint : s.point with
  | start =>
    rw [hpoint] at hstep hphase
    cases answer <;> cases hstep
    exact loopHead_tells horderly hphase clock
  | connecting tStart =>
    rw [hpoint] at hstep hphase
    cases answer <;> cases hstep
    case done.refl =>
      refine ⟨horderly, ?_⟩
      dsimp only
      unfold connected
      split
      · exact sendOrFail_phase _ clock hphase
      · exact sendOrFail_phase _ clock hphase
    case raised.refl e =>
      -- a connection that is not made is an event of its own, never `connected`
      have hfail := classifyError_isFailure e
      exact failedAttempt_tells horderly tStart hfail.2.1 (fun hlast => absurd hlast hphase)
        (fun hout => absurd hout hfail.2.2) _ _
  | draining exchange =>
    rw [hpoint] at hstep hphase
    cases answer <;> cases hstep
    case done.refl => exact ⟨horderly, by cases exchange <;> exact hphase⟩
    case raised.refl e => exact ⟨horderly, failed_phase _ clock hphase⟩
  | reading exchange buf =>
    rw [hpoint] at hstep hphase
    -- draining and reading are told apart by the exchange, not by the phase
    have hexchange : Phase c s.events (.draining exchange) := by cases exchange <;> exact hphase
    cases answer with
    | done => cases hstep
    | raised e =>
      cases hstep
      exact ⟨horderly, failed_phase _ clock hexchange⟩
    | chunk bytes =>
      cases bytes with
      | nil =>
        -- no bytes: the server has closed the connection
        cases hstep
        exact ⟨horderly, failed_phase _ clock hexchange⟩
      | cons byte bytes =>
        cases hstep
        exact received_tells horderly hexchange clock
  | closing tStart result =>
    rw [hpoint] at hstep hphase
    obtain e | result := result
    · cases answer <;> cases hstep <;> exact ⟨horderly, trivial⟩
    -- whatever closing raises is swallowed, so both answers lead to the failed attempt
    · have hclosed := failedAttempt_tells horderly tStart hphase.2.2.1
        (fun hlast => absurd hlast hphase.1) (fun hout => absurd hout hphase.2.2.2) clock draw
      cases answer <;> cases hstep <;> exact hclosed
  | idle holdStart =>
    rw [hpoint] at hstep hphase
    cases answer <;> cases hstep <;> exact ⟨horderly, hphase⟩
  | pause holdStart =>
    rw [hpoint] at hstep hphase
    cases answer <;> try cases hstep
    dsimp only at hstep
    split at hstep <;> cases hstep
    · exact ⟨horderly, hphase.1⟩
    · exact ⟨horderly, sendOrFail_phase _ _ hphase⟩
  | closingHold holdStart kickedAt =>
    rw [hpoint] at hstep hphase
    obtain e | _ | kicked := kickedAt
    · cases answer <;> cases hstep <;> exact ⟨horderly, trivial⟩
    · cases answer <;> cases hstep <;> exact ⟨horderly, trivial⟩
    -- kicked out: the only event that may follow `connected`
    · have hsteady : "reply_timeout_steady" ≠ "connected" := by decide
      have hclosed : Tells c before
          (c.failedAttempt s holdStart ⟨"reply_timeout_steady", kicked⟩ clock draw) :=
        failedAttempt_tells horderly holdStart hsteady (fun _ => rfl) (fun _ => hphase.2) clock draw
      cases answer <;> cases hstep <;> exact hclosed
  | backoff delay =>
    rw [hpoint] at hstep hphase
    cases answer <;> cases hstep
    exact loopHead_tells horderly hphase clock
  | ended how =>
    rw [hpoint] at hstep
    cases answer <;> cases hstep

/-- What is told holds of the events so far. -/
theorem Tells.since (h : Tells c before s) : Tells c s.events s :=
  ⟨⟨List.prefix_rfl, h.orderly.mine, h.orderly.follows, h.orderly.active⟩, h.phase⟩

/-! ### The last event -/

theorem LastConnected.hasConnected (h : LastConnected events) : HasConnected events := by
  obtain ⟨last, hlast, hout⟩ := h
  exact ⟨last, List.mem_of_getLast? hlast, hout⟩

/-- Of a client that has connected, either the last event tells, or a steady
timeout after which it did not connect. -/
theorem lastConnected_of_follows (hconnected : HasConnected events)
    (h : events.IsChain fun a b => a.outcome = "connected" → b.outcome = "reply_timeout_steady")
    (hkicked : ¬ KickedOut events) : LastConnected events := by
  induction events using List.reverseRecOn with
  | nil =>
    obtain ⟨e, he, -⟩ := hconnected
    simp at he
  | append_singleton front x ih =>
    -- an event that is not `connected` comes after one that is: either that one is the last
    -- before it, and this is a steady timeout with nothing after it, or there was a timeout
    -- before
    by_cases hx : x.outcome = "connected"
    · exact ⟨x, List.getLast?_concat .., hx⟩
    · exfalso
      obtain ⟨e, he, hout⟩ := hconnected
      obtain ⟨hfront, -, hnext⟩ := List.isChain_append.mp h
      rcases List.mem_append.mp he with he | he
      · -- no later event connects, so a timeout without a return stays one
        have hbefore : ¬ KickedOut front := by
          rintro ⟨front', e', later, rfl, hsteady, hlater⟩
          refine hkicked ⟨front', e', later ++ [x], by simp, hsteady, ?_⟩
          intro e'' he''
          rcases List.mem_append.mp he'' with he'' | he''
          · exact hlater e'' he''
          · rwa [List.mem_singleton.mp he'']
        obtain ⟨last, hlast, hlastOut⟩ := ih ⟨e, he, hout⟩ hfront hbefore
        have hsteady := hnext last hlast x rfl hlastOut
        exact hkicked ⟨front, x, [], rfl, hsteady, by simp⟩
      · rw [List.mem_singleton.mp he] at hout
        exact hx hout

end StormClient

/-! ## A herd -/

/-- What the clients of a storm share. -/
structure Herd where
  config   : ClientConfig
  policy   : ReconnectPolicy ℚ
  deadline : ℚ
  depth    : ℕ

def Herd.client (herd : Herd) (id : ℕ) : StormClient :=
  ⟨id, herd.config, herd.policy, herd.deadline, herd.depth⟩

/-- An event loop: its clients by their ids, and the list they append to. -/
structure Loop where
  clients : ℕ → StormClient.State
  events  : List StormEvent

namespace Loop

def initial : Loop := ⟨fun _ => StormClient.initial, []⟩

/-- One client of the loop takes a turn. -/
def Step (herd : Herd) (ids : List ℕ) (l : Loop) (label : ℕ × StormClient.Turn) (l' : Loop) : Prop :=
  label.1 ∈ ids ∧ ∃ t, StormClient.Step (herd.client label.1) (l.clients label.1) label.2 t ∧
    l' = ⟨Function.update l.clients label.1 t,
      l.events ++ t.events.drop (l.clients label.1).events.length⟩

/-- The list holds the events of each client, in their order, and no others. -/
structure Kept (herd : Herd) (ids : List ℕ) (l : Loop) : Prop where
  ours  : ∀ e ∈ l.events, e.clientId ∈ ids
  each  : ∀ id ∈ ids, clientEvents l.events id = (l.clients id).events
  tells : ∀ id ∈ ids, StormClient.Tells (herd.client id) (l.clients id).events (l.clients id)

variable {herd : Herd} {ids : List ℕ} {l l' : Loop} {label : ℕ × StormClient.Turn}

theorem initial_kept (herd : Herd) (ids : List ℕ) : Kept herd ids initial where
  ours := by simp [initial]
  each _ _ := rfl
  tells id _ := StormClient.initial_tells (herd.client id)

theorem clientEvents_append (events events' : List StormEvent) (id : ℕ) :
    clientEvents (events ++ events') id = clientEvents events id ++ clientEvents events' id :=
  List.filter_append ..

theorem clientEvents_own {events : List StormEvent} {id : ℕ}
    (h : ∀ e ∈ events, e.clientId = id) : clientEvents events id = events :=
  List.filter_eq_self.mpr fun e he => decide_eq_true (h e he)

theorem clientEvents_other {events : List StormEvent} {id : ℕ}
    (h : ∀ e ∈ events, e.clientId ≠ id) : clientEvents events id = [] :=
  List.filter_eq_nil_iff.mpr fun e he => by simpa using h e he

theorem step_kept (h : Kept herd ids l) (hstep : Step herd ids l label l') :
    Kept herd ids l' := by
  obtain ⟨id, turn⟩ := label
  obtain ⟨hmem, t, hturn, rfl⟩ := hstep
  dsimp only at hmem hturn ⊢
  -- the turn appends events of this client alone
  have htold := StormClient.resume_tells (h.tells id hmem) hturn
  obtain ⟨new, hnew⟩ := htold.orderly.kept
  have hdrop : t.events.drop (l.clients id).events.length = new := by
    rw [← hnew, List.drop_left]
  have hmine : ∀ e ∈ new, e.clientId = id := fun e he =>
    htold.orderly.mine e (hnew ▸ List.mem_append_right _ he)
  rw [hdrop]
  refine ⟨?_, ?_, ?_⟩
  · intro e he
    rcases List.mem_append.mp he with he | he
    · exact h.ours e he
    · exact hmine e he ▸ hmem
  · intro other hother
    dsimp only
    rw [clientEvents_append, h.each other hother]
    by_cases hsame : other = id
    · subst hsame
      rw [Function.update_self, clientEvents_own hmine, hnew]
    · rw [Function.update_of_ne hsame, clientEvents_other fun e he => hmine e he ▸ Ne.symm hsame,
        List.append_nil]
  · intro other hother
    dsimp only
    by_cases hsame : other = id
    · subst hsame
      rw [Function.update_self]
      exact htold.since
    · rw [Function.update_of_ne hsame]
      exact h.tells other hother

/-- **Every run** of an event loop. -/
theorem run_kept {labels : List (ℕ × StormClient.Turn)}
    (hrun : Run (Step herd ids) initial labels l) : Kept herd ids l :=
  hrun.invariant (Kept herd ids) (initial_kept herd ids) fun _ _ _ hstep h => step_kept h hstep

/-- What one client does alone, it does as a client of the loop. -/
theorem run_of_client {id : ℕ} {turns : List StormClient.Turn} {s : StormClient.State}
    (hid : id ∈ ids) (hrun : Run (StormClient.Step (herd.client id)) StormClient.initial turns s) :
    ∃ l, Run (Step herd ids) initial (turns.map fun turn => (id, turn)) l ∧ l.clients id = s ∧
      l.events = s.events := by
  induction hrun with
  | refl => exact ⟨initial, .refl _, rfl, rfl⟩
  | snoc hrun hstep ih =>
    obtain ⟨l, hloop, rfl, hevents⟩ := ih
    have htold := StormClient.resume_tells ((run_kept hloop).tells id hid) hstep
    obtain ⟨new, hnew⟩ := htold.orderly.kept
    rw [List.map_append, List.map_singleton]
    refine ⟨_, .snoc hloop ⟨hid, _, hstep, rfl⟩, Function.update_self .., ?_⟩
    dsimp only
    rw [hevents, ← hnew, List.drop_left]

end Loop

/-! ## A storm -/

/-- Each slice of the clients is run, in an event loop of its own. -/
def StormRun (config : HostedConfig) (herd : Herd) (loops : Slice → Loop) : Prop :=
  ∀ slice ∈ config.slices, ∃ labels,
    Run (Loop.Step herd slice.ids) Loop.initial labels (loops slice)

/-- The events of all slices. -/
def stormEvents (config : HostedConfig) (loops : Slice → Loop) : List StormEvent :=
  config.slices.flatMap fun slice => (loops slice).events

/-- A client's events are those of its slice. -/
theorem clientEvents_flatMap {slices : List Slice} {events : Slice → List StormEvent}
    {slice : Slice} {id : ℕ} (hnodup : (slices.flatMap Slice.ids).Nodup)
    (hours : ∀ s ∈ slices, ∀ e ∈ events s, e.clientId ∈ s.ids) (hslice : slice ∈ slices)
    (hid : id ∈ slice.ids) :
    clientEvents (slices.flatMap events) id = clientEvents (events slice) id := by
  induction slices with
  | nil => exact absurd hslice List.not_mem_nil
  | cons s slices ih =>
    rw [List.flatMap_cons] at hnodup
    obtain ⟨-, hrest, hdisjoint⟩ := List.nodup_append'.mp hnodup
    have hours' : ∀ s' ∈ slices, ∀ e ∈ events s', e.clientId ∈ s'.ids :=
      fun s' hs' => hours s' (List.mem_cons_of_mem s hs')
    rw [List.flatMap_cons, Loop.clientEvents_append]
    -- the slices share no client, so every other slice adds nothing of this one
    rcases List.mem_cons.mp hslice with rfl | hslice
    · have hothers : clientEvents (slices.flatMap events) id = [] := by
        refine Loop.clientEvents_other fun e he heq => ?_
        obtain ⟨s', hs', he⟩ := List.mem_flatMap.mp he
        exact hdisjoint hid (List.mem_flatMap.mpr ⟨s', hs', heq ▸ hours' s' hs' e he⟩)
      rw [hothers, List.append_nil]
    · have hfirst : clientEvents (events s) id = [] := by
        refine Loop.clientEvents_other fun e he heq => ?_
        have hmem : id ∈ s.ids := heq ▸ hours s List.mem_cons_self e he
        exact hdisjoint hmem (List.mem_flatMap.mpr ⟨slice, hslice, hid⟩)
      rw [hfirst, List.nil_append]
      exact ih hrest hours' hslice

/-- What a storm's events are like. -/
structure StormTells (herd : Herd) (clients : ℕ) (events : List StormEvent) : Prop where
  ours    : ∀ e ∈ events, e.clientId < clients
  orderly : ∀ id < clients, ∃ before,
    StormClient.Orderly (herd.client id) before (clientEvents events id)

/-- **Every run** of a storm. -/
theorem stormRun_tells {config : HostedConfig} {herd : Herd} {loops : Slice → Loop}
    (hrun : StormRun config herd loops) :
    StormTells herd config.clientCount (stormEvents config loops) := by
  have hkept : ∀ slice ∈ config.slices, Loop.Kept herd slice.ids (loops slice) := by
    intro slice hslice
    obtain ⟨labels, hlabels⟩ := hrun slice hslice
    exact Loop.run_kept hlabels
  have hids := config.slices_ids
  constructor
  case ours =>
    intro e he
    obtain ⟨slice, hslice, he⟩ := List.mem_flatMap.mp he
    have hmem : e.clientId ∈ config.slices.flatMap Slice.ids :=
      List.mem_flatMap.mpr ⟨slice, hslice, (hkept slice hslice).ours e he⟩
    rw [hids] at hmem
    exact List.mem_range.mp hmem
  case orderly =>
    intro id hid
    have hmem : id ∈ config.slices.flatMap Slice.ids := hids ▸ List.mem_range.mpr hid
    obtain ⟨slice, hslice, hin⟩ := List.mem_flatMap.mp hmem
    have hevents : clientEvents (stormEvents config loops) id = ((loops slice).clients id).events := by
      rw [stormEvents, clientEvents_flatMap (hids ▸ List.nodup_range)
        (fun s hs => (hkept s hs).ours) hslice hin]
      exact (hkept slice hslice).each id hin
    exact ⟨_, hevents ▸ ((hkept slice hslice).tells id hin).orderly⟩

/-! ## What the metric reports -/

/-- Every client's last event is `connected`. -/
def AllConnected (clients : ℕ) (events : List StormEvent) : Prop :=
  ∀ id < clients, StormClient.LastConnected (clientEvents events id)

/-- The values of `time_to_quiescence` are there exactly if every client is
connected last. -/
structure Agrees (clients : ℕ) (events : List StormEvent) (stormStart : ℚ)
    (stallEnd : Option ℚ) : Prop where
  fromStart : (timeToQuiescence events clients stormStart stallEnd).fromStart.isSome ↔
    AllConnected clients events
  fromStallEnd : stallEnd.isSome →
    ((timeToQuiescence events clients stormStart stallEnd).fromStallEnd.isSome ↔
      AllConnected clients events)
  kickedOut : (∃ id < clients, KickedOut (clientEvents events id)) →
    timeToQuiescence events clients stormStart stallEnd = ⟨none, none⟩

theorem mem_connectedIds {events : List StormEvent} {id : ℕ} :
    id ∈ connectedIds events ↔ HasConnected (clientEvents events id) := by
  simp only [connectedIds, List.mem_toFinset, List.mem_map, List.mem_filter, decide_eq_true_eq,
    HasConnected, clientEvents]
  constructor
  · rintro ⟨e, ⟨he, hout⟩, hid⟩
    exact ⟨e, ⟨he, hid⟩, hout⟩
  · rintro ⟨e, ⟨he, hid⟩, hout⟩
    exact ⟨e, ⟨he, hout⟩, hid⟩

/-- As many clients have connected as there are, if each has. -/
theorem reached_iff {clients : ℕ} {events : List StormEvent} (h : ∀ e ∈ events, e.clientId < clients) :
    clients ≤ (connectedIds events).card ↔
      ∀ id < clients, HasConnected (clientEvents events id) := by
  have hsubset : connectedIds events ⊆ Finset.range clients := by
    intro id hid
    obtain ⟨e, he, -⟩ := mem_connectedIds.mp hid
    obtain ⟨he, hsame⟩ := List.mem_filter.mp he
    exact Finset.mem_range.mpr (of_decide_eq_true hsame ▸ h e he)
  constructor
  · intro hcard id hid
    -- as many ids as there are below the bound are all of them
    have hall : connectedIds events = Finset.range clients :=
      Finset.eq_of_subset_of_card_le hsubset (by rwa [Finset.card_range])
    exact mem_connectedIds.mp (hall ▸ Finset.mem_range.mpr hid)
  · intro hall
    have hrange : Finset.range clients ⊆ connectedIds events := fun id hid =>
      mem_connectedIds.mpr (hall id (Finset.mem_range.mp hid))
    simpa using Finset.card_le_card hrange

/-- What the metric reports: whether each client has ever connected. -/
theorem timeToQuiescence_spec {clients : ℕ} {events : List StormEvent} (hpos : 0 < clients)
    (h : ∀ e ∈ events, e.clientId < clients) (stormStart : ℚ) (stallEnd : Option ℚ) :
    (∀ id < clients, HasConnected (clientEvents events id)) ∧
        (timeToQuiescence events clients stormStart stallEnd).fromStart.isSome ∧
        (stallEnd.isSome →
          (timeToQuiescence events clients stormStart stallEnd).fromStallEnd.isSome) ∨
      ¬ (∀ id < clients, HasConnected (clientEvents events id)) ∧
        timeToQuiescence events clients stormStart stallEnd = ⟨none, none⟩ := by
  rw [← reached_iff h]
  unfold timeToQuiescence
  by_cases hreached : clients ≤ (connectedIds events).card
  · left
    obtain ⟨e, he, -⟩ := (reached_iff h).mp hreached 0 hpos
    -- somebody has connected, so there is a last time
    obtain ⟨last, hlast⟩ : ∃ last, (events.map StormEvent.tEnd).max? = some last := by
      refine Option.ne_none_iff_exists'.mp fun hnone => ?_
      rw [List.max?_eq_none_iff, List.map_eq_nil_iff] at hnone
      rw [hnone] at he
      simp [clientEvents] at he
    rw [hlast]
    dsimp only
    rw [if_pos ⟨hpos, hreached⟩]
    exact ⟨hreached, rfl, fun hstall => by simpa using hstall⟩
  · right
    refine ⟨hreached, ?_⟩
    cases (events.map StormEvent.tEnd).max? with
    | none => rfl
    | some last => exact if_neg fun hboth => hreached hboth.2

/-- The metric agrees with the last events, unless all clients have connected and
one was kicked out for good. -/
theorem agrees_iff {herd : Herd} {clients : ℕ} {events : List StormEvent} (hpos : 0 < clients)
    (h : StormTells herd clients events) (stormStart : ℚ) (stallEnd : Option ℚ) :
    Agrees clients events stormStart stallEnd ↔
      (∃ id < clients, ¬ HasConnected (clientEvents events id)) ∨
        ∀ id < clients, ¬ KickedOut (clientEvents events id) := by
  have hspec := timeToQuiescence_spec hpos h.ours stormStart stallEnd
  have hlast : ∀ id < clients, HasConnected (clientEvents events id) →
      ¬ KickedOut (clientEvents events id) →
      StormClient.LastConnected (clientEvents events id) := by
    intro id hid hconnected hkicked
    obtain ⟨before, horderly⟩ := h.orderly id hid
    exact StormClient.lastConnected_of_follows hconnected horderly.follows hkicked
  constructor
  · intro hagrees
    by_contra hno
    push Not at hno
    obtain ⟨hall, hkicked⟩ := hno
    obtain ⟨-, hsome, -⟩ | ⟨hnot, -⟩ := hspec
    -- a value is reported although a client is out for good
    · rw [hagrees.kickedOut hkicked] at hsome
      simp at hsome
    · exact hnot hall
  · intro hcond
    obtain ⟨hall, hstart, hstall⟩ | ⟨hnot, hnone⟩ := hspec
    · have hkicked : ∀ id < clients, ¬ KickedOut (clientEvents events id) := by
        rcases hcond with ⟨id, hid, hnever⟩ | hkicked
        · exact absurd (hall id hid) hnever
        · exact hkicked
      have hconnected : AllConnected clients events :=
        fun id hid => hlast id hid (hall id hid) (hkicked id hid)
      refine ⟨iff_of_true hstart hconnected, fun hs => iff_of_true (hstall hs) hconnected, ?_⟩
      rintro ⟨id, hid, hout⟩
      exact absurd hout (hkicked id hid)
    -- a client that never connected: nothing is reported, and nothing is to be
    · have hnotConnected : ¬ AllConnected clients events := fun hconnected =>
        hnot fun id hid => (hconnected id hid).hasConnected
      refine ⟨?_, fun _ => ?_, fun _ => hnone⟩
      · rw [hnone]
        exact iff_of_false (by simp) hnotConnected
      · rw [hnone]
        exact iff_of_false (by simp) hnotConnected

/-- **When quiescence is reported rightly**: in every run of a storm, unless all
clients have connected and one of them, kicked out later, has not come back. -/
theorem quiet_iff {config : HostedConfig} {herd : Herd} {loops : Slice → Loop}
    (hclients : 0 < config.clientCount) (hrun : StormRun config herd loops) (stormStart : ℚ)
    (stallEnd : Option ℚ) :
    Agrees config.clientCount (stormEvents config loops) stormStart stallEnd ↔
      (∃ id < config.clientCount, ¬ HasConnected (clientEvents (stormEvents config loops) id)) ∨
        ∀ id < config.clientCount, ¬ KickedOut (clientEvents (stormEvents config loops) id) :=
  agrees_iff hclients (stormRun_tells hrun) stormStart stallEnd

/-- An idle herd is reported rightly in every run. -/
theorem idle_agrees {config : HostedConfig} {herd : Herd} {loops : Slice → Loop}
    (hidle : herd.config.herdCommandIntervalMs ≤ 0) (hclients : 0 < config.clientCount)
    (hrun : StormRun config herd loops) (stormStart : ℚ) (stallEnd : Option ℚ) :
    Agrees config.clientCount (stormEvents config loops) stormStart stallEnd := by
  have htells := stormRun_tells hrun
  refine (agrees_iff hclients htells stormStart stallEnd).mpr (.inr fun id hid => ?_)
  rintro ⟨front, e, later, hevents, hsteady, -⟩
  obtain ⟨before, horderly⟩ := htells.orderly id hid
  have hactive := horderly.active e (by rw [hevents]; simp) hsteady
  exact absurd hactive (not_lt.mpr hidle)

/-! ## A client that does not come back -/

/-- One client that sends `PING` every 100 ms, for a second. -/
def pingHerd : Herd where
  config := ⟨[], "PING", 100⟩
  policy := .fixed 100
  deadline := 1
  depth := 100

def oneClient : HostedConfig where
  host                  := "10.0.0.1"
  port                  := 6379
  clients               := 1
  burstMs               := 0
  durationS             := .finite 1
  connectTimeoutMs      := .finite 1000
  replyTimeoutMs        := .finite 1000
  policySpec            := "fixed:100"
  handshake             := []
  firstCommand          := "PING"
  workers               := 1
  herdCommandIntervalMs := .finite 100
  cpuCount              := none

/-- It connects at once, its next command times out, and the time is up. -/
def kickedEvents : List StormEvent :=
  [⟨0, 0, 0, 0, "connected"⟩, ⟨0, 1, 0, 2, "reply_timeout_steady"⟩]

/-- Its turns, with what the clock reads. -/
def kickedTurns : List StormClient.Turn :=
  [⟨.done, fun _ => 0, 0⟩, ⟨.done, fun _ => 0, 0⟩, ⟨.done, fun _ => 0, 0⟩,
    ⟨.chunk [43, 80, 13, 10], fun _ => 0, 0⟩, ⟨.done, fun _ => 0, 0⟩, ⟨.done, fun _ => 0, 0⟩,
    ⟨.raised .timeout, fun _ => 2, 0⟩, ⟨.done, fun _ => 2, 0⟩]

open StormClient in
theorem kicked_run : Run (StormClient.Step (pingHerd.client 0)) StormClient.initial kickedTurns
    ⟨.ended (.late 2), 2, kickedEvents, 0, 1⟩ := by
  have hwords : splitCommand "PING" ≠ [] := by decide +kernel
  have hstart : StormClient.Step (pingHerd.client 0) StormClient.initial ⟨.done, fun _ => 0, 0⟩
      ⟨.connecting 0, 0, [], 0, 1⟩ := rfl
  have hconnect : StormClient.Step (pingHerd.client 0) ⟨.connecting 0, 0, [], 0, 1⟩
      ⟨.done, fun _ => 0, 0⟩ ⟨.draining (.opening 0 []), 0, [], 0, 1⟩ :=
    congrArg (fun p => some (State.mk p 0 [] 0 1)) (sendOrFail_wordy hwords (.opening 0 []) fun _ => 0)
  have hdrain : StormClient.Step (pingHerd.client 0) ⟨.draining (.opening 0 []), 0, [], 0, 1⟩
      ⟨.done, fun _ => 0, 0⟩ ⟨.reading (.opening 0 []) [], 0, [], 0, 1⟩ := rfl
  have hreply : StormClient.Step (pingHerd.client 0) ⟨.reading (.opening 0 []) [], 0, [], 0, 1⟩
      ⟨.chunk [43, 80, 13, 10], fun _ => 0, 0⟩ ⟨.pause 0, 1, [⟨0, 0, 0, 0, "connected"⟩], 0, 1⟩ := by
    have hparse : ReplyParser.tryParse 100 [43, 80, 13, 10] = .ok (some (.text "P"), []) := rfl
    have hhold : (pingHerd.client 0).holdOpen 0 (fun _ => 0) = .pause 0 := by
      rw [holdOpen, if_neg (by decide +kernel), steadyHead, if_pos (by decide +kernel)]
    show some ((pingHerd.client 0).received _ (.opening 0 []) [43, 80, 13, 10] fun _ => 0) = _
    rw [received]
    dsimp only [pingHerd, Herd.client]
    rw [hparse]
    exact congrArg (fun p => some (State.mk p 1 [⟨0, 0, 0, 0, "connected"⟩] 0 1)) hhold
  have hsend : StormClient.Step (pingHerd.client 0)
      ⟨.pause 0, 1, [⟨0, 0, 0, 0, "connected"⟩], 0, 1⟩ ⟨.done, fun _ => 0, 0⟩
      ⟨.draining (.steady 0), 1, [⟨0, 0, 0, 0, "connected"⟩], 0, 1⟩ :=
    congrArg (fun p => some (State.mk p 1 [⟨0, 0, 0, 0, "connected"⟩] 0 1))
      (sendOrFail_wordy hwords (.steady 0) fun _ => 0)
  have hdrained : StormClient.Step (pingHerd.client 0)
      ⟨.draining (.steady 0), 1, [⟨0, 0, 0, 0, "connected"⟩], 0, 1⟩ ⟨.done, fun _ => 0, 0⟩
      ⟨.reading (.steady 0) [], 1, [⟨0, 0, 0, 0, "connected"⟩], 0, 1⟩ := rfl
  have htimeout : StormClient.Step (pingHerd.client 0)
      ⟨.reading (.steady 0) [], 1, [⟨0, 0, 0, 0, "connected"⟩], 0, 1⟩
      ⟨.raised .timeout, fun _ => 2, 0⟩
      ⟨.closingHold 0 (.ok (some 2)), 1, [⟨0, 0, 0, 0, "connected"⟩], 0, 1⟩ := rfl
  have hlate : StormClient.Step (pingHerd.client 0)
      ⟨.closingHold 0 (.ok (some 2)), 1, [⟨0, 0, 0, 0, "connected"⟩], 0, 1⟩
      ⟨.done, fun _ => 2, 0⟩ ⟨.ended (.late 2), 2, kickedEvents, 0, 1⟩ := by
    unfold StormClient.Step resume closedHold failedAttempt backOff
    dsimp only
    rw [if_pos (by decide +kernel)]
    rfl
  exact .snoc (.snoc (.snoc (.snoc (.snoc (.snoc (.snoc (.single hstart) hconnect) hdrain) hreply)
    hsend) hdrained) htimeout) hlate

/-- The storm of that client. -/
theorem kicked_storm : ∃ loops, StormRun oneClient pingHerd loops ∧
    stormEvents oneClient loops = kickedEvents := by
  obtain ⟨l, hrun, -, hevents⟩ := Loop.run_of_client (List.mem_singleton_self 0) kicked_run
  have hslices : oneClient.slices = [⟨0, 1⟩] := rfl
  refine ⟨fun _ => l, ?_, ?_⟩
  · intro slice hslice
    rw [hslices, List.mem_singleton] at hslice
    subst hslice
    exact ⟨_, hrun⟩
  · rw [stormEvents, hslices, List.flatMap_singleton, hevents]

/-- Its quiescence is reported: two seconds from the start. -/
theorem kicked_reported : ∃ loops, StormRun oneClient pingHerd loops ∧
    timeToQuiescence (stormEvents oneClient loops) 1 0 none = ⟨some 2, none⟩ ∧
    KickedOut (clientEvents (stormEvents oneClient loops) 0) ∧
    ¬ Agrees 1 (stormEvents oneClient loops) 0 none := by
  obtain ⟨loops, hrun, hevents⟩ := kicked_storm
  have hreported : timeToQuiescence kickedEvents 1 0 none = ⟨some 2, none⟩ := by decide +kernel
  have hkicked : KickedOut (clientEvents kickedEvents 0) :=
    ⟨[⟨0, 0, 0, 0, "connected"⟩], ⟨0, 1, 0, 2, "reply_timeout_steady"⟩, [], rfl, rfl, by simp⟩
  refine ⟨loops, hrun, ?_⟩
  rw [hevents]
  refine ⟨hreported, hkicked, fun hagrees => ?_⟩
  have hnone := hagrees.kickedOut ⟨0, Nat.one_pos, hkicked⟩
  rw [hreported] at hnone
  simp at hnone

/-- The rule on the run of that client: both sides fail. -/
theorem quiet_iff_kicked : ∃ loops, StormRun oneClient pingHerd loops ∧
    (Agrees oneClient.clientCount (stormEvents oneClient loops) 0 none ↔
      (∃ id < oneClient.clientCount, ¬ HasConnected (clientEvents (stormEvents oneClient loops) id)) ∨
        ∀ id < oneClient.clientCount, ¬ KickedOut (clientEvents (stormEvents oneClient loops) id)) := by
  obtain ⟨loops, hrun, -⟩ := kicked_storm
  have hone : 0 < oneClient.clientCount := Nat.one_pos
  exact ⟨loops, hrun, quiet_iff hone hrun 0 none⟩

end Conductress.Stormgen
