import Mathlib.Algebra.BigOperators.Group.List.Lemmas
import Mathlib.Data.List.Perm.Basic
import Conductress.Stormgen.ProbeRecovery
import Conductress.Stormgen.StormClient

/-!
# The probe

`_ProbeClient`: a loop that schedules a slot whenever its time has come, and a request in the
background for each slot that finds no other in flight. What an awaited operation comes to is
the server's choice, and the readings of the clock are nobody's.

A request that ends by an exception of the parser or of `open_connection`, or is cancelled because
the last wait of the client is over, leaves its slot without a sample. What `open_connection` raises
for an address is not this program's: it is a parameter (`Refuses`).

* `advance_cases` — what one turn of a request may do;
* `resume_inv` — a turn of a client: a slot has its sample, or its request is in flight or lost;
* `resume_intact` — nothing is lost while replies can be parsed and the last one comes in time;
* `bucketize_sent`, `timeline_accounts` — the buckets of a probe.
-/

namespace Conductress.Stormgen

open Lib

structure ProbeConfig where
  host         : String
  port         : ℤ
  clients      : ℤ
  rate         : ℤ
  handshake    : List String
  firstCommand : String
  bucketMs     : ℤ
  /-- The room on the interpreter's stack. -/
  depth        : ℕ

/-- `per_client_interval`. -/
def ProbeConfig.perClientInterval (config : ProbeConfig) : ℚ :=
  if config.rate ≤ 0 ∨ config.clients ≤ 0 then 0 else config.clients / config.rate

/-- What `asyncio.open_connection` may raise for a host and a port beside the errors of the network:
an `OverflowError` for a port that is none, a `UnicodeError` for a host that cannot be encoded. -/
abbrev Refuses := String → ℤ → PyError → Prop

namespace ProbeClient

/-! ## A request -/

/-- Whose `_roundtrip` is under way: that of a command of the handshake, with those that follow,
or that of the first command, with its start. -/
inductive Exchange where
  | handshake (left : List String)
  | command (start : ℚ)

/-- What a request awaits, or how it ended. -/
inductive Point where
  | created
  | connecting
  | draining (exchange : Exchange)
  | reading (exchange : Exchange)
  | recorded
  | raised (error : ParseError)
  | cancelled

/-- `done()`. -/
def Point.done : Point → Bool
  | .recorded | .raised _ | .cancelled => true
  | _ => false

/-- It ended with a sample. -/
def Point.isRecorded : Point → Bool
  | .recorded => true
  | _ => false

structure Request where
  tSend : ℚ
  point : Point

/-- `_writer`, which may be `None`, and the buffer of `_parser`. -/
structure Link where
  writer : Bool
  buf    : Bytes

/-- What a turn of a request leaves behind: the connection, where the request is now, and the
samples it has appended. -/
structure Progress where
  link    : Link
  point   : Point
  samples : List ProbeSample

section

variable (config : ProbeConfig)

/-- The sample of a request that was not served; the connection is closed. -/
def failed (tSend : ℚ) (link : Link) : Progress :=
  ⟨{ link with writer := false }, .recorded, [⟨tSend, none, false, false⟩]⟩

/-- `_roundtrip`, up to its first `await`. -/
def send (link : Link) (exchange : Exchange) (command : String) : Progress :=
  match encodeCommand (splitCommand command) with
  | .error e => ⟨link, .raised (.py e), []⟩
  | .ok _ => ⟨link, .draining exchange, []⟩

/-- A reply is there. -/
def answered (tSend : ℚ) (link : Link) (exchange : Exchange) (clock : ℕ → ℚ) : Progress :=
  match exchange with
  | .handshake [] => send link (.command (clock 0)) config.firstCommand
  | .handshake (command :: left) => send link (.handshake left) command
  | .command start => ⟨link, .recorded, [⟨tSend, some ((clock 0 - start) * 1000), true, false⟩]⟩

/-- The parser looks at its buffer. -/
def parse (tSend : ℚ) (link : Link) (exchange : Exchange) (clock : ℕ → ℚ) : Progress :=
  match ReplyParser.tryParse config.depth link.buf with
  | .error e => ⟨link, .raised e, []⟩
  | .ok (none, _) => ⟨link, .reading exchange, []⟩
  | .ok (some _, buf) => answered config tSend { link with buf := buf } exchange clock

/-- What follows the connection, which has a parser of its own. -/
def connected (clock : ℕ → ℚ) : Progress :=
  match config.handshake with
  | [] => send ⟨true, []⟩ (.command (clock 0)) config.firstCommand
  | command :: left => send ⟨true, []⟩ (.handshake left) command

/-- `_one_request`, from one `await` to the next. -/
def advance (tSend : ℚ) (link : Link) (point : Point) (answer : StormClient.Answer)
    (clock : ℕ → ℚ) : Option Progress :=
  match point, answer with
  | .created, .done =>
    if link.writer then some (send link (.command (clock 0)) config.firstCommand)
    else some ⟨link, .connecting, []⟩
  | .connecting, .done => some (connected config clock)
  | .connecting, .raised _ => some (failed tSend link)
  | .draining exchange, .done => some (parse config tSend link exchange clock)
  | .draining _, .raised _ => some (failed tSend link)
  | .reading _, .raised _ => some (failed tSend link)
  | .reading _, .chunk [] => some (failed tSend link)
  | .reading exchange, .chunk bytes =>
    some (parse config tSend { link with buf := link.buf ++ bytes } exchange clock)
  | _, _ => none

end

/-- `open_connection` raises what `_connect` does not name. -/
def refused (link : Link) (point : Point) (e : PyError) : Option Progress :=
  match point with
  | .connecting => some ⟨link, .raised (.py e), []⟩
  | _ => none

/-! ## A client -/

/-- What `run` awaits. -/
inductive Pace where
  | starting
  | staggered (seconds : ℚ)
  | sleeping (seconds : ℚ)
  /-- The last request is waited for. -/
  | settling
  | ended (raised : Option ParseError)

structure State where
  pace     : Pace
  nextSend : ℚ
  /-- The tasks, the one that `inflight` refers to first. -/
  requests : List Request
  link     : Link
  /-- The slots that were scheduled, and the samples of this client. -/
  slots    : List ℚ
  recorded : List ProbeSample

def State.initial : State := ⟨.starting, 0, [], ⟨false, []⟩, [], []⟩

/-- `inflight is not None and not inflight.done()`. -/
def State.busy (s : State) : Bool := s.requests.head?.any fun r => !r.point.done

/-- The end of `run`. -/
def State.closeDown (s : State) : State :=
  { s with pace := .ended none, link := { s.link with writer := false } }

section

variable (config : ProbeConfig) (deadline : ℚ)

/-- The time of a slot has come. -/
def slot (s : State) : State :=
  let tSend := s.nextSend
  let s := { s with nextSend := tSend + config.perClientInterval, slots := s.slots ++ [tSend] }
  -- a slot whose time comes while a request is in flight is skipped
  if s.busy then { s with recorded := s.recorded ++ [⟨tSend, none, false, true⟩] }
  else { s with requests := ⟨tSend, .created⟩ :: s.requests }

/-- What a turn of the `k`-th request leaves. -/
def State.progressed (s : State) (k : ℕ) (r : Request) (p : Progress) : State :=
  { s with
    requests := s.requests.set k { r with point := p.point }
    link := p.link
    recorded := s.recorded ++ p.samples }

/-- The loop of `run`, up to its next `await`: the clock is read for the condition and then for
`now`. -/
def paceLoop : List (ℚ × ℚ) → State → Option State
  | [], _ => none
  | (condition, now) :: readings, s =>
    -- the deadline has passed, and a request in flight is waited for
    if ¬ condition < deadline then
      if s.busy then some { s with pace := .settling } else some s.closeDown
    else if now < s.nextSend then
      some { s with pace := .sleeping (min (s.nextSend - now) (max 0 (deadline - now))) }
    else paceLoop readings (slot config s)

/-- A turn of a client: of its loop, of one of its requests, or the end of its last wait. -/
inductive Turn where
  | run (opening : ℚ × ℚ) (readings : List (ℚ × ℚ))
  | request (k : ℕ) (answer : StormClient.Answer) (clock : ℕ → ℚ)
  | refused (k : ℕ) (e : PyError)
  | settled
  | timedOut

/-- From where a client waits to the next such point. -/
def resume (offset : ℚ) (s : State) : Turn → Option State
  | .run opening readings =>
    match s.pace with
    | .starting =>
      -- the clients begin one after the other
      if 0 < offset - opening.1 then some { s with pace := .staggered (offset - opening.1) }
      else paceLoop config deadline readings { s with nextSend := opening.2 }
    | .staggered _ => paceLoop config deadline readings { s with nextSend := opening.2 }
    | .sleeping _ => paceLoop config deadline readings s
    | _ => none
  | .request k answer clock => do
    let r ← s.requests[k]?
    let p ← advance config r.tSend s.link r.point answer clock
    return s.progressed k r p
  | .refused k e => do
    let r ← s.requests[k]?
    let p ← refused s.link r.point e
    return s.progressed k r p
  | .settled =>
    match s.pace, s.requests with
    -- `wait_for` raises what the task did
    | .settling, ⟨_, .raised e⟩ :: _ => some { s with pace := .ended (some e) }
    | .settling, _ => if s.busy then none else some s.closeDown
    | _, _ => none
  | .timedOut =>
    match s.pace, s.requests with
    | .settling, r :: rest =>
      -- `wait_for` cancels what it has waited for
      if r.point.done then none
      else some { s with requests := { r with point := .cancelled } :: rest }.closeDown
    | _, _ => none

end

/-! ## One turn of a request -/

variable {config : ProbeConfig} {deadline offset tSend : ℚ} {link : Link} {point : Point}
  {answer : StormClient.Answer} {clock : ℕ → ℚ} {exchange : Exchange} {p : Progress} {s t : State}
  {turn : Turn} {command : String}

/-- What a turn leaves: a request that goes on, one with its sample, or one that raised. -/
inductive Leaves (tSend : ℚ) : Progress → Prop
  | live (link : Link) (point : Point) : point.done = false → Leaves tSend ⟨link, point, []⟩
  | recorded (link : Link) (x : ProbeSample) : x.tSend = tSend → ¬ (x.served ∧ x.skipped) →
      Leaves tSend ⟨link, .recorded, [x]⟩
  | raised (link : Link) (e : ParseError) : Leaves tSend ⟨link, .raised e, []⟩

theorem failed_leaves (tSend : ℚ) (link : Link) : Leaves tSend (failed tSend link) :=
  .recorded _ _ rfl (by simp)

theorem send_leaves (link : Link) (exchange : Exchange) (command : String) :
    Leaves tSend (send link exchange command) := by
  unfold send
  split
  · exact .raised _ _
  · exact .live _ _ rfl

theorem answered_leaves : Leaves tSend (answered config tSend link exchange clock) := by
  unfold answered
  split
  · exact send_leaves _ _ _
  · exact send_leaves _ _ _
  · exact .recorded _ _ rfl (by simp)

theorem parse_leaves : Leaves tSend (parse config tSend link exchange clock) := by
  unfold parse
  split
  · exact .raised _ _
  · exact .live _ _ rfl
  · exact answered_leaves

theorem connected_leaves : Leaves tSend (connected config clock) := by
  unfold connected
  split <;> exact send_leaves _ _ _

/-- **A turn of a request** that was in flight. -/
theorem advance_cases (h : advance config tSend link point answer clock = some p) :
    point.done = false ∧ Leaves tSend p := by
  cases point with
  -- a request that was just created has a connection already, or opens one
  | created =>
    cases answer with
    | done =>
      refine ⟨rfl, ?_⟩
      simp only [advance] at h
      split at h <;> cases h
      · exact send_leaves _ _ _
      · exact .live _ _ rfl
    | raised e => cases h
    | chunk bytes => cases h
  | connecting =>
    cases answer <;> cases h
    · exact ⟨rfl, connected_leaves⟩
    · exact ⟨rfl, failed_leaves _ _⟩
  | draining exchange =>
    cases answer <;> cases h
    · exact ⟨rfl, parse_leaves⟩
    · exact ⟨rfl, failed_leaves _ _⟩
  | reading exchange =>
    cases answer with
    | done => cases h
    | raised e =>
      cases h
      exact ⟨rfl, failed_leaves _ _⟩
    | chunk bytes =>
      cases bytes <;> cases h
      · exact ⟨rfl, failed_leaves _ _⟩
      · exact ⟨rfl, parse_leaves⟩
  | recorded => cases answer <;> cases h
  | raised e => cases answer <;> cases h
  | cancelled => cases answer <;> cases h

theorem refused_cases {e : PyError} (h : refused link point e = some p) :
    point.done = false ∧ Leaves tSend p := by
  cases point <;> cases h
  exact ⟨rfl, .raised _ _⟩

/-! ### Nothing raised -/

/-- The parser takes what it looks at. -/
def Parsed (config : ProbeConfig) (link : Link) : Point → StormClient.Answer → Prop
  | .draining _, .done => ∃ reply, ReplyParser.tryParse config.depth link.buf = .ok reply
  | .reading _, .chunk bytes =>
    bytes ≠ [] → ∃ reply, ReplyParser.tryParse config.depth (link.buf ++ bytes) = .ok reply
  | _, _ => True

/-- The commands of the handshake that follow have words. -/
def Worded : Point → Prop
  | .draining (.handshake left) | .reading (.handshake left) => StormClient.Wordy left
  | _ => True

/-- Its request raises nothing, and goes on so. -/
def Kept (p : Progress) : Prop := (∀ e, p.point ≠ .raised e) ∧ Worded p.point

theorem failed_kept (tSend : ℚ) (link : Link) : Kept (failed tSend link) := by
  refine ⟨fun e he => ?_, trivial⟩
  cases he

theorem send_kept (link : Link) (hword : splitCommand command ≠ [])
    (hleft : Worded (.draining exchange)) : Kept (send link exchange command) := by
  have hsend : send link exchange command = ⟨link, .draining exchange, []⟩ := by
    unfold send encodeCommand
    rw [if_neg (by simpa using hword)]
  rw [hsend]
  refine ⟨fun e he => ?_, hleft⟩
  cases he

theorem answered_kept (hfirst : splitCommand config.firstCommand ≠ [])
    (hleft : Worded (.draining exchange)) :
    Kept (answered config tSend link exchange clock) := by
  unfold answered
  split
  · exact send_kept _ hfirst trivial
  · exact send_kept _ (hleft _ List.mem_cons_self) fun w hw => hleft w (List.mem_cons_of_mem _ hw)
  · refine ⟨fun e he => ?_, trivial⟩
    cases he

theorem parse_kept (hfirst : splitCommand config.firstCommand ≠ [])
    (hleft : Worded (.draining exchange))
    (hparse : ∃ reply, ReplyParser.tryParse config.depth link.buf = .ok reply) :
    Kept (parse config tSend link exchange clock) := by
  obtain ⟨⟨reply, buf⟩, hparse⟩ := hparse
  unfold parse
  rw [hparse]
  cases reply with
  | none =>
    refine ⟨fun e he => (by cases he), ?_⟩
    cases exchange <;> exact hleft
  | some reply => exact answered_kept hfirst hleft

theorem connected_kept (hwords : StormClient.Wordy (config.handshake ++ [config.firstCommand])) :
    Kept (connected config clock) := by
  have hfirst : splitCommand config.firstCommand ≠ [] := hwords _ (by simp)
  unfold connected
  split
  · exact send_kept _ hfirst trivial
  · next command left hhandshake =>
    have hall : ∀ w ∈ command :: left, splitCommand w ≠ [] := fun w hw =>
      hwords w (List.mem_append_left _ (hhandshake ▸ hw))
    exact send_kept _ (hall _ List.mem_cons_self) fun w hw => hall w (List.mem_cons_of_mem _ hw)

/-- **A turn of a request** whose replies can be parsed. -/
theorem advance_kept (hwords : StormClient.Wordy (config.handshake ++ [config.firstCommand]))
    (hpoint : Worded point) (hparsed : Parsed config link point answer)
    (h : advance config tSend link point answer clock = some p) : Kept p := by
  have hfirst : splitCommand config.firstCommand ≠ [] := hwords _ (by simp)
  cases point with
  | created =>
    cases answer with
    | done =>
      simp only [advance] at h
      split at h <;> cases h
      · exact send_kept _ hfirst trivial
      · exact ⟨fun e he => (by cases he), trivial⟩
    | raised e => cases h
    | chunk bytes => cases h
  | connecting =>
    cases answer <;> cases h
    · exact connected_kept hwords
    · exact failed_kept _ _
  | draining exchange =>
    cases answer <;> cases h
    · exact parse_kept hfirst hpoint hparsed
    · exact failed_kept _ _
  | reading exchange =>
    have hleft : Worded (.draining exchange) := by cases exchange <;> exact hpoint
    cases answer with
    | done => cases h
    | raised e =>
      cases h
      exact failed_kept _ _
    | chunk bytes =>
      cases bytes <;> cases h
      · exact failed_kept _ _
      · exact parse_kept hfirst hleft (hparsed (List.cons_ne_nil _ _))
  | recorded => cases answer <;> cases h
  | raised e => cases answer <;> cases h
  | cancelled => cases answer <;> cases h

/-! ## One turn of a client -/

/-- The slots of some requests that have no sample. -/
def unrecorded (requests : List Request) : List ℚ :=
  (requests.filter fun r => !r.point.isRecorded).map Request.tSend

/-- A slot has one sample, or else a request, and at most the last request is in flight. -/
structure Inv (s : State) : Prop where
  accounts : (s.recorded.map ProbeSample.tSend ++ unrecorded s.requests).Perm s.slots
  single   : ∀ r ∈ s.requests.tail, r.point.done = true
  oneKind  : ∀ x ∈ s.recorded, ¬ (x.served ∧ x.skipped)
  settled  : ∀ raised, s.pace = .ended raised → s.busy = false

theorem initial_inv : Inv .initial where
  accounts := .nil
  single := by simp [State.initial]
  oneKind := by simp [State.initial]
  settled := fun _ _ => rfl

theorem unrecorded_cons (r : Request) (rest : List Request) :
    unrecorded (r :: rest) =
      if r.point.isRecorded then unrecorded rest else r.tSend :: unrecorded rest := by
  unfold unrecorded
  cases hpoint : r.point.isRecorded with
  | true => rw [List.filter_cons_of_neg (by simp [hpoint]), if_pos rfl]
  | false => rw [List.filter_cons_of_pos (by simp [hpoint]), if_neg Bool.false_ne_true, List.map_cons]

theorem isRecorded_of_live (h : point.done = false) : point.isRecorded = false := by
  cases point <;> first | rfl | cases h

/-- **A slot** has its sample at once, or a request in the background. -/
theorem slot_inv (h : Inv s) (hpace : ∀ raised, s.pace ≠ .ended raised) :
    Inv (slot config s) ∧ (slot config s).pace = s.pace := by
  unfold slot
  dsimp only
  split
  · refine ⟨⟨?_, h.single, ?_, fun raised he => absurd he (hpace raised)⟩, rfl⟩
    · show ((s.recorded ++ [_]).map ProbeSample.tSend ++ unrecorded s.requests).Perm (s.slots ++ [_])
      rw [List.map_append, List.append_assoc]
      -- the new sample and the new slot have the same time
      refine (List.perm_append_comm_assoc _ _ _).trans ?_
      exact (List.perm_append_comm).trans (h.accounts.append_right _)
    · intro x hx
      rcases List.mem_append.mp hx with hx | hx
      · exact h.oneKind x hx
      · cases List.mem_singleton.mp hx
        simp
  · next hidle =>
    refine ⟨⟨?_, ?_, h.oneKind, fun raised he => absurd he (hpace raised)⟩, rfl⟩
    · show (s.recorded.map ProbeSample.tSend ++ unrecorded (_ :: s.requests)).Perm (s.slots ++ [_])
      rw [unrecorded_cons]
      show (_ ++ s.nextSend :: unrecorded s.requests).Perm _
      refine List.perm_middle.trans ?_
      exact (h.accounts.cons s.nextSend).trans (List.perm_append_singleton _ _).symm
    · -- the request before it is done, and so are those before that
      intro r hr
      match hrequests : s.requests, hr with
      | first :: rest, hr =>
        rcases List.mem_cons.mp hr with rfl | hr
        · simpa [State.busy, hrequests] using hidle
        · exact h.single r (by rw [hrequests]; exact hr)

/-- **The loop** schedules some slots, and then sleeps, waits for the last request or ends. -/
theorem paceLoop_cases {P : State → Prop} {readings : List (ℚ × ℚ)}
    (hslot : ∀ s, P s → P (slot config s)) (hs : P s)
    (h : paceLoop config deadline readings s = some t) :
    ∃ u, P u ∧ ((∃ seconds, t = { u with pace := .sleeping seconds }) ∨
      t = { u with pace := .settling } ∨ (u.busy = false ∧ t = u.closeDown)) := by
  induction readings generalizing s with
  | nil => cases h
  | cons reading readings ih =>
    obtain ⟨condition, now⟩ := reading
    rw [paceLoop] at h
    split at h
    · split at h
      · cases h
        exact ⟨s, hs, .inr (.inl rfl)⟩
      · next hidle =>
        cases h
        exact ⟨s, hs, .inr (.inr ⟨Bool.eq_false_iff.mpr hidle, rfl⟩)⟩
    split at h
    · cases h
      exact ⟨s, hs, .inl ⟨_, rfl⟩⟩
    · exact ih (hslot s hs) h

theorem paceLoop_inv {readings : List (ℚ × ℚ)} (hs : Inv s) (hpace : ∀ raised, s.pace ≠ .ended raised)
    (h : paceLoop config deadline readings s = some t) : Inv t := by
  obtain ⟨u, ⟨hu, hlive⟩, hcases⟩ := paceLoop_cases
    (P := fun s => Inv s ∧ ∀ raised, s.pace ≠ .ended raised)
    (fun s hs => ⟨(slot_inv hs.1 hs.2).1, (slot_inv hs.1 hs.2).2 ▸ hs.2⟩) ⟨hs, hpace⟩ h
  rcases hcases with ⟨seconds, rfl⟩ | rfl | ⟨hidle, rfl⟩
  · exact ⟨hu.accounts, hu.single, hu.oneKind, fun raised he => by cases he⟩
  · exact ⟨hu.accounts, hu.single, hu.oneKind, fun raised he => by cases he⟩
  · exact ⟨hu.accounts, hu.single, hu.oneKind, fun _ _ => hidle⟩

/-- A request that is not done is the last one. -/
theorem live_is_last {k : ℕ} {r : Request} (h : Inv s) (hr : s.requests[k]? = some r)
    (hlive : r.point.done = false) : k = 0 ∧ ∃ rest, s.requests = r :: rest := by
  cases hrequests : s.requests with
  | nil =>
    rw [hrequests] at hr
    cases hr
  | cons first rest =>
    rw [hrequests] at hr
    cases k with
    | zero =>
      cases hr
      exact ⟨rfl, rest, rfl⟩
    | succ k =>
      have hmem : r ∈ s.requests.tail := by
        rw [hrequests]
        exact List.mem_of_getElem? hr
      exact absurd ((h.single r hmem).symm.trans hlive) (by decide)

/-- **A request goes on**, gets its sample or raises. -/
theorem progressed_inv {k : ℕ} {r : Request} (h : Inv s) (hr : s.requests[k]? = some r)
    (hlive : r.point.done = false) (hleaves : Leaves r.tSend p) : Inv (s.progressed k r p) := by
  -- a request that takes a turn is in flight, so that it is the last one
  obtain ⟨rfl, rest, hrequests⟩ := live_is_last h hr hlive
  have hbusy : s.busy = true := by
    rw [State.busy, hrequests]
    simp [hlive]
  have haccounts := h.accounts
  rw [hrequests, unrecorded_cons, isRecorded_of_live hlive, if_neg Bool.false_ne_true] at haccounts
  have hsingle : ∀ q ∈ rest, q.point.done = true := by
    intro q hq
    exact h.single q (by rw [hrequests]; exact hq)
  refine ⟨?_, ?_, ?_, fun raised he => ?_⟩
  · show ((s.recorded ++ p.samples).map ProbeSample.tSend ++ unrecorded (s.requests.set 0 _)).Perm
      s.slots
    rw [hrequests, List.set_cons_zero, unrecorded_cons]
    cases hleaves with
    | live link point hpoint =>
      rw [isRecorded_of_live hpoint, if_neg Bool.false_ne_true, List.append_nil]
      exact haccounts
    | recorded link x htime hkind =>
      -- the sample takes the place of the request
      rw [show Point.recorded.isRecorded = true from rfl, if_pos rfl, List.map_append,
        List.append_assoc]
      show (_ ++ x.tSend :: unrecorded rest).Perm _
      rw [htime]
      exact haccounts
    | raised link e =>
      rw [show (Point.raised e).isRecorded = false from rfl, if_neg Bool.false_ne_true,
        List.append_nil]
      exact haccounts
  · show ∀ q ∈ (s.requests.set 0 _).tail, _
    rw [hrequests]
    exact hsingle
  · intro x hx
    rcases List.mem_append.mp hx with hx | hx
    · exact h.oneKind x hx
    · cases hleaves with
      | live link point hpoint => cases hx
      | recorded link y htime hkind =>
        cases List.mem_singleton.mp hx
        exact hkind
      | raised link e => cases hx
  · exact absurd ((h.settled raised he).symm.trans hbusy) (by decide)

/-- **A turn**: a slot that has its sample keeps it, one whose request ends with one gets it. -/
theorem resume_inv (h : Inv s) (hstep : resume config deadline offset s turn = some t) : Inv t := by
  cases turn with
  | run opening readings =>
    simp only [resume] at hstep
    have hopened : ∀ nextSend, Inv { s with nextSend := nextSend } := fun _ =>
      ⟨h.accounts, h.single, h.oneKind, h.settled⟩
    split at hstep
    · next hpace =>
      split at hstep
      · cases hstep
        exact ⟨h.accounts, h.single, h.oneKind, fun raised he => by cases he⟩
      · exact paceLoop_inv (hopened _) (fun raised he => by cases hpace.symm.trans he) hstep
    · next seconds hpace =>
      exact paceLoop_inv (hopened _) (fun raised he => by cases hpace.symm.trans he) hstep
    · next seconds hpace =>
      exact paceLoop_inv h (fun raised he => by cases hpace.symm.trans he) hstep
    · cases hstep
  | request k answer clock =>
    obtain ⟨r, hr, hstep⟩ := Option.bind_eq_some_iff.mp hstep
    obtain ⟨p, hp, hstep⟩ := Option.bind_eq_some_iff.mp hstep
    cases hstep
    obtain ⟨hlive, hleaves⟩ := advance_cases hp
    exact progressed_inv h hr hlive hleaves
  | refused k e =>
    obtain ⟨r, hr, hstep⟩ := Option.bind_eq_some_iff.mp hstep
    obtain ⟨p, hp, hstep⟩ := Option.bind_eq_some_iff.mp hstep
    cases hstep
    obtain ⟨hlive, hleaves⟩ := refused_cases hp
    exact progressed_inv h hr hlive hleaves
  | settled =>
    simp only [resume] at hstep
    split at hstep
    · next e rest hpace hrequests =>
      cases hstep
      refine ⟨h.accounts, h.single, h.oneKind, fun _ _ => ?_⟩
      show (s.requests.head?.any fun r => !r.point.done) = false
      rw [hrequests]
      rfl
    · split at hstep
      · cases hstep
      · next hidle =>
        cases hstep
        exact ⟨h.accounts, h.single, h.oneKind, fun _ _ => Bool.eq_false_iff.mpr hidle⟩
    · cases hstep
  | timedOut =>
    simp only [resume] at hstep
    split at hstep
    · next r rest hpace hrequests =>
      split at hstep
      · cases hstep
      · next hlive =>
        cases hstep
        have haccounts := h.accounts
        rw [hrequests, unrecorded_cons, isRecorded_of_live (Bool.eq_false_iff.mpr hlive),
          if_neg Bool.false_ne_true] at haccounts
        refine ⟨haccounts, fun q hq => ?_, h.oneKind, fun _ _ => rfl⟩
        exact h.single q (by rw [hrequests]; exact hq)
    · cases hstep

/-- A turn only appends. -/
theorem resume_appends (hstep : resume config deadline offset s turn = some t) :
    ∃ samples, t.recorded = s.recorded ++ samples := by
  -- a slot appends one sample or none
  have hslot : ∀ v : State, (∃ samples, v.recorded = s.recorded ++ samples) →
      ∃ samples, (slot config v).recorded = s.recorded ++ samples := by
    rintro v ⟨samples, hv⟩
    unfold slot
    dsimp only
    split
    · exact ⟨samples ++ [_], by rw [hv, List.append_assoc]⟩
    · exact ⟨samples, hv⟩
  have hloop : ∀ {u : State} {readings : List (ℚ × ℚ)},
      paceLoop config deadline readings u = some t → u.recorded = s.recorded →
      ∃ samples, t.recorded = s.recorded ++ samples := by
    intro u readings hloop hu
    obtain ⟨v, ⟨samples, hv⟩, hcases⟩ := paceLoop_cases
      (P := fun v => ∃ samples, v.recorded = s.recorded ++ samples) hslot
      ⟨[], hu.trans (List.append_nil _).symm⟩ hloop
    rcases hcases with ⟨seconds, rfl⟩ | rfl | ⟨-, rfl⟩ <;> exact ⟨samples, hv⟩
  cases turn with
  | run opening readings =>
    simp only [resume] at hstep
    split at hstep
    · split at hstep
      · cases hstep
        exact ⟨[], (List.append_nil _).symm⟩
      · exact hloop hstep rfl
    · exact hloop hstep rfl
    · exact hloop hstep rfl
    · cases hstep
  | request k answer clock =>
    obtain ⟨r, -, hstep⟩ := Option.bind_eq_some_iff.mp hstep
    obtain ⟨p, -, hstep⟩ := Option.bind_eq_some_iff.mp hstep
    cases hstep
    exact ⟨p.samples, rfl⟩
  | refused k e =>
    obtain ⟨r, -, hstep⟩ := Option.bind_eq_some_iff.mp hstep
    obtain ⟨p, -, hstep⟩ := Option.bind_eq_some_iff.mp hstep
    cases hstep
    exact ⟨p.samples, rfl⟩
  | settled =>
    simp only [resume] at hstep
    split at hstep
    · cases hstep
      exact ⟨[], (List.append_nil _).symm⟩
    · split at hstep <;> cases hstep
      exact ⟨[], (List.append_nil _).symm⟩
    · cases hstep
  | timedOut =>
    simp only [resume] at hstep
    split at hstep
    · split at hstep <;> cases hstep
      exact ⟨[], (List.append_nil _).symm⟩
    · cases hstep

/-! ### Nothing lost -/

/-- No request has ended without a sample. -/
structure Intact (s : State) : Prop where
  worded  : ∀ r ∈ s.requests, Worded r.point
  sampled : ∀ r ∈ s.requests, r.point.done = true → r.point.isRecorded = true
  quiet   : ∀ e, s.pace ≠ .ended (some e)

theorem initial_intact : Intact .initial := by
  refine ⟨by simp [State.initial], by simp [State.initial], fun e he => ?_⟩
  cases he

/-- The condition on a turn: no last request is cancelled, and what the parser looks at is a reply
or the beginning of one. -/
def Clear (config : ProbeConfig) (s : State) : Turn → Prop
  | .timedOut => False
  | .request k answer _ => ∀ r ∈ s.requests[k]?, Parsed config s.link r.point answer
  | _ => True

theorem slot_intact (h : Intact s) : Intact (slot config s) := by
  unfold slot
  dsimp only
  split
  · exact ⟨h.worded, h.sampled, h.quiet⟩
  · refine ⟨fun r hr => ?_, fun r hr hdone => ?_, h.quiet⟩
    · rcases List.mem_cons.mp hr with rfl | hr
      · trivial
      · exact h.worded r hr
    · rcases List.mem_cons.mp hr with rfl | hr
      · cases hdone
      · exact h.sampled r hr hdone

theorem paceLoop_intact {readings : List (ℚ × ℚ)} (hs : Intact s)
    (h : paceLoop config deadline readings s = some t) : Intact t := by
  obtain ⟨u, hu, hcases⟩ := paceLoop_cases (P := Intact) (fun _ => slot_intact) hs h
  rcases hcases with ⟨seconds, rfl⟩ | rfl | ⟨hidle, rfl⟩
  all_goals
    refine ⟨hu.worded, hu.sampled, fun e he => ?_⟩
    cases he

/-- **A turn that is clear** loses nothing. -/
theorem resume_intact (hwords : StormClient.Wordy (config.handshake ++ [config.firstCommand]))
    (h : Intact s) (hopened : ∀ k e, turn ≠ .refused k e) (hclear : Clear config s turn)
    (hstep : resume config deadline offset s turn = some t) : Intact t := by
  cases turn with
  | run opening readings =>
    simp only [resume] at hstep
    have hstarted : ∀ nextSend, Intact { s with nextSend := nextSend } := fun _ =>
      ⟨h.worded, h.sampled, h.quiet⟩
    split at hstep
    · split at hstep
      · cases hstep
        exact ⟨h.worded, h.sampled, fun e he => by cases he⟩
      · exact paceLoop_intact (hstarted _) hstep
    · exact paceLoop_intact (hstarted _) hstep
    · exact paceLoop_intact h hstep
    · cases hstep
  | request k answer clock =>
    obtain ⟨r, hr, hstep⟩ := Option.bind_eq_some_iff.mp hstep
    obtain ⟨p, hp, hstep⟩ := Option.bind_eq_some_iff.mp hstep
    cases hstep
    have hkept := advance_kept hwords (h.worded r (List.mem_of_getElem? hr)) (hclear r hr) hp
    obtain ⟨-, hleaves⟩ := advance_cases hp
    refine ⟨fun q hq => ?_, fun q hq hdone => ?_, h.quiet⟩
    · rcases List.mem_or_eq_of_mem_set hq with hq | rfl
      · exact h.worded q hq
      · exact hkept.2
    · rcases List.mem_or_eq_of_mem_set hq with hq | rfl
      · exact h.sampled q hq hdone
      · cases hleaves with
        | live link point hpoint => exact absurd (hdone.symm.trans hpoint) (by decide)
        | recorded link x htime hkind => rfl
        | raised link e => exact absurd rfl (hkept.1 e)
  | settled =>
    simp only [resume] at hstep
    split at hstep
    · next e rest hpace hrequests =>
      -- the last request has raised, but no request that is over lacks its sample
      have hlost : (Point.raised e).isRecorded = true :=
        h.sampled ⟨_, .raised e⟩ (by rw [hrequests]; exact List.mem_cons_self) rfl
      cases hlost
    · split at hstep
      · cases hstep
      · cases hstep
        exact ⟨h.worded, h.sampled, fun e he => by cases he⟩
    · cases hstep
  | refused k e => exact absurd rfl (hopened k e)
  | timedOut => exact hclear.elim

/-- The slots whose request is in flight. -/
def State.inFlight (s : State) : List ℚ :=
  (s.requests.filter fun r => !r.point.done).map Request.tSend

theorem Inv.inFlight_length (h : Inv s) : s.inFlight.length ≤ 1 := by
  rw [State.inFlight, List.length_map]
  cases hrequests : s.requests with
  | nil => exact Nat.zero_le 1
  | cons first rest =>
    -- the requests before the last one are over
    have hrest : rest.filter (fun r => !r.point.done) = [] := by
      refine List.filter_eq_nil_iff.mpr fun r hr => ?_
      rw [h.single r (by rw [hrequests]; exact hr)]
      exact Bool.false_ne_true
    rw [List.filter_cons, hrest]
    split <;> simp

/-- Where nothing is lost, what has no sample is in flight. -/
theorem Intact.unrecorded_eq (h : Intact s) : unrecorded s.requests = s.inFlight := by
  refine congrArg (List.map Request.tSend) (List.filter_congr fun r hr => ?_)
  cases hdone : r.point.done with
  | true => rw [h.sampled r hr hdone]
  | false => rw [isRecorded_of_live hdone]

theorem Inv.inFlight_ended (h : Inv s) {raised : Option ParseError} (hended : s.pace = .ended raised) :
    s.inFlight = [] := by
  have hidle := h.settled raised hended
  rw [State.inFlight, List.map_eq_nil_iff, List.filter_eq_nil_iff]
  intro r hr
  cases hrequests : s.requests with
  | nil =>
    rw [hrequests] at hr
    cases hr
  | cons first rest =>
    rw [State.busy, hrequests] at hidle
    rw [hrequests] at hr
    rcases List.mem_cons.mp hr with rfl | hr
    · simpa using hidle
    · rw [h.single r (by rw [hrequests]; exact hr)]
      exact Bool.false_ne_true

end ProbeClient

/-! ## All clients -/

/-- The clients of a probe, and the list they share. -/
structure Probe where
  clients : List ProbeClient.State
  samples : List ProbeSample

namespace Probe

/-- `run_probe`, before its clients run. -/
def initial (config : ProbeConfig) : Probe :=
  ⟨if config.clients ≤ 0 ∨ config.rate ≤ 0 then []
    else List.replicate config.clients.toNat .initial, []⟩

/-- The stagger of a client. -/
def offset (config : ProbeConfig) (i : ℕ) : ℚ := config.perClientInterval / config.clients * i

/-- A turn of one of the clients; what it has appended is at the end of the shared list. -/
inductive Step (refuses : Refuses) (config : ProbeConfig) (deadline : ℚ) :
    Probe → ℕ × ProbeClient.Turn → Probe → Prop
  | turn {w : Probe} {i : ℕ} {s t : ProbeClient.State} {turn : ProbeClient.Turn} :
      w.clients[i]? = some s →
      (∀ k e, turn = .refused k e → refuses config.host config.port e) →
      ProbeClient.resume config deadline (offset config i) s turn = some t →
      Step refuses config deadline w (i, turn)
        ⟨w.clients.set i t, w.samples ++ t.recorded.drop s.recorded.length⟩

/-- What `run_probe` returns once all of its clients have. -/
def timeline (config : ProbeConfig) (w : Probe) : Except String (List ProbeBucket) :=
  if config.clients ≤ 0 ∨ config.rate ≤ 0 then .ok [] else bucketize w.samples config.bucketMs

/-- The slots of all clients. -/
def slots (w : Probe) : List ℚ := w.clients.flatMap ProbeClient.State.slots

/-- Every client has returned. -/
def Returned (w : Probe) : Prop := ∀ s ∈ w.clients, s.pace = .ended none

end Probe

/-! ### Buckets -/

/-- **The buckets add up**: every sample is counted in one. -/
theorem bucketize_sent (samples : List ProbeSample) {bucketMs : ℤ} (h : 0 < bucketMs) :
    ∃ buckets, bucketize samples bucketMs = .ok buckets ∧
      (buckets.map ProbeBucket.sent).sum = samples.length := by
  refine ⟨_, if_neg (by omega), ?_⟩
  set indices := samples.map (·.bucketIndex bucketMs) with hindices
  -- a bucket has the samples of its index, and every index has a bucket
  have hcount (idx : ℤ) : (bucketOf bucketMs samples idx).sent = indices.count idx := by
    show (samples.filter fun s => decide (s.bucketIndex bucketMs = idx)).length = _
    rw [← List.countP_eq_length_filter, hindices, List.count, List.countP_map]
    refine List.countP_congr fun s _ => ?_
    simp
  have hsort : ((indices.dedup.insertionSort (· ≤ ·)).map indices.count).Perm
      (indices.dedup.map indices.count) := (List.perm_insertionSort _ _).map _
  rw [List.map_map, show ProbeBucket.sent ∘ bucketOf bucketMs samples = indices.count from
    funext hcount, hsort.sum_eq, List.sum_map_count_dedup_eq_length, hindices, List.length_map]

namespace Probe

/-! ### Runs -/

variable {refuses : Refuses} {config : ProbeConfig} {deadline : ℚ} {w v : Probe}
  {e : ℕ × ProbeClient.Turn}
  {es : List (ℕ × ProbeClient.Turn)}

/-- What the clients keep, and the list they share. -/
structure Inv (config : ProbeConfig) (w : Probe) : Prop where
  clients : ∀ s ∈ w.clients, ProbeClient.Inv s
  shared  : w.samples.Perm (w.clients.flatMap ProbeClient.State.recorded)
  number  : w.clients.length = (initial config).clients.length

theorem inv_initial : Inv config (initial config) := by
  have hall : ∀ s ∈ (initial config).clients, s = .initial := by
    intro s hs
    unfold initial at hs
    dsimp only at hs
    split at hs
    · cases hs
    · exact List.eq_of_mem_replicate hs
  refine ⟨fun s hs => hall s hs ▸ ProbeClient.initial_inv, ?_, rfl⟩
  have hnone : (initial config).clients.flatMap ProbeClient.State.recorded = [] := by
    refine List.flatMap_eq_nil_iff.mpr fun s hs => ?_
    rw [hall s hs]
    rfl
  rw [hnone]
  exact .nil

/-- What a client has appended comes in at the end. -/
theorem perm_flatMap_set {clients : List ProbeClient.State} {i : ℕ} {s t : ProbeClient.State}
    {samples : List ProbeSample} (hi : clients[i]? = some s)
    (ht : t.recorded = s.recorded ++ samples) :
    (clients.flatMap ProbeClient.State.recorded ++ samples).Perm
      ((clients.set i t).flatMap ProbeClient.State.recorded) := by
  induction clients generalizing i with
  | nil => cases hi
  | cons first rest ih =>
    cases i with
    | zero =>
      cases hi
      rw [List.set_cons_zero, List.flatMap_cons, List.flatMap_cons, ht, List.append_assoc,
        List.append_assoc]
      exact List.perm_append_comm.append_left _
    | succ i =>
      rw [List.set_cons_succ, List.flatMap_cons, List.flatMap_cons, List.append_assoc]
      exact (ih hi).append_left _

/-- **A turn of any client.** -/
theorem step_inv (h : Inv config w) (hstep : Step refuses config deadline w e v) : Inv config v := by
  cases hstep with
  | @turn i s t turn hi _ hresume =>
    -- only the samples of this turn are new in the shared list
    obtain ⟨samples, ht⟩ := ProbeClient.resume_appends hresume
    refine ⟨fun u hu => ?_, ?_, (List.length_set).trans h.number⟩
    · rcases List.mem_or_eq_of_mem_set hu with hu | rfl
      · exact h.clients u hu
      · exact ProbeClient.resume_inv (h.clients s (List.mem_of_getElem? hi)) hresume
    · show (w.samples ++ t.recorded.drop s.recorded.length).Perm _
      rw [ht, List.drop_left]
      exact (h.shared.append_right samples).trans (perm_flatMap_set hi ht)

/-- **Every run**: a slot has one sample, or its request has not, and a client has one request in
flight at most. -/
theorem run_accounts (h : Run (Step refuses config deadline) (initial config) es w) :
    w.samples.Perm (w.clients.flatMap ProbeClient.State.recorded) ∧ ∀ s ∈ w.clients,
      (s.recorded.map ProbeSample.tSend ++ ProbeClient.unrecorded s.requests).Perm s.slots ∧
        s.inFlight.length ≤ 1 := by
  have hinv : Inv config w := h.invariant (Inv config) inv_initial fun _ _ _ hstep hw =>
    step_inv hw hstep
  exact ⟨hinv.shared, fun s hs => ⟨(hinv.clients s hs).accounts, (hinv.clients s hs).inFlight_length⟩⟩

/-- A turn under the condition. -/
def ClearStep (refuses : Refuses) (config : ProbeConfig) (deadline : ℚ) (w : Probe)
    (e : ℕ × ProbeClient.Turn) (v : Probe) : Prop :=
  (∀ s ∈ w.clients[e.1]?, ProbeClient.Clear config s e.2) ∧ Step refuses config deadline w e v

theorem step_intact (haddress : ∀ e, ¬ refuses config.host config.port e)
    (hwords : StormClient.Wordy (config.handshake ++ [config.firstCommand]))
    (h : ∀ s ∈ w.clients, ProbeClient.Intact s) (hstep : ClearStep refuses config deadline w e v) :
    ∀ s ∈ v.clients, ProbeClient.Intact s := by
  obtain ⟨hclear, hstep⟩ := hstep
  cases hstep with
  | @turn i s t turn hi hrefused hresume =>
    intro u hu
    rcases List.mem_or_eq_of_mem_set hu with hu | rfl
    · exact h u hu
    · exact ProbeClient.resume_intact hwords (h s (List.mem_of_getElem? hi))
        (fun k e hturn => haddress e (hrefused k e hturn)) (hclear s hi) hresume

/-- The slots of clients that have returned are as many as their samples. -/
theorem length_slots (hinv : Inv config w) (hintact : ∀ s ∈ w.clients, ProbeClient.Intact s)
    (hended : ∀ s ∈ w.clients, ∃ raised, s.pace = .ended raised) :
    w.samples.length = w.slots.length := by
  rw [hinv.shared.length_eq, slots, List.length_flatMap, List.length_flatMap]
  -- client by client: with nothing in flight, the samples are as many as the slots
  refine congrArg List.sum (List.map_congr_left fun s hs => ?_)
  obtain ⟨raised, hpace⟩ := hended s hs
  have hinvs := hinv.clients s hs
  have hperm := hinvs.accounts
  rw [(hintact s hs).unrecorded_eq, hinvs.inFlight_ended hpace, List.append_nil] at hperm
  simpa using hperm.length_eq

/-- **A slot, a sample**: where the address is none that `open_connection` refuses, and while no
last request is cancelled and the parser meets no bytes that are no reply, every slot has one
sample or is the one in flight, and in the end the buckets count every slot. -/
theorem timeline_accounts (hbucket : 0 < config.bucketMs)
    (haddress : ∀ e, ¬ refuses config.host config.port e)
    (hwords : StormClient.Wordy (config.handshake ++ [config.firstCommand]))
    (hrun : Run (ClearStep refuses config deadline) (initial config) es w) :
    w.samples.Perm (w.clients.flatMap ProbeClient.State.recorded) ∧
    (∀ s ∈ w.clients, (s.recorded.map ProbeSample.tSend ++ s.inFlight).Perm s.slots ∧
      s.inFlight.length ≤ 1 ∧ ∀ x ∈ s.recorded, ¬ (x.served ∧ x.skipped)) ∧
    ((∀ s ∈ w.clients, ∃ raised, s.pace = .ended raised) →
      Returned w ∧ ∃ buckets, timeline config w = .ok buckets ∧
        (buckets.map ProbeBucket.sent).sum = w.slots.length) := by
  have hinv : Inv config w := hrun.invariant (Inv config) inv_initial fun _ _ _ hstep hw =>
    step_inv hw hstep.2
  have hintact : ∀ s ∈ w.clients, ProbeClient.Intact s := by
    refine hrun.invariant (fun w => ∀ s ∈ w.clients, ProbeClient.Intact s) ?_ fun _ _ _ hstep hw =>
      step_intact haddress hwords hw hstep
    intro s hs
    unfold initial at hs
    dsimp only at hs
    split at hs
    · cases hs
    · exact List.eq_of_mem_replicate hs ▸ ProbeClient.initial_intact
  refine ⟨hinv.shared, fun s hs => ?_, fun hended => ⟨fun s hs => ?_, ?_⟩⟩
  · have hinvs := hinv.clients s hs
    exact ⟨(hintact s hs).unrecorded_eq ▸ hinvs.accounts, hinvs.inFlight_length, hinvs.oneKind⟩
  · obtain ⟨raised, hpace⟩ := hended s hs
    cases raised with
    | none => exact hpace
    | some e => exact absurd hpace ((hintact s hs).quiet e)
  · unfold timeline
    split
    · next hoff =>
      -- a probe that is off has no clients
      have hnone : w.clients = [] := by
        rw [← List.length_eq_zero_iff, hinv.number, initial, if_pos hoff]
        rfl
      exact ⟨[], rfl, by rw [slots, hnone]; rfl⟩
    · obtain ⟨buckets, hbuckets, hsum⟩ := bucketize_sent w.samples hbucket
      exact ⟨buckets, hbuckets, hsum.trans (length_slots hinv hintact hended)⟩

/-! ### One client -/

/-- One client, and one slot a second. -/
def oneClient : ProbeConfig where
  host := "127.0.0.1"
  port := 6379
  clients := 1
  rate := 1
  handshake := ["HELLO 3"]
  firstCommand := "GET stormkey"
  bucketMs := 1000
  depth := 100

/-- A socket address has a port of sixteen bits. -/
def portRefused : Refuses := fun _ port e =>
  (port < 0 ∨ 65535 < port) ∧ e = .overflowError "connect(): port must be 0-65535."

/-- Its only client, in the second after the first slot. -/
def firstSecond (link : ProbeClient.Link) (point : ProbeClient.Point) (recorded : List ProbeSample) : ProbeClient.State :=
  ⟨.sleeping 1, 1, [⟨0, point⟩], link, [0], recorded⟩

theorem interval_oneClient : oneClient.perClientInterval = 1 := by decide +kernel

/-- The first slot. -/
theorem first_slot (offset : ℚ) (hoffset : offset = 0) :
    ProbeClient.resume oneClient 1 offset .initial (.run (0, 0) [(0, 0), (0, 0)]) =
      some (firstSecond ⟨false, []⟩ .created []) := by
  subst hoffset
  simp only [ProbeClient.resume, ProbeClient.State.initial, ProbeClient.paceLoop,
    ProbeClient.slot, ProbeClient.State.busy, interval_oneClient]
  norm_num [firstSecond]

/-- Its only client has seen the deadline pass. -/
theorem late_turn (link : ProbeClient.Link) (point : ProbeClient.Point) (recorded : List ProbeSample) (offset : ℚ)
    (hdone : point.done = true) :
    ProbeClient.resume oneClient 1 offset (firstSecond link point recorded) (.run (0, 0) [(1, 1)]) =
      some { firstSecond link point recorded with
        pace := .ended none, link := { link with writer := false } } := by
  simp [ProbeClient.resume, firstSecond, ProbeClient.paceLoop, ProbeClient.State.busy,
    ProbeClient.State.closeDown, hdone]

/-- A turn of the only client. -/
theorem only_step {s t : ProbeClient.State} {turn : ProbeClient.Turn} {samples new : List ProbeSample}
    (h : ∀ offset, offset = 0 → ProbeClient.resume oneClient 1 offset s turn = some t)
    (hnew : t.recorded.drop s.recorded.length = new)
    (hturn : ∀ k e, turn ≠ .refused k e := by intro k e h; cases h) :
    Step portRefused oneClient 1 ⟨[s], samples⟩ (0, turn) ⟨[t], samples ++ new⟩ :=
  hnew ▸ .turn rfl (fun k e he => absurd he (hturn k e)) (h _ (mul_zero _))

/-- What the only client does after its first slot, whatever its request does. -/
abbrev requestTurn (answer : StormClient.Answer) : ProbeClient.Turn := .request 0 answer fun _ => 0

theorem wordy_oneClient : StormClient.Wordy (oneClient.handshake ++ [oneClient.firstCommand]) := by
  have hall : ∀ command ∈ ["HELLO 3", "GET stormkey"], splitCommand command ≠ [] := by
    decide +kernel
  exact hall

theorem addressable_oneClient (e : PyError) : ¬ portRefused oneClient.host oneClient.port e := by
  rintro ⟨hport, -⟩
  revert hport
  decide

/-- The connection is refused. -/
theorem refused_accounts :
    ∃ es w, Run (ClearStep portRefused oneClient 1) (initial oneClient) es w ∧
      w.samples.Perm (w.clients.flatMap ProbeClient.State.recorded) ∧
      (∀ s ∈ w.clients, (s.recorded.map ProbeSample.tSend ++ s.inFlight).Perm s.slots ∧
        s.inFlight.length ≤ 1 ∧ ∀ x ∈ s.recorded, ¬ (x.served ∧ x.skipped)) ∧
      ((∀ s ∈ w.clients, ∃ raised, s.pace = .ended raised) →
        Returned w ∧ ∃ buckets, timeline oneClient w = .ok buckets ∧
          (buckets.map ProbeBucket.sent).sum = w.slots.length) := by
  have hslot : ClearStep portRefused oneClient 1 (initial oneClient) (0, .run (0, 0) [(0, 0), (0, 0)])
      ⟨[firstSecond ⟨false, []⟩ .created []], []⟩ :=
    ⟨fun _ _ => trivial, only_step (fun offset h => first_slot offset h) rfl⟩
  have hcreated : ClearStep portRefused oneClient 1 ⟨[firstSecond ⟨false, []⟩ .created []], []⟩
      (0, requestTurn .done) ⟨[firstSecond ⟨false, []⟩ .connecting []], []⟩ := by
    refine ⟨fun s hs r hr => ?_, only_step (fun _ _ => rfl) rfl⟩
    cases hs
    cases hr
    trivial
  have hrefused : ClearStep portRefused oneClient 1 ⟨[firstSecond ⟨false, []⟩ .connecting []], []⟩
      (0, requestTurn (.raised .refused))
      ⟨[firstSecond ⟨false, []⟩ .recorded [⟨0, none, false, false⟩]], [⟨0, none, false, false⟩]⟩ := by
    refine ⟨fun s hs r hr => ?_, only_step (fun _ _ => rfl) rfl⟩
    cases hs
    cases hr
    trivial
  have hlate : ClearStep portRefused oneClient 1
      ⟨[firstSecond ⟨false, []⟩ .recorded [⟨0, none, false, false⟩]], [⟨0, none, false, false⟩]⟩
      (0, .run (0, 0) [(1, 1)]) _ :=
    ⟨fun _ _ => trivial, only_step (fun offset _ => late_turn _ _ _ offset rfl) rfl⟩
  have hrun := Run.snoc (.snoc (.snoc (.single hslot) hcreated) hrefused) hlate
  exact ⟨_, _, hrun, timeline_accounts (by decide) addressable_oneClient wordy_oneClient hrun⟩

/-- **A slot without a sample**: the server answers `X`, which is no reply. -/
theorem unparsed_slot_lost :
    ∃ es w, Run (Step portRefused oneClient 1) (initial oneClient) es w ∧ Returned w ∧ w.slots = [0] ∧
      ∃ buckets, timeline oneClient w = .ok buckets ∧
        (buckets.map ProbeBucket.sent).sum ≠ w.slots.length := by
  have hslot : Step portRefused oneClient 1 (initial oneClient) (0, .run (0, 0) [(0, 0), (0, 0)])
      ⟨[firstSecond ⟨false, []⟩ .created []], []⟩ :=
    only_step (fun offset h => first_slot offset h) rfl
  have hcreated : Step portRefused oneClient 1 ⟨[firstSecond ⟨false, []⟩ .created []], []⟩
      (0, requestTurn .done) ⟨[firstSecond ⟨false, []⟩ .connecting []], []⟩ :=
    only_step (fun _ _ => rfl) rfl
  have hsent : ProbeClient.send ⟨true, []⟩ (.handshake []) "HELLO 3" =
      ⟨⟨true, []⟩, .draining (.handshake []), []⟩ := by
    have hwords : splitCommand "HELLO 3" ≠ [] := by decide +kernel
    unfold ProbeClient.send encodeCommand
    rw [if_neg (by simpa using hwords)]
  have hconnected : Step portRefused oneClient 1 ⟨[firstSecond ⟨false, []⟩ .connecting []], []⟩
      (0, requestTurn .done)
      ⟨[firstSecond ⟨true, []⟩ (.draining (.handshake [])) []], []⟩ := by
    refine only_step (fun _ _ => ?_) rfl
    show some _ = some _
    rw [show ProbeClient.connected oneClient (fun _ => 0) = _ from hsent]
    rfl
  have hdrained : Step portRefused oneClient 1 ⟨[firstSecond ⟨true, []⟩ (.draining (.handshake [])) []], []⟩
      (0, requestTurn .done) ⟨[firstSecond ⟨true, []⟩ (.reading (.handshake [])) []], []⟩ :=
    only_step (fun _ _ => rfl) rfl
  have hread : Step portRefused oneClient 1 ⟨[firstSecond ⟨true, []⟩ (.reading (.handshake [])) []], []⟩
      (0, requestTurn (.chunk [88, 13, 10]))
      ⟨[firstSecond ⟨true, [88, 13, 10]⟩ (.raised (.protocolError [88])) []], []⟩ :=
    only_step (fun _ _ => rfl) rfl
  have hlate : Step portRefused oneClient 1
      ⟨[firstSecond ⟨true, [88, 13, 10]⟩ (.raised (.protocolError [88])) []], []⟩
      (0, .run (0, 0) [(1, 1)]) _ :=
    only_step (fun offset _ => late_turn _ _ _ offset rfl) rfl
  have hrun := Run.snoc (.snoc (.snoc (.snoc (.snoc (.single hslot) hcreated) hconnected) hdrained)
    hread) hlate
  refine ⟨_, _, hrun, ?_, rfl, [], rfl, by decide⟩
  intro s hs
  rw [List.mem_singleton.mp hs]

end Probe

end Conductress.Stormgen
