import Conductress.Base.Json
import Conductress.Lib.Table
import Conductress.Lib.Transition
import Mathlib.Algebra.GroupWithZero.Nat
import Mathlib.Algebra.Order.BigOperators.Group.List
import Mathlib.Data.List.Infix
import Mathlib.Data.Rat.Init

/-!
# Waiting for the replicas

`TopologyGroup.wait_for_repl_sync` and `wait_for_offsets_caught_up`, turn by turn, while the
instances go on: clients write to the primary and every replica processes what it has received,
between any two of the questions.

* `Later` — what the instances may do meanwhile;
* `inv_step` — what a turn of the second wait knows of the replicas it has asked;
* `caughtUp_holds` — when it returns, every replica has processed all that the primary had when
  it was called, and it gives up only on an answer that cannot be read, or when the deadline has
  passed, on replicas that were behind when they were asked;
* `synced_each` — the first wait has found every replica synced, though not all of them at once.
-/

namespace Conductress.TopologyGroup

open Lib PyText

/-! ## The answers of an instance -/

/-- The dictionary that `Server.info` makes of the answer. -/
abbrev InfoDict := Table (Prod.fst : String × String → String)

/-- A line of the answer. -/
def addLine (info : InfoDict) (item : List Char) : InfoDict :=
  match splitAt (· = ':') item with
  | (key, some value) => info.put (String.ofList (strip key), String.ofList (strip value))
  | (_, none) => info

/-- `Server.info`, of what `valkey-cli` prints. -/
def info (stdout : String) : Except PyError InfoDict :=
  let response := strip stdout.toList
  if response = [] then .error (.runtimeError "Failed to run 'info replication' on server")
  else .ok ((response.splitOn '\n').foldl addLine .empty)

/-- `info.get(field)`. -/
def InfoDict.get? (info : InfoDict) (field : String) : Option String :=
  (info.find? field).map Prod.snd

/-- `int(info.get("master_repl_offset", "0"))`. -/
def masterReplOffset (stdout : String) : Except PyError ℤ := do
  let info ← info stdout
  let text := (info.get? "master_repl_offset").getD "0"
  match parseInt text with
  | some n => .ok n
  | none => .error (.valueError s!"invalid literal for int() with base 10: '{text}'")

/-- The condition `wait_for_repl_sync` waits for. -/
def linkedUp (stdout : String) : Except PyError Bool := do
  let info ← info stdout
  return decide (info.get? "master_link_status" = some "up" ∧
    info.get? "master_sync_in_progress" = some "0")

/-! ## The instances -/

/-- A command in the replication stream, by its length there. -/
structure StreamCommand where
  command : String
  bytes   : ℕ
  pos     : 0 < bytes

abbrev Stream := List StreamCommand

/-- The offset at the end of a stream. -/
def Stream.offset (s : Stream) : ℕ := (s.map StreamCommand.bytes).sum

inductive Node where
  | primary
  | replica (port : ℕ)
  deriving DecidableEq

/-- The stream of the primary, what each replica has processed of it, and which of the replicas
have a link and no synchronisation going on. -/
structure World where
  stream    : Stream
  processed : ℕ → Stream
  synced    : ℕ → Bool
  isPrefix  : ∀ port, processed port <+: stream

namespace World

variable (w w' : World)

def log : Node → Stream
  | .primary => w.stream
  | .replica port => w.processed port

/-- The primary accepts more commands, and a replica processes more of them. A replica that
synchronises in full ends no earlier than it was. -/
def Later : Prop := w.stream <+: w'.stream ∧ ∀ port, w.processed port <+: w'.processed port

/-- What the `replication` section of an instance says is so, where it can be read at all: the
offset of the instance, and whether a replica is linked. -/
structure Tells (node : Node) (stdout : String) : Prop where
  offset : ∀ n, masterReplOffset stdout = .ok n → n = ((w.log node).offset : ℤ)
  linked : ∀ port up, node = .replica port → linkedUp stdout = .ok up → up = w.synced port

end World

/-! ## `wait_for_offsets_caught_up` -/

inductive WaitError where
  | raised (e : PyError)
  /-- `replicas still behind primary after ..s: ..`. -/
  | stillBehind (lagging : List (ℕ × ℤ))
  /-- `replica .. did not sync within ..s`. -/
  | notSynced (port : ℕ)
  deriving DecidableEq

/-- Where the wait is. -/
inductive CatchUp where
  | askPrimary
  | askReplica (primaryOffset : ℤ) (lagging : List (ℕ × ℤ)) (port : ℕ) (rest : List ℕ)
  | atDeadline (lagging : List (ℕ × ℤ))
  | asleep
  | returned
  | raised (e : WaitError)
  deriving DecidableEq

/-- What happens next: the instances go on, one of them answers, the clock is read, or the
sleep is over. -/
inductive Turn where
  | others (w : World)
  | answer (stdout : String)
  | clock (now : ℚ)
  | wake

namespace CatchUp

/-- The instance that is asked. -/
def asks : CatchUp → Option Node
  | askPrimary => some .primary
  | askReplica _ _ port _ => some (.replica port)
  | _ => none

/-- The loop over the replicas, and what follows it. -/
def loop (primaryOffset : ℤ) (lagging : List (ℕ × ℤ)) : List ℕ → CatchUp
  | port :: rest => askReplica primaryOffset lagging port rest
  | [] => if lagging = [] then returned else atDeadline lagging

variable (ports : List ℕ) (deadline : ℚ)

def advance : CatchUp → Turn → Option CatchUp
  -- once a round, so that the stream may have gone on when the last replica is asked
  | askPrimary, .answer stdout =>
    match masterReplOffset stdout with
    | .ok primaryOffset => some (loop primaryOffset [] ports)
    | .error e => some (raised (.raised e))
  | askReplica primaryOffset lagging port rest, .answer stdout =>
    match masterReplOffset stdout with
    | .ok replicaOffset =>
      -- a replica that is past the offset by now has caught up as well
      let lagging := if replicaOffset < primaryOffset
        then lagging ++ [(port, primaryOffset - replicaOffset)] else lagging
      some (loop primaryOffset lagging rest)
    | .error e => some (raised (.raised e))
  | atDeadline lagging, .clock now =>
    some (if deadline < now then raised (.stillBehind lagging) else asleep)
  | asleep, .wake => some askPrimary
  | _, _ => none

end CatchUp

/-- A wait among the instances. -/
structure Waiting (σ : Type) where
  point : σ
  world : World

/-- One turn: the instances move on, or the wait does. -/
inductive Step {σ : Type} (asks : σ → Option Node) (advance : σ → Turn → Option σ) :
    Waiting σ → Turn → Waiting σ → Prop
  | others {point : σ} {w w' : World} :
      w.Later w' → Step asks advance ⟨point, w⟩ (.others w') ⟨point, w'⟩
  | answer {point next : σ} {w : World} {node : Node} {stdout : String} :
      asks point = some node → w.Tells node stdout →
      advance point (.answer stdout) = some next →
      Step asks advance ⟨point, w⟩ (.answer stdout) ⟨next, w⟩
  | clock {point next : σ} {w : World} {now : ℚ} :
      advance point (.clock now) = some next → Step asks advance ⟨point, w⟩ (.clock now) ⟨next, w⟩
  | wake {point next : σ} {w : World} :
      advance point .wake = some next → Step asks advance ⟨point, w⟩ .wake ⟨next, w⟩

/-! ## `wait_for_repl_sync` -/

inductive SyncWait where
  | ask (port : ℕ) (rest : List ℕ)
  | atDeadline (port : ℕ) (rest : List ℕ)
  | asleep (port : ℕ) (rest : List ℕ)
  | returned
  | raised (e : WaitError)
  deriving DecidableEq

namespace SyncWait

def asks : SyncWait → Option Node
  | ask port _ => some (.replica port)
  | _ => none

/-- The replicas that are left. -/
def loop : List ℕ → SyncWait
  | port :: rest => ask port rest
  | [] => returned

def advance (deadline : ℚ) : SyncWait → Turn → Option SyncWait
  | ask port rest, .answer stdout =>
    match linkedUp stdout with
    | .ok true => some (loop rest)
    | .ok false => some (atDeadline port rest)
    | .error e => some (raised (.raised e))
  | atDeadline port rest, .clock now =>
    some (if deadline < now then raised (.notSynced port) else asleep port rest)
  | asleep port rest, .wake => some (ask port rest)
  | _, _ => none

end SyncWait

/-! ## Where a turn may come -/

section Turns

variable {ports : List ℕ} {deadline now : ℚ}

/-- An instance is asked at the beginning of a round, and then each replica. -/
theorem CatchUp.asks_eq_some {point : CatchUp} {node : Node} (h : point.asks = some node) :
    point = .askPrimary ∧ node = .primary ∨
      ∃ primaryOffset lagging port rest,
        point = .askReplica primaryOffset lagging port rest ∧ node = .replica port := by
  cases point with
  | askPrimary => exact .inl ⟨rfl, (Option.some.inj h).symm⟩
  | askReplica primaryOffset lagging port rest =>
    exact .inr ⟨primaryOffset, lagging, port, rest, rfl, (Option.some.inj h).symm⟩
  | atDeadline lagging => cases h
  | asleep => cases h
  | returned => cases h
  | raised e => cases h

/-- The clock is read after a round. -/
theorem CatchUp.advance_clock {point next : CatchUp}
    (h : advance ports deadline point (.clock now) = some next) :
    ∃ lagging, point = .atDeadline lagging ∧
      next = if deadline < now then .raised (.stillBehind lagging) else .asleep := by
  cases point with
  | atDeadline lagging => exact ⟨lagging, rfl, (Option.some.inj h).symm⟩
  | askPrimary => cases h
  | askReplica primaryOffset lagging port rest => cases h
  | asleep => cases h
  | returned => cases h
  | raised e => cases h

/-- After a sleep there is a round. -/
theorem CatchUp.advance_wake {point next : CatchUp}
    (h : advance ports deadline point .wake = some next) :
    point = .asleep ∧ next = .askPrimary := by
  cases point with
  | asleep => exact ⟨rfl, (Option.some.inj h).symm⟩
  | askPrimary => cases h
  | askReplica primaryOffset lagging port rest => cases h
  | atDeadline lagging => cases h
  | returned => cases h
  | raised e => cases h

/-- A replica is asked. -/
theorem SyncWait.asks_eq_some {point : SyncWait} {node : Node} (h : point.asks = some node) :
    ∃ port rest, point = .ask port rest ∧ node = .replica port := by
  cases point with
  | ask port rest => exact ⟨port, rest, rfl, (Option.some.inj h).symm⟩
  | atDeadline port rest => cases h
  | asleep port rest => cases h
  | returned => cases h
  | raised e => cases h

/-- The clock is read after an answer that did not do. -/
theorem SyncWait.advance_clock {point next : SyncWait}
    (h : advance deadline point (.clock now) = some next) :
    ∃ port rest, point = .atDeadline port rest ∧
      next = if deadline < now then .raised (.notSynced port) else .asleep port rest := by
  cases point with
  | atDeadline port rest => exact ⟨port, rest, rfl, (Option.some.inj h).symm⟩
  | ask port rest => cases h
  | asleep port rest => cases h
  | returned => cases h
  | raised e => cases h

/-- After a sleep the same replica is asked again. -/
theorem SyncWait.advance_wake {point next : SyncWait}
    (h : advance deadline point .wake = some next) :
    ∃ port rest, point = .asleep port rest ∧ next = .ask port rest := by
  cases point with
  | asleep port rest => exact ⟨port, rest, rfl, (Option.some.inj h).symm⟩
  | ask port rest => cases h
  | atDeadline port rest => cases h
  | returned => cases h
  | raised e => cases h

end Turns

/-! ## Streams -/

section Streams

variable {s t u : Stream}

theorem offset_append (s t : Stream) : Stream.offset (s ++ t) = s.offset + t.offset := by
  unfold Stream.offset
  rw [List.map_append, List.sum_append]

/-- Every command takes its place. -/
theorem offset_pos (h : s ≠ []) : 0 < s.offset := by
  obtain ⟨command, rest, rfl⟩ := List.exists_cons_of_ne_nil h
  have hpos := command.pos
  show 0 < (List.map StreamCommand.bytes (command :: rest)).sum
  rw [List.map_cons, List.sum_cons]
  omega

/-- **Offsets compare streams**: of two beginnings of one stream, the one whose offset is not
smaller has all of the other. -/
theorem prefix_of_offset_le (hs : s <+: u) (ht : t <+: u) (h : s.offset ≤ t.offset) : s <+: t := by
  rcases le_total s.length t.length with hlen | hlen
  · exact List.prefix_of_prefix_length_le hs ht hlen
  · obtain ⟨more, rfl⟩ := List.prefix_of_prefix_length_le ht hs hlen
    -- what there is more of the first one would have an offset of its own
    have hnil : more = [] := by
      by_contra hmore
      have hpos := offset_pos hmore
      rw [offset_append] at h
      omega
    rw [hnil, List.append_nil]

variable {w w' w'' : World}

theorem World.Later.refl (w : World) : w.Later w :=
  ⟨List.prefix_rfl, fun _ => List.prefix_rfl⟩

theorem World.Later.trans (h : w.Later w') (h' : w'.Later w'') : w.Later w'' :=
  ⟨h.1.trans h'.1, fun port => (h.2 port).trans (h'.2 port)⟩

end Streams

/-! ## The second wait -/

section CatchingUp

variable {ports : List ℕ} {deadline : ℚ} {turns : List Turn} {since : World}
  {s t p : Waiting CatchUp} {lagging : List (ℕ × ℤ)} {rest : List ℕ}

/-- A wait for these replicas. -/
abbrev CatchUpStep (ports : List ℕ) (deadline : ℚ) :
    Waiting CatchUp → Turn → Waiting CatchUp → Prop :=
  Step CatchUp.asks (CatchUp.advance ports deadline)

/-- The wait has passed through this state. -/
abbrev Passed (ports : List ℕ) (deadline : ℚ) (since : World) (turns : List Turn) :
    Waiting CatchUp → Waiting CatchUp → Prop :=
  Through (CatchUpStep ports deadline) ⟨.askPrimary, since⟩ turns

/-- What is known in a round that began at `p`, with some of the replicas still to be asked. -/
structure Asked (ports : List ℕ) (deadline : ℚ) (since : World) (turns : List Turn)
    (t p : Waiting CatchUp) (lagging : List (ℕ × ℤ)) (rest : List ℕ) : Prop where
  round  : Passed ports deadline since turns t p
  asked  : p.point = .askPrimary
  begun  : since.Later p.world
  later  : p.world.Later t.world
  left   : ∀ port ∈ rest, port ∈ ports
  /-- A replica that has been asked is named, or has all that the primary had. -/
  caught : ∀ port ∈ ports, port ∈ rest ∨ port ∈ lagging.map Prod.fst ∨
    p.world.stream <+: t.world.processed port
  /-- A replica that is named was that far behind when it was asked. -/
  behind : ∀ row ∈ lagging, row.1 ∈ ports ∧ 0 < row.2 ∧ ∃ q, Passed ports deadline since turns t q ∧
    q.point.asks = some (.replica row.1) ∧ p.world.Later q.world ∧
    ((q.world.processed row.1).offset : ℤ) + row.2 = (p.world.stream.offset : ℤ)

/-- How a wait gives up. -/
def GaveUp (ports : List ℕ) (deadline : ℚ) (since : World) (turns : List Turn)
    (t : Waiting CatchUp) : WaitError → Prop
  | .stillBehind lagging => lagging ≠ [] ∧
    (∃ p, Asked ports deadline since turns t p lagging []) ∧
    ∃ now, deadline < now ∧ Turn.clock now ∈ turns
  | .raised e => ∃ stdout, Turn.answer stdout ∈ turns ∧ masterReplOffset stdout = .error e
  | .notSynced _ => False

/-- What is known at a point of the wait. -/
def Known (ports : List ℕ) (deadline : ℚ) (since : World) (turns : List Turn)
    (t : Waiting CatchUp) : Prop :=
  match t.point with
  | .askReplica primaryOffset lagging port rest =>
    ∃ p, primaryOffset = (p.world.stream.offset : ℤ) ∧
      Asked ports deadline since turns t p lagging (port :: rest)
  | .atDeadline lagging => lagging ≠ [] ∧ ∃ p, Asked ports deadline since turns t p lagging []
  | .returned => ∀ port ∈ ports, since.stream <+: t.world.processed port
  | .raised e => GaveUp ports deadline since turns t e
  | .askPrimary | .asleep => True

/-- What is known of a round stays so while the instances go on. -/
theorem Asked.snoc {turn : Turn} (h : Asked ports deadline since turns s p lagging rest)
    (hstep : CatchUpStep ports deadline s turn t) (hlater : s.world.Later t.world) :
    Asked ports deadline since (turns ++ [turn]) t p lagging rest where
  round  := h.round.snoc hstep
  asked  := h.asked
  begun  := h.begun
  later  := h.later.trans hlater
  left   := h.left
  caught := fun port hport => (h.caught port hport).imp_right fun hcaught =>
    hcaught.imp_right fun hcaught => hcaught.trans (hlater.2 port)
  behind := fun row hrow => by
    obtain ⟨hport, hpos, q, hq, hrest⟩ := h.behind row hrow
    exact ⟨hport, hpos, q, hq.snoc hstep, hrest⟩

theorem GaveUp.snoc {turn : Turn} {e : WaitError} (h : GaveUp ports deadline since turns s e)
    (hstep : CatchUpStep ports deadline s turn t) (hlater : s.world.Later t.world) :
    GaveUp ports deadline since (turns ++ [turn]) t e := by
  cases e with
  | stillBehind lagging =>
    obtain ⟨hsome, ⟨p, hp⟩, now, hpast, hnow⟩ := h
    exact ⟨hsome, ⟨p, hp.snoc hstep hlater⟩, now, hpast, List.mem_append_left _ hnow⟩
  | raised e =>
    obtain ⟨stdout, hstdout, hunread⟩ := h
    exact ⟨stdout, List.mem_append_left _ hstdout, hunread⟩
  | notSynced port => exact h

/-- The instances only make true more of it. -/
theorem known_later {point : CatchUp} {w w' : World}
    (hstep : CatchUpStep ports deadline ⟨point, w⟩ (.others w') ⟨point, w'⟩) (hlater : w.Later w')
    (h : Known ports deadline since turns ⟨point, w⟩) :
    Known ports deadline since (turns ++ [.others w']) ⟨point, w'⟩ := by
  cases point with
  | askReplica primaryOffset lagging port rest =>
    obtain ⟨p, hp, hasked⟩ := h
    exact ⟨p, hp, hasked.snoc hstep hlater⟩
  | atDeadline lagging =>
    obtain ⟨hsome, p, hasked⟩ := h
    exact ⟨hsome, p, hasked.snoc hstep hlater⟩
  | returned => exact fun port hport => (h port hport).trans (hlater.2 port)
  | raised e => exact GaveUp.snoc h hstep hlater
  | askPrimary => exact trivial
  | asleep => exact trivial

/-- A round that is over returns only when nobody was behind. -/
theorem known_loop {primaryOffset : ℤ} {w : World}
    (hp : primaryOffset = (p.world.stream.offset : ℤ))
    (h : Asked ports deadline since turns ⟨CatchUp.loop primaryOffset lagging rest, w⟩ p lagging
      rest) :
    Known ports deadline since turns ⟨CatchUp.loop primaryOffset lagging rest, w⟩ := by
  cases rest with
  | cons port rest => exact ⟨p, hp, h⟩
  | nil =>
    by_cases hnone : lagging = []
    · rw [CatchUp.loop, if_pos hnone]
      intro port hport
      rcases h.caught port hport with hleft | hlag | hcaught
      · cases hleft
      · rw [hnone] at hlag
        cases hlag
      · -- what the primary had at the call it still has at the beginning of the round
        exact h.begun.1.trans hcaught
    · rw [CatchUp.loop, if_neg hnone] at h ⊢
      exact ⟨hnone, p, h⟩

/-- A replica that has answered is named, or has all that the primary had. -/
theorem Asked.next {primaryOffset replicaOffset : ℤ} {port : ℕ}
    (h : Asked ports deadline since turns s p lagging (port :: rest))
    (hasks : s.point.asks = some (.replica port)) (hpassed : Passed ports deadline since turns s s)
    (hp : primaryOffset = (p.world.stream.offset : ℤ))
    (hoffset : replicaOffset = ((s.world.processed port).offset : ℤ)) :
    Asked ports deadline since turns s p
      (if replicaOffset < primaryOffset then lagging ++ [(port, primaryOffset - replicaOffset)]
        else lagging) rest where
  round  := h.round
  asked  := h.asked
  begun  := h.begun
  later  := h.later
  left   := fun q hq => h.left q (List.mem_cons_of_mem _ hq)
  caught := fun q hq => by
    rcases h.caught q hq with hleft | hlag | hcaught
    · rcases List.mem_cons.mp hleft with rfl | hrest
      · split
        · have hlast : (q, primaryOffset - replicaOffset) ∈
              lagging ++ [(q, primaryOffset - replicaOffset)] :=
            List.mem_append_right _ (List.mem_singleton_self _)
          exact .inr (.inl (List.mem_map_of_mem hlast))
        · -- its offset is not below that of the primary, and both are of one stream
          refine .inr (.inr (prefix_of_offset_le h.later.1 (s.world.isPrefix q) ?_))
          omega
      · exact .inl hrest
    · refine .inr (.inl ?_)
      obtain ⟨row, hrow, rfl⟩ := List.mem_map.mp hlag
      split
      · exact List.mem_map_of_mem (List.mem_append_left _ hrow)
      · exact List.mem_map_of_mem hrow
    · exact .inr (.inr hcaught)
  behind := fun row hrow => by
    split at hrow
    · next hbehind =>
      rcases List.mem_append.mp hrow with hold | hnew
      · exact h.behind row hold
      · obtain rfl := List.mem_singleton.mp hnew
        refine ⟨h.left port List.mem_cons_self, ?_, s, hpassed, hasks, h.later, ?_⟩
        · show 0 < primaryOffset - replicaOffset
          omega
        · show ((s.world.processed port).offset : ℤ) + (primaryOffset - replicaOffset) = _
          omega
    · exact h.behind row hrow

/-- The answer of the primary begins a round. -/
theorem known_asked {w : World} {stdout : String} {next : CatchUp}
    (hpassed : Passed ports deadline since turns ⟨.askPrimary, w⟩ ⟨.askPrimary, w⟩)
    (hbegun : since.Later w) (htells : w.Tells .primary stdout)
    (hnext : CatchUp.advance ports deadline .askPrimary (.answer stdout) = some next) :
    Known ports deadline since (turns ++ [.answer stdout]) ⟨next, w⟩ := by
  have hstep : CatchUpStep ports deadline ⟨.askPrimary, w⟩ (.answer stdout) ⟨next, w⟩ :=
    .answer rfl htells hnext
  rw [CatchUp.advance] at hnext
  cases hread : masterReplOffset stdout with
  | error e =>
    rw [hread] at hnext
    cases hnext
    exact ⟨stdout, List.mem_append_right _ (List.mem_singleton_self _), hread⟩
  | ok primaryOffset =>
    rw [hread] at hnext
    cases hnext
    have hasked : Asked ports deadline since turns ⟨.askPrimary, w⟩ ⟨.askPrimary, w⟩ [] ports :=
      ⟨hpassed, rfl, hbegun, .refl w, fun _ hport => hport, fun _ hport => .inl hport,
        fun _ hrow => by cases hrow⟩
    exact known_loop (htells.offset _ hread) (hasked.snoc hstep (.refl w))

/-- The answer of a replica goes on with it. -/
theorem known_next {w : World} {primaryOffset : ℤ} {port : ℕ} {stdout : String} {next : CatchUp}
    (hpassed : Passed ports deadline since turns ⟨.askReplica primaryOffset lagging port rest, w⟩
      ⟨.askReplica primaryOffset lagging port rest, w⟩)
    (htells : w.Tells (.replica port) stdout)
    (hnext : CatchUp.advance ports deadline (.askReplica primaryOffset lagging port rest)
      (.answer stdout) = some next)
    (h : Known ports deadline since turns ⟨.askReplica primaryOffset lagging port rest, w⟩) :
    Known ports deadline since (turns ++ [.answer stdout]) ⟨next, w⟩ := by
  have hstep : CatchUpStep ports deadline ⟨.askReplica primaryOffset lagging port rest, w⟩
      (.answer stdout) ⟨next, w⟩ := .answer rfl htells hnext
  obtain ⟨p, hp, hasked⟩ := h
  rw [CatchUp.advance] at hnext
  cases hread : masterReplOffset stdout with
  | error e =>
    rw [hread] at hnext
    cases hnext
    exact ⟨stdout, List.mem_append_right _ (List.mem_singleton_self _), hread⟩
  | ok replicaOffset =>
    rw [hread] at hnext
    cases hnext
    have hanswered := hasked.next rfl hpassed hp (htells.offset _ hread)
    exact known_loop hp (hanswered.snoc hstep (.refl w))

/-- The clock is read after a round in which somebody was behind. -/
theorem known_clock {w : World} {now : ℚ}
    (h : Known ports deadline since turns ⟨.atDeadline lagging, w⟩) :
    Known ports deadline since (turns ++ [.clock now])
      ⟨if deadline < now then .raised (.stillBehind lagging) else .asleep, w⟩ := by
  obtain ⟨hsome, p, hasked⟩ := h
  have hstep : CatchUpStep ports deadline ⟨.atDeadline lagging, w⟩ (.clock now)
      ⟨if deadline < now then .raised (.stillBehind lagging) else .asleep, w⟩ := .clock rfl
  have hnow : Turn.clock now ∈ turns ++ [.clock now] :=
    List.mem_append_right _ (List.mem_singleton_self _)
  by_cases hpast : deadline < now
  · rw [if_pos hpast] at hstep ⊢
    exact ⟨hsome, ⟨p, hasked.snoc hstep (.refl w)⟩, now, hpast, hnow⟩
  · rw [if_neg hpast]
    exact trivial

/-- **One turn** keeps what is known. -/
theorem inv_step {turn : Turn}
    (hrun : Run (CatchUpStep ports deadline) ⟨.askPrimary, since⟩ turns s)
    (hstep : CatchUpStep ports deadline s turn t)
    (h : since.Later s.world ∧ Known ports deadline since turns s) :
    since.Later t.world ∧ Known ports deadline since (turns ++ [turn]) t := by
  obtain ⟨hlater, hknown⟩ := h
  cases hstep with
  | others hmove => exact ⟨hlater.trans hmove, known_later (.others hmove) hmove hknown⟩
  | answer hasks htells hnext =>
    refine ⟨hlater, ?_⟩
    rcases CatchUp.asks_eq_some hasks with ⟨rfl, rfl⟩ | ⟨primaryOffset, lagging, port, rest, rfl, rfl⟩
    · exact known_asked hrun.through_end hlater htells hnext
    · exact known_next hrun.through_end htells hnext hknown
  | clock hnext =>
    obtain ⟨lagging, rfl, rfl⟩ := CatchUp.advance_clock hnext
    exact ⟨hlater, known_clock hknown⟩
  | wake hnext =>
    obtain ⟨rfl, rfl⟩ := CatchUp.advance_wake hnext
    exact ⟨hlater, trivial⟩

/-- **Every run** of a call: when it returns, every replica has processed the whole stream that
the primary had at the call. It gives up on an answer that cannot be read; or when the deadline
has passed, on replicas of the group each of which was behind by so much when it was asked, and
every other one has processed all that the primary had at the beginning of the round. -/
theorem caughtUp_holds
    (h : Run (CatchUpStep ports deadline) ⟨.askPrimary, since⟩ turns t) :
    (t.point = .returned → ∀ port ∈ ports, since.stream <+: t.world.processed port) ∧
      ∀ e, t.point = .raised e → GaveUp ports deadline since turns t e := by
  -- by induction on the run, with the turns so far: what is known speaks of the states passed
  have hinv : since.Later t.world ∧ Known ports deadline since turns t :=
    h.invariant_through (fun turns s => since.Later s.world ∧ Known ports deadline since turns s)
      ⟨.refl since, trivial⟩ fun _ _ _ _ hrun hstep => inv_step hrun hstep
  obtain ⟨-, hknown⟩ := hinv
  obtain ⟨point, w⟩ := t
  constructor
  · rintro rfl
    exact hknown
  · rintro e rfl
    exact hknown

/-! ### A replica that is behind at first -/

/-- Ten bytes of the stream, of which the replica has processed these. -/
def preloaded (replica : Stream) (h : replica <+: [⟨"SET key:1 v", 10, by decide⟩]) : World where
  stream    := [⟨"SET key:1 v", 10, by decide⟩]
  processed := fun _ => replica
  synced    := fun _ => true
  isPrefix  := fun _ => h

/-- What an instance prints that is synced. -/
def printed (offset : String) : String :=
  "# Replication\r\nmaster_link_status:up\r\nmaster_sync_in_progress:0\r\n" ++
    "master_repl_offset:" ++ offset

theorem printed_tells (node : Node) (w : World) (offset : String)
    (hoffset : masterReplOffset (printed offset) = .ok ((w.log node).offset : ℤ))
    (hlink : linkedUp (printed offset) = .ok true) (hsynced : ∀ port, w.synced port = true) :
    w.Tells node (printed offset) where
  offset := fun _ hread => Except.ok.inj (hread.symm.trans hoffset)
  linked := fun port _ _ hread =>
    (Except.ok.inj (hread.symm.trans hlink)).trans (hsynced port).symm

/-- The replica before it processes the command, and after. -/
def behindWorld : World := preloaded [] List.nil_prefix

def caughtWorld : World := preloaded _ List.prefix_rfl

/-- The replica is behind in the first round, and processes the command during the sleep. Where
the first round was too long, it is given up. -/
theorem caughtUp_holds_preloaded :
    (∃ turns t, Run (CatchUpStep [6380] 300) ⟨.askPrimary, behindWorld⟩ turns t ∧
      t.point = .returned ∧ ∀ port ∈ [6380], behindWorld.stream <+: t.world.processed port) ∧
    ∃ turns t, Run (CatchUpStep [6380] 300) ⟨.askPrimary, behindWorld⟩ turns t ∧
      GaveUp [6380] 300 behindWorld turns t (.stillBehind [(6380, 10)]) := by
  have hten : masterReplOffset (printed "10") = .ok 10 := by decide +kernel
  have hzero : masterReplOffset (printed "0") = .ok 0 := by decide +kernel
  have hup : ∀ offset ∈ ["10", "0"], linkedUp (printed offset) = .ok true := by decide +kernel
  have htells : behindWorld.Tells .primary (printed "10") :=
    printed_tells _ _ "10" hten (hup "10" (by decide)) fun _ => rfl
  have hbehind : behindWorld.Tells (.replica 6380) (printed "0") :=
    printed_tells _ _ "0" hzero (hup "0" (by decide)) fun _ => rfl
  have htells' : caughtWorld.Tells .primary (printed "10") :=
    printed_tells _ _ "10" hten (hup "10" (by decide)) fun _ => rfl
  have hthere : caughtWorld.Tells (.replica 6380) (printed "10") :=
    printed_tells _ _ "10" hten (hup "10" (by decide)) fun _ => rfl
  have hmove : behindWorld.Later caughtWorld := ⟨List.prefix_rfl, fun _ => List.nil_prefix⟩
  have hasked : ∀ w : World, w.Tells .primary (printed "10") →
      CatchUpStep [6380] 300 ⟨.askPrimary, w⟩ (.answer (printed "10"))
        ⟨.askReplica 10 [] 6380 [], w⟩ :=
    fun w h => .answer rfl h (by rw [CatchUp.advance, hten]; rfl)
  have hlag : CatchUpStep [6380] 300 ⟨.askReplica 10 [] 6380 [], behindWorld⟩
      (.answer (printed "0")) ⟨.atDeadline [(6380, 10)], behindWorld⟩ :=
    .answer rfl hbehind (by rw [CatchUp.advance, hzero]; rfl)
  have hearly : CatchUpStep [6380] 300 ⟨.atDeadline [(6380, 10)], behindWorld⟩ (.clock 1)
      ⟨.asleep, behindWorld⟩ := .clock (by decide +kernel)
  have hlast : CatchUpStep [6380] 300 ⟨.askReplica 10 [] 6380 [], caughtWorld⟩
      (.answer (printed "10")) ⟨.returned, caughtWorld⟩ :=
    .answer rfl hthere (by rw [CatchUp.advance, hten]; rfl)
  have hrun : Run (CatchUpStep [6380] 300) ⟨.askPrimary, behindWorld⟩ _ ⟨.returned, caughtWorld⟩ :=
    .cons (hasked _ htells) (.cons hlag (.cons hearly (.cons (.others hmove) (.cons (.wake rfl)
      (.cons (hasked _ htells') (.single hlast))))))
  have hlate : CatchUpStep [6380] 300 ⟨.atDeadline [(6380, 10)], behindWorld⟩ (.clock 301)
      ⟨.raised (.stillBehind [(6380, 10)]), behindWorld⟩ := .clock (by decide +kernel)
  have hrun' : Run (CatchUpStep [6380] 300) ⟨.askPrimary, behindWorld⟩ _
      ⟨.raised (.stillBehind [(6380, 10)]), behindWorld⟩ :=
    .cons (hasked _ htells) (.cons hlag (.single hlate))
  exact ⟨⟨_, _, hrun, rfl, (caughtUp_holds hrun).1 rfl⟩, _, _, hrun',
    (caughtUp_holds hrun').2 _ rfl⟩

end CatchingUp

/-! ## The first wait -/

section Syncing

variable {ports : List ℕ} {deadline : ℚ} {turns : List Turn} {w : World} {port : ℕ}

/-- The replica is still to be asked, or it never will be. -/
def SyncWait.Pending (port : ℕ) : SyncWait → Prop
  | ask p rest => port ∈ p :: rest
  | atDeadline p rest => port ∈ p :: rest
  | asleep p rest => port ∈ p :: rest
  | returned => False
  | raised _ => True

abbrev SyncStep (deadline : ℚ) : Waiting SyncWait → Turn → Waiting SyncWait → Prop :=
  Step SyncWait.asks (SyncWait.advance deadline)

theorem pending_loop {rest : List ℕ} (h : port ∈ rest) : (SyncWait.loop rest).Pending port := by
  cases rest with
  | nil => cases h
  | cons p rest => exact h

/-- A replica is done with when it says that it is synced. -/
theorem synced_of_passed {a b : Waiting SyncWait} {turn : Turn} (hstep : SyncStep deadline a turn b)
    (h : a.point.Pending port) (h' : ¬ b.point.Pending port) : a.world.synced port = true := by
  cases hstep with
  | others _ => exact absurd h h'
  | @answer point next w node stdout hasks htells hnext =>
    obtain ⟨p, rest, rfl, rfl⟩ := SyncWait.asks_eq_some hasks
    rw [SyncWait.advance] at hnext
    cases hread : linkedUp stdout with
    | error e =>
      rw [hread] at hnext
      cases hnext
      exact absurd trivial h'
    | ok up =>
      rw [hread] at hnext
      cases up with
      | false =>
        cases hnext
        exact absurd h h'
      | true =>
        cases hnext
        rcases List.mem_cons.mp h with rfl | hrest
        · -- this is the replica that has answered
          exact (htells.linked port true rfl hread).symm
        · exact absurd (pending_loop hrest) h'
  | @clock point next w now hnext =>
    obtain ⟨p, rest, rfl, rfl⟩ := SyncWait.advance_clock hnext
    refine absurd ?_ h'
    show SyncWait.Pending port (if deadline < now then _ else _)
    split
    · exact trivial
    · exact h
  | @wake point next w hnext =>
    obtain ⟨p, rest, rfl, rfl⟩ := SyncWait.advance_wake hnext
    exact absurd h h'

/-- **When the first wait returns**, every replica was synced at some turn of it. -/
theorem synced_each {t : Waiting SyncWait}
    (h : Run (SyncStep deadline) ⟨SyncWait.loop ports, w⟩ turns t)
    (hreturned : t.point = .returned) :
    ∀ port ∈ ports, ∃ a turn b, turn ∈ turns ∧ SyncStep deadline a turn b ∧
      a.world.synced port = true := by
  intro port hport
  obtain ⟨a, turn, b, hturn, hstep, hpending, hpassed⟩ :=
    h.crossing (P := fun s => s.point.Pending port) (pending_loop hport)
      (by rw [hreturned]; exact id)
  exact ⟨a, turn, b, hturn, hstep, synced_of_passed hstep hpending hpassed⟩

end Syncing

end Conductress.TopologyGroup
