import Mathlib.Algebra.GroupWithZero.Nat
import Mathlib.Data.List.Range
import Conductress.Base.Json
import Conductress.Lib.Except
import Conductress.Stormgen.StormConfig

/-!
# The client population over worker processes

`_run_clients`: the clients of a storm are split into contiguous slices, each
slice runs in a process of its own, and the processes stream their events as
lines over pipes that the parent reads to their end.

What becomes of a process is not the program's choice: `Fate` says how much of
its stream arrives, and whether the stream ends inside a message. The collector
takes the end of a stream for the end of the work, so a worker that dies between
two messages goes unnoticed: `complete_or_raises_iff`.

## Results

* `sliceBounds_ids`        — the slices are the clients, each in one slice.
* `receiveAll_sent`        — what the collector reads off one pipe.
* `complete_or_raises_iff` — when a storm is complete or raises.
* `lost_worker`            — two workers that are killed, and a storm of no events.
-/

namespace Conductress.Stormgen

open Lib

/-! ## Slices -/

/-- `range(start, stop)`. -/
structure Slice where
  start : ℕ
  stop  : ℕ
  deriving DecidableEq, Repr

namespace Slice

/-- The clients of the slice. -/
def ids (s : Slice) : List ℕ := List.range' s.start (s.stop - s.start)

/-- `not bounds`. -/
def isEmpty (s : Slice) : Bool := decide (s.stop ≤ s.start)

end Slice

/-- The loop over the workers that are left, `w` of them placed. -/
def boundsFrom (base extra : ℕ) : ℕ → ℕ → ℕ → List Slice
  | 0, _, _ => []
  | left + 1, w, start =>
    let size := base + if w < extra then 1 else 0
    ⟨start, start + size⟩ :: boundsFrom base extra left (w + 1) (start + size)

/-- `_slice_bounds`. -/
def sliceBounds (total workers : ℕ) : List Slice :=
  let workers := if total = 0 then 1 else max 1 (min workers total)
  boundsFrom (total / workers) (total % workers) workers 0 0

/-- What the workers that are left take, after `w` of them. -/
def shareFrom (base extra left w : ℕ) : ℕ := left * base + (min (w + left) extra - min w extra)

theorem boundsFrom_ids (base extra left w start : ℕ) :
    (boundsFrom base extra left w start).flatMap Slice.ids =
      List.range' start (shareFrom base extra left w) := by
  induction left generalizing w start with
  | zero => simp [boundsFrom, shareFrom]
  | succ left ih =>
    have hshare : shareFrom base extra (left + 1) w =
        (base + if w < extra then 1 else 0) + shareFrom base extra left (w + 1) := by
      unfold shareFrom
      rw [Nat.succ_mul]
      split <;> omega
    rw [hshare, boundsFrom, List.flatMap_cons, ih, ← List.range'_append_1]
    simp [Slice.ids]

/-- Every client is in exactly one slice. -/
theorem sliceBounds_ids (total workers : ℕ) :
    (sliceBounds total workers).flatMap Slice.ids = List.range total := by
  have hshare : ∀ n, 0 < n → shareFrom (total / n) (total % n) n 0 = total := by
    intro n hn
    have hmod : total % n < n := Nat.mod_lt _ hn
    have hdiv : n * (total / n) + total % n = total := Nat.div_add_mod total n
    unfold shareFrom
    omega
  rw [sliceBounds, boundsFrom_ids, hshare, List.range_eq_range']
  split <;> omega

/-! ## A worker -/

/-- A line of a worker's stream: the dictionary of an attempt, or the counters
of the slice under `__summary__`. -/
inductive Record (Event : Type) where
  | attempt (event : Event)
  | summary (herdCommandsOk : ℕ)

/-- `json.dumps` and `json.loads` on the dictionaries of a stream: a text is on
one line, and loads as what it was dumped from. -/
structure LineText (Event : Type) where
  dumps       : Record Event → List Char
  loads       : List Char → Except PyError (Record Event)
  loads_dumps : ∀ r, loads (dumps r) = .ok r
  one_line    : ∀ r, '\n' ∉ dumps r
  not_blank   : ∀ r, (dumps r).all PyText.isSpace = false

/-- What running clients gives: the events, and the commands of the active herd
that were answered. -/
structure Events (Event : Type) where
  events         : List Event
  herdCommandsOk : ℕ

/-- What becomes of a worker's stream: how many messages get into the pipe
whole, and whether a part of the next one does. -/
structure Fate where
  delivered : ℕ
  torn      : Bool

/-- A pipe as the parent finds it once the worker is gone. -/
structure Pipe where
  messages : List (List Char)
  torn     : Bool

section Worker

variable {Event : Type} (text : LineText Event)

/-- The bytes of one `send_bytes`. -/
def frame (r : Record Event) : List Char := text.dumps r ++ ['\n']

/-- The lines a worker has to send. -/
def sent : Except PyError (Events Event) → List (Record Event)
  | .ok out => out.events.map .attempt ++ [.summary out.herdCommandsOk]
  | .error _ => []

/-- `_worker_main`, as far as its process gets. -/
def workerMain (run : Except PyError (Events Event)) (fate : Fate) : Pipe where
  messages := ((sent run).take fate.delivered).map (frame text)
  torn     := fate.torn && decide (fate.delivered < (sent run).length)

/-! ## The collector -/

/-- One line of a stream. -/
def onLine (acc : Events Event) (line : List Char) : Except PyError (Events Event) :=
  if line.all PyText.isSpace then .ok acc
  else (text.loads line).map fun
    | .summary herdCommandsOk => { acc with herdCommandsOk := acc.herdCommandsOk + herdCommandsOk }
    | .attempt event => { acc with events := acc.events ++ [event] }

/-- One `recv_bytes`: the lines that the buffer completes are taken off it. -/
def onChunk (state : List Char × Events Event) (chunk : List Char) :
    Except PyError (List Char × Events Event) :=
  let pieces := (state.1 ++ chunk).splitOn '\n'
  (pieces.dropLast.foldlM (onLine text) state.2).map fun acc => (pieces.getLastD [], acc)

/-- The loop over one connection. Its end between two messages is an `EOFError`,
which ends the loop; an end inside a message is an `OSError`. -/
def receiveAll (acc : Events Event) (pipe : Pipe) : Except PyError (Events Event) := do
  let (_, acc) ← pipe.messages.foldlM (onChunk text) ([], acc)
  if pipe.torn then throw (.osError "got end of file during message") else pure acc

/-- `_collect_events`. The processes are joined after it, and their exit codes
are not looked at. -/
def collectEvents (pipes : List Pipe) : Except PyError (Events Event) :=
  pipes.foldlM (receiveAll text) ⟨[], 0⟩

/-- What the parent has after the given lines. -/
def absorb : Events Event → List (Record Event) → Events Event
  | acc, [] => acc
  | acc, .attempt event :: rest => absorb { acc with events := acc.events ++ [event] } rest
  | acc, .summary herdCommandsOk :: rest =>
    absorb { acc with herdCommandsOk := acc.herdCommandsOk + herdCommandsOk } rest

/-- A message is one line, and leaves the buffer empty. -/
theorem onChunk_frame (acc : Events Event) (r : Record Event) :
    onChunk text ([], acc) (frame text r) = .ok ([], absorb acc [r]) := by
  have hsplit : (frame text r).splitOn '\n' = [text.dumps r, []] := by
    rw [frame, List.splitOn_append_cons_self_of_not_mem (text.one_line r)]
    rfl
  have hline : onLine text acc (text.dumps r) = .ok (absorb acc [r]) := by
    rw [onLine, text.not_blank r, text.loads_dumps r]
    rcases r with event | n <;> rfl
  rw [onChunk, List.nil_append, hsplit]
  show Except.map _ (List.foldlM (onLine text) acc [text.dumps r]) = _
  rw [List.foldlM_cons, hline]
  rfl

theorem foldlM_onChunk (acc : Events Event) (rs : List (Record Event)) :
    (rs.map (frame text)).foldlM (onChunk text) ([], acc) = .ok ([], absorb acc rs) := by
  induction rs generalizing acc with
  | nil => rfl
  | cons r rs ih =>
    rw [List.map_cons, List.foldlM_cons, onChunk_frame]
    show (rs.map (frame text)).foldlM (onChunk text) ([], absorb acc [r]) = _
    rw [ih]
    rcases r with event | n <;> rfl

/-- What the collector reads off one pipe. -/
theorem receiveAll_sent (acc : Events Event) (rs : List (Record Event)) (torn : Bool) :
    receiveAll text acc ⟨rs.map (frame text), torn⟩ =
      if torn then .error (.osError "got end of file during message")
      else .ok (absorb acc rs) := by
  rw [receiveAll, foldlM_onChunk]
  rfl

end Worker

/-! ## The storm -/

/-- A storm's configuration, with `os.cpu_count()` where it is run. -/
structure HostedConfig extends Overlay.StormConfig where
  cpuCount : Option ℕ

namespace HostedConfig

def defaultMaxWorkers : ℕ := 8

/-- The length of `range(config.clients)`. -/
def clientCount (config : HostedConfig) : ℕ := config.clients.toNat

/-- `default_workers`. -/
def defaultWorkers (config : HostedConfig) : ℕ :=
  min defaultMaxWorkers ((config.cpuCount.filter (· ≠ 0)).getD 1)

/-- `resolved_workers`. -/
def resolvedWorkers (config : HostedConfig) : ℕ :=
  if 0 < config.workers then config.workers.toNat else config.defaultWorkers

/-- The slices that are run: one in this process, or one for each worker that
has clients. -/
def slices (config : HostedConfig) : List Slice :=
  if config.resolvedWorkers ≤ 1 then [⟨0, config.clientCount⟩]
  else (sliceBounds config.clientCount config.resolvedWorkers).filter fun s => !s.isEmpty

/-- Leaving the empty slices out leaves no client out. -/
theorem flatMap_ids_filter (slices : List Slice) :
    (slices.filter fun s => !s.isEmpty).flatMap Slice.ids = slices.flatMap Slice.ids := by
  induction slices with
  | nil => rfl
  | cons s rest ih =>
    by_cases h : s.stop ≤ s.start
    · have hids : s.ids = [] := by simp [Slice.ids, Nat.sub_eq_zero_of_le h]
      rw [List.filter_cons_of_neg (by simp [Slice.isEmpty, h]), ih, List.flatMap_cons, hids,
        List.nil_append]
    · rw [List.filter_cons_of_pos (by simp [Slice.isEmpty, h]), List.flatMap_cons,
        List.flatMap_cons, ih]

/-- The slices that are run hold every client once. -/
theorem slices_ids (config : HostedConfig) :
    config.slices.flatMap Slice.ids = List.range config.clientCount := by
  unfold slices
  split
  · simp [Slice.ids, List.range_eq_range']
  · rw [flatMap_ids_filter, sliceBounds_ids]

end HostedConfig

section Storm

variable {Event : Type} (text : LineText Event)
  (run : Slice → Except PyError (Events Event)) (fate : Slice → Fate)

/-- `_run_multiprocess`. -/
def runMultiprocess (config : HostedConfig) : Except PyError (Events Event) :=
  collectEvents text (config.slices.map fun s => workerMain text (run s) (fate s))

/-- `_run_clients`. -/
def runClients (config : HostedConfig) : Except PyError (Events Event) :=
  if config.resolvedWorkers ≤ 1 then run ⟨0, config.clientCount⟩
  else runMultiprocess text run fate config

/-- The events of all slices, with the counters summed. -/
def total (outs : List (Events Event)) : Events Event where
  events         := outs.flatMap Events.events
  herdCommandsOk := (outs.map Events.herdCommandsOk).sum

/-- What is returned is what all the slices gave. -/
def CompleteOrRaises (slices : List Slice) (result : Except PyError (Events Event)) : Prop :=
  ∀ got, result = .ok got → ∃ outs, slices.mapM run = .ok outs ∧ got = total outs

/-- The stream ends inside a message. -/
def Torn (run : Except PyError (Events Event)) (fate : Fate) : Prop :=
  fate.torn = true ∧ fate.delivered < (sent run).length

/-- The slice ran, and its lines got into the pipe; a summary of no commands may
be missing. -/
def Whole (run : Except PyError (Events Event)) (fate : Fate) : Prop :=
  ∃ out, run = .ok out ∧ out.events.length ≤ fate.delivered ∧
    (out.events.length < fate.delivered ∨ out.herdCommandsOk = 0)

/-! ### What arrives -/

/-- What gets through of what a slice gave. -/
def arrived (run : Except PyError (Events Event)) (fate : Fate) : Events Event :=
  match run with
  | .ok out => ⟨out.events.take fate.delivered,
      if out.events.length < fate.delivered then out.herdCommandsOk else 0⟩
  | .error _ => ⟨[], 0⟩

theorem absorb_append (acc : Events Event) (rs rs' : List (Record Event)) :
    absorb acc (rs ++ rs') = absorb (absorb acc rs) rs' := by
  induction rs generalizing acc with
  | nil => rfl
  | cons r rs ih => rcases r with event | n <;> exact ih _

theorem absorb_attempts (acc : Events Event) (events : List Event) :
    absorb acc (events.map .attempt) = { acc with events := acc.events ++ events } := by
  induction events generalizing acc with
  | nil => simp [absorb]
  | cons event events ih =>
    rw [List.map_cons, absorb, ih, List.append_assoc]
    rfl

theorem absorb_sent (acc : Events Event) (o : Except PyError (Events Event)) (f : Fate) :
    absorb acc ((sent o).take f.delivered) =
      ⟨acc.events ++ (arrived o f).events, acc.herdCommandsOk + (arrived o f).herdCommandsOk⟩ := by
  rcases o with e | out
  · simp [sent, arrived, absorb]
  · rw [sent, List.take_append, absorb_append, ← List.map_take, absorb_attempts, List.length_map]
    by_cases h : out.events.length < f.delivered
    · have hone : ∀ r : Record Event, List.take (f.delivered - out.events.length) [r] = [r] :=
        fun r => List.take_of_length_le (by simp; omega)
      rw [hone]
      simp [absorb, arrived, h]
    · have hnone : f.delivered - out.events.length = 0 := by omega
      rw [hnone]
      simp [absorb, arrived, h]

/-- One connection: an error when its stream is torn, and what arrived if not. -/
theorem receiveAll_workerMain (acc : Events Event) (o : Except PyError (Events Event)) (f : Fate) :
    (Torn o f → ∃ e, receiveAll text acc (workerMain text o f) = .error e) ∧
    (¬ Torn o f → receiveAll text acc (workerMain text o f) =
      .ok ⟨acc.events ++ (arrived o f).events,
        acc.herdCommandsOk + (arrived o f).herdCommandsOk⟩) := by
  have htorn : (f.torn && decide (f.delivered < (sent o).length)) = true ↔ Torn o f := by
    simp [Torn]
  rw [workerMain, receiveAll_sent, absorb_sent]
  constructor
  · intro h
    exact ⟨_, if_pos (htorn.mpr h)⟩
  · intro h
    exact if_neg fun ht => h (htorn.mp ht)

theorem collect_torn (slices : List Slice) (acc : Events Event)
    (h : ∃ s ∈ slices, Torn (run s) (fate s)) :
    ∃ e, (slices.map fun s => workerMain text (run s) (fate s)).foldlM (receiveAll text) acc =
      .error e := by
  induction slices generalizing acc with
  | nil => obtain ⟨s, hs, -⟩ := h; exact absurd hs List.not_mem_nil
  | cons s rest ih =>
    rw [List.map_cons, List.foldlM_cons]
    have hone := receiveAll_workerMain text acc (run s) (fate s)
    by_cases hs : Torn (run s) (fate s)
    · obtain ⟨e, he⟩ := hone.1 hs
      exact ⟨e, by rw [he]; rfl⟩
    · rw [hone.2 hs]
      apply ih
      obtain ⟨s', hs', htorn⟩ := h
      rcases List.mem_cons.mp hs' with rfl | hrest
      · exact absurd htorn hs
      · exact ⟨s', hrest, htorn⟩

theorem collect_arrived (slices : List Slice) (acc : Events Event)
    (h : ∀ s ∈ slices, ¬ Torn (run s) (fate s)) :
    (slices.map fun s => workerMain text (run s) (fate s)).foldlM (receiveAll text) acc =
      .ok ⟨acc.events ++ (total (slices.map fun s => arrived (run s) (fate s))).events,
        acc.herdCommandsOk + (total (slices.map fun s => arrived (run s) (fate s))).herdCommandsOk⟩ := by
  induction slices generalizing acc with
  | nil => simp [total, pure, Except.pure]
  | cons s rest ih =>
    rw [List.forall_mem_cons] at h
    rw [List.map_cons, List.foldlM_cons, (receiveAll_workerMain text acc (run s) (fate s)).2 h.1]
    refine (ih _ h.2).trans ?_
    simp [total, Nat.add_assoc]

/-! ### What is missing -/

/-- What arrives is no more than what was there, and as much only when every
stream is whole. -/
theorem total_arrived (slices : List Slice) (outs : List (Events Event))
    (h : slices.mapM run = .ok outs) :
    (total (slices.map fun s => arrived (run s) (fate s))).events.length ≤ (total outs).events.length ∧
    (total (slices.map fun s => arrived (run s) (fate s))).herdCommandsOk ≤ (total outs).herdCommandsOk ∧
    (total (slices.map fun s => arrived (run s) (fate s)) = total outs ↔
      ∀ s ∈ slices, Whole (run s) (fate s)) := by
  induction slices generalizing outs with
  | nil =>
    have houts : [] = outs := by simpa [pure, Except.pure] using h
    simp [← houts]
  | cons s rest ih =>
    rw [List.mapM_cons] at h
    obtain ⟨out, hout, h⟩ := except_bind_ok.mp h
    obtain ⟨outs', hrest, h⟩ := except_bind_ok.mp h
    obtain rfl : out :: outs' = outs := by simpa [pure, Except.pure] using h
    obtain ⟨hevents, hherd, hiff⟩ := ih outs' hrest
    have hwhole : Whole (run s) (fate s) ↔ out.events.length ≤ (fate s).delivered ∧
        (out.events.length < (fate s).delivered ∨ out.herdCommandsOk = 0) := by
      simp [Whole, hout]
    simp only [total, List.map_cons, List.flatMap_cons, List.sum_cons, List.length_append,
      Events.mk.injEq, List.forall_mem_cons, hwhole, ← hiff] at hevents hherd ⊢
    generalize (rest.map fun s => arrived (run s) (fate s)) = got at *
    have hlen : (arrived (run s) (fate s)).events.length = min (fate s).delivered out.events.length := by
      simp [arrived, hout]
    have hcount : (arrived (run s) (fate s)).herdCommandsOk =
        if out.events.length < (fate s).delivered then out.herdCommandsOk else 0 := by
      simp [arrived, hout]
    have hle : (arrived (run s) (fate s)).herdCommandsOk ≤ out.herdCommandsOk := by
      rw [hcount]
      split <;> omega
    refine ⟨by omega, by omega, ?_⟩
    constructor
    · rintro ⟨he, hh⟩
      -- nothing is missing overall, so nothing is missing of this slice
      have hlens := congrArg List.length he
      simp only [List.length_append] at hlens
      have hall : out.events.length ≤ (fate s).delivered := by omega
      have hsame : (arrived (run s) (fate s)).events = out.events := by
        simp [arrived, hout, List.take_of_length_le hall]
      rw [hsame] at he
      refine ⟨⟨hall, ?_⟩, List.append_cancel_left he, by omega⟩
      by_cases hlt : out.events.length < (fate s).delivered
      · exact .inl hlt
      · rw [if_neg hlt] at hcount
        exact .inr (by omega)
    · rintro ⟨⟨hall, hsum⟩, he, hh⟩
      have hsame : (arrived (run s) (fate s)).events = out.events := by
        simp [arrived, hout, List.take_of_length_le hall]
      have hnum : (arrived (run s) (fate s)).herdCommandsOk = out.herdCommandsOk := by
        rw [hcount]
        split
        · rfl
        · omega
      rw [hsame, hnum, he, hh]
      exact ⟨rfl, rfl⟩

theorem mapM_of_whole (slices : List Slice) (h : ∀ s ∈ slices, Whole (run s) (fate s)) :
    ∃ outs, slices.mapM run = .ok outs := by
  rw [except_mapM_ok]
  intro s hs
  obtain ⟨out, hout, -⟩ := h s hs
  exact ⟨out, hout⟩

/-- The clients are in one slice each, and the storm is complete or raises
exactly when it runs in this process, a stream ends inside a message, or all of
them are whole. -/
theorem complete_or_raises_iff (config : HostedConfig) :
    config.slices.flatMap Slice.ids = List.range config.clientCount ∧
    (CompleteOrRaises run config.slices (runClients text run fate config) ↔
      config.resolvedWorkers ≤ 1 ∨ (∃ s ∈ config.slices, Torn (run s) (fate s)) ∨
        ∀ s ∈ config.slices, Whole (run s) (fate s)) := by
  refine ⟨config.slices_ids, ?_⟩
  by_cases hone : config.resolvedWorkers ≤ 1
  · -- in this process an error is raised as it is
    refine iff_of_true ?_ (.inl hone)
    intro got hgot
    rw [runClients, if_pos hone] at hgot
    rw [HostedConfig.slices, if_pos hone]
    refine ⟨[got], ?_, by simp [total]⟩
    rw [List.mapM_cons, hgot]
    rfl
  · rw [or_iff_right hone, runClients, if_neg hone, runMultiprocess, collectEvents]
    by_cases htorn : ∃ s ∈ config.slices, Torn (run s) (fate s)
    · obtain ⟨e, he⟩ := collect_torn text run fate config.slices ⟨[], 0⟩ htorn
      refine iff_of_true ?_ (.inl htorn)
      intro got hgot
      rw [he] at hgot
      cases hgot
    · have hnone : ∀ s ∈ config.slices, ¬ Torn (run s) (fate s) := by
        intro s hs ht
        exact htorn ⟨s, hs, ht⟩
      rw [or_iff_right htorn, CompleteOrRaises, collect_arrived text run fate _ _ hnone]
      simp only [List.nil_append, Nat.zero_add, Except.ok.injEq]
      constructor
      · intro h
        obtain ⟨outs, houts, htotal⟩ := h _ rfl
        exact (total_arrived run fate _ outs houts).2.2.mp htotal
      · rintro h got rfl
        obtain ⟨outs, houts⟩ := mapM_of_whole run fate _ h
        exact ⟨outs, houts, (total_arrived run fate _ outs houts).2.2.mpr h⟩

end Storm

/-! ## Two workers that are killed -/

namespace TwoWorkers

def attemptStart : List Char := "\x7b\"client_id\": ".toList

def summaryStart : List Char := "\x7b\"__summary__\": \x7b\"herd_commands_ok\": ".toList

def number (digits : List Char) : Except PyError ℕ :=
  if digits.all Char.isDigit then .ok (Nat.ofDigitChars 10 digits 0)
  else .error (.valueError "Expecting value")

/-- An event is known by its client here. -/
def dumps : Record ℕ → List Char
  | .attempt client => attemptStart ++ (Nat.toDigits 10 client ++ ['\x7d'])
  | .summary n => summaryStart ++ (Nat.toDigits 10 n ++ ['\x7d', '\x7d'])

def loads (line : List Char) : Except PyError (Record ℕ) :=
  if (line.drop 2).head? = some 'c' then
    (number ((line.drop attemptStart.length).dropLast)).map .attempt
  else (number ((line.drop summaryStart.length).dropLast.dropLast)).map .summary

theorem number_digits (n : ℕ) : number (Nat.toDigits 10 n) = .ok n := by
  have hdigits : (Nat.toDigits 10 n).all Char.isDigit = true :=
    List.all_eq_true.mpr fun _ hc => Nat.isDigit_of_mem_toDigits (by omega) (by omega) hc
  rw [number, if_pos hdigits, Nat.ofDigitChars_ten_toDigits]

theorem newline_not_mem_digits (n : ℕ) : '\n' ∉ Nat.toDigits 10 n := by
  intro h
  have hdigit := Nat.isDigit_of_mem_toDigits (by omega) (by omega) h
  exact absurd hdigit (by decide)

theorem loads_dumps (r : Record ℕ) : loads (dumps r) = .ok r := by
  rcases r with client | n
  · have hkind : ((dumps (.attempt client)).drop 2).head? = some 'c' := by
      rw [dumps, List.drop_append_of_le_length (by decide)]
      rfl
    rw [loads, if_pos hkind, dumps, List.drop_left, List.dropLast_concat, number_digits]
    rfl
  · have hkind : ((dumps (.summary n)).drop 2).head? ≠ some 'c' := by
      rw [dumps, List.drop_append_of_le_length (by decide)]
      exact fun h => absurd (Option.some.inj h) (by decide)
    have htwo : Nat.toDigits 10 n ++ ['\x7d', '\x7d'] =
        (Nat.toDigits 10 n ++ ['\x7d']) ++ ['\x7d'] := by
      rw [List.append_assoc]
      rfl
    rw [loads, if_neg hkind, dumps, List.drop_left, htwo, List.dropLast_concat,
      List.dropLast_concat, number_digits]
    rfl

/-- The JSON text of these dictionaries. -/
def text : LineText ℕ where
  dumps := dumps
  loads := loads
  loads_dumps := loads_dumps
  one_line r := by
    rcases r with client | n
    all_goals
      simp only [dumps, List.mem_append, not_or]
      exact ⟨by decide, newline_not_mem_digits _, by decide⟩
  not_blank r := by
    have hattempt : attemptStart.all PyText.isSpace = false := by decide
    have hsummary : summaryStart.all PyText.isSpace = false := by decide
    rcases r with client | n
    · rw [dumps, List.all_append, hattempt, Bool.false_and]
    · rw [dumps, List.all_append, hsummary, Bool.false_and]

/-- Two clients, a worker for each. -/
def config : HostedConfig where
  host             := "10.0.0.1"
  port             := 6379
  clients          := 2
  burstMs          := 0
  durationS        := .finite 1
  connectTimeoutMs := .finite 1000
  replyTimeoutMs   := .finite 1000
  policySpec       := "fixed:100"
  workers          := 2
  cpuCount         := none

/-- Every client makes one attempt. -/
def run (s : Slice) : Except PyError (Events ℕ) := .ok ⟨s.ids, 0⟩

/-- The processes are killed before they send anything. -/
def fate (_ : Slice) : Fate := ⟨0, false⟩

end TwoWorkers

open TwoWorkers in
/-- Both workers are killed, and `_run_clients` returns a storm without events. -/
theorem lost_worker :
    ¬ ∀ (Event : Type) (text : LineText Event) (run : Slice → Except PyError (Events Event))
      (fate : Slice → Fate) (config : HostedConfig),
      CompleteOrRaises run config.slices (runClients text run fate config) := by
  intro h
  have hresult : runClients text run fate config = .ok ⟨[], 0⟩ := rfl
  obtain ⟨outs, houts, htotal⟩ := h ℕ text run fate config _ hresult
  have hran : config.slices.mapM run = .ok [⟨[0], 0⟩, ⟨[1], 0⟩] := rfl
  obtain rfl : [⟨[0], 0⟩, ⟨[1], 0⟩] = outs := Except.ok.inj (hran.symm.trans houts)
  cases htotal

end Conductress.Stormgen
