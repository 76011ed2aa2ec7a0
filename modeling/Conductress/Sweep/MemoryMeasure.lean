import Mathlib.Tactic.Linarith
import Mathlib.Algebra.Order.Field.Rat
import Conductress.Lib.Transition
import Conductress.Sweep.PopulatedServer

/-!
# Memory that has settled

A memory task may wait before it samples: `quiesce_until_stable` polls the memory in use until it
has a plateau, and `settle_rehash` reads every item, up to three times, until no table is being
rehashed.

* `quiesced` — the wait ends at the first plateau there is, or when the time is over;
* `settleRehash_spec` — where `settle_rehash` ends, and with what;
* `settled_items` — after a fill it has looked every item up as often as it says it has.
-/

namespace Conductress.Sweep

open Lib

/-! ## The plateau -/

/-- The last elements of a list: what a `deque` with a `maxlen` holds after it. -/
def lastOf {α : Type*} (n : ℕ) (l : List α) : List α := l.drop (l.length - n)

/-- `window.append(value)`. -/
def pushWindow (maxlen : ℕ) (window : List ℤ) (value : ℤ) : List ℤ :=
  lastOf maxlen (window ++ [value])

/-- `_window_stable`. -/
def windowStable (samples : List ℤ) (relEps : ℚ) : Bool :=
  match samples.max?, samples.min? with
  | some most, some least =>
    decide (((most - least : ℤ) : ℚ) ≤ max 1 ((samples.sum : ℚ) / samples.length) * relEps)
  | _, _ => false

/-- The arguments of `quiesce_until_stable`. -/
structure Quiesce where
  interval      : ℚ
  stableSamples : ℕ
  relEps        : ℚ
  maxSeconds    : ℚ

/-- `SETTLE_POLL_INTERVAL_S` and so on. -/
def settleDefaults : Quiesce := ⟨1, 3, 1 / 1000, 180⟩

/-- The variables of the loop. -/
structure Polling where
  value   : ℤ
  window  : List ℤ
  elapsed : ℚ
  deriving DecidableEq

namespace Quiesce

variable (q : Quiesce)

def maxlen : ℕ := q.stableSamples + 1

/-- A turn of the loop. -/
def poll (p : Polling) (value : ℤ) : Polling where
  value   := value
  window  := pushWindow q.maxlen p.window value
  elapsed := p.elapsed + q.interval

def stable (p : Polling) : Bool :=
  decide (p.window.length = q.maxlen) && windowStable p.window q.relEps

/-- The loop, on what `sample_fn` returns from here on; `none` while it waits for more. -/
def pollFrom : Polling → List ℤ → Option Polling
  | p, [] => if p.elapsed < q.maxSeconds then none else some p
  | p, value :: readings =>
    if p.elapsed < q.maxSeconds then
      if q.stable (q.poll p value) then some (q.poll p value)
      else pollFrom (q.poll p value) readings
    else some p

/-- `quiesce_until_stable`. -/
def quiesceUntilStable : List ℤ → Option Polling
  | [] => none
  | value :: readings => q.pollFrom ⟨value, pushWindow q.maxlen [] value, 0⟩ readings

end Quiesce

/-- Pushing keeps the last elements. -/
theorem pushWindow_lastOf {n : ℕ} (l : List ℤ) (v : ℤ) :
    pushWindow n (lastOf n l) v = lastOf n (l ++ [v]) := by
  unfold pushWindow lastOf
  rw [← List.drop_append_of_le_length (Nat.sub_le _ _), List.drop_drop]
  congr 1
  rw [List.length_drop, List.length_append, List.length_singleton]
  omega

section Plateau

variable {q : Quiesce} {readings : List ℤ} {p : Polling}

/-- The readings up to one of them, in the loop. -/
def Quiesce.after (q : Quiesce) (seen : List ℤ) : Polling where
  value   := seen.getLastD 0
  window  := lastOf q.maxlen seen
  elapsed := (seen.length - 1) * q.interval

/-- The last readings up to one are all there, and close to each other. -/
def Quiesce.Plateau (q : Quiesce) (readings : List ℤ) (k : ℕ) : Prop :=
  q.stableSamples ≤ k ∧ windowStable (lastOf q.maxlen (readings.take (k + 1))) q.relEps = true

/-- How the wait has ended, after a number of polls. -/
structure Quiesced (q : Quiesce) (readings : List ℤ) (k : ℕ) (p : Polling) : Prop where
  value   : readings[k]? = some p.value
  elapsed : p.elapsed = k * q.interval
  ended   : q.maxSeconds ≤ k * q.interval ∨ 0 < k ∧ q.Plateau readings k
  first   : ∀ j < k, j * q.interval < q.maxSeconds ∧ (0 < j → ¬ q.Plateau readings j)

theorem poll_after {seen : List ℤ} (v : ℤ) : q.poll (q.after seen) v = q.after (seen ++ [v]) := by
  unfold Quiesce.poll Quiesce.after
  rw [pushWindow_lastOf, List.getLastD_concat, List.length_append, List.length_singleton]
  congr 1
  push_cast
  ring

theorem stable_after {seen : List ℤ} (hseen : seen ≠ []) (rest : List ℤ) :
    q.stable (q.after seen) = true ↔ q.Plateau (seen ++ rest) (seen.length - 1) := by
  have hpos := List.length_pos_of_ne_nil hseen
  have htake : (seen ++ rest).take (seen.length - 1 + 1) = seen := by
    rw [Nat.sub_add_cancel hpos, List.take_left]
  unfold Quiesce.stable Quiesce.Plateau
  rw [htake, Bool.and_eq_true, decide_eq_true_iff]
  refine and_congr_left fun _ => ?_
  show (lastOf q.maxlen seen).length = q.maxlen ↔ _
  rw [lastOf, List.length_drop, Quiesce.maxlen]
  omega

/-- Where the loop stops after some readings. -/
theorem quiesced_after {seen : List ℤ} (hseen : seen ≠ []) (rest : List ℤ)
    (hended : q.maxSeconds ≤ (q.after seen).elapsed ∨
      0 < seen.length - 1 ∧ q.Plateau (seen ++ rest) (seen.length - 1))
    (hbefore : ∀ j < seen.length - 1,
      j * q.interval < q.maxSeconds ∧ (0 < j → ¬ q.Plateau (seen ++ rest) j)) :
    Quiesced q (seen ++ rest) (seen.length - 1) (q.after seen) := by
  have hpos := List.length_pos_of_ne_nil hseen
  have helapsed : (q.after seen).elapsed = ((seen.length - 1 : ℕ) : ℚ) * q.interval := by
    rw [Nat.cast_sub hpos, Nat.cast_one]
    rfl
  refine ⟨?_, helapsed, hended.imp_left helapsed.le.trans', hbefore⟩
  rw [List.getElem?_append_left (by omega), ← List.getLast?_eq_getElem?]
  show _ = some (seen.getLastD 0)
  rw [List.getLastD_eq_getLast?, List.getLast?_eq_some_getLast hseen, Option.getD_some]

/-- The loop after some readings, of which none has ended it. -/
theorem pollFrom_quiesced {seen rest : List ℤ} (hseen : seen ≠ [])
    (hbefore : ∀ j < seen.length - 1,
      j * q.interval < q.maxSeconds ∧ (0 < j → ¬ q.Plateau (seen ++ rest) j))
    (hnot : 0 < seen.length - 1 → ¬ q.Plateau (seen ++ rest) (seen.length - 1))
    (h : q.pollFrom (q.after seen) rest = some p) : ∃ k, Quiesced q (seen ++ rest) k p := by
  induction rest generalizing seen with
  | nil =>
    rw [Quiesce.pollFrom] at h
    split at h
    · cases h
    · next hover =>
      cases h
      exact ⟨_, quiesced_after hseen [] (.inl (not_lt.mp hover)) hbefore⟩
  | cons v rest ih =>
    rw [Quiesce.pollFrom, poll_after] at h
    split at h
    · next hrunning =>
      have hpos := List.length_pos_of_ne_nil hseen
      have hlength : (seen ++ [v]).length - 1 = seen.length := by
        rw [List.length_append, List.length_singleton, Nat.add_sub_cancel]
      have hne : seen ++ [v] ≠ [] := List.append_ne_nil_of_right_ne_nil _ (List.cons_ne_nil _ _)
      rw [List.append_cons] at hbefore hnot ⊢
      -- the time was not over at the last reading, which was no plateau either
      have hbefore' : ∀ j < (seen ++ [v]).length - 1,
          j * q.interval < q.maxSeconds ∧ (0 < j → ¬ q.Plateau ((seen ++ [v]) ++ rest) j) := by
        intro j hj
        rw [hlength] at hj
        rcases Nat.lt_or_ge j (seen.length - 1) with hlt | hge
        · exact hbefore j hlt
        · obtain rfl : j = seen.length - 1 := by omega
          refine ⟨?_, hnot⟩
          rw [Nat.cast_sub hpos, Nat.cast_one]
          exact hrunning
      split at h
      · next hstable =>
        cases h
        rw [stable_after hne rest] at hstable
        exact ⟨_, quiesced_after hne rest (.inr ⟨by omega, hstable⟩) hbefore'⟩
      · next hunstable =>
        rw [stable_after hne rest] at hunstable
        exact ih hne hbefore' (fun _ => hunstable) h
    · next hover =>
      cases h
      exact ⟨_, quiesced_after hseen _ (.inl (not_lt.mp hover)) hbefore⟩

theorem quiesceUntilStable_cons (v : ℤ) (rest : List ℤ) :
    q.quiesceUntilStable (v :: rest) = q.pollFrom (q.after [v]) rest := by
  have hafter : (⟨v, pushWindow q.maxlen [] v, 0⟩ : Polling) = q.after [v] := by
    unfold Quiesce.after
    rw [List.length_singleton, Nat.cast_one, sub_self, zero_mul]
    rfl
  rw [Quiesce.quiesceUntilStable, hafter]

/-- The loop does not wait for ever. -/
theorem pollFrom_isSome {seen rest : List ℤ}
    (h : q.maxSeconds ≤ ((seen.length + rest.length : ℕ) - 1) * q.interval) :
    ∃ p, q.pollFrom (q.after seen) rest = some p := by
  induction rest generalizing seen with
  | nil =>
    rw [Quiesce.pollFrom, if_neg]
    · exact ⟨_, rfl⟩
    · rw [List.length_nil, Nat.add_zero] at h
      exact not_lt.mpr h
  | cons v rest ih =>
    rw [Quiesce.pollFrom, poll_after]
    split
    · split
      · exact ⟨_, rfl⟩
      · refine ih ?_
        rw [List.length_append, List.length_singleton]
        rw [List.length_cons] at h
        rw [show seen.length + 1 + rest.length = seen.length + (rest.length + 1) by omega]
        exact h
    · exact ⟨_, rfl⟩

/-- **The wait** ends at the first plateau or with the time, whichever comes first, and returns the
reading it ended at. -/
theorem quiesced (hsome : readings ≠ [])
    (hlong : q.maxSeconds ≤ ((readings.length : ℚ) - 1) * q.interval) :
    ∃ k p, q.quiesceUntilStable readings = some p ∧ Quiesced q readings k p := by
  obtain ⟨v, rest, rfl⟩ := List.exists_cons_of_ne_nil hsome
  obtain ⟨p, hp⟩ := @pollFrom_isSome q [v] rest (by
    rw [List.length_singleton, Nat.add_comm]
    exact hlong)
  obtain ⟨k, hk⟩ := @pollFrom_quiesced q p [v] rest (List.cons_ne_nil _ _)
    (fun j hj => absurd hj (Nat.not_lt_zero j)) (fun hpos => absurd hpos (Nat.lt_irrefl 0)) hp
  exact ⟨k, p, (quiesceUntilStable_cons v rest).trans hp, hk⟩

/-- Memory that is freed in steps, and is even after that. -/
theorem quiesced_even : ∃ k p,
    Quiesced ⟨1, 3, 1 / 1000, 6⟩ [1000, 900, 800, 800, 800, 800, 700] k p ∧
      p = ⟨800, [800, 800, 800, 800], 5⟩ := by
  obtain ⟨k, p, hp, hk⟩ := @quiesced ⟨1, 3, 1 / 1000, 6⟩ [1000, 900, 800, 800, 800, 800, 700]
    (List.cons_ne_nil _ _) (by decide +kernel)
  refine ⟨k, p, hk, Option.some.inj (hp.symm.trans ?_)⟩
  decide +kernel

end Plateau

/-! ## Rehashing -/

/-- `REHASHING_MARKER`. -/
def rehashingMarker : String := "rehashing target"

/-- `is_rehashing`. -/
def isRehashing : Option String → Except PyError Bool
  | none => .error (.runtimeError
      "DEBUG HTSTATS returned nothing; is enable-debug-command set on the test server?")
  | some stats =>
    if "ERR".toList <+: stats.toList then .error (.runtimeError s!"DEBUG HTSTATS failed: {stats}")
    else .ok (decide (rehashingMarker.toList <:+: stats.toList))

/-- What `settle_rehash` raises when it gives up. -/
def stillRehashing (passes : ℕ) : PyError :=
  .runtimeError s!"hash table still rehashing after {passes} full read passes"

section Settle

variable {σ : Type} (v : ItemServer σ) (stats : σ → Option String × σ) (w : FillWorkload)

/-- `settle_rehash`, with the passes that may still be made. `stats` is what `DEBUG HTSTATS` is
answered with, and the server after it. -/
def settleRehash : (left passes : ℕ) → σ → Except PyError (ℕ × σ)
  | 0, passes, s => do
    -- the answer after the last pass counts, not the pass itself
    if ← isRehashing (stats s).1 then .error (stillRehashing passes)
    else return (passes, (stats s).2)
  | left + 1, passes, s => do
    if ← isRehashing (stats s).1 then
      let touched ← w.touch v (stats s).2
      settleRehash left (passes + 1) touched.2
    else return (passes, (stats s).2)

/-- `SETTLE_REHASH_MAX_PASSES`. -/
def settleRehashMaxPasses : ℕ := 3

/-- A pass over the items, after an answer that shows a rehash: the lookups it sends. -/
def ReadPass (command : Command) (s : σ) (reads : List (List String)) (t : σ) : Prop :=
  isRehashing (stats s).1 = .ok true ∧ ∃ issued, Touched v w command (stats s).2 t issued reads

/-- Where the loop ends: after some passes, with an answer of `DEBUG HTSTATS`. -/
def SettledAs (command : Command) (left passes : ℕ) (s : σ) : Except PyError (ℕ × σ) → Prop
  | .ok (n, s') => ∃ made t, Run (ReadPass v stats w command) s made t ∧ made.length ≤ left ∧
    n = passes + made.length ∧ isRehashing (stats t).1 = .ok false ∧ s' = (stats t).2
  | .error e => ∃ made t, Run (ReadPass v stats w command) s made t ∧ made.length ≤ left ∧
    (isRehashing (stats t).1 = .error e ∨ isRehashing (stats t).1 = .ok true ∧
      (w.touch v (stats t).2 = .error e ∨
        made.length = left ∧ e = stillRehashing (passes + left)))

variable {v stats w} {command : Command} {rng : Rng} {s₀ s t : σ}

/-- A pass more at the start. -/
theorem SettledAs.cons {left passes : ℕ} {reads : List (List String)}
    (hpass : ReadPass v stats w command s reads t) {result : Except PyError (ℕ × σ)}
    (h : SettledAs v stats w command left (passes + 1) t result) :
    SettledAs v stats w command (left + 1) passes s result := by
  match result, h with
  | .ok (n, s'), ⟨made, u, hrun, hle, hn, hdone, hs'⟩ =>
    refine ⟨reads :: made, u, .cons hpass hrun, Nat.succ_le_succ hle, ?_, hdone, hs'⟩
    rw [hn, List.length_cons, Nat.add_assoc, Nat.add_comm 1]
  | .error e, ⟨made, u, hrun, hle, hended⟩ =>
    refine ⟨reads :: made, u, .cons hpass hrun, Nat.succ_le_succ hle, hended.imp_right ?_⟩
    refine And.imp_right (Or.imp_right ?_)
    rintro ⟨hall, rfl⟩
    refine ⟨congrArg Nat.succ hall, ?_⟩
    rw [Nat.add_assoc, Nat.add_comm 1]

/-- **The loop**, on a server that was filled. -/
theorem settleRehash_spec (hv : v.Lawful) (hstats : ∀ s, v.SameItems s (stats s).2)
    (htext : command.text = w.command) (left passes : ℕ) (hs : Populated v w command s) :
    SettledAs v stats w command left passes s (settleRehash v stats w left passes s) := by
  induction left generalizing passes s with
  | zero =>
    cases hanswer : isRehashing (stats s).1 with
    | error e =>
      rw [settleRehash, hanswer]
      exact ⟨[], s, .refl s, le_refl 0, .inl hanswer⟩
    | ok rehashing =>
      rw [settleRehash, hanswer, except_ok_bind]
      cases rehashing with
      | true => exact ⟨[], s, .refl s, le_refl 0, .inr ⟨hanswer, .inr ⟨rfl, rfl⟩⟩⟩
      | false => exact ⟨[], s, .refl s, le_refl 0, rfl, hanswer, rfl⟩
  | succ left ih =>
    cases hanswer : isRehashing (stats s).1 with
    | error e =>
      rw [settleRehash, hanswer]
      exact ⟨[], s, .refl s, Nat.zero_le _, .inl hanswer⟩
    | ok rehashing =>
      rw [settleRehash, hanswer, except_ok_bind]
      cases rehashing with
      | false => exact ⟨[], s, .refl s, Nat.zero_le _, rfl, hanswer, rfl⟩
      | true =>
        rw [if_pos rfl]
        have hasked := hs.same (hstats s)
        cases htouch : w.touch v (stats s).2 with
        | error e => exact ⟨[], s, .refl s, Nat.zero_le _, .inr ⟨hanswer, .inl htouch⟩⟩
        | ok touched =>
          obtain ⟨issued, t⟩ := touched
          rw [except_ok_bind]
          obtain ⟨reads, hreads⟩ := hasked.touched hv htext htouch
          exact .cons ⟨hanswer, issued, hreads⟩ (ih (passes + 1) (hasked.same hreads.kept))

/-- What passes leave, and what they have looked up. -/
theorem looked_of_passes (hstats : ∀ s, v.SameItems s (stats s).2) {made : List (List (List String))}
    (h : Run (ReadPass v stats w command) s made t) :
    v.SameItems s t ∧ ∀ idx, made.flatten.count (command.lookup (itemName command w.sizes idx)) =
      if idx < w.itemCount.toNat then made.length else 0 := by
  induction h with
  | refl => exact ⟨.refl s, fun idx => by simp⟩
  | snoc _ hpass ih =>
    obtain ⟨hsame, hcount⟩ := ih
    obtain ⟨-, issued, hreads⟩ := hpass
    refine ⟨hsame.trans ((hstats _).trans hreads.kept), fun idx => ?_⟩
    rw [List.flatten_append, List.count_append, hcount idx, List.flatten_singleton, hreads.each idx,
      List.length_append, List.length_singleton]
    split <;> rfl

/-- **After a fill**, with some time gone by, `settle_rehash` returns when an answer shows no
rehash, and has then looked every item below the count up as often as it says. -/
theorem settled_items (hv : v.Lawful) (hstats : ∀ s, v.SameItems s (stats s).2)
    (hempty : v.Empty s₀) {filled : σ} (hfill : w.populate v rng s₀ = .ok filled)
    (hsame : v.SameItems filled s) :
    ∃ command, Command.ofText w.command = some command ∧ Populated v w command s ∧
      SettledAs v stats w command settleRehashMaxPasses 0 s
        (settleRehash v stats w settleRehashMaxPasses 0 s) ∧
      ∀ n s', settleRehash v stats w settleRehashMaxPasses 0 s = .ok (n, s') →
        n ≤ settleRehashMaxPasses ∧ v.SameItems s s' ∧
        ∃ made t, Run (ReadPass v stats w command) s made t ∧ isRehashing (stats t).1 = .ok false ∧
          ∀ idx, made.flatten.count (command.lookup (itemName command w.sizes idx)) =
            if idx < w.itemCount.toNat then n else 0 := by
  obtain ⟨command, hcommand, hfilled⟩ := populated hv hempty hfill
  have htext : command.text = w.command := of_decide_eq_true (List.find?_some hcommand :)
  have hs := hfilled.same hsame
  have hspec := settleRehash_spec hv hstats htext settleRehashMaxPasses 0 hs
  -- the passes of the run are those that it returns the number of
  refine ⟨command, hcommand, hs, hspec, fun n s' hok => ?_⟩
  rw [hok] at hspec
  obtain ⟨made, t, hrun, hle, hn, hdone, rfl⟩ := hspec
  rw [Nat.zero_add] at hn
  obtain ⟨hkept, hcount⟩ := looked_of_passes hstats hrun
  exact ⟨hn ▸ hle, hkept.trans (hstats t), made, t, hrun, hdone, hn ▸ hcount⟩

end Settle

/-! ### A table of five strings -/

/-- A server of lists, and the buckets of its table that have still to be moved. -/
structure RehashingShelf where
  shelf : Shelf
  left  : ℕ

namespace RehashingShelf

/-- The fifth string makes a table of four buckets grow, and a lookup moves one of them. -/
def run (s : RehashingShelf) (command : ServerCommand) : Except PyError RehashingShelf := do
  let shelf ← s.shelf.run command
  match command with
  | .lookup _ => return ⟨shelf, s.left - 1⟩
  | _ => return ⟨shelf, if shelf.items.length = 5 then 4 else s.left⟩

def server : ItemServer RehashingShelf where
  run     := run
  execute := fun s commands => commands.foldlM run s
  has     := fun s c name => (c, name) ∈ s.shelf.items
  expires := fun s key => key ∈ s.shelf.expiring

/-- What its table shows. -/
def stats (s : RehashingShelf) : Option String × RehashingShelf :=
  (some (if 0 < s.left then "Hash table 1 stats (rehashing target):" else "Hash table 0 stats:"), s)

/-- Its shelf is run like any. -/
theorem run_shelf {s s' : RehashingShelf} {command : ServerCommand} (h : run s command = .ok s') :
    s.shelf.run command = .ok s'.shelf := by
  unfold run at h
  obtain ⟨shelf, hshelf, h⟩ := except_bind_ok.mp h
  rw [hshelf]
  cases command <;> cases h <;> rfl

theorem lawful : server.Lawful where
  pipelined     := id
  wrote h       := Shelf.lawful.wrote (run_shelf h)
  wroteOver h   := Shelf.lawful.wroteOver (run_shelf h)
  expiredKept h := Shelf.lawful.expiredKept (run_shelf h)
  expired h     := Shelf.lawful.expired (run_shelf h)
  looked h      := Shelf.lawful.looked (run_shelf h)

end RehashingShelf

/-- Five strings, of which the last has made the table grow: one pass is enough. -/
theorem settled_items_five : ∃ s s' : RehashingShelf,
    settleRehash RehashingShelf.server RehashingShelf.stats
      ⟨"set", 5, ⟨12, 1, 0⟩, false, "sequential"⟩ settleRehashMaxPasses 0 s = .ok (1, s') ∧
    RehashingShelf.server.SameItems s s' ∧ ∃ made t,
      Run (ReadPass RehashingShelf.server RehashingShelf.stats
        ⟨"set", 5, ⟨12, 1, 0⟩, false, "sequential"⟩ .set) s made t ∧
      made.flatten.count ["EXISTS", "key:0000004:"] = 1 := by
  obtain ⟨command, hcommand, -, -, hreturns⟩ := @settled_items _ RehashingShelf.server
    RehashingShelf.stats ⟨"set", 5, ⟨12, 1, 0⟩, false, "sequential"⟩ addsOnly ⟨⟨[], []⟩, 0⟩
    _ RehashingShelf.lawful (fun _ => .refl _) Shelf.empty _ rfl (.refl _)
  cases hcommand
  obtain ⟨-, hsame, made, t, hrun, -, hcount⟩ := hreturns 1 _ rfl
  exact ⟨_, _, rfl, hsame, made, t, hrun, hcount 4⟩

end Conductress.Sweep
