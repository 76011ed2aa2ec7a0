import Conductress.Base.ClockText
import Conductress.Control.Lifecycle

/-!
# The order of the queue

A claim hands out the queued task of greatest class and priority that comes
first by the text of its submission time. Submitters write that text: any
date-time with an offset is accepted and stored as it stands. So the tasks of
one class and priority are served in the order of the texts, which is the order
of the times only where a task that is first by the one is first by the other
(`serves_first_come_iff`). Texts that `utc_text` wrote, no two within one second
of which one is the whole second, are in the order of the times
(`utcTexts_first_in_both`).
-/

namespace Conductress

open Lib

/-! ## First by rank and key -/

section Leading

variable {α A B C : Type*} [LinearOrder A] [LinearOrder B] [LinearOrder C]

/-- An item no other one outranks. -/
def Leading (rank : α → A) (xs : List α) (x : α) : Prop := x ∈ xs ∧ ∀ y ∈ xs, rank x ≤ rank y

/-- First by rank, and then by a key. -/
def FirstBy (rank : α → A) (key : α → B) (xs : List α) (x : α) : Prop :=
  x ∈ xs ∧ ∀ y ∈ xs, rank x < rank y ∨ (rank x = rank y ∧ key x ≤ key y)

/-- One leading item is first by both keys. -/
def FirstInBoth (rank : α → A) (key : α → B) (key' : α → C) (xs : List α) : Prop :=
  ∃ x, Leading rank xs x ∧ ∀ y, Leading rank xs y → key x ≤ key y ∧ key' x ≤ key' y

variable {rank : α → A} {key : α → B} {key' : α → C} {xs : List α} {x y : α}

theorem FirstBy.leading (h : FirstBy rank key xs x) : Leading rank xs x := by
  refine ⟨h.1, fun y hy => ?_⟩
  rcases h.2 y hy with hlt | ⟨heq, -⟩
  · exact hlt.le
  · exact heq.le

theorem Leading.rank_eq (hx : Leading rank xs x) (hy : Leading rank xs y) : rank x = rank y :=
  le_antisymm (hx.2 y hy.1) (hy.2 x hx.1)

theorem FirstBy.le_of_leading (h : FirstBy rank key xs x) (hy : Leading rank xs y) :
    key x ≤ key y := by
  rcases h.2 y hy.1 with hlt | ⟨-, hle⟩
  · exact absurd (h.leading.rank_eq hy) hlt.ne
  · exact hle

/-- First among the leading items is first of all. -/
theorem Leading.firstBy (hx : Leading rank xs x) (h : ∀ y, Leading rank xs y → key x ≤ key y) :
    FirstBy rank key xs x := by
  refine ⟨hx.1, fun y hy => ?_⟩
  rcases lt_or_eq_of_le (hx.2 y hy) with hlt | heq
  · exact .inl hlt
  · exact .inr ⟨heq, h y ⟨hy, fun z hz => heq ▸ hx.2 z hz⟩⟩

/-- **The first by one key** is the first by another exactly when some leading
item is first by both. -/
theorem FirstBy.firstBy_iff (hinj : ∀ x ∈ xs, ∀ y ∈ xs, key x = key y → x = y)
    (h : FirstBy rank key xs x) : FirstBy rank key' xs x ↔ FirstInBoth rank key key' xs := by
  constructor
  · intro h'
    exact ⟨x, h.leading, fun y hy => ⟨h.le_of_leading hy, h'.le_of_leading hy⟩⟩
  · rintro ⟨z, hz, hboth⟩
    have hsame : x = z := hinj x h.1 z hz.1
      (le_antisymm (h.le_of_leading hz) (hboth x h.leading).1)
    rw [hsame]
    exact hz.firstBy fun y hy => (hboth y hy).2

end Leading

/-! ## The queue's keys -/

local instance queueOrder : Preorder ℤ := Int.instLinearOrder.toPreorder

/-- Class and priority, the greatest first. -/
def classKey (row : TaskRow) : ℕᵒᵈ ×ₗ ℤᵒᵈ :=
  toLex (.toDual (ControlService.classRank row.taskClass), .toDual row.priority)

/-- The submission time as the queue compares it, and the task id. -/
def textKey (row : TaskRow) : String ×ₗ String := toLex (row.submittedAt, row.taskId)

/-- The submission time itself, and the task id. -/
def timeKey (instant : String → ℤ) (row : TaskRow) : ℤ ×ₗ String :=
  toLex (instant row.submittedAt, row.taskId)

theorem queueKey_le_iff (a b : TaskRow) :
    ControlService.queueKey a ≤ ControlService.queueKey b ↔
      classKey a < classKey b ∨ (classKey a = classKey b ∧ textKey a ≤ textKey b) := by
  unfold ControlService.queueKey classKey textKey
  simp only [Prod.Lex.toLex_le_toLex, Prod.Lex.toLex_lt_toLex, EmbeddingLike.apply_eq_iff_eq,
    Prod.mk.injEq]
  tauto

namespace ControlService

variable {svc : ControlService} {m : Moment} {runnerId actor : String} {db : Database}

/-- The tasks a claim of the runner chooses from, after the sweep. -/
def claimQueue (m : Moment) (runnerId : String) (db : Database) : List TaskRow :=
  rowsOf (expireStaleClaims m.now "system" db) runnerId .queued

/-- The next task is first by class and priority, then by the text. -/
theorem nextQueued_firstBy {row : TaskRow}
    (h : nextQueued (expireStaleClaims m.now "system" db) runnerId = some row) :
    FirstBy classKey textKey (claimQueue m runnerId db) row :=
  ⟨List.argmin_mem h, fun other hother => (queueKey_le_iff row other).mp
    (List.le_of_mem_argmin hother h)⟩

theorem textKey_inj : ∀ a ∈ claimQueue m runnerId db, ∀ b ∈ claimQueue m runnerId db,
    textKey a = textKey b → a = b := by
  intro a ha b hb h
  have hids : a.taskId = b.taskId := congrArg (fun k => (ofLex k).2) h
  exact Table.eq_of_key_eq (mem_rowsOf.mp ha).1 (mem_rowsOf.mp hb).1 hids

/-- The claim gets as far as choosing a task, and there is one. -/
def Selects (svc : ControlService) (m : Moment) (runnerId : String) (db : Database) : Prop :=
  (∃ entry, svc.registry.getRunner runnerId = .ok entry) ∧
    rowsOf (expireStaleClaims m.now "system" db) runnerId .accepted = [] ∧
    existingClaim (expireStaleClaims m.now "system" db) runnerId = none ∧
    claimQueue m runnerId db ≠ []

/-- The claim takes the row from the queue and answers it. -/
def HandsOut (svc : ControlService) (m : Moment) (runnerId actor : String) (db : Database)
    (row : TaskRow) : Prop :=
  row ∈ claimQueue m runnerId db ∧ ∃ db', svc.claimTask m runnerId actor db =
    .ok (db', some ((StateWrite.claim m.token (svc.leaseUntil m.now)).set m.now row))

/-- A claim that gets so far hands out the next queued task, and no other. -/
theorem handsOut_iff (h : Selects svc m runnerId db) {row : TaskRow} :
    HandsOut svc m runnerId actor db row ↔
      nextQueued (expireStaleClaims m.now "system" db) runnerId = some row := by
  obtain ⟨⟨entry, hentry⟩, haccepted, hclaimed, hqueue⟩ := h
  obtain ⟨next, hnext⟩ : ∃ next, nextQueued (expireStaleClaims m.now "system" db) runnerId =
      some next :=
    Option.ne_none_iff_exists'.mp fun hnone => hqueue (List.argmin_eq_none.mp hnone)
  have hrow := mem_rowsOf.mp (List.argmin_mem hnext)
  have hanswer : svc.claimTask m runnerId actor db = .ok
      ((expireStaleClaims m.now "system" db).write (.claim m.token (svc.leaseUntil m.now)) m.now
        actor none next,
        some ((StateWrite.claim m.token (svc.leaseUntil m.now)).set m.now next)) := by
    unfold claimTask
    rw [hentry]
    simp only [bind, Except.bind, haccepted, List.head?_nil, hclaimed, hnext]
    rw [Database.task?_write hrow.1, if_pos rfl]
  unfold HandsOut
  rw [hnext, Option.some.injEq]
  constructor
  · rintro ⟨hmem, db', hsame⟩
    rw [hanswer, Except.ok.injEq, Prod.mk.injEq, Option.some.injEq] at hsame
    have hids := congrArg TaskRow.taskId hsame.2
    rw [StateWrite.set_taskId, StateWrite.set_taskId] at hids
    exact Table.eq_of_key_eq hrow.1 (mem_rowsOf.mp hmem).1 hids
  · rintro rfl
    exact ⟨List.argmin_mem hnext, _, hanswer⟩

/-- First come, first served: a claim that gets as far as choosing hands out
the queued task of greatest class and priority that was submitted first, by
`instant`, and of those the one of least task id. -/
def ServesFirstCome (instant : String → ℤ) (svc : ControlService) (m : Moment)
    (runnerId actor : String) (db : Database) : Prop :=
  Selects svc m runnerId db → ∃ row, HandsOut svc m runnerId actor db row ∧
    FirstBy classKey (timeKey instant) (claimQueue m runnerId db) row

end ControlService

open ControlService

/-- **First come, first served.** Whatever instants the texts mean, a claim
serves in their order exactly when one of the queued tasks of greatest class
and priority is first both by text and by instant. -/
theorem serves_first_come_iff (instant : String → ℤ) (svc : ControlService) (m : Moment)
    (runnerId actor : String) (db : Database) :
    ServesFirstCome instant svc m runnerId actor db ↔
      (Selects svc m runnerId db →
        FirstInBoth classKey textKey (timeKey instant) (claimQueue m runnerId db)) := by
  refine forall_congr' fun hselects => ?_
  obtain ⟨next, hnext⟩ := Option.ne_none_iff_exists'.mp
    (fun hnone => hselects.2.2.2 (List.argmin_eq_none.mp hnone) :
      nextQueued (expireStaleClaims m.now "system" db) runnerId ≠ none)
  have hfirst := nextQueued_firstBy hnext
  rw [← hfirst.firstBy_iff textKey_inj]
  constructor
  · rintro ⟨row, hrow, hfifo⟩
    rw [handsOut_iff hselects, hnext, Option.some.injEq] at hrow
    rw [hrow]
    exact hfifo
  · intro hfifo
    exact ⟨next, (handsOut_iff hselects).mpr hnext, hfifo⟩

/-- The instant `parse_utc` reads, where it reads one. -/
def submissionInstant (text : String) : ℤ := (parseUtc text).getD 0

/-- A text as `utc_text` writes it. -/
def IsUtcText (text : String) (t : ℕ) : Prop := Representable t ∧ text = utcText t

/-- **Texts that `utc_text` wrote** serve first come, first served: where all
leading tasks carry such texts, and no two of them clash within a second, one
of them is first both by text and by instant. -/
theorem utcTexts_first_in_both {rows : List TaskRow} (hrows : rows ≠ [])
    (htexts : ∀ row, Leading classKey rows row → ∃ t, IsUtcText row.submittedAt t)
    (hclash : ∀ a b s t, Leading classKey rows a → Leading classKey rows b →
      IsUtcText a.submittedAt s → IsUtcText b.submittedAt t → ¬ SameSecondClash s t) :
    FirstInBoth classKey textKey (timeKey submissionInstant) rows := by
  obtain ⟨first, hfirst⟩ := Option.ne_none_iff_exists'.mp
    (fun hnone => hrows (List.argmin_eq_none.mp hnone) : rows.argmin queueKey ≠ none)
  have hfirst : FirstBy classKey textKey rows first :=
    ⟨List.argmin_mem hfirst, fun other hother => (queueKey_le_iff first other).mp
      (List.le_of_mem_argmin hother hfirst)⟩
  refine ⟨first, hfirst.leading, fun other hother => ⟨hfirst.le_of_leading hother, ?_⟩⟩
  have hle := hfirst.le_of_leading hother
  obtain ⟨s, hs⟩ := htexts first hfirst.leading
  obtain ⟨t, ht⟩ := htexts other hother
  have hinstant : ∀ {text : String} {t : ℕ}, IsUtcText text t → submissionInstant text = t := by
    rintro _ t ⟨ht, rfl⟩
    rw [submissionInstant, parseUtc_utcText ht, Option.getD_some]
  unfold textKey at hle
  unfold timeKey
  rw [Prod.Lex.toLex_le_toLex] at hle ⊢
  rw [hinstant hs, hinstant ht]
  rcases hle with hlt | ⟨heq, hid⟩
  · -- an earlier text is an earlier instant
    have hdiffer : s ≠ t := by
      rintro rfl
      rw [hs.2, ht.2] at hlt
      exact lt_irrefl _ hlt
    have hearlier : s ≤ t := by
      refine ((textLe_iff hs.1 ht.1).mpr (hclash first other s t hfirst.leading hother hs ht)).mp ?_
      rw [textLe, decide_eq_true_eq, ← hs.2, ← ht.2]
      exact le_of_lt hlt
    left
    dsimp only
    omega
  · have hsame : (s : ℤ) = t := by
      rw [← hinstant hs, ← hinstant ht]
      exact congrArg submissionInstant heq
    exact .inr ⟨hsame, hid⟩

namespace SmallDeployment

/-- A service whose `parse_utc` is `parseUtc`. -/
def zoned : ControlService :=
  { service with parsesWithTimezone := fun text => (parseUtc text).isSome }

/-- A task submitted with a time of the submitter's own. -/
def submitAt (n : ℕ) (taskId submittedAt : String) : ServiceEvent :=
  ⟨moment n, .submit { envelope taskId .manual with submittedAt } "operator:ops" none none false⟩

/-- Midnight in UTC, in a zone two hours east, and the hour after it. -/
def twoZones : List ServiceEvent :=
  [submitAt 0 "t1" "2026-01-01T02:00:00+02:00", submitAt 1 "t2" "2026-01-01T01:00:00Z"]

end SmallDeployment

open SmallDeployment in
/-- The task submitted an hour later, in another zone, is handed out first. -/
theorem later_zone_served_first :
    ¬ ∀ (svc : ControlService), (∀ text, svc.parsesWithTimezone text = (parseUtc text).isSome) →
      ∀ (es : List ServiceEvent) (m : Moment) (runnerId actor : String),
        ServesFirstCome submissionInstant svc m runnerId actor (serve svc .empty es) := by
  intro h
  have hselects : Selects zoned (moment 2) "runner-1" (serve zoned .empty twoZones) := by
    refine ⟨⟨⟨"runner-1", true, none⟩, by decide +kernel⟩, by decide +kernel, by decide +kernel,
      by decide +kernel⟩
  obtain ⟨row, hrow, hfirst⟩ :=
    h zoned (fun _ => rfl) twoZones (moment 2) "runner-1" "runner:runner-1" hselects
  have hnext := (handsOut_iff hselects).mp hrow
  have hlater : ∀ row ∈ nextQueued (expireStaleClaims (moment 2).now "system"
      (serve zoned .empty twoZones)) "runner-1",
      ∃ other ∈ claimQueue (moment 2) "runner-1" (serve zoned .empty twoZones),
        classKey other = classKey row ∧
          submissionInstant other.submittedAt < submissionInstant row.submittedAt := by
    decide +kernel
  obtain ⟨other, hother, hclass, hearlier⟩ := hlater row hnext
  rcases hfirst.2 other hother with hlt | ⟨-, hle⟩
  · exact absurd hclass hlt.ne'
  · unfold timeKey at hle
    rw [Prod.Lex.toLex_le_toLex] at hle
    rcases hle with hlt | ⟨heq, -⟩
    · exact lt_asymm hlt hearlier
    · exact hearlier.ne' heq

end Conductress
