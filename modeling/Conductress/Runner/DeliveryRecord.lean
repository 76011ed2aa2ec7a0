import Conductress.Runner.Runs
import Conductress.Runner.TrimLacking
import Conductress.Runner.TrimTask
import Conductress.Runner.TrimLoop

/-!
# The delivery record

A completed outcome from `stage_success` to the answer that settles it: trimmed
once before it is first sent, and once more when the service refuses it for good.
`accounts_iff` says when the `outcome_delivery` of what is delivered names what is
missing of the full result.

Each call of `trim_outcome` writes a record of its own. The second one works on the
trimmed document: it knows neither what the first one dropped nor how large the
outcome was (`not_accounts_twice`). And a call knows nothing of the bulk values that
lie where its record goes (`accounts_once`).
-/

namespace Conductress

namespace OutcomeSize

/-! ## Trimming a document -/

/-- An outcome as the journal keeps it. -/
structure Document where
  fields : Fields
  unique : (Json.obj fields).uniqueKeys = true

namespace Document

/-- `outcome["result"]`. -/
def result (o : Document) : Json := Json.getD o.fields "result"

/-- The bulk values of its result. -/
def bulk (wireBytes : Json → ℕ) (o : Document) : List (ℕ × List PathPart) :=
  match o.result with
  | .obj result => bulkCandidates wireBytes result
  | _ => []

/-- A call of `trim_outcome` for it. -/
def trimCall (o : Document) (budget : Int) (reason fullRecordPath : String) : TrimCall where
  outcome        := o.fields
  unique         := o.unique
  budget         := budget
  reason         := reason
  fullRecordPath := fullRecordPath

end Document

section Trim

variable {wireBytes : Json → ℕ}

theorem uniqueKeys_returned {c : TrimCall} {r : TrimReturn} (h : trimOutcome wireBytes c = .ok r) :
    (Json.obj r.returned).uniqueKeys = true := by
  rcases trimOutcome_ok h with ⟨rfl, -⟩ | ⟨result, k, htrimmable, -, -, -, -, rfl⟩
  · exact c.unique
  · exact uniqueKeys_setField c.unique (uniqueKeys_setField
      (uniqueKeys_removed htrimmable.uniqueKeys _) (record_uniqueKeys _ _))

end Trim

/-- `trim_outcome` on a document. -/
def Document.trim (wireBytes : Json → ℕ) (o : Document) (budget : Int)
    (reason fullRecordPath : String) : Except DeleteError (Document × List String) :=
  match h : trimOutcome wireBytes (o.trimCall budget reason fullRecordPath) with
  | .ok r => .ok (⟨r.returned, uniqueKeys_returned h⟩, r.dropped)
  | .error e => .error e

section Trim

variable {wireBytes : Json → ℕ}

/-- A document with the first bulk values of a call's outcome dropped. -/
structure TrimmedTo (wireBytes : Json → ℕ) (c : TrimCall) (result : Fields) (k : ℕ)
    (o : Document) : Prop where
  trimmable : Trimmable wireBytes c result
  dropsOne  : 0 < k
  there     : k ≤ (bulkCandidates wireBytes result).length
  enough    : Enough wireBytes c result k
  shortest  : Reached wireBytes c result k
  fields    : o.fields = c.recorded wireBytes result ((bulkCandidates wireBytes result).take k)
    (c.measuredBytes wireBytes result ((bulkCandidates wireBytes result).take k))

/-- **One call** trims the document, or leaves it alone. -/
theorem Document.trim_cases {o p : Document} {budget : Int} {reason path : String}
    {dropped : List String} (h : o.trim wireBytes budget reason path = .ok (p, dropped)) :
    (p = o ∧ dropped = [] ∧
      ∀ result, ¬ Trimmable wireBytes (o.trimCall budget reason path) result) ∨
    (dropped ≠ [] ∧ ∃ result k, TrimmedTo wireBytes (o.trimCall budget reason path) result k p) := by
  unfold Document.trim at h
  split at h
  · next r hr =>
    obtain ⟨rfl, rfl⟩ := Prod.mk.inj (Except.ok.inj h)
    rcases trimOutcome_ok hr with ⟨rfl, hnone⟩ | ⟨result, k, htrimmable, hpos, hk, henough, hreached, rfl⟩
    · exact .inl ⟨rfl, rfl, hnone⟩
    · refine .inr ⟨?_, result, k, htrimmable, hpos, hk, henough, hreached, rfl⟩
      rw [returnOf, ← List.length_pos_iff, List.length_map, List.length_take, Nat.min_eq_left hk]
      exact hpos
  · cases h

/-- What the mailbox makes of a task's outcome is the trimming of its document. -/
theorem Document.trim_task {o o' : TaskOutcome} {budget : ℕ} {reason path : String}
    {dropped : List String} (unique : (Json.obj o.fields).uniqueKeys = true)
    (h : trimTask wireBytes o budget reason path = .ok (o', dropped)) :
    ∃ p, Document.trim wireBytes ⟨o.fields, unique⟩ budget reason path = .ok (p, dropped) ∧
      o'.toJson = .obj p.fields := by
  obtain ⟨r, hr, hdocument, rfl⟩ := trimTask_document unique h
  have hcall : trimOutcome wireBytes
      (Document.trimCall ⟨o.fields, unique⟩ budget reason path) = .ok r := hr
  refine ⟨⟨r.returned, uniqueKeys_returned hcall⟩, ?_, hdocument⟩
  unfold Document.trim
  split
  · next r' hr' =>
    rw [hcall] at hr'
    cases hr'
    rfl
  · next e he =>
    rw [hcall] at he
    cases he

/-! ## What a record is to say -/

/-- The bulk values of the full result that the delivered one lacks. -/
def lacking (wireBytes : Json → ℕ) (full delivered : Document) : List (ℕ × List PathPart) :=
  (full.bulk wireBytes).filter fun c =>
    decide (valueAt c.2 delivered.result ≠ valueAt c.2 full.result)

/-- What is delivered is the full outcome, or its record has an entry for each bulk
value it lacks and the size of the full outcome. -/
def Accounts (wireBytes : Json → ℕ) (full delivered : Document) : Prop :=
  delivered = full ∨ ∃ record dropped,
    valueAt [.key deliveryKey] delivered.result = some (.obj record) ∧
    Json.lookup record "dropped" = some (.arr (dropped.map .str)) ∧
    ((lacking wireBytes full delivered).map droppedText).Subperm dropped ∧
    Json.lookup record "original_bytes" = some (.int (wireBytes (.obj full.fields)))

namespace TrimmedTo

variable {c : TrimCall} {result : Fields} {k : ℕ} {full o : Document}

theorem result_eq (h : TrimmedTo wireBytes c result k o) :
    o.result = .obj (Json.setField (removed result ((bulkCandidates wireBytes result).take k))
      deliveryKey (c.record wireBytes (((bulkCandidates wireBytes result).take k).map droppedText)
        (c.measuredBytes wireBytes result ((bulkCandidates wireBytes result).take k)))) := by
  rw [Document.result, h.fields, TrimCall.recorded, Json.getD, Json.lookup_setField]
  rfl

theorem take_ne_nil (h : TrimmedTo wireBytes c result k o) :
    (bulkCandidates wireBytes result).take k ≠ [] := by
  have hpos := h.dropsOne
  rw [← List.length_pos_iff, List.length_take, Nat.min_eq_left h.there]
  exact hpos

/-- Without a budget all are dropped. -/
theorem all (h : TrimmedTo wireBytes c result k o) (hbudget : ¬ 0 < c.budget) :
    k = (bulkCandidates wireBytes result).length :=
  h.enough.resolve_right fun hfits => hbudget hfits.2.1

theorem bulkAt_take (h : TrimmedTo wireBytes c result k o) :
    ∀ d ∈ (bulkCandidates wireBytes result).take k, BulkAt wireBytes d.1 d.2 (.obj result) :=
  fun _ hd => bulkCandidates_found h.trimmable.uniqueKeys (List.mem_of_mem_take hd)

theorem result_full (h : TrimmedTo wireBytes c result k o) (hfull : c.outcome = full.fields) :
    full.result = .obj result := by
  rw [Document.result, ← hfull, Json.getD, h.trimmable.holds]
  rfl

theorem bulk_full (h : TrimmedTo wireBytes c result k o) (hfull : c.outcome = full.fields) :
    full.bulk wireBytes = bulkCandidates wireBytes result := by
  rw [Document.bulk, h.result_full hfull]

/-- A value that was dropped is not there. -/
theorem lacks_take (h : TrimmedTo wireBytes c result k o) (hfull : c.outcome = full.fields)
    {d : ℕ × List PathPart} (hd : d ∈ (bulkCandidates wireBytes result).take k) :
    valueAt d.2 o.result ≠ valueAt d.2 full.result := by
  obtain ⟨v, hv, -⟩ := (h.bulkAt_take d hd).there
  rw [h.result_eq, h.result_full hfull, valueAt_recorded_dropped h.bulkAt_take hd, hv]
  exact nofun

/-- Of the others, those that lie where the record goes are lost. -/
theorem lacks_drop_iff (h : TrimmedTo wireBytes c result k o) (hfull : c.outcome = full.fields)
    {d : ℕ × List PathPart} (hd : d ∈ (bulkCandidates wireBytes result).drop k) :
    valueAt d.2 o.result ≠ valueAt d.2 full.result ↔ d.2.head? = some (.key deliveryKey) := by
  have hbulk : BulkAt wireBytes d.1 d.2 (.obj result) :=
    bulkCandidates_found h.trimmable.uniqueKeys (List.mem_of_mem_drop hd)
  rw [h.result_eq, h.result_full hfull]
  by_cases hin : d.2.head? = some (.key deliveryKey)
  · obtain ⟨v, hv, -⟩ := hbulk.there
    refine iff_of_true ?_ hin
    rw [valueAt_recorded_under hbulk.ends hin, hv]
    exact nofun
  · have hpairs : (bulkCandidates wireBytes result).Pairwise fun a b => Apart a.2 b.2 :=
      bulkCandidates_apart h.trimmable.uniqueKeys
    rw [← List.take_append_drop k (bulkCandidates wireBytes result), List.pairwise_append] at hpairs
    refine iff_of_false (fun hne => hne ?_) hin
    exact valueAt_recorded_kept h.bulkAt_take hbulk (fun e he => hpairs.2.2 e he d hd) hin

theorem ne_full (h : TrimmedTo wireBytes c result k o) (hfull : c.outcome = full.fields) :
    o ≠ full := by
  rintro rfl
  obtain ⟨d, hd⟩ := List.exists_mem_of_ne_nil _ h.take_ne_nil
  exact h.lacks_take hfull hd rfl

/-- What is lacking: what was dropped, and what was lost. -/
theorem lacking_eq (h : TrimmedTo wireBytes c result k o) (hfull : c.outcome = full.fields) :
    lacking wireBytes full o = (bulkCandidates wireBytes result).take k ++
      ((bulkCandidates wireBytes result).drop k).filter fun d =>
        decide (d.2.head? = some (.key deliveryKey)) := by
  rw [lacking, h.bulk_full hfull]
  conv_lhs => rw [← List.take_append_drop k (bulkCandidates wireBytes result)]
  rw [List.filter_append]
  congr 1
  · exact List.filter_eq_self.mpr fun d hd => decide_eq_true (h.lacks_take hfull hd)
  · exact List.filter_congr fun d hd => decide_eq_decide.mpr (h.lacks_drop_iff hfull hd)

theorem record_eq (h : TrimmedTo wireBytes c result k o) : valueAt [.key deliveryKey] o.result =
    some (c.record wireBytes (((bulkCandidates wireBytes result).take k).map droppedText)
      (c.measuredBytes wireBytes result ((bulkCandidates wireBytes result).take k))) := by
  rw [h.result_eq, valueAt, child, Json.lookup_setField]
  rfl

/-- The entries of the record are those of the last call. -/
theorem subperm_of_accounts (h : TrimmedTo wireBytes c result k o) (hne : o ≠ full)
    (haccounts : Accounts wireBytes full o) :
    ((lacking wireBytes full o).map droppedText).Subperm
      (((bulkCandidates wireBytes result).take k).map droppedText) := by
  obtain ⟨record, dropped, hrecord, hdropped, hnamed, -⟩ := haccounts.resolve_left hne
  rw [h.record_eq] at hrecord
  obtain rfl := Json.obj.inj (Option.some.inj hrecord)
  have htexts : some (Json.arr (_ : List Json)) = some (.arr _) := hdropped
  have hsame := List.map_injective_iff.mpr (fun _ _ => Json.str.inj)
    (Json.arr.inj (Option.some.inj htexts))
  rwa [← hsame] at hnamed

/-- **Trimmed once**: the record says what is missing if nothing was lost where it
is, and only then. -/
theorem accounts_once (h : TrimmedTo wireBytes c result k o) (hfull : c.outcome = full.fields) :
    Accounts wireBytes full o ↔ ∀ d ∈ (bulkCandidates wireBytes result).drop k,
      d.2.head? ≠ some (.key deliveryKey) := by
  constructor
  · intro haccounts d hd hin
    -- there are as many entries as values dropped, and the lost one is missing besides
    have hlength := (h.subperm_of_accounts (h.ne_full hfull) haccounts).length_le
    have hlost : d ∈ ((bulkCandidates wireBytes result).drop k).filter fun d =>
        decide (d.2.head? = some (.key deliveryKey)) :=
      List.mem_filter.mpr ⟨hd, decide_eq_true hin⟩
    have hpos := List.length_pos_of_mem hlost
    rw [h.lacking_eq hfull, List.length_map, List.length_map, List.length_append] at hlength
    omega
  · intro hnone
    have hlost : (((bulkCandidates wireBytes result).drop k).filter fun d =>
        decide (d.2.head? = some (.key deliveryKey))) = [] :=
      List.filter_eq_nil_iff.mpr fun d hd hin => hnone d hd (of_decide_eq_true hin)
    refine .inr ⟨_, _, h.record_eq, rfl, ?_, ?_⟩
    · rw [h.lacking_eq hfull, hlost, List.append_nil]
    · rw [← hfull]
      rfl

/-- **Trimmed twice**: the second record has fewer entries than there are bulk values
missing. -/
theorem not_accounts_twice (h : TrimmedTo wireBytes c result k o) (hfull : c.outcome = full.fields)
    {c' : TrimCall} {result' : Fields} {k' : ℕ} {delivered : Document}
    (h' : TrimmedTo wireBytes c' result' k' delivered) (hnext : c'.outcome = o.fields)
    (hbudget : ¬ 0 < c'.budget) : ¬ Accounts wireBytes full delivered := by
  have hresult : result' = _ := Json.obj.inj ((h'.result_full hnext).symm.trans h.result_eq)
  have hall : (bulkCandidates wireBytes result').take k' = bulkCandidates wireBytes result' := by
    rw [h'.all hbudget, List.take_length]
  -- nothing is left of the bulk values of the full result
  have hgone : ∀ d ∈ bulkCandidates wireBytes result,
      valueAt d.2 delivered.result ≠ valueAt d.2 full.result := by
    intro d hd hsame
    have hbulk : BulkAt wireBytes d.1 d.2 (.obj result) :=
      bulkCandidates_found h.trimmable.uniqueKeys hd
    rw [h.result_full hfull] at hsame
    have hleft : BulkAt wireBytes d.1 d.2 delivered.result := ⟨hbulk.ends, by
      rw [hsame]
      exact hbulk.there⟩
    rw [h'.result_eq, hall] at hleft
    exact not_bulkAt_recorded h'.trimmable.uniqueKeys hleft
  have hlacking : lacking wireBytes full delivered = bulkCandidates wireBytes result := by
    rw [lacking, h.bulk_full hfull]
    exact List.filter_eq_self.mpr fun d hd => decide_eq_true (hgone d hd)
  obtain ⟨d, hd⟩ := List.exists_mem_of_ne_nil _ h.trimmable.hasBulk
  have hne : delivered ≠ full := by
    rintro rfl
    exact hgone d hd rfl
  intro haccounts
  have hlength := (h'.subperm_of_accounts hne haccounts).length_le
  rw [hlacking, hall, List.length_map, List.length_map, hresult] at hlength
  -- but the first call left fewer than there were
  refine absurd hlength (Nat.not_le.mpr ?_)
  exact length_bulkCandidates_recorded h.take_ne_nil fun _ => List.mem_of_mem_take

end TrimmedTo

end Trim

end OutcomeSize

namespace RunnerMailbox

open OutcomeSize

/-! ## The summary of a result -/

theorem uniqueKeys_omitKeys {fields : Fields} (h : (Json.obj fields).uniqueKeys = true) :
    (Json.obj (omitKeys fields)).uniqueKeys = true := by
  rw [Json.uniqueKeys_obj] at h ⊢
  refine ⟨h.1.sublist (List.filter_sublist.map Prod.fst), fun f hf => ?_⟩
  exact h.2 f (List.mem_of_mem_filter hf)

theorem uniqueKeys_stripRawStacks {data : Fields} (h : (Json.obj data).uniqueKeys = true) :
    (Json.obj (stripRawStacks data)).uniqueKeys = true := by
  have hcleaned := uniqueKeys_omitKeys h
  unfold stripRawStacks
  dsimp only
  split
  · next results hresults =>
    have hitems := (Json.uniqueKeys_obj.mp hcleaned).2 _ (Json.lookup_mem hresults)
    rw [Json.uniqueKeys_arr] at hitems
    refine uniqueKeys_setField hcleaned (Json.uniqueKeys_arr.mpr fun v hv => ?_)
    obtain ⟨entry, hentry, rfl⟩ := List.mem_map.mp hv
    have hunique := hitems entry hentry
    cases entry with
    | obj fields => exact uniqueKeys_omitKeys hunique
    | null | bool | int | float | str | arr => exact hunique
  · exact hcleaned

theorem uniqueKeys_summarizeResult {result : Fields} (h : (Json.obj result).uniqueKeys = true) :
    (Json.obj (summarizeResult result)).uniqueKeys = true := by
  have hsummary := uniqueKeys_omitKeys h
  unfold summarizeResult
  dsimp only
  split
  · next data hdata =>
    exact uniqueKeys_setField hsummary (uniqueKeys_stripRawStacks
      ((Json.uniqueKeys_obj.mp hsummary).2 _ (Json.lookup_mem hdata)))
  · exact hsummary

/-! ## From `stage_success` to the last answer -/

/-- A task that has a result, when its outcome is staged. -/
structure Success where
  taskId      : String
  completedAt : String
  result      : Fields
  unique      : (Json.obj result).uniqueKeys = true

section Delivery

variable (d : Deployment) (s : Success)

/-- The full outcome. -/
def Success.outcome : TaskOutcome := completedOutcome d s.taskId s.completedAt s.result

/-- Its document. -/
def Success.document : Document where
  fields := [("schema_version", .int 1), ("task_id", .str s.taskId), ("runner_id", .str d.runnerId),
    ("state", .str "completed"), ("completed_at", .str s.completedAt),
    ("result", .obj (summarizeResult s.result)), ("error", .null)]
  unique := by
    rw [Json.uniqueKeys_obj]
    refine ⟨?_, fun f hf => ?_⟩
    · simp only [Json.keys, List.map_cons, List.map_nil]
      decide
    · simp only [List.mem_cons, List.not_mem_nil, or_false] at hf
      rcases hf with rfl | rfl | rfl | rfl | rfl | rfl | rfl
      case inr.inr.inr.inr.inr.inl => exact uniqueKeys_summarizeResult s.unique
      all_goals rfl

theorem Success.toJson_outcome : (s.outcome d).toJson = .obj (s.document d).fields := rfl

/-- `_preflight_size`. -/
def preflight (outcome : Document) : Except DeleteError Document :=
  let size := d.wireBytes (.obj outcome.fields)
  if size ≤ d.maxOutcomeBytes then .ok outcome
  else do
    let (trimmed, dropped) ←
      outcome.trim d.wireBytes d.maxOutcomeBytes (preflightReason d size) d.outputPath
    return if dropped = [] then outcome else trimmed

/-- What the journal has of the outcome: pending with the number of its
rejections, replaced by a failure report, or settled. -/
inductive Slot where
  | pending (outcome : Document) (rejections : ℕ)
  | failing (report : TaskOutcome)
  | delivered (outcome : Document)
  | reported (report : TaskOutcome)
  | cleared

/-- An answer of the service. The process may die before the journal has what
follows from it. -/
structure Answer where
  now    : String
  result : Except ClientError Unit
  died   : Bool

/-- `_downgrade_rejected_outcome` of a completed outcome. -/
def downgradeCompleted (outcome : Document) (rejections : ℕ) (now : String) (e : ClientError) :
    Except DeleteError Slot := do
  let rejection := rejectionText e (d.wireBytes (.obj outcome.fields))
  let failing := Slot.failing
    (failedOutcome d s.taskId now (rejectedMessage d (s.outcome d) rejection))
  -- the list has this rejection in it when its length is compared
  if rejections + 1 = 1 then
    let (reduced, dropped) ← outcome.trim d.wireBytes 0 ("rejected: " ++ rejection) d.outputPath
    return if dropped ≠ [] then .pending reduced (rejections + 1) else failing
  else return failing

/-- The pending outcome is sent and answered, in `flush_pending_outcome`. -/
def flushStep (slot : Slot) (a : Answer) : Except DeleteError Slot :=
  if a.died then .ok slot
  else
    match slot, a.result with
    | .pending outcome _, .ok () => .ok (.delivered outcome)
    | .pending outcome rejections, .error e =>
      if isPermanentRejection e.status then downgradeCompleted d s outcome rejections a.now e
      else .ok slot
    | .failing report, .ok () => .ok (.reported report)
    | .failing _, .error e =>
      -- its error has the prefix, so it is the last step
      if isPermanentRejection e.status then .ok .cleared else .ok slot
    | .delivered _, _ | .reported _, _ | .cleared, _ => .ok slot

/-- `stage_success`, and the service's answers one after the other. -/
def deliver (answers : List Answer) : Except DeleteError Slot := do
  let outcome ← preflight d (s.document d)
  answers.foldlM (flushStep d s) (.pending outcome 0)

/-- The answer settles the outcome as it was sent. -/
def Answer.isFinal (a : Answer) : Bool :=
  !a.died && match a.result with
    | .ok () => true
    | .error e => isPermanentRejection e.status

/-- The first answer that settles it is a refusal. -/
def RefusedFirst (answers : List Answer) : Prop :=
  ∃ a e, answers.find? Answer.isFinal = some a ∧ a.result = .error e

variable {d : Deployment} {s : Success}

/-! ## What a run does -/

/-- The completed outcome is given up. -/
def Slot.Abandoned : Slot → Prop
  | .failing _ | .reported _ | .cleared => True
  | .pending _ _ | .delivered _ => False

/-- A refused outcome is reduced the first time, or given up. -/
theorem downgradeCompleted_cases {outcome : Document} {n : ℕ} {now : String} {e : ClientError}
    {slot : Slot} (h : downgradeCompleted d s outcome n now e = .ok slot) :
    slot.Abandoned ∨ (n = 0 ∧ ∃ rejection reduced dropped,
      outcome.trim d.wireBytes 0 ("rejected: " ++ rejection) d.outputPath = .ok (reduced, dropped) ∧
        dropped ≠ [] ∧ slot = .pending reduced 1) := by
  unfold downgradeCompleted at h
  dsimp only at h
  split at h
  · next hn =>
    obtain ⟨⟨reduced, dropped⟩, htrim, h⟩ := Lib.except_bind_ok.mp h
    obtain rfl := Except.ok.inj h
    obtain rfl : n = 0 := by omega
    dsimp only
    split
    · next hdropped => exact .inr ⟨rfl, _, reduced, dropped, htrim, hdropped, rfl⟩
    · exact .inl trivial
  · obtain rfl := Except.ok.inj h
    exact .inl trivial

/-- **One answer** to a pending outcome. -/
theorem flushStep_pending {outcome : Document} {n : ℕ} {a : Answer} {slot : Slot}
    (h : flushStep d s (.pending outcome n) a = .ok slot) :
    (a.isFinal = false ∧ slot = .pending outcome n) ∨
    (a.isFinal = true ∧ a.result = .ok () ∧ slot = .delivered outcome) ∨
    (a.isFinal = true ∧ ∃ e, a.result = .error e ∧
      downgradeCompleted d s outcome n a.now e = .ok slot) := by
  obtain ⟨now, result, died⟩ := a
  cases died with
  | true => exact .inl ⟨rfl, (Except.ok.inj h).symm⟩
  | false =>
    cases result with
    | ok => exact .inr (.inl ⟨rfl, rfl, (Except.ok.inj h).symm⟩)
    | error e =>
      by_cases hstatus : isPermanentRejection e.status = true
      · exact .inr (.inr ⟨hstatus, e, rfl, (if_pos hstatus).symm.trans h⟩)
      · exact .inl ⟨Bool.eq_false_iff.mpr hstatus, (Except.ok.inj ((if_neg hstatus).symm.trans h)).symm⟩

theorem flushStep_delivered {outcome : Document} {a : Answer} {slot : Slot}
    (h : flushStep d s (.delivered outcome) a = .ok slot) : slot = .delivered outcome := by
  unfold flushStep at h
  split at h <;> exact (Except.ok.inj h).symm

/-- A delivered outcome stays it. -/
theorem deliver_delivered {outcome : Document} {answers : List Answer} {slot : Slot}
    (h : answers.foldlM (flushStep d s) (.delivered outcome) = .ok slot) :
    slot = .delivered outcome := by
  refine Lib.except_foldlM_invariant (P := fun slot => slot = .delivered outcome) ?_ rfl h
  rintro slot a slot' rfl hstep
  exact flushStep_delivered hstep

theorem Slot.Abandoned.step {slot slot' : Slot} {a : Answer} (h : slot.Abandoned)
    (hstep : flushStep d s slot a = .ok slot') : slot'.Abandoned := by
  unfold flushStep at hstep
  split at hstep
  · obtain rfl := Except.ok.inj hstep
    exact h
  · split at hstep
    · exact h.elim
    · exact h.elim
    · obtain rfl := Except.ok.inj hstep
      trivial
    · split at hstep
      · obtain rfl := Except.ok.inj hstep
        trivial
      · obtain rfl := Except.ok.inj hstep
        trivial
    all_goals
      obtain rfl := Except.ok.inj hstep
      exact h

/-- An outcome that was refused before is delivered as it is, or given up. -/
theorem deliver_reduced {outcome delivered : Document} {n : ℕ} {answers : List Answer}
    (h : answers.foldlM (flushStep d s) (.pending outcome (n + 1)) = .ok (.delivered delivered)) :
    delivered = outcome := by
  have hrun := Lib.except_foldlM_invariant (P := fun slot => slot = .pending outcome (n + 1) ∨
    slot = .delivered outcome ∨ slot.Abandoned) ?_ (.inl rfl) h
  · rcases hrun with hrun | hrun | hrun
    · cases hrun
    · exact Slot.delivered.inj hrun
    · exact hrun.elim
  rintro slot a slot' (rfl | rfl | habandoned) hstep
  · rcases flushStep_pending hstep with ⟨-, rfl⟩ | ⟨-, -, rfl⟩ | ⟨-, e, -, hdowngrade⟩
    · exact .inl rfl
    · exact .inr (.inl rfl)
    · rcases downgradeCompleted_cases hdowngrade with habandoned | ⟨hn, -⟩
      · exact .inr (.inr habandoned)
      · omega
  · exact .inr (.inl (flushStep_delivered hstep))
  · exact .inr (.inr (habandoned.step hstep))

/-- **A run** that ends with the outcome delivered: it was never refused, or it
was reduced when it first was. -/
theorem deliver_cases {outcome delivered : Document} {answers : List Answer}
    (h : answers.foldlM (flushStep d s) (.pending outcome 0) = .ok (.delivered delivered)) :
    (¬ RefusedFirst answers ∧ delivered = outcome) ∨
    (RefusedFirst answers ∧ ∃ rejection dropped,
      outcome.trim d.wireBytes 0 ("rejected: " ++ rejection) d.outputPath = .ok (delivered, dropped) ∧
        dropped ≠ []) := by
  induction answers with
  | nil => cases h
  | cons a answers ih =>
    rw [List.foldlM_cons] at h
    obtain ⟨slot, hstep, h⟩ := Lib.except_bind_ok.mp h
    rcases flushStep_pending hstep with ⟨hfinal, rfl⟩ | ⟨hfinal, hresult, rfl⟩ | ⟨hfinal, e, hresult, hdowngrade⟩
    -- the answer settled nothing
    · have hsame : RefusedFirst (a :: answers) ↔ RefusedFirst answers := by
        rw [RefusedFirst, RefusedFirst, List.find?_cons_of_neg (by rw [hfinal]; exact Bool.false_ne_true)]
      rw [hsame]
      exact ih h
    -- it was accepted as it was sent
    · refine .inl ⟨?_, Slot.delivered.inj (deliver_delivered h)⟩
      rintro ⟨b, e, hfind, he⟩
      rw [List.find?_cons_of_pos hfinal] at hfind
      obtain rfl := Option.some.inj hfind
      rw [hresult] at he
      cases he
    · have hrefused : RefusedFirst (a :: answers) := ⟨a, e, List.find?_cons_of_pos hfinal, hresult⟩
      rcases downgradeCompleted_cases hdowngrade with
        habandoned | ⟨-, rejection, reduced, dropped, htrim, hdropped, rfl⟩
      · exact (Lib.except_foldlM_invariant (fun _ _ _ => Slot.Abandoned.step) habandoned h).elim
      · obtain rfl := deliver_reduced h
        exact .inr ⟨hrefused, rejection, dropped, htrim, hdropped⟩

/-! ## When the record accounts for everything -/

variable (d s)

/-- The call of `_preflight_size`. -/
def preflightCall : TrimCall :=
  (s.document d).trimCall d.maxOutcomeBytes
    (preflightReason d (d.wireBytes (.obj (s.document d).fields))) d.outputPath

/-- The full outcome is over the client's limit, and there is something to drop. -/
def Oversized : Prop :=
  d.maxOutcomeBytes < d.wireBytes (.obj (s.document d).fields) ∧
    bulkCandidates d.wireBytes (summarizeResult s.result) ≠ []

/-- The outcome fits before the turn comes to a bulk value of the result's own
`outcome_delivery`. -/
def LosesUnderRecord : Prop :=
  0 < d.maxOutcomeBytes ∧ ∃ i j c, 0 < i ∧ i ≤ j ∧
    (bulkCandidates d.wireBytes (summarizeResult s.result))[j]? = some c ∧
    c.2.head? = some (.key deliveryKey) ∧
    (preflightCall d s).measuredBytes d.wireBytes (summarizeResult s.result)
      ((bulkCandidates d.wireBytes (summarizeResult s.result)).take i) ≤ d.maxOutcomeBytes

variable {d s}

theorem lookup_result : Json.lookup (s.document d).fields "result" =
    some (.obj (summarizeResult s.result)) := rfl

theorem preflight_cases {p : Document} (h : preflight d (s.document d) = .ok p) :
    (¬ Oversized d s ∧ p = s.document d) ∨
    (Oversized d s ∧
      ∃ k, TrimmedTo d.wireBytes (preflightCall d s) (summarizeResult s.result) k p) := by
  unfold preflight at h
  dsimp only at h
  split at h
  · next hfits => exact .inl ⟨fun hover => Nat.not_lt.mpr hfits hover.1, (Except.ok.inj h).symm⟩
  · next hbig =>
    obtain ⟨⟨trimmed, dropped⟩, htrim, h⟩ := Lib.except_bind_ok.mp h
    obtain rfl := Except.ok.inj h
    rcases Document.trim_cases htrim with ⟨rfl, rfl, hnone⟩ | ⟨hdropped, result, k, htrimmed⟩
    · refine .inl ⟨fun hover => ?_, rfl⟩
      refine hnone (summarizeResult s.result) ⟨lookup_result, fun hfits => hbig ?_, hover.2⟩
      exact Int.ofNat_le.mp hfits.2
    · obtain rfl : result = summarizeResult s.result :=
        Json.obj.inj (Option.some.inj (htrimmed.trimmable.holds.symm.trans lookup_result))
      dsimp only
      rw [if_neg hdropped]
      exact .inr ⟨⟨Nat.not_le.mp hbig, htrimmed.trimmable.hasBulk⟩, k, htrimmed⟩

theorem losesUnderRecord_iff {k : ℕ} {p : Document}
    (h : TrimmedTo d.wireBytes (preflightCall d s) (summarizeResult s.result) k p) :
    LosesUnderRecord d s ↔ ∃ c ∈ (bulkCandidates d.wireBytes (summarizeResult s.result)).drop k,
      c.2.head? = some (.key deliveryKey) := by
  constructor
  · rintro ⟨hbudget, i, j, c, hpos, hij, hc, hin, hfits⟩
    -- the call drops no more than what makes the outcome fit
    have hkj : k ≤ j := by
      by_contra hlt
      have hover := h.shortest (Int.natCast_pos.mpr hbudget) i hpos (by omega)
      exact absurd (Int.ofNat_lt.mp hover) (Nat.not_lt.mpr hfits)
    refine ⟨c, List.mem_iff_getElem?.mpr ⟨j - k, ?_⟩, hin⟩
    rw [List.getElem?_drop, Nat.add_sub_cancel' hkj, hc]
  · rintro ⟨c, hc, hin⟩
    obtain ⟨m, hm⟩ := List.mem_iff_getElem?.mp hc
    rw [List.getElem?_drop] at hm
    obtain ⟨hlt, -⟩ := List.getElem?_eq_some_iff.mp hm
    rcases h.enough with hall | ⟨hpos, hbudget, hfits⟩
    · omega
    · exact ⟨Int.natCast_pos.mp hbudget, k, k + m, c, hpos, Nat.le_add_right k m, hm, hin,
        Int.ofNat_le.mp hfits⟩

/-- **The delivery record.** What is delivered accounts for everything that it lacks,
unless the full outcome was trimmed before it was first sent and then either reduced
because the service refused it, or sent without a bulk value that lay where the
record goes. -/
theorem accounts_iff {answers : List Answer} {delivered : Document}
    (h : deliver d s answers = .ok (.delivered delivered)) :
    Accounts d.wireBytes (s.document d) delivered ↔
      ¬ (Oversized d s ∧ (RefusedFirst answers ∨ LosesUnderRecord d s)) := by
  obtain ⟨p, hp, hrun⟩ := Lib.except_bind_ok.mp h
  rcases preflight_cases hp with ⟨hfits, rfl⟩ | ⟨hover, k, htrimmed⟩
  · refine iff_of_true ?_ fun hboth => hfits hboth.1
    -- it was sent in full, so a first refusal is where it is trimmed
    rcases deliver_cases hrun with ⟨-, rfl⟩ | ⟨-, rejection, dropped, htrim, hdropped⟩
    · exact .inl rfl
    · rcases Document.trim_cases htrim with ⟨-, hnil, -⟩ | ⟨-, result, k, hreduced⟩
      · exact absurd hnil hdropped
      · -- all of them go, so none is lost where it is
        refine (hreduced.accounts_once rfl).mpr ?_
        rw [hreduced.all (lt_irrefl 0), List.drop_length]
        exact fun d hd => absurd hd List.not_mem_nil
  · rcases deliver_cases hrun with ⟨hkept, rfl⟩ | ⟨hrefused, rejection, dropped, htrim, hdropped⟩
    · rw [htrimmed.accounts_once rfl, and_iff_right hover, or_iff_right hkept,
        losesUnderRecord_iff htrimmed]
      push Not
      rfl
    · refine iff_of_false ?_ fun hnot => hnot ⟨hover, .inl hrefused⟩
      rcases Document.trim_cases htrim with ⟨-, hnil, -⟩ | ⟨-, result, k', hreduced⟩
      · exact absurd hnil hdropped
      · exact htrimmed.not_accounts_twice rfl hreduced rfl (lt_irrefl 0)

end Delivery

/-! ## Two records of one outcome -/

def accepted : Answer := ⟨"2026-01-01T00:00:01Z", .ok (), false⟩

def refused : Answer := ⟨"2026-01-01T00:00:01Z", .error ⟨.http 413, some 413⟩, false⟩

/-- A client that sends 1024 bytes at most. -/
def smallLimit : Deployment :=
  { SmallDeployment.runner with
    maxOutcomeBytes := 1024
    minOutcomeBytes := Nat.le_refl 1024
    wireBytes := wireBytes fun _ => [] }

/-- A result with two bulk values, the first of 901 bytes. -/
def sampled : Success where
  taskId      := "t1"
  completedAt := "2026-01-01T00:00:00Z"
  result      := [("task_id", .str "t1"), ("series", .arr (List.replicate 450 (.int 1))),
    ("samples", .arr [.int 1, .int 2])]
  unique      := by decide +kernel

/-- The size its record gives. -/
def originalBytes : Except DeleteError Slot → Option Json
  | .ok (.delivered o) => valueAt [.key deliveryKey, .key "original_bytes"] o.result
  | _ => none

theorem delivered_of_originalBytes {x : Except DeleteError Slot} {size : Json}
    (h : originalBytes x = some size) : ∃ o, x = .ok (.delivered o) ∧
      valueAt [.key deliveryKey, .key "original_bytes"] o.result = some size := by
  unfold originalBytes at h
  split at h
  · exact ⟨_, rfl, h⟩
  · cases h

/-- It is trimmed to 381 bytes, and sent. -/
theorem accounts_iff_sampled : ∃ o, deliver smallLimit sampled [accepted] = .ok (.delivered o) ∧
    (Accounts smallLimit.wireBytes (sampled.document smallLimit) o ↔
      ¬ (Oversized smallLimit sampled ∧
        (RefusedFirst [accepted] ∨ LosesUnderRecord smallLimit sampled))) := by
  have hsize : originalBytes (deliver smallLimit sampled [accepted]) = some (.int 1082) := by
    decide +kernel
  obtain ⟨o, ho, -⟩ := delivered_of_originalBytes hsize
  exact ⟨o, ho, accounts_iff ho⟩

/-- Refused, it is reduced to 354 bytes, and the record has the 381 of the trimmed
document for the size of the full one. -/
theorem reduced_record_forgets :
    ¬ ∀ (d : Deployment) (s : Success) (answers : List Answer) (delivered : Document),
      deliver d s answers = .ok (.delivered delivered) →
        Accounts d.wireBytes (s.document d) delivered := by
  intro h
  have hsize : originalBytes (deliver smallLimit sampled [refused, accepted]) = some (.int 381) := by
    decide +kernel
  obtain ⟨o, ho, horiginal⟩ := delivered_of_originalBytes hsize
  rcases h _ _ _ o ho with rfl | ⟨record, dropped, hrecord, -, -, hfull⟩
  · -- the full outcome has no record
    exact absurd horiginal (by decide +kernel)
  · obtain ⟨inner, hinner, hvalue⟩ := Option.bind_eq_some_iff.mp horiginal
    obtain ⟨inner', hinner', hsome⟩ := Option.bind_eq_some_iff.mp hrecord
    obtain rfl := Option.some.inj hsome
    obtain rfl := Option.some.inj (hinner.symm.trans hinner')
    rw [valueAt, child, hfull] at hvalue
    have hbytes : some (Json.int (smallLimit.wireBytes (.obj (sampled.document smallLimit).fields))) =
      some (.int 381) := hvalue
    exact absurd hbytes (by decide +kernel)

end RunnerMailbox

end Conductress
