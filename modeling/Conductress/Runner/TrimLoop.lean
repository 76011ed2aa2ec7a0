import Conductress.Runner.TrimDeletion

/-!
# What trimming returns

The loop of `trim_outcome` keeps the copy equal to the caller's outcome without
the first bulk values (`Holds`), and ends where these are enough or raises at a
value in an `outcome_delivery` (`dropBulk_loops`). So a call returns what it is
to return if and only if it does not come to such a value (`trims_right_iff`).
-/

namespace Conductress

namespace OutcomeSize

section Run

variable {wireBytes : Json → ℕ} {c : TrimCall} {result : Fields}
  {values : List (ℕ × List PathPart)} {d : ℕ × List PathPart}

/-! ## The loop -/

/-- After some values were dropped: the copy is without them, and may have the
record of an earlier turn. -/
structure Holds (wireBytes : Json → ℕ) (c : TrimCall) (result : Fields)
    (values : List (ℕ × List PathPart)) (s : Trimming) : Prop where
  outcome : s.outcome = c.outcome
  dropped : s.dropped = values.map droppedText
  trimmed : ∃ r, s.trimmed = Json.setField c.outcome "result" (.obj r) ∧
    (r = removed result values ∨ (values ≠ [] ∧ 0 < c.budget ∧ ∃ texts sent,
      r = Json.setField (removed result values) deliveryKey (c.record wireBytes texts sent)))

/-- The state after the record was attached. -/
def recordedState (wireBytes : Json → ℕ) (c : TrimCall) (result : Fields)
    (values : List (ℕ × List PathPart)) : Trimming where
  outcome := c.outcome
  trimmed := c.recorded wireBytes result values (c.measuredBytes wireBytes result values)
  dropped := values.map droppedText

theorem Holds.attach {s : Trimming} (h : Holds wireBytes c result values s) :
    attachRecord wireBytes c s =
      (recordedState wireBytes c result values, c.measuredBytes wireBytes result values) := by
  obtain ⟨outcome, trimmed, dropped⟩ := s
  obtain ⟨rfl, rfl, r, rfl, hr⟩ := h
  -- whatever is under the delivery key is replaced
  have hrecorded : ∀ sent, Json.setField r deliveryKey
      (c.record wireBytes (values.map droppedText) sent) =
        Json.setField (removed result values) deliveryKey
          (c.record wireBytes (values.map droppedText) sent) := by
    intro sent
    rcases hr with rfl | ⟨-, -, texts, sent', rfl⟩
    · rfl
    · rw [Json.setField_setField]
  have hattached : ∀ sent, Json.setField (Json.setField c.outcome "result" (.obj r)) "result"
      (putItem (Json.getD (Json.setField c.outcome "result" (.obj r)) "result") (.key deliveryKey)
        (c.record wireBytes (values.map droppedText) sent)) =
        c.recorded wireBytes result values sent := by
    intro sent
    rw [Json.getD, Json.lookup_setField, Option.getD_some, putItem, Json.setField_setField,
      hrecorded, TrimCall.recorded]
  unfold attachRecord
  dsimp only [Trimming.setResult, Trimming.result]
  rw [hattached, hattached, hattached]
  rfl

theorem Holds.recordedState (hvalues : values ≠ []) (hbudget : 0 < c.budget) :
    Holds wireBytes c result values (recordedState wireBytes c result values) :=
  ⟨rfl, rfl, _, rfl, .inr ⟨hvalues, hbudget, _, _, rfl⟩⟩

/-- One value more, without a record in the copy. -/
theorem Holds.drop {s : Trimming} (h : Holds wireBytes c result values s)
    (hplain : values = [] ∨ ¬ 0 < c.budget) (hunique : (Json.obj result).uniqueKeys = true)
    (hd : BulkAt wireBytes d.1 d.2 (.obj result)) (hends : ∀ e ∈ values, EndsInKey e.2)
    (hapart : ∀ e ∈ values, Apart e.2 d.2) :
    ∃ s', dropValue d s = .ok s' ∧ Holds wireBytes c result (values ++ [d]) s' := by
  obtain ⟨outcome, trimmed, dropped⟩ := s
  obtain ⟨rfl, rfl, r, rfl, hr⟩ := h
  obtain rfl : r = removed result values := by
    rcases hr with hr | ⟨hvalues, hbudget, -⟩
    · exact hr
    · rcases hplain with rfl | hplain
      · exact absurd rfl hvalues
      · exact absurd hbudget hplain
  refine ⟨⟨c.outcome, Json.setField c.outcome "result" (.obj (removed result (values ++ [d]))),
    (values ++ [d]).map droppedText⟩, ?_, rfl, rfl, _, rfl, .inl rfl⟩
  rw [dropValue, Trimming.result, Json.getD, Json.lookup_setField, Option.getD_some,
    deletePath?_removed hunique hd hends hapart]
  dsimp only [bind, Except.bind, pure, Except.pure, Trimming.setResult]
  rw [Json.setField_setField, List.map_append, List.map_singleton]

/-- One value more, with the record in the copy. -/
theorem dropValue_recorded (hunique : (Json.obj result).uniqueKeys = true)
    (hd : BulkAt wireBytes d.1 d.2 (.obj result)) (hends : ∀ e ∈ values, EndsInKey e.2)
    (hapart : ∀ e ∈ values, Apart e.2 d.2) (hbudget : 0 < c.budget) (hout : ¬ InDelivery d.2) :
    ∃ s', dropValue d (recordedState wireBytes c result values) = .ok s' ∧
      Holds wireBytes c result (values ++ [d]) s' := by
  refine ⟨⟨c.outcome, Json.setField c.outcome "result" (.obj (Json.setField
    (removed result (values ++ [d])) deliveryKey (c.record wireBytes (values.map droppedText)
      (c.measuredBytes wireBytes result values)))), (values ++ [d]).map droppedText⟩, ?_,
    rfl, rfl, _, rfl, .inr ⟨List.append_ne_nil_of_right_ne_nil _ (List.cons_ne_nil _ _), hbudget,
      _, _, rfl⟩⟩
  rw [dropValue, Trimming.result, recordedState, TrimCall.recorded]
  dsimp only
  rw [Json.getD, Json.lookup_setField, Option.getD_some,
    deletePath?_recorded hunique hd hends hapart hout]
  dsimp only [bind, Except.bind, pure, Except.pure, Trimming.setResult]
  rw [Json.setField_setField, List.map_append, List.map_singleton]

theorem dropValue_inDelivery (h : InDelivery d.2) :
    ∃ e, dropValue d (recordedState wireBytes c result values) = .error e := by
  obtain ⟨e, he⟩ : ∃ e, deletePath? d.2 (.obj (Json.setField (removed result values) deliveryKey
      (c.record wireBytes (values.map droppedText) (c.measuredBytes wireBytes result values)))) =
        .error e := deletePath?_inDelivery h _ _ _
  refine ⟨e, ?_⟩
  rw [dropValue, Trimming.result, recordedState, TrimCall.recorded]
  dsimp only
  rw [Json.getD, Json.lookup_setField, Option.getD_some, he]
  rfl

/-- Where the loop ends: after all of them, or where the measured size fits. -/
def Enough (wireBytes : Json → ℕ) (c : TrimCall) (result : Fields) (k : ℕ) : Prop :=
  k = (bulkCandidates wireBytes result).length ∨ (0 < k ∧ 0 < c.budget ∧
    c.measuredBytes wireBytes result ((bulkCandidates wireBytes result).take k) ≤ c.budget)

/-- The number of values that go is the least that is enough. -/
theorem Enough.le_of_reached {k k' : ℕ} (h : Enough wireBytes c result k) (hpos : 0 < k)
    (hk' : k' ≤ (bulkCandidates wireBytes result).length)
    (hreached : Reached wireBytes c result k') : k' ≤ k := by
  rcases h with rfl | ⟨-, hbudget, hfits⟩
  · exact hk'
  · by_contra hlt
    exact absurd (hreached hbudget k hpos (Nat.not_le.mp hlt)) (Int.not_lt.mpr hfits)

/-- None of the first few bulk values but the first lies below the record. -/
def Clear (wireBytes : Json → ℕ) (c : TrimCall) (result : Fields) (k : ℕ) : Prop :=
  0 < c.budget → ∀ j d, 0 < j → j < k → (bulkCandidates wireBytes result)[j]? = some d →
    ¬ InDelivery d.2

theorem take_succ_of_getElem? {k : ℕ} {values : List (ℕ × List PathPart)}
    (h : values[k]? = some d) : values.take (k + 1) = values.take k ++ [d] := by
  rw [List.take_add_one, h]
  rfl

/-- The bulk value after the first `k`, and these. -/
theorem bulkCandidates_next (hunique : (Json.obj result).uniqueKeys = true) {k : ℕ}
    (h : (bulkCandidates wireBytes result)[k]? = some d) :
    BulkAt wireBytes d.1 d.2 (.obj result) ∧
      (∀ e ∈ (bulkCandidates wireBytes result).take k, EndsInKey e.2) ∧
      ∀ e ∈ (bulkCandidates wireBytes result).take k, Apart e.2 d.2 := by
  refine ⟨bulkCandidates_found hunique (List.mem_of_getElem? h), fun e he => ?_, fun e he => ?_⟩
  · exact (bulkCandidates_found hunique (List.mem_of_mem_take he)).endsInKey
  · have hpairs : ((bulkCandidates wireBytes result).take (k + 1)).Pairwise
        fun a b => Apart a.2 b.2 := (bulkCandidates_apart hunique).sublist (List.take_sublist _ _)
    rw [take_succ_of_getElem? h, List.pairwise_append] at hpairs
    exact hpairs.2.2 e he d List.mem_cons_self

/-- What the loop does from a state with the first `k` dropped. -/
inductive Loops (wireBytes : Json → ℕ) (c : TrimCall) (result : Fields) :
    Except DeleteError Trimming → Prop where
  | done {s : Trimming} {k : ℕ} : k ≤ (bulkCandidates wireBytes result).length →
      Holds wireBytes c result ((bulkCandidates wireBytes result).take k) s →
      Enough wireBytes c result k → Reached wireBytes c result k → Clear wireBytes c result k →
      Loops wireBytes c result (.ok s)
  | raised {e : DeleteError} {j : ℕ} {d : ℕ × List PathPart} : 0 < c.budget → 0 < j →
      (bulkCandidates wireBytes result)[j]? = some d → InDelivery d.2 →
      Reached wireBytes c result (j + 1) → Loops wireBytes c result (.error e)

/-- **The loop**, by induction on the values that are left. -/
theorem dropBulk_loops (hunique : (Json.obj result).uniqueKeys = true)
    {rest : List (ℕ × List PathPart)} {k : ℕ} {s : Trimming}
    (hrest : (bulkCandidates wireBytes result).drop k = rest)
    (hk : k ≤ (bulkCandidates wireBytes result).length)
    (hs : Holds wireBytes c result ((bulkCandidates wireBytes result).take k) s)
    (hreached : Reached wireBytes c result k) (hclear : Clear wireBytes c result k) :
    Loops wireBytes c result (dropBulk wireBytes c rest s) := by
  induction rest generalizing k s with
  | nil =>
    have hlength := List.drop_eq_nil_iff.mp hrest
    exact .done hk hs (.inl (by omega)) hreached hclear
  | cons d rest ih =>
    have hget : (bulkCandidates wireBytes result)[k]? = some d := by
      rw [← Nat.add_zero k, ← List.getElem?_drop, hrest]
      rfl
    obtain ⟨hlt, -⟩ := List.getElem?_eq_some_iff.mp hget
    have hnext : (bulkCandidates wireBytes result).drop (k + 1) = rest := by
      rw [← List.drop_drop, hrest]
      rfl
    obtain ⟨hd, hends, hapart⟩ := bulkCandidates_next hunique hget
    rw [← Nat.succ_eq_add_one] at hnext
    unfold dropBulk
    by_cases hattach : s.dropped ≠ [] ∧ 0 < c.budget
    · have hpos : 0 < k := by
        rcases Nat.eq_zero_or_pos k with rfl | hpos
        · exact absurd hs.dropped hattach.1
        · exact hpos
      rw [if_pos hattach, hs.attach]
      dsimp only
      by_cases hfits : (c.measuredBytes wireBytes result
          ((bulkCandidates wireBytes result).take k) : Int) ≤ c.budget
      · rw [if_pos hfits]
        refine .done hk (.recordedState ?_ hattach.2) (.inr ⟨hpos, hattach.2, hfits⟩) hreached hclear
        intro hnil
        rw [hs.dropped, hnil] at hattach
        exact hattach.1 rfl
      · rw [if_neg hfits]
        have hreached : Reached wireBytes c result (k + 1) := by
          intro hbudget j hj hjk
          rcases Nat.lt_succ_iff_lt_or_eq.mp hjk with hjk | rfl
          · exact hreached hbudget j hj hjk
          · exact Int.not_le.mp hfits
        by_cases hdelivery : InDelivery d.2
        · obtain ⟨e, he⟩ := dropValue_inDelivery hdelivery
          rw [he]
          exact .raised hattach.2 hpos hget hdelivery hreached
        · obtain ⟨s', hs', hholds⟩ :=
            dropValue_recorded hunique hd hends hapart hattach.2 hdelivery
          rw [hs']
          rw [← take_succ_of_getElem? hget] at hholds
          refine ih hnext hlt hholds hreached fun hbudget j d' hj hjk hd' => ?_
          rcases Nat.lt_succ_iff_lt_or_eq.mp hjk with hjk | rfl
          · exact hclear hbudget j d' hj hjk hd'
          · rw [Option.some.inj (hd'.symm.trans hget)]
            exact hdelivery
    · rw [if_neg hattach]
      have hplain : k = 0 ∨ ¬ 0 < c.budget := by
        by_cases hbudget : 0 < c.budget
        · have hnil : s.dropped = [] := by
            by_contra hne
            exact hattach ⟨hne, hbudget⟩
          rw [hs.dropped, List.map_eq_nil_iff, List.take_eq_nil_iff] at hnil
          refine .inl (hnil.resolve_right fun hempty => ?_)
          rw [hempty] at hget
          cases hget
        · exact .inr hbudget
      obtain ⟨s', hs', hholds⟩ := hs.drop (hplain.imp (fun h => by rw [h]; rfl) fun h => h) hunique hd
        hends hapart
      rw [hs']
      rw [← take_succ_of_getElem? hget] at hholds
      refine ih hnext hlt hholds (fun hbudget j hj hjk => ?_) fun hbudget j d' hj hjk => ?_
      · have hzero := hplain.resolve_right fun h => h hbudget
        omega
      · have hzero := hplain.resolve_right fun h => h hbudget
        omega

/-! ## The call -/

theorem trimOutcome_nothing (h : ∀ result, ¬ Trimmable wireBytes c result) :
    trimOutcome wireBytes c = .ok ⟨c.outcome, c.outcome, []⟩ := by
  unfold trimOutcome
  split
  · next result hresult =>
    split
    · rfl
    · next hbig =>
      have hnone : bulkCandidates wireBytes result = [] := by
        by_contra hbulk
        exact h result ⟨hresult, hbig, hbulk⟩
      rw [hnone]
      rfl
  · rfl

/-- What is returned after the loop. -/
def returnOf (wireBytes : Json → ℕ) (c : TrimCall) (result : Fields)
    (values : List (ℕ × List PathPart)) : TrimReturn where
  outcome  := c.outcome
  returned := c.recorded wireBytes result values (c.measuredBytes wireBytes result values)
  dropped  := values.map droppedText

/-- What a call does with a result that is to be trimmed. -/
inductive Returns (wireBytes : Json → ℕ) (c : TrimCall) (result : Fields) :
    Except DeleteError TrimReturn → Prop where
  | trimmed {k : ℕ} : 0 < k → k ≤ (bulkCandidates wireBytes result).length →
      Enough wireBytes c result k → Reached wireBytes c result k → Clear wireBytes c result k →
      Returns wireBytes c result
        (.ok (returnOf wireBytes c result ((bulkCandidates wireBytes result).take k)))
  | raised {e : DeleteError} {j : ℕ} {d : ℕ × List PathPart} : 0 < c.budget → 0 < j →
      (bulkCandidates wireBytes result)[j]? = some d → InDelivery d.2 →
      Reached wireBytes c result (j + 1) → Returns wireBytes c result (.error e)

theorem Trimmable.uniqueKeys (h : Trimmable wireBytes c result) :
    (Json.obj result).uniqueKeys = true :=
  (Json.uniqueKeys_obj.mp c.unique).2 _ (Json.lookup_mem h.holds)

/-- **One call.** -/
theorem trimOutcome_returns (h : Trimmable wireBytes c result) :
    Returns wireBytes c result (trimOutcome wireBytes c) := by
  have hstart : Holds wireBytes c result ((bulkCandidates wireBytes result).take 0)
      ⟨c.outcome, c.outcome, []⟩ := by
    refine ⟨rfl, rfl, result, ?_, .inl rfl⟩
    exact (Json.setField_self (Json.uniqueKeys_obj.mp c.unique).1 h.holds).symm
  have hloops := dropBulk_loops h.uniqueKeys rfl (Nat.zero_le _) hstart
    (fun _ j hj hj' => absurd hj' (Nat.not_lt_zero j)) fun _ j _ hj hj' => absurd hj' (Nat.not_lt_zero j)
  unfold trimOutcome
  rw [h.holds]
  dsimp only
  rw [if_neg h.tooBig]
  rw [List.drop_zero] at hloops
  generalize dropBulk wireBytes c (bulkCandidates wireBytes result) ⟨c.outcome, c.outcome, []⟩ = o
    at hloops ⊢
  cases hloops with
  | raised hbudget hj hget hdelivery hreached => exact .raised hbudget hj hget hdelivery hreached
  | @done s k hk hs henough hreached hclear =>
    have hpos : 0 < k := by
      rcases henough with rfl | ⟨hpos, -⟩
      · exact List.length_pos_iff.mpr h.hasBulk
      · exact hpos
    have hdropped : s.dropped ≠ [] := by
      rw [hs.dropped]
      intro hnil
      rw [List.map_eq_nil_iff, List.take_eq_nil_iff] at hnil
      rcases hnil with hzero | hnil
      · omega
      · exact h.hasBulk hnil
    dsimp only [bind, Except.bind]
    rw [if_neg hdropped, hs.attach]
    exact .trimmed hpos hk henough hreached hclear

/-- **A call that returns** leaves the outcome alone, or drops the first few of its
bulk values. -/
theorem trimOutcome_ok {r : TrimReturn} (h : trimOutcome wireBytes c = .ok r) :
    (r = ⟨c.outcome, c.outcome, []⟩ ∧ ∀ result, ¬ Trimmable wireBytes c result) ∨
    ∃ result k, Trimmable wireBytes c result ∧ 0 < k ∧
      k ≤ (bulkCandidates wireBytes result).length ∧ Enough wireBytes c result k ∧
      Reached wireBytes c result k ∧
      r = returnOf wireBytes c result ((bulkCandidates wireBytes result).take k) := by
  by_cases hnone : ∀ result, ¬ Trimmable wireBytes c result
  · rw [trimOutcome_nothing hnone] at h
    exact .inl ⟨(Except.ok.inj h).symm, hnone⟩
  push Not at hnone
  obtain ⟨result, htrimmable⟩ := hnone
  have hreturns := trimOutcome_returns htrimmable
  rw [h] at hreturns
  cases hreturns with
  | trimmed hpos hk henough hreached hclear =>
    exact .inr ⟨result, _, htrimmable, hpos, hk, henough, hreached, rfl⟩

/-- What is returned when as many as it takes go. -/
theorem dropsFirst_returnOf (h : Trimmable wireBytes c result) {k : ℕ} (hpos : 0 < k)
    (hk : k ≤ (bulkCandidates wireBytes result).length) (henough : Enough wireBytes c result k)
    (hreached : Reached wireBytes c result k) :
    DropsFirst wireBytes c result k
      (returnOf wireBytes c result ((bulkCandidates wireBytes result).take k)) := by
  have hbulk : ∀ d ∈ (bulkCandidates wireBytes result).take k,
      BulkAt wireBytes d.1 d.2 (.obj result) :=
    fun d hd => bulkCandidates_found h.uniqueKeys (List.mem_of_mem_take hd)
  refine ⟨hpos, hk, fun d hd e he => ?_, henough.imp_right And.right, hreached, rfl, hbulk, rfl, ?_⟩
  · have hsorted : (bulkCandidates wireBytes result).Pairwise candidateLe := bulkCandidates_sorted
    rw [← List.take_append_drop k (bulkCandidates wireBytes result), List.pairwise_append] at hsorted
    rcases hsorted.2.2 d hd e he with hlt | ⟨heq, -⟩
    · exact hlt.le
    · exact heq.ge
  · have hcut := (cutOut_removed result fun d hd => (hbulk d hd).endsInKey).without deliveryKey
    rw [returnOf, TrimCall.recorded]
    dsimp only
    rw [Json.getD, Json.lookup_setField, Option.getD_some, deletePath, Json.eraseField_setField_self]
    exact hcut

/-- **`trim_outcome`.** A call drops the biggest bulk values, as many as it takes
and no more, and leaves the rest of the outcome as it is, if and only if none that
must go after the first lies two levels below an `outcome_delivery`: there it
raises. -/
theorem trims_right_iff (wireBytes : Json → ℕ) (c : TrimCall) :
    (∃ r, trimOutcome wireBytes c = .ok r ∧ TrimsRight wireBytes c r) ↔
      ¬ MustDropInDelivery wireBytes c := by
  by_cases hnone : ∀ result, ¬ Trimmable wireBytes c result
  · refine iff_of_true ⟨_, trimOutcome_nothing hnone, rfl, fun result h => absurd h (hnone result),
      fun _ => ⟨rfl, rfl⟩⟩ ?_
    rintro ⟨-, result, j, d, h, -⟩
    exact hnone result h
  push Not at hnone
  obtain ⟨result, h⟩ := hnone
  have hsame : ∀ other, Trimmable wireBytes c other → other = result := by
    intro other hother
    exact Json.obj.inj (Option.some.inj (hother.holds.symm.trans h.holds))
  have hreturns := trimOutcome_returns h
  generalize trimOutcome wireBytes c = o at hreturns ⊢
  cases hreturns with
  | raised hbudget hj hget hdelivery hreached =>
    refine iff_of_false ?_ fun hnot => hnot ⟨hbudget, result, _, _, h, hj, hget, hdelivery, hreached⟩
    rintro ⟨r, hr, -⟩
    cases hr
  | @trimmed k hpos hk henough hreached hclear =>
    refine iff_of_true ⟨_, rfl, rfl, fun other hother => ⟨k, ?_⟩, fun hnone => absurd h (hnone result)⟩ ?_
    · rw [hsame other hother]
      exact dropsFirst_returnOf h hpos hk henough hreached
    · rintro ⟨hbudget, other, j, d, hother, hj, hget, hdelivery, hreached'⟩
      obtain rfl := hsame other hother
      -- the loop has passed that value
      obtain ⟨hlt, -⟩ := List.getElem?_eq_some_iff.mp hget
      exact hclear hbudget j d hj (henough.le_of_reached hpos hlt hreached') hget hdelivery

/-- A call that returns has not come to a value in an `outcome_delivery`. -/
theorem not_mustDropInDelivery_of_ok {r : TrimReturn} (h : trimOutcome wireBytes c = .ok r) :
    ¬ MustDropInDelivery wireBytes c := by
  rintro ⟨hbudget, result, j, d, htrimmable, hj, hget, hdelivery, hreached⟩
  have hreturns := trimOutcome_returns htrimmable
  rw [h] at hreturns
  cases hreturns with
  | trimmed hpos _ henough _ hclear =>
    obtain ⟨hlt, -⟩ := List.getElem?_eq_some_iff.mp hget
    exact hclear hbudget j d hj (henough.le_of_reached hpos hlt hreached) hget hdelivery

end Run

/-- A result with a delivery record of its own, and a bulk value two levels below
it. -/
def deliveredBefore : TrimCall where
  outcome        := [("result", .obj [("series", .arr [.int 1, .int 2, .int 3]),
    ("outcome_delivery", .obj [("earlier", .obj [("samples", .arr [])])])])]
  unique         := by decide
  budget         := 1
  reason         := "preflight"
  fullRecordPath := "/r/output.jsonl"

/-- The second deletion raises `KeyError('earlier')`. -/
theorem delivered_before_raises :
    ¬ ∀ c : TrimCall, ∃ r, trimOutcome (wireBytes fun _ => []) c = .ok r ∧
      TrimsRight (wireBytes fun _ => []) c r := by
  intro h
  obtain ⟨r, hr, -⟩ := h deliveredBefore
  have hraises : trimOutcome (wireBytes fun _ => []) deliveredBefore =
      .error (.keyError (.key "earlier")) := by decide +kernel
  rw [hraises] at hr
  cases hr

end OutcomeSize

end Conductress
