import Conductress.Runner.TrimLoop

/-!
# The size in the delivery record

`attach_record` writes the size of the outcome into the outcome. It measures
with a `0` in the record, writes that size, measures once more and writes that.
The second size is right unless it has a digit more than the first: then the
document has one byte more than its record says.

The first size must come close under a power of ten for that
(`PassesPowerOfTen`), and there the recorded size is wrong, and an outcome whose
measured size is the budget is over it (`sized_right_iff`).
-/

namespace Conductress

namespace OutcomeSize

/-- With its own digits in the place of one byte a size is as large as the next
power of ten. -/
def PassesPowerOfTen (n : ℕ) : Prop := 10 ^ Json.digitCount n ≤ n + (Json.digitCount n - 1)

instance (n : ℕ) : Decidable (PassesPowerOfTen n) := inferInstanceAs (Decidable (_ ≤ _))

example : (List.range 1000).filter (fun n => PassesPowerOfTen n) = [99, 998, 999] := by
  decide +kernel

variable {floatText : Rat → List Char} {c : TrimCall} {result : Fields}
  {values : List (ℕ × List PathPart)}

/-- The record says how large the outcome is, and it is within the budget unless
every bulk value was dropped. -/
structure SizedRight (floatText : Rat → List Char) (c : TrimCall) (r : TrimReturn) : Prop where
  sent   : valueAt [.key "result", .key deliveryKey, .key "sent_bytes"] (.obj r.returned) =
    some (.int (wireBytes floatText (.obj r.returned)))
  within : (wireBytes floatText (.obj r.returned) : Int) ≤ c.budget ∨
    ∀ result, Json.lookup c.outcome "result" = some (.obj result) →
      r.dropped = (bulkCandidates (wireBytes floatText) result).map droppedText

/-- As many bulk values as it takes leave an outcome whose size does not pass a
power of ten with its digits. -/
def Settles (floatText : Rat → List Char) (c : TrimCall) : Prop :=
  ∀ result k, Trimmable (wireBytes floatText) c result → 0 < k →
    k ≤ (bulkCandidates (wireBytes floatText) result).length →
    Enough (wireBytes floatText) c result k → Reached (wireBytes floatText) c result k →
    Clear (wireBytes floatText) c result k →
    ¬ PassesPowerOfTen (c.blankBytes (wireBytes floatText) result
      ((bulkCandidates (wireBytes floatText) result).take k))

/-! ## The size as a function of what the record says -/

/-- The record around the size in it. -/
theorem record_eq (dropped : List String) :
    ∃ fields, (Json.keys fields).Nodup ∧ ∀ sentBytes : ℕ,
      c.record (wireBytes floatText) dropped sentBytes =
        .obj (Json.setField fields "sent_bytes" (.int sentBytes)) := by
  refine ⟨[("trimmed", .bool true), ("reason", .str c.reason), ("dropped", .arr (dropped.map .str)),
    ("original_bytes", .int (wireBytes floatText (.obj c.outcome))), ("sent_bytes", .null),
    ("full_result_path", .str c.fullRecordPath)], ?_, fun sentBytes => ?_⟩
  · simp only [Json.keys, List.map_cons, List.map_nil]
    decide
  · rw [TrimCall.record, Json.setField_of_mem (by simp [Json.keys])]
    simp

/-- The outcome takes as many bytes as without the size, and its digits. -/
theorem wireBytes_recorded (hresult : (Json.obj result).uniqueKeys = true)
    (values : List (ℕ × List PathPart)) : ∃ bare, ∀ sentBytes,
      wireBytes floatText (.obj (c.recorded (wireBytes floatText) result values sentBytes)) =
        bare + Json.digitCount sentBytes := by
  obtain ⟨fields, hfields, hrecord⟩ : ∃ fields, (Json.keys fields).Nodup ∧ ∀ sentBytes : ℕ,
      c.record (wireBytes floatText) (values.map droppedText) sentBytes =
        .obj (Json.setField fields "sent_bytes" (.int sentBytes)) := record_eq _
  have hremoved := (Json.uniqueKeys_obj.mp (uniqueKeys_removed hresult values)).1
  have houtcome := (Json.uniqueKeys_obj.mp c.unique).1
  -- the size is in the record, the record in the result, the result in the outcome
  have hrecorded : Json.Around floatText fun v => .obj (Json.setField fields "sent_bytes" v) :=
    Json.Around.id.setField hfields "sent_bytes"
  obtain ⟨bare, hbare⟩ := (hrecorded.setField hremoved deliveryKey).setField houtcome "result"
  refine ⟨bare, fun sentBytes => ?_⟩
  rw [TrimCall.recorded, hrecord, ← Json.size_int floatText]
  exact hbare (.int sentBytes)

/-- **The record is right** exactly when the measured size has as many digits as
the one before it. -/
theorem measuredBytes_eq_iff (hresult : (Json.obj result).uniqueKeys = true)
    (values : List (ℕ × List PathPart)) :
    c.measuredBytes (wireBytes floatText) result values =
        wireBytes floatText (.obj (c.recorded (wireBytes floatText) result values
          (c.measuredBytes (wireBytes floatText) result values))) ↔
      ¬ PassesPowerOfTen (c.blankBytes (wireBytes floatText) result values) := by
  obtain ⟨bare, hbare⟩ : ∃ bare, ∀ sentBytes,
      wireBytes floatText (.obj (c.recorded (wireBytes floatText) result values sentBytes)) =
        bare + Json.digitCount sentBytes := wireBytes_recorded hresult values
  have hzero : Json.digitCount 0 = 1 := rfl
  have hblank : c.blankBytes (wireBytes floatText) result values = bare + 1 := by
    rw [TrimCall.blankBytes, hbare, hzero]
  have hpos := Json.digitCount_pos (bare + 1)
  have hmeasured : c.measuredBytes (wireBytes floatText) result values =
      bare + 1 + (Json.digitCount (bare + 1) - 1) := by
    rw [TrimCall.measuredBytes, hbare, hblank]
    omega
  rw [hbare, hmeasured, hblank, PassesPowerOfTen, Nat.not_le, ← Json.digitCount_add_digits]
  generalize Json.digitCount (bare + 1 + (Json.digitCount (bare + 1) - 1)) = digits
  omega

/-! ## Calls -/

theorem sent_recorded (sentBytes : ℕ) :
    valueAt [.key "result", .key deliveryKey, .key "sent_bytes"]
      (.obj (c.recorded (wireBytes floatText) result values sentBytes)) = some (.int sentBytes) := by
  rw [valueAt, child, TrimCall.recorded, Json.lookup_setField, Option.bind_some, valueAt, child,
    Json.lookup_setField]
  rfl

theorem sizedRight_returnOf (h : Trimmable (wireBytes floatText) c result) {k : ℕ}
    (henough : Enough (wireBytes floatText) c result k) :
    SizedRight floatText c (returnOf (wireBytes floatText) c result
        ((bulkCandidates (wireBytes floatText) result).take k)) ↔
      ¬ PassesPowerOfTen (c.blankBytes (wireBytes floatText) result
        ((bulkCandidates (wireBytes floatText) result).take k)) := by
  rw [← measuredBytes_eq_iff h.uniqueKeys]
  refine ⟨fun hsized => ?_, fun heq => ⟨?_, ?_⟩⟩
  · have hsent := hsized.sent
    rw [returnOf] at hsent
    dsimp only at hsent
    rw [sent_recorded] at hsent
    exact Int.ofNat.inj (Json.int.inj (Option.some.inj hsent))
  · rw [returnOf]
    dsimp only
    rw [sent_recorded, ← heq]
  · rcases henough with rfl | ⟨-, -, hfits⟩
    · refine .inr fun other hother => ?_
      obtain rfl := Json.obj.inj (Option.some.inj (hother.symm.trans h.holds))
      rw [returnOf, List.take_length]
    · refine .inl ?_
      rw [returnOf]
      dsimp only
      rw [← heq]
      exact hfits

/-- **The recorded size.** Whenever a call drops anything its record says how
large the outcome is and the outcome is within the budget unless all bulk values
went, if and only if the outcome's size with a `0` in the record does not pass a
power of ten with its digits. -/
theorem sized_right_iff (floatText : Rat → List Char) (c : TrimCall) :
    (∀ r, trimOutcome (wireBytes floatText) c = .ok r → r.dropped ≠ [] → SizedRight floatText c r) ↔
      Settles floatText c := by
  by_cases hnone : ∀ result, ¬ Trimmable (wireBytes floatText) c result
  · refine iff_of_true (fun r hr hdropped => ?_) fun result k h => absurd h (hnone result)
    rw [trimOutcome_nothing hnone] at hr
    obtain rfl := Except.ok.inj hr
    exact absurd rfl hdropped
  push Not at hnone
  obtain ⟨result, h⟩ := hnone
  have hsame : ∀ other, Trimmable (wireBytes floatText) c other → other = result := by
    intro other hother
    exact Json.obj.inj (Option.some.inj (hother.holds.symm.trans h.holds))
  have hreturns := trimOutcome_returns h
  generalize trimOutcome (wireBytes floatText) c = o at hreturns ⊢
  cases hreturns with
  | @raised e j d hbudget hj hget hdelivery hreached =>
    refine iff_of_true (fun r hr => by cases hr) fun other k hother hpos hk henough _ hclear => ?_
    obtain rfl := hsame other hother
    -- the loop would have ended before the value it raises at
    obtain ⟨hlt, -⟩ := List.getElem?_eq_some_iff.mp hget
    have hle := henough.le_of_reached hpos hlt hreached
    exact absurd hdelivery (hclear hbudget j d hj hle hget)
  | @trimmed k hpos hk henough hreached hclear =>
    have hsized := sizedRight_returnOf h henough
    refine ⟨fun hright other k' hother hpos' hk' henough' hreached' _ => ?_, fun hsettles r hr _ => ?_⟩
    · obtain rfl := hsame other hother
      obtain rfl : k' = k :=
        le_antisymm (henough.le_of_reached hpos hk' hreached')
          (henough'.le_of_reached hpos' hk hreached)
      refine hsized.mp (hright _ rfl ?_)
      rw [returnOf]
      intro hnil
      rw [List.map_eq_nil_iff, List.take_eq_nil_iff] at hnil
      rcases hnil with hzero | hnil
      · omega
      · exact h.hasBulk hnil
    · obtain rfl := Except.ok.inj hr
      exact hsized.mpr (hsettles result k h hpos hk henough hreached hclear)

/-- An outcome of 998 bytes with a `0` in the record. -/
def nearlyThousand : TrimCall where
  outcome        := [("state", .str "completed"), ("result", .obj [("score", .int 1000),
    ("reps", .arr (List.replicate 388 (.int 1))),
    ("series", .arr [.int 1, .int 2, .int 3])])]
  unique         := by decide +kernel
  budget         := 1
  reason         := "preflight"
  fullRecordPath := "/r/output.jsonl"

/-- Its record says 1000 bytes; it takes 1001. -/
theorem sent_one_byte_more : ¬ ∀ c : TrimCall, 0 < c.budget →
    c.budget < wireBytes (fun _ => []) (.obj c.outcome) →
    ∀ r, trimOutcome (wireBytes fun _ => []) c = .ok r → r.dropped ≠ [] →
      SizedRight (fun _ => []) c r := by
  intro h
  have hcall := h nearlyThousand (by decide) (by decide +kernel)
  have hsizes : ((trimOutcome (wireBytes fun _ => []) nearlyThousand).toOption.map fun r =>
      (r.dropped, valueAt [.key "result", .key deliveryKey, .key "sent_bytes"] (.obj r.returned),
        wireBytes (fun _ => []) (.obj r.returned))) =
      some (["result.series (7 bytes)"], some (.int 1000), 1001) := by decide +kernel
  cases hr : trimOutcome (wireBytes fun _ => []) nearlyThousand with
  | error e =>
    rw [hr] at hsizes
    cases hsizes
  | ok r =>
    rw [hr] at hsizes
    obtain ⟨hdropped, hsizes⟩ := Prod.mk.inj (Option.some.inj hsizes)
    obtain ⟨hsent, hbytes⟩ := Prod.mk.inj hsizes
    have hright := (hcall r hr (by rw [hdropped]; exact List.cons_ne_nil _ _)).sent
    rw [hsent, hbytes] at hright
    exact absurd (Json.int.inj (Option.some.inj hright)) (by decide)

end OutcomeSize

end Conductress
