import Conductress.Lib.Except
import Conductress.Runner.TrimLoop
import Conductress.Runner.TrimLacking

/-!
# Trimming the outcome of a task

`trim_outcome` as the mailbox calls it: of the document of a task's outcome, of
which it changes the result and nothing else (`trimTask_frame`,
`trimTask_document`). `trimTask_ok_iff` says when it raises; with a budget of zero
it does not (`trimTask_zero`). Where it drops any bulk value the document is
another one (`toJson_trimTask_ne`).
-/

namespace Conductress

/-- The fields of the document of an outcome. -/
def TaskOutcome.fields (o : TaskOutcome) : Fields :=
  match o.toJson with
  | .obj fields => fields
  | _ => []

/-- The call of `trim_outcome` for the outcome. -/
def TaskOutcome.trimCall (o : TaskOutcome) (unique : o.toJson.uniqueKeys = true) (budget : ℕ)
    (reason fullRecordPath : String) : OutcomeSize.TrimCall where
  outcome        := o.fields
  unique         := unique
  budget         := budget
  reason         := reason
  fullRecordPath := fullRecordPath

namespace OutcomeSize

/-- The outcome whose document is the one that was returned. -/
def TrimReturn.outcomeOf (r : TrimReturn) (o : TaskOutcome) : TaskOutcome :=
  match Json.lookup r.returned "result" with
  | some (.obj result) => { o with result := .value result }
  | _ => o

/-- `trim_outcome` of a task's outcome, with what was dropped. A dictionary has
each key once; what has not is none, and is left alone. -/
def trimTask (wireBytes : Json → ℕ) (o : TaskOutcome) (budget : ℕ) (reason fullRecordPath : String) :
    Except DeleteError (TaskOutcome × List String) :=
  if unique : o.toJson.uniqueKeys = true then
    (trimOutcome wireBytes (o.trimCall unique budget reason fullRecordPath)).map fun r =>
      (r.outcomeOf o, r.dropped)
  else .ok (o, [])

/-- To fit the outcome, a bulk value must go that lies in an `outcome_delivery` of
the result's own. -/
def DropsInDelivery (wireBytes : Json → ℕ) (o : TaskOutcome) (budget : ℕ)
    (reason fullRecordPath : String) : Prop :=
  ∃ unique, MustDropInDelivery wireBytes (o.trimCall unique budget reason fullRecordPath)

section Trim

variable {wireBytes : Json → ℕ} {o o' : TaskOutcome} {budget : ℕ} {reason path : String}
  {dropped : List String}

theorem toJson_fields (o : TaskOutcome) : o.toJson = .obj o.fields := rfl

theorem outcomeOf_frame (r : TrimReturn) (o : TaskOutcome) :
    (r.outcomeOf o).taskId = o.taskId ∧ (r.outcomeOf o).runnerId = o.runnerId ∧
      (r.outcomeOf o).state = o.state ∧ (r.outcomeOf o).completedAt = o.completedAt := by
  unfold TrimReturn.outcomeOf
  split <;> exact ⟨rfl, rfl, rfl, rfl⟩

/-- Trimming changes the result of an outcome and nothing else. -/
theorem trimTask_frame (h : trimTask wireBytes o budget reason path = .ok (o', dropped)) :
    o'.taskId = o.taskId ∧ o'.runnerId = o.runnerId ∧ o'.state = o.state ∧
      o'.completedAt = o.completedAt := by
  unfold trimTask at h
  split at h
  · obtain ⟨r, -, hr⟩ := Lib.except_map_ok.mp h
    obtain ⟨rfl, -⟩ := Prod.mk.inj hr
    exact outcomeOf_frame r o
  · obtain ⟨rfl, -⟩ := Prod.mk.inj (Except.ok.inj h)
    exact ⟨rfl, rfl, rfl, rfl⟩

/-- What is returned of a document whose outcome was not to be trimmed. -/
theorem outcomeOf_same {r : TrimReturn} (h : r.returned = o.fields) : r.outcomeOf o = o := by
  unfold TrimReturn.outcomeOf
  rw [h]
  cases hresult : o.result with
  | value result =>
    have hlookup : Json.lookup o.fields "result" = some (.obj result) := by
      simp [TaskOutcome.fields, TaskOutcome.toJson, hresult, Json.lookup]
    rw [hlookup]
    cases o
    cases hresult
    rfl
  | absent | null =>
    have hlookup : Json.lookup o.fields "result" = some .null := by
      simp [TaskOutcome.fields, TaskOutcome.toJson, hresult, Json.lookup]
    rw [hlookup]

/-- The document with another result. -/
theorem toJson_withResult (o : TaskOutcome) (result : Fields) :
    ({ o with result := .value result } : TaskOutcome).toJson =
      .obj (Json.setField o.fields "result" (.obj result)) := by
  rw [Json.setField_of_mem (by simp [TaskOutcome.fields, TaskOutcome.toJson, Json.keys])]
  simp [TaskOutcome.fields, TaskOutcome.toJson]

/-- **The outcome that is returned** has the document that is. -/
theorem toJson_outcomeOf {unique : o.toJson.uniqueKeys = true} {r : TrimReturn}
    (h : trimOutcome wireBytes (o.trimCall unique budget reason path) = .ok r) :
    (r.outcomeOf o).toJson = .obj r.returned := by
  rcases trimOutcome_ok h with ⟨rfl, -⟩ | ⟨result, k, -, -, -, -, -, rfl⟩
  · rw [outcomeOf_same rfl]
    rfl
  · unfold TrimReturn.outcomeOf
    rw [returnOf, TrimCall.recorded]
    dsimp only
    rw [Json.lookup_setField]
    exact toJson_withResult o _

/-- A call that returns, of a document. -/
theorem trimTask_document (unique : o.toJson.uniqueKeys = true)
    (h : trimTask wireBytes o budget reason path = .ok (o', dropped)) :
    ∃ r, trimOutcome wireBytes (o.trimCall unique budget reason path) = .ok r ∧
      o'.toJson = .obj r.returned ∧ dropped = r.dropped := by
  unfold trimTask at h
  rw [dif_pos unique] at h
  obtain ⟨r, hr, hpair⟩ := Lib.except_map_ok.mp h
  obtain ⟨rfl, rfl⟩ := Prod.mk.inj hpair
  exact ⟨r, hr, toJson_outcomeOf hr, rfl⟩

/-- **A call raises** where a bulk value that must go lies in an
`outcome_delivery`, and only there. -/
theorem trimTask_ok_iff : (∃ trimmed, trimTask wireBytes o budget reason path = .ok trimmed) ↔
    ¬ DropsInDelivery wireBytes o budget reason path := by
  unfold trimTask DropsInDelivery
  split
  · next unique =>
    constructor
    · rintro ⟨trimmed, htrim⟩ ⟨_, hmust⟩
      obtain ⟨r, hr, -⟩ := Lib.except_map_ok.mp htrim
      exact not_mustDropInDelivery_of_ok hr hmust
    · intro hnot
      obtain ⟨r, hr, -⟩ := (trims_right_iff _ _).mpr fun hmust => hnot ⟨unique, hmust⟩
      rw [hr]
      exact ⟨_, rfl⟩
  · next hdouble => exact iff_of_true ⟨_, rfl⟩ fun hdrops => hdouble hdrops.choose

/-- **With a budget of zero** nothing is looked up in the delivery record. -/
theorem trimTask_zero (wireBytes : Json → ℕ) (o : TaskOutcome) (reason path : String) :
    ∃ trimmed, trimTask wireBytes o 0 reason path = .ok trimmed :=
  trimTask_ok_iff.mpr fun ⟨_, hmust⟩ => lt_irrefl 0 hmust.1

/-- Where there is nothing to drop, nothing need be. -/
theorem not_dropsInDelivery {result : Fields} (hresult : o.result = .value result)
    (hnone : bulkCandidates wireBytes result = []) :
    ¬ DropsInDelivery wireBytes o budget reason path := by
  rintro ⟨_, -, other, -, -, htrimmable, -⟩
  have hlookup : Json.lookup o.fields "result" = some (.obj other) := htrimmable.holds
  simp only [TaskOutcome.fields, TaskOutcome.toJson, hresult, Json.lookup] at hlookup
  obtain rfl : result = other := by simpa using hlookup
  exact htrimmable.hasBulk hnone

instance (wireBytes : Json → ℕ) (o : TaskOutcome) (budget : ℕ) (reason path : String) :
    Decidable (DropsInDelivery wireBytes o budget reason path) :=
  match h : trimTask wireBytes o budget reason path with
  | .ok trimmed => isFalse (trimTask_ok_iff.mp ⟨trimmed, h⟩)
  | .error e => isTrue (not_not.mp fun hnot => by
      obtain ⟨trimmed, hok⟩ := trimTask_ok_iff.mpr hnot
      rw [h] at hok
      cases hok)

/-- **Dropping anything** changes the document: it has fewer bulk values. -/
theorem toJson_trimTask_ne (h : trimTask wireBytes o budget reason path = .ok (o', dropped))
    (hdropped : dropped ≠ []) : o'.toJson ≠ o.toJson := by
  by_cases unique : o.toJson.uniqueKeys = true
  · obtain ⟨r, hr, hdocument, rfl⟩ := trimTask_document unique h
    rcases trimOutcome_ok hr with ⟨rfl, -⟩ | ⟨result, k, htrimmable, hpos, hk, -, -, rfl⟩
    · exact absurd rfl hdropped
    · have hsome : (bulkCandidates wireBytes result).take k ≠ [] := by
        rw [← List.length_pos_iff, List.length_take, Nat.min_eq_left hk]
        exact hpos
      intro hsame
      rw [hdocument, toJson_fields] at hsame
      have hfields := Json.obj.inj hsame
      have hfewer := @length_bulkCandidates_recorded wireBytes (o.trimCall unique budget reason path)
        result _ (((bulkCandidates wireBytes result).take k).map droppedText)
        (TrimCall.measuredBytes wireBytes (o.trimCall unique budget reason path) result
          ((bulkCandidates wireBytes result).take k)) hsome fun _ => List.mem_of_mem_take
      have hresult : Json.lookup o.fields "result" = some (.obj result) := htrimmable.holds
      rw [← hfields, returnOf, TrimCall.recorded] at hresult
      dsimp only at hresult
      rw [Json.lookup_setField] at hresult
      rw [Json.obj.inj (Option.some.inj hresult)] at hfewer
      exact lt_irrefl _ hfewer
  · unfold trimTask at h
    rw [dif_neg unique] at h
    exact absurd (Prod.mk.inj (Except.ok.inj h)).2.symm hdropped

end Trim

end OutcomeSize

end Conductress
