import Conductress.Runner.TrimDeletion

/-!
# What a trimmed result lacks

A result without some of its bulk values, with the record in it, has no value at
the path of one that was dropped (`valueAt_recorded_dropped`) nor at one below the
place of the record (`valueAt_recorded_under`); every other bulk value is as it was
(`valueAt_recorded_kept`). When all are dropped there is no bulk value left
(`not_bulkAt_recorded`), and when any is there are fewer (`length_bulkCandidates_recorded`).
-/

namespace Conductress

namespace OutcomeSize

section Walk

variable {wireBytes : Json → ℕ}

/-! ## The bulk values of a value -/

theorem mem_walkFields {fields : List (String × Json)} {path : List PathPart} {name : String}
    {value : Json} (hmem : (name, value) ∈ fields) {c : ℕ × List PathPart}
    (hc : c ∈ if bulkResultKeys.contains name && isBulk value then
        [(wireBytes value, path ++ [.key name])]
      else walk wireBytes value (path ++ [.key name])) :
    c ∈ walkFields wireBytes fields path := by
  induction fields with
  | nil => cases hmem
  | cons field rest ih =>
    rw [walkFields]
    rcases List.mem_cons.mp hmem with rfl | hmem
    · exact List.mem_append_left _ hc
    · exact List.mem_append_right _ (ih hmem)

theorem mem_walkItems {items : List Json} {i k : ℕ} {path : List PathPart} {value : Json}
    (hitem : items[k]? = some value) {c : ℕ × List PathPart}
    (hc : c ∈ walk wireBytes value (path ++ [.index (i + k)])) :
    c ∈ walkItems wireBytes items i path := by
  induction items generalizing i k with
  | nil => cases hitem
  | cons item rest ih =>
    rw [walkItems]
    cases k with
    | zero =>
      obtain rfl := Option.some.inj hitem
      exact List.mem_append_left _ hc
    | succ k =>
      refine List.mem_append_right _ (ih (k := k) hitem ?_)
      rw [Nat.add_assoc, Nat.add_comm 1 k]
      exact hc

/-- **Covered**: a bulk value is a candidate, or inside of one. -/
theorem walk_covers {size : ℕ} {p : List PathPart} {value : Json}
    (h : BulkAt wireBytes size p value) (path : List PathPart) :
    ∃ c ∈ walk wireBytes value path, c.2 <+: path ++ p := by
  obtain ⟨⟨init, name, rfl, hname⟩, v, hv, hbulk, -⟩ := h
  -- along the path: the walk stops at the first bulk value on it
  induction init generalizing value path with
  | nil =>
    rw [List.nil_append] at hv ⊢
    obtain ⟨w, hw, hsome⟩ := Option.bind_eq_some_iff.mp hv
    obtain rfl := Option.some.inj hsome
    cases value with
    | obj fields =>
      refine ⟨(wireBytes w, path ++ [.key name]), mem_walkFields (Json.lookup_mem hw) ?_,
        List.prefix_rfl⟩
      rw [List.contains_iff_mem.mpr hname, hbulk, Bool.true_and, if_pos rfl]
      exact List.mem_cons_self
    | null | bool | int | float | str | arr => cases hw
  | cons part init ih =>
    obtain ⟨inner, hinner, hv⟩ := Option.bind_eq_some_iff.mp hv
    obtain ⟨c, hc, hunder⟩ := ih (path ++ [part]) hv
    rw [List.append_assoc, List.singleton_append] at hunder
    cases value with
    | obj fields =>
      cases part with
      | index i => cases hinner
      | key field =>
        by_cases hfield : (bulkResultKeys.contains field && isBulk inner) = true
        · -- what the path goes through is dropped whole
          refine ⟨(wireBytes inner, path ++ [.key field]),
            mem_walkFields (Json.lookup_mem hinner) ?_, ?_⟩
          · rw [if_pos hfield]
            exact List.mem_cons_self
          · rw [List.prefix_append_right_inj]
            exact List.cons_prefix_cons.mpr ⟨rfl, List.nil_prefix⟩
        · refine ⟨c, mem_walkFields (Json.lookup_mem hinner) ?_, hunder⟩
          rw [if_neg hfield]
          exact hc
    | arr items =>
      cases part with
      | key field => cases hinner
      | index k =>
        refine ⟨c, mem_walkItems (i := 0) hinner ?_, hunder⟩
        rw [Nat.zero_add]
        exact hc
    | null | bool | int | float | str => cases part <;> cases hinner

mutual

/-- There are as many candidates as bulk values that are not inside of others. -/
theorem length_walk : ∀ (value : Json) (path : List PathPart),
    (walk wireBytes value path).length = bulkCount value
  | .obj fields, path => by rw [walk, bulkCount, length_walkFields]
  | .arr items, path => by rw [walk, bulkCount, length_walkItems]
  | .null, _ | .bool _, _ | .int _, _ | .float _, _ | .str _, _ => rfl

theorem length_walkFields : ∀ (fields : List (String × Json)) (path : List PathPart),
    (walkFields wireBytes fields path).length = bulkCountFields fields
  | [], _ => rfl
  | (name, value) :: rest, path => by
    rw [walkFields, bulkCountFields, List.length_append, length_walkFields rest]
    split
    · rfl
    · rw [length_walk value]

theorem length_walkItems : ∀ (items : List Json) (i : ℕ) (path : List PathPart),
    (walkItems wireBytes items i path).length = bulkCountItems items
  | [], _, _ => rfl
  | value :: rest, i, path => by
    rw [walkItems, bulkCountItems, List.length_append, length_walk value, length_walkItems rest]

end

theorem length_bulkCandidates (result : Fields) :
    (bulkCandidates wireBytes result).length = bulkCountFields result := by
  rw [bulkCandidates, List.length_insertionSort, length_walk, bulkCount]

end Walk

/-! ## Without some of them -/

section Removed

variable {result : Fields} {values : List (ℕ × List PathPart)} {p : List PathPart}

theorem valueAt_removed_apart (hends : ∀ e ∈ values, EndsInKey e.2)
    (hapart : ∀ e ∈ values, Apart p e.2) :
    valueAt p (.obj (removed result values)) = valueAt p (.obj result) := by
  -- the values are dropped one after the other, so the last one is taken off
  induction values using List.reverseRecOn with
  | nil => rfl
  | append_singleton values d ih =>
    have hd : d ∈ values ++ [d] := List.mem_append_right _ List.mem_cons_self
    rw [removed_concat, ← deletePath_result, valueAt_apart (hends d hd) (hapart d hd)]
    exact ih (fun e he => hends e (List.mem_append_left _ he))
      fun e he => hapart e (List.mem_append_left _ he)

/-- Nothing is left at the path of a value that is gone, nor below it. -/
theorem valueAt_removed_under (hends : ∀ e ∈ values, EndsInKey e.2) {d : ℕ × List PathPart}
    (hd : d ∈ values) (hunder : d.2 <+: p) : valueAt p (.obj (removed result values)) = none := by
  obtain ⟨rest, rfl⟩ := hunder
  rw [valueAt_append, (cutOut_removed result hends).gone d.2 (List.mem_map_of_mem hd)]
  rfl

/-- A deletion elsewhere does not change what kind of value there is. -/
theorem isBulk_removed (hends : ∀ e ∈ values, EndsInKey e.2)
    (hout : ∀ e ∈ values, ¬ e.2 <+: p) {v : Json}
    (hv : valueAt p (.obj (removed result values)) = some v) (hbulk : isBulk v = true) :
    ∃ w, valueAt p (.obj result) = some w ∧ isBulk w = true := by
  have hkept := (cutOut_removed result hends).kept p fun d hd => by
    obtain ⟨e, he, rfl⟩ := List.mem_map.mp hd
    exact hout e he
  rw [hv, Option.map_some] at hkept
  obtain ⟨w, hw, houtline⟩ := Option.map_eq_some_iff.mp hkept.symm
  refine ⟨w, hw, ?_⟩
  have hkind : ∀ cut value, isBulk (outline cut value) = isBulk value := by
    intro cut value
    cases value <;> rfl
  rw [← hkind _ w, houtline, hkind, hbulk]

end Removed

/-! ## Beside the record, and below it -/

section Recorded

variable {wireBytes : Json → ℕ} {c : TrimCall} {result : Fields}
  {values : List (ℕ × List PathPart)} {p : List PathPart} {texts : List String} {sent : ℕ}

theorem valueAt_flat (hp : EndsInKey p) {value : Json} (h : Flat value) : valueAt p value = none := by
  cases p with
  | nil =>
    obtain ⟨init, name, heq⟩ := hp
    exact absurd heq.symm (List.append_ne_nil_of_right_ne_nil _ (List.cons_ne_nil _ _))
  | cons part rest =>
    rw [valueAt]
    cases value with
    | obj fields => exact h.elim
    | null | bool | int | float | str => cases part <;> rfl
    | arr items =>
      cases part with
      | key name => rfl
      | index i =>
        rw [child]
        cases hi : items[i]? with
        | none => rfl
        | some v =>
          obtain ⟨s, rfl⟩ := h v (List.mem_of_getElem? hi)
          cases rest with
          | nil =>
            obtain ⟨name, hname⟩ := hp.single
            cases hname
          | cons next rest => cases next <;> rfl

/-- There is no bulk value in the record. -/
theorem valueAt_record (hp : ∃ init name, p = init ++ [.key name] ∧ name ∈ bulkResultKeys) :
    valueAt p (c.record wireBytes texts sent) = none := by
  obtain ⟨init, name, rfl, hname⟩ := hp
  cases init with
  | nil =>
    rw [List.nil_append, valueAt, child_record hname]
    rfl
  | cons part init =>
    rw [List.cons_append, valueAt]
    cases hchild : child (c.record wireBytes texts sent) part with
    | none => rfl
    | some inner => exact valueAt_flat ⟨init, name, rfl⟩ (record_flat (getItem_of_child hchild))

/-- Two results that differ in their records only. -/
theorem valueAt_beside {left : Fields} (hne : p ≠ []) (hout : p.head? ≠ some (.key deliveryKey)) :
    valueAt p (.obj (Json.setField left deliveryKey (c.record wireBytes texts sent))) =
      valueAt p (.obj left) := by
  cases p with
  | nil => exact absurd rfl hne
  | cons part rest =>
    cases part with
    | index i => rfl
    | key name =>
      have hname : name ≠ deliveryKey := fun h => hout (by rw [h]; rfl)
      rw [valueAt, child, Json.lookup_setField_of_ne hname, valueAt, child]

/-- A bulk value of the caller's own below the place of the record is gone. -/
theorem valueAt_recorded_under {left : Fields}
    (hp : ∃ init name, p = init ++ [.key name] ∧ name ∈ bulkResultKeys)
    (hin : p.head? = some (.key deliveryKey)) :
    valueAt p (.obj (Json.setField left deliveryKey (c.record wireBytes texts sent))) = none := by
  obtain ⟨init, name, rfl, hname⟩ := hp
  cases init with
  | nil =>
    obtain rfl := PathPart.key.inj (Option.some.inj hin)
    exact absurd hname not_mem_bulkResultKeys
  | cons part init =>
    obtain rfl := Option.some.inj hin
    rw [List.cons_append, valueAt, child, Json.lookup_setField, Option.bind_some]
    exact valueAt_record ⟨init, name, rfl, hname⟩

variable {d : ℕ × List PathPart}

theorem BulkAt.ne_nil {size : ℕ} {value : Json} (h : BulkAt wireBytes size p value) : p ≠ [] := by
  obtain ⟨init, name, rfl, -⟩ := h.ends
  exact List.append_ne_nil_of_right_ne_nil _ (List.cons_ne_nil _ _)

/-- **A dropped bulk value** is not there. -/
theorem valueAt_recorded_dropped (hbulk : ∀ e ∈ values, BulkAt wireBytes e.1 e.2 (.obj result))
    (hd : d ∈ values) : valueAt d.2 (.obj (Json.setField (removed result values) deliveryKey
      (c.record wireBytes texts sent))) = none := by
  by_cases hin : d.2.head? = some (.key deliveryKey)
  · exact valueAt_recorded_under (hbulk d hd).ends hin
  · rw [valueAt_beside (hbulk d hd).ne_nil hin]
    exact valueAt_removed_under (fun e he => (hbulk e he).endsInKey) hd List.prefix_rfl

/-- **Any other bulk value** is as it was, but for those below the place of the record. -/
theorem valueAt_recorded_kept (hbulk : ∀ e ∈ values, BulkAt wireBytes e.1 e.2 (.obj result))
    (hd : BulkAt wireBytes d.1 d.2 (.obj result)) (hapart : ∀ e ∈ values, Apart e.2 d.2)
    (hout : d.2.head? ≠ some (.key deliveryKey)) :
    valueAt d.2 (.obj (Json.setField (removed result values) deliveryKey
      (c.record wireBytes texts sent))) = valueAt d.2 (.obj result) := by
  rw [valueAt_beside hd.ne_nil hout]
  exact valueAt_removed_apart (fun e he => (hbulk e he).endsInKey) fun e he => (hapart e he).symm

/-- **When all are dropped** there is no bulk value. -/
theorem not_bulkAt_recorded (hunique : (Json.obj result).uniqueKeys = true) {size : ℕ} :
    ¬ BulkAt wireBytes size p (.obj (Json.setField (removed result (bulkCandidates wireBytes result))
      deliveryKey (c.record wireBytes texts sent))) := by
  intro h
  obtain ⟨v, hv, hkind, -⟩ := h.there
  have hin : p.head? ≠ some (.key deliveryKey) := by
    intro hin
    rw [valueAt_recorded_under h.ends hin] at hv
    cases hv
  rw [valueAt_beside h.ne_nil hin] at hv
  have hends : ∀ e ∈ bulkCandidates wireBytes result, EndsInKey e.2 :=
    fun e he => (bulkCandidates_found hunique he).endsInKey
  have hout : ∀ e ∈ bulkCandidates wireBytes result, ¬ e.2 <+: p := by
    intro e he hunder
    rw [valueAt_removed_under hends he hunder] at hv
    cases hv
  -- so it was one before, and that is a candidate or inside of one
  obtain ⟨w, hw, hwkind⟩ := isBulk_removed hends hout hv hkind
  have hbefore : BulkAt wireBytes (wireBytes w) p (.obj result) := ⟨h.ends, w, hw, hwkind, rfl⟩
  obtain ⟨e, he, hunder⟩ := walk_covers hbefore []
  exact hout e ((List.mem_insertionSort _).mpr he) hunder

theorem bulkCount_record : bulkCount (c.record wireBytes texts sent) = 0 := by
  simp [TrimCall.record, bulkCount, bulkCountFields, bulkCountItems_strings, bulkResultKeys]

/-- **When any is dropped** there are fewer. -/
theorem length_bulkCandidates_recorded (hne : values ≠ [])
    (hvalues : ∀ e ∈ values, e ∈ bulkCandidates wireBytes result) :
    (bulkCandidates wireBytes (Json.setField (removed result values) deliveryKey
      (c.record wireBytes texts sent))).length < (bulkCandidates wireBytes result).length := by
  obtain ⟨d, rest, rfl⟩ := List.exists_cons_of_ne_nil hne
  have hd := hvalues d List.mem_cons_self
  obtain ⟨path, hpath, hless⟩ := walk_deletes (.obj result) [] d ((List.mem_insertionSort _).mp hd)
  rw [List.nil_append] at hpath
  rw [← hpath, deletePath_result, bulkCount, bulkCount] at hless
  rw [length_bulkCandidates, length_bulkCandidates]
  -- the first deletion makes them fewer, and nothing after it makes them more
  have hrecord : bulkCountFields (Json.setField (removed result (d :: rest)) deliveryKey
      (c.record wireBytes texts sent)) ≤ bulkCountFields (removed result (d :: rest)) :=
    bulkCountFields_setField_le (by decide) bulkCount_record _
  have hrest : bulkCountFields (removed result (d :: rest)) ≤
      bulkCountFields (deleteFromResult d.2 result) :=
    bulkCount_deletions_le rest (deleteFromResult d.2 result)
  omega

end Recorded

end OutcomeSize

end Conductress
