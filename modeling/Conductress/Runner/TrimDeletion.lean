import Conductress.Runner.TrimOutcome

/-!
# Deletions in the copy

A deletion does not raise where the path leads to a dictionary
(`deletePath?_eq`), and a bulk value of the caller's result is in a dictionary of
the copy as long as neither it nor what it is in was deleted
(`deletePath?_removed`). Beside the delivery record that is so but for the paths
two levels below it (`deletePath?_recorded`, `deletePath?_inDelivery`).
-/

namespace Conductress

namespace OutcomeSize

/-! ## In any value -/

/-- No dictionary, nor a list of more than texts. -/
def Flat : Json → Prop
  | .obj _ => False
  | .arr items => ∀ v ∈ items, ∃ s, v = .str s
  | _ => True

/-- There is nothing to delete below a value without dictionaries. -/
theorem deletePath?_flat (path : List PathPart) {value : Json} (h : Flat value) :
    ∃ e, deletePath? path value = .error e := by
  induction path generalizing value with
  | nil => exact ⟨_, rfl⟩
  | cons part rest ih =>
    rw [deletePath?]
    split
    · cases value with
      | obj fields => exact h.elim
      | null | bool | int | float | str | arr => exact ⟨_, rfl⟩
    · have hitem : (∃ e, getItem value part = .error e) ∨
          ∃ inner, getItem value part = .ok inner ∧ Flat inner := by
        cases value with
        | obj fields => exact h.elim
        | null | bool | int | float => exact .inl ⟨_, rfl⟩
        | str s =>
          cases part with
          | key name => exact .inl ⟨_, rfl⟩
          | index i =>
            rw [getItem]
            cases s.toList[i]? with
            | none => exact .inl ⟨_, rfl⟩
            | some c => exact .inr ⟨_, rfl, trivial⟩
        | arr items =>
          cases part with
          | key name => exact .inl ⟨_, rfl⟩
          | index i =>
            rw [getItem]
            cases hi : items[i]? with
            | none => exact .inl ⟨_, rfl⟩
            | some v =>
              obtain ⟨s, rfl⟩ := h v (List.mem_of_getElem? hi)
              exact .inr ⟨_, rfl, trivial⟩
      rcases hitem with ⟨e, he⟩ | ⟨inner, hinner, hflat⟩
      · rw [he]
        exact ⟨e, rfl⟩
      · obtain ⟨e, he⟩ := ih hflat
        rw [hinner]
        dsimp only [bind, Except.bind]
        rw [he]
        exact ⟨e, rfl⟩

theorem getItem_of_child {value inner : Json} {part : PathPart} (h : child value part = some inner) :
    getItem value part = .ok inner := by
  cases value with
  | obj fields =>
    cases part with
    | key name => rw [getItem, show Json.lookup fields name = some inner from h]
    | index i => cases h
  | arr items =>
    cases part with
    | key name => cases h
    | index i => rw [getItem, show items[i]? = some inner from h]
  | null | bool | int | float | str => cases part <;> cases h

theorem set_eq_modifyItem {f : Json → Json} {i : ℕ} {items : List Json} {old : Json}
    (h : items[i]? = some old) : items.set i (f old) = modifyItem f i items := by
  refine List.ext_getElem? fun j => ?_
  rw [getElem?_modifyItem, List.getElem?_set]
  obtain ⟨hi, hold⟩ := List.getElem?_eq_some_iff.mp h
  by_cases hj : j = i
  · subst hj
    simp [hi, hold]
  · rw [if_neg (Ne.symm hj), if_neg hj]

/-- The deletion in a child, put back. -/
theorem putItem_child {value inner : Json} {part : PathPart} {rest : List PathPart}
    (hunique : value.uniqueKeys = true) (h : child value part = some inner) (hrest : rest ≠ []) :
    putItem value part (deletePath rest inner) = deletePath (part :: rest) value := by
  cases value with
  | obj fields =>
    cases part with
    | key name =>
      rw [putItem, deletePath_key, if_neg hrest,
        Json.setField_of_lookup (Json.uniqueKeys_obj.mp hunique).1 h]
    | index i => cases h
  | arr items =>
    cases part with
    | key name => cases h
    | index i => rw [putItem, deletePath, set_eq_modifyItem h]
  | null | bool | int | float | str => cases part <;> cases h

theorem child_uniqueKeys {value inner : Json} {part : PathPart} (hunique : value.uniqueKeys = true)
    (h : child value part = some inner) : inner.uniqueKeys = true := by
  cases value with
  | obj fields =>
    cases part with
    | key name => exact (Json.uniqueKeys_obj.mp hunique).2 _ (Json.lookup_mem h)
    | index i => cases h
  | arr items =>
    cases part with
    | key name => cases h
    | index i => exact Json.uniqueKeys_arr.mp hunique _ (List.mem_of_getElem? h)
  | null | bool | int | float | str => cases part <;> cases h

/-- **The deletion does not raise** where the path leads to a dictionary. -/
theorem deletePath?_eq {init : List PathPart} {name : String} {value : Json} {fields : Fields}
    (hunique : value.uniqueKeys = true) (h : valueAt init value = some (.obj fields)) :
    deletePath? (init ++ [.key name]) value = .ok (deletePath (init ++ [.key name]) value) := by
  induction init generalizing value with
  | nil =>
    obtain rfl := Option.some.inj h
    rfl
  | cons part init ih =>
    have hrest : init ++ [PathPart.key name] ≠ [] :=
      List.append_ne_nil_of_right_ne_nil _ (List.cons_ne_nil _ _)
    obtain ⟨inner, hinner, hvalue⟩ := Option.bind_eq_some_iff.mp h
    rw [List.cons_append, deletePath?, if_neg hrest, getItem_of_child hinner]
    dsimp only [bind, Except.bind]
    rw [ih (child_uniqueKeys hunique hinner) hvalue]
    dsimp only [pure, Except.pure]
    rw [putItem_child hunique hinner hrest]

/-- Distinct keys stay distinct. -/
theorem uniqueKeys_deletePath (path : List PathPart) {value : Json} (h : value.uniqueKeys = true) :
    (deletePath path value).uniqueKeys = true := by
  induction path generalizing value with
  | nil => exact h
  | cons part rest ih =>
    cases value with
    | obj fields =>
      rw [Json.uniqueKeys_obj] at h
      cases part with
      | key name =>
        rw [deletePath_key, Json.uniqueKeys_obj]
        split
        · refine ⟨?_, fun f hf => h.2 f (List.mem_of_mem_filter hf)⟩
          exact h.1.sublist (List.filter_sublist.map Prod.fst)
        · have hkeys : Json.keys (fields.map fun f =>
              if f.1 = name then (f.1, deletePath rest f.2) else f) = Json.keys fields := by
            rw [Json.keys, Json.keys, List.map_map]
            refine List.map_congr_left fun f _ => ?_
            by_cases hf : f.1 = name <;> simp [hf]
          refine ⟨by rw [hkeys]; exact h.1, fun f hf => ?_⟩
          obtain ⟨g, hg, rfl⟩ := List.mem_map.mp hf
          split
          · exact ih (h.2 g hg)
          · exact h.2 g hg
      | index i => exact Json.uniqueKeys_obj.mpr h
    | arr items =>
      cases part with
      | key name => simpa [deletePath] using h
      | index i =>
        rw [Json.uniqueKeys_arr] at h
        rw [deletePath, Json.uniqueKeys_arr]
        intro v hv
        obtain ⟨j, hj⟩ := List.mem_iff_getElem?.mp hv
        rw [getElem?_modifyItem] at hj
        split at hj
        · obtain ⟨w, hw, rfl⟩ := Option.map_eq_some_iff.mp hj
          exact ih (h w (List.mem_of_getElem? hw))
        · exact h v (List.mem_of_getElem? hj)
    | null | bool | int | float | str => simpa [deletePath] using h

theorem uniqueKeys_setField {fields : Fields} {key : String} {value : Json}
    (h : (Json.obj fields).uniqueKeys = true) (hvalue : value.uniqueKeys = true) :
    (Json.obj (Json.setField fields key value)).uniqueKeys = true := by
  rw [Json.uniqueKeys_obj] at h ⊢
  by_cases hmem : key ∈ Json.keys fields
  · refine ⟨by rw [Json.keys_setField hmem]; exact h.1, fun f hf => ?_⟩
    rw [Json.setField_of_mem hmem] at hf
    obtain ⟨g, hg, rfl⟩ := List.mem_map.mp hf
    split
    · exact hvalue
    · exact h.2 g hg
  · refine ⟨?_, fun f hf => ?_⟩
    · rw [Json.keys_setField_of_not_mem hmem]
      exact List.Nodup.append h.1 (List.nodup_singleton key) (List.disjoint_singleton.mpr hmem)
    · rw [Json.setField_of_not_mem hmem] at hf
      rcases List.mem_append.mp hf with hf | hf
      · exact h.2 f hf
      · rw [List.mem_singleton.mp hf]
        exact hvalue

/-! ## In the result -/

section Result

variable {wireBytes : Json → ℕ} {c : TrimCall} {result : Fields}
  {values : List (ℕ × List PathPart)} {d : ℕ × List PathPart}

theorem removed_concat (result : Fields) (values : List (ℕ × List PathPart))
    (d : ℕ × List PathPart) :
    removed result (values ++ [d]) = deleteFromResult d.2 (removed result values) := by
  rw [removed, List.foldl_append]
  rfl

theorem obj_removed (result : Fields) (values : List (ℕ × List PathPart)) :
    Json.obj (removed result values) =
      (values.map Prod.snd).foldl (fun v p => deletePath p v) (.obj result) := by
  induction values using List.reverseRecOn with
  | nil => rfl
  | append_singleton values d ih =>
    rw [removed_concat, ← deletePath_result, ih, List.map_append, List.foldl_append]
    rfl

theorem uniqueKeys_removed (h : (Json.obj result).uniqueKeys = true)
    (values : List (ℕ × List PathPart)) : (Json.obj (removed result values)).uniqueKeys = true := by
  induction values using List.reverseRecOn with
  | nil => exact h
  | append_singleton values d ih =>
    rw [removed_concat, ← deletePath_result]
    exact uniqueKeys_deletePath d.2 ih

theorem record_uniqueKeys (dropped : List String) (sentBytes : ℕ) :
    (c.record wireBytes dropped sentBytes).uniqueKeys = true := by
  have hitems : Json.uniqueItems (dropped.map .str) = true := by
    rw [Json.uniqueItems_iff]
    intro v hv
    obtain ⟨s, -, rfl⟩ := List.mem_map.mp hv
    rfl
  rw [TrimCall.record, Json.uniqueKeys_obj]
  refine ⟨?_, ?_⟩
  · simp only [Json.keys, List.map_cons, List.map_nil]
    decide
  · simp only [List.forall_mem_cons, Json.uniqueKeys, hitems]
    simp

/-- What the record holds has no dictionary in it. -/
theorem record_flat {dropped : List String} {sentBytes : ℕ} {part : PathPart} {inner : Json}
    (h : getItem (c.record wireBytes dropped sentBytes) part = .ok inner) : Flat inner := by
  cases part with
  | index i => cases h
  | key name =>
    rw [TrimCall.record, getItem] at h
    split at h
    · next value hvalue =>
      obtain rfl := Except.ok.inj h
      have hmem := Json.lookup_mem hvalue
      simp only [List.mem_cons, Prod.mk.injEq, List.not_mem_nil, or_false] at hmem
      rcases hmem with ⟨-, rfl⟩ | ⟨-, rfl⟩ | ⟨-, rfl⟩ | ⟨-, rfl⟩ | ⟨-, rfl⟩ | ⟨-, rfl⟩
      case inr.inr.inl =>
        intro v hv
        obtain ⟨s, -, rfl⟩ := List.mem_map.mp hv
        exact ⟨s, rfl⟩
      all_goals trivial
    · cases h

/-- **Into the record**: a path with two more levels is not one. -/
theorem deletePath?_record {part : PathPart} {rest : List PathPart} (hrest : rest ≠ [])
    (dropped : List String) (sentBytes : ℕ) :
    ∃ e, deletePath? (part :: rest) (c.record wireBytes dropped sentBytes) = .error e := by
  rw [deletePath?, if_neg hrest]
  cases hitem : getItem (c.record wireBytes dropped sentBytes) part with
  | error e => exact ⟨e, rfl⟩
  | ok inner =>
    obtain ⟨e, he⟩ := deletePath?_flat rest (record_flat hitem)
    dsimp only [bind, Except.bind]
    rw [he]
    exact ⟨e, rfl⟩

/-- The bulk keys are not among those of the record. -/
theorem child_record {name : String} (hname : name ∈ bulkResultKeys) (dropped : List String)
    (sentBytes : ℕ) : child (c.record wireBytes dropped sentBytes) (.key name) = none := by
  have hkeys : ∀ name ∈ bulkResultKeys, name ∉ ["trimmed", "reason", "dropped", "original_bytes",
      "sent_bytes", "full_result_path"] := by decide
  exact Json.lookup_eq_none_iff.mpr (hkeys name hname)

theorem record_without {name : String} (hname : name ∈ bulkResultKeys) (dropped : List String)
    (sentBytes : ℕ) : popPart (c.record wireBytes dropped sentBytes) (.key name) =
      .ok (c.record wireBytes dropped sentBytes) := by
  rw [TrimCall.record, popPart, Json.eraseField_of_not_mem]
  exact Json.lookup_eq_none_iff.mp (child_record hname dropped sentBytes)

theorem cutOut_removed (result : Fields) (hends : ∀ e ∈ values, EndsInKey e.2) :
    CutOut (values.map Prod.snd) (.obj result) (.obj (removed result values)) := by
  rw [obj_removed]
  refine cutOut_deletions (fun p hp => ?_) _
  obtain ⟨e, he, rfl⟩ := List.mem_map.mp hp
  exact hends e he

/-- A bulk value that is still there is in a dictionary that is still there. -/
theorem removed_leads {init : List PathPart} {name : String} {v : Json}
    (hthere : valueAt (init ++ [.key name]) (.obj result) = some v)
    (hends : ∀ e ∈ values, EndsInKey e.2)
    (hapart : ∀ e ∈ values, Apart e.2 (init ++ [.key name])) :
    ∃ fields, valueAt init (.obj (removed result values)) = some (.obj fields) := by
  rw [valueAt_append] at hthere
  obtain ⟨w, hw, hchild⟩ := Option.bind_eq_some_iff.mp hthere
  obtain ⟨fields, rfl⟩ : ∃ fields, w = .obj fields := by
    cases w with
    | obj fields => exact ⟨fields, rfl⟩
    | null | bool | int | float | str | arr => cases hchild
  have hkept := (cutOut_removed result hends).kept init fun p hp hunder => by
    obtain ⟨e, he, rfl⟩ := List.mem_map.mp hp
    exact (hapart e he).left (hunder.trans (List.prefix_append _ _))
  rw [hw, Option.map_some] at hkept
  obtain ⟨w', hw', houtline⟩ := Option.map_eq_some_iff.mp hkept
  cases w' with
  | obj fields => exact ⟨fields, hw'⟩
  | null | bool | int | float | str | arr => cases houtline

theorem not_mem_bulkResultKeys : deliveryKey ∉ bulkResultKeys := by decide

/-- **A bulk value goes** from a result without the ones before it. -/
theorem deletePath?_removed (hunique : (Json.obj result).uniqueKeys = true)
    (hd : BulkAt wireBytes d.1 d.2 (.obj result)) (hends : ∀ e ∈ values, EndsInKey e.2)
    (hapart : ∀ e ∈ values, Apart e.2 d.2) :
    deletePath? d.2 (.obj (removed result values)) = .ok (.obj (removed result (values ++ [d]))) := by
  obtain ⟨init, name, hpath, -⟩ := hd.ends
  obtain ⟨v, hv, -⟩ := hd.there
  rw [hpath] at hv hapart
  obtain ⟨fields, hfields⟩ := removed_leads hv hends hapart
  rw [removed_concat, ← deletePath_result, hpath]
  exact deletePath?_eq (uniqueKeys_removed hunique values) hfields

/-- **It goes from beside the record** too, if it does not lie two levels below it. -/
theorem deletePath?_recorded (hunique : (Json.obj result).uniqueKeys = true)
    (hd : BulkAt wireBytes d.1 d.2 (.obj result)) (hends : ∀ e ∈ values, EndsInKey e.2)
    (hapart : ∀ e ∈ values, Apart e.2 d.2) (hout : ¬ InDelivery d.2) (dropped : List String)
    (sentBytes : ℕ) :
    deletePath? d.2 (.obj (Json.setField (removed result values) deliveryKey
        (c.record wireBytes dropped sentBytes))) =
      .ok (.obj (Json.setField (removed result (values ++ [d])) deliveryKey
        (c.record wireBytes dropped sentBytes))) := by
  obtain ⟨init, name, hpath, hname⟩ := hd.ends
  obtain ⟨v, hv, -⟩ := hd.there
  rw [hpath] at hv hapart hout
  obtain ⟨fields, hfields⟩ := removed_leads hv hends hapart
  have hkeys := uniqueKeys_removed hunique values
  rw [removed_concat, hpath]
  generalize removed result values = left at hfields hkeys ⊢
  have hset : (Json.obj (Json.setField left deliveryKey
      (c.record wireBytes dropped sentBytes))).uniqueKeys = true :=
    uniqueKeys_setField hkeys (record_uniqueKeys dropped sentBytes)
  cases init with
  | nil =>
    have hne : name ≠ deliveryKey := fun h => not_mem_bulkResultKeys (h ▸ hname)
    rw [List.nil_append, deletePath?, if_pos rfl, popPart, Json.eraseField_setField_of_ne hne]
    rfl
  | cons part init =>
    have hrest : init ++ [PathPart.key name] ≠ [] :=
      List.append_ne_nil_of_right_ne_nil _ (List.cons_ne_nil _ _)
    obtain ⟨inner, hinner, hvalue⟩ := Option.bind_eq_some_iff.mp hfields
    cases part with
    | index i => cases hinner
    | key field =>
      have hresult : deleteFromResult (.key field :: (init ++ [.key name])) left =
          left.map fun f => if f.1 = field then (f.1, deletePath (init ++ [.key name]) f.2) else f := by
        rw [deleteFromResult, deletePath_key, if_neg hrest]
      rw [List.cons_append, hresult]
      by_cases hfield : field = deliveryKey
      · -- one level below the record: none of its keys is a bulk key
        subst hfield
        obtain rfl : init = [] := by
          cases init with
          | nil => rfl
          | cons next init =>
            exact absurd ⟨next, init ++ [.key name], rfl,
              List.append_ne_nil_of_right_ne_nil _ (List.cons_ne_nil _ _)⟩ hout
        rw [Json.setField_map, deletePath?, if_neg hrest, getItem, Json.lookup_setField]
        dsimp only [bind, Except.bind]
        rw [List.nil_append, deletePath?, if_pos rfl, record_without hname]
        dsimp only [pure, Except.pure]
        rw [putItem, Json.setField_setField]
      · have hthere : valueAt (.key field :: init) (.obj (Json.setField left deliveryKey
            (c.record wireBytes dropped sentBytes))) = some (.obj fields) := by
          rw [valueAt, child, Json.lookup_setField_of_ne hfield]
          exact hfields
        have hdelete : deletePath? (.key field :: init ++ [.key name]) _ = _ :=
          deletePath?_eq hset hthere
        rw [List.cons_append, deletePath_key, if_neg hrest, Json.map_setField hfield] at hdelete
        exact hdelete

/-- **It raises** if it does. -/
theorem deletePath?_inDelivery {path : List PathPart} (h : InDelivery path) (fields : Fields)
    (dropped : List String) (sentBytes : ℕ) :
    ∃ e, deletePath? path (.obj (Json.setField fields deliveryKey
      (c.record wireBytes dropped sentBytes))) = .error e := by
  obtain ⟨part, rest, rfl, hrest⟩ := h
  obtain ⟨e, he⟩ : ∃ e, deletePath? (part :: rest) (c.record wireBytes dropped sentBytes) = .error e :=
    deletePath?_record hrest dropped sentBytes
  rw [deletePath?, if_neg (List.cons_ne_nil _ _), getItem, Json.lookup_setField]
  dsimp only [bind, Except.bind]
  rw [he]
  exact ⟨e, rfl⟩

end Result

end OutcomeSize

end Conductress
