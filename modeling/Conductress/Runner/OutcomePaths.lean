import Mathlib.Data.List.Induction
import Mathlib.Data.String.Basic
import Conductress.Base.Compare
import Conductress.Runner.OutcomeSize

/-!
# Paths into an outcome

What a value holds at a path, and what deletions at paths leave of it.

* `CutOut` — a value with some paths cut out of it: at every path that is not
  under one of these there is the same node, less the keys that were cut;
* `CutOut.delete` — one more deletion;
* `walk_found`, `walk_apart` — the paths of the bulk values lead to bulk values,
  and none of them leads through another one.
-/

namespace Conductress

namespace Json

/-! ## Distinct keys -/

mutual

/-- The keys of every dictionary in a value are distinct, as Python's are. -/
def uniqueKeys : Json → Bool
  | .obj fields => decide (keys fields).Nodup && uniqueFields fields
  | .arr items => uniqueItems items
  | .null | .bool _ | .int _ | .float _ | .str _ => true

def uniqueFields : List (String × Json) → Bool
  | [] => true
  | (_, value) :: rest => uniqueKeys value && uniqueFields rest

def uniqueItems : List Json → Bool
  | [] => true
  | value :: rest => uniqueKeys value && uniqueItems rest

end

theorem uniqueFields_iff {fields : List (String × Json)} :
    uniqueFields fields = true ↔ ∀ f ∈ fields, f.2.uniqueKeys = true := by
  induction fields with
  | nil => simp [uniqueFields]
  | cons f fields ih => simp [uniqueFields, ih]

theorem uniqueItems_iff {items : List Json} :
    uniqueItems items = true ↔ ∀ v ∈ items, v.uniqueKeys = true := by
  induction items with
  | nil => simp [uniqueItems]
  | cons v items ih => simp [uniqueItems, ih]

theorem uniqueKeys_obj {fields : List (String × Json)} : (obj fields).uniqueKeys = true ↔
    (keys fields).Nodup ∧ ∀ f ∈ fields, f.2.uniqueKeys = true := by
  rw [uniqueKeys, Bool.and_eq_true, decide_eq_true_eq, uniqueFields_iff]

theorem uniqueKeys_arr {items : List Json} :
    (arr items).uniqueKeys = true ↔ ∀ v ∈ items, v.uniqueKeys = true := by
  rw [uniqueKeys, uniqueItems_iff]

theorem lookup_mem {fields : List (String × Json)} {key : String} {value : Json}
    (h : lookup fields key = some value) : (key, value) ∈ fields := by
  obtain ⟨f, hf, rfl⟩ := Option.map_eq_some_iff.mp h
  have hkey : f.1 = key := by simpa using List.find?_some hf
  exact hkey ▸ List.mem_of_find?_eq_some hf

/-- With distinct keys a field is what its key holds. -/
theorem lookup_of_mem {fields : List (String × Json)} (h : (keys fields).Nodup) {key : String}
    {value : Json} (hmem : (key, value) ∈ fields) : lookup fields key = some value := by
  obtain ⟨other, hother⟩ := Option.isSome_iff_exists.mp
    (lookup_isSome_iff.mpr (List.mem_map_of_mem hmem : key ∈ keys fields))
  have hsame := List.inj_on_of_nodup_map h (lookup_mem hother) hmem rfl
  rw [hother, (Prod.mk.inj hsame).2]

/-- Assigning to a key that is there changes the one field that has it. -/
theorem setField_of_lookup {fields : List (String × Json)} (h : (keys fields).Nodup) {key : String}
    {old : Json} (hold : lookup fields key = some old) (f : Json → Json) :
    setField fields key (f old) = fields.map fun g => if g.1 = key then (g.1, f g.2) else g := by
  have hany : (fields.any fun g => decide (g.1 = key)) = true := by
    have hmem : key ∈ keys fields := lookup_isSome_iff.mp (by rw [hold]; rfl)
    simpa [keys] using hmem
  rw [setField, if_pos hany]
  refine List.map_congr_left fun g hg => ?_
  by_cases hkey : g.1 = key
  · subst hkey
    rw [if_pos rfl, if_pos rfl, Option.some.inj (hold.symm.trans (lookup_of_mem h hg))]
  · rw [if_neg hkey, if_neg hkey]

theorem lookup_eraseField (fields : List (String × Json)) (key : String) :
    lookup (eraseField fields key) key = none := by
  rw [lookup_eq_none_iff, keys, eraseField]
  simp

/-! ## Assigning -/

theorem setField_of_mem {fields : List (String × Json)} {key : String} (h : key ∈ keys fields)
    (value : Json) : setField fields key value =
      fields.map fun f => if f.1 = key then (key, value) else f := by
  have hany : (fields.any fun f => decide (f.1 = key)) = true := by simpa [keys] using h
  rw [setField, if_pos hany]

theorem setField_of_not_mem {fields : List (String × Json)} {key : String} (h : key ∉ keys fields)
    (value : Json) : setField fields key value = fields ++ [(key, value)] := by
  have hany : ¬ (fields.any fun f => decide (f.1 = key)) = true := by simpa [keys] using h
  rw [setField, if_neg hany]

theorem map_of_not_mem {fields : List (String × Json)} {key : String} (h : key ∉ keys fields)
    (f : String × Json → String × Json) :
    (fields.map fun g => if g.1 = key then f g else g) = fields := by
  refine (List.map_congr_left fun g hg => ?_).trans (List.map_id fields)
  refine if_neg fun hkey => h ?_
  rw [← hkey]
  exact List.mem_map_of_mem hg

theorem keys_setField_of_not_mem {fields : List (String × Json)} {key : String}
    (h : key ∉ keys fields) (value : Json) : keys (setField fields key value) = keys fields ++ [key] := by
  rw [setField_of_not_mem h, keys, List.map_append]
  rfl

/-- Of two assignments to a key the second stays. -/
theorem setField_setField (fields : List (String × Json)) (key : String) (value other : Json) :
    setField (setField fields key value) key other = setField fields key other := by
  by_cases h : key ∈ keys fields
  · have hset : key ∈ keys (setField fields key value) := by rw [keys_setField h]; exact h
    rw [setField_of_mem hset, setField_of_mem h, setField_of_mem h, List.map_map]
    refine List.map_congr_left fun f _ => ?_
    by_cases hf : f.1 = key <;> simp [hf]
  · have hset : key ∈ keys (setField fields key value) := by
      rw [keys_setField_of_not_mem h]
      exact List.mem_append_right _ List.mem_cons_self
    rw [setField_of_mem hset, setField_of_not_mem h, setField_of_not_mem h, List.map_append,
      map_of_not_mem h fun _ => (key, other), List.map_singleton, if_pos rfl]

/-- What a key held before does not matter to an assignment. -/
theorem setField_map {fields : List (String × Json)} {key : String} (f : Json → Json) (value : Json) :
    setField (fields.map fun g => if g.1 = key then (g.1, f g.2) else g) key value =
      setField fields key value := by
  have hkeys : keys (fields.map fun g => if g.1 = key then (g.1, f g.2) else g) = keys fields := by
    rw [keys, keys, List.map_map]
    refine List.map_congr_left fun g _ => ?_
    by_cases hg : g.1 = key <;> simp [hg]
  by_cases h : key ∈ keys fields
  · rw [setField_of_mem (hkeys ▸ h), setField_of_mem h, List.map_map]
    refine List.map_congr_left fun g _ => ?_
    by_cases hg : g.1 = key <;> simp [hg]
  · rw [map_of_not_mem h fun g => (g.1, f g.2)]

theorem map_setField {fields : List (String × Json)} {key name : String} (hname : name ≠ key)
    (f : Json → Json) (value : Json) :
    ((setField fields key value).map fun g => if g.1 = name then (g.1, f g.2) else g) =
      setField (fields.map fun g => if g.1 = name then (g.1, f g.2) else g) key value := by
  have hkeys : keys (fields.map fun g => if g.1 = name then (g.1, f g.2) else g) = keys fields := by
    rw [keys, keys, List.map_map]
    refine List.map_congr_left fun g _ => ?_
    by_cases hg : g.1 = name <;> simp [hg]
  by_cases h : key ∈ keys fields
  · rw [setField_of_mem h, setField_of_mem (hkeys ▸ h), List.map_map, List.map_map]
    refine List.map_congr_left fun g _ => ?_
    by_cases hg : g.1 = key
    · simp [hg, hname.symm]
    · by_cases hg' : g.1 = name <;> simp [hg, hg', hname]
  · rw [setField_of_not_mem h, setField_of_not_mem (hkeys ▸ h), List.map_append, List.map_singleton,
      if_neg hname.symm]

theorem eraseField_setField_self (fields : List (String × Json)) (key : String) (value : Json) :
    eraseField (setField fields key value) key = eraseField fields key := by
  by_cases h : key ∈ keys fields
  · rw [setField_of_mem h]
    clear h
    induction fields with
    | nil => rfl
    | cons f fields ih =>
      rw [List.map_cons, eraseField_cons, eraseField_cons, ih]
      by_cases hf : f.1 = key <;> simp [hf]
  · rw [setField_of_not_mem h, eraseField_append, eraseField_cons, if_pos rfl]
    exact List.append_nil _

theorem eraseField_setField_of_ne {fields : List (String × Json)} {key name : String}
    (hname : name ≠ key) (value : Json) :
    eraseField (setField fields key value) name = setField (eraseField fields name) key value := by
  have hkeys : key ∈ keys (eraseField fields name) ↔ key ∈ keys fields := by
    rw [← lookup_isSome_iff, ← lookup_isSome_iff, lookup_eraseField_of_ne hname.symm]
  by_cases h : key ∈ keys fields
  · rw [setField_of_mem h, setField_of_mem (hkeys.mpr h)]
    clear h hkeys
    induction fields with
    | nil => rfl
    | cons f fields ih =>
      rw [List.map_cons, eraseField_cons, eraseField_cons, ih]
      by_cases hf : f.1 = key
      · simp [hf, hname.symm]
      · rw [if_neg hf]
        by_cases hf' : f.1 = name
        · rw [if_pos hf', if_pos hf']
        · rw [if_neg hf', if_neg hf', List.map_cons, if_neg hf]
  · rw [setField_of_not_mem h, setField_of_not_mem fun hmem => h (hkeys.mp hmem), eraseField_append,
      eraseField_cons, if_neg hname.symm]
    rfl

end Json

namespace OutcomeSize

/-! ## What is at a path -/

/-- What a container holds under a key or an index. -/
def child : Json → PathPart → Option Json
  | .obj fields, .key name => Json.lookup fields name
  | .arr items, .index i => items[i]?
  | _, _ => none

/-- What a value holds at a path. -/
def valueAt : List PathPart → Json → Option Json
  | [], value => some value
  | part :: rest, value => (child value part).bind (valueAt rest)

theorem valueAt_append (p q : List PathPart) (value : Json) :
    valueAt (p ++ q) value = (valueAt p value).bind (valueAt q) := by
  induction p generalizing value with
  | nil => rfl
  | cons part p ih =>
    rw [List.cons_append, valueAt, valueAt, Option.bind_assoc]
    exact congrArg _ (funext ih)

theorem getElem?_modifyItem (f : Json → Json) (i j : ℕ) (items : List Json) :
    (modifyItem f i items)[j]? = if j = i then items[j]?.map f else items[j]? := by
  induction items generalizing i j with
  | nil => cases i <;> simp [modifyItem]
  | cons item items ih =>
    cases i with
    | zero => cases j <;> simp [modifyItem]
    | succ i => cases j <;> simp [modifyItem, ih]

theorem length_modifyItem (f : Json → Json) (i : ℕ) (items : List Json) :
    (modifyItem f i items).length = items.length := by
  induction items generalizing i with
  | nil => cases i <;> rfl
  | cons item items ih => cases i <;> simp [modifyItem, ih]

theorem lookup_mapField (f : Json → Json) (name key : String) (fields : List (String × Json)) :
    Json.lookup (fields.map fun g => if g.1 = name then (g.1, f g.2) else g) key =
      if key = name then (Json.lookup fields key).map f else Json.lookup fields key := by
  induction fields with
  | nil => simp [Json.lookup]
  | cons g fields ih =>
    rw [List.map_cons, Json.lookup_cons, Json.lookup_cons, ih]
    by_cases hg : g.1 = name
    · rw [if_pos hg]
      dsimp only
      by_cases hkey : g.1 = key
      · rw [if_pos hkey, if_pos (hkey.symm.trans hg), if_pos hkey]
        rfl
      · rw [if_neg hkey, if_neg hkey]
    · rw [if_neg hg]
      by_cases hkey : g.1 = key
      · rw [if_pos hkey, if_neg fun h => hg (hkey.trans h), if_pos hkey]
      · rw [if_neg hkey, if_neg hkey]

/-- The children of a value after a deletion in one of them. -/
theorem child_deletePath {part : PathPart} {rest : List PathPart} (hrest : rest ≠ [])
    (value : Json) (other : PathPart) : child (deletePath (part :: rest) value) other =
      if other = part then (child value other).map (deletePath rest) else child value other := by
  cases part with
  | key name =>
    cases value with
    | obj fields =>
      rw [deletePath_key, if_neg hrest]
      cases other with
      | key key =>
        rw [child, child, lookup_mapField]
        simp only [PathPart.key.injEq]
      | index i => simp [child]
    | null | bool | int | float | str | arr => cases other <;> simp [deletePath, child]
  | index i =>
    cases value with
    | arr items =>
      rw [deletePath]
      cases other with
      | key key => simp [child]
      | index j =>
        rw [child, child, getElem?_modifyItem]
        simp only [PathPart.index.injEq]
    | null | bool | int | float | str | obj => cases other <;> simp [deletePath, child]

/-- The children of a value after one of its keys went. -/
theorem child_deletePath_key (name : String) (value : Json) (other : PathPart) :
    child (deletePath [.key name] value) other =
      if other = .key name then none else child value other := by
  cases value with
  | obj fields =>
    rw [deletePath]
    cases other with
    | key key =>
      rw [child, child]
      by_cases hkey : key = name
      · rw [hkey, if_pos rfl, Json.lookup_eraseField]
      · rw [Json.lookup_eraseField_of_ne hkey, if_neg fun h => hkey (PathPart.key.inj h)]
    | index i => simp [child]
  | null | bool | int | float | str | arr => cases other <;> simp [deletePath, child]

/-! ## Deletions -/

/-- A path to a key of a dictionary. -/
def EndsInKey (path : List PathPart) : Prop := ∃ init name, path = init ++ [.key name]

theorem EndsInKey.tail {part : PathPart} {rest : List PathPart} (h : EndsInKey (part :: rest))
    (hrest : rest ≠ []) : EndsInKey rest := by
  obtain ⟨init, name, heq⟩ := h
  cases init with
  | nil => exact absurd (List.cons.inj heq).2 hrest
  | cons first init => exact ⟨init, name, (List.cons.inj heq).2⟩

theorem EndsInKey.single {part : PathPart} (h : EndsInKey [part]) : ∃ name, part = .key name := by
  obtain ⟨init, name, heq⟩ := h
  have hsplit : [] ++ [part] = init ++ [.key name] := heq
  exact ⟨name, List.singleton_inj.mp (List.append_inj' hsplit rfl).2⟩

/-- What is at a deleted path is gone. -/
theorem valueAt_deleted {d : List PathPart} (hd : EndsInKey d) (value : Json) :
    valueAt d (deletePath d value) = none := by
  induction d generalizing value with
  | nil =>
    obtain ⟨init, name, heq⟩ := hd
    exact absurd heq.symm (List.append_ne_nil_of_right_ne_nil _ (List.cons_ne_nil _ _))
  | cons part rest ih =>
    rw [valueAt]
    by_cases hrest : rest = []
    · subst hrest
      obtain ⟨name, rfl⟩ := hd.single
      rw [child_deletePath_key, if_pos rfl]
      rfl
    · rw [child_deletePath hrest, if_pos rfl]
      cases child value part with
      | none => rfl
      | some inner => exact ih (hd.tail hrest) inner

/-- Above a deletion the value has the rest of the deletion in it. -/
theorem valueAt_above (p : List PathPart) {e : List PathPart} (he : e ≠ []) (value : Json) :
    valueAt p (deletePath (p ++ e) value) = (valueAt p value).map (deletePath e) := by
  induction p generalizing value with
  | nil => rfl
  | cons part p ih =>
    have hrest : p ++ e ≠ [] := List.append_ne_nil_of_right_ne_nil _ he
    rw [List.cons_append, valueAt, valueAt, child_deletePath hrest, if_pos rfl]
    cases child value part with
    | none => rfl
    | some inner => exact ih inner

/-- Neither path leads through the other. -/
structure Apart (p q : List PathPart) : Prop where
  left  : ¬ p <+: q
  right : ¬ q <+: p

theorem Apart.symm {p q : List PathPart} (h : Apart p q) : Apart q p := ⟨h.right, h.left⟩

/-- Apart from a deletion nothing changes. -/
theorem valueAt_apart {p d : List PathPart} (hd : EndsInKey d) (h : Apart p d) (value : Json) :
    valueAt p (deletePath d value) = valueAt p value := by
  induction p generalizing d value with
  | nil => exact absurd List.nil_prefix h.left
  | cons part p ih =>
    cases d with
    | nil => exact absurd List.nil_prefix h.right
    | cons first d =>
      rw [valueAt, valueAt]
      by_cases hrest : d = []
      · subst hrest
        obtain ⟨name, rfl⟩ := hd.single
        have hpart : part ≠ .key name := by
          rintro rfl
          exact h.right ⟨p, rfl⟩
        rw [child_deletePath_key, if_neg hpart]
      rw [child_deletePath hrest]
      by_cases hpart : part = first
      · subst hpart
        have hinner : Apart p d :=
          ⟨fun hp => h.left (List.prefix_cons_inj part |>.mpr hp),
            fun hp => h.right (List.prefix_cons_inj part |>.mpr hp)⟩
        rw [if_pos rfl]
        cases child value part with
        | none => rfl
        | some inner => exact ih (hd.tail hrest) hinner inner
      · rw [if_neg hpart]

theorem valueAt_deletePath_none {p d : List PathPart} (hd : EndsInKey d) {value : Json}
    (h : valueAt p value = none) : valueAt p (deletePath d value) = none := by
  by_cases hpd : p <+: d
  · obtain ⟨e, rfl⟩ := hpd
    by_cases he : e = []
    · subst he
      rw [List.append_nil] at hd ⊢
      exact valueAt_deleted hd value
    · rw [valueAt_above p he, h]
      rfl
  by_cases hdp : d <+: p
  · obtain ⟨q, rfl⟩ := hdp
    rw [valueAt_append, valueAt_deleted hd]
    rfl
  · rw [valueAt_apart hd ⟨hpd, hdp⟩, h]

/-! ## Cutting out -/

/-- A node without what is below it, and without some of its keys. -/
def outline (cut : PathPart → Bool) : Json → Json
  | .obj fields => .obj ((fields.filter fun f => !cut (.key f.1)).map fun f => (f.1, .null))
  | .arr items => .arr (items.map fun _ => .null)
  | value => value

/-- A value with some paths cut out of it. -/
structure CutOut (cut : List (List PathPart)) (before after : Json) : Prop where
  gone : ∀ d ∈ cut, valueAt d after = none
  kept : ∀ p, (∀ d ∈ cut, ¬ d <+: p) → (valueAt p after).map (outline fun _ => false) =
    (valueAt p before).map (outline fun part => decide (p ++ [part] ∈ cut))

theorem outline_outline (cut cut' : PathPart → Bool) (value : Json) :
    outline cut (outline cut' value) = outline (fun part => cut part || cut' part) value := by
  cases value with
  | obj fields =>
    rw [outline, outline, outline, List.filter_map, List.map_map, List.filter_filter]
    simp [Function.comp_def]
  | arr items => simp [outline]
  | null | bool | int | float | str => rfl

theorem outline_congr {cut cut' : PathPart → Bool} (h : ∀ part, cut part = cut' part) (value : Json) :
    outline cut value = outline cut' value := by
  rw [funext h]

/-- A deletion below a node, or in it, in outline. -/
theorem outline_deletePath {e : List PathPart} (he : EndsInKey e) (value : Json) :
    outline (fun _ => false) (deletePath e value) =
      outline (fun part => decide ([part] = e)) value := by
  cases e with
  | nil =>
    obtain ⟨init, name, heq⟩ := he
    exact absurd heq.symm (List.append_ne_nil_of_right_ne_nil _ (List.cons_ne_nil _ _))
  | cons first rest =>
    by_cases hrest : rest = []
    · subst hrest
      obtain ⟨name, rfl⟩ := he.single
      cases value with
      | obj fields => simp [deletePath, outline, Json.eraseField]
      | null | bool | int | float | str | arr => rfl
    · have hnone : (fun part : PathPart => decide ([part] = first :: rest)) = fun _ => false := by
        funext part
        exact decide_eq_false fun h => hrest (List.cons.inj h).2.symm
      rw [hnone]
      cases first with
      | key name =>
        cases value with
        | obj fields =>
          rw [deletePath_key, if_neg hrest, outline, outline, Bool.not_false, List.filter_true,
            List.filter_true, List.map_map]
          refine congrArg Json.obj (List.map_congr_left fun f _ => ?_)
          by_cases hf : f.1 = name <;> simp [hf]
        | null | bool | int | float | str | arr => simp [deletePath]
      | index i =>
        cases value with
        | arr items => simp [deletePath, outline, length_modifyItem]
        | null | bool | int | float | str | obj => simp [deletePath]

theorem CutOut.refl (value : Json) : CutOut [] value value := by
  refine ⟨fun d hd => absurd hd List.not_mem_nil, fun p _ => ?_⟩
  simp

/-- **One more deletion.** -/
theorem CutOut.delete {cut : List (List PathPart)} {before after : Json} (h : CutOut cut before after)
    {d : List PathPart} (hd : EndsInKey d) : CutOut (cut ++ [d]) before (deletePath d after) := by
  refine ⟨fun d' hd' => ?_, fun p hp => ?_⟩
  · rcases List.mem_append.mp hd' with hd' | hd'
    · exact valueAt_deletePath_none hd (h.gone d' hd')
    · rw [List.mem_singleton.mp hd']
      exact valueAt_deleted hd after
  have hcut : ∀ d' ∈ cut, ¬ d' <+: p := fun d' hd' => hp d' (List.mem_append_left _ hd')
  have hdp : ¬ d <+: p := hp d (List.mem_append_right _ List.mem_cons_self)
  -- the deletion shows at the node it is made in and nowhere else
  have hstep : (valueAt p (deletePath d after)).map (outline fun _ => false) =
      (valueAt p after).map (outline fun part => decide (p ++ [part] = d)) := by
    by_cases hpd : p <+: d
    · obtain ⟨e, rfl⟩ := hpd
      have he : e ≠ [] := by
        rintro rfl
        exact hdp (by simp)
      have hends : EndsInKey e := by
        obtain ⟨init, name, heq⟩ := hd
        obtain ⟨e, last, rfl⟩ := List.eq_nil_or_concat e |>.resolve_left he
        rw [List.concat_eq_append, ← List.append_assoc] at heq
        have hlast := List.singleton_inj.mp (List.append_inj' heq rfl).2
        exact ⟨e, name, by rw [List.concat_eq_append, hlast]⟩
      rw [valueAt_above p he, Option.map_map]
      refine congrArg (Option.map · _) (funext fun value => ?_)
      rw [Function.comp_apply, outline_deletePath hends]
      refine outline_congr (fun part => ?_) value
      exact decide_eq_decide.mpr (List.append_cancel_left_eq p _ _).symm.to_iff
    · rw [valueAt_apart hd ⟨hpd, hdp⟩]
      refine congrArg (Option.map · _) (funext fun value => outline_congr (fun part => ?_) value)
      refine (decide_eq_false ?_).symm
      rintro rfl
      exact hpd (List.prefix_append _ _)
  have hcompose : ∀ o : Option Json, o.map (outline fun part => decide (p ++ [part] = d)) =
      (o.map (outline fun _ => false)).map (outline fun part => decide (p ++ [part] = d)) := by
    intro o
    rw [Option.map_map]
    refine congrArg (Option.map · _) (funext fun value => ?_)
    rw [Function.comp_apply, outline_outline]
    exact outline_congr (fun part => (Bool.or_false _).symm) value
  rw [hstep, hcompose, h.kept p hcut, Option.map_map]
  refine congrArg (Option.map · _) (funext fun value => ?_)
  rw [Function.comp_apply, outline_outline]
  refine outline_congr (fun part => ?_) value
  simp [or_comm]

/-- **A sequence of deletions.** -/
theorem cutOut_deletions {cut : List (List PathPart)} (hcut : ∀ d ∈ cut, EndsInKey d)
    (value : Json) : CutOut cut value (cut.foldl (fun v d => deletePath d v) value) := by
  induction cut using List.reverseRecOn with
  | nil => exact .refl value
  | append_singleton cut d ih =>
    rw [List.foldl_append, List.foldl_cons, List.foldl_nil]
    exact (ih fun d' hd' => hcut d' (List.mem_append_left _ hd')).delete
      (hcut d (List.mem_append_right _ List.mem_cons_self))

/-- Without one key of both. -/
theorem CutOut.without {cut : List (List PathPart)} {before after : Json} (h : CutOut cut before after)
    (name : String) :
    CutOut cut (deletePath [.key name] before) (deletePath [.key name] after) := by
  have hname : EndsInKey [.key name] := ⟨[], name, rfl⟩
  refine ⟨fun d hd => valueAt_deletePath_none hname (h.gone d hd), fun p hp => ?_⟩
  by_cases hbelow : [PathPart.key name] <+: p
  · obtain ⟨q, rfl⟩ := hbelow
    rw [valueAt_append, valueAt_append, valueAt_deleted hname, valueAt_deleted hname]
    rfl
  cases p with
  | nil =>
    -- at the root the key goes from both outlines
    have hroot := Option.some.inj (h.kept [] hp)
    rw [valueAt, valueAt, Option.map_some, Option.map_some, Option.some_inj]
    have hwithout : ∀ (c : PathPart → Bool) (v : Json), outline c (deletePath [.key name] v) =
        outline (fun part => decide ([part] = [PathPart.key name])) (outline c v) := by
      intro c v
      rw [outline_outline]
      cases v with
      | obj fields => simp [deletePath, outline, Json.eraseField, List.filter_filter, Bool.and_comm]
      | null | bool | int | float | str | arr => rfl
    rw [hwithout, hwithout, hroot]
  | cons part p =>
    have hapart : Apart (part :: p) [PathPart.key name] := by
      refine ⟨fun hunder => hbelow ?_, hbelow⟩
      obtain ⟨q, hq⟩ := hunder
      have hq : part :: (p ++ q) = [PathPart.key name] := hq
      obtain ⟨rfl, hnil⟩ := List.cons.inj hq
      simp [(List.append_eq_nil_iff.mp hnil).1]
    rw [valueAt_apart hname hapart, valueAt_apart hname hapart]
    exact h.kept _ hp

/-! ## The paths of the bulk values -/

section Walk

variable {wireBytes : Json → ℕ}

/-- A path to a bulk value of a size. -/
structure BulkAt (wireBytes : Json → ℕ) (size : ℕ) (path : List PathPart) (value : Json) : Prop where
  ends  : ∃ init name, path = init ++ [.key name] ∧ name ∈ bulkResultKeys
  there : ∃ v, valueAt path value = some v ∧ isBulk v = true ∧ size = wireBytes v

theorem BulkAt.endsInKey {size : ℕ} {path : List PathPart} {value : Json}
    (h : BulkAt wireBytes size path value) : EndsInKey path := by
  obtain ⟨init, name, hpath, -⟩ := h.ends
  exact ⟨init, name, hpath⟩

theorem BulkAt.cons {size : ℕ} {part : PathPart} {rest : List PathPart} {value inner : Json}
    (hchild : child value part = some inner) (h : BulkAt wireBytes size rest inner) :
    BulkAt wireBytes size (part :: rest) value := by
  obtain ⟨init, name, hpath, hname⟩ := h.ends
  refine ⟨⟨part :: init, name, by rw [hpath, List.cons_append], hname⟩, ?_⟩
  rw [valueAt, hchild]
  exact h.there

mutual

/-- **Found**: a candidate leads to a bulk value of its size. -/
theorem walk_found : ∀ (value : Json) (path : List PathPart), value.uniqueKeys = true →
    ∀ c ∈ walk wireBytes value path, ∃ rest, c.2 = path ++ rest ∧ BulkAt wireBytes c.1 rest value
  | .obj fields, path, hunique, c, hc => by
    rw [Json.uniqueKeys_obj] at hunique
    obtain ⟨name, value, rest, hmem, hpath, hfound⟩ := walkFields_found fields path hunique.2 c hc
    have hlookup := Json.lookup_of_mem hunique.1 hmem
    rcases hfound with ⟨rfl, hname, hbulk, hsize⟩ | hfound
    · refine ⟨[.key name], hpath, ⟨[], name, rfl, hname⟩, value, ?_, hbulk, hsize⟩
      rw [valueAt, child, hlookup]
      rfl
    · exact ⟨.key name :: rest, hpath, hfound.cons hlookup⟩
  | .arr items, path, hunique, c, hc => by
    obtain ⟨k, rest, value, hitem, hpath, hfound⟩ :=
      walkItems_found items 0 path (Json.uniqueKeys_arr.mp hunique) c hc
    rw [Nat.zero_add] at hpath
    exact ⟨.index k :: rest, hpath, hfound.cons hitem⟩
  | .null, _, _, _, hc | .bool _, _, _, _, hc | .int _, _, _, _, hc | .float _, _, _, _, hc
  | .str _, _, _, _, hc => by cases hc

theorem walkFields_found : ∀ (fields : List (String × Json)) (path : List PathPart),
    (∀ f ∈ fields, f.2.uniqueKeys = true) → ∀ c ∈ walkFields wireBytes fields path,
    ∃ name value rest, (name, value) ∈ fields ∧ c.2 = path ++ .key name :: rest ∧
      ((rest = [] ∧ name ∈ bulkResultKeys ∧ isBulk value = true ∧ c.1 = wireBytes value) ∨
        BulkAt wireBytes c.1 rest value)
  | [], _, _, _, hc => by cases hc
  | (name, value) :: fields, path, hunique, c, hc => by
    rw [walkFields] at hc
    rcases List.mem_append.mp hc with hc | hc
    · split at hc
      · next hbulk =>
        rw [Bool.and_eq_true, List.contains_iff_mem] at hbulk
        rw [List.mem_singleton.mp hc]
        exact ⟨name, value, [], List.mem_cons_self, rfl, .inl ⟨rfl, hbulk.1, hbulk.2, rfl⟩⟩
      · obtain ⟨rest, hpath, hfound⟩ := walk_found value _ (hunique _ List.mem_cons_self) c hc
        refine ⟨name, value, rest, List.mem_cons_self, ?_, .inr hfound⟩
        rw [hpath, List.append_assoc, List.singleton_append]
    · obtain ⟨other, v, rest, hmem, hfound⟩ := walkFields_found fields path
        (fun f hf => hunique f (List.mem_cons_of_mem _ hf)) c hc
      exact ⟨other, v, rest, List.mem_cons_of_mem _ hmem, hfound⟩

theorem walkItems_found : ∀ (items : List Json) (i : ℕ) (path : List PathPart),
    (∀ v ∈ items, v.uniqueKeys = true) → ∀ c ∈ walkItems wireBytes items i path,
    ∃ k rest value, items[k]? = some value ∧ c.2 = path ++ .index (i + k) :: rest ∧
      BulkAt wireBytes c.1 rest value
  | [], _, _, _, _, hc => by cases hc
  | value :: items, i, path, hunique, c, hc => by
    rw [walkItems] at hc
    rcases List.mem_append.mp hc with hc | hc
    · obtain ⟨rest, hpath, hfound⟩ := walk_found value _ (hunique _ List.mem_cons_self) c hc
      refine ⟨0, rest, value, rfl, ?_, hfound⟩
      rw [hpath, List.append_assoc, List.singleton_append, Nat.add_zero]
    · obtain ⟨k, rest, v, hitem, hpath, hfound⟩ := walkItems_found items (i + 1) path
        (fun v hv => hunique v (List.mem_cons_of_mem _ hv)) c hc
      exact ⟨k + 1, rest, v, hitem, by rw [hpath, Nat.add_assoc, Nat.add_comm 1 k], hfound⟩

end

theorem apart_of_ne {path r r' : List PathPart} {part part' : PathPart} (h : part ≠ part') :
    Apart (path ++ part :: r) (path ++ part' :: r') := by
  refine ⟨fun hp => h ?_, fun hp => h ?_⟩
  · rw [List.prefix_append_right_inj, List.cons_prefix_cons] at hp
    exact hp.1
  · rw [List.prefix_append_right_inj, List.cons_prefix_cons] at hp
    exact hp.1.symm

mutual

/-- **Apart**: no candidate leads through another one. -/
theorem walk_apart : ∀ (value : Json) (path : List PathPart), value.uniqueKeys = true →
    (walk wireBytes value path).Pairwise fun a b => Apart a.2 b.2
  | .obj fields, path, hunique => by
    rw [Json.uniqueKeys_obj] at hunique
    exact walkFields_apart fields path hunique.1 hunique.2
  | .arr items, path, hunique => walkItems_apart items 0 path (Json.uniqueKeys_arr.mp hunique)
  | .null, _, _ | .bool _, _, _ | .int _, _, _ | .float _, _, _ | .str _, _, _ => .nil

theorem walkFields_apart : ∀ (fields : List (String × Json)) (path : List PathPart),
    (Json.keys fields).Nodup → (∀ f ∈ fields, f.2.uniqueKeys = true) →
    (walkFields wireBytes fields path).Pairwise fun a b => Apart a.2 b.2
  | [], _, _, _ => .nil
  | (name, value) :: fields, path, hnodup, hunique => by
    have hvalue : value.uniqueKeys = true := hunique _ List.mem_cons_self
    have hrest : ∀ f ∈ fields, f.2.uniqueKeys = true :=
      fun f hf => hunique f (List.mem_cons_of_mem _ hf)
    have hnodup : name ∉ Json.keys fields ∧ (Json.keys fields).Nodup := List.nodup_cons.mp hnodup
    rw [walkFields, List.pairwise_append]
    refine ⟨?_, walkFields_apart fields path hnodup.2 hrest, fun a ha b hb => ?_⟩
    · split
      · exact List.pairwise_singleton ..
      · exact walk_apart value _ hvalue
    · -- all of the first field lies under its key, which no other field has
      obtain ⟨r, hr⟩ : ∃ r, a.2 = path ++ .key name :: r := by
        split at ha
        · rw [List.mem_singleton.mp ha]
          exact ⟨[], rfl⟩
        · obtain ⟨r, hr, -⟩ := walk_found value _ hvalue a ha
          exact ⟨r, by rw [hr, List.append_assoc, List.singleton_append]⟩
      obtain ⟨other, v, r', hmem, hr', -⟩ := walkFields_found fields path hrest b hb
      rw [hr, hr']
      refine apart_of_ne fun hsame => hnodup.1 ?_
      rw [PathPart.key.inj hsame]
      exact List.mem_map_of_mem hmem

theorem walkItems_apart : ∀ (items : List Json) (i : ℕ) (path : List PathPart),
    (∀ v ∈ items, v.uniqueKeys = true) →
    (walkItems wireBytes items i path).Pairwise fun a b => Apart a.2 b.2
  | [], _, _, _ => .nil
  | value :: items, i, path, hunique => by
    have hvalue : value.uniqueKeys = true := hunique _ List.mem_cons_self
    have hrest : ∀ v ∈ items, v.uniqueKeys = true :=
      fun v hv => hunique v (List.mem_cons_of_mem _ hv)
    rw [walkItems, List.pairwise_append]
    refine ⟨walk_apart value _ hvalue, walkItems_apart items (i + 1) path hrest,
      fun a ha b hb => ?_⟩
    obtain ⟨r, hr, -⟩ := walk_found value _ hvalue a ha
    obtain ⟨k, r', v, -, hr', -⟩ := walkItems_found items (i + 1) path hrest b hb
    rw [hr, hr', List.append_assoc, List.singleton_append]
    refine apart_of_ne fun hsame => ?_
    have hindex := PathPart.index.inj hsame
    omega

end

/-! ## The candidates -/

theorem candidateLe_total (a b : ℕ × List PathPart) : candidateLe a b ∨ candidateLe b a := by
  rcases lt_trichotomy a.1 b.1 with hlt | heq | hgt
  · exact .inr (.inl hlt)
  · rcases le_total (pathText a.2) (pathText b.2) with hle | hle
    · exact .inl (.inr ⟨heq, hle⟩)
    · exact .inr (.inr ⟨heq.symm, hle⟩)
  · exact .inl (.inl hgt)

theorem candidateLe_trans {a b c : ℕ × List PathPart} (hab : candidateLe a b)
    (hbc : candidateLe b c) : candidateLe a c := by
  rcases hab with hab | ⟨hab, hle⟩
  · rcases hbc with hbc | ⟨hbc, -⟩
    · exact .inl (hbc.trans hab)
    · exact .inl (hbc ▸ hab)
  · rcases hbc with hbc | ⟨hbc, hle'⟩
    · exact .inl (hab ▸ hbc)
    · exact .inr ⟨hab.trans hbc, hle.trans hle'⟩

variable {result : Fields}

/-- Biggest first. -/
theorem bulkCandidates_sorted : (bulkCandidates wireBytes result).Pairwise candidateLe := by
  have htotal : Std.Total candidateLe := ⟨candidateLe_total⟩
  have htrans : IsTrans (ℕ × List PathPart) candidateLe := ⟨fun _ _ _ => candidateLe_trans⟩
  exact List.pairwise_insertionSort candidateLe _

theorem bulkCandidates_found (hunique : (Json.obj result).uniqueKeys = true)
    {c : ℕ × List PathPart} (hc : c ∈ bulkCandidates wireBytes result) :
    BulkAt wireBytes c.1 c.2 (.obj result) := by
  obtain ⟨rest, hpath, hfound⟩ :=
    walk_found (.obj result) [] hunique c ((List.mem_insertionSort _).mp hc)
  rw [hpath, List.nil_append]
  exact hfound

theorem bulkCandidates_apart (hunique : (Json.obj result).uniqueKeys = true) :
    (bulkCandidates wireBytes result).Pairwise fun a b => Apart a.2 b.2 := by
  refine ((List.perm_insertionSort candidateLe (walk wireBytes (.obj result) [])).pairwise_iff
    fun {a b} h => ?_).mpr (walk_apart (.obj result) [] hunique)
  exact h.symm

end Walk

end OutcomeSize

end Conductress
