import Conductress.Base.Json

/-!
# Comparing and updating JSON values

Python's `==`, `<` and `<=` on the values `json.loads` returns, membership in a
tuple and in a frozenset, and what assigning to one key of a dictionary leaves
of the others.

`true` is the number one, and a NaN is less than nothing and equal to nothing.
-/

namespace Conductress

namespace PyFloat

/-- `a < b`. -/
def lt : PyFloat → PyFloat → Bool
  | .nan, _ | _, .nan => false
  | .finite a, .finite b => decide (a < b)
  | .inf true, b => decide (b ≠ .inf true)
  | .finite _, .inf negative => !negative
  | .inf false, _ => false

/-- `a == b`. -/
def eq (a b : PyFloat) : Bool := decide (a = b ∧ a ≠ .nan)

end PyFloat

namespace Json

/-! ## Numbers -/

/-- The number a value is, exactly. -/
def number? : Json → Option PyFloat
  | .bool b => some (.finite (if b then 1 else 0))
  | .int n => some (.finite n)
  | .float x => some x
  | _ => none

mutual

/-- The value with its numbers in one form, so that equal values are one. -/
def plain : Json → Json
  | .bool b => .float (.finite (if b then 1 else 0))
  | .int n => .float (.finite n)
  | .float x => .float x
  | .null => .null
  | .str s => .str s
  | .arr items => .arr (plainItems items)
  | .obj fields => .obj ((plainFields fields).insertionSort fun f g => fieldLe f g = true)

def plainItems : List Json → List Json
  | [] => []
  | item :: items => plain item :: plainItems items

def plainFields : List (String × Json) → List (String × Json)
  | [] => []
  | (key, value) :: fields => (key, plain value) :: plainFields fields

end

/-- `a == b`. -/
def pyEq (a b : Json) : Bool :=
  match a.number?, b.number? with
  | some x, some y => x.eq y
  | _, _ => decide (a.plain = b.plain)

/-! ## Order -/

mutual

/-- `a < b` when `strict`, and `a <= b` otherwise. -/
def compare (strict : Bool) : Json → Json → Except PyError Bool
  | .str a, .str b => .ok (decide (a < b) || (!strict && decide (a = b)))
  | .arr as, .arr bs => compareItems strict as bs
  | a, b =>
    match a.number?, b.number? with
    | some x, some y => .ok (x.lt y || (!strict && x.eq y))
    | _, _ => .error (.typeError "comparison not supported between instances")

/-- Lists compare at the first place where they differ, or by length. -/
def compareItems (strict : Bool) : List Json → List Json → Except PyError Bool
  | [], [] => .ok (!strict)
  | [], _ :: _ => .ok true
  | _ :: _, [] => .ok false
  | a :: as, b :: bs => if pyEq a b then compareItems strict as bs else compare strict a b

end

/-- `a < b`. -/
def pyLt (a b : Json) : Except PyError Bool := compare true a b

/-- `a <= b`. -/
def pyLe (a b : Json) : Except PyError Bool := compare false a b

/-! ## Membership -/

/-- `value in names`, for a tuple or a list of names. -/
def inNames (names : List String) : Json → Bool
  | .str s => names.contains s
  | _ => false

/-- `value in names`, for a frozenset of names: the value is hashed. -/
def inFrozenset (names : List String) : Json → Except PyError Bool
  | .arr _ => .error (.typeError "unhashable type: 'list'")
  | .obj _ => .error (.typeError "unhashable type: 'dict'")
  | value => .ok (inNames names value)

/-- What a scalar is hashed and compared by. -/
inductive HashKey where
  | null
  | text (s : String)
  | number (x : PyFloat)
  deriving DecidableEq

/-- The key of a value in a set; lists and dictionaries have none. -/
def hashKey : Json → Except PyError HashKey
  | .null => .ok .null
  | .str s => .ok (.text s)
  | .bool b => .ok (.number (.finite (if b then 1 else 0)))
  | .int n => .ok (.number (.finite n))
  | .float x => .ok (.number x)
  | .arr _ => .error (.typeError "unhashable type: 'list'")
  | .obj _ => .error (.typeError "unhashable type: 'dict'")

/-! ## Assigning to a key -/

/-- The keys of a dictionary, in order. -/
def keys (fields : List (String × Json)) : List String := fields.map Prod.fst

theorem lookup_cons (f : String × Json) (fields : List (String × Json)) (key : String) :
    lookup (f :: fields) key = if f.1 = key then some f.2 else lookup fields key := by
  by_cases h : f.1 = key <;> simp [lookup, h]

theorem lookup_isSome_iff {fields : List (String × Json)} {key : String} :
    (lookup fields key).isSome ↔ key ∈ keys fields := by
  simp [lookup, keys]

theorem lookup_eq_none_iff {fields : List (String × Json)} {key : String} :
    lookup fields key = none ↔ key ∉ keys fields := by
  rw [← lookup_isSome_iff, Option.not_isSome_iff_eq_none]

/-- Assigning to a key that is there keeps the keys. -/
theorem keys_setField {fields : List (String × Json)} {key : String} (h : key ∈ keys fields)
    (value : Json) : keys (setField fields key value) = keys fields := by
  have hany : (fields.any fun f => decide (f.1 = key)) = true := by
    simpa [keys] using h
  rw [setField, if_pos hany, keys, keys, List.map_map]
  apply List.map_congr_left
  intro f _
  by_cases hf : f.1 = key <;> simp [hf]

/-- A key holds what it was last assigned. -/
theorem lookup_setField (fields : List (String × Json)) (key : String) (value : Json) :
    lookup (setField fields key value) key = some value := by
  unfold setField lookup
  split
  · next hany =>
    obtain ⟨f, hf, hkey⟩ := List.any_eq_true.mp hany
    have hkey : f.1 = key := by simpa using hkey
    rw [List.find?_map]
    cases hfind : fields.find? ((fun f => decide (f.1 = key)) ∘
        fun f => if f.1 = key then (key, value) else f) with
    | none =>
      have := List.find?_eq_none.mp hfind f hf
      simp [hkey] at this
    | some g =>
      have hg := List.find?_some hfind
      by_cases hgk : g.1 = key
      · simp [hgk]
      · simp [hgk] at hg
  · next hany =>
    rw [List.find?_append]
    have hnone : fields.find? (fun f => decide (f.1 = key)) = none := by
      rw [List.find?_eq_none]
      intro f hf hkey
      exact hany (List.any_eq_true.mpr ⟨f, hf, hkey⟩)
    simp [hnone]

/-- What another key holds is kept. -/
theorem lookup_setField_of_ne {fields : List (String × Json)} {key other : String}
    (h : other ≠ key) (value : Json) :
    lookup (setField fields key value) other = lookup fields other := by
  unfold setField
  split
  · induction fields with
    | nil => rfl
    | cons f fields ih =>
      rw [List.map_cons, lookup_cons, lookup_cons]
      by_cases hf : f.1 = key
      · rw [if_pos hf, if_neg (Ne.symm h), if_neg (fun he => h (he.symm.trans hf))]
        by_cases hany : (fields.any fun f => decide (f.1 = key)) = true
        · exact ih hany
        · -- no other entry has the key
          congr 1
          refine (List.map_congr_left fun g hg => ?_).trans (List.map_id fields)
          have hne : g.1 ≠ key := by
            intro he
            exact hany (List.any_eq_true.mpr ⟨g, hg, by simpa using he⟩)
          rw [if_neg hne]
          rfl
      · rw [if_neg hf]
        have hany : (fields.any fun f => decide (f.1 = key)) = true := by
          simp_all
        rw [ih hany]
  · rw [lookup, List.find?_append]
    simp [lookup, Ne.symm h]

/-- Assigning what a key already holds changes nothing. -/
theorem setField_self {fields : List (String × Json)} (hnodup : (keys fields).Nodup)
    {key : String} {value : Json} (h : lookup fields key = some value) :
    setField fields key value = fields := by
  have hmem : key ∈ keys fields := lookup_isSome_iff.mp (by rw [h]; rfl)
  have hany : (fields.any fun f => decide (f.1 = key)) = true := by
    simpa [keys] using hmem
  rw [setField, if_pos hany]
  refine (List.map_congr_left fun f hf => ?_).trans (List.map_id fields)
  by_cases hkey : f.1 = key
  · obtain ⟨g, hg, hvalue⟩ := Option.map_eq_some_iff.mp h
    have hgkey : g.1 = key := by simpa using List.find?_some hg
    have hfg : f = g :=
      List.inj_on_of_nodup_map hnodup hf (List.mem_of_find?_eq_some hg) (hkey.trans hgkey.symm)
    rw [if_pos hkey, ← hvalue, ← hkey, hfg]
    rfl
  · rw [if_neg hkey]
    rfl

/-- Assignments to two keys that are there commute. -/
theorem setField_comm {fields : List (String × Json)} {key other : String} (h : other ≠ key)
    (hkey : key ∈ keys fields) (hother : other ∈ keys fields) (value w : Json) :
    setField (setField fields key value) other w = setField (setField fields other w) key value := by
  have hin : ∀ (fs : List (String × Json)) (k : String), k ∈ keys fs →
      (fs.any fun f => decide (f.1 = k)) = true := by
    intro fs k hk
    simpa [keys] using hk
  have hk' : key ∈ keys (setField fields other w) := by rw [keys_setField hother]; exact hkey
  have ho' : other ∈ keys (setField fields key value) := by rw [keys_setField hkey]; exact hother
  rw [setField, if_pos (hin _ _ ho'), setField, if_pos (hin _ _ hkey),
    setField, if_pos (hin _ _ hk'), setField, if_pos (hin _ _ hother), List.map_map, List.map_map]
  apply List.map_congr_left
  intro f _
  by_cases hf : f.1 = key
  · simp [hf, Ne.symm h]
  · by_cases hfo : f.1 = other <;> simp [hf, hfo, h]

/-- A dictionary without a key loses nothing when that key is popped. -/
theorem eraseField_of_not_mem {fields : List (String × Json)} {key : String}
    (h : key ∉ keys fields) : eraseField fields key = fields := by
  rw [eraseField, List.filter_eq_self]
  intro f hf
  have hne : f.1 ≠ key := by
    intro he
    exact h (List.mem_map.mpr ⟨f, hf, he⟩)
  simpa using hne

/-- The keys in order with what each holds are the dictionary. -/
theorem map_keys_getD {fields : List (String × Json)} (hnodup : (keys fields).Nodup) :
    (keys fields).map (fun key => (key, getD fields key)) = fields := by
  rw [keys, List.map_map]
  refine (List.map_congr_left fun f hf => ?_).trans (List.map_id fields)
  obtain ⟨g, hg⟩ := Option.isSome_iff_exists.mp
    (lookup_isSome_iff.mpr (List.mem_map_of_mem hf : f.1 ∈ keys fields))
  obtain ⟨f', hf', hvalue⟩ := Option.map_eq_some_iff.mp hg
  have hkey : f'.1 = f.1 := by simpa using List.find?_some hf'
  have hsame : f' = f := List.inj_on_of_nodup_map hnodup (List.mem_of_find?_eq_some hf') hf hkey
  simp only [Function.comp_apply, getD, hg, Option.getD_some, ← hvalue, hsame]
  rfl

theorem eraseField_append (fields rest : List (String × Json)) (key : String) :
    eraseField (fields ++ rest) key = eraseField fields key ++ eraseField rest key :=
  List.filter_append ..

theorem eraseField_cons (f : String × Json) (fields : List (String × Json)) (key : String) :
    eraseField (f :: fields) key = if f.1 = key then eraseField fields key
      else f :: eraseField fields key := by
  by_cases h : f.1 = key <;> simp [eraseField, h]

/-- Popping a key leaves what the others hold. -/
theorem lookup_eraseField_of_ne {fields : List (String × Json)} {key other : String}
    (h : other ≠ key) : lookup (eraseField fields key) other = lookup fields other := by
  induction fields with
  | nil => rfl
  | cons f fields ih =>
    rw [eraseField_cons, lookup_cons]
    by_cases hf : f.1 = key
    · rw [if_pos hf, ih, if_neg fun he => h (he.symm.trans hf)]
    · rw [if_neg hf, lookup_cons, ih]

/-- Popping a key that was just assigned leaves what was there before it. -/
theorem eraseField_setField {fields : List (String × Json)} {key : String}
    (h : key ∉ keys fields) (value : Json) : eraseField (setField fields key value) key = fields := by
  have hany : ¬ (fields.any fun f => decide (f.1 = key)) = true := by
    simpa [keys] using h
  rw [setField, if_neg hany, eraseField_append, eraseField_of_not_mem h, eraseField_cons, if_pos rfl]
  exact List.append_nil fields

theorem lookup_append (fields rest : List (String × Json)) (key : String) :
    lookup (fields ++ rest) key = (lookup fields key).or (lookup rest key) := by
  rw [lookup, List.find?_append, lookup, lookup]
  rcases fields.find? _ with _ | f <;> simp

end Json

end Conductress
