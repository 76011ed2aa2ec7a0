import Conductress.Control.Schema

/-!
# The size of an outcome report

What a runner does to an outcome that may be too large to send: it drops the
bulk values of the result, biggest first, and leaves a record of what it
dropped. The encoded size of a document is a parameter.
-/

namespace Conductress

/-- The document of an outcome, as it goes on the wire. -/
def TaskOutcome.toJson (o : TaskOutcome) : Json :=
  .obj [("schema_version", .int 1), ("task_id", .str o.taskId), ("runner_id", .str o.runnerId),
    ("state", .str (match o.state with | .completed => "completed" | .failed => "failed")),
    ("completed_at", .str o.completedAt),
    ("result", match o.result with | .value fields => .obj fields | _ => .null),
    ("error", match o.error with | .value text => .str text | _ => .null)]

namespace OutcomeSize

/-- `DEFAULT_MAX_OUTCOME_BYTES`. -/
def defaultMaxOutcomeBytes : ℕ := 3 * 1024 * 1024

/-- `BULK_RESULT_KEYS`. -/
def bulkResultKeys : List String :=
  ["series", "samples", "lscpu", "reader_toml", "writer_toml", "toml_config", "sample_errors"]

/-- `DELIVERY_KEY`. -/
def deliveryKey : String := "outcome_delivery"

/-- `is_permanent_rejection`: a transport error has no status. -/
def isPermanentRejection (status : Option ℕ) : Bool :=
  status.any fun s => s = 400 || s = 413 || s = 422

/-- One step from a document to a value in it. -/
inductive PathPart where
  | key (name : String)
  | index (i : ℕ)
  deriving DecidableEq

/-- `_path_text`. -/
def pathText (path : List PathPart) : String :=
  path.foldl (fun text part =>
    match part with
    | .key name => text ++ "." ++ name
    | .index i => text ++ "[" ++ toString i ++ "]") "result"

/-- A value of these kinds under a bulk key is dropped whole. -/
def isBulk : Json → Bool
  | .arr _ | .obj _ | .str _ => true
  | _ => false

section Walk

variable (wireBytes : Json → ℕ)

mutual

/-- The bulk values below a value, in document order. -/
def walk : Json → List PathPart → List (ℕ × List PathPart)
  | .obj fields, path => walkFields fields path
  | .arr items, path => walkItems items 0 path
  | .null, _ | .bool _, _ | .int _, _ | .float _, _ | .str _, _ => []

def walkFields : List (String × Json) → List PathPart → List (ℕ × List PathPart)
  | [], _ => []
  | (name, value) :: rest, path =>
    (if bulkResultKeys.contains name && isBulk value then
      [(wireBytes value, path ++ [.key name])]
    else walk value (path ++ [.key name])) ++ walkFields rest path

def walkItems : List Json → ℕ → List PathPart → List (ℕ × List PathPart)
  | [], _, _ => []
  | value :: rest, i, path =>
    walk value (path ++ [.index i]) ++ walkItems rest (i + 1) path

end

/-- `(-size, path text)`. -/
def candidateLe (a b : ℕ × List PathPart) : Prop :=
  b.1 < a.1 ∨ (a.1 = b.1 ∧ pathText a.2 ≤ pathText b.2)

instance (a b : ℕ × List PathPart) : Decidable (candidateLe a b) :=
  inferInstanceAs (Decidable (_ ∨ _ ∧ _))

/-- `bulk_candidates`: every bulk value of a result, biggest first. -/
def bulkCandidates (result : Fields) : List (ℕ × List PathPart) :=
  (walk wireBytes (.obj result) []).insertionSort candidateLe

end Walk

/-- Replace the item at a position. -/
def modifyItem (f : Json → Json) : ℕ → List Json → List Json
  | _, [] => []
  | 0, item :: items => f item :: items
  | i + 1, item :: items => item :: modifyItem f i items

/-- `_delete_path`. -/
def deletePath : List PathPart → Json → Json
  | [], value => value
  | [.key name], .obj fields => .obj (Json.eraseField fields name)
  | .key name :: rest, .obj fields =>
    .obj (fields.map fun f => if f.1 = name then (f.1, deletePath rest f.2) else f)
  | .index i :: rest, .arr items => .arr (modifyItem (deletePath rest) i items)
  | _, value => value

/-- The same on the fields of a result. -/
def deleteFromResult (path : List PathPart) (result : Fields) : Fields :=
  match deletePath path (.obj result) with
  | .obj fields => fields
  | _ => result

/-! ### Dropping leaves less -/

mutual

/-- How many bulk values there are below a value. -/
def bulkCount : Json → ℕ
  | .obj fields => bulkCountFields fields
  | .arr items => bulkCountItems items
  | .null | .bool _ | .int _ | .float _ | .str _ => 0

def bulkCountFields : List (String × Json) → ℕ
  | [] => 0
  | (name, value) :: rest =>
    (if bulkResultKeys.contains name && isBulk value then 1 else bulkCount value) +
      bulkCountFields rest

def bulkCountItems : List Json → ℕ
  | [] => 0
  | value :: rest => bulkCount value + bulkCountItems rest

end

/-- A deletion does not change what kind of value it is made in. -/
theorem isBulk_deletePath (path : List PathPart) (value : Json) :
    isBulk (deletePath path value) = isBulk value := by
  unfold deletePath
  split <;> rfl

theorem bulkCountItems_strings (texts : List String) : bulkCountItems (texts.map .str) = 0 := by
  induction texts with
  | nil => rfl
  | cons text texts ih => rw [List.map_cons, bulkCountItems, ih, bulkCount]

theorem bulkCountFields_append (fields rest : List (String × Json)) :
    bulkCountFields (fields ++ rest) = bulkCountFields fields + bulkCountFields rest := by
  induction fields with
  | nil => simp [bulkCountFields]
  | cons field fields ih =>
    rw [List.cons_append, bulkCountFields, bulkCountFields, ih, Nat.add_assoc]

theorem bulkCountFields_filter_le (keep : String × Json → Bool) (fields : List (String × Json)) :
    bulkCountFields (fields.filter keep) ≤ bulkCountFields fields := by
  induction fields with
  | nil => exact Nat.le_refl 0
  | cons field rest ih =>
    rw [List.filter_cons]
    split
    · rw [bulkCountFields, bulkCountFields]
      omega
    · rw [bulkCountFields]
      omega

/-- Of one field, changed by a function that keeps its kind. -/
theorem bulkCountFields_map_le {f : Json → Json} (name : String)
    (hkind : ∀ value, isBulk (f value) = isBulk value)
    (hle : ∀ value, bulkCount (f value) ≤ bulkCount value) (fields : List (String × Json)) :
    bulkCountFields (fields.map fun g => if g.1 = name then (g.1, f g.2) else g) ≤
      bulkCountFields fields := by
  induction fields with
  | nil => exact Nat.le_refl 0
  | cons field rest ih =>
    obtain ⟨key, value⟩ := field
    rw [List.map_cons]
    have hvalue := hle value
    by_cases hkey : key = name
    · rw [if_pos hkey, bulkCountFields, bulkCountFields, hkind]
      dsimp only
      split <;> omega
    · rw [if_neg hkey, bulkCountFields, bulkCountFields]
      omega

theorem bulkCountItems_modifyItem_le {f : Json → Json}
    (hle : ∀ value, bulkCount (f value) ≤ bulkCount value) (i : ℕ) (items : List Json) :
    bulkCountItems (modifyItem f i items) ≤ bulkCountItems items := by
  induction items generalizing i with
  | nil => cases i <;> exact Nat.le_refl 0
  | cons item items ih =>
    cases i with
    | zero =>
      rw [modifyItem, bulkCountItems, bulkCountItems]
      have := hle item
      omega
    | succ i =>
      rw [modifyItem, bulkCountItems, bulkCountItems]
      have := ih i
      omega

/-- A deletion adds no bulk value. -/
theorem bulkCount_deletePath_le (path : List PathPart) (value : Json) :
    bulkCount (deletePath path value) ≤ bulkCount value := by
  induction path generalizing value with
  | nil => rw [deletePath]
  | cons part rest ih =>
    unfold deletePath
    split
    · exact Nat.le_refl _
    · rw [bulkCount, bulkCount, Json.eraseField]
      exact bulkCountFields_filter_le _ _
    · next _ heq =>
      injection heq with hpart hrest
      rw [bulkCount, bulkCount]
      rw [← hrest]
      exact bulkCountFields_map_le _ (isBulk_deletePath rest) ih _
    · next heq =>
      injection heq with hpart hrest
      rw [bulkCount, bulkCount]
      rw [← hrest]
      exact bulkCountItems_modifyItem_le ih _ _
    · exact Nat.le_refl _

section Strict

variable {wireBytes : Json → ℕ}

/-- The deletion of a field, or below it. -/
theorem deletePath_key (name : String) (rest : List PathPart) (fields : List (String × Json)) :
    deletePath (.key name :: rest) (.obj fields) = .obj (if rest = [] then Json.eraseField fields name
      else fields.map fun f => if f.1 = name then (f.1, deletePath rest f.2) else f) := by
  cases rest <;> rfl

mutual

/-- A candidate is a bulk value: its deletion leaves fewer of them. -/
theorem walk_deletes : ∀ (value : Json) (path : List PathPart), ∀ c ∈ walk wireBytes value path,
    ∃ rest, c.2 = path ++ rest ∧ bulkCount (deletePath rest value) < bulkCount value
  | .obj fields, path, c, hc => by
    obtain ⟨name, rest, hpath, hless⟩ := walkFields_deletes fields path c hc
    exact ⟨.key name :: rest, hpath, hless⟩
  | .arr items, path, c, hc => by
    obtain ⟨k, rest, hpath, hless⟩ := walkItems_deletes items 0 path c hc
    rw [Nat.zero_add] at hpath
    exact ⟨.index k :: rest, hpath, hless⟩
  | .null, _, _, hc | .bool _, _, _, hc | .int _, _, _, hc | .float _, _, _, hc
  | .str _, _, _, hc => by cases hc

theorem walkFields_deletes : ∀ (fields : List (String × Json)) (path : List PathPart),
    ∀ c ∈ walkFields wireBytes fields path, ∃ name rest, c.2 = path ++ .key name :: rest ∧
      bulkCount (deletePath (.key name :: rest) (.obj fields)) < bulkCount (.obj fields)
  | [], _, _, hc => by cases hc
  | (key, value) :: fields, path, c, hc => by
    rw [walkFields] at hc
    rcases List.mem_append.mp hc with hc | hc
    · split at hc
      · next hbulk =>
        -- the value itself is dropped
        refine ⟨key, [], by rw [List.mem_singleton.mp hc], ?_⟩
        rw [deletePath, Json.eraseField, bulkCount, bulkCount, List.filter_cons_of_neg (by simp),
          bulkCountFields, if_pos hbulk]
        have := bulkCountFields_filter_le (fun f => decide (f.1 ≠ key)) fields
        omega
      · next hbulk =>
        obtain ⟨rest, hpath, hless⟩ := walk_deletes value _ c hc
        have hrest : rest ≠ [] := by
          rintro rfl
          rw [deletePath] at hless
          exact lt_irrefl _ hless
        refine ⟨key, rest, by rw [hpath, List.append_assoc, List.singleton_append], ?_⟩
        rw [deletePath_key, if_neg hrest, List.map_cons, if_pos rfl, bulkCount, bulkCount,
          bulkCountFields, bulkCountFields, isBulk_deletePath, if_neg hbulk]
        dsimp only
        rw [if_neg hbulk]
        have := bulkCountFields_map_le key (isBulk_deletePath rest) (bulkCount_deletePath_le rest)
          fields
        omega
    · obtain ⟨name, rest, hpath, hless⟩ := walkFields_deletes fields path c hc
      refine ⟨name, rest, hpath, ?_⟩
      -- what happens to the first field does not add any
      have hfirst := bulkCount_deletePath_le (.key name :: rest) (.obj [(key, value)])
      rw [deletePath_key, bulkCount, bulkCount] at hless hfirst ⊢
      rw [← List.singleton_append, bulkCountFields_append]
      split at hless
      · next hnil =>
        rw [if_pos hnil, Json.eraseField] at hfirst ⊢
        rw [Json.eraseField] at hless
        rw [List.filter_append, bulkCountFields_append]
        omega
      · next hnil =>
        rw [if_neg hnil] at hfirst ⊢
        rw [List.map_append, bulkCountFields_append]
        omega

theorem walkItems_deletes : ∀ (items : List Json) (i : ℕ) (path : List PathPart),
    ∀ c ∈ walkItems wireBytes items i path, ∃ k rest, c.2 = path ++ .index (i + k) :: rest ∧
      bulkCount (deletePath (.index k :: rest) (.arr items)) < bulkCount (.arr items)
  | [], _, _, _, hc => by cases hc
  | value :: items, i, path, c, hc => by
    rw [walkItems] at hc
    rcases List.mem_append.mp hc with hc | hc
    · obtain ⟨rest, hpath, hless⟩ := walk_deletes value _ c hc
      refine ⟨0, rest, by rw [hpath, List.append_assoc, List.singleton_append, Nat.add_zero], ?_⟩
      rw [deletePath, modifyItem, bulkCount, bulkCount, bulkCountItems, bulkCountItems]
      omega
    · obtain ⟨k, rest, hpath, hless⟩ := walkItems_deletes items (i + 1) path c hc
      refine ⟨k + 1, rest, by rw [hpath, Nat.add_assoc, Nat.add_comm 1 k], ?_⟩
      rw [deletePath, bulkCount, bulkCount] at hless ⊢
      rw [modifyItem, bulkCountItems, bulkCountItems]
      omega

end

end Strict

/-- A dictionary stays one. -/
theorem deletePath_result (path : List PathPart) (result : Fields) :
    deletePath path (.obj result) = .obj (deleteFromResult path result) := by
  unfold deleteFromResult
  cases path with
  | nil => rfl
  | cons part rest =>
    cases part with
    | key name => rw [deletePath_key]
    | index i => rfl

theorem bulkCount_deletions_le (candidates : List (ℕ × List PathPart)) (result : Fields) :
    bulkCountFields (candidates.foldl (fun result c => deleteFromResult c.2 result) result) ≤
      bulkCountFields result := by
  induction candidates generalizing result with
  | nil => exact Nat.le_refl _
  | cons c rest ih =>
    have hfirst := bulkCount_deletePath_le c.2 (.obj result)
    rw [deletePath_result, bulkCount, bulkCount] at hfirst
    exact (ih _).trans hfirst

theorem bulkCountFields_setField_le {name : String} {value : Json}
    (hname : bulkResultKeys.contains name = false) (hvalue : bulkCount value = 0)
    (fields : List (String × Json)) :
    bulkCountFields (Json.setField fields name value) ≤ bulkCountFields fields := by
  have hsingle : bulkCountFields [(name, value)] = 0 := by
    rw [bulkCountFields, hname, Bool.false_and, if_neg Bool.false_ne_true, hvalue, bulkCountFields]
  unfold Json.setField
  split
  · clear * - hsingle
    induction fields with
    | nil => exact Nat.le_refl 0
    | cons field rest ih =>
      rw [List.map_cons, ← List.singleton_append, bulkCountFields_append,
        ← List.singleton_append (l := rest), bulkCountFields_append]
      split
      · omega
      · omega
  · rw [bulkCountFields_append, hsingle]
    exact Nat.le_refl _

end OutcomeSize

end Conductress
