import Conductress.Base.JsonBytes
import Conductress.Runner.OutcomePaths

/-!
# Trimming an outcome

`trim_outcome` of any outcome and budget, with the deletions that raise. A call
has two documents, the caller's outcome and the copy that is trimmed. The size
of a document is a parameter.

The paths of the bulk values are taken from the caller's result and deleted in
the copy, where `attach_record` has put the delivery record in the place of what
was there. A path that leads further into an `outcome_delivery` of the caller's
own is not a path into the record.
-/

namespace Conductress

namespace OutcomeSize

/-! ## Sizes -/

/-- `encode_json_body`, given `float.__repr__`. -/
def encodeJsonBody (floatText : Rat → List Char) (body : Json) : List UInt8 :=
  Json.utf8 (Json.dumps floatText body)

/-- `wire_bytes`. -/
def wireBytes (floatText : Rat → List Char) (body : Json) : ℕ :=
  (encodeJsonBody floatText body).length

/-! ## `_delete_path` -/

/-- What `_delete_path` raises. -/
inductive DeleteError where
  | keyError (part : PathPart)
  | indexError (message : String)
  | typeError (message : String)
  | attributeError (message : String)
  deriving DecidableEq

/-- `type(value).__name__`. -/
def typeName : Json → String
  | .null => "NoneType"
  | .bool _ => "bool"
  | .int _ => "int"
  | .float _ => "float"
  | .str _ => "str"
  | .arr _ => "list"
  | .obj _ => "dict"

/-- `node[part]`. -/
def getItem : Json → PathPart → Except DeleteError Json
  | .obj fields, .key name =>
    match Json.lookup fields name with
    | some value => .ok value
    | none => .error (.keyError (.key name))
  | .obj _, .index i => .error (.keyError (.index i))
  | .arr items, .index i =>
    match items[i]? with
    | some value => .ok value
    | none => .error (.indexError "list index out of range")
  | .arr _, .key _ => .error (.typeError "list indices must be integers or slices, not str")
  | .str s, .index i =>
    match s.toList[i]? with
    | some c => .ok (.str (String.singleton c))
    | none => .error (.indexError "string index out of range")
  | .str _, .key _ => .error (.typeError "string indices must be integers, not 'str'")
  | node, _ => .error (.typeError ("'" ++ typeName node ++ "' object is not subscriptable"))

/-- `node[part] = value`, in place. -/
def putItem : Json → PathPart → Json → Json
  | .obj fields, .key name, value => .obj (Json.setField fields name value)
  | .arr items, .index i, value => .arr (items.set i value)
  | node, _, _ => node

/-- `node.pop(part, None)`: only a dictionary has that. -/
def popPart : Json → PathPart → Except DeleteError Json
  | .obj fields, .key name => .ok (.obj (Json.eraseField fields name))
  | .obj fields, .index _ => .ok (.obj fields)
  | .arr _, _ => .error (.typeError "pop expected at most 1 argument, got 2")
  | node, _ => .error (.attributeError ("'" ++ typeName node ++ "' object has no attribute 'pop'"))

/-- `_delete_path`: the value after it. -/
def deletePath? : List PathPart → Json → Except DeleteError Json
  | [], _ => .error (.indexError "tuple index out of range")
  | part :: rest, node =>
    if rest = [] then popPart node part
    else do
      let inner ← getItem node part
      return putItem node part (← deletePath? rest inner)

/-! ## `trim_outcome` -/

/-- A call of `trim_outcome`. -/
structure TrimCall where
  outcome        : Fields
  unique         : (Json.obj outcome).uniqueKeys = true
  budget         : Int
  reason         : String
  fullRecordPath : String

/-- The caller's outcome, the copy that is trimmed, and what was dropped from it. -/
structure Trimming where
  outcome : Fields
  trimmed : Fields
  dropped : List String

namespace Trimming

/-- `trimmed["result"]`. -/
def result (s : Trimming) : Json := Json.getD s.trimmed "result"

def setResult (s : Trimming) (result : Json) : Trimming :=
  { s with trimmed := Json.setField s.trimmed "result" result }

end Trimming

/-- What a call returns, and the caller's outcome after it. -/
structure TrimReturn where
  outcome  : Fields
  returned : Fields
  dropped  : List String
  deriving DecidableEq

/-- How a bulk value is named in the list of dropped ones. -/
def droppedText (candidate : ℕ × List PathPart) : String :=
  pathText candidate.2 ++ " (" ++ toString candidate.1 ++ " bytes)"

/-- One turn of the loop: the bulk value goes. -/
def dropValue (candidate : ℕ × List PathPart) (s : Trimming) : Except DeleteError Trimming := do
  let result ← deletePath? candidate.2 s.result
  return { s.setResult result with dropped := s.dropped ++ [droppedText candidate] }

section Trim

variable (wireBytes : Json → ℕ) (c : TrimCall)

/-- The delivery record. -/
def TrimCall.record (dropped : List String) (sentBytes : ℕ) : Json :=
  .obj [("trimmed", .bool true), ("reason", .str c.reason), ("dropped", .arr (dropped.map .str)),
    ("original_bytes", .int (wireBytes (.obj c.outcome))), ("sent_bytes", .int sentBytes),
    ("full_result_path", .str c.fullRecordPath)]

/-- `attach_record`: the size is written into the record and settled once. -/
def attachRecord (s : Trimming) : Trimming × ℕ :=
  let recorded (sentBytes : ℕ) : Trimming :=
    s.setResult (putItem s.result (.key deliveryKey) (c.record wireBytes s.dropped sentBytes))
  let first := wireBytes (.obj (recorded 0).trimmed)
  let sent := wireBytes (.obj (recorded first).trimmed)
  (recorded sent, sent)

/-- The loop over the bulk values. -/
def dropBulk : List (ℕ × List PathPart) → Trimming → Except DeleteError Trimming
  | [], s => .ok s
  | candidate :: rest, s =>
    if s.dropped ≠ [] ∧ 0 < c.budget then
      let attached := attachRecord wireBytes c s
      if (attached.2 : Int) ≤ c.budget then .ok attached.1
      else (dropValue candidate attached.1).bind (dropBulk rest)
    else (dropValue candidate s).bind (dropBulk rest)

/-- `trim_outcome`. -/
def trimOutcome : Except DeleteError TrimReturn :=
  match Json.lookup c.outcome "result" with
  | some (.obj result) =>
    if 0 < c.budget ∧ (wireBytes (.obj c.outcome) : Int) ≤ c.budget then
      .ok ⟨c.outcome, c.outcome, []⟩
    else do
      let s ← dropBulk wireBytes c (bulkCandidates wireBytes result) ⟨c.outcome, c.outcome, []⟩
      if s.dropped = [] then return ⟨s.outcome, s.outcome, []⟩
      else
        let attached := (attachRecord wireBytes c s).1
        return ⟨attached.outcome, attached.trimmed, attached.dropped⟩
  | _ => .ok ⟨c.outcome, c.outcome, []⟩

/-! ## What trimming is for -/

/-- A result without some of its bulk values. -/
def removed (result : Fields) (values : List (ℕ × List PathPart)) : Fields :=
  values.foldl (fun r d => deleteFromResult d.2 r) result

/-- The outcome without them, with a record of them. -/
def TrimCall.recorded (result : Fields) (values : List (ℕ × List PathPart)) (sentBytes : ℕ) :
    Fields :=
  Json.setField c.outcome "result" (.obj (Json.setField (removed result values) deliveryKey
    (c.record wireBytes (values.map droppedText) sentBytes)))

/-- Its size with no size in the record. -/
def TrimCall.blankBytes (result : Fields) (values : List (ℕ × List PathPart)) : ℕ :=
  wireBytes (.obj (c.recorded wireBytes result values 0))

/-- Its size as it is measured. -/
def TrimCall.measuredBytes (result : Fields) (values : List (ℕ × List PathPart)) : ℕ :=
  wireBytes (.obj (c.recorded wireBytes result values (c.blankBytes wireBytes result values)))

/-- The result of an outcome that has something to drop and does not fit. -/
structure Trimmable (result : Fields) : Prop where
  holds   : Json.lookup c.outcome "result" = some (.obj result)
  tooBig  : ¬ (0 < c.budget ∧ (wireBytes (.obj c.outcome) : Int) ≤ c.budget)
  hasBulk : bulkCandidates wireBytes result ≠ []

/-- None of the first few bulk values was enough before the last of them. -/
def Reached (result : Fields) (k : ℕ) : Prop :=
  0 < c.budget → ∀ j, 0 < j → j < k →
    c.budget < c.measuredBytes wireBytes result ((bulkCandidates wireBytes result).take j)

/-- The first bulk values are dropped, as many as it takes and no more: what is
returned is the outcome with their paths cut out of its result, and the record. -/
structure DropsFirst (result : Fields) (k : ℕ) (r : TrimReturn) : Prop where
  dropsOne : 0 < k
  there    : k ≤ (bulkCandidates wireBytes result).length
  largest  : ∀ d ∈ (bulkCandidates wireBytes result).take k,
    ∀ e ∈ (bulkCandidates wireBytes result).drop k, e.1 ≤ d.1
  enough   : k = (bulkCandidates wireBytes result).length ∨ (0 < c.budget ∧
    c.measuredBytes wireBytes result ((bulkCandidates wireBytes result).take k) ≤ c.budget)
  shortest : Reached wireBytes c result k
  dropped  : r.dropped = ((bulkCandidates wireBytes result).take k).map droppedText
  bulk     : ∀ d ∈ (bulkCandidates wireBytes result).take k,
    BulkAt wireBytes d.1 d.2 (.obj result)
  returned : r.returned = c.recorded wireBytes result ((bulkCandidates wireBytes result).take k)
    (c.measuredBytes wireBytes result ((bulkCandidates wireBytes result).take k))
  cut      : CutOut (((bulkCandidates wireBytes result).take k).map Prod.snd)
    (.obj (Json.eraseField result deliveryKey))
    (deletePath [.key deliveryKey] (Json.getD r.returned "result"))

/-- What a call of `trim_outcome` is to return. -/
structure TrimsRight (r : TrimReturn) : Prop where
  input   : r.outcome = c.outcome
  drops   : ∀ result, Trimmable wireBytes c result → ∃ k, DropsFirst wireBytes c result k r
  nothing : (∀ result, ¬ Trimmable wireBytes c result) → r.returned = c.outcome ∧ r.dropped = []

/-- Two levels or more below the delivery record. -/
def InDelivery (path : List PathPart) : Prop :=
  ∃ part rest, path = .key deliveryKey :: part :: rest ∧ rest ≠ []

/-- A bulk value that must go after the first one lies in an `outcome_delivery`. -/
def MustDropInDelivery : Prop :=
  0 < c.budget ∧ ∃ result j d, Trimmable wireBytes c result ∧ 0 < j ∧
    (bulkCandidates wireBytes result)[j]? = some d ∧ InDelivery d.2 ∧
    Reached wireBytes c result (j + 1)

end Trim

end OutcomeSize

end Conductress
