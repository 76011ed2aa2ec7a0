import Conductress.Lib.Except
import Conductress.Control.Directory

/-!
# Task documents on the runner

What `BaseTaskData.from_dict` makes of a task document: a task, or an
exception whose type decides how its caller reacts. The task classes of a
deployment are data, each with the fields its constructor takes and its own
checks, so everything below holds for every set of them.
-/

namespace Conductress

open Lib

/-- A `datetime`, as far as it is read: its `isoformat()` and the task id
`datetime_to_task_id` derives from it. -/
structure Timestamp where
  isoText : String
  taskId  : String
  deriving DecidableEq

/-- The server layout of a task: a `topology` document, `replicas` hosts, or
the default. -/
inductive Layout where
  | document (topology : Json)
  | replicationHosts (replicas : Int)
  | standalone

/-- A registered task class: the fields its constructor accepts besides
`topology`, those without a default, and the checks of `__post_init__`. -/
structure TaskClassSpec where
  name     : String
  accepted : List String
  required : List String
  postInit : Fields → Layout → Except PyError Unit

/-- What a runner's deployment knows of task documents. -/
structure TaskClasses where
  registry         : Table TaskClassSpec.name
  fromIsoFormat    : String → Option Timestamp
  topologyFromDict : Json → Except PyError Unit

/-- A loaded task. The override is the id of the envelope it came in. -/
structure Task where
  override  : Option String
  timestamp : Timestamp
  deriving DecidableEq

/-- `BaseTaskData.task_id`. -/
def Task.taskId (t : Task) : String := t.override.getD t.timestamp.taskId

/-- `_ENVELOPE_TASK_ID_KEY`: the key under which a queue file keeps the id of
the envelope it was imported from. -/
def envelopeTaskIdKey : String := "__envelope_task_id"

/-- `_validate_envelope_task_id`. -/
def validateEnvelopeTaskId : Json → Except PyError String
  | .str taskId =>
    if taskId = "" then .error (.valueError "envelope task ID must be a non-empty string")
    else if 200 < taskId.length then
      .error (.valueError "envelope task ID exceeds 200 characters")
    else if Pattern.taskIdFull taskId then .ok taskId
    else .error (.valueError "envelope task ID contains unsafe characters")
  | _ => .error (.valueError "envelope task ID must be a non-empty string")

namespace TaskClasses

variable (classes : TaskClasses)

/-- `_upgrade_topology_keys`. Only the two exceptions it names are turned into
a `ValueError`: an infinite `replicas` overflows. -/
def upgradeTopologyKeys (data : Fields) : Except PyError (Fields × Layout) :=
  let replicas := Json.getD data "replicas"
  let data := Json.eraseField data "replicas"
  match Json.lookup data "topology" with
  | some topology => do
    classes.topologyFromDict topology
    return (Json.eraseField data "topology", .document topology)
  | none =>
    match replicas with
    | .null => .ok (data, .standalone)
    | _ =>
      match Json.pyInt replicas with
      | .ok n => .ok (data, .replicationHosts n)
      | .error (.typeError _) | .error (.valueError _) =>
        .error (.valueError "Invalid task data: replicas must be an integer")
      | .error e => .error e

/-- `_drop_unknown_task_fields`. -/
def dropUnknownTaskFields (spec : TaskClassSpec) (data : Fields) : Fields :=
  data.filter fun f => spec.accepted.contains f.1

/-- `task_class(**data)`. -/
def construct (spec : TaskClassSpec) (data : Fields) (layout : Layout) : Except PyError Unit :=
  if spec.required.all fun key => (Json.lookup data key).isSome then spec.postInit data layout
  else .error (.typeError "missing required argument")

/-- The timestamp, popped and parsed. -/
def popTimestamp (data : Fields) : Except PyError Timestamp :=
  match Json.lookup data "timestamp" with
  | some (.str text) =>
    match classes.fromIsoFormat text with
    | some timestamp => .ok timestamp
    | none => .error (.valueError "Invalid task data: Invalid isoformat string")
  | _ => .error (.valueError "Invalid task data")

/-- The class of a task type. A list or an object is no dictionary key. -/
def findClass : Option Json → Except PyError TaskClassSpec
  | none => .error (.valueError "Invalid task data")
  | some (.str name) =>
    match classes.registry.find? name with
    | some spec => .ok spec
    | none => .error (.valueError ("Unknown task type: " ++ name))
  | some (.arr _) | some (.obj _) => .error (.typeError "unhashable type")
  | some _ => .error (.valueError "Unknown task type")

/-- The id an envelope or a queue file supplies, null when there is none. -/
def overrideId : Json → Except PyError (Option String)
  | .null => .ok none
  | value => (validateEnvelopeTaskId value).map some

/-- `BaseTaskData.from_dict`. The key of the sidecar is dropped from the
document whatever it holds. -/
def fromDict (document : Json) (envelopeTaskId : Json) : Except PyError Task :=
  match document with
  | .obj fields => do
    let data := Json.eraseField fields envelopeTaskIdKey
    let timestamp ← classes.popTimestamp data
    let spec ← classes.findClass (Json.lookup data "task_type")
    let data := Json.eraseField (Json.eraseField data "timestamp") "task_type"
    let (data, layout) ← classes.upgradeTopologyKeys data
    construct spec (dropUnknownTaskFields spec data) layout
    let override ← overrideId envelopeTaskId
    return ⟨override, timestamp⟩
  | _ => .error (.valueError "Invalid task data: expected object")

/-- `BaseTaskData.from_file` on the content of a file, `none` when the text is
no JSON. Here the sidecar is trusted. -/
def fromFile : Option Json → Except PyError Task
  | none => .error (.valueError "Invalid JSON in file")
  | some (.obj fields) => classes.fromDict (.obj fields) (Json.getD fields envelopeTaskIdKey)
  | some _ => .error (.valueError "Invalid task data in file")

end TaskClasses

namespace TaskClasses

variable {classes : TaskClasses} {fields : Fields} {task : Task}

theorem validateEnvelopeTaskId_ok {value : Json} {taskId : String} :
    validateEnvelopeTaskId value = .ok taskId →
      value = .str taskId ∧ Pattern.taskIdFull taskId = true := by
  intro h
  unfold validateEnvelopeTaskId at h
  split at h
  · split at h
    · cases h
    · split at h
      · cases h
      · split at h
        · next hfull =>
          cases h
          exact ⟨rfl, hfull⟩
        · cases h
  · cases h

/-- A task loaded under an id carries that id, and the id is a safe one. -/
theorem fromDict_override {taskId : String}
    (h : classes.fromDict (.obj fields) (.str taskId) = .ok task) :
    task.override = some taskId ∧ Pattern.taskIdFull taskId = true := by
  unfold fromDict at h
  obtain ⟨timestamp, -, h⟩ := except_bind_ok.mp h
  obtain ⟨spec, -, h⟩ := except_bind_ok.mp h
  obtain ⟨⟨data, layout⟩, -, h⟩ := except_bind_ok.mp h
  obtain ⟨_, -, h⟩ := except_bind_ok.mp h
  obtain ⟨override, hover, h⟩ := except_bind_ok.mp h
  obtain ⟨value, hvalue, rfl⟩ := except_map_ok.mp hover
  obtain ⟨heq, hfull⟩ := validateEnvelopeTaskId_ok hvalue
  have htask : (⟨some value, timestamp⟩ : Task) = task := by simpa using h
  cases heq
  exact ⟨by rw [← htask], hfull⟩

/-- A task loaded without an id carries none. -/
theorem fromDict_null {document : Json} (h : classes.fromDict document .null = .ok task) :
    task.override = none := by
  unfold fromDict at h
  split at h
  · obtain ⟨timestamp, -, h⟩ := except_bind_ok.mp h
    obtain ⟨spec, -, h⟩ := except_bind_ok.mp h
    obtain ⟨⟨data, layout⟩, -, h⟩ := except_bind_ok.mp h
    obtain ⟨_, -, h⟩ := except_bind_ok.mp h
    have htask : (⟨none, timestamp⟩ : Task) = task := by
      simpa [overrideId, bind, Except.bind] using h
    rw [← htask]
  · cases h

end TaskClasses

end Conductress
