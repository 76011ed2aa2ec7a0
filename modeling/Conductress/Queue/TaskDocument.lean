import Mathlib.Logic.Function.Basic
import Conductress.Queue.TaskClasses
import Conductress.Runner.Mailbox

/-!
# Tasks as documents

A task is written by two encoders, `serialize_task` for an envelope and
`save_to_file` for the queue directory, and read by two loaders, `from_dict` and
`from_file`. `Loadable` is what both need of a task: its class is registered, its
fields are those of the class in order, and a second `__post_init__` leaves them
as they are. Every constructible task is loadable (`Constructible.loadable`), and
both loaders give a loadable task back from what either encoder wrote
(`Loadable.fromDict_document`).

A file is here the document it holds.
-/

namespace Conductress

open Lib

/-! ## The `datetime` class -/

/-- The class `datetime`: `fromisoformat` reads what `isoformat` wrote. -/
structure DatetimeClass (δ : Type) where
  isoformat       : δ → String
  /-- `datetime_to_task_id`. -/
  toTaskId        : δ → String
  fromisoformat   : String → Option δ
  fromisoformat_isoformat : ∀ d, fromisoformat (isoformat d) = some d

/-- An instance of a task class. `topology` is a field of its own. -/
structure TaskData (δ : Type) where
  cls       : TaskType
  fields    : Fields
  topology  : TopologySpec
  timestamp : δ
  /-- `_override_task_id`. -/
  override  : Option String

namespace TaskType

/-- The parameters of the constructor, `topology` apart. -/
def params (cls : TaskType) : List FieldDecl := baseNames.map (⟨·, none⟩) ++ cls.decls

/-- The arguments of a call by keyword bound to the parameters. -/
def bindArguments (cls : TaskType) (arguments : Fields) : Except PyError Fields :=
  if ¬ arguments.all fun a => cls.fieldNames.contains a.1 then
    .error (.typeError "got an unexpected keyword argument")
  else if ¬ cls.params.all fun p => (Json.lookup arguments p.name).isSome || p.default.isSome then
    .error (.typeError "missing required positional argument")
  else .ok (cls.params.map fun p => (p.name, ((Json.lookup arguments p.name).or p.default).getD .null))

theorem params_names (cls : TaskType) : cls.params.map FieldDecl.name = cls.fieldNames := by
  have hbase : (baseNames.map (⟨·, none⟩)).map FieldDecl.name = baseNames := rfl
  rw [params, List.map_append, hbase, fieldNames]

end TaskType

namespace TaskData

variable {δ : Type} (datetime : DatetimeClass δ) (config : TaskConfig)

/-- `task_id`. -/
def taskId (t : TaskData δ) : String := t.override.getD (datetime.toTaskId t.timestamp)

/-- `task_class(**arguments)`. -/
def construct (cls : TaskType) (arguments : Fields) (topology : TopologySpec) (timestamp : δ) :
    Except PyError (TaskData δ) := do
  let fields ← cls.bindArguments arguments
  let fields ← InitStep.run topology cls.postInit fields
  pure ⟨cls, fields, topology, timestamp, none⟩

/-- What the program can make of the registered classes: instances, some with
their `sweep_commit` assigned after they were built. -/
inductive Constructible : TaskData δ → Prop
  | built {cls : TaskType} {arguments : Fields} {topology : TopologySpec} {now : δ} {t : TaskData δ} :
      cls ∈ config.registered → construct cls arguments topology now = .ok t → Constructible t
  | assigned {t : TaskData δ} (commit : Json) : Constructible t →
      "sweep_commit" ∈ t.cls.fieldNames →
      Constructible { t with fields := Json.setField t.fields "sweep_commit" commit }

/-! ## Encoders -/

/-- `serialize_task`: `asdict` with the text of the timestamp. -/
def serializeTask (t : TaskData δ) : Fields :=
  t.fields.take 2 ++ ("topology", t.topology.toDict) :: (t.fields.drop 2).take 3 ++
    ("task_type", .str t.cls.name) :: ("timestamp", .str (datetime.isoformat t.timestamp)) ::
      t.fields.drop 5

/-- A document with the id of its envelope, if there is one, in its sidecar. -/
def withSidecar (document : Fields) : Option String → Fields
  | some taskId => Json.setField document envelopeTaskIdKey (.str taskId)
  | none => document

/-- The document `save_to_file` dumps. -/
def fileDocument (t : TaskData δ) : Fields := withSidecar (t.serializeTask datetime) t.override

/-! ## Loaders -/

/-- `datetime.fromisoformat(data.pop("timestamp"))`, its exceptions renamed. -/
def popTimestamp (data : Fields) : Except PyError δ :=
  match Json.lookup data "timestamp" with
  | some (.str text) =>
    match datetime.fromisoformat text with
    | some timestamp => .ok timestamp
    | none => .error (.valueError "Invalid task data: Invalid isoformat string")
  | _ => .error (.valueError "Invalid task data")

/-- The class of a task type. A list or an object is no dictionary key. -/
def findClass : Option Json → Except PyError TaskType
  | none => .error (.valueError "Invalid task data")
  | some (.str name) =>
    match config.registered.find? fun cls => decide (cls.name = name) with
    | some cls => .ok cls
    | none => .error (.valueError ("Unknown task type: " ++ name))
  | some (.arr _) | some (.obj _) => .error (.typeError "unhashable type")
  | some _ => .error (.valueError "Unknown task type")

/-- `_upgrade_topology_keys`. Only the two exceptions it names are turned into a
`ValueError`: an infinite `replicas` overflows. -/
def upgradeTopologyKeys (data : Fields) : Except PyError (Fields × TopologySpec) :=
  let replicas := Json.getD data "replicas"
  let data := Json.eraseField data "replicas"
  match Json.lookup data "topology" with
  | some topology => do
    let topology ← TopologySpec.fromDict topology
    pure (Json.eraseField data "topology", topology)
  | none =>
    match replicas with
    | .null => (TopologySpec.replicationHosts 0).map fun topology => (data, topology)
    | _ =>
      match Json.pyInt replicas >>= TopologySpec.replicationHosts with
      | .ok topology => .ok (data, topology)
      | .error (.typeError _) | .error (.valueError _) =>
        .error (.valueError "Invalid task data: replicas must be an integer")
      | .error e => .error e

/-- `_drop_unknown_task_fields`. -/
def dropUnknownTaskFields (cls : TaskType) (data : Fields) : Fields :=
  data.filter fun f => cls.fieldNames.contains f.1

/-- `BaseTaskData.from_dict`. -/
def fromDict (document envelopeTaskId : Json) : Except PyError (TaskData δ) :=
  match document with
  | .obj fields => do
    let data := Json.eraseField fields envelopeTaskIdKey
    let timestamp ← popTimestamp datetime data
    let cls ← findClass config (Json.lookup data "task_type")
    let data := Json.eraseField (Json.eraseField data "timestamp") "task_type"
    let (data, topology) ← upgradeTopologyKeys data
    let task ← construct cls (dropUnknownTaskFields cls data) topology timestamp
    let override ← TaskClasses.overrideId envelopeTaskId
    pure { task with override }
  | _ => .error (.valueError "Invalid task data: expected object")

/-- A queue directory: the documents of its files. -/
abbrev QueueDir := String → Option Json

/-- The name of the file of a task. -/
def taskFile (taskId : String) : String := "task_" ++ taskId ++ ".json"

/-- `BaseTaskData.from_file`. -/
def fromFile (dir : QueueDir) (file : String) : Except PyError (TaskData δ) :=
  match dir file with
  | none => .error (.osError "Task file not found")
  | some (.obj fields) => fromDict datetime config (.obj fields) (Json.getD fields envelopeTaskIdKey)
  | some _ => .error (.valueError "Invalid task data in file")

/-- `save_to_file`. -/
def saveToFile (dir : QueueDir) (t : TaskData δ) (file : String) : QueueDir :=
  Function.update dir file (some (.obj (t.fileDocument datetime)))

/-- The id an envelope supplies, null for none. -/
def idArgument : Option String → Json
  | some taskId => .str taskId
  | none => .null

/-- The document `import_task` writes. -/
def persisted (document : Fields) (envelopeTaskId : Option String) (t : TaskData δ) : Fields :=
  withSidecar document (envelopeTaskId.map fun _ => t.taskId datetime)

/-- `TaskQueue.import_task`. -/
def importTask (dir : QueueDir) (document : Fields) (envelopeTaskId : Option String) :
    Except PyError (TaskData δ × QueueDir) :=
  if (Json.lookup document envelopeTaskIdKey).isSome then
    .error (.valueError ("reserved task field is not allowed: " ++ envelopeTaskIdKey))
  else do
    let task ← fromDict datetime config (.obj document) (idArgument envelopeTaskId)
    let content := task.persisted datetime document envelopeTaskId
    let file := taskFile (task.taskId datetime)
    match dir file with
    | some existing =>
      if TaskQueue.sameDocument (some existing) content then .ok (task, dir)
      else .error (.valueError
        ("task file already exists with different content: " ++ task.taskId datetime))
    | none => .ok (task, Function.update dir file (some (.obj content)))

/-! ## What both loaders need -/

/-- A task that both encoders write and both loaders read. -/
structure Loadable (t : TaskData δ) : Prop where
  registered : t.cls ∈ config.registered
  keys       : Json.keys t.fields = t.cls.fieldNames
  again      : InitStep.run t.topology t.cls.postInit t.fields = .ok t.fields

variable {datetime config} {t : TaskData δ}

/-- The arguments a task was built from are its own fields when all are given. -/
theorem bindArguments_self {cls : TaskType} (hcls : TaskConfig.WellFormed cls) {fields : Fields}
    (hkeys : Json.keys fields = cls.fieldNames) : cls.bindArguments fields = .ok fields := by
  have hnodup : (Json.keys fields).Nodup := by
    rw [hkeys]
    exact hcls.distinct
  have hknown : (fields.all fun a => cls.fieldNames.contains a.1) = true := by
    rw [List.all_eq_true]
    intro a ha
    rw [List.contains_iff_mem, ← hkeys]
    exact List.mem_map_of_mem ha
  have hgiven : ∀ p ∈ cls.params, (Json.lookup fields p.name).isSome := by
    intro p hp
    rw [Json.lookup_isSome_iff, hkeys, ← cls.params_names]
    exact List.mem_map_of_mem hp
  have hparams : (cls.params.all fun p =>
      (Json.lookup fields p.name).isSome || p.default.isSome) = true := by
    rw [List.all_eq_true]
    intro p hp
    rw [hgiven p hp, Bool.true_or]
  rw [TaskType.bindArguments, if_neg (not_not.mpr hknown), if_neg (not_not.mpr hparams)]
  congr 1
  calc cls.params.map (fun p => (p.name, ((Json.lookup fields p.name).or p.default).getD .null))
      = (cls.params.map FieldDecl.name).map fun name => (name, Json.getD fields name) := by
        rw [List.map_map]
        apply List.map_congr_left
        intro p hp
        obtain ⟨value, hvalue⟩ := Option.isSome_iff_exists.mp (hgiven p hp)
        simp [Json.getD, hvalue]
    _ = (Json.keys fields).map fun name => (name, Json.getD fields name) := by
        rw [cls.params_names, hkeys]
    _ = fields := Json.map_keys_getD hnodup

theorem bindArguments_keys {cls : TaskType} {arguments fields : Fields}
    (h : cls.bindArguments arguments = .ok fields) : Json.keys fields = cls.fieldNames := by
  unfold TaskType.bindArguments at h
  split at h
  · cases h
  · split at h
    · cases h
    · cases h
      rw [Json.keys, List.map_map]
      exact cls.params_names

/-- A loadable task is built again from its own fields. -/
theorem Loadable.construct_fields (h : Loadable config t) :
    construct t.cls t.fields t.topology t.timestamp = .ok { t with override := none } := by
  have hcls := config.registered_wellFormed h.registered
  exact except_bind_ok.mpr ⟨_, bindArguments_self hcls h.keys,
    except_bind_ok.mpr ⟨_, h.again, rfl⟩⟩

/-- **Every constructible task is loadable.** -/
theorem Constructible.loadable (h : Constructible config t) :
    Loadable config t ∧ t.override = none := by
  induction h with
  | @built cls arguments topology now t hcls hbuilt =>
    obtain ⟨bound, hbound, hrest⟩ := except_bind_ok.mp hbuilt
    obtain ⟨fields, hrun, ht⟩ := except_bind_ok.mp hrest
    have hwell := config.registered_wellFormed hcls
    have hkeys := bindArguments_keys hbound
    have hwrites : ∀ x ∈ cls.postInit.flatMap InitStep.writes, x ∈ Json.keys bound := by
      intro x hx
      rw [hkeys]
      exact hwell.written x hx
    have hnodup : (Json.keys bound).Nodup := by
      rw [hkeys]
      exact hwell.distinct
    cases ht
    exact ⟨⟨hcls, (InitStep.run_frame hrun hwrites).1.trans hkeys,
      InitStep.run_run hwell.stable hwell.settled hwrites hnodup hrun⟩, rfl⟩
  | assigned commit _ hfield ih =>
    obtain ⟨⟨hcls, hkeys, hagain⟩, hoverride⟩ := ih
    have hwell := config.registered_wellFormed hcls
    have hmem := hfield
    rw [← hkeys] at hmem
    refine ⟨⟨hcls, (Json.keys_setField hmem commit).trans hkeys, ?_⟩, hoverride⟩
    -- no step of a class reads its marker
    refine InitStep.run_setField commit hwell.marker hmem (fun y hy => ?_) hagain
    rw [hkeys]
    exact hwell.written y hy

/-! ## Reading what was written -/

/-- The fields of a loadable task, around the keys the encoder puts among them. -/
theorem Loadable.reserved (h : Loadable config t) {x : String}
    (hx : x ∈ ["topology", "task_type", "timestamp", "replicas", envelopeTaskIdKey]) :
    x ∉ Json.keys t.fields := by
  rw [h.keys]
  exact (config.registered_wellFormed h.registered).reserved x hx

theorem not_mem_keys_of_subset {fields part : Fields} {x : String} (hpart : part ⊆ fields)
    (hx : x ∉ Json.keys fields) : x ∉ Json.keys part :=
  fun hmem => hx (List.map_subset Prod.fst hpart hmem)

/-- The encoder adds three keys, and popping them leaves the fields. -/
theorem Loadable.eraseField_serializeTask (h : Loadable config t) :
    Json.eraseField (Json.eraseField (Json.eraseField (t.serializeTask datetime) "timestamp")
      "task_type") "topology" = t.fields := by
  have hout : ∀ x ∈ ["topology", "task_type", "timestamp", "replicas", envelopeTaskIdKey],
      ∀ part : Fields, part ⊆ t.fields → Json.eraseField part x = part := by
    intro x hx part hpart
    exact Json.eraseField_of_not_mem (not_mem_keys_of_subset hpart (h.reserved hx))
  have hfirst : t.fields.take 2 ⊆ t.fields := List.take_subset 2 _
  have hmiddle : (t.fields.drop 2).take 3 ⊆ t.fields :=
    List.Subset.trans (List.take_subset 3 _) (List.drop_subset 2 _)
  have hlast : t.fields.drop 5 ⊆ t.fields := List.drop_subset 5 _
  have hjoin : t.fields.take 2 ++ ((t.fields.drop 2).take 3 ++ t.fields.drop 5) = t.fields := by
    have hdrop : t.fields.drop 5 = (t.fields.drop 2).drop 3 := by rw [List.drop_drop]
    rw [hdrop, List.take_append_drop, List.take_append_drop]
  simp [serializeTask, Json.eraseField_append, Json.eraseField_cons, hout, hfirst, hmiddle,
    hlast, hjoin]

/-- What the encoder writes under a key that is no field's. -/
theorem Loadable.lookup_serializeTask (h : Loadable config t) {x : String}
    (hx : x ∈ ["topology", "task_type", "timestamp", "replicas", envelopeTaskIdKey]) :
    Json.lookup (t.serializeTask datetime) x =
      Json.lookup [("topology", t.topology.toDict), ("task_type", .str t.cls.name),
        ("timestamp", .str (datetime.isoformat t.timestamp))] x := by
  have hnone : ∀ part : Fields, part ⊆ t.fields → Json.lookup part x = none := by
    intro part hpart
    exact Json.lookup_eq_none_iff.mpr (not_mem_keys_of_subset hpart (h.reserved hx))
  have hfirst := hnone (t.fields.take 2) (List.take_subset 2 _)
  have hmiddle := hnone ((t.fields.drop 2).take 3)
    (List.Subset.trans (List.take_subset 3 _) (List.drop_subset 2 _))
  have hlast := hnone (t.fields.drop 5) (List.drop_subset 5 _)
  have hnil : Json.lookup [] x = none := rfl
  simp only [serializeTask, List.append_assoc, List.cons_append, Json.lookup_append,
    Json.lookup_cons, hfirst, hmiddle, hlast, hnil, Option.none_or]

/-- Under any other key it writes the field. -/
theorem lookup_serializeTask_of_ne {x : String}
    (hx : x ∉ ["topology", "task_type", "timestamp"]) :
    Json.lookup (t.serializeTask datetime) x = Json.lookup t.fields x := by
  have hjoin : t.fields.take 2 ++ ((t.fields.drop 2).take 3 ++ t.fields.drop 5) = t.fields := by
    have hdrop : t.fields.drop 5 = (t.fields.drop 2).drop 3 := by rw [List.drop_drop]
    rw [hdrop, List.take_append_drop, List.take_append_drop]
  simp only [List.mem_cons, List.not_mem_nil, or_false, not_or] at hx
  conv_rhs => rw [← hjoin]
  simp only [serializeTask, List.append_assoc, List.cons_append, Json.lookup_append,
    Json.lookup_cons, if_neg (Ne.symm hx.1), if_neg (Ne.symm hx.2.1), if_neg (Ne.symm hx.2.2)]

/-- An argument is bound to its parameter. -/
theorem lookup_bindArguments {cls : TaskType} {arguments fields : Fields}
    (h : cls.bindArguments arguments = .ok fields) {x : String} {value : Json}
    (hx : Json.lookup arguments x = some value) : Json.lookup fields x = some value := by
  have hkeys := bindArguments_keys h
  unfold TaskType.bindArguments at h
  split at h
  · cases h
  · next hknown =>
    split at h
    · cases h
    · cases h
      have hmem : x ∈ Json.keys (cls.params.map fun p => (p.name,
          ((Json.lookup arguments p.name).or p.default).getD .null)) := by
        rw [hkeys]
        obtain ⟨a, ha, hax⟩ := List.mem_map.mp (Json.lookup_isSome_iff.mp (by rw [hx]; rfl))
        have hname := List.all_eq_true.mp (not_not.mp hknown) a ha
        rw [List.contains_iff_mem, hax] at hname
        exact hname
      obtain ⟨found, hfound⟩ := Option.isSome_iff_exists.mp (Json.lookup_isSome_iff.mpr hmem)
      rw [hfound]
      obtain ⟨entry, hentry, rfl⟩ := Option.map_eq_some_iff.mp hfound
      obtain ⟨p, -, rfl⟩ := List.mem_map.mp (List.mem_of_find?_eq_some hentry)
      have hpx : p.name = x := by simpa using List.find?_some hentry
      dsimp only
      rw [hpx, hx]
      rfl

/-- What a task was built with is what its file says, under a key that its class
leaves alone. -/
theorem lookup_fileDocument {cls : TaskType} {arguments : Fields} {topology : TopologySpec} {now : δ}
    (hcls : cls ∈ config.registered)
    (h : construct cls arguments topology now = .ok t) (commit : Json) {x : String} {value : Json}
    (hx : Json.lookup arguments x = some value) (hkept : x ∉ cls.postInit.flatMap InitStep.writes)
    (hne : x ∉ ["topology", "task_type", "timestamp", "sweep_commit"]) :
    Json.lookup (fileDocument datetime
      { t with fields := Json.setField t.fields "sweep_commit" commit }) x = some value := by
  obtain ⟨bound, hbound, hrest⟩ := except_bind_ok.mp h
  obtain ⟨fields, hrun, ht⟩ := except_bind_ok.mp hrest
  have hwrites : ∀ y ∈ cls.postInit.flatMap InitStep.writes, y ∈ Json.keys bound := by
    intro y hy
    rw [bindArguments_keys hbound]
    exact (config.registered_wellFormed hcls).written y hy
  cases ht
  simp only [List.mem_cons, List.not_mem_nil, or_false, not_or] at hne
  rw [fileDocument, withSidecar, lookup_serializeTask_of_ne (by simp [hne]),
    Json.lookup_setField_of_ne hne.2.2.2, (InitStep.run_frame hrun hwrites).2 x hkept]
  exact lookup_bindArguments hbound hx

theorem findClass_registered (h : t.cls ∈ config.registered) :
    findClass config (some (.str t.cls.name)) = .ok t.cls := by
  have hfind : config.registered.find? (fun cls => decide (cls.name = t.cls.name)) = some t.cls := by
    have hsome : (config.registered.find? fun cls => decide (cls.name = t.cls.name)).isSome := by
      rw [List.find?_isSome]
      exact ⟨t.cls, h, decide_eq_true rfl⟩
    obtain ⟨cls, hcls⟩ := Option.isSome_iff_exists.mp hsome
    have hname : cls.name = t.cls.name := by simpa using List.find?_some hcls
    rw [hcls, List.inj_on_of_nodup_map config.registered_names (List.mem_of_find?_eq_some hcls) h
      hname]
  rw [findClass, hfind]

/-- The topology an encoder wrote is the one the upgrade reads. -/
theorem Loadable.upgradeTopologyKeys_written (h : Loadable config t) :
    upgradeTopologyKeys (Json.eraseField (Json.eraseField (t.serializeTask datetime) "timestamp")
      "task_type") = .ok (t.fields, t.topology) := by
  have hnone : Json.lookup (t.serializeTask datetime) "replicas" = none :=
    h.lookup_serializeTask (by simp)
  have hreplicas : "replicas" ∉ Json.keys (Json.eraseField
      (Json.eraseField (t.serializeTask datetime) "timestamp") "task_type") := by
    rw [← Json.lookup_eq_none_iff, Json.lookup_eraseField_of_ne (by decide),
      Json.lookup_eraseField_of_ne (by decide), hnone]
  have htopology : Json.lookup (Json.eraseField (Json.eraseField (t.serializeTask datetime)
      "timestamp") "task_type") "topology" = some t.topology.toDict := by
    rw [Json.lookup_eraseField_of_ne (by decide), Json.lookup_eraseField_of_ne (by decide)]
    exact h.lookup_serializeTask (by simp)
  simp only [upgradeTopologyKeys, Json.eraseField_of_not_mem hreplicas, htopology]
  exact except_bind_ok.mpr ⟨_, t.topology.fromDict_toDict,
    congrArg (fun fields => Except.ok (fields, t.topology)) h.eraseField_serializeTask⟩

theorem Loadable.dropUnknownTaskFields_fields (h : Loadable config t) :
    dropUnknownTaskFields t.cls t.fields = t.fields := by
  rw [dropUnknownTaskFields, List.filter_eq_self]
  intro f hf
  rw [List.contains_iff_mem, ← h.keys]
  exact List.mem_map_of_mem hf

/-- **A document that holds what an encoder wrote loads as the task**, whatever
it keeps in its sidecar, under the id the caller supplies. -/
theorem Loadable.fromDict_document (h : Loadable config t) {document : Fields}
    (hdocument : Json.eraseField document envelopeTaskIdKey = t.serializeTask datetime)
    {envelopeTaskId : Json} {override : Option String}
    (hid : TaskClasses.overrideId envelopeTaskId = .ok override) :
    fromDict datetime config (.obj document) envelopeTaskId = .ok { t with override } := by
  have htimestamp : popTimestamp datetime (t.serializeTask datetime) = .ok t.timestamp := by
    have hlookup : Json.lookup (t.serializeTask datetime) "timestamp" =
        some (.str (datetime.isoformat t.timestamp)) := h.lookup_serializeTask (by simp)
    rw [popTimestamp, hlookup]
    simp only [datetime.fromisoformat_isoformat]
  have hclass : Json.lookup (t.serializeTask datetime) "task_type" = some (.str t.cls.name) :=
    h.lookup_serializeTask (by simp)
  have hbuilt : construct t.cls (dropUnknownTaskFields t.cls t.fields) t.topology t.timestamp =
      .ok { t with override := none } := by
    rw [h.dropUnknownTaskFields_fields]
    exact h.construct_fields
  rw [fromDict, hdocument, htimestamp, hclass]
  exact except_bind_ok.mpr ⟨_, rfl, except_bind_ok.mpr ⟨_, findClass_registered h.registered,
    except_bind_ok.mpr ⟨_, h.upgradeTopologyKeys_written, except_bind_ok.mpr ⟨_, hbuilt,
      except_bind_ok.mpr ⟨_, hid, rfl⟩⟩⟩⟩⟩

/-! ## Every way around -/

theorem Loadable.sidecar (h : Loadable config t) :
    envelopeTaskIdKey ∉ Json.keys (t.serializeTask datetime) := by
  rw [← Json.lookup_eq_none_iff]
  exact h.lookup_serializeTask (by simp)

/-- A queue file holds what the encoder wrote and the id of the envelope. -/
theorem Loadable.fromFile_document (h : Loadable config t) {override : Option String}
    (hid : TaskClasses.overrideId (idArgument override) = .ok override) {dir : QueueDir}
    {file : String}
    (hfile : dir file = some (.obj (withSidecar (t.serializeTask datetime) override))) :
    fromFile datetime config dir file = .ok { t with override } := by
  rw [fromFile, hfile]
  rcases override with _ | taskId
  · have hget : Json.getD (t.serializeTask datetime) envelopeTaskIdKey = .null := by
      rw [Json.getD, Json.lookup_eq_none_iff.mpr h.sidecar]
      rfl
    simp only [withSidecar, hget]
    exact h.fromDict_document (Json.eraseField_of_not_mem h.sidecar) hid
  · simp only [withSidecar, Json.getD, Json.lookup_setField, Option.getD_some]
    exact h.fromDict_document (Json.eraseField_setField h.sidecar _) hid

/-- **A task survives every way through a document**: the envelope, the import
into the queue followed by a restart, and the file it saves itself to. The file
of the import is a new one or the one an earlier import of it left. -/
theorem document_roundTrip (ht : Constructible config t) {envelopeTaskId : Option String}
    (hid : ∀ taskId ∈ envelopeTaskId, validateEnvelopeTaskId (.str taskId) = .ok taskId)
    {loaded : TaskData δ} (hloaded : loaded = { t with override := envelopeTaskId })
    {dir : QueueDir}
    (hdir : dir (taskFile (loaded.taskId datetime)) = none ∨
      dir (taskFile (loaded.taskId datetime)) =
        some (.obj (loaded.persisted datetime (t.serializeTask datetime) envelopeTaskId))) :
    loaded.taskId datetime = envelopeTaskId.getD (t.taskId datetime) ∧
    fromDict datetime config (.obj (t.serializeTask datetime)) (idArgument envelopeTaskId) =
      .ok loaded ∧
    (∃ dir', importTask datetime config dir (t.serializeTask datetime) envelopeTaskId =
        .ok (loaded, dir') ∧
      fromFile datetime config dir' (taskFile (loaded.taskId datetime)) = .ok loaded) ∧
    ∀ file, fromFile datetime config (loaded.saveToFile datetime dir file) file = .ok loaded := by
  obtain ⟨h, hnone⟩ := ht.loadable
  have hvalid : TaskClasses.overrideId (idArgument envelopeTaskId) = .ok envelopeTaskId := by
    rcases envelopeTaskId with _ | taskId
    · rfl
    · exact except_map_ok.mpr ⟨taskId, hid taskId rfl, rfl⟩
  have hfromDict : fromDict datetime config (.obj (t.serializeTask datetime))
      (idArgument envelopeTaskId) = .ok loaded := by
    rw [hloaded]
    exact h.fromDict_document (Json.eraseField_of_not_mem h.sidecar) hvalid
  -- the id the import files the task under is the one it is given
  have hpersisted : loaded.persisted datetime (t.serializeTask datetime) envelopeTaskId =
      withSidecar (t.serializeTask datetime) envelopeTaskId := by
    rw [hloaded]
    rcases envelopeTaskId with _ | taskId <;> rfl
  have hread : ∀ dir' : QueueDir, ∀ file,
      dir' file = some (.obj (withSidecar (t.serializeTask datetime) envelopeTaskId)) →
      fromFile datetime config dir' file = .ok loaded := by
    intro dir' file hfile
    rw [hloaded]
    exact h.fromFile_document hvalid hfile
  have hfree : ¬ (Json.lookup (t.serializeTask datetime) envelopeTaskIdKey).isSome = true := by
    rw [Json.lookup_eq_none_iff.mpr h.sidecar]
    exact Bool.false_ne_true
  refine ⟨?_, hfromDict, ?_, fun file => ?_⟩
  · rw [hloaded, taskId, taskId, hnone]
    rfl
  · rw [hpersisted] at hdir
    rw [importTask, if_neg hfree, hfromDict]
    simp only [bind, Except.bind, hpersisted]
    rcases hdir with hdir | hdir
    · rw [hdir]
      exact ⟨_, rfl, hread _ _ (Function.update_self ..)⟩
    · have hsame : TaskQueue.sameDocument
          (some (.obj (withSidecar (t.serializeTask datetime) envelopeTaskId)))
          (withSidecar (t.serializeTask datetime) envelopeTaskId) = true := decide_eq_true rfl
      rw [hdir]
      simp only [hsame, if_true]
      exact ⟨dir, rfl, hread _ _ hdir⟩
  · refine hread _ _ ?_
    rw [saveToFile, Function.update_self, hloaded]
    rfl

/-! ### One task -/

theorem toLower_toLower (c : Char) : c.toLower.toLower = c.toLower := by
  have hkeep : ∀ d : Char, ¬ (d.val ≥ 'A'.val ∧ d.val ≤ 'Z'.val) → d.toLower = d :=
    fun d hd => dif_neg hd
  by_cases h : c.val ≥ 'A'.val ∧ c.val ≤ 'Z'.val
  · have hval : c.toLower.val = c.val + ('a'.val - 'A'.val) := congrArg Char.val (dif_pos h)
    apply hkeep
    have h32 : ('a'.val - 'A'.val).toNat = 32 := by decide
    have h65 : 'A'.val.toNat = 65 := by decide
    have h90 : 'Z'.val.toNat = 90 := by decide
    rw [hval]
    simp only [ge_iff_le, UInt32.le_iff_toNat_le] at h
    simp only [ge_iff_le, UInt32.le_iff_toNat_le, UInt32.toNat_add, h32]
    omega
  · rw [hkeep c h, hkeep c h]

theorem isAlphanum_visible (c : Char) (h : c.isAlphanum = true) : PyText.isSpace c = false := by
  have hval : c.val.toNat = c.toNat := rfl
  have hdef : c.isAlphanum = ((decide (c.val ≥ 'A'.val ∧ c.val ≤ 'Z'.val) ||
      (decide (c.val ≥ 'a'.val) && decide (c.val ≤ 'z'.val))) ||
      (decide (c.val ≥ '0'.val) && decide (c.val ≤ '9'.val))) := rfl
  have hrange : (48 ≤ c.toNat ∧ c.toNat ≤ 57) ∨ (65 ≤ c.toNat ∧ c.toNat ≤ 90) ∨
      (97 ≤ c.toNat ∧ c.toNat ≤ 122) := by
    rw [hdef] at h
    simp [UInt32.le_iff_toNat_le] at h
    omega
  simp only [PyText.isSpace, decide_eq_false_iff_not, List.mem_cons, List.not_mem_nil, or_false]
  omega

/-- `str.lower` and `str.isalnum` on ASCII text. -/
def asciiText : UnicodeText where
  lower := List.map Char.toLower
  isAlnum := Char.isAlphanum
  lower_nil := rfl
  lower_lower s := by
    rw [List.map_map]
    apply List.map_congr_left
    intro c _
    exact toLower_toLower c
  alnum_visible := isAlphanum_visible
  comma := by decide

/-- The clock at midnight of one day. -/
def oneDay : DatetimeClass Unit where
  isoformat _ := "2026-03-01T00:00:00"
  toTaskId _ := "2026.03.01_00.00.00.000000"
  fromisoformat text := if text = "2026-03-01T00:00:00" then some () else none
  fromisoformat_isoformat _ := if_pos rfl

def oneRepo : TaskConfig where
  repoNames := ["valkey"]
  cachecannonBinary := "cachecannon"
  unicode := asciiText
  parseStormSpec _ := .ok ()

def standalone : TopologySpec where
  instances := [TopologySpec.legacyInstance "primary" 0]
  valid := rfl

/-- Keywords of a measurement whose sections are not in their final form. -/
def oneCall : Fields :=
  [("source", .str "valkey"), ("specifier", .str "unstable"), ("note", .str ""),
    ("requirements", .obj []), ("make_args", .str ""), ("warmup", .str " 5 "),
    ("info_sections", .str "Memory, stats,memory")]

theorem document_roundTrip_oneCall : ∃ t loaded : TaskData Unit, ∃ dir : QueueDir,
    construct oneRepo.cachecannonTaskData oneCall standalone () = .ok t ∧
      importTask oneDay oneRepo (fun _ => none) (t.serializeTask oneDay) (some "canary:r1") =
        .ok (loaded, dir) ∧
      loaded.taskId oneDay = "canary:r1" ∧
      fromFile oneDay oneRepo dir (taskFile "canary:r1") = .ok loaded := by
  have hbuilt : (construct oneRepo.cachecannonTaskData oneCall standalone ()).toOption.isSome =
      true := by decide +kernel
  rcases h : construct oneRepo.cachecannonTaskData oneCall standalone () with e | t
  · rw [h] at hbuilt
    cases hbuilt
  · have hcls : oneRepo.cachecannonTaskData ∈ oneRepo.registered := List.mem_cons_self
    have hid : validateEnvelopeTaskId (.str "canary:r1") = .ok "canary:r1" := by decide +kernel
    have hvalid : ∀ taskId ∈ some "canary:r1",
        validateEnvelopeTaskId (.str taskId) = .ok taskId := by
      rintro taskId ⟨⟩
      exact hid
    obtain ⟨htaskId, -, ⟨dir, himport, hfile⟩, -⟩ :=
      @document_roundTrip Unit oneDay oneRepo t (.built hcls h) (some "canary:r1") hvalid _ rfl
        (fun _ => none) (.inl rfl)
    exact ⟨t, _, dir, rfl, himport, htaskId, hfile⟩

end TaskData

end Conductress
