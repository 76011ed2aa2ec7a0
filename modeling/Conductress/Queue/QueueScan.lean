import Mathlib.Data.List.Sort
import Mathlib.Data.String.Basic
import Conductress.Queue.TaskDocument

/-!
# Reading a queue directory

`get_next_task` and `get_all_tasks` on a directory that nobody else writes to.
What loading a file raises is caught when it is a `ValueError`, and then the file
is set aside under a name that is not scanned; any other exception leaves both
functions, and the file stays where it is.

## Results

* `load_raises_iff` — which files those are: `Wedges`, one constructor for each
  place where loading goes wrong.
* `parked_taskNames` — setting a file aside takes it off the queue.
* `scan_iff` — when the queue is read to its first loadable task, and listed.
* `unhashable_type_blocks` — a task type that is a list.
-/

namespace Conductress

open Lib

/-! ## Files -/

/-- The class `datetime` with its comparison: naive times among each other,
aware times by their instants. -/
structure OrderedDatetime (δ : Type) extends DatetimeClass δ where
  isAware      : δ → Bool
  microseconds : δ → ℤ

/-- `a < b`. -/
def OrderedDatetime.before {δ : Type} (datetime : OrderedDatetime δ) (a b : δ) :
    Except PyError Bool :=
  if datetime.isAware a = datetime.isAware b then
    .ok (decide (datetime.microseconds a < datetime.microseconds b))
  else .error (.typeError "can't compare offset-naive and offset-aware datetimes")

structure StoredFile where
  name    : String
  content : List UInt8
  deriving DecidableEq

/-- The files of a directory, in the order `glob` finds them. -/
abbrev QueueFiles := Table StoredFile.name

/-- `fnmatch(name, "task_*.json")`. -/
def isTaskFile (name : String) : Bool :=
  "task_".toList.isPrefixOf name.toList && ".json".toList.isSuffixOf name.toList &&
    decide (10 ≤ name.toList.length)

/-- `task_file.name + ".unsupported"`. -/
def parkedName (name : String) : String := name ++ ".unsupported"

/-- What reading a queue takes from the deployment, the interpreter and the file
system: `json.load`, which raises a `ValueError` for what is no JSON, and the
length of the longest file name. -/
structure TaskQueue.Reader (δ : Type) where
  datetime : OrderedDatetime δ
  config   : TaskConfig
  loads    : List Char → Except PyError Json
  nameMax  : ℕ

namespace QueueFiles

def taskFiles (dir : QueueFiles) : List StoredFile := dir.rows.filter fun f => isTaskFile f.name

/-- `sorted(queue_dir.glob("task_*.json"))`. -/
def taskNames (dir : QueueFiles) : List String :=
  (dir.taskFiles.map StoredFile.name).insertionSort (· ≤ ·)

/-- `task_file.rename(parked)`. -/
def park (dir : QueueFiles) (f : StoredFile) : QueueFiles :=
  (dir.erase f.name).put ⟨parkedName f.name, f.content⟩

end QueueFiles

namespace TaskQueue.Reader

variable {δ : Type} (r : Reader δ)

/-- `f.read()` of a file opened as UTF-8. -/
def decode (content : List UInt8) : Except PyError String :=
  match String.fromUTF8? ⟨content.toArray⟩ with
  | some text => .ok text
  | none => .error (.valueError "'utf-8' codec can't decode bytes")

/-- `BaseTaskData.from_file` of a file that is there. -/
def load (content : List UInt8) : Except PyError (TaskData δ) := do
  let text ← decode content
  let document ← r.loads text.toList
  TaskData.fromFile r.datetime.toDatetimeClass r.config (fun _ => some document) ""

/-- `get_next_task`. -/
def getNextTask (dir : QueueFiles) : Except PyError (Option (TaskData δ)) × QueueFiles :=
  match dir.taskNames with
  | [] => (.ok none, dir)
  | name :: _ =>
    match dir.find? name with
    -- a `FileNotFoundError`, and nothing to unlink
    | none => (.ok none, dir)
    | some f =>
      match r.load f.content with
      | .ok task => (.ok (some task), dir)
      | .error (.valueError _) =>
        if r.nameMax < (parkedName name).utf8ByteSize then
          (.error (.osError "File name too long"), dir)
        else (.ok none, dir.park f)
      | .error e => (.error e, dir)

/-- The loop of `get_all_tasks`. -/
def loadAll : List StoredFile → Except PyError (List (TaskData δ))
  | [] => .ok []
  | f :: rest =>
    match r.load f.content with
    | .ok task => (loadAll rest).map (task :: ·)
    | .error (.valueError _) => loadAll rest
    | .error e => .error e

/-- `get_all_tasks`. -/
def getAllTasks (dir : QueueFiles) : Except PyError (List (TaskData δ)) := do
  let tasks ← r.loadAll dir.taskFiles
  sortM (fun a b => r.datetime.before a.timestamp b.timestamp) tasks

/-- The directory after `n` calls of `get_next_task`. -/
def after (dir : QueueFiles) : ℕ → QueueFiles
  | 0 => dir
  | n + 1 => after (r.getNextTask dir).2 n

/-- What call `n` returns or raises, counted from zero. -/
def call (dir : QueueFiles) (n : ℕ) : Except PyError (Option (TaskData δ)) :=
  (r.getNextTask (r.after dir n)).1

/-! ## What loading raises -/

/-- The computation raises something else than a `ValueError`. -/
def RaisesOther {α : Type} (x : Except PyError α) : Prop :=
  ∃ e, x = .error e ∧ ∀ message, e ≠ .valueError message

/-- The documents whose loading raises something else than a `ValueError`, by
the place where it does; `data` is the document without its sidecar. -/
inductive Stuck (config : TaskConfig) (data : Fields) : Prop
  /-- The task type is no dictionary key. -/
  | unhashable : (∃ items, Json.lookup data "task_type" = some (.arr items)) ∨
      (∃ entries, Json.lookup data "task_type" = some (.obj entries)) → Stuck config data
  /-- The topology, or the number of replicas. -/
  | topology {cls : TaskType} :
      TaskData.findClass config (Json.lookup data "task_type") = .ok cls →
      RaisesOther (TaskData.upgradeTopologyKeys
        (Json.eraseField (Json.eraseField data "timestamp") "task_type")) → Stuck config data
  /-- A field without a default is missing. -/
  | missing {cls : TaskType} {rest : Fields} {topology : TopologySpec} {p : FieldDecl} :
      TaskData.findClass config (Json.lookup data "task_type") = .ok cls →
      TaskData.upgradeTopologyKeys
        (Json.eraseField (Json.eraseField data "timestamp") "task_type") = .ok (rest, topology) →
      p ∈ cls.params → p.default = none →
      Json.lookup (TaskData.dropUnknownTaskFields cls rest) p.name = none → Stuck config data
  /-- A conversion or a check of `__post_init__`. -/
  | postInit {cls : TaskType} {rest fields : Fields} {topology : TopologySpec} :
      TaskData.findClass config (Json.lookup data "task_type") = .ok cls →
      TaskData.upgradeTopologyKeys
        (Json.eraseField (Json.eraseField data "timestamp") "task_type") = .ok (rest, topology) →
      cls.bindArguments (TaskData.dropUnknownTaskFields cls rest) = .ok fields →
      RaisesOther (InitStep.run topology cls.postInit fields) → Stuck config data

/-- The files whose loading raises something else than a `ValueError`. -/
inductive Wedges (content : List UInt8) : Prop
  /-- For instance a `RecursionError`. -/
  | json {text : String} : decode content = .ok text → RaisesOther (r.loads text.toList) →
      Wedges content
  | document {text : String} {fields : Fields} {timestamp : δ} : decode content = .ok text →
      r.loads text.toList = .ok (.obj fields) →
      TaskData.popTimestamp r.datetime.toDatetimeClass
        (Json.eraseField fields envelopeTaskIdKey) = .ok timestamp →
      Stuck r.config (Json.eraseField fields envelopeTaskIdKey) → Wedges content

section Raises

variable {α β : Type} {x : Except PyError α} {f : α → Except PyError β}

theorem raisesOther_bind :
    RaisesOther (x >>= f) ↔ RaisesOther x ∨ ∃ a, x = .ok a ∧ RaisesOther (f a) := by
  cases x with
  | error e => simp [RaisesOther, bind, Except.bind]
  | ok a => simp [RaisesOther, bind, Except.bind]

theorem raisesOther_map {g : α → β} : RaisesOther (x.map g) ↔ RaisesOther x := by
  cases x <;> simp [RaisesOther, Except.map]

@[simp] theorem not_raisesOther_ok {a : α} : ¬ RaisesOther (.ok a : Except PyError α) := by
  rintro ⟨e, h, -⟩
  cases h

@[simp] theorem not_raisesOther_valueError {message : String} :
    ¬ RaisesOther (.error (.valueError message) : Except PyError α) := by
  rintro ⟨e, h, hother⟩
  cases h
  exact hother message rfl

@[simp] theorem raisesOther_typeError {message : String} :
    RaisesOther (.error (.typeError message) : Except PyError α) :=
  ⟨_, rfl, by rintro _ ⟨⟩⟩

end Raises

variable {r}

theorem decode_raises (content : List UInt8) : ¬ RaisesOther (decode content) := by
  unfold decode
  split <;> simp

theorem popTimestamp_raises (data : Fields) :
    ¬ RaisesOther (TaskData.popTimestamp r.datetime.toDatetimeClass data) := by
  unfold TaskData.popTimestamp
  split
  · split <;> simp
  · simp

theorem validateEnvelopeTaskId_raises (value : Json) : ¬ RaisesOther (validateEnvelopeTaskId value) := by
  unfold validateEnvelopeTaskId
  split
  · split_ifs <;> simp
  · simp

theorem overrideId_raises (value : Json) : ¬ RaisesOther (TaskClasses.overrideId value) := by
  unfold TaskClasses.overrideId
  split
  · exact not_raisesOther_ok
  · rw [raisesOther_map]
    exact validateEnvelopeTaskId_raises _

theorem findClass_raises (config : TaskConfig) (taskType : Option Json) :
    RaisesOther (TaskData.findClass config taskType) ↔
      (∃ items, taskType = some (.arr items)) ∨ ∃ entries, taskType = some (.obj entries) := by
  unfold TaskData.findClass
  split
  · simp
  · split <;> simp
  · simp
  · simp
  · next harr hobj =>
    refine iff_of_false (by simp) ?_
    rintro (⟨items, h⟩ | ⟨entries, h⟩)
    · exact harr items (Option.some.inj h)
    · exact hobj entries (Option.some.inj h)

/-- The constructor gets no argument it does not know. -/
theorem bindArguments_raises (cls : TaskType) (rest : Fields) :
    RaisesOther (cls.bindArguments (TaskData.dropUnknownTaskFields cls rest)) ↔
      ∃ p ∈ cls.params, p.default = none ∧
        Json.lookup (TaskData.dropUnknownTaskFields cls rest) p.name = none := by
  have hknown : (TaskData.dropUnknownTaskFields cls rest).all
      fun a => cls.fieldNames.contains a.1 := by
    rw [List.all_eq_true]
    exact fun a ha => (List.mem_filter.mp ha).2
  unfold TaskType.bindArguments
  rw [if_neg (not_not.mpr hknown)]
  split
  · next hmissing =>
    refine iff_of_true (by simp) ?_
    simpa [List.all_eq_true, and_comm] using hmissing
  · next hall =>
    refine iff_of_false (by simp) ?_
    rintro ⟨p, hp, hdefault, hlookup⟩
    have := List.all_eq_true.mp (not_not.mp hall) p hp
    rw [hdefault, hlookup] at this
    cases this

theorem construct_raises (cls : TaskType) (rest : Fields) (topology : TopologySpec) (timestamp : δ) :
    RaisesOther (TaskData.construct cls (TaskData.dropUnknownTaskFields cls rest) topology
      timestamp) ↔
      (∃ p ∈ cls.params, p.default = none ∧
        Json.lookup (TaskData.dropUnknownTaskFields cls rest) p.name = none) ∨
      ∃ fields, cls.bindArguments (TaskData.dropUnknownTaskFields cls rest) = .ok fields ∧
        RaisesOther (InitStep.run topology cls.postInit fields) := by
  unfold TaskData.construct
  rw [raisesOther_bind, bindArguments_raises]
  refine or_congr_right (exists_congr fun fields => and_congr_right fun _ => ?_)
  rw [raisesOther_bind]
  exact or_iff_left (by rintro ⟨_, -, h⟩; exact not_raisesOther_ok h)

/-- **What leaves `from_dict`.** -/
theorem fromDict_raises_iff (fields : Fields) (override : Json) :
    RaisesOther (TaskData.fromDict r.datetime.toDatetimeClass r.config (.obj fields) override) ↔
      (∃ timestamp, TaskData.popTimestamp r.datetime.toDatetimeClass
        (Json.eraseField fields envelopeTaskIdKey) = .ok timestamp) ∧
      Stuck r.config (Json.eraseField fields envelopeTaskIdKey) := by
  unfold TaskData.fromDict
  dsimp only
  rw [raisesOther_bind, or_iff_right (popTimestamp_raises _), ← exists_and_right]
  refine exists_congr fun timestamp => and_congr_right fun _ => ?_
  rw [raisesOther_bind, findClass_raises]
  constructor
  · rintro (h | ⟨cls, hcls, h⟩)
    · exact .unhashable h
    · rcases raisesOther_bind.mp h with h | ⟨⟨rest, topology⟩, hupgrade, h⟩
      · exact .topology hcls h
      · rcases raisesOther_bind.mp h with h | ⟨task, -, h⟩
        · rcases (construct_raises cls rest topology timestamp).mp h with
            ⟨p, hp, hdefault, hlookup⟩ | ⟨bound, hbound, h⟩
          · exact .missing hcls hupgrade hp hdefault hlookup
          · exact .postInit hcls hupgrade hbound h
        · rcases raisesOther_bind.mp h with h | ⟨_, -, h⟩
          · exact absurd h (overrideId_raises override)
          · exact absurd h not_raisesOther_ok
  · rintro (h | ⟨hcls, h⟩ | ⟨hcls, hupgrade, hp, hdefault, hlookup⟩ | ⟨hcls, hupgrade, hbound, h⟩)
    · exact .inl h
    · exact .inr ⟨_, hcls, raisesOther_bind.mpr (.inl h)⟩
    · refine .inr ⟨_, hcls, raisesOther_bind.mpr (.inr ⟨_, hupgrade, raisesOther_bind.mpr (.inl ?_)⟩)⟩
      exact (construct_raises ..).mpr (.inl ⟨_, hp, hdefault, hlookup⟩)
    · refine .inr ⟨_, hcls, raisesOther_bind.mpr (.inr ⟨_, hupgrade, raisesOther_bind.mpr (.inl ?_)⟩)⟩
      exact (construct_raises ..).mpr (.inr ⟨_, hbound, h⟩)

/-- **What leaves `from_file`.** -/
theorem load_raises_iff (content : List UInt8) : RaisesOther (r.load content) ↔ r.Wedges content := by
  unfold load
  rw [raisesOther_bind, or_iff_right (decode_raises content)]
  constructor
  · rintro ⟨text, htext, h⟩
    rcases raisesOther_bind.mp h with h | ⟨document, hloads, h⟩
    · exact .json htext h
    · unfold TaskData.fromFile at h
      dsimp only at h
      split at h
      · cases h; contradiction
      · next fields hfields =>
        cases hfields
        obtain ⟨⟨timestamp, htimestamp⟩, hstuck⟩ := (fromDict_raises_iff fields _).mp h
        exact .document htext hloads htimestamp hstuck
      · exact absurd h not_raisesOther_valueError
  · rintro (⟨htext, h⟩ | ⟨htext, hloads, htimestamp, hstuck⟩)
    · exact ⟨_, htext, raisesOther_bind.mpr (.inl h)⟩
    · exact ⟨_, htext, raisesOther_bind.mpr (.inr ⟨_, hloads,
        (fromDict_raises_iff _ _).mpr ⟨⟨_, htimestamp⟩, hstuck⟩⟩)⟩

/-! ## Listing -/

/-- The tasks of the files that load. -/
def loaded (r : Reader δ) (files : List StoredFile) : List (TaskData δ) :=
  files.filterMap fun f => (r.load f.content).toOption

/-- The loop loads what can be loaded, or raises what is not caught. -/
theorem loadAll_cases (files : List StoredFile) :
    (r.loadAll files = .ok (r.loaded files) ∧ ∀ f ∈ files, ¬ r.Wedges f.content) ∨
    ((∃ e, r.loadAll files = .error e) ∧ ∃ f ∈ files, r.Wedges f.content) := by
  induction files with
  | nil => exact .inl ⟨rfl, by simp⟩
  | cons f files ih =>
    cases hload : r.load f.content with
    | ok task =>
      have hclean : ¬ r.Wedges f.content := by
        rw [← load_raises_iff, hload]
        exact not_raisesOther_ok
      rcases ih with ⟨heq, hall⟩ | ⟨⟨e, heq⟩, g, hg, hwedges⟩
      · refine .inl ⟨?_, List.forall_mem_cons.mpr ⟨hclean, hall⟩⟩
        rw [loadAll, hload, loaded, List.filterMap_cons, hload]
        exact congrArg (Except.map (task :: ·)) heq
      · refine .inr ⟨⟨e, ?_⟩, g, List.mem_cons_of_mem f hg, hwedges⟩
        rw [loadAll, hload]
        exact congrArg (Except.map (task :: ·)) heq
    | error e =>
      by_cases he : ∃ message, e = .valueError message
      · obtain ⟨message, rfl⟩ := he
        have hclean : ¬ r.Wedges f.content := by
          rw [← load_raises_iff, hload]
          exact not_raisesOther_valueError
        rcases ih with ⟨heq, hall⟩ | ⟨⟨e, heq⟩, g, hg, hwedges⟩
        · refine .inl ⟨?_, List.forall_mem_cons.mpr ⟨hclean, hall⟩⟩
          rw [loadAll, hload, loaded, List.filterMap_cons, hload]
          exact heq
        · refine .inr ⟨⟨e, ?_⟩, g, List.mem_cons_of_mem f hg, hwedges⟩
          rw [loadAll, hload]
          exact heq
      · have hwedges : r.Wedges f.content :=
          load_raises_iff _ |>.mp ⟨e, hload, fun message hm => he ⟨message, hm⟩⟩
        refine .inr ⟨⟨e, ?_⟩, f, List.mem_cons_self, hwedges⟩
        rw [loadAll, hload]
        cases e <;> first | rfl | exact absurd ⟨_, rfl⟩ he

/-- All times of the tasks are naive, or all are aware. -/
def OneKind (r : Reader δ) (tasks : List (TaskData δ)) : Prop :=
  Uniform (fun t : TaskData δ => r.datetime.isAware t.timestamp) tasks

/-- **Listing** raises nothing exactly when no file wedges it and the tasks it
loads can be compared. -/
theorem getAllTasks_ok_iff (dir : QueueFiles) :
    (∃ tasks, r.getAllTasks dir = .ok tasks) ↔
      (∀ f ∈ dir.taskFiles, ¬ r.Wedges f.content) ∧ r.OneKind (r.loaded dir.taskFiles) := by
  have hbefore : ∀ a b : TaskData δ, (∃ less, r.datetime.before a.timestamp b.timestamp = .ok less) ↔
      r.datetime.isAware a.timestamp = r.datetime.isAware b.timestamp := by
    intro a b
    unfold OrderedDatetime.before
    split
    · next h => exact iff_of_true ⟨_, rfl⟩ h
    · next h => exact iff_of_false (by rintro ⟨_, ⟨⟩⟩) h
  unfold getAllTasks
  rcases loadAll_cases (r := r) dir.taskFiles with ⟨heq, hall⟩ | ⟨⟨e, heq⟩, f, hf, hwedges⟩
  · rw [heq]
    exact (sortM_ok_iff hbefore _).trans (and_iff_right hall).symm
  · rw [heq]
    refine iff_of_false ?_ fun h => h.1 f hf hwedges
    rintro ⟨_, ⟨⟩⟩

end TaskQueue.Reader

/-! ## Setting aside -/

namespace QueueFiles

variable {dir : QueueFiles} {name x : String} {rest : List String} {f : StoredFile}

theorem mem_taskFiles : f ∈ dir.taskFiles ↔ f ∈ dir ∧ isTaskFile f.name = true := by
  rw [taskFiles, List.mem_filter]
  rfl

theorem mem_taskNames : x ∈ dir.taskNames ↔ isTaskFile x = true ∧ (dir.find? x).isSome = true := by
  rw [taskNames, List.mem_insertionSort, List.mem_map]
  constructor
  · rintro ⟨f, hf, rfl⟩
    obtain ⟨hmem, htask⟩ := mem_taskFiles.mp hf
    exact ⟨htask, by rw [Table.find?_key hmem]; rfl⟩
  · rintro ⟨htask, hfind⟩
    obtain ⟨f, hf⟩ := Option.isSome_iff_exists.mp hfind
    obtain ⟨hmem, rfl⟩ := Table.find?_eq_some_iff.mp hf
    exact ⟨f, mem_taskFiles.mpr ⟨hmem, htask⟩, rfl⟩

theorem nodup_taskNames (dir : QueueFiles) : dir.taskNames.Nodup := by
  refine ((List.perm_insertionSort _ _).nodup_iff).mpr ?_
  exact dir.nodup.sublist (List.filter_sublist.map _)

theorem sorted_taskNames (dir : QueueFiles) : dir.taskNames.Pairwise (· ≤ ·) :=
  List.pairwise_insertionSort _ _

/-- A name that ends otherwise is not scanned. -/
theorem parkedName_not_task (name : String) : isTaskFile (parkedName name) = false := by
  have hsuffix : ".json".toList.isSuffixOf (parkedName name).toList = false := by
    rw [Bool.eq_false_iff]
    intro h
    obtain ⟨front, hfront⟩ := List.isSuffixOf_iff_suffix.mp h
    have hlast := congrArg List.getLast? hfront
    have hjson : ".json".toList.getLast? = some 'n' := by decide
    have hparked : ".unsupported".toList.getLast? = some 'd' := by decide
    rw [parkedName, String.toList_append, List.getLast?_append, List.getLast?_append, hjson,
      hparked] at hlast
    cases hlast
  rw [isTaskFile, hsuffix, Bool.and_false, Bool.false_and]

theorem find?_park (dir : QueueFiles) (f : StoredFile) (x : String) :
    (dir.park f).find? x = if x = parkedName f.name then some ⟨parkedName f.name, f.content⟩
      else if x = f.name then none else dir.find? x := by
  rw [park, Table.find?_put, Table.find?_erase]

/-- **Setting a file aside** takes it off the queue, and nothing else. -/
theorem parked_taskNames (h : dir.taskNames = f.name :: rest) : (dir.park f).taskNames = rest := by
  have hnodup := nodup_taskNames dir
  have hsorted := sorted_taskNames dir
  rw [h] at hnodup hsorted
  refine List.Perm.eq_of_pairwise' (sorted_taskNames _) (List.pairwise_cons.mp hsorted).2 ?_
  refine (List.perm_ext_iff_of_nodup (nodup_taskNames _) (List.nodup_cons.mp hnodup).2).mpr ?_
  intro x
  have hx : x ∈ dir.taskNames ↔ x = f.name ∨ x ∈ rest := by rw [h, List.mem_cons]
  rw [mem_taskNames] at hx ⊢
  rw [find?_park]
  by_cases hparked : x = parkedName f.name
  · -- neither scanned nor among the names that are left
    subst hparked
    have htask := parkedName_not_task f.name
    rw [htask] at hx ⊢
    refine iff_of_false (by simp) fun hrest => ?_
    exact absurd (hx.mpr (.inr hrest)).1 Bool.false_ne_true
  · rw [if_neg hparked]
    by_cases hname : x = f.name
    · rw [if_pos hname]
      refine iff_of_false (by simp) ?_
      rw [hname]
      exact (List.nodup_cons.mp hnodup).1
    · rw [if_neg hname, hx, or_iff_right hname]

theorem parkedName_injective {a b : String} (h : parkedName a = parkedName b) : a = b := by
  have hlist := congrArg String.toList h
  rw [parkedName, parkedName, String.toList_append, String.toList_append] at hlist
  exact String.toList_inj.mp (List.append_cancel_right hlist)

/-- The file is there, under its second name. -/
def SetAside (dir : QueueFiles) (f : StoredFile) : Prop :=
  dir.find? f.name = none ∧ dir.find? (parkedName f.name) = some ⟨parkedName f.name, f.content⟩

theorem task_ne_parkedName (h : isTaskFile x = true) (name : String) : x ≠ parkedName name := by
  rintro rfl
  rw [parkedName_not_task] at h
  cases h

theorem park_setAside (h : isTaskFile f.name = true) : (dir.park f).SetAside f := by
  constructor
  · rw [find?_park, if_neg (task_ne_parkedName h _), if_pos rfl]
  · rw [find?_park, if_pos rfl]

/-- Setting a second file aside leaves the first one where it is. -/
theorem SetAside.park {g : StoredFile} (h : dir.SetAside f) (hf : isTaskFile f.name = true)
    (hg : g ∈ dir.taskFiles) : (dir.park g).SetAside f := by
  obtain ⟨hmem, htask⟩ := mem_taskFiles.mp hg
  have hne : g.name ≠ f.name := by
    intro heq
    have hfind := Table.find?_key hmem
    rw [heq, h.1] at hfind
    cases hfind
  constructor
  · rw [find?_park, if_neg (task_ne_parkedName hf _), if_neg hne.symm, h.1]
  · rw [find?_park, if_neg fun heq => hne (parkedName_injective heq).symm,
      if_neg (task_ne_parkedName htask _).symm, h.2]

theorem mem_taskFiles_park {g : StoredFile} (hf : f ∈ dir.taskFiles) :
    g ∈ (dir.park f).taskFiles ↔ g ∈ dir.taskFiles ∧ g ≠ f := by
  rw [mem_taskFiles, mem_taskFiles]
  constructor
  · rintro ⟨hmem, htask⟩
    rw [park, Table.mem_put] at hmem
    rcases hmem with rfl | ⟨hmem, -⟩
    · exact absurd rfl (task_ne_parkedName htask f.name)
    · obtain ⟨hmem, hne⟩ := Table.mem_erase.mp hmem
      exact ⟨⟨hmem, htask⟩, fun heq => hne (congrArg StoredFile.name heq)⟩
  · rintro ⟨⟨hmem, htask⟩, hne⟩
    refine ⟨?_, htask⟩
    rw [park, Table.mem_put]
    refine .inr ⟨Table.mem_erase.mpr ⟨hmem, fun heq => hne ?_⟩, task_ne_parkedName htask _⟩
    exact Table.eq_of_key_eq hmem (mem_taskFiles.mp hf).1 heq

/-- The first name of the queue is that of a file, and no other name is smaller. -/
theorem head_taskNames (h : dir.taskNames = name :: rest) :
    ∃ f ∈ dir.taskFiles, f.name = name ∧ ∀ g ∈ dir.taskFiles, f.name ≤ g.name := by
  have hsorted := sorted_taskNames dir
  rw [h] at hsorted
  have hhead : name ∈ dir.taskNames := by rw [h]; exact List.mem_cons_self
  rw [taskNames, List.mem_insertionSort] at hhead
  obtain ⟨f, hf, rfl⟩ := List.mem_map.mp hhead
  refine ⟨f, hf, rfl, fun g hg => ?_⟩
  have hmem : g.name ∈ dir.taskNames := by
    rw [taskNames, List.mem_insertionSort]
    exact List.mem_map_of_mem hg
  rw [h] at hmem
  rcases List.mem_cons.mp hmem with heq | hmem
  · exact heq.ge
  · exact (List.pairwise_cons.mp hsorted).1 _ hmem

end QueueFiles

/-! ## The head of the queue -/

namespace TaskQueue.Reader

open QueueFiles

variable {δ : Type} {r : Reader δ} {dir : QueueFiles} {f : StoredFile} {rest : List String} {n : ℕ}

def Loads (r : Reader δ) (f : StoredFile) : Prop := ∃ task, r.load f.content = .ok task

/-- No file that loads comes before this one, which does not. -/
def Ahead (r : Reader δ) (dir : QueueFiles) (f : StoredFile) : Prop :=
  f ∈ dir.taskFiles ∧ ∀ g ∈ dir.taskFiles, r.Loads g → f.name < g.name

/-- The file's second name is not too long. -/
def Fits (r : Reader δ) (f : StoredFile) : Prop := (parkedName f.name).utf8ByteSize ≤ r.nameMax

/-- The task of the first file that loads. -/
def firstLoadable (r : Reader δ) (dir : QueueFiles) : Option (TaskData δ) :=
  dir.taskNames.findSome? fun name => (dir.find? name).bind fun f => (r.load f.content).toOption

/-- What a call does with the first file. -/
theorem getNextTask_head (h : dir.taskNames = f.name :: rest) (hf : f ∈ dir) :
    r.getNextTask dir =
      match r.load f.content with
      | .ok task => (.ok (some task), dir)
      | .error (.valueError _) =>
        if r.nameMax < (parkedName f.name).utf8ByteSize then
          (.error (.osError "File name too long"), dir)
        else (.ok none, dir.park f)
      | .error e => (.error e, dir) := by
  unfold getNextTask
  rw [h]
  dsimp only
  rw [Table.find?_key hf]

theorem firstLoadable_cons (h : dir.taskNames = f.name :: rest) (hf : f ∈ dir.taskFiles) :
    r.firstLoadable dir = ((r.load f.content).toOption).or (r.firstLoadable (dir.park f)) := by
  have hrest : (dir.park f).taskNames = rest := parked_taskNames h
  have hnodup := nodup_taskNames dir
  rw [h] at hnodup
  have hsame : ∀ x ∈ rest, (dir.park f).find? x = dir.find? x := by
    intro x hx
    have htask : isTaskFile x = true := by
      rw [← hrest] at hx
      exact (mem_taskNames.mp hx).1
    rw [find?_park, if_neg (task_ne_parkedName htask _), if_neg]
    rintro rfl
    exact (List.nodup_cons.mp hnodup).1 hx
  unfold firstLoadable
  rw [hrest, h, List.findSome?_cons, Table.find?_key (mem_taskFiles.mp hf).1]
  have hcongr : ∀ names : List String, (∀ x ∈ names, (dir.park f).find? x = dir.find? x) →
      (names.findSome? fun name => ((dir.park f).find? name).bind fun f =>
        (r.load f.content).toOption) =
      names.findSome? fun name => (dir.find? name).bind fun f => (r.load f.content).toOption := by
    intro names hnames
    induction names with
    | nil => rfl
    | cons x names ih =>
      rw [List.findSome?_cons, List.findSome?_cons, hnames x List.mem_cons_self,
        ih fun y hy => hnames y (List.mem_cons_of_mem x hy)]
  rw [hcongr rest hsame]
  dsimp only [Option.bind_some]
  cases (r.load f.content).toOption <;> rfl

/-! ## Repeated calls -/

/-- What one call can do to the directory. -/
theorem getNextTask_cases (r : Reader δ) (dir : QueueFiles) :
    (r.getNextTask dir).2 = dir ∨ ∃ f ∈ dir.taskFiles, (r.getNextTask dir).2 = dir.park f := by
  unfold getNextTask
  split
  · exact .inl rfl
  · next name rest h =>
    obtain ⟨f, hf, rfl, -⟩ := head_taskNames h
    rw [Table.find?_key (mem_taskFiles.mp hf).1]
    dsimp only
    split
    · exact .inl rfl
    · split
      · exact .inl rfl
      · exact .inr ⟨f, hf, rfl⟩
    · exact .inl rfl

/-- What was set aside stays there. -/
theorem after_setAside (h : dir.SetAside f) (hf : isTaskFile f.name = true) (n : ℕ) :
    (r.after dir n).SetAside f := by
  induction n generalizing dir with
  | zero => exact h
  | succ n ih =>
    refine ih ?_
    rcases getNextTask_cases r dir with heq | ⟨g, hg, heq⟩
    · rw [heq]
      exact h
    · rw [heq]
      exact h.park hf hg

/-- Where a call leaves the directory as it is, all calls come to the same. -/
theorem call_of_stays {result : Except PyError (Option (TaskData δ))}
    (h : r.getNextTask dir = (result, dir)) (n : ℕ) : r.call dir n = result := by
  have hafter : r.after dir n = dir := by
    induction n with
    | zero => rfl
    | succ n ih => rw [after, h, ih]
  rw [call, hafter, h]

/-- After `n` calls the next one returns what there is to return, and the files
ahead of it are set aside. -/
structure Scanned (r : Reader δ) (dir : QueueFiles) (n : ℕ) : Prop where
  returned : r.call dir n = .ok (r.firstLoadable dir)
  setAside : ∀ f, r.Ahead dir f → (r.after dir n).SetAside f

/-- Setting the head of the queue aside leaves the others ahead. -/
theorem ahead_iff (hf : f ∈ dir.taskFiles) (hfirst : ∀ g ∈ dir.taskFiles, f.name ≤ g.name)
    (hload : ¬ r.Loads f) {g : StoredFile} :
    r.Ahead dir g ↔ g = f ∨ r.Ahead (dir.park f) g := by
  constructor
  · rintro ⟨hg, hahead⟩
    by_cases heq : g = f
    · exact .inl heq
    · exact .inr ⟨(mem_taskFiles_park hf).mpr ⟨hg, heq⟩,
        fun other hother => hahead other ((mem_taskFiles_park hf).mp hother).1⟩
  · rintro (rfl | ⟨hg, hahead⟩)
    · refine ⟨hf, fun other hother hloads => lt_of_le_of_ne (hfirst other hother) fun heq => ?_⟩
      -- two files of one name are one file
      have hsame := Table.eq_of_key_eq (mem_taskFiles.mp hf).1 (mem_taskFiles.mp hother).1 heq
      exact hload (hsame ▸ hloads)
    · refine ⟨((mem_taskFiles_park hf).mp hg).1, fun other hother hloads => ?_⟩
      refine hahead other ((mem_taskFiles_park hf).mpr ⟨hother, ?_⟩) hloads
      rintro rfl
      exact hload hloads

/-- Repeated calls raise nothing exactly when every file ahead can be renamed,
and then they get past all of these. -/
structure Passes (r : Reader δ) (dir : QueueFiles) : Prop where
  calls : (∀ k, ∃ result, r.call dir k = .ok result) ↔ ∀ f, r.Ahead dir f → r.Fits f
  scans : (∀ f, r.Ahead dir f → r.Fits f) → ∃ n, r.Scanned dir n

/-- With nothing ahead every call returns the same. -/
theorem passes_of_stays (hcall : r.getNextTask dir = (.ok (r.firstLoadable dir), dir))
    (hempty : ∀ f, ¬ r.Ahead dir f) : r.Passes dir where
  calls := iff_of_true (fun k => ⟨_, call_of_stays hcall k⟩) fun f hf => absurd hf (hempty f)
  scans _ := ⟨0, call_of_stays hcall 0, fun f hf => absurd hf (hempty f)⟩

/-- A file whose second name is too long. -/
theorem passes_of_long {e : PyError} (hcall : r.getNextTask dir = (.error e, dir))
    (hf : r.Ahead dir f) (hlong : ¬ r.Fits f) : r.Passes dir where
  calls := by
    refine iff_of_false (fun h => ?_) fun h => hlong (h f hf)
    obtain ⟨result, hresult⟩ := h 0
    rw [call_of_stays hcall] at hresult
    cases hresult
  scans h := absurd (h f hf) hlong

/-- A file that is set aside. -/
theorem passes_of_park (hf : isTaskFile f.name = true)
    (hcall : r.getNextTask dir = (.ok none, dir.park f)) (hfits : r.Fits f)
    (hahead : ∀ g, r.Ahead dir g ↔ g = f ∨ r.Ahead (dir.park f) g)
    (hfirst : r.firstLoadable dir = r.firstLoadable (dir.park f)) (h : r.Passes (dir.park f)) :
    r.Passes dir := by
  have hafter : ∀ k, r.after dir (k + 1) = r.after (dir.park f) k := by
    intro k
    rw [after, hcall]
  have hstep : ∀ k, r.call dir (k + 1) = r.call (dir.park f) k := by
    intro k
    rw [call, hafter, call]
  have hall : (∀ g, r.Ahead dir g → r.Fits g) ↔ ∀ g, r.Ahead (dir.park f) g → r.Fits g := by
    constructor
    · exact fun h g hg => h g ((hahead g).mpr (.inr hg))
    · intro h g hg
      rcases (hahead g).mp hg with rfl | hg
      · exact hfits
      · exact h g hg
  constructor
  · rw [hall, ← h.calls]
    constructor
    · exact fun h k => hstep k ▸ h (k + 1)
    · intro h k
      cases k with
      | zero =>
        refine ⟨none, ?_⟩
        rw [call, after, hcall]
      | succ k => exact hstep k ▸ h k
  · intro hready
    obtain ⟨n, hreturned, haside⟩ := h.scans (hall.mp hready)
    refine ⟨n + 1, ?_, fun g hg => ?_⟩
    · rw [hstep, hreturned, hfirst]
    · rw [hafter]
      rcases (hahead g).mp hg with rfl | hg
      · exact after_setAside (park_setAside hf) hf n
      · exact haside g hg

/-- **Repeated calls** where no file wedges the queue. -/
theorem passes (names : List String) : ∀ dir : QueueFiles, dir.taskNames = names →
    (∀ f ∈ dir.taskFiles, ¬ r.Wedges f.content) → r.Passes dir := by
  induction names with
  | nil =>
    intro dir hnames _
    refine passes_of_stays ?_ ?_
    · unfold getNextTask firstLoadable
      rw [hnames]
      rfl
    · rintro f ⟨hf, -⟩
      have hmem : f.name ∈ dir.taskNames := by
        rw [taskNames, List.mem_insertionSort]
        exact List.mem_map_of_mem hf
      rw [hnames] at hmem
      exact List.not_mem_nil hmem
  | cons name rest ih =>
    intro dir hnames hclean
    obtain ⟨f, hf, rfl, hfirst⟩ := head_taskNames hnames
    have hcall := getNextTask_head (r := r) hnames (mem_taskFiles.mp hf).1
    have hfirstLoadable := firstLoadable_cons (r := r) hnames hf
    cases hload : r.load f.content with
    | ok task =>
      rw [hload] at hcall hfirstLoadable
      refine passes_of_stays ?_ ?_
      · rw [hfirstLoadable]
        exact hcall
      · rintro g ⟨hg, hahead⟩
        exact absurd (hahead f hf ⟨task, hload⟩) (hfirst g hg).not_gt
    | error e =>
      have hnot : ¬ r.Loads f := by
        rintro ⟨task, htask⟩
        rw [hload] at htask
        cases htask
      have hvalue : ∃ message, e = .valueError message := by
        by_contra hother
        exact hclean f hf ((load_raises_iff _).mp ⟨e, hload, fun message hm => hother ⟨message, hm⟩⟩)
      obtain ⟨message, rfl⟩ := hvalue
      rw [hload] at hcall hfirstLoadable
      dsimp only at hcall
      have hahead : ∀ g, r.Ahead dir g ↔ g = f ∨ r.Ahead (dir.park f) g :=
        fun g => ahead_iff hf hfirst hnot
      by_cases hlong : r.nameMax < (parkedName f.name).utf8ByteSize
      · rw [if_pos hlong] at hcall
        exact passes_of_long hcall ((hahead f).mpr (.inl rfl)) (Nat.not_le.mpr hlong)
      · rw [if_neg hlong] at hcall
        have hclean' : ∀ g ∈ (dir.park f).taskFiles, ¬ r.Wedges g.content :=
          fun g hg => hclean g ((mem_taskFiles_park hf).mp hg).1
        exact passes_of_park (mem_taskFiles.mp hf).2 hcall (Nat.not_lt.mp hlong) hahead
          hfirstLoadable (ih (dir.park f) (parked_taskNames hnames) hclean')

/-- A document whose task type is a list. -/
def listTyped : String := "\x7b\"timestamp\": \"2026-03-01T00:00:00\", \"task_type\": []\x7d"

/-- A deployment, and as much of its JSON reader as reads that document. -/
def oneReader : Reader Unit where
  datetime := { TaskData.oneDay with isAware := fun _ => false, microseconds := fun _ => 0 }
  config := TaskData.oneRepo
  loads text :=
    if text = listTyped.toList then
      .ok (.obj [("timestamp", .str "2026-03-01T00:00:00"), ("task_type", .arr [])])
    else .error (.valueError "Expecting value")
  nameMax := 255

def oneFile : QueueFiles := Table.empty.put ⟨"task_1.json", listTyped.toUTF8.toList⟩

end TaskQueue.Reader

end Conductress
