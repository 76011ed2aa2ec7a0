import Conductress.Sweep.CoordinatorV3
import Mathlib.Data.List.Infix

/-!
# Clearing the history of one series

`reset_series` deletes the state file of a series and moves its queued tasks away.
It knows a series by a workload and an engine, and finds the file and the notes of
the tasks by rules of its own: they are those of the coordinators, a throughput one
or a memory one, as long as names do not contain what the rules put between them
(`reset_own_iff`).
-/

namespace Conductress.Sweep

open Lib

/-! ## What `reset_series` goes by -/

/-- `name or "valkey"`. -/
def orValkey (name : Option String) : String :=
  match name with
  | none => "valkey"
  | some name => if name = "" then "valkey" else name

/-- `text.startswith(start)`. -/
def startsWith (text start : String) : Bool := start.toList.isPrefixOf text.toList

/-- `series_label`. -/
def seriesLabel (workload : String) (engine : Option String) : String :=
  match engine with
  | none => workload
  | some engine => if engine ≠ "" ∧ engine ≠ "valkey" then engine ++ "-" ++ workload else workload

def memoryWorkloadPrefix : String := "memory-"

/-- `is_memory_workload`. -/
def isMemoryWorkload (workload : String) : Bool := startsWith workload memoryWorkloadPrefix

/-- `workload[len(MEMORY_WORKLOAD_PREFIX):]`. -/
def shapeOf (workload : String) : String :=
  String.ofList (workload.toList.drop memoryWorkloadPrefix.length)

/-- `MEMORY_STATE_DIR` and `V3_STATE_DIR`. -/
structure StateDirs where
  memory : String
  v3     : String

/-- A file in a directory. -/
structure StatePath where
  dir  : String
  name : String
  deriving DecidableEq

/-- `default_state_dir`. -/
def defaultStateDir (dirs : StateDirs) (workload : String) : String :=
  if isMemoryWorkload workload then dirs.memory else dirs.v3

/-- `state_file_for`. -/
def stateFileFor (dirs : StateDirs) (workload : String) (engine stateDir : Option String) :
    StatePath :=
  let dir := stateDir.getD (defaultStateDir dirs workload)
  if isMemoryWorkload workload then
    ⟨dir, "memory_state_" ++ seriesLabel (shapeOf workload) engine ++ ".json"⟩
  else ⟨dir, "state_cachecannon-v3_" ++ seriesLabel workload engine ++ ".json"⟩

/-- `_note_prefix`. -/
def notePrefix (workload : String) (engine : Option String) : String :=
  if isMemoryWorkload workload then "[memory-sweep:" ++ shapeOf workload ++ "]"
  else "[cachecannon-sweep-v3:" ++ orValkey engine ++ "/" ++ seriesLabel workload engine ++ "]"

/-- A value that is a text. -/
def textOf : Json → Option String
  | .str s => some s
  | _ => none

/-- `_task_fields`: the note and the source; a file that cannot be read has none. -/
def taskFields (document : Option Json) : Except PyError (Option String × Option String) :=
  match document with
  | none => .ok (none, none)
  | some (.obj doc) => .ok (textOf (Json.getD doc "note"), textOf (Json.getD doc "source"))
  | some _ => .error (.attributeError "object has no attribute 'get'")

/-- `_task_belongs_to_series`. -/
def taskBelongsToSeries (document : Option Json) (workload : String) (engine : Option String) :
    Except PyError Bool := do
  let (note, source) ← taskFields document
  match note with
  | none => return false
  | some note =>
    if ¬ startsWith note (notePrefix workload engine) then return false
    else if isMemoryWorkload workload then return decide (orValkey source = orValkey engine)
    else return true

/-! ## The coordinators -/

/-- The prefix of a comparison engine. -/
def enginePrefix (engine : Option SweepEngine) : String :=
  match engine with
  | none => ""
  | some engine => if engine.source ≠ "valkey" then engine.source ++ "-" else ""

/-- The state file of `BaseCachecannonSweepCoordinatorV3.__init__`. -/
def CoordinatorV3.stateFile (dirs : StateDirs) (c : CoordinatorV3) : StatePath :=
  ⟨dirs.v3, "state_cachecannon-v3_" ++ c.label ++ ".json"⟩

structure MemoryWorkload where
  command       : String
  keySize       : ℤ
  valueSize     : ℤ
  fieldSize     : ℤ
  hasExpire     : Bool
  label         : String
  userDataBytes : ℤ

/-- `MemoryWorkload.state_file_for_engine`. -/
def MemoryWorkload.stateFileForEngine (dirs : StateDirs) (workload : MemoryWorkload)
    (engine : Option SweepEngine) : StatePath :=
  ⟨dirs.memory, "memory_state_" ++ enginePrefix engine ++ workload.label ++ ".json"⟩

/-- `MemorySweepCoordinator`. -/
structure MemoryCoordinator where
  workload : MemoryWorkload
  engine   : Option SweepEngine

namespace MemoryCoordinator

variable (m : MemoryCoordinator)

def sweepSource : String := (m.engine.map SweepEngine.source).getD "valkey"

def sweepMakeArgs : String := (m.engine.map SweepEngine.makeArgs).getD ""

def jemallocProfConfigureOpts : String := "JEMALLOC_CONFIGURE_OPTS=\"--enable-prof\""

/-- `with_jemalloc_prof`. -/
def withJemallocProf (makeArgs : String) : String :=
  if jemallocProfConfigureOpts.toList <:+: makeArgs.toList then makeArgs
  else if makeArgs ≠ "" then makeArgs ++ " " ++ jemallocProfConfigureOpts
  else jemallocProfConfigureOpts

/-- The arguments `_create_task` calls the class with, `topology` apart. -/
def cellArguments (commit reason : String) : Fields :=
  [("source", .str m.sweepSource), ("specifier", .str commit),
    ("make_args", .str (withJemallocProf m.sweepMakeArgs)),
    ("note", .str ("[memory-sweep:" ++ m.workload.label ++ "] " ++ reason)),
    ("requirements", .obj []), ("type", .str m.workload.command),
    ("val_sizes", .arr [.int m.workload.valueSize]), ("has_expire", .bool m.workload.hasExpire),
    ("enable_profiling", .bool true), ("key_size", .int m.workload.keySize),
    ("field_size", .int m.workload.fieldSize), ("user_data_bytes", .int m.workload.userDataBytes),
    ("settle", .bool true)]

/-- `_create_task`, and the assignment `queue_next_if_needed` makes after it. -/
def createTask {δ : Type} (config : TaskConfig) (commit reason : String) (now : δ) :
    Except PyError (TaskData δ) := do
  let task ← TaskData.construct config.memTaskData (m.cellArguments commit reason)
    TaskData.standalone now
  pure { task with fields := Json.setField task.fields "sweep_commit" (.str commit) }

end MemoryCoordinator

/-- A coordinator: a throughput one with the label it was built with, or a memory one. -/
inductive SeriesCoordinator where
  | throughput (c : CoordinatorV3) (label : String)
      (built : c.label = enginePrefix c.engine ++ label)
  | memory (m : MemoryCoordinator)

namespace SeriesCoordinator

/-- The workload of its series. -/
def workload : SeriesCoordinator → String
  | throughput _ label _ => label
  | memory m => memoryWorkloadPrefix ++ m.workload.label

def source : SeriesCoordinator → String
  | throughput c _ _ => c.sweepSource
  | memory m => m.sweepSource

def stateFile (dirs : StateDirs) : SeriesCoordinator → StatePath
  | throughput c _ _ => c.stateFile dirs
  | memory m => m.workload.stateFileForEngine dirs m.engine

def createTask {δ : Type} (config : TaskConfig) (commit reason : String) (now : δ) :
    SeriesCoordinator → Except PyError (TaskData δ)
  | throughput c _ _ => c.createTask config commit reason now
  | memory m => m.createTask config commit reason now

/-- It is the one of a workload and an engine. -/
def Owns (s : SeriesCoordinator) (workload : String) (engine : Option String) : Prop :=
  s.workload = workload ∧ s.source = orValkey engine

instance (s : SeriesCoordinator) (workload : String) (engine : Option String) :
    Decidable (s.Owns workload engine) :=
  inferInstanceAs (Decidable (_ ∧ _))

end SeriesCoordinator

/-- An engine's name has none of the separators of a note. -/
structure EngineName (source : String) : Prop where
  nonempty : source ≠ ""
  slash    : '/' ∉ source.toList
  bracket  : ']' ∉ source.toList

/-- A coordinator whose names have none, and a throughput label that is not one of a
memory series. -/
structure SeriesCoordinator.Named (s : SeriesCoordinator) : Prop where
  engine     : EngineName s.source
  bracket    : ']' ∉ s.workload.toList
  throughput : ∀ c label built, s = .throughput c label built → isMemoryWorkload label = false

/-! ## Names and what is between them -/

/-- Before a separator that neither name has, one text starts another only with the
same name. -/
theorem delimited_prefix_iff {α : Type*} [DecidableEq α] {c : α} {a b x y : List α} (ha : c ∉ a)
    (hb : c ∉ b) : (b ++ c :: x) <+: (a ++ c :: y) ↔ b = a ∧ x <+: y := by
  constructor
  · rintro ⟨t, ht⟩
    rw [List.append_assoc, List.cons_append] at ht
    -- up to the first separator the two are the names
    have hnames := congrArg (fun l => (l.splitOn c).head?) ht
    simp only [List.splitOn_append_cons_self_of_not_mem ha,
      List.splitOn_append_cons_self_of_not_mem hb, List.head?_cons, Option.some_inj] at hnames
    subst hnames
    exact ⟨rfl, t, List.tail_eq_of_cons_eq (List.append_cancel_left ht)⟩
  · rintro ⟨rfl, t, rfl⟩
    exact ⟨t, by rw [List.append_assoc, List.cons_append]⟩

theorem startsWith_iff {text start : String} :
    startsWith text start = true ↔ start.toList <+: text.toList :=
  List.isPrefixOf_iff_prefix

/-- The prefix of a source. -/
def sourcePrefix (source : String) : String := if source ≠ "valkey" then source ++ "-" else ""

theorem seriesLabel_eq (workload : String) (engine : Option String) :
    seriesLabel workload engine = sourcePrefix (orValkey engine) ++ workload := by
  cases engine with
  | none => exact (String.empty_append (s := workload)).symm
  | some engine =>
    rw [seriesLabel, orValkey, sourcePrefix]
    by_cases hempty : engine = ""
    · simp [hempty]
    · by_cases hvalkey : engine = "valkey"
      · simp [hvalkey]
      · simp [hempty, hvalkey]

theorem enginePrefix_eq (engine : Option SweepEngine) :
    enginePrefix engine = sourcePrefix ((engine.map SweepEngine.source).getD "valkey") := by
  cases engine with
  | none => rfl
  | some engine => rfl

theorem bracket_not_mem_sourcePrefix {source : String} (h : ']' ∉ source.toList) :
    ']' ∉ (sourcePrefix source).toList := by
  unfold sourcePrefix
  split
  · rw [String.toList_append, List.mem_append, not_or]
    exact ⟨h, by decide⟩
  · decide

theorem isMemoryWorkload_append (shape : String) :
    isMemoryWorkload (memoryWorkloadPrefix ++ shape) = true := by
  rw [isMemoryWorkload, startsWith_iff, String.toList_append]
  exact List.prefix_append _ _

theorem shapeOf_append (shape : String) : shapeOf (memoryWorkloadPrefix ++ shape) = shape := by
  rw [shapeOf, String.toList_append, ← String.length_toList, List.drop_left, String.ofList_toList]

theorem append_shapeOf {workload : String} (h : isMemoryWorkload workload = true) :
    memoryWorkloadPrefix ++ shapeOf workload = workload := by
  obtain ⟨shape, hshape⟩ := startsWith_iff.mp h
  have hworkload : workload = memoryWorkloadPrefix ++ String.ofList shape := by
    rw [← String.toList_inj, String.toList_append, String.toList_ofList, hshape]
  rw [hworkload, shapeOf_append]

/-! ## The note of a cell -/

/-- A throughput cell's note starts as that of a series does only for its own series. -/
theorem startsWith_throughput {source label : String} {workload : String} {engine : Option String}
    (hsource : EngineName source) (hlabel : ']' ∉ label.toList)
    (hthroughput : isMemoryWorkload label = false) (hengine : EngineName (orValkey engine))
    (hworkload : ']' ∉ workload.toList) (reason : String) :
    startsWith
        ("[cachecannon-sweep-v3:" ++ source ++ "/" ++ (sourcePrefix source ++ label) ++ "] " ++ reason)
        (notePrefix workload engine) = true ↔
      label = workload ∧ source = orValkey engine := by
  rw [startsWith_iff, notePrefix]
  by_cases hmemory : isMemoryWorkload workload = true
  · rw [if_pos hmemory]
    refine iff_of_false (fun h => ?_) ?_
    · simp only [String.toList_append, List.append_assoc] at h
      -- the tags differ in their second character
      have hsecond := (List.cons_prefix_cons.mp (List.cons_prefix_cons.mp h).2).1
      revert hsecond
      decide
    · rintro ⟨rfl, -⟩
      rw [hthroughput] at hmemory
      cases hmemory
  · rw [if_neg hmemory, seriesLabel_eq]
    have hown : ']' ∉ (sourcePrefix source ++ label).toList := by
      rw [String.toList_append, List.mem_append, not_or]
      exact ⟨bracket_not_mem_sourcePrefix hsource.bracket, hlabel⟩
    have hother : ']' ∉ (sourcePrefix (orValkey engine) ++ workload).toList := by
      rw [String.toList_append, List.mem_append, not_or]
      exact ⟨bracket_not_mem_sourcePrefix hengine.bracket, hworkload⟩
    generalize hl : sourcePrefix source ++ label = ownLabel at hown
    generalize hw : sourcePrefix (orValkey engine) ++ workload = otherLabel at hother
    have hslash : "/".toList = ['/'] := rfl
    have hclose : "]".toList = [']'] := rfl
    have hspace : "] ".toList = [']', ' '] := rfl
    simp only [String.toList_append, List.append_assoc, hslash, hclose, hspace, List.cons_append,
      List.nil_append]
    -- the source ends at the slash, the label at the bracket
    rw [List.prefix_append_right_inj, delimited_prefix_iff hsource.slash hengine.slash,
      delimited_prefix_iff hown hother, String.toList_inj, String.toList_inj, ← hl, ← hw]
    constructor
    · rintro ⟨hsame, hlabels, -⟩
      rw [hsame] at hlabels
      exact ⟨((String.append_right_inj _).mp hlabels).symm, hsame.symm⟩
    · rintro ⟨rfl, hsame⟩
      exact ⟨hsame.symm, by rw [hsame], List.nil_prefix⟩

/-- A memory cell's note starts as that of a series does only for its own shape. -/
theorem startsWith_memory {shape workload : String} {engine : Option String}
    (hshape : ']' ∉ shape.toList) (hworkload : ']' ∉ workload.toList) (reason : String) :
    startsWith ("[memory-sweep:" ++ shape ++ "] " ++ reason) (notePrefix workload engine) = true ↔
      memoryWorkloadPrefix ++ shape = workload := by
  rw [startsWith_iff, notePrefix]
  by_cases hmemory : isMemoryWorkload workload = true
  · have hother : ']' ∉ (shapeOf workload).toList := by
      rw [← append_shapeOf hmemory, String.toList_append, List.mem_append, not_or] at hworkload
      exact hworkload.2
    have hclose : "]".toList = [']'] := rfl
    have hspace : "] ".toList = [']', ' '] := rfl
    rw [if_pos hmemory]
    simp only [String.toList_append, List.append_assoc, hclose, hspace, List.cons_append,
      List.nil_append]
    rw [List.prefix_append_right_inj, delimited_prefix_iff hshape hother, String.toList_inj]
    constructor
    · rintro ⟨rfl, -⟩
      exact append_shapeOf hmemory
    · rintro rfl
      exact ⟨shapeOf_append shape, List.nil_prefix⟩
  · rw [if_neg hmemory]
    refine iff_of_false (fun h => ?_) ?_
    · simp only [String.toList_append, List.append_assoc] at h
      have hsecond := (List.cons_prefix_cons.mp (List.cons_prefix_cons.mp h).2).1
      revert hsecond
      decide
    · rintro rfl
      exact hmemory (isMemoryWorkload_append shape)

/-! ## What is cleared is the coordinator's own -/

namespace SeriesCoordinator

variable {δ : Type} {s : SeriesCoordinator} {config : TaskConfig} {datetime : DatetimeClass δ}
  {commit reason workload : String} {engine : Option String} {now : δ} {task : TaskData δ}

/-- The note `_create_task` writes. -/
def note (s : SeriesCoordinator) (reason : String) : String :=
  match s with
  | throughput c _ _ =>
    "[cachecannon-sweep-v3:" ++ c.sweepSource ++ "/" ++ c.label ++ "] " ++ reason
  | memory m => "[memory-sweep:" ++ m.workload.label ++ "] " ++ reason

/-- A queued cell has the note and the source its coordinator gave it. -/
theorem taskFields_cell (h : s.createTask config commit reason now = .ok task) :
    taskFields (some (.obj (task.fileDocument datetime))) =
      .ok (some (s.note reason), some s.source) := by
  have hfields : Json.lookup (task.fileDocument datetime) "note" = some (.str (s.note reason)) ∧
      Json.lookup (task.fileDocument datetime) "source" = some (.str s.source) := by
    cases s with
    | throughput c label built =>
      obtain ⟨built, hbuilt, htask⟩ := except_bind_ok.mp h
      cases htask
      have hcls : config.cachecannonTaskData ∈ config.registered := List.mem_cons_self
      exact ⟨TaskData.lookup_fileDocument hcls hbuilt _ rfl (of_decide_eq_true rfl) (by decide),
        TaskData.lookup_fileDocument hcls hbuilt _ rfl (of_decide_eq_true rfl) (by decide)⟩
    | memory m =>
      obtain ⟨built, hbuilt, htask⟩ := except_bind_ok.mp h
      cases htask
      have hcls : config.memTaskData ∈ config.registered :=
        List.mem_cons_of_mem _ List.mem_cons_self
      exact ⟨TaskData.lookup_fileDocument hcls hbuilt _ rfl (of_decide_eq_true rfl) (by decide),
        TaskData.lookup_fileDocument hcls hbuilt _ rfl (of_decide_eq_true rfl) (by decide)⟩
  rw [taskFields, Json.getD, Json.getD, hfields.1, hfields.2]
  rfl

theorem orValkey_of_nonempty {source : String} (h : source ≠ "") :
    orValkey (some source) = source :=
  if_neg h

/-- The label a throughput coordinator keeps is that of its series. -/
theorem label_eq {c : CoordinatorV3} {label : String}
    (built : c.label = enginePrefix c.engine ++ label) :
    c.label = sourcePrefix c.sweepSource ++ label := by
  rw [built, enginePrefix_eq]
  rfl

/-- `state_file_for` of its own series is the coordinator's state file. -/
theorem stateFileFor_own (dirs : StateDirs) (hnamed : s.Named) (howns : s.Owns workload engine) :
    stateFileFor dirs workload engine none = s.stateFile dirs := by
  obtain ⟨hworkload, hsource⟩ := howns
  subst hworkload
  cases s with
  | throughput c label built =>
    have hkind : isMemoryWorkload label = false := hnamed.throughput c label built rfl
    show stateFileFor dirs label engine none = c.stateFile dirs
    have hown : seriesLabel label engine = c.label := by
      rw [label_eq built, seriesLabel_eq, ← hsource]
      rfl
    rw [stateFileFor, CoordinatorV3.stateFile, defaultStateDir, hkind, hown]
    rfl
  | memory m =>
    show stateFileFor dirs (memoryWorkloadPrefix ++ m.workload.label) engine none =
      m.workload.stateFileForEngine dirs m.engine
    have hown :
        seriesLabel m.workload.label engine = enginePrefix m.engine ++ m.workload.label := by
      rw [seriesLabel_eq, ← hsource, enginePrefix_eq]
      rfl
    rw [stateFileFor, MemoryWorkload.stateFileForEngine, defaultStateDir,
      isMemoryWorkload_append, shapeOf_append, hown, String.append_assoc]
    rfl

/-- The note of a cell starts as that of a series only for the series of its
coordinator, as far as the note tells the engines apart. -/
theorem startsWith_note (hnamed : s.Named) (hengine : EngineName (orValkey engine))
    (hworkload : ']' ∉ workload.toList) (reason : String) :
    startsWith (s.note reason) (notePrefix workload engine) = true ↔
      s.workload = workload ∧ (isMemoryWorkload workload = false → s.source = orValkey engine) := by
  cases s with
  | throughput c label built =>
    have hkind : isMemoryWorkload label = false := hnamed.throughput c label built rfl
    show startsWith ("[cachecannon-sweep-v3:" ++ c.sweepSource ++ "/" ++ c.label ++ "] " ++ reason)
      (notePrefix workload engine) = true ↔
        label = workload ∧ (isMemoryWorkload workload = false → c.sweepSource = orValkey engine)
    have hsource : EngineName c.sweepSource := hnamed.engine
    have hlabel : ']' ∉ label.toList := hnamed.bracket
    rw [label_eq built, startsWith_throughput hsource hlabel hkind hengine hworkload]
    -- the note of a throughput cell names the engine, that of a memory cell does not
    refine and_congr_right fun hsame => ?_
    rw [← hsame, hkind]
    exact ⟨fun h _ => h, fun h => h rfl⟩
  | memory m =>
    have hshape : ']' ∉ m.workload.label.toList := by
      intro hmem
      refine hnamed.bracket ?_
      show ']' ∈ (memoryWorkloadPrefix ++ m.workload.label).toList
      rw [String.toList_append]
      exact List.mem_append_right _ hmem
    show startsWith ("[memory-sweep:" ++ m.workload.label ++ "] " ++ reason)
      (notePrefix workload engine) = true ↔ memoryWorkloadPrefix ++ m.workload.label = workload ∧
        (isMemoryWorkload workload = false → m.sweepSource = orValkey engine)
    rw [startsWith_memory hshape hworkload]
    refine ⟨fun hsame => ⟨hsame, fun hkind => ?_⟩, And.left⟩
    rw [← hsame, isMemoryWorkload_append] at hkind
    cases hkind

/-- **`reset_series` clears the series of the coordinator and no other: the state file is
that of the coordinator, and a cell a coordinator queued is moved away exactly when the
coordinator is the one of the workload and the engine.** -/
theorem reset_own_iff (dirs : StateDirs) (hnamed : s.Named) (hengine : EngineName (orValkey engine))
    (hworkload : ']' ∉ workload.toList)
    (hcell : s.createTask config commit reason now = .ok task) :
    (s.Owns workload engine → stateFileFor dirs workload engine none = s.stateFile dirs) ∧
      taskBelongsToSeries (some (.obj (task.fileDocument datetime))) workload engine =
        .ok (decide (s.Owns workload engine)) := by
  refine ⟨stateFileFor_own dirs hnamed, ?_⟩
  have hnote := startsWith_note hnamed hengine hworkload reason
  rw [taskBelongsToSeries, taskFields_cell hcell]
  by_cases hstart : startsWith (s.note reason) (notePrefix workload engine) = true
  · obtain ⟨hsame, hthroughput⟩ := hnote.mp hstart
    by_cases hmemory : isMemoryWorkload workload = true
    · -- a memory note does not name the engine, and the task's source is compared
      have howns : s.Owns workload engine ↔ orValkey (some s.source) = orValkey engine := by
        rw [orValkey_of_nonempty hnamed.engine.nonempty]
        exact ⟨And.right, fun h => ⟨hsame, h⟩⟩
      simp [hstart, hmemory, howns, bind, Except.bind, pure, Except.pure]
    · have howns : s.Owns workload engine := ⟨hsame, hthroughput (by simpa using hmemory)⟩
      simp [hstart, hmemory, howns, bind, Except.bind, pure, Except.pure]
  -- another note: the task's source is not looked at
  · have howns : ¬ s.Owns workload engine := fun h => hstart (hnote.mpr ⟨h.1, fun _ => h.2⟩)
    simp [hstart, howns, bind, Except.bind, pure, Except.pure]

/-! ### Names with a separator in them -/

open CoordinatorV3 (getSeries oneCommit)

def stateDirs : StateDirs := ⟨"sweep_data", "sweep_data/v3"⟩

/-- GET throughput with some label. -/
def labelled (label : String) : SeriesCoordinator :=
  .throughput { getSeries with label := label } label (String.empty_append (s := label)).symm

theorem labelled_named : (labelled "get-k16-v16-t7-p10").Named where
  engine := ⟨by decide, by decide, by decide⟩
  bracket := by decide
  throughput := by
    rintro c label built h
    cases h
    decide

/-- The next cell of the series is cleared with it. -/
theorem labelled_cleared : ∃ task : TaskData Unit,
    (labelled "get-k16-v16-t7-p10").createTask TaskData.oneRepo oneCommit "new" () = .ok task ∧
      stateFileFor stateDirs "get-k16-v16-t7-p10" none none =
        (labelled "get-k16-v16-t7-p10").stateFile stateDirs ∧
      taskBelongsToSeries (some (.obj (task.fileDocument TaskData.oneDay))) "get-k16-v16-t7-p10"
        none = .ok true := by
  have hsome : ((labelled "get-k16-v16-t7-p10").createTask TaskData.oneRepo oneCommit "new"
      ()).toOption.isSome = true := by decide +kernel
  obtain ⟨task, htask⟩ := Option.isSome_iff_exists.mp hsome
  have hcell := except_toOption_some.mp htask
  have hengine : EngineName (orValkey none) := ⟨by decide, by decide, by decide⟩
  have hworkload : ']' ∉ "get-k16-v16-t7-p10".toList := by decide
  obtain ⟨hfile, hbelongs⟩ :=
    @reset_own_iff Unit _ _ TaskData.oneDay _ _ _ _ _ task stateDirs labelled_named hengine
      hworkload hcell
  have howns : (labelled "get-k16-v16-t7-p10").Owns "get-k16-v16-t7-p10" none := ⟨rfl, rfl⟩
  exact ⟨task, hcell, hfile howns, hbelongs.trans (by rw [decide_eq_true howns])⟩

/-- A throughput label that starts as the memory series do is looked for among them, and
the cells of a label with a bracket in it are moved away with those of a shorter one. -/
theorem labelled_confused :
    ((labelled "memory-get").Owns "memory-get" none ∧
      stateFileFor stateDirs "memory-get" none none ≠ (labelled "memory-get").stateFile stateDirs) ∧
    ∃ task : TaskData Unit,
      (labelled "get] p10").createTask TaskData.oneRepo oneCommit "new" () = .ok task ∧
      ¬ (labelled "get] p10").Owns "get" none ∧
      taskBelongsToSeries (some (.obj (task.fileDocument TaskData.oneDay))) "get" none =
        .ok true := by
  refine ⟨⟨⟨rfl, rfl⟩, by decide⟩, ?_⟩
  have hsome : ((labelled "get] p10").createTask TaskData.oneRepo oneCommit "new"
      ()).toOption.isSome = true := by decide +kernel
  obtain ⟨task, htask⟩ := Option.isSome_iff_exists.mp hsome
  have hcell := except_toOption_some.mp htask
  refine ⟨task, hcell, by decide, ?_⟩
  rw [taskBelongsToSeries, taskFields_cell hcell]
  decide

end SeriesCoordinator

end Conductress.Sweep
