import Mathlib.Data.List.MinMax
import Mathlib.Data.String.Basic
import Conductress.Lib.Transition
import Conductress.Queue.TaskDocument

/-!
# Submitting to a queue that is being read

`submit_task` opens its file for writing and fills it afterwards; `get_next_task`
takes a file it cannot load for one that nobody can run, and sets it aside. The
steps of both are interleaved here as their processes interleave them: the file
is there from `create` on, every `write` may leave it incomplete, and between
`get_next_task`'s listing, its read, its look whether the file is still there and
its `unlink` or `rename` anything may happen.

A read that finds the file incomplete loses the task for good
(`truncated_read_parks`). `submitted_or_returned` says that such reads are the
only way to lose one, and how long a task waits otherwise.
-/

namespace Conductress.Submission

open Lib

/-- The text a task is saved as, and what is loaded from a text: the task from
all of it, and a `ValueError` from less. -/
structure TaskText (α β : Type) where
  fileName    : α → String
  text        : α → List Char
  value       : α → β
  load        : List Char → Except PyError β
  load_text   : ∀ t, load (text t) = .ok (value t)
  load_prefix : ∀ t n, n < (text t).length →
    ∃ message, load ((text t).take n) = .error (.valueError message)

/-- `json.dump` and `json.load`; `none` is a `JSONDecodeError`. -/
structure JsonText where
  dumps : Json → List Char
  loads : List Char → Option Json

/-- A task a submission can save: its document is that of a loadable task under
a valid id or none, it survives its text, and less than the text is no JSON. -/
structure Saved {δ : Type} (json : JsonText) (datetime : DatetimeClass δ) (config : TaskConfig) where
  task        : TaskData δ
  loadable    : task.Loadable config
  valid       : TaskClasses.overrideId (TaskData.idArgument task.override) = .ok task.override
  loads_dumps : json.loads (json.dumps (.obj (task.fileDocument datetime))) =
    some (.obj (task.fileDocument datetime))
  truncated   : ∀ n < (json.dumps (.obj (task.fileDocument datetime))).length,
    json.loads ((json.dumps (.obj (task.fileDocument datetime))).take n) = none

/-- `from_file` on the text of a file. -/
def loadText {δ : Type} (json : JsonText) (datetime : DatetimeClass δ) (config : TaskConfig)
    (content : List Char) : Except PyError (TaskData δ) :=
  match json.loads content with
  | none => .error (.valueError "Invalid JSON in file")
  | some document => TaskData.fromFile datetime config (fun _ => some document) ""

/-- The texts of the tasks of a queue. -/
def taskText {δ : Type} (json : JsonText) (datetime : DatetimeClass δ) (config : TaskConfig) :
    TaskText (Saved json datetime config) (TaskData δ) where
  fileName t := TaskData.taskFile (t.task.taskId datetime)
  text t := json.dumps (.obj (t.task.fileDocument datetime))
  value t := t.task
  load := loadText json datetime config
  load_text t := by
    rw [loadText, t.loads_dumps]
    exact t.loadable.fromFile_document t.valid rfl
  load_prefix t n hn := by
    refine ⟨"Invalid JSON in file", ?_⟩
    rw [loadText, t.truncated n hn]

/-- Where a file is found. -/
inductive Place where
  | visible
  /-- Under its name with `.unsupported` appended. -/
  | parked
  | unlinked
  deriving DecidableEq

/-- A submitted file: how much of its text has been written. -/
structure QueueFile (α : Type) where
  task    : α
  written : ℕ
  place   : Place

/-- Where `get_next_task` is. -/
inductive Reader where
  | idle
  /-- It has listed the directory and opens the first file next. -/
  | chosen (file : String)
  /-- The file could not be read: it was not there, or did not load. -/
  | failed (file : String) (missing : Bool)
  /-- The file is there, and is unlinked or renamed next. -/
  | removing (file : String) (missing : Bool)
  deriving DecidableEq

structure QueueState (α β : Type) where
  files    : List (QueueFile α)
  reader   : Reader
  /-- What `get_next_task` returned so far. -/
  returned : List (String × β)
  /-- The files `get_all_tasks` has still to open, and what it has loaded. -/
  toList   : List String
  listed   : List β

inductive Event (α : Type) where
  /-- `filepath.open("w")`. -/
  | create (t : α)
  /-- `n` more characters reach the file. -/
  | write (file : String) (n : ℕ)
  /-- `sorted(queue_dir.glob("task_*.json"))[0]`. -/
  | glob
  /-- `BaseTaskData.from_file`. -/
  | read
  /-- `task_file.exists()`. -/
  | look
  /-- `task_file.unlink()` or `task_file.rename(parked)`. -/
  | remove
  /-- `finish_task` of a task that was returned. -/
  | finish (file : String)
  /-- `get_all_tasks`: the listing, and the read of one file. -/
  | listGlob
  | listRead

variable {α β : Type} (text : TaskText α β)

namespace QueueFile

def name (q : QueueFile α) : String := text.fileName q.task

/-- What a read of the file finds. -/
def content (q : QueueFile α) : List Char := (text.text q.task).take q.written

/-- The submission has finished. -/
def Complete (q : QueueFile α) : Prop := (text.text q.task).length ≤ q.written

/-- The file is in the directory under this name. -/
def isAt (file : String) (q : QueueFile α) : Bool :=
  decide (q.place = .visible ∧ q.name text = file)

end QueueFile

namespace QueueState

def init : QueueState α β := ⟨[], .idle, [], [], []⟩

/-- The names `glob` gives. -/
def visibleNames (s : QueueState α β) : List String :=
  (s.files.filter fun q => decide (q.place = .visible)).map (QueueFile.name text)

/-- The file under a name. -/
def lookup (s : QueueState α β) (file : String) : Option (QueueFile α) :=
  s.files.find? (QueueFile.isAt text file)

/-- The directory entry of a name goes elsewhere. -/
def move (s : QueueState α β) (file : String) (place : Place) : List (QueueFile α) :=
  s.files.map fun q => if q.isAt text file then { q with place } else q

/-- One step of one of the processes; `none` where it cannot be taken. -/
def step (s : QueueState α β) : Event α → Option (QueueState α β)
  | .create t =>
    -- the ids of submissions are distinct
    if (s.files.map (QueueFile.name text)).contains (text.fileName t) then none
    else some { s with files := s.files ++ [⟨t, 0, .visible⟩] }
  | .write file n =>
    -- through the open file, wherever its name has gone
    some { s with
      files := s.files.map fun q =>
        if q.name text = file then { q with written := q.written + n } else q }
  | .glob =>
    match s.reader with
    | .idle =>
      match (s.visibleNames text).argmin id with
      | some file => some { s with reader := .chosen file }
      | none => some s
    | _ => none
  | .read =>
    match s.reader with
    | .chosen file =>
      match s.lookup text file with
      | none => some { s with reader := .failed file true }
      | some q =>
        match text.load (q.content text) with
        | .ok value => some { s with reader := .idle, returned := s.returned ++ [(file, value)] }
        | .error (.valueError _) => some { s with reader := .failed file false }
        | .error _ => some { s with reader := .idle }
    | _ => none
  | .look =>
    match s.reader with
    | .failed file missing =>
      if (s.lookup text file).isSome then some { s with reader := .removing file missing }
      else some { s with reader := .idle }
    | _ => none
  | .remove =>
    match s.reader with
    | .removing file missing =>
      some { s with
        reader := .idle
        files  := s.move text file (if missing then .unlinked else .parked) }
    | _ => none
  | .finish file =>
    if s.reader = .idle ∧ file ∈ s.returned.map Prod.fst then
      some { s with files := s.move text file .unlinked }
    else none
  | .listGlob => some { s with toList := s.visibleNames text, listed := [] }
  | .listRead =>
    match s.toList with
    | [] => none
    | file :: rest =>
      match (s.lookup text file).map fun q => text.load (q.content text) with
      | some (.ok value) => some { s with toList := rest, listed := s.listed ++ [value] }
      | none | some (.error (.valueError _)) => some { s with toList := rest }
      | some (.error _) => some { s with toList := [], listed := [] }

end QueueState

/-! ## What a step can do -/

/-- What becomes of the files, of the reader and of what was returned. -/
inductive Step (s : QueueState α β) : Event α → QueueState α β → Prop
  | create {t : α} : text.fileName t ∉ s.files.map (QueueFile.name text) →
      Step s (.create t) { s with files := s.files ++ [⟨t, 0, .visible⟩] }
  | write (file : String) (n : ℕ) :
      Step s (.write file n) { s with
        files :=
          s.files.map fun q => if q.name text = file then { q with written := q.written + n } else q }
  | globFirst {file : String} : s.reader = .idle → (s.visibleNames text).argmin id = some file →
      Step s .glob { s with reader := .chosen file }
  | globEmpty : s.visibleNames text = [] → Step s .glob s
  | readMissing {file : String} : s.reader = .chosen file → s.lookup text file = none →
      Step s .read { s with reader := .failed file true }
  | readLoads {file : String} {q : QueueFile α} {value : β} : s.reader = .chosen file →
      s.lookup text file = some q → text.load (q.content text) = .ok value →
      Step s .read { s with reader := .idle, returned := s.returned ++ [(file, value)] }
  | readFails {file : String} {q : QueueFile α} {e : PyError} {reader : Reader} :
      s.reader = .chosen file → s.lookup text file = some q →
      text.load (q.content text) = .error e → reader = .idle ∨ reader = .failed file false →
      Step s .read { s with reader }
  | look {file : String} {missing : Bool} {reader : Reader} : s.reader = .failed file missing →
      reader = .idle ∨ reader = .removing file missing → Step s .look { s with reader }
  | remove {file : String} {missing : Bool} : s.reader = .removing file missing →
      Step s .remove { s with
        reader := .idle, files := s.move text file (if missing then .unlinked else .parked) }
  | finish {file : String} : s.reader = .idle → file ∈ s.returned.map Prod.fst →
      Step s (.finish file) { s with files := s.move text file .unlinked }
  | list {e : Event α} (toList : List String) (listed : List β) : e = .listGlob ∨ e = .listRead →
      Step s e { s with toList, listed }

variable {text} {s s' : QueueState α β} {e : Event α}

theorem step_cases (h : s.step text e = some s') : Step text s e s' := by
  rcases e with t | ⟨file, n⟩ | _ | _ | _ | _ | file | _ | _ <;> simp only [QueueState.step] at h
  case create =>
    split at h
    · cases h
    · next hfresh =>
      cases h
      exact .create (by simpa using hfresh)
  case write =>
    cases h
    exact .write file n
  case glob =>
    split at h
    · next hidle =>
      split at h
      · next file hfile =>
        cases h
        exact .globFirst hidle hfile
      · next hnone =>
        cases h
        exact .globEmpty (List.argmin_eq_none.mp hnone)
    · cases h
  case read =>
    split at h
    · next file hchosen =>
      split at h
      · next hmissing =>
        cases h
        exact .readMissing hchosen hmissing
      · next q hq =>
        split at h
        · next value hload =>
          cases h
          exact .readLoads hchosen hq hload
        · next message hload =>
          cases h
          exact .readFails hchosen hq hload (.inr rfl)
        · next e _ hload =>
          cases h
          exact .readFails hchosen hq hload (.inl rfl)
    · cases h
  case look =>
    split at h
    · next file missing hfailed =>
      split at h
      · cases h
        exact .look hfailed (.inr rfl)
      · cases h
        exact .look hfailed (.inl rfl)
    · cases h
  case remove =>
    split at h
    · next file missing hremoving =>
      cases h
      exact .remove hremoving
    · cases h
  case finish =>
    split at h
    · next hfinish =>
      cases h
      exact .finish hfinish.1 hfinish.2
    · cases h
  case listGlob =>
    cases h
    exact .list _ _ (.inl rfl)
  case listRead =>
    split at h
    · cases h
    · split at h <;> (cases h; exact .list _ _ (.inr rfl))

/-! ## Names -/

/-- The names that were ever submitted. -/
def QueueState.names (text : TaskText α β) (s : QueueState α β) : List String :=
  s.files.map (QueueFile.name text)

theorem eq_of_name (hdistinct : (s.names text).Nodup) {q q' : QueueFile α} (hq : q ∈ s.files)
    (hq' : q' ∈ s.files) (hname : q.name text = q'.name text) : q = q' :=
  List.inj_on_of_nodup_map hdistinct hq hq' hname

theorem lookup_some {file : String} {q : QueueFile α} (h : s.lookup text file = some q) :
    q ∈ s.files ∧ q.place = .visible ∧ q.name text = file := by
  have hat : q.isAt text file = true := List.find?_some h
  exact ⟨List.mem_of_find?_eq_some h, of_decide_eq_true hat⟩

theorem lookup_of_mem (hdistinct : (s.names text).Nodup) {q : QueueFile α} (hq : q ∈ s.files)
    (hvisible : q.place = .visible) : s.lookup text (q.name text) = some q := by
  have hsome : (s.lookup text (q.name text)).isSome := by
    rw [QueueState.lookup, List.find?_isSome]
    exact ⟨q, hq, decide_eq_true ⟨hvisible, rfl⟩⟩
  obtain ⟨q', hq'⟩ := Option.isSome_iff_exists.mp hsome
  obtain ⟨hmem, -, hname⟩ := lookup_some hq'
  rw [hq', eq_of_name hdistinct hmem hq hname]

theorem mem_visibleNames {file : String} :
    file ∈ s.visibleNames text ↔ ∃ q ∈ s.files, q.place = .visible ∧ q.name text = file := by
  simp [QueueState.visibleNames, and_assoc]

/-- What keeps the task of every file keeps the names. -/
theorem names_map {f : QueueFile α → QueueFile α} (hf : ∀ q, (f q).task = q.task) :
    (s.files.map f).map (QueueFile.name text) = s.names text := by
  rw [List.map_map, QueueState.names]
  apply List.map_congr_left
  intro q _
  exact congrArg text.fileName (hf q)

theorem task_move (file : String) (place : Place) (q : QueueFile α) :
    (if q.isAt text file then { q with place } else q).task = q.task := by
  split <;> rfl

theorem task_write (file : String) (n : ℕ) (q : QueueFile α) :
    (if q.name text = file then { q with written := q.written + n } else q).task = q.task := by
  split <;> rfl

/-- A file keeps its name, and no two submissions share one. -/
theorem step_distinct (h : Step text s e s') (hdistinct : (s.names text).Nodup) :
    (s'.names text).Nodup := by
  rcases h with hfresh | ⟨file, n⟩ | _ | _ | _ | _ | _ | _ | _ | _ | _
  case create t =>
    rw [QueueState.names, List.map_append, List.nodup_append]
    refine ⟨hdistinct, List.nodup_singleton _, ?_⟩
    intro a ha b hb hab
    have hname : a = text.fileName t := hab.trans (List.mem_singleton.mp hb)
    exact hfresh (hname ▸ ha)
  case write =>
    rw [QueueState.names, names_map (task_write file n)]
    exact hdistinct
  case remove =>
    rw [QueueState.names, QueueState.move, names_map (task_move _ _)]
    exact hdistinct
  case finish =>
    rw [QueueState.names, QueueState.move, names_map (task_move _ _)]
    exact hdistinct
  all_goals exact hdistinct

/-- A file is somewhere for good. -/
theorem step_keeps (h : Step text s e s') {q : QueueFile α} (hq : q ∈ s.files) :
    ∃ q' ∈ s'.files, q'.task = q.task := by
  rcases h with _ | ⟨file, n⟩ | _ | _ | _ | _ | _ | _ | _ | _ | _
  case create => exact ⟨q, List.mem_append_left _ hq, rfl⟩
  case write => exact ⟨_, List.mem_map_of_mem hq, task_write file n q⟩
  case remove => exact ⟨_, List.mem_map_of_mem hq, task_move _ _ q⟩
  case finish => exact ⟨_, List.mem_map_of_mem hq, task_move _ _ q⟩
  all_goals exact ⟨q, hq, rfl⟩

/-! ## Runs without truncated reads -/

/-- The condition on a step: `get_next_task` opens no file that has not been
written to its end. -/
def Careful (text : TaskText α β) (s : QueueState α β) : Event α → Prop
  | .read => ∀ file q, s.reader = .chosen file → s.lookup text file = some q → q.Complete text
  | _ => True

/-- What holds as long as no read is truncated: a submitted file is in its
place, or was returned before it was removed, and the reader has opened no file
in vain. -/
structure Safe (text : TaskText α β) (s : QueueState α β) : Prop where
  distinct : (s.names text).Nodup
  kept     : ∀ q ∈ s.files, q.place = .visible ∨
    q.place = .unlinked ∧ (q.name text, text.value q.task) ∈ s.returned
  known    : ∀ r ∈ s.returned, ∃ q ∈ s.files, r = (q.name text, text.value q.task)
  reading  : s.reader = .idle ∨
    ∃ q ∈ s.files, q.place = .visible ∧ s.reader = .chosen (q.name text)

theorem Safe.init : Safe text QueueState.init where
  distinct := List.nodup_nil
  kept := by simp [QueueState.init]
  known := by simp [QueueState.init]
  reading := .inl rfl

theorem Safe.reader_ne (h : Safe text s) (file : String) (missing : Bool) :
    s.reader ≠ .failed file missing ∧ s.reader ≠ .removing file missing := by
  rcases h.reading with hidle | ⟨q, -, -, hread⟩
  · rw [hidle]
    exact ⟨nofun, nofun⟩
  · rw [hread]
    exact ⟨nofun, nofun⟩

/-- What the reader has chosen is there. -/
theorem Safe.lookup_chosen (h : Safe text s) {file : String} (hchosen : s.reader = .chosen file) :
    ∃ q, s.lookup text file = some q := by
  rcases h.reading with hidle | ⟨q, hq, hvisible, hread⟩
  · rw [hidle] at hchosen
    cases hchosen
  · rw [hread] at hchosen
    cases hchosen
    exact ⟨q, lookup_of_mem h.distinct hq hvisible⟩

/-- A complete file loads as its task. -/
theorem load_complete {q : QueueFile α} (h : q.Complete text) :
    text.load (q.content text) = .ok (text.value q.task) := by
  rw [QueueFile.content, List.take_of_length_le h]
  exact text.load_text q.task

/-- A change to the files that keeps their tasks and places keeps the rest. -/
theorem Safe.of_map (h : Safe text s) {f : QueueFile α → QueueFile α}
    (htask : ∀ q, (f q).task = q.task)
    (hplace : ∀ q ∈ s.files, (f q).place = q.place ∨
      (f q).place = .unlinked ∧ (q.name text, text.value q.task) ∈ s.returned)
    (hreading : s.reader ≠ .idle → ∀ q ∈ s.files, (f q).place = q.place)
    (hs' : s' = { s with files := s.files.map f }) : Safe text s' := by
  have hname : ∀ q, (f q).name text = q.name text := fun q => congrArg text.fileName (htask q)
  subst hs'
  refine ⟨?_, ?_, ?_, ?_⟩
  · rw [QueueState.names, names_map htask]
    exact h.distinct
  · intro q' hq'
    obtain ⟨q, hq, rfl⟩ := List.mem_map.mp hq'
    rw [hname, htask]
    rcases hplace q hq with hsame | hgone
    · rw [hsame]
      exact h.kept q hq
    · exact .inr hgone
  · intro r hr
    obtain ⟨q, hq, hr⟩ := h.known r hr
    exact ⟨f q, List.mem_map_of_mem hq, by rw [hname, htask]; exact hr⟩
  · rcases h.reading with hidle | ⟨q, hq, hvisible, hchosen⟩
    · exact .inl hidle
    · refine .inr ⟨f q, List.mem_map_of_mem hq, ?_, by rw [hname]; exact hchosen⟩
      rw [hreading (by rw [hchosen]; exact nofun) q hq]
      exact hvisible

/-- One step of a careful run. -/
theorem step_safe (h : Step text s e s') (hcareful : Careful text s e) (hs : Safe text s) :
    Safe text s' := by
  rcases h with hfresh | ⟨file, n⟩ | ⟨hidle, hfile⟩ | _ | ⟨hchosen, hmissing⟩ |
    ⟨hchosen, hq, hload⟩ | ⟨hchosen, hq, hload, -⟩ | ⟨hfailed, -⟩ | hremoving |
    ⟨hidle, hfile⟩ | ⟨toList, listed⟩
  case create t =>
    refine ⟨step_distinct (.create hfresh) hs.distinct, ?_, ?_, ?_⟩
    · intro q hq
      rcases List.mem_append.mp hq with hq | hq
      · exact hs.kept q hq
      · rw [List.mem_singleton.mp hq]
        exact .inl rfl
    · intro r hr
      obtain ⟨q, hq, hr⟩ := hs.known r hr
      exact ⟨q, List.mem_append_left _ hq, hr⟩
    · rcases hs.reading with hidle | ⟨q, hq, hread⟩
      · exact .inl hidle
      · exact .inr ⟨q, List.mem_append_left _ hq, hread⟩
  case write =>
    refine hs.of_map (task_write file n) (fun q _ => .inl ?_) (fun _ q _ => ?_) rfl <;>
      split <;> rfl
  case globFirst file =>
    obtain ⟨q, hq, hvisible, hname⟩ := mem_visibleNames.mp (List.argmin_mem hfile)
    exact ⟨hs.distinct, hs.kept, hs.known, .inr ⟨q, hq, hvisible, by rw [hname]⟩⟩
  case globEmpty => exact hs
  case readMissing =>
    obtain ⟨q, hq⟩ := hs.lookup_chosen hchosen
    rw [hmissing] at hq
    cases hq
  case readLoads file q value =>
    obtain ⟨hmem, -, hname⟩ := lookup_some hq
    rw [load_complete (hcareful file q hchosen hq)] at hload
    cases hload
    refine ⟨hs.distinct, ?_, ?_, .inl rfl⟩
    · intro q' hq'
      rcases hs.kept q' hq' with hvisible | ⟨hgone, hreturned⟩
      · exact .inl hvisible
      · exact .inr ⟨hgone, List.mem_append_left _ hreturned⟩
    · intro r hr
      rcases List.mem_append.mp hr with hr | hr
      · exact hs.known r hr
      · exact ⟨q, hmem, by rw [List.mem_singleton.mp hr, hname]⟩
  case readFails file q e reader =>
    rw [load_complete (hcareful file q hchosen hq)] at hload
    cases hload
  case look => exact absurd hfailed (hs.reader_ne _ _).1
  case remove => exact absurd hremoving (hs.reader_ne _ _).2
  case finish file =>
    refine hs.of_map (task_move file .unlinked) (fun q hq => ?_)
      (fun hbusy => absurd hidle hbusy) rfl
    by_cases hat : q.isAt text file = true
    · rw [if_pos hat]
      refine .inr ⟨rfl, ?_⟩
      -- the task returned under this name is that of the file
      obtain ⟨r, hr, hname⟩ := List.mem_map.mp hfile
      obtain ⟨q', hq', rfl⟩ := hs.known r hr
      have hat := of_decide_eq_true hat
      rw [eq_of_name hs.distinct hq hq' (hat.2.trans hname.symm)]
      exact hr
    · rw [if_neg hat]
      exact .inl rfl
  case list => exact ⟨hs.distinct, hs.kept, hs.known, hs.reading⟩

/-! ## How long a task waits -/

/-- `finish_task` has removed what was returned before the next task is asked
for. -/
def Serving (text : TaskText α β) (s : QueueState α β) : Event α → Prop
  | .glob => ∀ r ∈ s.returned, r.1 ∉ s.visibleNames text
  | _ => True

/-- The calls of `get_next_task` that complete. -/
def calls (es : List (Event α)) : ℕ := es.countP fun
  | .read => true
  | _ => false

/-- The submissions that sort before a name. -/
def overtaking (text : TaskText α β) (file : String) (es : List (Event α)) : ℕ := es.countP fun
  | .create t => decide (text.fileName t < file)
  | _ => false

/-- The files ahead of a name that have not been returned yet. -/
def QueueState.ahead (text : TaskText α β) (s : QueueState α β) (file : String) : ℕ :=
  s.files.countP fun q => decide (q.place = .visible ∧ q.name text < file ∧
    q.name text ∉ s.returned.map Prod.fst)

/-- A file that waits for its turn, and the reader on its way to it. -/
structure Waiting (text : TaskText α β) (s : QueueState α β) (file : String) : Prop where
  visible : file ∈ s.visibleNames text
  turn    : ∀ chosen, s.reader = .chosen chosen →
    chosen ≤ file ∧ chosen ∉ s.returned.map Prod.fst

/-- Files that stay where they are stay ahead of no more than before. -/
theorem ahead_map_le {f : QueueFile α → QueueFile α} (htask : ∀ q, (f q).task = q.task)
    (hplace : ∀ q, (f q).place = .visible → q.place = .visible) {file : String}
    (hs' : s' = { s with files := s.files.map f }) : s'.ahead text file ≤ s.ahead text file := by
  subst hs'
  rw [QueueState.ahead, QueueState.ahead, List.countP_map]
  apply List.countP_mono_left
  intro q _ hq
  obtain ⟨hvisible, hname⟩ := of_decide_eq_true hq
  rw [QueueFile.name, htask] at hname
  exact decide_eq_true ⟨hplace q hvisible, hname⟩

theorem countP_add_one_le {p p' : QueueFile α → Bool} {files : List (QueueFile α)}
    (hle : ∀ q ∈ files, p' q = true → p q = true) {q : QueueFile α} (hq : q ∈ files)
    (hbefore : p q = true) (hafter : p' q = false) : files.countP p' + 1 ≤ files.countP p := by
  induction files with
  | nil => cases hq
  | cons q' files ih =>
    rw [List.forall_mem_cons] at hle
    rw [List.countP_cons, List.countP_cons]
    rcases List.mem_cons.mp hq with rfl | hq
    · have hmono := List.countP_mono_left hle.2
      simp only [hbefore, hafter, if_true, Bool.false_eq_true, if_false]
      omega
    · have hrest := ih hle.2 hq
      by_cases hp' : p' q' = true
      · simp only [hp', hle.1 hp', if_true]
        omega
      · rw [if_neg hp']
        omega

theorem Waiting.of_map {file : String} (h : Waiting text s file) {f : QueueFile α → QueueFile α}
    (htask : ∀ q, (f q).task = q.task)
    (hplace : ∀ q, q.place = .visible → q.name text = file → (f q).place = .visible)
    (hs' : s' = { s with files := s.files.map f }) : Waiting text s' file := by
  subst hs'
  obtain ⟨q, hq, hvisible, hname⟩ := mem_visibleNames.mp h.visible
  refine ⟨mem_visibleNames.mpr ⟨f q, List.mem_map_of_mem hq, hplace q hvisible hname, ?_⟩, h.turn⟩
  rw [QueueFile.name, htask]
  exact hname

/-- **One step**: a completed call takes one file from those ahead. -/
theorem step_ahead (h : Step text s e s') (hcareful : Careful text s e) (hserving : Serving text s e)
    (hs : Safe text s) {file : String} (hwaiting : Waiting text s file)
    (hnot : file ∉ s'.returned.map Prod.fst) :
    Waiting text s' file ∧
      s'.ahead text file + calls [e] ≤ s.ahead text file + overtaking text file [e] := by
  rcases h with hfresh | ⟨name, n⟩ | ⟨hidle, hfirst⟩ | hempty | ⟨hchosen, hmissing⟩ |
    ⟨hchosen, hq, hload⟩ | ⟨hchosen, hq, hload, -⟩ | ⟨hfailed, -⟩ | hremoving |
    ⟨hidle, hdone⟩ | ⟨toList, listed⟩
  case create t =>
    refine ⟨⟨?_, hwaiting.turn⟩, ?_⟩
    · obtain ⟨q, hq, hvisible, hname⟩ := mem_visibleNames.mp hwaiting.visible
      exact mem_visibleNames.mpr ⟨q, List.mem_append_left _ hq, hvisible, hname⟩
    · simp only [QueueState.ahead, List.countP_append, List.countP_singleton, calls, overtaking]
      by_cases hbefore : text.fileName t < file
      · simp [hbefore]
        split <;> omega
      · simp [hbefore, QueueFile.name]
  case write =>
    refine ⟨hwaiting.of_map (task_write name n) (fun q hvisible _ => ?_) rfl,
      ahead_map_le (task_write name n) (fun q hvisible => ?_) rfl⟩
    · split <;> exact hvisible
    · split at hvisible <;> exact hvisible
  case globFirst first =>
    refine ⟨⟨hwaiting.visible, fun chosen hchosen => ?_⟩, le_refl _⟩
    cases hchosen
    refine ⟨List.le_of_mem_argmin hwaiting.visible hfirst, fun hreturned => ?_⟩
    obtain ⟨r, hr, hname⟩ := List.mem_map.mp hreturned
    exact hserving r hr (hname ▸ List.argmin_mem hfirst)
  case globEmpty => exact ⟨hwaiting, le_refl _⟩
  case readMissing =>
    obtain ⟨q, hq⟩ := hs.lookup_chosen hchosen
    rw [hmissing] at hq
    cases hq
  case readLoads chosen q value =>
    obtain ⟨hmem, hvisible, hname⟩ := lookup_some hq
    obtain ⟨hle, hnew⟩ := hwaiting.turn chosen hchosen
    have hlt : chosen < file := by
      refine lt_of_le_of_ne hle fun he => hnot ?_
      rw [he]
      simp
    refine ⟨⟨hwaiting.visible, fun _ hidle => by cases hidle⟩, ?_⟩
    -- the file that was read is no longer among those ahead
    refine countP_add_one_le (fun q' _ hq' => ?_) hmem (decide_eq_true ?_) (decide_eq_false ?_)
    · obtain ⟨hvisible', hlt', hnot'⟩ := of_decide_eq_true hq'
      refine decide_eq_true ⟨hvisible', hlt', fun hmem' => hnot' ?_⟩
      rw [List.map_append]
      exact List.mem_append_left _ hmem'
    · rw [hname]
      exact ⟨hvisible, hlt, hnew⟩
    · rintro ⟨-, -, hnot'⟩
      rw [hname] at hnot'
      exact hnot' (by simp)
  case readFails chosen q e reader =>
    rw [load_complete (hcareful chosen q hchosen hq)] at hload
    cases hload
  case look => exact absurd hfailed (hs.reader_ne _ _).1
  case remove => exact absurd hremoving (hs.reader_ne _ _).2
  case finish done =>
    have hne : file ≠ done := fun he => hnot (he ▸ hdone)
    refine ⟨hwaiting.of_map (task_move done .unlinked) (fun q hvisible hname => ?_) rfl,
      ahead_map_le (task_move done .unlinked) (fun q hvisible => ?_) rfl⟩
    · have hat : ¬ q.isAt text done = true := fun hat => hne (hname ▸ (of_decide_eq_true hat).2)
      rw [if_neg hat]
      exact hvisible
    · split at hvisible
      · cases hvisible
      · exact hvisible
  case list hlist =>
    refine ⟨⟨hwaiting.visible, hwaiting.turn⟩, ?_⟩
    rcases hlist with rfl | rfl <;> exact le_refl _

/-! ## Whole runs -/

/-- A step of a run without truncated reads. -/
def CarefulStep (text : TaskText α β) (a : QueueState α β) (e : Event α) (b : QueueState α β) :
    Prop :=
  a.step text e = some b ∧ Careful text a e

theorem Safe.of_run {es : List (Event α)} (h : Run (CarefulStep text) s es s')
    (hs : Safe text s) : Safe text s' :=
  h.invariant _ hs fun _ _ _ hstep => step_safe (step_cases hstep.1) hstep.2

theorem returned_mono {es : List (Event α)}
    (h : Run (fun a e b => a.step text e = some b) s es s') {r : String × β}
    (hr : r ∈ s.returned) : r ∈ s'.returned := by
  refine h.invariant (fun s => r ∈ s.returned) hr fun a e b hstep ha => ?_
  rcases step_cases hstep
  case readLoads => exact List.mem_append_left _ ha
  all_goals exact ha

theorem run_keeps {es : List (Event α)} (h : Run (fun a e b => a.step text e = some b) s es s')
    {q : QueueFile α} (hq : q ∈ s.files) : ∃ q' ∈ s'.files, q'.task = q.task := by
  refine h.invariant (fun s => ∃ q' ∈ s.files, q'.task = q.task) ⟨q, hq, rfl⟩ fun a e b hstep ha => ?_
  obtain ⟨q', hq', htask⟩ := ha
  obtain ⟨q'', hq'', htask'⟩ := step_keeps (step_cases hstep) hq'
  exact ⟨q'', hq'', htask'.trans htask⟩

/-- A run keeps the accounts of every step: the calls it completes are paid for
by the files ahead. -/
theorem run_ahead {es : List (Event α)} {file : String}
    (h : Run (fun a e b => CarefulStep text a e b ∧ Serving text a e) s es s') (hs : Safe text s)
    (hwaiting : Waiting text s file) (hnot : file ∉ s'.returned.map Prod.fst) :
    Waiting text s' file ∧
      s'.ahead text file + calls es ≤ s.ahead text file + overtaking text file es := by
  induction h with
  | refl => exact ⟨hwaiting, le_refl _⟩
  | @snoc a b es e hrun hstep ih =>
    have hsafe : Safe text a := Safe.of_run (hrun.monotone fun _ _ _ h => h.1) hs
    have hnot' : file ∉ a.returned.map Prod.fst := by
      intro hmem
      obtain ⟨r, hr, rfl⟩ := List.mem_map.mp hmem
      have hlast : r ∈ b.returned := returned_mono (Run.single hstep.1.1) hr
      exact hnot (List.mem_map_of_mem hlast)
    obtain ⟨hwaiting', hle⟩ := ih hnot'
    obtain ⟨hnext, hle'⟩ :=
      step_ahead (step_cases hstep.1.1) hstep.1.2 hstep.2 hsafe hwaiting' hnot
    refine ⟨hnext, ?_⟩
    rw [calls, overtaking, List.countP_append, List.countP_append]
    rw [calls, overtaking] at hle hle'
    omega

/-- **As long as no read is truncated, a submitted task is in the queue or was
returned**; the task it waits behind is returned by every call that is made, and
so it is returned itself after as many calls as there are files ahead of it. -/
theorem submitted_or_returned {es : List (Event α)} (h : Run (CarefulStep text) .init es s) :
    (∀ q ∈ s.files, q.place = .visible ∨
      q.place = .unlinked ∧ (q.name text, text.value q.task) ∈ s.returned) ∧
    (s.reader = .idle → ∀ first q, (s.visibleNames text).argmin id = some first →
      s.lookup text first = some q → q.Complete text →
      ∃ s₁ s₂, s.step text .glob = some s₁ ∧ s₁.step text .read = some s₂ ∧
        s₂.returned = s.returned ++ [(first, text.value q.task)]) ∧
    (s.reader = .idle → ∀ q ∈ s.files, ∀ es' s',
      Run (fun a e b => CarefulStep text a e b ∧ Serving text a e) s es' s' →
      (q.name text, text.value q.task) ∉ s'.returned →
      calls es' ≤ s.ahead text (q.name text) + overtaking text (q.name text) es') := by
  have hs := Safe.of_run h Safe.init
  refine ⟨hs.kept, fun hidle first q hfirst hq hcomplete => ?_, fun hidle q hq es' s' hrun hnot => ?_⟩
  · refine ⟨{ s with reader := .chosen first },
      { s with reader := .idle, returned := s.returned ++ [(first, text.value q.task)] }, ?_, ?_, rfl⟩
    · simp only [QueueState.step, hidle, hfirst]
    · have hq' : QueueState.lookup text { s with reader := .chosen first } first = some q := hq
      simp only [QueueState.step, hq', load_complete hcomplete]
  · have hs' : Safe text s' := Safe.of_run (hrun.monotone fun _ _ _ h => h.1) hs
    have hnotName : q.name text ∉ s'.returned.map Prod.fst := by
      intro hmem
      obtain ⟨r, hr, hname⟩ := List.mem_map.mp hmem
      obtain ⟨q', hq', rfl⟩ := hs'.known r hr
      -- the file of this name is still that of the same task
      obtain ⟨q'', hq'', htask⟩ := run_keeps (hrun.monotone fun _ _ _ h => h.1.1) hq
      have hname' : q''.name text = q'.name text := (congrArg text.fileName htask).trans hname.symm
      have hsame : q'.task = q.task := by
        rw [← eq_of_name hs'.distinct hq'' hq' hname', htask]
      rw [QueueFile.name, hsame] at hr
      exact hnot hr
    have hvisible : q.place = .visible := by
      rcases hs.kept q hq with hvisible | ⟨-, hreturned⟩
      · exact hvisible
      · exact absurd (returned_mono (hrun.monotone fun _ _ _ h => h.1.1) hreturned) hnot
    have hwaiting : Waiting text s (q.name text) := by
      refine ⟨mem_visibleNames.mpr ⟨q, hq, hvisible, rfl⟩, fun chosen hchosen => ?_⟩
      rw [hidle] at hchosen
      cases hchosen
    have hle := (run_ahead hrun hs hwaiting hnotName).2
    omega

/-! ## A truncated read -/

/-- A file that was set aside stays there, and its task is not returned. -/
theorem step_parked (h : Step text s e s') (hdistinct : (s.names text).Nodup) {q : QueueFile α}
    (hq : ∃ q' ∈ s.files, q'.task = q.task ∧ q'.place = .parked)
    (hnot : q.name text ∉ s.returned.map Prod.fst) :
    (∃ q' ∈ s'.files, q'.task = q.task ∧ q'.place = .parked) ∧
      q.name text ∉ s'.returned.map Prod.fst := by
  obtain ⟨q', hq', htask, hparked⟩ := hq
  have hmap : ∀ f : QueueFile α → QueueFile α, (f q').task = q'.task → (f q').place = .parked →
      ∃ q'' ∈ s.files.map f, q''.task = q.task ∧ q''.place = .parked := by
    intro f hf hplace
    exact ⟨f q', List.mem_map_of_mem hq', hf.trans htask, hplace⟩
  have hmove : ∀ file place, (if q'.isAt text file then { q' with place } else q').place = .parked := by
    intro file place
    have hat : ¬ q'.isAt text file = true := by
      intro hat
      rw [(of_decide_eq_true hat).1] at hparked
      cases hparked
    rw [if_neg hat]
    exact hparked
  rcases h with _ | ⟨file, n⟩ | _ | _ | _ | ⟨hchosen, hread, hload⟩ | _ | _ | _ | _ | _
  case create => exact ⟨⟨q', List.mem_append_left _ hq', htask, hparked⟩, hnot⟩
  case write =>
    refine ⟨hmap _ (task_write file n q') ?_, hnot⟩
    split <;> exact hparked
  case remove => exact ⟨hmap _ (task_move _ _ q') (hmove _ _), hnot⟩
  case finish => exact ⟨hmap _ (task_move _ _ q') (hmove _ _), hnot⟩
  case readLoads file r value =>
    refine ⟨⟨q', hq', htask, hparked⟩, ?_⟩
    rw [List.map_append, List.mem_append, not_or]
    refine ⟨hnot, fun hlast => ?_⟩
    obtain ⟨hmem, hvisible, hname⟩ := lookup_some hread
    -- the file that was read is in its place, this one is not
    have hsame : q'.name text = r.name text := by
      have hlast' : q.name text = file := List.mem_singleton.mp hlast
      rw [hname, ← hlast']
      exact congrArg text.fileName htask
    rw [eq_of_name hdistinct hq' hmem hsame, hvisible] at hparked
    cases hparked
  all_goals exact ⟨⟨q', hq', htask, hparked⟩, hnot⟩

theorem run_distinct {es : List (Event α)} (h : Run (fun a e b => a.step text e = some b) s es s')
    (hdistinct : (s.names text).Nodup) : (s'.names text).Nodup :=
  h.invariant _ hdistinct fun _ _ _ hstep => step_distinct (step_cases hstep)

theorem run_parked {es : List (Event α)} (h : Run (fun a e b => a.step text e = some b) s es s')
    (hdistinct : (s.names text).Nodup) {q : QueueFile α}
    (hq : ∃ q' ∈ s.files, q'.task = q.task ∧ q'.place = .parked)
    (hnot : q.name text ∉ s.returned.map Prod.fst) :
    (∃ q' ∈ s'.files, q'.task = q.task ∧ q'.place = .parked) ∧
      q.name text ∉ s'.returned.map Prod.fst := by
  have hinv := h.invariant (fun s => (s.names text).Nodup ∧
    (∃ q' ∈ s.files, q'.task = q.task ∧ q'.place = .parked) ∧
      q.name text ∉ s.returned.map Prod.fst) ⟨hdistinct, hq, hnot⟩ fun a e b hstep ha =>
    ⟨step_distinct (step_cases hstep) ha.1, step_parked (step_cases hstep) ha.1 ha.2.1 ha.2.2⟩
  exact hinv.2

/-- **A read that finds a file incomplete loses its task**: two steps later the
file is set aside, whatever is written to it afterwards. -/
theorem truncated_read_parks {file : String} {q : QueueFile α} (hchosen : s.reader = .chosen file)
    (hq : s.lookup text file = some q) (hcut : ¬ q.Complete text) :
    ∃ s₁ s₂, s.step text .read = some s₁ ∧ s₁.step text .look = some s₂ ∧
      s₂.step text .remove =
        some { s with reader := .idle, files := s.move text file .parked } ∧
      { q with place := .parked } ∈ s.move text file .parked := by
  obtain ⟨message, hload⟩ := text.load_prefix q.task q.written (Nat.lt_of_not_le hcut)
  refine ⟨{ s with reader := .failed file false }, { s with reader := .removing file false },
    ?_, ?_, rfl, ?_⟩
  · have hcontent : text.load (q.content text) = .error (.valueError message) := hload
    simp only [QueueState.step, hchosen, hq, hcontent]
  · have hthere : (QueueState.lookup text { s with reader := .failed file false } file).isSome =
        true := by
      rw [show QueueState.lookup text { s with reader := .failed file false } file =
        s.lookup text file from rfl, hq]
      rfl
    simp only [QueueState.step, hthere, if_true]
  · obtain ⟨hmem, hvisible, hname⟩ := lookup_some hq
    have hat : q.isAt text file = true := decide_eq_true ⟨hvisible, hname⟩
    refine List.mem_map.mpr ⟨q, hmem, ?_⟩
    rw [if_pos hat]

/-- A `get_next_task` that falls between the `open` and the first write of a
submission loses it, though the submission ends well. -/
theorem early_read_loses (text : TaskText α β) {t : α} (hpositive : 0 < (text.text t).length) :
    ∃ (es : List (Event α)) (s : QueueState α β),
      Run (fun a e b => a.step text e = some b) .init es s ∧
        (∃ q ∈ s.files, q.task = t ∧ q.Complete text ∧ q.place = .parked) ∧
        ∀ es' s', Run (fun a e b => a.step text e = some b) s es' s' →
          (∃ q ∈ s'.files, q.task = t ∧ q.place = .parked) ∧
            text.fileName t ∉ s'.returned.map Prod.fst := by
  let created : QueueFile α := ⟨t, 0, .visible⟩
  let opened : QueueState α β := ⟨[created], .idle, [], [], []⟩
  let chosen : QueueState α β := ⟨[created], .chosen (text.fileName t), [], [], []⟩
  have hat : created.isAt text (text.fileName t) = true := decide_eq_true ⟨rfl, rfl⟩
  have hlookup : chosen.lookup text (text.fileName t) = some created := List.find?_cons_of_pos hat
  obtain ⟨s₁, s₂, hread, hlook, hremove, hparked⟩ := truncated_read_parks
    (s := chosen) (q := created) rfl hlookup (Nat.not_le_of_lt hpositive)
  have hglob : opened.step text .glob = some chosen := by
    have hnames : (opened.visibleNames text).argmin id = some (text.fileName t) := rfl
    simp only [QueueState.step, hnames]
    rfl
  have hwritten : (⟨t, 0 + (text.text t).length, .parked⟩ : QueueFile α) ∈
      (chosen.move text (text.fileName t) .parked).map fun q =>
        if q.name text = text.fileName t then
          { q with written := q.written + (text.text t).length } else q :=
    List.mem_map.mpr ⟨_, hparked, if_pos rfl⟩
  have hrun : Run (fun a e b => a.step text e = some b) QueueState.init
      ([] ++ [.create t] ++ [.glob] ++ [.read] ++ [.look] ++ [.remove] ++
        [.write (text.fileName t) (text.text t).length]) _ :=
    .snoc (.snoc (.snoc (.snoc (.snoc (.snoc (.refl QueueState.init) (u := opened) rfl) hglob) hread) hlook)
      hremove) rfl
  refine ⟨_, _, hrun, ⟨_, hwritten, rfl, Nat.le_add_left _ _, rfl⟩, fun es' s' hrun' => ?_⟩
  exact run_parked (q := ⟨t, 0, .parked⟩) hrun' (run_distinct hrun List.nodup_nil)
    ⟨_, hwritten, rfl, rfl⟩ List.not_mem_nil

/-- The file of a submission that has finished. -/
def finished (text : TaskText α β) (t : α) : QueueFile α := ⟨t, (text.text t).length, .visible⟩

theorem finished_complete (text : TaskText α β) (t : α) : (finished text t).Complete text := le_refl _

theorem finished_lookup (text : TaskText α β) (t : α) :
    QueueState.lookup text (⟨[finished text t], .idle, [], [], []⟩ : QueueState α β)
      (text.fileName t) = some (finished text t) := by
  have hat : (finished text t).isAt text (text.fileName t) = true := decide_eq_true ⟨rfl, rfl⟩
  exact List.find?_cons_of_pos hat

/-- A submission that nobody disturbs. -/
theorem undisturbed (text : TaskText α β) (t : α) :
    Run (CarefulStep text) QueueState.init
      [.create t, .write (text.fileName t) (text.text t).length]
      ⟨[finished text t], .idle, [], [], []⟩ := by
  refine .cons (t := ⟨[⟨t, 0, .visible⟩], .idle, [], [], []⟩) ⟨rfl, trivial⟩
    (.single ⟨?_, trivial⟩)
  have hname : (⟨t, 0, .visible⟩ : QueueFile α).name text = text.fileName t := rfl
  simp only [QueueState.step, List.map_cons, List.map_nil, hname, if_true, Nat.zero_add, finished]

/-! ### One submission -/

/-- What `save_to_file` writes of one memory test. -/
def oneText : String :=
  "\x7b" ++ ("\n  \"source\": \"valkey\",\n  \"specifier\": \"unstable\",\n" ++
  "  \"topology\": \x7b\n    \"instances\": [\n      \x7b\n        \"role\": \"primary\",\n" ++
  "        \"port\": 6379,\n        \"io_threads\": null,\n        \"server_args\": \"\",\n" ++
  "        \"cpu_override\": \"\",\n        \"cluster_enabled\": false,\n" ++
  "        \"host\": null,\n        \"host_slot\": 0,\n        \"own_dir\": false\n      \x7d\n" ++
  "    ]\n  \x7d,\n  \"note\": \"\",\n  \"requirements\": \x7b\x7d,\n  \"make_args\": \"\",\n" ++
  "  \"task_type\": \"MemTaskData\",\n  \"timestamp\": \"2026-03-01T00:00:00\",\n" ++
  "  \"type\": \"set\",\n  \"val_sizes\": [\n    64\n  ],\n  \"has_expire\": false,\n" ++
  "  \"sweep_commit\": \"\",\n  \"enable_profiling\": false,\n  \"key_size\": 0,\n" ++
  "  \"field_size\": 0,\n  \"user_data_bytes\": 0,\n  \"populate_mode\": \"random\",\n" ++
  "  \"settle\": false\n\x7d")

def oneFile : String := "task_2026.03.01_00.00.00.000000.json"

def oneTask : TaskText Unit Unit where
  fileName _ := oneFile
  text _ := oneText.toList
  value := id
  load content := if content = oneText.toList then .ok () else .error (.valueError "Invalid JSON in file")
  load_text _ := if_pos rfl
  load_prefix _ n hn := by
    refine ⟨"Invalid JSON in file", if_neg fun he => ?_⟩
    have hlength := congrArg List.length he
    rw [List.length_take] at hlength
    omega

theorem oneTask_positive : 0 < (oneTask.text ()).length := by
  have htext : oneTask.text () = oneText.toList := by rw [oneTask]
  rw [htext, oneText, String.toList_append, List.length_append]
  exact Nat.add_pos_left (by decide) _

theorem submitted_or_returned_one : ∃ s s₁ s₂ : QueueState Unit Unit,
    Run (CarefulStep oneTask) .init
      [.create (), .write (oneTask.fileName ()) (oneTask.text ()).length] s ∧
    s.step oneTask .glob = some s₁ ∧ s₁.step oneTask .read = some s₂ ∧
    s₂.returned = [(oneTask.fileName (), ())] := by
  have hrun := undisturbed oneTask ()
  obtain ⟨s₁, s₂, hglob, hread, hreturned⟩ := (submitted_or_returned hrun).2.1 rfl
    (oneTask.fileName ()) (finished oneTask ()) rfl (finished_lookup oneTask ())
    (finished_complete oneTask ())
  exact ⟨_, s₁, s₂, hrun, hglob, hread, hreturned⟩

/-- The runner looks into the queue before the first write of this one: the
submission ends well, and its task is never returned. -/
theorem read_before_written : ∃ (es : List (Event Unit)) (s : QueueState Unit Unit),
    Run (fun a e b => a.step oneTask e = some b) .init es s ∧
      (∃ q ∈ s.files, q.task = () ∧ q.Complete oneTask ∧ q.place = .parked) ∧
      ∀ es' s', Run (fun a e b => a.step oneTask e = some b) s es' s' →
        (∃ q ∈ s'.files, q.task = () ∧ q.place = .parked) ∧
          oneTask.fileName () ∉ s'.returned.map Prod.fst :=
  early_read_loses oneTask oneTask_positive

end Conductress.Submission
