import Mathlib.Logic.Function.Basic
import Conductress.Lib.Transition
import Conductress.Sweep.CoordinatorV3

/-!
# Publishing the stacks of a series

A live series keeps its state in memory and in a state file, and publishes one
file of CPU stacks for each commit and an index of them. The files are written
into a stage and promoted from there one by one; a file that is published
already is neither written nor promoted again, and an index without entries is
not written at all.

So a file outlives the point it was written for. A series that is reset and
measured again shows the old stacks beside the new points
(`remeasured_keeps_old`). `published_right` is the claim with what it needs: no
stacks are stored for a commit that is published with other ones, and a publish
that finds an index has something to list.
-/

namespace Conductress.Sweep

open Lib

/-! ## Files -/

inductive Body where
  /-- `cpu_stacks_main` and `cpu_stacks_io`. -/
  | collapsed (main io : Json)
  /-- `commits`: a commit, its index and its date. -/
  | index (entries : List (String × Nat × String))
  deriving DecidableEq

structure File where
  metadata : Fields
  body     : Body

/-- A directory that is kept, by file name. -/
abbrev ExportDir := String → Option File

/-- A directory that was made for one publish: its files in the order they were
written. -/
abbrev Stage := List (String × File)

/-- `path.stem` and `path.suffix` of a name with a dot inside. -/
def splitSuffix (name : List Char) : List Char × List Char :=
  let tail := name.reverse.takeWhile (· ≠ '.')
  (name.take (name.length - tail.length - 1), '.' :: tail.reverse)

/-- `_epoch_path`, of a name. -/
def epochPath (name epoch : String) : String :=
  if epoch = "" ∨ epoch = "v1" then name
  else
    let parts := splitSuffix name.toList
    String.ofList parts.1 ++ (".epoch-" ++ epoch) ++ String.ofList parts.2

/-- `_stamp_epoch`. -/
def stampEpoch (file : File) (epoch : String) : File :=
  { file with metadata := Json.setField file.metadata "epoch" (.str epoch) }

/-! ## A series and its files -/

/-- A coordinator, and what the publisher knows about its series. -/
structure Series where
  coordinator : CoordinatorV3
  platform    : String
  repo        : String
  branch      : String

/-- `SWEEP_V3_EPOCH_ID`. -/
def epochId : String := "v3"

namespace Series

variable (series : Series)

/-- `should_profile_internals(coord.engine)`. -/
def profilesInternals : Bool :=
  (series.coordinator.engine.map SweepEngine.profileInternals).getD true

def filePrefix : String :=
  "series-" ++ series.platform ++ "-" ++ series.coordinator.label ++ "-cpu-stacks-"

def stacksFile (commit : String) : String := series.filePrefix ++ commit ++ ".json"

def indexFile : String := series.filePrefix ++ "index" ++ ".json"

/-- Where the file of a commit ends up. -/
def publishedFile (commit : String) : String := epochPath (series.stacksFile commit) epochId

def publishedIndex : String := epochPath series.indexFile epochId

variable (state : SweepState) (generated : String)

/-- The metadata of both kinds of file. -/
def commonMetadata (metric : String) : Fields :=
  [("repo", .str series.repo), ("branch", .str series.branch), ("platform", .str series.platform),
    ("workload", .str series.coordinator.label), ("metric", .str metric)]

/-- `pr`: that of the commit list, unless it is none or zero, or the one stored. -/
def prOf (p : BenchmarkPoint) : Option Int :=
  match state.commitPrs.lookup p.commit with
  | some pr => if pr = 0 then p.pr else some pr
  | none => p.pr

def prTitleOf (p : BenchmarkPoint) : Option String :=
  match state.commitTitles.lookup p.commit with
  | some title => if title = "" then p.prTitle else some title
  | none => p.prTitle

/-- The arrays of a file. -/
def stacksBody (pair : Json × Json) : Body :=
  .collapsed (pair.1.orElse (.arr [])) (pair.2.orElse (.arr []))

def payload (p : BenchmarkPoint) : File where
  metadata :=
    series.commonMetadata "cpu-stacks" ++
      [("commit", .str p.commit), ("commit_index", .int (state.indexOf p.commit)),
        ("date", .str p.date), ("generated", .str generated)] ++
      ((prOf state p).map fun pr => ("pr", Json.int pr)).toList ++
      ((prTitleOf state p).map fun title => ("pr_title", Json.str title)).toList
  body := stacksBody p.cpuStacks

def indexEntry (p : BenchmarkPoint) : String × Nat × String :=
  (p.commit, state.indexOf p.commit, p.date)

/-! ## The export -/

/-- The loop over the completed points that carry stacks: the file of a point,
unless there is one here or where it will be published. -/
def exportPoints (alreadyPublished : String → Bool) : List BenchmarkPoint → Stage → Stage
  | [], stage => stage
  | p :: rest, stage =>
    let filename := series.stacksFile p.commit
    if stage.any (fun e => decide (e.1 = filename)) || alreadyPublished filename then
      exportPoints alreadyPublished rest stage
    else exportPoints alreadyPublished rest
      (stage ++ [(filename, series.payload state generated p)])

/-- The points the exporter writes files for. -/
def exported : List BenchmarkPoint := state.orderedCompleted.filter BenchmarkPoint.carriesStacks

/-- `export_cpu_stacks_raw` into an empty stage. -/
def exportCpuStacksRaw (alreadyPublished : String → Bool) : Stage :=
  let stage := series.exportPoints state generated alreadyPublished (exported state) []
  -- no entries: the function returns before it writes the index
  if (exported state).isEmpty then stage
  else stage ++ [(series.indexFile,
    { metadata := series.commonMetadata "cpu-stacks-index" ++ [("generated", .str generated)]
      body := .index ((exported state).map (indexEntry state)) })]

/-- `_promote_epoch_stage`, up to where it gets: the files are stamped and moved
one at a time. -/
def promote (promoted : String → Bool) (stage : Stage) (dir : ExportDir) : ExportDir :=
  (stage.filter fun e => promoted e.1).foldl
    (fun dir e => Function.update dir (epochPath e.1 epochId) (some (stampEpoch e.2 epochId))) dir

/-- The part of `_publish` that concerns the stacks of the series. -/
def publish (promoted : String → Bool) (dir : ExportDir) : ExportDir :=
  if series.profilesInternals then
    promote promoted (series.exportCpuStacksRaw state generated fun filename =>
      (dir (epochPath filename epochId)).isSome) dir
  else dir

end Series

/-! ## The system -/

/-- What `git log` and the tags say: hashes are 40 digits long. -/
structure History where
  commits   : List String
  dates     : List (String × String)
  prs       : List (String × Int)
  titles    : List (String × String)
  landmarks : List Landmark
  hashes    : ∀ c ∈ commits, c.length = 40

/-- The state of the runner, its state file and the export directory. -/
structure World where
  mem  : SweepState
  disk : Option SweepState
  dir  : ExportDir

inductive SeriesEvent (δ : Type) where
  /-- A task completes, with the results log as it is then. -/
  | completed (log : List Fields) (moment : Moment) (task : TaskData δ)
  | failed (task : TaskData δ)
  /-- `_refresh_commits`. -/
  | refreshed (history : History)
  /-- `reset_series` moves the state file away, with the runner stopped or not. -/
  | reset
  | restarted
  | published (generated : String)
  /-- The runner dies, or an exception ends the publish, when these files have
  been promoted. -/
  | interrupted (generated : String) (promoted : String → Bool)

namespace World

/-- Before the first run of the series. -/
def fresh : World := ⟨.empty, none, fun _ => none⟩

/-- `state.save(state_file)`. -/
def saved (w : World) (state : SweepState) : World := { w with mem := state, disk := some state }

variable {δ : Type} (series : Series) (datetime : DatetimeClass δ) (stdev : List Json → Rat)

def apply (w : World) : SeriesEvent δ → World
  | .completed log moment task =>
    match series.coordinator.onTaskCompleted datetime stdev log moment task w.mem with
    | some state => w.saved state
    | none => w
  | .failed task =>
    match series.coordinator.onTaskFailed task w.mem with
    | some state => w.saved state
    | none => w
  | .refreshed history => w.saved
      { w.mem with
        mergeCommits := history.commits
        commitDates := history.dates
        commitPrs := history.prs
        commitTitles := history.titles
        landmarks := history.landmarks }
  | .reset => { w with disk := none }
  | .restarted => { w with mem := w.disk.getD .empty }
  | .published generated => { w with dir := series.publish w.mem generated (fun _ => true) w.dir }
  | .interrupted generated promoted =>
    { w with dir := series.publish w.mem generated promoted w.dir }

/-! ## What a publish is for -/

/-- A completed point that carries stacks. -/
def Shown (w : World) (p : BenchmarkPoint) : Prop :=
  p ∈ w.mem.points ∧ p.isComplete = true ∧ p.carriesStacks = true

/-- The commits the published index lists. -/
def indexed (w : World) : List String :=
  match w.dir series.publishedIndex with
  | some ⟨_, .index entries⟩ => entries.map Prod.fst
  | _ => []

/-- The published files are those of the points. -/
structure Published (w : World) : Prop where
  files : ∀ p, w.Shown p → ∃ file, w.dir (series.publishedFile p.commit) = some file ∧
    file.body = Series.stacksBody p.cpuStacks
  index : ∀ commit, commit ∈ w.indexed series ↔ ∃ p, w.Shown p ∧ p.commit = commit

/-- When a step keeps what is published right. -/
def Allowed (w : World) : SeriesEvent δ → Prop
  -- stacks are those already published for the commit, if some are
  | .completed log _ task => ∀ commit entry,
      series.coordinator.Records datetime log task commit entry →
      ∀ stored, CoordinatorV3.storedStacks entry = some stored →
        series.profilesInternals = true ∧
        (commit ≠ "index" → ∀ file, w.dir (series.publishedFile commit) = some file →
          file.body = Series.stacksBody stored)
  -- the points are of the commit list, and an index is not left without one
  | .published _ => (∀ p, w.Shown p → p.commit ∈ w.mem.mergeCommits) ∧
      (w.dir series.publishedIndex ≠ none → ∃ p, w.Shown p)
  | _ => True

def Step (w : World) (e : SeriesEvent δ) (w' : World) : Prop :=
  w.Allowed series datetime e ∧ w' = w.apply series datetime stdev e

end World

/-! ## Names -/

theorem epochPath_of_live {epoch : String} (hlive : ¬ (epoch = "" ∨ epoch = "v1"))
    (name : String) : epochPath (name ++ ".json") epoch = name ++ (".epoch-" ++ epoch) ++ ".json" := by
  have hchars : (name ++ ".json").toList = name.toList ++ ['.', 'j', 's', 'o', 'n'] := by
    rw [String.toList_append]
    rfl
  have htail : ((name ++ ".json").toList.reverse.takeWhile (· ≠ '.')) = ['n', 'o', 's', 'j'] := by
    rw [hchars, List.reverse_append]
    rfl
  have hlength : (name ++ ".json").toList.length = name.toList.length + 5 := by
    rw [hchars, List.length_append]
    rfl
  have hstem : (splitSuffix (name ++ ".json").toList).1 = name.toList := by
    rw [splitSuffix, htail, hlength, hchars]
    exact List.take_left
  have hsuffix : (splitSuffix (name ++ ".json").toList).2 = ['.', 'j', 's', 'o', 'n'] := by
    rw [splitSuffix, htail]
    rfl
  rw [epochPath, if_neg hlive]
  dsimp only
  rw [hstem, hsuffix, String.ofList_toList]

theorem epochPath_json (name : String) :
    epochPath (name ++ ".json") epochId = name ++ ".epoch-v3" ++ ".json" :=
  epochPath_of_live (by decide) name

namespace Series

variable {series : Series} {state : SweepState} {generated : String}

theorem publishedFile_eq (series : Series) (commit : String) :
    series.publishedFile commit = series.filePrefix ++ commit ++ ".epoch-v3" ++ ".json" :=
  epochPath_json _

/-- Two commits have two files. -/
theorem publishedFile_inj {commit commit' : String}
    (h : series.publishedFile commit = series.publishedFile commit') : commit = commit' := by
  rw [publishedFile_eq, publishedFile_eq] at h
  have hlists := congrArg String.toList h
  simp only [String.toList_append, List.append_assoc, List.append_cancel_left_eq] at hlists
  exact String.toList_injective (List.append_cancel_right hlists)

/-! ## The export and the promotion -/

variable {alreadyPublished : String → Bool}

/-- What is in a stage: what was there, and files of points that were not
published. -/
theorem mem_exportPoints {ps : List BenchmarkPoint} {stage : Stage} {e : String × File}
    (h : e ∈ series.exportPoints state generated alreadyPublished ps stage) :
    e ∈ stage ∨ ∃ p ∈ ps, alreadyPublished (series.stacksFile p.commit) = false ∧
      e = (series.stacksFile p.commit, series.payload state generated p) := by
  induction ps generalizing stage with
  | nil => exact .inl h
  | cons p rest ih =>
    rw [exportPoints] at h
    split at h
    · rcases ih h with hstage | ⟨q, hq, he⟩
      · exact .inl hstage
      · exact .inr ⟨q, List.mem_cons_of_mem _ hq, he⟩
    · next hnew =>
      rw [Bool.or_eq_true, not_or, Bool.not_eq_true] at hnew
      rcases ih h with hstage | ⟨q, hq, he⟩
      · rcases List.mem_append.mp hstage with hstage | hlast
        · exact .inl hstage
        · exact .inr ⟨p, List.mem_cons_self, Bool.eq_false_iff.mpr hnew.2,
            List.mem_singleton.mp hlast⟩
      · exact .inr ⟨q, List.mem_cons_of_mem _ hq, he⟩

theorem exportPoints_keeps {ps : List BenchmarkPoint} {stage : Stage} {e : String × File}
    (h : e ∈ stage) : e ∈ series.exportPoints state generated alreadyPublished ps stage := by
  induction ps generalizing stage with
  | nil => exact h
  | cons p rest ih =>
    rw [exportPoints]
    split
    · exact ih h
    · exact ih (List.mem_append_left _ h)

/-- A point whose file is not published gets one in the stage. -/
theorem exportPoints_covers {ps : List BenchmarkPoint} {stage : Stage} {p : BenchmarkPoint}
    (hp : p ∈ ps) (hnew : alreadyPublished (series.stacksFile p.commit) = false) :
    ∃ e ∈ series.exportPoints state generated alreadyPublished ps stage,
      e.1 = series.stacksFile p.commit := by
  induction ps generalizing stage with
  | nil => exact absurd hp List.not_mem_nil
  | cons q rest ih =>
    rw [exportPoints]
    rcases List.mem_cons.mp hp with rfl | hp
    · rw [hnew, Bool.or_false]
      split
      · next hany =>
        obtain ⟨e, he, hname⟩ := List.any_eq_true.mp hany
        exact ⟨e, exportPoints_keeps he, of_decide_eq_true hname⟩
      · refine ⟨_, exportPoints_keeps (List.mem_append_right _ List.mem_cons_self), rfl⟩
    · split
      · exact ih hp
      · exact ih hp

/-- Every target is as it was and no file was moved there, or it holds one of the
files that were. -/
theorem foldl_move (files : Stage) (dir : ExportDir) (target : String) :
    let moved := files.foldl (fun dir e =>
      Function.update dir (epochPath e.1 epochId) (some (stampEpoch e.2 epochId))) dir
    (moved target = dir target ∧ ∀ e ∈ files, epochPath e.1 epochId ≠ target) ∨
      ∃ e ∈ files, epochPath e.1 epochId = target ∧ moved target = some (stampEpoch e.2 epochId) := by
  induction files generalizing dir with
  | nil => exact .inl ⟨rfl, by simp⟩
  | cons f rest ih =>
    rw [List.foldl_cons]
    rcases ih (Function.update dir (epochPath f.1 epochId) (some (stampEpoch f.2 epochId))) with
      ⟨hsame, hnone⟩ | ⟨e, he, htarget, hmoved⟩
    · by_cases hf : epochPath f.1 epochId = target
      · refine .inr ⟨f, List.mem_cons_self, hf, ?_⟩
        rw [hsame, ← hf, Function.update_self]
      · refine .inl ⟨?_, fun e he => ?_⟩
        · rw [hsame, Function.update_of_ne (Ne.symm hf)]
        · rcases List.mem_cons.mp he with rfl | he
          · exact hf
          · exact hnone e he
    · exact .inr ⟨e, List.mem_cons_of_mem _ he, htarget, hmoved⟩

/-- What is in the stage of a publish. -/
theorem mem_exportCpuStacksRaw {e : String × File}
    (h : e ∈ series.exportCpuStacksRaw state generated alreadyPublished) :
    (∃ p ∈ exported state, alreadyPublished (series.stacksFile p.commit) = false ∧
        e = (series.stacksFile p.commit, series.payload state generated p)) ∨
      (exported state ≠ [] ∧ e.1 = series.indexFile ∧
        e.2.body = .index ((exported state).map (indexEntry state))) := by
  rw [exportCpuStacksRaw] at h
  split at h
  · rcases mem_exportPoints h with hnil | hpoint
    · exact absurd hnil List.not_mem_nil
    · exact .inl hpoint
  · next hne =>
    rcases List.mem_append.mp h with h | h
    · rcases mem_exportPoints h with hnil | hpoint
      · exact absurd hnil List.not_mem_nil
      · exact .inl hpoint
    · rw [List.mem_singleton.mp h]
      exact .inr ⟨fun hnil => hne (by rw [hnil]; rfl), rfl, rfl⟩

/-- The stage holds a file of every point that has none published. -/
theorem exportCpuStacksRaw_covers {p : BenchmarkPoint} (hp : p ∈ exported state)
    (hnew : alreadyPublished (series.stacksFile p.commit) = false) :
    ∃ e ∈ series.exportCpuStacksRaw state generated alreadyPublished,
      e.1 = series.stacksFile p.commit := by
  have hcovers : ∃ e ∈ series.exportPoints state generated alreadyPublished (exported state) [],
      e.1 = series.stacksFile p.commit := exportPoints_covers hp hnew
  obtain ⟨e, he, hname⟩ := hcovers
  refine ⟨e, ?_, hname⟩
  rw [exportCpuStacksRaw]
  split
  · exact he
  · exact List.mem_append_left _ he

/-! ## What a publish changes -/

section Publish

variable {promoted : String → Bool} {dir : ExportDir} {target : String}

/-- A file of the directory is the old one or comes from the stage. -/
theorem publish_lookup (series : Series) (state : SweepState) (generated : String)
    (promoted : String → Bool) (dir : ExportDir) (target : String) :
    series.publish state generated promoted dir target = dir target ∨
      ∃ e ∈ series.exportCpuStacksRaw state generated fun filename =>
          (dir (epochPath filename epochId)).isSome,
        epochPath e.1 epochId = target ∧
          series.publish state generated promoted dir target = some (stampEpoch e.2 epochId) := by
  unfold publish
  split
  · rcases foldl_move ((series.exportCpuStacksRaw state generated fun filename =>
      (dir (epochPath filename epochId)).isSome).filter fun e => promoted e.1) dir target with
      ⟨hsame, -⟩ | ⟨e, he, htarget, hmoved⟩
    · exact .inl hsame
    · exact .inr ⟨e, (List.mem_filter.mp he).1, htarget, hmoved⟩
  · exact .inl rfl

/-- A publish that is not interrupted moves every file of the stage. -/
theorem publish_moves (hprofiles : series.profilesInternals = true) {e : String × File}
    (he : e ∈ series.exportCpuStacksRaw state generated fun filename =>
      (dir (epochPath filename epochId)).isSome) :
    ∃ f ∈ series.exportCpuStacksRaw state generated fun filename =>
        (dir (epochPath filename epochId)).isSome,
      epochPath f.1 epochId = epochPath e.1 epochId ∧
        series.publish state generated (fun _ => true) dir (epochPath e.1 epochId) =
          some (stampEpoch f.2 epochId) := by
  unfold publish
  rw [if_pos hprofiles, promote, List.filter_true]
  rcases foldl_move (series.exportCpuStacksRaw state generated fun filename =>
    (dir (epochPath filename epochId)).isSome) dir (epochPath e.1 epochId) with
    ⟨-, hnone⟩ | ⟨f, hf, htarget, hmoved⟩
  · exact absurd rfl (hnone e he)
  · exact ⟨f, hf, htarget, hmoved⟩

/-- What is published of a commit afterwards is what was, or the stacks of its
point. -/
theorem publish_commit {commit : String} (hcommit : commit ≠ "index") {file : File}
    (h : series.publish state generated promoted dir (series.publishedFile commit) = some file) :
    dir (series.publishedFile commit) = some file ∨
      ∃ p ∈ exported state, p.commit = commit ∧ file.body = stacksBody p.cpuStacks := by
  rcases publish_lookup series state generated promoted dir (series.publishedFile commit) with
    hsame | ⟨e, he, htarget, hmoved⟩
  · exact .inl (hsame.symm.trans h)
  · have hfile : stampEpoch e.2 epochId = file := Option.some.inj (hmoved.symm.trans h)
    rcases mem_exportCpuStacksRaw he with ⟨p, hp, -, rfl⟩ | ⟨-, hname, -⟩
    · exact .inr ⟨p, hp, publishedFile_inj htarget, by rw [← hfile]; rfl⟩
    · rw [hname] at htarget
      exact absurd (publishedFile_inj htarget).symm hcommit

/-- **A published file of a commit stays**, whatever is published later. -/
theorem publish_kept {commit : String} (hcommit : commit ≠ "index") {file : File}
    (h : dir (series.publishedFile commit) = some file) :
    series.publish state generated promoted dir (series.publishedFile commit) = some file := by
  rcases publish_lookup series state generated promoted dir (series.publishedFile commit) with
    hsame | ⟨e, he, htarget, -⟩
  · exact hsame.trans h
  · -- the stage has no file that is published already
    exfalso
    rcases mem_exportCpuStacksRaw he with ⟨p, -, hnew, rfl⟩ | ⟨-, hname, -⟩
    · dsimp only at hnew htarget
      rw [htarget, h] at hnew
      cases hnew
    · rw [hname] at htarget
      exact hcommit (publishedFile_inj htarget).symm

end Publish

end Series

/-! ## The invariant -/

/-- `main or io`. -/
def carries (pair : Json × Json) : Bool := pair.1.truthy || pair.2.truthy

theorem stacksAt_of_mem {state : SweepState} {p : BenchmarkPoint} (hp : p ∈ state.points) :
    state.stacksAt p.commit = p.cpuStacks := by
  rw [SweepState.stacksAt, Table.find?_key hp]
  rfl

theorem mem_exported {state : SweepState} {p : BenchmarkPoint} : p ∈ Series.exported state ↔
    (p ∈ state.points ∧ p.isComplete = true ∧ p.carriesStacks = true) ∧
      p.commit ∈ state.mergeCommits := by
  rw [Series.exported, List.mem_filter, SweepState.mem_orderedCompleted]
  tauto

namespace World

variable {δ : Type} {series : Series} {datetime : DatetimeClass δ} {stdev : List Json → Rat}

/-- What is published of a commit that carries stacks is those. -/
structure Inv (series : Series) (w : World) : Prop where
  hashes     : ∀ c ∈ w.mem.mergeCommits, c.length = 40
  disk       : w.disk = none ∨ w.disk = some w.mem
  agrees     : ∀ commit, commit ≠ "index" → ∀ file,
    w.dir (series.publishedFile commit) = some file → carries (w.mem.stacksAt commit) = true →
      file.body = Series.stacksBody (w.mem.stacksAt commit)
  unprofiled : series.profilesInternals = false →
    (∀ name, w.dir name = none) ∧ ∀ commit, carries (w.mem.stacksAt commit) = false

theorem inv_fresh : Inv series fresh where
  hashes c hc := absurd hc List.not_mem_nil
  disk := .inl rfl
  agrees commit _ file hfile := by cases hfile
  unprofiled _ := ⟨fun _ => rfl, fun _ => rfl⟩

variable {w : World} {state : SweepState}

/-- A state that carries the same stacks may be saved. -/
theorem Inv.saved (hI : Inv series w) (hhashes : ∀ c ∈ state.mergeCommits, c.length = 40)
    (hstacks : ∀ commit, state.stacksAt commit = w.mem.stacksAt commit) :
    Inv series (w.saved state) where
  hashes := hhashes
  disk := .inr rfl
  agrees commit hne file hfile hcarries := by
    show file.body = Series.stacksBody (state.stacksAt commit)
    have hcarries' : carries (state.stacksAt commit) = true := hcarries
    rw [hstacks commit] at hcarries' ⊢
    exact hI.agrees commit hne file hfile hcarries'
  unprofiled hoff := by
    refine ⟨(hI.unprofiled hoff).1, fun commit => ?_⟩
    show carries (state.stacksAt commit) = false
    rw [hstacks commit]
    exact (hI.unprofiled hoff).2 commit

theorem inv_completed {log : List Fields} {moment : Moment} {task : TaskData δ}
    (hI : Inv series w) (hallowed : w.Allowed series datetime (.completed log moment task)) :
    Inv series (w.apply series datetime stdev (.completed log moment task)) := by
  simp only [apply]
  split
  · next t ht =>
    rcases CoordinatorV3.onTaskCompleted_spec ht with
      ⟨commit, entry, hrecords, hothers, hmerge, -, hstacks⟩ | ⟨commit, latency, -, -, rfl⟩
    swap
    · -- a latency detail says nothing of stacks
      have hwrites := CoordinatorV3.writes_recordLatencyData w.mem commit latency
      exact hI.saved (by rw [hwrites.mergeCommits]; exact hI.hashes) hwrites.stacksAt
    have hhashes : ∀ c ∈ t.mergeCommits, c.length = 40 := by
      rw [hmerge]
      exact hI.hashes
    have hsame : ∀ other, other ≠ commit → t.stacksAt other = w.mem.stacksAt other := by
      intro other hne
      rw [SweepState.stacksAt, hothers other hne, SweepState.stacksAt]
    rcases hstored : CoordinatorV3.storedStacks entry with _ | stored
    · -- the row carries no stacks, and those of its point stay
      refine hI.saved hhashes fun other => ?_
      by_cases hother : other = commit
      · rw [hother, hstacks, hstored]
        rfl
      · exact hsame other hother
    · obtain ⟨hprofiles, hpublished⟩ := hallowed commit entry hrecords stored hstored
      refine ⟨hhashes, .inr rfl, fun other hne file hfile hcarries => ?_, fun hoff => ?_⟩
      · by_cases hother : other = commit
        · subst hother
          show file.body = Series.stacksBody (t.stacksAt other)
          rw [hstacks, hstored]
          exact hpublished hne file hfile
        · have hcarries' : carries (t.stacksAt other) = true := hcarries
          show file.body = Series.stacksBody (t.stacksAt other)
          rw [hsame other hother] at hcarries' ⊢
          exact hI.agrees other hne file hfile hcarries'
      · rw [hprofiles] at hoff
        cases hoff
  · exact hI

theorem inv_failed {task : TaskData δ} (hI : Inv series w) :
    Inv series (w.apply series datetime stdev (.failed task)) := by
  simp only [apply]
  split
  · next t ht =>
    obtain ⟨commit, -, ht⟩ := Option.bind_eq_some_iff.mp ht
    split at ht
    · cases ht
      have hwrites : SweepState.Writes commit w.mem (w.mem.recordBuildFailure commit) :=
        SweepState.writes_recordBuildFailure
      refine hI.saved ?_ hwrites.stacksAt
      rw [hwrites.mergeCommits]
      exact hI.hashes
    · cases ht
  · exact hI

theorem inv_publish {generated : String} {promoted : String → Bool} (hI : Inv series w) :
    Inv series { w with dir := series.publish w.mem generated promoted w.dir } where
  hashes := hI.hashes
  disk := hI.disk
  agrees commit hne file hfile hcarries := by
    rcases Series.publish_commit hne hfile with hold | ⟨p, hp, rfl, hbody⟩
    · exact hI.agrees commit hne file hold hcarries
    · rw [hbody]
      show _ = Series.stacksBody (w.mem.stacksAt p.commit)
      rw [stacksAt_of_mem (mem_exported.mp hp).1.1]
  unprofiled hoff := by
    refine ⟨fun name => ?_, (hI.unprofiled hoff).2⟩
    show series.publish w.mem generated promoted w.dir name = none
    rw [Series.publish, hoff]
    exact (hI.unprofiled hoff).1 name

/-- **Every allowed step keeps the invariant.** -/
theorem inv_step {e : SeriesEvent δ} (hI : Inv series w) (h : w.Allowed series datetime e) :
    Inv series (w.apply series datetime stdev e) := by
  cases e with
  | completed log moment task => exact inv_completed hI h
  | failed task => exact inv_failed hI
  | refreshed history => exact hI.saved history.hashes fun _ => rfl
  | reset => exact ⟨hI.hashes, .inl rfl, hI.agrees, hI.unprofiled⟩
  | restarted =>
    rcases hI.disk with hnone | hsome
    · -- no state file: the series starts over, and carries nothing
      have hmem : (w.apply series datetime stdev (.restarted : SeriesEvent δ)).mem = .empty := by
        show w.disk.getD .empty = .empty
        rw [hnone]
        rfl
      refine ⟨?_, .inl hnone, ?_, fun hoff => ⟨(hI.unprofiled hoff).1, ?_⟩⟩
      · rw [hmem]
        exact fun c hc => absurd hc List.not_mem_nil
      · rw [hmem]
        intro commit _ file _ hcarries
        cases hcarries
      · rw [hmem]
        exact fun _ => rfl
    · have hsame : w.apply series datetime stdev (.restarted : SeriesEvent δ) = w := by
        have hmem : w.disk.getD .empty = w.mem := by
          rw [hsome]
          rfl
        show { w with mem := w.disk.getD .empty } = w
        rw [hmem]
      rw [hsame]
      exact hI
  | published generated => exact inv_publish hI
  | interrupted generated promoted => exact inv_publish hI

/-! ## After a publish -/

theorem shown_exported {p : BenchmarkPoint} (hp : w.Shown p)
    (hlisted : p.commit ∈ w.mem.mergeCommits) : p ∈ Series.exported w.mem :=
  mem_exported.mpr ⟨hp, hlisted⟩

/-- Every point that is shown has a file. -/
theorem publish_files (generated : String) (hprofiles : series.profilesInternals = true) {p : BenchmarkPoint} (hp : w.Shown p)
    (hlisted : p.commit ∈ w.mem.mergeCommits) :
    ∃ file, series.publish w.mem generated (fun _ => true) w.dir (series.publishedFile p.commit) =
      some file := by
  rcases hold : w.dir (series.publishedFile p.commit) with _ | file
  · have hnew : (w.dir (epochPath (series.stacksFile p.commit) epochId)).isSome = false := by
      show (w.dir (series.publishedFile p.commit)).isSome = false
      rw [hold]
      rfl
    have hcovers : ∃ e ∈ series.exportCpuStacksRaw w.mem generated fun filename =>
        (w.dir (epochPath filename epochId)).isSome, e.1 = series.stacksFile p.commit :=
      Series.exportCpuStacksRaw_covers (shown_exported hp hlisted) hnew
    obtain ⟨e, he, hname⟩ := hcovers
    obtain ⟨f, -, -, hmoved⟩ := Series.publish_moves hprofiles he
    rw [hname] at hmoved
    exact ⟨_, hmoved⟩
  · rcases Series.publish_lookup series w.mem generated (fun _ => true) w.dir
      (series.publishedFile p.commit) with hsame | ⟨e, -, -, hmoved⟩
    · exact ⟨file, hsame.trans hold⟩
    · exact ⟨_, hmoved⟩

/-- The index afterwards: that of the exported points, or none. -/
theorem publish_index (generated : String) (hprofiles : series.profilesInternals = true)
    (hhashes : ∀ c ∈ w.mem.mergeCommits, c.length = 40)
    (hkept : Series.exported w.mem = [] → w.dir series.publishedIndex = none) :
    ({ w with dir := series.publish w.mem generated (fun _ => true) w.dir } : World).indexed series =
      (Series.exported w.mem).map BenchmarkPoint.commit := by
  -- no exported point is called like the index
  have hname : ∀ p ∈ Series.exported w.mem, p.commit ≠ "index" := by
    intro p hp he
    have hlength := hhashes p.commit (mem_exported.mp hp).2
    rw [he] at hlength
    exact absurd hlength (by decide)
  have hindexBody : ∀ e ∈ series.exportCpuStacksRaw w.mem generated fun filename =>
      (w.dir (epochPath filename epochId)).isSome, epochPath e.1 epochId = series.publishedIndex →
        Series.exported w.mem ≠ [] ∧
          e.2.body = .index ((Series.exported w.mem).map (Series.indexEntry w.mem)) := by
    intro e he htarget
    rcases Series.mem_exportCpuStacksRaw he with ⟨p, hp, -, rfl⟩ | ⟨hne, -, hbody⟩
    · exact absurd (Series.publishedFile_inj htarget) (hname p hp)
    · exact ⟨hne, hbody⟩
  by_cases hnil : Series.exported w.mem = []
  · have hnone : series.publish w.mem generated (fun _ => true) w.dir series.publishedIndex =
        none := by
      rcases Series.publish_lookup series w.mem generated (fun _ => true) w.dir
        series.publishedIndex with hsame | ⟨e, he, htarget, -⟩
      · rw [hsame, hkept hnil]
      · exact absurd hnil (hindexBody e he htarget).1
    simp only [indexed, hnone, hnil]
    rfl
  · -- the index is the last file of the stage
    have hstaged : ∃ e ∈ series.exportCpuStacksRaw w.mem generated fun filename =>
        (w.dir (epochPath filename epochId)).isSome, e.1 = series.indexFile := by
      rw [Series.exportCpuStacksRaw, if_neg (by rwa [List.isEmpty_iff])]
      exact ⟨_, List.mem_append_right _ List.mem_cons_self, rfl⟩
    obtain ⟨e, he, hindex⟩ := hstaged
    obtain ⟨f, hf, htarget, hmoved⟩ := Series.publish_moves hprofiles he
    rw [hindex] at htarget hmoved
    have hbody := (hindexBody f hf htarget).2
    have hpublished : series.publish w.mem generated (fun _ => true) w.dir series.publishedIndex =
        some (stampEpoch f.2 epochId) := hmoved
    simp only [indexed, hpublished, stampEpoch, hbody, List.map_map]
    rfl

/-- **A publish in a state that satisfies the invariant shows the points as they
are**, when every point is of the commit list and no index is left behind. -/
theorem published_of_inv {generated : String} (hI : Inv series w)
    (h : w.Allowed series datetime (.published generated : SeriesEvent δ)) :
    (w.apply series datetime stdev (.published generated : SeriesEvent δ)).Published series := by
  obtain ⟨hlisted, hindex⟩ := h
  have hI' : Inv series (w.apply series datetime stdev (.published generated : SeriesEvent δ)) :=
    inv_publish hI
  cases hprofiles : series.profilesInternals with
  | false =>
    -- nothing is published, and no point carries stacks
    obtain ⟨hempty, hbare⟩ := hI'.unprofiled hprofiles
    have hnone : ∀ p, ¬ w.Shown p := by
      intro p hp
      have hcarries := (hI.unprofiled hprofiles).2 p.commit
      rw [stacksAt_of_mem hp.1] at hcarries
      exact absurd (hp.2.2.symm.trans hcarries) (by decide)
    refine ⟨fun p hp => absurd hp (hnone p), fun commit => ⟨fun hmem => ?_, ?_⟩⟩
    · rw [indexed, hempty] at hmem
      exact absurd hmem List.not_mem_nil
    · rintro ⟨p, hp, -⟩
      exact absurd hp (hnone p)
  | true =>
    refine ⟨fun p hp => ?_, fun commit => ?_⟩
    · have hp : w.Shown p := hp
      obtain ⟨file, hfile⟩ := publish_files generated hprofiles hp (hlisted p hp)
      refine ⟨file, hfile, ?_⟩
      have hne : p.commit ≠ "index" := by
        intro he
        have hlength := hI.hashes p.commit (hlisted p hp)
        rw [he] at hlength
        exact absurd hlength (by decide)
      have hstacks : w.mem.stacksAt p.commit = p.cpuStacks := stacksAt_of_mem hp.1
      rw [← hstacks]
      refine hI'.agrees p.commit hne file hfile ?_
      show carries (w.mem.stacksAt p.commit) = true
      rw [hstacks]
      exact hp.2.2
    · have hkept : Series.exported w.mem = [] → w.dir series.publishedIndex = none := by
        intro hnil
        by_contra hsome
        obtain ⟨p, hp⟩ := hindex hsome
        have hmem := shown_exported hp (hlisted p hp)
        rw [hnil] at hmem
        exact absurd hmem List.not_mem_nil
      have hindexed := publish_index generated hprofiles hI.hashes hkept
      show commit ∈ ({ w with dir := series.publish w.mem generated (fun _ => true) w.dir }
        : World).indexed series ↔ _
      rw [hindexed, List.mem_map]
      constructor
      · rintro ⟨p, hp, hcommit⟩
        exact ⟨p, (mem_exported.mp hp).1, hcommit⟩
      · rintro ⟨p, hp, hcommit⟩
        exact ⟨p, shown_exported hp (hlisted p hp), hcommit⟩

/-- **After every publish the published stacks are those of the points**, in every
run whose steps are all allowed. -/
theorem published_right {es : List (SeriesEvent δ)} {generated : String} {w' : World}
    (hrun : Run (Step series datetime stdev) fresh es w)
    (hpublish : w.Step series datetime stdev (.published generated) w') : w'.Published series := by
  have hI : Inv series w := by
    refine hrun.invariant (Inv series) inv_fresh fun a e b hstep hI => ?_
    rw [hstep.2]
    exact inv_step hI hstep.1
  rw [hpublish.2]
  exact published_of_inv hI hpublish.1

/-- No event takes a published file of a commit away, or replaces it. -/
theorem apply_dir_kept (e : SeriesEvent δ) {commit : String} (hcommit : commit ≠ "index") {file : File}
    (h : w.dir (series.publishedFile commit) = some file) :
    (w.apply series datetime stdev e).dir (series.publishedFile commit) = some file := by
  cases e with
  | completed | failed =>
    dsimp only [apply]
    split <;> exact h
  | refreshed | reset | restarted => exact h
  | published | interrupted => exact Series.publish_kept hcommit h

/-- **A published file outlives the point it was written for**, over any events. -/
theorem foldl_dir_kept (es : List (SeriesEvent δ)) {commit : String} (hcommit : commit ≠ "index")
    {file : File} (h : w.dir (series.publishedFile commit) = some file) :
    (es.foldl (World.apply series datetime stdev) w).dir (series.publishedFile commit) =
      some file := by
  refine (Run.of_fun (World.apply series datetime stdev) w es).invariant
    (fun w => w.dir (series.publishedFile commit) = some file) h ?_
  rintro a e _ rfl ih
  exact apply_dir_kept e hcommit ih

/-! ### One series -/

def oneSeries : Series := ⟨CoordinatorV3.getSeries, "amd64", "valkey-io/valkey", "unstable"⟩

open CoordinatorV3 (oneCommit)

def oneHistory : History := ⟨[oneCommit], [(oneCommit, "2026-03-01")], [], [], [], by decide⟩

/-- The fields of the cell of its one commit. -/
def cellFields : Fields :=
  Json.setField (TaskData.oneRepo.cachecannonTaskData.params.map fun p => (p.name,
      ((Json.lookup (oneSeries.coordinator.cellArguments oneCommit "history") p.name).or
        p.default).getD .null)) "sweep_commit" (.str oneCommit)

def cellTask (taskId : String) : TaskData Unit :=
  ⟨TaskData.oneRepo.cachecannonTaskData, cellFields, TaskData.standalone, (), some taskId⟩

example : (oneSeries.coordinator.createTask TaskData.oneRepo oneCommit "history" ()).toOption.map
    TaskData.fields = some cellFields := by decide +kernel

/-- One sampled frame. -/
def oneFrame (frame : String) : Json := .arr [.arr [.str frame, .int 120]]

def profiledRow (taskId frame : String) : Fields :=
  [("task_id", .str taskId), ("score", .float (.finite 1850000)),
    ("data", .obj [("cpu_stacks_main", oneFrame frame)])]

def measured (taskId frame : String) : SeriesEvent Unit :=
  .completed [profiledRow taskId frame] ⟨none, 0⟩ (cellTask taskId)

/-- The runs take the standard deviation to be zero. -/
def runSeries (es : List (SeriesEvent Unit)) : World :=
  es.foldl (World.apply oneSeries TaskData.oneDay fun _ => 0) fresh

/-- A measurement and its publish. -/
theorem published_right_measured : ∃ es w w',
    Run (Step oneSeries TaskData.oneDay fun _ => 0) fresh es w ∧
      w.Step oneSeries TaskData.oneDay (fun _ => 0) (.published "monday") w' ∧
      w'.Published oneSeries ∧ ∃ p, w'.Shown p := by
  let es := [.refreshed oneHistory, measured "m1" "processCommand"]
  have hfacts : (runSeries es).mem.points.rows.all (fun p =>
      decide (p.commit ∈ (runSeries es).mem.mergeCommits)) = true ∧
      ((runSeries es).mem.points.find? oneCommit).any (fun p =>
        p.isComplete && p.carriesStacks) = true := by decide +kernel
  obtain ⟨hlisted, hshown⟩ := hfacts
  obtain ⟨p, hp, hcarries⟩ := (Option.any_eq_true _ _).mp hshown
  rw [Bool.and_eq_true] at hcarries
  have hpoint : (runSeries es).Shown p := ⟨(Table.find?_eq_some_iff.mp hp).1, hcarries⟩
  have hrun : Run (Step oneSeries TaskData.oneDay fun _ => 0) fresh es (runSeries es) := by
    refine Run.cons (t := runSeries [.refreshed oneHistory]) ⟨trivial, rfl⟩
      (Run.single ⟨fun commit entry hrecords stored hstored => ⟨rfl, ?_⟩, rfl⟩)
    -- nothing is published yet
    intro _ file hfile
    cases hfile
  have hstep : (runSeries es).Step oneSeries TaskData.oneDay (fun _ => 0) (.published "monday")
      ((runSeries es).apply oneSeries TaskData.oneDay (fun _ => 0) (.published "monday")) := by
    refine ⟨⟨fun q hq => ?_, fun _ => ⟨p, hpoint⟩⟩, rfl⟩
    exact of_decide_eq_true (List.all_eq_true.mp hlisted q hq.1)
  exact ⟨es, _, _, hrun, hstep, published_right hrun hstep, p, hpoint⟩

/-- The series is measured, published, reset and measured again. The publish after
that leaves the file of Monday in place. -/
theorem remeasured_keeps_old : ∃ es w w',
    Run (fun a e b => b = World.apply oneSeries TaskData.oneDay (fun _ => 0) a e) fresh es w ∧
      w' = w.apply oneSeries TaskData.oneDay (fun _ => 0) (.published "tuesday") ∧
      ¬ w'.Published oneSeries := by
  let es := [.refreshed oneHistory, measured "m1" "processCommand", .published "monday", .reset,
    .restarted, .refreshed oneHistory, measured "m2" "readQueryFromClient"]
  refine ⟨es, runSeries es, _, Run.of_fun _ _ _, rfl, fun hpublished => ?_⟩
  have hpoint : ((runSeries (es ++ [.published "tuesday"])).mem.points.find? oneCommit).any
      (fun p => p.isComplete && p.carriesStacks &&
        decide (p.cpuStacks = (oneFrame "readQueryFromClient", .arr []))) = true := by
    decide +kernel
  have hfirst : ((runSeries [.refreshed oneHistory, measured "m1" "processCommand"]).mem.points.find?
      oneCommit).any (fun q => q.isComplete && q.carriesStacks &&
        decide (q.commit ∈ oneHistory.commits) &&
        decide (q.cpuStacks = (oneFrame "processCommand", .arr []))) = true := by decide +kernel
  obtain ⟨q, hq, hmeasured⟩ := (Option.any_eq_true _ _).mp hfirst
  simp only [Bool.and_eq_true, decide_eq_true_eq] at hmeasured
  obtain ⟨hqmem, hqcommit⟩ := Table.find?_eq_some_iff.mp hq
  -- Monday's file is of the first measurement, and still there on Tuesday
  obtain ⟨old, hfile⟩ := publish_files "monday" (rfl : oneSeries.profilesInternals = true)
    ⟨hqmem, hmeasured.1.1⟩ hmeasured.1.2
  have holdBody : old.body = .collapsed (oneFrame "processCommand") (.arr []) := by
    rcases Series.publish_commit (by rw [hqcommit]; decide) hfile with hnone | ⟨q', hq', hsame, hbody⟩
    · cases hnone
    · have hsame : q' = q := Table.eq_of_key_eq (mem_exported.mp hq').1.1 hqmem hsame
      rw [hbody, hsame, hmeasured.2]
      rfl
  have hkept : (runSeries (es ++ [.published "tuesday"])).dir (oneSeries.publishedFile oneCommit) =
      some old :=
    foldl_dir_kept [.reset, .restarted, .refreshed oneHistory, measured "m2" "readQueryFromClient",
      .published "tuesday"] (by decide) (hqcommit ▸ hfile)
  obtain ⟨p, hp, hshown⟩ := (Option.any_eq_true _ _).mp hpoint
  simp only [Bool.and_eq_true, decide_eq_true_eq] at hshown
  obtain ⟨hmem, hcommit⟩ := Table.find?_eq_some_iff.mp hp
  obtain ⟨file, hfound, hbody⟩ := hpublished.files p ⟨hmem, hshown.1⟩
  have hold : file.body = .collapsed (oneFrame "processCommand") (.arr []) := by
    rw [hcommit] at hfound
    obtain rfl := Option.some.inj (hkept.symm.trans hfound)
    exact holdBody
  rw [hbody, hshown.2] at hold
  exact absurd hold (by decide)

end World

end Conductress.Sweep
