import Mathlib.Logic.Relation
import Conductress.Base.Compare
import Conductress.Lib.Attempt
import Conductress.Lib.Transition
import Conductress.Sweep.StacksExport

/-!
# The manifests of a dashboard

A publish writes the files of every series, and then a feed and a manifest for each live epoch.
Every manifest advertises the same list of epochs: the live ones, and after them the archived ones,
for which nothing is measured. The manifest of an archived epoch is only written again to bring
that list up to date. Each step may fail, also in the middle of a file, and then the publish is
over.

* `manifests_agree` — from a completed publish on, whatever else is cut short, every manifest that
  can be read advertises the list;
* `archived_kept` — nothing else in the manifest of an archived epoch changes, through any
  publishes of any deployments;
* `torn_blocks` — a manifest of an archived epoch that was cut off stays so, and no publish
  completes any more.
-/

namespace Conductress.DashboardPublisher

open Lib Prog Sweep

/-! ## Files -/

/-- The files of the export directory by name: a JSON document, or a text that is none. -/
abbrev ExportTexts := String → Option (Option Json)

/-- What the publisher does with the directory; no answer is an exception. -/
inductive DirCommand : Type → Type
  /-- The files of a series under an epoch: its points, and what was profiled. -/
  | exportSeries (workload metric epoch : String) : DirCommand (Option Unit)
  /-- `export_notable`, and `_stamp_epoch`. -/
  | exportNotable (name : String) : DirCommand (Option Unit)
  | fileExists (name : String) : DirCommand (Option Bool)
  /-- `json.loads(path.read_text())`. -/
  | readText (name : String) : DirCommand (Option Json)
  | writeText (name : String) (document : Json) : DirCommand (Option Unit)
  /-- A pass of `_rsync`. -/
  | rsync : DirCommand (Option Unit)

/-- Whether a command fails, and what the exporters write. -/
structure Luck where
  fails : Option Extent
  files : ExportTexts

/-- The names of the files of a series. -/
def OfSeries (name : String) : Prop := ['s', 'e', 'r', 'i', 'e', 's', '-'] <+: name.toList

instance (name : String) : Decidable (OfSeries name) := inferInstanceAs (Decidable (_ <+: _))

/-- A file after it was written, or not, or not to its end. -/
def written (s : ExportTexts) (name : String) (document : Json) : Extent → ExportTexts
  | .nothing => s
  | .part => Function.update s name (some none)
  | .all => Function.update s name (some (some document))

/-- A command answers, unless it fails. -/
def answered {α : Type} (x : Luck) (out : α) : Option α := if x.fails = none then some out else none

def exec : {β : Type} → DirCommand β → Luck → ExportTexts → β × ExportTexts
  | _, .exportSeries _ _ _, x, s =>
    (answered x (), fun name => if OfSeries name then x.files name else s name)
  | _, .exportNotable name, x, s => (answered x (), Function.update s name (x.files name))
  | _, .fileExists name, x, s => (answered x (s name).isSome, s)
  | _, .readText name, x, s => ((answered x ()).bind fun _ => (s name).join, s)
  | _, .writeText name document, x, s =>
    (answered x (), written s name document (x.fails.getD .all))
  | _, .rsync, x, s => (answered x (), s)

/-- The directory belongs to the runner. -/
def effects : Effects DirCommand ExportTexts Luck Empty where
  exec := exec
  interfere e := nomatch e

/-! ## A deployment -/

/-- A coordinator, as the publisher asks about it. -/
structure PublishedSeries where
  workloadId : String
  metricId   : String
  /-- `_coord_epochs`: none of them is empty. -/
  epochIds   : List String
  named      : "" ∉ epochIds

/-- A runner's host, its settings and its coordinators. -/
structure Deployment where
  platformId         : String
  /-- `SWEEP_EPOCHS`. -/
  sweepEpochs        : List (String × List (String × Json))
  /-- `SWEEP_ARCHIVED_EPOCHS`: a setting with an empty name in it is refused. -/
  archivedEpochs     : List String
  named              : "" ∉ archivedEpochs
  /-- `SWEEP_EPOCH_PRECEDENCE`. -/
  epochPrecedence    : List String
  /-- The groups of charts, the same in every manifest. -/
  groups             : Json
  coordinators       : List PublishedSeries

namespace Deployment

variable (d : Deployment)

/-- `list(dict.fromkeys(..))` of the epochs of all series. -/
def epochIds : List String := (d.coordinators.flatMap PublishedSeries.epochIds).eraseDups

/-- `_epoch_def`. -/
def epochDef (epoch : String) : Json :=
  let archived := Json.bool (d.archivedEpochs.contains epoch)
  match d.sweepEpochs.lookup epoch with
  | none => .obj [("id", .str epoch), ("label", .str ("Epoch " ++ epoch)),
      ("generator", .str "unknown"), ("archived", archived)]
  | some entry => .obj (Json.setField
      (entry.foldl (fun fields f => Json.setField fields f.1 f.2) [("id", .str epoch)])
      "archived" archived)

/-- `advertised_epoch_defs`. -/
def advertisedEpochDefs (live : List String) : List Json :=
  (live ++ d.archivedEpochs).eraseDups.map d.epochDef

def manifestBase : String := "manifest-" ++ d.platformId

/-- The name `export_manifest` gives the file. -/
def manifestFile (epoch : String) : String :=
  if epoch = "v1" then d.manifestBase ++ ".json"
  else d.manifestBase ++ (".epoch-" ++ epoch) ++ ".json"

/-- The workloads of some series for a metric, each once. -/
def workloadsOf (coordinators : List PublishedSeries) (metric : String) : Json :=
  .arr (((coordinators.map fun c => (c.workloadId, c.metricId)).eraseDups.filter
    fun w => decide (w.2 = metric)).map fun w => .str w.1)

/-- `export_manifest`, the document. -/
def exportManifest (coordinators : List PublishedSeries) (epoch : String) (epochs : List Json) :
    List (String × Json) :=
  [("version", .int 3), ("platform", .str d.platformId), ("epoch", .str epoch),
    ("epochs", .arr (if epochs = [] then [.obj [("id", .str "v1"),
      ("label", .str "Legacy v1 (stock generator)"), ("generator", .str "stock")]] else epochs)),
    ("throughput_workloads", workloadsOf coordinators "throughput"),
    ("memory_workloads", workloadsOf coordinators "memory"),
    ("latency_workloads", workloadsOf coordinators "latency"),
    ("groups", d.groups)]

/-- The manifest of a live epoch. -/
def manifestOf (epoch : String) (epochs : List Json) : List (String × Json) :=
  d.exportManifest (d.coordinators.filter fun c => decide (epoch ∈ c.epochIds)) epoch epochs

end Deployment

/-! ## The programs -/

inductive PublishError where
  /-- An exception of an exporter, of the file system, of the JSON parser or of `rsync`. -/
  | commandFailed
  /-- `Invalid name ..`. -/
  | valueError
  /-- The document of a manifest is no dictionary. -/
  | attributeError
  deriving DecidableEq

abbrev Act (α : Type) := Prog DirCommand PublishError α

/-- A command, whose exceptions end the publish. -/
def perform {α : Type} (c : DirCommand (Option α)) : Act α := do
  match ← .run c with
  | some out => .pure out
  | none => .raise .commandFailed

/-- `_epoch_path`, of the file of a name with its suffix; `with_name` refuses a slash. -/
def epochTarget (name epoch : String) : Act String :=
  if epoch = "" ∨ epoch = "v1" then .pure (name ++ ".json")
  else if '/' ∈ (epochPath (name ++ ".json") epoch).toList then .raise .valueError
  else .pure (epochPath (name ++ ".json") epoch)

variable (d : Deployment)

/-- A series, under each of its epochs. -/
def publishSeries (c : PublishedSeries) : Act Unit :=
  c.epochIds.forM fun epoch => do
    let _ ← epochTarget
      ("series-" ++ d.platformId ++ "-" ++ c.workloadId ++ "-" ++ c.metricId) epoch
    perform (.exportSeries c.workloadId c.metricId epoch)

/-- The feed and the manifest of a live epoch. -/
def publishEpoch (epochs : List Json) (epoch : String) : Act Unit := do
  let notable ← epochTarget ("notable-" ++ d.platformId) epoch
  perform (.exportNotable notable)
  perform (.writeText (d.manifestFile epoch) (.obj (d.manifestOf epoch epochs)))

/-- `_refresh_archived_manifests`, for one epoch. -/
def refreshArchivedManifest (epochs : List Json) (epoch : String) : Act Unit := do
  let manifest ← epochTarget d.manifestBase epoch
  match ← perform (.fileExists manifest) with
  | false => .pure ()
  | true =>
    match ← perform (.readText manifest) with
    | .obj payload =>
      if Json.pyEq (Json.getD payload "epochs") (.arr epochs) then .pure ()
      else perform (.writeText manifest (.obj (Json.setField payload "epochs" (.arr epochs))))
    | _ => .raise .attributeError

/-- `_publish`, whose exceptions are only logged. -/
def publish : Act Unit := do
  let epochs := d.advertisedEpochDefs d.epochIds
  d.coordinators.forM (publishSeries d)
  d.epochIds.forM (publishEpoch d epochs)
  d.archivedEpochs.forM (refreshArchivedManifest d epochs)
  perform .rsync
  perform .rsync

/-- `export_archived_epoch`, of `v1`, with the coordinators whose state files there are. -/
def exportArchivedEpoch (coordinators : List PublishedSeries) : Act Unit := do
  if "v1" ∉ d.archivedEpochs then .raise .valueError
  else if coordinators.isEmpty then .pure ()
  else do
    coordinators.forM fun c => perform (.exportSeries c.workloadId c.metricId "v1")
    perform (.exportNotable ("notable-" ++ d.platformId ++ ".json"))
    perform (.writeText (d.manifestFile "v1")
      (.obj (d.exportManifest coordinators "v1" (d.advertisedEpochDefs d.epochPrecedence))))

/-! ## Names -/

variable {d}

theorem manifestFile_inj {e e' : String} (h : d.manifestFile e = d.manifestFile e') : e = e' := by
  have hlength : ∀ name : String,
      d.manifestBase ++ (".epoch-" ++ name) ++ ".json" ≠ d.manifestBase ++ ".json" := by
    intro name heq
    have hlists := congrArg (fun text => text.toList.length) heq
    simp only [String.toList_append, List.length_append] at hlists
    have hpositive : 0 < ".epoch-".toList.length := by decide
    omega
  unfold Deployment.manifestFile at h
  split_ifs at h with hv1 hv1' hv1'
  · rw [hv1, hv1']
  · exact absurd h.symm (hlength e')
  · exact absurd h (hlength e)
  · have hlists := congrArg String.toList h
    simp only [String.toList_append, List.append_assoc, List.append_cancel_left_eq] at hlists
    exact String.toList_injective (List.append_cancel_right hlists)

/-- The target is the name `export_manifest` gives the file. -/
theorem epochPath_manifest {e : String} (hne : e ≠ "") (hv1 : e ≠ "v1") :
    epochPath (d.manifestBase ++ ".json") e = d.manifestFile e := by
  rw [Deployment.manifestFile, if_neg hv1]
  exact epochPath_of_live (not_or.mpr ⟨hne, hv1⟩) _

theorem manifestFile_head (e : String) : (d.manifestFile e).toList.head? = some 'm' := by
  have hword : "manifest-".toList = ['m', 'a', 'n', 'i', 'f', 'e', 's', 't', '-'] := by decide
  unfold Deployment.manifestFile
  split
  · rw [Deployment.manifestBase, String.toList_append, String.toList_append, hword]
    rfl
  · rw [Deployment.manifestBase, String.toList_append, String.toList_append, String.toList_append,
      hword]
    rfl

/-- A file that is no manifest. -/
def NoManifest (d : Deployment) (name : String) : Prop := ∀ e, d.manifestFile e ≠ name

theorem noManifest_of_head {name : String} {c : Char} (hname : name.toList.head? = some c)
    (hc : c ≠ 'm') : NoManifest d name := by
  intro e heq
  have hhead := manifestFile_head (d := d) e
  rw [heq, hname] at hhead
  exact hc (Option.some.inj hhead)

theorem noManifest_ofSeries {name : String} (h : OfSeries name) : NoManifest d name := by
  obtain ⟨rest, hrest⟩ := h
  refine noManifest_of_head (c := 's') ?_ (by decide)
  rw [← hrest]
  rfl

/-- The files of the feeds are none. -/
theorem noManifest_notable (platformId : String) :
    NoManifest d ("notable-" ++ platformId ++ ".json") ∧ ∀ e, ¬ (e = "" ∨ e = "v1") →
      NoManifest d (epochPath ("notable-" ++ platformId ++ ".json") e) := by
  have hword : "notable-".toList = ['n', 'o', 't', 'a', 'b', 'l', 'e', '-'] := by decide
  refine ⟨noManifest_of_head (c := 'n') ?_ (by decide), fun e hlive => ?_⟩
  · rw [String.toList_append, String.toList_append, hword]
    rfl
  · rw [epochPath_of_live hlive]
    refine noManifest_of_head (c := 'n') ?_ (by decide)
    rw [String.toList_append, String.toList_append, String.toList_append, hword]
    rfl

/-! ## What a publish does to a manifest -/

/-- The manifest advertises these epochs. -/
def Advertises (epochs : List Json) (fields : List (String × Json)) : Prop :=
  Json.pyEq (Json.getD fields "epochs") (.arr epochs) = true

theorem advertises_setField (epochs : List Json) (fields : List (String × Json)) :
    Advertises epochs (Json.setField fields "epochs" (.arr epochs)) := by
  rw [Advertises, Json.getD, Json.lookup_setField]
  exact decide_eq_true rfl

theorem advertises_exportManifest {epochs : List Json} (hne : epochs ≠ [])
    (coordinators : List PublishedSeries) (e : String) :
    Advertises epochs (d.exportManifest coordinators e epochs) := by
  unfold Advertises Deployment.exportManifest
  rw [if_neg hne]
  exact decide_eq_true rfl

/-- **A step**, for the manifest of one epoch. Only that of a live epoch is written anew; another
one has to be readable. -/
inductive ManifestStep (epochs : List Json) (live : Prop) :
    Option (Option Json) → Option (Option Json) → Prop
  | written {text : Option (Option Json)} (fields : List (String × Json)) :
      live → Advertises epochs fields → ManifestStep epochs live text (some (some (.obj fields)))
  | writtenInPart {text : Option (Option Json)} : live → ManifestStep epochs live text (some none)
  | refreshed (fields : List (String × Json)) : ManifestStep epochs live (some (some (.obj fields)))
      (some (some (.obj (Json.setField fields "epochs" (.arr epochs)))))
  | refreshedInPart (fields : List (String × Json)) :
      ManifestStep epochs live (some (some (.obj fields))) (some none)

/-- Each manifest goes through some steps. -/
def Touched (d : Deployment) (epochs : List Json) (live : String → Prop) (s t : ExportTexts) :
    Prop :=
  ∀ e, Relation.ReflTransGen (ManifestStep epochs (live e)) (s (d.manifestFile e))
    (t (d.manifestFile e))

/-- No manifest is another one. -/
def Untouched (d : Deployment) (s t : ExportTexts) : Prop :=
  ∀ e, t (d.manifestFile e) = s (d.manifestFile e)

/-- The manifest of one epoch may be. -/
def Others (d : Deployment) (epoch : String) (s t : ExportTexts) : Prop :=
  ∀ e, e ≠ epoch → t (d.manifestFile e) = s (d.manifestFile e)

variable {epochs : List Json} {live : String → Prop} {s t u : ExportTexts} {e : String}

theorem Touched.trans (h : Touched d epochs live s t) (h' : Touched d epochs live t u) :
    Touched d epochs live s u := fun e => (h e).trans (h' e)

theorem Untouched.touched (h : Untouched d s t) : Touched d epochs live s t := by
  intro e
  rw [h e]

theorem Untouched.trans (h : Untouched d s t) (h' : Untouched d t u) : Untouched d s u :=
  fun e => (h' e).trans (h e)

theorem Others.touched (h : Others d e s t)
    (hstep : ManifestStep epochs (live e) (s (d.manifestFile e)) (t (d.manifestFile e))) :
    Touched d epochs live s t := by
  intro other
  by_cases hother : other = e
  · rw [hother]
    exact .single hstep
  · rw [h other hother]

theorem others_update (s : ExportTexts) (e : String) (text : Option (Option Json)) :
    Others d e s (Function.update s (d.manifestFile e) text) := by
  intro other hother
  exact Function.update_of_ne (fun h => hother (manifestFile_inj h)) _ _

/-- The manifest of a live epoch is written, or not, or in part. -/
theorem touched_written (hlive : live e) {fields : List (String × Json)}
    (hadvertises : Advertises epochs fields) (extent : Extent) :
    Touched d epochs live s (written s (d.manifestFile e) (.obj fields) extent) := by
  cases extent with
  | nothing => exact fun _ => .refl
  | part =>
    refine (others_update s e _).touched ?_
    rw [Function.update_self]
    exact .writtenInPart hlive
  | all =>
    refine (others_update s e _).touched ?_
    rw [Function.update_self]
    exact .written _ hlive hadvertises

/-- So is the list of epochs in another one. -/
theorem touched_refreshed {fields : List (String × Json)}
    (hfields : s (d.manifestFile e) = some (some (.obj fields))) (extent : Extent) :
    Touched d epochs live s (written s (d.manifestFile e)
      (.obj (Json.setField fields "epochs" (.arr epochs))) extent) := by
  cases extent with
  | nothing => exact fun _ => .refl
  | part =>
    refine (others_update s e _).touched ?_
    rw [Function.update_self, hfields]
    exact .refreshedInPart fields
  | all =>
    refine (others_update s e _).touched ?_
    rw [Function.update_self, hfields]
    exact .refreshed fields

/-! ## The commands -/

/-- What holds after a command, whether it answers or not. -/
theorem within_perform {α : Type} {c : DirCommand (Option α)} {I : ExportTexts → Prop}
    {Q : α → ExportTexts → Prop} (hI : I s)
    (h : ∀ x, I (exec c x s).2 ∧ ∀ a, (exec c x s).1 = some a → Q a (exec c x s).2) :
    (perform c).Within effects I Q s := by
  unfold perform
  rw [within_bind, within_run]
  refine ⟨hI, fun x => ⟨(h x).1, ?_⟩⟩
  show Within effects I Q (match (exec c x s).1 with
    | some out => (.pure out : Act α)
    | none => .raise .commandFailed) (exec c x s).2
  split
  · next out hout => exact ⟨(h x).1, (h x).2 out hout⟩
  · exact (h x).1

theorem within_epochTarget {name : String} {I : ExportTexts → Prop}
    {Q : String → ExportTexts → Prop} (hI : I s)
    (hQ : Q (if e = "" ∨ e = "v1" then name ++ ".json" else epochPath (name ++ ".json") e) s) :
    (epochTarget name e).Within effects I Q s := by
  unfold epochTarget
  split_ifs at hQ ⊢
  · exact ⟨hI, hQ⟩
  · exact hI
  · exact ⟨hI, hQ⟩

theorem answered_some {α : Type} {x : Luck} {out a : α} (h : answered x out = some a) :
    x.fails = none ∧ a = out := by
  unfold answered at h
  split_ifs at h with hfails
  exact ⟨hfails, (Option.some.inj h).symm⟩

/-- The files of a series are no manifests. -/
theorem within_exportSeries (workload metric : String) :
    (perform (.exportSeries workload metric e)).Within effects (Untouched d s)
      (fun _ t => Untouched d s t) s := by
  have hafter : ∀ x, Untouched d s (exec (.exportSeries workload metric e) x s).2 :=
    fun x other => if_neg fun h => noManifest_ofSeries h other rfl
  exact within_perform (fun _ => rfl) fun x => ⟨hafter x, fun _ _ => hafter x⟩

theorem within_exportNotable {name : String} (hname : NoManifest d name) :
    (perform (.exportNotable name)).Within effects (Untouched d s)
      (fun _ t => Untouched d s t) s := by
  have hafter : ∀ x, Untouched d s (exec (.exportNotable name) x s).2 :=
    fun x other => Function.update_of_ne (hname other) _ _
  exact within_perform (fun _ => rfl) fun x => ⟨hafter x, fun _ _ => hafter x⟩

theorem within_rsync : (perform .rsync).Within effects (Untouched d s) (fun _ t => t = s) s :=
  within_perform (fun _ => rfl) fun _ => ⟨fun _ => rfl, fun _ _ => rfl⟩

/-! ## The programs, step by step -/

theorem within_publishSeries (c : PublishedSeries) :
    (publishSeries d c).Within effects (Untouched d s) (fun _ t => Untouched d s t) s := by
  refine within_forM (J := fun _ t => Untouched d s t) ?_ (fun _ => rfl) fun _ => rfl
  intro _ epoch _ _ t ht _
  rw [within_bind]
  refine within_epochTarget ht ?_
  exact ((within_exportSeries c.workloadId c.metricId).weaken fun u hu => ht.trans hu).conseq
    fun _ u hu => ht.trans hu

/-- The manifest of a live epoch is written anew. -/
theorem within_publishEpoch (hlive : live e) (hne : epochs ≠ []) :
    (publishEpoch d epochs e).Within effects (Touched d epochs live s)
      (fun _ t => Others d e s t ∧
        t (d.manifestFile e) = some (some (.obj (d.manifestOf e epochs)))) s := by
  have hhere : Touched d epochs live s s := fun _ => .refl
  have hadvertises : Advertises epochs (d.manifestOf e epochs) := advertises_exportManifest hne _ e
  unfold publishEpoch
  rw [within_bind]
  refine within_epochTarget hhere ?_
  rw [within_bind]
  have hname : NoManifest d (if e = "" ∨ e = "v1" then "notable-" ++ d.platformId ++ ".json"
      else epochPath ("notable-" ++ d.platformId ++ ".json") e) := by
    split
    · exact (noManifest_notable d.platformId).1
    · next hother => exact (noManifest_notable d.platformId).2 e hother
  refine ((within_exportNotable hname).weaken fun t ht => ht.touched).conseq fun _ t ht => ?_
  -- the manifest, after the feed
  refine within_perform ht.touched fun x => ⟨?_, fun a ha => ?_⟩
  · exact ht.touched.trans (touched_written hlive hadvertises (x.fails.getD .all))
  · obtain ⟨hfails, -⟩ := answered_some ha
    show Others d e s (written t _ _ (x.fails.getD .all)) ∧
      written t (d.manifestFile e) _ (x.fails.getD .all) (d.manifestFile e) = _
    rw [hfails]
    exact ⟨fun other hother => (others_update t e _ other hother).trans (ht other),
      Function.update_self ..⟩

/-- A document that advertises the list. -/
def UpToDate (epochs : List Json) (text : Option (Option Json)) : Prop :=
  ∃ fields, text = some (some (.obj fields)) ∧ Advertises epochs fields

/-- A manifest that is absent is left absent, and another one is brought up to date. -/
theorem within_refresh (hne : e ≠ "") :
    (refreshArchivedManifest d epochs e).Within effects (Touched d epochs live s)
      (fun _ t => Others d e s t ∧ (s (d.manifestFile e) = none ∧ t (d.manifestFile e) = none ∨
        UpToDate epochs (t (d.manifestFile e)))) s := by
  have hhere : Touched d epochs live s s := fun _ => .refl
  unfold refreshArchivedManifest
  rw [within_bind]
  refine within_epochTarget hhere ?_
  have hname : (if e = "" ∨ e = "v1" then d.manifestBase ++ ".json"
      else epochPath (d.manifestBase ++ ".json") e) = d.manifestFile e := by
    split
    · next h =>
      rw [Deployment.manifestFile, if_pos (h.resolve_left hne)]
    · next h => exact epochPath_manifest hne fun hv1 => h (.inr hv1)
  rw [hname, within_bind]
  refine within_perform hhere fun x => ⟨hhere, fun there hthere => ?_⟩
  obtain ⟨-, rfl⟩ := answered_some hthere
  show Within effects _ _ _ s
  cases htext : s (d.manifestFile e) with
  | none => exact ⟨hhere, fun _ _ => rfl, .inl ⟨rfl, htext⟩⟩
  | some text =>
    show Within effects _ _ (perform (.readText (d.manifestFile e)) >>= _) s
    rw [within_bind]
    refine within_perform hhere fun x => ⟨hhere, fun document hdocument => ?_⟩
    obtain ⟨_, -, hread⟩ := Option.bind_eq_some_iff.mp hdocument
    rw [htext] at hread
    have htext' : s (d.manifestFile e) = some (some document) := htext.trans (congrArg some hread)
    show Within effects _ _ _ s
    cases document with
    | obj payload =>
      dsimp only
      split
      · next hsame => exact ⟨hhere, fun _ _ => rfl, .inr ⟨payload, htext', hsame⟩⟩
      · refine within_perform hhere fun x => ⟨?_, fun a ha => ?_⟩
        · exact touched_refreshed htext' (x.fails.getD .all)
        · obtain ⟨hfails, -⟩ := answered_some ha
          show Others d e s (written s _ _ (x.fails.getD .all)) ∧ (_ ∨
            UpToDate epochs (written s (d.manifestFile e) _ (x.fails.getD .all) (d.manifestFile e)))
          rw [hfails]
          exact ⟨others_update s e _, .inr ⟨_, Function.update_self .., advertises_setField _ _⟩⟩
    | _ => exact hhere

/-- After a publish. -/
structure Completed (d : Deployment) (epochs : List Json) (t : ExportTexts) : Prop where
  live     : ∀ e ∈ d.epochIds, UpToDate epochs (t (d.manifestFile e))
  archived : ∀ e ∈ d.archivedEpochs, t (d.manifestFile e) = none ∨
    UpToDate epochs (t (d.manifestFile e))

section Publish

variable (hepochs : ∀ e ∈ d.epochIds, epochs ≠ [])
  (htouched : Touched d epochs (· ∈ d.epochIds) s t)
include hepochs htouched

theorem within_liveEpochs : (d.epochIds.forM (publishEpoch d epochs)).Within effects
    (Touched d epochs (· ∈ d.epochIds) s)
    (fun _ u => ∀ e ∈ d.epochIds, UpToDate epochs (u (d.manifestFile e))) t := by
  refine within_forM (J := fun before u => ∀ e ∈ before, UpToDate epochs (u (d.manifestFile e)))
    ?_ htouched (by simp)
  intro before e after hids u hu hbefore
  have he : e ∈ d.epochIds := by
    rw [← hids]
    exact List.mem_append_right _ List.mem_cons_self
  have hne := hepochs e he
  refine ((within_publishEpoch he hne).weaken fun v hv => hu.trans hv).conseq fun _ v hv => ?_
  intro other hother
  by_cases hsame : other = e
  · rw [hsame]
    exact ⟨_, hv.2, advertises_exportManifest hne _ e⟩
  · rw [hv.1 other hsame]
    refine hbefore other ((List.mem_append.mp hother).resolve_right fun h => hsame ?_)
    exact List.mem_singleton.mp h

omit hepochs

/-- Some of the archived epochs may be live as well. -/
theorem within_archivedEpochs
    (hlive : ∀ e ∈ d.epochIds, UpToDate epochs (t (d.manifestFile e))) :
    (d.archivedEpochs.forM (refreshArchivedManifest d epochs)).Within effects
      (Touched d epochs (· ∈ d.epochIds) s) (fun _ u => Completed d epochs u) t := by
  refine Within.conseq (within_forM (J := fun before u =>
    (∀ e ∈ d.epochIds, UpToDate epochs (u (d.manifestFile e))) ∧ ∀ e ∈ before,
      u (d.manifestFile e) = none ∨ UpToDate epochs (u (d.manifestFile e))) ?_ htouched
    ⟨hlive, by simp⟩) fun _ u hu => ⟨hu.1, hu.2⟩
  intro before e after hids u hu hbefore
  have he : e ≠ "" := by
    rintro rfl
    refine d.named ?_
    rw [← hids]
    exact List.mem_append_right _ List.mem_cons_self
  refine ((within_refresh he).weaken fun v hv => hu.trans hv).conseq fun _ v hv => ?_
  refine ⟨fun other hother => ?_, fun other hother => ?_⟩
  · by_cases hsame : other = e
    · subst hsame
      obtain ⟨fields, hfields, -⟩ := hbefore.1 other hother
      refine hv.2.resolve_left fun h => ?_
      rw [hfields] at h
      cases h.1
    · rw [hv.1 other hsame]
      exact hbefore.1 other hother
  · by_cases hsame : other = e
    · subst hsame
      exact hv.2.imp And.right id
    · rw [hv.1 other hsame]
      refine hbefore.2 other ((List.mem_append.mp hother).resolve_right fun h => hsame ?_)
      exact List.mem_singleton.mp h

end Publish

theorem advertisedEpochDefs_ne_nil {ids : List String} (he : e ∈ ids ++ d.archivedEpochs) :
    d.advertisedEpochDefs ids ≠ [] := by
  intro hnil
  have hmem := List.mem_eraseDups.mpr he
  rw [List.map_eq_nil_iff.mp hnil] at hmem
  cases hmem

/-- **A publish** leaves what it should where it completes, whatever was there before. -/
theorem within_publish (d : Deployment) (s : ExportTexts) :
    (publish d).Within effects
      (Touched d (d.advertisedEpochDefs d.epochIds) (· ∈ d.epochIds) s)
      (fun _ t => Completed d (d.advertisedEpochDefs d.epochIds) t) s := by
  have hepochs : ∀ e ∈ d.epochIds, d.advertisedEpochDefs d.epochIds ≠ [] :=
    fun e he => advertisedEpochDefs_ne_nil (List.mem_append_left _ he)
  have hseries : (d.coordinators.forM (publishSeries d)).Within effects (Untouched d s)
      (fun _ t => Untouched d s t) s := by
    refine within_forM (J := fun _ t => Untouched d s t) ?_ (fun _ => rfl) fun _ => rfl
    intro _ c _ _ t ht _
    exact ((within_publishSeries c).weaken fun u hu => ht.trans hu).conseq fun _ u hu => ht.trans hu
  unfold publish
  dsimp only
  rw [within_bind]
  refine (hseries.weaken fun t ht => ht.touched).conseq fun _ t ht => ?_
  rw [within_bind]
  refine (within_liveEpochs hepochs ht.touched).keep.conseq fun _ u hu => ?_
  rw [within_bind]
  refine (within_archivedEpochs hu.1 hu.2).keep.conseq fun _ v hv => ?_
  rw [within_bind]
  refine (within_rsync.weaken fun w hw => hv.1.trans hw.touched).conseq ?_
  rintro _ _ rfl
  refine (within_rsync.weaken fun w hw => hv.1.trans hw.touched).conseq ?_
  rintro _ _ rfl
  exact hv.2

/-- **An archived export** writes the manifest of `v1`, and no other one. -/
theorem within_exportArchivedEpoch (coordinators : List PublishedSeries) :
    (exportArchivedEpoch d coordinators).Within effects
      (Touched d (d.advertisedEpochDefs d.epochPrecedence) (· = "v1") s) (fun _ _ => True) s := by
  have hhere : Touched d (d.advertisedEpochDefs d.epochPrecedence) (· = "v1") s s := fun _ => .refl
  unfold exportArchivedEpoch
  split
  · exact hhere
  · next harchived =>
    have hne : d.advertisedEpochDefs d.epochPrecedence ≠ [] :=
      advertisedEpochDefs_ne_nil (List.mem_append_right _ (not_not.mp harchived))
    split
    · exact ⟨hhere, trivial⟩
    · rw [within_bind]
      have hseries : (coordinators.forM fun c =>
          perform (.exportSeries c.workloadId c.metricId "v1")).Within effects (Untouched d s)
            (fun _ t => Untouched d s t) s := by
        refine within_forM (J := fun _ t => Untouched d s t) ?_ (fun _ => rfl) fun _ => rfl
        intro _ c _ _ t ht _
        exact ((within_exportSeries c.workloadId c.metricId).weaken fun u hu => ht.trans hu).conseq
          fun _ u hu => ht.trans hu
      refine (hseries.weaken fun t ht => ht.touched).conseq fun _ t ht => ?_
      rw [within_bind]
      have hnotable := within_exportNotable (s := t) (noManifest_notable (d := d) d.platformId).1
      refine (hnotable.weaken fun u hu => (ht.trans hu).touched).conseq fun _ u hu => ?_
      have hu' : Touched d (d.advertisedEpochDefs d.epochPrecedence) (· = "v1") s u :=
        (ht.trans hu).touched
      refine within_perform hu' fun x => ⟨hu'.trans ?_, fun _ _ => trivial⟩
      show Touched d _ (· = "v1") u (written u _ _ (x.fails.getD .all))
      refine touched_written ?_ (advertises_exportManifest hne _ _) _
      rfl

/-! ## Runs -/

/-- Every document that can be read is a manifest that advertises the list. -/
def Agrees (epochs : List Json) (text : Option (Option Json)) : Prop :=
  ∀ document, text = some (some document) → UpToDate epochs text

/-- A manifest that is there stays, and agrees if it agreed. -/
theorem agrees_steps {live : Prop} {text text' : Option (Option Json)}
    (h : Relation.ReflTransGen (ManifestStep epochs live) text text') :
    (text ≠ none → text' ≠ none) ∧ (Agrees epochs text → Agrees epochs text') := by
  induction h with
  | refl => exact ⟨id, id⟩
  | tail _ hstep ih =>
    obtain ⟨hthere, hagrees⟩ := ih
    cases hstep with
    | written fields _ hadvertises => exact ⟨by simp, fun _ _ _ => ⟨fields, rfl, hadvertises⟩⟩
    | writtenInPart => exact ⟨by simp, fun _ _ h => by cases h⟩
    | refreshed fields => exact ⟨by simp, fun _ _ _ => ⟨_, rfl, advertises_setField _ _⟩⟩
    | refreshedInPart => exact ⟨by simp, fun _ _ h => by cases h⟩

/-- What happens to the directory of a deployment: a publish, or an export of the archived epoch,
that may end anywhere. -/
inductive DirActivity where
  | published (ending : Ending PublishError Unit)
  | exported (coordinators : List PublishedSeries) (ending : Ending PublishError Unit)

def DirStep (d : Deployment) (s : ExportTexts) : DirActivity → ExportTexts → Prop
  | .published ending, t => Attempt effects (publish d) s ending t
  | .exported coordinators ending, t =>
    Attempt effects (exportArchivedEpoch d coordinators) s ending t

/-- **The manifests agree** from a completed publish on. Whatever follows, and wherever it ends,
the manifests of the live epochs are there, and what can be read of a manifest advertises the same
epochs. -/
theorem manifests_agree {es : List DirActivity}
    (hprecedence : d.advertisedEpochDefs d.epochPrecedence = d.advertisedEpochDefs d.epochIds)
    (hfirst : Attempt effects (publish d) s (.returned ()) t) (hrun : Run (DirStep d) t es u) :
    (∀ e ∈ d.epochIds, u (d.manifestFile e) ≠ none) ∧
      ∀ e ∈ d.epochIds ++ d.archivedEpochs,
        Agrees (d.advertisedEpochDefs d.epochIds) (u (d.manifestFile e)) := by
  have hcompleted := ((within_publish d s).attempt hfirst).2 () rfl
  refine hrun.invariant (fun v => (∀ e ∈ d.epochIds, v (d.manifestFile e) ≠ none) ∧
    ∀ e ∈ d.epochIds ++ d.archivedEpochs,
      Agrees (d.advertisedEpochDefs d.epochIds) (v (d.manifestFile e))) ?_ ?_
  · refine ⟨fun e he hnone => ?_, fun e he document hdocument => ?_⟩
    · obtain ⟨fields, hfields, -⟩ := hcompleted.live e he
      rw [hnone] at hfields
      cases hfields
    · rcases List.mem_append.mp he with he | he
      · exact hcompleted.live e he
      · refine (hcompleted.archived e he).resolve_left fun hnone => ?_
        rw [hnone] at hdocument
        cases hdocument
  · intro v activity w hstep hv
    -- both programs only take steps that advertise this list
    obtain ⟨live, htouched⟩ : ∃ live, Touched d (d.advertisedEpochDefs d.epochIds) live v w := by
      cases activity with
      | published ending => exact ⟨_, ((within_publish d v).attempt hstep).1⟩
      | exported coordinators ending =>
        exact ⟨_, hprecedence ▸ ((within_exportArchivedEpoch coordinators).attempt hstep).1⟩
    exact ⟨fun e he => (agrees_steps (htouched e)).1 (hv.1 e he),
      fun e he => (agrees_steps (htouched e)).2 (hv.2 e he)⟩

/-- `SWEEP_EPOCHS`, as it is shipped. -/
def shippedEpochs : List (String × List (String × Json)) := [
  ("v1", [("label", .str "Legacy v1 (stock generator)"), ("generator", .str "stock")]),
  ("v2", [("label", .str "Scalable v2 (patched generator)"), ("generator", .str "patched")]),
  ("v3", [("label", .str "Cachecannon v3 (io_uring generator)"),
    ("generator", .str "cachecannon")])]

/-- One series that is measured, and the archived epoch. -/
def oneSeries : Deployment where
  platformId      := "amd64"
  sweepEpochs     := shippedEpochs
  archivedEpochs  := ["v1"]
  named           := by decide
  epochPrecedence := ["v3"]
  groups          := .arr []
  coordinators    := [⟨"get", "throughput", ["v3"], by decide⟩]

def oldManifest : List (String × Json) :=
  [("epoch", .str "v1"), ("throughput_workloads", .arr [.str "get"])]

/-- A directory with the manifest of the archived epoch, before there were others. -/
def oldDirectory : ExportTexts := fun name =>
  if name = "manifest-amd64.json" then some (some (.obj oldManifest)) else none

def smooth : Luck := ⟨none, fun _ => none⟩

theorem oneSeries_returns : ((publish oneSeries).eval effects smooth oldDirectory).1 = .ok () := by
  decide +kernel

/-- The second publish dies when it has written the manifest of the live epoch. -/
theorem manifests_agree_after_death : ∃ t u,
    Attempt effects (publish oneSeries) oldDirectory (.returned ()) t ∧
      Run (DirStep oneSeries) t [.published .cut] u ∧ u (oneSeries.manifestFile "v3") ≠ none ∧
        Agrees (oneSeries.advertisedEpochDefs ["v3"]) (u (oneSeries.manifestFile "v1")) := by
  obtain ⟨t, hfirst⟩ : ∃ t, Attempt effects (publish oneSeries) oldDirectory (.returned ()) t :=
    ⟨_, attempt_of_eval smooth oneSeries_returns⟩
  obtain ⟨u, hcut⟩ : ∃ u, Attempt effects (publish oneSeries) t .cut u :=
    ⟨_, attempt_of_after smooth (publish oneSeries) 3 t⟩
  have hrun : Run (DirStep oneSeries) t [.published .cut] u := .single hcut
  have hids : oneSeries.epochIds = ["v3"] := by decide +kernel
  obtain ⟨hlive, hagrees⟩ := manifests_agree (by rw [hids]; rfl) hfirst hrun
  rw [hids] at hlive hagrees
  exact ⟨t, u, hfirst, hrun, hlive "v3" (by decide), hagrees "v1" (by decide)⟩

/-! ## The history of an archived epoch -/

/-- A publish of some deployment on the host, that does not measure the epoch. -/
def PublishWithout (platformId epoch : String) (s : ExportTexts)
    (a : Deployment × Ending PublishError Unit) (t : ExportTexts) : Prop :=
  a.1.platformId = platformId ∧ epoch ∉ a.1.epochIds ∧ Attempt effects (publish a.1) s a.2 t

theorem manifestFile_congr {d' : Deployment} (h : d'.platformId = d.platformId) (e : String) :
    d'.manifestFile e = d.manifestFile e := by
  rw [Deployment.manifestFile, Deployment.manifestBase, h]
  rfl

/-- A publish without the epoch refreshes its manifest, or does nothing to it. -/
theorem steps_of_publishWithout {a : Deployment × Ending PublishError Unit}
    (h : PublishWithout d.platformId e s a t) :
    Relation.ReflTransGen (ManifestStep (a.1.advertisedEpochDefs a.1.epochIds) False)
      (s (d.manifestFile e)) (t (d.manifestFile e)) := by
  obtain ⟨hplatform, hdead, hattempt⟩ := h
  have htouched := ((within_publish a.1 s).attempt hattempt).1 e
  rw [manifestFile_congr hplatform] at htouched
  refine Relation.ReflTransGen.mono (fun _ _ hstep => ?_) _ _ htouched
  cases hstep with
  | written _ hlive => exact absurd hlive hdead
  | writtenInPart hlive => exact absurd hlive hdead
  | refreshed fields => exact .refreshed fields
  | refreshedInPart fields => exact .refreshedInPart fields

/-- A manifest that can be read has these entries, apart from the list of epochs. -/
def Keeps (fields : List (String × Json)) (text : Option (Option Json)) : Prop :=
  ∀ document, text = some (some document) → ∃ fields', document = .obj fields' ∧
    ∀ key, key ≠ "epochs" → Json.lookup fields' key = Json.lookup fields key

theorem keeps_steps {fields : List (String × Json)} {text text' : Option (Option Json)}
    (h : Relation.ReflTransGen (ManifestStep epochs False) text text')
    (hkeeps : Keeps fields text) : Keeps fields text' := by
  induction h with
  | refl => exact hkeeps
  | tail _ hstep ih =>
    cases hstep with
    | written _ hlive => exact hlive.elim
    | writtenInPart hlive => exact hlive.elim
    | refreshedInPart => exact fun _ h => by cases h
    | refreshed before =>
      rintro document hdocument
      cases hdocument
      obtain ⟨fields', hfields', hsame⟩ := ih _ rfl
      cases hfields'
      exact ⟨_, rfl, fun key hkey => (Json.lookup_setField_of_ne hkey _).trans (hsame key hkey)⟩

/-- **An archived epoch keeps its history**: through any publishes of any deployments, to their ends
or not, its manifest stays, and what can be read of it says what it said, apart from the list of
epochs. -/
theorem archived_kept {as : List (Deployment × Ending PublishError Unit)}
    {fields : List (String × Json)} (hfields : s (d.manifestFile e) = some (some (.obj fields)))
    (hrun : Run (PublishWithout d.platformId e) s as t) :
    t (d.manifestFile e) ≠ none ∧ Keeps fields (t (d.manifestFile e)) := by
  refine hrun.invariant (fun u => u (d.manifestFile e) ≠ none ∧ Keeps fields (u (d.manifestFile e)))
    ⟨by simp [hfields], fun document hdocument => ?_⟩ fun u a v hstep hu => ?_
  · rw [hfields] at hdocument
    cases hdocument
    exact ⟨fields, rfl, fun _ _ => rfl⟩
  · have hsteps := steps_of_publishWithout hstep
    exact ⟨(agrees_steps hsteps).1 hu.1, keeps_steps hsteps hu.2⟩

theorem archived_kept_old : ∃ t,
    Run (PublishWithout "amd64" "v1") oldDirectory [(oneSeries, .returned ())] t ∧
      Keeps oldManifest (t "manifest-amd64.json") := by
  obtain ⟨t, hattempt⟩ : ∃ t, Attempt effects (publish oneSeries) oldDirectory (.returned ()) t :=
    ⟨_, attempt_of_eval smooth oneSeries_returns⟩
  have hrun : Run (PublishWithout oneSeries.platformId "v1") oldDirectory
      [(oneSeries, .returned ())] t := .single ⟨rfl, by decide +kernel, hattempt⟩
  have hfile : oneSeries.manifestFile "v1" = "manifest-amd64.json" := by decide
  have hkept := archived_kept (d := oneSeries) (e := "v1") (by rw [hfile]; rfl) hrun
  rw [hfile] at hkept
  exact ⟨t, hrun, hkept.2⟩

/-- Nothing is done to a manifest that cannot be read. -/
theorem torn_steps {text : Option (Option Json)}
    (h : Relation.ReflTransGen (ManifestStep epochs False) (some none) text) :
    text = some none := by
  induction h with
  | refl => rfl
  | tail _ hstep ih =>
    rw [ih] at hstep
    cases hstep with
    | written _ hlive => exact hlive.elim
    | writtenInPart => rfl

/-- **One manifest that was cut off blocks the publisher**: it stays as it is, and no publish that
should bring it up to date completes. -/
theorem torn_blocks {as : List (Deployment × Ending PublishError Unit)}
    (htorn : s (d.manifestFile e) = some none)
    (hrun : Run (fun u (a : Deployment × Ending PublishError Unit) v =>
      PublishWithout d.platformId e u a v ∧ e ∈ a.1.archivedEpochs) s as t) :
    t (d.manifestFile e) = some none ∧ ∀ a ∈ as, a.2 ≠ .returned () := by
  induction hrun with
  | refl => exact ⟨htorn, fun _ ha => absurd ha List.not_mem_nil⟩
  | @snoc u v as a _ hstep ih =>
    obtain ⟨hstep, harchived⟩ := hstep
    obtain ⟨hbefore, hnone⟩ := ih
    have hsteps := steps_of_publishWithout hstep
    rw [hbefore] at hsteps
    have hafter := torn_steps hsteps
    refine ⟨hafter, fun b hb => ?_⟩
    rcases List.mem_append.mp hb with hb | hb
    · exact hnone b hb
    · rw [List.mem_singleton.mp hb]
      intro hreturned
      -- where it completes, the manifest would be readable
      have hcompleted := ((within_publish a.1 u).attempt hstep.2.2).2 () hreturned
      rcases hcompleted.archived e harchived with hgone | ⟨fields, hfields, -⟩
      · rw [manifestFile_congr hstep.1, hafter] at hgone
        cases hgone
      · rw [manifestFile_congr hstep.1, hafter] at hfields
        cases hfields

/-- The host died when the old manifest was refreshed; the next publish raises. -/
theorem torn_blocks_next : ∃ t,
    Run (fun u (a : Deployment × Ending PublishError Unit) v =>
      PublishWithout "amd64" "v1" u a v ∧ "v1" ∈ a.1.archivedEpochs)
        (Function.update oldDirectory "manifest-amd64.json" (some none))
        [(oneSeries, .raised .commandFailed)] t ∧
      t "manifest-amd64.json" = some none := by
  have hraises : ((publish oneSeries).eval effects smooth
      (Function.update oldDirectory "manifest-amd64.json" (some none))).1 =
        .error .commandFailed := by decide +kernel
  obtain ⟨t, hattempt⟩ : ∃ t, Attempt effects (publish oneSeries)
      (Function.update oldDirectory "manifest-amd64.json" (some none)) (.raised .commandFailed) t :=
    ⟨_, attempt_of_raised smooth hraises⟩
  have hrun : Run (fun u (a : Deployment × Ending PublishError Unit) v =>
      PublishWithout oneSeries.platformId "v1" u a v ∧ "v1" ∈ a.1.archivedEpochs)
        (Function.update oldDirectory "manifest-amd64.json" (some none))
        [(oneSeries, .raised .commandFailed)] t :=
    .single ⟨⟨rfl, by decide +kernel, hattempt⟩, by decide⟩
  have hfile : oneSeries.manifestFile "v1" = "manifest-amd64.json" := by decide
  have htorn := torn_blocks (d := oneSeries) (e := "v1") (by rw [hfile]; rfl) hrun
  rw [hfile] at htorn
  exact ⟨t, hrun, htorn.1⟩

end Conductress.DashboardPublisher
