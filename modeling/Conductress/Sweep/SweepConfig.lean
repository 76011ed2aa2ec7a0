import Conductress.Base.JsonText
import Conductress.Lib.Transition

/-!
# Focus, pause and resume

`sweep_config.json` between the CLI, which writes the file in place, and the runner, which
takes what it cannot read for the default. A call of the CLI truncates the file and writes its
document, in as many pieces as the system makes of it, or removes the file; a load sees whether
the file is there, and then reads what is in it.

* `Consistent` — what the file holds, at every point of a call;
* `load_iff` — the loads that see one of the two configurations;
* `loads_faithful` — the loads of a run.
-/

namespace Conductress

/-- The fields have the types that they are given. -/
structure SweepConfig where
  mode   : Json
  target : Json
  paused : Json
  deriving DecidableEq

namespace SweepConfig

open Lib

/-- `SweepConfig(mode, target, paused)`, with `__post_init__`. -/
def new (mode target paused : Json) : SweepConfig :=
  ⟨mode, target, if paused = .null then .arr [] else paused⟩

/-- `SweepConfig()`. -/
def default : SweepConfig := new (.str "normal") .null .null

/-! ## Selectors -/

/-- `parse_selector`. -/
def parseSelector (selector : String) : Option String × String :=
  match PyText.splitAt (fun c => decide (c = ':')) selector.toList with
  | (_, none) => (none, String.ofList (PyText.strip selector.toList))
  | (epoch, some workload) =>
    (some (String.ofList (PyText.strip epoch)), String.ofList (PyText.strip workload))

/-- `selector_matches`. -/
def selectorMatches (selector workloadId epochId : String) : Bool :=
  match parseSelector selector with
  | (wantEpoch, wantWorkload) =>
    -- a selector without an epoch matches in all of them
    if wantEpoch.any fun epoch => decide (epoch ≠ epochId) then false
    else if wantWorkload = "" ∨ wantWorkload = "*" then true
    else decide (wantWorkload = workloadId)

/-- `selector_matches` of what a document holds. -/
def valueMatches (workloadId epochId : String) : Json → Except PyError Bool
  | .str selector => .ok (selectorMatches selector workloadId epochId)
  | _ => .error (.attributeError "object has no attribute 'partition'")

/-- `any` over the selectors, which stops at the first that matches. -/
def anyMatches (workloadId epochId : String) : List Json → Except PyError Bool
  | [] => .ok false
  | selector :: rest => do
    if ← valueMatches workloadId epochId selector then return true
    else anyMatches workloadId epochId rest

/-- What a `for` over a value goes through. -/
def iterated : Json → Except PyError (List Json)
  | .arr items => .ok items
  | .obj fields => .ok (fields.map fun field => .str field.1)
  | .str text => .ok (text.toList.map fun c => .str (String.ofList [c]))
  | _ => .error (.typeError "object is not iterable")

/-- `is_allowed`. -/
def isAllowed (config : SweepConfig) (workloadId epochId : String) : Except PyError Bool :=
  if config.mode = .str "focus" then
    if config.target = .null then .ok false else valueMatches workloadId epochId config.target
  else if config.mode = .str "paused" then do
    let selectors ← iterated (config.paused.orElse (.arr []))
    return !(← anyMatches workloadId epochId selectors)
  else .ok true

example : (new (.str "paused") .null (.arr [.str "v1:*"])).isAllowed "throughput" "v1" =
    .ok false := by decide

/-! ## The file -/

/-- The dictionary of `save_sweep_config`. -/
def document (config : SweepConfig) : Json :=
  .obj ([("mode", config.mode)] ++
    -- a target that is empty is left out, as is a list that is
    (if config.target.truthy then [("target", config.target)] else []) ++
    (if config.paused.truthy then [("paused", config.paused)] else []))

/-- What `load_sweep_config` makes of a document. -/
def ofDocument : Json → Except PyError SweepConfig
  | .obj fields =>
    .ok (new ((Json.lookup fields "mode").getD (.str "normal")) (Json.getD fields "target")
      ((Json.lookup fields "paused").getD (.arr [])))
  | _ => .error (.attributeError "object has no attribute 'get'")

/-- The text that `save_sweep_config` writes, all of it ASCII. -/
def text (floatText : Rat → List Char) (config : SweepConfig) : List Char :=
  Json.dumpsIndent floatText 0 config.document ++ ['\n']

/-- `load_sweep_config` once the file is there: what is in it by now, if it still is. -/
def read : Option (List Char) → Except PyError SweepConfig
  | none => .error (.osError "FileNotFoundError")
  | some content =>
    match Json.loads content with
    -- an empty file is no JSON either
    | .error .decode => .ok default
    | .error .tooManyDigits =>
      .error (.valueError "Exceeds the limit (4300 digits) for integer string conversion")
    | .ok document => ofDocument document

/-! ## Calls and loads -/

/-- A call of the CLI that saves. -/
inductive Save
  | focus (workloadId : String)
  | pause (workloadIds : List String)
  deriving DecidableEq

/-- The configuration it saves. -/
def Save.config : Save → SweepConfig
  | .focus workloadId => new (.str "focus") (.str workloadId) .null
  | .pause workloadIds => new (.str "paused") .null (.arr (workloadIds.map .str))

/-- How far a call has come. -/
inductive Change
  | writing (save : Save) (rest : List Char)
  | unlinking

/-- The configuration after it. -/
def Change.after : Change → SweepConfig
  | .writing save _ => save.config
  | .unlinking => default

structure World where
  file    : Option (List Char)
  /-- The configuration before the change in progress. -/
  before  : SweepConfig
  change  : Option Change
  /-- A load has seen the file and not read it yet. -/
  loading : Bool

def World.initial : World := ⟨none, default, none, false⟩

inductive Event
  | opened (save : Save)
  | wrote (n : ℕ)
  | closed
  | sought
  | unlinked
  | seen
  | loaded (result : Except PyError SweepConfig)

/-- What may happen next: one call of the CLI at a time, and one load. -/
inductive Step (floatText : Rat → List Char) : World → Event → World → Prop
  | opened {w : World} (save : Save) : w.change = none →
      Step floatText w (.opened save)
        -- `open` truncates the file before anything is written
        { w with file := some [], change := some (.writing save (text floatText save.config)) }
  | wrote {w : World} {content rest : List Char} {save : Save} (n : ℕ) :
      w.file = some content → w.change = some (.writing save rest) →
      Step floatText w (.wrote n)
        { w with file := some (content ++ rest.take n),
                 change := some (.writing save (rest.drop n)) }
  | closed {w : World} {save : Save} : w.change = some (.writing save []) →
      Step floatText w .closed { w with before := save.config, change := none }
  | soughtAbsent {w : World} : w.change = none → w.file = none →
      Step floatText w .sought { w with before := default }
  | sought {w : World} {content : List Char} : w.change = none → w.file = some content →
      Step floatText w .sought { w with change := some .unlinking }
  | unlinked {w : World} : w.change = some .unlinking →
      Step floatText w .unlinked { w with file := none, before := default, change := none }
  | seen {w : World} {content : List Char} : w.loading = false → w.file = some content →
      Step floatText w .seen { w with loading := true }
  | loadedAbsent {w : World} : w.loading = false → w.file = none →
      Step floatText w (.loaded (.ok default)) w
  | loaded {w : World} : w.loading = true →
      Step floatText w (.loaded (read w.file)) { w with loading := false }

/-- The result is the configuration before the change in progress, or the one after it. -/
def Faithful (w : World) (result : Except PyError SweepConfig) : Prop :=
  result = .ok w.before ∨ ∃ change ∈ w.change, result = .ok change.after

/-- A load that has seen the file finds all of its document, or the default was what it had
before. -/
def Whole (w : World) : Prop :=
  w.loading = true → w.file ≠ none ∧
    ∀ save rest, w.change = some (.writing save rest) → rest.length ≤ 1 ∨ w.before = default

/-- A focus has a target. -/
def Save.Targeted : Save → Prop
  | .focus workloadId => workloadId ≠ ""
  | .pause _ => True

/-- The condition on a step. -/
def Clear (w : World) : Event → Prop
  | .opened save => save.Targeted
  | .loaded _ => Whole w
  | _ => True

/-! ## What a load sees -/

variable {floatText : Rat → List Char} {save : Save} {w t : World} {e : Event} {es : List Event}

/-- **A round trip**: what a call saves is loaded, unless it focuses on nothing. -/
theorem ofDocument_document (h : save.Targeted) :
    ofDocument save.config.document = .ok save.config := by
  cases save with
  | focus workloadId =>
    have htarget : workloadId ≠ "" := h
    simp [Save.config, new, document, ofDocument, htarget, Json.truthy, Json.lookup, Json.getD]
  | pause workloadIds =>
    cases workloadIds with
    | nil => rfl
    | cons first rest =>
      simp [Save.config, new, document, ofDocument, Json.truthy, Json.lookup, Json.getD]

theorem config_ne_default (save : Save) : save.config ≠ default := by
  intro h
  have hmode := congrArg SweepConfig.mode h
  cases save with
  | focus workloadId => simp [Save.config, new, default] at hmode
  | pause workloadIds => simp [Save.config, new, default] at hmode

/-- No number is saved. -/
theorem plain_document (save : Save) : save.config.document.Plain := by
  -- each of the three fields is there once at most
  have hfields (config : SweepConfig) (hmode : config.mode.Plain) (htarget : config.target.Plain)
      (hpaused : config.paused.Plain) : config.document.Plain := by
    refine .obj ?_ ?_
    · split <;> split <;> simp
    · intro field hfield
      rcases List.mem_append.mp hfield with hfirst | hlast
      · rcases List.mem_append.mp hfirst with hfirst | hsecond
        · rw [List.mem_singleton.mp hfirst]
          exact hmode
        · split at hsecond
          · rw [List.mem_singleton.mp hsecond]
            exact htarget
          · cases hsecond
      · split at hlast
        · rw [List.mem_singleton.mp hlast]
          exact hpaused
        · cases hlast
  cases save with
  | focus workloadId => exact hfields _ (.str _) (.str _) (.arr (List.forall_mem_nil _))
  | pause workloadIds =>
    refine hfields _ (.str _) .null (.arr fun value hvalue => ?_)
    obtain ⟨workloadId, -, rfl⟩ := List.mem_map.mp hvalue
    exact .str workloadId

theorem length_text : (text floatText save.config).length =
    (Json.dumpsIndent floatText 0 save.config.document).length + 1 := by
  rw [text, List.length_append, List.length_singleton]

/-- A file without the last character of its text, or with it, loads as its configuration. -/
theorem read_complete {content rest : List Char} (htarget : save.Targeted)
    (htext : content ++ rest = text floatText save.config) (hrest : rest.length ≤ 1) :
    read (some content) = .ok save.config := by
  obtain ⟨hdocument, hline, -⟩ := (plain_document save).loads_dumpsIndent floatText
  match rest, hrest with
  | [], _ =>
    rw [List.append_nil] at htext
    simp only [read, htext, text, hline, ofDocument_document htarget]
  -- all but the line break at the end
  | [c], _ =>
    have hcontent : content = Json.dumpsIndent floatText 0 save.config.document :=
      (List.append_inj' htext rfl).1
    simp only [read, hcontent, hdocument, ofDocument_document htarget]

/-- One that is cut short loads as the default. -/
theorem read_cut {content rest : List Char} (htext : content ++ rest = text floatText save.config)
    (hrest : 1 < rest.length) : read (some content) = .ok default := by
  have hlen : content.length + rest.length =
      (Json.dumpsIndent floatText 0 save.config.document).length + 1 := by
    rw [← length_text, ← htext, List.length_append]
  have htaken : content =
      (Json.dumpsIndent floatText 0 save.config.document).take content.length := by
    have htake : content = (text floatText save.config).take content.length := by
      rw [← htext, List.take_left]
    rw [text, List.take_append_of_le_length (by omega)] at htake
    exact htake
  have hnone : Json.loads content = .error .decode := by
    rw [htaken]
    exact ((plain_document save).loads_dumpsIndent floatText).2.2 content.length (by omega)
  simp only [read, hnone]

/-! ### Between two steps -/

/-- The file is the whole text of a configuration, or there is none and it is the default. -/
def Holds (floatText : Rat → List Char) (file : Option (List Char)) (config : SweepConfig) : Prop :=
  (file = none ∧ config = default) ∨
    ∃ save : Save, save.Targeted ∧ file = some (text floatText save.config) ∧ config = save.config

/-- The file holds the configuration before a change, until the change opens it; from then on,
what has been written of the one after it. -/
def Consistent (floatText : Rat → List Char) (w : World) : Prop :=
  match w.change with
  | none => Holds floatText w.file w.before
  | some .unlinking => Holds floatText w.file w.before ∧ w.file ≠ none
  | some (.writing save rest) =>
    save.Targeted ∧ ∃ content, w.file = some content ∧ content ++ rest = text floatText save.config

theorem consistent_initial : Consistent floatText .initial := .inl ⟨rfl, rfl⟩

/-- **A step** keeps it, if a focus has a target. -/
theorem step_consistent (h : Consistent floatText w) (hstep : Step floatText w e t)
    (hsave : ∀ save, e = .opened save → save.Targeted) :
    Consistent floatText t := by
  cases hstep with
  | opened save hchange =>
    exact ⟨hsave save rfl, [], rfl, rfl⟩
  | @wrote content rest save n hfile hchange =>
    rw [Consistent, hchange] at h
    obtain ⟨htarget, content', hfile', htext⟩ := h
    cases hfile.symm.trans hfile'
    refine ⟨htarget, _, rfl, ?_⟩
    rw [List.append_assoc, List.take_append_drop, htext]
  | @closed save hchange =>
    rw [Consistent, hchange] at h
    obtain ⟨htarget, content, hfile, htext⟩ := h
    rw [List.append_nil] at htext
    exact .inr ⟨save, htarget, htext ▸ hfile, rfl⟩
  | soughtAbsent hchange hfile =>
    show Consistent floatText { w with before := default }
    rw [Consistent]
    simp only [hchange]
    exact .inl ⟨hfile, rfl⟩
  | sought hchange hfile =>
    rw [Consistent, hchange] at h
    refine ⟨h, ?_⟩
    rw [hfile]
    exact Option.some_ne_none _
  | unlinked hchange => exact .inl ⟨rfl, rfl⟩
  | seen hloading hfile => exact h
  | loadedAbsent hloading hfile => exact h
  | loaded hloading => exact h

/-! ## Loads -/

/-- What a load may return between two steps. -/
theorem read_holds {file : Option (List Char)} {config : SweepConfig} (h : Holds floatText file config)
    (hfile : file ≠ none) : read file = .ok config := by
  rcases h with ⟨hnone, -⟩ | ⟨save, htarget, rfl, rfl⟩
  · exact absurd hnone hfile
  · exact read_complete htarget (List.append_nil _) (Nat.zero_le 1)

/-- **A load** sees one of the two configurations exactly when it finds the whole of a document
or had the default before it. -/
theorem load_iff {result : Except PyError SweepConfig} (h : Consistent floatText w)
    (hload : Step floatText w (.loaded result) t) : Faithful w result ↔ Whole w := by
  cases hload with
  | loadedAbsent hloading hfile =>
    refine ⟨fun _ hnot => absurd (hloading.symm.trans hnot) Bool.false_ne_true, fun _ => ?_⟩
    -- no file is there but where nothing is focused or paused
    cases hchange : w.change with
    | none =>
      rw [Consistent, hchange] at h
      rcases h with ⟨-, hbefore⟩ | ⟨save, -, hsome, -⟩
      · exact .inl (congrArg Except.ok hbefore.symm)
      · exact absurd (hfile.symm.trans hsome) (Option.some_ne_none _).symm
    | some change =>
      rw [Consistent, hchange] at h
      cases change with
      | unlinking => exact absurd hfile h.2
      | writing save rest =>
        obtain ⟨-, content, hsome, -⟩ := h
        exact absurd (hfile.symm.trans hsome) (Option.some_ne_none _).symm
  | loaded hloading =>
    cases hchange : w.change with
    | none =>
      -- no call is in progress, or `resume` has not removed the file yet
      rw [Consistent, hchange] at h
      by_cases hfile : w.file = none
      · constructor
        · rintro (hread | ⟨change, hmem, -⟩)
          · rw [hfile] at hread
            cases hread
          · rw [hchange] at hmem
            cases hmem
        · intro hwhole
          exact absurd hfile (hwhole hloading).1
      · refine ⟨fun _ _ => ⟨hfile, fun save rest hwriting => ?_⟩, fun _ => .inl (read_holds h hfile)⟩
        cases hchange.symm.trans hwriting
    | some change =>
      rw [Consistent, hchange] at h
      cases change with
      | unlinking =>
        refine ⟨fun _ _ => ⟨h.2, fun save rest hwriting => ?_⟩, fun _ => .inl (read_holds h.1 h.2)⟩
        cases hchange.symm.trans hwriting
      | writing save rest =>
        obtain ⟨htarget, content, hfile, htext⟩ := h
        have hpresent : w.file ≠ none := hfile ▸ Option.some_ne_none content
        -- what is still to be written decides what the text is taken for
        rcases Nat.lt_or_ge 1 rest.length with hcut | hcomplete
        · have hread : read w.file = .ok default := by
            rw [hfile]
            exact read_cut htext hcut
          rw [Faithful, hread]
          constructor
          · rintro (hbefore | ⟨change, hmem, hafter⟩) -
            · refine ⟨hpresent, fun _ _ _ => .inr (Except.ok.inj hbefore).symm⟩
            · cases hchange.symm.trans hmem
              exact absurd (Except.ok.inj hafter).symm (config_ne_default save)
          · intro hwhole
            rcases (hwhole hloading).2 save rest hchange with hshort | hbefore
            · omega
            · exact .inl (congrArg Except.ok hbefore.symm)
        · have hread : read w.file = .ok save.config := by
            rw [hfile]
            exact read_complete htarget htext hcomplete
          rw [Faithful, hread]
          refine ⟨fun _ _ => ⟨hpresent, fun save' rest' hwriting => ?_⟩,
            fun _ => .inr ⟨_, hchange, rfl⟩⟩
          cases hchange.symm.trans hwriting
          exact .inl hcomplete

/-- **Loads between calls**: in a run of calls and loads in which every focus has a target and
every load is clear of the call in progress, a load returns the configuration before that call or
the one after it, and allows nothing that neither of them allows. -/
theorem loads_faithful {result : Except PyError SweepConfig}
    (hrun : Run (fun a e b => Clear a e ∧ Step floatText a e b) .initial es w)
    (hclear : Clear w (.loaded result)) (hload : Step floatText w (.loaded result) t) :
    Faithful w result ∧ ∀ config workloadId epochId, result = .ok config →
      w.before.isAllowed workloadId epochId = .ok false →
      (∀ change ∈ w.change, change.after.isAllowed workloadId epochId = .ok false) →
      config.isAllowed workloadId epochId = .ok false := by
  have hconsistent : Consistent floatText w := by
    refine hrun.invariant (Consistent floatText) consistent_initial ?_
    rintro a e b ⟨hclear, hstep⟩ ha
    refine step_consistent ha hstep ?_
    rintro save rfl
    exact hclear
  have hfaithful : Faithful w result := (load_iff hconsistent hload).mpr hclear
  refine ⟨hfaithful, ?_⟩
  rintro config workloadId epochId rfl hbefore hafter
  rcases hfaithful with heq | ⟨change, hmem, heq⟩
  · rw [Except.ok.inj heq]
    exact hbefore
  · rw [Except.ok.inj heq]
    exact hafter change hmem

/-! ### One save after another -/

def pauseThroughput : Save := .pause ["throughput"]

/-- No float is written. -/
def noFloats (_ : Rat) : List Char := []

/-- The file is written, and a load has seen it. -/
def pausedWorld : World :=
  ⟨some (text noFloats pauseThroughput.config), pauseThroughput.config, none, true⟩

theorem paused_run :
    Run (fun a e b => Clear a e ∧ Step noFloats a e b) .initial
      [.opened pauseThroughput, .wrote 100, .closed, .seen] pausedWorld :=
  .snoc (.snoc (.snoc (.snoc (.refl _) ⟨trivial, .opened pauseThroughput rfl⟩)
    ⟨trivial, .wrote 100 rfl rfl⟩) ⟨trivial, .closed rfl⟩) ⟨trivial, .seen rfl rfl⟩

theorem paused_loads :
    Faithful pausedWorld (read pausedWorld.file) ∧
      ∀ config workloadId epochId, read pausedWorld.file = .ok config →
        pausedWorld.before.isAllowed workloadId epochId = .ok false →
        (∀ change ∈ pausedWorld.change, change.after.isAllowed workloadId epochId = .ok false) →
        config.isAllowed workloadId epochId = .ok false := by
  refine loads_faithful paused_run ?_ (.loaded rfl)
  exact fun _ => ⟨Option.some_ne_none _, fun save rest hwriting => by cases hwriting⟩

/-- A save has opened the file of another, and a load has seen it. -/
def reopenedWorld : World :=
  ⟨some [], pauseThroughput.config,
    some (.writing pauseThroughput (text noFloats pauseThroughput.config)), true⟩

/-- **A load in the middle of a save**: `throughput` is paused, is being paused again, and is
allowed. -/
theorem half_written_allows :
    ∃ es, Run (Step noFloats) .initial es reopenedWorld ∧
      (∀ save, .opened save ∈ es → save.Targeted) ∧
      ∃ t, Step noFloats reopenedWorld (.loaded (.ok default)) t ∧
        ¬ Faithful reopenedWorld (.ok default) ∧
        reopenedWorld.before.isAllowed "throughput" "v1" = .ok false ∧
        (∀ change ∈ reopenedWorld.change,
          change.after.isAllowed "throughput" "v1" = .ok false) ∧
        default.isAllowed "throughput" "v1" = .ok true := by
  have hrun : Run (Step noFloats) .initial
      [.opened pauseThroughput, .wrote 100, .closed, .opened pauseThroughput, .seen] reopenedWorld :=
    .snoc (.snoc (.snoc (.snoc (.snoc (.refl _) (.opened pauseThroughput rfl))
      (.wrote 100 rfl rfl)) (.closed rfl)) (.opened pauseThroughput rfl)) (.seen rfl rfl)
  have hload : Step noFloats reopenedWorld (.loaded (.ok default))
      { reopenedWorld with loading := false } := .loaded rfl
  refine ⟨_, hrun, ?_, _, hload, ?_, by decide, ?_, by decide⟩
  · intro save hsave
    have heq : save = pauseThroughput := by simpa using hsave
    exact heq ▸ trivial
  · rintro (hbefore | ⟨change, hchange, hafter⟩)
    · exact config_ne_default pauseThroughput (Except.ok.inj hbefore).symm
    · cases hchange
      exact config_ne_default pauseThroughput (Except.ok.inj hafter).symm
  · rintro change hchange
    cases hchange
    decide

end SweepConfig

end Conductress
