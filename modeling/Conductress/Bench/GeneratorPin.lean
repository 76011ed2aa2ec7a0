import Conductress.Base.CpuList
import Mathlib.Data.Bool.AllAny
import Mathlib.Data.List.Infix
import Conductress.Lib.Attempt

/-!
# The pinned load generator

`ensure_cachecannon` as a program over the commands it sends to a host. Each may fail
or lose the connection, and the process may die between two of them.

What decides whether to build is the commit that is checked out and whether there is a
binary. A run that ends between the checkout and the build of the pinned commit leaves
an old binary under the pin, and the next run takes it for the pinned one
(`stale_taken`). Where no run ends so, a normal return means the pinned binary
(`ensured_pinned`).
-/

namespace Conductress.Bootstrap

open Lib Prog

/-! ## The host -/

/-- A commit by its hash. -/
structure Commit where
  hash     : String
  plain    : ∀ c ∈ hash.toList, PyText.isSpace c = false
  nonempty : hash ≠ ""
  deriving DecidableEq

/-- `SWEEP_V3_CACHECANNON_COMMIT`. -/
def sweepV3CachecannonCommit : Commit where
  hash     := "31a2befaa8bf7b3b7a7f7e03e2a847a2e407a3ce"
  plain    := List.all_iff_forall_prop.mp (by decide)
  nonempty := by decide

/-- `~/cachecannon`: the commit that is checked out, if the clone was finished, and the
commit that the binary was built from, if there is one. -/
structure Checkout where
  head   : Option Commit
  binary : Option Commit
  deriving DecidableEq

structure GeneratorHost where
  checkout : Option Checkout
  cargo    : Bool
  deriving DecidableEq

namespace GeneratorHost

def head (s : GeneratorHost) : Option Commit := s.checkout.bind Checkout.head

def binary (s : GeneratorHost) : Option Commit := s.checkout.bind Checkout.binary

end GeneratorHost

/-! ## Commands -/

/-- What comes back from a command: nothing, a failure status, or its output. -/
inductive Reply (α : Type)
  | lost
  | failed
  | done (out : α)
  deriving DecidableEq

inductive HostPath where
  | cachecannonDir
  | binary

inductive HostCommand : Type → Type
  /-- The tests of `path_exists`. -/
  | test (path : HostPath) : HostCommand (Reply Bool)
  | clone : HostCommand (Reply Unit)
  /-- `git rev-parse HEAD`. -/
  | revParse : HostCommand (Reply String)
  /-- `command -v cargo`, and `yes` or `no`. -/
  | commandCargo : HostCommand (Reply String)
  | installCargo : HostCommand (Reply Unit)
  /-- `git fetch && git checkout {commit}`. -/
  | checkout (commit : Commit) : HostCommand (Reply Unit)
  | cargoBuild : HostCommand (Reply Unit)

/-- How a command goes. -/
inductive Trouble where
  | none
  | fails
  | loses
  deriving DecidableEq

/-- What a command does that does not end well: nothing, a part or all of it. -/
inductive Extent where
  | nothing
  | part
  | all
  deriving DecidableEq

/-- What the host does not decide: how a command goes, what is left of it, and the
commit that a new clone is at. -/
structure Luck where
  trouble : Trouble
  extent  : Extent
  tip     : Commit

namespace GeneratorHost

variable (s : GeneratorHost)

/-- A clone, or its beginning. A directory that is there is left alone. -/
def cloned (tip : Commit) : Extent → GeneratorHost
  | .nothing => s
  | .part => { s with checkout := s.checkout.or (some ⟨none, none⟩) }
  | .all => { s with checkout := s.checkout.or (some ⟨some tip, none⟩) }

/-- Another commit is checked out; the build output is not under version control. -/
def checkedOut (commit : Commit) : Extent → GeneratorHost
  | .all => { s with checkout := s.checkout.map fun tree =>
      { tree with head := tree.head.map fun _ => commit } }
  | _ => s

/-- A build from the commit that is checked out; an unfinished one may have removed the
old binary. -/
def built : Extent → GeneratorHost
  | .nothing => s
  | .part => { s with checkout := s.checkout.map fun tree => { tree with binary := none } }
  | .all => { s with checkout := s.checkout.map fun tree => { tree with binary := tree.head } }

def installed : Extent → GeneratorHost
  | .all => { s with cargo := true }
  | _ => s

end GeneratorHost

/-- A command that can do its work: it does all of it, unless there is trouble. -/
def attempted {α : Type} (able : Bool) (luck : Luck) (s : GeneratorHost) (out : α)
    (effect : Extent → GeneratorHost) : Reply α × GeneratorHost :=
  match luck.trouble with
  -- the connection may be lost after the command has done its work, or in the middle of it
  | .loses => (.lost, if able then effect luck.extent else s)
  | .fails => (.failed, if able then effect luck.extent else s)
  | .none => if able then (.done out, effect .all) else (.failed, s)

def exec : {β : Type} → HostCommand β → Luck → GeneratorHost → β × GeneratorHost
  | _, .test .cachecannonDir, x, s => attempted true x s s.checkout.isSome fun _ => s
  | _, .test .binary, x, s => attempted true x s s.binary.isSome fun _ => s
  -- `git clone` refuses a directory that is there
  | _, .clone, x, s => attempted s.checkout.isNone x s () (s.cloned x.tip)
  | _, .revParse, x, s =>
    attempted s.head.isSome x s (s.head.elim "" fun commit => commit.hash ++ "\n") fun _ => s
  | _, .commandCargo, x, s => attempted true x s (if s.cargo then "yes\n" else "no\n") fun _ => s
  | _, .installCargo, x, s => attempted true x s () s.installed
  -- in what is no clone, git fails
  | _, .checkout commit, x, s => attempted s.head.isSome x s () (s.checkedOut commit)
  | _, .cargoBuild, x, s => attempted (s.head.isSome && s.cargo) x s () s.built

/-- Nobody else touches the generator of a host. -/
def effects : Effects HostCommand GeneratorHost Luck Empty where
  exec := exec
  interfere e := nomatch e

/-! ## The program -/

inductive BootstrapError where
  | connectionLost
  /-- `Exception(result.stderr)`. -/
  | commandFailed
  | runtimeError (message : String)
  deriving DecidableEq

abbrev Act (α : Type) := Prog HostCommand BootstrapError α

/-- `Host.run`. -/
def hostRun {α : Type} (command : HostCommand (Reply α)) : Act α := do
  match ← .run command with
  | .lost => .raise .connectionLost
  | .failed => .raise .commandFailed
  | .done out => .pure out

/-- `Host.run` with `check=False`; a command that fails has no output. -/
def hostRunUnchecked (command : HostCommand (Reply String)) : Act String := do
  match ← .run command with
  | .lost => .raise .connectionLost
  | .failed => .pure ""
  | .done out => .pure out

/-- The first lines: the clone, if there is no directory. -/
def ensureCloned : Act Unit := do
  match ← hostRun (.test .cachecannonDir) with
  | true => .pure ()
  | false => hostRun .clone

/-- `at_pin and await path_exists(host, binary_path)`. -/
def alreadyBuilt (pinned : Commit) : Act Bool := do
  let current ← hostRunUnchecked .revParse
  -- the binary is looked for only when the pin is checked out
  if PyText.strip current.toList = pinned.hash.toList then hostRun (.test .binary)
  else .pure false

def ensureCargo : Act Unit := do
  let hasCargo ← hostRunUnchecked .commandCargo
  if "yes".toList <:+: hasCargo.toList then .pure () else hostRun .installCargo

/-- The checkout, the build and the last test. -/
def buildPinned (pinned : Commit) : Act Unit := do
  hostRun (.checkout pinned)
  hostRun .cargoBuild
  match ← hostRun (.test .binary) with
  | true => .pure ()
  | false => .raise (.runtimeError "cachecannon build completed but binary missing")

/-- `ensure_cachecannon`. -/
def ensureCachecannon (pinned : Commit) : Act Unit := do
  ensureCloned
  match ← alreadyBuilt pinned with
  | true => .pure ()
  | false => do
    ensureCargo
    buildPinned pinned

/-! ## One attempt -/

/-- A run of `ensure_cachecannon`, to its end or cut short. -/
def Run (pinned : Commit) (s : GeneratorHost) (o : Ending BootstrapError Unit) (t : GeneratorHost) :
    Prop :=
  Attempt effects (ensureCachecannon pinned) s o t

/-- The pinned commit is checked out, over a binary of another one. -/
def Stale (pinned : Commit) (s : GeneratorHost) : Prop :=
  s.head = some pinned ∧ s.binary ≠ none ∧ s.binary ≠ some pinned

instance (pinned : Commit) (s : GeneratorHost) : Decidable (Stale pinned s) :=
  inferInstanceAs (Decidable (_ ∧ _))

section Attempts

variable {pinned : Commit} {s t : GeneratorHost} {x : Luck} {α : Type}

/-- A command that is done did all of its work. -/
theorem attempted_done {able : Bool} {out out' : α} {effect : Extent → GeneratorHost}
    (h : (attempted able x s out effect).1 = .done out') :
    able = true ∧ out' = out ∧ (attempted able x s out effect).2 = effect .all := by
  -- a command with trouble is not done, and neither is one that cannot do its work
  obtain ⟨trouble, extent, tip⟩ := x
  cases trouble with
  | loses => cases h
  | fails => cases h
  | none =>
    cases able with
    | false => cases h
    | true =>
      cases h
      exact ⟨rfl, rfl, rfl⟩

/-- A command without effect leaves the host as it is. -/
theorem attempted_idle (able : Bool) (out : α) : (attempted able x s out fun _ => s).2 = s := by
  obtain ⟨trouble, extent, tip⟩ := x
  cases trouble <;> cases able <;> rfl

/-- A checked command has to be done before the program goes on. -/
theorem within_hostRun {command : HostCommand (Reply α)} {Q : α → GeneratorHost → Prop}
    (h : ∀ x out, (exec command x s).1 = .done out → Q out (exec command x s).2) :
    (hostRun command).Within effects (fun _ => True) Q s := by
  unfold hostRun
  rw [within_bind, within_run]
  refine ⟨trivial, fun x => ⟨trivial, ?_⟩⟩
  have hx := h x
  generalize hreply : (exec command x s).1 = reply at hx
  show Within _ _ _ (match (exec command x s).1 with
    | .lost => _
    | .failed => _
    | .done out => _) _
  rw [hreply]
  cases reply with
  -- the program has raised, and nothing is asked of the host then
  | lost => exact trivial
  | failed => exact trivial
  | done out => exact ⟨trivial, hx out rfl⟩

/-- One that is not checked may also fail, and has no output then. -/
theorem within_hostRunUnchecked {command : HostCommand (Reply String)}
    {Q : String → GeneratorHost → Prop}
    (hfailed : ∀ x, (exec command x s).1 = .failed → Q "" (exec command x s).2)
    (hdone : ∀ x out, (exec command x s).1 = .done out → Q out (exec command x s).2) :
    (hostRunUnchecked command).Within effects (fun _ => True) Q s := by
  unfold hostRunUnchecked
  rw [within_bind, within_run]
  refine ⟨trivial, fun x => ⟨trivial, ?_⟩⟩
  have hfailed := hfailed x
  have hdone := hdone x
  generalize hreply : (exec command x s).1 = reply at hfailed hdone
  show Within _ _ _ (match (exec command x s).1 with
    | .lost => _
    | .failed => _
    | .done out => _) _
  rw [hreply]
  cases reply with
  | lost => exact trivial
  | failed => exact ⟨trivial, hfailed rfl⟩
  | done out => exact ⟨trivial, hdone out rfl⟩

/-! ### Its parts -/

/-- The output of `git rev-parse HEAD`, stripped. -/
theorem strip_hash (commit : Commit) :
    PyText.strip (commit.hash ++ "\n").toList = commit.hash.toList := by
  have hblank : ∀ c ∈ "\n".toList, PyText.isSpace c = true :=
    List.all_iff_forall_prop.mp (by decide)
  rw [String.toList_append, CpuList.strip_append_blank hblank, PyText.strip_of_all commit.plain]

theorem Commit.ext_hash {a b : Commit} (h : a.hash.toList = b.hash.toList) : a = b := by
  obtain ⟨hash, _, _⟩ := a
  obtain ⟨hash', _, _⟩ := b
  obtain rfl : hash = hash' := String.toList_inj.mp h
  rfl

/-- A clone has no binary. -/
theorem not_stale_cloned (h : ¬ Stale pinned s) (tip : Commit) (extent : Extent) :
    ¬ Stale pinned (s.cloned tip extent) := by
  obtain ⟨checkout, cargo⟩ := s
  cases checkout with
  | some tree => cases extent <;> exact h
  -- where there was no directory there is no binary afterwards
  | none =>
    rintro ⟨-, hsome, -⟩
    cases extent <;> exact hsome rfl

theorem within_ensureCloned (h : ¬ Stale pinned s) :
    ensureCloned.Within effects (fun _ => True) (fun _ t => ¬ Stale pinned t) s := by
  unfold ensureCloned
  rw [within_bind]
  refine within_hostRun fun x there hdone => ?_
  have hsame : (exec (.test .cachecannonDir) x s).2 = s := attempted_idle _ _
  rw [hsame]
  cases there with
  | true => exact ⟨trivial, h⟩
  | false =>
    refine within_hostRun fun y _ hcloned => ?_
    obtain ⟨-, -, heffect⟩ := attempted_done hcloned
    have hnot := not_stale_cloned h y.tip .all
    rw [← heffect] at hnot
    exact hnot

/-- A binary that is taken is the pinned one, unless the host is stale. -/
theorem within_alreadyBuilt (h : ¬ Stale pinned s) :
    (alreadyBuilt pinned).Within effects (fun _ => True)
      (fun built t => built = true → t.binary = some pinned) s := by
  unfold alreadyBuilt
  rw [within_bind]
  have hidle : ∀ x, (exec .revParse x s).2 = s := fun x => attempted_idle _ _
  refine within_hostRunUnchecked (fun x _ => ?_) fun x out hdone => ?_
  · -- no output is not the pinned commit
    rw [hidle]
    split
    · next hpinned =>
      have hempty : pinned.hash.toList = "".toList := hpinned.symm
      exact absurd (String.toList_inj.mp hempty) pinned.nonempty
    · exact ⟨trivial, fun hfalse => absurd hfalse Bool.false_ne_true⟩
  · rw [hidle]
    obtain ⟨hable, rfl, -⟩ := attempted_done hdone
    obtain ⟨commit, hcommit⟩ := Option.isSome_iff_exists.mp hable
    rw [hcommit, Option.elim_some, strip_hash]
    split
    · next hpinned =>
      refine within_hostRun fun y there htest => ?_
      have hsame : (exec (.test .binary) y s).2 = s := attempted_idle _ _
      obtain ⟨-, rfl, -⟩ := attempted_done htest
      rw [hsame]
      intro hthere
      -- the pin is checked out, so that the binary is of it
      obtain ⟨binary, hbinary⟩ := Option.isSome_iff_exists.mp hthere
      by_contra hother
      refine h ⟨hcommit.trans (congrArg some (Commit.ext_hash hpinned)), ?_, hother⟩
      rw [hbinary]
      exact Option.some_ne_none binary
    · exact ⟨trivial, fun hfalse => absurd hfalse Bool.false_ne_true⟩

theorem head_checkedOut (h : s.head.isSome = true) : (s.checkedOut pinned .all).head = some pinned := by
  obtain ⟨_ | ⟨_ | head, binary⟩, cargo⟩ := s
  · cases h
  · cases h
  · rfl

theorem binary_built : (s.built .all).binary = s.head := by
  obtain ⟨_ | tree, cargo⟩ := s
  · rfl
  · rfl

/-- A build that ends well is of the pinned commit, whatever was there. -/
theorem within_buildPinned :
    (buildPinned pinned).Within effects (fun _ => True) (fun _ t => t.binary = some pinned) s := by
  unfold buildPinned
  rw [within_bind]
  refine within_hostRun fun x _ hcheckout => ?_
  obtain ⟨hable, -, heffect⟩ : s.head.isSome = true ∧ _ ∧
      (exec (.checkout pinned) x s).2 = s.checkedOut pinned .all := attempted_done hcheckout
  generalize (exec (.checkout pinned) x s).2 = t at heffect ⊢
  -- the pin is checked out, and what is built is built from it
  have hhead : t.head = some pinned := by
    rw [heffect]
    exact head_checkedOut hable
  rw [within_bind]
  refine within_hostRun fun y _ hbuild => ?_
  obtain ⟨-, -, hbuilt⟩ : _ ∧ _ ∧ (exec .cargoBuild y t).2 = t.built .all := attempted_done hbuild
  generalize (exec .cargoBuild y t).2 = u at hbuilt ⊢
  have hbinary : u.binary = some pinned := by
    rw [hbuilt, binary_built, hhead]
  rw [within_bind]
  refine within_hostRun fun z there _ => ?_
  have hsame : (exec (.test .binary) z u).2 = u := attempted_idle _ _
  rw [hsame]
  cases there with
  | true => exact ⟨trivial, hbinary⟩
  | false => exact trivial

/-- **A run that returns** leaves the pinned binary, unless it began with a stale host. -/
theorem within_ensureCachecannon (h : ¬ Stale pinned s) :
    (ensureCachecannon pinned).Within effects (fun _ => True)
      (fun _ t => t.binary = some pinned) s := by
  unfold ensureCachecannon
  rw [within_bind]
  refine (within_ensureCloned h).conseq fun _ t ht => ?_
  rw [within_bind]
  refine (within_alreadyBuilt ht).conseq fun built u hu => ?_
  cases built with
  | true => exact ⟨trivial, hu rfl⟩
  | false =>
    rw [within_bind]
    -- whether cargo is there does not matter: without it no build ends well
    refine Within.conseq (Q := fun _ _ => True) ?_ fun _ _ _ => within_buildPinned
    unfold ensureCargo
    rw [within_bind]
    have hall : ∀ v : GeneratorHost, (hostRun .installCargo).Within effects (fun _ => True)
        (fun _ _ => True) v := fun v => within_hostRun fun _ _ _ => trivial
    refine within_hostRunUnchecked (fun x _ => ?_) fun x out _ => ?_
    · split
      · exact ⟨trivial, trivial⟩
      · exact hall _
    · split
      · exact ⟨trivial, trivial⟩
      · exact hall _

/-! ## Runs that follow one another -/

variable {es : List (Ending BootstrapError Unit)} {o : Ending BootstrapError Unit}

/-- A run that does not leave the host stale when it raises or is cut short. -/
def CleanRun (pinned : Commit) (s : GeneratorHost) (o : Ending BootstrapError Unit)
    (t : GeneratorHost) : Prop :=
  Run pinned s o t ∧ (o ≠ .returned () → ¬ Stale pinned t)

theorem not_stale_of_cleanRun (hrun : CleanRun pinned s o t) (h : ¬ Stale pinned s) :
    ¬ Stale pinned t := by
  -- a run that returns leaves the pinned binary, which is not stale
  by_cases hreturned : o = .returned ()
  · have hbinary := ((within_ensureCachecannon h).attempt hrun.1).2 () hreturned
    exact fun hstale => hstale.2.2 hbinary
  · exact hrun.2 hreturned

/-- Every command goes well; a new clone is at the pin. -/
def smooth (pinned : Commit) : Luck := ⟨.none, .all, pinned⟩

/-- A commit before the pinned one. -/
def oldCommit : Commit where
  hash     := "9b0d7c51a4e6f8d2"
  plain    := List.all_iff_forall_prop.mp (by decide)
  nonempty := by decide

/-- A host with the generator of that commit. -/
def oldHost : GeneratorHost := ⟨some ⟨some oldCommit, some oldCommit⟩, true⟩

/-- **The pinned binary**: after any sequence of runs of which none leaves the host stale, on
a host that was not stale, a normal return means that the binary is of the pinned commit. -/
theorem ensured_pinned (hstart : ¬ Stale pinned s) (hruns : Lib.Run (CleanRun pinned) s es t)
    {u : GeneratorHost} (hreturn : Run pinned t (.returned ()) u) : u.binary = some pinned := by
  have ht : ¬ Stale pinned t :=
    hruns.invariant (fun s => ¬ Stale pinned s) hstart fun _ _ _ => not_stale_of_cleanRun
  exact ((within_ensureCachecannon ht).attempt hreturn).2 () rfl

/-- A run that dies before the checkout of the pin, and one that goes through. -/
theorem old_host_ensured :
    ¬ Stale sweepV3CachecannonCommit oldHost ∧
    ∃ t, Lib.Run (CleanRun sweepV3CachecannonCommit) oldHost [.cut] t ∧
      ∃ u, Run sweepV3CachecannonCommit t (.returned ()) u ∧
        u.binary = some sweepV3CachecannonCommit := by
  -- the third command is the last one before the checkout
  have hcut : CleanRun sweepV3CachecannonCommit oldHost .cut oldHost :=
    ⟨attempt_of_after (smooth sweepV3CachecannonCommit) _ 3 oldHost, fun _ => by decide⟩
  have heval : ((ensureCachecannon sweepV3CachecannonCommit).eval effects
      (smooth sweepV3CachecannonCommit) oldHost).1 = .ok () := by
    decide +kernel
  have hreturn := attempt_of_eval (smooth sweepV3CachecannonCommit) heval
  have hruns := Lib.Run.snoc (.refl oldHost) hcut
  exact ⟨by decide, oldHost, hruns, _, hreturn, ensured_pinned (by decide) hruns hreturn⟩

/-! ### The old binary under the pin -/

/-- **A stale host is taken for a built one.** -/
theorem stale_taken (h : Stale pinned s) : Run pinned s (.returned ()) s := by
  obtain ⟨hhead, hbinary, -⟩ := h
  obtain ⟨_ | ⟨head, binary⟩, cargo⟩ := s
  · cases hhead
  obtain rfl : head = some pinned := hhead
  obtain ⟨commit, rfl⟩ : ∃ commit, binary = some commit := Option.ne_none_iff_exists'.mp hbinary
  have hcurrent : PyText.strip (pinned.hash ++ "\n").toList = pinned.hash.toList := strip_hash pinned
  have heval : (ensureCachecannon pinned).eval effects (smooth pinned)
      ⟨some ⟨some pinned, some commit⟩, cargo⟩ =
        (.ok (), ⟨some ⟨some pinned, some commit⟩, cargo⟩) := by
    show (Prog.andThen (if PyText.strip (pinned.hash ++ "\n").toList = pinned.hash.toList
      then hostRun (.test .binary) else .pure false) _).eval effects _ _ = _
    rw [if_pos hcurrent]
    rfl
  have hrun := attempt_of_eval (smooth pinned) (congrArg Prod.fst heval)
  rw [heval] at hrun
  exact hrun

/-- A run that returns is sure to leave the pinned binary on those hosts only that are not
stale. -/
theorem returns_pinned_iff :
    (∀ t, Run pinned s (.returned ()) t → t.binary = some pinned) ↔ ¬ Stale pinned s := by
  constructor
  · intro h hstale
    exact hstale.2.2 (h s (stale_taken hstale))
  · intro h t hrun
    exact ((within_ensureCachecannon h).attempt hrun).2 () rfl

/-- The first run dies after the checkout, and the second one takes the old binary for
the pinned one. -/
theorem old_binary_taken :
    ∃ t, Lib.Run (Run sweepV3CachecannonCommit) oldHost [.cut, .returned ()] t ∧
      t.binary = some oldCommit := by
  -- the fourth command is the checkout
  have hcut : Run sweepV3CachecannonCommit oldHost .cut _ :=
    attempt_of_after (smooth sweepV3CachecannonCommit) _ 4 oldHost
  have hafter : (ensureCachecannon sweepV3CachecannonCommit).after effects
      (smooth sweepV3CachecannonCommit) 4 oldHost =
        ⟨some ⟨some sweepV3CachecannonCommit, some oldCommit⟩, true⟩ := by
    decide +kernel
  rw [hafter] at hcut
  exact ⟨_, .snoc (.snoc (.refl _) hcut) (stale_taken (by decide)), rfl⟩

end Attempts

end Conductress.Bootstrap
