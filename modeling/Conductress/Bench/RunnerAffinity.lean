import Conductress.Base.CpuList
import Conductress.Lib.Transition
import Conductress.Bench.CpuAllocations
import Conductress.Bench.Release

/-!
# The runner's CPU mask

A task reserves management cores and pins the runner to them; what the runner
launches meanwhile starts under the mask it had before. Tasks come one after the
other, and what one of them leaves is where the next one begins.

* `runs_right` — as long as the mask can be read whenever cores were reserved and
  can be restored whenever it was changed, only the task at work holds management
  cores, `cpulist` names the ones it holds, and a generator runs on the CPUs the
  runner started with.
* `confinement_inherited` — after a mask that could not be restored a generator is
  launched on the management cores, and the next task publishes those as the
  runner's own mask.
-/

namespace Conductress

open Lib Raising Surroundings CpuList

/-! ## What is published, and what a launch makes of it -/

namespace Management

/-- `cpulist`, as the text it is kept as. -/
def cpulistText (m : Management) : String := formatCpulist (m.cpulist.insertionSort (· ≤ ·))

/-- `RealtimeCommand.launch_cpus`. -/
def launchText (m : Management) : String := formatCpulist (m.launchCpus.insertionSort (· ≤ ·))

/-- `effective_launch_cpus` of a command with CPUs of its own, or `None`. -/
def effectiveLaunchCpus (own : Option String) (m : Management) : String := own.getD m.launchText

/-- The CPUs a command is started on by `start`, when it is not a remote one. -/
def childCpus (own : Option String) (m : Management) : Option (List ℕ) :=
  if m.effectiveLaunchCpus own ≠ "" then namedCpus (m.effectiveLaunchCpus own) else some m.mask

/-- What a new `ManagementCores` starts from. -/
def renewed (m : Management) : Management := { m with cpulist := [], originalMask := none }

end Management

/-! ## Tasks, one after the other -/

/-- What became of the `ManagementCores` of the last task. -/
inductive Tenure where
  | unused
  | acquired (taskId ip : String)
  | released (taskId ip : String)

structure Runner where
  process : Process
  tenure  : Tenure

/-- A step of the runner, or a call of the task at work to the allocator. -/
inductive RunnerEvent where
  | acquire (taskId ip : String)
  | call (c : CpuCall)
  | release

/-- A call that is not one for management cores. -/
def CpuCall.Foreign (a : CpuAllocator) : CpuCall → Prop
  | .registerHost ip _ _ _ _ => a.isHostRegistered ip = false
  | .allocate _ tag _ _ => tag.purpose ≠ "monitoring"
  | .release _ tag => tag.purpose ≠ "monitoring"

namespace Runner

variable (env : Surroundings)

/-- The process with the `ManagementCores` of a new task. -/
def renewed (r : Runner) : Process := { r.process with management := r.process.management.renewed }

inductive Step : Runner → RunnerEvent → Runner → Prop
  | acquire {r : Runner} {taskId ip : String} (hidle : ∀ t i, r.tenure ≠ .acquired t i) :
      Step r (.acquire taskId ip)
        ⟨(ManagementCores.acquire env taskId ip r.renewed).2, .acquired taskId ip⟩
  | call {r : Runner} {c : CpuCall} (hforeign : c.Foreign r.process.allocator) :
      Step r (.call c)
        { r with process := { r.process with allocator := r.process.allocator.apply c } }
  /-- The second release of a task, and any after it, find it released. -/
  | release {r : Runner} {taskId ip : String}
      (hused : r.tenure = .acquired taskId ip ∨ r.tenure = .released taskId ip) :
      Step r .release ⟨(ManagementCores.release env taskId ip r.process).2, .released taskId ip⟩

/-- From here on, reading the mask raises with the cores reserved. -/
def MaskRaises (taskId ip : String) (p : Process) : Prop :=
  (ManagementCores.reserve env taskId ip).Ends (fun _ q => env.raises q.clock ≠ none)
    (fun _ _ => False) p

/-- The mask is read when it has to be, and restored when it has to be. -/
def Mended (r : Runner) : RunnerEvent → Prop
  | .acquire taskId ip => ¬ MaskRaises env taskId ip r.renewed
  | .call _ => True
  | .release => r.process.management.originalMask ≠ none → env.pinFails r.process.clock = false

/-- The runner may not run where it ran before its first task. -/
def Confined (initial : List ℕ) (r : Runner) : Prop :=
  ¬ ∀ cpu, cpu ∈ r.process.management.mask ↔ cpu ∈ initial

/-- Whether a slot is that of the task at work. -/
def AtWork (r : Runner) (ip : String) (tag : AllocationTag) : Prop :=
  ∃ taskId, r.tenure = .acquired taskId ip ∧ tag = ManagementCores.tag taskId

/-- What is to hold of the runner in every state. -/
structure Right (initial : List ℕ) (r : Runner) : Prop where
  /-- `cpulist` names the CPUs of the task at work, or is empty when it has none. -/
  named    : ∀ taskId ip, r.tenure = .acquired taskId ip →
    match r.process.allocator.allocation? ip (ManagementCores.tag taskId) with
    | some cpus =>
      namedCpus r.process.management.cpulistText = some (cpus.insertionSort (· ≤ ·))
    | none => r.process.management.cpulistText = ""
  released : ∀ ip tag, tag.purpose = "monitoring" → ¬ r.AtWork ip tag →
    r.process.allocator.allocation? ip tag = none
  launch   : r.Confined initial →
    r.process.management.launchText = formatCpulist (initial.insertionSort (· ≤ ·))
  child    : ∃ cpus, r.process.management.childCpus none = some cpus ∧ ∀ cpu, cpu ∈ cpus ↔ cpu ∈ initial

end Runner

/-! ## Reserving and pinning -/

namespace ManagementCores

variable {env : Surroundings} {taskId ip : String} {p q : Process}

/-- The slots of management cores are what they were, but for one. -/
def Otherwise (p q : Process) (ip : String) (tag : AllocationTag) (cpus : Option (List ℕ)) : Prop :=
  ∀ ip' tag', tag'.purpose = "monitoring" → q.allocator.allocation? ip' tag' =
    if ip' = ip ∧ tag' = tag then cpus else p.allocator.allocation? ip' tag'

/-- Setting up a host leaves management cores as they are. -/
theorem allocation?_quiet (h : Quiet p q) (ip : String) {tag : AllocationTag}
    (htag : tag.purpose = "monitoring") :
    q.allocator.allocation? ip tag = p.allocator.allocation? ip tag := by
  rcases h.allocation ip tag (by simp [htag]) with hsame | ⟨hserver, -⟩
  · exact hsame
  · simp [htag] at hserver

/-- A reservation fills the slot of its task, or fails and leaves the slots alone. -/
theorem reserve_ends (hfree : p.allocator.allocation? ip (tag taskId) = none) :
    (reserve env taskId ip).Ends
      (fun cpus q => cpus ≠ [] ∧ q.management = p.management ∧
        Otherwise p q ip (tag taskId) (some cpus))
      (fun _ q => q.management = p.management ∧ Otherwise p q ip (tag taskId) none) p := by
  -- a slot that was free is free when nothing happened to it
  have hnone : ∀ q, Quiet p q → Otherwise p q ip (tag taskId) none := by
    intro q hq ip' tag' htag
    rw [allocation?_quiet hq ip' htag]
    split
    · next hslot => rw [hslot.1, hslot.2, hfree]
    · rfl
  unfold reserve
  have hensure := @ensureHostCpuAllocation_quiet env p ip p (.refl p)
  refine (hensure.conseq (fun _ _ hq => hq) fun _ q hq => ⟨hq.management, hnone q hq⟩).bind ?_
  intro _ q hq
  rw [ends_bind, ends_get]
  refine ends_allocateFor (fun cpus allocator hallocate => ?_) fun _ => ⟨hq.management, hnone q hq⟩
  obtain ⟨-, hlength, hallocated⟩ := CpuAllocator.allocation?_allocate hallocate
  refine ⟨?_, hq.management, fun ip' tag' htag => ?_⟩
  · rintro rfl
    cases hlength
  · rw [hallocated, allocation?_quiet hq ip' htag]

/-- **Acquiring** pins an unpinned runner to the CPUs of its slot, or leaves both as they
were. -/
theorem acquire_ends {initial : List ℕ} (hunpinned : p.management = ⟨[], none, [], initial⟩)
    (hfree : p.allocator.allocation? ip (tag taskId) = none)
    (hread : ¬ Runner.MaskRaises env taskId ip p) :
    (acquire env taskId ip).Ends
      (fun _ q =>
        (q.management = ⟨[], none, [], initial⟩ ∧ Otherwise p q ip (tag taskId) none) ∨
        ∃ cpus, cpus ≠ [] ∧ q.management = ⟨cpus, some initial, initial, cpus⟩ ∧
          Otherwise p q ip (tag taskId) (some cpus))
      (fun _ _ => False) p := by
  have hreserve := @reserve_ends env taskId ip p hfree
  unfold acquire tryReserve
  unfold Runner.MaskRaises at hread
  rw [ends_bind, ends_handle, ends_bind]
  -- a failed reservation is caught, and the runner stays unpinned
  rcases hres : reserve env taskId ip p with ⟨e | cpus, q⟩
  · rw [ends_error hres] at hreserve ⊢
    exact .inl ⟨hreserve.1.trans hunpinned, hreserve.2⟩
  · rw [ends_ok hres] at hreserve hread ⊢
    obtain ⟨hcpus, hmanagement, hslots⟩ := hreserve
    have hstep : env.step q = (.ok (), { q with clock := q.clock + 1 }) := by
      simp [Surroundings.step, not_not.mp hread]
    rw [ends_pure, ends_bind, ends_ok hstep]
    -- pinning that fails gives the cores back
    unfold pin
    rw [ends_bind, ends_get]
    rw [hunpinned] at hmanagement
    split
    · refine .inl ⟨hmanagement, fun ip' tag' htag => ?_⟩
      rw [CpuAllocator.allocation?_release]
      split
      · rfl
      · next hslot => rw [hslots ip' tag' htag, if_neg hslot]
    · refine .inr ⟨cpus, hcpus, ?_, hslots⟩
      dsimp only
      rw [hmanagement]

/-- **Releasing** restores the mask, when that does not fail, and frees the slot. -/
theorem release_ends (hrestore : p.management.originalMask ≠ none → env.pinFails p.clock = false) :
    (release env taskId ip).Ends
      (fun _ q => q.management =
          ⟨[], none, [], p.management.originalMask.getD p.management.mask⟩ ∧
        (p.management.cpulist = [] → q.allocator = p.allocator) ∧
        (p.management.cpulist ≠ [] → Otherwise p q ip (tag taskId) none))
      (fun _ _ => False) p := by
  refine ⟨?_, fun hnone => if_pos hnone, fun hsome ip' tag' _ => ?_⟩
  · dsimp only
    cases hmask : p.management.originalMask with
    | none => rfl
    | some original =>
      have hpin : env.pinFails p.clock = false := hrestore (by simp [hmask])
      simp [hpin]
  · dsimp only
    rw [if_neg hsome, CpuAllocator.allocation?_release]

end ManagementCores

/-! ## What holds between the steps -/

namespace CpuCall

/-- A call for other cores leaves the management cores as they are. -/
theorem Foreign.allocation?_apply {a : CpuAllocator} {c : CpuCall} (h : c.Foreign a) (ip : String)
    {tag : AllocationTag} (htag : tag.purpose = "monitoring") :
    (a.apply c).allocation? ip tag = a.allocation? ip tag := by
  cases c with
  | registerHost ip' allCpus numaNodes l3Caches netNuma =>
    exact CpuAllocator.allocation?_registerHost h allCpus numaNodes l3Caches netNuma ip tag
  | allocate ip' tag' count p =>
    have hother : ¬ (ip = ip' ∧ tag = tag') := by
      rintro ⟨-, rfl⟩
      exact h htag
    unfold CpuAllocator.apply
    dsimp only
    split
    · next cpus a' hallocate =>
      rw [(CpuAllocator.allocation?_allocate hallocate).2.2, if_neg hother]
    · rfl
  | release ip' tag' =>
    have hother : ¬ (ip = ip' ∧ tag = tag') := by
      rintro ⟨-, rfl⟩
      exact h htag
    exact (CpuAllocator.allocation?_release a ip' tag' ip tag).trans (if_neg hother)

end CpuCall

namespace Runner

variable {env : Surroundings} {initial : List ℕ}

/-- The runner has the mask it started with, and nobody holds management cores. -/
structure Unpinned (initial : List ℕ) (p : Process) : Prop where
  management : p.management = ⟨[], none, [], initial⟩
  slots      : ∀ ip tag, tag.purpose = "monitoring" → p.allocator.allocation? ip tag = none

/-- The runner is pinned to the cores of the one slot that holds any. -/
structure Pinned (initial : List ℕ) (ip : String) (tag : AllocationTag) (cpus : List ℕ) (p : Process) :
    Prop where
  nonempty   : cpus ≠ []
  management : p.management = ⟨cpus, some initial, initial, cpus⟩
  slots      : ∀ ip' tag', tag'.purpose = "monitoring" →
    p.allocator.allocation? ip' tag' = if ip' = ip ∧ tag' = tag then some cpus else none

/-- The runner is unpinned, or pinned for the task at work. -/
def Inv (initial : List ℕ) (r : Runner) : Prop :=
  Unpinned initial r.process ∨ ∃ taskId ip cpus, r.tenure = .acquired taskId ip ∧
    Pinned initial ip (ManagementCores.tag taskId) cpus r.process

theorem inv_acquire {r : Runner} {taskId ip : String} (hidle : ∀ t i, r.tenure ≠ .acquired t i)
    (hread : ¬ MaskRaises env taskId ip r.renewed) (h : r.Inv initial) :
    Inv initial ⟨(ManagementCores.acquire env taskId ip r.renewed).2, .acquired taskId ip⟩ := by
  -- a runner without a task is not pinned
  rcases h with ⟨hmanagement, hslots⟩ | ⟨t, i, -, hwork, -⟩
  · have hunpinned : r.renewed.management = ⟨[], none, [], initial⟩ := by
      rw [renewed, hmanagement]
      rfl
    have hends := ManagementCores.acquire_ends hunpinned (hslots _ _ rfl) hread
    suffices hall : (ManagementCores.acquire env taskId ip).Ends
        (fun _ q => Inv initial ⟨q, .acquired taskId ip⟩)
        (fun _ q => Inv initial ⟨q, .acquired taskId ip⟩) r.renewed from ends_same.mp hall
    refine hends.conseq (fun _ q hq => ?_) fun _ _ hq => hq.elim
    rcases hq with ⟨hsame, hfree⟩ | ⟨cpus, hcpus, hpinned, hheld⟩
    · refine .inl ⟨hsame, fun ip' tag' htag => ?_⟩
      rw [hfree ip' tag' htag]
      split
      · rfl
      · exact hslots ip' tag' htag
    · refine .inr ⟨taskId, ip, cpus, rfl, hcpus, hpinned, fun ip' tag' htag => ?_⟩
      rw [hheld ip' tag' htag]
      split
      · rfl
      · exact hslots ip' tag' htag
  · exact absurd hwork (hidle t i)

theorem inv_call {r : Runner} {c : CpuCall} (hforeign : c.Foreign r.process.allocator)
    (h : r.Inv initial) :
    Inv initial
      { r with process := { r.process with allocator := r.process.allocator.apply c } } := by
  rcases h with ⟨hmanagement, hslots⟩ | ⟨taskId, ip, cpus, hwork, hcpus, hmanagement, hslots⟩
  · refine .inl ⟨hmanagement, fun ip tag htag => ?_⟩
    exact (hforeign.allocation?_apply ip htag).trans (hslots ip tag htag)
  · refine .inr ⟨taskId, ip, cpus, hwork, hcpus, hmanagement, fun ip' tag' htag => ?_⟩
    exact (hforeign.allocation?_apply ip' htag).trans (hslots ip' tag' htag)

theorem inv_release {r : Runner} {taskId ip : String}
    (hused : r.tenure = .acquired taskId ip ∨ r.tenure = .released taskId ip)
    (hrestore : r.Mended env .release) (h : r.Inv initial) :
    Inv initial ⟨(ManagementCores.release env taskId ip r.process).2, .released taskId ip⟩ := by
  have hends := @ManagementCores.release_ends env taskId ip r.process hrestore
  suffices hall : (ManagementCores.release env taskId ip).Ends
      (fun _ q => Inv initial ⟨q, .released taskId ip⟩)
      (fun _ q => Inv initial ⟨q, .released taskId ip⟩) r.process from ends_same.mp hall
  refine hends.conseq (fun _ q hq => ?_) fun _ _ hq => hq.elim
  obtain ⟨hmask, hkept, hfreed⟩ := hq
  rcases h with ⟨hmanagement, hslots⟩ | ⟨t, i, cpus, hwork, hcpus, hmanagement, hslots⟩
  · -- a second release, or one of a task that was left unpinned
    rw [hmanagement] at hmask hkept
    refine .inl ⟨hmask, fun ip' tag' htag => ?_⟩
    rw [hkept rfl]
    exact hslots ip' tag' htag
  · rw [hmanagement] at hmask hfreed
    refine .inl ⟨hmask, fun ip' tag' htag => ?_⟩
    -- the slot that holds cores is the one that is released
    have hsame : taskId = t ∧ ip = i := by
      rcases hused with hused | hused
      · rw [hwork] at hused
        cases hused
        exact ⟨rfl, rfl⟩
      · rw [hwork] at hused
        cases hused
    rw [hfreed hcpus ip' tag' htag, hsame.1, hsame.2]
    split
    · rfl
    · next hslot => rw [hslots ip' tag' htag, if_neg hslot]

/-- **The step lemma.** -/
theorem inv_step {r r' : Runner} {e : RunnerEvent} (hstep : Step env r e r')
    (hmended : r.Mended env e) (h : r.Inv initial) : r'.Inv initial := by
  cases hstep with
  | acquire hidle => exact inv_acquire hidle hmended h
  | call hforeign => exact inv_call hforeign h
  | release hused => exact inv_release hused hmended h

/-! ## What a task and its generators see -/

/-- The text of some CPUs names them. -/
theorem namedCpus_sorted {cpus : List ℕ} (h : cpus ≠ []) :
    namedCpus (formatCpulist (cpus.insertionSort (· ≤ ·))) = some (cpus.insertionSort (· ≤ ·)) := by
  refine namedCpus_formatCpulist fun hnil => h ?_
  rw [← List.length_eq_zero_iff, ← List.length_insertionSort (· ≤ ·) cpus, hnil, List.length_nil]

theorem formatCpulist_ne_empty {cpus : List ℕ} (h : cpus ≠ []) :
    formatCpulist (cpus.insertionSort (· ≤ ·)) ≠ "" := by
  intro hempty
  have hnamed := namedCpus_sorted h
  have hnone : namedCpus "" = none := by decide
  rw [hempty, hnone] at hnamed
  cases hnamed

theorem Unpinned.right {r : Runner} (h : Unpinned initial r.process) : r.Right initial where
  named taskId ip hwork := by
    rw [h.slots ip (ManagementCores.tag taskId) rfl]
    show r.process.management.cpulistText = ""
    rw [h.management]
    rfl
  released ip tag htag _ := h.slots ip tag htag
  launch hconfined := by
    refine absurd (fun cpu => ?_) hconfined
    rw [h.management]
  child := by
    refine ⟨initial, ?_, fun _ => Iff.rfl⟩
    rw [h.management]
    rfl

theorem Pinned.right {r : Runner} {taskId ip : String} {cpus : List ℕ} (hinitial : initial ≠ [])
    (hwork : r.tenure = .acquired taskId ip)
    (h : Pinned initial ip (ManagementCores.tag taskId) cpus r.process) : r.Right initial where
  named t i hcurrent := by
    rw [hwork] at hcurrent
    cases hcurrent
    rw [h.slots ip (ManagementCores.tag taskId) rfl, if_pos ⟨rfl, rfl⟩]
    show namedCpus r.process.management.cpulistText = some (cpus.insertionSort (· ≤ ·))
    rw [h.management]
    exact namedCpus_sorted h.nonempty
  released ip' tag' htag hother := by
    rw [h.slots ip' tag' htag, if_neg]
    rintro ⟨rfl, rfl⟩
    exact hother ⟨taskId, hwork, rfl⟩
  launch _ := by
    rw [h.management]
    rfl
  child := by
    have hlaunch : r.process.management.effectiveLaunchCpus none =
        formatCpulist (initial.insertionSort (· ≤ ·)) := by
      rw [h.management]
      rfl
    refine ⟨initial.insertionSort (· ≤ ·), ?_, fun _ => List.mem_insertionSort _⟩
    rw [Management.childCpus, hlaunch, if_pos (formatCpulist_ne_empty hinitial),
      namedCpus_sorted hinitial]

/-- **Over any sequence of tasks**, with whatever failing in them, the management cores that
are held are those of the task at work and the ones its `cpulist` names; a runner that is
confined publishes the mask it started with, and generators run under that mask: as long
as no mask goes unread with cores reserved and none that was changed goes unrestored. -/
theorem runs_right {clock : ℕ} {entries : List Entry} (hinitial : initial ≠ [])
    {events : List RunnerEvent} {r : Runner}
    (hrun : Run (fun a e b => Step env a e b ∧ a.Mended env e)
      ⟨.fresh clock .empty initial entries, .unused⟩ events r) : r.Right initial := by
  have hstart : Inv initial ⟨.fresh clock .empty initial entries, .unused⟩ :=
    .inl ⟨rfl, fun ip tag _ => CpuAllocator.allocation?_of_unregistered rfl tag⟩
  have hinv := hrun.invariant (Inv initial) hstart fun _ _ _ hstep => inv_step hstep.1 hstep.2
  rcases hinv with hunpinned | ⟨taskId, ip, cpus, hwork, hpinned⟩
  · exact hunpinned.right
  · exact hpinned.right hinitial hwork

/-! ### A mask that is not restored -/

open SmallDeployment (crashing)

def eightCpus : List ℕ := [0, 1, 2, 3, 4, 5, 6, 7]

def started : Runner := ⟨.fresh 0 .empty eightCpus [], .unused⟩

/-- The host of a task, with a failure of `taskset` at some time. -/
def failingAt (clock : ℕ) : Surroundings := { crashing with pinFails := fun c => c = clock }

/-- The runner after a step that is not a call. -/
def next (env : Surroundings) (r : Runner) : RunnerEvent → Runner
  | .acquire taskId ip => ⟨(ManagementCores.acquire env taskId ip r.renewed).2, .acquired taskId ip⟩
  | .call _ => r
  | .release =>
    match r.tenure with
    | .unused => r
    | .acquired taskId ip | .released taskId ip =>
      ⟨(ManagementCores.release env taskId ip r.process).2, .released taskId ip⟩

/-- A task with nothing failing, released twice, and the next one at work. -/
theorem two_tasks_right :
    let env := failingAt 100
    let first := next env (next env (next env started (.acquire "t1" "127.0.0.1")) .release) .release
    (next env first (.acquire "t2" "127.0.0.1")).Right eightCpus ∧
      (next env first (.acquire "t2" "127.0.0.1")).process.management.cpulistText = "7" := by
  intro env first
  refine ⟨?_, by decide +kernel⟩
  have hread : ∀ (r : Runner) (taskId ip : String), ¬ MaskRaises env taskId ip r.renewed := by
    intro r taskId ip hraises
    unfold MaskRaises Ends at hraises
    split at hraises
    · exact hraises rfl
    · exact hraises
  have hstarted : ∀ t i, started.tenure ≠ .acquired t i := nofun
  have hfirst : ∀ t i, first.tenure ≠ .acquired t i := nofun
  refine @runs_right env eightCpus 0 [] (by decide)
    [.acquire "t1" "127.0.0.1", .release, .release, .acquire "t2" "127.0.0.1"] _ ?_
  refine .cons (t := next env started (.acquire "t1" "127.0.0.1"))
    ⟨.acquire hstarted, hread started _ _⟩ ?_
  refine .cons (t := next env (next env started (.acquire "t1" "127.0.0.1")) .release)
    ⟨.release (.inl rfl), fun _ => by decide +kernel⟩ ?_
  refine .cons (t := first) ⟨.release (.inr rfl), fun _ => by decide +kernel⟩ ?_
  exact .single ⟨.acquire hfirst, hread first _ _⟩

/-- A task's mask is not restored: what is launched next runs on its management core, and
the next task takes that core for the CPUs the runner started with. -/
theorem confinement_inherited :
    let env := failingAt 4
    let first := next env (next env started (.acquire "t1" "127.0.0.1")) .release
    let second := next env first (.acquire "t2" "127.0.0.1")
    Run (Step env) started [.acquire "t1" "127.0.0.1", .release] first ∧
      ¬ first.Right eightCpus ∧ first.process.management.childCpus none = some [7] ∧
      Step env first (.acquire "t2" "127.0.0.1") second ∧
      second.process.management.launchText = "7" := by
  intro env first second
  have hchild : first.process.management.childCpus none = some [7] := by decide +kernel
  have hstarted : ∀ t i, started.tenure ≠ .acquired t i := nofun
  have hfirst : ∀ t i, first.tenure ≠ .acquired t i := nofun
  refine ⟨?_, fun hright => ?_, hchild, .acquire hfirst, by decide +kernel⟩
  · exact .cons (t := next env started (.acquire "t1" "127.0.0.1")) (.acquire hstarted)
      (.single (.release (.inl rfl)))
  · obtain ⟨cpus, hcpus, hall⟩ := hright.child
    rw [hchild] at hcpus
    cases hcpus
    exact absurd ((hall 0).mpr (by decide)) (by decide)

end Runner

end Conductress
