import Mathlib.Data.List.Dedup
import Conductress.Bench.TaskRun

/-!
# What a task leaves allocated

A run of a task holds cores for its servers, its generators and the runner
itself. `Accounts` says who holds what: every allocation made for the task
belongs to a server of the topology, a generator or the management cores, and
each step of the run keeps it so. What is left at the end follows from which of
the three clean-ups were reached: `released_iff`.
-/

namespace Conductress

open Lib Raising Surroundings

/-! ## Who holds what -/

namespace Process

/-- An allocation of the task, by host and tag, is held. -/
def Holds (p : Process) (slot : String × AllocationTag) : Prop :=
  slot ∈ p.made ∧ p.allocator.allocation? slot.1 slot.2 ≠ none

/-- No allocation made for the task is held. -/
def Released (p : Process) : Prop := ∀ slot, ¬ p.Holds slot

end Process

namespace BenchTask

variable (task : BenchTask)

/-- The slot of the management cores. -/
def managementSlot : Option (String × AllocationTag) :=
  (TaskRunner.managementHost task).map fun ip => (ip, ManagementCores.tag task.taskId)

/-- Whoever releases the slot. -/
inductive Owns (p : Process) (slot : String × AllocationTag) : Prop where
  | management : task.managementSlot = some slot → p.management.cpulist ≠ [] → Owns p slot
  | generator : slot.1 = Generator.clientIp → slot.2 ∈ p.generators → Owns p slot
  | server : ∀ s ∈ p.servers, s.ip = slot.1 → s.held? = some slot.2 → Owns p slot

/-- Every allocation of the task has an owner, and every owner is of its kind. -/
structure Accounts (p : Process) : Prop where
  owned      : ∀ slot, p.Holds slot → Owns task p slot
  made       : ∀ slot ∈ p.made, slot.2.purpose ≠ "irq"
  generators : ∀ tag ∈ p.generators, p.Holds (Generator.clientIp, tag) ∧ tag.purpose = "benchmark"
  servers    : ∀ s ∈ p.servers, s.ip ∈ task.hosts ∧ ∀ tag, s.tag = some tag → tag.purpose = "server"

end BenchTask

/-! ## Steps that hold nothing new -/

/-- The second state holds what the first one held, cores of servers apart: time
has passed, servers were killed, hosts and their interrupts set up. -/
structure Quiet (p q : Process) : Prop where
  made       : q.made = p.made
  servers    : q.servers = p.servers
  generators : q.generators = p.generators
  management : q.management = p.management
  allocation : ∀ ip tag, tag.purpose ≠ "irq" →
    q.allocator.allocation? ip tag = p.allocator.allocation? ip tag ∨
      tag.purpose = "server" ∧ q.allocator.allocation? ip tag = none

namespace Quiet

variable {p q r : Process}

/-- The same allocations. -/
theorem of_same (hmade : q.made = p.made) (hservers : q.servers = p.servers)
    (hgenerators : q.generators = p.generators) (hmanagement : q.management = p.management)
    (hallocation : ∀ ip tag, tag.purpose ≠ "irq" →
      q.allocator.allocation? ip tag = p.allocator.allocation? ip tag) : Quiet p q :=
  ⟨hmade, hservers, hgenerators, hmanagement, fun ip tag htag => .inl (hallocation ip tag htag)⟩

theorem refl (p : Process) : Quiet p p := .of_same rfl rfl rfl rfl fun _ _ _ => rfl

theorem trans (h : Quiet p q) (h' : Quiet q r) : Quiet p r where
  made       := h'.made.trans h.made
  servers    := h'.servers.trans h.servers
  generators := h'.generators.trans h.generators
  management := h'.management.trans h.management
  allocation ip tag htag := by
    rcases h'.allocation ip tag htag with heq | hgone
    · rw [heq]
      exact h.allocation ip tag htag
    · exact .inr hgone

/-- Nothing is held that was not. -/
theorem holds (h : Quiet p q) {slot : String × AllocationTag} (hirq : slot.2.purpose ≠ "irq")
    (hq : q.Holds slot) : p.Holds slot := by
  refine ⟨h.made ▸ hq.1, ?_⟩
  rcases h.allocation slot.1 slot.2 hirq with heq | ⟨-, hgone⟩
  · rw [← heq]
    exact hq.2
  · exact absurd hgone hq.2

/-- What is no server's is still held. -/
theorem still (h : Quiet p q) {slot : String × AllocationTag} (hirq : slot.2.purpose ≠ "irq")
    (hserver : slot.2.purpose ≠ "server") (hp : p.Holds slot) : q.Holds slot := by
  refine ⟨h.made.symm ▸ hp.1, ?_⟩
  rcases h.allocation slot.1 slot.2 hirq with heq | ⟨hpurpose, -⟩
  · rw [heq]
    exact hp.2
  · exact absurd hpurpose hserver

/-- The accounts stay right. -/
theorem accounts {task : BenchTask} (h : Quiet p q) (hp : task.Accounts p) : task.Accounts q where
  owned slot hholds := by
    have hmade : slot ∈ p.made := h.made ▸ hholds.1
    cases hp.owned slot (h.holds (hp.made slot hmade) hholds) with
    | management hslot hcpus => exact .management hslot (by rwa [h.management])
    | generator hip htag => exact .generator hip (by rwa [h.generators])
    | server s hs hip hheld => exact .server s (by rwa [h.servers]) hip hheld
  made := by
    rw [h.made]
    exact hp.made
  generators tag htag := by
    rw [h.generators] at htag
    obtain ⟨hholds, hpurpose⟩ := hp.generators tag htag
    exact ⟨h.still (by simp [hpurpose]) (by simp [hpurpose]) hholds, hpurpose⟩
  servers := by
    rw [h.servers]
    exact hp.servers

end Quiet

namespace Surroundings

variable {env : Surroundings}

/-- What steps from `p` that hold nothing keep. -/
theorem step_quiet (p : Process) : Keeps (Quiet p) env.step := by
  intro q hq
  unfold Ends step
  cases env.raises q.clock with
  | none => exact hq.trans (.of_same rfl rfl rfl rfl fun _ _ _ => rfl)
  | some e => exact hq.trans (.of_same rfl rfl rfl rfl fun _ _ _ => rfl)

theorem registerHostCpus_quiet (p : Process) (ip : String) :
    Keeps (Quiet p) (env.registerHostCpus ip) := by
  intro q hq
  unfold registerHostCpus
  rw [ends_bind, ends_get]
  split
  · exact hq
  · next hnew =>
    rw [ends_bind]
    -- the step in between leaves the host unregistered
    have hstep : env.step.Ends (fun _ r => Quiet p r ∧ r.allocator = q.allocator)
        (fun _ => Quiet p) q := by
      have hquiet := @step_quiet env p q hq
      unfold Ends step at hquiet ⊢
      cases hraises : env.raises q.clock with
      | none =>
        rw [hraises] at hquiet
        exact ⟨hquiet, rfl⟩
      | some e =>
        rw [hraises] at hquiet
        exact hquiet
    refine hstep.conseq (fun _ r hr => ?_) fun _ _ hr => hr
    obtain ⟨hr, hallocator⟩ := hr
    rw [Bool.not_eq_true, ← hallocator] at hnew
    exact hr.trans (.of_same rfl rfl rfl rfl
      fun ip' tag _ => CpuAllocator.allocation?_registerHost hnew _ _ _ _ ip' tag)

theorem allocateIrqs_quiet (p : Process) (ip : String) : Keeps (Quiet p) (env.allocateIrqs ip) := by
  intro q hq
  unfold Ends allocateIrqs
  generalize hallocate : q.allocator.allocate ip irqTag _ _ = allocated
  rcases allocated with e | ⟨cpus, allocator⟩
  · exact hq
  · refine hq.trans (.of_same rfl rfl rfl rfl fun ip' tag hirq => ?_)
    rw [(CpuAllocator.allocation?_allocate hallocate).2.2, if_neg]
    rintro ⟨-, rfl⟩
    exact hirq rfl

theorem pinNetworkIrqs_quiet (p : Process) (ip : String) :
    Keeps (Quiet p) (env.pinNetworkIrqs ip) := by
  refine Keeps.get_bind fun q => ?_
  split
  · exact .pure ()
  · exact (step_quiet p).bind fun _ => (allocateIrqs_quiet p ip).bind fun _ => step_quiet p

theorem ensureHostCpuAllocation_quiet (p : Process) (ip : String) :
    Keeps (Quiet p) (env.ensureHostCpuAllocation ip) := by
  refine (step_quiet p).bind fun _ => (registerHostCpus_quiet p ip).bind fun _ => ?_
  split
  · exact .pure ()
  · exact (step_quiet p).bind fun _ => pinNetworkIrqs_quiet p ip

end Surroundings

/-- Killing servers releases those of every host where `pkill` does not raise. -/
theorem allocation?_killed (raises : String → Option PyError) (hosts : List String)
    (a : CpuAllocator) (ip : String) (tag : AllocationTag) :
    (hosts.foldl (fun a ip => if (raises ip).isSome then a else a.releaseServers ip) a).allocation?
      ip tag = if ip ∈ hosts ∧ raises ip = none ∧ tag.purpose = "server" then none
        else a.allocation? ip tag := by
  induction hosts generalizing a with
  | nil => simp
  | cons host hosts ih =>
    rw [List.foldl_cons, ih]
    simp only [List.mem_cons]
    cases hraises : raises host with
    | some e => grind
    | none =>
      simp only [Option.isSome_none, Bool.false_eq_true, if_false,
        CpuAllocator.allocation?_releaseServers]
      grind

/-- No server of a host holds cores. -/
def Process.NoServers (p : Process) (hosts : List String) : Prop :=
  ∀ ip ∈ hosts, ∀ tag, tag.purpose = "server" → p.allocator.allocation? ip tag = none

theorem Quiet.noServers {p q : Process} {hosts : List String} (h : Quiet p q)
    (hp : p.NoServers hosts) : q.NoServers hosts := by
  intro ip hip tag htag
  rcases h.allocation ip tag (by simp [htag]) with heq | ⟨-, hgone⟩
  · rw [heq]
    exact hp ip hip tag htag
  · exact hgone

/-- Killing servers holds nothing new, and leaves none of them unless it raises. -/
theorem killAllOn_ends {env : Surroundings} (p : Process) (hosts : List String) {q : Process}
    (hq : Quiet p q) : (killAllOn env hosts).Ends (fun _ r => Quiet p r ∧ r.NoServers hosts)
      (fun _ => Quiet p) q := by
  have hkilled := allocation?_killed (env.killRaises q.clock) hosts q.allocator
  have hquiet : Quiet p (killAllOn env hosts q).2 := by
    refine hq.trans ?_
    unfold killAllOn
    split <;> refine ⟨rfl, rfl, rfl, rfl, fun ip tag _ => ?_⟩ <;> dsimp only <;>
      rw [hkilled] <;> split <;> tauto
  unfold Ends killAllOn at *
  cases hraises : hosts.findSome? (env.killRaises q.clock) with
  | some e =>
    rw [hraises] at hquiet
    exact hquiet
  | none =>
    rw [hraises] at hquiet
    refine ⟨hquiet, fun ip hip tag htag => ?_⟩
    dsimp only
    rw [hkilled, if_pos ⟨hip, List.findSome?_eq_none_iff.mp hraises ip hip, htag⟩]

theorem killAllOn_quiet {env : Surroundings} (p : Process) (hosts : List String) :
    Keeps (Quiet p) (killAllOn env hosts) :=
  fun _ hq => (killAllOn_ends p hosts hq).conseq (fun _ _ hr => hr.1) fun _ _ hr => hr

/-- What steps that hold nothing leave true, they may be run under. -/
theorem Quiet.keeps {α : Type} {x : Job α} {I : Process → Prop} (hx : ∀ p, Keeps (Quiet p) x)
    (hI : ∀ p q, Quiet p q → I p → I q) : Keeps I x :=
  fun p hp => (hx p p (.refl p)).conseq (fun _ q hq => hI p q hq hp) fun _ q hq => hI p q hq hp

/-! ## Allocations -/

/-- Where an allocation for the task ends. -/
theorem ends_allocateFor {ip : String} {tag : AllocationTag} {count : ℕ} {placement : Placement}
    {Q : List ℕ → Process → Prop} {E : PyError → Process → Prop} {p : Process}
    (hok : ∀ cpus allocator, p.allocator.allocate ip tag count placement = .ok (cpus, allocator) →
      Q cpus { p with allocator, made := (ip, tag) :: p.made })
    (herror : ∀ e, E e p) : (allocateFor ip tag count placement).Ends Q E p := by
  unfold Ends allocateFor
  rcases hallocate : p.allocator.allocate ip tag count placement with e | ⟨cpus, allocator⟩
  · exact herror e
  · exact hok cpus allocator hallocate

namespace Process

variable {p : Process} {ip : String} {tag : AllocationTag} {cpus : List ℕ} {count : ℕ}
  {placement : Placement} {allocator : CpuAllocator}

/-- After an allocation for the task one more slot is held. -/
theorem holds_allocated (hok : p.allocator.allocate ip tag count placement = .ok (cpus, allocator))
    {q : Process} (hmade : q.made = (ip, tag) :: p.made) (hallocator : q.allocator = allocator)
    (slot : String × AllocationTag) : q.Holds slot ↔ slot = (ip, tag) ∨ p.Holds slot := by
  obtain ⟨-, -, hallocated⟩ := CpuAllocator.allocation?_allocate hok
  unfold Holds
  rw [hmade, hallocator, hallocated, List.mem_cons]
  by_cases hslot : slot = (ip, tag)
  · simp [hslot]
  · have hne : ¬ (slot.1 = ip ∧ slot.2 = tag) := fun h => hslot (Prod.ext h.1 h.2)
    rw [if_neg hne]
    tauto

end Process

/-! ## Servers -/

namespace Server

variable {s : Server} {env : Surroundings} {clock : ℕ} {tag : AllocationTag}

theorem tag_of_held (h : s.held? = some tag) : s.tag = some tag ∧ s.cpus ≠ [] := by
  unfold held? at h
  split at h
  · cases h
  · next hcpus => exact ⟨h, hcpus⟩

theorem held_of_tag (htag : s.tag = some tag) (hcpus : s.cpus ≠ []) : s.held? = some tag := by
  unfold held?
  rw [if_neg hcpus, htag]

/-- A stopped server holds nothing. -/
theorem held_stopped : (s.stopped env clock).held? = none := by
  unfold stopped released
  by_cases hheld : s.held?.isSome = true
  · rw [if_pos hheld]
    rfl
  · rw [if_neg hheld]
    rw [Bool.not_eq_true, Option.isSome_eq_false_iff, Option.isNone_iff_eq_none] at hheld
    exact hheld

theorem ip_stopped : (s.stopped env clock).ip = s.ip := by
  unfold stopped released
  split <;> rfl

theorem tag_of_stopped (h : (s.stopped env clock).tag = some tag) : s.tag = some tag := by
  unfold stopped released at h
  split at h
  · cases h
  · exact h

/-- Stopping servers releases what each of them holds. -/
theorem allocation?_release (servers : List Server) (a : CpuAllocator) (ip : String)
    (tag : AllocationTag) : (servers.foldl (fun a s => s.release a) a).allocation? ip tag =
      if ∃ s ∈ servers, s.ip = ip ∧ s.held? = some tag then none else a.allocation? ip tag := by
  induction servers generalizing a with
  | nil => simp
  | cons s servers ih =>
    rw [List.foldl_cons, ih]
    simp only [List.mem_cons, exists_eq_or_imp]
    unfold release
    cases hheld : s.held? with
    | none => simp
    | some held =>
      dsimp only
      rw [CpuAllocator.allocation?_release]
      by_cases hs : s.ip = ip ∧ held = tag
      · simp [hs.1, hs.2]
      · have hne : ¬ (ip = s.ip ∧ tag = held) := fun h => hs ⟨h.1.symm, h.2.symm⟩
        have hs' : ¬ (s.ip = ip ∧ some held = some tag) := by simpa using hs
        simp only [hne, hs', if_false, false_or]

end Server

namespace BenchTask

variable {env : Surroundings} {task : BenchTask} {p q : Process}

namespace Accounts

/-- Owners may only be added. -/
theorem grow (hp : task.Accounts p)
    (hheld : ∀ slot, q.Holds slot → p.Holds slot ∨ task.Owns q slot)
    (howns : ∀ slot, p.Holds slot → task.Owns p slot → task.Owns q slot)
    (hmade : ∀ slot ∈ q.made, slot ∈ p.made ∨ slot.2.purpose ≠ "irq")
    (hgenerators : ∀ tag ∈ q.generators, q.Holds (Generator.clientIp, tag) ∧ tag.purpose = "benchmark")
    (hservers : ∀ s ∈ q.servers, s.ip ∈ task.hosts ∧
      ∀ tag, s.tag = some tag → tag.purpose = "server") : task.Accounts q where
  owned slot hslot := by
    rcases hheld slot hslot with hold | hnew
    · exact howns slot hold (hp.owned slot hold)
    · exact hnew
  made slot hslot := (hmade slot hslot).elim (hp.made slot) id
  generators := hgenerators
  servers := hservers

/-- Change the server that is being started, with what it holds. -/
theorem updateServer {s : Server} {rest : List Server} {f : Server → Server}
    (hp : task.Accounts p) (hservers : p.servers = s :: rest) (hip : (f s).ip = s.ip)
    (hheld : ∀ tag, s.held? = some tag → (f s).held? = some tag)
    (htag : ∀ tag, (f s).tag = some tag → tag.purpose = "server") :
    task.Accounts { p with servers := f s :: rest } := by
  have hs := hp.servers s (hservers ▸ List.mem_cons_self ..)
  have hrest : ∀ s' ∈ rest, s' ∈ p.servers := fun s' hs' =>
    hservers ▸ List.mem_cons_of_mem _ hs'
  refine hp.grow (fun _ h => .inl h) (fun slot _ howns => ?_) (fun _ h => .inl h) hp.generators ?_
  · cases howns with
    | management hslot hcpus => exact .management hslot hcpus
    | generator hslot hmem => exact .generator hslot hmem
    | server s' hs' hslot hown =>
      rw [hservers] at hs'
      rcases List.mem_cons.mp hs' with rfl | hs'
      · exact .server (f s') (List.mem_cons_self ..) (hip.trans hslot) (hheld _ hown)
      · exact .server s' (List.mem_cons_of_mem _ hs') hslot hown
  · intro s' hs'
    rcases List.mem_cons.mp hs' with rfl | hs'
    · exact ⟨hip ▸ hs.1, htag⟩
    · exact hp.servers s' (hrest s' hs')

end Accounts

/-- The accounts are right, and the server being started has nothing yet. -/
def Opening (task : BenchTask) (i : Instance) (p : Process) : Prop :=
  task.Accounts p ∧ ∃ rest, p.servers = ⟨i.ip, i.port, [], none, false⟩ :: rest

theorem Opening.quiet {i : Instance} (hq : Quiet p q) (hp : task.Opening i p) : task.Opening i q :=
  ⟨hq.accounts hp.1, hq.servers ▸ hp.2⟩

/-- A server is registered before it is started. -/
theorem opening_register {i : Instance} (hi : i ∈ task.instances) (hp : task.Accounts p) :
    task.Opening i { p with servers := ⟨i.ip, i.port, [], none, false⟩ :: p.servers } := by
  refine ⟨hp.grow (fun _ h => .inl h) (fun slot _ howns => ?_) (fun _ h => .inl h) hp.generators ?_,
    p.servers, rfl⟩
  · cases howns with
    | management hslot hcpus => exact .management hslot hcpus
    | generator hslot hmem => exact .generator hslot hmem
    | server s hs hslot hown => exact .server s (List.mem_cons_of_mem _ hs) hslot hown
  · intro s hs
    rcases List.mem_cons.mp hs with rfl | hs
    · exact ⟨List.mem_dedup.mpr (List.mem_map_of_mem hi), by simp⟩
    · exact hp.servers s hs

/-- The CPUs of a server belong to it as soon as they are allocated. -/
theorem allocateServerCpus_ends {i : Instance} (hp : task.Opening i p) :
    (allocateServerCpus i).Ends (fun _ => task.Accounts) (fun _ => task.Accounts) p := by
  obtain ⟨haccounts, rest, hservers⟩ := hp
  unfold allocateServerCpus validateSufficientCpus
  rw [ends_bind, ends_bind, ends_get]
  dsimp only
  split
  · exact haccounts
  rw [ends_pure, ends_bind]
  unfold updateServer
  rw [ends_modify, hservers, ends_bind, ends_get, ends_bind]
  -- the server has its tag, and the tag no CPUs yet
  have htagged : task.Accounts { p with
      servers := ⟨i.ip, i.port, [], some (Server.allocationTag i.ip i.port), false⟩ :: rest } :=
    haccounts.updateServer (f := fun s => { s with tag := some (Server.allocationTag i.ip i.port) })
      hservers rfl (by simp [Server.held?]) (by simp [Server.allocationTag])
  refine ends_allocateFor (fun cpus allocator hallocate => ?_) fun _ => htagged
  rw [ends_modify]
  have hlength : cpus ≠ [] := by
    have := (CpuAllocator.allocation?_allocate hallocate).2.1
    intro hnil
    rw [hnil] at this
    simp [Server.numCpus] at this
  have hholds := fun {q} hmade hallocator => Process.holds_allocated hallocate (q := q) hmade hallocator
  have hserver := htagged.servers _ (List.mem_cons_self ..)
  refine htagged.grow (fun slot hslot => ?_) (fun slot _ howns => ?_) ?_ ?_ ?_
  · rcases (hholds rfl rfl slot).mp hslot with rfl | hold
    · exact .inr (.server _ (List.mem_cons_self ..) rfl (Server.held_of_tag rfl hlength))
    · exact .inl hold
  · cases howns with
    | management hslot hcpus => exact .management hslot hcpus
    | generator hslot hmem => exact .generator hslot hmem
    | server s hs hslot hown =>
      rcases List.mem_cons.mp hs with rfl | hs
      · simp [Server.held?] at hown
      · exact .server s (List.mem_cons_of_mem _ hs) hslot hown
  · intro slot hslot
    rcases List.mem_cons.mp hslot with rfl | hslot
    · exact .inr (by simp [Server.allocationTag])
    · exact .inl hslot
  · intro tag htag
    obtain ⟨hold, hpurpose⟩ := htagged.generators tag htag
    exact ⟨(hholds rfl rfl _).mpr (.inr hold), hpurpose⟩
  · intro s hs
    rcases List.mem_cons.mp hs with rfl | hs
    · exact hserver
    · exact htagged.servers s (List.mem_cons_of_mem _ hs)

/-- A server that fails to start stays in the accounts. -/
theorem startInstance_keeps {i : Instance} (hi : i ∈ task.instances) :
    Keeps task.Accounts (startInstance env i) := by
  have hstep : Keeps task.Accounts env.step := Quiet.keeps step_quiet fun _ _ => Quiet.accounts
  have hstep' : Keeps (task.Opening i) env.step := Quiet.keeps step_quiet fun _ _ => Opening.quiet
  have hensure : Keeps (task.Opening i) (env.ensureHostCpuAllocation i.ip) :=
    Quiet.keeps (ensureHostCpuAllocation_quiet · i.ip) fun _ _ => Opening.quiet
  refine hstep.bind fun _ p hp => ?_
  rw [ends_bind, ends_modify]
  refine (hensure.ends (opening_register hi hp) fun _ _ h => h.1).bind fun _ q hq => ?_
  refine (hstep'.ends hq fun _ _ h => h.1).bind fun _ q hq => ?_
  have hplaced : (placeServer i).Ends (fun _ => task.Accounts) (fun _ => task.Accounts) q := by
    unfold placeServer
    split
    · exact allocateServerCpus_ends hq
    · obtain ⟨haccounts, rest, hservers⟩ := hq
      unfold updateServer
      rw [ends_modify, hservers]
      exact haccounts.updateServer (f := fun s => { s with cpus := i.cpuOverride }) hservers rfl
        (by simp [Server.held?]) (by simp)
  refine hplaced.bind fun _ => hstep.bind fun _ => Keeps.bind ?_ fun _ => hstep
  refine .modify fun q hq => ?_
  cases hservers : q.servers with
  | nil => exact Quiet.accounts (p := q) (.of_same rfl hservers.symm rfl rfl fun _ _ _ => rfl) hq
  | cons s rest =>
    exact hq.updateServer (f := fun s => { s with running := true }) hservers rfl (fun _ h => h)
      fun tag => (hq.servers s (hservers ▸ List.mem_cons_self ..)).2 tag

/-- The list of servers starts anew where no server holds anything. -/
theorem startTopology_ends (hp : task.Accounts p) (hnone : p.NoServers task.hosts) :
    (startTopology env task.instances).Ends (fun _ => task.Accounts) (fun _ => task.Accounts) p := by
  have hstep : Keeps task.Accounts env.step := Quiet.keeps step_quiet fun _ _ => Quiet.accounts
  have hstep' : Keeps (fun q => task.Accounts q ∧ q.NoServers task.hosts) env.step :=
    Quiet.keeps step_quiet fun _ _ hq h => ⟨hq.accounts h.1, hq.noServers h.2⟩
  refine (hstep'.ends ⟨hp, hnone⟩ fun _ _ h => h.1).bind fun _ q hq => ?_
  obtain ⟨hq, hnone⟩ := hq
  rw [ends_bind, ends_modify]
  refine (Keeps.forM fun i hi => startInstance_keeps hi).bind (fun _ => hstep) _ ?_
  refine hq.grow (fun _ h => .inl h) (fun slot hslot howns => ?_) (fun _ h => .inl h) hq.generators
    (by simp)
  cases howns with
  | management hslot hcpus => exact .management hslot hcpus
  | generator hslot hmem => exact .generator hslot hmem
  | server s hs hip hheld =>
    -- an owner among the servers would be a server that holds something
    obtain ⟨hhost, hpurpose⟩ := hq.servers s hs
    have hgone := hnone s.ip hhost _ (hpurpose _ (Server.tag_of_held hheld).1)
    rw [hip] at hgone
    exact absurd hgone hslot.2

/-! ## Generators -/

theorem generator_keeps (g : Generator) : Keeps task.Accounts g.allocate := by
  intro p hp
  unfold Generator.allocate
  rw [ends_bind, ends_get, ends_bind]
  refine ends_allocateFor (fun cpus allocator hallocate => ?_) fun _ => hp
  rw [ends_modify]
  have hholds := fun {q} hmade hallocator => Process.holds_allocated hallocate (q := q) hmade hallocator
  refine hp.grow (fun slot hslot => ?_) (fun slot _ howns => ?_) ?_ ?_ hp.servers
  · rcases (hholds rfl rfl slot).mp hslot with rfl | hold
    · exact .inr (.generator rfl (List.mem_cons_self ..))
    · exact .inl hold
  · cases howns with
    | management hslot hcpus => exact .management hslot hcpus
    | generator hslot hmem => exact .generator hslot (List.mem_cons_of_mem _ hmem)
    | server s hs hslot hown => exact .server s hs hslot hown
  · intro slot hslot
    rcases List.mem_cons.mp hslot with rfl | hslot
    · exact .inr (by simp [Generator.tag])
    · exact .inl hslot
  · intro tag htag
    rcases List.mem_cons.mp htag with rfl | htag
    · exact ⟨(hholds rfl rfl _).mpr (.inl rfl), rfl⟩
    · obtain ⟨hold, hpurpose⟩ := hp.generators tag htag
      exact ⟨(hholds rfl rfl _).mpr (.inr hold), hpurpose⟩

theorem placeGenerators_keeps : Keeps task.Accounts (task.placeGenerators env) := by
  refine .get_bind fun q => ?_
  split
  · exact .pure ()
  · refine Keeps.bind (.modify fun p hp => ?_) fun _ => Keeps.bind ?_ fun _ =>
      Keeps.forM fun g _ => generator_keeps g
    · exact Quiet.accounts (p := p) (.of_same rfl rfl rfl rfl fun _ _ _ => rfl) hp
    · exact Quiet.keeps (ensureHostCpuAllocation_quiet · _) fun _ _ => Quiet.accounts

/-! ## The run -/

/-- The servers and the generators of the task hold nothing. -/
structure OnlyManagement (task : BenchTask) (p : Process) : Prop where
  held : ∀ slot, p.Holds slot → task.managementSlot = some slot ∧ p.management.cpulist ≠ []
  made : ∀ slot ∈ p.made, slot.2.purpose ≠ "irq"

theorem Accounts.onlyManagement (hp : task.Accounts p) (hservers : ∀ s ∈ p.servers, s.held? = none)
    (hgenerators : ∀ slot, p.Holds slot → slot.1 = Generator.clientIp → slot.2 ∉ p.generators) :
    task.OnlyManagement p where
  held slot hslot := by
    cases hp.owned slot hslot with
    | management hmanagement hcpus => exact ⟨hmanagement, hcpus⟩
    | generator hip hmem => exact absurd hmem (hgenerators slot hslot hip)
    | server s hs _ hown => exact absurd hown (by simp [hservers s hs])
  made := hp.made

theorem OnlyManagement.quiet (hq : Quiet p q) (hp : task.OnlyManagement p) :
    task.OnlyManagement q where
  held slot hslot := by
    rw [hq.management]
    exact hp.held slot (hq.holds (hp.made slot (hq.made ▸ hslot.1)) hslot)
  made := hq.made ▸ hp.made

/-- Stopping the servers releases all that is theirs, whether or not it raises. -/
theorem stopAllServers_ends (hp : task.Accounts p) :
    let Q := fun q => task.Accounts q ∧ (∀ s ∈ q.servers, s.held? = none) ∧
      q.generators = p.generators
    (stopAllServers env).Ends
      (fun _ q => Q q ∧ ∀ s ∈ p.servers, (s.stopOutcome env p.clock).error? = none)
      (fun _ q => Q q ∧ ∃ s ∈ p.servers, (s.stopOutcome env p.clock).error? ≠ none) p := by
  intro Q
  have hreleased := Server.allocation?_release p.servers p.allocator
  have hQ : Q (stopAllServers env p).2 := by
    have hstate : (stopAllServers env p).2 = { p with
        clock := p.clock + 1
        allocator := p.servers.foldl (fun a s => s.release a) p.allocator
        servers := p.servers.map (Server.stopped env p.clock) } := by
      unfold stopAllServers
      split <;> rfl
    rw [hstate]
    refine ⟨⟨fun slot hslot => ?_, hp.made, fun tag htag => ?_, ?_⟩, ?_, rfl⟩
    · -- what is still held was no server's
      have hheld : p.allocator.allocation? slot.1 slot.2 ≠ none ∧
          ¬ ∃ s ∈ p.servers, s.ip = slot.1 ∧ s.held? = some slot.2 := by
        have h := hslot.2
        dsimp only at h
        rw [hreleased] at h
        split at h
        · exact absurd rfl h
        · next hnone => exact ⟨h, hnone⟩
      cases hp.owned slot ⟨hslot.1, hheld.1⟩ with
      | management hmanagement hcpus => exact .management hmanagement hcpus
      | generator hip hmem => exact .generator hip hmem
      | server s hs hip hown => exact absurd ⟨s, hs, hip, hown⟩ hheld.2
    · obtain ⟨hold, hpurpose⟩ := hp.generators tag htag
      refine ⟨⟨hold.1, ?_⟩, hpurpose⟩
      dsimp only
      rw [hreleased, if_neg]
      · exact hold.2
      · -- a generator's tag is no server's
        rintro ⟨s, hs, -, hown⟩
        have := (hp.servers s hs).2 tag (Server.tag_of_held hown).1
        simp [hpurpose] at this
    · intro stopped hstopped
      obtain ⟨s, hs, rfl⟩ := List.mem_map.mp hstopped
      rw [Server.ip_stopped]
      exact ⟨(hp.servers s hs).1, fun tag htag => (hp.servers s hs).2 tag (Server.tag_of_stopped htag)⟩
    · intro stopped hstopped
      obtain ⟨s, -, rfl⟩ := List.mem_map.mp hstopped
      exact Server.held_stopped
  unfold Ends stopAllServers at *
  cases hraises : p.servers.findSome? fun s => (s.stopOutcome env p.clock).error? with
  | none =>
    rw [hraises] at hQ
    exact ⟨hQ, fun s hs => List.findSome?_eq_none_iff.mp hraises s hs⟩
  | some e =>
    rw [hraises] at hQ
    obtain ⟨s, hs, herror⟩ := List.exists_of_findSome?_eq_some hraises
    exact ⟨hQ, s, hs, by simp [herror]⟩

theorem step_keeps : Keeps task.Accounts env.step := Quiet.keeps step_quiet fun _ _ => Quiet.accounts

theorem repetition_keeps (rep : ℕ) : Keeps task.Accounts (task.repetition env rep) := by
  have hbetween : Keeps task.Accounts (betweenRepetitions env rep) := by
    unfold betweenRepetitions
    split
    · exact .pure ()
    · refine Keeps.bind (fun p hp => ?_) fun _ => step_keeps
      exact (stopAllServers_ends hp).conseq (fun _ _ h => h.1.1) fun _ _ h => h.1.1
  refine hbetween.bind fun _ p hp => ?_
  -- the servers are killed before the list of them starts anew
  refine ((killAllOn_ends p task.hosts (.refl p)).conseq (fun _ q hq => And.intro (hq.1.accounts hp) hq.2)
    fun _ _ hq => hq.accounts hp).bind fun _ q hq => ?_
  have hstep : Keeps (fun q => task.Accounts q ∧ q.NoServers task.hosts) env.step :=
    Quiet.keeps step_quiet fun _ _ hq h => ⟨hq.accounts h.1, hq.noServers h.2⟩
  refine (hstep.ends hq fun _ _ h => h.1).bind fun _ q hq => ?_
  exact (startTopology_ends hq.1 hq.2).bind fun _ => step_keeps.bind fun _ =>
    placeGenerators_keeps.bind fun _ => step_keeps

/-- Every repetition keeps the accounts, so the loop does. -/
theorem loop_keeps (n rep : ℕ) : Keeps task.Accounts (loop env task n rep) := by
  induction n generalizing rep with
  | zero => exact .pure ()
  | succ n ih =>
    refine (repetition_keeps rep).bind fun _ => ?_
    split
    · exact .pure ()
    · exact ih (rep + 1)

theorem measure_keeps : Keeps task.Accounts (task.measure env) := by
  refine (loop_keeps task.repetitions 0).bind fun _ => ?_
  split
  · exact .raise _
  · refine Keeps.bind (step_keeps.bind fun _ => .modify fun p hp => ?_) fun _ => step_keeps
    exact Quiet.accounts (p := p) (.of_same rfl rfl rfl rfl fun _ _ _ => rfl) hp

/-! ## The clean-ups -/

/-- A generator's cores are held. -/
def GeneratorHeld (p : Process) : Prop :=
  ∃ tag, tag.purpose = "benchmark" ∧ p.Holds (Generator.clientIp, tag)

/-- The generators hold cores, and stopping the servers raises. -/
def Strands (env : Surroundings) (p : Process) : Prop :=
  p.generators ≠ [] ∧ ∃ s ∈ p.servers, (s.stopOutcome env p.clock).error? ≠ none

/-- Releasing generators removes their entries. -/
theorem allocation?_releaseGenerators (tags : List AllocationTag) (a : CpuAllocator) (ip : String)
    (tag : AllocationTag) :
    (tags.foldl (fun a tag => a.release Generator.clientIp tag) a).allocation? ip tag =
      if ip = Generator.clientIp ∧ tag ∈ tags then none else a.allocation? ip tag := by
  induction tags generalizing a with
  | nil => simp
  | cons t tags ih =>
    rw [List.foldl_cons, ih, CpuAllocator.allocation?_release]
    simp only [List.mem_cons]
    grind

/-- **The `finally` of a run** leaves the management cores alone, unless
stopping the servers raises while the generators hold cores. -/
theorem teardown_ends (hp : task.Accounts p) :
    let Q := fun q => (¬ Strands env p → task.OnlyManagement q) ∧ (Strands env p → GeneratorHeld q)
    (teardown env).Ends (fun _ => Q) (fun _ => Q) p := by
  intro Q
  unfold teardown
  rw [ends_bind]
  refine (stopAllServers_ends hp).conseq (fun _ q hq => ?_) fun _ q hq => ?_
  · obtain ⟨⟨haccounts, hnone, hgenerators⟩, hstopped⟩ := hq
    refine ⟨fun _ => ⟨fun slot hslot => ?_, haccounts.made⟩, fun hstrands => ?_⟩
    · have hheld := hslot.2
      dsimp only at hheld
      rw [allocation?_releaseGenerators] at hheld
      split at hheld
      · exact absurd rfl hheld
      · next hgenerator =>
        cases haccounts.owned slot ⟨hslot.1, hheld⟩ with
        | management hmanagement hcpus => exact ⟨hmanagement, hcpus⟩
        | generator hip hmem => exact absurd ⟨hip, hmem⟩ hgenerator
        | server s hs _ hown => exact absurd hown (by simp [hnone s hs])
    · obtain ⟨s, hs, herror⟩ := hstrands.2
      exact absurd (hstopped s hs) herror
  · obtain ⟨⟨haccounts, hnone, hgenerators⟩, s, hs, herror⟩ := hq
    refine ⟨fun hstrands => haccounts.onlyManagement hnone ?_, fun hstrands => ?_⟩
    · have hempty : q.generators = [] := by
        rw [hgenerators]
        by_contra hne
        exact hstrands ⟨hne, s, hs, herror⟩
      simp [hempty]
    · obtain ⟨tag, htag⟩ := List.exists_mem_of_ne_nil _ hstrands.1
      obtain ⟨hholds, hpurpose⟩ := haccounts.generators tag (hgenerators ▸ htag)
      exact ⟨tag, hpurpose, hholds⟩

end BenchTask

namespace TaskRunner

variable {env : Surroundings} {task : BenchTask} {p q : Process}

/-! ## Management cores -/

/-- No allocation has been made for the task. -/
structure Fresh (p : Process) : Prop where
  made       : p.made = []
  servers    : p.servers = []
  generators : p.generators = []
  cpulist    : p.management.cpulist = []

theorem Fresh.quiet (hq : Quiet p q) (hp : Fresh p) : Fresh q :=
  ⟨hq.made.trans hp.made, hq.servers.trans hp.servers, hq.generators.trans hp.generators,
    hq.management ▸ hp.cpulist⟩

theorem Fresh.accounts (hp : Fresh p) : task.Accounts p where
  owned slot hslot := absurd hslot.1 (by simp [hp.made])
  made := by simp [hp.made]
  generators := by simp [hp.generators]
  servers := by simp [hp.servers]

/-- The management cores are held, and nobody is to release them. -/
def MaskHeld (task : BenchTask) (p : Process) : Prop :=
  p.management.cpulist = [] ∧ ∃ slot, task.managementSlot = some slot ∧ p.Holds slot

/-- From `p` on, reading the mask raises when the management cores have been
reserved. -/
def RaisesReserved (env : Surroundings) (task : BenchTask) (p : Process) : Prop :=
  ∃ ip, managementHost task = some ip ∧ (ManagementCores.reserve env task.taskId ip).Ends
    (fun _ q => env.raises q.clock ≠ none) (fun _ _ => False) p

/-- The reservation is the first allocation made for the task. -/
theorem reserve_ends {ip : String} (hp : Fresh p) :
    (ManagementCores.reserve env task.taskId ip).Ends
      (fun cpus q => cpus ≠ [] ∧ q.made = [(ip, ManagementCores.tag task.taskId)] ∧
        q.Holds (ip, ManagementCores.tag task.taskId) ∧ q.servers = [] ∧ q.generators = [] ∧
        q.management.cpulist = [])
      (fun _ => Fresh) p := by
  unfold ManagementCores.reserve
  have hensure : Keeps Fresh (env.ensureHostCpuAllocation ip) :=
    Quiet.keeps (ensureHostCpuAllocation_quiet · ip) fun _ _ => Fresh.quiet
  refine (hensure.ends hp fun _ _ h => h).bind fun _ q hq => ?_
  rw [ends_bind, ends_get]
  refine ends_allocateFor (fun cpus allocator hallocate => ?_) fun _ => hq
  refine ⟨fun hnil => ?_, by simp [hq.made],
    (Process.holds_allocated hallocate rfl rfl _).mpr (.inl rfl), hq.servers, hq.generators, hq.cpulist⟩
  have := (CpuAllocator.allocation?_allocate hallocate).2.1
  rw [hnil] at this
  simp [ManagementCores.count] at this

/-- Pinning the runner leaves the reserved cores with an owner, or released. -/
theorem pin_ends {ip : String} {cpus : List ℕ} (hcpus : cpus ≠ [])
    (hmade : p.made = [(ip, ManagementCores.tag task.taskId)])
    (hslot : task.managementSlot = some (ip, ManagementCores.tag task.taskId))
    (hservers : p.servers = []) (hgenerators : p.generators = []) :
    (ManagementCores.pin env task.taskId ip cpus).Ends
      (fun _ q => task.Accounts q ∧ q.servers = [] ∧ q.generators = []) (fun _ _ => False) p := by
  unfold ManagementCores.pin
  rw [ends_bind, ends_get]
  split
  · refine ⟨⟨fun slot hholds => ?_, ?_, by simp [hgenerators], by simp [hservers]⟩, hservers, hgenerators⟩
    · obtain ⟨hmem, hheld⟩ := hholds
      dsimp only at hmem hheld
      rw [hmade, List.mem_singleton] at hmem
      rw [CpuAllocator.allocation?_release, if_pos ⟨by rw [hmem], by rw [hmem]⟩] at hheld
      exact absurd rfl hheld
    · simp [hmade, ManagementCores.tag]
  · refine ⟨⟨fun slot hholds => ?_, ?_, by simp [hgenerators], by simp [hservers]⟩, hservers, hgenerators⟩
    · have hmem := hholds.1
      dsimp only at hmem
      rw [hmade, List.mem_singleton] at hmem
      exact .management (hmem ▸ hslot) hcpus
    · simp [hmade, ManagementCores.tag]

/-- Acquiring management cores raises exactly when reading the mask does, and
leaves them held then. -/
theorem acquireManagement_ends (hp : Fresh p) : (acquireManagement env task).Ends
    (fun _ q => (task.Accounts q ∧ q.servers = [] ∧ q.generators = []) ∧
      ¬ RaisesReserved env task p)
    (fun _ q => MaskHeld task q ∧ RaisesReserved env task p) p := by
  unfold acquireManagement RaisesReserved
  cases hhost : managementHost task with
  | none => exact ⟨⟨hp.accounts, hp.servers, hp.generators⟩, by simp⟩
  | some ip =>
    have hreserve := @reserve_ends env task p ip hp
    have hslot : task.managementSlot = some (ip, ManagementCores.tag task.taskId) := by
      simp [BenchTask.managementSlot, hhost]
    unfold ManagementCores.acquire ManagementCores.tryReserve
    rw [ends_bind, ends_handle, ends_bind]
    simp only [Option.some.injEq, exists_eq_left']
    rcases hres : ManagementCores.reserve env task.taskId ip p with ⟨e | cpus, q⟩
    · rw [ends_error hres] at hreserve ⊢
      exact ⟨⟨hreserve.accounts, hreserve.servers, hreserve.generators⟩, by simp [ends_error hres]⟩
    · rw [ends_ok hres] at hreserve ⊢
      simp only [ends_ok hres]
      obtain ⟨hcpus, hmade, hholds, hservers, hgenerators, hcpulist⟩ := hreserve
      rw [ends_pure, ends_bind]
      -- the step is the one that reads the mask
      cases hraises : env.raises q.clock with
      | some e =>
        have hstep : env.step q = (.error e, { q with clock := q.clock + 1 }) := by
          simp [Surroundings.step, hraises]
        rw [ends_error hstep]
        exact ⟨⟨hcpulist, _, hslot, hholds⟩, Option.some_ne_none e⟩
      | none =>
        have hstep : env.step q = (.ok (), { q with clock := q.clock + 1 }) := by
          simp [Surroundings.step, hraises]
        rw [ends_ok hstep]
        have hpin : (ManagementCores.pin env task.taskId ip cpus).Ends
            (fun _ r => task.Accounts r ∧ r.servers = [] ∧ r.generators = []) (fun _ _ => False)
            { q with clock := q.clock + 1 } :=
          pin_ends hcpus hmade hslot hservers hgenerators
        refine hpin.conseq (fun _ _ h => ?_) fun _ _ h => ?_
        · exact ⟨h, fun hne => hne rfl⟩
        · exact h.elim

/-! ## The whole execution -/

/-- The run reaches its `finally` with cores held by generators, and stopping
the servers raises there. -/
def StrandsAfter (env : Surroundings) (task : BenchTask) (p : Process) : Prop :=
  (do acquireManagement env task; env.step : Job Unit).Ends
    (fun _ q => BenchTask.Strands env (task.measure env q).2) (fun _ _ => False) p

/-- What the execution that starts in `p` leaves before the management cores
are released. -/
inductive Left (env : Surroundings) (task : BenchTask) (p q : Process) : Prop where
  | clean : ¬ RaisesReserved env task p → ¬ StrandsAfter env task p → task.OnlyManagement q →
      Left env task p q
  | stranded : StrandsAfter env task p → BenchTask.GeneratorHeld q → Left env task p q
  | unread : RaisesReserved env task p → MaskHeld task q → Left env task p q

theorem managementSlot_purpose {slot : String × AllocationTag}
    (h : task.managementSlot = some slot) : slot.2.purpose = "monitoring" := by
  obtain ⟨ip, -, rfl⟩ := Option.map_eq_some_iff.mp h
  rfl

theorem Left.quiet {r : Process} (hq : Quiet q r) (h : Left env task p q) : Left env task p r := by
  cases h with
  | clean hread hstrands honly => exact .clean hread hstrands (honly.quiet hq)
  | stranded hstrands hheld =>
    obtain ⟨tag, hpurpose, hholds⟩ := hheld
    exact .stranded hstrands ⟨tag, hpurpose, hq.still (by simp [hpurpose]) (by simp [hpurpose]) hholds⟩
  | unread hread hheld =>
    obtain ⟨hcpulist, slot, hslot, hholds⟩ := hheld
    have hpurpose := managementSlot_purpose hslot
    exact .unread hread ⟨hq.management ▸ hcpulist, slot, hslot,
      hq.still (by simp [hpurpose]) (by simp [hpurpose]) hholds⟩

/-- What the `try` and the `except` of `__run_task` leave. -/
theorem attempt_ends (hp : Fresh p) :
    ((attempt env task).handle (cleanUp env task)).Ends (fun _ => Left env task p)
      (fun _ => Left env task p) p := by
  have hstep : Keeps (Left env task p) env.step := Quiet.keeps step_quiet fun _ _ => Left.quiet
  have hclean : ∀ e, Keeps (Left env task p) (cleanUp env task e) := fun e =>
    hstep.bind fun _ => (Keeps.handle (Quiet.keeps (killAllOn_quiet · _) fun _ _ => Left.quiet)
      fun _ => .pure ()).bind fun _ => .raise e
  -- whatever the attempt raises, the clean-up after it keeps what is left
  suffices h : (attempt env task).Ends (fun _ => Left env task p) (fun _ => Left env task p) p from
    ends_handle.mpr (h.conseq (fun _ _ hq => hq) fun e q hq => hclean e q hq)
  have hacquire := @acquireManagement_ends env task p hp
  unfold attempt
  rw [ends_bind]
  rcases hres : acquireManagement env task p with ⟨e | _, q⟩
  · rw [ends_error hres] at hacquire ⊢
    exact .unread hacquire.2 hacquire.1
  rw [ends_ok hres] at hacquire ⊢
  obtain ⟨⟨haccounts, hservers, hgenerators⟩, hread⟩ := hacquire
  unfold BenchTask.run
  rw [ends_bind, ends_bind]
  rcases hfirst : env.step q with ⟨e | _, r⟩
  · -- the run ends before it has begun
    have hquiet := @step_quiet env q q (.refl q)
    rw [ends_error hfirst] at hquiet ⊢
    refine .clean hread ?_ ((haccounts.onlyManagement (by simp [hservers]) ?_).quiet hquiet)
    · unfold StrandsAfter
      rw [ends_bind, ends_ok hres, ends_error hfirst]
      exact id
    · simp [hgenerators]
  · have hr := @BenchTask.step_keeps env task q haccounts
    rw [ends_ok hfirst] at hr ⊢
    have hstrands : StrandsAfter env task p ↔ BenchTask.Strands env (task.measure env r).2 := by
      unfold StrandsAfter
      rw [ends_bind, ends_ok hres, ends_ok hfirst]
    -- the `finally` runs in the state the `try` leaves, however that ended
    have hmeasured : task.Accounts (task.measure env r).2 :=
      ends_same.mp (BenchTask.measure_keeps r hr)
    have hteardown := @BenchTask.teardown_ends env task _ hmeasured
    have hrun : ((task.measure env).withFinally (BenchTask.teardown env)).Ends
        (fun _ => Left env task p) (fun _ => Left env task p) r := by
      rw [ends_withFinally, ends_same (P := fun t => (BenchTask.teardown env).Ends
        (fun _ => Left env task p) (fun _ => Left env task p) t)]
      refine hteardown.conseq (fun _ u hu => ?_) fun _ u hu => ?_ <;>
      · by_cases h : StrandsAfter env task p
        · exact .stranded h (hu.2 (hstrands.mp h))
        · exact .clean hread h (hu.1 (mt hstrands.mpr h))
    exact hrun.conseq (fun _ t ht => hstep t ht) fun _ _ ht => ht

/-- Releasing the management cores changes no slot but theirs, and theirs when
the runner knows them. -/
theorem releaseManagement_ends (env : Surroundings) (task : BenchTask) (q : Process) :
    (releaseManagement env task).Ends
      (fun _ r => ∀ slot, r.Holds slot ↔
        q.Holds slot ∧ ¬ (task.managementSlot = some slot ∧ q.management.cpulist ≠ []))
      (fun _ _ => False) q := by
  unfold releaseManagement
  cases hhost : managementHost task with
  | none => simp [BenchTask.managementSlot, hhost]
  | some ip =>
    intro slot
    have hslot : task.managementSlot = some slot ↔ slot = (ip, ManagementCores.tag task.taskId) := by
      simp [BenchTask.managementSlot, hhost, eq_comm]
    unfold Process.Holds
    dsimp only
    split
    · next hcpulist => simp [hcpulist]
    · next hcpulist =>
      rw [CpuAllocator.allocation?_release, hslot]
      by_cases h : slot = (ip, ManagementCores.tag task.taskId)
      · simp [h, hcpulist]
      · have hne : ¬ (slot.1 = ip ∧ slot.2 = ManagementCores.tag task.taskId) :=
          fun heq => h (Prod.ext heq.1 heq.2)
        simp [h, hne]

/-- What is left is released with the management cores, unless it is the
generators' or the mask was not read. -/
theorem Left.nothingLeft_iff {r : Process} (h : Left env task p q)
    (hr : ∀ slot, r.Holds slot ↔
      q.Holds slot ∧ ¬ (task.managementSlot = some slot ∧ q.management.cpulist ≠ [])) :
    r.Released ↔ ¬ RaisesReserved env task p ∧ ¬ StrandsAfter env task p := by
  cases h with
  | clean hread hstrands honly =>
    refine iff_of_true (fun slot hslot => ?_) ⟨hread, hstrands⟩
    obtain ⟨hheld, hkept⟩ := (hr slot).mp hslot
    exact hkept (honly.held slot hheld)
  | stranded hstrands hheld =>
    refine iff_of_false (fun hreleased => ?_) fun h => h.2 hstrands
    obtain ⟨tag, hpurpose, hholds⟩ := hheld
    refine hreleased _ ((hr _).mpr ⟨hholds, fun hslot => ?_⟩)
    have := managementSlot_purpose hslot.1
    simp [hpurpose] at this
  | unread hread hheld =>
    refine iff_of_false (fun hreleased => ?_) fun h => h.1 hread
    obtain ⟨hcpulist, slot, hslot, hholds⟩ := hheld
    exact hreleased slot ((hr slot).mpr ⟨hholds, fun h => h.2 hcpulist⟩)

/-! ## Leaks -/

/-- Reading the runner's mask raises with the management cores reserved. -/
def MaskUnread (env : Surroundings) (task : BenchTask) (p : Process) : Prop :=
  env.step.Ends (fun _ q => RaisesReserved env task q) (fun _ _ => False) p

/-- The `finally` of the task's run begins with cores held by its generators,
and stopping one of the servers raises there. -/
def Stranded (env : Surroundings) (task : BenchTask) (p : Process) : Prop :=
  env.step.Ends (fun _ q => StrandsAfter env task q) (fun _ _ => False) p

/-- **What an execution releases**: with whatever step raises, no allocation
made for the task is held once its clean-ups have ended, if and only if reading
the mask does not raise with the management cores reserved and no server fails
to stop while the generators hold cores. -/
theorem released_iff (env : Surroundings) (task : BenchTask) (clock : ℕ) (allocator : CpuAllocator)
    (mask : List ℕ) (entries : List Entry) :
    let p := Process.fresh clock allocator mask entries
    (runBench env task p).2.Released ↔ ¬ MaskUnread env task p ∧ ¬ Stranded env task p := by
  intro p
  have hp : Fresh p := ⟨rfl, rfl, rfl, rfl⟩
  have hfresh := @step_quiet env p p (.refl p)
  suffices h : (runBench env task).Ends
      (fun _ r => r.Released ↔ ¬ MaskUnread env task p ∧ ¬ Stranded env task p)
      (fun _ r => r.Released ↔ ¬ MaskUnread env task p ∧ ¬ Stranded env task p) p from ends_same.mp h
  unfold runBench MaskUnread Stranded
  rw [ends_bind]
  rcases hfirst : env.step p with ⟨e | _, q⟩
  · rw [ends_error hfirst] at hfresh
    simp only [ends_error hfirst]
    refine iff_of_true (fun slot hslot => ?_) ⟨id, id⟩
    rw [Process.Holds, (hp.quiet hfresh).made] at hslot
    exact absurd hslot.1 (List.not_mem_nil)
  · rw [ends_ok hfirst] at hfresh
    simp only [ends_ok hfirst]
    rw [ends_withFinally]
    have hend : ∀ r, Left env task q r → (releaseManagement env task).Ends
        (fun _ u => u.Released ↔ ¬ RaisesReserved env task q ∧ ¬ StrandsAfter env task q)
        (fun _ u => u.Released ↔ ¬ RaisesReserved env task q ∧ ¬ StrandsAfter env task q) r :=
      fun r hr => (releaseManagement_ends env task r).conseq (fun _ _ hu => hr.nothingLeft_iff hu)
        fun _ _ h => h.elim
    exact (attempt_ends (hp.quiet hfresh)).conseq (fun _ r hr => hend r hr) fun _ r hr => hend r hr

end TaskRunner

/-! ## A server that crashes -/

instance (p : Process) (slot : String × AllocationTag) : Decidable (p.Holds slot) :=
  inferInstanceAs (Decidable (_ ∧ _))

namespace SmallDeployment

/-- One repetition against a local server, with one generator thread. -/
def perf : PerfTask where
  taskId               := "t1"
  servers              := ["127.0.0.1"]
  primary              := ⟨"127.0.0.1", 6379, 1, []⟩
  replicas             := []
  benchmarkCpuOverride := []
  benchThreads         := 1
  singleCache          := false
  repetitions          := 1
  maxReps              := 0

/-- A host of eight CPUs, where servers are gone by the time they are stopped. -/
def crashing : Surroundings where
  raises _       := none
  stops _ _ _    := .crashed
  killRaises _ _ := none
  pinFails _     := false
  precise _      := false
  topology _     := ⟨[0, 1, 2, 3, 4, 5, 6, 7], [(0, [0, 1, 2, 3, 4, 5, 6, 7])], [], 0, 0⟩

end SmallDeployment

namespace TaskRunner

open SmallDeployment in
/-- The server of a task crashes during its load: the generator's cores stay
allocated. -/
theorem crash_keeps_generator :
    ¬ ∀ (env : Surroundings) (task : BenchTask) (clock : ℕ) (allocator : CpuAllocator)
      (mask : List ℕ) (entries : List Entry),
      (runBench env task (.fresh clock allocator mask entries)).2.Released := by
  intro h
  have hheld : (runBench crashing perf.bench (.fresh 0 .empty [] [])).2.Holds
      ("127.0.0.1", ⟨"t1", "benchmark"⟩) := by decide +kernel
  exact h crashing perf.bench 0 .empty [] [] _ hheld

end TaskRunner

end Conductress
