import Conductress.Lib.Raising
import Conductress.Bench.CpuAllocator

/-!
# Running a benchmark task

`TaskRunner.__run_task` and the task runners under it: the management cores, the
servers of a topology, the generators and the record of the result. Any step may
raise, a server may have crashed by the time it is stopped; a stretch of steps
that touches none of the state below is one step.
-/

namespace Conductress

open Lib

/-! ## The surroundings -/

/-- How `Server.stop` ends when there is a process to stop. -/
inductive StopOutcome where
  | stopped
  /-- `ps` finds no process. -/
  | crashed
  /-- `ps` finds another program. -/
  | foreign
  /-- The shutdown command raised. -/
  | shutdownRaised (e : PyError)
  /-- Removing the files it left raised. -/
  | cleanupRaised (e : PyError)
  deriving DecidableEq

namespace StopOutcome

def error? : StopOutcome → Option PyError
  | stopped => none
  | crashed => some (.runtimeError "valkey-server crashed during benchmark")
  | foreign => some (.runtimeError "not a valkey-server")
  | shutdownRaised e | cleanupRaised e => some e

/-- The server still has a pid afterwards. -/
def keepsPid : StopOutcome → Bool
  | foreign | shutdownRaised _ => true
  | stopped | crashed | cleanupRaised _ => false

end StopOutcome

/-- What `lscpu` and `sysfs` say of a host. -/
structure HostTopology where
  allCpus   : List ℕ
  numaNodes : CpuGroups
  l3Caches  : CpuGroups
  netNuma   : ℤ
  irqs      : ℕ

/-- What the runner does not decide, by the time of asking. -/
structure Surroundings where
  raises     : ℕ → Option PyError
  stops      : ℕ → String → ℕ → StopOutcome
  killRaises : ℕ → String → Option PyError
  pinFails   : ℕ → Bool
  precise    : ℕ → Bool
  topology   : String → HostTopology

/-! ## The runner's process -/

/-- A `Server` of a topology. -/
structure Server where
  ip      : String
  port    : ℕ
  cpus    : List ℕ
  tag     : Option AllocationTag
  running : Bool
  deriving DecidableEq

/-- `ManagementCores`, with the runner's mask and the one its launches get. -/
structure Management where
  cpulist      : List ℕ
  originalMask : Option (List ℕ)
  launchCpus   : List ℕ
  mask         : List ℕ

/-- An entry of the logs, and a report. -/
inductive Entry where
  | result
  | failure
  | notified (completed : Bool)
  | staged (completed : Bool)
  deriving DecidableEq

/-- The state of the runner's process. `made` are the allocations made for the
task, by host and tag; what has an order is newest first. -/
structure Process where
  clock      : ℕ
  allocator  : CpuAllocator
  made       : List (String × AllocationTag)
  servers    : List Server
  client     : Bool
  generators : List AllocationTag
  management : Management
  entries    : List Entry

/-- The process before it runs a task. -/
def Process.fresh (clock : ℕ) (allocator : CpuAllocator) (mask : List ℕ) (entries : List Entry) :
    Process :=
  ⟨clock, allocator, [], [], false, [], ⟨[], none, [], mask⟩, entries⟩

/-- A step of the runner. -/
abbrev Job (α : Type) := Raising PyError Process α

/-- Allocate for the task. -/
def allocateFor (ip : String) (tag : AllocationTag) (count : ℕ) (placement : Placement) :
    Job (List ℕ) := fun p =>
  match p.allocator.allocate ip tag count placement with
  | .ok (cpus, allocator) => (.ok cpus, { p with allocator, made := (ip, tag) :: p.made })
  | .error e => (.error e, p)

namespace Surroundings

variable (env : Surroundings)

/-- A step that may raise. -/
def step : Job Unit := fun p =>
  match env.raises p.clock with
  | some e => (.error e, { p with clock := p.clock + 1 })
  | none => (.ok (), { p with clock := p.clock + 1 })

/-! ## Hosts -/

/-- `is_local_host`. -/
def isLocalHost (ip : String) : Bool := ip ∈ ["127.0.0.1", "localhost", "::1"]

def irqTag : AllocationTag := ⟨"system", "irq"⟩

/-- `_register_host_cpus`. -/
def registerHostCpus (ip : String) : Job Unit := do
  if (← .get).allocator.isHostRegistered ip then pure ()
  else do
    env.step
    let topology := env.topology ip
    .modify fun p => { p with
      allocator := p.allocator.registerHost ip topology.allCpus topology.numaNodes topology.l3Caches
        (some (if isLocalHost ip then 0 else topology.netNuma)) }

/-- The allocation of `_pin_network_irqs`, which outlives the task. -/
def allocateIrqs (ip : String) : Job Unit := fun p =>
  match p.allocator.allocate ip irqTag (env.topology ip).irqs
    { requireNuma := p.allocator.netNuma ip
      avoidTags := ((p.allocator.allAllocations ip).map Allocation.tag).filter (·.purpose = "server")
      preferDifferentCache := true } with
  | .ok (_, allocator) => (.ok (), { p with allocator })
  | .error e => (.error e, p)

/-- `_pin_network_irqs`. -/
def pinNetworkIrqs (ip : String) : Job Unit := do
  if ((← .get).allocator.allocation? ip irqTag).isSome then pure ()
  else do
    env.step
    env.allocateIrqs ip
    env.step

/-- `ensure_host_cpu_allocation`. -/
def ensureHostCpuAllocation (ip : String) : Job Unit := do
  env.step
  env.registerHostCpus ip
  if isLocalHost ip then pure ()
  else do
    env.step
    env.pinNetworkIrqs ip

end Surroundings

/-- `kill_all_valkey_instances_on_host` on several hosts at once: a host where
`pkill` raises keeps its allocations. -/
def killAllOn (env : Surroundings) (hosts : List String) : Job Unit := fun p =>
  let killed := { p with
    clock := p.clock + 1
    allocator := hosts.foldl
      (fun a ip => if (env.killRaises p.clock ip).isSome then a else a.releaseServers ip) p.allocator }
  match hosts.findSome? (env.killRaises p.clock) with
  | some e => (.error e, killed)
  | none => (.ok (), killed)

/-! ## Servers -/

/-- One server of a topology. -/
structure Instance where
  ip          : String
  port        : ℕ
  ioThreads   : ℕ
  cpuOverride : List ℕ

namespace Server

/-- The tag of a server on a host. -/
def allocationTag (ip : String) (port : ℕ) : AllocationTag :=
  ⟨"server_" ++ ip ++ "_" ++ toString port, "server"⟩

/-- `get_num_cpus`. -/
def numCpus (ioThreads : ℕ) : ℕ := ioThreads + 2

/-- What `_release_server_cpus` gives back. -/
def held? (s : Server) : Option AllocationTag := if s.cpus = [] then none else s.tag

/-- The server once its CPUs are released. -/
def released (s : Server) : Server :=
  if s.held?.isSome then { s with cpus := [], tag := none } else s

/-- How stopping it ends. -/
def stopOutcome (env : Surroundings) (clock : ℕ) (s : Server) : StopOutcome :=
  if s.running then env.stops clock s.ip s.port else .stopped

/-- The server after `stop`. -/
def stopped (env : Surroundings) (clock : ℕ) (s : Server) : Server :=
  { s.released with running := s.running && (s.stopOutcome env clock).keepsPid }

/-- The release at the start of `stop`. -/
def release (s : Server) (a : CpuAllocator) : CpuAllocator :=
  match s.held? with
  | some tag => a.release s.ip tag
  | none => a

end Server

section Topology

variable (env : Surroundings)

/-- `stop_all_servers`: every stop begins, and frees its CPUs before it waits
for anything; the first exception of any is the exception of all. -/
def stopAllServers : Job Unit := fun p =>
  let stopped := { p with
    clock := p.clock + 1
    allocator := p.servers.foldl (fun a s => s.release a) p.allocator
    servers := p.servers.map (Server.stopped env p.clock) }
  match p.servers.findSome? fun s => (s.stopOutcome env p.clock).error? with
  | some e => (.error e, stopped)
  | none => (.ok (), stopped)

/-- Change the server that is being started. -/
def updateServer (f : Server → Server) : Job Unit :=
  .modify fun p => { p with servers := match p.servers with
    | s :: rest => f s :: rest
    | [] => [] }

/-- `_validate_sufficient_cpus`. -/
def validateSufficientCpus (i : Instance) : Job Unit := do
  let a := (← .get).allocator
  let available := a.availableCount i.ip (a.netNuma i.ip)
  if available < Server.numCpus i.ioThreads then
    .raise (.runtimeError ("Insufficient CPUs on " ++ i.ip ++ ": need " ++
      toString (Server.numCpus i.ioThreads) ++ ", available " ++ toString available))
  else pure ()

/-- `_allocate_server_cpus`. -/
def allocateServerCpus (i : Instance) : Job Unit := do
  validateSufficientCpus i
  let tag := Server.allocationTag i.ip i.port
  updateServer fun s => { s with tag := some tag }
  let cpus ← allocateFor i.ip tag (Server.numCpus i.ioThreads)
    { requireNuma := (← .get).allocator.netNuma i.ip }
  updateServer fun s => { s with cpus }

/-- The CPUs of a server: those of its override, or new ones. -/
def placeServer (i : Instance) : Job Unit :=
  if i.cpuOverride = [] then allocateServerCpus i
  else updateServer fun s => { s with cpus := i.cpuOverride }

/-- `_start_instance`. The stop of `__pre_start` finds nothing to stop. -/
def startInstance (i : Instance) : Job Unit := do
  env.step
  .modify fun p => { p with servers := ⟨i.ip, i.port, [], none, false⟩ :: p.servers }
  env.ensureHostCpuAllocation i.ip
  env.step
  placeServer i
  env.step
  updateServer fun s => { s with running := true }
  env.step

/-- `TopologyGroup.start`. -/
def startTopology (instances : List Instance) : Job Unit := do
  env.step
  .modify fun p => { p with servers := [] }
  instances.forM (startInstance env)
  env.step

end Topology

/-! ## The tasks -/

/-- A load generator, with the servers it keeps away from. -/
structure Generator where
  name                : String
  threads             : ℕ
  avoidTags           : List AllocationTag
  minimizeCacheGroups : Bool

namespace Generator

def tag (g : Generator) : AllocationTag := ⟨g.name, "benchmark"⟩

/-- `Server("127.0.0.1")`. -/
def clientIp : String := "127.0.0.1"

/-- `allocate_client_cpus`, the tag kept for the release. -/
def allocate (g : Generator) : Job Unit := do
  let _ ← allocateFor clientIp g.tag g.threads
    { requireNuma          := (← .get).allocator.netNuma clientIp
      avoidTags            := g.avoidTags
      preferDifferentCache := true
      minimizeCacheGroups  := g.minimizeCacheGroups }
  .modify fun p => { p with generators := g.tag :: p.generators }

end Generator

/-- What the runners of the benchmark tasks differ in. `servers` are the hosts
the task was handed, `instances` its topology on them, primary first. -/
structure BenchTask where
  taskId      : String
  servers     : List String
  instances   : List Instance
  generators  : List Generator
  repetitions : ℕ
  adaptive    : Bool

namespace BenchTask

variable (env : Surroundings) (task : BenchTask)

/-- `TopologyGroup.hosts`. -/
def hosts : List String := (task.instances.map Instance.ip).dedup

/-- The generators get their cores in the first repetition. -/
def placeGenerators : Job Unit := do
  if (← .get).client then pure ()
  else do
    .modify fun p => { p with client := true }
    env.ensureHostCpuAllocation Generator.clientIp
    task.generators.forM Generator.allocate

/-- `client.release_cpus` of every generator that has cores. -/
def releaseGenerators : Job Unit :=
  .modify fun p => { p with
    allocator := p.generators.foldl (fun a tag => a.release Generator.clientIp tag) p.allocator }

/-- The servers of the repetition before are stopped. -/
def betweenRepetitions (rep : ℕ) : Job Unit := do
  if rep = 0 then pure ()
  else do
    stopAllServers env
    env.step

/-- One repetition: fresh servers, replication, generators, load. -/
def repetition (rep : ℕ) : Job Unit := do
  betweenRepetitions env rep
  killAllOn env task.hosts
  env.step
  startTopology env task.instances
  env.step
  task.placeGenerators env
  env.step

/-- The loop over the repetitions, left once the result is precise enough. -/
def loop : ℕ → ℕ → Job Unit
  | 0, _ => pure ()
  | n + 1, rep => do
    task.repetition env rep
    if task.adaptive ∧ env.precise rep then pure () else loop n (rep + 1)

/-- `write_results`, up to the line it appends. -/
def writeResults : Job Unit := do
  env.step
  .modify fun p => { p with entries := .result :: p.entries }

/-- The `try` of `run`: the record, then the final status. -/
def measure : Job Unit := do
  loop env task task.repetitions 0
  if task.repetitions = 0 then
    .raise (.runtimeError "No server available for recording results")
  else do
    writeResults env
    env.step

/-- The `finally` of `run`. -/
def teardown : Job Unit := do
  stopAllServers env
  releaseGenerators

/-- `run`. -/
def run : Job Unit := do
  env.step
  (task.measure env).withFinally (teardown env)

end BenchTask

/-! ### The runners -/

/-- The `PerfTaskRunner` and the `CachecannonTaskRunner` of a task. -/
structure PerfTask where
  taskId               : String
  servers              : List String
  primary              : Instance
  replicas             : List Instance
  benchmarkCpuOverride : List ℕ
  benchThreads         : ℕ
  singleCache          : Bool
  repetitions          : ℕ
  maxReps              : ℕ

namespace PerfTask

/-- `_allocate_benchmark_cpus`. -/
def generators (t : PerfTask) : List Generator :=
  if t.benchmarkCpuOverride ≠ [] ∨ Surroundings.isLocalHost t.primary.ip = false then []
  else [⟨t.taskId, t.benchThreads, [Server.allocationTag t.primary.ip t.primary.port], t.singleCache⟩]

def bench (t : PerfTask) : BenchTask where
  taskId      := t.taskId
  servers     := t.servers
  instances   := t.primary :: t.replicas
  generators  := t.generators
  repetitions := if t.maxReps = 0 then t.repetitions else t.maxReps
  adaptive    := true

/-- The runner of a bounded insertion. -/
def boundedInsertion (t : PerfTask) : BenchTask :=
  { t.bench with repetitions := t.repetitions, adaptive := false }

end PerfTask

/-- The `ReplicaReadTaskRunner` of a task, all on one host. -/
structure ReplicaReadTask where
  taskId               : String
  host                 : String
  instances            : List Instance
  benchmarkCpuOverride : List ℕ
  threads              : ℕ
  writeThreads         : ℕ
  repetitions          : ℕ

namespace ReplicaReadTask

/-- `_allocate_client_cpus` for the reader and the writer. -/
def generators (t : ReplicaReadTask) : List Generator :=
  let servers := t.instances.map fun i => Server.allocationTag t.host i.port
  if t.benchmarkCpuOverride ≠ [] then []
  else [⟨t.taskId ++ "_reader", t.threads, servers, false⟩,
    ⟨t.taskId ++ "_writer", t.writeThreads, servers, false⟩]

def bench (t : ReplicaReadTask) : BenchTask where
  taskId      := t.taskId
  servers     := [t.host]
  instances   := t.instances
  generators  := t.generators
  repetitions := t.repetitions
  adaptive    := false

end ReplicaReadTask

/-! ## Management cores -/

namespace ManagementCores

variable (env : Surroundings) (taskId ip : String)

/-- `RUNNER_MANAGEMENT_CPUS`. -/
def count : ℕ := 1

def tag : AllocationTag := ⟨"runner_" ++ taskId, "monitoring"⟩

/-- `allocate_management_cpus`: away from the network interface's node. -/
def reserve : Job (List ℕ) := do
  env.ensureHostCpuAllocation ip
  let a := (← .get).allocator
  let others := (a.numaNodes ip).filter fun node => a.netNuma ip ≠ some node
  allocateFor ip (tag taskId) count { requireNuma := others.getLast?, fromEnd := true }

/-- Without cores the runner stays unpinned. -/
def tryReserve : Job (Option (List ℕ)) :=
  (do return some (← reserve env taskId ip)).handle fun _ => pure none

/-- Pin the runner to the reserved cores, or give them back. -/
def pin (cpus : List ℕ) : Job Unit := do
  if env.pinFails (← .get).clock then
    .modify fun p => { p with
      clock := p.clock + 1
      allocator := p.allocator.release ip (tag taskId) }
  else
    .modify fun p => { p with
      clock := p.clock + 1
      management := ⟨cpus, some p.management.mask, p.management.mask, cpus⟩ }

/-- `acquire`. Reading the mask is the one step of it that is not guarded. -/
def acquire : Job Unit := do
  match ← tryReserve env taskId ip with
  | none => pure ()
  | some cpus => do
    env.step
    pin env taskId ip cpus

/-- `release`. -/
def release : Job Unit := .modify fun p =>
  let mask := match p.management.originalMask with
    | some original => if env.pinFails p.clock then p.management.mask else original
    | none => p.management.mask
  { p with
    clock := p.clock + 1
    management := ⟨[], none, [], mask⟩
    allocator :=
      if p.management.cpulist = [] then p.allocator else p.allocator.release ip (tag taskId) }

end ManagementCores

/-! ## The task runner -/

namespace TaskRunner

variable (env : Surroundings) (task : BenchTask)

/-- The host whose management cores the runner takes. -/
def managementHost : Option String := task.servers.head?.filter Surroundings.isLocalHost

def acquireManagement : Job Unit :=
  match managementHost task with
  | some ip => ManagementCores.acquire env task.taskId ip
  | none => pure ()

def releaseManagement : Job Unit :=
  match managementHost task with
  | some ip => ManagementCores.release env task.taskId ip
  | none => pure ()

/-- The `except` of `__run_task`. -/
def cleanUp (e : PyError) : Job Unit := do
  env.step
  (killAllOn env task.servers).handle fun _ => pure ()
  .raise e

/-- The `try` of `__run_task`. -/
def attempt : Job Unit := do
  acquireManagement env task
  task.run env
  env.step

/-- `__run_task`. -/
def runBench : Job Unit := do
  env.step
  ((attempt env task).handle (cleanUp env task)).withFinally (releaseManagement env task)

end TaskRunner

end Conductress
