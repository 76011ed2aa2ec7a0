import Mathlib.Data.List.Sort
import Conductress.Base.Json
import Conductress.Lib.Table
import Conductress.Lib.Except

/-!
# CPU allocation

`CpuAllocator`: which cores of which host are held under which tag. A
dictionary of CPU lists is kept in its order of insertion, and a set of CPUs as
its sorted list.
-/

namespace Conductress

open Lib

/-- `AllocationTag`. -/
structure AllocationTag where
  taskId  : String
  purpose : String
  deriving DecidableEq

namespace AllocationTag

def text (tag : AllocationTag) : String := tag.taskId ++ ":" ++ tag.purpose

end AllocationTag

structure Allocation where
  tag  : AllocationTag
  cpus : List ℕ
  deriving DecidableEq

/-- CPUs by NUMA node or by cache. -/
abbrev CpuGroups := List (ℤ × List ℕ)

/-- What the allocator knows of a host. -/
structure HostCpus where
  ip          : String
  allCpus     : List ℕ
  numaNodes   : CpuGroups
  l3Caches    : CpuGroups
  netNuma     : Option ℤ
  allocations : Table Allocation.tag

structure CpuAllocator where
  hosts : Table HostCpus.ip

/-- The keyword arguments of `allocate`. -/
structure Placement where
  requireNuma          : Option ℤ := none
  avoidTags            : List AllocationTag := []
  preferDifferentCache : Bool := false
  minimizeCacheGroups  : Bool := false
  fromEnd              : Bool := false

namespace HostCpus

/-- `sorted(set(cpus))`. -/
def sortedSet (cpus : List ℕ) : List ℕ := (cpus.insertionSort (· ≤ ·)).dedup

/-- `_get_available_cpus`. -/
def availableCpus (h : HostCpus) : List ℕ :=
  (sortedSet h.allCpus).filter fun cpu => cpu ∉ h.allocations.rows.flatMap Allocation.cpus

/-- The CPUs held by tags to avoid. -/
def avoidCpus (h : HostCpus) (p : Placement) : List ℕ :=
  if p.preferDifferentCache then
    p.avoidTags.flatMap fun tag => ((h.allocations.find? tag).map Allocation.cpus).getD []
  else []

/-- `groups[id]`. -/
def group? (groups : CpuGroups) (id : ℤ) : Option (List ℕ) :=
  (groups.find? fun g => g.1 = id).map Prod.snd

/-! ### Few caches -/

/-- A cache with the free CPUs of it. -/
structure CacheCandidate where
  overlap : ℕ
  id      : ℤ
  free    : List ℕ

/-- The order of the tuples `(n, id)`; the ids of caches are distinct. -/
def RankLe (a b : ℕ × ℤ) : Prop := a.1 < b.1 ∨ (a.1 = b.1 ∧ a.2 ≤ b.2)

instance (a b : ℕ × ℤ) : Decidable (RankLe a b) := inferInstanceAs (Decidable (_ ∨ _))

/-- What is free of each cache, CPUs to avoid left out. -/
def cacheCandidates (h : HostCpus) (available avoid : List ℕ) : List CacheCandidate :=
  h.l3Caches.map fun g => ⟨(sortedSet g.2).countP (· ∈ avoid), g.1,
    available.filter fun cpu => cpu ∈ g.2 ∧ cpu ∉ avoid⟩

/-- The loop over the caches, largest first. -/
def fillFrom : List (List ℕ) → ℕ → List ℕ
  | [], _ => []
  | free :: rest, needed =>
    if needed = 0 then [] else free.take needed ++ fillFrom rest (needed - (free.take needed).length)

/-- `_allocate_single_cache`: one cache when one is large enough, or else as
few as it takes. -/
def allocateSingleCache (h : HostCpus) (available avoid : List ℕ) (count : ℕ) :
    Option (List ℕ) :=
  let candidates := h.cacheCandidates available avoid
  let single := (candidates.filter fun c => count ≤ c.free.length).insertionSort fun a b =>
    RankLe (a.overlap, a.id) (b.overlap, b.id)
  match single.head? with
  | some c => some (c.free.take count)
  | none =>
    let groups := (candidates.filter fun c => !c.free.isEmpty).insertionSort fun a b =>
      RankLe (b.free.length, b.id) (a.free.length, a.id)
    let allocated := fillFrom (groups.map CacheCandidate.free) count
    if count ≤ allocated.length then some (allocated.take count) else none

/-! ### Away from other caches -/

/-- None of the group's CPUs is to be avoided. -/
def isApart (avoid : List ℕ) (g : ℤ × List ℕ) : Bool := !g.2.any (· ∈ avoid)

/-- The loop over the caches by id, until there are enough CPUs. -/
def gatherFrom (available : List ℕ) (count : ℕ) : List ℕ → CpuGroups → Option (List ℕ)
  | _, [] => none
  | acc, g :: rest =>
    let acc := acc ++ available.filter (· ∈ g.2)
    if count ≤ acc.length then some (acc.take count) else gatherFrom available count acc rest

/-- `_allocate_cache_aware`: another NUMA node, or else other caches. -/
def allocateCacheAware (h : HostCpus) (available avoid : List ℕ) (count : ℕ)
    (requireNuma : Option ℤ) : Option (List ℕ) :=
  let otherNode := if requireNuma.isNone then
      (h.numaNodes.filter (isApart avoid)).findSome? fun g =>
        let free := available.filter (· ∈ g.2)
        if count ≤ free.length then some (free.take count) else none
    else none
  otherNode.or (gatherFrom available count []
    ((h.l3Caches.insertionSort fun a b => a.1 ≤ b.1).filter (isApart avoid)))

/-! ### Any CPUs -/

/-- The last resort: the first free CPUs, or the last ones. -/
def allocateSimple (h : HostCpus) (available : List ℕ) (tag : AllocationTag) (count : ℕ)
    (p : Placement) : Except PyError (List ℕ) :=
  if available.length < count then
    .error (.runtimeError ("Insufficient CPUs on " ++ h.ip ++
      (match p.requireNuma with
      | some node => " on NUMA node " ++ toString node
      | none => "") ++
      ": need " ++ toString count ++ ", available " ++ toString available.length))
  else if tag.purpose = "irq" ∨ p.fromEnd then .ok (available.reverse.take count)
  else .ok (available.take count)

/-- The free CPUs of the required node. -/
def eligibleCpus (h : HostCpus) (p : Placement) : Except PyError (List ℕ) :=
  match p.requireNuma with
  | none => .ok h.availableCpus
  | some node =>
    match group? h.numaNodes node with
    | some cpus => .ok (h.availableCpus.filter (· ∈ cpus))
    | none => .error (.valueError ("NUMA node " ++ toString node ++ " not found on " ++ h.ip))

/-- The CPUs a new tag gets. -/
def choose (h : HostCpus) (tag : AllocationTag) (count : ℕ) (p : Placement) :
    Except PyError (List ℕ) := do
  let available ← h.eligibleCpus p
  let avoid := h.avoidCpus p
  let few := if p.minimizeCacheGroups ∧ h.l3Caches ≠ [] then
      h.allocateSingleCache available avoid count
    else none
  let apart := if p.preferDifferentCache ∧ avoid ≠ [] then
      h.allocateCacheAware available avoid count p.requireNuma
    else none
  match few.or apart with
  | some cpus => .ok cpus
  | none => h.allocateSimple available tag count p

/-! ### As many as asked for -/

variable {h : HostCpus} {available avoid cpus : List ℕ} {count : ℕ} {p : Placement}

theorem gatherFrom_length {acc : List ℕ} {groups : CpuGroups}
    (hgather : gatherFrom available count acc groups = some cpus) : cpus.length = count := by
  induction groups generalizing acc with
  | nil => cases hgather
  | cons g groups ih =>
    unfold gatherFrom at hgather
    dsimp only at hgather
    split at hgather
    · next henough =>
      cases hgather
      exact List.length_take_of_le henough
    · exact ih hgather

theorem allocateSingleCache_length
    (hsingle : h.allocateSingleCache available avoid count = some cpus) : cpus.length = count := by
  unfold allocateSingleCache at hsingle
  dsimp only at hsingle
  split at hsingle
  · next c hmin =>
    cases hsingle
    have hc : count ≤ c.free.length := by
      have hmem := (List.mem_insertionSort _).mp (List.mem_of_head? hmin)
      simpa using (List.mem_filter.mp hmem).2
    exact List.length_take_of_le hc
  · split at hsingle
    · next henough =>
      cases hsingle
      exact List.length_take_of_le henough
    · cases hsingle

theorem allocateCacheAware_length {requireNuma : Option ℤ}
    (haware : h.allocateCacheAware available avoid count requireNuma = some cpus) :
    cpus.length = count := by
  unfold allocateCacheAware at haware
  rcases Option.or_eq_some_iff.mp haware with hnode | ⟨-, hcaches⟩
  · split at hnode
    · obtain ⟨g, -, hg⟩ := List.exists_of_findSome?_eq_some hnode
      dsimp only at hg
      split at hg
      · next henough =>
        cases hg
        exact List.length_take_of_le henough
      · cases hg
    · cases hnode
  · exact gatherFrom_length hcaches

theorem allocateSimple_length {tag : AllocationTag}
    (hsimple : h.allocateSimple available tag count p = .ok cpus) : cpus.length = count := by
  unfold allocateSimple at hsimple
  split at hsimple
  · cases hsimple
  · next henough =>
    rw [not_lt] at henough
    split at hsimple <;> cases hsimple
    · exact List.length_take_of_le (by rwa [List.length_reverse])
    · exact List.length_take_of_le henough

/-- A tag gets as many CPUs as it asked for. -/
theorem choose_length {tag : AllocationTag} (hchoose : h.choose tag count p = .ok cpus) :
    cpus.length = count := by
  obtain ⟨available, -, hchoose⟩ := except_bind_ok.mp hchoose
  dsimp only at hchoose
  split at hchoose
  · next hcaches =>
    cases hchoose
    rcases Option.or_eq_some_iff.mp hcaches with hfew | ⟨-, hapart⟩
    · split at hfew
      · exact allocateSingleCache_length hfew
      · cases hfew
    · split at hapart
      · exact allocateCacheAware_length hapart
      · cases hapart
  · exact allocateSimple_length hchoose

end HostCpus

namespace CpuAllocator

/-- A fresh allocator. -/
def empty : CpuAllocator := ⟨.empty⟩

/-- `is_host_registered`. -/
def isHostRegistered (a : CpuAllocator) (ip : String) : Bool := (a.hosts.find? ip).isSome

/-- `get_net_interface_numa`. -/
def netNuma (a : CpuAllocator) (ip : String) : Option ℤ := (a.hosts.find? ip).bind HostCpus.netNuma

/-- `register_host`. -/
def registerHost (a : CpuAllocator) (ip : String) (allCpus : List ℕ) (numaNodes l3Caches : CpuGroups)
    (netNuma : Option ℤ) : CpuAllocator :=
  let sorted := allCpus.insertionSort (· ≤ ·)
  ⟨a.hosts.put
    { ip
      allCpus     := sorted
      numaNodes   := if numaNodes = [] then [(0, sorted)] else numaNodes
      l3Caches
      netNuma     := netNuma.or (a.netNuma ip)
      allocations := .empty }⟩

/-- `get_all_allocations`. -/
def allAllocations (a : CpuAllocator) (ip : String) : List Allocation :=
  ((a.hosts.find? ip).map fun h => h.allocations.rows).getD []

/-- `get_allocation`. -/
def allocation? (a : CpuAllocator) (ip : String) (tag : AllocationTag) : Option (List ℕ) :=
  (a.hosts.find? ip).bind fun h => (h.allocations.find? tag).map Allocation.cpus

/-- `get_available_count`. -/
def availableCount (a : CpuAllocator) (ip : String) (preferNuma : Option ℤ) : ℕ :=
  match a.hosts.find? ip with
  | none => 0
  | some h =>
    match preferNuma.bind (HostCpus.group? h.numaNodes) with
    | some cpus => (h.availableCpus.filter (· ∈ cpus)).length
    | none => h.availableCpus.length

/-- `get_numa_nodes`. -/
def numaNodes (a : CpuAllocator) (ip : String) : List ℤ :=
  match a.hosts.find? ip with
  | none => [0]
  | some h => (h.numaNodes.map Prod.fst).insertionSort (· ≤ ·)

/-- `allocate`. -/
def allocate (a : CpuAllocator) (ip : String) (tag : AllocationTag) (count : ℕ) (p : Placement) :
    Except PyError (List ℕ × CpuAllocator) :=
  match a.hosts.find? ip with
  | none => .error (.valueError ("Host " ++ ip ++ " not registered"))
  | some h =>
    if (h.allocations.find? tag).isSome then
      .error (.valueError ("Allocation " ++ tag.text ++ " already exists on " ++ ip))
    else do
      let cpus ← h.choose tag count p
      .ok (cpus, ⟨a.hosts.put { h with allocations := h.allocations.put ⟨tag, cpus⟩ }⟩)

/-- `release`. -/
def release (a : CpuAllocator) (ip : String) (tag : AllocationTag) : CpuAllocator :=
  match a.hosts.find? ip with
  | none => a
  | some h => ⟨a.hosts.put { h with allocations := h.allocations.erase tag }⟩

/-- The allocations of the servers of a host: what `kill_all_valkey_instances_on_host`
releases. -/
def releaseServers (a : CpuAllocator) (ip : String) : CpuAllocator :=
  (a.allAllocations ip).foldl
    (fun a held => if held.tag.purpose = "server" then a.release ip held.tag else a) a

/-! ## What the operations change -/

variable {a a' : CpuAllocator} {ip : String} {tag : AllocationTag} {cpus : List ℕ}

theorem ip_of_find {h : HostCpus} (hfind : a.hosts.find? ip = some h) : h.ip = ip :=
  (Table.find?_eq_some_iff.mp hfind).2

/-- A host that is not registered holds nothing. -/
theorem allocation?_of_unregistered (h : a.isHostRegistered ip = false) (tag : AllocationTag) :
    a.allocation? ip tag = none := by
  simp only [isHostRegistered, Option.isSome_eq_false_iff, Option.isNone_iff_eq_none] at h
  simp [allocation?, h]

/-- A successful allocation adds one entry, of as many CPUs as were asked for,
under a new tag. -/
theorem allocation?_allocate {count : ℕ} {p : Placement}
    (h : a.allocate ip tag count p = .ok (cpus, a')) :
    a.allocation? ip tag = none ∧ cpus.length = count ∧ ∀ ip' tag',
      a'.allocation? ip' tag' = if ip' = ip ∧ tag' = tag then some cpus else a.allocation? ip' tag' := by
  unfold allocate at h
  cases hfind : a.hosts.find? ip with
  | none => simp [hfind] at h
  | some host =>
    rw [hfind] at h
    dsimp only at h
    split at h
    · cases h
    · next hnew =>
      obtain ⟨chosen, hchosen, hok⟩ := except_bind_ok.mp h
      cases hok
      have hip := ip_of_find hfind
      refine ⟨by simpa [allocation?, hfind] using hnew, HostCpus.choose_length hchosen,
        fun ip' tag' => ?_⟩
      unfold allocation?
      rw [Table.find?_put]
      dsimp only
      rw [hip]
      by_cases hip' : ip' = ip
      · subst hip'
        simp only [if_true, Option.bind_some, Table.find?_put, hfind, true_and]
        split <;> rfl
      · simp [hip']

/-- A release removes one entry. -/
theorem allocation?_release (a : CpuAllocator) (ip : String) (tag : AllocationTag) (ip' : String)
    (tag' : AllocationTag) :
    (a.release ip tag).allocation? ip' tag' =
      if ip' = ip ∧ tag' = tag then none else a.allocation? ip' tag' := by
  unfold release
  cases hfind : a.hosts.find? ip with
  | none =>
    by_cases hip' : ip' = ip
    · simp [allocation?, hip', hfind]
    · simp [hip']
  | some host =>
    have hip := ip_of_find hfind
    unfold allocation?
    dsimp only
    rw [Table.find?_put]
    dsimp only
    rw [hip]
    by_cases hip' : ip' = ip
    · subst hip'
      simp only [if_true, Option.bind_some, Table.find?_erase, hfind, true_and]
      split <;> rfl
    · simp [hip']

/-- Registering a new host allocates and releases nothing. -/
theorem allocation?_registerHost (hnew : a.isHostRegistered ip = false) (allCpus : List ℕ)
    (numaNodes l3Caches : CpuGroups) (netNuma : Option ℤ) (ip' : String) (tag' : AllocationTag) :
    (a.registerHost ip allCpus numaNodes l3Caches netNuma).allocation? ip' tag' =
      a.allocation? ip' tag' := by
  by_cases hip' : ip' = ip
  · subst hip'
    rw [allocation?_of_unregistered hnew]
    simp [allocation?, registerHost, Table.find?_put]
  · simp [allocation?, registerHost, Table.find?_put, hip']

/-- Releasing the servers of a host removes the entries of servers there. -/
theorem allocation?_releaseServers (a : CpuAllocator) (ip ip' : String) (tag' : AllocationTag) :
    (a.releaseServers ip).allocation? ip' tag' =
      if ip' = ip ∧ tag'.purpose = "server" then none else a.allocation? ip' tag' := by
  -- the loop over any list of entries removes those of servers in it
  have hloop : ∀ (entries : List Allocation) (a : CpuAllocator),
      (entries.foldl (fun a held => if held.tag.purpose = "server" then a.release ip held.tag else a)
        a).allocation? ip' tag' =
      if ip' = ip ∧ tag'.purpose = "server" ∧ tag' ∈ entries.map Allocation.tag then none
      else a.allocation? ip' tag' := by
    intro entries
    induction entries with
    | nil => simp
    | cons entry entries ih =>
      intro a
      rw [List.foldl_cons, ih]
      by_cases hserver : entry.tag.purpose = "server"
      · rw [if_pos hserver, allocation?_release]
        simp only [List.map_cons, List.mem_cons]
        grind
      · rw [if_neg hserver]
        simp only [List.map_cons, List.mem_cons]
        grind
  rw [releaseServers, hloop]
  by_cases hheld : tag' ∈ (a.allAllocations ip).map Allocation.tag
  · simp [hheld]
  · -- an entry that is not in the list is not held
    have hnone : ip' = ip → a.allocation? ip' tag' = none := by
      rintro rfl
      unfold allocation?
      cases hfind : a.hosts.find? ip' with
      | none => rfl
      | some host =>
        have habsent : host.allocations.find? tag' = none := by
          refine Table.find?_eq_none_iff.mpr fun held hmem hkey => hheld ?_
          rw [allAllocations, hfind]
          exact List.mem_map.mpr ⟨held, hmem, hkey⟩
        simp [habsent]
    grind

end CpuAllocator

end Conductress
