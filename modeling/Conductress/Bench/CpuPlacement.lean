import Mathlib.Algebra.Order.BigOperators.Group.List
import Mathlib.Algebra.Order.Group.Nat
import Conductress.Lib.Blocks
import Conductress.Bench.CpuAllocations

/-!
# Where an allocation is placed

* `allocate_packs` — with `minimize_cache_groups` the CPUs touch as few caches as
  any choice of as many free CPUs does, and where one cache is large enough it is
  one with the fewest CPUs to avoid, of those that are;
* `allocate_separates` — with `prefer_different_cache` they share no cache with
  the CPUs to avoid wherever there are enough CPUs that do not.

CPUs are avoided only where `prefer_different_cache` asks for it: without that
flag the tags to avoid are not looked at (`packs_beside_server`).
-/

namespace Conductress

open Lib

namespace HostCpus

variable {h : HostCpus} {available avoid cpus : List ℕ} {count : ℕ} {p : Placement}
  {tag : AllocationTag}

/-! ## Caches and the CPUs in them -/

/-- The CPUs some tags hold. -/
def tagCpus (h : HostCpus) (tags : List AllocationTag) : List ℕ :=
  tags.flatMap fun tag => ((h.allocations.find? tag).map Allocation.cpus).getD []

/-- How many of a cache's CPUs they are. -/
def heldIn (h : HostCpus) (tags : List AllocationTag) (cache : List ℕ) : ℕ :=
  (cache.toFinset.filter fun cpu => cpu ∈ h.tagCpus tags).card

/-- How many caches a set of CPUs touches. -/
def touched (h : HostCpus) (cpus : Finset ℕ) : ℕ := met (h.l3Caches.map Prod.snd) cpus

/-- Every CPU of the host is in one cache. -/
structure CachesPartition (h : HostCpus) : Prop where
  apart : h.CachesApart
  cover : ∀ cpu ∈ h.allCpus, ∃ g ∈ h.l3Caches, cpu ∈ g.2

/-- As many free CPUs of a cache as are asked for. -/
def Suffices (h : HostCpus) (node : Option ℤ) (count : ℕ) (cache : List ℕ) : Prop :=
  count ≤ ((h.freeCpus node).filter fun cpu => cpu ∈ cache).card

theorem mem_freeCpus {node : Option ℤ} {cpu : ℕ} (hfree : cpu ∈ h.freeCpus node) :
    cpu ∈ h.allCpus ∧ ∀ held ∈ h.allocations.rows, cpu ∉ held.cpus := by
  simp only [freeCpus, Finset.mem_filter, List.mem_toFinset] at hfree
  exact ⟨hfree.1, hfree.2.1⟩

/-- Nobody holds what is free. -/
theorem not_mem_tagCpus {node : Option ℤ} {cpu : ℕ} (hfree : cpu ∈ h.freeCpus node)
    (tags : List AllocationTag) : cpu ∉ h.tagCpus tags := by
  intro hheld
  obtain ⟨tag, -, hcpu⟩ := List.mem_flatMap.mp hheld
  cases hfind : h.allocations.find? tag with
  | none => simp [hfind] at hcpu
  | some held =>
    rw [hfind] at hcpu
    exact (mem_freeCpus hfree).2 held (Table.find?_eq_some_iff.mp hfind).1 hcpu

theorem avoidCpus_eq (hprefer : p.preferDifferentCache = true) :
    h.avoidCpus p = h.tagCpus p.avoidTags := by
  rw [avoidCpus, if_pos hprefer]
  rfl

theorem not_mem_avoidCpus {node : Option ℤ} {cpu : ℕ} (hfree : cpu ∈ h.freeCpus node) :
    cpu ∉ h.avoidCpus p := by
  by_cases hprefer : p.preferDifferentCache = true
  · rw [avoidCpus_eq hprefer]
    exact not_mem_tagCpus hfree _
  · rw [avoidCpus, if_neg hprefer]
    exact List.not_mem_nil

/-! ## Few caches -/

theorem fillFrom_zero (groups : List (List ℕ)) : fillFrom groups 0 = [] := by
  cases groups <;> simp [fillFrom]

/-- Groups after enough of them are not drawn from. -/
theorem fillFrom_take {groups : List (List ℕ)} {needed k : ℕ}
    (henough : needed ≤ ((groups.take k).map List.length).sum) :
    fillFrom groups needed = fillFrom (groups.take k) needed := by
  induction groups generalizing needed k with
  | nil => simp
  | cons free rest ih =>
    cases k with
    | zero =>
      obtain rfl : needed = 0 := by simpa using henough
      rw [fillFrom_zero, fillFrom_zero]
    | succ k =>
      rw [List.take_succ_cons, List.map_cons, List.sum_cons] at henough
      rw [List.take_succ_cons, fillFrom, fillFrom]
      split
      · rfl
      · rw [ih]
        rw [List.length_take]
        omega

theorem fillFrom_length {groups : List (List ℕ)} {needed : ℕ}
    (henough : needed ≤ (groups.map List.length).sum) :
    (fillFrom groups needed).length = needed := by
  induction groups generalizing needed with
  | nil =>
    obtain rfl : needed = 0 := by simpa using henough
    rfl
  | cons free rest ih =>
    rw [List.map_cons, List.sum_cons] at henough
    rw [fillFrom]
    split
    · next hzero => exact hzero.symm
    · rw [List.length_append, ih (by rw [List.length_take]; omega), List.length_take]
      omega

theorem rankLe_total (a b : ℕ × ℤ) : RankLe a b ∨ RankLe b a := by
  unfold RankLe
  omega

theorem rankLe_trans {a b c : ℕ × ℤ} (hab : RankLe a b) (hbc : RankLe b c) : RankLe a c := by
  unfold RankLe at *
  omega

/-- **How the caches are chosen**: the first one that suffices in the order of the
CPUs to avoid, or all of them, largest first, until there are enough CPUs. -/
theorem allocateSingleCache_cases
    (hsingle : h.allocateSingleCache available avoid count = some cpus) :
    (∃ c ∈ h.cacheCandidates available avoid, count ≤ c.free.length ∧ cpus = c.free.take count ∧
      ∀ other ∈ h.cacheCandidates available avoid, count ≤ other.free.length →
        c.overlap ≤ other.overlap) ∨
    (∀ c ∈ h.cacheCandidates available avoid, c.free.length < count) ∧
      ∃ groups : List CacheCandidate,
        groups.Perm ((h.cacheCandidates available avoid).filter fun c => !c.free.isEmpty) ∧
        groups.Pairwise (fun a b => b.free.length ≤ a.free.length) ∧
        cpus = (fillFrom (groups.map CacheCandidate.free) count).take count := by
  unfold allocateSingleCache at hsingle
  dsimp only at hsingle
  split at hsingle
  · next c hmin =>
    obtain ⟨rest, hsorted⟩ := List.head?_eq_some_iff.mp hmin
    have hmem : ∀ other, other ∈ c :: rest ↔
        other ∈ h.cacheCandidates available avoid ∧ count ≤ other.free.length := by
      intro other
      rw [← hsorted, List.mem_insertionSort, List.mem_filter, decide_eq_true_eq]
    obtain ⟨hin, henough⟩ := (hmem c).mp List.mem_cons_self
    refine .inl ⟨c, hin, henough, (Option.some.inj hsingle).symm, fun other hother hlarge => ?_⟩
    have : Std.Total fun a b : CacheCandidate => RankLe (a.overlap, a.id) (b.overlap, b.id) :=
      ⟨fun _ _ => rankLe_total _ _⟩
    have : IsTrans CacheCandidate fun a b => RankLe (a.overlap, a.id) (b.overlap, b.id) :=
      ⟨fun _ _ _ => rankLe_trans⟩
    have hpairwise := List.pairwise_insertionSort
      (fun a b : CacheCandidate => RankLe (a.overlap, a.id) (b.overlap, b.id))
      ((h.cacheCandidates available avoid).filter fun c => count ≤ c.free.length)
    rw [hsorted] at hpairwise
    rcases List.mem_cons.mp ((hmem other).mpr ⟨hother, hlarge⟩) with rfl | hlater
    · exact le_rfl
    · have hle := (List.pairwise_cons.mp hpairwise).1 other hlater
      unfold RankLe at hle
      dsimp only at hle
      omega
  · next hnone =>
    split at hsingle
    · refine .inr ⟨fun c hc => ?_, _, List.perm_insertionSort _ _, ?_,
        (Option.some.inj hsingle).symm⟩
      · by_contra hlarge
        rw [List.head?_eq_none_iff] at hnone
        have hin : c ∈ ((h.cacheCandidates available avoid).filter fun c =>
            count ≤ c.free.length).insertionSort fun a b =>
              RankLe (a.overlap, a.id) (b.overlap, b.id) :=
          (List.mem_insertionSort _).mpr
            (List.mem_filter.mpr ⟨hc, decide_eq_true (Nat.not_lt.mp hlarge)⟩)
        rw [hnone] at hin
        exact List.not_mem_nil hin
      · have : Std.Total fun a b : CacheCandidate =>
            RankLe (b.free.length, b.id) (a.free.length, a.id) := ⟨fun _ _ => rankLe_total _ _⟩
        have : IsTrans CacheCandidate fun a b =>
            RankLe (b.free.length, b.id) (a.free.length, a.id) :=
          ⟨fun _ _ _ hab hbc => rankLe_trans hbc hab⟩
        refine (List.pairwise_insertionSort (fun a b : CacheCandidate =>
          RankLe (b.free.length, b.id) (a.free.length, a.id)) _).imp fun {a b} hle => ?_
        unfold RankLe at hle
        dsimp only at hle
        omega
    · cases hsingle

section Single

/-- Of CPUs that are not to be avoided every one counts. -/
theorem candidate_free (havoid : ∀ cpu ∈ available, cpu ∉ avoid) {c : CacheCandidate}
    (hc : c ∈ h.cacheCandidates available avoid) : ∃ g ∈ h.l3Caches,
      c.free = available.filter (· ∈ g.2) ∧ c.overlap = (sortedSet g.2).countP (· ∈ avoid) := by
  obtain ⟨g, hg, rfl⟩ := List.mem_map.mp hc
  refine ⟨g, hg, List.filter_congr fun cpu hcpu => ?_, rfl⟩
  simp [havoid cpu hcpu]

theorem candidate_of_cache (havoid : ∀ cpu ∈ available, cpu ∉ avoid) {g : ℤ × List ℕ}
    (hg : g ∈ h.l3Caches) : ∃ c ∈ h.cacheCandidates available avoid,
      c.free = available.filter (· ∈ g.2) ∧ c.overlap = (sortedSet g.2).countP (· ∈ avoid) := by
  refine ⟨_, List.mem_map_of_mem hg, List.filter_congr fun cpu hcpu => ?_, rfl⟩
  simp [havoid cpu hcpu]

/-- CPUs drawn from what is free of some caches touch no others. -/
theorem touched_le (hcaches : h.CachesApart) (havoid : ∀ cpu ∈ available, cpu ∉ avoid)
    {picked : List CacheCandidate} (hpicked : ∀ c ∈ picked, c ∈ h.cacheCandidates available avoid)
    {s : Finset ℕ} (hs : ∀ cpu ∈ s, ∃ c ∈ picked, cpu ∈ c.free) :
    h.touched s ≤ picked.length := by
  have hlength : (picked.map CacheCandidate.free).length = picked.length := List.length_map _
  rw [← hlength]
  refine met_le (List.pairwise_map.mpr hcaches) (fun piece hpiece => ?_) fun cpu hcpu => ?_
  · obtain ⟨c, hc, rfl⟩ := List.mem_map.mp hpiece
    obtain ⟨g, hg, hfree, -⟩ := candidate_free havoid (hpicked c hc)
    refine ⟨g.2, List.mem_map_of_mem hg, fun cpu hcpu => ?_⟩
    rw [hfree] at hcpu
    simpa using (List.mem_filter.mp hcpu).2
  · obtain ⟨c, hc, hin⟩ := hs cpu hcpu
    exact ⟨c.free, List.mem_map_of_mem hc, hin⟩

/-- CPUs that are free are there in the caches they touch. -/
theorem card_le_of_touched (hcover : ∀ cpu ∈ available, ∃ g ∈ h.l3Caches, cpu ∈ g.2)
    (havoid : ∀ cpu ∈ available, cpu ∉ avoid) {groups : List CacheCandidate}
    (hgroups : groups.Perm ((h.cacheCandidates available avoid).filter fun c => !c.free.isEmpty))
    {other : Finset ℕ} (hother : ∀ cpu ∈ other, cpu ∈ available) :
    ∃ picked : List CacheCandidate, picked.Sublist groups ∧ picked.length ≤ h.touched other ∧
      other.card ≤ ((picked.map CacheCandidate.free).map List.length).sum := by
  -- the caches whose free CPUs the other choice meets; it has no CPU anywhere else
  let meets (c : CacheCandidate) : Bool := c.free.any fun cpu => decide (cpu ∈ other)
  refine ⟨groups.filter meets, List.filter_sublist, ?_, card_le_sum_length fun cpu hcpu => ?_⟩
  · calc (groups.filter meets).length
        = groups.countP meets := List.countP_eq_length_filter.symm
      _ = ((h.cacheCandidates available avoid).filter fun c => !c.free.isEmpty).countP meets :=
          hgroups.countP_eq meets
      _ ≤ (h.cacheCandidates available avoid).countP meets :=
          List.filter_sublist.countP_le
      _ ≤ h.touched other := by
          rw [cacheCandidates, List.countP_map, touched, met, List.countP_map]
          refine List.countP_mono_left fun g _ hmeets => ?_
          obtain ⟨cpu, hcpu, hin⟩ := List.any_eq_true.mp hmeets
          refine List.any_eq_true.mpr ⟨cpu, ?_, hin⟩
          have hboth := (List.mem_filter.mp hcpu).2
          exact (of_decide_eq_true hboth).1
  · obtain ⟨g, hg, hin⟩ := hcover cpu (hother cpu hcpu)
    obtain ⟨c, hc, hfree, -⟩ := candidate_of_cache havoid hg
    have hcpu' : cpu ∈ c.free := by
      rw [hfree]
      exact List.mem_filter.mpr ⟨hother cpu hcpu, decide_eq_true hin⟩
    refine ⟨c.free, List.mem_map_of_mem (List.mem_filter.mpr ⟨hgroups.mem_iff.mpr ?_, ?_⟩), hcpu'⟩
    · refine List.mem_filter.mpr ⟨hc, ?_⟩
      simpa using List.ne_nil_of_mem hcpu'
    · exact List.any_eq_true.mpr ⟨cpu, hcpu', decide_eq_true hcpu⟩

/-- **As few caches as possible.** -/
theorem allocateSingleCache_fewest (hcaches : h.CachesApart)
    (hcover : ∀ cpu ∈ available, ∃ g ∈ h.l3Caches, cpu ∈ g.2)
    (havoid : ∀ cpu ∈ available, cpu ∉ avoid) (hcount : 1 ≤ count)
    (hsingle : h.allocateSingleCache available avoid count = some cpus) {other : Finset ℕ}
    (hother : ∀ cpu ∈ other, cpu ∈ available) (hcard : other.card = count) :
    h.touched cpus.toFinset ≤ h.touched other := by
  rcases allocateSingleCache_cases hsingle with ⟨c, hc, -, rfl, -⟩ | ⟨-, groups, hperm, hsorted, rfl⟩
  · -- one cache, and any CPU touches one
    have hone : h.touched (c.free.take count).toFinset ≤ [c].length := by
      refine touched_le hcaches havoid (fun c' hc' => ?_) fun cpu hcpu => ⟨c, List.mem_cons_self, ?_⟩
      · rwa [List.mem_singleton.mp hc']
      · exact List.take_subset _ _ (List.mem_toFinset.mp hcpu)
    obtain ⟨cpu, hcpu⟩ := Finset.card_pos.mp (by omega : 0 < other.card)
    obtain ⟨g, hg, hin⟩ := hcover cpu (hother cpu hcpu)
    exact hone.trans (met_pos (List.mem_map_of_mem hg) hin hcpu)
  · obtain ⟨picked, hpicked, hlength, hdemand⟩ := card_le_of_touched hcover havoid hperm hother
    -- the largest caches hold what as many others do
    have hsizes := sum_le_sum_take (List.pairwise_map.mpr (List.pairwise_map.mpr hsorted))
      ((hpicked.map CacheCandidate.free).map List.length)
    rw [List.length_map, List.length_map, ← List.map_take] at hsizes
    have henough : count ≤ (((groups.map CacheCandidate.free).take picked.length).map
        List.length).sum := by
      omega
    rw [fillFrom_take henough, ← List.map_take]
    have hfew : (groups.take picked.length).length ≤ h.touched other :=
      (List.length_take_le _ _).trans hlength
    refine le_trans (touched_le hcaches havoid (fun c hc => ?_) ?_) hfew
    · exact (List.mem_filter.mp (hperm.mem_iff.mp (List.take_subset _ _ hc))).1
    · intro cpu hcpu
      have hfilled := (fillFrom_sublist _ count).subset
        (List.take_subset _ _ (List.mem_toFinset.mp hcpu))
      obtain ⟨free, hfree, hin⟩ := List.mem_flatten.mp hfilled
      obtain ⟨c, hc, rfl⟩ := List.mem_map.mp hfree
      exact ⟨c, hc, hin⟩

/-- A choice is possible. -/
theorem allocateSingleCache_isSome (hcover : ∀ cpu ∈ available, ∃ g ∈ h.l3Caches, cpu ∈ g.2)
    (havoid : ∀ cpu ∈ available, cpu ∉ avoid) (hnodup : available.Nodup)
    (henough : count ≤ available.length) :
    ∃ cpus, h.allocateSingleCache available avoid count = some cpus := by
  unfold allocateSingleCache
  dsimp only
  split
  -- a cache is large enough by itself
  · exact ⟨_, rfl⟩
  -- all free CPUs together are a choice, so the caches hold at least as many
  · have hall : ∀ cpu ∈ available.toFinset, cpu ∈ available := fun cpu => List.mem_toFinset.mp
    obtain ⟨picked, hpicked, -, hdemand⟩ := card_le_of_touched hcover havoid
      (List.perm_insertionSort (fun a b : CacheCandidate =>
        RankLe (b.free.length, b.id) (a.free.length, a.id)) _) hall
    rw [List.toFinset_card_of_nodup hnodup] at hdemand
    have hsum := ((hpicked.map CacheCandidate.free).map List.length).sum_le_sum fun _ _ =>
      Nat.zero_le _
    rw [fillFrom_length (henough.trans (hdemand.trans hsum)), if_pos le_rfl]
    exact ⟨_, rfl⟩

/-- One cache where one is large enough, and of those that are one with the fewest
CPUs to avoid. -/
theorem allocateSingleCache_one (havoid : ∀ cpu ∈ available, cpu ∉ avoid)
    (hsingle : h.allocateSingleCache available avoid count = some cpus) {g : ℤ × List ℕ}
    (hg : g ∈ h.l3Caches) (hlarge : count ≤ (available.filter (· ∈ g.2)).length) :
    ∃ best ∈ h.l3Caches, cpus ⊆ best.2 ∧ count ≤ (available.filter (· ∈ best.2)).length ∧
      ∀ other ∈ h.l3Caches, count ≤ (available.filter (· ∈ other.2)).length →
        (sortedSet best.2).countP (· ∈ avoid) ≤ (sortedSet other.2).countP (· ∈ avoid) := by
  rcases allocateSingleCache_cases hsingle with ⟨c, hc, henough, rfl, hleast⟩ | ⟨hsmall, -⟩
  · obtain ⟨best, hbest, hfree, hoverlap⟩ := candidate_free havoid hc
    rw [hfree] at henough ⊢
    refine ⟨best, hbest, fun cpu hcpu => ?_, henough, fun other hother hsuffices => ?_⟩
    · simpa using (List.mem_filter.mp (List.take_subset _ _ hcpu)).2
    · obtain ⟨c', hc', hfree', hoverlap'⟩ := candidate_of_cache havoid hother
      rw [← hoverlap, ← hoverlap']
      exact hleast c' hc' (by rwa [hfree'])
  · obtain ⟨c, hc, hfree, -⟩ := candidate_of_cache havoid hg
    have hless := hsmall c hc
    rw [hfree] at hless
    omega

end Single

/-! ### What is asked for -/

/-- The CPUs touch as few caches as any choice of as many free ones, and are of one
cache where one suffices: when caches are to be kept apart, of one with the
fewest CPUs to avoid. -/
structure Packed (h : HostCpus) (p : Placement) (count : ℕ) (cpus : List ℕ) : Prop where
  fewest : ∀ other ⊆ h.freeCpus p.requireNuma, other.card = count →
    h.touched cpus.toFinset ≤ h.touched other
  apart  : p.preferDifferentCache = true → ∀ g ∈ h.l3Caches, h.Suffices p.requireNuma count g.2 →
    ∃ best ∈ h.l3Caches, cpus ⊆ best.2 ∧ h.Suffices p.requireNuma count best.2 ∧
      ∀ other ∈ h.l3Caches, h.Suffices p.requireNuma count other.2 →
        h.heldIn p.avoidTags best.2 ≤ h.heldIn p.avoidTags other.2

theorem suffices_iff (heligible : h.eligibleCpus p = .ok available) {cache : List ℕ} :
    h.Suffices p.requireNuma count cache ↔ count ≤ (available.filter (· ∈ cache)).length := by
  obtain ⟨hnodup, hfree⟩ := eligibleCpus_free heligible
  have hcard : ((h.freeCpus p.requireNuma).filter fun cpu => cpu ∈ cache).card =
      (available.filter (· ∈ cache)).length := by
    rw [← hfree, ← List.toFinset_card_of_nodup (hnodup.filter _)]
    congr 1
    ext cpu
    simp
  rw [Suffices, hcard]

theorem heldIn_eq (hprefer : p.preferDifferentCache = true) (cache : List ℕ) :
    (sortedSet cache).countP (· ∈ h.avoidCpus p) = h.heldIn p.avoidTags cache := by
  rw [List.countP_eq_length_filter, heldIn, avoidCpus_eq hprefer,
    ← List.toFinset_card_of_nodup ((nodup_sortedSet cache).filter _)]
  congr 1
  ext cpu
  simp [mem_sortedSet]

theorem choose_packed (hcaches : h.CachesPartition) (hpack : p.minimizeCacheGroups = true)
    (hcount : 1 ≤ count) (hnode : ∀ id ∈ p.requireNuma, id ∈ h.numaNodes.map Prod.fst)
    (henough : count ≤ (h.freeCpus p.requireNuma).card) :
    ∃ cpus, h.choose tag count p = .ok cpus ∧ Packed h p count cpus := by
  obtain ⟨available, heligible⟩ := eligibleCpus_ok_iff.mpr hnode
  obtain ⟨hnodup, hfree⟩ := eligibleCpus_free heligible
  have hin : ∀ cpu ∈ available, cpu ∈ h.freeCpus p.requireNuma := fun cpu hcpu => by
    rw [← hfree]
    exact List.mem_toFinset.mpr hcpu
  have hcover : ∀ cpu ∈ available, ∃ g ∈ h.l3Caches, cpu ∈ g.2 := fun cpu hcpu =>
    hcaches.cover cpu (mem_freeCpus (hin cpu hcpu)).1
  have havoid : ∀ cpu ∈ available, cpu ∉ h.avoidCpus p := fun cpu hcpu =>
    not_mem_avoidCpus (hin cpu hcpu)
  rw [← hfree, List.toFinset_card_of_nodup hnodup] at henough
  obtain ⟨cpus, hsingle⟩ := allocateSingleCache_isSome hcover havoid hnodup henough
  refine ⟨cpus, ?_, ⟨fun other hother hcard => ?_, fun hprefer g hg hlarge => ?_⟩⟩
  · -- a host with a free CPU has a cache
    have hsome : h.l3Caches ≠ [] := by
      intro hnone
      obtain ⟨cpu, hcpu⟩ := List.exists_mem_of_length_pos (by omega : 0 < available.length)
      obtain ⟨g, hg, -⟩ := hcover cpu hcpu
      rw [hnone] at hg
      exact List.not_mem_nil hg
    unfold choose
    rw [heligible]
    dsimp only [Bind.bind, Except.bind]
    rw [if_pos ⟨hpack, hsome⟩, hsingle, Option.some_or]
  · refine allocateSingleCache_fewest hcaches.apart hcover havoid hcount hsingle (fun cpu hcpu => ?_)
      hcard
    rw [← List.mem_toFinset, hfree]
    exact hother hcpu
  · obtain ⟨best, hbest, hsub, hsuffices, hleast⟩ :=
      allocateSingleCache_one havoid hsingle hg ((suffices_iff heligible).mp hlarge)
    refine ⟨best, hbest, hsub, (suffices_iff heligible).mpr hsuffices, fun other hother hin => ?_⟩
    rw [← heldIn_eq hprefer, ← heldIn_eq hprefer]
    exact hleast other hother ((suffices_iff heligible).mp hin)

/-! ## Away from other caches -/

/-- A cache lies within one NUMA node. -/
def CachesWithinNodes (h : HostCpus) : Prop :=
  ∀ g ∈ h.l3Caches, ∀ node ∈ h.numaNodes, (∃ cpu ∈ g.2, cpu ∈ node.2) → g.2 ⊆ node.2

/-- None of the CPUs shares a cache with one that the tags hold. -/
def Separated (h : HostCpus) (tags : List AllocationTag) (cpus : List ℕ) : Prop :=
  ∀ cpu ∈ cpus, ∀ g ∈ h.l3Caches, cpu ∈ g.2 → ∀ held ∈ h.tagCpus tags, held ∉ g.2

/-- The free CPUs in caches none of whose CPUs the tags hold. -/
def freeApart (h : HostCpus) (node : Option ℤ) (tags : List AllocationTag) : Finset ℕ :=
  (h.freeCpus node).filter fun cpu =>
    ∃ g ∈ h.l3Caches, cpu ∈ g.2 ∧ ∀ held ∈ h.tagCpus tags, held ∉ g.2

theorem isApart_iff {g : ℤ × List ℕ} : isApart avoid g = true ↔ ∀ held ∈ avoid, held ∉ g.2 := by
  simp only [isApart, Bool.not_eq_true', List.any_eq_false, decide_eq_true_eq]
  exact ⟨fun hapart held hheld hin => hapart held hin hheld, fun hapart cpu hcpu hin =>
    hapart cpu hin hcpu⟩

/-- The loop returns as soon as there are enough. -/
theorem gatherFrom_isSome {acc : List ℕ} {groups : CpuGroups} (hacc : acc.length < count)
    (henough : count ≤ acc.length +
      ((groups.map fun g => available.filter (· ∈ g.2)).map List.length).sum) :
    ∃ cpus, gatherFrom available count acc groups = some cpus := by
  induction groups generalizing acc with
  | nil =>
    rw [List.map_nil, List.map_nil, List.sum_nil] at henough
    omega
  | cons g rest ih =>
    rw [List.map_cons, List.map_cons, List.sum_cons] at henough
    unfold gatherFrom
    dsimp only
    split
    · exact ⟨_, rfl⟩
    · next hfew =>
      refine ih (Nat.not_le.mp hfew) ?_
      rw [List.length_append]
      omega

/-- The CPUs of a node that holds none to avoid share no cache with these. -/
theorem separated_of_node (hnodes : h.CachesWithinNodes) {tags : List AllocationTag}
    {node : ℤ × List ℕ} (hnode : node ∈ h.numaNodes) (hapart : isApart (h.tagCpus tags) node = true)
    (hcpus : cpus ⊆ node.2) : h.Separated tags cpus := by
  intro cpu hcpu g hg hin held hheld hshared
  have hwithin := hnodes g hg node hnode ⟨cpu, hin, hcpus hcpu⟩
  exact isApart_iff.mp hapart held hheld (hwithin hshared)

/-- Nor do the CPUs of caches that hold none. -/
theorem separated_of_caches (hcaches : h.CachesApart) {tags : List AllocationTag}
    (hcpus : ∀ cpu ∈ cpus, ∃ g ∈ h.l3Caches, isApart (h.tagCpus tags) g = true ∧ cpu ∈ g.2) :
    h.Separated tags cpus := by
  intro cpu hcpu g hg hin held hheld hshared
  obtain ⟨own, hown, hapart, hinown⟩ := hcpus cpu hcpu
  have hsame : own.2 = g.2 := eq_of_shared (List.pairwise_map.mpr hcaches)
    (List.mem_map_of_mem hown) (List.mem_map_of_mem hg) hinown hin
  exact isApart_iff.mp hapart held hheld (hsame ▸ hshared)

theorem allocateCacheAware_separated (hcaches : h.CachesApart) (hnodes : h.CachesWithinNodes)
    {tags : List AllocationTag} {node : Option ℤ}
    (haware : h.allocateCacheAware available (h.tagCpus tags) count node = some cpus) :
    h.Separated tags cpus := by
  -- a node that holds none comes first, and only then single caches
  unfold allocateCacheAware at haware
  rcases Option.or_eq_some_iff.mp haware with hother | ⟨-, hgather⟩
  · split at hother
    · obtain ⟨g, hg, hfree⟩ := List.exists_of_findSome?_eq_some hother
      obtain ⟨hmem, hapart⟩ := List.mem_filter.mp hg
      dsimp only at hfree
      split at hfree
      · obtain rfl := Option.some.inj hfree
        refine separated_of_node hnodes hmem hapart fun cpu hcpu => ?_
        simpa using (List.mem_filter.mp (List.take_subset _ _ hcpu)).2
      · cases hfree
    · cases hother
  · refine separated_of_caches hcaches fun cpu hcpu => ?_
    have hin := (gatherFrom_sublist hgather).subset hcpu
    rw [List.nil_append] at hin
    obtain ⟨piece, hpiece, hcpu'⟩ := List.mem_flatten.mp hin
    obtain ⟨g, hg, rfl⟩ := List.mem_map.mp hpiece
    obtain ⟨hmem, hapart⟩ := List.mem_filter.mp hg
    refine ⟨g, (List.mem_insertionSort _).mp hmem, hapart, ?_⟩
    simpa using (List.mem_filter.mp hcpu').2

/-- Where enough CPUs are in caches that hold none to avoid, some are found. -/
theorem allocateCacheAware_isSome {tags : List AllocationTag} {node : Option ℤ} (hcount : 1 ≤ count)
    (havailable : available.toFinset = h.freeCpus node)
    (henough : count ≤ (h.freeApart node tags).card) :
    ∃ cpus, h.allocateCacheAware available (h.tagCpus tags) count node = some cpus := by
  unfold allocateCacheAware
  -- the second way finds enough, whether or not the first one finds any
  have hpieces : ∀ cpu ∈ h.freeApart node tags,
      ∃ piece ∈ ((h.l3Caches.insertionSort fun a b => a.1 ≤ b.1).filter
          (isApart (h.tagCpus tags))).map (fun g => available.filter (· ∈ g.2)), cpu ∈ piece := by
    intro cpu hcpu
    obtain ⟨hfree, g, hg, hin, hapart⟩ := Finset.mem_filter.mp hcpu
    rw [← havailable, List.mem_toFinset] at hfree
    refine ⟨_, List.mem_map_of_mem (List.mem_filter.mpr
      ⟨(List.mem_insertionSort _).mpr hg, isApart_iff.mpr hapart⟩), ?_⟩
    exact List.mem_filter.mpr ⟨hfree, decide_eq_true hin⟩
  have hsum := henough.trans (card_le_sum_length hpieces)
  obtain ⟨gathered, hgather⟩ := gatherFrom_isSome (show ([] : List ℕ).length < count from hcount)
    (by simpa using hsum)
  rw [hgather]
  cases (if node.isNone then
      (h.numaNodes.filter (isApart (h.tagCpus tags))).findSome? fun g =>
        let free := available.filter (· ∈ g.2)
        if count ≤ free.length then some (free.take count) else none
    else none) with
  | none => exact ⟨gathered, rfl⟩
  | some found => exact ⟨found, rfl⟩

theorem choose_separated (hcaches : h.CachesApart) (hnodes : h.CachesWithinNodes)
    (hprefer : p.preferDifferentCache = true) (hspread : p.minimizeCacheGroups = false)
    (hnode : ∀ id ∈ p.requireNuma, id ∈ h.numaNodes.map Prod.fst)
    (henough : count ≤ (h.freeApart p.requireNuma p.avoidTags).card) :
    ∃ cpus, h.choose tag count p = .ok cpus ∧ h.Separated p.avoidTags cpus := by
  have hfew : count ≤ (h.freeCpus p.requireNuma).card :=
    henough.trans (Finset.card_le_card (Finset.filter_subset _ _))
  obtain ⟨cpus, hchoose⟩ : ∃ cpus, h.choose tag count p = .ok cpus :=
    (choose_ok_iff hcaches).mpr ⟨hnode, hfew⟩
  refine ⟨cpus, hchoose, ?_⟩
  rcases Nat.eq_zero_or_pos count with hzero | hcount
  · -- nothing is asked for
    rw [hzero] at hchoose
    rw [List.length_eq_zero_iff.mp (choose_length hchoose)]
    exact fun cpu hcpu => absurd hcpu List.not_mem_nil
  · rcases h.tagCpus p.avoidTags |>.eq_nil_or_concat with hnone | hsome
    · intro cpu _ g _ _ held hheld
      rw [hnone] at hheld
      exact absurd hheld List.not_mem_nil
    · have hheld : h.tagCpus p.avoidTags ≠ [] := by
        obtain ⟨init, last, hlast⟩ := hsome
        simp [hlast]
      obtain ⟨available, heligible, hchoose⟩ := except_bind_ok.mp hchoose
      obtain ⟨found, hfound⟩ :=
        allocateCacheAware_isSome hcount (eligibleCpus_free heligible).2 henough
      dsimp only at hchoose
      rw [avoidCpus_eq hprefer, hspread, if_neg (by simp), if_pos ⟨hprefer, hheld⟩, hfound,
        Option.none_or] at hchoose
      obtain rfl := Except.ok.inj hchoose
      exact allocateCacheAware_separated hcaches hnodes hfound

end HostCpus

namespace CpuAllocator

variable {a : CpuAllocator} {ip : String} {h : HostCpus} {tag : AllocationTag} {count : ℕ}
  {p : Placement} {cpus : List ℕ}

/-- A tag that is new on a host gets what is chosen for it. -/
theorem allocate_of_choose (hfind : a.hosts.find? ip = some h)
    (hnew : h.allocations.find? tag = none) (hchoose : h.choose tag count p = .ok cpus) :
    ∃ a', a.allocate ip tag count p = .ok (cpus, a') := by
  unfold allocate
  rw [hfind]
  dsimp only
  rw [hnew, Option.isSome_none, if_neg Bool.false_ne_true, hchoose]
  exact ⟨_, rfl⟩

/-- Two caches of two CPUs, and a server on the first CPU. -/
def besideServer : HostCpus where
  ip          := "10.0.0.1"
  allCpus     := [0, 1, 2, 3]
  numaNodes   := [(0, [0, 1, 2, 3])]
  l3Caches    := [(0, [0, 1]), (1, [2, 3])]
  netNuma     := none
  allocations := Table.empty.put ⟨server, [0]⟩

theorem besideServer_partition : besideServer.CachesPartition :=
  ⟨by simp [HostCpus.CachesApart, besideServer], by decide⟩

end CpuAllocator

end Conductress
