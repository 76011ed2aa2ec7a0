import Mathlib.Data.Finset.Card
import Mathlib.Data.List.Perm.Subperm
import Conductress.Bench.CpuAllocator

/-!
# The allocations of a host

`allocate` tries up to three ways to pick CPUs before it takes any that are
free. Whichever way it is, what comes out are distinct CPUs among those that
were free (`choose_free`), and the last way declines only when too few are
eligible (`choose_ok_iff`). Over any sequence of calls the CPUs of a host are
therefore held at most once: `allocations_sound`.
-/

namespace Conductress

open Lib

namespace HostCpus

variable {h : HostCpus} {available avoid cpus : List ℕ} {count : ℕ} {p : Placement}
  {tag : AllocationTag}

/-- Distinct CPUs, drawn from a list. -/
def Drawn (cpus available : List ℕ) : Prop := cpus.Nodup ∧ cpus ⊆ available

/-- No CPU belongs to two caches. -/
def CachesApart (h : HostCpus) : Prop := h.l3Caches.Pairwise fun a b => a.2.Disjoint b.2

/-- The CPUs that nobody holds, of a node when one is required. -/
def freeCpus (h : HostCpus) (node : Option ℤ) : Finset ℕ :=
  h.allCpus.toFinset.filter fun cpu =>
    (∀ held ∈ h.allocations.rows, cpu ∉ held.cpus) ∧
      ∀ id ∈ node, cpu ∈ (group? h.numaNodes id).getD []

/-! ### Distinct CPUs among the eligible ones -/

theorem Drawn.take (hdrawn : Drawn cpus available) (n : ℕ) : Drawn (cpus.take n) available :=
  ⟨hdrawn.1.sublist (List.take_sublist n cpus),
    fun _ hcpu => hdrawn.2 (List.take_subset n cpus hcpu)⟩

theorem Drawn.filter (hnodup : available.Nodup) (keep : ℕ → Bool) :
    Drawn (available.filter keep) available :=
  ⟨hnodup.filter keep, List.filter_subset_self available⟩

/-- CPUs of groups that share none. -/
theorem Drawn.flatten {groups : List (List ℕ)} (hgroups : ∀ free ∈ groups, Drawn free available)
    (hapart : groups.Pairwise List.Disjoint) : Drawn groups.flatten available := by
  refine ⟨List.nodup_flatten.mpr ⟨fun free hfree => (hgroups free hfree).1, hapart⟩, ?_⟩
  intro cpu hcpu
  obtain ⟨free, hfree, hin⟩ := List.mem_flatten.mp hcpu
  exact (hgroups free hfree).2 hin

theorem Drawn.sublist (hdrawn : Drawn cpus available) {chosen : List ℕ}
    (hsub : chosen.Sublist cpus) : Drawn chosen available :=
  ⟨hdrawn.1.sublist hsub, fun _ hcpu => hdrawn.2 (hsub.subset hcpu)⟩

theorem fillFrom_sublist (groups : List (List ℕ)) (needed : ℕ) :
    (fillFrom groups needed).Sublist groups.flatten := by
  induction groups generalizing needed with
  | nil => exact List.Sublist.refl _
  | cons free rest ih =>
    rw [fillFrom, List.flatten_cons]
    split
    · exact List.nil_sublist _
    · exact (List.take_sublist needed free).append (ih _)

theorem gatherFrom_sublist {acc : List ℕ} {groups : CpuGroups}
    (hgather : gatherFrom available count acc groups = some cpus) :
    cpus.Sublist (acc ++ (groups.map fun g => available.filter (· ∈ g.2)).flatten) := by
  induction groups generalizing acc with
  | nil => cases hgather
  | cons g rest ih =>
    unfold gatherFrom at hgather
    dsimp only at hgather
    rw [List.map_cons, List.flatten_cons, ← List.append_assoc]
    split at hgather
    · injection hgather with htake
      rw [← htake]
      exact (List.take_sublist _ _).trans (List.sublist_append_left _ _)
    · exact ih hgather

/-- Two caches that share no CPU have no free one in common. -/
theorem candidates_apart (hcaches : h.CachesApart) (available avoid : List ℕ) :
    (h.cacheCandidates available avoid).Pairwise fun a b => a.free.Disjoint b.free := by
  refine List.Pairwise.map _ (fun a b hapart => ?_) hcaches
  intro cpu ha hb
  have hina := (List.mem_filter.mp ha).2
  have hinb := (List.mem_filter.mp hb).2
  simp only [decide_eq_true_eq] at hina hinb
  exact hapart hina.1 hinb.1

theorem candidates_drawn (hnodup : available.Nodup) {c : CacheCandidate}
    (hc : c ∈ h.cacheCandidates available avoid) : Drawn c.free available := by
  obtain ⟨g, -, rfl⟩ := List.mem_map.mp hc
  exact Drawn.filter hnodup _

theorem allocateSingleCache_drawn (hcaches : h.CachesApart) (hnodup : available.Nodup)
    (hsingle : h.allocateSingleCache available avoid count = some cpus) :
    Drawn cpus available := by
  unfold allocateSingleCache at hsingle
  dsimp only at hsingle
  split at hsingle
  · next c hmin =>
    injection hsingle with htake
    have hmem := (List.mem_insertionSort _).mp (List.mem_of_head? hmin)
    rw [← htake]
    exact (candidates_drawn hnodup (List.mem_filter.mp hmem).1).take count
  · split at hsingle
    · injection hsingle with htake
      rw [← htake]
      -- the order in which the caches are taken does not make them overlap
      refine Drawn.take (Drawn.sublist (Drawn.flatten ?_ ?_) (fillFrom_sublist _ _)) count
      · intro free hfree
        obtain ⟨c, hc, rfl⟩ := List.mem_map.mp hfree
        have hmem := (List.mem_insertionSort _).mp hc
        exact candidates_drawn hnodup (List.mem_filter.mp hmem).1
      · rw [List.pairwise_map]
        refine ((List.perm_insertionSort _ _).pairwise_iff fun hab => hab.symm).mpr ?_
        exact (candidates_apart hcaches available avoid).filter _
    · cases hsingle

theorem allocateCacheAware_drawn {node : Option ℤ} (hcaches : h.CachesApart)
    (hnodup : available.Nodup)
    (haware : h.allocateCacheAware available avoid count node = some cpus) :
    Drawn cpus available := by
  unfold allocateCacheAware at haware
  rcases Option.or_eq_some_iff.mp haware with hnode | ⟨-, hgather⟩
  · split at hnode
    · obtain ⟨g, -, hg⟩ := List.exists_of_findSome?_eq_some hnode
      dsimp only at hg
      split at hg
      · injection hg with htake
        rw [← htake]
        exact (Drawn.filter hnodup _).take count
      · cases hg
    · cases hnode
  · refine Drawn.sublist (Drawn.flatten ?_ ?_) (gatherFrom_sublist hgather)
    · intro free hfree
      obtain ⟨g, -, rfl⟩ := List.mem_map.mp hfree
      exact Drawn.filter hnodup _
    · rw [List.pairwise_map]
      have hsorted := ((List.perm_insertionSort (fun a b : ℤ × List ℕ => a.1 ≤ b.1)
        h.l3Caches).pairwise_iff fun hab => hab.symm).mpr hcaches
      refine (hsorted.filter _).imp fun {a b} hapart => ?_
      intro cpu ha hb
      exact hapart (by simpa using (List.mem_filter.mp ha).2)
        (by simpa using (List.mem_filter.mp hb).2)

theorem allocateSimple_drawn (hnodup : available.Nodup)
    (hsimple : h.allocateSimple available tag count p = .ok cpus) : Drawn cpus available := by
  have hself : Drawn available available := ⟨hnodup, List.Subset.refl _⟩
  have hreverse : Drawn available.reverse available :=
    ⟨List.nodup_reverse.mpr hnodup, fun cpu hcpu => List.mem_reverse.mp hcpu⟩
  unfold allocateSimple at hsimple
  split at hsimple
  · cases hsimple
  · split at hsimple
    · injection hsimple with htake
      rw [← htake]
      exact hreverse.take count
    · injection hsimple with htake
      rw [← htake]
      exact hself.take count

theorem nodup_sortedSet (cpus : List ℕ) : (sortedSet cpus).Nodup := List.nodup_dedup _

theorem mem_sortedSet {cpu : ℕ} : cpu ∈ sortedSet cpus ↔ cpu ∈ cpus := by
  rw [sortedSet, List.mem_dedup, List.mem_insertionSort]

/-- What is eligible is what is free, each CPU once. -/
theorem eligibleCpus_free (heligible : h.eligibleCpus p = .ok available) :
    available.Nodup ∧ available.toFinset = h.freeCpus p.requireNuma := by
  have hnodup : h.availableCpus.Nodup := (nodup_sortedSet _).filter _
  unfold eligibleCpus at heligible
  split at heligible
  · next hnode =>
    injection heligible with heq
    rw [← heq]
    refine ⟨hnodup, Finset.ext fun cpu => ?_⟩
    simp [freeCpus, availableCpus, mem_sortedSet, hnode]
  · next node hnode =>
    split at heligible
    · next group hgroup =>
      injection heligible with heq
      rw [← heq]
      refine ⟨hnodup.filter _, Finset.ext fun cpu => ?_⟩
      simp only [freeCpus, availableCpus, hnode, List.mem_toFinset, List.mem_filter,
        mem_sortedSet, Finset.mem_filter, Option.mem_some_iff, forall_eq', hgroup,
        Option.getD_some, List.mem_flatMap, decide_eq_true_eq, not_exists, not_and, and_assoc]
    · cases heligible

/-- The node exists exactly when there is something to be eligible. -/
theorem eligibleCpus_ok_iff :
    (∃ available, h.eligibleCpus p = .ok available) ↔
      ∀ id ∈ p.requireNuma, id ∈ h.numaNodes.map Prod.fst := by
  unfold eligibleCpus
  split
  · next hnode => simp [hnode]
  · next node hnode =>
    have hgroup : (∃ group, group? h.numaNodes node = some group) ↔
        node ∈ h.numaNodes.map Prod.fst := by
      rw [← Option.isSome_iff_exists, group?, Option.isSome_map, List.find?_isSome]
      simp
    rw [hnode]
    simp only [Option.mem_some_iff, forall_eq']
    rw [← hgroup]
    split
    · next group hsome => simp [hsome]
    · next hnone => simp [hnone]

/-- **What a tag gets**: distinct CPUs among those that were free, whichever way
they were picked. -/
theorem choose_free (hcaches : h.CachesApart) (hchoose : h.choose tag count p = .ok cpus) :
    cpus.Nodup ∧ ∀ cpu ∈ cpus, cpu ∈ h.freeCpus p.requireNuma := by
  obtain ⟨available, heligible, hchoose⟩ := except_bind_ok.mp hchoose
  obtain ⟨hnodup, hfree⟩ := eligibleCpus_free heligible
  suffices hdrawn : Drawn cpus available by
    refine ⟨hdrawn.1, fun cpu hcpu => ?_⟩
    rw [← hfree, List.mem_toFinset]
    exact hdrawn.2 hcpu
  dsimp only at hchoose
  split at hchoose
  · next picked hpicked =>
    injection hchoose with heq
    rw [← heq]
    rcases Option.or_eq_some_iff.mp hpicked with hfew | ⟨-, hapart⟩
    · split at hfew
      · exact allocateSingleCache_drawn hcaches hnodup hfew
      · cases hfew
    · split at hapart
      · exact allocateCacheAware_drawn hcaches hnodup hapart
      · cases hapart
  · exact allocateSimple_drawn hnodup hchoose

/-- **When a tag gets anything**: the node exists and has enough free CPUs, the
flags do not matter. -/
theorem choose_ok_iff (hcaches : h.CachesApart) :
    (∃ cpus, h.choose tag count p = .ok cpus) ↔
      (∀ id ∈ p.requireNuma, id ∈ h.numaNodes.map Prod.fst) ∧
        count ≤ (h.freeCpus p.requireNuma).card := by
  constructor
  · rintro ⟨cpus, hchoose⟩
    obtain ⟨available, heligible, -⟩ := except_bind_ok.mp hchoose
    obtain ⟨hdistinct, hfree⟩ := choose_free hcaches hchoose
    refine ⟨eligibleCpus_ok_iff.mp ⟨available, heligible⟩, ?_⟩
    rw [← choose_length hchoose, ← List.toFinset_card_of_nodup hdistinct]
    refine Finset.card_le_card fun cpu hcpu => ?_
    exact hfree cpu (List.mem_toFinset.mp hcpu)
  · rintro ⟨hnode, henough⟩
    obtain ⟨available, heligible⟩ := eligibleCpus_ok_iff.mpr hnode
    obtain ⟨hnodup, hfree⟩ := eligibleCpus_free heligible
    rw [← hfree, List.toFinset_card_of_nodup hnodup] at henough
    -- a way that declines leaves the matter to the next, and the last one cannot
    have hsimple : ∃ cpus, h.allocateSimple available tag count p = .ok cpus := by
      unfold allocateSimple
      rw [if_neg (Nat.not_lt.mpr henough)]
      split <;> exact ⟨_, rfl⟩
    unfold choose
    rw [heligible]
    dsimp only [Bind.bind, Except.bind]
    split
    · exact ⟨_, rfl⟩
    · exact hsimple

end HostCpus

/-! ## Sequences of calls -/

/-- A call to the allocator. -/
inductive CpuCall where
  | registerHost (ip : String) (allCpus : List ℕ) (numaNodes l3Caches : CpuGroups)
      (netNuma : Option ℤ)
  | allocate (ip : String) (tag : AllocationTag) (count : ℕ) (p : Placement)
  | release (ip : String) (tag : AllocationTag)

namespace CpuCall

/-- A host is registered with caches that share no CPU, and with nodes and caches
of its own CPUs. -/
def WellFormed : CpuCall → Prop
  | .registerHost _ allCpus numaNodes l3Caches _ =>
    (l3Caches.Pairwise fun a b => a.2.Disjoint b.2) ∧
      (∀ g ∈ numaNodes, g.2 ⊆ allCpus) ∧ ∀ g ∈ l3Caches, g.2 ⊆ allCpus
  | _ => True

/-- The call ends whatever the tag holds: the host is registered anew, or the tag
is released. -/
def Clears (ip : String) (tag : AllocationTag) : CpuCall → Prop
  | .registerHost ip' _ _ _ _ => ip' = ip
  | .allocate .. => False
  | .release ip' tag' => ip' = ip ∧ tag' = tag

end CpuCall

namespace CpuAllocator

/-- What a call leaves; one that raises has stored nothing. -/
def apply (a : CpuAllocator) : CpuCall → CpuAllocator
  | .registerHost ip allCpus numaNodes l3Caches netNuma =>
    a.registerHost ip allCpus numaNodes l3Caches netNuma
  | .allocate ip tag count p =>
    match a.allocate ip tag count p with
    | .ok (_, a') => a'
    | .error _ => a
  | .release ip tag => a.release ip tag

/-- A fresh allocator after some calls. -/
def after (calls : List CpuCall) : CpuAllocator := calls.foldl apply empty

theorem after_snoc (calls : List CpuCall) (call : CpuCall) :
    after (calls ++ [call]) = (after calls).apply call := by
  rw [after, List.foldl_append]
  rfl

/-- The allocation was granted by one of the calls, for as many CPUs as it has and
of the node that was required, and nothing has cleared it since. -/
def ComesFrom (calls : List CpuCall) (h : HostCpus) (held : Allocation) : Prop :=
  ∃ before since p,
    calls = before ++ .allocate h.ip held.tag held.cpus.length p :: since ∧
      (∃ a, (after before).allocate h.ip held.tag held.cpus.length p = .ok (held.cpus, a)) ∧
      (∀ call ∈ since, ¬ call.Clears h.ip held.tag) ∧
      ∀ id ∈ p.requireNuma, held.cpus ⊆ (HostCpus.group? h.numaNodes id).getD []

/-- What holds of a host after the calls. -/
structure HostSound (calls : List CpuCall) (h : HostCpus) : Prop where
  caches     : h.CachesApart
  distinct   : ∀ held ∈ h.allocations.rows, held.cpus.Nodup
  registered : ∀ held ∈ h.allocations.rows, held.cpus ⊆ h.allCpus
  disjoint   : h.allocations.rows.Pairwise fun a b => a.cpus.Disjoint b.cpus
  origin     : ∀ held ∈ h.allocations.rows, ComesFrom calls h held

variable {a a' : CpuAllocator} {ip : String} {tag : AllocationTag} {cpus : List ℕ}
  {calls : List CpuCall} {call : CpuCall} {h : HostCpus} {held : Allocation}
  {count : ℕ} {p : Placement}

/-- What a granted allocation says and does. -/
theorem allocate_cases (hgrant : a.allocate ip tag count p = .ok (cpus, a')) :
    ∃ h, a.hosts.find? ip = some h ∧ h.allocations.find? tag = none ∧
      h.choose tag count p = .ok cpus ∧ ∀ ip', a'.hosts.find? ip' =
        if ip' = ip then some { h with allocations := h.allocations.put ⟨tag, cpus⟩ }
        else a.hosts.find? ip' := by
  unfold allocate at hgrant
  split at hgrant
  · cases hgrant
  · next h hfind =>
    split at hgrant
    · cases hgrant
    · next hnew =>
      obtain ⟨chosen, hchosen, hok⟩ := except_bind_ok.mp hgrant
      injection hok with hpair
      injection hpair with hcpus ha'
      rw [hcpus] at hchosen ha'
      refine ⟨h, hfind, by simpa using hnew, hchosen, fun ip' => ?_⟩
      rw [← ha', Table.find?_put, ip_of_find hfind]

theorem ComesFrom.snoc (hfrom : ComesFrom calls h held) (hkept : ¬ call.Clears h.ip held.tag) :
    ComesFrom (calls ++ [call]) h held := by
  obtain ⟨before, since, p, hcalls, hgranted, hsince, hnode⟩ := hfrom
  refine ⟨before, since ++ [call], p, ?_, hgranted, ?_, hnode⟩
  · rw [hcalls, List.append_assoc, List.cons_append]
  · intro c hc
    rcases List.mem_append.mp hc with hc | hc
    · exact hsince c hc
    · rw [List.mem_singleton.mp hc]
      exact hkept

/-- A host is as sound with fewer allocations, when what is left was not cleared. -/
theorem HostSound.shrink (hsound : HostSound calls h) (allocations : Table Allocation.tag)
    (hsub : allocations.rows.Sublist h.allocations.rows)
    (hkept : ∀ held ∈ allocations.rows, ¬ call.Clears h.ip held.tag) :
    HostSound (calls ++ [call]) { h with allocations } where
  caches := hsound.caches
  distinct held hheld := hsound.distinct held (hsub.subset hheld)
  registered held hheld := hsound.registered held (hsub.subset hheld)
  disjoint := hsound.disjoint.sublist hsub
  origin held hheld := (hsound.origin held (hsub.subset hheld)).snoc (hkept held hheld)

/-- A host that a call does not touch. -/
theorem HostSound.frame (hsound : HostSound calls h) (hkept : ∀ tag, ¬ call.Clears h.ip tag) :
    HostSound (calls ++ [call]) h :=
  hsound.shrink h.allocations (List.Sublist.refl _) fun _ _ => hkept _

/-- A host just registered holds nothing. -/
theorem HostSound.fresh (hcaches : h.CachesApart) (hnone : h.allocations.rows = []) :
    HostSound calls h where
  caches := hcaches
  distinct := by simp [hnone]
  registered := by simp [hnone]
  disjoint := by simp [hnone]
  origin := by simp [hnone]

/-- A granted allocation joins the others of its host. -/
theorem HostSound.grant (hsound : HostSound calls h) (hfind : (after calls).hosts.find? ip = some h)
    (hgrant : (after calls).allocate ip tag count p = .ok (cpus, a')) :
    HostSound (calls ++ [.allocate ip tag count p])
      { h with allocations := h.allocations.put ⟨tag, cpus⟩ } := by
  obtain ⟨h', hfind', hnew, hchoose, -⟩ := allocate_cases hgrant
  obtain rfl : h = h' := Option.some.inj (hfind.symm.trans hfind')
  obtain rfl : h.ip = ip := ip_of_find hfind
  obtain ⟨hdistinct, hfree⟩ := HostCpus.choose_free hsound.caches hchoose
  obtain rfl : cpus.length = count := HostCpus.choose_length hchoose
  have hrows : ∀ held, held ∈ (h.allocations.put ⟨tag, cpus⟩).rows ↔
      held = ⟨tag, cpus⟩ ∨ held ∈ h.allocations.rows := by
    intro held
    rw [Table.mem_rows, Table.mem_put, Table.mem_rows]
    have hother : held ∈ h.allocations → held.tag ≠ tag := Table.find?_eq_none_iff.mp hnew held
    tauto
  have hold : HostSound (calls ++ [.allocate h.ip tag cpus.length p]) h :=
    hsound.frame fun _ hclears => hclears
  have hnode : ∀ id ∈ p.requireNuma, cpus ⊆ (HostCpus.group? h.numaNodes id).getD [] :=
    fun id hid cpu hcpu => (Finset.mem_filter.mp (hfree cpu hcpu)).2.2 id hid
  refine ⟨hsound.caches, ?_, ?_, ?_, ?_⟩
  · intro held hheld
    rcases (hrows held).mp hheld with rfl | hheld
    · exact hdistinct
    · exact hsound.distinct held hheld
  · intro held hheld
    rcases (hrows held).mp hheld with rfl | hheld
    · intro cpu hcpu
      exact List.mem_toFinset.mp (Finset.mem_filter.mp (hfree cpu hcpu)).1
    · exact hsound.registered held hheld
  · -- what was free is in no other allocation
    rw [Table.put, List.pairwise_append]
    refine ⟨hsound.disjoint.sublist List.filter_sublist, List.pairwise_singleton _ _, ?_⟩
    intro held hheld new hnew' cpu hcpu hcpu'
    rw [List.mem_singleton.mp hnew'] at hcpu'
    have hmem : held ∈ h.allocations.rows := List.mem_of_mem_filter hheld
    exact (Finset.mem_filter.mp (hfree cpu hcpu')).2.1 held hmem hcpu
  · intro held hheld
    rcases (hrows held).mp hheld with rfl | hheld
    · exact ⟨calls, [], p, rfl, ⟨a', hgrant⟩, by simp, hnode⟩
    · exact hold.origin held hheld

/-- **One more call** keeps every host sound. -/
theorem sound_snoc (hsound : ∀ ip h, (after calls).hosts.find? ip = some h → HostSound calls h)
    (hcall : call.WellFormed) (ip : String) (h : HostCpus)
    (hfind : (after (calls ++ [call])).hosts.find? ip = some h) :
    HostSound (calls ++ [call]) h := by
  rw [after_snoc] at hfind
  cases call with
  | registerHost ip' allCpus numaNodes l3Caches netNuma =>
    rw [apply, registerHost, Table.find?_put] at hfind
    rcases ite_eq_iff.mp hfind with ⟨-, heq⟩ | ⟨hip, hfind⟩
    · injection heq with heq
      rw [← heq]
      exact .fresh hcall.1 rfl
    · refine (hsound ip h hfind).frame fun _ hclears => hip ?_
      exact (ip_of_find hfind).symm.trans hclears.symm
  | allocate ip' tag count p =>
    unfold apply at hfind
    dsimp only at hfind
    split at hfind
    · next cpus a' hgrant =>
      obtain ⟨host, hhost, -, -, hhosts⟩ := allocate_cases hgrant
      rw [hhosts] at hfind
      split at hfind
      · injection hfind with heq
        rw [← heq]
        exact (hsound ip' host hhost).grant hhost hgrant
      · exact (hsound ip h hfind).frame fun _ hclears => hclears
    · exact (hsound ip h hfind).frame fun _ hclears => hclears
  | release ip' tag =>
    unfold apply release at hfind
    dsimp only at hfind
    split at hfind
    · next hnone =>
      refine (hsound ip h hfind).frame fun _ hclears => ?_
      rw [hclears.1, ip_of_find hfind, hfind] at hnone
      cases hnone
    · next host hhost =>
      dsimp only at hfind
      rw [Table.find?_put] at hfind
      split at hfind
      · injection hfind with heq
        rw [← heq]
        refine (hsound ip' host hhost).shrink _ List.filter_sublist fun held hheld hclears => ?_
        exact (Table.mem_erase.mp hheld).2 hclears.2.symm
      · next hip =>
        refine (hsound ip h hfind).frame fun _ hclears => hip ?_
        rw [ip_of_find hhost, ← ip_of_find hfind]
        exact hclears.1.symm

theorem sound_after (hcalls : ∀ call ∈ calls, call.WellFormed) (ip : String) (h : HostCpus)
    (hfind : (after calls).hosts.find? ip = some h) : HostSound calls h := by
  induction calls using List.reverseRecOn generalizing ip h with
  | nil => cases hfind
  | append_singleton calls call ih =>
    refine sound_snoc (fun ip h => ih ?_ ip h) (hcalls call (by simp)) ip h hfind
    exact fun c hc => hcalls c (List.mem_append_left _ hc)

/-- **A CPU is held once**: after any calls, the allocations of a host are
disjoint lists of distinct CPUs of it, of the length and the node their calls
asked for; a further call is granted exactly when the tag is new, the node exists
and has enough free CPUs, and one that is not changes nothing. -/
theorem allocations_sound (calls : List CpuCall) (hcalls : ∀ call ∈ calls, call.WellFormed) :
    (∀ ip h, (after calls).hosts.find? ip = some h → HostSound calls h) ∧
      (∀ ip tag count p, (∃ granted, (after calls).allocate ip tag count p = .ok granted) ↔
        ∃ h, (after calls).hosts.find? ip = some h ∧ h.allocations.find? tag = none ∧
          (∀ id ∈ p.requireNuma, id ∈ h.numaNodes.map Prod.fst) ∧
          count ≤ (h.freeCpus p.requireNuma).card) ∧
      ∀ ip tag count p error, (after calls).allocate ip tag count p = .error error →
        after (calls ++ [.allocate ip tag count p]) = after calls := by
  refine ⟨sound_after hcalls, fun ip tag count p => ⟨?_, ?_⟩, fun ip tag count p error hfail => ?_⟩
  · rintro ⟨⟨cpus, a'⟩, hgrant⟩
    obtain ⟨h, hfind, hnew, hchoose, -⟩ := allocate_cases hgrant
    have hcaches := (sound_after hcalls ip h hfind).caches
    exact ⟨h, hfind, hnew, (HostCpus.choose_ok_iff hcaches).mp ⟨cpus, hchoose⟩⟩
  · rintro ⟨h, hfind, hnew, hroom⟩
    have hcaches := (sound_after hcalls ip h hfind).caches
    obtain ⟨cpus, hchoose⟩ := (HostCpus.choose_ok_iff hcaches).mpr hroom
    unfold allocate
    rw [hfind]
    dsimp only
    rw [hnew, hchoose]
    exact ⟨_, rfl⟩
  · rw [after_snoc, apply, hfail]

section Example

def server : AllocationTag := ⟨"task", "server"⟩
def generator : AllocationTag := ⟨"task", "benchmark"⟩

/-- Two caches of three CPUs; the generators keep off the server's. -/
def threeCalls : List CpuCall :=
  [.registerHost "10.0.0.1" [0, 1, 2, 3, 4, 5] [] [(0, [0, 1, 2]), (1, [3, 4, 5])] none,
    .allocate "10.0.0.1" server 2 { minimizeCacheGroups := true },
    .allocate "10.0.0.1" generator 3 { avoidTags := [server], preferDifferentCache := true }]

theorem allocations_sound_three :
    (after threeCalls).allocation? "10.0.0.1" server = some [0, 1] ∧
      (after threeCalls).allocation? "10.0.0.1" generator = some [3, 4, 5] ∧
      (∀ ip h, (after threeCalls).hosts.find? ip = some h → HostSound threeCalls h) := by
  have hcalls : ∀ call ∈ threeCalls, call.WellFormed := by
    simp [threeCalls, CpuCall.WellFormed, List.subset_def]
    grind
  exact ⟨by decide +kernel, by decide +kernel, (allocations_sound threeCalls hcalls).1⟩

end Example

end CpuAllocator

end Conductress
