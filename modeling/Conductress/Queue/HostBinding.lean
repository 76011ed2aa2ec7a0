import Conductress.Queue.Topology
import Mathlib.Data.List.Pairwise

/-!
# Binding a topology to the configured servers

`bind_hosts` pins every instance on a slot above 0 to the server of that slot, and
the topology is checked again. An instance on slot 0 stays unpinned: it runs on the
default host of its group, the first server.

The check compares a slot with a slot and an address with an address. What it does
not see is the address of the default host: `endpoints_distinct_iff`.
-/

namespace Conductress

open Lib

namespace InstanceSpec

/-- `servers[slot]`, for a slot that is below their number. -/
def serverAt (servers : List ServerInfo) : Json → Except PyError ServerInfo
  | .int n => (servers[n.toNat]?).elim (.error (.runtimeError "list index out of range")) .ok
  | .bool b =>
    (servers[if b then 1 else 0]?).elim (.error (.runtimeError "list index out of range")) .ok
  | _ => .error (.typeError "list indices must be integers or slices")

/-- The turn of an instance in `bind_hosts`. -/
def bind (servers : List ServerInfo) (i : InstanceSpec) : Except PyError InstanceSpec :=
  if i.host = .unset then do
    if ← Json.pyLt (.int 0) i.hostSlot then
      if ← Json.pyLe (.int servers.length) i.hostSlot then
        throw (.runtimeError
          s!"topology needs a host slot but only {servers.length} server(s) are configured")
      let server ← serverAt servers i.hostSlot
      let bound := { i with host := .server server, hostSlot := .int 0 }
      bound.check
      pure bound
    else pure i
  else pure i

/-- `resolved_host`. -/
def resolvedHost (default : ServerInfo) (i : InstanceSpec) : Except PyError ServerInfo :=
  match i.host with
  | .server info => .ok info
  -- no instance of a topology has one
  | .other _ => .error (.attributeError "object has no attribute 'ip'")
  | .unset =>
    if ¬ Json.pyEq i.hostSlot (.int 0) then
      .error (.runtimeError "host_slot is not bound to a host; call TopologySpec.bind_hosts first")
    else .ok default

/-- `(resolved_host(default).ip, port)`. -/
def resolvedEndpoint (default : ServerInfo) (i : InstanceSpec) :
    Except PyError (Json.HashKey × Json.HashKey) := do
  let host ← i.resolvedHost default
  let ip ← Json.hashKey host.ip
  let port ← Json.hashKey i.port
  pure (ip, port)

end InstanceSpec

namespace TopologySpec

/-- `bind_hosts`. -/
def bindHosts (t : TopologySpec) (servers : List ServerInfo) : Except PyError TopologySpec := do
  let bound ← t.instances.mapM (InstanceSpec.bind servers)
  ofInstances bound

/-- No two instances run at one address and port. -/
def DistinctEndpoints (default : ServerInfo) (t : TopologySpec) : Prop :=
  t.instances.Pairwise fun i j =>
    ∀ endpoint, i.resolvedEndpoint default = .ok endpoint → j.resolvedEndpoint default ≠ .ok endpoint

end TopologySpec

namespace InstanceSpec

/-- The instance is on slot 0, and stays there. -/
def Unpinned (i : InstanceSpec) : Prop :=
  i.host = .unset ∧ Json.pyEq i.hostSlot (.int 0) = true

/-- The instance is pinned to an address, by its host or by its slot. -/
def PinnedTo (servers : List ServerInfo) (ip : Json) (i : InstanceSpec) : Prop :=
  ∃ server key, Json.hashKey server.ip = .ok key ∧ Json.hashKey ip = .ok key ∧
    (i.host = .server server ∨
      i.host = .unset ∧ Json.pyLt (.int 0) i.hostSlot = .ok true ∧
        serverAt servers i.hostSlot = .ok server)

/-! ## One instance -/

variable {servers : List ServerInfo} {default : ServerInfo} {i b : InstanceSpec}

/-- An instance stays as it is, or is pinned to the server of its slot. -/
theorem bind_ok (h : bind servers i = .ok b) :
    (b = i ∧ (i.host = .unset → Json.pyLt (.int 0) i.hostSlot = .ok false)) ∨
      ∃ server, (i.host = .unset ∧ Json.pyLt (.int 0) i.hostSlot = .ok true ∧
        serverAt servers i.hostSlot = .ok server) ∧
        b = { i with host := .server server, hostSlot := .int 0 } := by
  unfold bind at h
  -- only an instance without a host, on a slot above 0, is given one
  by_cases hhost : i.host = .unset
  · rw [if_pos hhost] at h
    obtain ⟨above, habove, h⟩ := except_bind_ok.mp h
    cases above with
    | false =>
      cases h
      exact .inl ⟨rfl, fun _ => habove⟩
    | true =>
      rw [if_pos rfl] at h
      obtain ⟨outside, -, h⟩ := except_bind_ok.mp h
      cases outside with
      | true => cases h
      | false =>
        obtain ⟨server, hserver, h⟩ := except_bind_ok.mp h
        obtain ⟨_, _, h⟩ := except_bind_ok.mp h
        cases h
        exact .inr ⟨server, ⟨hhost, habove, hserver⟩, rfl⟩
  · rw [if_neg hhost] at h
    cases h
    exact .inl ⟨rfl, fun hunset => absurd hunset hhost⟩

theorem not_lt_of_eq {x y : PyFloat} (h : x.eq y = true) : y.lt x = false := by
  obtain ⟨rfl, -⟩ := of_decide_eq_true h
  cases x with
  | finite value => simp [PyFloat.lt]
  | inf negative => cases negative <;> rfl
  | nan => rfl

/-- Zero is not above zero. -/
theorem pyEq_zero_of_pyLt {slot : Json} (h : Json.pyLt (.int 0) slot = .ok true) :
    ¬ Json.pyEq slot (.int 0) = true := by
  have hnumber : ∀ x, slot.number? = some x → PyFloat.lt (.finite (0 : ℤ)) x = true →
      ¬ Json.pyEq slot (.int 0) = true := by
    intro x hx hlt heq
    rw [Json.pyEq, hx] at heq
    rw [not_lt_of_eq heq] at hlt
    exact Bool.false_ne_true hlt
  cases slot with
  | null => cases h
  | bool b => exact hnumber _ rfl (by simpa [Json.pyLt, Json.compare, Json.number?] using h)
  | int n => exact hnumber _ rfl (by simpa [Json.pyLt, Json.compare, Json.number?] using h)
  | float x => exact hnumber _ rfl (by simpa [Json.pyLt, Json.compare, Json.number?] using h)
  | str s => cases h
  | arr items => cases h
  | obj fields => cases h

/-- A slot that is zero has the key of zero. -/
theorem hashKey_of_pyEq_zero {slot : Json} (h : Json.pyEq slot (.int 0) = true) :
    Json.hashKey slot = .ok (.number (.finite 0)) := by
  have hnumber : ∀ x, slot.number? = some x → Json.hashKey slot = .ok (.number x) →
      Json.hashKey slot = .ok (.number (.finite 0)) := by
    intro x hx hkey
    rw [Json.pyEq, hx] at h
    obtain ⟨rfl, -⟩ := of_decide_eq_true h
    exact hkey
  cases slot with
  | null => simp [Json.pyEq, Json.number?, Json.plain] at h
  | bool b => exact hnumber _ rfl rfl
  | int n => exact hnumber _ rfl rfl
  | float x => exact hnumber _ rfl rfl
  | str s => simp [Json.pyEq, Json.number?, Json.plain] at h
  | arr items => simp [Json.pyEq, Json.number?, Json.plain] at h
  | obj fields => simp [Json.pyEq, Json.number?, Json.plain] at h

/-- Binding moves no port, unpins nothing and pins what is on a slot above 0. -/
theorem bind_spec (h : bind servers i = .ok b) :
    b.port = i.port ∧ (b.Unpinned ↔ i.Unpinned) ∧
      ∀ server, b.host = .server server ↔ (i.host = .server server ∨
        i.host = .unset ∧ Json.pyLt (.int 0) i.hostSlot = .ok true ∧
          serverAt servers i.hostSlot = .ok server) := by
  rcases bind_ok h with ⟨rfl, hslot⟩ | ⟨server, ⟨hhost, habove, hserver⟩, rfl⟩
  · refine ⟨rfl, Iff.rfl, fun server => ⟨.inl, ?_⟩⟩
    rintro (hhost | ⟨hhost, habove, -⟩)
    · exact hhost
    · rw [hslot hhost] at habove
      cases habove
  · refine ⟨rfl, iff_of_false (fun hunpinned => nomatch hunpinned.1)
      fun hunpinned => pyEq_zero_of_pyLt habove hunpinned.2, fun other => ?_⟩
    rw [hhost, hserver, InstanceHost.server.injEq, Except.ok.injEq]
    constructor
    · rintro rfl
      exact .inr ⟨rfl, habove, rfl⟩
    · rintro (hother | ⟨-, -, rfl⟩)
      · cases hother
      · rfl

/-- Where an instance runs: on the server it is pinned to, or on the default host. -/
theorem resolvedEndpoint_ok {endpoint : Json.HashKey × Json.HashKey} :
    i.resolvedEndpoint default = .ok endpoint ↔
      Json.hashKey i.port = .ok endpoint.2 ∧
        ((∃ server, i.host = .server server ∧ Json.hashKey server.ip = .ok endpoint.1) ∨
          i.Unpinned ∧ Json.hashKey default.ip = .ok endpoint.1) := by
  have hshape : ∀ host, (do
      let ip ← Json.hashKey (ServerInfo.ip host)
      let port ← Json.hashKey i.port
      pure (ip, port) : Except PyError (Json.HashKey × Json.HashKey)) = .ok endpoint ↔
        Json.hashKey i.port = .ok endpoint.2 ∧ Json.hashKey host.ip = .ok endpoint.1 := by
    intro host
    simp only [except_bind_ok, except_pure_ok]
    constructor
    · rintro ⟨ip, hip, port, hport, rfl⟩
      exact ⟨hport, hip⟩
    · rintro ⟨hport, hip⟩
      exact ⟨_, hip, _, hport, rfl⟩
  unfold resolvedEndpoint resolvedHost Unpinned
  rcases hhost : i.host with _ | server | value
  · by_cases hslot : Json.pyEq i.hostSlot (.int 0) = true
    · simp only [hslot, not_true_eq_false, if_false]
      exact (hshape default).trans (by simp)
    · simp only [hslot]
      refine iff_of_false (fun h => ?_) (by simp)
      cases h
  · exact (hshape server).trans (by simp)
  · refine iff_of_false (fun h => ?_) (by simp)
    cases h

/-- Two instances that run at one address and port have one key, unless one of them
is pinned to the default host and the other is on it. -/
theorem endpoint_eq_of_resolved {j : InstanceSpec} {place : Json.HashKey × Json.HashKey}
    (hi : i.resolvedEndpoint default = .ok place) (hj : j.resolvedEndpoint default = .ok place)
    (hpinned : i.Unpinned ↔ j.Unpinned) : i.endpoint = j.endpoint := by
  rw [resolvedEndpoint_ok] at hi hj
  obtain ⟨hporti, hi⟩ := hi
  obtain ⟨hportj, hj⟩ := hj
  have hkey : i.hostKey = j.hostKey := by
    -- both are pinned, to one address, or both have the key of slot 0
    rcases hi with ⟨server, hserver, hip⟩ | ⟨hunpinned, -⟩
    · rcases hj with ⟨other, hother, hip'⟩ | ⟨hunpinned', -⟩
      · rw [hostKey, hostKey, hserver, hother]
        dsimp only
        rw [hip, hip']
      · have hunset := (hpinned.mpr hunpinned').1
        rw [hserver] at hunset
        cases hunset
    · have hunpinned' := hpinned.mp hunpinned
      rw [hostKey, hostKey, hunpinned.1, hunpinned'.1]
      dsimp only
      rw [hashKey_of_pyEq_zero hunpinned.2, hashKey_of_pyEq_zero hunpinned'.2]
  rw [endpoint, endpoint, hkey, hporti, hportj]

/-- An unpinned instance at the place of one that is pinned: that one is pinned to
the default host. -/
theorem pinnedTo_of_resolved {j bj : InstanceSpec} {place : Json.HashKey × Json.HashKey}
    (hbi : i.bind servers = .ok b) (hbj : j.bind servers = .ok bj)
    (hi : b.resolvedEndpoint default = .ok place) (hj : bj.resolvedEndpoint default = .ok place)
    (hunpinned : b.Unpinned) (hpinned : ¬ bj.Unpinned) :
    i.Unpinned ∧ j.PinnedTo servers default.ip ∧ Json.hashKey i.port = Json.hashKey j.port := by
  obtain ⟨hport, hslot, -⟩ := bind_spec hbi
  obtain ⟨hport', -, hhost⟩ := bind_spec hbj
  obtain ⟨hkey, hi⟩ := resolvedEndpoint_ok.mp hi
  obtain ⟨hkey', hj⟩ := resolvedEndpoint_ok.mp hj
  have hdefault : Json.hashKey default.ip = .ok place.1 := by
    rcases hi with ⟨server, hserver, -⟩ | ⟨-, hdefault⟩
    · have hunset := hunpinned.1
      rw [hserver] at hunset
      cases hunset
    · exact hdefault
  obtain ⟨server, hserver, hip⟩ := hj.resolve_right fun h => hpinned h.1
  refine ⟨hslot.mp hunpinned, ⟨server, place.1, hip, hdefault, (hhost server).mp hserver⟩, ?_⟩
  rw [← hport, ← hport', hkey, hkey']

end InstanceSpec

/-! ## A topology -/

namespace TopologySpec

theorem ofInstances_ok {instances : List InstanceSpec} {t : TopologySpec}
    (h : ofInstances instances = .ok t) : t.instances = instances := by
  unfold ofInstances at h
  split at h
  · cases h
    rfl
  · cases h

/-- The endpoints of a topology are different. -/
theorem pairwise_endpoint (t : TopologySpec) :
    t.instances.Pairwise fun i j => i.endpoint ≠ j.endpoint := by
  obtain ⟨_, _, hrest⟩ := except_bind_ok.mp t.valid
  obtain ⟨_, _, hdistinct⟩ := except_bind_ok.mp hrest
  obtain ⟨endpoints, hendpoints, hdistinct⟩ := except_bind_ok.mp hdistinct
  have hnodup : endpoints.Nodup := by
    by_contra hnot
    rw [if_neg hnot] at hdistinct
    cases hdistinct
  have hmap := hnodup.map (f := Except.ok (ε := PyError)) fun _ _ => Except.ok.inj
  rw [← except_mapM_eq_map.mp hendpoints] at hmap
  exact List.pairwise_map.mp hmap

theorem exists_portKey (t : TopologySpec) {i : InstanceSpec} (hi : i ∈ t.instances) :
    ∃ key, Json.hashKey i.port = .ok key := by
  obtain ⟨_, _, hrest⟩ := except_bind_ok.mp t.valid
  obtain ⟨_, _, hdistinct⟩ := except_bind_ok.mp hrest
  obtain ⟨endpoints, hendpoints, -⟩ := except_bind_ok.mp hdistinct
  obtain ⟨endpoint, hendpoint⟩ := except_mapM_ok.mp ⟨endpoints, hendpoints⟩ i hi
  obtain ⟨_, _, hport⟩ := except_bind_ok.mp hendpoint
  obtain ⟨key, hkey, -⟩ := except_bind_ok.mp hport
  exact ⟨key, hkey⟩

/-- **When the instances of a bound topology run at different places**, with the
first server as the default host: exactly when none of those on slot 0 has the port
of one that is pinned to the first server's address. -/
theorem endpoints_distinct_iff {t bound : TopologySpec} {default : ServerInfo}
    {rest : List ServerInfo} (h : t.bindHosts (default :: rest) = .ok bound) :
    bound.DistinctEndpoints default ↔
      ¬ ∃ i ∈ t.instances, ∃ j ∈ t.instances, i.Unpinned ∧
        j.PinnedTo (default :: rest) default.ip ∧ Json.hashKey i.port = Json.hashKey j.port := by
  obtain ⟨instances, hmapM, hof⟩ := except_bind_ok.mp h
  obtain rfl := ofInstances_ok hof
  have hbound : ∀ b, b ∈ bound.instances ↔ ∃ i ∈ t.instances, i.bind (default :: rest) = .ok b :=
    fun b => except_mem_mapM hmapM
  constructor
  -- the two clash: the check saw a slot in the one and an address in the other
  · rintro hdistinct ⟨i, hi, j, hj, hunpinned, ⟨server, key, hserver, hdefault, hpinned⟩, hport⟩
    obtain ⟨bi, hbi⟩ := except_mapM_ok.mp ⟨_, hmapM⟩ i hi
    obtain ⟨bj, hbj⟩ := except_mapM_ok.mp ⟨_, hmapM⟩ j hj
    obtain ⟨hporti, hunpinnedi, -⟩ := InstanceSpec.bind_spec hbi
    obtain ⟨hportj, -, hhostj⟩ := InstanceSpec.bind_spec hbj
    have hmemi := (hbound bi).mpr ⟨i, hi, hbi⟩
    have hmemj := (hbound bj).mpr ⟨j, hj, hbj⟩
    have hhosti := (hunpinnedi.mpr hunpinned).1
    obtain ⟨portKey, hkey⟩ := bound.exists_portKey hmemi
    have hne : bi ≠ bj := by
      rintro rfl
      rw [(hhostj server).mpr hpinned] at hhosti
      cases hhosti
    have hsymm : Std.Symm fun i j : InstanceSpec => ∀ place,
        i.resolvedEndpoint default = .ok place → j.resolvedEndpoint default ≠ .ok place :=
      ⟨fun _ _ hapart place hj hi => hapart place hi hj⟩
    have hapart := List.Pairwise.forall hdistinct hmemi hmemj hne (key, portKey)
    refine hapart (InstanceSpec.resolvedEndpoint_ok.mpr
      ⟨hkey, .inr ⟨hunpinnedi.mpr hunpinned, hdefault⟩⟩) (InstanceSpec.resolvedEndpoint_ok.mpr
      ⟨?_, .inl ⟨server, (hhostj server).mpr hpinned, hserver⟩⟩)
    rw [hportj, ← hport, ← hporti]
    exact hkey
  · intro hnone
    -- the check keeps the rest apart, by slot or by address
    refine bound.pairwise_endpoint.imp_of_mem fun {bi bj} hmemi hmemj hne place hi hj => ?_
    obtain ⟨i, hi', hbi⟩ := (hbound bi).mp hmemi
    obtain ⟨j, hj', hbj⟩ := (hbound bj).mp hmemj
    by_cases hpinned : bi.Unpinned ↔ bj.Unpinned
    · exact hne (InstanceSpec.endpoint_eq_of_resolved hi hj hpinned)
    · by_cases hunpinned : bi.Unpinned
      · have hother : ¬ bj.Unpinned := fun h => hpinned (iff_of_true hunpinned h)
        exact hnone ⟨i, hi', j, hj',
          InstanceSpec.pinnedTo_of_resolved hbi hbj hi hj hunpinned hother⟩
      · have hother : bj.Unpinned := by tauto
        exact hnone ⟨j, hj', i, hi',
          InstanceSpec.pinnedTo_of_resolved hbj hbi hj hi hother hunpinned⟩

/-- A server without a name. -/
def serverOf (ip : String) : ServerInfo where
  ip       := .str ip
  username := .str ""
  name     := .str ""
  disabled := .bool false

/-- A primary on the default host and a replica on another server. -/
def twoHosts : TopologySpec where
  instances := [legacyInstance "primary" 0, legacyInstance "replica" 1]
  valid     := by decide

/-- The same with the replica pinned to the second server. -/
def twoHostsBound : TopologySpec where
  instances := [legacyInstance "primary" 0,
    { legacyInstance "replica" 0 with host := .server (serverOf "10.0.0.2") }]
  valid     := by decide

/-- A replica that is pinned to the first server. -/
def pinnedToFirst : TopologySpec where
  instances := [legacyInstance "primary" 0,
    { legacyInstance "replica" 0 with host := .server (serverOf "10.0.0.1") }]
  valid     := by decide

/-- Two servers for a primary and a replica. -/
theorem two_hosts_distinct : twoHostsBound.DistinctEndpoints (serverOf "10.0.0.1") := by
  have hbind : twoHosts.bindHosts [serverOf "10.0.0.1", serverOf "10.0.0.2"] = .ok twoHostsBound :=
    except_bind_ok.mpr ⟨twoHostsBound.instances, by decide, ofInstances_instances _⟩
  refine (endpoints_distinct_iff hbind).mpr ?_
  rintro ⟨i, -, j, hj, -, ⟨server, key, hserver, hdefault, hpinned⟩, -⟩
  cases hdefault
  rcases List.mem_pair.mp hj with rfl | rfl
  · rcases hpinned with hpinned | ⟨-, habove, -⟩
    · cases hpinned
    · revert habove
      decide
  · rcases hpinned with hpinned | ⟨-, -, hpinned⟩
    · cases hpinned
    · cases hpinned
      revert hserver
      decide

/-- The replica that is pinned to the first server runs where the primary does. -/
theorem pinned_to_first_not_distinct :
    fromDict pinnedToFirst.toDict = .ok pinnedToFirst ∧
      pinnedToFirst.bindHosts [serverOf "10.0.0.1"] = .ok pinnedToFirst ∧
      ¬ pinnedToFirst.DistinctEndpoints (serverOf "10.0.0.1") := by
  refine ⟨fromDict_toDict _, except_bind_ok.mpr ⟨pinnedToFirst.instances, by decide,
    ofInstances_instances _⟩, fun h => ?_⟩
  exact List.rel_of_pairwise_cons h (List.mem_singleton_self _)
    (.text "10.0.0.1", .number (.finite 6379)) rfl rfl

end TopologySpec

end Conductress
