import Conductress.Base.Compare
import Conductress.Lib.Except

/-!
# Server topologies in a task document

`TopologySpec`, its dictionary and back. Annotations are not checked when a
dataclass is built, so the values of an instance are whatever JSON values it was
given that pass its own checks; a topology is a list of instances that passes
them all (`TopologySpec.valid`), and what `to_dict` writes loads as the same
topology (`TopologySpec.fromDict_toDict`).
-/

namespace Conductress

open Lib

/-! ## Instances -/

/-- `ServerInfo`. -/
structure ServerInfo where
  ip       : Json
  username : Json
  name     : Json
  disabled : Json
  deriving DecidableEq

/-- The `host` of an instance. Only a dictionary is made a `ServerInfo`. -/
inductive InstanceHost where
  | unset
  | server (info : ServerInfo)
  | other (value : Json)
  deriving DecidableEq

structure InstanceSpec where
  role           : Json
  port           : Json
  ioThreads      : Json
  serverArgs     : Json
  cpuOverride    : Json
  clusterEnabled : Json
  host           : InstanceHost
  hostSlot       : Json
  ownDir         : Json
  deriving DecidableEq

namespace ServerInfo

def fieldNames : List String := ["ip", "username", "name", "disabled"]

/-- `asdict`. -/
def toDict (info : ServerInfo) : Json :=
  .obj [("ip", info.ip), ("username", info.username), ("name", info.name),
    ("disabled", info.disabled)]

/-- `ServerInfo(**host)`. -/
def ofKeywords (fields : List (String × Json)) : Except PyError ServerInfo :=
  if ¬ fields.all fun f => fieldNames.contains f.1 then
    .error (.typeError "ServerInfo.__init__() got an unexpected keyword argument")
  else
    match Json.lookup fields "ip" with
    | none => .error (.typeError "ServerInfo.__init__() missing 1 required positional argument: 'ip'")
    | some ip => .ok {
        ip
        username := (Json.lookup fields "username").getD (.str "")
        name     := (Json.lookup fields "name").getD (.str "")
        disabled := (Json.lookup fields "disabled").getD (.bool false) }

end ServerInfo

namespace InstanceSpec

def validRoles : List String := ["primary", "replica"]

def clusterBusPortOffset : Int := 10000
def maxInstancePort : Int := 65535 - clusterBusPortOffset

/-- A comparison that has to hold. -/
def require (test : Except PyError Bool) (message : String) : Except PyError Unit := do
  if ← test then pure () else throw (.valueError message)

/-- `1024 <= self.port <= MAX_INSTANCE_PORT`. -/
def portInRange (port : Json) : Except PyError Bool := do
  if ← Json.pyLe (.int 1024) port then Json.pyLe port (.int maxInstancePort) else pure false

/-- `self.io_threads is None or not self.io_threads < 1`. -/
def threadsInRange : Json → Except PyError Bool
  | .null => .ok true
  | ioThreads => (Json.pyLt ioThreads (.int 1)).map (! ·)

/-- `__post_init__`. -/
def check (i : InstanceSpec) : Except PyError Unit := do
  require (.ok (Json.inNames validRoles i.role)) "role must be one of ('primary', 'replica')"
  require (portInRange i.port) "port must be in 1024..55535 (cluster bus needs port+10000)"
  require (threadsInRange i.ioThreads) "io_threads must be >= 1"
  require ((Json.pyLt i.hostSlot (.int 0)).map (! ·)) "host_slot must be >= 0"

def isRole (i : InstanceSpec) (role : String) : Bool := decide (i.role = .str role)

/-- `host_key`, as far as it is hashed. -/
def hostKey (i : InstanceSpec) : Except PyError (Bool × Json.HashKey) :=
  match i.host with
  | .unset => (Json.hashKey i.hostSlot).map fun slot => (false, slot)
  | .server info => (Json.hashKey info.ip).map fun ip => (true, ip)
  | .other _ => .error (.attributeError "object has no attribute 'ip'")

/-- `(i.host_key, i.port)`. -/
def endpoint (i : InstanceSpec) : Except PyError ((Bool × Json.HashKey) × Json.HashKey) := do
  let host ← i.hostKey
  let port ← Json.hashKey i.port
  pure (host, port)

def hostDict : InstanceHost → Json
  | .unset => .null
  | .server info => info.toDict
  | .other value => value

/-- `asdict`. -/
def toDict (i : InstanceSpec) : Json :=
  .obj [("role", i.role), ("port", i.port), ("io_threads", i.ioThreads),
    ("server_args", i.serverArgs), ("cpu_override", i.cpuOverride),
    ("cluster_enabled", i.clusterEnabled), ("host", hostDict i.host), ("host_slot", i.hostSlot),
    ("own_dir", i.ownDir)]

def fieldNames : List String :=
  ["role", "port", "io_threads", "server_args", "cpu_override", "cluster_enabled", "host",
    "host_slot", "own_dir"]

/-- One element of the argument of `dict(..)`: two items, the first of them a key. -/
def pairOf : Json → Except PyError (Json × Json)
  | .arr [key, value] => (Json.hashKey key).map fun _ => (key, value)
  | .obj [(key, _), (value, _)] => .ok (.str key, .str value)
  | .arr _ | .obj _ =>
    .error (.valueError "dictionary update sequence element has the wrong length; 2 is required")
  | .str s =>
    match s.toList with
    | [key, value] => .ok (.str (String.singleton key), .str (String.singleton value))
    | _ =>
      .error (.valueError "dictionary update sequence element has the wrong length; 2 is required")
  | _ => .error (.typeError "cannot convert dictionary update sequence element to a sequence")

/-- A key that can be a keyword. -/
def isKeyword : Json → Bool
  | .str _ => true
  | _ => false

/-- `fields[key] = value`, as far as keywords go: other keys are kept apart. -/
def setItem (fields : List (String × Json)) : Json × Json → List (String × Json)
  | (.str key, value) => Json.setField fields key value
  | _ => fields

/-- `dict(data)`: the items a text names, and whether texts name all of them. -/
def dictOf : Json → Except PyError (List (String × Json) × Bool)
  | .obj fields => .ok (fields, true)
  | .arr items => (items.mapM pairOf).map fun pairs =>
      (pairs.foldl setItem [], pairs.all fun pair => isKeyword pair.1)
  | .str "" => .ok ([], true)
  | .str _ => .error (.valueError "dictionary update sequence element #0 has length 1; 2 is required")
  | _ => .error (.typeError "object is not iterable")

/-- `fields.get("host")`, a dictionary made a `ServerInfo`. -/
def hostOf (fields : List (String × Json)) : Except PyError InstanceHost :=
  match Json.getD fields "host" with
  | .null => .ok .unset
  | .obj host => (ServerInfo.ofKeywords host).map .server
  | value => .ok (.other value)

/-- `cls(**fields)`, apart from `__post_init__`. -/
def ofKeywords (fields : List (String × Json)) (host : InstanceHost) :
    Except PyError InstanceSpec :=
  if ¬ fields.all fun f => fieldNames.contains f.1 then
    .error (.typeError "InstanceSpec.__init__() got an unexpected keyword argument")
  else
    match Json.lookup fields "role", Json.lookup fields "port" with
    | some role, some port => .ok {
        role, port, host
        ioThreads      := (Json.lookup fields "io_threads").getD .null
        serverArgs     := (Json.lookup fields "server_args").getD (.str "")
        cpuOverride    := (Json.lookup fields "cpu_override").getD (.str "")
        clusterEnabled := (Json.lookup fields "cluster_enabled").getD (.bool false)
        hostSlot       := (Json.lookup fields "host_slot").getD (.int 0)
        ownDir         := (Json.lookup fields "own_dir").getD (.bool true) }
    | _, _ => .error (.typeError "InstanceSpec.__init__() missing required positional arguments")

/-- `from_dict`. -/
def fromDict (data : Json) : Except PyError InstanceSpec := do
  let (fields, named) ← dictOf data
  let host ← hostOf fields
  if ¬ named then throw (.typeError "keywords must be strings")
  let i ← ofKeywords fields host
  i.check
  pure i

end InstanceSpec

/-! ## Topologies -/

namespace TopologySpec

/-- `len(primaries) != 1`. -/
def onePrimary (instances : List InstanceSpec) : Except PyError Unit :=
  if (instances.filter (·.isRole "primary")).length = 1 then .ok ()
  else .error (.valueError "topology needs exactly one primary")

/-- `len(set(endpoints)) != len(endpoints)`. -/
def distinctEndpoints (instances : List InstanceSpec) : Except PyError Unit := do
  let endpoints ← instances.mapM InstanceSpec.endpoint
  if endpoints.Nodup then pure () else throw (.valueError "instance ports must be unique per host")

/-- `__post_init__`, after that of every instance. -/
def check (instances : List InstanceSpec) : Except PyError Unit := do
  instances.forM InstanceSpec.check
  onePrimary instances
  distinctEndpoints instances

end TopologySpec

/-- A topology that could be built. -/
structure TopologySpec where
  instances : List InstanceSpec
  valid     : TopologySpec.check instances = .ok ()

namespace TopologySpec

/-- `TopologySpec(instances=..)`. -/
def ofInstances (instances : List InstanceSpec) : Except PyError TopologySpec :=
  match h : check instances with
  | .ok () => .ok ⟨instances, h⟩
  | .error e => .error e

theorem ofInstances_instances (t : TopologySpec) : ofInstances t.instances = .ok t := by
  unfold ofInstances
  split
  · rfl
  · next e he =>
    rw [t.valid] at he
    cases he

/-- `to_dict`, and `asdict`. -/
def toDict (t : TopologySpec) : Json :=
  .obj [("instances", .arr (t.instances.map InstanceSpec.toDict))]

/-- `from_dict` of a JSON value. -/
def fromDict : Json → Except PyError TopologySpec
  | .obj fields =>
    match Json.lookup fields "instances" with
    | some (.arr items) => do
      let instances ← items.mapM InstanceSpec.fromDict
      ofInstances instances
    | _ => .error (.valueError "topology must be an object with an 'instances' list")
  | _ => .error (.valueError "topology must be an object with an 'instances' list")

/-- The primary of the legacy layouts. -/
def legacyInstance (role : String) (slot : Int) : InstanceSpec where
  role           := .str role
  port           := .int 6379
  ioThreads      := .null
  serverArgs     := .str ""
  cpuOverride    := .str ""
  clusterEnabled := .bool false
  host           := .unset
  hostSlot       := .int slot
  ownDir         := .bool false

/-- `replication_hosts`; no replicas is `standalone()`. -/
def replicationHosts (replicas : Int) : Except PyError TopologySpec :=
  ofInstances (legacyInstance "primary" 0 ::
    (List.range replicas.toNat).map fun n => legacyInstance "replica" (n + 1))

/-- `replicas`. -/
def replicas (t : TopologySpec) : List InstanceSpec := t.instances.filter (·.isRole "replica")

/-! ### There and back -/

/-- The host of an instance that could be built is a server or unset. -/
theorem hostOf_toDict {i : InstanceSpec} (h : ∀ value, i.host ≠ .other value)
    {fields : List (String × Json)}
    (hget : Json.getD fields "host" = InstanceSpec.hostDict i.host) :
    InstanceSpec.hostOf fields = .ok i.host := by
  rw [InstanceSpec.hostOf, hget]
  rcases hhost : i.host with _ | info | value
  · rfl
  · rcases info with ⟨ip, username, name, disabled⟩
    rfl
  · exact absurd hhost (h value)

/-- What `asdict` writes of an instance loads as the instance. -/
theorem instance_fromDict_toDict {i : InstanceSpec} (hcheck : i.check = .ok ())
    (hhost : ∀ value, i.host ≠ .other value) : InstanceSpec.fromDict i.toDict = .ok i := by
  have hof : InstanceSpec.hostOf [("role", i.role), ("port", i.port), ("io_threads", i.ioThreads),
      ("server_args", i.serverArgs), ("cpu_override", i.cpuOverride),
      ("cluster_enabled", i.clusterEnabled), ("host", InstanceSpec.hostDict i.host),
      ("host_slot", i.hostSlot), ("own_dir", i.ownDir)] = .ok i.host :=
    hostOf_toDict hhost (by simp [Json.getD, Json.lookup])
  have hbuilt : InstanceSpec.ofKeywords [("role", i.role), ("port", i.port),
      ("io_threads", i.ioThreads), ("server_args", i.serverArgs), ("cpu_override", i.cpuOverride),
      ("cluster_enabled", i.clusterEnabled), ("host", InstanceSpec.hostDict i.host),
      ("host_slot", i.hostSlot), ("own_dir", i.ownDir)] i.host = .ok i := by
    simp [InstanceSpec.ofKeywords, InstanceSpec.fieldNames, Json.lookup]
  exact except_bind_ok.mpr ⟨_, rfl, except_bind_ok.mpr ⟨_, hof,
    except_bind_ok.mpr ⟨_, hbuilt, except_bind_ok.mpr ⟨_, hcheck, rfl⟩⟩⟩⟩

/-- Every instance of a topology passed its own checks, and its host is a server
or unset: the key of another host cannot be read. -/
theorem mem_instances (t : TopologySpec) {i : InstanceSpec} (hi : i ∈ t.instances) :
    i.check = .ok () ∧ ∀ value, i.host ≠ .other value := by
  obtain ⟨_, hchecks, hrest⟩ := except_bind_ok.mp t.valid
  obtain ⟨_, _, hdistinct⟩ := except_bind_ok.mp hrest
  obtain ⟨endpoints, hendpoints, -⟩ := except_bind_ok.mp hdistinct
  refine ⟨except_forM_ok.mp hchecks i hi, fun value hvalue => ?_⟩
  obtain ⟨endpoint, hendpoint⟩ := except_mapM_ok.mp ⟨endpoints, hendpoints⟩ i hi
  obtain ⟨host, hhost, -⟩ := except_bind_ok.mp hendpoint
  rw [InstanceSpec.hostKey, hvalue] at hhost
  cases hhost

/-- **What `to_dict` writes of a topology loads as the topology.** -/
theorem fromDict_toDict (t : TopologySpec) : fromDict t.toDict = .ok t := by
  have hitems : (t.instances.map InstanceSpec.toDict).mapM InstanceSpec.fromDict =
      .ok t.instances := by
    apply except_mapM_map
    intro i hi
    obtain ⟨hcheck, hhost⟩ := t.mem_instances hi
    exact instance_fromDict_toDict hcheck hhost
  exact except_bind_ok.mpr ⟨_, hitems, ofInstances_instances t⟩

end TopologySpec

end Conductress
