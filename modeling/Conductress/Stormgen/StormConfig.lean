import Conductress.Lib.ArgParse
import Conductress.Lib.Except
import Conductress.Base.NumberText
import Conductress.Stormgen.StallFirst
import Conductress.Stormgen.StormClient

/-!
# The generator's command line

`parse_policy` and `parse_stall`, the options of `build_parser`, and
`config_from_args`, which checks what was parsed once more.

The usage error that ends the program is a `none` of `parseArgs`; the namespace
it writes is `Args`, one field for each option.
-/

namespace Conductress.Stormgen.Overlay

open Lib Lib.ArgParse

/-! ## Policies and stalls -/

/-- What `parse_stall` answers with. -/
inductive StallSpec where
  | noStall
  | debugSleep (seconds : PyFloat)
  | slowLoop (kind : BlockKind) (blockMs periodMs durationS : PyFloat)
  deriving DecidableEq

/-- `text.partition(":")`, without the separator. -/
def partitionColon (text : List Char) : List Char × List Char :=
  (text.takeWhile fun c => c ≠ ':', (text.dropWhile fun c => c ≠ ':').drop 1)

/-- `.lower()`, as far as it tells an ASCII word. -/
def lowered (text : List Char) : String := String.ofList (text.map Char.toLower)

def zero : PyFloat := .finite 0

/-- `a <= b`. -/
def le (a b : PyFloat) : Bool := a.lt b || a.eq b

/-- `_parse_ms`. -/
def parseMs (token : List Char) (field : String) : Except PyError PyFloat :=
  match PyText.parseFloat (String.ofList token) with
  | some value => .ok value
  | none => .error (.valueError ("policy " ++ field ++ " must be a number of milliseconds"))

def fixedPolicy (delayMs : PyFloat) : Except PyError (ReconnectPolicy PyFloat) :=
  if delayMs.lt zero then .error (.valueError "fixed delay must be >= 0 ms")
  else .ok (.fixed delayMs)

def exponentialPolicy (baseMs maxMs : PyFloat) (jitter : Bool) : Except PyError (ReconnectPolicy PyFloat) :=
  if le baseMs zero then .error (.valueError "exp base must be > 0 ms")
  else if maxMs.lt baseMs then .error (.valueError "exp max must be >= base")
  else .ok (.exponential baseMs maxMs jitter)

/-- `parse_policy`. -/
def parsePolicy (spec : String) : Except PyError (ReconnectPolicy PyFloat) :=
  let text := PyText.strip spec.toList
  if text = [] then
    .error (.valueError ("empty reconnect policy; expected one of: immediate, fixed:<ms>, " ++
      "exp:<base_ms>:<max_ms>[:jitter]"))
  else
    let (head, tail) := partitionColon text
    if lowered head = "immediate" then
      if tail ≠ [] then .error (.valueError "'immediate' takes no parameters") else .ok .immediate
    else if lowered head = "fixed" then
      if tail = [] then .error (.valueError "'fixed' requires a delay: fixed:<delay_ms>")
      else (parseMs tail "fixed delay").bind fixedPolicy
    else if lowered head = "exp" then
      match if tail = [] then [] else tail.splitOn ':' with
      | [base, max] => do
        let baseMs ← parseMs base "exp base"
        let maxMs ← parseMs max "exp max"
        exponentialPolicy baseMs maxMs false
      | [base, max, option] => do
        let baseMs ← parseMs base "exp base"
        let maxMs ← parseMs max "exp max"
        if lowered option ≠ "jitter" then
          .error (.valueError "unknown exp option; the only option is 'jitter'")
        else exponentialPolicy baseMs maxMs true
      | _ => .error (.valueError "'exp' requires exp:<base_ms>:<max_ms>[:jitter]")
    else .error (.valueError "unknown reconnect policy")

/-- `LUA_MAX_BLOCK_MS`. -/
def luaMaxBlockMs : PyFloat := .finite 1000

def blockKindOf : String → Except PyError BlockKind
  | "debug-sleep" => .ok .debugSleep
  | "lua" => .ok .lua
  | _ => .error (.valueError "slow-loop kind must be 'debug-sleep' or 'lua'")

/-- The constructor of `SlowLoopStall`. -/
def slowLoopStall (blockKind : String) (blockMs periodMs durationS : PyFloat) :
    Except PyError StallSpec := do
  let kind ← blockKindOf blockKind
  if !(zero.lt blockMs && le blockMs periodMs) then
    .error (.valueError "slow-loop needs 0 < block_ms <= period_ms")
  else if le durationS zero then .error (.valueError "slow-loop duration_s must be > 0")
  else if kind = .lua ∧ luaMaxBlockMs.lt blockMs = true then
    .error (.valueError "slow-loop lua block_ms must be <= 1000")
  else .ok (.slowLoop kind blockMs periodMs durationS)

/-- `_parse_slow_loop`. -/
def parseSlowLoop (tail : List Char) : Except PyError StallSpec :=
  match tail.splitOn ':' with
  | [kind, block, period, duration] =>
    match PyText.parseFloat (String.ofList block), PyText.parseFloat (String.ofList period),
        PyText.parseFloat (String.ofList duration) with
    | some blockMs, some periodMs, some durationS =>
      slowLoopStall (String.ofList kind) blockMs periodMs durationS
    | _, _, _ => .error (.valueError "slow-loop block_ms/period_ms/duration_s must be numbers")
  | _ => .error (.valueError "'slow-loop' requires: slow-loop:<kind>:<block_ms>:<period_ms>:<duration_s>")

/-- `parse_stall`. -/
def parseStall (spec : String) : Except PyError StallSpec :=
  let text := PyText.strip spec.toList
  if text = [] ∨ lowered text = "none" then .ok .noStall
  else
    let (head, tail) := partitionColon text
    if lowered head = "debug-sleep" then
      if tail = [] then .error (.valueError "'debug-sleep' requires seconds: debug-sleep:<seconds>")
      else
        match PyText.parseFloat (String.ofList tail) with
        | none => .error (.valueError "debug-sleep seconds must be a number")
        | some seconds =>
          if le seconds zero then .error (.valueError "debug-sleep seconds must be > 0")
          else .ok (.debugSleep seconds)
    else if lowered head = "slow-loop" then parseSlowLoop tail
    else .error (.valueError "unknown stall spec")

/-! ## The options -/

/-- The namespace of the options, with the types they are converted to. -/
@[ext]
structure Args where
  host                  : String
  port                  : Int
  clients               : Int
  burstMs               : Int
  connectTimeoutMs      : PyFloat
  replyTimeoutMs        : PyFloat
  policy                : String
  handshake             : Option (List String)
  firstCommand          : String
  durationS             : PyFloat
  stall                 : String
  burstFirst            : Bool
  burstAfterStallMs     : Int
  stallAfterS           : PyFloat
  workers               : Int
  prewarmConnections    : Option Int
  bindAddr              : Option (List String)
  tls                   : Bool
  tlsCaCert             : Option String
  tlsPort               : Option Int
  herdCommandIntervalMs : PyFloat
  probeClients          : Int
  probeRate             : Int
  probeTls              : Bool
  probePort             : Option Int
  bucketMs              : Int
  json                  : Option String

/-- The defaults of the options. -/
def Args.default : Args where
  host                  := "127.0.0.1"
  port                  := 6379
  clients               := 1000
  burstMs               := 200
  connectTimeoutMs      := .finite 1000
  replyTimeoutMs        := .finite 1000
  policy                := "fixed:200"
  handshake             := none
  firstCommand          := "GET stormkey"
  durationS             := .finite 10
  stall                 := "none"
  burstFirst            := false
  burstAfterStallMs     := 200
  stallAfterS           := .finite 1
  workers               := 0
  prewarmConnections    := none
  bindAddr              := none
  tls                   := false
  tlsCaCert             := none
  tlsPort               := none
  herdCommandIntervalMs := zero
  probeClients          := 0
  probeRate             := 0
  probeTls              := false
  probePort             := none
  bucketMs              := 100
  json                  := none

/-- The options of the parser, `-h` and `--help` among them. -/
inductive Opt where
  | h | help | host | port | clients | burstMs | connectTimeoutMs | replyTimeoutMs | policy
  | handshake | firstCommand | durationS | stall | burstFirst | burstAfterStallMs | stallAfterS
  | workers | prewarmConnections | bindAddr | tls | tlsCaCert | tlsPort | herdCommandIntervalMs
  | probeClients | probeRate | probeTls | probePort | bucketMs | json
  deriving DecidableEq

namespace Opt

def all : List Opt :=
  [h, help, host, port, clients, burstMs, connectTimeoutMs, replyTimeoutMs, policy, handshake,
    firstCommand, durationS, stall, burstFirst, burstAfterStallMs, stallAfterS, workers,
    prewarmConnections, bindAddr, tls, tlsCaCert, tlsPort, herdCommandIntervalMs, probeClients,
    probeRate, probeTls, probePort, bucketMs, json]

def flag : Opt → String
  | h => "-h"
  | help => "--help"
  | host => "--host"
  | port => "--port"
  | clients => "--clients"
  | burstMs => "--burst-ms"
  | connectTimeoutMs => "--connect-timeout-ms"
  | replyTimeoutMs => "--reply-timeout-ms"
  | policy => "--policy"
  | handshake => "--handshake"
  | firstCommand => "--first-command"
  | durationS => "--duration-s"
  | stall => "--stall"
  | burstFirst => "--burst-first"
  | burstAfterStallMs => "--burst-after-stall-ms"
  | stallAfterS => "--stall-after-s"
  | workers => "--workers"
  | prewarmConnections => "--prewarm-connections"
  | bindAddr => "--bind-addr"
  | tls => "--tls"
  | tlsCaCert => "--tls-ca-cert"
  | tlsPort => "--tls-port"
  | herdCommandIntervalMs => "--herd-command-interval-ms"
  | probeClients => "--probe-clients"
  | probeRate => "--probe-rate"
  | probeTls => "--probe-tls"
  | probePort => "--probe-port"
  | bucketMs => "--bucket-ms"
  | json => "--json"

/-- An option of type `str`. -/
def text (set : String → Args → Args) : Store Args := .value fun v ns => some (set v ns)

/-- An option of type `int`. -/
def int (set : Int → Args → Args) : Store Args :=
  .value fun v ns => (PyText.parseInt v).map fun n => set n ns

/-- An option of type `float`. -/
def float (set : PyFloat → Args → Args) : Store Args :=
  .value fun v ns => (PyText.parseFloat v).map fun x => set x ns

/-- `store_true`. -/
def true (set : Args → Args) : Store Args := .flag fun ns => some (set ns)

def store : Opt → Store Args
  | h | help => .flag fun _ => none
  | host => text fun v ns => { ns with host := v }
  | port => int fun n ns => { ns with port := n }
  | clients => int fun n ns => { ns with clients := n }
  | burstMs => int fun n ns => { ns with burstMs := n }
  | connectTimeoutMs => float fun x ns => { ns with connectTimeoutMs := x }
  | replyTimeoutMs => float fun x ns => { ns with replyTimeoutMs := x }
  | policy => text fun v ns => { ns with policy := v }
  | handshake => text fun v ns => { ns with handshake := some (ns.handshake.getD [] ++ [v]) }
  | firstCommand => text fun v ns => { ns with firstCommand := v }
  | durationS => float fun x ns => { ns with durationS := x }
  | stall => text fun v ns => { ns with stall := v }
  | burstFirst => true fun ns => { ns with burstFirst := .true }
  | burstAfterStallMs => int fun n ns => { ns with burstAfterStallMs := n }
  | stallAfterS => float fun x ns => { ns with stallAfterS := x }
  | workers => int fun n ns => { ns with workers := n }
  | prewarmConnections => int fun n ns => { ns with prewarmConnections := some n }
  | bindAddr => text fun v ns => { ns with bindAddr := some (ns.bindAddr.getD [] ++ [v]) }
  | tls => true fun ns => { ns with tls := .true }
  | tlsCaCert => text fun v ns => { ns with tlsCaCert := some v }
  | tlsPort => int fun n ns => { ns with tlsPort := some n }
  | herdCommandIntervalMs => float fun x ns => { ns with herdCommandIntervalMs := x }
  | probeClients => int fun n ns => { ns with probeClients := n }
  | probeRate => int fun n ns => { ns with probeRate := n }
  | probeTls => true fun ns => { ns with probeTls := .true }
  | probePort => int fun n ns => { ns with probePort := some n }
  | bucketMs => int fun n ns => { ns with bucketMs := n }
  | json => text fun v ns => { ns with json := some v }

def action (o : Opt) : Action Args := ⟨o.flag, o.store⟩

end Opt

def buildParser : List (Action Args) := Opt.all.map Opt.action

/-- `parse_args`; `none` is a usage error. -/
def parseArgs (argv : List String) : Option Args := ArgParse.parse buildParser argv .default

/-! ## The configuration -/

structure StormConfig where
  host                  : String
  port                  : Int
  clients               : Int
  burstMs               : Int
  durationS             : PyFloat
  connectTimeoutMs      : PyFloat
  replyTimeoutMs        : PyFloat
  policySpec            : String
  stallSpec             : String := "none"
  handshake             : List String := ["HELLO 3"]
  firstCommand          : String := "GET stormkey"
  workers               : Int := 0
  bindAddrs             : Option (List String) := none
  burstFirst            : Bool := false
  burstAfterStallMs     : Int := 200
  stallAfterS           : PyFloat := .finite 1
  prewarmConnections    : Option Int := none
  bucketMs              : Int := 100
  tls                   : Bool := false
  tlsCaCert             : Option String := none
  tlsPort               : Option Int := none
  herdCommandIntervalMs : PyFloat := .finite 0
  probeClients          : Int := 0
  probeRate             : Int := 0
  probeTls              : Bool := false
  probePort             : Option Int := none

/-- `cmd.strip()` is not empty. -/
def isCommand (command : String) : Bool := !(PyText.strip command.toList).isEmpty

/-- `_resolve_handshake`. -/
def resolveHandshake : Option (List String) → List String
  | none => ["HELLO 3"]
  | some commands => commands.filter isCommand

/-- Raise a `ValueError` when a check fails. -/
def require (passes : Bool) (message : String) : Except PyError Unit :=
  if passes then .ok () else .error (.valueError message)

theorem require_ok {passes : Bool} {message : String} :
    require passes message = .ok () ↔ passes = true := by
  unfold require
  split
  · next h => exact iff_of_true rfl h
  · next h => exact iff_of_false nofun h

/-- The configuration of the options, as it is when the checks pass. -/
def configOf (args : Args) : StormConfig where
  host                  := args.host
  port                  := args.port
  clients               := args.clients
  burstMs               := args.burstMs
  durationS             := args.durationS
  connectTimeoutMs      := args.connectTimeoutMs
  replyTimeoutMs        := args.replyTimeoutMs
  policySpec            := args.policy
  stallSpec             := args.stall
  handshake             := resolveHandshake args.handshake
  firstCommand          := args.firstCommand
  workers               := args.workers
  bindAddrs             := args.bindAddr
  burstFirst            := args.burstFirst
  burstAfterStallMs     := args.burstAfterStallMs
  stallAfterS           := args.stallAfterS
  prewarmConnections    := args.prewarmConnections
  bucketMs              := args.bucketMs
  tls                   := args.tls
  tlsCaCert             := args.tlsCaCert
  tlsPort               := args.tlsPort
  herdCommandIntervalMs := args.herdCommandIntervalMs
  probeClients          := args.probeClients
  probeRate             := args.probeRate
  probeTls              := args.probeTls
  probePort             := args.probePort

def configFromArgs (args : Args) : Except PyError StormConfig := do
  let _ ← parsePolicy args.policy
  let _ ← parseStall args.stall
  require (1 ≤ args.clients) "--clients must be >= 1"
  require (!le args.durationS zero) "--duration-s must be > 0"
  require (0 ≤ args.workers) "--workers must be >= 0 (0 = auto)"
  require (args.prewarmConnections.all (0 ≤ ·)) "--prewarm-connections must be >= 0"
  require (0 ≤ args.burstAfterStallMs) "--burst-after-stall-ms must be >= 0"
  require (!args.tls || args.tlsCaCert.any (· ≠ "")) "--tls requires --tls-ca-cert <path>"
  require (!args.tls || args.tlsPort.isSome) "--tls requires --tls-port <port>"
  require (!args.herdCommandIntervalMs.lt zero) "--herd-command-interval-ms must be >= 0"
  require (0 ≤ args.probeClients) "--probe-clients must be >= 0"
  require (0 ≤ args.probeRate) "--probe-rate must be >= 0"
  require (decide (0 < args.probeClients) == decide (0 < args.probeRate))
    "--probe-clients and --probe-rate must both be set (or both unset) to run the probe"
  return configOf args

end Conductress.Stormgen.Overlay
