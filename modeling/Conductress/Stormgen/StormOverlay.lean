import Conductress.Stormgen.StormSpec

/-!
# The overlay's command line

`StormOverlay._command` writes an accepted specification out as the command line
of the generator, which splits it into words, parses them, and checks what it
parsed once more. The values take different ways: a count is written as `str`
has it and read by `int(..)`, a timeout goes through `_num`, an interval through
`float(..)` and `_num`, a probe through `int(..)`, and a text goes as it is, if
the option parser takes it for a value at all.

What the runner adds to the specification (`tls`, `tls_port`, `tls_cert_dir`,
`_duration_s`) and the rest of the launch is `Launch`.
-/

namespace Conductress.Stormgen.Overlay

open Lib Lib.ArgParse

/-- What a launch takes from the task, the server and the paths. -/
structure Launch where
  executable    : String
  host          : String
  port          : ℕ
  jsonPath      : String
  /-- The task's duration in seconds. -/
  duration      : ℕ
  tls           : Bool
  tlsPort       : ℕ
  certDir       : String
  host_argument : isArgument buildParser host = true
  json_argument : isArgument buildParser jsonPath = true
  cert_argument : isArgument buildParser (certDir ++ "/ca.crt") = true
  port_lt       : port < 2 ^ 16
  tlsPort_le    : tlsPort ≤ 2 ^ 16
  duration_lt   : duration < PyFloat.overflowAt

/-! ## Values -/

/-- `a - b`, unrounded. -/
def sub : PyFloat → PyFloat → PyFloat
  | .nan, _ | _, .nan => .nan
  | .finite a, .finite b => .finite (a - b)
  | .finite _, .inf negative => .inf !negative
  | .inf negative, .finite _ => .inf negative
  | .inf a, .inf b => if a = b then .nan else .inf a

/-- `value.is_integer()`. -/
def isInteger : PyFloat → Bool
  | .finite q => decide (q.den = 1)
  | _ => false

/-- `_num`. -/
def num (python : Interpreter) (value : Json) : Except PyError String := do
  let x ← value.pyFloat
  if isInteger x then (value.pyInt).map fun n => toString n else return python.str value

/-- `list(value)`. -/
def listOf : Json → Except PyError (List Json)
  | .arr items => .ok items
  | .str s => .ok (s.toList.map fun c => .str (String.ofList [c]))
  | .obj fields => .ok (fields.map fun f => .str f.1)
  | _ => .error (.typeError "object is not iterable")

/-- `STORM_END_MARGIN_S` and `STORM_MIN_DURATION_S`. -/
def stormEndMarginS : PyFloat := .finite 2

def stormMinDurationS : PyFloat := .finite 5

/-- `_duration_s`. -/
def durationS (launch : Launch) (spec : List (String × Json)) : Except PyError PyFloat := do
  let delay ← (Json.getD spec "start_delay_s").pyFloat
  let remaining := sub (sub (.finite launch.duration) delay) stormEndMarginS
  return if remaining.lt stormMinDurationS then stormMinDurationS else remaining

/-! ## The command -/

/-- The values of a specification that `_command` converts. -/
structure Rendered where
  connectTimeout : String
  replyTimeout   : String
  duration       : String
  stallAfter     : String
  interval       : PyFloat
  intervalText   : String
  probeClients   : Int
  probeRate      : Int
  handshake      : List Json
  bindAddrs      : List Json

def render (python : Interpreter) (launch : Launch) (spec : List (String × Json)) :
    Except PyError Rendered := do
  let v := Json.getD spec
  let connectTimeout ← num python (v "connect_timeout_ms")
  let replyTimeout ← num python (v "reply_timeout_ms")
  let duration ← num python (.float (← durationS launch spec))
  let stallAfter ← num python (.float (← (v "stall_after_s").pyFloat))
  let interval ← (v "herd_command_interval_ms").pyFloat
  let intervalText ← num python (.float interval)
  let probeClients ← (v "probe_clients").pyInt
  let probeRate ← (v "probe_rate").pyInt
  let handshake ← listOf (v "handshake")
  let bindAddrs ← listOf (v "bind_addrs")
  return ⟨connectTimeout, replyTimeout, duration, stallAfter, interval, intervalText, probeClients,
    probeRate, handshake, bindAddrs⟩

section Parts

variable (python : Interpreter) (launch : Launch) (spec : List (String × Json)) (r : Rendered)

/-- What is always there. -/
def fixedParts : List String :=
  let v := Json.getD spec
  ["--host", launch.host,
    "--port", toString (if launch.port = 0 then 6379 else launch.port),
    "--clients", python.str (v "clients"),
    "--burst-ms", python.str (v "burst_ms"),
    "--connect-timeout-ms", r.connectTimeout,
    "--reply-timeout-ms", r.replyTimeout,
    "--policy", python.str (v "policy"),
    "--first-command", python.str (v "first_command"),
    "--duration-s", r.duration,
    "--stall", python.str (v "stall"),
    "--burst-after-stall-ms", python.str (v "burst_after_stall_ms"),
    "--stall-after-s", r.stallAfter,
    "--workers", python.str (v "workers"),
    "--json", launch.jsonPath]

def tlsParts : List String :=
  if launch.tls then
    ["--tls", "--tls-ca-cert", launch.certDir ++ "/ca.crt", "--tls-port", toString launch.tlsPort]
  else []

/-- A NaN is not positive. -/
def herdParts : List String :=
  if r.interval.isPositive then ["--herd-command-interval-ms", r.intervalText] else []

def probeParts : List String :=
  if 0 < r.probeClients ∧ 0 < r.probeRate then
    ["--probe-clients", toString r.probeClients, "--probe-rate", toString r.probeRate] ++
      (if (Json.getD spec "probe_tls").truthy && launch.tls then
        ["--probe-tls", "--probe-port", toString launch.tlsPort]
      else [])
  else []

def burstFirstParts : List String :=
  if (Json.getD spec "burst_first").truthy then ["--burst-first"] else []

def prewarmParts : List String :=
  if Json.getD spec "prewarm_connections" = .null then []
  else ["--prewarm-connections", python.str (Json.getD spec "prewarm_connections")]

/-- An empty handshake is written as an empty command. -/
def handshakeParts : List String :=
  if r.handshake = [] then ["--handshake", ""]
  else r.handshake.flatMap fun command => ["--handshake", python.str command]

def bindParts : List String := r.bindAddrs.flatMap fun addr => ["--bind-addr", python.str addr]

/-- The arguments of the generator, in the order of `_command`. -/
def arguments : List String :=
  fixedParts python launch spec r ++ tlsParts launch ++ herdParts r ++ probeParts launch spec r ++
    burstFirstParts spec ++ prewarmParts python spec ++ handshakeParts python r ++ bindParts python r

end Parts

/-- A character that `_shell_quote` leaves bare. -/
def isPlain (python : Interpreter) (c : Char) : Bool :=
  python.isAlnum c || ['.', '_', '-', '/', '=', ':'].elem c

/-- `_command`. -/
def command (python : Interpreter) (launch : Launch) (spec : List (String × Json)) :
    Except PyError (List Char) :=
  (render python launch spec).map fun r =>
    let parts := [launch.executable, "-m", "conductress.stormgen"] ++ arguments python launch spec r
    [' '].intercalate (parts.map fun part => Shell.quoteWord (isPlain python) part.toList)

/-- What the generator makes of a command line: the words after the interpreter,
`-m` and the module are its arguments. `none` when it is not launched, or ends
with an error before it opens a connection. -/
def onRunner (python : Interpreter) (launch : Launch) (spec : List (String × Json)) :
    Option StormConfig := do
  let text ← (command python launch spec).toOption
  let words ← Shell.splitWords text
  let args ← parseArgs ((words.drop 3).map String.ofList)
  (configFromArgs args).toOption

/-! ## What an option reads -/

def asText (value : String) : Option String :=
  if isArgument buildParser value then some value else none

def asInt (value : String) : Option Int := (asText value).bind PyText.parseInt

def asFloat (value : String) : Option PyFloat := (asText value).bind PyText.parseFloat

namespace Opt

/-- The option with its value, and without one. -/
def item (o : Opt) (value : String) : Item Args := ⟨o.action, some value⟩

def flagItem (o : Opt) : Item Args := ⟨o.action, none⟩

/-- A string names one option. -/
theorem find_flag (o : Opt) : buildParser.find? (fun a => decide (a.flag = o.action.flag)) = some o.action := by
  unfold buildParser
  rw [List.find?_map]
  have hfind : all.find? (fun p => decide (p.flag = o.flag)) = some o := by
    cases o <;> decide +kernel
  exact congrArg (Option.map action) hfind

theorem dash_flag (o : Opt) : o.action.flag.toList.head? = some '-' := by
  cases o <;> decide +kernel

theorem flag_ne (o : Opt) : o.action.flag ≠ "--" := by
  cases o <;> decide +kernel

theorem known_item {o : Opt} {set : String → Args → Option Args} (h : o.store = .value set)
    (value : String) : (o.item value).Known buildParser where
  dash  := o.dash_flag
  named := o.flag_ne
  found := o.find_flag
  shape := .inr ⟨set, value, h, rfl⟩

theorem known_flagItem {o : Opt} {set : Args → Option Args} (h : o.store = .flag set) :
    o.flagItem.Known buildParser where
  dash  := o.dash_flag
  named := o.flag_ne
  found := o.find_flag
  shape := .inl ⟨set, h, rfl⟩

variable {o : Opt} {value : String} {ns : Args}

theorem write_text {set : String → Args → Args} (h : o.store = text set) :
    (o.item value).write buildParser ns = (asText value).map fun v => set v ns := by
  unfold Item.write asText
  have hstore : (o.item value).action.store = text set := h
  rw [hstore]
  unfold text
  dsimp only [item]
  split <;> rfl

theorem write_int {set : Int → Args → Args} (h : o.store = int set) :
    (o.item value).write buildParser ns = (asInt value).map fun n => set n ns := by
  unfold Item.write asInt asText
  have hstore : (o.item value).action.store = int set := h
  rw [hstore]
  unfold int
  dsimp only [item]
  split <;> rfl

theorem write_float {set : PyFloat → Args → Args} (h : o.store = float set) :
    (o.item value).write buildParser ns = (asFloat value).map fun x => set x ns := by
  unfold Item.write asFloat asText
  have hstore : (o.item value).action.store = float set := h
  rw [hstore]
  unfold float
  dsimp only [item]
  split
  · rw [Option.bind_some]
  · rw [Option.bind_none, Option.map_none]

end Opt

/-! ## The options of a command line -/

/-- The options write one after the other. -/
def writeAll (items : List (Item Args)) (ns : Args) : Option Args :=
  items.foldlM (fun ns item => item.write buildParser ns) ns

section WriteAll

variable {o : Opt} {value : String} {items rest : List (Item Args)} {ns : Args}

theorem writeAll_append : writeAll (items ++ rest) ns = (writeAll items ns).bind (writeAll rest) :=
  List.foldlM_append

theorem writeAll_text {set : String → Args → Args} (h : o.store = Opt.text set) :
    writeAll (o.item value :: items) ns = (asText value).bind fun v => writeAll items (set v ns) := by
  unfold writeAll
  rw [List.foldlM_cons, Opt.write_text h]
  exact Option.bind_map

theorem writeAll_int {set : Int → Args → Args} (h : o.store = Opt.int set) :
    writeAll (o.item value :: items) ns = (asInt value).bind fun n => writeAll items (set n ns) := by
  unfold writeAll
  rw [List.foldlM_cons, Opt.write_int h]
  exact Option.bind_map

theorem writeAll_float {set : PyFloat → Args → Args} (h : o.store = Opt.float set) :
    writeAll (o.item value :: items) ns = (asFloat value).bind fun x => writeAll items (set x ns) := by
  unfold writeAll
  rw [List.foldlM_cons, Opt.write_float h]
  exact Option.bind_map

theorem writeAll_true {set : Args → Args} (h : o.store = Opt.true set) :
    writeAll (o.flagItem :: items) ns = writeAll items (set ns) := by
  have hwrite : o.flagItem.write buildParser ns = some (set ns) := by
    unfold Item.write
    have hstore : o.flagItem.action.store = Opt.true set := h
    rw [hstore]
    rfl
  unfold writeAll
  rw [List.foldlM_cons, hwrite]
  rfl

end WriteAll

section Items

variable (python : Interpreter) (launch : Launch) (spec : List (String × Json)) (r : Rendered)

def fixedItems : List (Item Args) :=
  let v := Json.getD spec
  [Opt.host.item launch.host,
    Opt.port.item (toString (if launch.port = 0 then 6379 else launch.port)),
    Opt.clients.item (python.str (v "clients")),
    Opt.burstMs.item (python.str (v "burst_ms")),
    Opt.connectTimeoutMs.item r.connectTimeout,
    Opt.replyTimeoutMs.item r.replyTimeout,
    Opt.policy.item (python.str (v "policy")),
    Opt.firstCommand.item (python.str (v "first_command")),
    Opt.durationS.item r.duration,
    Opt.stall.item (python.str (v "stall")),
    Opt.burstAfterStallMs.item (python.str (v "burst_after_stall_ms")),
    Opt.stallAfterS.item r.stallAfter,
    Opt.workers.item (python.str (v "workers")),
    Opt.json.item launch.jsonPath]

def tlsItems : List (Item Args) :=
  if launch.tls then
    [Opt.tls.flagItem, Opt.tlsCaCert.item (launch.certDir ++ "/ca.crt"),
      Opt.tlsPort.item (toString launch.tlsPort)]
  else []

def herdItems : List (Item Args) :=
  if r.interval.isPositive then [Opt.herdCommandIntervalMs.item r.intervalText] else []

def probeItems : List (Item Args) :=
  if 0 < r.probeClients ∧ 0 < r.probeRate then
    [Opt.probeClients.item (toString r.probeClients), Opt.probeRate.item (toString r.probeRate)] ++
      (if (Json.getD spec "probe_tls").truthy && launch.tls then
        [Opt.probeTls.flagItem, Opt.probePort.item (toString launch.tlsPort)]
      else [])
  else []

def burstFirstItems : List (Item Args) :=
  if (Json.getD spec "burst_first").truthy then [Opt.burstFirst.flagItem] else []

def prewarmItems : List (Item Args) :=
  if Json.getD spec "prewarm_connections" = .null then []
  else [Opt.prewarmConnections.item (python.str (Json.getD spec "prewarm_connections"))]

def handshakeItems : List (Item Args) :=
  if r.handshake = [] then [Opt.handshake.item ""]
  else r.handshake.map fun command => Opt.handshake.item (python.str command)

def bindItems : List (Item Args) := r.bindAddrs.map fun addr => Opt.bindAddr.item (python.str addr)

def items : List (Item Args) :=
  fixedItems python launch spec r ++ tlsItems launch ++ herdItems r ++ probeItems launch spec r ++
    burstFirstItems spec ++ prewarmItems python spec ++ handshakeItems python r ++ bindItems python r

/-- **The arguments are options with their values.** -/
theorem arguments_eq : arguments python launch spec r = (items python launch spec r).flatMap Item.tokens := by
  have hfixed : fixedParts python launch spec r = (fixedItems python launch spec r).flatMap Item.tokens := rfl
  have htls : tlsParts launch = (tlsItems launch).flatMap Item.tokens := by
    unfold tlsParts tlsItems
    split <;> rfl
  have hherd : herdParts r = (herdItems r).flatMap Item.tokens := by
    unfold herdParts herdItems
    split <;> rfl
  have hprobe : probeParts launch spec r = (probeItems launch spec r).flatMap Item.tokens := by
    unfold probeParts probeItems
    split
    · split <;> rfl
    · rfl
  have hburst : burstFirstParts spec = (burstFirstItems spec).flatMap Item.tokens := by
    unfold burstFirstParts burstFirstItems
    split <;> rfl
  have hprewarm : prewarmParts python spec = (prewarmItems python spec).flatMap Item.tokens := by
    unfold prewarmParts prewarmItems
    split <;> rfl
  have hhandshake : handshakeParts python r = (handshakeItems python r).flatMap Item.tokens := by
    unfold handshakeParts handshakeItems
    split
    · rfl
    · rw [List.flatMap_map]
      rfl
  have hbind : bindParts python r = (bindItems python r).flatMap Item.tokens := by
    unfold bindParts bindItems
    rw [List.flatMap_map]
    rfl
  unfold arguments items
  simp only [List.flatMap_append, hfixed, htls, hherd, hprobe, hburst, hprewarm, hhandshake, hbind]

/-- They are the parser's. -/
theorem items_known : ∀ item ∈ items python launch spec r, item.Known buildParser := by
  intro item hitem
  simp only [items, List.mem_append] at hitem
  rcases hitem with ((((((h | h) | h) | h) | h) | h) | h) | h
  · simp only [fixedItems, List.mem_cons, List.not_mem_nil, or_false] at h
    rcases h with rfl | rfl | rfl | rfl | rfl | rfl | rfl | rfl | rfl | rfl | rfl | rfl | rfl | rfl
    all_goals exact Opt.known_item rfl _
  · unfold tlsItems at h
    split at h
    · simp only [List.mem_cons, List.not_mem_nil, or_false] at h
      rcases h with rfl | rfl | rfl
      · exact Opt.known_flagItem rfl
      · exact Opt.known_item rfl _
      · exact Opt.known_item rfl _
    · cases h
  · unfold herdItems at h
    split at h
    · obtain rfl := List.mem_singleton.mp h
      exact Opt.known_item rfl _
    · cases h
  · unfold probeItems at h
    split at h
    · rcases List.mem_append.mp h with h | h
      · simp only [List.mem_cons, List.not_mem_nil, or_false] at h
        rcases h with rfl | rfl
        · exact Opt.known_item rfl _
        · exact Opt.known_item rfl _
      · split at h
        · simp only [List.mem_cons, List.not_mem_nil, or_false] at h
          rcases h with rfl | rfl
          · exact Opt.known_flagItem rfl
          · exact Opt.known_item rfl _
        · cases h
    · cases h
  · unfold burstFirstItems at h
    split at h
    · obtain rfl := List.mem_singleton.mp h
      exact Opt.known_flagItem rfl
    · cases h
  · unfold prewarmItems at h
    split at h
    · cases h
    · obtain rfl := List.mem_singleton.mp h
      exact Opt.known_item rfl _
  · unfold handshakeItems at h
    split at h
    · obtain rfl := List.mem_singleton.mp h
      exact Opt.known_item rfl _
    · obtain ⟨command, -, rfl⟩ := List.mem_map.mp h
      exact Opt.known_item rfl _
  · obtain ⟨addr, -, rfl⟩ := List.mem_map.mp h
    exact Opt.known_item rfl _

end Items

/-- A plain character is bare. -/
theorem bare_of_isPlain (python : Interpreter) (c : Char) (h : isPlain python c = true) : Shell.Bare c := by
  unfold isPlain at h
  rcases Bool.or_eq_true_iff.mp h with h | h
  · exact python.alnum_bare c h
  · simp only [List.elem_eq_mem, decide_eq_true_eq, List.mem_cons, List.not_mem_nil, or_false] at h
    rcases h with rfl | rfl | rfl | rfl | rfl | rfl
    all_goals exact ⟨by decide, by decide, by decide⟩

/-- **What the generator reads** is what the options write. -/
theorem onRunner_eq (python : Interpreter) (launch : Launch) (spec : List (String × Json)) :
    onRunner python launch spec =
      (render python launch spec).toOption.bind fun r =>
        (writeAll (items python launch spec r) .default).bind fun args => (configFromArgs args).toOption := by
  unfold onRunner command
  cases hrender : render python launch spec with
  | error e => rfl
  | ok r =>
    have hwords := Shell.splitWords_join (bare_of_isPlain python)
      (([launch.executable, "-m", "conductress.stormgen"] ++ arguments python launch spec r).map String.toList)
    rw [List.map_map] at hwords
    have hargs : ((([launch.executable, "-m", "conductress.stormgen"] ++
        arguments python launch spec r).map String.toList).drop 3).map String.ofList =
        arguments python launch spec r := by
      simp [List.map_map, Function.comp_def]
    have hparse : parseArgs (arguments python launch spec r) =
        writeAll (items python launch spec r) .default := by
      rw [arguments_eq]
      exact parse_items (items_known python launch spec r) .default
    -- the words are the parts, and the first three are not arguments
    refine (congrArg (fun words => Option.bind words fun words =>
      (parseArgs ((words.drop 3).map String.ofList)).bind fun args => (configFromArgs args).toOption)
      hwords).trans ?_
    rw [Option.bind_some, hargs, hparse]
    rfl


/-! ## What the options write -/

section Writing

variable {python : Interpreter} {launch : Launch} {spec : List (String × Json)} {r : Rendered} {ns : Args}

theorem asText_argument {value : String} (h : isArgument buildParser value = true) :
    asText value = some value := if_pos h

theorem asText_eq_some {value v : String} :
    asText value = some v ↔ isArgument buildParser value = true ∧ v = value := by
  unfold asText
  split
  · next h => exact Option.some_inj.trans ⟨fun heq => ⟨h, heq.symm⟩, fun heq => heq.2.symm⟩
  · next h => exact iff_of_false nofun fun heq => h heq.1

/-- A text that begins with no dash is an argument. -/
theorem isArgument_of_head {value : String} (h : value.toList.head? ≠ some '-') :
    isArgument buildParser value = true := by
  unfold isArgument kind
  dsimp only
  rw [if_pos h]

theorem head_toString (n : ℕ) : (toString n).toList.head? ≠ some '-' := by
  intro h
  have hmem := List.mem_of_mem_head? h
  rcases PyText.mem_of_digitsAux (PyText.digits_toString n) '-' hmem with hdigit | hline
  · revert hdigit
    decide
  · revert hline
    decide

/-- The values of a repeated option are all arguments. -/
theorem mapM_asText {values : List Json} {texts : List String} :
    (values.mapM fun value => asText (python.str value)) = some texts ↔
      (∀ value ∈ values, isArgument buildParser (python.str value) = true) ∧
        texts = values.map python.str := by
  induction values generalizing texts with
  | nil => exact Option.some_inj.trans ⟨fun h => ⟨nofun, h.symm⟩, fun h => h.2.symm⟩
  | cons value values ih =>
    rw [List.mapM_cons, List.forall_mem_cons, List.map_cons]
    constructor
    · intro h
      obtain ⟨text, htext, h⟩ := Option.bind_eq_some_iff.mp h
      obtain ⟨rest, hrest, h⟩ := Option.bind_eq_some_iff.mp h
      obtain ⟨hargument, rfl⟩ := asText_eq_some.mp htext
      obtain ⟨hall, rfl⟩ := ih.mp hrest
      obtain rfl := Option.some.inj h
      exact ⟨⟨hargument, hall⟩, rfl⟩
    · rintro ⟨⟨hargument, hall⟩, rfl⟩
      rw [asText_argument hargument, ih.mpr ⟨hall, rfl⟩]
      rfl

theorem asInt_toString {n : ℕ} (h : n < 10 ^ 4300) : asInt (toString n) = some (n : Int) := by
  unfold asInt
  rw [asText_argument (isArgument_of_head (head_toString n)), Option.bind_some]
  exact PyText.parseInt_toString h

theorem asInt_toString_int {n : Int} (hnonneg : 0 ≤ n) (h : n.natAbs < 10 ^ 4300) :
    asInt (toString n) = some n := by
  obtain ⟨k, rfl⟩ := Int.eq_ofNat_of_zero_le hnonneg
  rw [Int.natAbs_natCast] at h
  exact asInt_toString h

/-- What is always there. -/
theorem writeAll_fixed : writeAll (fixedItems python launch spec r) ns =
    (asText launch.host).bind fun host =>
    (asInt (toString (if launch.port = 0 then 6379 else launch.port))).bind fun port =>
    (asInt (python.str (Json.getD spec "clients"))).bind fun clients =>
    (asInt (python.str (Json.getD spec "burst_ms"))).bind fun burstMs =>
    (asFloat r.connectTimeout).bind fun connectTimeoutMs =>
    (asFloat r.replyTimeout).bind fun replyTimeoutMs =>
    (asText (python.str (Json.getD spec "policy"))).bind fun policy =>
    (asText (python.str (Json.getD spec "first_command"))).bind fun firstCommand =>
    (asFloat r.duration).bind fun durationS =>
    (asText (python.str (Json.getD spec "stall"))).bind fun stall =>
    (asInt (python.str (Json.getD spec "burst_after_stall_ms"))).bind fun burstAfterStallMs =>
    (asFloat r.stallAfter).bind fun stallAfterS =>
    (asInt (python.str (Json.getD spec "workers"))).bind fun workers =>
    (asText launch.jsonPath).bind fun json =>
    some { ns with
      host, port, clients, burstMs, connectTimeoutMs, replyTimeoutMs, policy, firstCommand, durationS,
      stall, burstAfterStallMs, stallAfterS, workers, json := some json } := by
  unfold fixedItems
  refine (writeAll_text rfl).trans (Option.bind_congr fun host _ => ?_)
  refine (writeAll_int rfl).trans (Option.bind_congr fun port _ => ?_)
  refine (writeAll_int rfl).trans (Option.bind_congr fun clients _ => ?_)
  refine (writeAll_int rfl).trans (Option.bind_congr fun burstMs _ => ?_)
  refine (writeAll_float rfl).trans (Option.bind_congr fun connectTimeoutMs _ => ?_)
  refine (writeAll_float rfl).trans (Option.bind_congr fun replyTimeoutMs _ => ?_)
  refine (writeAll_text rfl).trans (Option.bind_congr fun policy _ => ?_)
  refine (writeAll_text rfl).trans (Option.bind_congr fun firstCommand _ => ?_)
  refine (writeAll_float rfl).trans (Option.bind_congr fun durationS _ => ?_)
  refine (writeAll_text rfl).trans (Option.bind_congr fun stall _ => ?_)
  refine (writeAll_int rfl).trans (Option.bind_congr fun burstAfterStallMs _ => ?_)
  refine (writeAll_float rfl).trans (Option.bind_congr fun stallAfterS _ => ?_)
  refine (writeAll_int rfl).trans (Option.bind_congr fun workers _ => ?_)
  exact (writeAll_text rfl).trans (Option.bind_congr fun json _ => rfl)

theorem pow_lt_limit {n : ℕ} (h : n ≤ 2 ^ 16) : n < 10 ^ 4300 := by
  refine lt_of_le_of_lt h (lt_of_lt_of_le (by decide : 2 ^ 16 < 10 ^ 5) ?_)
  generalize hk : 4300 = k
  exact Nat.pow_le_pow_right (by omega) (by omega)

theorem writeAll_tls : writeAll (tlsItems launch) ns =
    some { ns with
      tls := ns.tls || launch.tls
      tlsCaCert := if launch.tls then some (launch.certDir ++ "/ca.crt") else ns.tlsCaCert
      tlsPort := if launch.tls then some (launch.tlsPort : Int) else ns.tlsPort } := by
  unfold tlsItems
  cases htls : launch.tls with
  | false =>
    rw [Bool.or_false]
    rfl
  | true =>
    rw [if_pos rfl, writeAll_true rfl, writeAll_text rfl, asText_argument launch.cert_argument,
      Option.bind_some, writeAll_int rfl, asInt_toString (pow_lt_limit launch.tlsPort_le), Bool.or_true]
    rfl

theorem writeAll_herd : writeAll (herdItems r) ns =
    (if r.interval.isPositive then asFloat r.intervalText else some ns.herdCommandIntervalMs).map fun x =>
      { ns with herdCommandIntervalMs := x } := by
  unfold herdItems
  split
  · rw [writeAll_float rfl, Option.map_eq_bind]
    rfl
  · rfl

/-- The options of a probe that runs. -/
theorem writeAll_probe (hclients : r.probeClients.natAbs < 10 ^ 4300)
    (hrate : r.probeRate.natAbs < 10 ^ 4300) : writeAll (probeItems launch spec r) ns =
    some { ns with
      probeClients := if 0 < r.probeClients ∧ 0 < r.probeRate then r.probeClients else ns.probeClients
      probeRate := if 0 < r.probeClients ∧ 0 < r.probeRate then r.probeRate else ns.probeRate
      probeTls := ns.probeTls || (decide (0 < r.probeClients ∧ 0 < r.probeRate) &&
        ((Json.getD spec "probe_tls").truthy && launch.tls))
      probePort := if (0 < r.probeClients ∧ 0 < r.probeRate) ∧
          ((Json.getD spec "probe_tls").truthy && launch.tls) = true then some (launch.tlsPort : Int)
        else ns.probePort } := by
  unfold probeItems
  by_cases hruns : 0 < r.probeClients ∧ 0 < r.probeRate
  · rw [if_pos hruns, if_pos hruns, if_pos hruns, decide_eq_true hruns, Bool.true_and, List.cons_append,
      List.singleton_append, writeAll_int rfl, asInt_toString_int hruns.1.le hclients, Option.bind_some,
      writeAll_int rfl, asInt_toString_int hruns.2.le hrate, Option.bind_some]
    cases htls : (Json.getD spec "probe_tls").truthy && launch.tls with
    | false =>
      rw [if_neg Bool.false_ne_true, if_neg fun h => Bool.false_ne_true h.2, Bool.or_false]
      rfl
    | true =>
      rw [if_pos rfl, if_pos ⟨hruns, rfl⟩, writeAll_true rfl, writeAll_int rfl,
        asInt_toString (pow_lt_limit launch.tlsPort_le), Bool.or_true]
      rfl
  · rw [if_neg hruns, if_neg hruns, if_neg hruns, if_neg fun h => hruns h.1, decide_eq_false hruns,
      Bool.false_and, Bool.or_false]
    rfl

theorem writeAll_burstFirst : writeAll (burstFirstItems spec) ns =
    some { ns with burstFirst := ns.burstFirst || (Json.getD spec "burst_first").truthy } := by
  unfold burstFirstItems
  cases htruthy : (Json.getD spec "burst_first").truthy with
  | false =>
    rw [Bool.or_false]
    rfl
  | true =>
    rw [if_pos rfl, writeAll_true rfl, Bool.or_true]
    rfl

theorem writeAll_prewarm : writeAll (prewarmItems python spec) ns =
    (if Json.getD spec "prewarm_connections" = .null then some ns.prewarmConnections
      else (asInt (python.str (Json.getD spec "prewarm_connections"))).map some).map fun n =>
        { ns with prewarmConnections := n } := by
  unfold prewarmItems
  split
  · rfl
  · rw [writeAll_int rfl, Option.map_map, Option.map_eq_bind]
    rfl

/-- A repeated option collects its values. -/
theorem writeAll_handshake (commands : List Json) :
    writeAll (commands.map fun command => Opt.handshake.item (python.str command)) ns =
      (commands.mapM fun command => asText (python.str command)).map fun texts =>
        { ns with
          handshake := if texts = [] then ns.handshake else some (ns.handshake.getD [] ++ texts) } := by
  induction commands generalizing ns with
  | nil => rfl
  | cons command commands ih =>
    rw [List.map_cons, writeAll_text rfl, List.mapM_cons]
    cases htext : asText (python.str command) with
    | none => rfl
    | some text =>
      rw [Option.bind_some, ih]
      cases htexts : commands.mapM fun command => asText (python.str command) with
      | none => rfl
      | some texts => 
        cases texts <;> simp

theorem writeAll_bind (addrs : List Json) :
    writeAll (addrs.map fun addr => Opt.bindAddr.item (python.str addr)) ns =
      (addrs.mapM fun addr => asText (python.str addr)).map fun texts =>
        { ns with
          bindAddr := if texts = [] then ns.bindAddr else some (ns.bindAddr.getD [] ++ texts) } := by
  induction addrs generalizing ns with
  | nil => rfl
  | cons addr addrs ih =>
    rw [List.map_cons, writeAll_text rfl, List.mapM_cons]
    cases htext : asText (python.str addr) with
    | none => rfl
    | some text =>
      rw [Option.bind_some, ih]
      cases htexts : addrs.mapM fun addr => asText (python.str addr) with
      | none => rfl
      | some texts =>
        cases texts <;> simp

end Writing

/-! ## What the generator reads -/

/-- What is read of each option. -/
structure Reads (python : Interpreter) (launch : Launch) (spec : List (String × Json)) (r : Rendered)
    (args : Args) : Prop where
  host : args.host = launch.host
  port : args.port = if launch.port = 0 then 6379 else (launch.port : Int)
  clients : asInt (python.str (Json.getD spec "clients")) = some args.clients
  burstMs : asInt (python.str (Json.getD spec "burst_ms")) = some args.burstMs
  connectTimeoutMs : asFloat r.connectTimeout = some args.connectTimeoutMs
  replyTimeoutMs : asFloat r.replyTimeout = some args.replyTimeoutMs
  policy : asText (python.str (Json.getD spec "policy")) = some args.policy
  handshake : (if r.handshake = [] then some [""]
    else r.handshake.mapM fun command => asText (python.str command)).map some = some args.handshake
  firstCommand : asText (python.str (Json.getD spec "first_command")) = some args.firstCommand
  durationS : asFloat r.duration = some args.durationS
  stall : asText (python.str (Json.getD spec "stall")) = some args.stall
  burstFirst : args.burstFirst = (Json.getD spec "burst_first").truthy
  burstAfterStallMs :
    asInt (python.str (Json.getD spec "burst_after_stall_ms")) = some args.burstAfterStallMs
  stallAfterS : asFloat r.stallAfter = some args.stallAfterS
  workers : asInt (python.str (Json.getD spec "workers")) = some args.workers
  prewarmConnections : (if Json.getD spec "prewarm_connections" = .null then some none
    else (asInt (python.str (Json.getD spec "prewarm_connections"))).map some) =
      some args.prewarmConnections
  bindAddr : (r.bindAddrs.mapM fun addr => asText (python.str addr)).map
    (fun texts => if texts = [] then none else some texts) = some args.bindAddr
  tls : args.tls = launch.tls
  tlsCaCert : args.tlsCaCert = if launch.tls then some (launch.certDir ++ "/ca.crt") else none
  tlsPort : args.tlsPort = if launch.tls then some (launch.tlsPort : Int) else none
  herdCommandIntervalMs :
    (if r.interval.isPositive then asFloat r.intervalText else some zero) =
      some args.herdCommandIntervalMs
  probeClients : args.probeClients = if 0 < r.probeClients ∧ 0 < r.probeRate then r.probeClients else 0
  probeRate : args.probeRate = if 0 < r.probeClients ∧ 0 < r.probeRate then r.probeRate else 0
  probeTls : args.probeTls = (decide (0 < r.probeClients ∧ 0 < r.probeRate) &&
    ((Json.getD spec "probe_tls").truthy && launch.tls))
  probePort : args.probePort = if (0 < r.probeClients ∧ 0 < r.probeRate) ∧
    ((Json.getD spec "probe_tls").truthy && launch.tls) = true then some (launch.tlsPort : Int) else none
  bucketMs : args.bucketMs = 100
  json : args.json = some launch.jsonPath

section Reading

variable {python : Interpreter} {launch : Launch} {spec : List (String × Json)} {r : Rendered} {args : Args}

theorem port_text : asInt (toString (if launch.port = 0 then 6379 else launch.port)) =
    some (if launch.port = 0 then 6379 else (launch.port : Int)) := by
  split
  · exact asInt_toString (pow_lt_limit (by decide))
  · exact asInt_toString (pow_lt_limit launch.port_lt.le)

/-- **The options of an accepted specification** write what they read. -/
theorem writeAll_items (hclients : r.probeClients.natAbs < 10 ^ 4300)
    (hrate : r.probeRate.natAbs < 10 ^ 4300) :
    writeAll (items python launch spec r) .default = some args ↔ Reads python launch spec r args := by
  have hhandshake : ∀ ns : Args, writeAll (handshakeItems python r) ns =
      (if r.handshake = [] then some [""]
        else r.handshake.mapM fun command => asText (python.str command)).map fun texts =>
          { ns with handshake := some (ns.handshake.getD [] ++ texts) } := by
    intro ns
    unfold handshakeItems
    split
    · rfl
    · next hne =>
      rw [writeAll_handshake]
      obtain ⟨command, commands, hcons⟩ := List.exists_cons_of_ne_nil hne
      rw [hcons]
      cases htexts : (command :: commands).mapM fun command => asText (python.str command) with
      | none => rfl
      | some texts =>
        obtain rfl := (mapM_asText.mp htexts).2
        rfl
  unfold items bindItems
  rw [writeAll_append, writeAll_append, writeAll_append, writeAll_append, writeAll_append,
    writeAll_append, writeAll_append, writeAll_fixed]
  constructor
  · intro h
    obtain ⟨ns₇, h, hbind⟩ := Option.bind_eq_some_iff.mp h
    obtain ⟨ns₆, h, hhand⟩ := Option.bind_eq_some_iff.mp h
    obtain ⟨ns₅, h, hprewarm⟩ := Option.bind_eq_some_iff.mp h
    obtain ⟨ns₄, h, hburst⟩ := Option.bind_eq_some_iff.mp h
    obtain ⟨ns₃, h, hprobe⟩ := Option.bind_eq_some_iff.mp h
    obtain ⟨ns₂, h, hherd⟩ := Option.bind_eq_some_iff.mp h
    obtain ⟨ns₁, h, htls⟩ := Option.bind_eq_some_iff.mp h
    obtain ⟨host, hhost, h⟩ := Option.bind_eq_some_iff.mp h
    obtain ⟨port, hport, h⟩ := Option.bind_eq_some_iff.mp h
    obtain ⟨clients, hcl, h⟩ := Option.bind_eq_some_iff.mp h
    obtain ⟨burstMs, hburstMs, h⟩ := Option.bind_eq_some_iff.mp h
    obtain ⟨connect, hconnect, h⟩ := Option.bind_eq_some_iff.mp h
    obtain ⟨reply, hreply, h⟩ := Option.bind_eq_some_iff.mp h
    obtain ⟨policy, hpolicy, h⟩ := Option.bind_eq_some_iff.mp h
    obtain ⟨first, hfirst, h⟩ := Option.bind_eq_some_iff.mp h
    obtain ⟨duration, hduration, h⟩ := Option.bind_eq_some_iff.mp h
    obtain ⟨stall, hstall, h⟩ := Option.bind_eq_some_iff.mp h
    obtain ⟨after, hafter, h⟩ := Option.bind_eq_some_iff.mp h
    obtain ⟨stallAfter, hstallAfter, h⟩ := Option.bind_eq_some_iff.mp h
    obtain ⟨workers, hworkers, h⟩ := Option.bind_eq_some_iff.mp h
    obtain ⟨json, hjson, h⟩ := Option.bind_eq_some_iff.mp h
    rw [asText_argument launch.host_argument] at hhost
    rw [asText_argument launch.json_argument] at hjson
    rw [port_text] at hport
    obtain rfl := Option.some.inj hhost
    obtain rfl := Option.some.inj hjson
    obtain rfl := Option.some.inj hport
    obtain rfl := Option.some.inj h
    -- each step's record is flattened before the next one updates it
    rw [writeAll_tls] at htls
    dsimp only [Args.default] at htls
    obtain rfl := Option.some.inj htls
    rw [writeAll_herd] at hherd
    dsimp only at hherd
    obtain ⟨herd, hherd', rfl⟩ := Option.map_eq_some_iff.mp hherd
    rw [writeAll_probe hclients hrate] at hprobe
    dsimp only at hprobe
    obtain rfl := Option.some.inj hprobe
    rw [writeAll_burstFirst] at hburst
    dsimp only at hburst
    obtain rfl := Option.some.inj hburst
    rw [writeAll_prewarm] at hprewarm
    dsimp only at hprewarm
    obtain ⟨prewarm, hprewarm', rfl⟩ := Option.map_eq_some_iff.mp hprewarm
    rw [hhandshake] at hhand
    dsimp only at hhand
    obtain ⟨hands, hhand', rfl⟩ := Option.map_eq_some_iff.mp hhand
    rw [writeAll_bind] at hbind
    dsimp only at hbind
    obtain ⟨binds, hbind', rfl⟩ := Option.map_eq_some_iff.mp hbind
    exact {
      host := rfl, port := rfl, clients := hcl, burstMs := hburstMs, connectTimeoutMs := hconnect
      replyTimeoutMs := hreply, policy := hpolicy, firstCommand := hfirst, durationS := hduration
      stall := hstall, burstFirst := rfl, burstAfterStallMs := hafter, stallAfterS := hstallAfter
      workers := hworkers, tls := rfl, tlsCaCert := rfl, tlsPort := rfl, herdCommandIntervalMs := hherd'
      probeClients := rfl, probeRate := rfl, probeTls := rfl, probePort := rfl, bucketMs := rfl
      json := rfl, prewarmConnections := hprewarm'
      handshake := congrArg (Option.map some) hhand'
      bindAddr := congrArg (Option.map _) hbind' }
  · intro h
    obtain ⟨hands, hhand, hhands⟩ := Option.map_eq_some_iff.mp h.handshake
    obtain ⟨binds, hbind, hbinds⟩ := Option.map_eq_some_iff.mp h.bindAddr
    rw [asText_argument launch.host_argument, asText_argument launch.json_argument, port_text, h.clients,
      h.burstMs, h.connectTimeoutMs, h.replyTimeoutMs, h.policy, h.firstCommand, h.durationS, h.stall,
      h.burstAfterStallMs, h.stallAfterS, h.workers]
    simp only [Option.bind_some]
    rw [writeAll_tls, Option.bind_some]
    dsimp only [Args.default]
    rw [writeAll_herd]
    dsimp only
    rw [h.herdCommandIntervalMs, Option.map_some, Option.bind_some, writeAll_probe hclients hrate,
      Option.bind_some, writeAll_burstFirst, Option.bind_some]
    dsimp only
    rw [writeAll_prewarm]
    dsimp only
    rw [h.prewarmConnections, Option.map_some, Option.bind_some, hhandshake, hhand, Option.map_some,
      Option.bind_some]
    dsimp only
    rw [writeAll_bind, hbind, Option.map_some]
    refine congrArg some (Args.ext h.host.symm h.port.symm rfl rfl rfl rfl rfl hhands rfl rfl rfl
      h.burstFirst.symm rfl rfl rfl rfl hbinds h.tls.symm h.tlsCaCert.symm h.tlsPort.symm rfl
      h.probeClients.symm h.probeRate.symm h.probeTls.symm h.probePort.symm h.bucketMs.symm h.json.symm)

end Reading
end Conductress.Stormgen.Overlay
