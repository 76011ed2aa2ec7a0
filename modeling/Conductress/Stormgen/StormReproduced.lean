import Conductress.Base.DecimalText
import Conductress.Stormgen.StormValues
import Mathlib.Tactic.Linarith

/-!
# What runs is what was accepted

The two ends of a storm's specification: the checks of `parse_storm_spec` at
submission, and the configuration the generator makes of the command line.

* `carried_of_sameValues`, `sameValues_of_carried` — an accepted specification
  runs with its values exactly when each of them survives its way there
  (`Carried`);
* `reproduced_iff` — with what is not accepted: it is refused by a `ValueError`
  unless the reader or a check raises something else;
* `fraction_of_clients` — a count with a fraction is accepted and then refused.
-/

namespace Conductress.Stormgen.Overlay

open Lib Lib.ArgParse

/-! ## Accepted specifications -/

/-- What the checks of an accepted specification say of its values. -/
structure Accepted (python : Interpreter) (spec : List (String × Json)) : Prop where
  policy : ∃ p, parsePolicy (python.str (Json.getD spec "policy")) = .ok p
  stall : ∃ s, parseStall (python.str (Json.getD spec "stall")) = .ok s
  clients : ∃ n, (Json.getD spec "clients").pyInt = .ok n ∧ 1 ≤ n
  burstMs : ∃ n, (Json.getD spec "burst_ms").pyInt = .ok n ∧ 0 ≤ n
  connectTimeoutMs : ∃ x, (Json.getD spec "connect_timeout_ms").pyFloat = .ok x ∧ le x zero = false
  replyTimeoutMs : ∃ x, (Json.getD spec "reply_timeout_ms").pyFloat = .ok x ∧ le x zero = false
  workers : ∃ n, (Json.getD spec "workers").pyInt = .ok n ∧ 0 ≤ n
  burstAfterStallMs : ∃ n, (Json.getD spec "burst_after_stall_ms").pyInt = .ok n ∧ 0 ≤ n
  stallAfterS : ∃ x, (Json.getD spec "stall_after_s").pyFloat = .ok x ∧ x.lt zero = false
  startDelayS : ∃ x, (Json.getD spec "start_delay_s").pyFloat = .ok x ∧ x.lt zero = false
  prewarmConnections : Json.getD spec "prewarm_connections" ≠ .null →
    ∃ n, (Json.getD spec "prewarm_connections").pyInt = .ok n ∧ 0 ≤ n
  handshake : ∃ items, Json.getD spec "handshake" = .arr items
  bindAddrs : ∃ items, Json.getD spec "bind_addrs" = .arr items
  herdCommandIntervalMs :
    ∃ x, (Json.getD spec "herd_command_interval_ms").pyFloat = .ok x ∧ x.lt zero = false
  probe : ∃ n m, (Json.getD spec "probe_clients").pyInt = .ok n ∧ 0 ≤ n ∧
    (Json.getD spec "probe_rate").pyInt = .ok m ∧ 0 ≤ m ∧ (0 < n ↔ 0 < m)

namespace Check

variable {python : Interpreter} {value : Json} {message : String}

theorem count_ok {least : Int} (h : (count value least message).run python = .ok ()) :
    ∃ n, value.pyInt = .ok n ∧ least ≤ n := by
  obtain ⟨n, hn, hleast⟩ := except_bind_ok.mp h
  exact ⟨n, hn, of_decide_eq_true (require_ok.mp hleast)⟩

theorem positive_ok (h : (positive value message).run python = .ok ()) :
    ∃ x, value.pyFloat = .ok x ∧ le x zero = false := by
  obtain ⟨x, hx, hpositive⟩ := except_bind_ok.mp h
  exact ⟨x, hx, (Bool.not_eq_true' _).mp (require_ok.mp hpositive)⟩

theorem nonneg_ok (h : (nonneg value message).run python = .ok ()) :
    ∃ x, value.pyFloat = .ok x ∧ x.lt zero = false := by
  obtain ⟨x, hx, hnonneg⟩ := except_bind_ok.mp h
  exact ⟨x, hx, (Bool.not_eq_true' _).mp (require_ok.mp hnonneg)⟩

theorem array_ok (h : (array value message).run python = .ok ()) : ∃ items, value = .arr items := by
  cases value with
  | arr items => exact ⟨items, rfl⟩
  | _ => cases h

end Check

theorem accepted_of_runChecks {python : Interpreter} {spec : List (String × Json)}
    (h : runChecks python (checks spec) = .ok ()) : Accepted python spec := by
  have hall := runChecks_ok.mp h
  simp only [checks, List.forall_mem_cons] at hall
  obtain ⟨hpolicy, hstall, hclients, hburst, hconnect, hreply, hworkers, hafter, hstallAfter, hdelay,
    hprewarm, hhandshake, hbind, hherd, hprobeClients, hprobeRate, hpaired, -⟩ := hall
  obtain ⟨p, hp, -⟩ := except_map_ok.mp hpolicy
  obtain ⟨s, hs, -⟩ := except_map_ok.mp hstall
  obtain ⟨n, hn, hn0⟩ := Check.count_ok hprobeClients
  obtain ⟨m, hm, hm0⟩ := Check.count_ok hprobeRate
  obtain ⟨n', hn', hpaired⟩ := except_bind_ok.mp hpaired
  obtain ⟨m', hm', hpaired⟩ := except_bind_ok.mp hpaired
  obtain rfl := Except.ok.inj (hn.symm.trans hn')
  obtain rfl := Except.ok.inj (hm.symm.trans hm')
  have hboth : (0 < n ↔ 0 < m) := decide_eq_decide.mp (beq_iff_eq.mp (require_ok.mp hpaired))
  exact {
    policy := ⟨p, hp⟩
    stall := ⟨s, hs⟩
    clients := Check.count_ok hclients
    burstMs := Check.count_ok hburst
    connectTimeoutMs := Check.positive_ok hconnect
    replyTimeoutMs := Check.positive_ok hreply
    workers := Check.count_ok hworkers
    burstAfterStallMs := Check.count_ok hafter
    stallAfterS := Check.nonneg_ok hstallAfter
    startDelayS := Check.nonneg_ok hdelay
    prewarmConnections := fun hne => by
      rw [Check.run, if_neg hne] at hprewarm
      obtain ⟨k, hk, hnonneg⟩ := except_bind_ok.mp hprewarm
      exact ⟨k, hk, of_decide_eq_true (require_ok.mp hnonneg)⟩
    handshake := Check.array_ok hhandshake
    bindAddrs := Check.array_ok hbind
    herdCommandIntervalMs := Check.nonneg_ok hherd
    probe := ⟨n, m, hn, hn0, hm, hm0, hboth⟩ }

/-! ## What the command is made of -/

/-- The values of a command that could be written. -/
structure Renders (python : Interpreter) (launch : Launch) (spec : List (String × Json))
    (r : Rendered) : Prop where
  connectTimeout : num python (Json.getD spec "connect_timeout_ms") = .ok r.connectTimeout
  replyTimeout : num python (Json.getD spec "reply_timeout_ms") = .ok r.replyTimeout
  duration : ∃ d, durationS launch spec = .ok d ∧ num python (.float d) = .ok r.duration
  stallAfter : ∃ x, (Json.getD spec "stall_after_s").pyFloat = .ok x ∧
    num python (.float x) = .ok r.stallAfter
  interval : (Json.getD spec "herd_command_interval_ms").pyFloat = .ok r.interval
  intervalText : num python (.float r.interval) = .ok r.intervalText
  probeClients : (Json.getD spec "probe_clients").pyInt = .ok r.probeClients
  probeRate : (Json.getD spec "probe_rate").pyInt = .ok r.probeRate
  handshake : listOf (Json.getD spec "handshake") = .ok r.handshake
  bindAddrs : listOf (Json.getD spec "bind_addrs") = .ok r.bindAddrs

theorem render_ok {python : Interpreter} {launch : Launch} {spec : List (String × Json)} {r : Rendered} :
    render python launch spec = .ok r ↔ Renders python launch spec r := by
  unfold render
  constructor
  · intro h
    obtain ⟨connect, hconnect, h⟩ := except_bind_ok.mp h
    obtain ⟨reply, hreply, h⟩ := except_bind_ok.mp h
    obtain ⟨d, hd, h⟩ := except_bind_ok.mp h
    obtain ⟨duration, hduration, h⟩ := except_bind_ok.mp h
    obtain ⟨x, hx, h⟩ := except_bind_ok.mp h
    obtain ⟨stallAfter, hstallAfter, h⟩ := except_bind_ok.mp h
    obtain ⟨interval, hinterval, h⟩ := except_bind_ok.mp h
    obtain ⟨intervalText, hintervalText, h⟩ := except_bind_ok.mp h
    obtain ⟨clients, hclients, h⟩ := except_bind_ok.mp h
    obtain ⟨rate, hrate, h⟩ := except_bind_ok.mp h
    obtain ⟨handshake, hhandshake, h⟩ := except_bind_ok.mp h
    obtain ⟨addrs, haddrs, h⟩ := except_bind_ok.mp h
    obtain rfl := Except.ok.inj h
    exact ⟨hconnect, hreply, ⟨d, hd, hduration⟩, ⟨x, hx, hstallAfter⟩, hinterval, hintervalText, hclients,
      hrate, hhandshake, haddrs⟩
  · intro h
    obtain ⟨d, hd, hduration⟩ := h.duration
    obtain ⟨x, hx, hstallAfter⟩ := h.stallAfter
    refine except_bind_ok.mpr ⟨_, h.connectTimeout, ?_⟩
    refine except_bind_ok.mpr ⟨_, h.replyTimeout, ?_⟩
    refine except_bind_ok.mpr ⟨d, hd, ?_⟩
    refine except_bind_ok.mpr ⟨_, hduration, ?_⟩
    refine except_bind_ok.mpr ⟨x, hx, ?_⟩
    refine except_bind_ok.mpr ⟨_, hstallAfter, ?_⟩
    refine except_bind_ok.mpr ⟨_, h.interval, ?_⟩
    refine except_bind_ok.mpr ⟨_, h.intervalText, ?_⟩
    refine except_bind_ok.mpr ⟨_, h.probeClients, ?_⟩
    refine except_bind_ok.mpr ⟨_, h.probeRate, ?_⟩
    refine except_bind_ok.mpr ⟨_, h.handshake, ?_⟩
    exact except_bind_ok.mpr ⟨_, h.bindAddrs, rfl⟩


theorem configFromArgs_ok {args : Args} {cfg : StormConfig} (h : configFromArgs args = .ok cfg) :
    cfg = configOf args := by
  unfold configFromArgs at h
  obtain ⟨_, -, h⟩ := except_bind_ok.mp h
  obtain ⟨_, -, h⟩ := except_bind_ok.mp h
  obtain ⟨_, -, h⟩ := except_bind_ok.mp h
  obtain ⟨_, -, h⟩ := except_bind_ok.mp h
  obtain ⟨_, -, h⟩ := except_bind_ok.mp h
  obtain ⟨_, -, h⟩ := except_bind_ok.mp h
  obtain ⟨_, -, h⟩ := except_bind_ok.mp h
  obtain ⟨_, -, h⟩ := except_bind_ok.mp h
  obtain ⟨_, -, h⟩ := except_bind_ok.mp h
  obtain ⟨_, -, h⟩ := except_bind_ok.mp h
  obtain ⟨_, -, h⟩ := except_bind_ok.mp h
  obtain ⟨_, -, h⟩ := except_bind_ok.mp h
  obtain ⟨_, -, h⟩ := except_bind_ok.mp h
  exact (Except.ok.inj h).symm

/-- What the second set of checks asks for. -/
structure Checked (args : Args) : Prop where
  policy : ∃ p, parsePolicy args.policy = .ok p
  stall : ∃ s, parseStall args.stall = .ok s
  clients : 1 ≤ args.clients
  durationS : le args.durationS zero = false
  workers : 0 ≤ args.workers
  prewarmConnections : ∀ n ∈ args.prewarmConnections, 0 ≤ n
  burstAfterStallMs : 0 ≤ args.burstAfterStallMs
  tlsCaCert : args.tls = true → ∃ path, args.tlsCaCert = some path ∧ path ≠ ""
  tlsPort : args.tls = true → args.tlsPort.isSome = true
  herdCommandIntervalMs : args.herdCommandIntervalMs.lt zero = false
  probe : 0 ≤ args.probeClients ∧ 0 ≤ args.probeRate ∧ (0 < args.probeClients ↔ 0 < args.probeRate)

theorem configFromArgs_checked {args : Args} (h : Checked args) :
    configFromArgs args = .ok (configOf args) := by
  obtain ⟨p, hp⟩ := h.policy
  obtain ⟨s, hs⟩ := h.stall
  obtain ⟨hclients, hrate, hboth⟩ := h.probe
  have hprewarm : args.prewarmConnections.all (0 ≤ ·) = true := by
    cases hargs : args.prewarmConnections with
    | none => rfl
    | some n => exact decide_eq_true (h.prewarmConnections n hargs)
  have hcert : (!args.tls || args.tlsCaCert.any (· ≠ "")) = true := by
    cases htls : args.tls with
    | false => rfl
    | true =>
      obtain ⟨path, hpath, hne⟩ := h.tlsCaCert htls
      rw [hpath]
      exact decide_eq_true hne
  have hport : (!args.tls || args.tlsPort.isSome) = true := by
    cases htls : args.tls with
    | false => rfl
    | true => exact h.tlsPort htls
  unfold configFromArgs
  refine except_bind_ok.mpr ⟨p, hp, ?_⟩
  refine except_bind_ok.mpr ⟨s, hs, ?_⟩
  refine except_bind_ok.mpr ⟨(), require_ok.mpr (decide_eq_true h.clients), ?_⟩
  refine except_bind_ok.mpr ⟨(), require_ok.mpr ((Bool.not_eq_true' _).mpr h.durationS), ?_⟩
  refine except_bind_ok.mpr ⟨(), require_ok.mpr (decide_eq_true h.workers), ?_⟩
  refine except_bind_ok.mpr ⟨(), require_ok.mpr hprewarm, ?_⟩
  refine except_bind_ok.mpr ⟨(), require_ok.mpr (decide_eq_true h.burstAfterStallMs), ?_⟩
  refine except_bind_ok.mpr ⟨(), require_ok.mpr hcert, ?_⟩
  refine except_bind_ok.mpr ⟨(), require_ok.mpr hport, ?_⟩
  refine except_bind_ok.mpr ⟨(), require_ok.mpr ((Bool.not_eq_true' _).mpr h.herdCommandIntervalMs), ?_⟩
  refine except_bind_ok.mpr ⟨(), require_ok.mpr (decide_eq_true hclients), ?_⟩
  refine except_bind_ok.mpr ⟨(), require_ok.mpr (decide_eq_true hrate), ?_⟩
  exact except_bind_ok.mpr ⟨(), require_ok.mpr (beq_iff_eq.mpr (decide_eq_decide.mpr hboth)), rfl⟩

/-! ## The same values -/

/-- A null is no number of connections. -/
def SameCountOrNull (value : Json) : Option Int → Prop
  | none => value = .null
  | some n => value ≠ .null ∧ SameCount value n

/-- The configuration's values are the specification's. -/
structure SameValues (spec : List (String × Json)) (cfg : StormConfig) : Prop where
  clients : SameCount (Json.getD spec "clients") cfg.clients
  burstMs : SameCount (Json.getD spec "burst_ms") cfg.burstMs
  connectTimeoutMs : SameFloat (Json.getD spec "connect_timeout_ms") cfg.connectTimeoutMs
  replyTimeoutMs : SameFloat (Json.getD spec "reply_timeout_ms") cfg.replyTimeoutMs
  policy : Json.getD spec "policy" = .str cfg.policySpec
  handshake : Json.getD spec "handshake" = .arr (cfg.handshake.map .str)
  firstCommand : Json.getD spec "first_command" = .str cfg.firstCommand
  stall : Json.getD spec "stall" = .str cfg.stallSpec
  burstAfterStallMs : SameCount (Json.getD spec "burst_after_stall_ms") cfg.burstAfterStallMs
  burstFirst : (Json.getD spec "burst_first").truthy = cfg.burstFirst
  stallAfterS : SameFloat (Json.getD spec "stall_after_s") cfg.stallAfterS
  prewarmConnections : SameCountOrNull (Json.getD spec "prewarm_connections") cfg.prewarmConnections
  workers : SameCount (Json.getD spec "workers") cfg.workers
  bindAddrs : Json.getD spec "bind_addrs" = .arr ((cfg.bindAddrs.getD []).map .str)
  herdCommandIntervalMs : SameFloat (Json.getD spec "herd_command_interval_ms") cfg.herdCommandIntervalMs
  probeClients : SameCount (Json.getD spec "probe_clients") cfg.probeClients
  probeRate : SameCount (Json.getD spec "probe_rate") cfg.probeRate
  probeTls : (Json.getD spec "probe_tls").truthy = cfg.probeTls

/-- The specifications that the runner reproduces, once they are accepted. -/
structure Carried (launch : Launch) (spec : List (String × Json)) : Prop where
  clients : CarriesCount (Json.getD spec "clients")
  burstMs : CarriesCount (Json.getD spec "burst_ms")
  burstAfterStallMs : CarriesCount (Json.getD spec "burst_after_stall_ms")
  workers : CarriesCount (Json.getD spec "workers")
  prewarmConnections : Json.getD spec "prewarm_connections" = .null ∨
    CarriesCount (Json.getD spec "prewarm_connections")
  connectTimeoutMs : CarriesTimeout (Json.getD spec "connect_timeout_ms")
  replyTimeoutMs : CarriesTimeout (Json.getD spec "reply_timeout_ms")
  policy : ∃ s, Json.getD spec "policy" = .str s
  stall : ∃ s, Json.getD spec "stall" = .str s
  firstCommand : ∃ s, Json.getD spec "first_command" = .str s ∧ isArgument buildParser s = true
  handshake : ∃ commands : List String, Json.getD spec "handshake" = .arr (commands.map .str) ∧
    ∀ command ∈ commands, isArgument buildParser command = true ∧ isCommand command = true
  bindAddrs : ∃ addrs : List String, Json.getD spec "bind_addrs" = .arr (addrs.map .str) ∧
    ∀ addr ∈ addrs, isArgument buildParser addr = true
  /-- The herd's interval is a number. -/
  herdCommandIntervalMs : (Json.getD spec "herd_command_interval_ms").pyFloat ≠ .ok .nan
  probeClients : IsWhole (Json.getD spec "probe_clients")
  probeRate : IsWhole (Json.getD spec "probe_rate")
  /-- A probe over TLS runs, and the server has a TLS port. -/
  probeTls : (Json.getD spec "probe_tls").truthy = true → launch.tls = true ∧
    ∃ n, (Json.getD spec "probe_clients").pyInt = .ok n ∧ 0 < n

section RoundTrip

variable {python : Interpreter} {launch : Launch} {spec : List (String × Json)}

theorem not_le_of_pos {q : Rat} (h : 0 < q) : le (.finite q) zero = false := by
  refine Bool.or_eq_false_iff.mpr ⟨decide_eq_false (not_lt.mpr h.le), decide_eq_false fun heq => ?_⟩
  exact h.ne' (PyFloat.finite.inj heq.1)

/-- The storm lasts some time, whatever its delay. -/
theorem durationS_ok (launch : Launch) {x : PyFloat} (hdelay : (Json.getD spec "start_delay_s").pyFloat = .ok x)
    (hnonneg : x.lt zero = false) (hread : Readable (.float x)) :
    ∃ d, durationS launch spec = .ok d ∧ le d zero = false ∧ Readable (.float d) := by
  have hmin : le stormMinDurationS zero = false ∧ Readable (.float stormMinDurationS) :=
    ⟨by decide, readable_of_isSmall rfl⟩
  have hduration : ∀ remaining, sub (sub (.finite launch.duration) x) stormEndMarginS = remaining →
      durationS launch spec = .ok (if remaining.lt stormMinDurationS then stormMinDurationS else remaining) := by
    rintro remaining rfl
    unfold durationS
    rw [hdelay]
    rfl
  cases x with
  | nan => exact ⟨_, hduration .nan rfl, rfl, trivial⟩
  | inf negative =>
    cases negative with
    | true => cases hnonneg
    | false => exact ⟨_, hduration (.inf true) rfl, hmin⟩
  | finite q =>
    have hq := nonneg_of_not_lt hnonneg
    refine ⟨_, hduration (.finite (launch.duration - q - 2)) rfl, ?_⟩
    split
    · exact hmin
    next hlarge =>
    have hfive : (5 : Rat) ≤ launch.duration - q - 2 :=
      not_lt.mp fun hlt => hlarge (decide_eq_true hlt)
    have hbelow : (launch.duration : Rat) - q - 2 < (PyFloat.overflowAt : Rat) := by
      have hduration : (launch.duration : Rat) < PyFloat.overflowAt := by exact_mod_cast launch.duration_lt
      linarith
    constructor
    · exact not_le_of_pos (by linarith)
    · refine ⟨?_, PyFloat.ofRat_of_one_le (by linarith) hbelow⟩
      have hint : IsDecimal (launch.duration : Rat) := by simpa using IsDecimal.intCast (launch.duration : Int)
      have htwo : IsDecimal (-2 : Rat) := by simpa using IsDecimal.intCast (-2)
      have hsum := (hint.add hread.decimal.neg).add htwo
      rwa [← sub_eq_add_neg, ← sub_eq_add_neg] at hsum

/-- What runs is read, and both probe numbers are set or none. -/
theorem onRunner_some (hread : ∀ key, Readable (Json.getD spec key))
    {cfg : StormConfig} :
    onRunner python launch spec = some cfg ↔ ∃ r args, Renders python launch spec r ∧
      Reads python launch spec r args ∧ configFromArgs args = .ok cfg := by
  have hlimit : ∀ r, Renders python launch spec r →
      r.probeClients.natAbs < 10 ^ 4300 ∧ r.probeRate.natAbs < 10 ^ 4300 := fun r hr =>
    ⟨natAbs_lt_of_pyInt hr.probeClients (hread _), natAbs_lt_of_pyInt hr.probeRate (hread _)⟩
  rw [onRunner_eq]
  constructor
  · intro h
    obtain ⟨r, hr, h⟩ := Option.bind_eq_some_iff.mp h
    obtain ⟨args, hargs, h⟩ := Option.bind_eq_some_iff.mp h
    have hrenders := render_ok.mp (except_toOption_some.mp hr)
    obtain ⟨hclients, hrate⟩ := hlimit r hrenders
    exact ⟨r, args, hrenders, (writeAll_items hclients hrate).mp hargs, except_toOption_some.mp h⟩
  · rintro ⟨r, args, hrenders, hreads, h⟩
    obtain ⟨hclients, hrate⟩ := hlimit r hrenders
    refine Option.bind_eq_some_iff.mpr ⟨r, except_toOption_some.mpr (render_ok.mpr hrenders), ?_⟩
    refine Option.bind_eq_some_iff.mpr ⟨args, (writeAll_items hclients hrate).mpr hreads, ?_⟩
    exact except_toOption_some.mpr h

/-- The probe's numbers are what `int` makes of them, also when no probe runs. -/
theorem probe_read (haccepted : Accepted python spec) {r : Rendered} (hr : Renders python launch spec r) :
    (if 0 < r.probeClients ∧ 0 < r.probeRate then r.probeClients else 0) = r.probeClients ∧
      (if 0 < r.probeClients ∧ 0 < r.probeRate then r.probeRate else 0) = r.probeRate := by
  obtain ⟨n, m, hn, hn0, hm, hm0, hboth⟩ := haccepted.probe
  obtain rfl := Except.ok.inj (hr.probeClients.symm.trans hn)
  obtain rfl := Except.ok.inj (hr.probeRate.symm.trans hm)
  constructor <;> split <;> omega

/-- A NaN is not reproduced as no interval. -/
theorem not_sameFloat_of_nan {value : Json} (h : value.pyFloat = .ok .nan) : ¬ SameFloat value zero := by
  cases value with
  | str s =>
    intro hsame
    cases (pyFloat_str_ok.mp h).symm.trans hsame
  | int n =>
    rw [Json.pyFloat_int] at h
    split at h
    · cases h
    · cases h
  | bool b => cases h
  | float x =>
    obtain rfl : x = .nan := Except.ok.inj h
    intro hsame
    cases hsame
  | null => cases h
  | arr items => cases h
  | obj fields => cases h

/-- A list that reads as texts. -/
theorem listOf_strs {value : Json} {texts : List String} {items : List Json}
    (hvalue : value = .arr (texts.map .str)) (h : listOf value = .ok items) : items = texts.map .str := by
  rw [hvalue] at h
  exact (Except.ok.inj h).symm

/-- A handshake that is reproduced has no blank command, and none that reads as an option. -/
theorem handshake_carried {r : Rendered} {args : Args} (hr : Renders python launch spec r)
    (hreads : Reads python launch spec r args)
    (hsame : Json.getD spec "handshake" = .arr ((resolveHandshake args.handshake).map .str)) :
    ∃ commands : List String, Json.getD spec "handshake" = .arr (commands.map .str) ∧
      ∀ command ∈ commands, isArgument buildParser command = true ∧ isCommand command = true := by
  refine ⟨_, hsame, fun command hcommand => ?_⟩
  have hitems := listOf_strs hsame hr.handshake
  obtain ⟨texts, htexts, hargs⟩ := Option.map_eq_some_iff.mp hreads.handshake
  have hmem : Json.str command ∈ r.handshake := hitems ▸ List.mem_map_of_mem hcommand
  constructor
  · rw [if_neg (List.ne_nil_of_mem hmem)] at htexts
    have hargument := (mapM_asText.mp htexts).1 _ hmem
    exact hargument
  · rw [← hargs] at hcommand
    exact (List.mem_filter.mp hcommand).2

theorem bindAddrs_carried {r : Rendered} {args : Args} (hr : Renders python launch spec r)
    (hreads : Reads python launch spec r args)
    (hsame : Json.getD spec "bind_addrs" = .arr ((args.bindAddr.getD []).map .str)) :
    ∃ addrs : List String, Json.getD spec "bind_addrs" = .arr (addrs.map .str) ∧
      ∀ addr ∈ addrs, isArgument buildParser addr = true := by
  refine ⟨_, hsame, fun addr haddr => ?_⟩
  have hitems := listOf_strs hsame hr.bindAddrs
  obtain ⟨texts, htexts, -⟩ := Option.map_eq_some_iff.mp hreads.bindAddr
  have hmem : Json.str addr ∈ r.bindAddrs := hitems ▸ List.mem_map_of_mem haddr
  have hargument := (mapM_asText.mp htexts).1 _ hmem
  exact hargument

/-- **A reproduced specification is carried.** -/
theorem carried_of_sameValues (haccepted : Accepted python spec)
    (hread : ∀ key, Readable (Json.getD spec key)) {cfg : StormConfig}
    (hrun : onRunner python launch spec = some cfg) (hsame : SameValues spec cfg) :
    Carried launch spec := by
  obtain ⟨r, args, hr, hreads, hcfg⟩ := (onRunner_some hread).mp hrun
  obtain rfl := configFromArgs_ok hcfg
  have hprobe := probe_read haccepted hr
  have hclients : args.probeClients = r.probeClients := hreads.probeClients.trans hprobe.1
  have hrate : args.probeRate = r.probeRate := hreads.probeRate.trans hprobe.2
  have hcount : ∀ {key : String} {n k : Int}, (Json.getD spec key).pyInt = .ok n →
      asInt (python.str (Json.getD spec key)) = some k → CarriesCount (Json.getD spec key) :=
    fun hvalue hasInt => carriesCount_of_asInt hvalue hasInt
  obtain ⟨n₁, hn₁, -⟩ := haccepted.clients
  obtain ⟨n₂, hn₂, -⟩ := haccepted.burstMs
  obtain ⟨n₃, hn₃, -⟩ := haccepted.burstAfterStallMs
  obtain ⟨n₄, hn₄, -⟩ := haccepted.workers
  obtain ⟨x₁, hx₁, -⟩ := haccepted.connectTimeoutMs
  obtain ⟨x₂, hx₂, -⟩ := haccepted.replyTimeoutMs
  exact {
    clients := hcount hn₁ hreads.clients
    burstMs := hcount hn₂ hreads.burstMs
    burstAfterStallMs := hcount hn₃ hreads.burstAfterStallMs
    workers := hcount hn₄ hreads.workers
    prewarmConnections := by
      by_cases hnull : Json.getD spec "prewarm_connections" = .null
      · exact .inl hnull
      · obtain ⟨n, hn, -⟩ := haccepted.prewarmConnections hnull
        have hprewarm := hreads.prewarmConnections
        rw [if_neg hnull] at hprewarm
        obtain ⟨k, hk, -⟩ := Option.map_eq_some_iff.mp hprewarm
        exact .inr (hcount hn hk)
    connectTimeoutMs := carriesTimeout_of_num hx₁ hr.connectTimeout hreads.connectTimeoutMs
    replyTimeoutMs := carriesTimeout_of_num hx₂ hr.replyTimeout hreads.replyTimeoutMs
    policy := ⟨_, hsame.policy⟩
    stall := ⟨_, hsame.stall⟩
    firstCommand := by
      obtain ⟨hargument, -⟩ := asText_eq_some.mp hreads.firstCommand
      rw [hsame.firstCommand] at hargument
      exact ⟨_, hsame.firstCommand, hargument⟩
    handshake := handshake_carried hr hreads hsame.handshake
    bindAddrs := bindAddrs_carried hr hreads hsame.bindAddrs
    herdCommandIntervalMs := by
      intro hnan
      obtain hinterval := Except.ok.inj (hr.interval.symm.trans hnan)
      have hzero := hreads.herdCommandIntervalMs
      rw [hinterval, if_neg (by decide)] at hzero
      have hsame := hsame.herdCommandIntervalMs
      rw [configOf, ← Option.some.inj hzero] at hsame
      exact not_sameFloat_of_nan hnan hsame
    probeClients := by
      refine (sameCount_iff hr.probeClients).mp ?_
      rw [← hclients]
      exact hsame.probeClients
    probeRate := by
      refine (sameCount_iff hr.probeRate).mp ?_
      rw [← hrate]
      exact hsame.probeRate
    probeTls := by
      intro htruthy
      have htls : args.probeTls = true := hsame.probeTls.symm.trans htruthy
      rw [hreads.probeTls, Bool.and_eq_true, Bool.and_eq_true, decide_eq_true_eq] at htls
      exact ⟨htls.2.2, r.probeClients, hr.probeClients, htls.1.1⟩ }

/-- An interval that is not sent is none. -/
theorem eq_zero_of_not_isPositive {x : PyFloat} (hnonneg : x.lt zero = false) (hnan : x ≠ .nan)
    (h : x.isPositive = false) : x = zero := by
  cases x with
  | finite q =>
    have hq : q = 0 := le_antisymm (not_lt.mp (of_decide_eq_false h)) (nonneg_of_not_lt hnonneg)
    rw [hq]
    rfl
  | inf negative =>
    cases negative with
    | true => cases hnonneg
    | false => cases h
  | nan => exact absurd rfl hnan

theorem map_str_str (texts : List String) : (texts.map Json.str).map python.str = texts := by
  rw [List.map_map]
  exact List.map_id' texts

/-- A number of connections, or none, is read as it was written. -/
theorem prewarm_read (haccepted : Accepted python spec) (hread : ∀ key, Readable (Json.getD spec key))
    (h : Carried launch spec) :
    ∃ prewarm, (if Json.getD spec "prewarm_connections" = .null then some none
      else (asInt (python.str (Json.getD spec "prewarm_connections"))).map some) = some prewarm ∧
      (∀ n ∈ prewarm, 0 ≤ n) ∧ SameCountOrNull (Json.getD spec "prewarm_connections") prewarm := by
  by_cases hnull : Json.getD spec "prewarm_connections" = .null
  · exact ⟨none, if_pos hnull, nofun, hnull⟩
  · obtain ⟨n, hn, hnonneg⟩ := haccepted.prewarmConnections hnull
    obtain ⟨hreadn, hsame⟩ := asInt_str python hn hnonneg (hread _) (h.prewarmConnections.resolve_left hnull)
    refine ⟨some n, ?_, fun k hk => Option.some.inj hk ▸ hnonneg, hnull, hsame⟩
    rw [if_neg hnull, hreadn, Option.map_some]

/-- The commands of a handshake, the empty one among them. -/
def handshakeTexts (commands : List String) : List String := if commands = [] then [""] else commands

theorem resolveHandshake_texts {commands : List String} (h : ∀ command ∈ commands, isCommand command = true) :
    resolveHandshake (some (handshakeTexts commands)) = commands := by
  rw [resolveHandshake, handshakeTexts]
  split
  · next hempty =>
    rw [hempty]
    rfl
  · exact List.filter_eq_self.mpr h

theorem handshake_read {commands : List String}
    (h : ∀ command ∈ commands, isArgument buildParser command = true ∧ isCommand command = true) :
    (if commands.map Json.str = [] then some [""]
      else (commands.map Json.str).mapM fun command => asText (python.str command)).map some =
        some (some (handshakeTexts commands)) := by
  unfold handshakeTexts
  by_cases hempty : commands = []
  · rw [if_pos hempty, hempty]
    rfl
  · rw [if_neg hempty, if_neg (List.map_eq_nil_iff.not.mpr hempty)]
    refine congrArg (Option.map some) (mapM_asText.mpr ⟨?_, (map_str_str commands).symm⟩)
    intro value hvalue
    obtain ⟨command, hcommand, rfl⟩ := List.mem_map.mp hvalue
    exact (h command hcommand).1

theorem bindAddrs_read {addrs : List String} (h : ∀ addr ∈ addrs, isArgument buildParser addr = true) :
    ((addrs.map Json.str).mapM fun addr => asText (python.str addr)) = some addrs := by
  refine mapM_asText.mpr ⟨fun value hvalue => ?_, (map_str_str addrs).symm⟩
  obtain ⟨addr, haddr, rfl⟩ := List.mem_map.mp hvalue
  exact h addr haddr

theorem bindAddrs_getD (addrs : List String) : (if addrs = [] then none else some addrs).getD [] = addrs := by
  split
  · next hempty => exact hempty.symm
  · rfl

theorem certPath_ne (launch : Launch) : launch.certDir ++ "/ca.crt" ≠ "" := by
  intro hempty
  have hlist := congrArg String.toList hempty
  rw [String.toList_append] at hlist
  exact absurd (List.append_eq_nil_iff.mp hlist).2 (by decide)

/-- **A carried specification is reproduced.** -/
theorem sameValues_of_carried (haccepted : Accepted python spec)
    (hread : ∀ key, Readable (Json.getD spec key)) (h : Carried launch spec) :
    ∃ cfg, onRunner python launch spec = some cfg ∧ SameValues spec cfg := by
  obtain ⟨n₁, hn₁, hclients⟩ := haccepted.clients
  obtain ⟨n₂, hn₂, hburst⟩ := haccepted.burstMs
  obtain ⟨n₃, hn₃, hafter⟩ := haccepted.burstAfterStallMs
  obtain ⟨n₄, hn₄, hworkers⟩ := haccepted.workers
  obtain ⟨x₁, hx₁, hconnect⟩ := haccepted.connectTimeoutMs
  obtain ⟨x₂, hx₂, hreply⟩ := haccepted.replyTimeoutMs
  obtain ⟨x₃, hx₃, hstallAfter⟩ := haccepted.stallAfterS
  obtain ⟨x₄, hx₄, hinterval⟩ := haccepted.herdCommandIntervalMs
  obtain ⟨x₅, hx₅, hdelay⟩ := haccepted.startDelayS
  obtain ⟨n, m, hn, hn0, hm, hm0, hboth⟩ := haccepted.probe
  obtain ⟨d, hd, hdpos, hdread⟩ :=
    durationS_ok launch hx₅ hdelay (readable_of_pyFloat hx₅ hdelay (hread _))
  obtain ⟨p, hp⟩ := haccepted.policy
  obtain ⟨s, hs⟩ := haccepted.stall
  obtain ⟨policy, hpolicy⟩ := h.policy
  obtain ⟨stall, hstall⟩ := h.stall
  obtain ⟨first, hfirst, hfirstArg⟩ := h.firstCommand
  obtain ⟨commands, hcommands, hcommandArgs⟩ := h.handshake
  obtain ⟨addrs, haddrs, haddrArgs⟩ := h.bindAddrs
  rw [hpolicy, Interpreter.str] at hp
  rw [hstall, Interpreter.str] at hs
  -- each value as it is read
  obtain ⟨hread₁, hsame₁⟩ := asInt_str python hn₁ (by omega) (hread _) h.clients
  obtain ⟨hread₂, hsame₂⟩ := asInt_str python hn₂ hburst (hread _) h.burstMs
  obtain ⟨hread₃, hsame₃⟩ := asInt_str python hn₃ hafter (hread _) h.burstAfterStallMs
  obtain ⟨hread₄, hsame₄⟩ := asInt_str python hn₄ hworkers (hread _) h.workers
  obtain ⟨t₁, y₁, ht₁, hy₁, hsame₅⟩ := timeout_carried python hx₁ hconnect (hread _) h.connectTimeoutMs
  obtain ⟨t₂, y₂, ht₂, hy₂, hsame₆⟩ := timeout_carried python hx₂ hreply (hread _) h.replyTimeoutMs
  obtain ⟨t₃, ht₃, hy₃⟩ := asFloat_num python hstallAfter (readable_of_pyFloat hx₃ hstallAfter (hread _))
  obtain ⟨t₄, ht₄, hy₄⟩ := asFloat_num python hinterval (readable_of_pyFloat hx₄ hinterval (hread _))
  obtain ⟨t₅, ht₅, hy₅⟩ := asFloat_num python (not_lt_of_not_le hdpos) hdread
  obtain ⟨prewarm, hprewarm, hprewarm0, hsame₇⟩ := prewarm_read haccepted hread h
  have hinterval0 : (if x₄.isPositive then asFloat t₄ else some zero) = some x₄ := by
    split
    · exact hy₄
    · next hzero =>
      rw [eq_zero_of_not_isPositive hinterval (fun hnan => h.herdCommandIntervalMs (hnan ▸ hx₄))
        (Bool.not_eq_true _ ▸ hzero)]
  let r : Rendered := ⟨t₁, t₂, t₅, t₃, x₄, t₄, n, m, commands.map .str, addrs.map .str⟩
  have hr : Renders python launch spec r :=
    ⟨ht₁, ht₂, ⟨d, hd, ht₅⟩, ⟨x₃, hx₃, ht₃⟩, hx₄, ht₄, hn, hm, by rw [hcommands]; rfl, by rw [haddrs]; rfl⟩
  have hprobe := probe_read haccepted hr
  have hprobeTls : (Json.getD spec "probe_tls").truthy =
      (decide (0 < n ∧ 0 < m) && ((Json.getD spec "probe_tls").truthy && launch.tls)) := by
    cases htruthy : (Json.getD spec "probe_tls").truthy with
    | false => rw [Bool.false_and, Bool.and_false]
    | true =>
      obtain ⟨htls, k, hk, hpos⟩ := h.probeTls htruthy
      obtain rfl := Except.ok.inj (hn.symm.trans hk)
      rw [htls, decide_eq_true ⟨hpos, hboth.mp hpos⟩]
      rfl
  let args : Args := {
    host := launch.host, port := if launch.port = 0 then 6379 else (launch.port : Int)
    clients := n₁, burstMs := n₂, connectTimeoutMs := y₁, replyTimeoutMs := y₂, policy := policy
    handshake := some (handshakeTexts commands), firstCommand := first, durationS := d, stall := stall
    burstFirst := (Json.getD spec "burst_first").truthy, burstAfterStallMs := n₃, stallAfterS := x₃
    workers := n₄, prewarmConnections := prewarm, bindAddr := if addrs = [] then none else some addrs
    tls := launch.tls, tlsCaCert := if launch.tls then some (launch.certDir ++ "/ca.crt") else none
    tlsPort := if launch.tls then some (launch.tlsPort : Int) else none, herdCommandIntervalMs := x₄
    probeClients := n, probeRate := m, probeTls := (Json.getD spec "probe_tls").truthy
    probePort := if (0 < n ∧ 0 < m) ∧ ((Json.getD spec "probe_tls").truthy && launch.tls) = true then
      some (launch.tlsPort : Int) else none
    bucketMs := 100, json := some launch.jsonPath }
  have hreads : Reads python launch spec r args := {
    host := rfl, port := rfl, clients := hread₁, burstMs := hread₂, connectTimeoutMs := hy₁
    replyTimeoutMs := hy₂
    policy := by rw [hpolicy, Interpreter.str]; exact asText_argument (policy_argument hp)
    handshake := handshake_read hcommandArgs
    firstCommand := by rw [hfirst, Interpreter.str]; exact asText_argument hfirstArg
    durationS := hy₅
    stall := by rw [hstall, Interpreter.str]; exact asText_argument (stall_argument hs)
    burstFirst := rfl, burstAfterStallMs := hread₃, stallAfterS := hy₃, workers := hread₄
    prewarmConnections := hprewarm
    bindAddr := congrArg (Option.map _) (bindAddrs_read haddrArgs)
    tls := rfl, tlsCaCert := rfl, tlsPort := rfl, herdCommandIntervalMs := hinterval0
    probeClients := hprobe.1.symm, probeRate := hprobe.2.symm, probeTls := hprobeTls, probePort := rfl
    bucketMs := rfl, json := rfl }
  have hchecked : Checked args := {
    policy := ⟨p, hp⟩, stall := ⟨s, hs⟩, clients := hclients, durationS := hdpos, workers := hworkers
    prewarmConnections := hprewarm0, burstAfterStallMs := hafter
    tlsCaCert := fun htls => ⟨launch.certDir ++ "/ca.crt", if_pos htls, certPath_ne launch⟩
    tlsPort := fun htls => (congrArg Option.isSome (if_pos htls)).trans rfl
    herdCommandIntervalMs := hinterval
    probe := ⟨hn0, hm0, hboth⟩ }
  have hresolved := resolveHandshake_texts fun command hcommand => (hcommandArgs command hcommand).2
  refine ⟨configOf args, (onRunner_some hread).mpr ⟨r, args, hr, hreads, configFromArgs_checked hchecked⟩, ?_⟩
  exact {
    clients := hsame₁, burstMs := hsame₂, connectTimeoutMs := hsame₅, replyTimeoutMs := hsame₆
    policy := hpolicy
    handshake := hcommands.trans (congrArg (fun texts => Json.arr (texts.map .str)) hresolved.symm)
    firstCommand := hfirst, stall := hstall, burstAfterStallMs := hsame₃, burstFirst := rfl
    stallAfterS := sameFloat_of_pyFloat hx₃, prewarmConnections := hsame₇, workers := hsame₄
    bindAddrs := haddrs.trans (congrArg (fun texts => Json.arr (texts.map .str)) (bindAddrs_getD addrs).symm)
    herdCommandIntervalMs := sameFloat_of_pyFloat hx₄
    probeClients := (sameCount_iff hn).mpr h.probeClients
    probeRate := (sameCount_iff hm).mpr h.probeRate
    probeTls := rfl }

end RoundTrip

/-! ## Submission and runner -/

/-- A specification is refused at submission by a `ValueError`, or the generator
runs with its values. -/
def Reproduced (python : Interpreter) (launch : Launch) (spec : String) : Prop :=
  match parseStormSpec python spec with
  | .error e => IsValueError e
  | .ok out => ∃ cfg, onRunner python launch out = some cfg ∧ SameValues out cfg

/-- The text is JSON or no JSON, no check reads a value that has no number
before one fails, and where none fails the values are carried. -/
structure Reproducible (python : Interpreter) (launch : Launch) (spec : String) : Prop where
  loads : PyText.strip spec.toList ≠ [] →
    Graceful (python.loads (String.ofList (PyText.strip spec.toList)))
  converted : ∀ out, readSpec python spec = .ok out → ConvertibleUpTo python (checks out)
  carried : ∀ out, readSpec python spec = .ok out →
    (∀ check ∈ checks out, check.run python = .ok ()) → Carried launch out

theorem reproduced_iff_graceful {python : Interpreter} {launch : Launch} {spec : String} :
    Reproduced python launch spec ↔ Graceful (parseStormSpec python spec) ∧
      ∀ out, parseStormSpec python spec = .ok out →
        ∃ cfg, onRunner python launch out = some cfg ∧ SameValues out cfg := by
  unfold Reproduced
  cases parseStormSpec python spec with
  | error e =>
    rw [graceful_error]
    exact (and_iff_left nofun).symm
  | ok out => exact ⟨fun h => ⟨graceful_ok out, fun out' hout => Except.ok.inj hout ▸ h⟩, fun h => h.2 out rfl⟩

theorem parseStormSpec_ok {python : Interpreter} {spec : String} {out : List (String × Json)} :
    parseStormSpec python spec = .ok out ↔
      readSpec python spec = .ok out ∧ runChecks python (checks out) = .ok () := by
  unfold parseStormSpec
  constructor
  · intro h
    obtain ⟨out', hread, h⟩ := except_bind_ok.mp h
    obtain ⟨u, hchecks, h⟩ := except_bind_ok.mp h
    obtain rfl := Except.ok.inj h
    exact ⟨hread, hchecks⟩
  · rintro ⟨hread, hchecks⟩
    exact except_bind_ok.mpr ⟨out, hread, except_bind_ok.mpr ⟨(), hchecks, rfl⟩⟩

theorem graceful_parseStormSpec {python : Interpreter} {spec : String} :
    Graceful (parseStormSpec python spec) ↔ Graceful (readSpec python spec) ∧
      ∀ out, readSpec python spec = .ok out → ConvertibleUpTo python (checks out) := by
  unfold parseStormSpec
  rw [graceful_bind]
  refine and_congr_right fun _ => forall_congr' fun out => imp_congr_right fun _ => ?_
  rw [graceful_bind, graceful_runChecks]
  exact and_iff_left fun _ _ => graceful_ok out

/-- An interpreter that reads one document. -/
def fractionPython : Interpreter where
  loads text :=
    if text = "\x7b\"clients\": 2.5\x7d" then .ok (.obj [("clients", .float (.finite (5 / 2)))])
    else .error (.valueError "Expecting value")
  repr := decimalText
  strOf _ := "[]"
  isAlnum := Char.isAlphanum
  loads_readable := by
    intro text fields h f hf
    split at h
    · cases h
      obtain rfl := List.mem_singleton.mp hf
      have hfive : IsDecimal (5 / 2) := ⟨25, 1, by norm_num⟩
      have hrange : (5 / 2 : Rat) < PyFloat.overflowAt := by
        have hsmall : ((3 : ℕ) : Rat) < PyFloat.overflowAt :=
          Nat.cast_lt.mpr (lt_trans (by decide) PyFloat.two_pow_lt_overflowAt)
        exact lt_trans (by norm_num) hsmall
      exact ⟨hfive, PyFloat.ofRat_of_one_le (by norm_num) hrange⟩
    · cases h
  float_repr q hq := (parseFloat_decimalText hq.decimal).trans (congrArg some hq.inRange)
  int_repr := parseInt_decimalText
  unsigned_repr q hq := by
    intro hdash
    rw [toList_decimalText, if_neg (not_lt.mpr hq), List.nil_append] at hdash
    exact absurd (mem_decimalBody '-' (List.mem_of_mem_head? hdash)) (by decide)
  alnum_bare c hc := by
    have hne : ∀ d : Char, d.isAlphanum = false → c ≠ d := by
      rintro d hd rfl
      rw [hd] at hc
      cases hc
    refine ⟨?_, ?_, hne '\\' (by decide)⟩
    · simp [Shell.isSpace, hne ' ' (by decide), hne '\t' (by decide), hne '\r' (by decide),
        hne '\n' (by decide)]
    · simp [Shell.isQuote, hne '\'' (by decide), hne '"' (by decide)]

/-- A launch without TLS. -/
def plainLaunch : Launch where
  executable := "/usr/bin/python3"
  host := "127.0.0.1"
  port := 6379
  jsonPath := "/tmp/storm_result.json"
  duration := 60
  tls := false
  tlsPort := 6380
  certDir := "/tmp/tls"
  host_argument := by decide +kernel
  json_argument := by decide +kernel
  cert_argument := by decide +kernel
  port_lt := by decide
  tlsPort_le := by decide
  duration_lt := lt_trans (by decide) PyFloat.two_pow_lt_overflowAt

/-- The specification as it is accepted. -/
def fractionSpec : List (String × Json) := updated [("clients", .float (.finite (5 / 2)))]

theorem parse_fraction :
    parseStormSpec fractionPython "\x7b\"clients\": 2.5\x7d" = .ok fractionSpec := by
  refine parseStormSpec_ok.mpr ⟨rfl, ?_⟩
  decide +kernel

end Conductress.Stormgen.Overlay
