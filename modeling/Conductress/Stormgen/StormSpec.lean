import Conductress.Lib.Shell
import Conductress.Stormgen.StormConfig

/-!
# The overlay's specification

`parse_storm_spec`: the JSON object of a connection storm, its defaults, and the
checks it has to pass when a task is submitted. Its own words for them are that
a specification is "rejected here, at submission time, rather than on a runner".

The values stay as JSON has them. A check reads one with `int(..)` or
`float(..)`, which raise a `ValueError` on a bad text but other exceptions on a
value they do not take at all (`IsCount`, `IsReal`).

* `runChecks_ok` — a specification is accepted when every check passes;
* `graceful_runChecks` — one that is not is refused by a `ValueError` exactly
  when no check up to the first failing one reads such a value.
-/

namespace Conductress.Stormgen.Overlay

open Lib

/-! ## The interpreter -/

/-- A value `json.loads` makes of a literal: an integer within the limit of its
digits, a float within its range. -/
def Readable : Json → Prop
  | .int n => n.natAbs < 10 ^ 4300
  | .float (.finite q) => IsDouble q
  | _ => True

/-- What of the interpreter is not modelled: the JSON reader, the texts of
floats, lists and dictionaries, and the classes of characters. -/
structure Interpreter where
  loads          : String → Except PyError Json
  /-- `repr` of a finite float. -/
  repr           : Rat → String
  /-- `str` of a list or a dictionary. -/
  strOf          : Json → String
  isAlnum        : Char → Bool
  loads_readable : ∀ text fields, loads text = .ok (.obj fields) → ∀ f ∈ fields, Readable f.2
  float_repr     : ∀ q, IsDouble q → PyText.parseFloat (repr q) = some (.finite q)
  int_repr       : ∀ q, PyText.parseInt (repr q) = none
  unsigned_repr  : ∀ q, 0 ≤ q → (repr q).toList.head? ≠ some '-'
  alnum_bare     : ∀ c, isAlnum c = true → Shell.Bare c

/-- `str(value)`. -/
def Interpreter.str (python : Interpreter) : Json → String
  | .null => "None"
  | .bool b => if b then "True" else "False"
  | .int n => toString n
  | .float (.finite q) => python.repr q
  | .float (.inf negative) => if negative then "-inf" else "inf"
  | .float .nan => "nan"
  | .str s => s
  | value => python.strOf value

/-! ## Keys and defaults -/

/-- `STORM_SPEC_DEFAULTS`. -/
def stormSpecDefaults : List (String × Json) :=
  [("clients", .int 2000),
    ("burst_ms", .int 200),
    ("connect_timeout_ms", .float (.finite 1000)),
    ("reply_timeout_ms", .float (.finite 500)),
    ("policy", .str "fixed:200"),
    ("handshake", .arr [.str "HELLO 3"]),
    ("first_command", .str "GET storm:key"),
    ("stall", .str "none"),
    ("burst_after_stall_ms", .int 200),
    ("burst_first", .bool false),
    ("stall_after_s", .float (.finite 1)),
    ("start_delay_s", .float (.finite 5)),
    ("prewarm_connections", .null),
    ("workers", .int 0),
    ("bind_addrs", .arr []),
    ("tls", .bool false),
    ("tls_port", .null),
    ("tls_ca_cert", .null),
    ("herd_command_interval_ms", .float (.finite 0)),
    ("probe_clients", .int 0),
    ("probe_rate", .int 0),
    ("probe_tls", .bool false)]

/-- `set(parsed) - set(STORM_SPEC_DEFAULTS)` is empty. -/
def knownKeys (parsed : List (String × Json)) : Bool :=
  parsed.all fun f => (Json.keys stormSpecDefaults).elem f.1

/-- `out.update(parsed)`, over the defaults. -/
def updated (parsed : List (String × Json)) : List (String × Json) :=
  parsed.foldl (fun out f => Json.setField out f.1 f.2) stormSpecDefaults

/-! ## Checks -/

/-- `int(value)` returns or raises a `ValueError`. -/
def IsCount : Json → Prop
  | .null | .arr _ | .obj _ | .float (.inf _) => False
  | _ => True

/-- `float(value)` returns or raises a `ValueError`. -/
def IsReal : Json → Prop
  | .null | .arr _ | .obj _ => False
  | .int n => n.natAbs < PyFloat.overflowAt
  | _ => True

/-- One check of a value, with the message when it fails. -/
inductive Check where
  | policy (value : Json)
  | stall (value : Json)
  | count (value : Json) (least : Int) (message : String)
  | countOrNull (value : Json) (message : String)
  | positive (value : Json) (message : String)
  | nonneg (value : Json) (message : String)
  | array (value : Json) (message : String)
  | paired (clients rate : Json) (message : String)

namespace Check

def run (python : Interpreter) : Check → Except PyError Unit
  | policy value => (parsePolicy (python.str value)).map fun _ => ()
  | stall value => (parseStall (python.str value)).map fun _ => ()
  | count value least message => value.pyInt >>= fun n => require (least ≤ n) message
  | countOrNull value message =>
    if value = .null then .ok () else value.pyInt >>= fun n => require (0 ≤ n) message
  | positive value message => value.pyFloat >>= fun x => require (!le x zero) message
  | nonneg value message => value.pyFloat >>= fun x => require (!x.lt zero) message
  | array value message =>
    match value with
    | .arr _ => .ok ()
    | _ => .error (.valueError message)
  | paired clients rate message =>
    clients.pyInt >>= fun n => rate.pyInt >>= fun m => require (decide (0 < n) == decide (0 < m)) message

/-- The check reads its value or refuses it with a `ValueError`. -/
def Convertible : Check → Prop
  | policy _ | stall _ | array _ _ => True
  | count value _ _ => IsCount value
  | countOrNull value _ => value = .null ∨ IsCount value
  | positive value _ | nonneg value _ => IsReal value
  | paired clients rate _ => IsCount clients ∧ ((∃ n, clients.pyInt = .ok n) → IsCount rate)

end Check

/-- The checks of `parse_storm_spec`, in its order. -/
def checks (out : List (String × Json)) : List Check :=
  let v := Json.getD out
  [.policy (v "policy"),
    .stall (v "stall"),
    .count (v "clients") 1 "connection-storm clients must be >= 1",
    .count (v "burst_ms") 0 "connection-storm burst_ms must be >= 0",
    .positive (v "connect_timeout_ms")
      "connection-storm connect_timeout_ms and reply_timeout_ms must be > 0",
    .positive (v "reply_timeout_ms")
      "connection-storm connect_timeout_ms and reply_timeout_ms must be > 0",
    .count (v "workers") 0 "connection-storm workers must be >= 0 (0 = auto)",
    .count (v "burst_after_stall_ms") 0 "connection-storm burst_after_stall_ms must be >= 0",
    .nonneg (v "stall_after_s") "connection-storm stall_after_s must be >= 0",
    .nonneg (v "start_delay_s") "connection-storm start_delay_s must be >= 0",
    .countOrNull (v "prewarm_connections") "connection-storm prewarm_connections must be >= 0 or null",
    .array (v "handshake") "connection-storm handshake must be a JSON array of command strings",
    .array (v "bind_addrs") "connection-storm bind_addrs must be a JSON array of source addresses",
    .nonneg (v "herd_command_interval_ms") "connection-storm herd_command_interval_ms must be >= 0",
    .count (v "probe_clients") 0 "connection-storm probe_clients must be >= 0",
    .count (v "probe_rate") 0 "connection-storm probe_rate must be >= 0",
    .paired (v "probe_clients") (v "probe_rate")
      "connection-storm probe_clients and probe_rate must both be set (or both unset)"]

def runChecks (python : Interpreter) : List Check → Except PyError Unit
  | [] => .ok ()
  | check :: checks => check.run python >>= fun _ => runChecks python checks

/-- Up to the first check that fails, every check reads its value or refuses it
with a `ValueError`. -/
def ConvertibleUpTo (python : Interpreter) : List Check → Prop
  | [] => True
  | check :: checks => check.Convertible ∧ (check.run python = .ok () → ConvertibleUpTo python checks)

/-! ## Reading a specification -/

/-- The object of the text; a blank text is an empty one. -/
def readObject (python : Interpreter) (spec : String) : Except PyError (List (String × Json)) :=
  let text := PyText.strip spec.toList
  if text = [] then .ok []
  else
    match python.loads (String.ofList text) with
    | .error (.valueError _) => .error (.valueError "connection-storm overlay_spec is not valid JSON")
    | .error e => .error e
    | .ok (.obj fields) => .ok fields
    | .ok _ => .error (.valueError "connection-storm overlay_spec must be a JSON object")

/-- The specification with its defaults, before it is checked. -/
def readSpec (python : Interpreter) (spec : String) : Except PyError (List (String × Json)) := do
  let parsed ← readObject python spec
  require (knownKeys parsed) "connection-storm overlay_spec has unknown keys"
  return updated parsed

/-- `parse_storm_spec`. -/
def parseStormSpec (python : Interpreter) (spec : String) : Except PyError (List (String × Json)) := do
  let out ← readSpec python spec
  runChecks python (checks out)
  return out

/-! ## What a refusal is -/

/-- The exception a task's submission is refused with. -/
def IsValueError : PyError → Prop
  | .valueError _ => True
  | _ => False

/-- It returns, or raises a `ValueError`. -/
def Graceful {α : Type} (x : Except PyError α) : Prop := ∀ e, x = .error e → IsValueError e

theorem graceful_ok {α : Type} (a : α) : Graceful (.ok a) := nofun

theorem graceful_error {α : Type} {e : PyError} : Graceful (.error e : Except PyError α) ↔ IsValueError e := by
  constructor
  · intro h
    exact h e rfl
  · intro h e' he
    cases he
    exact h

theorem graceful_map {α β : Type} {x : Except PyError α} {f : α → β} : Graceful (x.map f) ↔ Graceful x := by
  cases x with
  | ok a => exact iff_of_true (graceful_ok _) (graceful_ok _)
  | error e => exact graceful_error.trans graceful_error.symm

theorem graceful_valueError {α : Type} (message : String) :
    Graceful (.error (.valueError message) : Except PyError α) := graceful_error.mpr trivial

theorem graceful_bind {α β : Type} {x : Except PyError α} {f : α → Except PyError β} :
    Graceful (x >>= f) ↔ Graceful x ∧ ∀ a, x = .ok a → Graceful (f a) := by
  cases x with
  | ok a =>
    have hok : (.ok a >>= f : Except PyError β) = f a := rfl
    rw [hok]
    exact ⟨fun h => ⟨nofun, fun b hb => Except.ok.inj hb ▸ h⟩, fun h => h.2 a rfl⟩
  | error e =>
    have herror : (.error e >>= f : Except PyError β) = .error e := rfl
    rw [herror]
    constructor
    · intro h
      refine ⟨fun e' he => ?_, nofun⟩
      cases he
      exact h e rfl
    · rintro ⟨h, -⟩ e' he
      cases he
      exact h e rfl

theorem graceful_require (passes : Bool) (message : String) : Graceful (require passes message) := by
  unfold require
  split
  · nofun
  · intro e he
    cases he
    trivial

theorem graceful_bind_require {α : Type} {x : Except PyError α} {passes : α → Bool} {message : String} :
    Graceful (x >>= fun a => require (passes a) message) ↔ Graceful x := by
  rw [graceful_bind]
  exact and_iff_left fun a _ => graceful_require _ _

/-! ### Values -/

theorem graceful_pyInt {v : Json} : Graceful v.pyInt ↔ IsCount v := by
  cases v with
  | float x =>
    cases x with
    | finite q => exact iff_of_true (graceful_ok _) trivial
    | inf negative => exact graceful_error
    | nan => exact graceful_error
  | str s =>
    rw [Json.pyInt_str]
    cases PyText.parseInt s with
    | some n => exact iff_of_true (graceful_ok n) trivial
    | none => exact graceful_error
  | bool b => exact iff_of_true (graceful_ok _) trivial
  | int n => exact iff_of_true (graceful_ok n) trivial
  | null => exact graceful_error
  | arr items => exact graceful_error
  | obj fields => exact graceful_error

theorem graceful_pyFloat {v : Json} : Graceful v.pyFloat ↔ IsReal v := by
  cases v with
  | int n =>
    rw [Json.pyFloat_int, IsReal]
    split
    · next h => exact graceful_error.trans (iff_of_false id (Nat.not_lt.mpr h))
    · next h => exact iff_of_true (graceful_ok _) (Nat.lt_of_not_le h)
  | str s =>
    rw [Json.pyFloat_str]
    cases PyText.parseFloat s with
    | some x => exact iff_of_true (graceful_ok x) trivial
    | none => exact graceful_error
  | bool b => exact iff_of_true (graceful_ok _) trivial
  | float x => exact iff_of_true (graceful_ok x) trivial
  | null => exact graceful_error
  | arr items => exact graceful_error
  | obj fields => exact graceful_error

/-! ### Policies and stalls -/

theorem graceful_fixedPolicy (delayMs : PyFloat) : Graceful (fixedPolicy delayMs) := by
  unfold fixedPolicy
  split
  · exact graceful_valueError _
  · exact graceful_ok _

theorem graceful_exponentialPolicy (baseMs maxMs : PyFloat) (jitter : Bool) :
    Graceful (exponentialPolicy baseMs maxMs jitter) := by
  unfold exponentialPolicy
  split
  · exact graceful_valueError _
  · split
    · exact graceful_valueError _
    · exact graceful_ok _

theorem graceful_parseMs (token : List Char) (field : String) : Graceful (parseMs token field) := by
  unfold parseMs
  split
  · exact graceful_ok _
  · exact graceful_valueError _

theorem graceful_parsePolicy (spec : String) : Graceful (parsePolicy spec) := by
  unfold parsePolicy
  dsimp only
  split
  · exact graceful_valueError _
  split
  · split
    · exact graceful_valueError _
    · exact graceful_ok _
  split
  · split
    · exact graceful_valueError _
    · exact graceful_bind.mpr ⟨graceful_parseMs _ _, fun x _ => graceful_fixedPolicy x⟩
  split
  · split
    · refine graceful_bind.mpr ⟨graceful_parseMs _ _, fun baseMs _ => ?_⟩
      exact graceful_bind.mpr ⟨graceful_parseMs _ _, fun maxMs _ => graceful_exponentialPolicy _ _ _⟩
    · refine graceful_bind.mpr ⟨graceful_parseMs _ _, fun baseMs _ => ?_⟩
      refine graceful_bind.mpr ⟨graceful_parseMs _ _, fun maxMs _ => ?_⟩
      split
      · exact graceful_valueError _
      · exact graceful_exponentialPolicy _ _ _
    · exact graceful_valueError _
  · exact graceful_valueError _

theorem graceful_slowLoopStall (blockKind : String) (blockMs periodMs durationS : PyFloat) :
    Graceful (slowLoopStall blockKind blockMs periodMs durationS) := by
  unfold slowLoopStall
  refine graceful_bind.mpr ⟨?_, fun kind _ => ?_⟩
  · unfold blockKindOf
    split
    · exact graceful_ok _
    · exact graceful_ok _
    · exact graceful_valueError _
  · split
    · exact graceful_valueError _
    split
    · exact graceful_valueError _
    split
    · exact graceful_valueError _
    · exact graceful_ok _

theorem graceful_parseSlowLoop (tail : List Char) : Graceful (parseSlowLoop tail) := by
  unfold parseSlowLoop
  split
  · split
    · exact graceful_slowLoopStall _ _ _ _
    · exact graceful_valueError _
  · exact graceful_valueError _

theorem graceful_parseStall (spec : String) : Graceful (parseStall spec) := by
  unfold parseStall
  dsimp only
  split
  · exact graceful_ok _
  split
  · split
    · exact graceful_valueError _
    split
    · exact graceful_valueError _
    split
    · exact graceful_valueError _
    · exact graceful_ok _
  split
  · exact graceful_parseSlowLoop _
  · exact graceful_valueError _

variable {python : Interpreter}

/-! ### The checks -/

theorem Check.graceful_run (check : Check) : Graceful (check.run python) ↔ check.Convertible := by
  cases check with
  | policy value => exact iff_of_true (graceful_map.mpr (graceful_parsePolicy _)) trivial
  | stall value => exact iff_of_true (graceful_map.mpr (graceful_parseStall _)) trivial
  | count value least message => exact graceful_bind_require.trans graceful_pyInt
  | countOrNull value message =>
    rw [run, Convertible]
    split
    · next hnull => exact iff_of_true (graceful_ok _) (.inl hnull)
    · next hvalue => rw [graceful_bind_require, graceful_pyInt, or_iff_right hvalue]
  | positive value message => exact graceful_bind_require.trans graceful_pyFloat
  | nonneg value message => exact graceful_bind_require.trans graceful_pyFloat
  | array value message =>
    refine iff_of_true ?_ trivial
    cases value with
    | arr items => exact graceful_ok _
    | _ => exact graceful_valueError _
  | paired clients rate message =>
    rw [run, Convertible, graceful_bind, graceful_pyInt]
    refine and_congr_right fun _ => ?_
    constructor
    · rintro h ⟨n, hn⟩
      exact graceful_pyInt.mp (graceful_bind_require.mp (h n hn))
    · intro h n hn
      exact graceful_bind_require.mpr (graceful_pyInt.mpr (h ⟨n, hn⟩))

/-- **What refuses a specification** is a `ValueError`, unless a check reads a
value that has no number. -/
theorem graceful_runChecks (cs : List Check) :
    Graceful (runChecks python cs) ↔ ConvertibleUpTo python cs := by
  induction cs with
  | nil => exact iff_of_true (graceful_ok _) trivial
  | cons check cs ih =>
    unfold runChecks ConvertibleUpTo
    rw [graceful_bind, check.graceful_run, ih]
    exact and_congr_right fun _ => ⟨fun h hok => h () hok, fun h _ hok => h hok⟩

/-- Every check of an accepted specification passes. -/
theorem runChecks_ok {cs : List Check} :
    runChecks python cs = .ok () ↔ ∀ check ∈ cs, check.run python = .ok () := by
  induction cs with
  | nil => simp [runChecks]
  | cons check cs ih =>
    rw [runChecks, except_bind_ok, List.forall_mem_cons, ← ih]
    exact ⟨fun ⟨_, h⟩ => h, fun h => ⟨(), h⟩⟩


/-! ## What a specification holds -/

theorem mem_setField {fields : List (String × Json)} {key : String} {value : Json} {f : String × Json}
    (h : f ∈ Json.setField fields key value) : f ∈ fields ∨ f = (key, value) := by
  unfold Json.setField at h
  split at h
  · obtain ⟨g, hg, rfl⟩ := List.mem_map.mp h
    split
    · exact .inr rfl
    · exact .inl hg
  · rcases List.mem_append.mp h with h | h
    · exact .inl h
    · exact .inr (List.mem_singleton.mp h)

theorem mem_foldl_setField {parsed fields : List (String × Json)} {f : String × Json}
    (h : f ∈ parsed.foldl (fun out f => Json.setField out f.1 f.2) fields) : f ∈ fields ∨ f ∈ parsed := by
  induction parsed generalizing fields with
  | nil => exact .inl h
  | cons g parsed ih =>
    rcases ih h with h | h
    · rcases mem_setField h with h | rfl
      · exact .inl h
      · exact .inr List.mem_cons_self
    · exact .inr (List.mem_cons_of_mem _ h)

/-- A number without a fraction that is far below every limit. -/
def isSmall : Json → Bool
  | .int n => n.natAbs < 10 ^ 4
  | .float (.finite q) => q.den = 1 && decide (0 ≤ q.num) && q.num.natAbs < 10 ^ 4
  | _ => true

theorem readable_of_isSmall {v : Json} (h : isSmall v = true) : Readable v := by
  cases v with
  | int n =>
    have hn : n.natAbs < 10 ^ 4 := of_decide_eq_true h
    unfold Readable
    generalize hk : 4300 = k
    exact lt_of_lt_of_le hn (Nat.pow_le_pow_right (by omega) (by omega))
  | float x =>
    cases x with
    | finite q =>
      simp only [isSmall, Bool.and_eq_true, decide_eq_true_eq] at h
      obtain ⟨⟨hden, hnonneg⟩, hsmall⟩ := h
      obtain ⟨n, hn⟩ := Int.eq_ofNat_of_zero_le hnonneg
      have hq : q = (n : Rat) := by
        rw [← Rat.coe_int_num_of_den_eq_one hden, hn, Int.cast_natCast]
      rw [hn, Int.natAbs_natCast] at hsmall
      rw [hq]
      exact IsDouble.natCast (lt_trans (lt_trans hsmall (by omega)) PyFloat.two_pow_lt_overflowAt)
    | inf negative => trivial
    | nan => trivial
  | _ => trivial

/-- The defaults are values the reader could have read. -/
theorem isSmall_default : ∀ f ∈ stormSpecDefaults, isSmall f.2 = true := by decide

theorem readable_getD {fields : List (String × Json)} (h : ∀ f ∈ fields, Readable f.2) (key : String) :
    Readable (Json.getD fields key) := by
  unfold Json.getD Json.lookup
  cases hfind : fields.find? fun f => decide (f.1 = key) with
  | none => trivial
  | some f => exact h f (List.mem_of_find?_eq_some hfind)

/-- **A specification's values** are the reader's. -/
theorem readable_readSpec {spec : String} {out : List (String × Json)}
    (h : readSpec python spec = .ok out) (key : String) : Readable (Json.getD out key) := by
  unfold readSpec at h
  obtain ⟨parsed, hparsed, h⟩ := except_bind_ok.mp h
  obtain ⟨-, -, h⟩ := except_bind_ok.mp h
  obtain rfl := Except.ok.inj h
  refine readable_getD (fun f hf => ?_) key
  rcases mem_foldl_setField hf with hdefault | hfield
  · exact readable_of_isSmall (isSmall_default f hdefault)
  · unfold readObject at hparsed
    dsimp only at hparsed
    split at hparsed
    · cases hparsed
      cases hfield
    split at hparsed
    · cases hparsed
    · cases hparsed
    · next hloads =>
      cases hparsed
      exact python.loads_readable _ _ hloads f hfield
    · cases hparsed

theorem graceful_readSpec {spec : String} : Graceful (readSpec python spec) ↔
    (PyText.strip spec.toList ≠ [] →
      Graceful (python.loads (String.ofList (PyText.strip spec.toList)))) := by
  have hobject : Graceful (readSpec python spec) ↔ Graceful (readObject python spec) := by
    unfold readSpec
    rw [graceful_bind]
    refine and_iff_left fun parsed _ => ?_
    exact graceful_bind.mpr ⟨graceful_require _ _, fun _ _ => graceful_ok _⟩
  rw [hobject]
  unfold readObject
  dsimp only
  split
  · next hempty => exact iff_of_true (graceful_ok _) fun hne => absurd hempty hne
  next hne =>
  rw [imp_iff_right hne]
  split
  · next hload => exact iff_of_true (graceful_valueError _) (hload ▸ graceful_valueError _)
  · next hload => rw [hload, graceful_error, graceful_error]
  · next hload => exact iff_of_true (graceful_ok _) (hload ▸ graceful_ok _)
  · next hload => exact iff_of_true (graceful_valueError _) (hload ▸ graceful_ok _)

end Conductress.Stormgen.Overlay
