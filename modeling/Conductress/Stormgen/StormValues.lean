import Conductress.Stormgen.StormOverlay

/-!
# What becomes of a value on the command line

Which values of a specification the generator reads as they were written: a
count that is an integer or a text (`CarriesCount`), a timeout that is no text
`int` fails on (`CarriesTimeout`), every float that `_num` writes after
`float(..)`, a policy or a stall that was parsed.

`SameCount` and `SameFloat` say that a number of the configuration is the value;
a text is the number it reads as.
-/

namespace Conductress.Stormgen.Overlay

open Lib Lib.ArgParse

/-! ## Counts -/

/-- A count that `str` writes as `int` reads it, and the parser takes. -/
def CarriesCount : Json → Prop
  | .int _ => True
  | .str s => isArgument buildParser s = true
  | _ => False

/-- The number is the value; a text is the number it reads as. -/
def SameCount : Json → Int → Prop
  | .str s, n => PyText.parseInt s = some n
  | value, n => value.number? = some (.finite n)

section Counts

variable {python : Interpreter} {value : Json} {n : Int}

/-- What `int` reads of a text. -/
theorem pyInt_str_ok {s : String} : (Json.str s).pyInt = .ok n ↔ PyText.parseInt s = some n := by
  rw [Json.pyInt_str]
  cases PyText.parseInt s with
  | none => exact iff_of_false nofun nofun
  | some m => exact ⟨fun h => congrArg some (Except.ok.inj h), fun h => congrArg Except.ok (Option.some.inj h)⟩

theorem pyFloat_str_ok {s : String} {x : PyFloat} :
    (Json.str s).pyFloat = .ok x ↔ PyText.parseFloat s = some x := by
  rw [Json.pyFloat_str]
  cases PyText.parseFloat s with
  | none => exact iff_of_false nofun nofun
  | some m => exact ⟨fun h => congrArg some (Except.ok.inj h), fun h => congrArg Except.ok (Option.some.inj h)⟩

/-- A count is read as it was written. -/
theorem asInt_str (python : Interpreter) (hvalue : value.pyInt = .ok n) (hnonneg : 0 ≤ n) (hread : Readable value)
    (hcarries : CarriesCount value) : asInt (python.str value) = some n ∧ SameCount value n := by
  cases value with
  | int m =>
    obtain rfl : m = n := Except.ok.inj hvalue
    exact ⟨asInt_toString_int hnonneg hread, rfl⟩
  | str s =>
    have hparse := pyInt_str_ok.mp hvalue
    refine ⟨?_, hparse⟩
    unfold asInt
    rw [Interpreter.str, asText_argument hcarries, Option.bind_some, hparse]
  | _ => exact absurd hcarries id

/-- Any other value is no count to the parser. -/
theorem carriesCount_of_asInt {m : Int} (hvalue : value.pyInt = .ok n)
    (h : asInt (python.str value) = some m) : CarriesCount value := by
  obtain ⟨text, htext, hparse⟩ := Option.bind_eq_some_iff.mp h
  obtain ⟨hargument, rfl⟩ := asText_eq_some.mp htext
  cases value with
  | int n => trivial
  | str s => exact hargument
  | bool b =>
    have hnone : ∀ b : Bool, PyText.parseInt (if b then "True" else "False") = none := by decide +kernel
    rw [Interpreter.str, hnone b] at hparse
    cases hparse
  | float x =>
    cases x with
    | finite q =>
      rw [Interpreter.str, python.int_repr q] at hparse
      cases hparse
    | inf negative => cases hvalue
    | nan => cases hvalue
  | null => cases hvalue
  | arr items => cases hvalue
  | obj fields => cases hvalue

/-- A number without a fraction, or no float. -/
def IsWhole : Json → Prop
  | .float (.finite q) => q.den = 1
  | _ => True

/-- `int` keeps a number that has no fraction. -/
theorem sameCount_iff (hvalue : value.pyInt = .ok n) : SameCount value n ↔ IsWhole value := by
  cases value with
  | str s => exact iff_of_true (pyInt_str_ok.mp hvalue) trivial
  | int m =>
    obtain rfl : m = n := Except.ok.inj hvalue
    exact iff_of_true rfl trivial
  | bool b =>
    refine iff_of_true ?_ trivial
    obtain rfl : (if b then (1 : Int) else 0) = n := Except.ok.inj hvalue
    cases b <;> rfl
  | float x =>
    cases x with
    | finite q =>
      obtain rfl : q.num.tdiv q.den = n := Except.ok.inj hvalue
      have hsame : SameCount (.float (.finite q)) (q.num.tdiv q.den) ↔ q = ((q.num.tdiv q.den : Int) : Rat) := by
        constructor
        · intro h
          exact PyFloat.finite.inj (Option.some.inj h)
        · intro h
          exact congrArg (fun q => some (PyFloat.finite q)) h
      rw [hsame]
      constructor
      · intro h
        have hden : ((q.num.tdiv q.den : Int) : Rat).den = 1 := Rat.den_intCast _
        exact h ▸ hden
      · intro h
        have h' : q.den = 1 := h
        rw [h', Int.natCast_one, Int.tdiv_one]
        exact (Rat.coe_int_num_of_den_eq_one h').symm
    | inf negative => cases hvalue
    | nan => cases hvalue
  | null => cases hvalue
  | arr items => cases hvalue
  | obj fields => cases hvalue

/-- What `int` makes of a value is within the limit of digits. -/
theorem natAbs_lt_of_pyInt (hvalue : value.pyInt = .ok n) (hread : Readable value) :
    n.natAbs < 10 ^ 4300 := by
  cases value with
  | int m =>
    obtain rfl : m = n := Except.ok.inj hvalue
    exact hread
  | str s => exact PyText.parseInt_natAbs_lt (pyInt_str_ok.mp hvalue)
  | bool b =>
    obtain rfl : (if b then (1 : Int) else 0) = n := Except.ok.inj hvalue
    refine pow_lt_limit ?_
    cases b <;> decide
  | float x =>
    cases x with
    | finite q =>
      obtain rfl : q.num.tdiv q.den = n := Except.ok.inj hvalue
      exact lt_trans (PyFloat.natAbs_tdiv_lt hread.inRange) PyFloat.overflowAt_lt
    | inf negative => cases hvalue
    | nan => cases hvalue
  | null => cases hvalue
  | arr items => cases hvalue
  | obj fields => cases hvalue

end Counts

/-! ## Timeouts and intervals -/

/-- The double of the value, an integer's exact or rounded. -/
def SameFloat : Json → PyFloat → Prop
  | .str s, x => PyText.parseFloat s = some x
  | .int n, x => x = .ofRat n ∨ x = .finite (PyFloat.roundInt n : Int)
  | value, x => value.number? = some x

/-- A timeout that `_num` writes: a text without a fraction has to be one that
`int` reads. -/
def CarriesTimeout : Json → Prop
  | .str s =>
    if (PyText.parseFloat s).any isInteger = true then (PyText.parseInt s).isSome = true
    else isArgument buildParser s = true
  | _ => True

section Floats

variable {python : Interpreter} {value : Json} {x y : PyFloat} {text : String}

theorem asFloat_toString (n : ℕ) : asFloat (toString n) = some (.ofRat n) := by
  unfold asFloat
  rw [asText_argument (isArgument_of_head (head_toString n)), Option.bind_some]
  exact PyText.parseFloat_toString n

theorem nonneg_of_not_lt {q : Rat} (h : (PyFloat.finite q).lt zero = false) : 0 ≤ q :=
  not_lt.mp (of_decide_eq_false h)

/-- A finite float without a fraction is written by its digits. -/
theorem num_of_isInteger {q : Rat} (h : isInteger (.finite q) = true) :
    num python (.float (.finite q)) = .ok (toString q.num) := by
  have hden : q.den = 1 := of_decide_eq_true h
  have hint : (Json.float (.finite q)).pyInt = .ok q.num := by
    rw [Json.pyInt, hden, Int.natCast_one, Int.tdiv_one]
  have hfloat : (Json.float (.finite q)).pyFloat = .ok (.finite q) := rfl
  unfold num
  rw [hfloat, hint]
  exact if_pos h

theorem num_of_not_isInteger (h : isInteger x = false) :
    num python (.float x) = .ok (python.str (.float x)) := by
  have hfloat : (Json.float x).pyFloat = .ok x := rfl
  unfold num
  rw [hfloat]
  exact if_neg (by rw [h]; exact Bool.false_ne_true)

/-- **A float is read as it was written**, once it is not negative. -/
theorem asFloat_num (python : Interpreter) (hnonneg : x.lt zero = false) (hread : Readable (.float x)) :
    ∃ text, num python (.float x) = .ok text ∧ asFloat text = some x := by
  cases x with
  | finite q =>
    have hq := nonneg_of_not_lt hnonneg
    cases hinteger : isInteger (.finite q) with
    | true =>
      refine ⟨_, num_of_isInteger hinteger, ?_⟩
      obtain ⟨n, hn⟩ := Int.eq_ofNat_of_zero_le (Rat.num_nonneg.mpr hq)
      have hcast : q = (n : Rat) := by
        rw [← Rat.coe_int_num_of_den_eq_one (of_decide_eq_true hinteger), hn, Int.cast_natCast]
      have hrange := hread.inRange
      rw [hn]
      refine (asFloat_toString n).trans ?_
      rw [← hcast, hrange]
    | false =>
      refine ⟨_, num_of_not_isInteger hinteger, ?_⟩
      unfold asFloat
      rw [Interpreter.str, asText_argument (isArgument_of_head (python.unsigned_repr q hq)), Option.bind_some]
      exact python.float_repr q hread
  | inf negative =>
    cases negative with
    | true => cases hnonneg
    | false =>
      refine ⟨_, num_of_not_isInteger rfl, ?_⟩
      unfold asFloat
      rw [Interpreter.str, asText_argument (isArgument_of_head (by decide))]
      decide +kernel
  | nan =>
    refine ⟨_, num_of_not_isInteger rfl, ?_⟩
    unfold asFloat
    rw [Interpreter.str, asText_argument (isArgument_of_head (by decide))]
    decide +kernel

/-- What `float` makes of a value is the value. -/
theorem sameFloat_of_pyFloat (h : value.pyFloat = .ok x) : SameFloat value x := by
  cases value with
  | str s => exact pyFloat_str_ok.mp h
  | int n =>
    rw [Json.pyFloat_int] at h
    split at h
    · cases h
    · exact .inr (Except.ok.inj h).symm
  | bool b => exact congrArg some (Except.ok.inj h)
  | float y => exact congrArg some (Except.ok.inj h)
  | null => cases h
  | arr items => cases h
  | obj fields => cases h

/-- And a float the reader could have read. -/
theorem readable_of_pyFloat (h : value.pyFloat = .ok x) (hnonneg : x.lt zero = false)
    (hread : Readable value) : Readable (.float x) := by
  cases value with
  | str s =>
    cases x with
    | finite q => exact PyText.parseFloat_double (pyFloat_str_ok.mp h)
    | inf negative => trivial
    | nan => trivial
  | int n =>
    rw [Json.pyFloat_int] at h
    split at h
    · cases h
    next hrange =>
    obtain rfl := Except.ok.inj h
    have hround := PyFloat.roundInt_natAbs_lt (not_le.mp hrange)
    have hpos : 0 ≤ PyFloat.roundInt n := by exact_mod_cast nonneg_of_not_lt hnonneg
    obtain ⟨k, hk⟩ := Int.eq_ofNat_of_zero_le hpos
    rw [hk, Int.natAbs_natCast] at hround
    rw [hk, Int.cast_natCast]
    exact IsDouble.natCast hround
  | bool b =>
    obtain rfl := Except.ok.inj h
    cases b
    · exact readable_of_isSmall rfl
    · exact readable_of_isSmall rfl
  | float y =>
    obtain rfl : y = x := Except.ok.inj h
    exact hread
  | null => cases h
  | arr items => cases h
  | obj fields => cases h

theorem not_lt_of_not_le (h : le x zero = false) : x.lt zero = false := (Bool.or_eq_false_iff.mp h).1

theorem pos_of_not_le {q : Rat} (h : le (.finite q) zero = false) : 0 < q := by
  rcases lt_trichotomy q 0 with hneg | rfl | hpos
  · have hlt : (PyFloat.finite q).lt zero = true := decide_eq_true hneg
    rw [le, hlt] at h
    cases h
  · cases h
  · exact hpos

/-- What is not positive is held as what is not positive. -/
theorem le_zero_ofRat {q : Rat} (h : q ≤ 0) : le (.ofRat q) zero = true := by
  have hpos : (0 : Rat) < (PyFloat.overflowAt : Rat) := by exact_mod_cast PyFloat.overflowAt_pos
  unfold PyFloat.ofRat
  rw [if_neg (not_le.mpr (lt_of_le_of_lt h hpos))]
  split
  · rfl
  split
  · rfl
  · by_contra hle
    exact absurd (pos_of_not_le (Bool.eq_false_iff.mpr hle)) (not_lt.mpr h)

theorem isInteger_intCast (n : Int) : isInteger (.finite n) = true := decide_eq_true (Rat.den_intCast n)

/-- `_num` of a value without a fraction, and of one with a fraction. -/
theorem num_eq (hvalue : value.pyFloat = .ok x) : num python value =
    if isInteger x then (value.pyInt).map fun n => toString n else .ok (python.str value) := by
  unfold num
  rw [hvalue]
  rfl

theorem carriesTimeout_str {s : String} (hparse : PyText.parseFloat s = some x) :
    CarriesTimeout (.str s) ↔
      if isInteger x = true then (PyText.parseInt s).isSome = true else isArgument buildParser s = true := by
  rw [CarriesTimeout, hparse, Option.any_some]

/-- A timeout is read as it was written. -/
theorem timeout_carried (python : Interpreter) (hvalue : value.pyFloat = .ok x) (hpositive : le x zero = false)
    (hread : Readable value) (hcarries : CarriesTimeout value) :
    ∃ text y, num python value = .ok text ∧ asFloat text = some y ∧ SameFloat value y := by
  cases value with
  | str s =>
    have hparse := pyFloat_str_ok.mp hvalue
    rw [carriesTimeout_str hparse] at hcarries
    rw [num_eq hvalue]
    cases hinteger : isInteger x with
    | true =>
      rw [if_pos hinteger] at hcarries
      obtain ⟨n, hn⟩ := Option.isSome_iff_exists.mp hcarries
      -- the digits of what `int` reads are the same number
      have hsame := PyText.parseFloat_of_parseInt hn
      obtain rfl := Option.some.inj (hparse.symm.trans hsame)
      have hpos : 0 ≤ n := by
        by_contra hneg
        have hle : le (.ofRat (n : Rat)) zero = true :=
          le_zero_ofRat (by exact_mod_cast (not_le.mp hneg).le)
        rw [hle] at hpositive
        cases hpositive
      obtain ⟨k, rfl⟩ := Int.eq_ofNat_of_zero_le hpos
      rw [pyInt_str_ok.mpr hn]
      exact ⟨_, _, rfl, asFloat_toString k, hsame⟩
    | false =>
      rw [if_neg (by rw [hinteger]; exact Bool.false_ne_true)] at hcarries
      refine ⟨s, x, rfl, ?_, hparse⟩
      unfold asFloat
      rw [asText_argument hcarries, Option.bind_some, hparse]
  | int n =>
    rw [Json.pyFloat_int] at hvalue
    split at hvalue
    · cases hvalue
    next hrange =>
    obtain rfl := Except.ok.inj hvalue
    have hpos : 0 ≤ n := by
      by_contra hneg
      have hround := PyFloat.roundInt_nonpos (not_le.mp hneg).le
      have hlarge : 0 < PyFloat.roundInt n := by exact_mod_cast pos_of_not_le hpositive
      omega
    obtain ⟨k, rfl⟩ := Int.eq_ofNat_of_zero_le hpos
    refine ⟨toString k, .ofRat k, ?_, asFloat_toString k, .inl rfl⟩
    have hfloat : (Json.int k).pyFloat = .ok (.finite (PyFloat.roundInt k : Int)) := by
      rw [Json.pyFloat_int, if_neg hrange]
    rw [num_eq hfloat, if_pos (isInteger_intCast _)]
    rfl
  | bool b =>
    obtain rfl := Except.ok.inj hvalue
    cases b with
    | false => cases hpositive
    | true =>
      have hone : PyFloat.ofRat (1 : ℕ) = .finite (1 : ℕ) :=
        PyFloat.ofRat_natCast (lt_trans (by decide) PyFloat.two_pow_lt_overflowAt)
      rw [Nat.cast_one] at hone
      refine ⟨toString 1, .finite 1, ?_, ?_, rfl⟩
      · have hvalue : (Json.bool true).pyFloat = .ok (.finite 1) := rfl
        rw [num_eq hvalue, if_pos (by decide)]
        rfl
      · rw [asFloat_toString, Nat.cast_one, hone]
  | float y =>
    obtain rfl : y = x := Except.ok.inj hvalue
    obtain ⟨text, htext, hfloat⟩ := asFloat_num python (not_lt_of_not_le hpositive) hread
    exact ⟨text, y, htext, hfloat, rfl⟩
  | null => cases hvalue
  | arr items => cases hvalue
  | obj fields => cases hvalue

/-- Any other timeout is refused. -/
theorem carriesTimeout_of_num (hvalue : value.pyFloat = .ok x) (hnum : num python value = .ok text)
    (hfloat : asFloat text = some y) : CarriesTimeout value := by
  cases value with
  | str s =>
    rw [carriesTimeout_str (pyFloat_str_ok.mp hvalue)]
    rw [num_eq hvalue] at hnum
    split
    · next hinteger =>
      rw [if_pos hinteger] at hnum
      obtain ⟨n, hn, -⟩ := except_map_ok.mp hnum
      exact Option.isSome_iff_exists.mpr ⟨n, pyInt_str_ok.mp hn⟩
    · next hinteger =>
      rw [if_neg hinteger] at hnum
      obtain rfl := Except.ok.inj hnum
      obtain ⟨t, htext, -⟩ := Option.bind_eq_some_iff.mp hfloat
      exact (asText_eq_some.mp htext).1
  | _ => trivial

end Floats

/-! ## Texts that begin with a dash -/

/-- What is stripped off does not begin with what is no space. -/
theorem strip_cons {c : Char} (hc : PyText.isSpace c = false) (cs : List Char) :
    ∃ rest, PyText.strip (c :: cs) = c :: rest := by
  unfold PyText.strip
  rw [List.dropWhile_cons, if_neg (by rw [hc]; exact Bool.false_ne_true), List.reverse_cons,
    List.dropWhile_append]
  split
  · rw [List.dropWhile_cons, if_neg (by rw [hc]; exact Bool.false_ne_true)]
    exact ⟨[], rfl⟩
  · rw [List.reverse_append]
    exact ⟨_, rfl⟩

/-- What begins with a dash is none of the words. -/
theorem lowered_dash_ne {rest : List Char} {word : String} (h : word.toList.head? ≠ some '-') :
    lowered (partitionColon ('-' :: rest)).1 ≠ word := by
  rintro rfl
  refine h ?_
  have hhead : (partitionColon ('-' :: rest)).1 = '-' :: rest.takeWhile fun c => c ≠ ':' := by
    unfold partitionColon
    rw [List.takeWhile_cons, if_pos (by decide)]
  rw [hhead]
  unfold lowered
  rw [String.toList_ofList]
  rfl

/-- **A policy that is parsed** is an argument. -/
theorem policy_argument {spec : String} {policy : ReconnectPolicy PyFloat} (h : parsePolicy spec = .ok policy) :
    isArgument buildParser spec = true := by
  refine isArgument_of_head fun hdash => ?_
  obtain ⟨cs, hcs⟩ := List.head?_eq_some_iff.mp hdash
  obtain ⟨rest, hrest⟩ := strip_cons (by decide : PyText.isSpace '-' = false) cs
  unfold parsePolicy at h
  rw [hcs, hrest] at h
  dsimp only at h
  rw [if_neg (List.cons_ne_nil _ _), if_neg (lowered_dash_ne (by decide)),
    if_neg (lowered_dash_ne (by decide)), if_neg (lowered_dash_ne (by decide))] at h
  cases h

/-- **A stall that is parsed** is an argument. -/
theorem stall_argument {spec : String} {stall : StallSpec} (h : parseStall spec = .ok stall) :
    isArgument buildParser spec = true := by
  refine isArgument_of_head fun hdash => ?_
  obtain ⟨cs, hcs⟩ := List.head?_eq_some_iff.mp hdash
  obtain ⟨rest, hrest⟩ := strip_cons (by decide : PyText.isSpace '-' = false) cs
  have hnone : lowered ('-' :: rest) ≠ "none" := by
    intro hword
    have hhead := congrArg (fun s : String => s.toList.head?) hword
    unfold lowered at hhead
    rw [String.toList_ofList] at hhead
    have hchar : some '-'.toLower = "none".toList.head? := hhead
    revert hchar
    decide
  unfold parseStall at h
  rw [hcs, hrest] at h
  dsimp only at h
  rw [if_neg (not_or.mpr ⟨List.cons_ne_nil _ _, hnone⟩), if_neg (lowered_dash_ne (by decide)),
    if_neg (lowered_dash_ne (by decide))] at h
  cases h

end Conductress.Stormgen.Overlay
