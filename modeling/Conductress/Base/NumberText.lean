import Conductress.Base.Compare
import Mathlib.Algebra.Order.Field.Rat
import Mathlib.Data.List.TakeWhile
import Mathlib.Tactic.Positivity
import Mathlib.Tactic.Ring

/-!
# Numbers and their texts

What `int(..)` and `float(..)` read in the decimal text of a number, and which
numbers they can read at all: a float that is read is a decimal that no double's
range rounds away (`IsDouble`), and a text both read is one number to both.
-/

namespace Conductress

/-- Finitely many digits after the point. -/
def IsDecimal (q : Rat) : Prop := ∃ (n : Int) (k : ℕ), q = n / 10 ^ k

/-- A value a finite double is held as. -/
structure IsDouble (q : Rat) : Prop where
  decimal : IsDecimal q
  inRange : PyFloat.ofRat q = .finite q

namespace IsDecimal

theorem intCast (n : Int) : IsDecimal n := ⟨n, 0, by simp⟩

theorem div_pow {q : Rat} (h : IsDecimal q) (e : ℕ) : IsDecimal (q / 10 ^ e) := by
  obtain ⟨n, k, rfl⟩ := h
  exact ⟨n, k + e, by rw [pow_add, div_div]⟩

theorem mul_int {q : Rat} (h : IsDecimal q) (m : Int) : IsDecimal (m * q) := by
  obtain ⟨n, k, rfl⟩ := h
  exact ⟨m * n, k, by push_cast; ring⟩

theorem add {p q : Rat} (hp : IsDecimal p) (hq : IsDecimal q) : IsDecimal (p + q) := by
  obtain ⟨m, j, rfl⟩ := hp
  obtain ⟨n, k, rfl⟩ := hq
  refine ⟨m * 10 ^ k + n * 10 ^ j, j + k, ?_⟩
  have hj : (10 : Rat) ^ j ≠ 0 := by positivity
  have hk : (10 : Rat) ^ k ≠ 0 := by positivity
  push_cast
  rw [pow_add, div_add_div _ _ hj hk]
  ring

theorem neg {q : Rat} (h : IsDecimal q) : IsDecimal (-q) := by
  have hmul := h.mul_int (-1)
  simpa using hmul

end IsDecimal

namespace PyFloat

theorem ofRat_zero : ofRat 0 = .finite 0 := by
  have hpos : (0 : Rat) < (overflowAt : Rat) := by exact_mod_cast overflowAt_pos
  unfold ofRat
  rw [if_neg (not_le.mpr hpos), if_neg (not_le.mpr (neg_neg_of_pos hpos)),
    if_pos (by rw [zero_mul]; decide)]

/-- What an exact value is held as, when it is finite. -/
theorem ofRat_finite {x q : Rat} (h : ofRat x = .finite q) : (q = x ∨ q = 0) ∧ ofRat q = .finite q := by
  unfold ofRat at h
  split at h
  · cases h
  next hhigh =>
  split at h
  · cases h
  next hlow =>
  split at h
  · cases h
    exact ⟨.inr rfl, ofRat_zero⟩
  next htiny =>
  cases h
  refine ⟨.inl rfl, ?_⟩
  unfold ofRat
  rw [if_neg hhigh, if_neg hlow, if_neg htiny]

/-- A finite value is in range. -/
theorem abs_lt_of_ofRat {q x : Rat} (h : ofRat x = .finite q) : |x| < (overflowAt : Rat) := by
  unfold ofRat at h
  split at h
  · cases h
  next hhigh =>
  split at h
  · cases h
  next hlow =>
  exact abs_lt.mpr ⟨not_le.mp hlow, not_le.mp hhigh⟩

/-- So is its whole part. -/
theorem natAbs_tdiv_lt {q : Rat} (h : ofRat q = .finite q) : (q.num.tdiv q.den).natAbs < overflowAt := by
  have hnum : (q.num.natAbs : Rat) = |q| * q.den := by
    rw [← abs_of_nonneg (Nat.cast_nonneg q.den : (0 : Rat) ≤ q.den), ← abs_mul, Rat.mul_den_eq_num,
      Nat.cast_natAbs, Int.cast_abs]
  have hden : (0 : Rat) < q.den := Nat.cast_pos.mpr q.den_pos
  have hlt : (q.num.natAbs : Rat) < overflowAt * q.den := by
    rw [hnum]
    exact mul_lt_mul_of_pos_right (abs_lt_of_ofRat h) hden
  rw [Int.natAbs_tdiv, Int.natAbs_natCast]
  exact Nat.div_lt_of_lt_mul (by rw [Nat.mul_comm]; exact_mod_cast hlt)
/-- A value of at least one, below the range's end. -/
theorem ofRat_of_one_le {q : Rat} (hone : 1 ≤ q) (hrange : q < (overflowAt : Rat)) :
    ofRat q = .finite q := by
  have hpos : (0 : Rat) < q := lt_of_lt_of_le one_pos hone
  have hlow : ¬ q ≤ -(overflowAt : Rat) :=
    not_le.mpr (lt_trans (neg_neg_of_pos (lt_trans hpos hrange)) hpos)
  have hpow : (1 : Rat) < ((2 ^ 1075 : Nat) : Rat) := by
    -- the exponent by name, so that the power is not evaluated
    generalize he : 1075 = e
    exact Nat.one_lt_cast.mpr (Nat.one_lt_two_pow (by omega))
  have hprod : (1 : Rat) < q * ((2 ^ 1075 : Nat) : Rat) :=
    lt_of_lt_of_le hpow (le_mul_of_one_le_left (le_of_lt (lt_trans one_pos hpow)) hone)
  unfold ofRat
  rw [if_neg (not_le.mpr hrange), if_neg hlow, if_neg fun htiny => not_le.mpr hprod htiny.1]

/-- A natural number in the range of the doubles. -/
theorem ofRat_natCast {n : ℕ} (h : n < overflowAt) : ofRat (n : Rat) = .finite n := by
  rcases Nat.eq_zero_or_pos n with rfl | hn
  · exact ofRat_zero
  · refine ofRat_of_one_le ?_ ?_
    · exact_mod_cast hn
    · exact_mod_cast h

/-! ## The range of the doubles -/

theorem two_pow_lt_overflowAt : 2 ^ 53 < overflowAt := by
  unfold overflowAt
  -- the exponents by name, so that no power is evaluated
  generalize hb : 1024 = b
  generalize ha : 970 = a
  generalize hc : 53 = c
  have hmid : 2 ^ c < 2 ^ a := Nat.pow_lt_pow_right Nat.one_lt_two (by omega)
  have htop : 2 ^ (a + 1) ≤ 2 ^ b := Nat.pow_le_pow_right Nat.two_pos (by omega)
  rw [Nat.pow_succ] at htop
  omega

theorem overflowAt_lt : overflowAt < 10 ^ 4300 := by
  unfold overflowAt
  generalize hb : 1024 = b
  generalize ha : 970 = a
  generalize hc : 4300 = c
  calc 2 ^ b - 2 ^ a ≤ 2 ^ b := Nat.sub_le _ _
    _ ≤ 10 ^ b := Nat.pow_le_pow_left (by omega) b
    _ < 10 ^ c := Nat.pow_lt_pow_right (by omega) (by omega)

/-- Rounding up in a binade ends at the next one's start. -/
theorem roundUp_le {n u p : ℕ} (h : n < p * u) : (n / u + 1) * u ≤ p * u :=
  Nat.mul_le_mul_right u (Nat.div_lt_of_lt_mul (by rwa [Nat.mul_comm] at h))

/-- In the last binade, with the unit `2 * b`, what is in range rounds to what is. -/
theorem roundUp_lt {n b p top : ℕ} (hb : 0 < b) (htop : top + b = p * (2 * b)) (hn : n < top)
    (hup : 2 * b ≤ 2 * (n % (2 * b))) : (n / (2 * b) + 1) * (2 * b) < top := by
  have hsplit := Nat.div_add_mod n (2 * b)
  have hle := roundUp_le (show n < p * (2 * b) by omega)
  have hnext : (n / (2 * b) + 1) * (2 * b) = 2 * b * (n / (2 * b)) + 2 * b := by ring
  rcases Nat.lt_or_ge (n / (2 * b) + 1) p with hq | hq
  · have hbelow : (n / (2 * b) + 2) * (2 * b) ≤ p * (2 * b) := Nat.mul_le_mul_right _ hq
    have hmore : (n / (2 * b) + 2) * (2 * b) = (n / (2 * b) + 1) * (2 * b) + 2 * b := by ring
    omega
  · -- the last stretch has its upper half out of range
    have hlast : p * (2 * b) ≤ (n / (2 * b) + 1) * (2 * b) := Nat.mul_le_mul_right _ hq
    omega

/-- The double nearest to a number in range is in range. -/
theorem roundNat_lt {n : ℕ} (h : n < overflowAt) : roundNat n < overflowAt := by
  unfold roundNat
  split
  · exact h
  next hlarge =>
  have hn : n ≠ 0 := by
    rintro rfl
    exact hlarge (Nat.two_pow_pos 53)
  have hlog : 53 ≤ n.log2 := (Nat.le_log2 hn).mpr (not_lt.mp hlarge)
  obtain ⟨k, hk⟩ := Nat.exists_eq_add_of_le hlog
  have hunit : n.log2 - 52 = k + 1 := by omega
  have hbelow : n < 2 ^ 53 * 2 ^ (k + 1) := by
    have hlt := Nat.lt_log2_self (n := n)
    rwa [hk, Nat.add_assoc, Nat.pow_add] at hlt
  have habove : 2 ^ (53 + k) ≤ n := hk ▸ Nat.log2_self_le hn
  dsimp only
  rw [hunit]
  split
  · exact lt_of_le_of_lt (Nat.div_mul_le_self n _) h
  next hup =>
  rw [not_or, not_lt] at hup
  unfold overflowAt at h ⊢
  -- the exponents by name, so that no power is evaluated
  generalize hp : 53 = p at *
  generalize ha : 970 = a at *
  generalize hb : 1024 = b at *
  have hp2 : 2 ^ 1 ≤ 2 ^ p := Nat.pow_le_pow_right Nat.two_pos (by omega)
  have hpow : 2 ^ b = 2 ^ p * (2 * 2 ^ a) := by
    rw [← Nat.pow_succ', ← Nat.pow_add]
    congr 1
    omega
  have hapos : 0 < 2 ^ a := Nat.two_pow_pos a
  have hwide : 2 * (2 * 2 ^ a) ≤ 2 ^ p * (2 * 2 ^ a) := Nat.mul_le_mul_right _ hp2
  rcases Nat.lt_or_ge k a with hka | hka
  · have hle := roundUp_le hbelow
    have hsmall : 2 ^ p * 2 ^ (k + 1) ≤ 2 ^ p * 2 ^ a :=
      Nat.mul_le_mul_left _ (Nat.pow_le_pow_right Nat.two_pos hka)
    have hhalf : 2 ^ p * (2 * 2 ^ a) = 2 * (2 ^ p * 2 ^ a) := by ring
    omega
  · have hexp : 2 ^ (p + k) < 2 ^ b := by omega
    have hkb : p + k < b := (Nat.pow_lt_pow_iff_right Nat.one_lt_two).mp hexp
    obtain rfl : k = a := by omega
    have htop : 2 ^ b - 2 ^ k + 2 ^ k = 2 ^ p * (2 * 2 ^ k) := by
      rw [Nat.sub_add_cancel (Nat.pow_le_pow_right Nat.two_pos (by omega)), hpow]
    rw [Nat.pow_succ'] at hup ⊢
    exact roundUp_lt hapos htop h hup.1

theorem roundInt_natAbs_lt {n : Int} (h : n.natAbs < overflowAt) : (roundInt n).natAbs < overflowAt := by
  unfold roundInt
  split
  · rw [Int.natAbs_neg, Int.natAbs_natCast]
    exact roundNat_lt h
  · rw [Int.natAbs_natCast]
    exact roundNat_lt h

/-- Rounding keeps the sign. -/
theorem roundInt_nonneg {n : Int} (h : 0 ≤ n) : 0 ≤ roundInt n := by
  unfold roundInt
  rw [if_neg (not_lt.mpr h)]
  exact Int.natCast_nonneg _

theorem roundInt_nonpos {n : Int} (h : n ≤ 0) : roundInt n ≤ 0 := by
  unfold roundInt
  split
  · exact Int.neg_nonpos_of_nonneg (Int.natCast_nonneg _)
  · obtain rfl : n = 0 := by omega
    decide

end PyFloat

theorem IsDouble.natCast {n : ℕ} (h : n < PyFloat.overflowAt) : IsDouble (n : Rat) where
  decimal := by simpa using IsDecimal.intCast (n : Int)
  inRange := PyFloat.ofRat_natCast h

namespace PyText

variable {cs : List Char} {s : String}

/-! ## Digits -/

theorem isDigit_iff {c : Char} : isDigit c = c.isDigit := by
  unfold isDigit Char.isDigit
  simp [Char.le_def]

theorem toNat_of_isDigit {c : Char} (h : isDigit c = true) : 48 ≤ c.toNat ∧ c.toNat ≤ 57 := by
  rw [isDigit_iff, Char.isDigit_iff_toNat] at h
  exact h

theorem digitsAux_of_all (h : ∀ c ∈ cs, isDigit c = true) (value count : ℕ)
    (hcount : cs ≠ [] ∨ count ≠ 0) :
    digitsAux cs value count = some (Nat.ofDigitChars 10 cs value, count + cs.length) := by
  induction cs generalizing value count with
  | nil => simp [digitsAux, hcount.resolve_left (by simp)]
  | cons c cs ih =>
    have hc := h c List.mem_cons_self
    have hline : c ≠ '_' := by
      rintro rfl
      cases hc
    have hstep : digitsAux (c :: cs) value count =
        digitsAux cs (10 * value + digitValue c) (count + 1) := by
      rw [digitsAux]
      · rw [if_pos hc]
      · rintro _ _ rfl
        exact absurd rfl hline
    rw [hstep, ih (fun d hd => h d (List.mem_cons_of_mem _ hd)) _ _ (.inr (by omega)),
      Nat.ofDigitChars_cons, List.length_cons]
    congr 2
    omega

/-- Digits and underscores is all there is in what `digits` reads. -/
theorem mem_of_digitsAux {value count : ℕ} {r : ℕ × ℕ} (h : digitsAux cs value count = some r) :
    ∀ c ∈ cs, isDigit c = true ∨ c = '_' := by
  induction cs, value, count using digitsAux.induct generalizing r with
  | case1 => simp
  | case2 => simp
  | case3 value count c cs hbad =>
    rw [digitsAux, if_pos hbad] at h
    cases h
  | case4 value count c cs hgood ih =>
    rw [digitsAux, if_neg hgood] at h
    simp only [Bool.or_eq_true, Bool.not_eq_true', not_or, Bool.not_eq_false] at hgood
    intro d hd
    rcases List.mem_cons.mp hd with rfl | hd
    · exact .inr rfl
    rcases List.mem_cons.mp hd with rfl | hd
    · exact .inl hgood.2
    · exact ih h d hd
  | case5 value count c cs hline hc ih =>
    rw [digitsAux, if_pos hc] at h
    · intro d hd
      rcases List.mem_cons.mp hd with rfl | hd
      · exact .inl hc
      · exact ih h d hd
    · exact hline
  | case6 value count c cs hline hc =>
    rw [digitsAux, if_neg hc] at h
    · cases h
    · exact hline

theorem digitValue_lt {c : Char} (h : isDigit c = true) : digitValue c < 10 := by
  have hrange := toNat_of_isDigit h
  have hzero : '0'.toNat = 48 := by decide
  unfold digitValue
  omega

/-- As many digits as are counted bound the value. -/
theorem digitsAux_lt {value count : ℕ} {r : ℕ × ℕ} (h : digitsAux cs value count = some r)
    (hvalue : value < 10 ^ count) : r.1 < 10 ^ r.2 := by
  have hnext : ∀ {value count : ℕ} {c : Char}, value < 10 ^ count → isDigit c = true →
      10 * value + digitValue c < 10 ^ (count + 1) := by
    intro value count c hvalue hc
    have hdigit := digitValue_lt hc
    rw [Nat.pow_succ]
    omega
  induction cs, value, count using digitsAux.induct generalizing r with
  | case1 value =>
    rw [digitsAux, if_pos rfl] at h
    cases h
  | case2 value count hcount =>
    rw [digitsAux, if_neg hcount] at h
    cases h
    exact hvalue
  | case3 value count c cs hbad =>
    rw [digitsAux, if_pos hbad] at h
    cases h
  | case4 value count c cs hgood ih =>
    rw [digitsAux, if_neg hgood] at h
    simp only [Bool.or_eq_true, Bool.not_eq_true', not_or, Bool.not_eq_false] at hgood
    exact ih h (hnext hvalue hgood.2)
  | case5 value count c cs hline hc ih =>
    rw [digitsAux, if_pos hc] at h
    · exact ih h (hnext hvalue hc)
    · exact hline
  | case6 value count c cs hline hc =>
    rw [digitsAux, if_neg hc] at h
    · cases h
    · exact hline

/-- A text without spaces is not stripped. -/
theorem strip_of_all (h : ∀ c ∈ cs, isSpace c = false) : strip cs = cs := by
  have hdrop : ∀ l : List Char, (∀ c ∈ l, isSpace c = false) → l.dropWhile isSpace = l := by
    intro l hl
    cases l with
    | nil => rfl
    | cons c l => rw [List.dropWhile_cons, if_neg (by simp [hl c List.mem_cons_self])]
  unfold strip
  rw [hdrop cs h, hdrop cs.reverse fun c hc => h c (List.mem_reverse.mp hc), List.reverse_reverse]

theorem isSpace_of_isDigit {c : Char} (h : isDigit c = true) : isSpace c = false := by
  have hrange := toNat_of_isDigit h
  simp only [isSpace, decide_eq_false_iff_not]
  intro hmem
  simp only [List.mem_cons, List.not_mem_nil, or_false] at hmem
  omega

/-! ## Blanks around a number -/

/-- What blanks around a text without one are dropped to. -/
theorem dropBlanks {p : Char → Bool} {front core back : List Char} (hcore : core ≠ [])
    (hfront : ∀ c ∈ front, p c = true) (hplain : ∀ c ∈ core, p c = false) :
    (front ++ (core ++ back)).dropWhile p = core ++ back := by
  obtain ⟨c, rest, rfl⟩ := List.exists_cons_of_ne_nil hcore
  have hc := hplain c List.mem_cons_self
  rw [List.dropWhile_append_of_pos hfront, List.cons_append,
    List.dropWhile_cons_of_neg (by rw [hc]; exact Bool.false_ne_true)]

/-- The same from the end. -/
theorem dropBlanks_reverse {p : Char → Bool} {core back : List Char} (hcore : core ≠ [])
    (hback : ∀ c ∈ back, p c = true) (hplain : ∀ c ∈ core, p c = false) :
    ((core ++ back).reverse.dropWhile p).reverse = core := by
  have hdrop := @dropBlanks p back.reverse core.reverse [] (by simpa using hcore)
    (fun c hc => hback c (List.mem_reverse.mp hc)) fun c hc => hplain c (List.mem_reverse.mp hc)
  rw [List.append_nil] at hdrop
  rw [List.reverse_append, hdrop, List.reverse_reverse]

theorem isSpace_of_isBlank {c : Char} (h : isBlank c = true) : isSpace c = true := by
  simp only [isBlank, isSpace, decide_eq_true_eq] at h ⊢
  simp only [List.mem_cons, List.not_mem_nil, or_false] at h ⊢
  omega

theorem toAscii_of_lt {c : Char} (h : c.toNat < 127) : toAscii c = c := if_pos h

/-- What reads as a blank is one that `str.strip` removes. -/
theorem isSpace_of_toAscii {c : Char} (h : isBlank (toAscii c) = true) : isSpace c = true := by
  by_cases hlow : c.toNat < 127
  · rw [toAscii_of_lt hlow] at h
    exact isSpace_of_isBlank h
  · by_contra hspace
    rw [toAscii, if_neg hlow, if_neg hspace] at h
    unfold Lib.toDecimal at h
    cases hfind : Lib.decimalZeros.find? fun first =>
        decide (first ≤ c.toNat ∧ c.toNat < first + 10) with
    | none =>
      rw [hfind, Option.map_none, Option.elim_none] at h
      revert h
      decide
    | some first =>
      have hfirst := List.find?_some hfind
      have hrange : first ≤ c.toNat ∧ c.toNat < first + 10 := by simpa using hfirst
      have hdigit : c.toNat - first < 10 := by omega
      rw [hfind, Option.map_some, Option.elim_some] at h
      revert h
      generalize c.toNat - first = d at hdigit ⊢
      revert d
      decide

/-- And one that it removes is no digit, sign or letter. -/
theorem toAscii_of_isSpace {c : Char} (h : isSpace c = true) : isSpace (toAscii c) = true := by
  unfold toAscii
  split
  · exact h
  · decide

/-- **A number between blanks**: what `int` and `float` read of it. -/
theorem numeral_between {front core back : List Char} (hcore : core ≠ [])
    (hfront : ∀ c ∈ front, isBlank (toAscii c) = true)
    (hback : ∀ c ∈ back, isBlank (toAscii c) = true) (hplain : ∀ c ∈ core, isSpace c = false) :
    numeral (front ++ (core ++ back)) = core.map toAscii := by
  have hmapped : ∀ {cs : List Char}, (∀ c ∈ cs, isBlank (toAscii c) = true) →
      ∀ c ∈ cs.map toAscii, isBlank c = true := by
    intro cs h c hc
    obtain ⟨d, hd, rfl⟩ := List.mem_map.mp hc
    exact h d hd
  have hnone : ∀ c ∈ core.map toAscii, isBlank c = false := by
    intro c hc
    obtain ⟨d, hd, rfl⟩ := List.mem_map.mp hc
    rw [Bool.eq_false_iff]
    intro hblank
    have hspace := hplain d hd
    rw [isSpace_of_toAscii hblank] at hspace
    cases hspace
  have hsome : core.map toAscii ≠ [] := mt List.map_eq_nil_iff.mp hcore
  rw [numeral, List.map_append, List.map_append, dropBlanks hsome (hmapped hfront) hnone,
    dropBlanks_reverse hsome (hmapped hback) hnone]

/-- Where no space is left of a text, it was a number between blanks. -/
theorem between_of_numeral {cs : List Char} (hsome : numeral cs ≠ [])
    (hplain : ∀ c ∈ numeral cs, isSpace c = false) :
    ∃ front core back, cs = front ++ (core ++ back) ∧ core ≠ [] ∧
      (∀ c ∈ front, isBlank (toAscii c) = true) ∧ (∀ c ∈ back, isBlank (toAscii c) = true) ∧
      ∀ c ∈ core, isSpace c = false := by
  let blank (c : Char) : Bool := isBlank (toAscii c)
  let rest := cs.dropWhile blank
  have hnumeral : numeral cs = ((rest.reverse.dropWhile blank).reverse).map toAscii := by
    rw [numeral, List.dropWhile_map, ← List.map_reverse, List.dropWhile_map, ← List.map_reverse]
    rfl
  rw [hnumeral] at hsome hplain
  refine ⟨cs.takeWhile blank, (rest.reverse.dropWhile blank).reverse,
    (rest.reverse.takeWhile blank).reverse, ?_, fun hnil => hsome (by rw [hnil]; rfl), ?_, ?_, ?_⟩
  · rw [← List.reverse_append, List.takeWhile_append_dropWhile, List.reverse_reverse,
      List.takeWhile_append_dropWhile]
  · intro c hc
    have hblank : blank c = true := List.mem_takeWhile_imp hc
    exact hblank
  · intro c hc
    have hblank : blank c = true := List.mem_takeWhile_imp (List.mem_reverse.mp hc)
    exact hblank
  · intro c hc
    rw [Bool.eq_false_iff]
    intro hspace
    have hbad := hplain _ (List.mem_map_of_mem hc)
    rw [toAscii_of_isSpace hspace] at hbad
    cases hbad

/-- A text of ASCII characters that are no spaces is read as it is. -/
theorem numeral_of_all (h : ∀ c ∈ cs, c.toNat < 127 ∧ isSpace c = false) : numeral cs = cs := by
  have hmap : cs.map toAscii = cs := by
    rw [List.map_congr_left fun c hc => toAscii_of_lt (h c hc).1, List.map_id']
  cases cs with
  | nil => rfl
  | cons c rest =>
    have hbetween := @numeral_between [] (c :: rest) [] (List.cons_ne_nil _ _) (List.forall_mem_nil _)
      (List.forall_mem_nil _) fun d hd => (h d hd).2
    rw [List.nil_append, List.append_nil] at hbetween
    rw [hbetween, hmap]

theorem ascii_of_isDigit {c : Char} (h : isDigit c = true) : c.toNat < 127 ∧ isSpace c = false :=
  ⟨by have hrange := toNat_of_isDigit h; omega, isSpace_of_isDigit h⟩

/-- No sign, digit or underscore is a space. -/
theorem isSpace_of_sign {cs body : List Char} {sgn : Int} {r : ℕ × ℕ} (hsign : sign cs = (sgn, body))
    (h : digits body = some r) : cs ≠ [] ∧ ∀ c ∈ cs, isSpace c = false := by
  have hbody : ∀ c ∈ body, isSpace c = false := by
    intro c hc
    rcases mem_of_digitsAux h c hc with hdigit | rfl
    · exact isSpace_of_isDigit hdigit
    · decide
  unfold sign at hsign
  split at hsign
  · cases hsign
    exact ⟨List.cons_ne_nil _ _, List.forall_mem_cons.mpr ⟨by decide, hbody⟩⟩
  · cases hsign
    exact ⟨List.cons_ne_nil _ _, List.forall_mem_cons.mpr ⟨by decide, hbody⟩⟩
  · cases hsign
    refine ⟨?_, hbody⟩
    rintro rfl
    cases h

/-- **What `int` reads** is a number between blanks. -/
theorem between_of_parseInt {n : Int} (h : parseInt s = some n) :
    ∃ front core back, s.toList = front ++ (core ++ back) ∧ core ≠ [] ∧
      (∀ c ∈ front, isBlank (toAscii c) = true) ∧ (∀ c ∈ back, isBlank (toAscii c) = true) ∧
      ∀ c ∈ core, isSpace c = false := by
  unfold parseInt at h
  cases hsign : sign (numeral s.toList) with
  | mk sgn body =>
    rw [hsign] at h
    dsimp only at h
    cases hdigits : digits body with
    | none =>
      rw [hdigits] at h
      cases h
    | some r =>
      obtain ⟨hsome, hplain⟩ := isSpace_of_sign hsign hdigits
      exact between_of_numeral hsome hplain

/-! ## Digits to the end -/

/-- Nothing that digits and underscores end at. -/
theorem splitAt_of_not_mem {p : Char → Bool} (h : ∀ c ∈ cs, p c = false) :
    splitAt p cs = (cs, none) := by
  induction cs with
  | nil => rfl
  | cons c cs ih =>
    rw [splitAt, h c List.mem_cons_self, if_neg Bool.false_ne_true,
      ih fun d hd => h d (List.mem_cons_of_mem _ hd)]

/-- A text that is read is within the limit of digits. -/
theorem parseInt_natAbs_lt {n : Int} (h : parseInt s = some n) : n.natAbs < 10 ^ 4300 := by
  unfold parseInt at h
  generalize hk : 4300 = k at h ⊢
  cases hsign : sign (numeral s.toList) with
  | mk sgn body =>
    rw [hsign] at h
    dsimp only at h
    have hsgn : sgn.natAbs = 1 := by
      have hcases : sgn = (sign (numeral s.toList)).1 := by rw [hsign]
      rw [hcases]
      unfold sign
      split <;> rfl
    split at h
    · next value count hdigits =>
      split at h
      · next hcount =>
        obtain rfl := Option.some.inj h
        rw [Int.natAbs_mul, hsgn, Nat.one_mul, Int.natAbs_natCast]
        exact lt_of_lt_of_le (digitsAux_lt hdigits (by decide)) (Nat.pow_le_pow_right (by omega) hcount)
      · cases h
    · cases h

/-! ## One number to both -/

/-- What digits begin with is no sign. -/
theorem sign_of_digits {r : ℕ × ℕ} (h : digits cs = some r) : sign cs = (1, cs) := by
  unfold sign
  split
  · have hbad := mem_of_digitsAux h '-' List.mem_cons_self
    simp [isDigit] at hbad
  · have hbad := mem_of_digitsAux h '+' List.mem_cons_self
    simp [isDigit] at hbad
  · rfl

/-- A float reads digits as `int` does. -/
theorem parseFloat_of_digits {sgn : Int} {body : List Char} {r : ℕ × ℕ}
    (hsign : sign (numeral s.toList) = (sgn, body)) (h : digits body = some r) :
    parseFloat s = some (.ofRat (sgn * (r.1 : Rat))) := by
  have hmem := mem_of_digitsAux h
  have hlower : ∀ c ∈ body, c.toLower = c := by
    intro c hc
    have hrange : c.toNat ≤ 64 ∨ 91 ≤ c.toNat := by
      rcases hmem c hc with hdigit | rfl
      · exact .inl (by have hrange := toNat_of_isDigit hdigit; omega)
      · exact .inr (by decide)
    unfold Char.toLower
    rw [dif_neg]
    rintro ⟨hlow, hhigh⟩
    have hlow' : 65 ≤ c.toNat := hlow
    have hhigh' : c.toNat ≤ 90 := hhigh
    omega
  have hbody : body.map Char.toLower = body := by
    rw [List.map_congr_left hlower, List.map_id']
  -- so the body is no word
  have hword : ∀ w : List Char, (∃ c ∈ w, isDigit c = false ∧ c ≠ '_') →
      String.ofList (body.map Char.toLower) ≠ String.ofList w := by
    rintro w ⟨c, hc, hdigit, hline⟩ heq
    rw [hbody] at heq
    have hsame : body = w := by simpa using congrArg String.toList heq
    rcases hmem c (hsame ▸ hc) with hbad | hbad
    · rw [hdigit] at hbad
      cases hbad
    · exact hline hbad
  have hinf := hword ['i', 'n', 'f'] ⟨'i', by simp, by decide, by decide⟩
  have hinfinity := hword ['i', 'n', 'f', 'i', 'n', 'i', 't', 'y'] ⟨'i', by simp, by decide, by decide⟩
  have hnan := hword ['n', 'a', 'n'] ⟨'n', by simp, by decide, by decide⟩
  have hexponent : splitAt (fun c => c = 'e' || c = 'E') body = (body, none) := by
    refine splitAt_of_not_mem fun c hc => ?_
    rcases hmem c hc with hdigit | rfl
    · simp only [Bool.or_eq_false_iff, decide_eq_false_iff_not]
      constructor <;> rintro rfl <;> revert hdigit <;> decide
    · decide
  have hpoint : splitAt (fun c => c = '.') body = (body, none) := by
    refine splitAt_of_not_mem fun c hc => ?_
    rcases hmem c hc with hdigit | rfl
    · simp only [decide_eq_false_iff_not]
      rintro rfl
      revert hdigit
      decide
    · decide
  unfold parseFloat
  rw [hsign]
  dsimp only
  rw [if_neg (not_or.mpr ⟨hinf, hinfinity⟩), if_neg hnan, hexponent]
  dsimp only
  rw [parseMantissa, hpoint]
  dsimp only
  rw [h]
  rfl

/-- **A text that `int` reads** is the same number to `float`. -/
theorem parseFloat_of_parseInt {n : Int} (h : parseInt s = some n) :
    parseFloat s = some (.ofRat n) := by
  unfold parseInt at h
  cases hsign : sign (numeral s.toList) with
  | mk sgn body =>
    rw [hsign] at h
    dsimp only at h
    cases hdigits : digits body with
    | none =>
      rw [hdigits] at h
      cases h
    | some r =>
      rw [hdigits] at h
      dsimp only at h
      split at h
      · obtain rfl := Option.some.inj h
        rw [parseFloat_of_digits hsign hdigits]
        push_cast
        rfl
      · cases h

/-- The digits of a natural number are its text. -/
theorem digits_toString (n : ℕ) : digits (toString n).toList = some (n, (Nat.toDigits 10 n).length) := by
  have htext : (toString n).toList = Nat.toDigits 10 n := Nat.toList_repr
  have hall : ∀ c ∈ Nat.toDigits 10 n, isDigit c = true := by
    intro c hc
    rw [isDigit_iff]
    exact Nat.isDigit_of_mem_toDigits (by omega) (by omega) hc
  unfold digits
  rw [htext, digitsAux_of_all hall 0 0 (.inl Nat.toDigits_ne_nil), Nat.ofDigitChars_ten_toDigits,
    Nat.zero_add]

/-- Two numbers of one text are one. -/
theorem toDigits_injective {m n : ℕ} (h : Nat.toDigits 10 m = Nat.toDigits 10 n) : m = n := by
  have hvalue := congrArg (Nat.ofDigitChars 10 · 0) h
  simpa only [Nat.ofDigitChars_ten_toDigits] using hvalue

theorem repr_injective {m n : ℕ} (h : m.repr = n.repr) : m = n :=
  toDigits_injective (by rw [← Nat.toList_repr, ← Nat.toList_repr, h])

theorem sign_toString (n : ℕ) : sign (numeral (toString n).toList) = (1, (toString n).toList) := by
  have hnumeral : numeral (toString n).toList = (toString n).toList := by
    refine numeral_of_all fun c hc => ascii_of_isDigit ?_
    rw [isDigit_iff]
    have htext : (toString n).toList = Nat.toDigits 10 n := Nat.toList_repr
    rw [htext] at hc
    exact Nat.isDigit_of_mem_toDigits (by omega) (by omega) hc
  rw [hnumeral, sign_of_digits (digits_toString n)]

/-- **`int` reads the text of a number**, within the interpreter's limit. -/
theorem parseInt_toString {n : ℕ} (h : n < 10 ^ 4300) : parseInt (toString n) = some (n : Int) := by
  have hlength : (Nat.toDigits 10 n).length ≤ 4300 := by
    generalize hk : 4300 = k at h ⊢
    exact (Nat.length_toDigits_le_iff (by omega) (by omega)).mpr h
  unfold parseInt
  rw [sign_toString]
  dsimp only
  rw [digits_toString]
  dsimp only
  rw [if_pos hlength, one_mul]

/-- **`float` reads the text of a number.** -/
theorem parseFloat_toString (n : ℕ) : parseFloat (toString n) = some (.ofRat n) := by
  rw [parseFloat_of_digits (sign_toString n) (digits_toString n)]
  simp

/-! ## What a float can be -/

theorem parseMantissa_decimal {q : Rat} (h : parseMantissa cs = some q) : IsDecimal q := by
  unfold parseMantissa at h
  split at h
  · obtain ⟨w, -, rfl⟩ := Option.map_eq_some_iff.mp h
    simpa using IsDecimal.intCast (w.1 : Int)
  · split at h
    · next w wn f fn _ _ =>
      split at h
      · cases h
      · obtain rfl := Option.some.inj h
        refine IsDecimal.add (by simpa using IsDecimal.intCast (w : Int)) ?_
        refine ⟨f, fn, ?_⟩
        push_cast
        rfl
    · cases h

/-- **A float that is read** is a double. -/
theorem parseFloat_double {q : Rat} (h : parseFloat s = some (.finite q)) : IsDouble q := by
  have hof : ∀ x : Rat, IsDecimal x → PyFloat.ofRat x = .finite q → IsDouble q := by
    intro x hx hq
    obtain ⟨rfl | rfl, hrange⟩ := PyFloat.ofRat_finite hq
    · exact ⟨hx, hrange⟩
    · exact ⟨⟨0, 0, by simp⟩, hrange⟩
  have hzero : IsDouble 0 := by
    have hcast := IsDouble.natCast PyFloat.overflowAt_pos
    simpa using hcast
  unfold parseFloat at h
  dsimp only at h
  split at h
  · cases h
  split at h
  · cases h
  split at h
  · obtain ⟨m, hm, hq⟩ := Option.map_eq_some_iff.mp h
    exact hof _ ((parseMantissa_decimal hm).mul_int _) hq
  · split at h
    · next m e _ hm _ =>
      have hdecimal := parseMantissa_decimal hm
      split at h
      · split at h
        · cases h
          exact hzero
        · cases h
      · split at h
        · refine hof _ ?_ (Option.some.inj h)
          have hdiv := (hdecimal.mul_int (sign (numeral s.toList)).1).div_pow e
          simpa using hdiv
        · refine hof _ ?_ (Option.some.inj h)
          have hmul := (hdecimal.mul_int (sign (numeral s.toList)).1).mul_int (10 ^ e)
          simpa [mul_comm] using hmul
    · cases h

end PyText

namespace Json

/-! ## The conversions of JSON values -/

theorem pyInt_str (s : String) : (str s).pyInt =
    (PyText.parseInt s).elim (.error (.valueError "invalid literal for int() with base 10")) .ok := by
  rw [pyInt]
  cases PyText.parseInt s <;> rfl

theorem pyFloat_str (s : String) : (str s).pyFloat =
    (PyText.parseFloat s).elim (.error (.valueError "could not convert string to float")) .ok := by
  rw [pyFloat]
  cases PyText.parseFloat s <;> rfl

theorem pyFloat_int (n : Int) : (int n).pyFloat =
    if PyFloat.overflowAt ≤ n.natAbs then .error (.overflowError "int too large to convert to float")
    else .ok (.finite (PyFloat.roundInt n : Int)) := by
  rw [pyFloat]
  unfold PyFloat.ofInt
  split <;> rfl

end Json

end Conductress
