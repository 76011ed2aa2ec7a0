import Conductress.Base.Clock
import Conductress.Base.NumberText
import Mathlib.Data.Nat.Factorization.Basic

/-!
# The decimal text of a number

Every number with finitely many decimals has a text with a point, which `float`
reads back and `int` does not.
-/

namespace Conductress

/-- The digits after the point, one at least. -/
def decimals (q : Rat) : ℕ :=
  max 1 (((List.range (q.den + 1)).find? fun k => decide (q.den ∣ 10 ^ k)).getD 0)

/-- The number in units of its last digit. -/
def unscaled (q : Rat) : ℕ := q.num.natAbs * (10 ^ decimals q / q.den)

/-- The text of a number with its decimals. -/
def decimalText (q : Rat) : String :=
  (if q < 0 then "-" else "") ++ toString (unscaled q / 10 ^ decimals q) ++ "." ++
    zeroPad (decimals q) (unscaled q % 10 ^ decimals q)

example : decimalText (5 / 2) = "2.5" := by decide +kernel

/-- The denominator of a decimal divides a power of ten that is not much larger. -/
theorem dvd_pow_self_of_dvd_pow {d k : ℕ} (h : d ∣ 10 ^ k) : d ∣ 10 ^ d := by
  have hten : (10 : ℕ) ≠ 0 := by omega
  have hd : d ≠ 0 := ne_zero_of_dvd_ne_zero (pow_ne_zero k hten) h
  rw [← Nat.factorization_le_iff_dvd hd (pow_ne_zero k hten), Nat.factorization_pow] at h
  rw [← Nat.factorization_le_iff_dvd hd (pow_ne_zero d hten), Nat.factorization_pow]
  intro p
  have hp : d.factorization p ≤ k * Nat.factorization 10 p := h p
  change d.factorization p ≤ d * Nat.factorization 10 p
  rcases Nat.eq_zero_or_pos (Nat.factorization 10 p) with hzero | hpos
  · rw [hzero] at hp ⊢
    omega
  · exact (Nat.factorization_lt p hd).le.trans (Nat.le_mul_of_pos_right d hpos)

theorem IsDecimal.dvd_pow {q : Rat} (h : IsDecimal q) : ∃ k, q.den ∣ 10 ^ k := by
  obtain ⟨n, k, rfl⟩ := h
  refine ⟨k, ?_⟩
  have hden := Rat.den_dvd n (10 ^ k)
  rw [Rat.divInt_eq_div] at hden
  exact_mod_cast hden

theorem IsDecimal.den_dvd {q : Rat} (h : IsDecimal q) : q.den ∣ 10 ^ decimals q := by
  obtain ⟨k, hk⟩ := h.dvd_pow
  unfold decimals
  cases hfind : (List.range (q.den + 1)).find? fun k => decide (q.den ∣ 10 ^ k) with
  | none =>
    have hnone := List.find?_eq_none.mp hfind q.den (List.mem_range.mpr (Nat.lt_succ_self _))
    exact absurd (decide_eq_true (dvd_pow_self_of_dvd_pow hk)) hnone
  | some j =>
    have hfound := List.find?_some hfind
    have hj : q.den ∣ 10 ^ j := of_decide_eq_true hfound
    exact hj.trans (pow_dvd_pow 10 (le_max_right 1 j))

theorem decimals_pos (q : Rat) : 0 < decimals q := lt_of_lt_of_le one_pos (le_max_left 1 _)

/-- A decimal is its digits over the power of ten. -/
theorem IsDecimal.eq_unscaled {q : Rat} (h : IsDecimal q) :
    |q| = (unscaled q : Rat) / ((10 ^ decimals q : ℕ) : Rat) := by
  obtain ⟨c, hc⟩ := h.den_dvd
  have hden : (q.den : Rat) ≠ 0 := Nat.cast_ne_zero.mpr q.den_nz
  have hpow : ((10 ^ decimals q : ℕ) : Rat) ≠ 0 := by
    rw [Nat.cast_ne_zero]
    exact (Nat.pow_pos (by omega)).ne'
  have hunscaled : unscaled q = q.num.natAbs * c := by
    unfold unscaled
    rw [hc, Nat.mul_div_cancel_left _ q.den_pos]
  have habs : |q| * q.den = (q.num.natAbs : Rat) := by
    rw [← abs_of_nonneg (Nat.cast_nonneg q.den : (0 : Rat) ≤ q.den), ← abs_mul, Rat.mul_den_eq_num,
      Nat.cast_natAbs, Int.cast_abs]
  rw [eq_div_iff hpow, hunscaled, hc, Nat.cast_mul, Nat.cast_mul, ← mul_assoc, habs]

namespace PyText

theorem isDigit_toDigits {n : ℕ} : ∀ c ∈ Nat.toDigits 10 n, isDigit c = true := by
  intro c hc
  rw [isDigit_iff]
  exact Nat.isDigit_of_mem_toDigits (by omega) (by omega) hc

theorem isDigit_zeroPad {width n : ℕ} : ∀ c ∈ (zeroPad width n).toList, isDigit c = true := by
  intro c hc
  unfold zeroPad at hc
  rw [String.toList_ofList] at hc
  rcases List.mem_append.mp hc with hc | hc
  · rw [List.eq_of_mem_replicate hc]
    decide
  · exact isDigit_toDigits c hc

/-- Padding leaves the number, and gives it the width. -/
theorem digits_zeroPad {width n : ℕ} (hwidth : 0 < width) (h : n < 10 ^ width) :
    digits (zeroPad width n).toList = some (n, width) := by
  have hlength : (Nat.toDigits 10 n).length ≤ width :=
    (Nat.length_toDigits_le_iff (by omega) hwidth).mpr h
  have hpadded : (zeroPad width n).toList.length = width := by
    unfold zeroPad
    rw [String.toList_ofList, List.length_append, List.length_replicate]
    omega
  have hvalue : Nat.ofDigitChars 10 (zeroPad width n).toList 0 = n := by
    unfold zeroPad
    rw [String.toList_ofList, Nat.ofDigitChars_append, Nat.ofDigitChars_replicate_zero, Nat.mul_zero,
      Nat.ofDigitChars_ten_toDigits]
  unfold digits
  rw [digitsAux_of_all isDigit_zeroPad 0 0 (.inl (List.ne_nil_of_length_pos (by omega))), hvalue, hpadded,
    Nat.zero_add]

/-- A text is split at the first character that ends its beginning. -/
theorem splitAt_append {p : Char → Bool} {front back : List Char} {c : Char}
    (hfront : ∀ d ∈ front, p d = false) (hc : p c = true) :
    splitAt p (front ++ c :: back) = (front, some back) := by
  induction front with
  | nil => rw [List.nil_append, splitAt, if_pos hc]
  | cons d front ih =>
    rw [List.cons_append, splitAt, if_neg (by rw [hfront d List.mem_cons_self]; exact Bool.false_ne_true),
      ih fun e he => hfront e (List.mem_cons_of_mem _ he)]

variable {whole fraction : List Char} {w f n k : ℕ}

theorem isDigit_of_digits (h : ∀ c ∈ whole ++ fraction, isDigit c = true) :
    ∀ c ∈ whole ++ '.' :: fraction, isDigit c = true ∨ c = '.' := by
  intro c hc
  rcases List.mem_append.mp hc with hc | hc
  · exact .inl (h c (List.mem_append_left _ hc))
  · rcases List.mem_cons.mp hc with rfl | hc
    · exact .inr rfl
    · exact .inl (h c (List.mem_append_right _ hc))

/-- The mantissa of digits around a point. -/
theorem parseMantissa_point (hall : ∀ c ∈ whole ++ fraction, isDigit c = true)
    (hwhole : digits whole = some (w, n)) (hfraction : digits fraction = some (f, k)) (hk : 0 < k) :
    parseMantissa (whole ++ '.' :: fraction) = some ((w : Rat) + (f : Rat) / ((10 ^ k : ℕ) : Rat)) := by
  have hsplit : splitAt (fun c => c = '.') (whole ++ '.' :: fraction) = (whole, some fraction) := by
    refine splitAt_append (fun c hc => ?_) (by decide)
    refine decide_eq_false ?_
    rintro rfl
    exact absurd (hall '.' (List.mem_append_left _ hc)) (by decide)
  have hempty : ∀ {cs : List Char} {r : ℕ × ℕ}, digits cs = some r → digitsOrEmpty cs = some r := by
    intro cs r h
    unfold digitsOrEmpty
    cases cs with
    | nil => cases h
    | cons c cs => rw [if_neg (by simp), h]
  unfold parseMantissa
  rw [hsplit]
  dsimp only
  rw [hempty hwhole, hempty hfraction]
  dsimp only
  rw [if_neg]
  simp only [Bool.and_eq_true, decide_eq_true_eq, not_and]
  omega

end PyText

open PyText

/-- The characters of a decimal text, after its sign. -/
def decimalBody (q : Rat) : List Char :=
  (toString (unscaled q / 10 ^ decimals q)).toList ++
    '.' :: (zeroPad (decimals q) (unscaled q % 10 ^ decimals q)).toList

theorem toList_decimalText (q : Rat) :
    (decimalText q).toList = (if q < 0 then ['-'] else []) ++ decimalBody q := by
  unfold decimalText decimalBody
  rw [String.toList_append, String.toList_append, String.toList_append]
  have hsign : (if q < 0 then "-" else "").toList = if q < 0 then ['-'] else [] := by
    split <;> rfl
  have hpoint : ".".toList = ['.'] := rfl
  rw [hsign, hpoint, List.append_assoc, List.append_assoc, List.singleton_append]

theorem isDigit_parts (q : Rat) : ∀ c ∈ (toString (unscaled q / 10 ^ decimals q)).toList ++
    (zeroPad (decimals q) (unscaled q % 10 ^ decimals q)).toList, isDigit c = true := by
  intro c hc
  rcases List.mem_append.mp hc with hc | hc
  · have htext : (toString (unscaled q / 10 ^ decimals q)).toList =
        Nat.toDigits 10 (unscaled q / 10 ^ decimals q) := Nat.toList_repr
    exact isDigit_toDigits c (htext ▸ hc)
  · exact isDigit_zeroPad c hc

theorem mem_decimalBody {q : Rat} : ∀ c ∈ decimalBody q, isDigit c = true ∨ c = '.' :=
  isDigit_of_digits (isDigit_parts q)

/-- It is read as it is, and its sign is the number's. -/
theorem sign_decimalText (q : Rat) :
    sign (numeral (decimalText q).toList) = (if q < 0 then -1 else 1, decimalBody q) := by
  have hspace : ∀ c ∈ (decimalText q).toList, c.toNat < 127 ∧ isSpace c = false := by
    intro c hc
    rw [toList_decimalText] at hc
    rcases List.mem_append.mp hc with hc | hc
    · split at hc
      · rw [List.mem_singleton.mp hc]
        decide
      · cases hc
    · rcases mem_decimalBody c hc with hdigit | rfl
      · exact ascii_of_isDigit hdigit
      · decide
  rw [numeral_of_all hspace, toList_decimalText]
  split
  · rfl
  · rw [List.nil_append]
    unfold sign
    split
    · next cs hcs =>
      have hdash := mem_decimalBody (q := q) '-' (hcs ▸ List.mem_cons_self)
      exact absurd hdash (by decide)
    · next cs hcs =>
      have hplus := mem_decimalBody (q := q) '+' (hcs ▸ List.mem_cons_self)
      exact absurd hplus (by decide)
    · rfl

/-- **`float` reads the text of a decimal.** -/
theorem parseFloat_decimalText {q : Rat} (h : IsDecimal q) :
    parseFloat (decimalText q) = some (.ofRat q) := by
  have hpoint : '.' ∈ decimalBody q := List.mem_append_right _ List.mem_cons_self
  -- a text with a point is no word
  have hword : ∀ word : List Char, '.' ∉ word →
      String.ofList ((decimalBody q).map Char.toLower) ≠ String.ofList word := by
    intro word hword heq
    have hlist : (decimalBody q).map Char.toLower = word := by simpa using congrArg String.toList heq
    exact hword (hlist ▸ List.mem_map.mpr ⟨'.', hpoint, by decide⟩)
  have hexponent : splitAt (fun c => c = 'e' || c = 'E') (decimalBody q) = (decimalBody q, none) := by
    refine splitAt_of_not_mem fun c hc => ?_
    rcases mem_decimalBody c hc with hdigit | rfl
    · simp only [Bool.or_eq_false_iff, decide_eq_false_iff_not]
      constructor <;> rintro rfl <;> revert hdigit <;> decide
    · decide
  have hmantissa : parseMantissa (decimalBody q) = some |q| := by
    have hpow : ((10 ^ decimals q : ℕ) : Rat) ≠ 0 := by
      rw [Nat.cast_ne_zero]
      exact (Nat.pow_pos (by omega)).ne'
    have hmod : unscaled q % 10 ^ decimals q < 10 ^ decimals q := Nat.mod_lt _ (Nat.pow_pos (by omega))
    have hvalue := parseMantissa_point (isDigit_parts q) (digits_toString (unscaled q / 10 ^ decimals q))
      (digits_zeroPad (decimals_pos q) hmod) (decimals_pos q)
    refine hvalue.trans (congrArg some ?_)
    rw [h.eq_unscaled, eq_div_iff hpow, add_mul, div_mul_cancel₀ _ hpow]
    have hsplit := Nat.div_add_mod' (unscaled q) (10 ^ decimals q)
    exact_mod_cast hsplit
  unfold parseFloat
  rw [sign_decimalText]
  dsimp only
  rw [if_neg, if_neg, hexponent]
  · dsimp only
    rw [hmantissa, Option.map_some]
    refine congrArg (fun x => some (PyFloat.ofRat x)) ?_
    split
    · next hneg => rw [abs_of_neg hneg, Int.cast_neg, Int.cast_one, neg_one_mul, neg_neg]
    · next hpos => rw [abs_of_nonneg (not_lt.mp hpos), Int.cast_one, one_mul]
  · exact hword _ (by decide)
  · exact not_or.mpr ⟨hword _ (by decide), hword _ (by decide)⟩

/-- `int` does not read it. -/
theorem parseInt_decimalText (q : Rat) : parseInt (decimalText q) = none := by
  have hnone : digits (decimalBody q) = none := by
    rw [Option.eq_none_iff_forall_ne_some]
    intro r hr
    rcases mem_of_digitsAux hr '.' (List.mem_append_right _ List.mem_cons_self) with hdigit | hline
    · revert hdigit
      decide
    · revert hline
      decide
  unfold parseInt
  rw [sign_decimalText]
  dsimp only
  rw [hnone]

end Conductress
