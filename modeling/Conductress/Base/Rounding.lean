import Mathlib.Algebra.Order.Floor.Ring
import Mathlib.Data.Rat.Floor
import Mathlib.Tactic.Linarith

/-!
# Rounded numbers

`round` and the format specifications `.Nf`, `,.Nf` and `.N%`, of exact values,
and the double an exact value is rounded to.
-/

namespace Conductress

/-- Python's `round`: to the nearest integer, a half to the even one. -/
def pyRound (x : ℚ) : ℤ :=
  if x - ⌊x⌋ < 1 / 2 then ⌊x⌋
  else if 1 / 2 < x - ⌊x⌋ then ⌊x⌋ + 1
  else if ⌊x⌋ % 2 = 0 then ⌊x⌋
  else ⌊x⌋ + 1

/-- It is off by a half at most. -/
theorem abs_pyRound_sub_le (x : ℚ) : |(pyRound x : ℚ) - x| ≤ 1 / 2 := by
  have hlo : (⌊x⌋ : ℚ) ≤ x := Int.floor_le x
  have hhi : x < ⌊x⌋ + 1 := Int.lt_floor_add_one x
  rw [abs_le]
  unfold pyRound
  split
  · constructor <;> linarith
  split
  · push_cast
    constructor <;> linarith
  -- on a half both neighbours are as near
  split
  · constructor <;> linarith
  · push_cast
    constructor <;> linarith

/-- A whole number stays as it is. -/
theorem pyRound_intCast (n : ℤ) : pyRound n = n := by
  have hfraction : (n : ℚ) - ⌊(n : ℚ)⌋ < 1 / 2 := by
    rw [Int.floor_intCast, sub_self]
    norm_num
  unfold pyRound
  rw [if_pos hfraction, Int.floor_intCast]

/-- Numbers more than one apart are rounded to different ones. -/
theorem pyRound_lt_pyRound {x y : ℚ} (h : x + 1 < y) : pyRound x < pyRound y := by
  have hx := (abs_le.mp (abs_pyRound_sub_le x)).2
  have hy := (abs_le.mp (abs_pyRound_sub_le y)).1
  have hlt : (pyRound x : ℚ) < pyRound y := by linarith
  exact_mod_cast hlt

/-- Digits with a comma before every third, the last digit first. -/
def commaGroups : List Char → List Char
  | a :: b :: c :: d :: rest => a :: b :: c :: ',' :: commaGroups (d :: rest)
  | digits => digits

/-- `format(n, ",")` of a number that is not negative. -/
def commaNat (n : ℕ) : String :=
  String.ofList (commaGroups (toString n).toList.reverse).reverse

/-- `format(n, ",")`. -/
def commaInt (n : ℤ) : String := (if n < 0 then "-" else "") ++ commaNat n.natAbs

/-- `.Nf`, the whole part written by `whole`. -/
def fixedWith (whole : ℕ → String) (places : ℕ) (x : ℚ) : String :=
  let scaled := (pyRound (|x| * 10 ^ places)).toNat
  let digits := toString (scaled % 10 ^ places)
  let fraction := "".pushn '0' (places - digits.length) ++ digits
  (if x < 0 then "-" else "") ++ whole (scaled / 10 ^ places) ++
    if places = 0 then "" else "." ++ fraction

/-- `.Nf`. -/
def fixed (places : ℕ) (x : ℚ) : String := fixedWith toString places x

/-- `,.Nf`. -/
def commaFixed (places : ℕ) (x : ℚ) : String := fixedWith commaNat places x

/-- `.N%`. -/
def percent (places : ℕ) (x : ℚ) : String := fixed places (x * 100) ++ "%"

example : (commaFixed 0 1234567, fixed 2 (1 / 8), percent 1 (97 / 100)) =
    ("1,234,567", "0.12", "97.0%") := by decide +kernel

/-! ## Doubles -/

/-- `2 ^ e`. -/
def twoPow : ℤ → ℚ
  | .ofNat n => (2 ^ n : ℕ)
  | .negSucc n => 1 / (2 ^ (n + 1) : ℕ)

/-- The exponent of the greatest power of two that a value, if not 0, reaches. -/
def binade (x : ℚ) : ℤ :=
  let e := (Nat.log2 x.num.natAbs : ℤ) - Nat.log2 x.den
  if |x| < twoPow e then e - 1 else e

/-- The double nearest to a value, a tie to the even one: 53 bits, of which none
is worth less than the least subnormal. A value too large for a double is none
of this program's. -/
def roundDouble (x : ℚ) : ℚ :=
  let unit := twoPow (max (binade x - 52) (-1074))
  pyRound (x / unit) * unit

-- `1.0 - 0.10` is `0.9`, but `(33 + 33 + 34) / 3 * 0.9` is not `30.0`
example : roundDouble (1 - roundDouble (1 / 10)) = roundDouble (9 / 10) ∧
    30 < roundDouble (roundDouble (100 / 3) * roundDouble (9 / 10)) := by decide +kernel

end Conductress
