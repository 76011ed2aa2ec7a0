import Mathlib.Algebra.Group.Nat.Defs
import Mathlib.Data.List.Basic
import Mathlib.Data.Nat.Notation
import Mathlib.Tactic.Tauto

/-!
# Texts of fixed-width fields

A text is compared character by character. Where two texts are made of fields of
the same widths, with the same separators between them, that is the comparison
of the fields one after the other (`stamp_lt_iff`), and a field of digits with
leading zeros is compared as the number it shows (`fixedDigits_lt_iff`). What
was put together is read back (`unstamp_stamp`).
-/

namespace Conductress.Lib

/-! ## Pieces of equal length -/

/-- The first pieces decide, and the rests where these are equal. -/
theorem append_lt_append_iff {α : Type*} [LT α] [Std.Irrefl (· < · : α → α → Prop)]
    {xs ys : List α} (hlen : xs.length = ys.length) {as bs : List α} :
    xs ++ as < ys ++ bs ↔ xs < ys ∨ (xs = ys ∧ as < bs) := by
  induction xs generalizing ys with
  | nil =>
    cases ys with
    | nil => simp
    | cons y ys => cases hlen
  | cons x xs ih =>
    cases ys with
    | nil => cases hlen
    | cons y ys =>
      rw [List.cons_append, List.cons_append, List.cons_lt_cons_iff, List.cons_lt_cons_iff,
        ih (Nat.succ.inj hlen), List.cons.injEq]
      tauto

/-! ## Digits -/

/-- The last `width` decimal digits of a number. -/
def fixedDigits : ℕ → ℕ → List Char
  | 0, _ => []
  | width + 1, n => fixedDigits width (n / 10) ++ [Nat.digitChar (n % 10)]

@[simp] theorem length_fixedDigits (width n : ℕ) : (fixedDigits width n).length = width := by
  induction width generalizing n with
  | zero => rfl
  | succ width ih => rw [fixedDigits, List.length_append, ih, List.length_singleton]

theorem fixedDigits_zero (width : ℕ) : fixedDigits width 0 = List.replicate width '0' := by
  induction width with
  | zero => rfl
  | succ width ih =>
    rw [fixedDigits, Nat.zero_div, ih, List.replicate_succ']
    rfl

/-- Zeros before the digits of a number. -/
theorem replicate_append_toDigits (width : ℕ) : ∀ n < 10 ^ (width + 1),
    List.replicate (width + 1 - (Nat.toDigits 10 n).length) '0' ++ Nat.toDigits 10 n =
      fixedDigits (width + 1) n := by
  induction width with
  | zero =>
    intro n hn
    have hdigit : n < 10 := hn
    rw [Nat.toDigits_of_lt_base hdigit, fixedDigits, fixedDigits, Nat.mod_eq_of_lt hdigit]
    rfl
  | succ width ih =>
    intro n hn
    by_cases hsmall : n < 10
    · rw [Nat.toDigits_of_lt_base hsmall, fixedDigits, Nat.div_eq_of_lt hsmall, fixedDigits_zero,
        Nat.mod_eq_of_lt hsmall]
      rfl
    · have hdiv : n / 10 < 10 ^ (width + 1) := by
        rw [Nat.pow_succ] at hn
        exact Nat.div_lt_of_lt_mul (by omega)
      rw [Nat.toDigits_of_base_le (by omega) (by omega), fixedDigits, ← ih _ hdiv,
        List.length_append, List.length_singleton, Nat.add_sub_add_right, List.append_assoc]

theorem digitChar_lt {d e : ℕ} (h : d < e) (he : e < 10) : Nat.digitChar d < Nat.digitChar e := by
  have hall : ∀ e < 10, ∀ d < e, Nat.digitChar d < Nat.digitChar e := by decide
  exact hall e he d h

theorem fixedDigits_lt {width m n : ℕ} (h : m < n) (hn : n < 10 ^ width) :
    fixedDigits width m < fixedDigits width n := by
  induction width generalizing m n with
  | zero => omega
  | succ width ih =>
    rw [fixedDigits, fixedDigits, append_lt_append_iff (by simp)]
    rcases Nat.lt_or_ge (m / 10) (n / 10) with hdiv | hdiv
    · refine .inl (ih hdiv ?_)
      rw [Nat.pow_succ] at hn
      exact Nat.div_lt_of_lt_mul (by omega)
    · have hsame : m / 10 = n / 10 := by omega
      refine .inr ⟨by rw [hsame], ?_⟩
      rw [List.cons_lt_cons_iff]
      exact .inl (digitChar_lt (by omega) (by omega))

/-- Digits with leading zeros are in the order of the numbers. -/
theorem fixedDigits_lt_iff {width m n : ℕ} (hm : m < 10 ^ width) (hn : n < 10 ^ width) :
    fixedDigits width m < fixedDigits width n ↔ m < n := by
  refine ⟨fun h => ?_, fun h => fixedDigits_lt h hn⟩
  by_contra hle
  rcases Nat.lt_or_eq_of_le (Nat.not_lt.mp hle) with hlt | rfl
  · exact List.lt_asymm h (fixedDigits_lt hlt hm)
  · exact List.lt_irrefl _ h

theorem fixedDigits_inj {width m n : ℕ} (hm : m < 10 ^ width) (hn : n < 10 ^ width) :
    fixedDigits width m = fixedDigits width n ↔ m = n := by
  refine ⟨fun h => ?_, fun h => by rw [h]⟩
  rcases Nat.lt_trichotomy m n with hlt | heq | hlt
  · exact absurd (h ▸ fixedDigits_lt hlt hn) (List.lt_irrefl _)
  · exact heq
  · exact absurd (h ▸ fixedDigits_lt hlt hm) (List.lt_irrefl _)

/-! ## Fields -/

/-- Numbers as fields of the given widths, each with what stands behind it, and
a rest. -/
def stamp : List (ℕ × List Char) → List ℕ → List Char → List Char
  | (width, sep) :: widths, v :: vs, rest => fixedDigits width v ++ (sep ++ stamp widths vs rest)
  | _, _, rest => rest

/-- Every number has room in its field. -/
def FitsWidths : List (ℕ × List Char) → List ℕ → Prop
  | (width, _) :: widths, v :: vs => v < 10 ^ width ∧ FitsWidths widths vs
  | [], [] => True
  | _, _ => False

/-- **Stamped texts** are in the order of the numbers, then of the rests. -/
theorem stamp_lt_iff (widths : List (ℕ × List Char)) : ∀ {vs ws : List ℕ} {r s : List Char},
    FitsWidths widths vs → FitsWidths widths ws →
    (stamp widths vs r < stamp widths ws s ↔ vs < ws ∨ (vs = ws ∧ r < s)) := by
  induction widths with
  | nil =>
    intro vs ws r s hv hw
    cases vs with
    | cons v vs => exact hv.elim
    | nil =>
      cases ws with
      | cons w ws => exact hw.elim
      | nil => simp [stamp]
  | cons field widths ih =>
    obtain ⟨width, sep⟩ := field
    intro vs ws r s hv hw
    cases vs with
    | nil => exact hv.elim
    | cons v vs =>
      cases ws with
      | nil => exact hw.elim
      | cons w ws =>
        obtain ⟨hv, hvs⟩ := hv
        obtain ⟨hw, hws⟩ := hw
        have hsep : ¬ sep < sep := List.lt_irrefl _
        rw [stamp, stamp, append_lt_append_iff (by simp), append_lt_append_iff rfl,
          fixedDigits_lt_iff hv hw, fixedDigits_inj hv hw, ih hvs hws, List.cons_lt_cons_iff,
          List.cons.injEq]
        tauto

/-! ## Reading -/

/-- The number in the first `width` characters, and the rest. -/
def readDigits (width : ℕ) (text : List Char) : Option (ℕ × List Char) :=
  let digits := text.take width
  if digits.length = width ∧ digits.all Char.isDigit = true then
    some (Nat.ofDigitChars 10 digits 0, text.drop width)
  else none

theorem isDigit_of_mem_fixedDigits {width n : ℕ} {c : Char} (h : c ∈ fixedDigits width n) :
    c.isDigit = true := by
  induction width generalizing n with
  | zero => cases h
  | succ width ih =>
    rw [fixedDigits, List.mem_append, List.mem_singleton] at h
    rcases h with h | rfl
    · exact ih h
    · rw [Nat.isDigit_digitChar, decide_eq_true_eq]
      omega

theorem ofDigitChars_fixedDigits (width n : ℕ) :
    Nat.ofDigitChars 10 (fixedDigits width n) 0 = n % 10 ^ width := by
  induction width generalizing n with
  | zero => simp [fixedDigits, Nat.mod_one]
  | succ width ih =>
    have hdigit : n % 10 < 10 := Nat.mod_lt _ (by decide)
    rw [fixedDigits, Nat.ofDigitChars_append, ih,
      Nat.ofDigitChars_cons_digitChar_of_lt_ten hdigit, Nat.ofDigitChars_nil, Nat.pow_succ',
      Nat.mod_mul, Nat.add_comm]

theorem readDigits_append {width n : ℕ} (hn : n < 10 ^ width) (rest : List Char) :
    readDigits width (fixedDigits width n ++ rest) = some (n, rest) := by
  have htake : (fixedDigits width n ++ rest).take width = fixedDigits width n :=
    List.take_left' (length_fixedDigits width n)
  have hdrop : (fixedDigits width n ++ rest).drop width = rest :=
    List.drop_left' (length_fixedDigits width n)
  have hall : (fixedDigits width n).all Char.isDigit = true :=
    List.all_eq_true.mpr fun c => isDigit_of_mem_fixedDigits
  unfold readDigits
  rw [htake, hdrop, if_pos ⟨length_fixedDigits width n, hall⟩, ofDigitChars_fixedDigits,
    Nat.mod_eq_of_lt hn]

/-- The numbers in fields of the given widths, and the rest. -/
def unstamp : List (ℕ × List Char) → List Char → Option (List ℕ × List Char)
  | [], text => some ([], text)
  | (width, sep) :: widths, text => do
    let (v, text) ← readDigits width text
    let text ← text.dropPrefix? sep
    let (vs, rest) ← unstamp widths text
    some (v :: vs, rest)

/-- **Stamped texts are read back.** -/
theorem unstamp_stamp (widths : List (ℕ × List Char)) : ∀ {vs : List ℕ} (rest : List Char),
    FitsWidths widths vs → unstamp widths (stamp widths vs rest) = some (vs, rest) := by
  induction widths with
  | nil =>
    intro vs rest hv
    cases vs with
    | nil => rfl
    | cons v vs => exact hv.elim
  | cons field widths ih =>
    obtain ⟨width, sep⟩ := field
    intro vs rest hv
    cases vs with
    | nil => exact hv.elim
    | cons v vs =>
      have hsep : (sep ++ stamp widths vs rest).dropPrefix? sep = some (stamp widths vs rest) :=
        List.dropPrefix?_append_of_beq _ (beq_self_eq_true sep)
      rw [stamp, unstamp, readDigits_append hv.1, Option.bind_eq_bind, Option.bind_some]
      dsimp only
      rw [hsep, Option.bind_eq_bind, Option.bind_some, ih rest hv.2]
      rfl

end Conductress.Lib
