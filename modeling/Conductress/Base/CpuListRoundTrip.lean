import Conductress.Base.CpuList
import Mathlib.Tactic.IntervalCases

/-!
# A written list of CPUs, read back

`format_cpulist` merges the CPUs that follow one another into ranges. The three
readers take the ranges apart again: `cpulist_round_trip`.

`str` writes no number of more than 4300 digits, and `int` reads none; no CPU has one.
-/

namespace Conductress

open Lib

namespace CpuList

/-! ## Writing with the limit of `str` -/

/-- `str` of a number. -/
def strOf (n : ℕ) : Except PyError String :=
  if n < 10 ^ 4300 then .ok (toString n)
  else .error (.valueError ("Exceeds the limit (4300 digits) for integer string conversion; " ++
    "use sys.set_int_max_str_digits() to increase the limit"))

/-- `f"{a}-{b}" if a != b else str(a)`, with the limit of `str`. -/
def rangeStr (r : ℕ × ℕ) : Except PyError String :=
  if r.1 ≠ r.2 then do
    let start ← strOf r.1
    let stop ← strOf r.2
    return start ++ "-" ++ stop
  else strOf r.1

/-- `format_cpulist`, with the limit of `str`. -/
def writeCpulist (cpus : List ℕ) : Except PyError String := do
  let parts ← (cpus.foldl addCpu []).mapM rangeStr
  return ",".intercalate parts

section RoundTrip

variable {cpus : List ℕ}

/-- The ranges of some CPUs. -/
def writtenRanges (cpus : List ℕ) : List (ℕ × ℕ) := cpus.foldl addCpu []

theorem rangeStr_small {r : ℕ × ℕ} (h : r.1 < 10 ^ 4300 ∧ r.2 < 10 ^ 4300) :
    rangeStr r = .ok (rangeText r) := by
  unfold rangeStr rangeText strOf
  rw [if_pos h.1, if_pos h.2]
  split <;> rfl

theorem flatMap_writtenRanges (cpus : List ℕ) : (writtenRanges cpus).flatMap rangeCpus = cpus :=
  @flatMap_foldl_addCpu [] (List.forall_mem_nil _) cpus

/-- No range descends, and its ends are among the CPUs. -/
theorem mem_writtenRanges {r : ℕ × ℕ} (hr : r ∈ writtenRanges cpus) :
    r.1 ≤ r.2 ∧ r.1 ∈ cpus ∧ r.2 ∈ cpus := by
  -- adding a CPU keeps the ranges from descending, whatever is there already
  have hall : ∀ (cpus : List ℕ) (ranges : List (ℕ × ℕ)), (∀ r ∈ ranges, r.1 ≤ r.2) →
      ∀ r ∈ cpus.foldl addCpu ranges, r.1 ≤ r.2 := by
    intro cpus
    induction cpus with
    | nil => exact fun ranges h => h
    | cons cpu cpus ih => exact fun ranges h => ih _ (flatMap_addCpu h cpu).2.1
  have hle := hall cpus [] (List.forall_mem_nil _) r hr
  -- the CPUs of all ranges together are the list
  have hmem : ∀ cpu ∈ rangeCpus r, cpu ∈ cpus := by
    intro cpu hcpu
    rw [← flatMap_writtenRanges cpus]
    exact List.mem_flatMap.mpr ⟨r, hr, hcpu⟩
  refine ⟨hle, hmem _ ?_, hmem _ ?_⟩
  · rw [rangeCpus, List.mem_range'_1]
    omega
  · rw [rangeCpus, List.mem_range'_1]
    omega

theorem writtenRanges_ne_nil (h : cpus ≠ []) : writtenRanges cpus ≠ [] := by
  intro hnil
  have hcpus := flatMap_writtenRanges cpus
  rw [hnil] at hcpus
  exact h hcpus.symm

/-- Below the limit the list is written. -/
theorem writeCpulist_small (h : ∀ cpu ∈ cpus, cpu < 10 ^ 4300) :
    writeCpulist cpus = .ok (formatCpulist cpus) := by
  have hparts : (writtenRanges cpus).mapM rangeStr = .ok ((writtenRanges cpus).map rangeText) := by
    rw [except_mapM_eq_map, List.map_map]
    refine List.map_congr_left fun r hr => ?_
    obtain ⟨-, hstart, hstop⟩ := mem_writtenRanges hr
    exact rangeStr_small ⟨h _ hstart, h _ hstop⟩
  unfold writeCpulist
  exact except_bind_ok.mpr ⟨_, hparts, rfl⟩

/-! ## The parts -/

/-- The parts of a written list are the texts of its ranges. -/
theorem splitOn_formatCpulist (h : cpus ≠ []) :
    (formatCpulist cpus).toList.splitOn ',' =
      (writtenRanges cpus).map fun r => (rangeText r).toList := by
  have hsome := writtenRanges_ne_nil h
  rw [formatCpulist, String.toList_intercalate, List.map_map]
  refine List.splitOn_intercalate ',' ?_ (mt List.map_eq_nil_iff.mp hsome)
  intro part hpart
  obtain ⟨r, -, rfl⟩ := List.mem_map.mp hpart
  exact comma_not_mem_rangeText r

theorem toList_rangeText (r : ℕ × ℕ) : (rangeText r).toList =
    (toString r.1).toList ++ if r.1 ≠ r.2 then '-' :: (toString r.2).toList else [] := by
  unfold rangeText
  split
  · rw [String.toList_append, String.toList_append, List.append_assoc]
    rfl
  · rw [List.append_nil]

theorem intOf_toString {n : ℕ} (h : n < 10 ^ 4300) : intOf (toString n).toList = some (n : ℤ) := by
  rw [intOf, String.ofList_toList]
  exact PyText.parseInt_toString h

/-- The text of a range is read as the range. -/
theorem rangeOf_rangeText {r : ℕ × ℕ} (h : r.1 < 10 ^ 4300 ∧ r.2 < 10 ^ 4300) :
    rangeOf (rangeText r).toList = some ((r.1 : ℤ), (r.2 : ℤ)) := by
  -- the first dash is the one between the two numbers
  have hdash : '-' ∉ (toString r.1).toList := not_mem_toString (by decide) r.1
  rw [toList_rangeText]
  by_cases hne : r.1 ≠ r.2
  · rw [if_pos hne, rangeOf, splitAt_dash hdash]
    dsimp only
    rw [intOf_toString h.1, intOf_toString h.2]
    rfl
  · rw [if_neg hne, List.append_nil, rangeOf, splitAt_number hdash]
    dsimp only
    rw [intOf_toString h.1, ← not_not.mp hne]
    rfl

/-! ## The check -/

theorem alternatives_rmatch (cs : List Char) (x : List Char) :
    (cs.foldr (fun c r => RegularExpression.char c + r) 0).rmatch x = true ↔
      ∃ c ∈ cs, x = [c] := by
  induction cs with
  | nil => simp [RegularExpression.zero_rmatch]
  | cons c cs ih =>
    rw [List.foldr_cons, RegularExpression.add_rmatch_iff, RegularExpression.char_rmatch_iff, ih]
    simp

theorem mem_digits {c : Char} (h : PyText.isDigit c = true) : c ∈ "0123456789".toList := by
  obtain ⟨hlow, hhigh⟩ := PyText.toNat_of_isDigit h
  have hchar : c = Char.ofNat c.toNat := (Char.ofNat_toNat c).symm
  rw [hchar]
  generalize c.toNat = n at hlow hhigh
  interval_cases n <;> decide

/-- Some digits match `[0-9]+`. -/
theorem digitsRe_rmatch {text : List Char} (hsome : text ≠ [])
    (hdigits : ∀ c ∈ text, PyText.isDigit c = true) : digitsRe.rmatch text = true := by
  obtain ⟨c, rest, rfl⟩ := List.exists_cons_of_ne_nil hsome
  obtain ⟨hc, hrest⟩ := List.forall_mem_cons.mp hdigits
  unfold digitsRe
  rw [RegularExpression.mul_rmatch_iff]
  refine ⟨[c], rest, rfl, (alternatives_rmatch _ _).mpr ⟨c, mem_digits hc, rfl⟩, ?_⟩
  rw [RegularExpression.star_rmatch_iff]
  -- each digit by itself is a round of the star
  refine ⟨rest.map fun d => [d], by rw [← List.flatMap_def, List.flatMap_singleton'], ?_⟩
  intro part hpart
  obtain ⟨d, hd, rfl⟩ := List.mem_map.mp hpart
  exact ⟨List.cons_ne_nil _ _, (alternatives_rmatch _ _).mpr ⟨d, mem_digits (hrest d hd), rfl⟩⟩

theorem digitsRe_toString (n : ℕ) : digitsRe.rmatch (toString n).toList = true := by
  rw [toList_toString]
  exact digitsRe_rmatch Nat.toDigits_ne_nil PyText.isDigit_toDigits

/-- A separator and a number. -/
def NumberStep (text : List Char) : Prop :=
  ∃ (c : Char) (n : ℕ), (c = '-' ∨ c = ',') ∧ text = c :: (toString n).toList

theorem NumberStep.rmatch {text : List Char} (h : NumberStep text) :
    ((RegularExpression.char '-' + .char ',') * digitsRe).rmatch text = true := by
  obtain ⟨c, n, hc, rfl⟩ := h
  rw [RegularExpression.mul_rmatch_iff]
  refine ⟨[c], _, rfl, ?_, digitsRe_toString n⟩
  rw [RegularExpression.add_rmatch_iff, RegularExpression.char_rmatch_iff,
    RegularExpression.char_rmatch_iff]
  rcases hc with rfl | rfl
  · exact .inl rfl
  · exact .inr rfl

/-- A number and what follows it, each a separator and a number, match. -/
theorem cpulistRe_rmatch (n : ℕ) {steps : List (List Char)} (h : ∀ text ∈ steps, NumberStep text) :
    cpulistRe.rmatch ((toString n).toList ++ steps.flatten) = true := by
  unfold cpulistRe
  rw [RegularExpression.mul_rmatch_iff]
  -- the part that may end the list is empty
  refine ⟨_, [], (List.append_nil _).symm, ?_, by decide⟩
  rw [RegularExpression.mul_rmatch_iff]
  refine ⟨_, _, rfl, digitsRe_toString n, ?_⟩
  rw [RegularExpression.star_rmatch_iff]
  refine ⟨steps, rfl, fun text htext => ⟨?_, (h text htext).rmatch⟩⟩
  obtain ⟨c, m, -, rfl⟩ := h text htext
  exact List.cons_ne_nil _ _

/-- What follows the first number of a range. -/
def rangeSteps (r : ℕ × ℕ) : List (List Char) :=
  if r.1 ≠ r.2 then ['-' :: (toString r.2).toList] else []

theorem rangeText_eq_flatten (r : ℕ × ℕ) :
    (rangeText r).toList = (toString r.1).toList ++ (rangeSteps r).flatten := by
  rw [toList_rangeText, rangeSteps]
  split
  · rw [List.flatten_singleton]
  · rfl

theorem step_rangeSteps (r : ℕ × ℕ) : ∀ text ∈ rangeSteps r, NumberStep text := by
  unfold rangeSteps
  split
  · intro text htext
    rw [List.mem_singleton.mp htext]
    exact ⟨'-', r.2, .inl rfl, rfl⟩
  · exact nofun

/-- The ranges after the first one, joined. -/
theorem intercalate_rangeText (r : ℕ × ℕ) (ranges : List (ℕ × ℕ)) :
    ∃ steps : List (List Char), (∀ text ∈ steps, NumberStep text) ∧
      [','].intercalate ((r :: ranges).map fun r => (rangeText r).toList) =
        (toString r.1).toList ++ steps.flatten := by
  -- the comma before a range and its first number are one step, its dash and second number
  -- another
  induction ranges generalizing r with
  | nil =>
    refine ⟨rangeSteps r, step_rangeSteps r, ?_⟩
    rw [← rangeText_eq_flatten]
    simp
  | cons next ranges ih =>
    obtain ⟨steps, hsteps, htext⟩ := ih next
    refine ⟨rangeSteps r ++ (',' :: (toString next.1).toList) :: steps, ?_, ?_⟩
    · intro text htext
      rcases List.mem_append.mp htext with hmem | hmem
      · exact step_rangeSteps r text hmem
      · rcases List.mem_cons.mp hmem with rfl | hmem
        · exact ⟨',', next.1, .inr rfl, rfl⟩
        · exact hsteps text hmem
    · rw [List.map_cons] at htext ⊢
      rw [List.map_cons, List.intercalate_cons_cons, htext, rangeText_eq_flatten,
        List.flatten_append, List.flatten_cons]
      simp

/-- **A written list passes the check.** -/
theorem validateCpulist_formatCpulist (h : cpus ≠ []) :
    validateCpulist (formatCpulist cpus) = .ok () := by
  obtain ⟨r, ranges, hranges⟩ := List.exists_cons_of_ne_nil (writtenRanges_ne_nil h)
  obtain ⟨steps, hsteps, htext⟩ := intercalate_rangeText r ranges
  rw [validateCpulist_ok]
  refine .inr ?_
  have hlist : (formatCpulist cpus).toList = (toString r.1).toList ++ steps.flatten := by
    rw [← htext, ← hranges, formatCpulist, String.toList_intercalate, List.map_map]
    rfl
  rw [hlist]
  exact cpulistRe_rmatch r.1 hsteps

/-! ## Reading it back -/

theorem cpuRange_natCast (r : ℕ × ℕ) :
    cpuRange (r.1 : ℤ) (r.2 : ℤ) = (rangeCpus r).map fun cpu : ℕ => (cpu : ℤ) := by
  rw [cpuRange, rangeCpus, List.range'_eq_map_range, List.map_map]
  have hlength : ((r.2 : ℤ) + 1 - r.1).toNat = r.2 + 1 - r.1 := by omega
  rw [hlength]
  refine List.map_congr_left fun k _ => ?_
  simp

theorem mapM_some_map {α β γ : Type*} {f : β → Option γ} {g : α → β} {k : α → γ} {xs : List α}
    (h : ∀ x ∈ xs, f (g x) = some (k x)) : (xs.map g).mapM f = some (xs.map k) := by
  induction xs with
  | nil => rfl
  | cons x xs ih =>
    obtain ⟨hx, hxs⟩ := List.forall_mem_cons.mp h
    rw [List.map_cons, List.mapM_cons, hx, ih hxs]
    rfl

/-- **A list of CPUs in order is what its text is read as**, and passes the check and
is counted right. The list is one there is room for, and its numbers are short enough
for `str`. -/
theorem cpulist_round_trip {memory : Memory} (hsome : cpus ≠ []) (hsorted : cpus.Pairwise (· < ·))
    (hsmall : ∀ cpu ∈ cpus, cpu < 10 ^ 4300) (hroom : cpus.length ≤ memory.room) :
    ∃ text, writeCpulist cpus = .ok text ∧
      parseCpulist memory text = .ok (cpus.map fun cpu : ℕ => (cpu : ℤ)) ∧
      validateCpulist text = .ok () ∧ countCpuList text = some (cpus.length : ℤ) := by
  have hvalid := validateCpulist_formatCpulist hsome
  have hranges : ((formatCpulist cpus).toList.splitOn ',').mapM rangeOf =
      some ((writtenRanges cpus).map fun r => ((r.1 : ℤ), (r.2 : ℤ))) := by
    rw [splitOn_formatCpulist hsome]
    refine mapM_some_map fun r hr => ?_
    obtain ⟨-, hstart, hstop⟩ := mem_writtenRanges hr
    exact rangeOf_rangeText ⟨hsmall _ hstart, hsmall _ hstop⟩
  -- the ranges that are read are those that were written
  have hcpus : cpusOf ((writtenRanges cpus).map fun r => ((r.1 : ℤ), (r.2 : ℤ))) =
      cpus.map fun cpu : ℕ => (cpu : ℤ) := by
    rw [cpusOf, List.map_map]
    conv_rhs => rw [← flatMap_writtenRanges cpus, List.map_flatMap, List.flatMap_def]
    exact congrArg List.flatten (List.map_congr_left fun r _ => cpuRange_natCast r)
  -- the reader sorts what is in order already
  have hordered : (cpus.map fun cpu : ℕ => (cpu : ℤ)).Pairwise (· ≤ ·) :=
    List.pairwise_map.mpr (hsorted.imp fun h => by omega)
  have hcount := (countOf_le ((writtenRanges cpus).map fun r => ((r.1 : ℤ), (r.2 : ℤ)))).2.mpr
    (by
      intro r hr
      obtain ⟨s, hs, rfl⟩ := List.mem_map.mp hr
      have hle := (mem_writtenRanges hs).1
      dsimp only
      omega)
  rw [hcpus, List.length_map] at hcount
  refine ⟨_, writeCpulist_small hsmall, parseCpulist_ok.mpr ⟨hvalid, _, hranges, ?_, ?_⟩, hvalid, ?_⟩
  · rw [hcpus, List.length_map]
    exact hroom
  · rw [hcpus, List.Pairwise.insertionSort_eq hordered]
  · have hpos : 0 < cpus.length := List.length_pos_iff.mpr hsome
    rw [countCpuList_eq hranges, hcount, if_pos (by omega)]

/-- Two ranges and a CPU between them. -/
theorem three_ranges_round_trip : ∃ text, writeCpulist [0, 1, 2, 5, 7, 8] = .ok text ∧
    parseCpulist thousandCpus text = .ok [0, 1, 2, 5, 7, 8] ∧
    validateCpulist text = .ok () ∧ countCpuList text = some 6 := by
  -- the limit itself is too large to compute with
  have hsmall : ∀ cpu ∈ [0, 1, 2, 5, 7, 8], cpu < 10 ^ 4300 := by
    intro cpu hcpu
    have hten : cpu < 10 := by
      revert cpu
      decide
    exact hten.trans_le (Nat.le_self_pow (Nat.succ_ne_zero 4299) 10)
  exact @cpulist_round_trip [0, 1, 2, 5, 7, 8] thousandCpus (by decide) (by decide) hsmall (by decide)

end RoundTrip

end CpuList

end Conductress
