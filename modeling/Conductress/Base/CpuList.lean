import Conductress.Base.DecimalText
import Conductress.Lib.Except
import Mathlib.Computability.RegularExpressions
import Mathlib.Data.List.DropRight
import Mathlib.Data.List.Sort

/-!
# Lists of CPUs as text

Three functions read a text such as `0-3,8`. `validate_cpulist` matches it against a
regular expression, `parse_cpulist` expands it, and `count_cpu_list` adds up the ends
of its ranges.

They agree on a text whose parts are numbers or ranges that do not descend, some of
them not empty and no two with a CPU in common: `agree_iff`. A text of no
characters is valid, and stands for no placement; it is not expanded.

What `format_cpulist` writes names the CPUs it was given: `namedCpus_formatCpulist`.
-/

namespace Conductress

open Lib

namespace CpuList

/-! ## The three functions -/

/-- `[0-9]+`. -/
def digitsRe : RegularExpression Char :=
  let digit := "0123456789".toList.foldr (fun c r => .char c + r) 0
  digit * digit.star

/-- `_CPULIST_RE`; its `$` is also before a newline that ends the text. -/
def cpulistRe : RegularExpression Char :=
  digitsRe * ((.char '-' + .char ',') * digitsRe).star * (1 + .char '\n')

/-- `validate_cpulist`. -/
def validateCpulist (cpulist : String) : Except PyError Unit :=
  if cpulist = "" then .ok ()
  else if ¬ cpulistRe.rmatch cpulist.toList then
    .error (.valueError s!"Invalid cpulist '{cpulist}': must contain only digits, commas, and dashes (e.g. '0-3,8-11')")
  else .ok ()

/-- `int(text)`. -/
def intOf (text : List Char) : Option ℤ := PyText.parseInt (String.ofList text)

/-- `int(text)`, or the error it raises. -/
def asInt (text : List Char) : Except PyError ℤ :=
  (intOf text).elim (.error (.valueError "invalid literal for int() with base 10")) .ok

/-- `sys.maxsize`. -/
def maxsize : ℕ := 2 ^ 63 - 1

/-- The memory of the process: how long a list it has room for. -/
structure Memory where
  room       : ℕ
  le_maxsize : room ≤ maxsize

/-- `range(start, stop + 1)`. -/
def cpuRange (start stop : ℤ) : List ℤ :=
  (List.range (stop + 1 - start).toNat).map fun k : ℕ => start + k

/-- `cpus.append(cpu)`. -/
def appendCpu (memory : Memory) (cpus : List ℤ) (cpu : ℤ) : Except PyError (List ℤ) :=
  if memory.room < cpus.length + 1 then .error .memoryError else .ok (cpus ++ [cpu])

/-- `cpus.extend(range(start, stop + 1))`: the length of the range is asked for first. -/
def extendCpus (memory : Memory) (cpus : List ℤ) (start stop : ℤ) : Except PyError (List ℤ) :=
  let length := (stop + 1 - start).toNat
  if maxsize < length then
    .error (.overflowError "Python int too large to convert to C ssize_t")
  else if memory.room < cpus.length + length then .error .memoryError
  else .ok (cpus ++ cpuRange start stop)

/-- The turn of a part in `parse_cpulist`. -/
def addPart (memory : Memory) (cpus : List ℤ) (part : List Char) : Except PyError (List ℤ) :=
  match PyText.splitAt (· = '-') part with
  | (start, some stop) => do
    let start ← asInt start
    let stop ← asInt stop
    extendCpus memory cpus start stop
  | (cpu, none) => do appendCpu memory cpus (← asInt cpu)

/-- `parse_cpulist`. -/
def parseCpulist (memory : Memory) (cpulist : String) : Except PyError (List ℤ) := do
  validateCpulist cpulist
  let cpus ← (cpulist.toList.splitOn ',').foldlM (addPart memory) []
  return cpus.insertionSort (· ≤ ·)

/-- The turn of a part in `count_cpu_list`. -/
def countPart (total : ℤ) (part : List Char) : Option ℤ :=
  let part := PyText.strip part
  if part = [] then some total
  else
    match PyText.splitAt (· = '-') part with
    | (lo, some hi) => do
      let hi ← intOf hi
      let lo ← intOf lo
      return total + (hi - lo + 1)
    | (cpu, none) => (intOf cpu).map fun _ => total + 1

/-- `count_cpu_list`. -/
def countCpuList (spec : String) : Option ℤ :=
  ((spec.toList.splitOn ',').foldlM countPart 0).bind fun total =>
    if 0 < total then some total else none

/-! ## Agreement -/

/-- The three functions agree on a text. -/
def Agree (memory : Memory) (cpulist : String) : Prop :=
  (validateCpulist cpulist = .ok () ↔ ∃ cpus, parseCpulist memory cpulist = .ok cpus) ∧
    (cpulist ≠ "" → validateCpulist cpulist = .ok () →
      ∀ cpus, parseCpulist memory cpulist = .ok cpus →
        countCpuList cpulist = some (cpus.length : ℤ) ∧ cpus.Nodup)

/-- The ends of a part that is a number, or two joined by a dash. -/
def rangeOf (part : List Char) : Option (ℤ × ℤ) :=
  match PyText.splitAt (· = '-') part with
  | (start, some stop) => do
    let start ← intOf start
    let stop ← intOf stop
    return (start, stop)
  | (cpu, none) => (intOf cpu).map fun n => (n, n)

/-- Both ranges have a CPU. -/
def Share (a b : ℤ × ℤ) : Prop := ∃ cpu, a.1 ≤ cpu ∧ cpu ≤ a.2 ∧ b.1 ≤ cpu ∧ cpu ≤ b.2

/-- The CPUs of the ranges. -/
def cpusOf (ranges : List (ℤ × ℤ)) : List ℤ := (ranges.map fun r => cpuRange r.1 r.2).flatten

/-- Every part is a number or a range, none descends by more than one, one has a CPU,
no two have one in common, and there is room for their CPUs. -/
def WellFormed (memory : Memory) (cpulist : String) : Prop :=
  ∃ ranges, (cpulist.toList.splitOn ',').mapM rangeOf = some ranges ∧
    (∀ r ∈ ranges, r.1 ≤ r.2 + 1) ∧ (∃ r ∈ ranges, r.1 ≤ r.2) ∧
    (ranges.Pairwise fun a b => ¬ Share a b) ∧ (cpusOf ranges).length ≤ memory.room

/-! ### Blanks around a part -/

section Strip

open PyText

/-- `lstrip`. -/
def lstrip (text : List Char) : List Char := text.dropWhile isSpace

/-- `rstrip`. -/
def rstrip (text : List Char) : List Char := (text.reverse.dropWhile isSpace).reverse

theorem dropWhile_append_cons {p : Char → Bool} {c : Char} (hc : p c = false)
    (front back : List Char) :
    (front ++ c :: back).dropWhile p = front.dropWhile p ++ c :: back := by
  induction front with
  | nil => rw [List.nil_append, List.dropWhile_cons_of_neg (by simp [hc])]; rfl
  | cons d front ih =>
    rw [List.cons_append, List.dropWhile_cons, List.dropWhile_cons]
    split
    · exact ih
    · rfl

/-- Stripping a part with a dash is stripping one end of each side. -/
theorem strip_append_dash (start stop : List Char) :
    strip (start ++ '-' :: stop) = lstrip start ++ '-' :: rstrip stop := by
  have hdash : isSpace '-' = false := by decide
  rw [strip, dropWhile_append_cons hdash, List.reverse_append, List.reverse_cons, List.append_assoc,
    List.singleton_append, dropWhile_append_cons hdash, List.reverse_append, List.reverse_cons,
    List.reverse_reverse, List.append_assoc, List.singleton_append]
  rfl

/-- Blanks after a text are stripped. -/
theorem strip_append_blank {blank : List Char} (h : ∀ c ∈ blank, isSpace c = true)
    (text : List Char) : strip (text ++ blank) = strip text := by
  unfold strip
  rw [List.dropWhile_append]
  split
  · next hnil =>
    rw [List.isEmpty_iff.mp hnil, List.dropWhile_eq_nil_iff.mpr h]
  · rw [List.reverse_append, List.dropWhile_append,
      List.dropWhile_eq_nil_iff.mpr fun c hc => h c (List.mem_reverse.mp hc)]
    rfl

/-- What `int` reads, it reads without the blanks at one end or both. -/
theorem intOf_stripped {text : List Char} {n : ℤ} (h : intOf text = some n) :
    intOf (lstrip text) = some n ∧ intOf (rstrip text) = some n ∧ intOf (strip text) = some n := by
  have hbetween := between_of_parseInt h
  rw [String.toList_ofList] at hbetween
  obtain ⟨front, core, back, rfl, hcore, hfront, hback, hplain⟩ := hbetween
  have hspace : ∀ {cs : List Char}, (∀ c ∈ cs, isBlank (toAscii c) = true) → ∀ c ∈ cs, isSpace c = true :=
    fun hcs c hc => isSpace_of_toAscii (hcs c hc)
  have hlstrip : lstrip (front ++ (core ++ back)) = core ++ back :=
    dropBlanks hcore (hspace hfront) hplain
  have hrstrip : ∀ cs : List Char, rstrip (cs ++ (core ++ back)) = cs ++ core := by
    intro cs
    obtain ⟨last, c, rfl⟩ := List.eq_nil_or_concat core |>.resolve_left hcore
    have hc := hplain c (by simp)
    rw [rstrip, List.reverse_append, List.reverse_append, List.append_assoc,
      List.dropWhile_append_of_pos fun d hd => hspace hback d (List.mem_reverse.mp hd)]
    simp [hc]
  have hread : ∀ front' back', (∀ c ∈ front', isBlank (toAscii c) = true) →
      (∀ c ∈ back', isBlank (toAscii c) = true) → intOf (front' ++ (core ++ back')) = some n := by
    intro front' back' hfront' hback'
    rw [← h]
    unfold intOf parseInt
    rw [String.toList_ofList, String.toList_ofList, numeral_between hcore hfront' hback' hplain,
      numeral_between hcore hfront hback hplain]
  have hnil : ∀ c ∈ ([] : List Char), isBlank (toAscii c) = true := List.forall_mem_nil _
  refine ⟨?_, ?_, ?_⟩
  · rw [hlstrip]
    exact hread [] back hnil hback
  · rw [hrstrip front]
    have hfront' := hread front [] hfront hnil
    rwa [List.append_nil] at hfront'
  · have hstrip : strip (front ++ (core ++ back)) = rstrip (lstrip (front ++ (core ++ back))) := rfl
    rw [hstrip, hlstrip, ← List.nil_append (core ++ back), hrstrip [], List.nil_append]
    have hplain' := hread [] [] hnil hnil
    rwa [List.nil_append, List.append_nil] at hplain'

/-! ### One part -/

theorem isDash_of_not_mem {text : List Char} (h : '-' ∉ text) :
    ∀ c ∈ text, decide (c = '-') = false := by
  intro c hc
  refine decide_eq_false ?_
  rintro rfl
  exact h hc

theorem lstrip_subset (text : List Char) : lstrip text ⊆ text :=
  (List.dropWhile_sublist _).subset

theorem strip_subset (text : List Char) : strip text ⊆ text := by
  intro c hc
  have hmem := (List.dropWhile_sublist _).subset (List.mem_reverse.mp hc)
  exact lstrip_subset text (List.mem_reverse.mp hmem)

/-- A part is without a dash, or it is two sides of its first one. -/
theorem dash_cases (part : List Char) :
    '-' ∉ part ∨ ∃ start stop, part = start ++ '-' :: stop ∧ '-' ∉ start := by
  by_cases h : '-' ∈ part
  · obtain ⟨start, stop, rfl, hstart⟩ := List.eq_append_cons_of_mem h
    exact .inr ⟨start, stop, rfl, hstart⟩
  · exact .inl h

theorem splitAt_dash {start : List Char} (h : '-' ∉ start) (stop : List Char) :
    splitAt (fun c => decide (c = '-')) (start ++ '-' :: stop) = (start, some stop) :=
  splitAt_append (isDash_of_not_mem h) (decide_eq_true rfl)

theorem splitAt_number {part : List Char} (h : '-' ∉ part) :
    splitAt (fun c => decide (c = '-')) part = (part, none) :=
  splitAt_of_not_mem (isDash_of_not_mem h)

theorem length_cpuRange (start stop : ℤ) : (cpuRange start stop).length = (stop + 1 - start).toNat := by
  rw [cpuRange, List.length_map, List.length_range]

/-- Appending a number is extending by the range of it. -/
theorem appendCpu_eq (memory : Memory) (cpus : List ℤ) (n : ℤ) :
    appendCpu memory cpus n = extendCpus memory cpus n n := by
  have hlength : (n + 1 - n).toNat = 1 := by omega
  have hmax : ¬ maxsize < 1 := by decide
  have hone : cpuRange n n = [n] := by simp [cpuRange]
  unfold appendCpu extendCpus
  dsimp only
  rw [hlength, if_neg hmax, hone]

/-- Expanding a part is expanding its range. -/
theorem addPart_eq (memory : Memory) (cpus : List ℤ) (part : List Char) :
    addPart memory cpus part =
      (rangeOf part).elim (.error (.valueError "invalid literal for int() with base 10"))
        fun r => extendCpus memory cpus r.1 r.2 := by
  -- a number, or the two sides of the first dash
  rcases dash_cases part with h | ⟨start, stop, rfl, hstart⟩
  · rw [addPart, rangeOf, splitAt_number h]
    dsimp only
    rw [asInt]
    cases intOf part with
    | none => rfl
    | some n => exact appendCpu_eq memory cpus n
  · rw [addPart, rangeOf, splitAt_dash hstart]
    dsimp only
    rw [asInt, asInt]
    cases intOf start with
    | none => rfl
    | some lo =>
      cases intOf stop with
      | none => rfl
      | some hi => rfl

/-- A list is extended when there is room for all of it. -/
theorem extendCpus_ok {memory : Memory} {cpus cpus' : List ℤ} {start stop : ℤ} :
    extendCpus memory cpus start stop = .ok cpus' ↔
      cpus.length + (cpuRange start stop).length ≤ memory.room ∧
        cpus' = cpus ++ cpuRange start stop := by
  have hmax := memory.le_maxsize
  rw [length_cpuRange]
  unfold extendCpus
  dsimp only
  split
  · refine iff_of_false nofun fun h => ?_
    have hroom := h.1
    omega
  · split
    · refine iff_of_false nofun fun h => ?_
      have hroom := h.1
      omega
    · next hroom =>
      rw [Except.ok.injEq, eq_comm]
      exact (and_iff_right (not_lt.mp hroom)).symm

theorem ne_nil_of_rangeOf {part : List Char} {r : ℤ × ℤ} (h : rangeOf part = some r) :
    strip part ≠ [] := by
  intro hnil
  rcases dash_cases part with hdash | ⟨start, stop, rfl, hstart⟩
  · rw [rangeOf, splitAt_number hdash] at h
    dsimp only at h
    obtain ⟨n, hn, -⟩ := Option.map_eq_some_iff.mp h
    have hstrip := (intOf_stripped hn).2.2
    rw [hnil] at hstrip
    cases hstrip
  · rw [strip_append_dash] at hnil
    exact List.cons_ne_nil _ _ (List.append_eq_nil_iff.mp hnil).2

/-- Counting a part adds the size of its range, which may be negative. -/
theorem countPart_eq {part : List Char} {r : ℤ × ℤ} (h : rangeOf part = some r) (total : ℤ) :
    countPart total part = some (total + (r.2 - r.1 + 1)) := by
  rw [countPart, if_neg (ne_nil_of_rangeOf h)]
  -- `count_cpu_list` strips the part, which takes nothing from what `int` reads
  rcases dash_cases part with hdash | ⟨start, stop, rfl, hstart⟩
  · rw [rangeOf, splitAt_number hdash] at h
    rw [splitAt_number fun hmem => hdash (strip_subset part hmem)]
    dsimp only at h ⊢
    obtain ⟨n, hn, rfl⟩ := Option.map_eq_some_iff.mp h
    rw [(intOf_stripped hn).2.2, Option.map_some]
    congr 1
    omega
  · rw [rangeOf, splitAt_dash hstart] at h
    rw [strip_append_dash, splitAt_dash fun hmem => hstart (lstrip_subset start hmem)]
    dsimp only at h ⊢
    obtain ⟨lo, hlo, h⟩ := Option.bind_eq_some_iff.mp h
    obtain ⟨hi, hhi, h⟩ := Option.bind_eq_some_iff.mp h
    cases h
    rw [(intOf_stripped hhi).2.1, (intOf_stripped hlo).1]
    rfl

end Strip

/-! ### A whole text -/

/-- The number of CPUs by the ends of the ranges. -/
def countOf (ranges : List (ℤ × ℤ)) : ℤ := (ranges.map fun r => r.2 - r.1 + 1).sum

theorem foldlM_countPart {parts : List (List Char)} {ranges : List (ℤ × ℤ)}
    (h : parts.mapM rangeOf = some ranges) (total : ℤ) :
    parts.foldlM countPart total = some (total + countOf ranges) := by
  induction parts generalizing ranges total with
  | nil =>
    cases h
    exact congrArg some (Int.add_zero total).symm
  | cons part parts ih =>
    rw [List.mapM_cons] at h
    obtain ⟨r, hr, h⟩ := Option.bind_eq_some_iff.mp h
    obtain ⟨rest, hrest, h⟩ := Option.bind_eq_some_iff.mp h
    cases h
    rw [List.foldlM_cons, countPart_eq hr, Option.bind_eq_bind, Option.bind_some, ih hrest,
      Int.add_assoc]
    rfl

theorem countCpuList_eq {cpulist : String} {ranges : List (ℤ × ℤ)}
    (h : (cpulist.toList.splitOn ',').mapM rangeOf = some ranges) :
    countCpuList cpulist = if 0 < countOf ranges then some (countOf ranges) else none := by
  rw [countCpuList, foldlM_countPart h, Option.bind_some, Int.zero_add]

/-- The parts are added when each is a number or a range and there is room for all CPUs. -/
theorem foldlM_addPart {memory : Memory} {parts : List (List Char)} {cpus cpus' : List ℤ} :
    parts.foldlM (addPart memory) cpus = .ok cpus' ∧ cpus.length ≤ memory.room ↔
      ∃ ranges, parts.mapM rangeOf = some ranges ∧
        cpus.length + (cpusOf ranges).length ≤ memory.room ∧ cpus' = cpus ++ cpusOf ranges := by
  induction parts generalizing cpus with
  | nil =>
    rw [List.foldlM_nil]
    constructor
    · rintro ⟨h, hroom⟩
      cases h
      exact ⟨[], rfl, hroom, (List.append_nil _).symm⟩
    · rintro ⟨ranges, h, hroom, rfl⟩
      cases h
      exact ⟨congrArg Except.ok (List.append_nil _).symm, hroom⟩
  | cons part parts ih =>
    rw [List.foldlM_cons, except_bind_ok, addPart_eq, List.mapM_cons]
    cases rangeOf part with
    | none => exact iff_of_false (by rintro ⟨⟨_, h, -⟩, -⟩; cases h) (by rintro ⟨_, h, -⟩; cases h)
    | some r =>
      have hcpus : ∀ ranges, cpusOf (r :: ranges) = cpuRange r.1 r.2 ++ cpusOf ranges := fun _ => rfl
      rw [Option.elim_some]
      constructor
      · rintro ⟨⟨next, hextend, hrest⟩, -⟩
        obtain ⟨hroom, rfl⟩ := extendCpus_ok.mp hextend
        rw [← List.length_append] at hroom
        obtain ⟨ranges, hranges, hfits, rfl⟩ := ih.mp ⟨hrest, hroom⟩
        refine ⟨r :: ranges, by rw [hranges]; rfl, ?_, ?_⟩
        · rw [hcpus, List.length_append, ← Nat.add_assoc, ← List.length_append]
          exact hfits
        · rw [hcpus, List.append_assoc]
      · rintro ⟨ranges, hranges, hfits, rfl⟩
        obtain ⟨_, ⟨⟩, hranges⟩ := Option.bind_eq_some_iff.mp hranges
        obtain ⟨rest, hrest, hranges⟩ := Option.bind_eq_some_iff.mp hranges
        cases hranges
        rw [hcpus, List.length_append, ← Nat.add_assoc] at hfits
        have hroom : cpus.length + (cpuRange r.1 r.2).length ≤ memory.room := by omega
        have hall := ih.mpr ⟨rest, hrest, by rw [List.length_append]; exact hfits,
          by rw [hcpus, List.append_assoc]⟩
        exact ⟨⟨_, extendCpus_ok.mpr ⟨hroom, rfl⟩, hall.1⟩, by omega⟩

theorem parseCpulist_ok {memory : Memory} {cpulist : String} {cpus : List ℤ} :
    parseCpulist memory cpulist = .ok cpus ↔ validateCpulist cpulist = .ok () ∧
      ∃ ranges, (cpulist.toList.splitOn ',').mapM rangeOf = some ranges ∧
        (cpusOf ranges).length ≤ memory.room ∧ cpus = (cpusOf ranges).insertionSort (· ≤ ·) := by
  have hparts (named : List ℤ) := @foldlM_addPart memory (cpulist.toList.splitOn ',') [] named
  simp only [List.length_nil, Nat.zero_le, and_true, Nat.zero_add, List.nil_append] at hparts
  unfold parseCpulist
  simp only [except_bind_ok, hparts]
  constructor
  · rintro ⟨_, hvalid, named, ⟨ranges, hranges, hroom, rfl⟩, h⟩
    cases h
    exact ⟨hvalid, ranges, hranges, hroom, rfl⟩
  · rintro ⟨hvalid, ranges, hranges, hroom, rfl⟩
    exact ⟨(), hvalid, _, ⟨ranges, hranges, hroom, rfl⟩, rfl⟩

theorem validateCpulist_ok {cpulist : String} :
    validateCpulist cpulist = .ok () ↔ cpulist = "" ∨ cpulistRe.rmatch cpulist.toList = true := by
  unfold validateCpulist
  split
  · next h => exact iff_of_true rfl (.inl h)
  · next h =>
    rw [or_iff_right h]
    split
    · next hmatch => exact iff_of_false nofun hmatch
    · next hmatch => exact iff_of_true rfl (not_not.mp hmatch)

/-- Nothing is not a number. -/
theorem mapM_rangeOf_empty : ("".toList.splitOn ',').mapM rangeOf = none := by
  decide

/-! ### Sizes -/

theorem mem_cpuRange {start stop cpu : ℤ} : cpu ∈ cpuRange start stop ↔ start ≤ cpu ∧ cpu ≤ stop := by
  rw [cpuRange, List.mem_map]
  constructor
  · rintro ⟨k, hk, rfl⟩
    have hlt := List.mem_range.mp hk
    omega
  · rintro ⟨hstart, hstop⟩
    exact ⟨(cpu - start).toNat, List.mem_range.mpr (by omega), by omega⟩

theorem nodup_cpuRange (start stop : ℤ) : (cpuRange start stop).Nodup :=
  List.nodup_range.map fun _ _ h => by simpa using h

/-- The ends count no more than there are CPUs, and as many only if no range descends
by more than one. -/
theorem countOf_le (ranges : List (ℤ × ℤ)) :
    countOf ranges ≤ (cpusOf ranges).length ∧
      (countOf ranges = (cpusOf ranges).length ↔ ∀ r ∈ ranges, r.1 ≤ r.2 + 1) := by
  induction ranges with
  | nil => exact ⟨le_refl _, iff_of_true rfl nofun⟩
  | cons r ranges ih =>
    have hcount : countOf (r :: ranges) = r.2 - r.1 + 1 + countOf ranges := rfl
    have hlength : ((cpusOf (r :: ranges)).length : ℤ) =
        (r.2 + 1 - r.1).toNat + (cpusOf ranges).length := by
      rw [cpusOf, List.map_cons, List.flatten_cons, List.length_append, length_cpuRange, Nat.cast_add]
      rfl
    rw [List.forall_mem_cons, ← ih.2, hcount, hlength]
    -- a range that descends by more than one is counted below nothing, and has no CPUs
    have hle := ih.1
    omega

theorem nodup_cpusOf {ranges : List (ℤ × ℤ)} :
    (cpusOf ranges).Nodup ↔ ranges.Pairwise fun a b => ¬ Share a b := by
  rw [cpusOf, List.nodup_flatten, List.pairwise_map]
  refine (and_iff_right ?_).trans (List.Pairwise.iff fun a b => ?_)
  · rintro cpus hcpus
    obtain ⟨r, -, rfl⟩ := List.mem_map.mp hcpus
    exact nodup_cpuRange _ _
  · rw [List.disjoint_left, Share, not_exists]
    refine forall_congr' fun cpu => ?_
    rw [mem_cpuRange, mem_cpuRange]
    tauto

theorem exists_of_countOf_pos {ranges : List (ℤ × ℤ)} (h : 0 < countOf ranges) :
    ∃ r ∈ ranges, r.1 ≤ r.2 := by
  by_contra hnone
  have hdescend : ∀ r ∈ ranges, r.2 < r.1 := fun r hr =>
    not_le.mp fun hle => hnone ⟨r, hr, hle⟩
  have hnil : cpusOf ranges = [] := by
    rw [cpusOf, List.flatten_eq_nil_iff]
    intro cpus hcpus
    obtain ⟨r, hr, rfl⟩ := List.mem_map.mp hcpus
    rw [List.eq_nil_iff_forall_not_mem]
    intro cpu hcpu
    have hlt := hdescend r hr
    rw [mem_cpuRange] at hcpu
    omega
  have hle := (countOf_le ranges).1
  rw [hnil, List.length_nil, Nat.cast_zero] at hle
  omega

theorem countOf_pos {ranges : List (ℤ × ℤ)} (h : ∃ r ∈ ranges, r.1 ≤ r.2)
    (hcount : countOf ranges = (cpusOf ranges).length) : 0 < countOf ranges := by
  obtain ⟨r, hr, hle⟩ := h
  have hmem : r.1 ∈ cpusOf ranges :=
    List.mem_flatten.mpr ⟨_, List.mem_map_of_mem hr, mem_cpuRange.mpr ⟨le_refl _, hle⟩⟩
  rw [hcount]
  exact Int.natCast_pos.mpr (List.length_pos_of_mem hmem)

section Agreement

variable (memory : Memory)

/-- **When the three functions agree**: on a text that is not empty and, if it passes
the check, is well formed. -/
theorem agree_iff (cpulist : String) :
    Agree memory cpulist ↔
      cpulist ≠ "" ∧ (cpulistRe.rmatch cpulist.toList = true → WellFormed memory cpulist) := by
  unfold Agree
  simp only [parseCpulist_ok, validateCpulist_ok]
  by_cases hempty : cpulist = ""
  · refine iff_of_false (fun h => ?_) fun h => h.1 hempty
    obtain ⟨_, _, ranges, hranges, -⟩ := h.1.mp (.inl hempty)
    rw [hempty, mapM_rangeOf_empty] at hranges
    cases hranges
  · by_cases hmatch : cpulistRe.rmatch cpulist.toList = true
    · simp only [hempty, hmatch, or_true, true_and, ne_eq, not_false_eq_true, true_implies, true_iff]
      unfold WellFormed
      constructor
      · rintro ⟨⟨cpus, ranges, hranges, hroom, rfl⟩, hagree⟩
        obtain ⟨hcount, hnodup⟩ := hagree _ ⟨ranges, hranges, hroom, rfl⟩
        rw [countCpuList_eq hranges, List.length_insertionSort] at hcount
        rw [(List.perm_insertionSort _ _).nodup_iff, nodup_cpusOf] at hnodup
        -- the count is there only when it is positive
        split at hcount
        · next hpos =>
          exact ⟨ranges, hranges, (countOf_le ranges).2.mp (Option.some.inj hcount),
            exists_of_countOf_pos hpos, hnodup, hroom⟩
        · cases hcount
      · rintro ⟨ranges, hranges, hascend, hsome, hapart, hroom⟩
        refine ⟨⟨_, ranges, hranges, hroom, rfl⟩, ?_⟩
        rintro cpus ⟨ranges', hranges', -, rfl⟩
        obtain rfl := Option.some.inj (hranges.symm.trans hranges')
        have hcount := (countOf_le ranges).2.mpr hascend
        rw [countCpuList_eq hranges, if_pos (countOf_pos hsome hcount), hcount,
          List.length_insertionSort, (List.perm_insertionSort _ _).nodup_iff, nodup_cpusOf]
        exact ⟨rfl, hapart⟩
    · simp [hempty, hmatch]

variable {memory} in
/-- **The three functions agree** on a text that is not empty and, if it passes the
check, is well formed. -/
theorem cpulists_agree {cpulist : String} (hsome : cpulist ≠ "")
    (hparts : cpulistRe.rmatch cpulist.toList = true → WellFormed memory cpulist) :
    Agree memory cpulist :=
  (agree_iff memory cpulist).mpr ⟨hsome, hparts⟩

/-- Room for a thousand CPUs. -/
def thousandCpus : Memory := ⟨1000, by decide⟩

theorem ranges_agree : Agree thousandCpus "0-3,8-11" :=
  cpulists_agree (by decide) fun _ => ⟨[(0, 3), (8, 11)], by decide, by decide, by decide, by
    rw [List.pairwise_pair]
    rintro ⟨cpu, h⟩
    omega, by decide⟩

/-- A text that passes the check, and what its ranges lack. -/
theorem not_agree_of_ranges {cpulist : String} {ranges : Option (List (ℤ × ℤ))}
    (hmatch : cpulistRe.rmatch cpulist.toList = true)
    (hranges : (cpulist.toList.splitOn ',').mapM rangeOf = ranges)
    (hbad : ∀ rs, ranges = some rs → (∀ r ∈ rs, r.1 ≤ r.2 + 1) →
      (rs.Pairwise fun a b => ¬ Share a b) → memory.room < (cpusOf rs).length) :
    ¬ Agree memory cpulist := by
  rintro h
  obtain ⟨rs, hrs, hascend, -, hapart, hroom⟩ := ((agree_iff memory cpulist).mp h).2 hmatch
  exact absurd hroom (not_le.mpr (hbad rs (hranges.symm.trans hrs) hascend hapart))

/-- No text is a valid one, and is not expanded; nor is a range of three numbers. A
range that descends is counted below nothing, and a CPU named twice is there twice. No
memory has room for the CPUs of some ranges. -/
theorem cpulists_disagree :
    (validateCpulist "" = .ok () ∧
      (∃ message, parseCpulist thousandCpus "" = .error (.valueError message)) ∧
      ∀ memory, ¬ Agree memory "") ∧
    (∀ memory, ¬ Agree memory "1-2-3") ∧ (∀ memory, ¬ Agree memory "5,3-1") ∧
    (∀ memory, ¬ Agree memory "0-2,1") ∧ ∀ memory, ¬ Agree memory "0-99999999999999999999" := by
  refine ⟨⟨rfl, ⟨"invalid literal for int() with base 10", by decide⟩,
    fun memory h => ((agree_iff memory "").mp h).1 rfl⟩, fun memory => ?_, fun memory => ?_,
    fun memory => ?_, fun memory => ?_⟩
  · exact @not_agree_of_ranges memory _ none (by decide) (by decide) nofun
  · refine @not_agree_of_ranges memory _ (some [(5, 5), (3, 1)]) (by decide) (by decide) ?_
    rintro rs ⟨⟩ hascend -
    exact absurd (hascend (3, 1) (by decide)) (by decide)
  · refine @not_agree_of_ranges memory _ (some [(0, 2), (1, 1)]) (by decide) (by decide) ?_
    rintro rs ⟨⟩ - hapart
    exact absurd ⟨1, by decide, by decide, by decide, by decide⟩
      (List.rel_of_pairwise_cons hapart (List.mem_singleton_self _))
  · refine @not_agree_of_ranges memory _ (some [(0, 99999999999999999999)]) (by decide) (by decide) ?_
    rintro rs ⟨⟩ - -
    have hmax := memory.le_maxsize
    rw [cpusOf, List.map_singleton, List.flatten_singleton, length_cpuRange]
    refine hmax.trans_lt ?_
    decide

end Agreement

/-! ## Writing a list -/

/-- The turn of a CPU in `format_cpulist`. -/
def addCpu (ranges : List (ℕ × ℕ)) (cpu : ℕ) : List (ℕ × ℕ) :=
  match ranges.getLast? with
  | some (a, b) => if cpu = b + 1 then ranges.dropLast ++ [(a, cpu)] else ranges ++ [(cpu, cpu)]
  | none => [(cpu, cpu)]

/-- `f"{a}-{b}" if a != b else str(a)`. -/
def rangeText (r : ℕ × ℕ) : String :=
  if r.1 ≠ r.2 then toString r.1 ++ "-" ++ toString r.2 else toString r.1

/-- `format_cpulist`. -/
def formatCpulist (cpus : List ℕ) : String :=
  ",".intercalate ((cpus.foldl addCpu []).map rangeText)

/-- A number in decimal digits. -/
def readCpu (text : List Char) : Option ℕ :=
  if text ≠ [] ∧ text.all PyText.isDigit then some (Nat.ofDigitChars 10 text 0) else none

/-- A CPU, or a range of them. -/
def readRange (part : List Char) : Option (List ℕ) :=
  match PyText.splitAt (· = '-') part with
  | (start, some stop) => do
    let start ← readCpu start
    let stop ← readCpu stop
    return List.range' start (stop + 1 - start)
  | (cpu, none) => (readCpu cpu).map fun n => [n]

/-- The CPUs that a list names to `taskset`. -/
def namedCpus (cpulist : String) : Option (List ℕ) :=
  ((cpulist.toList.splitOn ',').mapM readRange).map List.flatten

section Written

theorem toList_toString (n : ℕ) : (toString n).toList = Nat.toDigits 10 n := Nat.toList_repr

theorem readCpu_toString (n : ℕ) : readCpu (toString n).toList = some n := by
  rw [toList_toString, readCpu, if_pos, Nat.ofDigitChars_ten_toDigits]
  exact ⟨Nat.toDigits_ne_nil, List.all_eq_true.mpr PyText.isDigit_toDigits⟩

theorem not_mem_toString {c : Char} (hc : PyText.isDigit c = false) (n : ℕ) :
    c ∉ (toString n).toList := by
  rw [toList_toString]
  intro hmem
  rw [PyText.isDigit_toDigits c hmem] at hc
  cases hc

/-- The CPUs of a range. -/
def rangeCpus (r : ℕ × ℕ) : List ℕ := List.range' r.1 (r.2 + 1 - r.1)

theorem readRange_rangeText (r : ℕ × ℕ) : readRange (rangeText r).toList = some (rangeCpus r) := by
  have hdash : ∀ n : ℕ, '-' ∉ (toString n).toList := not_mem_toString (by decide)
  unfold rangeText
  split
  · have htext : (toString r.1 ++ "-" ++ toString r.2).toList =
        (toString r.1).toList ++ '-' :: (toString r.2).toList := by
      rw [String.toList_append, String.toList_append, List.append_assoc]
      rfl
    rw [readRange, htext, splitAt_dash (hdash r.1)]
    dsimp only
    rw [readCpu_toString, readCpu_toString]
    rfl
  · next h =>
    rw [readRange, splitAt_number (hdash r.1)]
    dsimp only
    rw [readCpu_toString, rangeCpus, ← not_not.mp h, Nat.add_sub_cancel_left]
    rfl

theorem comma_not_mem_rangeText (r : ℕ × ℕ) : ',' ∉ (rangeText r).toList := by
  have hcomma : ∀ n : ℕ, ',' ∉ (toString n).toList := not_mem_toString (by decide)
  unfold rangeText
  split
  · rw [String.toList_append, String.toList_append, List.mem_append, List.mem_append, not_or, not_or]
    exact ⟨⟨hcomma r.1, by decide⟩, hcomma r.2⟩
  · exact hcomma r.1

/-- Adding a CPU to the ranges adds it to their CPUs. -/
theorem flatMap_addCpu {ranges : List (ℕ × ℕ)} (h : ∀ r ∈ ranges, r.1 ≤ r.2) (cpu : ℕ) :
    (addCpu ranges cpu).flatMap rangeCpus = ranges.flatMap rangeCpus ++ [cpu] ∧
      (∀ r ∈ addCpu ranges cpu, r.1 ≤ r.2) ∧ addCpu ranges cpu ≠ [] := by
  have hone : rangeCpus (cpu, cpu) = [cpu] := by
    rw [rangeCpus, Nat.add_sub_cancel_left]
    rfl
  rcases List.eq_nil_or_concat ranges with rfl | ⟨front, ⟨a, b⟩, rfl⟩
  · exact ⟨by simp [addCpu, hone], by simp [addCpu], by simp [addCpu]⟩
  · rw [List.concat_eq_append] at h ⊢
    have hab : a ≤ b := h (a, b) (List.mem_append_right _ (List.mem_singleton_self _))
    rw [addCpu, List.getLast?_append_of_ne_nil _ (List.cons_ne_nil _ _), List.getLast?_singleton]
    dsimp only
    split
    · next hnext =>
      -- the CPU goes on where the last range ends
      have hrange : rangeCpus (a, cpu) = rangeCpus (a, b) ++ [cpu] := by
        rw [rangeCpus, rangeCpus, hnext, show b + 1 + 1 - a = (b + 1 - a) + 1 by omega,
          List.range'_concat]
        congr 2
        omega
      rw [List.dropLast_concat]
      refine ⟨?_, fun r hr => ?_, by simp⟩
      · rw [List.flatMap_append, List.flatMap_append, List.flatMap_singleton, List.flatMap_singleton,
          hrange, List.append_assoc]
      · rcases List.mem_append.mp hr with hr | hr
        · exact h r (List.mem_append_left _ hr)
        · rw [List.mem_singleton.mp hr]
          show a ≤ cpu
          omega
    · refine ⟨?_, fun r hr => ?_, by simp⟩
      · rw [List.flatMap_append, List.flatMap_singleton, hone]
      · rcases List.mem_append.mp hr with hr | hr
        · exact h r hr
        · rw [List.mem_singleton.mp hr]

theorem flatMap_foldl_addCpu {ranges : List (ℕ × ℕ)} (h : ∀ r ∈ ranges, r.1 ≤ r.2)
    (cpus : List ℕ) :
    (cpus.foldl addCpu ranges).flatMap rangeCpus = ranges.flatMap rangeCpus ++ cpus := by
  induction cpus generalizing ranges with
  | nil => rw [List.foldl_nil, List.append_nil]
  | cons cpu cpus ih =>
    obtain ⟨hcpus, hranges, -⟩ := flatMap_addCpu h cpu
    rw [List.foldl_cons, ih hranges, hcpus, List.append_assoc, List.singleton_append]

/-- **A written list names the CPUs it was written from.** -/
theorem namedCpus_formatCpulist {cpus : List ℕ} (h : cpus ≠ []) :
    namedCpus (formatCpulist cpus) = some cpus := by
  have hcpus := @flatMap_foldl_addCpu [] nofun cpus
  generalize hranges : cpus.foldl addCpu [] = ranges at hcpus
  have hsome : ranges ≠ [] := by
    rintro rfl
    exact h (by simpa using hcpus.symm)
  have hsplit : (formatCpulist cpus).toList.splitOn ',' = ranges.map fun r => (rangeText r).toList := by
    rw [formatCpulist, hranges, String.toList_intercalate, List.map_map]
    refine List.splitOn_intercalate ',' ?_ (by simpa using hsome)
    intro part hpart
    obtain ⟨r, -, rfl⟩ := List.mem_map.mp hpart
    exact comma_not_mem_rangeText r
  have hread : (ranges.map fun r => (rangeText r).toList).mapM readRange =
      some (ranges.map rangeCpus) := by
    clear hsplit hranges hcpus hsome
    induction ranges with
    | nil => rfl
    | cons r ranges ih => rw [List.map_cons, List.mapM_cons, readRange_rangeText, ih]; rfl
  rw [namedCpus, hsplit, hread, Option.map_some, ← List.flatMap_def, hcpus]
  rfl

end Written

end CpuList

end Conductress
