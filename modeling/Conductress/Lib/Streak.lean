import Mathlib.Data.List.Basic
import Mathlib.Order.Basic
import Mathlib.Order.Lattice

/-!
# Runs in a list

Where in a list `n` values in a row satisfy a predicate, and where the first of several
does.

* `firstRun_append_break` — a value that fails the predicate is in no run;
* `firstRun_eq_find?` — in a list in order of a key, the first run begins at the first
  value from which on there is one;
* `find?_eq_find?_iff` — when two searches find the same value.
-/

namespace Conductress.Lib

variable {α : Type*} {p q : α → Prop} {n : ℕ} {a : α} {l : List α}

/-- The list begins with `n` values that satisfy `p`. -/
def BeginsRun (p : α → Prop) (n : ℕ) (l : List α) : Prop := n ≤ l.length ∧ ∀ a ∈ l.take n, p a

instance [DecidablePred p] : Decidable (BeginsRun p n l) := inferInstanceAs (Decidable (_ ∧ _))

/-- A run needs its whole length in front of a value that fails. -/
theorem not_beginsRun_break {pre : List α} (hpre : pre.length < n) (ha : ¬ p a) :
    ¬ BeginsRun p n (pre ++ a :: l) := by
  rintro ⟨-, hall⟩
  -- the value is among the first `n`
  refine ha (hall a ?_)
  rw [List.take_append, List.mem_append]
  right
  obtain ⟨k, hk⟩ : ∃ k, n - pre.length = k + 1 := ⟨n - pre.length - 1, by omega⟩
  rw [hk, List.take_succ_cons]
  exact List.mem_cons_self

variable [DecidablePred p] [DecidablePred q]

/-- The value at which the first such run begins. -/
def firstRun (p : α → Prop) [DecidablePred p] (n : ℕ) : List α → Option α
  | [] => none
  | a :: l => if BeginsRun p n (a :: l) then some a else firstRun p n l

theorem firstRun_cons : firstRun p n (a :: l) =
    if BeginsRun p n (a :: l) then some a else firstRun p n l :=
  rfl

/-- A list that is too short has no run. -/
theorem firstRun_of_short (h : l.length < n) : firstRun p n l = none := by
  induction l with
  | nil => rfl
  | cons a l ih =>
    rw [firstRun_cons, if_neg fun hrun => absurd hrun.1 (by omega)]
    exact ih (by rw [List.length_cons] at h; omega)

/-- A value that fails is in no run, and neither are fewer than `n` values in front of it. -/
theorem firstRun_append_break {pre : List α} (hpre : pre.length < n) (ha : ¬ p a) :
    firstRun p n (pre ++ a :: l) = firstRun p n l := by
  -- no run begins in front of the value, since it would have to pass it
  induction pre with
  | nil =>
    have hnot : ¬ BeginsRun p n ([] ++ a :: l) := not_beginsRun_break hpre ha
    exact if_neg hnot
  | cons b pre ih =>
    have hnot : ¬ BeginsRun p n (b :: pre ++ a :: l) := not_beginsRun_break hpre ha
    rw [List.cons_append] at hnot ⊢
    rw [firstRun_cons, if_neg hnot]
    exact ih (by rw [List.length_cons] at hpre; omega)

/-- `n` values in front that satisfy `p` are the first run. -/
theorem firstRun_of_all {pre : List α} (hlength : (a :: pre).length = n)
    (hall : ∀ b ∈ a :: pre, p b) : firstRun p n (a :: pre ++ l) = some a := by
  rw [List.cons_append, firstRun_cons, if_pos]
  refine ⟨?_, ?_⟩
  · rw [← hlength, List.length_cons, List.length_cons, List.length_append]
    omega
  · have htake : (a :: (pre ++ l)).take n = a :: pre := by
      rw [← List.cons_append, List.take_append_of_le_length (Nat.le_of_eq hlength.symm), ← hlength]
      exact List.take_length
    rw [htake]
    exact hall

section Ordered

variable {κ : Type*} [LinearOrder κ] {key : α → κ}

/-- The values from a key on, in a list in order. -/
theorem filter_from_ordered {pre : List α} (h : (pre ++ a :: l).Pairwise (key · < key ·)) :
    (pre ++ a :: l).filter (fun b => decide (key a ≤ key b)) = a :: l := by
  obtain ⟨-, hpost, hcross⟩ := List.pairwise_append.mp h
  rw [List.filter_append, List.filter_eq_nil_iff.mpr, List.nil_append, List.filter_eq_self.mpr]
  · intro b hb
    rcases List.mem_cons.mp hb with rfl | hb
    · exact decide_eq_true (le_refl _)
    · exact decide_eq_true ((List.pairwise_cons.mp hpost).1 b hb).le
  · intro b hb hle
    exact absurd (of_decide_eq_true hle) (not_le.mpr (hcross b hb a List.mem_cons_self))

/-- **The first run** begins at the first value from which on there is one. -/
theorem firstRun_eq_find? (h : l.Pairwise (key · < key ·)) :
    firstRun p n l =
      l.find? fun a => decide (BeginsRun p n (l.filter fun b => decide (key a ≤ key b))) := by
  -- the induction is on what is left of the list, while the filter is over all of it
  suffices hsuffix : ∀ (post pre : List α), pre ++ post = l → firstRun p n post =
      post.find? fun a => decide (BeginsRun p n (l.filter fun b => decide (key a ≤ key b))) from
    hsuffix l [] rfl
  intro post
  induction post with
  | nil => exact fun _ _ => rfl
  | cons a post ih =>
    intro pre hsplit
    have hfrom : l.filter (fun b => decide (key a ≤ key b)) = a :: post := by
      rw [← hsplit]
      exact filter_from_ordered (by rw [hsplit]; exact h)
    rw [firstRun_cons, List.find?_cons, hfrom]
    by_cases hrun : BeginsRun p n (a :: post)
    · rw [if_pos hrun, decide_eq_true hrun]
    · rw [if_neg hrun, decide_eq_false hrun]
      exact ih (pre ++ [a]) (by rw [List.append_assoc]; exact hsplit)

/-- **Two searches** find the same value, if and only if no value satisfies only one of the
predicates, up to the first one that satisfies both. -/
theorem find?_eq_find?_iff (h : l.Pairwise (key · < key ·)) :
    l.find? (fun a => decide (p a)) = l.find? (fun a => decide (q a)) ↔
      ∀ a ∈ l, (p a ↔ q a) ∨ ∃ b ∈ l, key b < key a ∧ p b ∧ q b := by
  induction l with
  | nil => exact ⟨fun _ _ h => absurd h List.not_mem_nil, fun _ => rfl⟩
  | cons a l ih =>
    obtain ⟨hfirst, hl⟩ := List.pairwise_cons.mp h
    have hnone : ∀ b ∈ a :: l, ¬ key b < key a := by
      intro b hb
      rcases List.mem_cons.mp hb with rfl | hb
      · exact lt_irrefl _
      · exact (hfirst b hb).not_gt
    rw [List.find?_cons, List.find?_cons]
    by_cases hp : p a <;> by_cases hq : q a
    · -- both begin here
      rw [decide_eq_true hp, decide_eq_true hq]
      refine ⟨fun _ b hb => ?_, fun _ => rfl⟩
      rcases List.mem_cons.mp hb with rfl | hb
      · exact .inl ⟨fun _ => hq, fun _ => hp⟩
      · exact .inr ⟨a, List.mem_cons_self, hfirst b hb, hp, hq⟩
    · rw [decide_eq_true hp, decide_eq_false hq]
      constructor
      -- the other search finds a later value, if it finds one
      · intro heq
        have hmem : a ∈ l := List.mem_of_find?_eq_some heq.symm
        exact absurd (hfirst a hmem) (lt_irrefl _)
      · intro hagree
        rcases hagree a List.mem_cons_self with hiff | ⟨b, hb, hlt, -⟩
        · exact absurd (hiff.mp hp) hq
        · exact absurd hlt (hnone b hb)
    · rw [decide_eq_false hp, decide_eq_true hq]
      constructor
      · intro heq
        have hmem : a ∈ l := List.mem_of_find?_eq_some heq
        exact absurd (hfirst a hmem) (lt_irrefl _)
      · intro hagree
        rcases hagree a List.mem_cons_self with hiff | ⟨b, hb, hlt, -⟩
        · exact absurd (hiff.mpr hq) hp
        · exact absurd hlt (hnone b hb)
    · -- neither begins here
      rw [decide_eq_false hp, decide_eq_false hq]
      refine (ih hl).trans ⟨fun hagree b hb => ?_, fun hagree b hb => ?_⟩
      · rcases List.mem_cons.mp hb with rfl | hb
        · exact .inl ⟨fun h => absurd h hp, fun h => absurd h hq⟩
        · rcases hagree b hb with hiff | ⟨c, hc, hboth⟩
          · exact .inl hiff
          · exact .inr ⟨c, List.mem_cons_of_mem a hc, hboth⟩
      · rcases hagree b (List.mem_cons_of_mem a hb) with hiff | ⟨c, hc, hlt, hpc, hqc⟩
        · exact .inl hiff
        · rcases List.mem_cons.mp hc with rfl | hc
          · exact absurd hpc hp
          · exact .inr ⟨c, hc, hlt, hpc, hqc⟩

end Ordered

end Conductress.Lib
