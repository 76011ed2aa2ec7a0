import Mathlib.Algebra.BigOperators.Group.Finset.Piecewise
import Mathlib.Data.List.Induction
import Mathlib.Logic.Function.Basic
import Conductress.Lib.Table

/-!
# Weights by key

A list whose elements have a key and a weight, and what the elements of each key weigh together:
a dictionary of sums that starts out empty.

* `tally_apply` — the sum under a key is that of its elements;
* `sum_tally` — over keys that cover the list, the sums make up its weight;
* `find?_tallied`, `sum_tallied` — the same of a table that has the keys that occurred.
-/

namespace Conductress.Lib

variable {α β κ M : Type*} [DecidableEq κ] [AddCommMonoid M]

/-- Add the weight of an element to what is under its key. -/
def weigh (key : α → κ) (weight : α → M) (sums : κ → M) (a : α) : κ → M :=
  Function.update sums (key a) (sums (key a) + weight a)

/-- The sums by key, of a list. -/
def tally (key : α → κ) (weight : α → M) (l : List α) : κ → M :=
  l.foldl (weigh key weight) fun _ => 0

variable {key : α → κ} {weight : α → M} {l : List α}

theorem foldl_weigh (sums : κ → M) (k : κ) : l.foldl (weigh key weight) sums k =
    sums k + ((l.filter fun a => decide (key a = k)).map weight).sum := by
  induction l generalizing sums with
  | nil => exact (add_zero _).symm
  | cons a l ih =>
    rw [List.foldl_cons, ih]
    by_cases hk : key a = k
    · rw [List.filter_cons, if_pos (decide_eq_true hk), List.map_cons, List.sum_cons, ← add_assoc,
        weigh, hk, Function.update_self]
    · rw [List.filter_cons, if_neg (mt of_decide_eq_true hk), weigh,
        Function.update_of_ne (Ne.symm hk)]

theorem tally_apply (k : κ) :
    tally key weight l k = ((l.filter fun a => decide (key a = k)).map weight).sum := by
  rw [tally, foldl_weigh, zero_add]

/-- A key that no element has is without weight. -/
theorem tally_eq_zero {k : κ} (h : ∀ a ∈ l, key a ≠ k) : tally key weight l k = 0 := by
  rw [tally_apply, List.filter_eq_nil_iff.mpr fun a ha hk => h a ha (of_decide_eq_true hk)]
  rfl

/-- An element more, as seen from one key. -/
theorem tally_cons (a : α) (k : κ) :
    tally key weight (a :: l) k = (if key a = k then weight a else 0) + tally key weight l k := by
  rw [tally_apply, tally_apply]
  by_cases hk : key a = k
  · rw [if_pos hk, List.filter_cons, if_pos (decide_eq_true hk), List.map_cons, List.sum_cons]
  · rw [if_neg hk, List.filter_cons, if_neg (mt of_decide_eq_true hk), zero_add]

/-- **The sums** of a list make up its weight. -/
theorem sum_tally {keys : List κ} (hnodup : keys.Nodup) (hcover : ∀ a ∈ l, key a ∈ keys) :
    (keys.map (tally key weight l)).sum = (l.map weight).sum := by
  rw [← List.sum_toFinset _ hnodup]
  induction l with
  | nil => exact Finset.sum_eq_zero fun _ _ => rfl
  | cons a l ih =>
    obtain ⟨ha, hl⟩ := List.forall_mem_cons.mp hcover
    -- the weight of the first element is under its key, and there alone
    have hfirst : ∑ k ∈ keys.toFinset, (if key a = k then weight a else 0) = weight a := by
      rw [Finset.sum_ite_eq, if_pos (List.mem_toFinset.mpr ha)]
    calc ∑ k ∈ keys.toFinset, tally key weight (a :: l) k
        = ∑ k ∈ keys.toFinset, ((if key a = k then weight a else 0) + tally key weight l k) :=
          Finset.sum_congr rfl fun k _ => tally_cons a k
      _ = weight a + ∑ k ∈ keys.toFinset, tally key weight l k := by
          rw [Finset.sum_add_distrib, hfirst]
      _ = ((a :: l).map weight).sum := by
          rw [ih hl, List.map_cons, List.sum_cons]

/-! ## As a table -/

/-- Add to what is under a key, from nothing if it is not there. -/
def Table.addTo (t : Table (Prod.fst : κ × M → κ)) (k : κ) (m : M) : Table (Prod.fst : κ × M → κ) :=
  if (t.find? k).isSome then t.update k fun row => (row.1, row.2 + m) else t.put (k, m)

/-- The sums of the keys that occur. -/
def tallied (key : α → κ) (weight : α → M) (l : List α) : Table (Prod.fst : κ × M → κ) :=
  l.foldl (fun t a => t.addTo (key a) (weight a)) .empty

theorem Table.find?_addTo (t : Table (Prod.fst : κ × M → κ)) (k : κ) (m : M) (j : κ) :
    (t.addTo k m).find? j =
      if j = k then some (k, (t.find? k).elim 0 Prod.snd + m) else t.find? j := by
  unfold Table.addTo
  cases hfind : t.find? k with
  | none =>
    rw [if_neg (by rw [Option.isSome_none]; exact Bool.false_ne_true), Table.find?_put,
      Option.elim_none, zero_add]
  | some row =>
    obtain ⟨-, rfl⟩ := Table.find?_eq_some_iff.mp hfind
    rw [if_pos Option.isSome_some, Table.find?_update, hfind]
    rfl

/-- **A sum** is there for the keys that occur. -/
theorem find?_tallied (k : κ) : (tallied key weight l).find? k =
    if ∃ a ∈ l, key a = k then some (k, tally key weight l k) else none := by
  induction l using List.reverseRecOn with
  | nil => rw [if_neg fun ⟨a, ha, _⟩ => List.not_mem_nil ha]; rfl
  | append_singleton l a ih =>
    have hstep : tallied key weight (l ++ [a]) =
        (tallied key weight l).addTo (key a) (weight a) := List.foldl_append ..
    have hsum : tally key weight (l ++ [a]) k =
        tally key weight l k + if key a = k then weight a else 0 := by
      rw [tally_apply, tally_apply, List.filter_append, List.map_append, List.sum_append]
      by_cases hk : key a = k
      · rw [List.filter_singleton, if_pos hk, decide_eq_true hk, cond_true, List.map_singleton,
          List.sum_singleton]
      · rw [List.filter_singleton, if_neg hk, decide_eq_false hk, cond_false, List.map_nil,
          List.sum_nil]
    rw [hstep, Table.find?_addTo, hsum]
    by_cases hk : key a = k
    · rw [if_pos hk.symm, if_pos ⟨a, List.mem_append_right _ (List.mem_singleton_self a), hk⟩,
        if_pos hk, hk, ih]
      -- what was there before is nothing for a key that is new
      by_cases hl : ∃ b ∈ l, key b = k
      · rw [if_pos hl]
        rfl
      · rw [if_neg hl, tally_eq_zero fun b hb hkb => hl ⟨b, hb, hkb⟩]
        rfl
    · have hiff : (∃ b ∈ l ++ [a], key b = k) ↔ ∃ b ∈ l, key b = k := by
        simp only [List.mem_append, List.mem_singleton, or_and_right, exists_or, exists_eq_left, hk,
          or_false]
      rw [if_neg (Ne.symm hk), if_neg hk, add_zero, ih]
      exact (if_congr hiff rfl rfl).symm

theorem mem_tallied {row : κ × M} (h : row ∈ tallied key weight l) :
    (∃ a ∈ l, key a = row.1) ∧ row.2 = tally key weight l row.1 := by
  have hfind := Table.find?_key h
  rw [find?_tallied] at hfind
  split at hfind
  · next hoccurs => exact ⟨hoccurs, (congrArg Prod.snd (Option.some.inj hfind)).symm⟩
  · cases hfind

/-- **The table** of the sums makes up the weight as well. -/
theorem sum_tallied : ((tallied key weight l).rows.map Prod.snd).sum = (l.map weight).sum := by
  have hcover : ∀ a ∈ l, key a ∈ (tallied key weight l).rows.map Prod.fst := by
    intro a ha
    have hfind := @find?_tallied _ _ _ _ _ key weight l (key a)
    rw [if_pos ⟨a, ha, rfl⟩] at hfind
    exact List.mem_map.mpr ⟨_, (Table.find?_eq_some_iff.mp hfind).1, rfl⟩
  rw [← sum_tally (tallied key weight l).nodup hcover, List.map_map]
  exact congrArg List.sum (List.map_congr_left fun row hrow => (mem_tallied hrow).2)

end Conductress.Lib
