import Mathlib.Data.List.Basic
import Mathlib.Order.Lattice

/-!
# Neighbours in a sorted list

A list sorted by a key cuts the keys into stretches: before its first element,
between two neighbours, after its last.

* `neighbours` — the pairs of adjacent elements;
* `not_between_neighbours` — no element lies between two of them;
* `mem_neighbours_of_not_between` — and two with none between are neighbours;
* `stretch_of_notMem` — a key that is not taken lies in one of the stretches.
-/

namespace Conductress.Lib

variable {α κ : Type*} [LinearOrder κ] {xs : List α} {p q x : α}

/-- The pairs of adjacent elements. -/
def neighbours (xs : List α) : List (α × α) := xs.zip xs.tail

theorem neighbours_cons_cons (a b : α) (xs : List α) :
    neighbours (a :: b :: xs) = (a, b) :: neighbours (b :: xs) := rfl

theorem mem_of_mem_neighbours (h : (p, q) ∈ neighbours xs) : p ∈ xs ∧ q ∈ xs :=
  ⟨(List.of_mem_zip h).1, List.mem_of_mem_tail (List.of_mem_zip h).2⟩

variable (key : α → κ) (hsorted : xs.Pairwise fun a b => key a < key b)

include hsorted

theorem not_between_neighbours (h : (p, q) ∈ neighbours xs) (hx : x ∈ xs) :
    ¬ (key p < key x ∧ key x < key q) := by
  induction xs with
  | nil => cases h
  | cons a xs ih =>
    cases xs with
    | nil => cases h
    | cons b xs =>
      obtain ⟨ha, htail⟩ := List.pairwise_cons.mp hsorted
      rw [neighbours_cons_cons] at h
      rintro ⟨hpx, hxq⟩
      rcases List.mem_cons.mp h with heq | hrest
      · cases heq
        rcases List.mem_cons.mp hx with rfl | hx
        · exact absurd hpx (lt_irrefl _)
        · rcases List.mem_cons.mp hx with rfl | hx
          · exact absurd hxq (lt_irrefl _)
          · exact absurd (lt_trans hxq ((List.pairwise_cons.mp htail).1 x hx)) (lt_irrefl _)
      · rcases List.mem_cons.mp hx with rfl | hx
        · exact absurd (lt_trans hpx (ha p (mem_of_mem_neighbours hrest).1)) (lt_irrefl _)
        · exact ih htail hrest hx ⟨hpx, hxq⟩

theorem lt_of_mem_neighbours (h : (p, q) ∈ neighbours xs) : key p < key q := by
  induction xs with
  | nil => cases h
  | cons a xs ih =>
    cases xs with
    | nil => cases h
    | cons b xs =>
      obtain ⟨ha, htail⟩ := List.pairwise_cons.mp hsorted
      rw [neighbours_cons_cons] at h
      rcases List.mem_cons.mp h with heq | hrest
      · cases heq
        exact ha _ List.mem_cons_self
      · exact ih htail hrest

theorem mem_neighbours_of_not_between (hp : p ∈ xs) (hq : q ∈ xs) (hlt : key p < key q)
    (hnone : ∀ x ∈ xs, ¬ (key p < key x ∧ key x < key q)) : (p, q) ∈ neighbours xs := by
  induction xs with
  | nil => cases hp
  | cons a xs ih =>
    obtain ⟨ha, htail⟩ := List.pairwise_cons.mp hsorted
    obtain ⟨-, hrest⟩ := List.forall_mem_cons.mp hnone
    -- the later one is not the first
    have hqxs : q ∈ xs := by
      rcases List.mem_cons.mp hq with rfl | hq
      · rcases List.mem_cons.mp hp with rfl | hp
        · exact absurd hlt (lt_irrefl _)
        · exact absurd (hlt.trans (ha p hp)) (lt_irrefl _)
      · exact hq
    cases xs with
    | nil => cases hqxs
    | cons b xs =>
      rw [neighbours_cons_cons]
      rcases List.mem_cons.mp hp with rfl | hp
      · -- from the first, only the second has none between
        rcases List.mem_cons.mp hqxs with rfl | hqxs
        · exact List.mem_cons_self
        · have hb := (List.pairwise_cons.mp htail).1 q hqxs
          exact absurd ⟨ha b List.mem_cons_self, hb⟩ (hrest b List.mem_cons_self)
      · exact List.mem_cons_of_mem _ (ih htail hp hqxs hrest)

omit hsorted

/-- A key no element has lies before the first, between neighbours or after the
last. -/
theorem stretch_of_notMem (hne : xs ≠ []) {k : κ} (hk : ∀ a ∈ xs, key a ≠ k) :
    k < key (xs.head hne) ∨ (∃ pair ∈ neighbours xs, key pair.1 < k ∧ k < key pair.2) ∨
      key (xs.getLast hne) < k := by
  induction xs with
  | nil => exact absurd rfl hne
  | cons a xs ih =>
    have ha := hk a List.mem_cons_self
    cases xs with
    | nil =>
      rcases lt_or_gt_of_ne ha with h | h
      · exact .inr (.inr h)
      · exact .inl h
    | cons b xs =>
      rcases ih (by simp) fun c hc => hk c (List.mem_cons_of_mem a hc) with h | h | h
      · rcases lt_or_gt_of_ne ha with h' | h'
        · exact .inr (.inl ⟨(a, b), List.mem_cons_self, h', h⟩)
        · exact .inl h'
      · obtain ⟨pair, hpair, hbetween⟩ := h
        exact .inr (.inl ⟨pair, List.mem_cons_of_mem _ hpair, hbetween⟩)
      · exact .inr (.inr h)

end Conductress.Lib
