import Mathlib.Algebra.GroupWithZero.Nat
import Mathlib.Data.Finset.Card
import Mathlib.Data.List.Pairwise
import Mathlib.Data.List.Perm.Subperm
import Mathlib.Order.Lattice

/-!
# Disjoint blocks

Lists no two of which share an element, and the sets drawn from them.

* `met` — how many of the blocks a set meets;
* `met_le` — a set that some pieces of blocks cover meets no more blocks than
  these;
* `sum_le_sum_take` — a few numbers add up to no more than as many of the
  greatest: what makes a choice by size, largest first, the best one.
-/

namespace Conductress.Lib

/-! ## Numbers from the greatest down -/

/-- One more number in front, no smaller than the others, is no loss. -/
theorem sum_take_le_cons {a : ℕ} {sizes : List ℕ} (h : ∀ b ∈ sizes, b ≤ a) (n : ℕ) :
    (sizes.take n).sum ≤ ((a :: sizes).take n).sum := by
  cases n with
  | zero => simp
  | succ n =>
    rw [List.take_succ_cons, List.sum_cons, List.take_add_one, List.sum_append, Nat.add_comm]
    have hlast : (sizes[n]?.toList).sum ≤ a := by
      cases hn : sizes[n]? with
      | none => simp
      | some b =>
        have hb := h b (List.mem_of_getElem? hn)
        simpa using hb
    omega

/-- Of numbers from the greatest down, the first ones add up to the most. -/
theorem sum_le_sum_take {sizes picked : List ℕ} (hsorted : sizes.Pairwise (· ≥ ·))
    (hpicked : picked.Sublist sizes) : picked.sum ≤ (sizes.take picked.length).sum := by
  induction hpicked with
  | slnil => simp
  | cons a _ ih =>
    obtain ⟨hgreatest, hrest⟩ := List.pairwise_cons.mp hsorted
    exact (ih hrest).trans (sum_take_le_cons hgreatest _)
  | cons_cons a _ ih =>
    rw [List.sum_cons, List.length_cons, List.take_succ_cons, List.sum_cons]
    exact Nat.add_le_add_left (ih (List.pairwise_cons.mp hsorted).2) a

/-! ## Blocks -/

section Blocks

variable {α : Type*} {blocks : List (List α)}

/-- An element is in one block at most. -/
theorem eq_of_shared (hapart : blocks.Pairwise List.Disjoint) {a b : List α} (ha : a ∈ blocks)
    (hb : b ∈ blocks) {x : α} (hxa : x ∈ a) (hxb : x ∈ b) : a = b := by
  by_contra hne
  have : Std.Symm (@List.Disjoint α) := ⟨fun _ _ h => h.symm⟩
  exact hapart.forall ha hb hne hxa hxb

/-- Blocks around pieces of blocks, as many as there are pieces. -/
theorem exists_blocks {pieces : List (List α)}
    (h : ∀ piece ∈ pieces, ∃ block ∈ blocks, piece ⊆ block) :
    ∃ picked, picked.length = pieces.length ∧ picked ⊆ blocks ∧
      ∀ piece ∈ pieces, ∃ block ∈ picked, piece ⊆ block := by
  induction pieces with
  | nil => exact ⟨[], rfl, List.nil_subset _, fun piece hpiece => absurd hpiece List.not_mem_nil⟩
  | cons piece pieces ih =>
    obtain ⟨block, hblock, hin⟩ := h piece List.mem_cons_self
    obtain ⟨picked, hlength, hpicked, haround⟩ :=
      ih fun other hother => h other (List.mem_cons_of_mem _ hother)
    refine ⟨block :: picked, by simp [hlength], List.cons_subset.mpr ⟨hblock, hpicked⟩, ?_⟩
    intro other hother
    rcases List.mem_cons.mp hother with rfl | hother
    · exact ⟨block, List.mem_cons_self, hin⟩
    · obtain ⟨found, hfound, hsub⟩ := haround other hother
      exact ⟨found, List.mem_cons_of_mem _ hfound, hsub⟩

variable [DecidableEq α] {s : Finset α}

/-- How many of the blocks a set meets. -/
def met (blocks : List (List α)) (s : Finset α) : ℕ :=
  blocks.countP fun block => block.any fun x => decide (x ∈ s)

/-- A set that some pieces of blocks cover meets no more blocks than these. -/
theorem met_le (hapart : blocks.Pairwise List.Disjoint) {pieces : List (List α)}
    (hpieces : ∀ piece ∈ pieces, ∃ block ∈ blocks, piece ⊆ block)
    (hcover : ∀ x ∈ s, ∃ piece ∈ pieces, x ∈ piece) : met blocks s ≤ pieces.length := by
  obtain ⟨picked, hlength, hpicked, haround⟩ := exists_blocks hpieces
  have hmeets : ∀ block ∈ blocks.filter (fun block => block.any fun x => decide (x ∈ s)),
      block ∈ blocks ∧ ∃ x ∈ block, x ∈ s := by
    simp [List.mem_filter]
  rw [met, List.countP_eq_length_filter, ← hlength]
  refine (List.Nodup.subperm ?_ fun block hblock => ?_).length_le
  · -- blocks that are met are not empty, so none of them is there twice
    refine List.Pairwise.imp_of_mem (fun {a b} ha _ hdisjoint heq => ?_) (hapart.filter _)
    obtain ⟨-, x, hx, -⟩ := hmeets a ha
    exact hdisjoint hx (heq ▸ hx)
  · obtain ⟨hin, x, hx, hxs⟩ := hmeets block hblock
    obtain ⟨piece, hpiece, hxpiece⟩ := hcover x hxs
    obtain ⟨other, hother, hsub⟩ := haround piece hpiece
    rwa [eq_of_shared hapart hin (hpicked hother) hx (hsub hxpiece)]

/-- A set drawn from some pieces is no larger than they are together. -/
theorem card_le_sum_length {pieces : List (List α)} (h : ∀ x ∈ s, ∃ piece ∈ pieces, x ∈ piece) :
    s.card ≤ (pieces.map List.length).sum := by
  rw [← List.length_flatten]
  refine le_trans (Finset.card_le_card fun x hx => ?_) (List.toFinset_card_le pieces.flatten)
  rw [List.mem_toFinset, List.mem_flatten]
  exact h x hx

/-- A set with an element in a block meets one. -/
theorem met_pos {block : List α} (hblock : block ∈ blocks) {x : α} (hx : x ∈ block) (hxs : x ∈ s) :
    0 < met blocks s :=
  List.countP_pos_iff.mpr ⟨block, hblock, List.any_eq_true.mpr ⟨x, hx, decide_eq_true hxs⟩⟩

end Blocks

end Conductress.Lib
