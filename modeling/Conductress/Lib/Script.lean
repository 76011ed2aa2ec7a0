import Mathlib.Data.Finset.Image
import Mathlib.Data.List.Perm.Basic

/-!
# Scripts of additions and removals

A script is valid from what has been added before and what is present: an item is
added once, and removed while it is present. What is present after a valid script
was added and not removed: `mem_contents`.

A list that gives up an element by moving its last one there, `swapRemove`, has the
elements of the list without it.
-/

namespace Conductress.Lib

variable {α : Type*}

/-- An item is added, or removed. -/
inductive Edit (α : Type*) where
  | add (item : α)
  | del (item : α)
  deriving DecidableEq

namespace Edit

/-- The item of an edit. -/
def item : Edit α → α
  | .add a => a
  | .del a => a

variable [DecidableEq α]

/-- What is present after an edit. -/
def apply (present : Finset α) : Edit α → Finset α
  | .add a => insert a present
  | .del a => present.erase a

/-- What has been added after an edit. -/
def note (added : Finset α) : Edit α → Finset α
  | .add a => insert a added
  | .del _ => added

/-- What is present after a script. -/
def contents (present : Finset α) (script : List (Edit α)) : Finset α := script.foldl apply present

/-- What has been added after a script. -/
def addedBy (added : Finset α) (script : List (Edit α)) : Finset α := script.foldl note added

/-- Every item is added for the first time, and removed while it is present. -/
def ValidFrom : Finset α → Finset α → List (Edit α) → Prop
  | _, _, [] => True
  | added, present, .add a :: rest =>
    a ∉ added ∧ ValidFrom (insert a added) (insert a present) rest
  | added, present, .del a :: rest => a ∈ present ∧ ValidFrom added (present.erase a) rest

/-- A valid script on nothing. -/
def Valid (script : List (Edit α)) : Prop := ValidFrom ∅ ∅ script

variable {added present : Finset α} {xs ys : List (Edit α)}

theorem validFrom_append :
    ValidFrom added present (xs ++ ys) ↔
      ValidFrom added present xs ∧ ValidFrom (addedBy added xs) (contents present xs) ys := by
  induction xs generalizing added present with
  | nil => exact (true_and _).symm ▸ Iff.rfl
  | cons e xs ih =>
    cases e with
    | add a => rw [List.cons_append, ValidFrom, ih, ValidFrom, and_assoc]; rfl
    | del a => rw [List.cons_append, ValidFrom, ih, ValidFrom, and_assoc]; rfl

/-- What has been added is not added again. -/
theorem ValidFrom.add_not_mem (h : ValidFrom added present xs) {a : α} (ha : a ∈ added) :
    .add a ∉ xs := by
  induction xs generalizing added present with
  | nil => exact List.not_mem_nil
  | cons e xs ih =>
    cases e with
    | add b =>
      rw [List.mem_cons, not_or, add.injEq]
      refine ⟨?_, ih h.2 (Finset.mem_insert_of_mem ha)⟩
      rintro rfl
      exact h.1 ha
    | del b =>
      rw [List.mem_cons, not_or]
      exact ⟨nofun, ih h.2 ha⟩

/-- **What is present** after a valid script: what was added, or was there, and has
not been removed. -/
theorem mem_contents (h : ValidFrom added present xs) (hle : present ⊆ added) {a : α} :
    a ∈ contents present xs ↔ (a ∈ present ∨ .add a ∈ xs) ∧ .del a ∉ xs := by
  induction xs generalizing added present with
  | nil => simp [contents]
  | cons e xs ih =>
    cases e with
    | add b =>
      have hrest := ih h.2 (Finset.insert_subset_insert b hle)
      rw [contents, List.foldl_cons, apply, ← contents, hrest, Finset.mem_insert]
      simp only [List.mem_cons, add.injEq, reduceCtorEq, false_or]
      tauto
    | del b =>
      have hrest := ih h.2 ((Finset.erase_subset b present).trans hle)
      rw [contents, List.foldl_cons, apply, ← contents, hrest, Finset.mem_erase]
      simp only [List.mem_cons, del.injEq, reduceCtorEq, false_or]
      by_cases hb : a = b
      · have hnot := h.2.add_not_mem (hle (hb ▸ h.1 : a ∈ present))
        tauto
      · tauto

/-- What is present has been added, whether the script is valid or not. -/
theorem add_mem_of_mem_contents {a : α} (h : a ∈ contents present xs) :
    a ∈ present ∨ .add a ∈ xs := by
  induction xs generalizing present with
  | nil => exact .inl h
  | cons e xs ih =>
    rcases ih h with hpresent | hmem
    · cases e with
      | add b =>
        rcases Finset.mem_insert.mp hpresent with rfl | hpresent
        · exact .inr List.mem_cons_self
        · exact .inl hpresent
      | del b => exact .inl (Finset.mem_of_mem_erase hpresent)
    · exact .inr (List.mem_cons_of_mem _ hmem)

/-- Items that have not been added, one after the other. -/
theorem validFrom_adds {items : List α} (hnodup : items.Nodup) (hnew : ∀ a ∈ items, a ∉ added) :
    ValidFrom added present (items.map .add) := by
  induction items generalizing added present with
  | nil => trivial
  | cons a items ih =>
    obtain ⟨ha, hitems⟩ := List.nodup_cons.mp hnodup
    obtain ⟨hnewa, hnew⟩ := List.forall_mem_cons.mp hnew
    refine ⟨hnewa, ih hitems fun b hb => ?_⟩
    rw [Finset.mem_insert, not_or]
    exact ⟨fun heq => ha (heq ▸ hb), hnew b hb⟩

theorem contents_adds (items : List α) :
    contents present (items.map .add) = present ∪ items.toFinset := by
  induction items generalizing present with
  | nil => rw [List.toFinset_nil, Finset.union_empty]; rfl
  | cons a items ih =>
    rw [List.map_cons, contents, List.foldl_cons, ← contents, ih, apply, List.toFinset_cons,
      Finset.insert_union, Finset.union_insert]

theorem addedBy_adds (items : List α) :
    addedBy added (items.map .add) = added ∪ items.toFinset := by
  induction items generalizing added with
  | nil => rw [List.toFinset_nil, Finset.union_empty]; rfl
  | cons a items ih =>
    rw [List.map_cons, addedBy, List.foldl_cons, ← addedBy, ih, note, List.toFinset_cons,
      Finset.insert_union, Finset.union_insert]

end Edit

/-! ## Giving up an element -/

/-- The last element is moved to where one is given up. -/
def swapRemove (live : List α) (pos : Fin live.length) : List α :=
  (live.set pos (live.getLast (List.ne_nil_of_length_pos pos.pos))).dropLast

theorem swapRemove_perm (live : List α) (pos : Fin live.length) :
    (live.get pos :: swapRemove live pos).Perm live := by
  have hlive : live ≠ [] := List.ne_nil_of_length_pos pos.pos
  generalize hlast : live.getLast hlive = last
  have hset : live.set pos last ≠ [] := by simpa using hlive
  have hend : (live.set pos last).getLast hset = last := by
    rw [List.getLast_eq_getElem, List.getElem_set]
    split
    · rfl
    · simp only [List.length_set]
      rw [← List.getLast_eq_getElem hlive, hlast]
  have hremoved : (swapRemove live pos).Perm (live.eraseIdx pos) := by
    have hperm := List.set_perm_cons_eraseIdx pos.isLt last
    rw [← List.dropLast_append_getLast hset, hend] at hperm
    rw [swapRemove, hlast]
    exact ((List.perm_append_singleton last _).symm.trans hperm).cons_inv
  exact (hremoved.cons _).trans (List.getElem_cons_eraseIdx_perm pos.isLt)

end Conductress.Lib
