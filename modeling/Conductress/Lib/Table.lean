import Mathlib.Data.List.Nodup
import Mathlib.Data.List.Basic
import Mathlib.Tactic.Tauto

/-!
# Keyed tables

A table is a finite list of rows in insertion order, in which no two rows
share a key: the shape of an SQL table with a primary key, of a directory of
files, of a dictionary. The uniqueness is a field, so a table with two rows
under one key cannot be built.

* `Table.find?` — the row under a key, characterised by membership
  (`Table.find?_eq_some_iff`);
* `Table.insert?` — refused when the key is taken (a UNIQUE constraint);
* `Table.update` — an update of the row under one key, by a function that
  keeps the key;
* `Table.erase` — removal of the row under a key;
* `Table.put` — storing a row under its key, whatever was there.
-/

namespace Conductress.Lib

variable {κ α : Type*}

/-- In a list without two elements of one key, an element is all there is of
its key. -/
theorem filter_eq_singleton [DecidableEq κ] {key : α → κ} {l : List α} {a : α}
    (hnodup : (l.map key).Nodup) (ha : a ∈ l) :
    l.filter (fun b => decide (key b = key a)) = [a] := by
  induction l with
  | nil => cases ha
  | cons b l ih =>
    rw [List.map_cons, List.nodup_cons] at hnodup
    rcases List.mem_cons.mp ha with rfl | ha
    · have hrest : l.filter (fun b => decide (key b = key a)) = [] := by
        refine List.filter_eq_nil_iff.mpr fun b hb hkey => hnodup.1 ?_
        rw [← of_decide_eq_true hkey]
        exact List.mem_map_of_mem hb
      rw [List.filter_cons_of_pos (by simp), hrest]
    · have hne : key b ≠ key a := by
        intro hkey
        rw [hkey] at hnodup
        exact hnodup.1 (List.mem_map_of_mem ha)
      rw [List.filter_cons_of_neg (by simpa using hne), ih hnodup.2 ha]

/-- Rows in insertion order, no two of them under one key. -/
structure Table (key : α → κ) where
  rows  : List α
  nodup : (rows.map key).Nodup

namespace Table

variable {key : α → κ}

instance : Membership α (Table key) where
  mem t a := a ∈ t.rows

theorem mem_rows {t : Table key} {a : α} : a ∈ t.rows ↔ a ∈ t := Iff.rfl

/-- The table with no rows. -/
def empty : Table key := ⟨[], by simp⟩

@[simp] theorem not_mem_empty (a : α) : a ∉ (empty : Table key) := by
  simp [← mem_rows, empty]

/-- Two rows under one key are the same row. -/
theorem eq_of_key_eq {t : Table key} {a b : α} (ha : a ∈ t) (hb : b ∈ t)
    (hkey : key a = key b) : a = b :=
  List.inj_on_of_nodup_map t.nodup ha hb hkey

section Lookup

variable [DecidableEq κ]

/-- The row under `k`, when there is one. -/
def find? (t : Table key) (k : κ) : Option α :=
  t.rows.find? fun a => decide (key a = k)

theorem find?_eq_some_iff {t : Table key} {k : κ} {a : α} :
    t.find? k = some a ↔ a ∈ t ∧ key a = k := by
  constructor
  · intro h
    exact ⟨List.mem_of_find?_eq_some h, by simpa using List.find?_some h⟩
  · rintro ⟨ha, hkey⟩
    cases hfind : t.find? k with
    | none =>
      have := List.find?_eq_none.mp hfind a ha
      exact absurd hkey (by simpa using this)
    | some b =>
      have hb : b ∈ t := List.mem_of_find?_eq_some hfind
      have hkb : key b = k := by simpa using List.find?_some hfind
      rw [eq_of_key_eq hb ha (hkb.trans hkey.symm)]

theorem find?_eq_none_iff {t : Table key} {k : κ} :
    t.find? k = none ↔ ∀ a ∈ t, key a ≠ k := by
  simp [find?, List.find?_eq_none, mem_rows]

/-- A row is found under its own key. -/
theorem find?_key {t : Table key} {a : α} (ha : a ∈ t) : t.find? (key a) = some a :=
  find?_eq_some_iff.mpr ⟨ha, rfl⟩

@[simp] theorem find?_empty (k : κ) : (empty : Table key).find? k = none := rfl

end Lookup

section Insert

variable [DecidableEq κ]

/-- Append a row, refused when its key is taken. -/
def insert? (t : Table key) (a : α) : Option (Table key) :=
  if h : t.find? (key a) = none then
    some ⟨t.rows ++ [a], by
      rw [List.map_append, List.map_singleton]
      refine List.Nodup.append t.nodup (List.nodup_singleton _) ?_
      simp only [List.disjoint_singleton, List.mem_map, not_exists, not_and]
      exact fun b hb => find?_eq_none_iff.mp h b hb⟩
  else none

theorem insert?_isSome {t : Table key} {a : α} :
    (t.insert? a).isSome ↔ t.find? (key a) = none := by
  unfold insert?
  split <;> simp_all

/-- What an accepted insertion says: the key was free, and the new row is the
only one added. -/
theorem insert?_eq_some {t t' : Table key} {a : α} (h : t.insert? a = some t') :
    t.find? (key a) = none ∧ t'.rows = t.rows ++ [a] := by
  unfold insert? at h
  split at h
  · next hfree => exact ⟨hfree, by cases h; rfl⟩
  · cases h

theorem mem_insert? {t t' : Table key} {a b : α} (h : t.insert? a = some t') :
    b ∈ t' ↔ b ∈ t ∨ b = a := by
  simp [← mem_rows, (insert?_eq_some h).2]

theorem find?_insert? {t t' : Table key} {a : α} (h : t.insert? a = some t') (k : κ) :
    t'.find? k = if k = key a then some a else t.find? k := by
  split
  · next hk => exact find?_eq_some_iff.mpr ⟨(mem_insert? h).mpr (.inr rfl), hk.symm⟩
  · next hk =>
    have hrows := (insert?_eq_some h).2
    rw [find?, hrows, List.find?_append, find?]
    simp [Ne.symm hk]

end Insert

section Update

variable [DecidableEq κ]

/-- Update the row under `k` by a function that keeps the key. -/
def update (t : Table key) (k : κ) (f : α → α)
    (hf : ∀ a, key (f a) = key a := by intro _; rfl) : Table key :=
  ⟨t.rows.map fun a => if key a = k then f a else a, by
    have hkeys : (t.rows.map fun a => if key a = k then f a else a).map key =
        t.rows.map key := by
      rw [List.map_map]
      refine List.map_congr_left fun a _ => ?_
      simp only [Function.comp_apply]
      split
      · exact hf a
      · rfl
    rw [hkeys]
    exact t.nodup⟩

theorem mem_update {t : Table key} {k : κ} {f : α → α} {hf : ∀ a, key (f a) = key a}
    {b : α} :
    b ∈ t.update k f hf ↔
      (∃ a ∈ t, key a = k ∧ f a = b) ∨ (b ∈ t ∧ key b ≠ k) := by
  simp only [← mem_rows, update, List.mem_map]
  constructor
  · rintro ⟨a, ha, rfl⟩
    by_cases hk : key a = k
    · exact .inl ⟨a, ha, hk, by rw [if_pos hk]⟩
    · rw [if_neg hk]
      exact .inr ⟨ha, hk⟩
  · rintro (⟨a, ha, hk, rfl⟩ | ⟨hb, hk⟩)
    · exact ⟨a, ha, by rw [if_pos hk]⟩
    · exact ⟨b, hb, by rw [if_neg hk]⟩

theorem find?_update (t : Table key) (k : κ) (f : α → α) (hf : ∀ a, key (f a) = key a)
    (j : κ) :
    (t.update k f hf).find? j = if j = k then (t.find? k).map f else t.find? j := by
  split
  · next hj =>
    subst hj
    cases hfind : t.find? j with
    | none =>
      rw [Option.map_none, find?_eq_none_iff]
      intro b hb
      rcases mem_update.mp hb with ⟨a, ha, hk, -⟩ | ⟨-, hk⟩
      · exact absurd hk (find?_eq_none_iff.mp hfind a ha)
      · exact hk
    | some a =>
      obtain ⟨ha, hk⟩ := find?_eq_some_iff.mp hfind
      exact find?_eq_some_iff.mpr ⟨mem_update.mpr (.inl ⟨a, ha, hk, rfl⟩), (hf a).trans hk⟩
  · next hj =>
    refine Option.ext fun b => ?_
    rw [find?_eq_some_iff, find?_eq_some_iff, mem_update]
    constructor
    · rintro ⟨⟨a, -, hk, rfl⟩ | ⟨hb, -⟩, hkey⟩
      · exact absurd (hkey.symm.trans ((hf a).trans hk)) hj
      · exact ⟨hb, hkey⟩
    · rintro ⟨hb, hkey⟩
      exact ⟨.inr ⟨hb, fun hk => hj (hkey.symm.trans hk)⟩, hkey⟩

/-- An update that changes nothing. -/
theorem update_self {t : Table key} {k : κ} {f : α → α} {hf : ∀ a, key (f a) = key a}
    (h : ∀ a, t.find? k = some a → f a = a) : t.update k f hf = t := by
  have hrows : (t.update k f hf).rows = t.rows := by
    refine (List.map_congr_left fun a ha => ?_).trans (List.map_id _)
    split
    · next hk => exact h a (find?_eq_some_iff.mpr ⟨ha, hk⟩)
    · rfl
  cases hu : t.update k f hf
  cases t
  simp_all

end Update

section Erase

variable [DecidableEq κ]

/-- Remove the row under `k`. -/
def erase (t : Table key) (k : κ) : Table key :=
  ⟨t.rows.filter fun a => decide (key a ≠ k), t.nodup.sublist (List.filter_sublist.map key)⟩

theorem mem_erase {t : Table key} {k : κ} {a : α} : a ∈ t.erase k ↔ a ∈ t ∧ key a ≠ k := by
  simp [← mem_rows, erase]

theorem find?_erase (t : Table key) (k j : κ) :
    (t.erase k).find? j = if j = k then none else t.find? j := by
  split
  · next hj =>
    subst hj
    exact find?_eq_none_iff.mpr fun a ha => (mem_erase.mp ha).2
  · next hj =>
    refine Option.ext fun b => ?_
    rw [find?_eq_some_iff, find?_eq_some_iff, mem_erase]
    constructor
    · rintro ⟨⟨hb, -⟩, hkey⟩
      exact ⟨hb, hkey⟩
    · rintro ⟨hb, hkey⟩
      exact ⟨⟨hb, fun hk => hj (hkey.symm.trans hk)⟩, hkey⟩

/-- Store a row under its key, whatever was there. -/
def put (t : Table key) (a : α) : Table key :=
  ⟨(t.erase (key a)).rows ++ [a], by
    rw [List.map_append, List.map_singleton]
    refine List.Nodup.append (t.erase (key a)).nodup (List.nodup_singleton _) ?_
    simp only [List.disjoint_singleton, List.mem_map, not_exists, not_and]
    exact fun b hb => (mem_erase.mp hb).2⟩

theorem mem_put {t : Table key} {a b : α} : b ∈ t.put a ↔ b = a ∨ (b ∈ t ∧ key b ≠ key a) := by
  rw [← mem_rows, put, List.mem_append, List.mem_singleton, mem_rows, mem_erase]
  tauto

theorem find?_put (t : Table key) (a : α) (j : κ) :
    (t.put a).find? j = if j = key a then some a else t.find? j := by
  refine Option.ext fun b => ?_
  rw [find?_eq_some_iff, mem_put]
  split
  · next hj =>
    constructor
    · rintro ⟨rfl | ⟨-, hne⟩, hkey⟩
      · rfl
      · exact absurd (hkey.trans hj) hne
    · intro hab
      cases hab
      exact ⟨.inl rfl, hj.symm⟩
  · next hj =>
    rw [find?_eq_some_iff]
    constructor
    · rintro ⟨rfl | ⟨hb, -⟩, hkey⟩
      · exact absurd hkey.symm hj
      · exact ⟨hb, hkey⟩
    · rintro ⟨hb, hkey⟩
      exact ⟨.inr ⟨hb, fun hab => hj (hkey.symm.trans hab)⟩, hkey⟩

/-- Values stored under their keys, one key after the other. -/
theorem find?_foldl_put {β : Type*} (value : κ → β) (keys : List κ)
    (t : Table (Prod.fst : κ × β → κ)) (j : κ) :
    (keys.foldl (fun t k => t.put (k, value k)) t).find? j =
      if j ∈ keys then some (j, value j) else t.find? j := by
  induction keys generalizing t with
  | nil => rw [List.foldl_nil, if_neg List.not_mem_nil]
  | cons k keys ih =>
    rw [List.foldl_cons, ih, find?_put]
    by_cases hj : j = k
    · rw [if_pos hj, if_pos (List.mem_cons.mpr (.inl hj)), hj, ite_self]
    · simp only [List.mem_cons, hj, false_or, if_false]

/-- Rows under keys that are all new are stored one after the other. -/
theorem rows_foldl_put {t : Table key} {rows : List α} (h : ((t.rows ++ rows).map key).Nodup) :
    (rows.foldl put t).rows = t.rows ++ rows := by
  induction rows generalizing t with
  | nil => rw [List.foldl_nil, List.append_nil]
  | cons a rows ih =>
    have hput : (t.put a).rows = t.rows ++ [a] := by
      have hkept : (t.erase (key a)).rows = t.rows := by
        refine List.filter_eq_self.mpr fun b hb => ?_
        rw [List.map_append, List.map_cons] at h
        have hne := (List.nodup_append.mp h).2.2 (key b) (List.mem_map_of_mem hb) (key a)
          List.mem_cons_self
        exact decide_eq_true hne
      show (t.erase (key a)).rows ++ [a] = t.rows ++ [a]
      rw [hkept]
    rw [List.foldl_cons, ih (by rw [hput, List.append_assoc]; exact h), hput, List.append_assoc]
    rfl

/-- The rows of a table, stored one after the other, are the table. -/
theorem foldl_put_rows (t : Table key) : t.rows.foldl put .empty = t := by
  have hrows := @rows_foldl_put _ _ _ _ empty t.rows t.nodup
  cases hfold : t.rows.foldl put (empty : Table key)
  cases t
  simp_all [empty]

end Erase

end Table

end Conductress.Lib
