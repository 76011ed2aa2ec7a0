import Mathlib.Data.List.Basic

/-!
# Peeling computations that may fail

What it takes for a bind, a map and a loop of `Except` to succeed, so that a
computation written with `do` comes apart by `obtain`.
-/

namespace Conductress.Lib

universe u

variable {ε : Type*} {α β γ : Type u}

theorem except_bind_ok {x : Except ε α} {f : α → Except ε β} {b : β} :
    (x >>= f) = .ok b ↔ ∃ a, x = .ok a ∧ f a = .ok b := by
  cases x <;> simp [bind, Except.bind]

theorem except_ok_bind (a : α) (f : α → Except ε β) : (Except.ok a >>= f) = f a := rfl

/-- A bind fails where its first part does, or its second after it. -/
theorem except_bind_error {x : Except ε α} {f : α → Except ε β} {e : ε} :
    (x >>= f) = .error e ↔ x = .error e ∨ ∃ a, x = .ok a ∧ f a = .error e := by
  cases x <;> simp [bind, Except.bind]

theorem except_map_ok {x : Except ε α} {f : α → β} {b : β} :
    x.map f = .ok b ↔ ∃ a, x = .ok a ∧ f a = b := by
  cases x <;> simp [Except.map]

theorem except_mapError_ok {ε' : Type*} {x : Except ε α} {f : ε → ε'} {a : α} :
    x.mapError f = .ok a ↔ x = .ok a := by
  cases x <;> simp [Except.mapError]

theorem except_toOption_some {x : Except ε α} {a : α} : x.toOption = some a ↔ x = .ok a := by
  cases x <;> simp [Except.toOption]

@[simp] theorem except_pure_ok {a b : α} : (pure a : Except ε α) = .ok b ↔ a = b := by
  simp [pure, Except.pure]

/-- A traversal returns exactly when each element's computation does. -/
theorem except_mapM_ok {f : α → Except ε β} {xs : List α} :
    (∃ ys, xs.mapM f = .ok ys) ↔ ∀ x ∈ xs, ∃ y, f x = .ok y := by
  induction xs with
  | nil => simp [pure, Except.pure]
  | cons x xs ih =>
    rw [List.mapM_cons, List.forall_mem_cons, ← ih]
    constructor
    · rintro ⟨ys, h⟩
      obtain ⟨y, hy, h⟩ := except_bind_ok.mp h
      obtain ⟨ys', hys, -⟩ := except_bind_ok.mp h
      exact ⟨⟨y, hy⟩, ⟨ys', hys⟩⟩
    · rintro ⟨⟨y, hy⟩, ⟨ys, hys⟩⟩
      exact ⟨y :: ys, except_bind_ok.mpr ⟨y, hy, except_bind_ok.mpr ⟨ys, hys, rfl⟩⟩⟩

/-- A traversal collects what its elements' computations return. -/
theorem except_mem_mapM {f : α → Except ε β} {xs : List α} {ys : List β} {y : β}
    (h : xs.mapM f = .ok ys) : y ∈ ys ↔ ∃ x ∈ xs, f x = .ok y := by
  induction xs generalizing ys with
  | nil =>
    cases h
    simp
  | cons x xs ih =>
    rw [List.mapM_cons] at h
    obtain ⟨y₀, hy₀, h⟩ := except_bind_ok.mp h
    obtain ⟨rest, hrest, h⟩ := except_bind_ok.mp h
    cases h
    rw [List.mem_cons, ih hrest, List.exists_mem_cons_iff, hy₀, Except.ok.injEq]
    exact or_congr_left eq_comm

/-- A traversal returns the values of a map that fails nowhere. -/
theorem except_mapM_eq_map {f : α → Except ε β} {xs : List α} {ys : List β} :
    xs.mapM f = .ok ys ↔ xs.map f = ys.map .ok := by
  induction xs generalizing ys with
  | nil => cases ys <;> simp [pure, Except.pure]
  | cons x xs ih =>
    rw [List.mapM_cons, List.map_cons, except_bind_ok]
    constructor
    · rintro ⟨y, hy, h⟩
      obtain ⟨rest, hrest, h⟩ := except_bind_ok.mp h
      cases h
      rw [List.map_cons, hy, ih.mp hrest]
    · intro h
      cases ys with
      | nil => cases h
      | cons y ys =>
        obtain ⟨hy, hys⟩ := List.cons_eq_cons.mp h
        exact ⟨y, hy, except_bind_ok.mpr ⟨ys, ih.mpr hys, rfl⟩⟩

/-- A traversal collects what each element says of its result. -/
theorem except_map_of_mapM {f : α → Except ε β} {g : β → γ} {k : α → γ} {xs : List α} {ys : List β}
    (h : xs.mapM f = .ok ys) (hf : ∀ x y, f x = .ok y → g y = k x) : ys.map g = xs.map k := by
  induction xs generalizing ys with
  | nil =>
    cases h
    rfl
  | cons x xs ih =>
    rw [List.mapM_cons] at h
    obtain ⟨y, hy, h⟩ := except_bind_ok.mp h
    obtain ⟨rest, hrest, h⟩ := except_bind_ok.mp h
    cases h
    rw [List.map_cons, List.map_cons, hf x y hy, ih hrest]

/-- A traversal of steps that all fail in the same way, where they do. -/
theorem except_mapM_ite {f : α → Except ε β} {Bad : α → Prop} [DecidablePred Bad] {e : ε}
    {g : α → β} {xs : List α} (h : ∀ x ∈ xs, f x = if Bad x then .error e else .ok (g x)) :
    xs.mapM f = if ∃ x ∈ xs, Bad x then .error e else .ok (xs.map g) := by
  induction xs with
  | nil => rfl
  | cons x xs ih =>
    obtain ⟨hx, hxs⟩ := List.forall_mem_cons.mp h
    rw [List.mapM_cons, hx, ih hxs]
    by_cases hbad : Bad x
    · have hfirst : ∃ y ∈ x :: xs, Bad y := ⟨x, List.mem_cons_self, hbad⟩
      rw [if_pos hbad, if_pos hfirst]
      rfl
    · have hiff : (∃ y ∈ x :: xs, Bad y) ↔ ∃ y ∈ xs, Bad y := by
        rw [List.exists_mem_cons_iff]
        exact or_iff_right hbad
      rw [if_neg hbad, except_ok_bind, List.map_cons]
      by_cases hrest : ∃ y ∈ xs, Bad y
      · rw [if_pos hrest, if_pos (hiff.mpr hrest)]
        rfl
      · rw [if_neg hrest, if_neg (mt hiff.mp hrest)]
        rfl

/-- A traversal that gives back what its elements were made from. -/
theorem except_mapM_map {f : β → Except ε α} {g : α → β} {xs : List α}
    (h : ∀ x ∈ xs, f (g x) = .ok x) : (xs.map g).mapM f = .ok xs := by
  induction xs with
  | nil => rfl
  | cons x xs ih =>
    rw [List.forall_mem_cons] at h
    rw [List.map_cons, List.mapM_cons]
    exact except_bind_ok.mpr ⟨x, h.1, except_bind_ok.mpr ⟨xs, ih h.2, rfl⟩⟩

/-- A loop over checks passes exactly when each of them does. -/
theorem except_forM_ok {f : α → Except ε PUnit.{u + 1}} {xs : List α} :
    xs.forM f = .ok ⟨⟩ ↔ ∀ x ∈ xs, f x = .ok ⟨⟩ := by
  induction xs with
  | nil => simp [pure, Except.pure]
  | cons x xs ih =>
    rw [List.forall_mem_cons, ← ih]
    constructor
    · intro h
      obtain ⟨_, hx, hxs⟩ := except_bind_ok.mp h
      exact ⟨hx, hxs⟩
    · rintro ⟨hx, hxs⟩
      exact except_bind_ok.mpr ⟨_, hx, hxs⟩

/-- An accumulation whose steps fail by their element alone returns exactly
when no element's step fails. -/
theorem except_foldlM_ok {f : β → α → Except ε β} {P : α → Prop}
    (hf : ∀ b x, (∃ b', f b x = .ok b') ↔ P x) {xs : List α} {b : β} :
    (∃ b', xs.foldlM f b = .ok b') ↔ ∀ x ∈ xs, P x := by
  induction xs generalizing b with
  | nil => simp [pure, Except.pure]
  | cons x xs ih =>
    rw [List.foldlM_cons, List.forall_mem_cons, ← hf b x]
    constructor
    · rintro ⟨b', h⟩
      obtain ⟨b₁, hb₁, h⟩ := except_bind_ok.mp h
      exact ⟨⟨b₁, hb₁⟩, ih.mp ⟨b', h⟩⟩
    · rintro ⟨⟨b₁, hb₁⟩, hxs⟩
      obtain ⟨b', hb'⟩ := ih (b := b₁).mpr hxs
      exact ⟨b', except_bind_ok.mpr ⟨b₁, hb₁, hb'⟩⟩

/-- **The invariant rule** of an accumulation whose steps may fail. -/
theorem except_foldlM_invariant {f : β → α → Except ε β} {P : β → Prop}
    (hf : ∀ b x b', P b → f b x = .ok b' → P b') {xs : List α} {b b' : β} (hb : P b)
    (h : xs.foldlM f b = .ok b') : P b' := by
  induction xs generalizing b with
  | nil =>
    obtain rfl := Except.ok.inj h
    exact hb
  | cons x xs ih =>
    rw [List.foldlM_cons] at h
    obtain ⟨b₁, hb₁, h⟩ := except_bind_ok.mp h
    exact ih (hf b x b₁ hb hb₁) h

/-- Reading a text of parts, each of which adds to what has been read and leaves the reader where
it was. -/
theorem except_foldlM_flatMap {σ ι : Type*} {f : σ → α → Except ε σ} {lines : ι → List α}
    {out : ι → List β} {state : List β → σ} {parts : List ι}
    (h : ∀ x ∈ parts, ∀ read,
      (lines x).foldlM f (state read) = .ok (state (read ++ out x))) (read : List β) :
    (parts.flatMap lines).foldlM f (state read) = .ok (state (read ++ parts.flatMap out)) := by
  induction parts generalizing read with
  | nil =>
    rw [List.flatMap_nil, List.flatMap_nil, List.append_nil]
    rfl
  | cons x parts ih =>
    obtain ⟨hx, hparts⟩ := List.forall_mem_cons.mp h
    rw [List.flatMap_cons, List.foldlM_append, hx read, except_ok_bind, ih hparts,
      List.flatMap_cons, List.append_assoc]

/-- A loop whose passes each compute something from their element and fold it
in: the elements are computed first, then folded. -/
theorem except_foldlM_map {f : α → Except ε β} {g : γ → β → γ} {xs : List α} {c c' : γ} :
    xs.foldlM (fun c x => (f x).map (g c)) c = .ok c' ↔
      ∃ ys, xs.mapM f = .ok ys ∧ ys.foldl g c = c' := by
  induction xs generalizing c with
  | nil =>
    rw [List.foldlM_nil, List.mapM_nil, except_pure_ok]
    constructor
    · intro h
      exact ⟨[], rfl, h⟩
    · rintro ⟨ys, hys, h⟩
      cases hys
      exact h
  | cons x xs ih =>
    rw [List.foldlM_cons, List.mapM_cons]
    constructor
    · intro h
      obtain ⟨c₁, hc₁, h⟩ := except_bind_ok.mp h
      obtain ⟨y, hy, rfl⟩ := except_map_ok.mp hc₁
      obtain ⟨ys, hys, h⟩ := ih.mp h
      exact ⟨y :: ys, except_bind_ok.mpr ⟨y, hy, except_bind_ok.mpr ⟨ys, hys, rfl⟩⟩, h⟩
    · rintro ⟨ys, hys, h⟩
      obtain ⟨y, hy, hys⟩ := except_bind_ok.mp hys
      obtain ⟨rest, hrest, hcons⟩ := except_bind_ok.mp hys
      cases hcons
      exact except_bind_ok.mpr ⟨g c y, except_map_ok.mpr ⟨y, hy, rfl⟩, ih.mpr ⟨rest, hrest, h⟩⟩

/-! ## Sorting -/

section Sorting

variable {ε : Type*} {α κ : Type u}

/-- Place an element behind those it is not less than. -/
def insertM (lt : α → α → Except ε Bool) (x : α) : List α → Except ε (List α)
  | [] => .ok [x]
  | y :: ys =>
    match lt x y with
    | .error e => .error e
    | .ok true => .ok (x :: y :: ys)
    | .ok false => (insertM lt x ys).map (y :: ·)

/-- A stable sort by a comparison that may fail. -/
def sortM (lt : α → α → Except ε Bool) (xs : List α) : Except ε (List α) :=
  xs.foldlM (fun sorted x => insertM lt x sorted) []

/-- All elements are of one kind. -/
def Uniform (kind : α → κ) (xs : List α) : Prop := ∀ x ∈ xs, ∀ y ∈ xs, kind x = kind y

theorem Uniform.perm {kind : α → κ} {xs ys : List α} (h : Uniform kind xs) (hperm : ys.Perm xs) :
    Uniform kind ys :=
  fun x hx y hy => h x (hperm.mem_iff.mp hx) y (hperm.mem_iff.mp hy)

variable {lt : α → α → Except ε Bool} {kind : α → κ}
  (hlt : ∀ x y, (∃ b, lt x y = .ok b) ↔ kind x = kind y)

include hlt

theorem insertM_uniform {x : α} {ys : List α} (h : Uniform kind (x :: ys)) :
    ∃ zs, insertM lt x ys = .ok zs ∧ zs.Perm (x :: ys) := by
  induction ys with
  | nil => exact ⟨[x], rfl, .refl _⟩
  | cons y ys ih =>
    obtain ⟨b, hb⟩ := (hlt x y).mpr (h x (by simp) y (by simp))
    cases b with
    | true =>
      refine ⟨x :: y :: ys, ?_, .refl _⟩
      rw [insertM, hb]
    | false =>
      have hrest : Uniform kind (x :: ys) := fun a ha b hb =>
        h a (List.mem_cons.mpr ((List.mem_cons.mp ha).imp id (List.mem_cons_of_mem y)))
          b (List.mem_cons.mpr ((List.mem_cons.mp hb).imp id (List.mem_cons_of_mem y)))
      obtain ⟨zs, hzs, hperm⟩ := ih hrest
      refine ⟨y :: zs, ?_, (hperm.cons y).trans (.swap x y ys)⟩
      rw [insertM, hb]
      exact except_map_ok.mpr ⟨zs, hzs, rfl⟩

/-- Where elements of two kinds cannot be compared, a sort succeeds exactly when
there are no two kinds. -/
theorem sortM_ok_iff (xs : List α) : (∃ ys, sortM lt xs = .ok ys) ↔ Uniform kind xs := by
  have hfold : ∀ (xs sorted : List α), Uniform kind sorted →
      ((∃ ys, xs.foldlM (fun sorted x => insertM lt x sorted) sorted = .ok ys) ↔
        Uniform kind (sorted ++ xs)) := by
    intro xs
    induction xs with
    | nil =>
      intro sorted hsorted
      rw [List.append_nil]
      exact iff_of_true ⟨sorted, rfl⟩ hsorted
    | cons x xs ih =>
      intro sorted hsorted
      have hmove : (sorted ++ x :: xs).Perm ((x :: sorted) ++ xs) := List.perm_middle
      rw [List.foldlM_cons]
      by_cases hx : Uniform kind (x :: sorted)
      · obtain ⟨zs, hzs, hperm⟩ := insertM_uniform hlt hx
        have hrest : (zs ++ xs).Perm (sorted ++ x :: xs) := (hperm.append_right xs).trans hmove.symm
        rw [hzs]
        refine (ih zs (hx.perm hperm)).trans ⟨fun h => h.perm hrest.symm, fun h => h.perm hrest⟩
      · -- the first element it is compared with is of another kind
        refine iff_of_false ?_ fun h => hx ?_
        · rintro ⟨ys, h⟩
          obtain ⟨zs, hzs, -⟩ := except_bind_ok.mp h
          cases sorted with
          | nil => exact hx (by simp [Uniform])
          | cons y ys =>
            have hy : kind x = kind y := by
              refine (hlt x y).mp ?_
              cases hb : lt x y with
              | ok b => exact ⟨b, rfl⟩
              | error e =>
                rw [insertM, hb] at hzs
                cases hzs
            refine hx fun a ha b hb => ?_
            have hkind : ∀ a ∈ x :: y :: ys, kind a = kind y := by
              intro a ha
              rcases List.mem_cons.mp ha with rfl | ha
              · exact hy
              · exact hsorted a ha y List.mem_cons_self
            rw [hkind a ha, hkind b hb]
        · exact fun a ha b hb => h a (hmove.symm.mem_iff.mp (List.mem_append_left _ ha))
            b (hmove.symm.mem_iff.mp (List.mem_append_left _ hb))
  exact hfold xs [] (by simp [Uniform])

end Sorting

end Conductress.Lib
