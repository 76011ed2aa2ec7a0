import Mathlib.Data.List.Basic

/-!
# Computations that raise and leave a state

A computation over states `σ` returns or raises, and what it did to the state
stays done either way. `withFinally` and `handle` are the two ways to go on
after an exception; an exception of the clean-up takes the place of the one
that led to it.

* `Ends` — where a computation ends: its weakest precondition, with one
  postcondition for each way out; `ends_bind`, `ends_withFinally`, `ends_handle`
  are its rules;
* `Keeps` — what a computation preserves, however it ends.
-/

namespace Conductress.Lib

/-- A computation over states `σ` that may raise. -/
def Raising (ε σ α : Type) : Type := σ → Except ε α × σ

namespace Raising

variable {ε σ α β : Type}

def pure (a : α) : Raising ε σ α := fun s => (.ok a, s)

def raise (e : ε) : Raising ε σ α := fun s => (.error e, s)

/-- The second computation runs where the first one ended, unless it raised. -/
def andThen (p : Raising ε σ α) (f : α → Raising ε σ β) : Raising ε σ β := fun s =>
  match p s with
  | (.ok a, t) => f a t
  | (.error e, t) => (.error e, t)

instance : Monad (Raising ε σ) where
  pure := pure
  bind := andThen

def get : Raising ε σ σ := fun s => (.ok s, s)

def modify (f : σ → σ) : Raising ε σ Unit := fun s => (.ok (), f s)

/-- `try: p; except Exception as e: h(e)`. -/
def handle (p : Raising ε σ α) (h : ε → Raising ε σ α) : Raising ε σ α := fun s =>
  match p s with
  | (.ok a, t) => (.ok a, t)
  | (.error e, t) => h e t

/-- `try: p; finally: q`. -/
def withFinally (p : Raising ε σ α) (q : Raising ε σ Unit) : Raising ε σ α := fun s =>
  match q (p s).2 with
  | (.ok _, t) => ((p s).1, t)
  | (.error e, t) => (.error e, t)

/-- From `s` the computation returns in `Q` or raises in `E`. -/
def Ends (p : Raising ε σ α) (Q : α → σ → Prop) (E : ε → σ → Prop) (s : σ) : Prop :=
  match p s with
  | (.ok a, t) => Q a t
  | (.error e, t) => E e t

section Ends

variable {p : Raising ε σ α} {Q Q' : α → σ → Prop} {E E' : ε → σ → Prop} {s : σ}

@[simp] theorem ends_pure {a : α} : (Pure.pure a : Raising ε σ α).Ends Q E s ↔ Q a s := Iff.rfl

@[simp] theorem ends_raise {e : ε} : (raise e : Raising ε σ α).Ends Q E s ↔ E e s := Iff.rfl

@[simp] theorem ends_get {Q : σ → σ → Prop} : (get : Raising ε σ σ).Ends Q E s ↔ Q s s := Iff.rfl

@[simp] theorem ends_modify {f : σ → σ} {Q : Unit → σ → Prop} :
    (modify f : Raising ε σ Unit).Ends Q E s ↔ Q () (f s) := Iff.rfl

/-- Where a computation that is known to return ends. -/
theorem ends_ok {a : α} {t : σ} (h : p s = (.ok a, t)) : p.Ends Q E s ↔ Q a t := by
  unfold Ends
  rw [h]

/-- Where a computation that is known to raise ends. -/
theorem ends_error {e : ε} {t : σ} (h : p s = (.error e, t)) : p.Ends Q E s ↔ E e t := by
  unfold Ends
  rw [h]

/-- A stronger postcondition implies a weaker one. -/
theorem Ends.conseq (h : p.Ends Q E s) (hQ : ∀ a t, Q a t → Q' a t)
    (hE : ∀ e t, E e t → E' e t) : p.Ends Q' E' s := by
  unfold Ends at h ⊢
  rcases hp : p s with ⟨e | a, t⟩ <;> rw [hp] at h
  · exact hE e t h
  · exact hQ a t h

/-- **Sequencing.** -/
theorem ends_bind {f : α → Raising ε σ β} {R : β → σ → Prop} :
    (p >>= f).Ends R E s ↔ p.Ends (fun a t => (f a).Ends R E t) E s := by
  change Ends (p.andThen f) R E s ↔ _
  unfold Ends andThen
  rcases p s with ⟨_ | a, t⟩ <;> rfl

/-- Sequencing by way of what holds in between. -/
theorem Ends.bind {f : α → Raising ε σ β} {R : β → σ → Prop} (h : p.Ends Q E s)
    (hf : ∀ a t, Q a t → (f a).Ends R E t) : (p >>= f).Ends R E s :=
  ends_bind.mpr (h.conseq hf fun _ _ ht => ht)

/-- **Exceptions handled.** -/
theorem ends_handle {h : ε → Raising ε σ α} :
    (p.handle h).Ends Q E s ↔ p.Ends Q (fun e t => (h e).Ends Q E t) s := by
  unfold Ends handle
  rcases p s with ⟨_ | a, t⟩ <;> rfl

/-- **Clean-up** runs either way, and may raise itself. -/
theorem ends_withFinally {q : Raising ε σ Unit} :
    (p.withFinally q).Ends Q E s ↔
      p.Ends (fun a t => q.Ends (fun _ u => Q a u) E t)
        (fun e t => q.Ends (fun _ u => E e u) E t) s := by
  unfold Ends withFinally
  rcases p s with ⟨_ | a, t⟩
  · rcases hq : q t with ⟨_ | _, u⟩ <;> simp [hq]
  · rcases hq : q t with ⟨_ | _, u⟩ <;> simp [hq]

/-- One postcondition for both ways out. -/
theorem ends_same {P : σ → Prop} : p.Ends (fun _ => P) (fun _ => P) s ↔ P (p s).2 := by
  unfold Ends
  rcases p s with ⟨_ | a, t⟩ <;> rfl

end Ends

/-- The computation preserves `I`, whether it returns or raises. -/
def Keeps (I : σ → Prop) (p : Raising ε σ α) : Prop := ∀ s, I s → p.Ends (fun _ => I) (fun _ => I) s

namespace Keeps

variable {I : σ → Prop} {p : Raising ε σ α}

theorem pure (a : α) : Keeps I (Pure.pure a : Raising ε σ α) := fun _ h => h

theorem raise (e : ε) : Keeps I (Raising.raise e : Raising ε σ α) := fun _ h => h

theorem modify {f : σ → σ} (h : ∀ s, I s → I (f s)) :
    Keeps I (Raising.modify f : Raising ε σ Unit) := h

theorem bind {f : α → Raising ε σ β} (h : Keeps I p) (hf : ∀ a, Keeps I (f a)) :
    Keeps I (p >>= f) :=
  fun s hs => ends_bind.mpr ((h s hs).conseq (fun a t ht => hf a t ht) fun _ _ ht => ht)

/-- What is kept holds in between, and implies what an exception promises. -/
theorem ends {E : ε → σ → Prop} {s : σ} (h : Keeps I p) (hs : I s) (hE : ∀ e t, I t → E e t) :
    p.Ends (fun _ => I) E s :=
  (h s hs).conseq (fun _ _ ht => ht) hE

theorem get_bind {f : σ → Raising ε σ β} (hf : ∀ s, Keeps I (f s)) :
    Keeps I (get >>= f) :=
  fun s hs => ends_bind.mpr (hf s s hs)

theorem handle {h : ε → Raising ε σ α} (hp : Keeps I p) (hh : ∀ e, Keeps I (h e)) :
    Keeps I (p.handle h) :=
  fun s hs => ends_handle.mpr ((hp s hs).conseq (fun _ _ ht => ht) fun e t ht => hh e t ht)

theorem forM {xs : List β} {f : β → Raising ε σ Unit} (h : ∀ x ∈ xs, Keeps I (f x)) :
    Keeps I (xs.forM f) := by
  induction xs with
  | nil => exact pure ()
  | cons x xs ih =>
    change Keeps I (f x >>= fun _ => xs.forM f)
    exact bind (h x (List.mem_cons_self ..)) fun _ => ih fun y hy => h y (List.mem_cons_of_mem x hy)

end Keeps

end Raising

end Conductress.Lib
