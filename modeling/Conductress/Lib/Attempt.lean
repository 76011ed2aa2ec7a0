import Conductress.Lib.Prog

/-!
# Attempts at a program

An attempt makes the calls of a program one after the other, each with a choice of
its own, until the program returns or raises, or the attempt is cut short between
two of them.

* `Within` — what holds wherever an attempt may end, and what does where it
  returns; `within_bind` is its rule for sequencing;
* `within_forM` — so is a loop, with an invariant over what it has been through;
* `Within.attempt` — every attempt ends so.
-/

namespace Conductress.Lib

/-- What a command that fails has done. -/
inductive Extent where
  | nothing
  | part
  | all
  deriving DecidableEq

namespace Prog

/-- How an attempt ends. -/
inductive Ending (ε α : Type)
  | returned (a : α)
  | raised (e : ε)
  | cut
  deriving DecidableEq

variable {C : Type → Type} {σ χ η ε α β : Type} (fx : Effects C σ χ η)

/-- An attempt at a program. -/
inductive Attempt : Prog C ε α → σ → Ending ε α → σ → Prop
  | cut (p : Prog C ε α) (s : σ) : Attempt p s .cut s
  | returned (a : α) (s : σ) : Attempt (.pure a) s (.returned a) s
  | raised (e : ε) (s : σ) : Attempt (.raise e) s (.raised e) s
  | call {γ : Type} {c : C γ} {k : γ → Prog C ε α} {s t : σ} {o : Ending ε α} (x : χ) :
      Attempt (k (fx.exec c x s).1) (fx.exec c x s).2 o t → Attempt (.call c k) s o t

/-- `I` holds before every call and wherever the program ends, and `Q` where it returns. -/
def Within (I : σ → Prop) (Q : α → σ → Prop) : Prog C ε α → σ → Prop
  | pure a, s => I s ∧ Q a s
  | raise _, s => I s
  | call c k, s => I s ∧ ∀ x, (k (fx.exec c x s).1).Within I Q (fx.exec c x s).2

variable {fx} {I : σ → Prop} {Q : α → σ → Prop} {p : Prog C ε α} {s t : σ} {o : Ending ε α}

theorem Within.here (h : p.Within fx I Q s) : I s := by
  cases p with
  | pure a => exact h.1
  | raise e => exact h
  | call c k => exact h.1

theorem Within.conseq {Q' : α → σ → Prop} (h : p.Within fx I Q s) (hQ : ∀ a t, Q a t → Q' a t) :
    p.Within fx I Q' s := by
  induction p generalizing s with
  | pure a => exact ⟨h.1, hQ a s h.2⟩
  | raise e => exact h
  | call c k ih => exact ⟨h.1, fun x => ih _ (h.2 x)⟩

theorem Within.weaken {J : σ → Prop} (h : p.Within fx I Q s) (hI : ∀ t, I t → J t) :
    p.Within fx J Q s := by
  induction p generalizing s with
  | pure a => exact ⟨hI s h.1, h.2⟩
  | raise e => exact hI s h
  | call c k ih => exact ⟨hI s h.1, fun x => ih _ (h.2 x)⟩

/-- Where a program returns, `I` holds as well. -/
theorem Within.keep (h : p.Within fx I Q s) : p.Within fx I (fun a t => I t ∧ Q a t) s := by
  induction p generalizing s with
  | pure a => exact ⟨h.1, h⟩
  | raise e => exact h
  | call c k ih => exact ⟨h.1, fun x => ih _ (h.2 x)⟩

/-- **Sequencing.** -/
theorem within_bind {f : α → Prog C ε β} {R : β → σ → Prop} :
    (p >>= f).Within fx I R s ↔ p.Within fx I (fun a t => (f a).Within fx I R t) s := by
  change (p.andThen f).Within fx I R s ↔ _
  -- the induction is on the first program; where it returns, the second one begins
  induction p generalizing s with
  | pure a => exact ⟨fun h => ⟨h.here, h⟩, And.right⟩
  | raise e => exact Iff.rfl
  | call c k ih => exact and_congr_right fun _ => forall_congr' fun x => ih _

/-- **Loops.** -/
theorem within_forM {ι : Type} {xs : List ι} {f : ι → Prog C ε Unit} {J : List ι → σ → Prop}
    (hbody : ∀ before x after, before ++ x :: after = xs → ∀ s, I s → J before s →
      (f x).Within fx I (fun _ t => J (before ++ [x]) t) s) (hI : I s) (hJ : J [] s) :
    (xs.forM f).Within fx I (fun _ t => J xs t) s := by
  -- the induction is on what is left, for any elements before it
  suffices ∀ after before s, before ++ after = xs → I s → J before s →
      (after.forM f).Within fx I (fun _ t => J xs t) s from this xs [] s rfl hI hJ
  intro after
  induction after with
  | nil =>
    intro before s hxs hI hJ
    rw [List.append_nil] at hxs
    exact ⟨hI, hxs ▸ hJ⟩
  | cons x after ih =>
    intro before s hxs hI hJ
    show (f x >>= fun _ => after.forM f).Within fx I _ s
    rw [within_bind]
    refine (hbody before x after hxs s hI hJ).keep.conseq fun _ t ht => ?_
    exact ih (before ++ [x]) t (by rw [List.append_assoc]; exact hxs) ht.1 ht.2

/-- One command. -/
theorem within_run {c : C α} :
    (run c : Prog C ε α).Within fx I Q s ↔
      I s ∧ ∀ x, I (fx.exec c x s).2 ∧ Q (fx.exec c x s).1 (fx.exec c x s).2 :=
  Iff.rfl

/-- **Every attempt** ends where `Within` says. -/
theorem Within.attempt (h : p.Within fx I Q s) (hattempt : Attempt fx p s o t) :
    I t ∧ ∀ a, o = .returned a → Q a t := by
  -- wherever the attempt is cut short, `I` holds before the next call
  induction hattempt with
  | cut p s => exact ⟨h.here, fun _ heq => by cases heq⟩
  | returned a s =>
    refine ⟨h.1, fun b heq => ?_⟩
    cases heq
    exact h.2
  | raised e s => exact ⟨h, fun _ heq => by cases heq⟩
  | call x _ ih => exact ih (h.2 x)

/-- An undisturbed evaluation is an attempt. -/
theorem attempt_of_eval (x : χ) {a : α} :
    ∀ {p : Prog C ε α} {s : σ}, (p.eval fx x s).1 = .ok a →
      Attempt fx p s (.returned a) (p.eval fx x s).2
  | pure b, s, h => by
    cases h
    exact .returned a s
  | raise e, s, h => by cases h
  | call c k, s, h => .call x (attempt_of_eval x h)

/-- Also where it raises. -/
theorem attempt_of_raised (x : χ) {e : ε} :
    ∀ {p : Prog C ε α} {s : σ}, (p.eval fx x s).1 = .error e →
      Attempt fx p s (.raised e) (p.eval fx x s).2
  | pure a, s, h => by cases h
  | raise e', s, h => by
    cases h
    exact .raised e s
  | call c k, s, h => .call x (attempt_of_raised x h)

/-- So is one that is cut short. -/
theorem attempt_of_after (x : χ) :
    ∀ (p : Prog C ε α) (n : ℕ) (s : σ), Attempt fx p s .cut (p.after fx x n s)
  | pure a, n, s => by
    cases n <;> exact .cut _ s
  | raise e, n, s => by
    cases n <;> exact .cut _ s
  | call c k, 0, s => .cut _ s
  | call c k, n + 1, s => .call x (attempt_of_after x (k (fx.exec c x s).1) n (fx.exec c x s).2)

end Prog

end Conductress.Lib
