import Conductress.Lib.Transition

/-!
# Programs under interference

A program is a tree of commands, each atomic, with anything happening between
two of them: other parties write what they may, and the process may die. A
`Discipline` is the contract between the two sides, after rely and guarantee:
what the others keep (`Rely`, `Inv`) and what the program promises at each of
its commands (`guard`).

* `Safe` — the weakest precondition of a program under a discipline;
  `Safe.bind`, `Safe.conseq`, `Safe.rely` are its rules;
* `Safe.exec` — a safe program ends in its postcondition in every execution;
* `Prog.Throughout` — what holds of an undisturbed evaluation wherever it is
  cut short;
* `Machine` — a process that runs its body over and over, starts afresh when
  it dies, and is interfered with throughout; `Machine.run_safe` — when boot
  and body are safe, the invariant holds in every state of every run.
-/

namespace Conductress.Lib

/-- A program over commands `C`: it returns, raises, or calls a command and
goes on with the answer. -/
inductive Prog (C : Type → Type) (ε α : Type) : Type 1
  | pure (a : α)
  | raise (e : ε)
  | call {β : Type} (c : C β) (k : β → Prog C ε α)

namespace Prog

variable {C : Type → Type} {ε α β : Type}

/-- Run the first program, then the second on its result. -/
def andThen : Prog C ε α → (α → Prog C ε β) → Prog C ε β
  | pure a, f => f a
  | raise e, _ => raise e
  | call c k, f => call c fun b => (k b).andThen f

instance : Monad (Prog C ε) where
  pure := pure
  bind := andThen

/-- One command as a program. -/
def run (c : C α) : Prog C ε α := call c pure

/-- The result of a pure computation that may raise. -/
def lift : Except ε α → Prog C ε α
  | .ok a => pure a
  | .error e => raise e

end Prog

/-- What the commands and the interfering events do to a state. A command
consults a choice for what the state does not decide. -/
structure Effects (C : Type → Type) (σ χ η : Type) where
  exec      : {β : Type} → C β → χ → σ → β × σ
  interfere : η → σ → σ

/-- The contract of a program with those who run beside it. -/
structure Discipline {C : Type → Type} {σ χ η : Type} (fx : Effects C σ χ η) where
  /-- Holds at every point of every run. -/
  Inv       : σ → Prop
  /-- What an interfering event may change. -/
  Rely      : σ → σ → Prop
  /-- When an interfering event may happen. -/
  envOk     : η → σ → Prop
  /-- Which choices a command may consult. -/
  choiceOk  : {β : Type} → C β → χ → σ → Prop
  /-- What the program promises when it calls a command. -/
  guard     : {β : Type} → C β → σ → Prop
  rely_refl  : ∀ s, Rely s s
  rely_trans : ∀ {s t u}, Rely s t → Rely t u → Rely s u
  interfere_ok : ∀ {e s}, Inv s → envOk e s →
    Inv (fx.interfere e s) ∧ Rely s (fx.interfere e s)
  exec_ok : ∀ {β : Type} {c : C β} {x s}, Inv s → guard c s → choiceOk c x s →
    Inv (fx.exec c x s).2

section Safe

variable {C : Type → Type} {σ χ η ε α β : Type} {fx : Effects C σ χ η} (D : Discipline fx)

/-- From this state the program keeps its promises whatever happens between
its commands, and ends in `Q` or raises in `E`. -/
def Safe : Prog C ε α → (α → σ → Prop) → (ε → σ → Prop) → σ → Prop
  | .pure a, Q, _, s => ∀ s', D.Rely s s' → D.Inv s' → Q a s'
  | .raise e, _, E, s => ∀ s', D.Rely s s' → D.Inv s' → E e s'
  | .call c k, Q, E, s => ∀ s', D.Rely s s' → D.Inv s' → D.guard c s' ∧
      ∀ x, D.choiceOk c x s' → D.Inv (fx.exec c x s').2 →
        Safe (k (fx.exec c x s').1) Q E (fx.exec c x s').2

namespace Safe

variable {D} {p : Prog C ε α} {Q Q' : α → σ → Prop} {E E' : ε → σ → Prop} {s s' : σ}

/-- Interference before a program does not matter. -/
theorem rely (h : Safe D p Q E s) (hr : D.Rely s s') : Safe D p Q E s' := by
  cases p with
  | pure a => exact fun t ht hI => h t (D.rely_trans hr ht) hI
  | raise e => exact fun t ht hI => h t (D.rely_trans hr ht) hI
  | call c k => exact fun t ht hI => h t (D.rely_trans hr ht) hI

/-- A stronger postcondition implies a weaker one. -/
theorem conseq (h : Safe D p Q E s) (hQ : ∀ a t, D.Inv t → Q a t → Q' a t)
    (hE : ∀ e t, D.Inv t → E e t → E' e t) : Safe D p Q' E' s := by
  induction p generalizing s with
  | pure a => exact fun t ht hI => hQ a t hI (h t ht hI)
  | raise e => exact fun t ht hI => hE e t hI (h t ht hI)
  | call c k ih =>
    intro t ht hI
    obtain ⟨hguard, hk⟩ := h t ht hI
    exact ⟨hguard, fun x hx hI' => ih _ (hk x hx hI')⟩

/-- **Sequencing**: the first program must end where the second one is safe. -/
theorem bind {f : α → Prog C ε β} {R : β → σ → Prop}
    (h : Safe D p (fun a => Safe D (f a) R E) E s) : Safe D (p >>= f) R E s := by
  change Safe D (p.andThen f) R E s
  induction p generalizing s with
  | pure a =>
    -- the interference at the end of the first is that at the start of the second
    have hf : ∀ t, D.Rely s t → D.Inv t → Safe D (f a) R E t := h
    change Safe D (f a) R E s
    cases hfa : f a with
    | pure b => exact fun t ht hI => by have := hf t ht hI; rw [hfa] at this; exact this t (D.rely_refl t) hI
    | raise e => exact fun t ht hI => by have := hf t ht hI; rw [hfa] at this; exact this t (D.rely_refl t) hI
    | call c k => exact fun t ht hI => by have := hf t ht hI; rw [hfa] at this; exact this t (D.rely_refl t) hI
  | raise e => exact h
  | call c k ih =>
    intro t ht hI
    obtain ⟨hguard, hk⟩ := h t ht hI
    exact ⟨hguard, fun x hx hI' => ih _ (hk x hx hI')⟩

/-- One command, then the rest. -/
theorem seq {c : C β} {f : β → Prog C ε α}
    (h : ∀ t, D.Rely s t → D.Inv t → D.guard c t ∧ ∀ x, D.choiceOk c x t →
      D.Inv (fx.exec c x t).2 → Safe D (f (fx.exec c x t).1) Q E (fx.exec c x t).2) :
    Safe D (Prog.run c >>= f) Q E s :=
  h

/-- One command at the end. -/
theorem run {c : C α}
    (h : ∀ t, D.Rely s t → D.Inv t → D.guard c t ∧ ∀ x, D.choiceOk c x t →
      D.Inv (fx.exec c x t).2 → ∀ u, D.Rely (fx.exec c x t).2 u → D.Inv u →
        Q (fx.exec c x t).1 u) : Safe D (Prog.run c) Q E s :=
  h

end Safe

/-! ## Executions -/

/-- An execution of a program to its end, with interference. -/
inductive Exec : Prog C ε α → σ → Except ε α → σ → Prop
  | pure (a : α) (s : σ) : Exec (.pure a) s (.ok a) s
  | raise (e : ε) (s : σ) : Exec (.raise e) s (.error e) s
  | interfere {p : Prog C ε α} {s t : σ} {r : Except ε α} (e : η) :
      D.envOk e s → Exec p (fx.interfere e s) r t → Exec p s r t
  | call {γ : Type} {c : C γ} {k : γ → Prog C ε α} {s t : σ} {r : Except ε α} (x : χ) :
      D.choiceOk c x s → Exec (k (fx.exec c x s).1) (fx.exec c x s).2 r t →
      Exec (.call c k) s r t

/-- **Soundness**: every execution of a safe program ends in its
postcondition. -/
theorem Safe.exec {D : Discipline fx} {p : Prog C ε α} {Q : α → σ → Prop} {E : ε → σ → Prop}
    {s t : σ} {r : Except ε α} (h : Safe D p Q E s) (hI : D.Inv s) (hexec : Exec D p s r t) :
    D.Inv t ∧ (∀ a, r = .ok a → Q a t) ∧ ∀ e, r = .error e → E e t := by
  induction hexec with
  | pure a s => exact ⟨hI, fun _ heq => by cases heq; exact h s (D.rely_refl s) hI, by simp⟩
  | raise e s => exact ⟨hI, by simp, fun _ heq => by cases heq; exact h s (D.rely_refl s) hI⟩
  | interfere e hok _ ih =>
    obtain ⟨hI', hr⟩ := D.interfere_ok hI hok
    exact ih (h.rely hr) hI'
  | call x hx _ ih =>
    obtain ⟨hguard, hk⟩ := h _ (D.rely_refl _) hI
    have hI' := D.exec_ok hI hguard hx
    exact ih (hk x hx hI') hI'

end Safe

/-! ## Undisturbed evaluation -/

namespace Prog

variable {C : Type → Type} {σ χ η ε α β : Type} (fx : Effects C σ χ η) (x : χ)

/-- Run a program to its end, undisturbed, with one choice throughout. -/
def eval : Prog C ε α → σ → Except ε α × σ
  | pure a, s => (.ok a, s)
  | raise e, s => (.error e, s)
  | call c k, s => (k (fx.exec c x s).1).eval (fx.exec c x s).2

@[simp] theorem eval_pure (a : α) (s : σ) :
    (pure a : Prog C ε α).eval fx x s = (.ok a, s) := rfl

@[simp] theorem eval_run_bind (c : C β) (f : β → Prog C ε α) (s : σ) :
    (run c >>= f).eval fx x s = (f (fx.exec c x s).1).eval fx x (fx.exec c x s).2 := rfl

@[simp] theorem eval_run (c : C α) (s : σ) :
    (run c : Prog C ε α).eval fx x s = (.ok (fx.exec c x s).1, (fx.exec c x s).2) := rfl

/-- The second program runs where the first one ended, unless it raised. -/
theorem eval_bind (p : Prog C ε α) (f : α → Prog C ε β) (s : σ) :
    (p >>= f).eval fx x s = match p.eval fx x s with
      | (.ok a, t) => (f a).eval fx x t
      | (.error e, t) => (.error e, t) := by
  change (p.andThen f).eval fx x s = _
  induction p generalizing s with
  | pure a => rfl
  | raise e => rfl
  | call c k ih => exact ih (fx.exec c x s).1 (fx.exec c x s).2

/-- Every command the program calls is one of `P`, as long as every answer is
one of `A`. -/
def Calls (P : ∀ {γ : Type}, C γ → Prop) (A : ∀ {γ : Type}, C γ → γ → Prop) : Prog C ε α → Prop
  | pure _ | raise _ => True
  | call c k => P c ∧ ∀ b, A c b → (k b).Calls P A

variable {fx x} {P : ∀ {γ : Type}, C γ → Prop} {A : ∀ {γ : Type}, C γ → γ → Prop}

theorem Calls.bind {p : Prog C ε α} {f : α → Prog C ε β} (h : p.Calls P A)
    (hf : ∀ a, (f a).Calls P A) : (p >>= f).Calls P A := by
  change (p.andThen f).Calls P A
  induction p with
  | pure a => exact hf a
  | raise e => trivial
  | call c k ih => exact ⟨h.1, fun b hb => ih b (h.2 b hb)⟩

theorem Calls.run {c : C α} (h : P c) : (Prog.run c : Prog C ε α).Calls P A := ⟨h, fun _ _ => trivial⟩

theorem Calls.run_bind {c : C β} {f : β → Prog C ε α} (h : P c)
    (hf : ∀ b, A c b → (f b).Calls P A) : (Prog.run c >>= f).Calls P A := ⟨h, hf⟩

/-- What every call keeps, the evaluation keeps. -/
theorem Calls.eval_invariant (fx : Effects C σ χ η) (x : χ) {p : Prog C ε α} (Inv : σ → Prop) {s : σ}
    (h : p.Calls P A)
    (hstep : ∀ {γ : Type} (c : C γ) (t : σ), P c → Inv t →
      A c (fx.exec c x t).1 ∧ Inv (fx.exec c x t).2) (hs : Inv s) :
    Inv (p.eval fx x s).2 := by
  induction p generalizing s with
  | pure a => exact hs
  | raise e => exact hs
  | call c k ih =>
    obtain ⟨hanswer, hs'⟩ := hstep c s h.1 hs
    exact ih _ (h.2 _ hanswer) hs'

/-- The discipline allows the choice at every call of the evaluation. -/
def Permitted (D : Discipline fx) (x : χ) : Prog C ε α → σ → Prop
  | pure _, _ | raise _, _ => True
  | call c k, s => D.choiceOk c x s ∧ (k (fx.exec c x s).1).Permitted D x (fx.exec c x s).2

instance Permitted.decidable (D : Discipline fx) (x : χ)
    [∀ {γ : Type} (c : C γ) (s : σ), Decidable (D.choiceOk c x s)] :
    ∀ (p : Prog C ε α) (s : σ), Decidable (p.Permitted D x s)
  | pure _, _ | raise _, _ => isTrue trivial
  | call c k, s =>
    have := Permitted.decidable D x (k (fx.exec c x s).1) (fx.exec c x s).2
    inferInstanceAs (Decidable (D.choiceOk c x s ∧ _))

/-- An undisturbed evaluation is an execution. -/
theorem exec_of_eval {D : Discipline fx} :
    ∀ (p : Prog C ε α) (s : σ), p.Permitted D x s →
      Exec D p s (p.eval fx x s).1 (p.eval fx x s).2
  | pure a, s, _ => .pure a s
  | raise e, s, _ => .raise e s
  | call c k, s, h => .call x h.1 (exec_of_eval (k (fx.exec c x s).1) (fx.exec c x s).2 h.2)

end Prog

/-! ## Programs cut short -/

namespace Prog

variable {C : Type → Type} {σ χ η ε α β : Type} (fx : Effects C σ χ η) (x : χ)

/-- The state when an evaluation has made its first `n` calls, or has ended
before. -/
def after : Prog C ε α → ℕ → σ → σ
  | call c k, n + 1, s => (k (fx.exec c x s).1).after n (fx.exec c x s).2
  | _, _, s => s

/-- `I n` holds when the evaluation has made `n` calls and another one is to
come, and `Q` where it ends, counting from the calls already made. -/
def Throughout (I : ℕ → σ → Prop) (Q : Except ε α → ℕ → σ → Prop) : Prog C ε α → ℕ → σ → Prop
  | pure a, n, s => Q (.ok a) n s
  | raise e, n, s => Q (.error e) n s
  | call c k, n, s =>
    I n s ∧ (k (fx.exec c x s).1).Throughout I Q (n + 1) (fx.exec c x s).2

namespace Throughout

variable {fx x} {I : ℕ → σ → Prop} {Q : Except ε α → ℕ → σ → Prop} {p : Prog C ε α} {n : ℕ} {s : σ}

/-- Cut short after any number of calls, the evaluation satisfies `I`. -/
theorem after (h : p.Throughout fx x I Q n s) (hend : ∀ r k t, Q r k t → ∀ m, k ≤ m → I m t) (m : ℕ) :
    I (n + m) (p.after fx x m s) := by
  induction p generalizing n m s with
  | pure a => cases m <;> exact hend _ n s h _ (by omega)
  | raise e => cases m <;> exact hend _ n s h _ (by omega)
  | call c k ih =>
    cases m with
    | zero => exact h.1
    | succ m =>
      have hrest := ih _ h.2 m
      rwa [show n + 1 + m = n + (m + 1) by omega] at hrest

/-- Left alone, the evaluation ends in `Q`. -/
theorem eval (h : p.Throughout fx x I Q n s) : ∃ m, Q (p.eval fx x s).1 m (p.eval fx x s).2 := by
  induction p generalizing n s with
  | pure a => exact ⟨n, h⟩
  | raise e => exact ⟨n, h⟩
  | call c k ih => exact ih _ h.2

theorem bind {f : α → Prog C ε β} {R : Except ε β → ℕ → σ → Prop}
    (h : p.Throughout fx x I (fun r m t => match r with
      | .ok a => (f a).Throughout fx x I R m t
      | .error e => R (.error e) m t) n s) :
    (p >>= f).Throughout fx x I R n s := by
  change (p.andThen f).Throughout fx x I R n s
  induction p generalizing n s with
  | pure a => exact h
  | raise e => exact h
  | call c k ih => exact ⟨h.1, ih _ h.2⟩

end Throughout

end Prog

/-! ## Machines -/

/-- A process: what it does when it starts, and what it does next with the
result of each turn. -/
structure Machine (C : Type → Type) (ε μ : Type) where
  boot : Prog C ε μ
  body : μ → Prog C ε μ

/-- What can happen to a process: its next command, interference, its death. -/
inductive Occurrence (χ η : Type) where
  | act (x : χ)
  | interfere (e : η)
  | crash

namespace Machine

variable {C : Type → Type} {σ χ η ε μ : Type} (fx : Effects C σ χ η) (m : Machine C ε μ)

/-- One occurrence. A turn that ends is followed by the next one; a process
that raised or died starts afresh. -/
def step : σ × Prog C ε μ → Occurrence χ η → σ × Prog C ε μ
  | (s, .call c k), .act x => ((fx.exec c x s).2, k (fx.exec c x s).1)
  | (s, .pure a), .act _ => (s, m.body a)
  | (s, .raise _), .act _ => (s, m.boot)
  | (s, p), .interfere e => (fx.interfere e s, p)
  | (s, _), .crash => (s, m.boot)

variable {fx} (D : Discipline fx) (Calm : σ → Prop)

/-- The occurrences a discipline covers: the choices and the interference it
allows, and a death only in a calm state. -/
def Covers : σ × Prog C ε μ → Occurrence χ η → Prop
  | (s, .call c _), .act x => D.choiceOk c x s
  | _, .act _ => True
  | (s, _), .interfere e => D.envOk e s
  | (s, _), .crash => Calm s

/-- **The machine rule.** When boot is safe from every calm state and body
from every state a turn may end in, then in every state of every covered run
the invariant holds and the rest of the turn is safe. What a turn raises in must
be calm, as the next one starts afresh. -/
theorem run_safe_raising {Q : μ → σ → Prop} {E : ε → σ → Prop} {s : σ}
    {es : List (Occurrence χ η)} {t : σ × Prog C ε μ} (hE : ∀ e s, E e s → Calm s)
    (hboot : ∀ s, D.Inv s → Calm s → Safe D m.boot Q E s)
    (hbody : ∀ a s, D.Inv s → Q a s → Safe D (m.body a) Q E s)
    (hrun : Run (fun a e b => Covers D Calm a e ∧ b = m.step fx a e) (s, m.boot) es t)
    (hInv : D.Inv s) (hCalm : Calm s) : D.Inv t.1 ∧ Safe D t.2 Q E t.1 := by
  refine hrun.invariant (fun t => D.Inv t.1 ∧ Safe D t.2 Q E t.1)
    ⟨hInv, hboot s hInv hCalm⟩ ?_
  rintro ⟨a, p⟩ e _ ⟨hok, rfl⟩ ⟨hI, hsafe⟩
  cases e with
  | act x =>
    cases p with
    | pure b => exact ⟨hI, hbody b a hI (hsafe a (D.rely_refl a) hI)⟩
    | raise e => exact ⟨hI, hboot a hI (hE e a (hsafe a (D.rely_refl a) hI))⟩
    | call c k =>
      obtain ⟨hguard, hk⟩ := hsafe a (D.rely_refl a) hI
      have hI' := D.exec_ok hI hguard hok
      exact ⟨hI', hk x hok hI'⟩
  | interfere e =>
    obtain ⟨hI', hr⟩ : D.Inv (fx.interfere e a) ∧ D.Rely a (fx.interfere e a) := by
      cases p <;> exact D.interfere_ok hI hok
    have hstep : m.step fx (a, p) (.interfere e) = (fx.interfere e a, p) := by cases p <;> rfl
    rw [hstep]
    exact ⟨hI', hsafe.rely hr⟩
  | crash =>
    have hcalm : Calm a := by cases p <;> exact hok
    have hstep : m.step fx (a, p) .crash = (a, m.boot) := by cases p <;> rfl
    rw [hstep]
    exact ⟨hI, hboot a hI hcalm⟩

/-- The rule for a process that raises nothing worth telling. -/
theorem run_safe {Q : μ → σ → Prop} {s : σ} {es : List (Occurrence χ η)}
    {t : σ × Prog C ε μ}
    (hboot : ∀ s, D.Inv s → Calm s → Safe D m.boot Q (fun _ => Calm) s)
    (hbody : ∀ a s, D.Inv s → Q a s → Safe D (m.body a) Q (fun _ => Calm) s)
    (hrun : Run (fun a e b => Covers D Calm a e ∧ b = m.step fx a e) (s, m.boot) es t)
    (hInv : D.Inv s) (hCalm : Calm s) :
    D.Inv t.1 ∧ Safe D t.2 Q (fun _ => Calm) t.1 :=
  run_safe_raising m D Calm (fun _ _ h => h) hboot hbody hrun hInv hCalm

end Machine

end Conductress.Lib
