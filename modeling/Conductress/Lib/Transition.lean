import Mathlib.Data.List.Basic

/-!
# Runs of a labelled transition system

`Run step s es s'`: the labels `es`, in order, lead from `s` to `s'`. The step
is a relation, so a guarded, a nondeterministic and a functional step are all
instances; `Run.of_fun` is the last.

* `Run.invariant` — what every step preserves, every run preserves;
* `Run.crossing` — a property true at the start of a run and false at its end
  is lost at one of its steps;
* `Run.monotone` — a run under stronger guards is a run under weaker ones;
* `Run.of_foldl` — a loop over a list as a run;
* `Through` — the states that a run passes through, and `Run.invariant_through`, the invariant rule
  for what is known of them.
-/

namespace Conductress.Lib

variable {σ ε : Type*}

/-- The labels `es`, in order, lead from the first state to the last. -/
inductive Run (step : σ → ε → σ → Prop) : σ → List ε → σ → Prop
  | refl (s : σ) : Run step s [] s
  | snoc {s t u : σ} {es : List ε} {e : ε} :
      Run step s es t → step t e u → Run step s (es ++ [e]) u

namespace Run

variable {step step' : σ → ε → σ → Prop} {s t u : σ} {es fs : List ε}

theorem single {e : ε} (h : step s e t) : Run step s [e] t :=
  .snoc (.refl s) h

theorem append (h : Run step s es t) (h' : Run step t fs u) : Run step s (es ++ fs) u := by
  induction h' with
  | refl => rw [List.append_nil]; exact h
  | snoc _ hstep ih =>
    rw [← List.append_assoc]
    exact .snoc ih hstep

theorem cons {e : ε} (h : step s e t) (h' : Run step t fs u) : Run step s (e :: fs) u :=
  append (single h) h'

/-- **The invariant rule**: what holds at the start and is preserved by every
step holds at the end of every run. -/
theorem invariant (Inv : σ → Prop) (h : Run step s es t) (hInit : Inv s)
    (hStep : ∀ ⦃a e b⦄, step a e b → Inv a → Inv b) : Inv t := by
  induction h with
  | refl => exact hInit
  | snoc _ hstep ih => exact hStep hstep ih

/-- A run whose steps all satisfy a weaker relation. -/
theorem monotone (h : Run step s es t) (hle : ∀ ⦃a e b⦄, step a e b → step' a e b) :
    Run step' s es t := by
  induction h with
  | refl => exact .refl _
  | snoc _ hstep ih => exact .snoc ih (hle hstep)

/-- The invariant rule for a step that may depend on which labels the run has. -/
theorem invariant_of_mem (Inv : σ → Prop) (h : Run step s es t) (hInit : Inv s)
    (hStep : ∀ a e b, e ∈ es → step a e b → Inv a → Inv b) : Inv t := by
  induction h with
  | refl => exact hInit
  | snoc _ hstep ih =>
    refine hStep _ _ _ (by simp) hstep (ih fun a e b he => ?_)
    exact hStep a e b (List.mem_append_left _ he)

/-- **Crossing**: a property true at the start and false at the end is lost at
some step of the run; `a` is the state the run has reached there. -/
theorem crossing_at {P : σ → Prop} (h : Run step s es t) (hs : P s) (ht : ¬ P t) :
    ∃ before a e b after, es = before ++ e :: after ∧ Run step s before a ∧ step a e b ∧
      P a ∧ ¬ P b := by
  induction h with
  | refl => exact absurd hs ht
  | @snoc t u es e hrun hstep ih =>
    by_cases hP : P t
    · exact ⟨es, t, e, u, [], rfl, hrun, hstep, hP, ht⟩
    · obtain ⟨before, a, e', b, after, rfl, hbefore, hstep', hab⟩ := ih hP
      exact ⟨before, a, e', b, after ++ [e], by simp, hbefore, hstep', hab⟩

theorem crossing {P : σ → Prop} (h : Run step s es t) (hs : P s) (ht : ¬ P t) :
    ∃ a e b, e ∈ es ∧ step a e b ∧ P a ∧ ¬ P b := by
  obtain ⟨before, a, e, b, after, rfl, -, hstep, hab⟩ := h.crossing_at hs ht
  exact ⟨a, e, b, by simp, hstep, hab⟩

/-- The run of a step function over a list of labels. -/
theorem of_fun (f : σ → ε → σ) (s : σ) (es : List ε) :
    Run (fun a e b => b = f a e) s es (es.foldl f s) := by
  induction es generalizing s with
  | nil => exact .refl s
  | cons e es ih => exact cons rfl (ih (f s e))

/-- Every label of the list passes a guard in the state it finds. -/
def Guarded (f : σ → ε → σ) (ok : σ → ε → Prop) : σ → List ε → Prop
  | _, [] => True
  | s, e :: es => ok s e ∧ Guarded f ok (f s e) es

instance Guarded.decidable (f : σ → ε → σ) (ok : σ → ε → Prop) [∀ s e, Decidable (ok s e)] :
    ∀ (s : σ) (es : List ε), Decidable (Guarded f ok s es)
  | _, [] => isTrue trivial
  | s, e :: es =>
    have := Guarded.decidable f ok (f s e) es
    inferInstanceAs (Decidable (ok s e ∧ Guarded f ok (f s e) es))

/-- The run of a step function whose labels pass a guard. -/
theorem of_guarded (f : σ → ε → σ) (ok : σ → ε → Prop) :
    ∀ (es : List ε) (s : σ), Guarded f ok s es →
      Run (fun a e b => ok a e ∧ b = f a e) s es (es.foldl f s)
  | [], s, _ => .refl s
  | e :: es, s, h => cons ⟨h.1, rfl⟩ (of_guarded f ok es (f s e) h.2)

/-- A fold is a run when each element's turn is one and no element's turn
disturbs what another one needs. -/
theorem of_foldl {β : Type*} {f : σ → β → σ} (Pre : σ → β → Prop) {Post : β → ε → Prop}
    {Apart : β → β → Prop}
    (hturn : ∀ s b, Pre s b → ∃ es, Run step s es (f s b) ∧ ∀ e ∈ es, Post b e)
    (hkeep : ∀ s b c, Pre s b → Pre s c → Apart b c → Pre (f s b) c) :
    ∀ (bs : List β) (s : σ), bs.Pairwise Apart → (∀ b ∈ bs, Pre s b) →
      ∃ es, Run step s es (bs.foldl f s) ∧ ∀ e ∈ es, ∃ b ∈ bs, Post b e
  | [], s, _, _ => ⟨[], .refl s, by simp⟩
  | b :: bs, s, hapart, hpre => by
    obtain ⟨hb, hbs⟩ := List.pairwise_cons.mp hapart
    have hPre := hpre b List.mem_cons_self
    obtain ⟨es, hrun, hes⟩ := hturn s b hPre
    obtain ⟨fs, hrun', hfs⟩ := of_foldl Pre hturn hkeep bs (f s b) hbs fun c hc =>
      hkeep s b c hPre (hpre c (List.mem_cons_of_mem _ hc)) (hb c hc)
    refine ⟨es ++ fs, hrun.append hrun', fun e he => ?_⟩
    rcases List.mem_append.mp he with he | he
    · exact ⟨b, List.mem_cons_self, hes e he⟩
    · obtain ⟨c, hc, hpost⟩ := hfs e he
      exact ⟨c, List.mem_cons_of_mem _ hc, hpost⟩

end Run

/-- A run passes through a state on its way. -/
def Through (step : σ → ε → σ → Prop) (s : σ) (es : List ε) (t a : σ) : Prop :=
  ∃ before after, es = before ++ after ∧ Run step s before a ∧ Run step a after t

section Through

variable {step : σ → ε → σ → Prop} {s t u a : σ} {es : List ε} {e : ε}

theorem Run.through_end (h : Run step s es t) : Through step s es t t :=
  ⟨es, [], (List.append_nil es).symm, h, .refl t⟩

theorem Through.snoc (h : Through step s es t a) (hstep : step t e u) :
    Through step s (es ++ [e]) u a := by
  obtain ⟨before, after, rfl, hbefore, hafter⟩ := h
  exact ⟨before, after ++ [e], List.append_assoc .., hbefore, hafter.snoc hstep⟩

/-- The invariant rule for what a run has passed through. -/
theorem Run.invariant_through (Inv : List ε → σ → Prop) (h : Run step s es t) (hInit : Inv [] s)
    (hStep : ∀ ⦃es a e b⦄, Run step s es a → step a e b → Inv es a → Inv (es ++ [e]) b) :
    Inv es t := by
  induction h with
  | refl => exact hInit
  | snoc hrun hstep ih => exact hStep hrun hstep ih

end Through

end Conductress.Lib
