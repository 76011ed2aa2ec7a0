import Mathlib.Data.List.Basic

/-!
# Pulling values from a buffer that is fed in chunks

A puller takes a value off the front of a buffer, finds that more is needed, or
fails. The buffer is drained after each chunk that is appended to it.

* `Fed` — what comes out of a buffer and the chunks that follow it;
* `Fed.unique` — it is determined;
* `Stable` — a part of the buffer gives what the whole gives, or waits;
* `Fed.of_stable` — where every buffer on the way is stable, the cuts do not
  matter;
* `Fed.of_shrinks` — where every value shortens the buffer, there is an end.
-/

namespace Conductress.Lib

variable {α ρ ε : Type*}

/-- How draining ends: at a buffer with no further value, or by an error. -/
inductive Drained (α ε : Type*) where
  | waits (left : List α)
  | raises (error : ε)

section Puller

variable (pull : List α → Except ε (Option ρ × List α))

/-- From the buffer `buf` the values are pulled; when there is no more, the next
chunk comes. -/
inductive Fed : List α → List (List α) → List ρ → Drained α ε → Prop
  | stops {buf left : List α} (h : pull buf = .ok (none, left)) : Fed buf [] [] (.waits left)
  | receives {buf left chunk : List α} {chunks : List (List α)} {values : List ρ}
      {ending : Drained α ε} (h : pull buf = .ok (none, left))
      (hrest : Fed (left ++ chunk) chunks values ending) : Fed buf (chunk :: chunks) values ending
  | pulls {buf left : List α} {chunks : List (List α)} {value : ρ} {values : List ρ}
      {ending : Drained α ε} (h : pull buf = .ok (some value, left))
      (hrest : Fed left chunks values ending) : Fed buf chunks (value :: values) ending
  | fails {buf : List α} {chunks : List (List α)} {error : ε} (h : pull buf = .error error) :
      Fed buf chunks [] (.raises error)

/-- The buffers that draining `buf` comes to. -/
inductive Reaches : List α → List α → Prop
  | refl (buf : List α) : Reaches buf buf
  | pulls {buf left last : List α} {value : ρ} (h : pull buf = .ok (some value, left))
      (hrest : Reaches left last) : Reaches buf last

/-- What a part of the buffer `whole` gives: nothing yet, or what `whole` gives. -/
def Stable (whole : List α) : Prop :=
  ∀ buf rest, whole = buf ++ rest →
    pull buf = .ok (none, buf) ∨
    (∃ error, pull buf = .error error ∧ pull whole = .error error) ∨
    ∃ value left, pull buf = .ok (some value, left) ∧
      pull whole = .ok (some value, left ++ rest) ∧ left.length < buf.length

/-- Every value that is pulled shortens the buffer. -/
def Shrinks (buf : List α) : Prop :=
  ∀ value left, pull buf = .ok (some value, left) → left.length < buf.length

end Puller

variable {pull : List α → Except ε (Option ρ × List α)} {buf : List α}

/-- What comes out is determined by the buffer and the chunks. -/
theorem Fed.unique {chunks : List (List α)} {values values' : List ρ}
    {ending ending' : Drained α ε} (h : Fed pull buf chunks values ending)
    (h' : Fed pull buf chunks values' ending') : values' = values ∧ ending' = ending := by
  induction h generalizing values' with
  | stops hpull =>
    cases h' with
    | stops hpull' => simp_all
    | pulls hpull' => simp_all
    | fails hpull' => simp_all
  | receives hpull hrest ih =>
    cases h' with
    | receives hpull' hrest' =>
      obtain rfl : _ = _ := by simpa using hpull.symm.trans hpull'
      exact ih hrest'
    | pulls hpull' => simp_all
    | fails hpull' => simp_all
  | pulls hpull hrest ih =>
    cases h' with
    | stops hpull' => simp_all
    | receives hpull' => simp_all
    | pulls hpull' hrest' =>
      obtain ⟨rfl, rfl⟩ : _ = _ ∧ _ = _ := by simpa using hpull.symm.trans hpull'
      obtain ⟨rfl, rfl⟩ := ih hrest'
      exact ⟨rfl, rfl⟩
    | fails hpull' => simp_all
  | fails hpull =>
    cases h' with
    | stops hpull' => simp_all
    | receives hpull' => simp_all
    | pulls hpull' => simp_all
    | fails hpull' => simp_all

/-- **Draining ends** where every value shortens the buffer it is pulled from. -/
theorem Fed.of_shrinks (h : ∀ last, Reaches pull buf last → Shrinks pull last) :
    ∃ values ending, Fed pull buf [] values ending := by
  induction hn : buf.length using Nat.strongRecOn generalizing buf with
  | ind n ih =>
    subst hn
    cases hpull : pull buf with
    | error error => exact ⟨[], .raises error, .fails hpull⟩
    | ok answer =>
      obtain ⟨value?, left⟩ := answer
      cases value? with
      | none => exact ⟨[], .waits left, .stops hpull⟩
      | some value =>
        have hlt := h buf (.refl buf) value left hpull
        obtain ⟨values, ending, hfed⟩ :=
          ih left.length hlt (fun last hlast => h last (.pulls hpull hlast)) rfl
        exact ⟨value :: values, ending, .pulls hpull hfed⟩

/-- **Cutting changes nothing**: where every buffer on the way is stable, the
chunks one by one give what they give at once. -/
theorem Fed.of_stable {chunks : List (List α)}
    (h : ∀ last, Reaches pull (buf ++ chunks.flatten) last → Stable pull last) :
    ∃ values ending, Fed pull buf chunks values ending ∧
      Fed pull (buf ++ chunks.flatten) [] values ending := by
  -- on the length of all that is there; with nothing pulled, on the chunks
  induction hn : (buf ++ chunks.flatten).length using Nat.strongRecOn
    generalizing buf chunks with
  | ind n ih =>
    induction chunks generalizing buf with
    | nil =>
      rw [List.flatten_nil, List.append_nil] at h ⊢
      have hshrinks : ∀ last, Reaches pull buf last → Shrinks pull last := by
        intro last hlast value left hpull
        rcases h last hlast last [] (List.append_nil last).symm with
          hwaits | ⟨error, hraises, -⟩ | ⟨value', left', hpull', -, hlt⟩
        · simp [hwaits] at hpull
        · simp [hraises] at hpull
        · obtain ⟨rfl, rfl⟩ : _ = _ ∧ _ = _ := by simpa using hpull.symm.trans hpull'
          exact hlt
      obtain ⟨values, ending, hfed⟩ := Fed.of_shrinks hshrinks
      exact ⟨values, ending, hfed, hfed⟩
    | cons chunk chunks ihChunks =>
      rcases h _ (.refl _) buf (chunk :: chunks).flatten rfl with
        hwaits | ⟨error, hraises, hwhole⟩ | ⟨value, left, hpull, hwhole, hlt⟩
      · have hsame : buf ++ (chunk :: chunks).flatten = (buf ++ chunk) ++ chunks.flatten := by
          rw [List.flatten_cons, List.append_assoc]
        rw [hsame] at h hn ⊢
        obtain ⟨values, ending, hfed, hall⟩ := ihChunks h hn
        exact ⟨values, ending, .receives hwaits hfed, hall⟩
      · exact ⟨[], .raises error, .fails hraises, .fails hwhole⟩
      · have hshorter : (left ++ (chunk :: chunks).flatten).length < n := by
          rw [← hn, List.length_append, List.length_append]
          omega
        obtain ⟨values, ending, hfed, hall⟩ :=
          ih _ hshorter (fun last hlast => h last (.pulls hwhole hlast)) rfl
        exact ⟨value :: values, ending, .pulls hpull hfed, .pulls hwhole hall⟩

end Conductress.Lib
