import Conductress.Queue.Topology

/-!
# What a dataclass does after it is built

A `__post_init__` converts some of its fields, one after the other, and checks
values on the way. Written as a list of steps, it can be told from the list
alone when running it a second time changes nothing: every conversion is one
that its own results pass unchanged (`Stable`), and no step reads a field that a
later one converts (`Settled`).

* `run_run`      — a second run gives what the first one gave;
* `run_setField` — a field that no step reads may be assigned before or after.
-/

namespace Conductress

open Lib

/-- A step of a `__post_init__`. -/
inductive InitStep where
  /-- `self.field = convert(self.field)`. -/
  | rewrite (field : String) (convert : Json → Except PyError Json)
  /-- A check that reads the fields it names. -/
  | check (reads : List String) (test : List Json → Except PyError Unit)
  /-- A check of the topology. -/
  | layout (test : TopologySpec → Except PyError Unit)

namespace InitStep

/-- The fields a step reads. -/
def reads : InitStep → List String
  | .rewrite field _ => [field]
  | .check reads _ => reads
  | .layout _ => []

/-- The fields a step assigns. -/
def writes : InitStep → List String
  | .rewrite field _ => [field]
  | .check _ _ | .layout _ => []

/-- A conversion that its own results pass unchanged. -/
def Stable : InitStep → Prop
  | .rewrite _ convert => ∀ v w, convert v = .ok w → convert w = .ok w
  | .check _ _ | .layout _ => True

/-- No step reads or assigns what a later one assigns. -/
def Settled : List InitStep → Prop
  | [] => True
  | step :: rest => (∀ x ∈ step.reads, x ∉ rest.flatMap writes) ∧ Settled rest

instance Settled.decidable : (steps : List InitStep) → Decidable (Settled steps)
  | [] => isTrue trivial
  | step :: rest =>
    have := Settled.decidable rest
    inferInstanceAs (Decidable ((∀ x ∈ step.reads, x ∉ rest.flatMap writes) ∧ Settled rest))

variable (topology : TopologySpec)

def apply (fields : List (String × Json)) : InitStep → Except PyError (List (String × Json))
  | .rewrite field convert =>
    (convert (Json.getD fields field)).map fun value => Json.setField fields field value
  | .check reads test => (test (reads.map (Json.getD fields))).map fun _ => fields
  | .layout test => (test topology).map fun _ => fields

/-- The steps one after the other. -/
def run (steps : List InitStep) (fields : List (String × Json)) :
    Except PyError (List (String × Json)) :=
  steps.foldlM (apply topology) fields

variable {topology} {step : InitStep} {steps : List InitStep}
  {fields fields' out : List (String × Json)}

theorem run_cons_ok : run topology (step :: steps) fields = .ok out ↔
    ∃ mid, step.apply topology fields = .ok mid ∧ run topology steps mid = .ok out := by
  rw [run, List.foldlM_cons]
  exact except_bind_ok

/-! ## What a step leaves alone -/

/-- A step assigns its own field only. -/
theorem apply_frame (h : step.apply topology fields = .ok out)
    (hkeys : ∀ x ∈ step.writes, x ∈ Json.keys fields) :
    Json.keys out = Json.keys fields ∧
      ∀ x, x ∉ step.writes → Json.lookup out x = Json.lookup fields x := by
  rcases step with ⟨field, convert⟩ | ⟨reads, test⟩ | test
  · obtain ⟨value, -, rfl⟩ := except_map_ok.mp h
    refine ⟨Json.keys_setField (hkeys field List.mem_cons_self) value, fun x hx => ?_⟩
    exact Json.lookup_setField_of_ne (fun he => hx (by simp [writes, he])) value
  · obtain ⟨_, -, rfl⟩ := except_map_ok.mp h
    exact ⟨rfl, fun _ _ => rfl⟩
  · obtain ⟨_, -, rfl⟩ := except_map_ok.mp h
    exact ⟨rfl, fun _ _ => rfl⟩

theorem run_frame (h : run topology steps fields = .ok out)
    (hkeys : ∀ x ∈ steps.flatMap writes, x ∈ Json.keys fields) :
    Json.keys out = Json.keys fields ∧
      ∀ x, x ∉ steps.flatMap writes → Json.lookup out x = Json.lookup fields x := by
  induction steps generalizing fields with
  | nil =>
    have hout : fields = out := by simpa [run, pure, Except.pure] using h
    rw [hout]
    exact ⟨rfl, fun _ _ => rfl⟩
  | cons step rest ih =>
    obtain ⟨mid, hmid, hrest⟩ := run_cons_ok.mp h
    simp only [List.flatMap_cons, List.mem_append] at hkeys ⊢
    obtain ⟨hkeysMid, hlookup⟩ := apply_frame hmid fun x hx => hkeys x (.inl hx)
    obtain ⟨hkeysOut, hlookup'⟩ := ih hrest fun x hx => by
      rw [hkeysMid]
      exact hkeys x (.inr hx)
    refine ⟨hkeysOut.trans hkeysMid, fun x hx => ?_⟩
    rw [hlookup' x fun hr => hx (.inr hr), hlookup x fun hs => hx (.inl hs)]

/-- A value every conversion of its field returns stays where it is. -/
theorem run_fixed {x : String} {v : Json} (h : run topology steps fields = .ok out)
    (hfixed : ∀ convert, .rewrite x convert ∈ steps → convert v = .ok v)
    (hv : Json.lookup fields x = some v) : Json.lookup out x = some v := by
  induction steps generalizing fields with
  | nil =>
    have hout : fields = out := by simpa [run, pure, Except.pure] using h
    rw [← hout]
    exact hv
  | cons step rest ih =>
    obtain ⟨mid, hmid, hrest⟩ := run_cons_ok.mp h
    refine ih hrest (fun convert hmem => hfixed convert (List.mem_cons_of_mem _ hmem)) ?_
    rcases step with ⟨field, convert⟩ | ⟨reads, test⟩ | test
    · obtain ⟨value, hvalue, rfl⟩ := except_map_ok.mp hmid
      by_cases hfield : x = field
      · subst hfield
        rw [Json.getD, hv, Option.getD_some, hfixed convert List.mem_cons_self] at hvalue
        cases hvalue
        exact Json.lookup_setField fields x v
      · rw [Json.lookup_setField_of_ne hfield, hv]
    · obtain ⟨_, -, rfl⟩ := except_map_ok.mp hmid
      exact hv
    · obtain ⟨_, -, rfl⟩ := except_map_ok.mp hmid
      exact hv

/-! ## A second run -/

/-- A step reads the same, and assigns what is there already, in any later state
that agrees on the fields it reads. -/
theorem apply_again (hstable : step.Stable) (h : step.apply topology fields = .ok fields')
    (hkeys : ∀ x ∈ step.writes, x ∈ Json.keys fields) (hnodup : (Json.keys out).Nodup)
    (hsame : ∀ x ∈ step.reads, Json.lookup out x = Json.lookup fields' x) :
    step.apply topology out = .ok out := by
  rcases step with ⟨field, convert⟩ | ⟨reads, test⟩ | test
  · obtain ⟨value, hconvert, rfl⟩ := except_map_ok.mp h
    have hout : Json.lookup out field = some value := by
      rw [hsame field List.mem_cons_self]
      exact Json.lookup_setField _ _ _
    have hget : Json.getD out field = value := by rw [Json.getD, hout]; rfl
    refine except_map_ok.mpr ⟨value, ?_, Json.setField_self hnodup hout⟩
    rw [hget]
    exact hstable _ _ hconvert
  · obtain ⟨u, htest, rfl⟩ := except_map_ok.mp h
    have hread : reads.map (Json.getD out) = reads.map (Json.getD fields) := by
      apply List.map_congr_left
      intro x hx
      rw [Json.getD, hsame x hx, Json.getD]
    refine except_map_ok.mpr ⟨u, ?_, rfl⟩
    rw [hread]
    exact htest
  · obtain ⟨u, htest, rfl⟩ := except_map_ok.mp h
    exact except_map_ok.mpr ⟨u, htest, rfl⟩

/-- **A second run changes nothing.** -/
theorem run_run (hstable : ∀ step ∈ steps, step.Stable) (hsettled : Settled steps)
    (hkeys : ∀ x ∈ steps.flatMap writes, x ∈ Json.keys fields)
    (hnodup : (Json.keys fields).Nodup) (h : run topology steps fields = .ok out) :
    run topology steps out = .ok out := by
  induction steps generalizing fields with
  | nil => rfl
  | cons step rest ih =>
    rw [List.forall_mem_cons] at hstable
    obtain ⟨mid, hmid, hrest⟩ := run_cons_ok.mp h
    simp only [List.flatMap_cons, List.mem_append] at hkeys
    have hkeysMid := (apply_frame hmid fun x hx => hkeys x (.inl hx)).1
    have hkeysRest : ∀ x ∈ rest.flatMap writes, x ∈ Json.keys mid := by
      intro x hx
      rw [hkeysMid]
      exact hkeys x (.inr hx)
    obtain ⟨hkeysOut, hlookup⟩ := run_frame hrest hkeysRest
    refine run_cons_ok.mpr ⟨out, ?_, ih hstable.2 hsettled.2 hkeysRest (by rwa [hkeysMid]) hrest⟩
    -- what the step read has not been assigned since
    refine apply_again hstable.1 hmid (fun x hx => hkeys x (.inl hx)) ?_ fun x hx => ?_
    · rwa [hkeysOut, hkeysMid]
    · exact hlookup x (hsettled.1 x hx)

/-! ## A field that no step reads -/

theorem apply_setField {x : String} (value : Json) (hx : x ∉ step.reads)
    (hmem : x ∈ Json.keys fields) (hkeys : ∀ y ∈ step.writes, y ∈ Json.keys fields) :
    step.apply topology (Json.setField fields x value) =
      (step.apply topology fields).map fun out => Json.setField out x value := by
  have hget : ∀ y, y ≠ x → Json.getD (Json.setField fields x value) y = Json.getD fields y := by
    intro y hy
    rw [Json.getD, Json.lookup_setField_of_ne hy, Json.getD]
  rcases step with ⟨field, convert⟩ | ⟨reads, test⟩ | test
  · have hne : field ≠ x := fun he => hx (by simp [reads, he])
    rw [apply, hget field hne, apply]
    rcases convert (Json.getD fields field) with e | w
    · rfl
    · simp only [Except.map]
      rw [Json.setField_comm hne hmem (hkeys field List.mem_cons_self)]
  · have hread : reads.map (Json.getD (Json.setField fields x value)) =
        reads.map (Json.getD fields) := by
      apply List.map_congr_left
      intro y hy
      exact hget y fun he => hx (he ▸ hy)
    rw [apply, hread, apply]
    rcases test (reads.map (Json.getD fields)) with e | u <;> rfl
  · rw [apply, apply]
    rcases test topology with e | u <;> rfl

theorem run_setField {x : String} (value : Json) (hx : x ∉ steps.flatMap reads)
    (hmem : x ∈ Json.keys fields) (hkeys : ∀ y ∈ steps.flatMap writes, y ∈ Json.keys fields)
    (h : run topology steps fields = .ok out) :
    run topology steps (Json.setField fields x value) = .ok (Json.setField out x value) := by
  induction steps generalizing fields with
  | nil =>
    have hout : fields = out := by simpa [run, pure, Except.pure] using h
    rw [hout]
    rfl
  | cons step rest ih =>
    obtain ⟨mid, hmid, hrest⟩ := run_cons_ok.mp h
    simp only [List.flatMap_cons, List.mem_append, not_or] at hkeys hx
    have hkeysMid := (apply_frame hmid fun y hy => hkeys y (.inl hy)).1
    refine run_cons_ok.mpr ⟨Json.setField mid x value, ?_, ih hx.2 ?_ ?_ hrest⟩
    · rw [apply_setField value hx.1 hmem fun y hy => hkeys y (.inl hy), hmid]
      rfl
    · rw [hkeysMid]
      exact hmem
    · intro y hy
      rw [hkeysMid]
      exact hkeys y (.inr hy)

end InitStep

end Conductress
