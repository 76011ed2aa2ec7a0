import Mathlib.Data.Finset.Card
import Mathlib.Data.Finset.Range
import Mathlib.Data.List.Infix
import Mathlib.Tactic.Cases

/-!
# Occurrences of a text

Where a text occurs in another one, and what becomes of the number of its occurrences
when the other one is read in pieces.

* `strCount_eq` — Python's `str.count` takes the occurrences from the left, none twice;
  for a text that does not overlap itself it finds them all;
* `occurrences_translates` — a decoding that keeps the text's own characters apart from
  all others keeps their number;
* `sumBetween_eq_iff` — the pieces have all the occurrences, if and only if no border
  between them is inside one.
-/

namespace Conductress.Lib

variable {α β : Type*} {m l l' : List α} {a : α}

/-- An occurrence begins with the first character of the text. -/
theorem not_prefix_of_ne {b : α} (h : a ≠ b) : ¬ a :: m <+: b :: l := fun hp =>
  h (List.cons_prefix_cons.mp hp).1

/-! ## Counting -/

section Counting

variable [DecidableEq α]

/-- At how many places the text occurs. -/
def occurrences (m : List α) : List α → ℕ
  | [] => 0
  | a :: l => (if m <+: a :: l then 1 else 0) + occurrences m l

/-- The rest of `str.count`, with so many characters of an occurrence ahead. -/
def strCountFrom (m : List α) : ℕ → List α → ℕ
  | _, [] => 0
  | k + 1, _ :: l => strCountFrom m k l
  | 0, a :: l => if m <+: a :: l then 1 + strCountFrom m (m.length - 1) l else strCountFrom m 0 l

/-- `str.count`, for a text that is not empty. -/
def strCount (m l : List α) : ℕ := strCountFrom m 0 l

/-- Nothing begins among characters of which none is the first one of the text. -/
theorem occurrences_append_of_not_mem (h : a ∉ l) :
    occurrences (a :: m) (l ++ l') = occurrences (a :: m) l' := by
  induction l with
  | nil => rfl
  | cons b l ih =>
    have hb : a ≠ b := List.ne_of_not_mem_cons h
    rw [List.cons_append, occurrences, if_neg (not_prefix_of_ne hb),
      ih (List.not_mem_of_not_mem_cons h), Nat.zero_add]

theorem strCountFrom_skip (k : ℕ) (l : List α) : strCountFrom m k l = strCountFrom m 0 (l.drop k) := by
  induction l generalizing k with
  | nil => cases k <;> rfl
  | cons b l ih =>
    cases k with
    | zero => rfl
    | succ k => exact ih k

/-- **`str.count` finds every occurrence** of a text whose first character does not come
again in it. -/
theorem strCount_eq (h : a ∉ m) : strCount (a :: m) l = occurrences (a :: m) l := by
  unfold strCount
  induction hn : l.length using Nat.strong_induction_on generalizing l with
  | _ n ih =>
    cases l with
    | nil => rfl
    | cons b l =>
      rw [strCountFrom, occurrences]
      rw [List.length_cons] at hn
      by_cases hp : a :: m <+: b :: l
      · rw [if_pos hp, if_pos hp, List.length_cons, Nat.add_sub_cancel, strCountFrom_skip]
        obtain ⟨rest, hrest⟩ := (List.cons_prefix_cons.mp hp).2
        -- the rest of the occurrence has no other one
        rw [← hrest, List.drop_left, occurrences_append_of_not_mem h]
        refine congrArg (1 + ·) (ih rest.length ?_ rfl)
        rw [← hrest, List.length_append] at hn
        omega
      · rw [if_neg hp, if_neg hp, Nat.zero_add]
        exact ih l.length (by omega) rfl

end Counting

/-! ## Decoding -/

/-- A decoding: characters are kept, or some that are not of the text become one that is not. -/
inductive Translates (code : α → β) (m : List α) : List α → List β → Prop
  | nil : Translates code m [] []
  | keep {a : α} {l : List α} {t : List β} (hinj : ∀ x ∈ m, code x = code a → x = a) :
      Translates code m l t → Translates code m (a :: l) (code a :: t)
  | skip {a : α} {s l : List α} {c : β} {t : List β} (hs : ∀ x ∈ a :: s, x ∉ m)
      (hc : c ∉ m.map code) : Translates code m l t → Translates code m (a :: s ++ l) (c :: t)

section Decoding

variable {code : α → β} {t : List β}

theorem prefix_translates (h : Translates code m l t) {m' : List α} (hm : ∀ x ∈ m', x ∈ m) :
    m'.map code <+: t ↔ m' <+: l := by
  induction h generalizing m' with
  | nil =>
    rw [List.prefix_nil, List.prefix_nil, List.map_eq_nil_iff]
  | @keep a l t hinj _ ih =>
    cases m' with
    | nil => exact ⟨fun _ => List.nil_prefix, fun _ => List.nil_prefix⟩
    | cons x m' =>
      obtain ⟨hx, hm'⟩ := List.forall_mem_cons.mp hm
      rw [List.map_cons, List.cons_prefix_cons, List.cons_prefix_cons, ih hm']
      exact and_congr_left fun _ => ⟨hinj x hx, congrArg code⟩
  | @skip a s l c t hs hc _ _ =>
    cases m' with
    | nil => exact ⟨fun _ => List.nil_prefix, fun _ => List.nil_prefix⟩
    | cons x m' =>
      have hx := hm x List.mem_cons_self
      constructor
      · intro hp
        have hxc : code x = c := (List.cons_prefix_cons.mp hp).1
        exact absurd (hxc ▸ List.mem_map_of_mem hx) hc
      · intro hp
        have hxa : x = a := (List.cons_prefix_cons.mp hp).1
        exact absurd (hxa ▸ hx) (hs a List.mem_cons_self)

/-- **Decoding keeps the number** of occurrences. -/
theorem occurrences_translates [DecidableEq α] [DecidableEq β] (h : Translates code m l t) (hm : m ≠ []) :
    occurrences (m.map code) t = occurrences m l := by
  obtain ⟨x, m, rfl⟩ := List.exists_cons_of_ne_nil hm
  induction h with
  | nil => rfl
  | keep hinj hrest ih =>
    have hp := prefix_translates (.keep hinj hrest) fun y hy => hy
    rw [occurrences, occurrences, ih]
    simp only [hp]
  | @skip a s l c t hs hc hrest ih =>
    have hx : x ∉ a :: s := fun hmem => hs x hmem List.mem_cons_self
    have hcx : code x ≠ c := fun heq => hc (heq ▸ List.mem_map_of_mem List.mem_cons_self)
    rw [occurrences_append_of_not_mem hx, ← ih, List.map_cons, occurrences,
      if_neg (not_prefix_of_ne hcx), Nat.zero_add]

end Decoding

/-! ## Pieces -/

section Pieces

variable [DecidableEq α] {log : List α} {lo mid hi p k : ℕ}

/-- Where the text occurs between two places. -/
def occursBetween (m log : List α) (lo hi : ℕ) : Finset ℕ :=
  (Finset.range log.length).filter fun p => lo ≤ p ∧ p + m.length ≤ hi ∧ m <+: log.drop p

theorem mem_occursBetween : p ∈ occursBetween m log lo hi ↔
    p < log.length ∧ lo ≤ p ∧ p + m.length ≤ hi ∧ m <+: log.drop p := by
  rw [occursBetween, Finset.mem_filter, Finset.mem_range]

/-- The text occurs in what is between two places as often as between them. -/
theorem occurrences_slice (hm : m ≠ []) (hlo : lo ≤ hi) (hhi : hi ≤ log.length) :
    occurrences m ((log.take hi).drop lo) = (occursBetween m log lo hi).card := by
  have hpos : 0 < m.length := List.length_pos_iff.mpr hm
  induction hn : hi - lo generalizing lo with
  | zero =>
    have heq : lo = hi := by omega
    have hnil : (log.take hi).drop lo = [] := by
      rw [List.drop_eq_nil_iff, List.length_take]
      omega
    have hempty : occursBetween m log lo hi = ∅ := by
      refine Finset.eq_empty_of_forall_notMem fun p hp => ?_
      obtain ⟨-, hge, hle, -⟩ := mem_occursBetween.mp hp
      omega
    rw [hnil, hempty, Finset.card_empty]
    rfl
  -- an occurrence at the first place is counted apart from those after it
  | succ n ih =>
    have hlt : lo < (log.take hi).length := by
      rw [List.length_take]
      omega
    -- an occurrence in the piece is one in the whole that ends before the piece does
    have hfrom : m <+: (log.take hi).drop lo ↔ lo + m.length ≤ hi ∧ m <+: log.drop lo := by
      rw [List.drop_take, List.prefix_take_iff]
      constructor
      · exact fun h => ⟨by omega, h.1⟩
      · exact fun h => ⟨h.2, by omega⟩
    rw [List.drop_eq_getElem_cons hlt, occurrences, ← List.drop_eq_getElem_cons hlt,
      ih (by omega) (by omega)]
    by_cases hhere : lo + m.length ≤ hi ∧ m <+: log.drop lo
    · have hinsert : occursBetween m log lo hi = insert lo (occursBetween m log (lo + 1) hi) := by
        ext p
        rw [Finset.mem_insert, mem_occursBetween, mem_occursBetween]
        constructor
        · rintro ⟨hp, hge, hle, hprefix⟩
          by_cases heq : p = lo
          · exact .inl heq
          · exact .inr ⟨hp, by omega, hle, hprefix⟩
        · rintro (rfl | ⟨hp, hge, hle, hprefix⟩)
          · exact ⟨by omega, le_refl p, hhere⟩
          · exact ⟨hp, by omega, hle, hprefix⟩
      have hnot : lo ∉ occursBetween m log (lo + 1) hi := by
        intro hmem
        have hge := (mem_occursBetween.mp hmem).2.1
        omega
      rw [if_pos (hfrom.mpr hhere), hinsert, Finset.card_insert_of_notMem hnot, Nat.add_comm]
    · have hsame : occursBetween m log lo hi = occursBetween m log (lo + 1) hi := by
        ext p
        rw [mem_occursBetween, mem_occursBetween]
        constructor
        · rintro ⟨hp, hge, hle, hprefix⟩
          have hne : p ≠ lo := by
            rintro rfl
            exact hhere ⟨hle, hprefix⟩
          exact ⟨hp, by omega, hle, hprefix⟩
        · rintro ⟨hp, hge, hle, hprefix⟩
          exact ⟨hp, by omega, hle, hprefix⟩
      rw [if_neg fun h => hhere (hfrom.mp h), hsame, Nat.zero_add]

/-- An occurrence at one place has another place inside it. -/
def Across (m : List α) (p k : ℕ) : Prop := p < k ∧ k < p + m.length

omit [DecidableEq α] in
instance (m : List α) (k : ℕ) : DecidablePred (Across m · k) := fun p =>
  inferInstanceAs (Decidable (p < k ∧ k < p + m.length))

/-- **A place in between** divides the occurrences, but for those it is inside of. -/
theorem card_split (hm : m ≠ []) (hlo : lo ≤ mid) (hhi : mid ≤ hi) :
    (occursBetween m log lo mid).card + (occursBetween m log mid hi).card +
        ((occursBetween m log lo hi).filter (Across m · mid)).card =
      (occursBetween m log lo hi).card := by
  have hpos : 0 < m.length := List.length_pos_iff.mpr hm
  -- an occurrence is not on both sides, since the text is not empty
  have hdisjoint : Disjoint (occursBetween m log lo mid) (occursBetween m log mid hi) := by
    refine Finset.disjoint_left.mpr fun p hp hp' => ?_
    obtain ⟨-, -, hle, -⟩ := mem_occursBetween.mp hp
    obtain ⟨-, hge, -, -⟩ := mem_occursBetween.mp hp'
    omega
  have hacross : Disjoint (occursBetween m log lo mid ∪ occursBetween m log mid hi)
      ((occursBetween m log lo hi).filter (Across m · mid)) := by
    refine Finset.disjoint_left.mpr fun p hp hp' => ?_
    obtain ⟨-, hbefore, hafter⟩ := Finset.mem_filter.mp hp'
    rcases Finset.mem_union.mp hp with hp | hp
    · obtain ⟨-, -, hle, -⟩ := mem_occursBetween.mp hp
      omega
    · obtain ⟨-, hge, -, -⟩ := mem_occursBetween.mp hp
      omega
  rw [← Finset.card_union_of_disjoint hdisjoint, ← Finset.card_union_of_disjoint hacross]
  congr 1
  ext p
  rw [Finset.mem_union, Finset.mem_union, Finset.mem_filter, mem_occursBetween, mem_occursBetween,
    mem_occursBetween]
  constructor
  · rintro ((⟨hp, hge, hle, hprefix⟩ | ⟨hp, hge, hle, hprefix⟩) | ⟨hmem, -⟩)
    · exact ⟨hp, hge, by omega, hprefix⟩
    · exact ⟨hp, by omega, hle, hprefix⟩
    · exact hmem
  · rintro ⟨hp, hge, hle, hprefix⟩
    -- it ends before the place, begins after it, or is across it
    by_cases hbefore : p + m.length ≤ mid
    · exact .inl (.inl ⟨hp, hge, hbefore, hprefix⟩)
    · by_cases hafter : mid ≤ p
      · exact .inl (.inr ⟨hp, hafter, hle, hprefix⟩)
      · exact .inr ⟨⟨hp, hge, hle, hprefix⟩, by omega, by omega⟩

/-- How often the text occurs in the pieces up to the places of a list. -/
def sumBetween (m log : List α) : ℕ → List ℕ → ℕ
  | _, [] => 0
  | lo, k :: ks => (occursBetween m log lo k).card + sumBetween m log k ks

/-- The last place of a list. -/
def lastPlace (lo : ℕ) (ks : List ℕ) : ℕ := ks.getLast?.getD lo

theorem lastPlace_cons (ks : List ℕ) : lastPlace lo (k :: ks) = lastPlace k ks := by
  unfold lastPlace
  rw [List.getLast?_cons]
  rfl

theorem le_lastPlace {ks : List ℕ} (h : (lo :: ks).Pairwise (· ≤ ·)) : lo ≤ lastPlace lo ks := by
  unfold lastPlace
  cases hlast : ks.getLast? with
  | none => exact le_refl lo
  | some k => exact (List.pairwise_cons.mp h).1 k (List.mem_of_getLast? hlast)

/-- **The pieces** have no more occurrences than the whole, and all of them if and only if no
place between two pieces is inside one. -/
theorem sumBetween_eq_iff (hm : m ≠ []) {ks : List ℕ} (h : (lo :: ks).Pairwise (· ≤ ·)) :
    sumBetween m log lo ks ≤ (occursBetween m log lo (lastPlace lo ks)).card ∧
      (sumBetween m log lo ks = (occursBetween m log lo (lastPlace lo ks)).card ↔
        ∀ k ∈ ks, ∀ p ∈ occursBetween m log lo (lastPlace lo ks), ¬ Across m p k) := by
  induction ks generalizing lo with
  | nil =>
    have hpos : 0 < m.length := List.length_pos_iff.mpr hm
    have hempty : occursBetween m log lo lo = ∅ := by
      refine Finset.eq_empty_of_forall_notMem fun p hp => ?_
      obtain ⟨-, hge, hle, -⟩ := mem_occursBetween.mp hp
      omega
    show 0 ≤ (occursBetween m log lo lo).card ∧ (0 = (occursBetween m log lo lo).card ↔ _)
    rw [hempty]
    exact ⟨le_refl 0, fun _ k hk => absurd hk List.not_mem_nil, fun _ => rfl⟩
  | cons k ks ih =>
    obtain ⟨hlo, hks⟩ := List.pairwise_cons.mp h
    obtain ⟨hle, hiff⟩ := ih hks
    have hlast := le_lastPlace hks
    have hsplit : _ = (occursBetween m log lo (lastPlace k ks)).card :=
      card_split hm (hlo k List.mem_cons_self) hlast
    rw [lastPlace_cons, sumBetween]
    refine ⟨by omega, ?_⟩
    constructor
    · intro heq
      have hnone : ((occursBetween m log lo (lastPlace k ks)).filter (Across m · k)).card = 0 := by
        omega
      -- if all are found, none is lost at the first place and none at the later ones
      have hrest := hiff.mp (by omega)
      have hacross := Finset.filter_eq_empty_iff.mp (Finset.card_eq_zero.mp hnone)
      intro k' hk' p hp
      rcases List.mem_cons.mp hk' with rfl | hlater
      · exact hacross hp
      · -- an occurrence is on one side of the first place
        have hkk' := (List.pairwise_cons.mp hks).1 k' hlater
        obtain ⟨hlength, hge, hend, hprefix⟩ := mem_occursBetween.mp hp
        intro hin
        by_cases hafter : k ≤ p
        · exact hrest k' hlater p (mem_occursBetween.mpr ⟨hlength, hafter, hend, hprefix⟩) hin
        · exact hacross hp ⟨by omega, by have := hin.2; omega⟩
    · intro hall
      have hnone : (occursBetween m log lo (lastPlace k ks)).filter (Across m · k) = ∅ :=
        Finset.filter_eq_empty_iff.mpr fun p hp => hall k List.mem_cons_self p hp
      have hrest := hiff.mpr fun k' hk' p hp => by
        obtain ⟨hlength, hge, hend, hprefix⟩ := mem_occursBetween.mp hp
        have hlok := hlo k List.mem_cons_self
        exact hall k' (List.mem_cons_of_mem k hk') p
          (mem_occursBetween.mpr ⟨hlength, by omega, hend, hprefix⟩)
      rw [hnone, Finset.card_empty] at hsplit
      omega

end Pieces

end Conductress.Lib
