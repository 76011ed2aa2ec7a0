import Conductress.Base.CpuList

/-!
# Texts of parts

A text that was put together from lines or from words, and what `split` makes of it.

* `splitOnP_intercalate` — parts without a separator come back;
* `words_intercalate` — so do words without a blank;
* `strip_of_ends` — a text with something at both ends is not stripped;
* `strip_lines` — so the newline at the end is what `strip` takes from lines.
-/

namespace Conductress.PyText

open CpuList

variable {p : Char → Bool} {sep : Char} {parts : List (List Char)}

/-- For a closed text, by evaluation: there are too many characters to try them all. -/
theorem forall_mem_of_all {P : Char → Prop} [DecidablePred P] {cs : List Char}
    (h : cs.all (fun c => decide (P c)) = true) : ∀ c ∈ cs, P c := by
  intro c hc
  exact of_decide_eq_true (List.all_eq_true.mp h c hc)

theorem forall_head_of_all {P : Char → Prop} [DecidablePred P] {cs : List Char}
    (h : cs.head?.all (fun c => decide (P c)) = true) : ∀ c ∈ cs.head?, P c := by
  intro c hc
  rw [Option.mem_def.mp hc] at h
  exact of_decide_eq_true h

theorem splitOnP_intercalate (hsep : p sep = true) (h : ∀ part ∈ parts, ∀ c ∈ part, p c = false)
    (hne : parts ≠ []) : ([sep].intercalate parts).splitOnP p = parts := by
  induction parts with
  | nil => exact absurd rfl hne
  | cons part rest ih =>
    obtain ⟨hpart, hrest⟩ := List.forall_mem_cons.mp h
    cases rest with
    | nil => rw [List.intercalate_singleton, List.splitOnP_eq_singleton hpart]
    | cons next rest =>
      rw [List.intercalate_cons_cons, List.append_assoc, List.singleton_append,
        List.splitOnP_append_cons_of_forall_mem hpart sep hsep,
        ih hrest (List.cons_ne_nil next rest)]

theorem prefix_intercalate (part : List Char) (rest : List (List Char)) :
    part <+: [sep].intercalate (part :: rest) := by
  cases rest with
  | nil =>
    rw [List.intercalate_singleton]
  | cons next rest =>
    rw [List.intercalate_cons_cons, List.append_assoc]
    exact List.prefix_append _ _

theorem not_mem_intercalate {c : Char} (hsep : c ≠ sep) (h : ∀ part ∈ parts, c ∉ part) :
    c ∉ [sep].intercalate parts := by
  induction parts with
  | nil => exact List.not_mem_nil
  | cons part rest ih =>
    obtain ⟨hpart, hrest⟩ := List.forall_mem_cons.mp h
    cases rest with
    | nil => rwa [List.intercalate_singleton]
    | cons next rest =>
      rw [List.intercalate_cons_cons]
      intro hmem
      rcases List.mem_append.mp hmem with hmem | hmem
      · rcases List.mem_append.mp hmem with hmem | hmem
        · exact hpart hmem
        · exact hsep (List.mem_singleton.mp hmem)
      · exact ih hrest hmem

/-- Words with a blank between them, as `split` finds them. -/
theorem words_intercalate {words : List (List Char)}
    (h : ∀ word ∈ words, word ≠ [] ∧ ∀ c ∈ word, isSpace c = false) :
    (([' '].intercalate words).splitOnP isSpace).filter (fun word => !word.isEmpty) = words := by
  have hkept : words.filter (fun word => !word.isEmpty) = words := by
    refine List.filter_eq_self.mpr fun word hword => ?_
    rw [List.isEmpty_eq_false_iff.mpr (h word hword).1]
    rfl
  by_cases hne : words = []
  · subst hne
    rfl
  · rw [splitOnP_intercalate (by decide) (fun word hword => (h word hword).2) hne, hkept]

/-- Nothing is stripped from a text that starts and ends with other characters. -/
theorem strip_of_ends {cs : List Char} (hhead : ∀ c ∈ cs.head?, isSpace c = false)
    (hlast : ∀ c ∈ cs.getLast?, isSpace c = false) : strip cs = cs := by
  have hdrop : ∀ l : List Char, (∀ c ∈ l.head?, isSpace c = false) → l.dropWhile isSpace = l := by
    intro l hl
    cases l with
    | nil => rfl
    | cons c l => rw [List.dropWhile_cons, if_neg (by simp [hl c rfl])]
  unfold strip
  rw [hdrop cs hhead, hdrop cs.reverse, List.reverse_reverse]
  rw [List.head?_reverse]
  exact hlast

theorem suffix_intercalate (front : List (List Char)) (last : List Char) :
    last <:+ [sep].intercalate (front ++ [last]) := by
  induction front with
  | nil =>
    rw [List.nil_append, List.intercalate_singleton]
  | cons part front ih =>
    rw [List.cons_append, List.intercalate_cons_of_ne_nil (List.append_ne_nil_of_right_ne_nil _
      (List.cons_ne_nil _ _))]
    exact ih.trans (List.suffix_append _ _)

/-- Lines that are ended are lines with separators between them, and one more at the end. -/
theorem flatMap_ended (hne : parts ≠ []) :
    parts.flatMap (· ++ [sep]) = [sep].intercalate parts ++ [sep] := by
  induction parts with
  | nil => exact absurd rfl hne
  | cons part rest ih =>
    cases rest with
    | nil => rw [List.flatMap_singleton, List.intercalate_singleton]
    | cons next rest =>
      rw [List.flatMap_cons, ih (List.cons_ne_nil next rest), List.intercalate_cons_cons,
        List.append_assoc, List.append_assoc, List.append_assoc]

/-- **Lines** that are ended, stripped. -/
theorem strip_lines (hhead : ∃ line ∈ parts.head?, ∃ c ∈ line.head?, isSpace c = false)
    (hlast : ∃ line ∈ parts.getLast?, ∃ c ∈ line.getLast?, isSpace c = false) :
    strip (parts.flatMap (· ++ ['\n'])) = ['\n'].intercalate parts := by
  obtain ⟨first, hfirst, c, hc, hcspace⟩ := hhead
  obtain ⟨last, hlast, d, hd, hdspace⟩ := hlast
  have hne : parts ≠ [] := by
    rintro rfl
    cases hfirst
  rw [flatMap_ended hne, strip_append_blank (List.forall_mem_singleton.mpr (by decide))]
  refine strip_of_ends (fun b hb => ?_) fun b hb => ?_
  · obtain ⟨rest, rfl⟩ := List.head?_eq_some_iff.mp hfirst
    obtain ⟨back, hback⟩ := @prefix_intercalate '\n' first rest
    rw [← hback, List.head?_append, hc, Option.some_or] at hb
    cases hb
    exact hcspace
  · obtain ⟨front, rfl⟩ := List.getLast?_eq_some_iff.mp hlast
    obtain ⟨fore, hfore⟩ := @suffix_intercalate '\n' front last
    rw [← hfore, List.getLast?_append, hd, Option.some_or] at hb
    cases hb
    exact hdspace

end Conductress.PyText
