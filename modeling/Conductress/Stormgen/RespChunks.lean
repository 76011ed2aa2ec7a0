import Conductress.Stormgen.RespProgress

/-!
# Replies cut into chunks

The parser starts over at the front of the buffer on every call, so a part of
the stream has to read as the whole does, or wait (`parseAt_append`). Only the
bounds of a bulk string can tell the two apart: an end before the buffer's first
byte is an offset from the buffer's last one (`EndsBefore`).

`chunks_agree` — the cuts do not matter where no such bulk string is read.
-/

namespace Conductress.Stormgen.ReplyParser

open Lib

variable {buf rest : Bytes} {depth : ℕ} {start after : ℤ} {marker payload : Bytes}

/-! ## Bytes that arrive later -/

theorem slice_append {i j : ℤ} (hi : 0 ≤ i) (hin : i ≤ buf.length) (hj : 0 ≤ j)
    (hjn : j ≤ buf.length) : slice (buf ++ rest) i j = slice buf i j := by
  have hstop : sliceIndex (buf ++ rest).length j = sliceIndex buf.length j := by
    rw [sliceIndex, sliceIndex, if_neg (by omega), if_neg (by omega), List.length_append]
    omega
  have hfrom : sliceIndex (buf ++ rest).length i = sliceIndex buf.length i := by
    rw [sliceIndex, sliceIndex, if_neg (by omega), if_neg (by omega), List.length_append]
    omega
  rw [slice, slice, hstop, hfrom, List.take_append_of_le_length]
  rw [sliceIndex, if_neg (by omega)]
  omega

theorem crlfIndex_append : ∀ {bytes : Bytes} {k : ℕ}, crlfIndex bytes = some k →
    crlfIndex (bytes ++ rest) = some k
  | [], _, h => by simp [crlfIndex] at h
  | [x], _, h => by simp [crlfIndex] at h
  | x :: y :: tail, k, h => by
    by_cases hcrlf : x = 13 ∧ y = 10
    · obtain ⟨rfl, rfl⟩ := hcrlf
      exact h
    · have hcons : ∀ more : Bytes,
          crlfIndex (x :: y :: more) = (crlfIndex (y :: more)).map (· + 1) := by
        intro more
        rw [crlfIndex]
        intro tail' hx hy
        simp_all
      rw [hcons] at h
      obtain ⟨i, hi, rfl⟩ := Option.map_eq_some_iff.mp h
      have hrest := crlfIndex_append hi
      rw [List.cons_append, List.cons_append, hcons, ← List.cons_append, hrest]
      rfl

/-- A header that is there stays as it is. -/
theorem Header.append (h : Header buf start marker payload after) (hstart : 0 ≤ start) :
    Header (buf ++ rest) start marker payload after := by
  have hinside := h.inside
  have hend := h.bounds.2.1
  obtain ⟨idx, hidx, hpayload, hafter⟩ := readLine_eq_some.mp h.line
  refine ⟨by rw [List.length_append]; omega, ?_, readLine_eq_some.mpr ⟨idx, ?_, ?_, hafter⟩⟩
  · rw [slice_append (by omega) (by omega) (by omega) (by omega)]
    exact h.marker_eq
  · rw [findCrlf, if_neg (by omega)] at hidx ⊢
    obtain ⟨k, hk, rfl⟩ := Option.map_eq_some_iff.mp hidx
    rw [List.drop_append_of_le_length (by omega), crlfIndex_append hk]
    rfl
  · rw [slice_append (by omega) (by omega) (by omega) (by omega)]
    exact hpayload

/-! ## A part of the stream -/

/-- A bulk string whose bounds end before the first byte of the buffer. -/
def EndsBefore (buf : Bytes) (start : ℤ) : Prop :=
  ∃ length after, BulkAt buf start length after ∧ after + length < 0

/-- From a part of `n` bytes: nothing yet, or the answer from the whole, with a
next offset within the part. -/
def Follows {β : Type*} (n : ℕ) (part whole : Except ParseError (Option (β × ℤ))) : Prop :=
  part = .ok none ∨
    part = whole ∧ ∀ value next, part = .ok (some (value, next)) → 0 < next ∧ next ≤ n

theorem Follows.refl {β : Type*} {n : ℕ} {answer : Except ParseError (Option (β × ℤ))}
    (h : ∀ value next, answer = .ok (some (value, next)) → 0 < next ∧ next ≤ n) :
    Follows n answer answer :=
  .inr ⟨rfl, h⟩

theorem Follows.error {β : Type*} {n : ℕ} {e : ParseError} :
    Follows n (.error e : Except ParseError (Option (β × ℤ))) (.error e) :=
  .refl fun value next h => by cases h

theorem Follows.value {β : Type*} {n : ℕ} {value : β} (hlow : 0 < after) (hhigh : after ≤ n) :
    Follows n (.ok (some (value, after))) (.ok (some (value, after))) := by
  refine .refl fun value' next h => ?_
  obtain ⟨-, rfl⟩ := Prod.mk.inj (Option.some.inj (Except.ok.inj h))
  exact ⟨hlow, hhigh⟩

theorem Follows.map {α β : Type*} {n : ℕ} {answer : Except ParseError α} {f : α → β}
    (hlow : 0 < after) (hhigh : after ≤ n) :
    Follows n (answer.map fun value => some (f value, after))
      (answer.map fun value => some (f value, after)) := by
  cases answer with
  | error e => exact .error
  | ok value => exact .value hlow hhigh

theorem elementsFrom_follows {parse parse' : ℤ → Except ParseError Parsed} {n left : ℕ}
    {offset : ℤ} {parsed : List Reply}
    (h : ∀ s, ElementAt parse' left offset s → 0 < s → Follows n (parse s) (parse' s))
    (hlow : 0 < offset) (hhigh : offset ≤ n) :
    Follows n (elementsFrom parse left offset parsed) (elementsFrom parse' left offset parsed) := by
  induction left generalizing offset parsed with
  | zero =>
    rw [elementsFrom, elementsFrom]
    exact .value hlow hhigh
  | succ left ih =>
    rcases h offset (.here left offset) hlow with hwaits | ⟨hsame, hnext⟩
    · left
      rw [elementsFrom, hwaits]
    · cases hparse : parse offset with
      | error e =>
        rw [elementsFrom, elementsFrom, ← hsame, hparse]
        exact .error
      | ok answer =>
        cases answer with
        | none =>
          left
          rw [elementsFrom, hparse]
        | some answer =>
          obtain ⟨value, next⟩ := answer
          obtain ⟨hlow', hhigh'⟩ := hnext value next hparse
          have hparse' : parse' offset = .ok (some (value, next)) := hsame ▸ hparse
          rw [elementsFrom, elementsFrom, hparse', hparse]
          exact ih (fun s hs => h s (.later hparse' hs)) hlow' hhigh'

theorem bulk_follows (hlow : 0 < after) (hhigh : after ≤ buf.length)
    (h : ∀ length, headerInt payload = .ok length → 0 ≤ after + length) :
    Follows buf.length (bulk buf payload after) (bulk (buf ++ rest) payload after) := by
  rw [bulk_eq, bulk_eq]
  cases hlength : headerInt payload with
  | error e => exact .error
  | ok length =>
    have hstop := h length hlength
    simp only [bind, Except.bind]
    by_cases hnull : length = -1
    · rw [if_pos hnull, if_pos hnull]
      exact .value hlow hhigh
    · rw [if_neg hnull, if_neg hnull]
      by_cases hmore : (buf.length : ℤ) < after + length + 2
      -- the part is too short for the payload: it waits
      · exact .inl (if_pos hmore)
      · rw [if_neg hmore, if_neg (by rw [List.length_append]; omega),
          slice_append (by omega) hhigh hstop (by omega)]
        exact .map (by omega) (by omega)

theorem aggregate_follows {parse parse' : ℤ → Except ParseError Parsed} {n : ℕ} {mapping : Bool}
    (hlow : 0 < after) (hhigh : after ≤ n)
    (h : ∀ count s, headerInt payload = .ok count → count ≠ -1 →
      ElementAt parse' (if mapping then count * 2 else count).toNat after s → 0 < s →
      Follows n (parse s) (parse' s)) :
    Follows n (aggregate parse payload after mapping) (aggregate parse' payload after mapping) := by
  rw [aggregate_eq, aggregate_eq]
  cases hcount : headerInt payload with
  | error e => exact .error
  | ok count =>
    simp only [bind, Except.bind]
    by_cases hnull : count = -1
    · rw [if_pos hnull, if_pos hnull]
      exact .value hlow hhigh
    · rw [if_neg hnull, if_neg hnull]
      have helements : Follows n
          (elementsFrom parse (if mapping then count * 2 else count).toNat after [])
          (elementsFrom parse' (if mapping then count * 2 else count).toNat after []) :=
        elementsFrom_follows (fun s hs => h count s hcount hnull hs) hlow hhigh
      -- an element that waits makes the aggregate wait
      rcases helements with hwaits | ⟨hsame, hlast⟩
      · left
        rw [hwaits]
      · rw [← hsame]
        cases hdone : elementsFrom parse (if mapping then count * 2 else count).toNat after [] with
        | error e => exact .error
        | ok answer =>
          cases answer with
          | none => exact .inl rfl
          | some answer =>
            obtain ⟨parsed, offset⟩ := answer
            obtain ⟨hlow', hhigh'⟩ := hlast parsed offset hdone
            exact .map hlow' hhigh'

/-- **A part reads as the whole, or waits**: where the whole has no bulk string
that ends before the buffer does. -/
theorem parseAt_append (hstart : 0 ≤ start)
    (h : ∀ d s, Visits (buf ++ rest) depth start (d + 1) s → ¬ EndsBefore (buf ++ rest) s) :
    Follows buf.length (parseAt buf depth start) (parseAt (buf ++ rest) depth start) := by
  induction depth generalizing start with
  | zero => exact .error
  | succ depth ih =>
    by_cases hheader : ∃ marker payload after, Header buf start marker payload after
    · obtain ⟨marker, payload, after, hheader⟩ := hheader
      have hheader' : Header (buf ++ rest) start marker payload after := hheader.append hstart
      have hlow : 0 < after := by have := hheader.bounds.1; omega
      have hhigh := hheader.bounds.2.1
      have helement : ∀ {elements s}, AggregateAt (buf ++ rest) start elements after →
          ElementAt (parseAt (buf ++ rest) depth) elements after s → 0 < s →
          Follows buf.length (parseAt buf depth s) (parseAt (buf ++ rest) depth s) :=
        fun haggregate hs hpos =>
          ih (by omega) fun d t hvisit => h d t (.element haggregate hs hvisit)
      rw [parseAt_header hheader, parseAt_header hheader', valueAfter, valueAfter]
      split_ifs with hscalar hnull hbulk harray hmap
      · exact .map hlow hhigh
      · exact .value hlow hhigh
      · subst hbulk
        refine bulk_follows hlow hhigh fun length hlength => ?_
        -- bounds before the first byte are the one case in which part and whole differ
        by_contra hneg
        exact h depth start (.self _ _) ⟨length, after, ⟨payload, hheader', hlength⟩, by omega⟩
      · exact aggregate_follows hlow hhigh fun count s hcount hne =>
          helement ⟨marker, payload, count, hheader', hcount, hne, .inl ⟨harray, rfl⟩⟩
      · exact aggregate_follows hlow hhigh fun count s hcount hne =>
          helement ⟨marker, payload, count, hheader', hcount, hne, .inr ⟨hmap, rfl⟩⟩
      · exact .error
    · push Not at hheader
      exact .inl (parseAt_noHeader hheader)

/-! ## Feeding the chunks -/

/-- An incomplete reply leaves the buffer as it is. -/
theorem tryParse_none {left : Bytes} :
    tryParse depth buf = .ok (none, left) ↔ parseAt buf depth 0 = .ok none ∧ left = buf := by
  unfold tryParse
  cases parseAt buf depth 0 with
  | error e => simp [Except.map]
  | ok answer =>
    cases answer with
    | none => simp [Except.map, eq_comm]
    | some answer => simp [Except.map]

theorem tryParse_error {e : ParseError} (h : parseAt buf depth 0 = .error e) :
    tryParse depth buf = .error e := by
  rw [tryParse, h]
  rfl

/-- A call of `try_parse` on a part of the buffer waits, or answers as on the whole. -/
theorem stable_tryParse {whole : Bytes}
    (h : ∀ d s, Visits whole depth 0 (d + 1) s → ¬ EndsBefore whole s) :
    Stable (tryParse depth) whole := by
  rintro buf rest rfl
  have hfollows := parseAt_append (le_refl 0) h
  cases hparse : parseAt buf depth 0 with
  | error e =>
    obtain hwaits | ⟨hsame, -⟩ := hfollows
    · simp [hparse] at hwaits
    · exact .inr (.inl ⟨e, tryParse_error hparse, tryParse_error (hsame ▸ hparse)⟩)
  | ok answer =>
    cases answer with
    | none => exact .inl (tryParse_none.mpr ⟨hparse, rfl⟩)
    | some answer =>
      obtain ⟨value, next⟩ := answer
      obtain hwaits | ⟨hsame, hnext⟩ := hfollows
      · simp [hparse] at hwaits
      obtain ⟨hlow, hhigh⟩ := hnext value next hparse
      -- the offset lies within the part, so it cuts the part and the whole at one place
      have hindex : ∀ n : ℕ, buf.length ≤ n → sliceIndex n next = next.toNat := by
        intro n hn
        rw [sliceIndex, if_neg (by omega)]
        omega
      refine .inr (.inr ⟨value, buf.drop next.toNat, ?_, ?_, ?_⟩)
      · exact tryParse_some.mpr ⟨next, hparse, by rw [hindex _ (le_refl _)]⟩
      · refine tryParse_some.mpr ⟨next, hsame ▸ hparse, ?_⟩
        rw [hindex _ (by rw [List.length_append]; omega), List.drop_append_of_le_length (by omega)]
      · rw [List.length_drop]
        omega

/-- **The cuts do not matter**: a stream in which no bulk string that is read ends
before the buffer does gives the same replies and the same ending however it is
cut, and a call that finds no reply leaves the buffer as it is. -/
theorem chunks_agree {stream : Bytes}
    (h : ∀ whole, Reaches (tryParse depth) stream whole →
      ∀ d s, Visits whole depth 0 (d + 1) s → ¬ EndsBefore whole s) :
    (∀ first rest, first ++ rest.flatten = stream →
      ∃ values ending, Fed (tryParse depth) first rest values ending ∧
        Fed (tryParse depth) stream [] values ending) ∧
    ∀ buf left, tryParse depth buf = .ok (none, left) → left = buf := by
  constructor
  · rintro first rest rfl
    exact Fed.of_stable fun whole hwhole => stable_tryParse (h whole hwhole)
  · intro buf left htry
    exact (tryParse_none.mp htry).2

theorem BulkAt.mem {length : ℤ} (h : BulkAt buf start length after) : 36 ∈ buf := by
  obtain ⟨payload, hheader, -⟩ := h
  have hmem : (36 : UInt8) ∈ slice buf start (start + 1) := by
    rw [hheader.marker_eq]
    exact List.mem_singleton_self 36
  exact List.mem_of_mem_take (List.mem_of_mem_drop hmem)

theorem Reaches.subset {last : Bytes} (h : Reaches (tryParse depth) buf last) : last ⊆ buf := by
  induction h with
  | refl => exact List.Subset.refl _
  | pulls hpull _ ih =>
    obtain ⟨consumed, -, rfl⟩ := tryParse_some.mp hpull
    exact fun x hx => List.mem_of_mem_drop (ih hx)

/-- Two pushed lines and an integer, cut anywhere. -/
theorem chunks_agree_push :
    (∀ first rest, first ++ rest.flatten =
        [62, 50, 13, 10, 43, 97, 13, 10, 43, 98, 13, 10, 58, 55, 13, 10] →
      ∃ values ending, Fed (tryParse 2) first rest values ending ∧
        Fed (tryParse 2) [62, 50, 13, 10, 43, 97, 13, 10, 43, 98, 13, 10, 58, 55, 13, 10] []
          values ending) ∧
    ∀ buf left, tryParse 2 buf = .ok (none, left) → left = buf := by
  refine chunks_agree fun whole hwhole d s _ hearly => ?_
  -- there is no `$` in the stream, nor in what is left of it
  obtain ⟨length, after, hbulk, -⟩ := hearly
  have hmem := Reaches.subset hwhole hbulk.mem
  exact absurd hmem (by decide)

/-- `$-6` and then `ab`: a buffer with both gives `a` as the payload, one that has
the header only gives the empty text. -/
theorem negativeLength_cut : ¬ ∃ values ending,
    Fed (tryParse 2) [36, 45, 54, 13, 10] [[97, 98]] values ending ∧
      Fed (tryParse 2) [36, 45, 54, 13, 10, 97, 98] [] values ending := by
  rintro ⟨values, ending, hcut, hwhole⟩
  -- what is left behind the header's marker reads as an error reply
  have hline : tryParse 2 [45, 54, 13, 10] = .ok (some (.text "6"), []) := rfl
  have hlines : tryParse 2 [45, 54, 13, 10, 97, 98] = .ok (some (.text "6"), [97, 98]) := rfl
  have hempty : tryParse 2 [36, 45, 54, 13, 10] = .ok (some (.text ""), [45, 54, 13, 10]) := rfl
  have hfull : tryParse 2 [36, 45, 54, 13, 10, 97, 98] =
      .ok (some (.text "a"), [45, 54, 13, 10, 97, 98]) := rfl
  have hnothing : tryParse 2 [] = .ok (none, []) := rfl
  have hcut' : Fed (tryParse 2) [36, 45, 54, 13, 10] [[97, 98]] [.text "", .text "6"]
      (.waits [97, 98]) :=
    .pulls hempty (.pulls hline (.receives hnothing (.stops rfl)))
  have hwhole' : Fed (tryParse 2) [36, 45, 54, 13, 10, 97, 98] [] [.text "a", .text "6"]
      (.waits [97, 98]) :=
    .pulls hfull (.pulls hlines (.stops rfl))
  obtain ⟨hvalues, -⟩ := hcut.unique hcut'
  obtain ⟨hvalues', -⟩ := hwhole.unique hwhole'
  have hsame := hvalues.trans hvalues'.symm
  simp at hsame

end Conductress.Stormgen.ReplyParser
