import Mathlib.Tactic.Push
import Conductress.Lib.Chunked
import Conductress.Stormgen.Resp

/-!
# How far the reply parser moves

A value is read at an offset: first its header, up to the first CR LF, then what
the header announces. The lengths are the sender's, negative ones included.

`Visits` are the calls of `_parse_at` that one parse makes, `BulkAt` and
`AggregateAt` the headers with a length or a count. The offset a value hands on
is behind its own header (`Forward`), save for a bulk string of a length below
-2: `forward_iff`.
-/

namespace Conductress.Stormgen.ReplyParser

open Lib

/-! ## Headers -/

/-- At `start` a header is there in full, and `after` is where it ends. -/
structure Header (buf : Bytes) (start : ℤ) (marker payload : Bytes) (after : ℤ) : Prop where
  inside : start < buf.length
  marker_eq : slice buf start (start + 1) = marker
  line : readLine buf (start + 1) = some (payload, after)

/-- `int(payload.decode())`. -/
def headerInt (payload : Bytes) : Except ParseError ℤ := decode payload >>= intOf

/-- A bulk string's header. -/
def BulkAt (buf : Bytes) (start length after : ℤ) : Prop :=
  ∃ payload, Header buf start [36] payload after ∧ headerInt payload = .ok length

/-- An aggregate's header, and how many elements it announces. -/
def AggregateAt (buf : Bytes) (start : ℤ) (elements : ℕ) (after : ℤ) : Prop :=
  ∃ marker payload count, Header buf start marker payload after ∧
    headerInt payload = .ok count ∧ count ≠ -1 ∧
    (marker ∈ arrayMarkers ∧ elements = count.toNat ∨
      marker = [37] ∧ elements = (count * 2).toNat)

local instance lawfulBEqBytes : LawfulBEq Bytes := inferInstanceAs (LawfulBEq (List UInt8))

/-- What `_parse_at` does behind a header. -/
def valueAfter (buf : Bytes) (depth : ℕ) (marker payload : Bytes) (after : ℤ) :
    Except ParseError Parsed :=
  if marker ∈ scalarMarkers then (scalar marker payload).map fun value => some (value, after)
  else if marker = [95] then .ok (some (.none, after))
  else if marker = [36] then bulk buf payload after
  else if marker ∈ arrayMarkers then aggregate (parseAt buf depth) payload after false
  else if marker = [37] then aggregate (parseAt buf depth) payload after true
  else .error (.protocolError marker)

variable {buf : Bytes} {depth : ℕ} {start after length : ℤ} {marker payload : Bytes}

theorem parseAt_header (h : Header buf start marker payload after) :
    parseAt buf (depth + 1) start = valueAfter buf depth marker payload after := by
  obtain ⟨hinside, rfl, hline⟩ := h
  rw [parseAt, if_neg (by omega), hline]
  rfl

theorem parseAt_noHeader (h : ∀ marker payload after, ¬ Header buf start marker payload after) :
    parseAt buf (depth + 1) start = .ok none := by
  rw [parseAt]
  by_cases hinside : (buf.length : ℤ) ≤ start
  · rw [if_pos hinside]
  · rw [if_neg hinside]
    cases hline : readLine buf (start + 1) with
    | none => rfl
    | some line =>
      exact absurd ⟨by omega, rfl, hline⟩ (h _ line.1 line.2)

theorem bulk_eq (buf payload : Bytes) (after : ℤ) :
    bulk buf payload after = headerInt payload >>= fun length =>
      if length = -1 then .ok (some (.none, after))
      else if buf.length < after + length + 2 then .ok none
      else (decode (slice buf after (after + length))).map fun text =>
        some (.text text, after + length + 2) := by
  unfold bulk headerInt
  cases decode payload with
  | error e => rfl
  | ok text => rfl

theorem aggregate_eq (parse : ℤ → Except ParseError Parsed) (payload : Bytes) (after : ℤ)
    (mapping : Bool) :
    aggregate parse payload after mapping = headerInt payload >>= fun count =>
      if count = -1 then .ok (some (.none, after))
      else elementsFrom parse (if mapping then count * 2 else count).toNat after [] >>= fun
        | none => .ok none
        | some (parsed, offset) =>
          (aggregateOf mapping parsed).map fun value => some (value, offset) := by
  unfold aggregate headerInt
  cases decode payload with
  | error e => rfl
  | ok text => rfl

/-! ## Where a header ends -/

theorem crlfIndex_lt : ∀ {bytes : Bytes} {k : ℕ}, crlfIndex bytes = some k → k + 2 ≤ bytes.length
  | [], _, h => by simp [crlfIndex] at h
  -- one byte is no line end
  | [x], _, h => by simp [crlfIndex] at h
  | x :: y :: rest, k, h => by
    by_cases hcrlf : x = 13 ∧ y = 10
    · obtain ⟨rfl, rfl⟩ := hcrlf
      obtain rfl : 0 = k := by simpa [crlfIndex] using h
      simp
    · rw [crlfIndex] at h
      · obtain ⟨i, hi, rfl⟩ := Option.map_eq_some_iff.mp h
        have hle := crlfIndex_lt hi
        simp only [List.length_cons] at hle ⊢
        omega
      · intro tail hx hy
        simp_all

theorem readLine_eq_some : readLine buf start = some (payload, after) ↔
    ∃ idx : ℕ, findCrlf buf start = some idx ∧ slice buf start idx = payload ∧
      (idx : ℤ) + 2 = after := by
  unfold readLine
  cases findCrlf buf start with
  | none => simp
  | some idx => simp

/-- A header is at least a marker and a line end, and lies in the buffer. -/
theorem Header.bounds (h : Header buf start marker payload after) :
    2 ≤ after ∧ after ≤ buf.length ∧ (0 ≤ start → start + 3 ≤ after) := by
  obtain ⟨idx, hidx, -, rfl⟩ := readLine_eq_some.mp h.line
  simp only [findCrlf] at hidx
  -- `find` counts a negative start from the end, so only a start in the buffer bounds it below
  generalize hfirst :
    (if start + 1 < 0 then (start + 1 + buf.length).toNat else (start + 1).toNat) = first at hidx
  obtain ⟨k, hk, rfl⟩ := Option.map_eq_some_iff.mp hidx
  have hle := crlfIndex_lt hk
  rw [List.length_drop] at hle
  refine ⟨by omega, by omega, fun hstart => ?_⟩
  rw [if_neg (by omega)] at hfirst
  omega

/-! ## The elements of an aggregate -/

/-- Some element starts at the last offset, as the loop over `left` elements
from the first one on is run. -/
inductive ElementAt (parse : ℤ → Except ParseError Parsed) : ℕ → ℤ → ℤ → Prop
  | here (left : ℕ) (offset : ℤ) : ElementAt parse (left + 1) offset offset
  | later {left : ℕ} {offset next at' : ℤ} {value : Reply}
      (h : parse offset = .ok (some (value, next))) (hrest : ElementAt parse left next at') :
      ElementAt parse (left + 1) offset at'

/-- What one element preserves of the offset, the loop preserves. -/
theorem elementsFrom_invariant {parse : ℤ → Except ParseError Parsed} {P : ℤ → Prop}
    {left : ℕ} {offset last : ℤ} {parsed values : List Reply}
    (hstep : ∀ s value next, ElementAt parse left offset s → P s →
      parse s = .ok (some (value, next)) → P next)
    (hP : P offset) (h : elementsFrom parse left offset parsed = .ok (some (values, last))) :
    P last := by
  induction left generalizing offset parsed with
  | zero =>
    obtain ⟨-, rfl⟩ : _ = _ ∧ offset = last := by simpa [elementsFrom] using h
    exact hP
  | succ left ih =>
    rw [elementsFrom] at h
    cases hparse : parse offset with
    | error e => simp [hparse] at h
    | ok answer =>
      cases answer with
      | none => simp [hparse] at h
      | some answer =>
        obtain ⟨value, next⟩ := answer
        rw [hparse] at h
        -- the elements behind this one are elements of the whole loop
        exact ih (fun s value' next' hs => hstep s value' next' (.later hparse hs))
          (hstep offset value next (.here left offset) hP hparse) h

/-- The calls of `_parse_at` that parsing at `start` makes: its own, and those
for the elements of an aggregate. -/
inductive Visits (buf : Bytes) : ℕ → ℤ → ℕ → ℤ → Prop
  | self (depth : ℕ) (start : ℤ) : Visits buf depth start depth start
  | element {depth d elements : ℕ} {start after offset s : ℤ}
      (h : AggregateAt buf start elements after)
      (helement : ElementAt (parseAt buf depth) elements after offset)
      (hrest : Visits buf depth offset d s) : Visits buf (depth + 1) start d s

/-! ## Moving forward -/

/-- The value at `start`, once it is there, hands on an offset behind its own
header. -/
def ForwardAt (buf : Bytes) (depth : ℕ) (start : ℤ) : Prop :=
  ∀ marker payload after value next, Header buf start marker payload after →
    parseAt buf depth start = .ok (some (value, next)) → after ≤ next

/-- **The parse moves forward**: at no value, inside aggregates or not, does the
offset step back over what was read for it. -/
def Forward (buf : Bytes) (depth : ℕ) : Prop :=
  ∀ d s, Visits buf depth 0 d s → ForwardAt buf d s

/-- A bulk string that ends before its header does: its length is below -2, and
the bytes its bounds enclose are text. -/
def EndsEarly (buf : Bytes) (start : ℤ) : Prop :=
  ∃ length after text, BulkAt buf start length after ∧ length < -2 ∧
    decode (slice buf after (after + length)) = .ok text

/-- What a bulk string, once there, hands on. -/
theorem bulk_next {value : Reply} {next : ℤ}
    (h : bulk buf payload after = .ok (some (value, next))) :
    next = after ∨ ∃ length text, headerInt payload = .ok length ∧
      decode (slice buf after (after + length)) = .ok text ∧ next = after + length + 2 := by
  rw [bulk_eq] at h
  cases hlength : headerInt payload with
  | error e => simp [hlength, bind, Except.bind] at h
  | ok length =>
    simp only [hlength, bind, Except.bind] at h
    by_cases hnull : length = -1
    · rw [if_pos hnull] at h
      left
      simp_all
    · rw [if_neg hnull] at h
      by_cases hmore : (buf.length : ℤ) < after + length + 2
      · simp [if_pos hmore] at h
      · rw [if_neg hmore] at h
        cases htext : decode (slice buf after (after + length)) with
        | error e => simp [htext, Except.map] at h
        | ok text =>
          right
          refine ⟨length, text, rfl, htext, ?_⟩
          simp only [htext, Except.map, Except.ok.injEq, Option.some.injEq, Prod.mk.injEq] at h
          exact h.2.symm

/-- What an aggregate, once there, hands on: the end of its header, or what its
last element hands on. -/
theorem aggregate_next {parse : ℤ → Except ParseError Parsed} {mapping : Bool} {value : Reply}
    {next : ℤ} (h : aggregate parse payload after mapping = .ok (some (value, next))) :
    next = after ∨ ∃ count parsed, headerInt payload = .ok count ∧ count ≠ -1 ∧
      elementsFrom parse (if mapping then count * 2 else count).toNat after [] =
        .ok (some (parsed, next)) := by
  rw [aggregate_eq] at h
  cases hcount : headerInt payload with
  | error e => simp [hcount, bind, Except.bind] at h
  | ok count =>
    simp only [hcount, bind, Except.bind] at h
    by_cases hnull : count = -1
    · rw [if_pos hnull] at h
      left
      simp_all
    · rw [if_neg hnull] at h
      right
      refine ⟨count, ?_⟩
      cases helements : elementsFrom parse (if mapping then count * 2 else count).toNat after []
        with
      | error e => simp [helements] at h
      | ok answer =>
        cases answer with
        | none => simp [helements] at h
        | some answer =>
          obtain ⟨parsed, offset⟩ := answer
          simp only [helements] at h
          cases hvalue : aggregateOf mapping parsed with
          | error e => simp [hvalue, Except.map] at h
          | ok value' =>
            simp only [hvalue, Except.map, Except.ok.injEq, Option.some.injEq,
              Prod.mk.injEq] at h
            obtain ⟨-, rfl⟩ := h
            exact ⟨parsed, rfl, hnull, rfl⟩

/-- What a value, once there, hands on: the end of its header, what a bulk
string's length comes to, or what the last element of an aggregate hands on. -/
theorem parseAt_next {value : Reply} {next : ℤ} (hheader : Header buf start marker payload after)
    (h : parseAt buf (depth + 1) start = .ok (some (value, next))) :
    next = after ∨
    (∃ length text, BulkAt buf start length after ∧
      decode (slice buf after (after + length)) = .ok text ∧ next = after + length + 2) ∨
    ∃ elements parsed, AggregateAt buf start elements after ∧
      elementsFrom (parseAt buf depth) elements after [] = .ok (some (parsed, next)) := by
  rw [parseAt_header hheader, valueAfter] at h
  split_ifs at h with hscalar hnull hbulk harray hmap
  · cases hvalue : scalar marker payload with
    | error e => simp [hvalue, Except.map] at h
    | ok value' =>
      left
      simp_all [Except.map]
  · left
    simp_all
  · subst hbulk
    rcases bulk_next h with hnext | ⟨length, text, hlength, htext, hnext⟩
    · exact .inl hnext
    · exact .inr (.inl ⟨length, text, ⟨payload, hheader, hlength⟩, htext, hnext⟩)
  · rcases aggregate_next h with hnext | ⟨count, parsed, hcount, hne, helements⟩
    · exact .inl hnext
    · exact .inr (.inr ⟨_, parsed,
        ⟨marker, payload, count, hheader, hcount, hne, .inl ⟨harray, rfl⟩⟩, helements⟩)
  · rcases aggregate_next h with hnext | ⟨count, parsed, hcount, hne, helements⟩
    · exact .inl hnext
    · exact .inr (.inr ⟨_, parsed,
        ⟨marker, payload, count, hheader, hcount, hne, .inr ⟨hmap, rfl⟩⟩, helements⟩)

/-- There is a header wherever a value is. -/
theorem exists_header {value : Reply} {next : ℤ}
    (h : parseAt buf (depth + 1) start = .ok (some (value, next))) :
    ∃ marker payload after, Header buf start marker payload after := by
  by_contra hnone
  push Not at hnone
  rw [parseAt_noHeader hnone] at h
  simp at h

/-- A parse without a bulk string that ends early moves forward. -/
theorem forwardAt_of_visits (h : ∀ d s, Visits buf depth start (d + 1) s → ¬ EndsEarly buf s) :
    ForwardAt buf depth start := by
  induction depth generalizing start with
  | zero =>
    intro marker payload after value next _ hparse
    simp [parseAt] at hparse
  | succ depth ih =>
    intro marker payload after value next hheader hparse
    rcases parseAt_next hheader hparse with
      hnext | ⟨length, text, hbulk, htext, hnext⟩ | ⟨elements, parsed, haggregate, helements⟩
    · omega
    -- a bulk string whose end is before its header's end is one that ends early
    · by_contra hback
      exact h depth start (.self _ _) ⟨length, after, text, hbulk, by omega, htext⟩
    · -- each element starts no earlier than the header ends, and hands on no less
      refine elementsFrom_invariant (P := (after ≤ ·)) ?_ (le_refl after) helements
      intro s value' next' helement hs hvalue
      have hat := ih fun d s' hvisit => h d s' (.element haggregate helement hvisit)
      have hafter := hheader.bounds.1
      cases depth with
      | zero => simp [parseAt] at hvalue
      | succ depth =>
        obtain ⟨marker', payload', after', hheader'⟩ := exists_header hvalue
        have hle := hat marker' payload' after' value' next' hheader' hvalue
        -- the offset of an element is behind a header, so it is not negative
        have hmoves := hheader'.bounds.2.2 (by omega)
        omega

/-- A bulk string that ends early steps back. -/
theorem EndsEarly.not_forwardAt (h : EndsEarly buf start) : ¬ ForwardAt buf (depth + 1) start := by
  intro hforward
  obtain ⟨length, after, text, ⟨payload, hheader, hlength⟩, hlt, htext⟩ := h
  have hbounds := hheader.bounds
  have hparse : parseAt buf (depth + 1) start =
      .ok (some (.text text, after + length + 2)) := by
    -- `$`, with a length that is neither -1 nor beyond the buffer
    rw [parseAt_header hheader, valueAfter, if_neg (by decide), if_neg (by decide), if_pos rfl,
      bulk_eq, hlength]
    simp only [bind, Except.bind]
    rw [if_neg (by omega), if_neg (by omega), htext]
    rfl
  have hle := hforward _ _ _ _ _ hheader hparse
  omega

theorem Visits.trans {d e : ℕ} {s t : ℤ} (h : Visits buf depth start d s)
    (h' : Visits buf d s e t) : Visits buf depth start e t := by
  induction h with
  | self => exact h'
  | element hheader helement _ ih => exact .element hheader helement (ih h')

/-- **Where the parse moves forward**: exactly where no bulk string it reads ends
early. -/
theorem forward_iff (buf : Bytes) (depth : ℕ) : Forward buf depth ↔
    ∀ d s, Visits buf depth 0 (d + 1) s → ¬ EndsEarly buf s := by
  constructor
  · intro h d s hvisit hearly
    exact hearly.not_forwardAt (h (d + 1) s hvisit)
  · intro h d s hvisit
    exact forwardAt_of_visits fun e t hvisit' => h e t (hvisit.trans hvisit')

/-! ## Draining a buffer -/

/-- What `try_parse` takes off, it takes from the front. -/
theorem tryParse_some {value : Reply} {left : Bytes} :
    tryParse depth buf = .ok (some value, left) ↔ ∃ consumed,
      parseAt buf depth 0 = .ok (some (value, consumed)) ∧
        left = buf.drop (sliceIndex buf.length consumed) := by
  unfold tryParse
  cases parseAt buf depth 0 with
  | error e => simp [Except.map]
  | ok answer =>
    cases answer with
    | none => simp [Except.map]
    | some answer =>
      obtain ⟨value', consumed⟩ := answer
      simp [Except.map, eq_comm, and_assoc]

/-- A parse that moves forward takes bytes off the buffer. -/
theorem Forward.shrinks (h : Forward buf depth) : Shrinks (tryParse depth) buf := by
  intro value left htry
  obtain ⟨consumed, hparse, rfl⟩ := tryParse_some.mp htry
  cases depth with
  | zero => simp [parseAt] at hparse
  | succ depth =>
    obtain ⟨marker, payload, after, hheader⟩ := exists_header hparse
    have hle := h (depth + 1) 0 (.self _ _) marker payload after value consumed hheader hparse
    obtain ⟨-, hinside, hmoves⟩ := hheader.bounds
    have hmoves := hmoves (le_refl 0)
    rw [List.length_drop, sliceIndex, if_neg (by omega)]
    omega

/-- Draining `buf` makes progress: every reply takes bytes off the buffer, every
parse on the way moves forward, and there is an end. -/
structure Progresses (depth : ℕ) (buf : Bytes) : Prop where
  consumes : ∀ last, Reaches (tryParse depth) buf last → Shrinks (tryParse depth) last
  forward : ∀ last, Reaches (tryParse depth) buf last → Forward last depth
  ends : ∃ values ending, Fed (tryParse depth) buf [] values ending

/-- **When draining makes progress**: on exactly the buffers where no bulk string
that is read on the way has a length below -2 and text between its bounds. -/
theorem progresses_iff (depth : ℕ) (buf : Bytes) : Progresses depth buf ↔
    ∀ last, Reaches (tryParse depth) buf last →
      ∀ d s, Visits last depth 0 (d + 1) s → ¬ EndsEarly last s := by
  constructor
  · intro h last hlast
    exact (forward_iff last depth).mp (h.forward last hlast)
  · intro h
    have hforward : ∀ last, Reaches (tryParse depth) buf last → Forward last depth :=
      fun last hlast => (forward_iff last depth).mpr (h last hlast)
    have hshrinks : ∀ last, Reaches (tryParse depth) buf last → Shrinks (tryParse depth) last :=
      fun last hlast => (hforward last hlast).shrinks
    exact ⟨hshrinks, hforward, Fed.of_shrinks hshrinks⟩

/-- Behind `$-7` the next offset is where the reply began: the empty text comes
again and again. -/
theorem emptyReplies_unending : ¬ Progresses 2 [36, 45, 55, 13, 10] := by
  intro h
  have htry : tryParse 2 [36, 45, 55, 13, 10] =
      .ok (some (.text ""), [36, 45, 55, 13, 10]) := by rfl
  exact absurd (h.consumes _ (.refl _) _ _ htry) (lt_irrefl _)

end Conductress.Stormgen.ReplyParser
