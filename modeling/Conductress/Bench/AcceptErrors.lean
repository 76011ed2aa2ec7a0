import Mathlib.Algebra.BigOperators.Group.List.Basic
import Mathlib.Algebra.GroupWithZero.Nat
import Mathlib.Data.Bool.AllAny
import Mathlib.Data.Nat.Bits
import Conductress.Lib.Occurrences

/-!
# Accept errors in the server log

`_accept_error_delta` of the server sampler. The log only grows; a tick asks for its size
and reads what is after the offset of the tick before it. The text of a tick begins and
ends wherever the log happened to end, and an error message that was being written then is
in neither of two texts: `delta_sum_iff`.

A log is its bytes. `decodeReplace` and `universalNewlines` are what the text layer of
`open` makes of them; the marker is ASCII, so that it occurs in the text as often as in the
bytes (`countAcceptErrors_chunk`).
-/

namespace Conductress.ServerSampler

open Lib

/-! ## The text of some bytes -/

/-- The bits of a first byte, and the bytes that may follow it. -/
def utf8Lead (b : ℕ) : ℕ × List (ℕ × ℕ) :=
  if 0xc2 ≤ b ∧ b ≤ 0xdf then (b - 0xc0, [(0x80, 0xbf)])
  else if b = 0xe0 then (0, [(0xa0, 0xbf), (0x80, 0xbf)])
  else if b = 0xed then (13, [(0x80, 0x9f), (0x80, 0xbf)])
  else if 0xe1 ≤ b ∧ b ≤ 0xef then (b - 0xe0, [(0x80, 0xbf), (0x80, 0xbf)])
  else if b = 0xf0 then (0, [(0x90, 0xbf), (0x80, 0xbf), (0x80, 0xbf)])
  else if 0xf1 ≤ b ∧ b ≤ 0xf3 then (b - 0xf0, [(0x80, 0xbf), (0x80, 0xbf), (0x80, 0xbf)])
  else if b = 0xf4 then (4, [(0x80, 0x8f), (0x80, 0xbf), (0x80, 0xbf)])
  else (0, [])

/-- How many bytes are as they may be. -/
def matching : List (ℕ × ℕ) → List UInt8 → ℕ
  | r :: rs, b :: bs => if r.1 ≤ b.toNat ∧ b.toNat ≤ r.2 then matching rs bs + 1 else 0
  | _, _ => 0

/-- The character of a first byte and the bytes after it; U+FFFD stands for the bytes of one
that is not complete. -/
def utf8Char (b : UInt8) (bs : List UInt8) : Char :=
  let lead := utf8Lead b.toNat
  if b.toNat < 0x80 then Char.ofNat b.toNat
  else if lead.2 ≠ [] ∧ matching lead.2 bs = lead.2.length then
    Char.ofNat ((bs.take lead.2.length).foldl (fun code c => code * 64 + (c.toNat - 0x80)) lead.1)
  else '\uFFFD'

/-- The rest of `bytes.decode("utf-8", errors="replace")`, with so many bytes of a character
ahead. -/
def decodeFrom : ℕ → List UInt8 → List Char
  | _, [] => []
  | k + 1, _ :: bs => decodeFrom k bs
  | 0, b :: bs => utf8Char b bs :: decodeFrom (matching (utf8Lead b.toNat).2 bs) bs

def decodeReplace (bytes : List UInt8) : List Char := decodeFrom 0 bytes

/-- What the text layer reads for a line break. -/
def universalNewlines : List Char → List Char
  | '\r' :: '\n' :: text => '\n' :: universalNewlines text
  | '\r' :: text => '\n' :: universalNewlines text
  | c :: text => c :: universalNewlines text
  | [] => []

/-! ## The sampler -/

/-- `ACCEPT_ERROR_MARKER`. -/
def acceptErrorMarker : String := "Error accepting a client connection"

/-- `count_accept_errors`. -/
def countAcceptErrors (logText : List Char) : ℕ := strCount acceptErrorMarker.toList logText

/-- The log at a tick: it is not there; it has a size and then cannot be opened; or it has a
size, and another one when it is read. -/
inductive Tick where
  | missing
  | unreadable (size : ℕ)
  | readable (size content : ℕ)
  deriving DecidableEq

namespace Tick

def size : Tick → Option ℕ
  | missing => none
  | unreadable size => some size
  | readable size _ => some size

/-- Where the text of the tick ends. -/
def content : Tick → Option ℕ
  | readable _ content => some content
  | _ => none

/-- What the log has grown to, as the tick sees it. -/
def lengths (tick : Tick) : List ℕ := tick.size.toList ++ tick.content.toList

end Tick

/-! ## The marker in the text -/

/-- The marker as it is written to the log. -/
def markerBytes : List UInt8 := acceptErrorMarker.toUTF8.toList

/-- An ASCII character of a byte. -/
def asciiChar (b : UInt8) : Char := Char.ofNat b.toNat

theorem markerBytes_ascii : ∀ b ∈ markerBytes, b.toNat < 0x80 :=
  List.all_iff_forall_prop.mp (by decide +kernel)

theorem map_markerBytes : markerBytes.map asciiChar = acceptErrorMarker.toList := by decide +kernel

theorem toNat_ofNat_cases (n : ℕ) : (Char.ofNat n).toNat = n ∨ (Char.ofNat n).toNat = 0 := by
  unfold Char.ofNat
  by_cases hvalid : n.isValidChar
  · rw [dif_pos hvalid]
    exact .inl rfl
  · rw [dif_neg hvalid]
    exact .inr rfl

theorem toNat_ofNat {n : ℕ} (h : n < 0x80) : (Char.ofNat n).toNat = n := by
  have hvalid : n.isValidChar := .inl (by omega)
  unfold Char.ofNat
  rw [dif_pos hvalid]
  rfl

theorem marker_toNat : ∀ c ∈ acceptErrorMarker.toList, 0 < c.toNat ∧ c.toNat < 0x80 :=
  List.all_iff_forall_prop.mp (by decide +kernel)

theorem matching_high {rs : List (ℕ × ℕ)} (hrs : ∀ r ∈ rs, 0x80 ≤ r.1) (bs : List UInt8) :
    ∀ b ∈ bs.take (matching rs bs), 0x80 ≤ b.toNat := by
  induction rs generalizing bs with
  | nil => intro b hb; cases bs <;> cases hb
  | cons r rs ih =>
    cases bs with
    | nil => intro b hb; cases hb
    | cons c bs =>
      rw [matching]
      split
      · next hr =>
        intro b hb
        rw [List.take_succ_cons] at hb
        rcases List.mem_cons.mp hb with rfl | hb
        · exact (hrs r List.mem_cons_self).trans hr.1
        · exact ih (fun r' hr' => hrs r' (List.mem_cons_of_mem r hr')) bs b hb
      · intro b hb
        cases hb

theorem utf8Lead_high (b : ℕ) : ∀ r ∈ (utf8Lead b).2, 0x80 ≤ r.1 := by
  have hranges : ∀ ranges ∈ [[], [(0x80, 0xbf)], [(0xa0, 0xbf), (0x80, 0xbf)],
      [(0x80, 0x9f), (0x80, 0xbf)], [(0x80, 0xbf), (0x80, 0xbf)],
      [(0x90, 0xbf), (0x80, 0xbf), (0x80, 0xbf)], [(0x80, 0xbf), (0x80, 0xbf), (0x80, 0xbf)],
      [(0x80, 0x8f), (0x80, 0xbf), (0x80, 0xbf)]], ∀ r ∈ ranges, 0x80 ≤ r.1 := by
    decide
  -- whatever the first byte is, its ranges are among these
  refine hranges _ ?_
  -- each range of first bytes has its own ranges of the bytes after it
  unfold utf8Lead
  repeat' split
  all_goals
    dsimp only
    decide

/-- A first byte and the one after it make for a code that is large enough, or for one that
is with the next byte. -/
theorem utf8Lead_first {b lead : ℕ} {r : ℕ × ℕ} {rs : List (ℕ × ℕ)}
    (h : utf8Lead b = (lead, r :: rs)) {x : ℕ} (hx : r.1 ≤ x) :
    2 ≤ lead * 64 + (x - 0x80) ∧ (rs = [] → 0x80 ≤ lead * 64 + (x - 0x80)) := by
  unfold utf8Lead at h
  repeat' split at h
  all_goals
    obtain ⟨rfl, hcons⟩ := Prod.mk.inj h
    first
    | cases hcons; done
    | obtain ⟨rfl, rfl⟩ := List.cons.inj hcons
      exact ⟨by omega, fun hnil => by first | omega | cases hnil⟩

/-- A byte more makes the code no smaller. -/
theorem le_code (code : ℕ) (bs : List UInt8) :
    code ≤ bs.foldl (fun code c => code * 64 + (c.toNat - 0x80)) code := by
  induction bs generalizing code with
  | nil => exact le_refl code
  | cons b bs ih =>
    rw [List.foldl_cons]
    refine le_trans ?_ (ih _)
    omega

/-- The code of a character of several bytes is not that of an ASCII character. -/
theorem code_high (b : ℕ) (bs : List UInt8) (hsome : (utf8Lead b).2 ≠ [])
    (hfull : matching (utf8Lead b).2 bs = (utf8Lead b).2.length) :
    0x80 ≤ (bs.take (utf8Lead b).2.length).foldl (fun code c => code * 64 + (c.toNat - 0x80))
      (utf8Lead b).1 := by
  rcases hlead : utf8Lead b with ⟨lead, _ | ⟨r, rs⟩⟩
  · rw [hlead] at hsome
    exact absurd rfl hsome
  rw [hlead] at hfull
  cases bs with
  | nil => cases hfull
  | cons x bs =>
    dsimp only at hfull ⊢
    rw [matching, List.length_cons] at hfull
    split at hfull
    · next hx =>
      obtain ⟨htwo, hlarge⟩ := utf8Lead_first hlead hx.1
      rw [List.length_cons, List.take_succ_cons, List.foldl_cons]
      -- two bytes make for a code that is large enough by itself, more of them with the second
      -- one
      cases rs with
      | nil => exact hlarge rfl
      | cons r' rs =>
        cases bs with
        | nil => cases hfull
        | cons y bs =>
          rw [List.length_cons, List.take_succ_cons, List.foldl_cons]
          refine le_trans ?_ (le_code _ _)
          omega
    · cases hfull

theorem utf8Char_high {b : UInt8} (hb : ¬ b.toNat < 0x80) (bs : List UInt8) :
    utf8Char b bs ∉ acceptErrorMarker.toList := by
  have hcode : ∀ n, 0x80 ≤ n → Char.ofNat n ∉ acceptErrorMarker.toList := by
    intro n hn hmem
    obtain ⟨hpos, hlt⟩ := marker_toNat _ hmem
    rcases toNat_ofNat_cases n with heq | heq <;> omega
  unfold utf8Char
  dsimp only
  rw [if_neg hb]
  split
  · next h => exact hcode _ (code_high b.toNat bs h.1 h.2)
  · decide

theorem utf8Char_ascii {b : UInt8} (hb : b.toNat < 0x80) (bs : List UInt8) :
    utf8Char b bs = asciiChar b := by
  unfold utf8Char
  dsimp only
  rw [if_pos hb]
  rfl

theorem utf8Lead_ascii {b : ℕ} (hb : b < 0x80) : utf8Lead b = (0, []) := by
  unfold utf8Lead
  split_ifs <;> first | omega | rfl

theorem decodeFrom_skip (k : ℕ) (bs : List UInt8) : decodeFrom k bs = decodeFrom 0 (bs.drop k) := by
  induction bs generalizing k with
  | nil => cases k <;> rfl
  | cons b bs ih =>
    cases k with
    | zero => rfl
    | succ k => exact ih k

/-- **Decoding bytes** keeps the marker's characters apart from all others. -/
theorem decodeReplace_translates (bytes : List UInt8) :
    Translates asciiChar markerBytes bytes (decodeReplace bytes) := by
  unfold decodeReplace
  -- the induction is on the length, since a character takes several bytes at once
  induction hn : bytes.length using Nat.strong_induction_on generalizing bytes with
  | _ n ih =>
    cases bytes with
    | nil => exact .nil
    | cons b bs =>
      rw [List.length_cons] at hn
      rw [decodeFrom]
      by_cases hb : b.toNat < 0x80
      · rw [utf8Char_ascii hb, utf8Lead_ascii hb]
        have hnone : matching [] bs = 0 := by cases bs <;> rfl
        rw [hnone]
        -- an ASCII byte is kept, and only itself becomes its character
        refine .keep (fun x hx heq => ?_) (ih bs.length (by omega) bs rfl)
        have hcode := congrArg Char.toNat heq
        unfold asciiChar at hcode
        rw [toNat_ofNat (markerBytes_ascii x hx), toNat_ofNat hb] at hcode
        exact UInt8.toNat_inj.mp hcode
      · -- the bytes of a character of several bytes are none of the marker's
        rw [decodeFrom_skip]
        generalize hk : matching (utf8Lead b.toNat).2 bs = k
        have hhigh : ∀ x ∈ b :: bs.take k, x ∉ markerBytes := by
          intro x hx hmem
          have hlt := markerBytes_ascii x hmem
          rcases List.mem_cons.mp hx with rfl | hx
          · exact hb hlt
          · rw [← hk] at hx
            exact absurd hlt (not_lt.mpr (matching_high (utf8Lead_high b.toNat) bs x hx))
        have hchar : utf8Char b bs ∉ markerBytes.map asciiChar := by
          rw [map_markerBytes]
          exact utf8Char_high hb bs
        have hlength : (bs.drop k).length < n := by
          rw [List.length_drop]
          omega
        have hskip := Translates.skip hhigh hchar (ih _ hlength (bs.drop k) rfl)
        rw [List.cons_append, List.take_append_drop] at hskip
        exact hskip

/-- **Line breaks** are none of the marker's characters. -/
theorem universalNewlines_translates (text : List Char) :
    Translates id acceptErrorMarker.toList text (universalNewlines text) := by
  have hreturn : '\r' ∉ acceptErrorMarker.toList := by decide
  have hbreak : '\n' ∉ acceptErrorMarker.toList := by decide
  have hbreak' : '\n' ∉ acceptErrorMarker.toList.map id := by
    rw [List.map_id]
    exact hbreak
  fun_induction universalNewlines text with
  | case1 text ih =>
    -- the two characters of a line break become one
    have hpair : ∀ x ∈ ['\r', '\n'], x ∉ acceptErrorMarker.toList := by
      simp only [List.forall_mem_cons]
      exact ⟨hreturn, hbreak, by simp⟩
    exact .skip hpair hbreak' ih
  | case2 text _ ih =>
    have hsingle : ∀ x ∈ ['\r'], x ∉ acceptErrorMarker.toList := by
      simp only [List.forall_mem_cons]
      exact ⟨hreturn, by simp⟩
    exact .skip hsingle hbreak' ih
  | case3 c text _ _ ih => exact .keep (fun x _ heq => heq) ih
  | case4 => exact .nil

/-- **What a tick counts** in a text is what its bytes have. -/
theorem countAcceptErrors_chunk (bytes : List UInt8) :
    countAcceptErrors (universalNewlines (decodeReplace bytes)) = occurrences markerBytes bytes := by
  unfold countAcceptErrors
  have hne : acceptErrorMarker.toList ≠ [] := by decide
  have hne' : markerBytes ≠ [] := by decide +kernel
  -- the marker does not overlap itself, for its first character does not come again
  have hcount : strCount acceptErrorMarker.toList (universalNewlines (decodeReplace bytes)) =
      occurrences acceptErrorMarker.toList (universalNewlines (decodeReplace bytes)) := by
    have hfirst : 'E' ∉ "rror accepting a client connection".toList := by decide
    exact strCount_eq hfirst
  have hnewlines := occurrences_translates (universalNewlines_translates (decodeReplace bytes)) hne
  rw [List.map_id] at hnewlines
  have hdecode := occurrences_translates (decodeReplace_translates bytes) hne'
  rw [map_markerBytes] at hdecode
  rw [hcount, hnewlines, hdecode]

/-! ## Runs -/

/-- The fields of the sampler that the counting uses. -/
structure Sampler where
  isLocal   : Bool
  logfile   : Bool
  logOffset : Option ℕ
  deriving DecidableEq

/-- A sampler on the server's host, before its first tick. -/
def Sampler.fresh : Sampler := ⟨true, true, none⟩

/-- `_accept_error_delta`, of a log whose bytes at any time are the first ones of `log`. -/
def acceptErrorDelta (log : List UInt8) (tick : Tick) (s : Sampler) : Option ℕ × Sampler :=
  -- a remote server, or one without a log file, has no rows of this kind
  if ¬ (s.isLocal ∧ s.logfile) then (none, s)
  else
    match tick.size with
    | none => (none, s)
    | some size =>
      match s.logOffset with
      -- what is in the log before the first tick is not counted
      | none => (some 0, { s with logOffset := some size })
      | some offset =>
        -- a log that has shrunk was rotated, and is read from its beginning
        let offset := if size < offset then 0 else offset
        match tick.content with
        -- the log cannot be opened, and the next tick reads from the same offset
        | none => (none, { s with logOffset := some offset })
        | some content =>
          let chunk := universalNewlines (decodeReplace ((log.take content).drop offset))
          (some (countAcceptErrors chunk), { s with logOffset := some (max offset content) })

/-- The `accept_errors` values of some ticks. -/
def acceptErrors (log : List UInt8) : List Tick → Sampler → List (Option ℕ)
  | [], _ => []
  | tick :: ticks, s =>
    (acceptErrorDelta log tick s).1 :: acceptErrors log ticks (acceptErrorDelta log tick s).2

/-- A log that only grows, its bytes in the end, and the ticks from the first one on that
sees it. -/
structure GrowingLog where
  bytes     : List UInt8
  first     : ℕ
  firstTick : Tick
  later     : List Tick
  seen      : firstTick.size = some first
  grows     : (first :: later.flatMap Tick.lengths).Pairwise (· ≤ ·)
  fits      : ∀ n ∈ first :: later.flatMap Tick.lengths, n ≤ bytes.length

namespace GrowingLog

variable (log : GrowingLog)

/-- The values of the rows after the first tick. -/
def values : List (Option ℕ) := (acceptErrors log.bytes (log.firstTick :: log.later) .fresh).tail

/-- Where the reads of the later ticks end. -/
def reads : List ℕ := log.later.filterMap Tick.content

/-- What was appended after the first tick's offset and before the last read. -/
def appended : List UInt8 := (log.bytes.take (lastPlace log.first log.reads)).drop log.first

end GrowingLog

section Sum

variable {log : List UInt8} {offset : ℕ} {ticks : List Tick}

/-- The reads of ticks after an offset are after it, and in order. -/
theorem reads_ordered (h : (offset :: ticks.flatMap Tick.lengths).Pairwise (· ≤ ·)) :
    (offset :: ticks.filterMap Tick.content).Pairwise (· ≤ ·) := by
  refine h.sublist (List.Sublist.cons_cons offset ?_)
  induction ticks with
  | nil => exact .slnil
  | cons tick ticks ih =>
    have hrest := ih (h.sublist (List.Sublist.cons_cons offset (List.sublist_append_right _ _)))
    cases tick with
    | missing => exact hrest
    | unreadable size => exact hrest.cons size
    | readable size content => exact (hrest.cons_cons content).cons size

/-- A tick that finds the log with a size after its offset keeps the offset. -/
theorem acceptErrorDelta_unreadable {size : ℕ} (hsize : offset ≤ size) :
    acceptErrorDelta log (.unreadable size) ⟨true, true, some offset⟩ =
      (none, ⟨true, true, some offset⟩) := by
  show (none, Sampler.mk true true (some (if size < offset then 0 else offset))) = _
  rw [if_neg (by omega)]

/-- One that reads it counts what was appended, and goes on from there. -/
theorem acceptErrorDelta_readable {size content : ℕ} (hsize : offset ≤ size)
    (hcontent : size ≤ content) (hfits : content ≤ log.length) :
    acceptErrorDelta log (.readable size content) ⟨true, true, some offset⟩ =
      (some (occursBetween markerBytes log offset content).card,
        ⟨true, true, some content⟩) := by
  have hne : markerBytes ≠ [] := by decide +kernel
  show (some (countAcceptErrors (universalNewlines (decodeReplace
      ((log.take content).drop (if size < offset then 0 else offset))))),
    Sampler.mk true true (some (max (if size < offset then 0 else offset) content))) = _
  rw [if_neg (by omega), countAcceptErrors_chunk, occurrences_slice hne (by omega) hfits,
    max_eq_right (by omega)]

/-- **The values** of ticks are what the pieces between their reads have. -/
theorem sum_acceptErrors (h : (offset :: ticks.flatMap Tick.lengths).Pairwise (· ≤ ·))
    (hfits : ∀ n ∈ ticks.flatMap Tick.lengths, n ≤ log.length) :
    ((acceptErrors log ticks ⟨true, true, some offset⟩).filterMap id).sum =
      sumBetween markerBytes log offset (ticks.filterMap Tick.content) := by
  induction ticks generalizing offset with
  | nil => rfl
  | cons tick ticks ih =>
    rw [List.flatMap_cons] at h hfits
    have hfits' : ∀ n ∈ ticks.flatMap Tick.lengths, n ≤ log.length :=
      fun n hn => hfits n (List.mem_append_right _ hn)
    rw [acceptErrors]
    cases tick with
    -- neither a missing log nor one that cannot be opened moves the offset
    | missing => exact ih h hfits'
    | unreadable size =>
      obtain ⟨hoffset, hticks⟩ := List.pairwise_cons.mp h
      rw [acceptErrorDelta_unreadable (hoffset size List.mem_cons_self)]
      exact ih (h.sublist (List.Sublist.cons_cons offset (List.sublist_cons_self size _))) hfits'
    | readable size content =>
      obtain ⟨hoffset, hticks⟩ := List.pairwise_cons.mp h
      obtain ⟨hsize, hcontent⟩ := List.pairwise_cons.mp hticks
      rw [acceptErrorDelta_readable (hoffset size List.mem_cons_self)
        (hsize content List.mem_cons_self)
        (hfits content (List.mem_cons_of_mem size List.mem_cons_self))]
      show (_ :: (acceptErrors log ticks ⟨true, true, some content⟩).filterMap id).sum = _ + _
      rw [List.sum_cons, ih hcontent hfits']

end Sum

namespace GrowingLog

variable (log : GrowingLog)

/-- **The values add up** to the markers that were appended, if and only if no read ends
inside one of them. -/
theorem delta_sum_iff : (log.values.filterMap id).sum = occurrences markerBytes log.appended ↔
    ∀ k ∈ log.reads, ∀ p ∈ occursBetween markerBytes log.bytes log.first
      (lastPlace log.first log.reads), ¬ Across markerBytes p k := by
  have hne : markerBytes ≠ [] := by decide +kernel
  have hordered : (log.first :: log.reads).Pairwise (· ≤ ·) := reads_ordered log.grows
  -- the last read is one of a tick, and ends inside the log
  have hlast : lastPlace log.first log.reads ≤ log.bytes.length := by
    unfold lastPlace
    cases hread : log.reads.getLast? with
    | none => exact log.fits log.first List.mem_cons_self
    | some k =>
      obtain ⟨tick, htick, hk⟩ := List.mem_filterMap.mp (List.mem_of_getLast? hread)
      refine log.fits k (List.mem_cons_of_mem _ (List.mem_flatMap.mpr ⟨tick, htick, ?_⟩))
      exact List.mem_append_right _ (Option.mem_toList.mpr hk)
  -- the first tick only sets the offset
  have hvalues : log.values = acceptErrors log.bytes log.later ⟨true, true, some log.first⟩ := by
    unfold values
    rw [acceptErrors, List.tail_cons]
    unfold acceptErrorDelta
    rw [log.seen]
    rfl
  unfold appended
  rw [hvalues, sum_acceptErrors log.grows fun n hn => log.fits n (List.mem_cons_of_mem _ hn),
    occurrences_slice hne (le_lastPlace hordered) hlast]
  exact (sumBetween_eq_iff hne hordered).2

/-! ### A marker in two texts -/

/-- A log of one error message, of which the first read has the first half. -/
def cutLog : GrowingLog where
  bytes     := markerBytes
  first     := 0
  firstTick := .readable 0 0
  later     := [.readable 17 17, .readable 35 35]
  seen      := rfl
  grows     := by decide
  fits      := by decide +kernel

/-- The message is in the log, and no tick has counted it. -/
theorem marker_cut_missed : cutLog.values = [some 0, some 0] ∧
    occurrences markerBytes cutLog.appended = 1 := by
  decide +kernel

end GrowingLog

end Conductress.ServerSampler
