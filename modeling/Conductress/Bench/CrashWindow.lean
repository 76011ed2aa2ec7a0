import Mathlib.Data.Bool.AllAny
import Mathlib.Data.List.DropRight
import Mathlib.Data.List.Infix
import Mathlib.Data.List.Sort
import Conductress.Base.DecimalText
import Conductress.Lib.Except

/-!
# The last crash report of a server log

`crash_report_window` on what `grep -n` prints of a log. A log is a list of crash
reports with other lines in between; a report has no end where the process died
inside it.

The function attributes a signal line to the last report if no end of an earlier report
is between them. The signal lines of reports without an end are attributed to it too:
`last_report_iff` says when that makes no difference.

* `marks_grepMarkers` — what is read of the output are the marker lines and their numbers;
* `reportWindow_eq` — the window, of marks that come as the reports are.
-/

namespace Conductress.ServerLog

open Lib PyText

/-! ## Markers -/

/-- `CRASH_REPORT_CONTEXT_LINES`. -/
def crashReportContextLines : ℕ := 10

inductive Marker where
  | reportStart
  | reportEnd
  | signal
  deriving DecidableEq

/-- The marker in the text of a line, in the order of the branches. -/
def markerOf (text : List Char) : Option Marker :=
  if "BUG REPORT START".toList <:+: text then some .reportStart
  else if "BUG REPORT END".toList <:+: text then some .reportEnd
  else if "CRASHED BY SIGNAL".toList <:+: text then some .signal
  else none

/-- What `str.splitlines` breaks at. -/
def isLineBreak (c : Char) : Bool :=
  decide (c.toNat ∈ [0x0a, 0x0b, 0x0c, 0x0d, 0x1c, 0x1d, 0x1e, 0x85, 0x2028, 0x2029])

/-- The turn of a line: its number and its marker, if it has both. A line break of two
characters, or at the end, makes for an empty line, which has neither. -/
def markLine (raw : List Char) : Except PyError (Option (ℕ × Marker)) :=
  match splitAt (· = ':') raw with
  -- a line without a colon is passed over
  | (_, none) => .ok none
  | (lineno, some text) =>
    -- `isdigit` is checked before `int` is called, which can still find too many digits
    if strip lineno ≠ [] ∧ (strip lineno).all isDigit then
      match parseInt (String.ofList lineno) with
      | some n => .ok ((markerOf text).map fun marker => (n.toNat, marker))
      | none => .error (.valueError "Exceeds the limit (4300 digits) for integer string conversion")
    else .ok none

/-- The line numbers of a kind. -/
def linesOf (marker : Marker) (marks : List (ℕ × Marker)) : List ℕ :=
  (marks.filter fun mark => decide (mark.2 = marker)).map Prod.fst

/-- The loop over the signal lines. -/
def firstSignal (precedingEnd : ℕ) (signals : List ℕ) (anchor : ℕ) : ℕ :=
  signals.foldl (fun anchor sig => if precedingEnd < sig ∧ sig < anchor then sig else anchor) anchor

/-- `crash_report_window`, once the lines have been read. -/
def reportWindow (marks : List (ℕ × Marker)) : Option (ℕ × Option ℕ) :=
  let starts := linesOf .reportStart marks
  let ends := linesOf .reportEnd marks
  let signals := linesOf .signal marks
  -- the last start, or the last signal line of a log without a start
  (if starts = [] then signals.max? else starts.max?).map fun anchor =>
    let precedingEnd := ((ends.filter fun e => decide (e < anchor)).max?).getD 0
    -- a signal line belongs to the report if no end is between them
    let anchor := firstSignal precedingEnd signals anchor
    (max 1 (anchor - crashReportContextLines), (ends.filter fun e => decide (anchor < e)).min?)

/-- `crash_report_window`. -/
def crashReportWindow (markerLines : List Char) : Except PyError (Option (ℕ × Option ℕ)) :=
  ((markerLines.splitOnP isLineBreak).mapM markLine).map fun marks =>
    reportWindow (marks.filterMap id)

/-! ## The log -/

/-- What `grep 'CRASHED BY SIGNAL\|=== VALKEY BUG REPORT'` selects. -/
def Grepped (text : List Char) : Prop :=
  "CRASHED BY SIGNAL".toList <:+: text ∨ "=== VALKEY BUG REPORT".toList <:+: text

instance (text : List Char) : Decidable (Grepped text) := inferInstanceAs (Decidable (_ ∨ _))

/-- `grep -n`, on a log whose first line has number `n`. -/
def grepMarkers (n : ℕ) : List (List Char) → List Char
  | [] => []
  | text :: log =>
    if Grepped text then (toString n).toList ++ ':' :: text ++ '\n' :: grepMarkers (n + 1) log
    else grepMarkers (n + 1) log

/-- A line with a marker. -/
structure MarkerLine (marker : Marker) where
  text    : List Char
  grepped : Grepped text
  marked  : markerOf text = some marker
  plain   : ∀ c ∈ text, isLineBreak c = false

/-- A line without one. -/
structure OtherLine where
  text     : List Char
  unmarked : Grepped text → markerOf text = none ∧ ∀ c ∈ text, isLineBreak c = false

/-- The lines before a report, and the report: its signal line, if it has one, and what is
between that and its start, and its end, unless the process died inside it. -/
structure CrashReport where
  before : List OtherLine
  signal : Option (MarkerLine .signal × List OtherLine)
  start  : MarkerLine .reportStart
  body   : List OtherLine
  stop   : Option (MarkerLine .reportEnd)

namespace CrashReport

variable (r : CrashReport)

def signalLines : List (List Char) :=
  r.signal.elim [] fun signal => signal.1.text :: signal.2.map OtherLine.text

def stopLines : List (List Char) := r.stop.toList.map MarkerLine.text

def lines : List (List Char) :=
  r.before.map OtherLine.text ++ r.signalLines ++ r.start.text :: r.body.map OtherLine.text ++
    r.stopLines

/-- The line of the start, in a log in which the report begins at line `n`. -/
def startAt (n : ℕ) : ℕ := n + r.before.length + r.signalLines.length

def signalAt (n : ℕ) : Option ℕ := r.signal.map fun _ => n + r.before.length

def stopAt (n : ℕ) : Option ℕ := r.stop.map fun _ => r.startAt n + r.body.length + 1

/-- The line of the report's first marker. -/
def firstAt (n : ℕ) : ℕ := (r.signalAt n).getD (r.startAt n)

end CrashReport

/-- A log with crash reports; a file has fewer than 2^63 bytes, and so lines. -/
structure CrashLog where
  earlier  : List CrashReport
  last     : CrashReport
  trailing : List OtherLine
  fits     : (earlier.flatMap CrashReport.lines ++ last.lines ++
    trailing.map OtherLine.text).length < 2 ^ 63

namespace CrashLog

variable (log : CrashLog)

def lines : List (List Char) :=
  log.earlier.flatMap CrashReport.lines ++ log.last.lines ++ log.trailing.map OtherLine.text

/-- The line the last report begins at. -/
def lastAt : ℕ := 1 + (log.earlier.flatMap CrashReport.lines).length

/-- The earlier reports that no end separates from the last one. -/
def openBefore : List CrashReport := log.earlier.rtakeWhile fun r => r.stop.isNone

end CrashLog

/-! ## What is read -/

/-- The marker lines of a log and their numbers. -/
def marksFrom (n : ℕ) : List (List Char) → List (ℕ × Marker)
  | [] => []
  | text :: log =>
    if Grepped text then
      ((markerOf text).map fun marker => (n, marker)).toList ++ marksFrom (n + 1) log
    else marksFrom (n + 1) log

section Read

variable {n : ℕ} {log log' : List (List Char)} {text : List Char}

theorem marksFrom_append : marksFrom n (log ++ log') =
    marksFrom n log ++ marksFrom (n + log.length) log' := by
  induction log generalizing n with
  | nil => rfl
  | cons text log ih =>
    have hlength : n + (text :: log).length = n + 1 + log.length := by
      rw [List.length_cons]
      omega
    rw [List.cons_append, marksFrom, marksFrom, ih, hlength]
    split
    · rw [List.append_assoc]
    · rfl

/-- The numbers are those of lines of the log. -/
theorem mem_marksFrom {mark : ℕ × Marker} (h : mark ∈ marksFrom n log) :
    n ≤ mark.1 ∧ mark.1 < n + log.length := by
  induction log generalizing n with
  | nil => cases h
  | cons text log ih =>
    rw [marksFrom] at h
    rw [List.length_cons]
    -- the rest of the log begins one line later
    have hrest : mark ∈ marksFrom (n + 1) log → n ≤ mark.1 ∧ mark.1 < n + (log.length + 1) := by
      intro hmem
      obtain ⟨hge, hlt⟩ := ih hmem
      omega
    split at h
    · rcases List.mem_append.mp h with hhere | hmem
      · obtain ⟨marker, -, rfl⟩ := Option.map_eq_some_iff.mp (Option.mem_toList.mp hhere)
        dsimp only
        omega
      · exact hrest hmem
    · exact hrest h

/-- No digit is a line break, since every line break is a space. -/
theorem isLineBreak_of_isDigit {c : Char} (h : isDigit c = true) : isLineBreak c = false := by
  have hspaces : ∀ k ∈ [0x0a, 0x0b, 0x0c, 0x0d, 0x1c, 0x1d, 0x1e, 0x85, 0x2028, 0x2029],
      k ∈ [0x09, 0x0a, 0x0b, 0x0c, 0x0d, 0x1c, 0x1d, 0x1e, 0x1f, 0x20, 0x85, 0xa0, 0x1680, 0x2000,
        0x2001, 0x2002, 0x2003, 0x2004, 0x2005, 0x2006, 0x2007, 0x2008, 0x2009, 0x200a, 0x2028,
        0x2029, 0x202f, 0x205f, 0x3000] := by
    decide
  refine decide_eq_false fun hbreak => ?_
  have hspace : isSpace c = true := decide_eq_true (hspaces _ hbreak)
  rw [isSpace_of_isDigit h] at hspace
  cases hspace

/-- A line that `grep -n` prints is read as its number and its marker. -/
theorem markLine_numbered (hn : n < 10 ^ 4300) :
    markLine ((toString n).toList ++ ':' :: text) =
      .ok ((markerOf text).map fun marker => (n, marker)) := by
  have htext : (toString n).toList = Nat.toDigits 10 n := Nat.toList_repr
  have hdigits : ∀ c ∈ (toString n).toList, isDigit c = true := by
    rw [htext]
    exact isDigit_toDigits
  -- the first colon is the one that `grep` has written
  have hcolon : ∀ c ∈ (toString n).toList, decide (c = ':') = false := by
    intro c hc
    refine decide_eq_false fun heq => ?_
    have hdigit := hdigits c hc
    rw [heq] at hdigit
    exact absurd hdigit (by decide)
  have hstrip : strip (toString n).toList = (toString n).toList :=
    strip_of_all fun c hc => isSpace_of_isDigit (hdigits c hc)
  have hne : (toString n).toList ≠ [] := by
    rw [htext]
    exact Nat.toDigits_ne_nil
  unfold markLine
  rw [splitAt_append hcolon (decide_eq_true rfl)]
  dsimp only
  rw [hstrip, if_pos ⟨hne, List.all_eq_true.mpr hdigits⟩, String.ofList_toList, parseInt_toString hn]
  rfl

/-- **What is read** of the output are the marker lines and their numbers. -/
theorem marks_grepMarkers (hfits : n + log.length < 10 ^ 4300)
    (hplain : ∀ text ∈ log, Grepped text → ∀ c ∈ text, isLineBreak c = false) :
    ∃ marks, ((grepMarkers n log).splitOnP isLineBreak).mapM markLine = .ok marks ∧
      marks.filterMap id = marksFrom n log := by
  induction log generalizing n with
  | nil => exact ⟨[none], rfl, rfl⟩
  | cons text log ih =>
    rw [List.length_cons] at hfits
    obtain ⟨marks, hmarks, heq⟩ := ih (n := n + 1) (by omega) fun t ht =>
      hplain t (List.mem_cons_of_mem text ht)
    unfold grepMarkers marksFrom
    split
    · next hgrepped =>
      have hn : n < 10 ^ 4300 := by omega
      -- what `grep` prints of a line is not broken inside it
      have hline : ∀ c ∈ (toString n).toList ++ ':' :: text, isLineBreak c = false := by
        intro c hc
        have htext : (toString n).toList = Nat.toDigits 10 n := Nat.toList_repr
        rcases List.mem_append.mp hc with hdigit | hrest
        · rw [htext] at hdigit
          exact isLineBreak_of_isDigit (isDigit_toDigits c hdigit)
        · rcases List.mem_cons.mp hrest with rfl | hmem
          · rfl
          · exact hplain text List.mem_cons_self hgrepped c hmem
      rw [List.splitOnP_append_cons_of_forall_mem hline '\n' rfl, List.mapM_cons, markLine_numbered hn, hmarks]
      refine ⟨_, rfl, ?_⟩
      rw [List.filterMap_cons, heq]
      cases markerOf text with
      | none => rfl
      | some marker => rfl
    · exact ⟨marks, hmarks, heq⟩

end Read

/-! ## The marks of a report -/

section Marks

variable {n : ℕ}

/-- Lines without a marker leave no mark. -/
theorem marksFrom_others (others : List OtherLine) : marksFrom n (others.map OtherLine.text) = [] := by
  induction others generalizing n with
  | nil => rfl
  | cons other others ih =>
    rw [List.map_cons, marksFrom, ih]
    split
    · next hgrepped =>
      rw [(other.unmarked hgrepped).1]
      rfl
    · rfl

/-- A line with a marker leaves its mark. -/
theorem marksFrom_marker {marker : Marker} (line : MarkerLine marker) (log : List (List Char)) :
    marksFrom n (line.text :: log) = (n, marker) :: marksFrom (n + 1) log := by
  rw [marksFrom, if_pos line.grepped, line.marked]
  rfl

namespace CrashReport

variable (r : CrashReport)

/-- **The marks of a report**, in order. -/
def marks (n : ℕ) : List (ℕ × Marker) :=
  (r.signalAt n).toList.map (·, Marker.signal) ++
    (r.startAt n, Marker.reportStart) :: (r.stopAt n).toList.map (·, Marker.reportEnd)

theorem marksFrom_signalLines : marksFrom (n + r.before.length) r.signalLines =
    (r.signalAt n).toList.map (·, Marker.signal) := by
  unfold signalLines signalAt
  cases r.signal with
  | none => rfl
  | some signal =>
    show marksFrom _ (signal.1.text :: signal.2.map OtherLine.text) = _
    rw [marksFrom_marker, marksFrom_others]
    rfl

theorem marksFrom_stopLines : marksFrom (r.startAt n + r.body.length + 1) r.stopLines =
    (r.stopAt n).toList.map (·, Marker.reportEnd) := by
  unfold stopLines stopAt
  cases r.stop with
  | none => rfl
  | some stop => exact marksFrom_marker stop []

theorem marksFrom_lines : marksFrom n r.lines = r.marks n := by
  unfold lines marks
  rw [List.append_assoc, List.append_assoc, marksFrom_append, marksFrom_append, marksFrom_others,
    List.nil_append, List.length_map, marksFrom_signalLines]
  congr 1
  rw [List.cons_append, marksFrom_marker, marksFrom_append, marksFrom_others, List.nil_append,
    List.length_map]
  have hstop := r.marksFrom_stopLines (n := n)
  unfold startAt at hstop ⊢
  rw [← hstop]
  congr 2
  omega

/-- The signal line of a report is before its start. -/
theorem signalAt_lt {n k : ℕ} (hk : k ∈ r.signalAt n) : n ≤ k ∧ k < r.startAt n := by
  obtain ⟨signal, hsignal, rfl⟩ := Option.map_eq_some_iff.mp hk
  have hpos : 0 < r.signalLines.length := by
    unfold signalLines
    rw [hsignal]
    exact Nat.succ_pos _
  unfold startAt
  omega

theorem le_firstAt (n : ℕ) : n ≤ r.firstAt n := by
  unfold firstAt
  cases hsignal : r.signalAt n with
  | none =>
    show n ≤ n + r.before.length + _
    omega
  | some k => exact (r.signalAt_lt hsignal).1

theorem length_lines : r.lines.length =
    r.before.length + r.signalLines.length + 1 + r.body.length + r.stopLines.length := by
  unfold lines
  simp only [List.length_append, List.length_cons, List.length_map]
  omega

end CrashReport

end Marks

/-! ## The window -/

section Window

variable {marker : Marker} {marks marks' : List (ℕ × Marker)}

@[simp] theorem linesOf_nil : linesOf marker [] = [] := rfl

@[simp] theorem linesOf_append :
    linesOf marker (marks ++ marks') = linesOf marker marks ++ linesOf marker marks' := by
  unfold linesOf
  rw [List.filter_append, List.map_append]

@[simp] theorem linesOf_cons (mark : ℕ × Marker) : linesOf marker (mark :: marks) =
    if mark.2 = marker then mark.1 :: linesOf marker marks else linesOf marker marks := by
  unfold linesOf
  rw [List.filter_cons]
  split <;> split
  · rfl
  · simp_all
  · simp_all
  · rfl

theorem mem_linesOf {k : ℕ} : k ∈ linesOf marker marks ↔ (k, marker) ∈ marks := by
  unfold linesOf
  constructor
  · intro h
    obtain ⟨mark, hmark, rfl⟩ := List.mem_map.mp h
    obtain ⟨hmem, hkind⟩ := List.mem_filter.mp hmark
    rw [← of_decide_eq_true hkind]
    exact hmem
  · intro h
    exact List.mem_map.mpr ⟨_, List.mem_filter.mpr ⟨h, decide_eq_true rfl⟩, rfl⟩

theorem linesOf_eq_nil_iff : linesOf marker marks = [] ↔ ∀ mark ∈ marks, mark.2 ≠ marker := by
  rw [List.eq_nil_iff_forall_not_mem]
  constructor
  · rintro h ⟨k, m⟩ hmark rfl
    exact h k (mem_linesOf.mpr hmark)
  · exact fun h k hk => h _ (mem_linesOf.mp hk) rfl

/-- Signal lines that an end separates from the report, and later ones, are not taken. -/
theorem firstSignal_skip {precedingEnd anchor : ℕ} {signals : List ℕ}
    (h : ∀ sig ∈ signals, ¬ (precedingEnd < sig ∧ sig < anchor)) :
    firstSignal precedingEnd signals anchor = anchor := by
  induction signals with
  | nil => rfl
  | cons sig signals ih =>
    unfold firstSignal
    rw [List.foldl_cons, if_neg (h sig List.mem_cons_self)]
    exact ih fun s hs => h s (List.mem_cons_of_mem sig hs)

/-- The first of the others is. -/
theorem firstSignal_eq {precedingEnd anchor : ℕ} {old signals : List ℕ}
    (hold : ∀ sig ∈ old, sig ≤ precedingEnd) (hordered : signals.Pairwise (· < ·))
    (hsignals : ∀ sig ∈ signals, precedingEnd < sig ∧ sig < anchor) :
    firstSignal precedingEnd (old ++ signals) anchor = signals.head?.getD anchor := by
  -- the signal lines before the last end change nothing, and the first one after it is the
  -- lowest
  have hskip : firstSignal precedingEnd old anchor = anchor :=
    firstSignal_skip fun sig hsig h => by
      have hle := hold sig hsig
      omega
  unfold firstSignal at hskip ⊢
  rw [List.foldl_append, hskip]
  cases signals with
  | nil => rfl
  | cons sig signals =>
    -- the first signal line is taken, and those after it are higher
    rw [List.foldl_cons, if_pos (hsignals sig List.mem_cons_self)]
    refine firstSignal_skip fun s hs h => ?_
    have hlt := (List.pairwise_cons.mp hordered).1 s hs
    omega

variable {old opened : List (ℕ × Marker)} {p n s : ℕ} {signal stop : Option ℕ}

/-- The last end before the last report. -/
theorem maxEnd_eq (hold : ∀ mark ∈ old, mark.1 ≤ p)
    (hend : p = 0 ∨ (p, Marker.reportEnd) ∈ old) (hp : p < s) (hstop : ∀ k ∈ stop, s < k) :
    (((linesOf .reportEnd old ++ stop.toList).filter fun e => decide (e < s)).max?).getD 0 = p := by
  have hfilter : (linesOf .reportEnd old ++ stop.toList).filter (fun e => decide (e < s)) =
      linesOf .reportEnd old := by
    rw [List.filter_append, List.filter_eq_self.mpr, List.filter_eq_nil_iff.mpr, List.append_nil]
    · intro k hk hlt
      exact absurd (hstop k (Option.mem_toList.mp hk)) (not_lt.mpr (of_decide_eq_true hlt).le)
    · intro k hk
      exact decide_eq_true ((hold _ (mem_linesOf.mp hk)).trans_lt hp)
  rw [hfilter]
  -- the end at line `p`, if it is one, is the last of them
  cases hmax : (linesOf .reportEnd old).max? with
  | none =>
    rw [List.max?_eq_none_iff] at hmax
    rcases hend with rfl | hmem
    · rfl
    · have hin := mem_linesOf.mpr hmem
      rw [hmax] at hin
      cases hin
  | some k =>
    obtain ⟨hk, hmost⟩ := List.max?_eq_some_iff.mp hmax
    have hle : k ≤ p := hold _ (mem_linesOf.mp hk)
    show k = p
    rcases hend with rfl | hmem
    · omega
    · have hge : p ≤ k := hmost p (mem_linesOf.mpr hmem)
      omega

/-- The first end after the last report's first marker is its own. -/
theorem minEnd_eq {anchor : ℕ} (hold : ∀ mark ∈ old, mark.1 ≤ p) (hp : p < anchor)
    (hanchor : anchor ≤ s) (hstop : ∀ k ∈ stop, s < k) :
    ((linesOf .reportEnd old ++ stop.toList).filter fun e => decide (anchor < e)).min? = stop := by
  rw [List.filter_append, List.filter_eq_nil_iff.mpr, List.filter_eq_self.mpr, List.nil_append]
  · cases stop <;> rfl
  · intro k hk
    exact decide_eq_true (hanchor.trans_lt (hstop k (Option.mem_toList.mp hk)))
  · intro k hk hlt
    have hle : k ≤ p := hold _ (mem_linesOf.mp hk)
    have hlt' := of_decide_eq_true hlt
    omega

/-- **The window** of marks that come as those of crash reports do: up to the last earlier
end, from there to line `n`, and those of the last report. -/
theorem reportWindow_eq (hold : ∀ mark ∈ old, mark.1 ≤ p)
    (hend : p = 0 ∨ (p, Marker.reportEnd) ∈ old)
    (hopen : ∀ mark ∈ opened, p < mark.1 ∧ mark.1 < n ∧ mark.2 ≠ Marker.reportEnd)
    (hordered : (linesOf .signal opened).Pairwise (· < ·)) (hp : p < n)
    (hsignal : ∀ k ∈ signal, n ≤ k ∧ k < s) (hs : n ≤ s) (hstop : ∀ k ∈ stop, s < k) :
    reportWindow (old ++ opened ++ (signal.toList.map (·, Marker.signal) ++
        (s, Marker.reportStart) :: stop.toList.map (·, Marker.reportEnd))) =
      some (max 1 ((linesOf .signal opened ++ signal.toList).head?.getD s - 10), stop) := by
  have hstarts : linesOf .reportStart (old ++ opened ++ (signal.toList.map (·, Marker.signal) ++
      (s, Marker.reportStart) :: stop.toList.map (·, Marker.reportEnd))) =
      linesOf .reportStart old ++ linesOf .reportStart opened ++ [s] := by
    cases signal <;> cases stop <;> simp
  have hends : linesOf .reportEnd (old ++ opened ++ (signal.toList.map (·, Marker.signal) ++
      (s, Marker.reportStart) :: stop.toList.map (·, Marker.reportEnd))) =
      linesOf .reportEnd old ++ stop.toList := by
    have hnone : linesOf .reportEnd opened = [] :=
      linesOf_eq_nil_iff.mpr fun mark hmark => (hopen mark hmark).2.2
    cases signal <;> cases stop <;> simp [hnone]
  have hsignals : linesOf .signal (old ++ opened ++ (signal.toList.map (·, Marker.signal) ++
      (s, Marker.reportStart) :: stop.toList.map (·, Marker.reportEnd))) =
      linesOf .signal old ++ (linesOf .signal opened ++ signal.toList) := by
    cases signal <;> cases stop <;> simp
  -- no end is between these signal lines and the last start
  have hlate : ∀ k ∈ linesOf .signal opened ++ signal.toList, p < k ∧ k < s := by
    intro k hk
    rcases List.mem_append.mp hk with hopened | hlast
    · obtain ⟨hlow, hhigh, -⟩ := hopen _ (mem_linesOf.mp hopened)
      exact ⟨hlow, by omega⟩
    · obtain ⟨hlow, hhigh⟩ := hsignal k (Option.mem_toList.mp hlast)
      exact ⟨by omega, hhigh⟩
  have hsorted : (linesOf .signal opened ++ signal.toList).Pairwise (· < ·) := by
    refine List.pairwise_append.mpr ⟨hordered, ?_, fun j hj k hk => ?_⟩
    · cases signal <;> simp
    · obtain ⟨-, hhigh, -⟩ := hopen _ (mem_linesOf.mp hj)
      have hlow := (hsignal k (Option.mem_toList.mp hk)).1
      omega
  have hmaxStart : (linesOf .reportStart old ++ linesOf .reportStart opened ++ [s]).max? = some s := by
    refine List.max?_eq_some_iff.mpr ⟨by simp, fun k hk => ?_⟩
    rcases List.mem_append.mp hk with hearlier | hlast
    · rcases List.mem_append.mp hearlier with hk | hk
      · have hle : k ≤ p := hold _ (mem_linesOf.mp hk)
        omega
      · have hlt : k < n := (hopen _ (mem_linesOf.mp hk)).2.1
        omega
    · exact (List.mem_singleton.mp hlast).le
  -- the window begins after the last end, wherever it does
  have hafter : p < (linesOf .signal opened ++ signal.toList).head?.getD s ∧
      (linesOf .signal opened ++ signal.toList).head?.getD s ≤ s := by
    cases hfirst : (linesOf .signal opened ++ signal.toList).head? with
    | none => exact ⟨by show p < s; omega, le_refl s⟩
    | some k =>
      obtain ⟨hlow, hhigh⟩ := hlate k (List.mem_of_mem_head? hfirst)
      exact ⟨hlow, hhigh.le⟩
  unfold reportWindow
  rw [hstarts, hends, hsignals]
  dsimp only
  rw [if_neg (by simp), hmaxStart, Option.map_some, maxEnd_eq hold hend (by omega) hstop,
    firstSignal_eq (fun k hk => hold _ (mem_linesOf.mp hk)) hsorted hlate,
    minEnd_eq hold hafter.1 hafter.2 hstop]
  rfl

end Window

/-! ## The window of a log -/

section Log

variable {n : ℕ} {reports : List CrashReport}

/-- The marks go up. -/
theorem marksFrom_ordered (n : ℕ) (log : List (List Char)) :
    (marksFrom n log).Pairwise fun mark mark' => mark.1 < mark'.1 := by
  induction log generalizing n with
  | nil => exact .nil
  | cons text log ih =>
    rw [marksFrom]
    split
    · cases markerOf text with
      | none => exact ih (n + 1)
      | some marker =>
        refine List.pairwise_cons.mpr ⟨fun mark hmark => ?_, ih (n + 1)⟩
        have hge := (mem_marksFrom hmark).1
        show n < mark.1
        omega
    · exact ih (n + 1)

/-- Reports without an end leave no mark of one. -/
theorem no_end_of_open (hopen : ∀ r ∈ reports, r.stop = none) :
    ∀ mark ∈ marksFrom n (reports.flatMap CrashReport.lines), mark.2 ≠ .reportEnd := by
  induction reports generalizing n with
  | nil => intro mark hmark; cases hmark
  | cons r reports ih =>
    obtain ⟨hr, hreports⟩ := List.forall_mem_cons.mp hopen
    intro mark hmark
    rw [List.flatMap_cons, marksFrom_append, r.marksFrom_lines] at hmark
    rcases List.mem_append.mp hmark with hhere | hlater
    · unfold CrashReport.marks CrashReport.stopAt at hhere
      rw [hr] at hhere
      simp only [Option.map_none, Option.toList_none, List.map_nil, List.mem_append, List.mem_map,
        List.mem_singleton] at hhere
      -- a signal line or a start
      rcases hhere with ⟨k, -, rfl⟩ | rfl
      · exact Marker.noConfusion
      · exact Marker.noConfusion
    · exact ih hreports mark hlater

/-- They leave the mark of a signal, if one of them has a signal line. -/
theorem signals_eq_nil_iff :
    linesOf .signal (marksFrom n (reports.flatMap CrashReport.lines)) = [] ↔
      ∀ r ∈ reports, r.signal = none := by
  induction reports generalizing n with
  | nil => exact ⟨fun _ r hr => absurd hr List.not_mem_nil, fun _ => rfl⟩
  | cons r reports ih =>
    have hhere : linesOf .signal (r.marks n) = (r.signalAt n).toList := by
      unfold CrashReport.marks
      cases r.signalAt n <;> cases r.stopAt n <;> simp
    rw [List.flatMap_cons, marksFrom_append, r.marksFrom_lines, linesOf_append, hhere,
      List.append_eq_nil_iff, ih, List.forall_mem_cons]
    unfold CrashReport.signalAt
    cases r.signal <;> simp

/-- The last line of reports of which the last one has an end is that end. -/
theorem last_end (reports : List CrashReport) {r : CrashReport} (hr : r.stop ≠ none) :
    (((reports ++ [r]).flatMap CrashReport.lines).length, Marker.reportEnd) ∈
      marksFrom 1 ((reports ++ [r]).flatMap CrashReport.lines) := by
  obtain ⟨stop, hstop⟩ := Option.ne_none_iff_exists'.mp hr
  have hlines : r.stopLines.length = 1 := by
    unfold CrashReport.stopLines
    rw [hstop]
    rfl
  rw [List.flatMap_append, List.flatMap_singleton, marksFrom_append, r.marksFrom_lines,
    List.length_append, r.length_lines, hlines]
  refine List.mem_append_right _ (List.mem_append_right _ (List.mem_cons_of_mem _ ?_))
  unfold CrashReport.stopAt CrashReport.startAt
  rw [hstop]
  refine List.mem_singleton.mpr (Prod.ext ?_ rfl)
  dsimp only
  omega

/-- Every line with a marker is plain. -/
theorem CrashReport.plain_lines {r : CrashReport} :
    ∀ text ∈ r.lines, Grepped text → ∀ c ∈ text, isLineBreak c = false := by
  have hothers : ∀ others : List OtherLine, ∀ text ∈ others.map OtherLine.text, Grepped text →
      ∀ c ∈ text, isLineBreak c = false := by
    intro others text htext hgrepped
    obtain ⟨other, -, rfl⟩ := List.mem_map.mp htext
    exact (other.unmarked hgrepped).2
  intro text htext
  unfold CrashReport.lines at htext
  rcases List.mem_append.mp htext with hfront | hstop
  · rcases List.mem_append.mp hfront with hfront | hrest
    · rcases List.mem_append.mp hfront with hbefore | hsignal
      · exact hothers _ text hbefore
      · unfold CrashReport.signalLines at hsignal
        cases hr : r.signal with
        | none =>
          rw [hr] at hsignal
          cases hsignal
        | some signal =>
          rw [hr] at hsignal
          rcases List.mem_cons.mp hsignal with rfl | hbetween
          · exact fun _ => signal.1.plain
          · exact hothers _ text hbetween
    · rcases List.mem_cons.mp hrest with rfl | hbody
      · exact fun _ => r.start.plain
      · exact hothers _ text hbody
  · unfold CrashReport.stopLines at hstop
    obtain ⟨stop, -, rfl⟩ := List.mem_map.mp hstop
    exact fun _ => stop.plain

namespace CrashLog

variable (log : CrashLog)

theorem plain_lines : ∀ text ∈ log.lines, Grepped text → ∀ c ∈ text, isLineBreak c = false := by
  intro text htext
  unfold lines at htext
  rcases List.mem_append.mp htext with hreports | htrailing
  · rcases List.mem_append.mp hreports with hearlier | hlast
    · obtain ⟨r, -, hr⟩ := List.mem_flatMap.mp hearlier
      exact r.plain_lines text hr
    · exact log.last.plain_lines text hlast
  · obtain ⟨other, -, rfl⟩ := List.mem_map.mp htrailing
    exact fun hgrepped => (other.unmarked hgrepped).2

/-- The reports up to the last earlier one that has an end. -/
def closedBefore : List CrashReport := log.earlier.rdropWhile fun r => r.stop.isNone

/-- The signal lines of the reports that no end separates from the last one. -/
def openSignals : List ℕ :=
  linesOf .signal (marksFrom (1 + (log.closedBefore.flatMap CrashReport.lines).length)
    (log.openBefore.flatMap CrashReport.lines))

theorem closed_append_open : log.closedBefore ++ log.openBefore = log.earlier :=
  List.rdropWhile_append_rtakeWhile

theorem lastAt_eq : log.lastAt = 1 + (log.closedBefore.flatMap CrashReport.lines).length +
    (log.openBefore.flatMap CrashReport.lines).length := by
  unfold lastAt
  rw [← log.closed_append_open, List.flatMap_append, List.length_append]
  omega

/-- The marks of a log. -/
theorem marks_eq : marksFrom 1 log.lines =
    marksFrom 1 (log.closedBefore.flatMap CrashReport.lines) ++
      marksFrom (1 + (log.closedBefore.flatMap CrashReport.lines).length)
        (log.openBefore.flatMap CrashReport.lines) ++ log.last.marks log.lastAt := by
  have hearlier : log.earlier.flatMap CrashReport.lines =
      log.closedBefore.flatMap CrashReport.lines ++ log.openBefore.flatMap CrashReport.lines := by
    rw [← List.flatMap_append, log.closed_append_open]
  unfold lines
  rw [marksFrom_append, marksFrom_others, List.append_nil, marksFrom_append, log.last.marksFrom_lines]
  show marksFrom 1 (log.earlier.flatMap CrashReport.lines) ++ log.last.marks log.lastAt = _
  rw [hearlier, marksFrom_append]

/-- The last line of the closed reports is an end. -/
theorem closed_end : (log.closedBefore.flatMap CrashReport.lines).length = 0 ∨
    ((log.closedBefore.flatMap CrashReport.lines).length, Marker.reportEnd) ∈
      marksFrom 1 (log.closedBefore.flatMap CrashReport.lines) := by
  rcases List.eq_nil_or_concat log.closedBefore with hnil | ⟨reports, r, hlast⟩
  · rw [hnil]
    exact .inl rfl
  · right
    have hne : log.closedBefore ≠ [] := by
      rw [hlast]
      simp
    -- the reports were dropped from the end of the list, up to one that has an end
    have hstop : ¬ (log.closedBefore.getLast hne).stop.isNone :=
      List.rdropWhile_last_not _ log.earlier hne
    have hr : log.closedBefore.getLast hne = r := by
      simp [hlast]
    rw [hr, Option.isNone_iff_eq_none] at hstop
    rw [hlast, List.concat_eq_append]
    exact last_end reports hstop

/-- **The window of a log.** -/
theorem crashReportWindow_eq : crashReportWindow (grepMarkers 1 log.lines) =
    .ok (some (max 1 ((log.openSignals ++ (log.last.signalAt log.lastAt).toList).head?.getD
      (log.last.startAt log.lastAt) - 10), log.last.stopAt log.lastAt)) := by
  have hfits : 1 + log.lines.length < 10 ^ 4300 := by
    have hlines : log.lines.length < 2 ^ 63 := log.fits
    -- line numbers have 19 digits at most
    have hten : 1 + log.lines.length < 10 ^ 19 := by omega
    exact hten.trans_le (Nat.pow_le_pow_right (by decide) (by decide))
  obtain ⟨marks, hmarks, hread⟩ := marks_grepMarkers hfits log.plain_lines
  unfold crashReportWindow
  rw [hmarks]
  show Except.ok (reportWindow (marks.filterMap id)) = _
  rw [hread, log.marks_eq]
  refine congrArg Except.ok (reportWindow_eq
    (p := (log.closedBefore.flatMap CrashReport.lines).length) (n := log.lastAt) ?_ log.closed_end ?_ ?_ ?_ ?_ ?_ ?_)
  · intro mark hmark
    have hlt := (mem_marksFrom hmark).2
    omega
  · intro mark hmark
    obtain ⟨hge, hlt⟩ := mem_marksFrom hmark
    have hlast := log.lastAt_eq
    have hnone : ∀ r ∈ log.openBefore, r.stop = none := fun r hr =>
      Option.isNone_iff_eq_none.mp
        (List.mem_rtakeWhile_imp (p := fun r : CrashReport => r.stop.isNone) hr)
    exact ⟨by omega, by omega, no_end_of_open hnone mark hmark⟩
  · exact List.pairwise_map.mpr ((marksFrom_ordered _ _).sublist List.filter_sublist)
  · have hlast := log.lastAt_eq
    omega
  · intro k hk
    exact log.last.signalAt_lt hk
  · unfold CrashReport.startAt
    omega
  · intro k hk
    obtain ⟨stop, -, rfl⟩ := Option.map_eq_some_iff.mp hk
    omega

/-- The line of the last report's first marker. -/
def firstMarker : ℕ := log.last.firstAt log.lastAt

/-- **The window is that of the last report**, if and only if the reports that no end separates
from it have no signal line, or its first marker is at line 11 or before. -/
theorem last_report_iff : crashReportWindow (grepMarkers 1 log.lines) =
      .ok (some (max 1 (log.firstMarker - crashReportContextLines), log.last.stopAt log.lastAt)) ↔
    (∀ r ∈ log.openBefore, r.signal = none) ∨ log.firstMarker ≤ 11 := by
  rw [log.crashReportWindow_eq, ← signals_eq_nil_iff (n := 1 +
    (log.closedBefore.flatMap CrashReport.lines).length)]
  show _ ↔ log.openSignals = [] ∨ _
  unfold crashReportContextLines
  cases hopen : log.openSignals with
  | nil =>
    have hfirst : (([] : List ℕ) ++ (log.last.signalAt log.lastAt).toList).head?.getD
        (log.last.startAt log.lastAt) = log.firstMarker := by
      unfold firstMarker CrashReport.firstAt
      cases log.last.signalAt log.lastAt <;> rfl
    rw [hfirst]
    exact ⟨fun _ => .inl rfl, fun _ => rfl⟩
  | cons sig signals =>
    -- the open reports come before the last one, and so do their signal lines
    have hlt : sig < log.firstMarker := by
      have hmem : sig ∈ log.openSignals := by
        rw [hopen]
        exact List.mem_cons_self
      have hbefore := (mem_marksFrom (mem_linesOf.mp hmem)).2
      have hlast := log.lastAt_eq
      have hfirst := log.last.le_firstAt log.lastAt
      exact lt_of_lt_of_le (by omega) hfirst
    have hiff : Except.ok (ε := PyError) (some (max 1 (sig - 10), log.last.stopAt log.lastAt)) =
        .ok (some (max 1 (log.firstMarker - 10), log.last.stopAt log.lastAt)) ↔
          max 1 (sig - 10) = max 1 (log.firstMarker - 10) := by
      rw [Except.ok.injEq, Option.some.injEq, Prod.mk.injEq, and_iff_left rfl]
    -- ten lines before either of two lines is the first line, if and only if both are in the
    -- first eleven
    refine hiff.trans ⟨fun heq => .inr (by omega), fun hcases => ?_⟩
    rcases hcases with hnil | hle
    · cases hnil
    · omega

end CrashLog

/-! ### A process that died inside its report -/

def crashedBySignal : MarkerLine .signal where
  text    := "# CRASHED BY SIGNAL 11".toList
  grepped := by decide +kernel
  marked  := by decide +kernel
  plain   := List.all_iff_forall_prop.mp (by decide +kernel)

def reportStart : MarkerLine .reportStart where
  text    := "=== VALKEY BUG REPORT START".toList
  grepped := by decide +kernel
  marked  := by decide +kernel
  plain   := List.all_iff_forall_prop.mp (by decide +kernel)

def reportEnd : MarkerLine .reportEnd where
  text    := "=== VALKEY BUG REPORT END".toList
  grepped := by decide +kernel
  marked  := by decide +kernel
  plain   := List.all_iff_forall_prop.mp (by decide +kernel)

def plainLine : OtherLine where
  text     := "* Ready".toList
  unmarked := fun hgrepped => absurd hgrepped (by decide +kernel)

/-- A crash by a signal whose report has no end, and one by an assertion. -/
def crashedTwice : CrashLog where
  earlier  := [⟨[], some (crashedBySignal, []), reportStart, [], none⟩]
  last     := ⟨List.replicate 12 plainLine, none, reportStart, [], some reportEnd⟩
  trailing := []
  fits     := by decide

/-- The window begins at the first line, the signal line of the first report, and not ten
lines before the start of the last one. -/
theorem open_signal_taken :
    crashReportWindow (grepMarkers 1 crashedTwice.lines) = .ok (some (1, some 16)) ∧
      crashedTwice.firstMarker = 15 ∧ max 1 (15 - crashReportContextLines) = 5 := by
  decide +kernel

end Log

end Conductress.ServerLog
