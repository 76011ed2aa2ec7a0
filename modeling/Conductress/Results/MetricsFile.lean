import Conductress.Lib.Transition
import Conductress.Results.TailReader

/-!
# The metrics of a running benchmark

`append_metric` writes a line of JSON, `read_metrics` reads the lines that came
after the position of the last read. A read may see any part of what is written.

* `reads_whole`: if no read ends inside a record, the last one returns what was
  appended. A record may be seen without its newline.
* `torn_read_loses`: a read that ends inside a record moves the position past its
  first part, and neither part is a metric.
-/

namespace Conductress.Results

open Lib

/-- `MetricData`. -/
structure MetricData where
  metrics   : Json
  timestamp : Json
  source    : Json
  rep       : Json
  deriving DecidableEq

namespace MetricData

/-- `asdict(metric)`. -/
def asdict (m : MetricData) : Json :=
  .obj [("metrics", m.metrics), ("timestamp", m.timestamp), ("source", m.source), ("rep", m.rep)]

/-- `MetricData(**data)`; `now` is the time that stands for a missing timestamp. -/
def ofData (now : Json) : Json → Except PyError MetricData
  | .obj data =>
    if ¬ ∀ f ∈ data, f.1 ∈ ["metrics", "timestamp", "source", "rep"] then
      .error (.typeError "MetricData.__init__() got an unexpected keyword argument")
    else
      match Json.lookup data "metrics" with
      | none =>
        .error (.typeError "MetricData.__init__() missing 1 required positional argument: 'metrics'")
      | some metrics => .ok {
          metrics
          timestamp := (Json.lookup data "timestamp").getD now
          source    := (Json.lookup data "source").getD (.str "client")
          rep       := (Json.lookup data "rep").getD .null }
  | _ => .error (.typeError "MetricData() argument after ** must be a mapping")

@[simp] theorem ofData_asdict (now : Json) (m : MetricData) : ofData now m.asdict = .ok m := by
  rw [asdict, ofData, if_neg (by simp)]
  rfl

end MetricData

/-- `json.dumps` and `json.loads`. A text is ASCII, so that its characters are
its bytes; the text of a dict is one line between braces. -/
structure JsonLines where
  dumps      : Json → List Char
  loads      : List Char → Except LoadError Json
  no_newline : ∀ value, '\n' ∉ dumps value
  braces     : ∀ fields, ∃ inner, dumps (.obj fields) = '\x7b' :: inner ++ ['\x7d']

/-- A `FileProtocol` as a reader. -/
structure MetricsReader where
  cache    : List MetricData
  position : ℕ
  deriving DecidableEq

namespace MetricsReader

/-- `FileProtocol.__init__`. -/
def init : MetricsReader where
  cache    := []
  position := 0

end MetricsReader

namespace JsonLines

variable (json : JsonLines)

/-- What `append_metric` writes. -/
def record (m : MetricData) : List Char := json.dumps m.asdict ++ ['\n']

/-- The file after the metrics of a log. -/
def fileText (log : List MetricData) : List Char := log.flatMap json.record

/-- The turn of one line; a line that is not a metric is skipped. -/
def readLine (now : Json) (cache : List MetricData) (line : List Char) :
    Except PyError (List MetricData) :=
  let line := PyText.strip line
  if line = [] then .ok cache
  else
    match json.loads line with
    | .error .undecodable => .ok cache
    | .error (.other e) => .error e
    | .ok data =>
      match MetricData.ofData now data with
      | .error (.typeError _) => .ok cache
      | .error e => .error e
      | .ok metric => .ok (cache ++ [metric])

/-- The loop over the lines. What is in the cache when one of them raises stays there. -/
def readLines (now : Json) : List MetricData → List (List Char) →
    List MetricData × Except PyError Unit
  | cache, [] => (cache, .ok ())
  | cache, line :: rest =>
    match json.readLine now cache line with
    | .error e => (cache, .error e)
    | .ok cache => readLines now cache rest

/-- `read_metrics` on the file as it is seen, if it is there. A newline ends a
line, and what follows the last one is a line of its own. -/
def readMetrics (file : Option (List Char)) (now : Json) (r : MetricsReader) :
    MetricsReader × Except PyError (List MetricData) :=
  match file with
  | none => (r, .ok r.cache)
  | some text =>
    -- the file was truncated or replaced
    let r := if text.length < r.position then MetricsReader.init else r
    match json.readLines now r.cache ((text.drop r.position).splitOn '\n') with
    | (cache, .error e) => (⟨cache, r.position⟩, .error e)
    | (cache, .ok ()) => (⟨cache, text.length⟩, .ok cache)

end JsonLines

/-! ## Runs -/

/-- The metrics appended, and the reader. -/
structure MetricsState where
  log    : List MetricData
  reader : MetricsReader
  deriving DecidableEq

namespace MetricsState

def start : MetricsState where
  log    := []
  reader := .init

end MetricsState

inductive MetricsEvent where
  | append (metric : MetricData)
  | read (file : Option (List Char)) (now : Json)

namespace JsonLines

variable (json : JsonLines)

/-- The metric survives its text. -/
def Stored (m : MetricData) : Prop := json.loads (json.dumps m.asdict) = .ok m.asdict

/-- What a read may see of what was appended: any part of it from the start, and
no file only before it. -/
def Observes (log : List MetricData) : Option (List Char) → Prop
  | none => log = []
  | some text => text <+: json.fileText log

/-- A write or a read. -/
def Step (s : MetricsState) (e : MetricsEvent) (t : MetricsState) : Prop :=
  match e with
  | .append m => json.Stored m ∧ t = { s with log := s.log ++ [m] }
  | .read file now => json.Observes s.log file ∧
      t = { s with reader := (json.readMetrics file now s.reader).1 }

/-- So many characters are all of some records, but for the last newline. -/
def Ends (log : List MetricData) (n : ℕ) : Prop :=
  n = (json.fileText log).length ∨ n + 1 = (json.fileText log).length

/-- What is seen ends after a record, or before its newline. -/
def SeesWhole (log : List MetricData) : Option (List Char) → Prop
  | none => True
  | some text => ∃ older newer, log = older ++ newer ∧ json.Ends older text.length

/-- A step whose reads end so. -/
def WholeStep (s : MetricsState) (e : MetricsEvent) (t : MetricsState) : Prop :=
  json.Step s e t ∧ ∀ file now, e = .read file now → json.SeesWhole s.log file

/-- The file when every write is complete. -/
def Complete (log : List MetricData) (file : Option (List Char)) : Prop :=
  file = some (json.fileText log) ∨ (log = [] ∧ file = none)

variable {json}

/-! ### Records and their text -/

@[simp] theorem fileText_nil : json.fileText [] = [] := rfl

@[simp] theorem fileText_cons (m : MetricData) (log : List MetricData) :
    json.fileText (m :: log) = json.dumps m.asdict ++ '\n' :: json.fileText log := by
  rw [fileText, List.flatMap_cons, record, List.append_assoc]
  rfl

@[simp] theorem fileText_append (older newer : List MetricData) :
    json.fileText (older ++ newer) = json.fileText older ++ json.fileText newer :=
  List.flatMap_append

theorem dumps_ne_nil (m : MetricData) : json.dumps m.asdict ≠ [] := by
  obtain ⟨inner, hinner⟩ := json.braces [("metrics", m.metrics), ("timestamp", m.timestamp),
    ("source", m.source), ("rep", m.rep)]
  rw [MetricData.asdict, hinner]
  exact List.cons_ne_nil _ _

theorem strip_dumps (m : MetricData) : PyText.strip (json.dumps m.asdict) = json.dumps m.asdict := by
  obtain ⟨inner, hinner⟩ := json.braces [("metrics", m.metrics), ("timestamp", m.timestamp),
    ("source", m.source), ("rep", m.rep)]
  rw [MetricData.asdict, hinner, PyText.strip, List.cons_append,
    List.dropWhile_cons_of_neg (by decide), ← List.cons_append, List.reverse_append,
    List.reverse_singleton, List.singleton_append, List.dropWhile_cons_of_neg (by decide),
    List.reverse_cons, List.reverse_reverse]

/-- A log ends with a newline if it has a record. -/
theorem exists_fileText_eq {log : List MetricData} (h : log ≠ []) :
    ∃ older m, log = older ++ [m] ∧
      json.fileText log = json.fileText older ++ json.dumps m.asdict ++ ['\n'] := by
  refine ⟨log.dropLast, log.getLast h, (List.dropLast_append_getLast h).symm, ?_⟩
  conv_lhs => rw [← List.dropLast_append_getLast h]
  rw [fileText_append, fileText_cons, fileText_nil, List.append_assoc]

theorem one_lt_length_fileText {log : List MetricData} (h : log ≠ []) :
    1 < (json.fileText log).length := by
  obtain ⟨older, m, -, htext⟩ := @exists_fileText_eq json _ h
  have hdumps := List.length_pos_iff.mpr (@dumps_ne_nil json m)
  rw [htext, List.length_append, List.length_append, List.length_singleton]
  omega

/-! ### Reading whole records -/

/-- The line of a record adds its metric. -/
theorem readLine_dumps {m : MetricData} (h : json.Stored m) (now : Json) (cache : List MetricData) :
    json.readLine now cache (json.dumps m.asdict) = .ok (cache ++ [m]) := by
  rw [readLine, strip_dumps]
  rw [if_neg (dumps_ne_nil m), h]
  simp only [MetricData.ofData_asdict]

@[simp] theorem readLine_blank (now : Json) (cache : List MetricData) :
    json.readLine now cache [] = .ok cache := rfl

/-- A line and its newline, before the rest of the text. -/
theorem readLines_line {line : List Char} (hline : '\n' ∉ line) (rest : List Char) (now : Json)
    {cache cache' : List MetricData} (h : json.readLine now cache line = .ok cache') :
    json.readLines now cache ((line ++ '\n' :: rest).splitOn '\n') =
      json.readLines now cache' (rest.splitOn '\n') := by
  rw [List.splitOn_append_cons_self_of_not_mem hline, readLines, h]

/-- A line that nothing follows. -/
theorem readLines_last {line : List Char} (hline : '\n' ∉ line) (now : Json)
    {cache cache' : List MetricData} (h : json.readLine now cache line = .ok cache') :
    json.readLines now cache (line.splitOn '\n') = (cache', .ok ()) := by
  rw [List.splitOn_eq_singleton hline, readLines, h]
  rfl

/-- The records of a log, before the rest of the text. -/
theorem readLines_fileText {log : List MetricData} (h : ∀ m ∈ log, json.Stored m)
    (rest : List Char) (now : Json) (cache : List MetricData) :
    json.readLines now cache ((json.fileText log ++ rest).splitOn '\n') =
      json.readLines now (cache ++ log) (rest.splitOn '\n') := by
  induction log generalizing cache with
  | nil => rw [fileText_nil, List.nil_append, List.append_nil]
  | cons m log ih =>
    obtain ⟨hm, hlog⟩ := List.forall_mem_cons.mp h
    rw [fileText_cons, List.append_assoc, List.cons_append,
      readLines_line (json.no_newline _) _ now (readLine_dumps hm now cache), ih hlog,
      List.append_assoc, List.singleton_append]

theorem readLines_nothing (now : Json) (cache : List MetricData) :
    json.readLines now cache ([].splitOn '\n') = (cache, .ok ()) :=
  readLines_last List.not_mem_nil now (readLine_blank now cache)

/-- What is seen of the records after a border, when it ends after one of them or
before its newline. -/
theorem readLines_take {older newer : List MetricData} (h : ∀ m ∈ older, json.Stored m) {n : ℕ}
    (hn : json.Ends older n) (now : Json) (cache : List MetricData) :
    json.readLines now cache (((json.fileText (older ++ newer)).take n).splitOn '\n') =
      (cache ++ older, .ok ()) := by
  rw [fileText_append]
  -- the last record with its newline, or without it
  rcases hn with rfl | hn
  · rw [List.take_left, ← List.append_nil (json.fileText older), readLines_fileText h,
      readLines_nothing]
  · have hsome : older ≠ [] := by
      rintro rfl
      cases hn
    obtain ⟨earlier, m, rfl, htext⟩ := @exists_fileText_eq json _ hsome
    have htake : n = (json.fileText earlier ++ json.dumps m.asdict).length := by
      rw [htext, List.length_append, List.length_singleton] at hn
      exact Nat.succ_injective hn
    rw [htext, htake, List.append_assoc (_ ++ _), List.take_left,
      readLines_fileText fun k hk => h k (List.mem_append_left _ hk),
      readLines_last (json.no_newline _) now
        (readLine_dumps (h m (List.mem_append_right _ (List.mem_singleton_self m))) now _),
      List.append_assoc]

/-- The same from a position before the newline at the border. -/
theorem readLines_border {older newer log : List MetricData} (h : ∀ m ∈ newer, json.Stored m)
    {position n : ℕ} (hposition : json.Ends older position) (hn : json.Ends (older ++ newer) n)
    (hle : position ≤ n) (now : Json) (cache : List MetricData) :
    json.readLines now cache
        ((((json.fileText (older ++ newer ++ log)).take n).drop position).splitOn '\n') =
      (cache ++ newer, .ok ()) := by
  rw [List.append_assoc, fileText_append]
  -- how far into the new records is seen, when the border is after the old ones
  have hends : ∀ k, n = (json.fileText older).length + k → json.Ends newer k := by
    intro k hk
    unfold Ends at hn ⊢
    rw [fileText_append, List.length_append] at hn
    omega
  rcases hposition with hposition | hposition
  · obtain ⟨k, rfl⟩ := Nat.exists_eq_add_of_le hle
    rw [hposition, List.take_length_add_append, List.drop_left]
    exact readLines_take h (hends k (by rw [hposition])) now cache
  · have hsome : older ≠ [] := by
      rintro rfl
      cases hposition
    obtain ⟨earlier, m, rfl, htext⟩ := @exists_fileText_eq json _ hsome
    have hborder : position = (json.fileText earlier ++ json.dumps m.asdict).length := by
      rw [htext, List.length_append, List.length_singleton] at hposition
      exact Nat.succ_injective hposition
    obtain ⟨k, rfl⟩ := Nat.exists_eq_add_of_le hle
    rw [htext, hborder, List.append_assoc, List.take_length_add_append, List.drop_left]
    -- the newline that was not seen before makes a blank line
    cases k with
    | zero =>
      -- nothing new is seen
      have hnone : newer = [] := by
        by_contra hne
        have hlong := @one_lt_length_fileText json _ hne
        unfold Ends at hn
        rw [fileText_append, List.length_append] at hn
        omega
      rw [List.take_zero, readLines_nothing, hnone, List.append_nil]
    | succ k =>
      rw [List.singleton_append, List.take_succ_cons,
        ← List.nil_append ('\n' :: _), readLines_line List.not_mem_nil _ now
          (readLine_blank now cache)]
      exact readLines_take h (hends k (by omega)) now cache

/-! ### The reader -/

variable (json) in
/-- The reader has the first metrics of the log, and is after the last of them or
before its newline. -/
structure Reads (s : MetricsState) : Prop where
  stored : ∀ m ∈ s.log, json.Stored m
  cached : s.reader.cache <+: s.log
  ends   : json.Ends s.reader.cache s.reader.position

theorem start_reads : json.Reads .start where
  stored _ h := nomatch h
  cached := List.nil_prefix
  ends := .inl rfl

/-- **One read** of whole records has the metrics of all of them in the cache. -/
theorem readMetrics_whole {s : MetricsState} (h : json.Reads s) {text : List Char}
    (hobserved : json.Observes s.log (some text)) {older newer : List MetricData}
    (hlog : s.log = older ++ newer) (hends : json.Ends older text.length) (now : Json) :
    json.readMetrics (some text) now s.reader = (⟨older, text.length⟩, .ok older) := by
  have htext : text = (json.fileText s.log).take text.length := List.prefix_iff_eq_take.mp hobserved
  have hstored := h.stored
  rw [hlog] at htext hstored
  rw [readMetrics]
  by_cases hshort : text.length < s.reader.position
  · -- all is read again
    rw [if_pos hshort, MetricsReader.init, List.drop_zero]
    conv in text.splitOn _ => rw [htext]
    rw [readLines_take (fun m hm => hstored m (List.mem_append_left _ hm)) hends]
    rfl
  · rw [if_neg hshort]
    have hcached : s.reader.cache <+: older := by
      have hcached := h.cached
      rw [hlog] at hcached
      -- both are the start of what was appended, so one is the start of the other
      rcases List.prefix_or_prefix_of_prefix hcached (List.prefix_append older newer) with hle | hle
      · exact hle
      · -- the records it has are not fewer than those it sees
        obtain ⟨more, hmore⟩ := hle
        have hposition := h.ends
        unfold Ends at hposition hends
        rw [← hmore, fileText_append, List.length_append] at hposition
        have hnone : more = [] := by
          by_contra hne
          have hlong := @one_lt_length_fileText json _ hne
          omega
        have hsame : older = s.reader.cache := by rw [← hmore, hnone, List.append_nil]
        exact hsame ▸ List.prefix_refl _
    obtain ⟨unread, hunread⟩ := hcached
    rw [← hunread] at htext hstored hends ⊢
    conv in text.drop _ => rw [htext]
    rw [readLines_border (fun m hm => hstored m (by simp [hm])) h.ends hends (not_lt.mp hshort)]

theorem reads_of_wholeStep {s t : MetricsState} {e : MetricsEvent} (hstep : json.WholeStep s e t)
    (h : json.Reads s) : json.Reads t := by
  obtain ⟨hstep, hwhole⟩ := hstep
  cases e with
  | append m =>
    obtain ⟨hm, rfl⟩ := hstep
    refine ⟨fun k hk => ?_, h.cached.trans (List.prefix_append _ _), h.ends⟩
    rcases List.mem_append.mp hk with hk | hk
    · exact h.stored k hk
    · rw [List.mem_singleton.mp hk]
      exact hm
  | read file now =>
    obtain ⟨hobserved, rfl⟩ := hstep
    cases file with
    | none => exact h
    | some text =>
      obtain ⟨older, newer, hlog, hends⟩ := hwhole _ _ rfl
      rw [readMetrics_whole h hobserved hlog hends]
      exact ⟨h.stored, ⟨newer, hlog.symm⟩, hends⟩

/-- **No metric is lost or repeated** in a run whose reads end after a record or
before its newline: a read of the complete file returns what was appended. -/
theorem reads_whole {es : List MetricsEvent} {s : MetricsState}
    (hrun : Run json.WholeStep .start es s) {file : Option (List Char)}
    (hfile : json.Complete s.log file) (now : Json) :
    (json.readMetrics file now s.reader).2 = .ok s.log := by
  have h : json.Reads s := hrun.invariant json.Reads start_reads fun _ _ _ => reads_of_wholeStep
  rcases hfile with rfl | ⟨hlog, rfl⟩
  · rw [readMetrics_whole h (List.prefix_refl _) (List.append_nil _).symm (.inl rfl)]
  · have hcached := h.cached
    rw [hlog, List.prefix_nil] at hcached
    rw [readMetrics, hcached, hlog]

/-! ### One metric -/

/-- A metric of a client. -/
def clientMetric : MetricData where
  metrics   := .obj [("rps", .int 1)]
  timestamp := .int 2
  source    := .str "client"
  rep       := .int 1

/-- Its text. -/
def clientText : List Char :=
  "\x7b\"metrics\": \x7b\"rps\": 1\x7d, \"timestamp\": 2, \"source\": \"client\", \"rep\": 1\x7d".toList

/-- `json` as far as this metric needs it. -/
def clientJson : JsonLines where
  dumps _    := clientText
  loads text := if text = clientText then .ok clientMetric.asdict else .error .undecodable
  no_newline _ := by decide
  braces _   := ⟨clientText.tail.dropLast, by decide⟩

theorem clientMetric_stored : clientJson.Stored clientMetric := by
  simp [Stored, clientJson]

/-- The first read sees the metric without its newline. -/
theorem metric_read_before_newline :
    (clientJson.readMetrics (some (clientText ++ '\n' :: clientText ++ ['\n'])) .null
      ⟨[clientMetric], clientText.length⟩).2 = .ok [clientMetric, clientMetric] := by
  have hrun : Run clientJson.WholeStep .start
      [.append clientMetric, .read (some clientText) .null, .append clientMetric]
      ⟨[clientMetric, clientMetric], ⟨[clientMetric], clientText.length⟩⟩ := by
    refine .cons (t := ⟨[clientMetric], .init⟩) ⟨⟨clientMetric_stored, rfl⟩, nofun⟩
      (.cons (t := ⟨[clientMetric], ⟨[clientMetric], clientText.length⟩⟩) ⟨⟨?_, ?_⟩, ?_⟩
        (.single ⟨⟨clientMetric_stored, rfl⟩, nofun⟩))
    · exact ⟨['\n'], by decide⟩
    · decide
    · rintro file now ⟨⟩
      exact ⟨[clientMetric], [], rfl, .inr (by decide)⟩
  exact reads_whole hrun (.inl (by decide)) .null

/-- The first read sees the first half of the metric: the next one returns none. -/
theorem torn_read_loses :
    Run clientJson.Step .start [.append clientMetric, .read (some (clientText.take 30)) .null]
        ⟨[clientMetric], ⟨[], 30⟩⟩ ∧
      (clientJson.readMetrics (some (clientJson.fileText [clientMetric])) .null ⟨[], 30⟩).2 = .ok [] := by
  refine ⟨.cons (t := ⟨[clientMetric], .init⟩) ⟨clientMetric_stored, rfl⟩ (.single ⟨?_, ?_⟩), ?_⟩
  · exact ⟨clientText.drop 30 ++ ['\n'], by decide⟩
  · decide
  · decide

end JsonLines

end Conductress.Results
