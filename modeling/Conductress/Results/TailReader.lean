import Conductress.Base.Json

/-!
# Finding a record from the end of a file

`find_record_by_task_id` reads a file of JSON lines backwards in chunks. A chunk
may begin inside a line, so its leftmost part is carried to the chunk before it.

What is read, chunk by chunk, are the lines of the window of the last `max_bytes`
bytes, the newest first: `readBack_eq`. The scan is for the newest record of a
task, and an exception of `json.loads` that is not caught ends it: `finds_iff`.
-/

namespace Conductress.Results

/-! ## Lines -/

/-- `data.split(b"\n")`. -/
def splitLines (data : List UInt8) : List (List UInt8) := data.splitOn 10

/-- How `json.loads` fails: a `JSONDecodeError` or a `UnicodeDecodeError`, or
another exception (a nesting too deep, an integer of too many digits). -/
inductive LoadError where
  | undecodable
  | other (error : PyError)
  deriving DecidableEq

/-- `json.loads` on bytes; no bytes are no JSON. -/
structure LineReader where
  loads       : List UInt8 → Except LoadError Json
  loads_empty : loads [] = .error .undecodable

namespace LineReader

variable (r : LineReader)

/-- `isinstance(record, dict) and record.get("task_id") == task_id`. -/
def isRecordOf (taskId : String) : Json → Bool
  | .obj fields => decide (Json.lookup fields "task_id" = some (.str taskId))
  | _ => false

/-- The loop over the parts of a chunk, the newest first. -/
def scan (taskId : String) : List (List UInt8) → Except PyError (Option Json)
  | [] => .ok none
  | part :: rest =>
    if part = [] then scan taskId rest
    else
      match r.loads part with
      | .error .undecodable => scan taskId rest
      | .error (.other e) => .error e
      | .ok record => if isRecordOf taskId record then .ok (some record) else scan taskId rest

/-- The loop over the chunks: `pos` bytes are before what has been read. -/
def readBack (content : List UInt8) (taskId : String) (maxBytes chunkSize : ℕ)
    (hchunk : 0 < chunkSize) (pos bytesRead : ℕ) (remainder : List UInt8) (firstChunk : Bool) :
    Except PyError (Option Json) :=
  if _h : 0 < pos ∧ bytesRead < maxBytes then
    let readSize := min chunkSize (min pos (maxBytes - bytesRead))
    let data := (content.drop (pos - readSize)).take readSize ++ remainder
    let parts := splitLines data
    let parts := if firstChunk ∧ parts.getLast? = some [] then parts.dropLast else parts
    let atStart := pos - readSize = 0 ∨ maxBytes ≤ bytesRead + readSize
    let complete := if atStart then parts else parts.tail
    -- there is a first part: a chunk is not empty
    let remainder := if atStart then [] else parts.headD []
    match r.scan taskId complete.reverse with
    | .ok none => readBack content taskId maxBytes chunkSize hchunk (pos - readSize)
        (bytesRead + readSize) remainder false
    | result => result
  else .ok none
termination_by pos
decreasing_by omega

/-- `find_record_by_task_id`; a file that is not there has no content. -/
def findRecordByTaskId (file : Option (List UInt8)) (taskId : String) (maxBytes chunkSize : ℤ) :
    Except PyError (Option Json) :=
  if h : chunkSize ≤ 0 then .error (.valueError "chunk_size must be positive")
  else if maxBytes ≤ 0 then .ok none
  else
    match file with
    | none => .ok none
    | some content => r.readBack content taskId maxBytes.toNat chunkSize.toNat (by omega)
        content.length 0 [] true

/-! ## A plain scan -/

/-- What a line holds for a task. -/
def recordOf (taskId : String) (line : List UInt8) : Option Json :=
  match r.loads line with
  | .ok record => if isRecordOf taskId record then some record else none
  | .error _ => none

/-- The record of a task on the last line that has one. -/
def lastRecord (taskId : String) (lines : List (List UInt8)) : Option Json :=
  lines.reverse.findSome? (r.recordOf taskId)

/-- The lines of the last `maxBytes` bytes. -/
def window (content : List UInt8) (maxBytes : ℕ) : List (List UInt8) :=
  splitLines (content.drop (content.length - maxBytes))

/-- `json.loads` raises, on this line, what is not caught. -/
def Raises (line : List UInt8) : Prop := ∃ e, r.loads line = .error (.other e)

/-- A record of the task is on a later line than any that raises. -/
def Shielded (taskId : String) (lines : List (List UInt8)) : Prop :=
  ∀ older line newer, lines = older ++ line :: newer → r.Raises line →
    ∃ l ∈ newer, (r.recordOf taskId l).isSome

variable {r : LineReader} {taskId : String}

/-! ### One line after the other -/

theorem scan_cons (part : List UInt8) (rest : List (List UInt8)) :
    r.scan taskId (part :: rest) =
      match r.loads part with
      | .error .undecodable => r.scan taskId rest
      | .error (.other e) => .error e
      | .ok record => if isRecordOf taskId record then .ok (some record) else r.scan taskId rest := by
  rw [scan]
  by_cases hempty : part = []
  · rw [if_pos hempty, hempty, r.loads_empty]
  · rw [if_neg hempty]

/-- The lines of no bytes: one that is blank. -/
theorem scan_nothing : r.scan taskId (splitLines []).reverse = .ok none := by
  have hblank : splitLines [] = [[]] := List.splitOn_nil 10
  rw [hblank, List.reverse_singleton, scan_cons, r.loads_empty]
  rfl

/-- The scan of the older lines follows that of the newer ones. -/
theorem scan_append (newer older : List (List UInt8)) :
    r.scan taskId (newer ++ older) =
      match r.scan taskId newer with
      | .ok none => r.scan taskId older
      | result => result := by
  induction newer with
  | nil => rfl
  | cons part newer ih =>
    rw [List.cons_append, scan_cons, scan_cons]
    cases r.loads part with
    | error e =>
      cases e with
      | undecodable => exact ih
      | other e => rfl
    | ok record =>
      dsimp only
      by_cases hrecord : isRecordOf taskId record = true
      · rw [if_pos hrecord, if_pos hrecord]
      · rw [if_neg hrecord, if_neg hrecord]
        exact ih

/-- **The scan, newest line first**: the first record, unless a line before it
raises. -/
theorem scan_newest_iff (lines : List (List UInt8)) :
    r.scan taskId lines = .ok (lines.findSome? (r.recordOf taskId)) ↔
      ∀ newer line older, lines = newer ++ line :: older → r.Raises line →
        ∃ l ∈ newer, (r.recordOf taskId l).isSome := by
  induction lines with
  | nil => simp [scan]
  | cons part lines ih =>
    -- a part that is passed over shields nothing and raises nothing
    have hpass : r.recordOf taskId part = none → ¬ r.Raises part →
        ((∀ newer line older, lines = newer ++ line :: older → r.Raises line →
            ∃ l ∈ newer, (r.recordOf taskId l).isSome) ↔
          ∀ newer line older, part :: lines = newer ++ line :: older → r.Raises line →
            ∃ l ∈ newer, (r.recordOf taskId l).isSome) := by
      intro hnone hquiet
      constructor
      · intro h newer line older hlines hraises
        cases newer with
        | nil =>
          obtain ⟨rfl, rfl⟩ := List.cons.inj hlines
          exact absurd hraises hquiet
        | cons first newer =>
          obtain ⟨-, htail⟩ := List.cons.inj hlines
          obtain ⟨l, hl, hsome⟩ := h newer line older htail hraises
          exact ⟨l, List.mem_cons_of_mem _ hl, hsome⟩
      · intro h newer line older hlines hraises
        obtain ⟨l, hl, hsome⟩ := h (part :: newer) line older (by rw [hlines]; rfl) hraises
        rcases List.mem_cons.mp hl with rfl | hl
        · rw [hnone] at hsome
          simp at hsome
        · exact ⟨l, hl, hsome⟩
    rw [scan_cons, List.findSome?_cons]
    cases hload : r.loads part with
    | error e =>
      have hnone : r.recordOf taskId part = none := by simp [recordOf, hload]
      cases e with
      | undecodable =>
        rw [hnone]
        exact ih.trans (hpass hnone (by simp [Raises, hload]))
      | other e =>
        -- it raises, and no line before it could shield it
        refine iff_of_false (by simp) fun h => ?_
        obtain ⟨l, hl, -⟩ := h [] part lines rfl ⟨e, hload⟩
        exact absurd hl List.not_mem_nil
    | ok record =>
      have hquiet : ¬ r.Raises part := by simp [Raises, hload]
      by_cases hrecord : isRecordOf taskId record = true
      · have hsome : r.recordOf taskId part = some record := by simp [recordOf, hload, hrecord]
        rw [hsome]
        refine iff_of_true (if_pos hrecord) fun newer line older hlines hraises => ?_
        cases newer with
        | nil =>
          obtain ⟨rfl, rfl⟩ := List.cons.inj hlines
          exact absurd hraises hquiet
        | cons first newer =>
          obtain ⟨rfl, -⟩ := List.cons.inj hlines
          exact ⟨part, List.mem_cons_self, by rw [hsome]; rfl⟩
      · have hnone : r.recordOf taskId part = none := by simp [recordOf, hload, hrecord]
        rw [hnone]
        dsimp only
        rw [if_neg hrecord]
        exact ih.trans (hpass hnone hquiet)

theorem shielded_iff (lines : List (List UInt8)) : r.Shielded taskId lines ↔
    r.scan taskId lines.reverse = .ok (r.lastRecord taskId lines) := by
  rw [lastRecord, scan_newest_iff]
  constructor
  · intro h newer line older hlines hraises
    have hforward : lines = older.reverse ++ line :: newer.reverse := by
      rw [← List.reverse_reverse lines, hlines]
      simp
    obtain ⟨l, hl, hsome⟩ := h _ _ _ hforward hraises
    exact ⟨l, List.mem_reverse.mp hl, hsome⟩
  · intro h older line newer hlines hraises
    have hback : lines.reverse = newer.reverse ++ line :: older.reverse := by
      rw [hlines]
      simp
    obtain ⟨l, hl, hsome⟩ := h _ _ _ hback hraises
    exact ⟨l, List.mem_reverse.mp hl, hsome⟩

/-! ### One chunk after the other -/

/-- More bytes in front change the first part only. -/
theorem splitLines_append (front data : List UInt8) :
    splitLines (front ++ data) =
      splitLines (front ++ (splitLines data).headD []) ++ (splitLines data).tail := by
  unfold splitLines
  by_cases h : (10 : UInt8) ∈ data
  · obtain ⟨line, rest, rfl, hline⟩ := List.eq_append_cons_of_mem h
    rw [List.splitOn_append_cons_self_of_not_mem hline, List.headD_cons, List.tail_cons,
      ← List.append_assoc, List.splitOn_append_cons_self]
  · rw [List.splitOn_eq_singleton h]
    simp

/-- The scan of parts of which a blank last one is left out. -/
theorem scan_dropBlank {parts : List (List UInt8)} (hblank : parts.getLast? = some []) :
    r.scan taskId parts.dropLast.reverse = r.scan taskId parts.reverse := by
  obtain ⟨front, rfl⟩ := List.getLast?_eq_some_iff.mp hblank
  rw [List.dropLast_concat, List.reverse_append, List.reverse_singleton, List.singleton_append,
    scan_cons, r.loads_empty]

/-- The parts of a chunk are its lines, as far as the scan can tell. -/
theorem scan_parts (r : LineReader) (taskId : String) (firstChunk : Bool) {data : List UInt8}
    (hdata : data ≠ []) :
    ∃ first rest rest', splitLines data = first :: rest ∧
      (if firstChunk ∧ (splitLines data).getLast? = some [] then (splitLines data).dropLast
        else splitLines data) = first :: rest' ∧
      r.scan taskId (first :: rest').reverse = r.scan taskId (first :: rest).reverse ∧
      r.scan taskId rest'.reverse = r.scan taskId rest.reverse := by
  obtain ⟨first, rest, hsplit⟩ := List.exists_cons_of_ne_nil (List.splitOn_ne_nil (10 : UInt8) data)
  have hlines : splitLines data = first :: rest := hsplit
  rw [hlines]
  by_cases hdrop : firstChunk ∧ (first :: rest).getLast? = some []
  · rw [if_pos hdrop]
    -- a chunk with bytes in it is not one blank line
    have hrest : rest ≠ [] := by
      rintro rfl
      obtain rfl : first = [] := by simpa using hdrop.2
      have hjoined : [(10 : UInt8)].intercalate (data.splitOn 10) = data :=
        List.intercalate_splitOn 10
      rw [hsplit] at hjoined
      exact hdata (by simpa using hjoined.symm)
    have hlast : rest.getLast? = some [] := by
      rw [← hdrop.2, List.getLast?_cons_of_ne_nil hrest]
    refine ⟨first, rest, rest.dropLast, rfl, List.dropLast_cons_of_ne_nil hrest, ?_,
      scan_dropBlank hlast⟩
    rw [← List.dropLast_cons_of_ne_nil hrest]
    exact scan_dropBlank hdrop.2
  · rw [if_neg hdrop]
    exact ⟨first, rest, rest, rfl, rfl, rfl, rfl⟩

/-- At the start of the file, or of the window, everything was read. -/
theorem unread_eq_nil {content : List UInt8} {maxBytes bytesRead pos : ℕ}
    (hpos : bytesRead + pos = content.length) (hdone : pos = 0 ∨ maxBytes ≤ bytesRead) :
    (content.take pos).drop (content.length - maxBytes) = [] := by
  refine List.drop_eq_nil_of_le ?_
  rw [List.length_take]
  omega

/-- **The loop over the chunks** scans the lines of what it has not read, with the
part it carries. -/
theorem readBack_eq {content : List UInt8} {maxBytes chunkSize : ℕ} (hchunk : 0 < chunkSize)
    {pos bytesRead : ℕ} {remainder : List UInt8} {firstChunk : Bool}
    (hpos : bytesRead + pos = content.length)
    (hdone : pos = 0 ∨ maxBytes ≤ bytesRead → remainder = []) :
    r.readBack content taskId maxBytes chunkSize hchunk pos bytesRead remainder firstChunk =
      r.scan taskId (splitLines
        ((content.take pos).drop (content.length - maxBytes) ++ remainder)).reverse := by
  induction pos using Nat.strongRecOn generalizing bytesRead remainder firstChunk with
  | ind pos ih =>
    rw [readBack]
    by_cases hgo : 0 < pos ∧ bytesRead < maxBytes
    · rw [dif_pos hgo]
      dsimp only
      generalize hsize : min chunkSize (min pos (maxBytes - bytesRead)) = readSize
      have hread : 0 < readSize ∧ readSize ≤ pos ∧ bytesRead + readSize ≤ maxBytes := by omega
      set unread := (content.take (pos - readSize)).drop (content.length - maxBytes)
      set data := (content.drop (pos - readSize)).take readSize ++ remainder
      -- the chunk is the end of what was not read
      have hunread : (content.take pos).drop (content.length - maxBytes) ++ remainder =
          unread ++ data := by
        have hpieces : content.take pos =
            content.take (pos - readSize) ++ (content.drop (pos - readSize)).take readSize := by
          rw [← List.take_add]
          congr 1
          omega
        rw [hpieces, List.drop_append_of_le_length (by rw [List.length_take]; omega),
          List.append_assoc]
      have hdata : data ≠ [] := by
        intro hnil
        have hlength := congrArg List.length (List.append_eq_nil_iff.mp hnil).1
        rw [List.length_take, List.length_drop, List.length_nil] at hlength
        omega
      obtain ⟨first, rest, rest', hlines, hparts, hall, hrest⟩ :=
        scan_parts r taskId firstChunk hdata
      rw [hparts, hunread]
      by_cases hstart : pos - readSize = 0 ∨ maxBytes ≤ bytesRead + readSize
      · -- the first part is whole: nothing is carried on, and the next turn ends the loop
        rw [if_pos hstart, if_pos hstart]
        have hnone : unread = [] := unread_eq_nil (by omega) hstart
        have hlater : r.readBack content taskId maxBytes chunkSize hchunk (pos - readSize)
              (bytesRead + readSize) [] false =
            r.scan taskId (splitLines ((content.take (pos - readSize)).drop
              (content.length - maxBytes) ++ [])).reverse :=
          ih (pos - readSize) (by omega) (by omega) fun _ => rfl
        rw [List.append_nil, unread_eq_nil (by omega) hstart, scan_nothing] at hlater
        rw [hlater, hall, hnone, List.nil_append, hlines]
        cases r.scan taskId (first :: rest).reverse with
        | error e => rfl
        | ok found => cases found <;> rfl
      · -- the first part may be the end of a longer line: it is carried to the next chunk
        rw [if_neg hstart, if_neg hstart, List.tail_cons, List.headD_cons,
          splitLines_append, hlines, List.tail_cons, List.headD_cons, List.reverse_append,
          scan_append, hrest]
        rw [ih (pos - readSize) (by omega) (by omega) fun hdone' => absurd hdone' hstart]
    · rw [dif_neg hgo, hdone (by omega)]
      rw [List.append_nil, unread_eq_nil hpos (by omega), scan_nothing]

/-- The chunks do not show: what is scanned are the lines of the window. -/
theorem findRecordByTaskId_eq {content : List UInt8} {maxBytes chunkSize : ℤ} (hmax : 0 < maxBytes)
    (hchunk : 0 < chunkSize) :
    r.findRecordByTaskId (some content) taskId maxBytes chunkSize =
      r.scan taskId (window content maxBytes.toNat).reverse := by
  rw [findRecordByTaskId, dif_neg (by omega), if_neg (by omega)]
  dsimp only
  rw [readBack_eq (by omega) (Nat.zero_add _) fun _ => rfl, List.take_length, List.append_nil,
    window]

/-- **When the search is the plain scan**: exactly when no line of the window makes
`json.loads` raise what is not caught, save lines before the record that is found.
The size of the chunks never matters. -/
theorem finds_iff {content : List UInt8} {maxBytes chunkSize : ℤ} (hmax : 0 < maxBytes)
    (hchunk : 0 < chunkSize) :
    (r.findRecordByTaskId (some content) taskId maxBytes chunkSize =
        .ok (r.lastRecord taskId (window content maxBytes.toNat)) ↔
      r.Shielded taskId (window content maxBytes.toNat)) ∧
    ∀ chunkSize', 0 < chunkSize' →
      r.findRecordByTaskId (some content) taskId maxBytes chunkSize' =
        r.findRecordByTaskId (some content) taskId maxBytes chunkSize := by
  constructor
  · rw [findRecordByTaskId_eq hmax hchunk]
    exact (shielded_iff _).symm
  · intro chunkSize' hchunk'
    rw [findRecordByTaskId_eq hmax hchunk, findRecordByTaskId_eq hmax hchunk']

/-! ### A line of too many digits -/

/-- `{"task_id":"a"}`. -/
def recordLine : List UInt8 :=
  [123, 34, 116, 97, 115, 107, 95, 105, 100, 34, 58, 34, 97, 34, 125]

/-- `json.loads` on a record and on numbers with more than 4300 digits. -/
def digitReader : LineReader where
  loads line :=
    if line = recordLine then .ok (.obj [("task_id", .str "a")])
    else if 4300 < line.length ∧ line.all (fun b => decide (48 ≤ b ∧ b ≤ 57)) then
      .error (.other (.valueError "Exceeds the limit (4300 digits) for integer string conversion"))
    else .error .undecodable
  loads_empty := by decide

/-- A number of 4301 digits. -/
def digitLine : List UInt8 := List.replicate 4301 49

/-- The record, and the number after it. -/
def digitFile : List UInt8 := recordLine ++ 10 :: digitLine

theorem length_digitLine : digitLine.length = 4301 := List.length_replicate

theorem eq_of_mem_digitLine {b : UInt8} (h : b ∈ digitLine) : b = 49 := List.eq_of_mem_replicate h

theorem window_digitFile : window digitFile 67108864 = [recordLine, digitLine] := by
  have hlength : digitFile.length ≤ 67108864 := by
    rw [digitFile, List.length_append, List.length_cons, length_digitLine]
    decide
  have hdigits : (10 : UInt8) ∉ digitLine := fun hmem =>
    absurd (eq_of_mem_digitLine hmem) (by decide)
  rw [window, Nat.sub_eq_zero_of_le hlength, List.drop_zero, splitLines, digitFile,
    List.splitOn_append_cons_self_of_not_mem (by decide), List.splitOn_eq_singleton hdigits]

theorem loads_digits {line : List UInt8} (hlong : 4300 < line.length)
    (hdigits : ∀ b ∈ line, b = 49) : digitReader.Raises line := by
  have hne : line ≠ recordLine := by
    rintro rfl
    exact absurd hlong (by decide)
  have hall : line.all (fun b => decide (48 ≤ b ∧ b ≤ 57)) = true := by
    refine List.all_eq_true.mpr fun b hb => ?_
    rw [hdigits b hb]
    decide
  exact ⟨_, (if_neg hne).trans (if_pos ⟨hlong, hall⟩)⟩

/-- There is a record, and it is not returned for the number after it. -/
theorem digits_raise :
    digitReader.lastRecord "a" (window digitFile 67108864) = some (.obj [("task_id", .str "a")]) ∧
    ¬ digitReader.findRecordByTaskId (some digitFile) "a" 67108864 65536 =
      .ok (digitReader.lastRecord "a" (window digitFile 67108864)) := by
  have hdigits : digitReader.Raises digitLine :=
    loads_digits (by rw [length_digitLine]; decide) fun b hb => eq_of_mem_digitLine hb
  obtain ⟨e, hraises⟩ := hdigits
  have hfind : digitReader.findRecordByTaskId (some digitFile) "a" 67108864 65536 =
      digitReader.scan "a" (window digitFile (67108864 : ℤ).toNat).reverse :=
    findRecordByTaskId_eq (by decide) (by decide)
  have hwindow : window digitFile (67108864 : ℤ).toNat = [recordLine, digitLine] :=
    window_digitFile
  rw [hwindow, List.reverse_cons, List.reverse_singleton, List.singleton_append, scan_cons,
    hraises] at hfind
  constructor
  · rw [window_digitFile, lastRecord, List.reverse_cons, List.reverse_singleton,
      List.singleton_append, List.findSome?_cons, recordOf, hraises]
    rfl
  · rw [hfind]
    intro hsame
    cases hsame

theorem finds_iff_digits :
    (digitReader.findRecordByTaskId (some digitFile) "a" 67108864 65536 =
        .ok (digitReader.lastRecord "a" (window digitFile 67108864)) ↔
      digitReader.Shielded "a" (window digitFile 67108864)) ∧
    ∀ chunkSize', 0 < chunkSize' →
      digitReader.findRecordByTaskId (some digitFile) "a" 67108864 chunkSize' =
        digitReader.findRecordByTaskId (some digitFile) "a" 67108864 65536 :=
  finds_iff (by decide) (by decide)

end LineReader

end Conductress.Results
