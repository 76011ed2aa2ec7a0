import Conductress.Results.TailReader
import Mathlib.Data.List.DropRight

/-!
# The last lines of a file

`tail_lines` reads a file backwards in chunks and collects one line more than it
was asked for. The leftmost part of a chunk is carried to the chunk before it, so
at the end of the loop it is the first line of the file, if the loop got there.

What the loop collects does not depend on the size of the chunks: `readTail_eq`.
But a first line that is blank looks like no part carried, and is left out when
the whole file was asked for: `tailLines_eq`, `tails_iff`.
-/

namespace Conductress.Results

section Tail

-- `part.decode("utf-8", errors="replace")`
variable (decode : List UInt8 → String)

/-- The loop over the parts of a chunk, the newest first. -/
def collect (limit : ℕ) : List (List UInt8) → List String → List String
  | [], collected => collected
  | part :: rest, collected =>
    let collected := collected ++ [decode part]
    if limit ≤ collected.length then collected else collect limit rest collected

/-- The loop over the chunks: `pos` bytes are before what has been read. It leaves
the lines it collected and the part it carries. -/
def readTail (content : List UInt8) (n chunkSize : ℕ) (hchunk : 0 < chunkSize) (pos : ℕ)
    (remainder : List UInt8) (firstChunk : Bool) (collected : List String) :
    List String × List UInt8 :=
  if _h : 0 < pos ∧ collected.length < n + 1 then
    let readSize := min chunkSize pos
    let data := (content.drop (pos - readSize)).take readSize ++ remainder
    let parts := splitLines data
    let parts := if firstChunk ∧ parts.getLast? = some [] then parts.dropLast else parts
    -- there is a first part: a chunk is not empty
    readTail content n chunkSize hchunk (pos - readSize) (parts.headD []) false
      (collect decode (n + 1) parts.tail.reverse collected)
  else (collected, remainder)
termination_by pos
decreasing_by omega

theorem toNat_pos_of_not_le {n : ℤ} (h : ¬ n ≤ 0) : 0 < n.toNat := by
  omega

/-- `tail_lines`; a file that is not there has no content. -/
def tailLines (file : Option (List UInt8)) (n chunkSize : ℤ) : Except PyError (List String) :=
  if n ≤ 0 then .ok []
  else if h : chunkSize ≤ 0 then .error (.valueError "chunk_size must be positive")
  else
    match file with
    | none => .ok []
    | some content =>
      if content = [] then .ok []
      else
        let (collected, remainder) := readTail decode content n.toNat chunkSize.toNat
          (toNat_pos_of_not_le h) content.length [] true []
        let collected :=
          if remainder ≠ [] ∧ collected.length < n.toNat + 1 then collected ++ [decode remainder]
          else collected
        let lines := collected.reverse
        .ok (if n.toNat < lines.length then lines.drop (lines.length - n.toNat) else lines)

end Tail

/-! ## The lines of a file -/

/-- The parts between newlines, without the one after a newline that ends them. -/
def dropBlank (parts : List (List UInt8)) : List (List UInt8) :=
  if parts.getLast? = some [] then parts.dropLast else parts

/-- The lines that a newline ends, and what is after the last newline. -/
def fileLines (content : List UInt8) : List (List UInt8) := dropBlank (splitLines content)

/-- The last lines, all when there are fewer. -/
def lastLines (decode : List UInt8 → String) (content : List UInt8) (n : ℕ) : List String :=
  ((fileLines content).rtake n).map decode

theorem splitLines_ne_nil (data : List UInt8) : splitLines data ≠ [] := List.splitOn_ne_nil 10 data

theorem splitLines_of_not_mem {data : List UInt8} (h : (10 : UInt8) ∉ data) :
    splitLines data = [data] :=
  List.splitOn_eq_singleton h

theorem splitLines_newline (rest : List UInt8) : splitLines (10 :: rest) = [] :: splitLines rest := by
  rw [splitLines, List.splitOn_cons_eq_if_modifyHead, if_pos (beq_self_eq_true _)]
  rfl

theorem splitLines_cons {b : UInt8} (hb : b ≠ 10) (rest : List UInt8) :
    splitLines (b :: rest) = (splitLines rest).modifyHead (b :: ·) := by
  rw [splitLines, List.splitOn_cons_eq_if_modifyHead, beq_false_of_ne hb,
    if_neg Bool.false_ne_true]
  rfl

theorem head_splitLines_not_mem (data : List UInt8) : (10 : UInt8) ∉ (splitLines data).headD [] := by
  by_cases h : (10 : UInt8) ∈ data
  · obtain ⟨line, rest, rfl, hline⟩ := List.eq_append_cons_of_mem h
    rw [splitLines, List.splitOn_append_cons_self_of_not_mem hline]
    exact hline
  · rw [splitLines_of_not_mem h]
    exact h

/-- Bytes are one blank line only when there are none. -/
theorem eq_nil_of_splitLines {data : List UInt8} (h : splitLines data = [[]]) : data = [] := by
  have hjoined : [(10 : UInt8)].intercalate (splitLines data) = data := List.intercalate_splitOn 10
  rw [h] at hjoined
  simpa using hjoined.symm

/-- A last part is blank when there are no bytes, or the last one is a newline. -/
theorem getLast?_of_blank {data : List UInt8} (h : (splitLines data).getLast? = some []) :
    data = [] ∨ data.getLast? = some 10 := by
  induction data with
  | nil => exact .inl rfl
  | cons b rest ih =>
    refine .inr ?_
    obtain ⟨part, parts, hparts⟩ := List.exists_cons_of_ne_nil (splitLines_ne_nil rest)
    by_cases hb : b = 10
    -- a newline puts a blank part in front, the last part is that of the rest
    · rw [hb, splitLines_newline, hparts, List.getLast?_cons_cons, ← hparts] at h
      rw [hb]
      rcases ih h with rfl | hlast
      · rfl
      · rw [List.getLast?_cons, hlast]
        rfl
    · rw [splitLines_cons hb, hparts, List.modifyHead_cons] at h
      cases parts with
      | nil => cases h
      | cons next parts =>
        rw [List.getLast?_cons_cons, ← List.getLast?_cons_cons (a := part), ← hparts] at h
        rcases ih h with rfl | hlast
        · cases hparts
        · rw [List.getLast?_cons, hlast]
          rfl

/-- The first part stays, and those after it are dropped alike. -/
theorem dropBlank_append {front parts : List (List UInt8)} (hparts : parts ≠ []) :
    dropBlank (front ++ parts) = front ++ dropBlank parts := by
  unfold dropBlank
  rw [List.getLast?_append_of_ne_nil _ hparts, List.dropLast_append_of_ne_nil hparts]
  split <;> rfl

theorem fileLines_nil : fileLines [] = [] := by
  rw [fileLines, splitLines_of_not_mem List.not_mem_nil]
  rfl

/-- The first line of a file that has one. -/
theorem exists_fileLines {content : List UInt8} (h : content ≠ []) :
    ∃ first rest, fileLines content = first :: rest ∧ (first = [] ↔ content.head? = some 10) := by
  obtain ⟨b, bytes, rfl⟩ := List.exists_cons_of_ne_nil h
  rw [List.head?_cons, Option.some_inj, fileLines]
  by_cases hb : b = 10
  · rw [hb, splitLines_newline, ← List.singleton_append,
      dropBlank_append (splitLines_ne_nil bytes)]
    exact ⟨[], _, rfl, iff_of_true rfl rfl⟩
  · obtain ⟨part, parts, hparts⟩ := List.exists_cons_of_ne_nil (splitLines_ne_nil bytes)
    rw [splitLines_cons hb, hparts, List.modifyHead_cons]
    refine ⟨b :: part, dropBlank parts, ?_, iff_of_false (List.cons_ne_nil _ _) hb⟩
    cases parts with
    | nil => rfl
    | cons next parts => exact @dropBlank_append [b :: part] _ (List.cons_ne_nil next parts)

/-! ## The loops -/

section Loops

variable {decode : List UInt8 → String}

theorem collect_eq {limit : ℕ} (parts : List (List UInt8)) {collected : List String}
    (h : collected.length < limit) :
    collect decode limit parts collected =
      collected ++ (parts.map decode).take (limit - collected.length) := by
  induction parts generalizing collected with
  | nil => simp [collect]
  | cons part rest ih =>
    rw [collect]
    by_cases hfull : limit ≤ (collected ++ [decode part]).length
    · rw [if_pos hfull]
      rw [List.length_append, List.length_singleton] at hfull
      rw [show limit - collected.length = 1 by omega]
      rfl
    · rw [if_neg hfull, ih (by omega)]
      rw [List.length_append, List.length_singleton] at hfull ⊢
      rw [List.append_assoc, List.map_cons,
        show limit - collected.length = (limit - (collected.length + 1)) + 1 by omega,
        List.take_succ_cons]
      rfl

/-- The parts of what has not been read, with the part that is carried. -/
def unreadParts (content : List UInt8) (pos : ℕ) (remainder : List UInt8) (firstChunk : Bool) :
    List (List UInt8) :=
  let parts := splitLines (content.take pos ++ remainder)
  if firstChunk then dropBlank parts else parts

/-- The parts of a chunk are the last ones of what has not been read, but for the
first: that is the end of one. -/
theorem unreadParts_chunk {content : List UInt8} {pos readSize : ℕ} {remainder : List UInt8}
    {firstChunk : Bool} (hread : 0 < readSize) (hsize : readSize ≤ pos)
    (hpos : pos ≤ content.length) {parts : List (List UInt8)}
    (hparts : (if firstChunk ∧ (splitLines ((content.drop (pos - readSize)).take readSize ++
        remainder)).getLast? = some [] then
      (splitLines ((content.drop (pos - readSize)).take readSize ++ remainder)).dropLast
      else splitLines ((content.drop (pos - readSize)).take readSize ++ remainder)) = parts) :
    (10 : UInt8) ∉ parts.headD [] ∧
      unreadParts content pos remainder firstChunk =
        unreadParts content (pos - readSize) (parts.headD []) false ++ parts.tail := by
  set data := (content.drop (pos - readSize)).take readSize ++ remainder with hdata
  have hpieces : content.take pos ++ remainder = content.take (pos - readSize) ++ data := by
    rw [hdata, ← List.append_assoc, ← List.take_add]
    congr 2
    omega
  have hsome : data ≠ [] := by
    intro hnil
    have hlength := congrArg List.length (List.append_eq_nil_iff.mp hnil).1
    rw [List.length_take, List.length_drop, List.length_nil] at hlength
    omega
  -- the first part of the chunk goes on before it, those after it are whole
  obtain ⟨first, rest, hsplit⟩ := List.exists_cons_of_ne_nil (splitLines_ne_nil data)
  have hfirst : (10 : UInt8) ∉ first := by
    have hnot := head_splitLines_not_mem data
    rwa [hsplit, List.headD_cons] at hnot
  have hunread : splitLines (content.take pos ++ remainder) =
      splitLines (content.take (pos - readSize) ++ first) ++ rest := by
    rw [hpieces, LineReader.splitLines_append, hsplit, List.headD_cons, List.tail_cons]
  unfold unreadParts
  dsimp only
  rw [hunread, if_neg Bool.false_ne_true]
  rw [hsplit] at hparts
  by_cases hdrop : firstChunk ∧ (first :: rest).getLast? = some []
  · rw [if_pos hdrop] at hparts
    -- a chunk with bytes in it is not one blank line
    have hrest : rest ≠ [] := by
      rintro rfl
      obtain rfl : first = [] := by simpa using hdrop.2
      exact hsome (eq_nil_of_splitLines hsplit)
    rw [List.dropLast_cons_of_ne_nil hrest] at hparts
    have hlast : rest.getLast? = some [] := by
      rw [← hdrop.2, List.getLast?_cons_of_ne_nil hrest]
    rw [← hparts, if_pos hdrop.1, dropBlank_append hrest, dropBlank, if_pos hlast]
    exact ⟨hfirst, rfl⟩
  · rw [if_neg hdrop] at hparts
    rw [← hparts]
    refine ⟨hfirst, ?_⟩
    cases firstChunk with
    | false => rfl
    | true =>
      have hlast : ¬ (first :: rest).getLast? = some [] := fun h => hdrop ⟨rfl, h⟩
      rw [if_pos rfl, List.headD_cons, List.tail_cons, dropBlank, if_neg]
      intro hblank
      -- the last part of all is blank only if that of the chunk is
      cases rest with
      | cons next rest =>
        rw [List.getLast?_append_of_ne_nil _ (List.cons_ne_nil _ _)] at hblank
        exact hlast (by rwa [List.getLast?_cons_cons])
      | nil =>
        have hfirst' : first ≠ [] := by
          rintro rfl
          exact hsome (eq_nil_of_splitLines hsplit)
        rw [List.append_nil] at hblank
        rcases getLast?_of_blank hblank with hnil | hnewline
        · exact hfirst' (List.append_eq_nil_iff.mp hnil).2
        · rw [List.getLast?_append_of_ne_nil _ hfirst'] at hnewline
          exact hfirst (List.mem_of_getLast? hnewline)

/-- **The loop over the chunks** collects the parts of what it has not read, but the
first one, until it has one more than it was asked for; if it reads all of them,
the first one is what it carries. -/
theorem readTail_eq {content : List UInt8} {n chunkSize : ℕ} (hchunk : 0 < chunkSize) {pos : ℕ}
    {remainder : List UInt8} {firstChunk : Bool} {collected : List String}
    (hpos : pos ≤ content.length) (hremainder : (10 : UInt8) ∉ remainder)
    (hfirst : firstChunk = true → remainder = []) (hcollected : collected.length ≤ n + 1) :
    ∃ last, readTail decode content n chunkSize hchunk pos remainder firstChunk collected =
        (collected ++ ((unreadParts content pos remainder firstChunk).tail.reverse.map decode).take
          (n + 1 - collected.length), last) ∧
      (collected.length + (unreadParts content pos remainder firstChunk).tail.length < n + 1 →
        last = (unreadParts content pos remainder firstChunk).headD []) := by
  -- on how much is unread: a chunk is at least one byte
  induction pos using Nat.strongRecOn generalizing remainder firstChunk collected with
  | ind pos ih =>
    rw [readTail]
    by_cases hgo : 0 < pos ∧ collected.length < n + 1
    · rw [dif_pos hgo]
      dsimp only
      generalize hsize : min chunkSize pos = readSize
      generalize hparts : (if firstChunk ∧ (splitLines ((content.drop (pos - readSize)).take readSize ++
          remainder)).getLast? = some [] then
        (splitLines ((content.drop (pos - readSize)).take readSize ++ remainder)).dropLast
        else splitLines ((content.drop (pos - readSize)).take readSize ++ remainder)) = parts
      obtain ⟨hnot, hunread⟩ := unreadParts_chunk (by omega) (by omega) hpos hparts
      have hsome : unreadParts content (pos - readSize) (parts.headD []) false ≠ [] :=
        splitLines_ne_nil _
      -- the chunk gives its parts but the first, newest first, up to the limit
      rw [hunread, collect_eq _ hgo.2]
      have hkept : (collected ++ (parts.tail.reverse.map decode).take
          (n + 1 - collected.length)).length ≤ n + 1 := by
        rw [List.length_append, List.length_take]
        omega
      obtain ⟨last, hread, hlast⟩ := ih (pos - readSize) (by omega) (by omega) hnot
        (fun h => absurd h Bool.false_ne_true) hkept
      rw [hread]
      rw [List.length_append, List.length_take, List.length_map, List.length_reverse] at hlast ⊢
      rw [List.tail_append_of_ne_nil hsome, List.reverse_append, List.map_append, List.take_append,
        List.length_map, List.length_reverse, List.append_assoc, List.length_append]
      refine ⟨last, ?_, fun hfew => ?_⟩
      · congr 4
        omega
      · rw [hlast (by omega)]
        obtain ⟨part, rest, hrest⟩ := List.exists_cons_of_ne_nil hsome
        rw [hrest]
        rfl
    · rw [dif_neg hgo]
      rcases Nat.eq_zero_or_pos pos with rfl | hsome
      · -- everything was read: the part that is carried is all there is
        have hunread : unreadParts content 0 remainder firstChunk =
            if firstChunk then [] else [remainder] := by
          unfold unreadParts
          dsimp only
          rw [List.take_zero, List.nil_append, splitLines_of_not_mem hremainder]
          cases firstChunk with
          | false => rfl
          | true =>
            rw [hfirst rfl]
            rfl
        rw [hunread]
        cases firstChunk with
        | false => exact ⟨remainder, by simp, fun _ => rfl⟩
        | true => exact ⟨remainder, by simp, fun _ => hfirst rfl⟩
      · have hfull : n + 1 - collected.length = 0 := by omega
        rw [hfull, List.take_zero, List.append_nil]
        exact ⟨remainder, rfl, fun hfew => by omega⟩

/-! ## What is returned -/

/-- The lines without a first one that is blank. -/
def keptLines : List (List UInt8) → List (List UInt8)
  | [] :: rest => rest
  | lines => lines

@[simp] theorem keptLines_nil : keptLines [] = [] := rfl

@[simp] theorem keptLines_blank (rest : List (List UInt8)) : keptLines ([] :: rest) = rest := rfl

theorem keptLines_cons {first : List UInt8} (h : first ≠ []) (rest : List (List UInt8)) :
    keptLines (first :: rest) = first :: rest := by
  cases first with
  | nil => exact absurd rfl h
  | cons => rfl

/-- A slice from the end. -/
theorem slice_eq_rtake {α : Type*} (l : List α) (n : ℕ) :
    (if n < l.length then l.drop (l.length - n) else l) = l.rtake n := by
  rw [List.rtake]
  split
  · rfl
  · next h => rw [Nat.sub_eq_zero_of_le (not_lt.mp h), List.drop_zero]

theorem rtake_rtake {α : Type*} (l : List α) {m n : ℕ} (h : n ≤ m) :
    (l.rtake m).rtake n = l.rtake n := by
  rw [List.rtake, List.rtake, List.rtake, List.drop_drop, List.length_drop]
  congr 1
  omega

theorem map_rtake {α β : Type*} (f : α → β) (l : List α) (n : ℕ) :
    (l.map f).rtake n = (l.rtake n).map f := by
  rw [List.rtake, List.rtake, List.map_drop, List.length_map]

theorem rtake_cons {α : Type*} {l : List α} {n : ℕ} (x : α) (h : n ≤ l.length) :
    (x :: l).rtake n = l.rtake n := by
  rw [List.rtake, List.rtake, List.length_cons, Nat.succ_sub h, List.drop_succ_cons]

/-- **What is returned** are the last lines without a blank first one, whatever the
size of the chunks. -/
theorem tailLines_eq {content : List UInt8} {n chunkSize : ℤ} (hn : 1 ≤ n) (hchunk : 0 < chunkSize) :
    tailLines decode (some content) n chunkSize =
      .ok (((keptLines (fileLines content)).rtake n.toNat).map decode) := by
  rw [tailLines, if_neg (by omega), dif_neg (by omega)]
  dsimp only
  by_cases hnone : content = []
  · rw [if_pos hnone, hnone, fileLines_nil, keptLines_nil, List.rtake_nil]
    rfl
  · rw [if_neg hnone]
    obtain ⟨first, rest, hlines, -⟩ := exists_fileLines hnone
    have hunread : unreadParts content content.length [] true = first :: rest := by
      rw [← hlines, unreadParts, if_pos rfl, List.take_length, List.append_nil]
      rfl
    obtain ⟨last, hread, hlast⟩ := @readTail_eq decode content n.toNat chunkSize.toNat (by omega)
      content.length [] true [] (le_refl _) List.not_mem_nil (fun _ => rfl) (Nat.zero_le _)
    rw [hunread, List.tail_cons, List.headD_cons, List.length_nil, Nat.zero_add] at hlast
    rw [hread, hunread, hlines, List.tail_cons, List.nil_append, List.length_nil, Nat.sub_zero]
    dsimp only
    rw [slice_eq_rtake, ← map_rtake]
    by_cases hfew : rest.length < n.toNat + 1
    · -- the loop got to the first line
      rw [hlast hfew, List.take_of_length_le (by simp; omega)]
      by_cases hblank : first = []
      · rw [hblank, if_neg (fun h => h.1 rfl), List.map_reverse, List.reverse_reverse]
        rfl
      · rw [keptLines_cons hblank, if_pos ⟨hblank, by simp; omega⟩, List.reverse_concat,
          List.map_reverse, List.reverse_reverse]
        rfl
    · -- one line more than asked for was there without it
      rw [if_neg (fun h => by simp at h; omega), List.map_reverse,
        ← List.rtake_eq_reverse_take_reverse, rtake_rtake _ (Nat.le_succ _)]
      congr 1
      by_cases hblank : first = []
      · rw [hblank, keptLines_blank]
      · rw [keptLines_cons hblank, List.map_cons, rtake_cons _ (by rw [List.length_map]; omega)]

/-- **When these are the last lines of the file**: exactly when the first one is not
a blank line that would be among them. The size of the chunks never matters. -/
theorem tails_iff {content : List UInt8} {n chunkSize : ℤ} (hn : 1 ≤ n) (hchunk : 0 < chunkSize) :
    (tailLines decode (some content) n chunkSize = .ok (lastLines decode content n.toNat) ↔
      ¬ (content.head? = some 10 ∧ (fileLines content).length ≤ n.toNat)) ∧
    ∀ chunkSize', 0 < chunkSize' →
      tailLines decode (some content) n chunkSize' = tailLines decode (some content) n chunkSize := by
  constructor
  · rw [tailLines_eq hn hchunk, lastLines]
    by_cases hnone : content = []
    · rw [hnone, fileLines_nil]
      exact iff_of_true rfl fun h => nomatch h.1
    · obtain ⟨first, rest, hlines, hblank⟩ := exists_fileLines hnone
      rw [hlines, ← hblank, List.length_cons]
      by_cases hfirst : first = []
      · rw [hfirst, keptLines_blank]
        by_cases hfew : n.toNat ≤ rest.length
        · refine iff_of_true ?_ fun h => absurd h.2 (by omega)
          rw [rtake_cons _ hfew]
        · -- the blank line is missing: there is one line less
          refine iff_of_false (fun heq => ?_) fun h => h ⟨rfl, by omega⟩
          have hlength := congrArg List.length (Except.ok.inj heq)
          simp only [List.length_map, List.rtake, List.length_drop, List.length_cons] at hlength
          omega
      · rw [keptLines_cons hfirst]
        exact iff_of_true rfl fun h => hfirst h.1
  · intro chunkSize' hchunk'
    rw [tailLines_eq hn hchunk, tailLines_eq hn hchunk']

/-- The text of a line in ASCII. -/
def asciiLine (line : List UInt8) : String :=
  String.ofList (line.map fun b => Char.ofNat b.toNat)

/-- The last two lines of a blank line, `a`, a blank line and `b`. -/
theorem tails_of_four :
    (tailLines asciiLine (some [10, 97, 10, 10, 98]) 2 3 = .ok ["", "b"]) ∧
      tailLines asciiLine (some [10, 97, 10, 10, 98]) 2 1 =
        tailLines asciiLine (some [10, 97, 10, 10, 98]) 2 3 := by
  have htails := @tails_iff asciiLine [10, 97, 10, 10, 98] 2 3 (by decide) (by decide)
  exact ⟨htails.1.mpr (by decide), htails.2 1 (by decide)⟩

/-- Of a blank line and `f` only `f` is returned. -/
theorem blank_first_line_left_out :
    tailLines asciiLine (some [10, 102, 10]) 2 4 = .ok ["f"] ∧
      lastLines asciiLine [10, 102, 10] 2 = ["", "f"] ∧
      tailLines asciiLine (some [10, 102, 10]) 2 4 ≠ .ok (lastLines asciiLine [10, 102, 10] 2) := by
  rw [tailLines_eq (by decide) (by decide)]
  exact ⟨rfl, rfl, by decide⟩

end Loops

end Conductress.Results
