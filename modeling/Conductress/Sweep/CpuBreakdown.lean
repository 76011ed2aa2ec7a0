import Mathlib.Tactic.NormNum
import Conductress.Base.Rounding
import Conductress.Base.TextParts
import Conductress.Lib.Tally
import Conductress.Sweep.PerfMetrics

/-!
# The breakdown of CPU time

A profiled run leaves collapsed stacks: a line for each stack, with its frames and how many samples
were in it. An exporter puts each stack into a category, by its innermost function, or as idle by
any of its frames, and publishes the share of each category.

* `parseCollapsed_text` — collapsed stacks are read as they were written;
* `sum_categorizeCpuStacks` — before they are rounded the shares make up 100;
* `published_near` — those that are published are short of it, or over, by a twentieth of a
  percent for each category at most.
-/

namespace Conductress.CpuProfile

open Lib PyText CpuList Sweep

/-! ## Categories -/

/-- An alternative of a pattern: a text, that ends the name where it is followed by `$`. -/
structure Alternative where
  text  : String
  atEnd : Bool

/-- Some texts of which any may occur. -/
def anyOf (texts : List String) : List Alternative := texts.map (⟨·, false⟩)

/-- `pattern.search(name)`; `$` stands before a newline at the end as well. -/
def Alternative.search (a : Alternative) (name : List Char) : Bool :=
  if a.atEnd then
    decide (a.text.toList <:+ name) || decide (a.text.toList ++ ['\n'] <:+ name)
  else decide (a.text.toList <:+: name)

/-- A name, and a pattern. -/
abbrev CpuCategory := String × List Alternative

/-- `CPU_CATEGORIES_MAIN`. -/
def categoriesMain : List CpuCategory := [
  ("hash_lookup", anyOf ["hashtable", "findBucket", "siphash", "dictHash",
    "hashtableIncrementalFind", "hashtableObjectGetKey", "dictSdsKeyCompare",
    "addKeysToIncrFindBatch"]),
  ("command_parse", anyOf ["processInput", "processCommand", "getCommandFlags", "lookupCommand",
    "processMulti", "addCommandToBatch", "processClientIO", "handleParseResults",
    "processClientsCommandsBatch"]),
  ("command_overhead", ⟨"call", true⟩ :: anyOf ["ustime", "zmalloc_used_memory",
    "moduleFireCommand", "hdr_record", "afterCommand"]),
  ("reply_build", anyOf ["addReply", "_addReplyToBuffer", "prepareClientToWrite", "sdscat",
    "commitDeferredReply"]),
  ("string_ops", anyOf ["sds", "memcpy", "memmove", "memcmp", "strlen", "stringObjectLen",
    "objectGetVal"]),
  ("networking_io", anyOf ["write", "read", "epoll", "aeApi", "connSocket", "sendmsg", "recvmsg",
    "writev", "__libc_write"]),
  ("memory_alloc", anyOf ["zmalloc", "zfree", "je_", "malloc", "free", "realloc"]),
  ("commandlog", anyOf ["commandlog", "slowlog"]),
  ("key_access", anyOf ["getCommand", "lookupKey", "expireIfNeeded", "dbFind"]),
  ("cleanup", anyOf ["resetClient", "freeClientArgv", "tryOffload", "commandProcessed"]),
  ("acl_check", anyOf ["ACL"]),
  ("synchronization", anyOf ["pthread_mutex", "__aarch64_swp", "__aarch64_cas", "spmc", "mutex"])]

/-- `CPU_CATEGORIES_IO`. -/
def categoriesIo : List CpuCategory := [
  ("synchronization", anyOf ["pthread_mutex", "__aarch64_swp", "__aarch64_cas", "spmc", "mutex"] ++
    [⟨"IOThreadMain", true⟩]),
  ("networking_io", anyOf ["write", "read", "epoll", "connSocket", "sendmsg", "writev",
    "__libc_write", "connSocketWrite"]),
  ("memory_alloc", anyOf ["zmalloc", "zfree", "je_", "malloc", "free", "realloc"]),
  ("command_parse", anyOf ["processInput", "parseCommand", "processMulti", "handleParseResults"]),
  ("reply_build", anyOf ["addReply", "_addReplyToBuffer", "trackBufReferences",
    "releaseBufReferences"])]

/-- `IDLE_PATTERN`. -/
def idlePattern : List Alternative :=
  anyOf ["IOJobQueue_availableJobs", "IOThreadPoll", "aeApiPoll", "epoll_pwait", "epoll_wait"]

/-- `CPU_CATEGORY_NAMES_MAIN` and `CPU_CATEGORY_NAMES_IO`. -/
def categoryNames (categories : List CpuCategory) : List String :=
  categories.map Prod.fst ++ ["idle", "other"]

/-! ## The shares -/

/-- A stack, and the samples that were in it. -/
abbrev CpuStack := String × ℤ

/-- `stack_str.rsplit(";", 1)[-1]`. -/
def leaf (stack : String) : List Char := (stack.toList.reverse.takeWhile (· ≠ ';')).reverse

/-- The turn of the loop of `categorize_cpu_stacks` for a stack. -/
def categoryOf (categories : List CpuCategory) (stack : CpuStack) : String :=
  -- a thread is idle by any frame, for the innermost ones are the kernel's
  if idlePattern.any (·.search stack.1.toList) then "idle"
  else ((categories.find? fun c => c.2.any (·.search (leaf stack.1))).map Prod.fst).getD "other"

/-- `grand_total`. -/
def grandTotal (collapsed : List CpuStack) : ℤ := (collapsed.map Prod.snd).sum

/-- `categorize_cpu_stacks`. -/
def categorizeCpuStacks (collapsed : List CpuStack) (categories : List CpuCategory) :
    List (String × ℚ) :=
  if grandTotal collapsed = 0 then [("other", 100)]
  else (tallied (categoryOf categories) Prod.snd collapsed).rows.map fun row =>
    (row.1, row.2 / grandTotal collapsed * 100)

/-- `round(pct, 4)`. -/
def round4 (pct : ℚ) : ℚ := pyRound (pct * 10000) / 10000

/-- The breakdown of a point in `export_cpu_profile`. -/
def publishedBreakdown (collapsed : List CpuStack) (categories : List CpuCategory) :
    List (String × ℚ) :=
  ((categorizeCpuStacks collapsed categories).filter fun row => decide (5 / 100 ≤ row.2)).map
    fun row => (row.1, round4 row.2)

/-! ## Collapsed stacks -/

/-- `line.rsplit(" ", 1)`, of a line with a blank. -/
def lastBlank (line : List Char) : Option (List Char × List Char) :=
  let back := line.reverse
  let word := back.takeWhile (· ≠ ' ')
  if ' ' ∈ line then some ((back.drop (word.length + 1)).reverse, word.reverse) else none

/-- A line of `_parse_collapsed`. -/
def collapsedLine (line : List Char) : Option CpuStack := do
  let (stack, count) ← lastBlank line
  let n ← parseInt (String.ofList count)
  return (String.ofList stack, n)

/-- `_parse_collapsed`. -/
def parseCollapsed (output : String) : List CpuStack :=
  (textLines (String.ofList (strip output.toList))).filterMap collapsedLine

/-- A line that `stackcollapse-perf.pl` writes. -/
def collapsedRow (stack : String × ℕ) : List Char :=
  stack.1.toList ++ ' ' :: (toString stack.2).toList

def collapsedText (collapsed : List (String × ℕ)) : String :=
  String.ofList ((collapsed.map collapsedRow).flatMap (· ++ ['\n']))

/-- A stack has no line break in it, and starts with a frame. -/
structure Written (stack : String × ℕ) : Prop where
  oneLine : ∀ c ∈ stack.1.toList, c.toNat ∉
    [0x0a, 0x0b, 0x0c, 0x0d, 0x1c, 0x1d, 0x1e, 0x85, 0x2028, 0x2029]
  head    : ∃ c ∈ stack.1.toList.head?, isSpace c = false
  number  : stack.2 < 10 ^ 4300

/-! ## What is published -/

section Shares

variable {collapsed : List CpuStack} {categories : List CpuCategory}

theorem categoryOf_mem (stack : CpuStack) :
    categoryOf categories stack ∈ categoryNames categories := by
  unfold categoryOf categoryNames
  split
  · exact List.mem_append_right _ (by decide)
  · cases hfind : categories.find? fun c => c.2.any (·.search (leaf stack.1)) with
    | none => exact List.mem_append_right _ (by decide)
    | some c =>
      exact List.mem_append_left _ (List.mem_map_of_mem (List.mem_of_find?_eq_some hfind))

/-- **The shares** make up the whole. -/
theorem sum_categorizeCpuStacks :
    ((categorizeCpuStacks collapsed categories).map Prod.snd).sum = 100 := by
  unfold categorizeCpuStacks
  split
  · rw [List.map_singleton, List.sum_singleton]
  · next htotal =>
    have htotal' : (grandTotal collapsed : ℚ) ≠ 0 := Int.cast_ne_zero.mpr htotal
    rw [List.map_map]
    have hshares : ((tallied (categoryOf categories) Prod.snd collapsed).rows.map
        (Prod.snd ∘ fun row => (row.1, (row.2 : ℚ) / grandTotal collapsed * 100))) =
        ((tallied (categoryOf categories) Prod.snd collapsed).rows.map Prod.snd).map
          fun samples : ℤ => (samples : ℚ) * (100 / grandTotal collapsed) := by
      rw [List.map_map]
      refine List.map_congr_left fun row _ => ?_
      simp only [Function.comp_apply]
      ring
    rw [hshares, List.sum_map_mul_right, ← Int.cast_list_sum, sum_tallied]
    show (grandTotal collapsed : ℚ) * (100 / grandTotal collapsed) = 100
    field_simp

/-- A share that is not negative is published off by a twentieth at most. -/
theorem published_sum_near {shares : List (String × ℚ)} (h : ∀ row ∈ shares, 0 ≤ row.2) :
    |(((shares.filter fun row => decide (5 / 100 ≤ row.2)).map fun row =>
        (row.1, round4 row.2)).map Prod.snd).sum - (shares.map Prod.snd).sum| ≤
      shares.length / 20 := by
  induction shares with
  | nil => norm_num
  | cons row shares ih =>
    obtain ⟨hrow, hshares⟩ := List.forall_mem_cons.mp h
    obtain ⟨hlow, hhigh⟩ := abs_le.mp (ih hshares)
    rw [List.length_cons, Nat.cast_add_one, List.map_cons, List.sum_cons, abs_le]
    by_cases hkept : 5 / 100 ≤ row.2
    · have hround := abs_le.mp (abs_pyRound_sub_le (row.2 * 10000))
      rw [List.filter_cons, if_pos (decide_eq_true hkept), List.map_cons, List.map_cons,
        List.sum_cons, round4]
      constructor <;> linarith
    · -- a share that is left out is small
      have hsmall := not_le.mp hkept
      rw [List.filter_cons, if_neg (mt of_decide_eq_true hkept)]
      constructor <;> linarith

theorem tally_nonneg {keyOf : CpuStack → String} (h : ∀ stack ∈ collapsed, 0 ≤ stack.2)
    (name : String) : 0 ≤ tally keyOf Prod.snd collapsed name := by
  rw [tally_apply]
  refine List.sum_nonneg fun n hn => ?_
  obtain ⟨stack, hstack, rfl⟩ := List.mem_map.mp hn
  exact h stack (List.mem_of_mem_filter hstack)

/-- The rows of the shares: a name of a category, and its part of the samples. -/
structure ShareOf (collapsed : List CpuStack) (categories : List CpuCategory)
    (row : String × ℚ) : Prop where
  name  : row.1 ∈ categoryNames categories
  share : grandTotal collapsed ≠ 0 → row.2 =
    tally (categoryOf categories) Prod.snd collapsed row.1 / grandTotal collapsed * 100

theorem mem_categorizeCpuStacks {row : String × ℚ}
    (h : row ∈ categorizeCpuStacks collapsed categories) : ShareOf collapsed categories row := by
  unfold categorizeCpuStacks at h
  split at h
  · next htotal =>
    cases List.mem_singleton.mp h
    exact ⟨List.mem_append_right _ (by decide), fun hne => absurd htotal hne⟩
  · obtain ⟨sums, hsums, rfl⟩ := List.mem_map.mp h
    obtain ⟨⟨stack, -, hname⟩, hsum⟩ := mem_tallied hsums
    refine ⟨?_, fun _ => by rw [hsum]⟩
    rw [← hname]
    exact categoryOf_mem stack

theorem share_nonneg (h : ∀ stack ∈ collapsed, 0 ≤ stack.2) :
    ∀ row ∈ categorizeCpuStacks collapsed categories, 0 ≤ row.2 := by
  intro row hrow
  by_cases htotal : grandTotal collapsed = 0
  · rw [categorizeCpuStacks, if_pos htotal] at hrow
    cases List.mem_singleton.mp hrow
    norm_num
  · rw [(mem_categorizeCpuStacks hrow).share htotal]
    have htally : (0 : ℚ) ≤ tally (categoryOf categories) Prod.snd collapsed row.1 :=
      Int.cast_nonneg (tally_nonneg h row.1)
    have hgrand : (0 : ℚ) ≤ grandTotal collapsed := by
      refine Int.cast_nonneg (List.sum_nonneg fun n hn => ?_)
      obtain ⟨stack, hstack, rfl⟩ := List.mem_map.mp hn
      exact h stack hstack
    positivity

/-- There is a row for each name at most. -/
theorem length_categorizeCpuStacks :
    (categorizeCpuStacks collapsed categories).length ≤ (categoryNames categories).length := by
  have hnodup : ((categorizeCpuStacks collapsed categories).map Prod.fst).Nodup := by
    unfold categorizeCpuStacks
    split
    · exact List.nodup_singleton _
    · rw [List.map_map]
      exact (tallied (categoryOf categories) Prod.snd collapsed).nodup
  have hsubset : (categorizeCpuStacks collapsed categories).map Prod.fst ⊆
      categoryNames categories := by
    intro name hname
    obtain ⟨row, hrow, rfl⟩ := List.mem_map.mp hname
    exact (mem_categorizeCpuStacks hrow).name
  rw [← List.length_map Prod.fst]
  exact (List.subperm_of_subset hnodup hsubset).length_le

end Shares

/-! ## Reading collapsed stacks -/

section Collapsed

variable {collapsed : List (String × ℕ)} {categories : List CpuCategory}

theorem lastBlank_append {word : List Char} (h : ' ' ∉ word) (front : List Char) :
    lastBlank (front ++ ' ' :: word) = some (front, word) := by
  have hback : (front ++ ' ' :: word).reverse = word.reverse ++ ' ' :: front.reverse := by
    rw [List.reverse_append, List.reverse_cons, List.append_assoc, List.singleton_append]
  have hword : (word.reverse ++ ' ' :: front.reverse).takeWhile (fun c => decide (c ≠ ' ')) =
      word.reverse := by
    rw [List.takeWhile_append_of_pos, List.takeWhile_cons_of_neg (by decide), List.append_nil]
    intro c hc
    refine decide_eq_true ?_
    rintro rfl
    exact h (List.mem_reverse.mp hc)
  have hfront : (word.reverse ++ ' ' :: front.reverse).drop (word.reverse.length + 1) =
      front.reverse := by
    rw [List.append_cons]
    exact List.drop_left' (List.length_append ..)
  unfold lastBlank
  dsimp only
  rw [hback, hword, hfront, if_pos (List.mem_append_right _ List.mem_cons_self),
    List.reverse_reverse, List.reverse_reverse]

theorem collapsedLine_row {stack : String × ℕ} (h : Written stack) :
    collapsedLine (collapsedRow stack) = some (stack.1, (stack.2 : ℤ)) := by
  rw [collapsedLine, collapsedRow, lastBlank_append (not_mem_toString (by decide) _)]
  simp only [Option.bind_eq_bind, Option.bind_some, String.ofList_toList,
    parseInt_toString h.number, Option.pure_def]

theorem row_unbroken {stack : String × ℕ} (h : Written stack) : ∀ c ∈ collapsedRow stack,
    decide (c.toNat ∈ [0x0a, 0x0b, 0x0c, 0x0d, 0x1c, 0x1d, 0x1e, 0x85, 0x2028, 0x2029]) =
      false := by
  intro c hc
  refine decide_eq_false ?_
  rcases List.mem_append.mp hc with hc | hc
  · exact h.oneLine c hc
  rcases List.mem_cons.mp hc with rfl | hc
  · decide
  · rw [CpuList.toList_toString] at hc
    have hdigit := toNat_of_isDigit (isDigit_toDigits c hc)
    intro hmem
    simp only [List.mem_cons, List.not_mem_nil, or_false] at hmem
    omega

/-- A row ends in a digit. -/
theorem row_last (stack : String × ℕ) : ∃ c ∈ (collapsedRow stack).getLast?, isSpace c = false := by
  have hne : (toString stack.2).toList ≠ [] := by
    rw [CpuList.toList_toString]
    exact Nat.toDigits_ne_nil
  refine ⟨(toString stack.2).toList.getLast hne, ?_, isSpace_of_isDigit ?_⟩
  · rw [collapsedRow, List.getLast?_append, List.getLast?_cons,
      List.getLast?_eq_some_getLast hne]
    rfl
  · have hmem := List.getLast_mem hne
    generalize (toString stack.2).toList.getLast hne = c at hmem ⊢
    rw [CpuList.toList_toString] at hmem
    exact isDigit_toDigits c hmem

/-- **Collapsed stacks** are read as they were written. -/
theorem parseCollapsed_text (h : ∀ stack ∈ collapsed, Written stack) :
    parseCollapsed (collapsedText collapsed) =
      collapsed.map fun stack => (stack.1, (stack.2 : ℤ)) := by
  by_cases hnone : collapsed = []
  · rw [hnone]
    decide
  have hstrip : strip (collapsedText collapsed).toList =
      ['\n'].intercalate (collapsed.map collapsedRow) := by
    rw [collapsedText, String.toList_ofList]
    refine strip_lines ?_ ?_
    · obtain ⟨stack, rest, rfl⟩ := List.exists_cons_of_ne_nil hnone
      obtain ⟨c, hc, hspace⟩ := (h stack List.mem_cons_self).head
      refine ⟨_, rfl, c, ?_, hspace⟩
      rw [collapsedRow, List.head?_append, hc]
      rfl
    · obtain ⟨front, stack, rfl⟩ := (List.eq_nil_or_concat' collapsed).resolve_left hnone
      rw [List.map_append, List.map_singleton, List.getLast?_append]
      exact ⟨_, rfl, row_last stack⟩
  have hlines : textLines (String.ofList (strip (collapsedText collapsed).toList)) =
      collapsed.map collapsedRow := by
    rw [textLines, String.toList_ofList, hstrip]
    refine splitOnP_intercalate (by decide) (fun row hrow => ?_) (mt List.map_eq_nil_iff.mp hnone)
    obtain ⟨stack, hstack, rfl⟩ := List.mem_map.mp hrow
    exact row_unbroken (h stack hstack)
  rw [parseCollapsed, hlines, List.filterMap_map, ← List.filterMap_eq_map]
  refine List.filterMap_congr fun stack hstack => ?_
  exact collapsedLine_row (h stack hstack)

/-- **What is published** of collapsed stacks: the shares that are not small, and in all 100 but
for a twentieth for each category. -/
theorem published_near (h : ∀ stack ∈ collapsed, Written stack) :
    parseCollapsed (collapsedText collapsed) =
        collapsed.map (fun stack => (stack.1, (stack.2 : ℤ))) ∧
      (∀ row ∈ publishedBreakdown (parseCollapsed (collapsedText collapsed)) categories,
        ∃ share, ShareOf (parseCollapsed (collapsedText collapsed)) categories (row.1, share) ∧
          row.2 = round4 share) ∧
      |((publishedBreakdown (parseCollapsed (collapsedText collapsed)) categories).map
          Prod.snd).sum - 100| ≤ (categoryNames categories).length / 20 := by
  have hparsed := parseCollapsed_text h
  refine ⟨hparsed, fun row hrow => ?_, ?_⟩
  · obtain ⟨share, hshare, rfl⟩ := List.mem_map.mp hrow
    exact ⟨share.2, mem_categorizeCpuStacks (List.mem_of_mem_filter hshare), rfl⟩
  generalize parseCollapsed (collapsedText collapsed) = read at hparsed
  have hcounts : ∀ stack ∈ read, 0 ≤ stack.2 := by
    intro stack hstack
    rw [hparsed] at hstack
    obtain ⟨written, -, rfl⟩ := List.mem_map.mp hstack
    exact Int.natCast_nonneg _
  have hnear := published_sum_near (@share_nonneg _ categories hcounts)
  rw [sum_categorizeCpuStacks] at hnear
  have hlength : ((categorizeCpuStacks read categories).length : ℚ) ≤
      (categoryNames categories).length := Nat.cast_le.mpr length_categorizeCpuStacks
  exact hnear.trans (by linarith)

/-- Three samples of four in the wait for events, and one in a lookup. -/
def idleMostly : List (String × ℕ) :=
  [("main;aeApiPoll;epoll_wait;schedule", 3), ("main;hashtable", 1)]

theorem published_near_idle :
    publishedBreakdown (parseCollapsed (collapsedText idleMostly)) categoriesMain =
        [("idle", 75), ("hash_lookup", 25)] ∧
      |((publishedBreakdown (parseCollapsed (collapsedText idleMostly)) categoriesMain).map
          Prod.snd).sum - 100| ≤ (categoryNames categoriesMain).length / 20 := by
  have hwritten : ∀ stack ∈ idleMostly, Written stack := by
    have hsmall : ∀ k n : ℕ, n < 10 → 1 ≤ k → n < 10 ^ k := fun k n hn hk =>
      hn.trans_le (le_trans (by decide) (Nat.pow_le_pow_right (by decide) hk))
    intro stack hstack
    rcases List.mem_pair.mp hstack with rfl | rfl
    · exact ⟨forall_mem_of_all (by decide), ⟨_, rfl, by decide⟩,
        hsmall _ _ (by decide) (by decide)⟩
    · exact ⟨forall_mem_of_all (by decide), ⟨_, rfl, by decide⟩,
        hsmall _ _ (by decide) (by decide)⟩
  obtain ⟨hparsed, -, hnear⟩ := @published_near idleMostly categoriesMain hwritten
  refine ⟨?_, hnear⟩
  rw [hparsed]
  decide +kernel

end Collapsed

end Conductress.CpuProfile
