import Mathlib.Data.List.Dedup
import Conductress.Base.TextParts
import Conductress.Lib.Tally
import Conductress.Sweep.PerfMetrics

/-!
# The breakdown of a heap

A memory task ends with a heap dump of the allocator: a text with a stack of addresses for each
place that allocates, and how many bytes it holds. The addresses are turned into function names by
`addr2line`, each stack is put into one category by the first name that says what it is for, and
the bytes are summed up by category. The stacks are kept, so that an exporter can categorize them
once more.

* `parseStacks_text` — a dump in the format of the allocator is read as the stacks it is of;
* `resolveAddresses_text` — so are the names of the addresses;
* `collected_breakdown` — the breakdown of a dump: each stack counts in one category, the
  categories make up the bytes of all stacks, and the stacks that are kept give it once more.
-/

namespace Conductress.HeapProfile

open Lib PyText CpuList Sweep

/-! ## Categories -/

inductive HeapCategory where
  | serverInfra
  | other
  | robj
  | robjEmbkey
  | robjEmbval
  | sds
  | dict
  | hashtable
  | hashEntry
  | listpack
  | skiplist
  | fbtree
  deriving DecidableEq

/-- The key of a category in a breakdown. -/
def HeapCategory.text : HeapCategory → String
  | .serverInfra => "server_infra"
  | .other => "other"
  | .robj => "robj"
  | .robjEmbkey => "robj_embkey"
  | .robjEmbval => "robj_embval"
  | .sds => "sds"
  | .dict => "dict"
  | .hashtable => "hashtable"
  | .hashEntry => "hash_entry"
  | .listpack => "listpack"
  | .skiplist => "skiplist"
  | .fbtree => "fbtree"

/-- `CATEGORIES`: the first one with a pattern in a name is the category of the name. -/
def categories : List (HeapCategory × List String) := [
  (.fbtree, ["fbtree", "leafNodeCreate", "innerNodeCreate", "innerNodeSetPrefix"]),
  (.skiplist, ["zslCreateNode", "zslInsert", "zslUpdateScore", "zslDelete", "zslCreate"]),
  (.listpack, ["lpNew", "lpAppend", "lpInsert", "lpPrepend", "listpack"]),
  (.hashEntry, ["entryConstruct", "entryCreate", "entryWrite", "hashTypeCreateEntry"]),
  (.robjEmbval, ["createEmbeddedString"]),
  (.sds, ["sdsnewlen", "sdsdup", "sdsMakeRoom", "_sdsnewlen", "sdscatlen", "sdscat"]),
  (.hashtable, ["hashtable", "bucket", "resize", "Chained", "hashTypeEntry"]),
  (.dict, ["dictCreate", "dictEntry", "createEntry", "createEmbeddedEntry", "dictExpand",
    "dictResize", "dictRehash", "dictAdd", "dictInsert", "dictSetVal", "dictSetKey"]),
  (.robj, ["createObject", "createString", "createRaw", "createZset", "createUnembedded"]),
  (.serverInfra, ["initServer", "aeCreate", "createShared", "hdr_init", "bioInit",
    "initServerConfig", "ACL", "clusterInit"])]

/-- `CATEGORY_NAMES`: the keys of a breakdown, in their order. -/
def categoryNames : List HeapCategory :=
  [.serverInfra, .other, .robj, .robjEmbkey, .robjEmbval, .sds, .dict, .hashtable, .hashEntry,
    .listpack, .skiplist, .fbtree]

/-- `_EMBEDDED_KEY_MARKERS`. -/
def embeddedKeyMarkers : List String := ["objectSetKey", "objectSetKeyAndExpire"]

/-- `_JEMALLOC_PATTERNS`. -/
def jemallocPatterns : List String := [
  "je_", "prof_", "imalloc", "ifree", "arena_", "tcache_", "large_", "extent_", "base_", "rtree_",
  "mutex_", "atomic_", "spin_", "fls_", "malloc_", "calloc_", "realloc_", "sz_", "bitmap_", "bin_",
  "slab_", "pac_", "decay_", "hpa_", "sec_", "san_", "tsd_", "ctl_", "stats_", "prof_backtrace",
  "prof_alloc", "ztrymalloc_usable", "ztrycalloc_usable", "ztryrealloc_usable", "zmalloc",
  "zcalloc", "zrealloc", "zfree", "valkey_malloc", "valkey_calloc", "valkey_realloc"]

/-- `_SKIP_FUNCS`. -/
def skipFuncs : List String :=
  ["??", "_start", "main", "__libc_start_call_main", "__libc_start_main_alias_2"]

/-- `any(pat in func for pat in patterns)`. -/
def hasPattern (patterns : List String) (func : String) : Bool :=
  patterns.any fun pattern => decide (pattern.toList <:+: func.toList)

/-- `_is_jemalloc_frame`. -/
def isJemallocFrame (func : String) : Bool :=
  decide (func ∈ skipFuncs) || hasPattern jemallocPatterns func

/-- The loop of `_categorize_stack`, with the first match so far. -/
def categorizeFrom : Option HeapCategory → List String → HeapCategory
  | first, [] => first.getD .other
  | none, func :: funcs =>
    if isJemallocFrame func then categorizeFrom none funcs
    else
      match categories.find? fun entry => hasPattern entry.2 func with
      -- an object goes on, for its key may be embedded
      | some (name, _) => if name ≠ .robj then name else categorizeFrom (some name) funcs
      | none => categorizeFrom none funcs
  | some name, func :: funcs =>
    if isJemallocFrame func then categorizeFrom (some name) funcs
    else if name = .robj ∧ hasPattern embeddedKeyMarkers func then .robjEmbkey
    else categorizeFrom (some name) funcs

/-- `_categorize_stack`, of the names from the allocator to `main`. -/
def categorizeStack (funcs : List String) : HeapCategory := categorizeFrom none funcs

/-! ## The dump -/

/-- The text after a mark, and after the blanks before it. -/
def afterMark (mark line : List Char) : Option (List Char) :=
  if mark <+: lstrip line then some ((lstrip line).drop mark.length) else none

/-- The digits that `re.match(r"\s*t\*:\s*(\d+):\s*(\d+)", line)` finds for the bytes. -/
def bytesText (line : List Char) : Option (List Char) := do
  let total ← afterMark "t*:".toList line
  let objects := lstrip total
  guard ((objects.takeWhile isDigit) ≠ [])
  -- the colon has no blanks before it
  let rest := objects.dropWhile isDigit
  guard (rest.head? = some ':')
  let bytes := (lstrip rest.tail).takeWhile isDigit
  guard (bytes ≠ [])
  return bytes

/-- The loop of `_parse_stacks`: the stacks that are done, and the addresses of the one that is
not, if it has some. -/
structure HeapReader where
  allocs  : List (List String × ℤ)
  current : List String

/-- A line. -/
def HeapReader.read (r : HeapReader) (line : List Char) : Except PyError HeapReader :=
  if "@".toList <+: line then
    .ok { r with current := (textWords line).tail.map String.ofList }
  else if "t*:".toList <+: strip line ∧ r.current ≠ [] then
    match bytesText line with
    | none => .ok r
    | some digits =>
      match parseInt (String.ofList digits) with
      | some bytes => .ok ⟨r.allocs ++ [(r.current, bytes)], []⟩
      | none => .error (.valueError "Exceeds the limit (4300 digits) for integer string conversion")
  else .ok r

/-- `_parse_stacks`. -/
def parseStacks (heapContent : String) : Except PyError (List (List String × ℤ)) :=
  ((heapContent.toList.splitOn '\n').foldlM HeapReader.read ⟨[], []⟩).map HeapReader.allocs

/-- `sorted(all_addrs)`. -/
def sortedAddrs (allocs : List (List String × ℤ)) : List String :=
  (allocs.flatMap Prod.fst).dedup.insertionSort (· ≤ ·)

/-- `_resolve_addresses`: the name of each address. -/
def resolveAddresses (addrs : List String) (addr2lineOutput : String) : List (String × String) :=
  let lines := (strip addr2lineOutput.toList).splitOn '\n'
  -- every second line of those that have one after it
  let names := (List.range ((min (lines.length - 1) (addrs.length * 2) + 1) / 2)).map fun i : ℕ =>
    String.ofList (lines.getD (2 * i) [])
  addrs.zip names

/-- The names of a stack. -/
def resolved (names : List (String × String)) (addrs : List String) : List String :=
  addrs.map fun addr => (names.lookup addr).getD "??"

/-! ## The breakdown -/

section Breakdown

variable {φ : Type}

/-- `category_bytes`, of stacks of names. -/
def categoryBytes (allocs : List (List String × ℤ)) : HeapCategory → ℤ :=
  tally (fun stack => categorizeStack stack.1) Prod.snd allocs

/-- `categorize_heap_dump`. -/
def categorizeHeapDump (heapContent addr2lineOutput : String) :
    Except PyError (Option (List (HeapCategory × ℤ))) := do
  let allocs ← parseStacks heapContent
  if allocs = [] then return none
  let names := resolveAddresses (sortedAddrs allocs) addr2lineOutput
  let bytes := categoryBytes (allocs.map fun stack => (resolved names stack.1, stack.2))
  return some (categoryNames.map fun category => (category, bytes category))

/-- `HeapProfileResult`. -/
structure HeapProfileResult (φ : Type) where
  breakdown : List (HeapCategory × φ)
  rawStacks : List (List String × ℤ)

/-- `recategorize_from_stacks`; `perKey` is `round(bytes / num_keys, 2)`, of floats. -/
def recategorizeFromStacks (perKey : ℤ → ℤ → φ) (rawStacks : List (List String × ℤ))
    (numKeys : ℤ) : List (HeapCategory × φ) :=
  categoryNames.map fun category => (category, perKey (categoryBytes rawStacks category) numKeys)

/-- What is run on the host of the server. -/
inductive HeapCommand where
  | newestDump
  | cat (path : String)
  | addr2line (binary : String) (addrs : List String)

/-- `collect_heap_profile`, by what the host prints. -/
def collectHeapProfile (perKey : ℤ → ℤ → φ) (host : HeapCommand → String) (binary : String)
    (numKeys : ℤ) : Except PyError (Option (HeapProfileResult φ)) := do
  let path := String.ofList (strip (host .newestDump).toList)
  if path = "" then return none
  let content := host (.cat path)
  if content = "" ∨ ¬ "heap_v2".toList <:+: content.toList then return none
  let allocs ← parseStacks content
  if allocs = [] then return none
  let addrs := sortedAddrs allocs
  let output := host (.addr2line binary addrs)
  if output = "" then return none
  let names := resolveAddresses addrs output
  let rawStacks := allocs.map fun stack => (resolved names stack.1, stack.2)
  if numKeys ≤ 0 then return none
  return some ⟨categoryNames.map fun category =>
    (category, perKey (categoryBytes rawStacks category) numKeys), rawStacks⟩

end Breakdown

/-! ## The format of the allocator -/

/-- A place that allocates, as a dump has it. -/
structure Site where
  addresses   : List String
  objects     : ℕ
  bytes       : ℕ
  -- the sums since the start, in brackets
  accumulated : String
  -- a line for each thread
  threads     : List String

/-- A line of a dump that is not the first one of a place. -/
def Inner (line : String) : Prop := '\n' ∉ line.toList ∧ line.toList.head? ≠ some '@'

instance (line : String) : Decidable (Inner line) := inferInstanceAs (Decidable (_ ∧ _))

namespace Site

/-- The line with what all threads have. -/
def total (site : Site) : List Char :=
  [' ', ' ', 't', '*', ':', ' '] ++ ((toString site.objects).toList ++ (':' :: ' ' ::
    ((toString site.bytes).toList ++ site.accumulated.toList)))

def lines (site : Site) : List (List Char) :=
  [' '].intercalate ("@".toList :: site.addresses.map String.toList) :: site.total ::
    site.threads.map String.toList

/-- What the format needs of a place. -/
structure Written (site : Site) : Prop where
  words   : ∀ addr ∈ site.addresses, addr.toList ≠ [] ∧ ∀ c ∈ addr.toList, isSpace c = false
  number  : site.bytes < 10 ^ 4300
  ends    : ∀ c ∈ site.accumulated.toList.head?, isDigit c = false
  oneLine : '\n' ∉ site.accumulated.toList
  threads : ∀ line ∈ site.threads, Inner line

/-- A place is read if it has addresses. -/
def read (site : Site) : List (List String × ℤ) :=
  if site.addresses = [] then [] else [(site.addresses, (site.bytes : ℤ))]

end Site

/-- A dump: totals, the places, and the libraries that are mapped. -/
structure HeapDump where
  interval  : ℕ
  totals    : List String
  sites     : List Site
  libraries : List String

namespace HeapDump

def lines (dump : HeapDump) : List (List Char) :=
  ("heap_v2/".toList ++ (toString dump.interval).toList) ::
    (dump.totals.map String.toList ++ dump.sites.flatMap Site.lines ++
      dump.libraries.map String.toList)

def text (dump : HeapDump) : String := String.ofList (['\n'].intercalate dump.lines)

structure Written (dump : HeapDump) : Prop where
  totals    : ∀ line ∈ dump.totals, Inner line
  sites     : ∀ site ∈ dump.sites, site.Written
  libraries : ∀ line ∈ dump.libraries, Inner line

end HeapDump

/-- What `addr2line -f` prints: two lines for each address. -/
def addr2lineText (symbol place : String → String) (addrs : List String) : String :=
  String.ofList (addrs.flatMap fun addr =>
    (symbol addr).toList ++ '\n' :: ((place addr).toList ++ ['\n']))

/-- Names and places have one line each, without a blank at its outer end. -/
structure Printed (symbol place : String → String) (addr : String) : Prop where
  symbolLine : '\n' ∉ (symbol addr).toList
  symbolHead : ∃ c ∈ (symbol addr).toList.head?, isSpace c = false
  placeLine  : '\n' ∉ (place addr).toList
  placeLast  : ∃ c ∈ (place addr).toList.getLast?, isSpace c = false

/-! ## Reading a dump -/

section Dump

variable {site : Site} {dump : HeapDump} {n : ℕ} {rest line : List Char}

theorem at_prefix_iff : "@".toList <+: line ↔ line.head? = some '@' := by
  cases line with
  | nil => decide
  | cons c line =>
    show ['@'] <+: c :: line ↔ _
    rw [List.cons_prefix_cons, List.head?_cons, Option.some_inj]
    exact ⟨fun h => h.1.symm, fun h => ⟨h.symm, List.nil_prefix⟩⟩

/-- A number ends at the first character that is no digit. -/
theorem digits_append (h : ∀ c ∈ rest.head?, isDigit c = false) :
    ((toString n).toList ++ rest).takeWhile isDigit = (toString n).toList ∧
      ((toString n).toList ++ rest).dropWhile isDigit = rest := by
  have hdigits : ∀ c ∈ (toString n).toList, isDigit c = true := by
    intro c hc
    rw [CpuList.toList_toString] at hc
    exact isDigit_toDigits c hc
  rw [List.takeWhile_append_of_pos hdigits, List.dropWhile_append_of_pos hdigits]
  cases rest with
  | nil => exact ⟨List.append_nil _, rfl⟩
  | cons c rest =>
    have hc := h c rfl
    rw [List.takeWhile_cons_of_neg (by rw [hc]; exact Bool.false_ne_true),
      List.dropWhile_cons_of_neg (by rw [hc]; exact Bool.false_ne_true)]
    exact ⟨List.append_nil _, rfl⟩

/-- A number has no blanks before it. -/
theorem lstrip_digits : lstrip (' ' :: ((toString n).toList ++ rest)) =
    (toString n).toList ++ rest := by
  have hhead : ∃ c cs, (toString n).toList = c :: cs ∧ isSpace c = false := by
    rw [CpuList.toList_toString]
    obtain ⟨c, cs, hcs⟩ := List.exists_cons_of_ne_nil (Nat.toDigits_ne_nil (n := n) (b := 10))
    refine ⟨c, cs, hcs, isSpace_of_isDigit (isDigit_toDigits (n := n) c ?_)⟩
    rw [hcs]
    exact List.mem_cons_self
  obtain ⟨c, cs, hcs, hc⟩ := hhead
  rw [lstrip, List.dropWhile_cons_of_pos (by decide), hcs, List.cons_append,
    List.dropWhile_cons_of_neg (by rw [hc]; exact Bool.false_ne_true)]

theorem mark_toList : "t*:".toList = ['t', '*', ':'] := by decide

/-- The bytes of a place. -/
theorem bytesText_total (h : site.Written) :
    bytesText site.total = some (toString site.bytes).toList := by
  have hsome : ∀ m : ℕ, (toString m).toList ≠ [] := fun m => by
    rw [CpuList.toList_toString]
    exact Nat.toDigits_ne_nil
  have hmark : afterMark "t*:".toList site.total =
      some (' ' :: ((toString site.objects).toList ++ (':' :: ' ' ::
        ((toString site.bytes).toList ++ site.accumulated.toList)))) := by
    rw [mark_toList]
    rfl
  -- the colon ends the first number, and the brackets the second one
  obtain ⟨htake, hdrop⟩ := @digits_append site.objects
    (':' :: ' ' :: ((toString site.bytes).toList ++ site.accumulated.toList))
    (fun c hc => by cases hc; decide)
  have hbytes := (@digits_append site.bytes site.accumulated.toList h.ends).1
  rw [bytesText, hmark]
  simp only [Option.bind_eq_bind, Option.bind_some, lstrip_digits, htake, hdrop, List.head?_cons,
    List.tail_cons, hbytes, ne_eq, hsome, not_false_eq_true, guard, if_true, Option.pure_def]

theorem read_inner (hline : line.head? ≠ some '@') (allocs : List (List String × ℤ)) :
    HeapReader.read ⟨allocs, []⟩ line = .ok ⟨allocs, []⟩ := by
  unfold HeapReader.read
  rw [if_neg (mt at_prefix_iff.mp hline), if_neg fun h => h.2 rfl]

theorem read_addresses (h : site.Written) (r : HeapReader) :
    r.read ([' '].intercalate ("@".toList :: site.addresses.map String.toList)) =
      .ok { r with current := site.addresses } := by
  have hwords : textWords ([' '].intercalate ("@".toList :: site.addresses.map String.toList)) =
      "@".toList :: site.addresses.map String.toList := by
    have hat : "@".toList ≠ [] ∧ ∀ c ∈ "@".toList, isSpace c = false :=
      ⟨by decide, forall_mem_of_all (by decide)⟩
    refine words_intercalate (List.forall_mem_cons.mpr ⟨hat, fun word hword => ?_⟩)
    obtain ⟨addr, haddr, rfl⟩ := List.mem_map.mp hword
    exact h.words addr haddr
  unfold HeapReader.read
  rw [if_pos (prefix_intercalate _ _), hwords, List.tail_cons, List.map_map]
  simp only [Function.comp_def, String.ofList_toList, List.map_id']

theorem read_total (h : site.Written) (haddrs : site.addresses ≠ [])
    (allocs : List (List String × ℤ)) :
    HeapReader.read ⟨allocs, site.addresses⟩ site.total =
      .ok ⟨allocs ++ [(site.addresses, (site.bytes : ℤ))], []⟩ := by
  have hmark : "t*:".toList <+: strip site.total := by
    have htotal : site.total = [' ', ' ', 't', '*'] ++ ':' :: (' ' ::
        ((toString site.objects).toList ++ (':' :: ' ' ::
          ((toString site.bytes).toList ++ site.accumulated.toList)))) := rfl
    rw [htotal, mark_toList, strip, dropWhile_append_cons (by decide), List.reverse_append,
      List.reverse_cons, List.append_assoc, List.singleton_append,
      dropWhile_append_cons (by decide), List.reverse_append, List.reverse_cons,
      List.reverse_reverse, List.append_assoc, List.singleton_append]
    exact ⟨_, rfl⟩
  unfold HeapReader.read
  rw [if_neg (by rw [at_prefix_iff]; exact fun hc => by cases hc), if_pos ⟨hmark, haddrs⟩,
    bytesText_total h]
  dsimp only
  rw [String.ofList_toList, parseInt_toString h.number]

theorem read_inners {lines : List String} (h : ∀ line ∈ lines, Inner line)
    (allocs : List (List String × ℤ)) :
    (lines.map String.toList).foldlM HeapReader.read ⟨allocs, []⟩ = .ok ⟨allocs, []⟩ := by
  induction lines with
  | nil => rfl
  | cons line lines ih =>
    obtain ⟨hline, hlines⟩ := List.forall_mem_cons.mp h
    rw [List.map_cons, List.foldlM_cons, read_inner hline.2, except_ok_bind, ih hlines]

/-- The lines of a place, after those of the places before it. -/
theorem read_site (h : site.Written) (allocs : List (List String × ℤ)) :
    site.lines.foldlM HeapReader.read ⟨allocs, []⟩ = .ok ⟨allocs ++ site.read, []⟩ := by
  have htotal : HeapReader.read ⟨allocs, site.addresses⟩ site.total =
      .ok ⟨allocs ++ site.read, []⟩ := by
    unfold Site.read
    split
    · next hnone =>
      rw [hnone, read_inner (fun hc => by cases hc), List.append_nil]
    · next hsome => exact read_total h hsome allocs
  rw [Site.lines, List.foldlM_cons, read_addresses h, except_ok_bind, List.foldlM_cons, htotal,
    except_ok_bind, read_inners h.threads]

theorem newline_not_mem_site (h : site.Written) : ∀ line ∈ site.lines, '\n' ∉ line := by
  refine List.forall_mem_cons.mpr ⟨?_, List.forall_mem_cons.mpr ⟨?_, fun line hline => ?_⟩⟩
  · refine not_mem_intercalate (by decide) (List.forall_mem_cons.mpr ⟨by decide, ?_⟩)
    intro word hword hmem
    obtain ⟨addr, haddr, rfl⟩ := List.mem_map.mp hword
    exact Bool.false_ne_true (((h.words addr haddr).2 _ hmem).symm.trans (by decide))
  · simp only [Site.total, List.mem_append, List.mem_cons, not_or]
    exact ⟨by decide, not_mem_toString (by decide) _, by decide, by decide,
      not_mem_toString (by decide) _, h.oneLine⟩
  · obtain ⟨text, htext, rfl⟩ := List.mem_map.mp hline
    exact (h.threads text htext).1

/-- **A dump** is read as the places it has. -/
theorem parseStacks_text (h : dump.Written) :
    parseStacks dump.text = .ok (dump.sites.flatMap Site.read) := by
  have hinner : ∀ lines : List String, (∀ line ∈ lines, Inner line) →
      ∀ line ∈ lines.map String.toList, '\n' ∉ line := by
    intro lines hall line hline
    obtain ⟨text, htext, rfl⟩ := List.mem_map.mp hline
    exact (hall text htext).1
  have hlines : ∀ line ∈ dump.lines, '\n' ∉ line := by
    refine List.forall_mem_cons.mpr ⟨?_, List.forall_mem_append.mpr
      ⟨List.forall_mem_append.mpr ⟨hinner _ h.totals, ?_⟩, hinner _ h.libraries⟩⟩
    · rw [List.mem_append, not_or]
      exact ⟨by decide, not_mem_toString (by decide) _⟩
    · intro line hline
      obtain ⟨site, hsite, hline⟩ := List.mem_flatMap.mp hline
      exact newline_not_mem_site (h.sites site hsite) line hline
  have hsplit : dump.text.toList.splitOn '\n' = dump.lines := by
    rw [HeapDump.text, String.toList_ofList]
    exact List.splitOn_intercalate _ hlines (List.cons_ne_nil _ _)
  have hsite : ∀ site ∈ dump.sites, ∀ allocs,
      site.lines.foldlM HeapReader.read ⟨allocs, []⟩ = .ok ⟨allocs ++ site.read, []⟩ :=
    fun site hin => read_site (h.sites site hin)
  have hsites := except_foldlM_flatMap hsite []
  rw [parseStacks, hsplit, HeapDump.lines, List.foldlM_cons, read_inner (fun hc => by cases hc),
    except_ok_bind, List.foldlM_append, List.foldlM_append, read_inners h.totals, except_ok_bind,
    hsites, except_ok_bind, read_inners h.libraries]
  rfl

end Dump

/-! ## Reading the names -/

section Names

variable {symbol place : String → String} {addrs : List String}

/-- The lines of the text. -/
theorem splitOn_strip (hne : addrs ≠ []) (h : ∀ addr ∈ addrs, Printed symbol place addr) :
    (strip (addr2lineText symbol place addrs).toList).splitOn '\n' =
      addrs.flatMap fun addr => [(symbol addr).toList, (place addr).toList] := by
  have htext : (addr2lineText symbol place addrs).toList =
      (addrs.flatMap fun addr => [(symbol addr).toList, (place addr).toList]).flatMap
        (· ++ ['\n']) := by
    rw [addr2lineText, String.toList_ofList, List.flatMap_assoc]
    refine List.flatMap_congr fun addr _ => ?_
    rw [List.flatMap_cons, List.flatMap_singleton, List.append_assoc, List.singleton_append]
  have hoff : ∀ line ∈ addrs.flatMap (fun addr => [(symbol addr).toList, (place addr).toList]),
      '\n' ∉ line := by
    intro line hline
    obtain ⟨addr, haddr, hline⟩ := List.mem_flatMap.mp hline
    rcases List.mem_pair.mp hline with rfl | rfl
    · exact (h addr haddr).symbolLine
    · exact (h addr haddr).placeLine
  rw [htext, strip_lines]
  · refine List.splitOn_intercalate _ hoff ?_
    obtain ⟨addr, haddr⟩ := List.exists_mem_of_ne_nil _ hne
    exact List.ne_nil_of_mem (List.mem_flatMap.mpr ⟨addr, haddr, List.mem_cons_self⟩)
  · -- the first line is a name, and the last one a place
    obtain ⟨addr, rest, rfl⟩ := List.exists_cons_of_ne_nil hne
    exact ⟨_, rfl, (h addr List.mem_cons_self).symbolHead⟩
  · obtain ⟨front, addr, rfl⟩ := (List.eq_nil_or_concat' addrs).resolve_left hne
    rw [List.flatMap_append, List.flatMap_singleton, List.getLast?_append]
    exact ⟨_, rfl, (h addr (List.mem_append_right _ (List.mem_singleton_self addr))).placeLast⟩

/-- Every second line is a name. -/
theorem names_printed {f g : String → List Char} :
    (List.range addrs.length).map (fun i : ℕ =>
        String.ofList ((addrs.flatMap fun addr => [f addr, g addr]).getD (2 * i) [])) =
      addrs.map fun addr => String.ofList (f addr) := by
  induction addrs with
  | nil => rfl
  | cons addr addrs ih =>
    rw [List.length_cons, List.range_succ_eq_map, List.map_cons, List.map_map, List.map_cons, ← ih]
    rfl

/-- **The names** of the addresses are those that were printed for them. -/
theorem resolveAddresses_text (hne : addrs ≠ []) (h : ∀ addr ∈ addrs, Printed symbol place addr) :
    resolveAddresses addrs (addr2lineText symbol place addrs) =
      addrs.map fun addr => (addr, symbol addr) := by
  have hlength : (addrs.flatMap fun addr => [(symbol addr).toList, (place addr).toList]).length =
      addrs.length * 2 := by
    rw [List.length_flatMap]
    simp only [List.length_cons, List.length_nil, List.map_const', List.sum_replicate, smul_eq_mul]
  have hpos := List.length_pos_of_ne_nil hne
  unfold resolveAddresses
  dsimp only
  rw [splitOn_strip hne h, hlength,
    show (min (addrs.length * 2 - 1) (addrs.length * 2) + 1) / 2 = addrs.length by omega,
    names_printed]
  simp only [String.ofList_toList]
  exact List.map_prod_left_eq_zip.symm

end Names

/-! ## The breakdown of a dump -/

section Collected

variable {φ : Type} {perKey : ℤ → ℤ → φ} {host : HeapCommand → String} {binary path : String}
  {symbol place : String → String} {dump : HeapDump} {numKeys : ℤ}

/-- The stacks of a dump, by name. -/
def HeapDump.named (dump : HeapDump) (symbol : String → String) : List (List String × ℤ) :=
  (dump.sites.flatMap Site.read).map fun alloc => (alloc.1.map symbol, alloc.2)

/-- A host with one dump, and the names of its addresses. -/
structure Shows (host : HeapCommand → String) (binary path : String) (dump : HeapDump)
    (symbol place : String → String) : Prop where
  newest  : host .newestDump = path ++ "\n"
  plain   : path ≠ "" ∧ ∀ c ∈ path.toList, isSpace c = false
  content : host (.cat path) = dump.text
  written : dump.Written
  names   : ∀ addrs, host (.addr2line binary addrs) = addr2lineText symbol place addrs
  printed : ∀ site ∈ dump.sites, ∀ addr ∈ site.addresses, Printed symbol place addr

/-- What a breakdown has to do with the dump it is of. -/
structure CollectedFrom (perKey : ℤ → ℤ → φ) (dump : HeapDump) (symbol : String → String)
    (numKeys : ℤ) (result : HeapProfileResult φ) : Prop where
  kept      : result.rawStacks = dump.named symbol
  /-- Each stack counts in its category. -/
  breakdown : result.breakdown = categoryNames.map fun category =>
    (category, perKey (((dump.named symbol).filter fun alloc =>
      decide (categorizeStack alloc.1 = category)).map Prod.snd).sum numKeys)
  /-- No byte is lost, and none counts twice. -/
  whole     : (categoryNames.map (categoryBytes result.rawStacks)).sum =
    ((dump.sites.filter fun site => decide (site.addresses ≠ [])).map fun site =>
      (site.bytes : ℤ)).sum
  /-- What an exporter makes of the stacks later on. -/
  again     : recategorizeFromStacks perKey result.rawStacks numKeys = result.breakdown

theorem resolved_graph {all addrs : List String} (h : addrs ⊆ all) :
    resolved (all.map fun addr => (addr, symbol addr)) addrs = addrs.map symbol := by
  refine List.map_congr_left fun addr haddr => ?_
  rw [List.lookup_graph symbol (h haddr)]
  rfl

theorem mem_sortedAddrs {allocs : List (List String × ℤ)} {addr : String} :
    addr ∈ sortedAddrs allocs ↔ ∃ alloc ∈ allocs, addr ∈ alloc.1 := by
  rw [sortedAddrs, List.mem_insertionSort, List.mem_dedup, List.mem_flatMap]

theorem mem_reads {sites : List Site} {alloc : List String × ℤ} :
    alloc ∈ sites.flatMap Site.read ↔
      ∃ site ∈ sites, site.addresses ≠ [] ∧ alloc = (site.addresses, (site.bytes : ℤ)) := by
  rw [List.mem_flatMap]
  refine exists_congr fun site => and_congr_right fun _ => ?_
  unfold Site.read
  split
  · next hnone =>
    exact ⟨fun h => absurd h List.not_mem_nil, fun h => absurd hnone h.1⟩
  · next haddrs => exact List.mem_singleton.trans ⟨fun h => ⟨haddrs, h⟩, fun h => h.2⟩

theorem sortedAddrs_ne_nil (hsome : ∃ site ∈ dump.sites, site.addresses ≠ []) :
    sortedAddrs (dump.sites.flatMap Site.read) ≠ [] := by
  obtain ⟨site, hsite, haddrs⟩ := hsome
  obtain ⟨addr, haddr⟩ := List.exists_mem_of_ne_nil _ haddrs
  have hread := mem_reads.mpr ⟨site, hsite, haddrs, rfl⟩
  exact List.ne_nil_of_mem (mem_sortedAddrs.mpr ⟨_, hread, haddr⟩)

/-- The names of the stacks that were read. -/
theorem named_of_resolved (h : Shows host binary path dump symbol place)
    (hsome : ∃ site ∈ dump.sites, site.addresses ≠ []) :
    (dump.sites.flatMap Site.read).map (fun alloc =>
        (resolved (resolveAddresses (sortedAddrs (dump.sites.flatMap Site.read))
          (addr2lineText symbol place (sortedAddrs (dump.sites.flatMap Site.read)))) alloc.1,
          alloc.2)) = dump.named symbol := by
  have hprinted : ∀ addr ∈ sortedAddrs (dump.sites.flatMap Site.read),
      Printed symbol place addr := by
    intro addr haddr
    obtain ⟨alloc, halloc, haddr⟩ := mem_sortedAddrs.mp haddr
    obtain ⟨site, hsite, -, rfl⟩ := mem_reads.mp halloc
    exact h.printed site hsite addr haddr
  rw [resolveAddresses_text (sortedAddrs_ne_nil hsome) hprinted]
  refine List.map_congr_left fun alloc halloc => ?_
  rw [resolved_graph fun addr haddr => mem_sortedAddrs.mpr ⟨alloc, halloc, haddr⟩]

theorem mem_categoryNames (category : HeapCategory) : category ∈ categoryNames := by
  cases category <;> decide

/-- The bytes of the stacks that were read are those of the places with addresses. -/
theorem sum_named (dump : HeapDump) (symbol : String → String) :
    ((dump.named symbol).map Prod.snd).sum =
      ((dump.sites.filter fun site => decide (site.addresses ≠ [])).map fun site =>
        (site.bytes : ℤ)).sum := by
  unfold HeapDump.named
  rw [List.map_map]
  induction dump.sites with
  | nil => rfl
  | cons site sites ih =>
    rw [List.flatMap_cons, List.map_append, List.sum_append, ih, Site.read]
    split
    · next hnone =>
      rw [List.filter_cons, if_neg (by rw [hnone]; decide), List.map_nil, List.sum_nil, zero_add]
    · next hsome =>
      rw [List.filter_cons, if_pos (decide_eq_true hsome), List.map_cons, List.map_cons,
        List.sum_cons, List.sum_cons, List.map_nil, List.sum_nil, add_zero]
      rfl

theorem content_text (dump : HeapDump) :
    dump.text ≠ "" ∧ "heap_v2".toList <:+: dump.text.toList := by
  have htext : dump.text.toList = ['\n'].intercalate dump.lines := String.toList_ofList
  have hprefix : "heap_v2".toList <+: dump.text.toList := by
    rw [htext]
    refine List.IsPrefix.trans ?_ (prefix_intercalate _ _)
    exact List.IsPrefix.trans (by decide) (List.prefix_append "heap_v2/".toList _)
  refine ⟨fun hempty => ?_, hprefix.isInfix⟩
  rw [hempty] at hprefix
  revert hprefix
  decide

/-- **The breakdown of a dump** is that of its stacks. -/
theorem collected_breakdown (h : Shows host binary path dump symbol place)
    (hsome : ∃ site ∈ dump.sites, site.addresses ≠ []) (hkeys : 0 < numKeys) :
    ∃ result, collectHeapProfile perKey host binary numKeys = .ok (some result) ∧
      CollectedFrom perKey dump symbol numKeys result := by
  have hpath : String.ofList (strip (host .newestDump).toList) = path := by
    rw [h.newest, String.toList_append, strip_append_blank (forall_mem_of_all (by decide)),
      strip_of_all h.plain.2, String.ofList_toList]
  obtain ⟨hcontent, hversion⟩ := content_text dump
  have hnamed := named_of_resolved h hsome
  have haddrs := sortedAddrs_ne_nil hsome
  have hallocs : dump.sites.flatMap Site.read ≠ [] := by
    intro hnone
    rw [hnone] at haddrs
    exact haddrs rfl
  have houtput : addr2lineText symbol place (sortedAddrs (dump.sites.flatMap Site.read)) ≠ "" := by
    obtain ⟨addr, haddr⟩ := List.exists_mem_of_ne_nil _ haddrs
    intro hempty
    have hnewline : '\n' ∈ (addr2lineText symbol place
        (sortedAddrs (dump.sites.flatMap Site.read))).toList := by
      rw [addr2lineText, String.toList_ofList]
      exact List.mem_flatMap.mpr ⟨addr, haddr, List.mem_append_right _ List.mem_cons_self⟩
    rw [hempty] at hnewline
    cases hnewline
  refine ⟨⟨recategorizeFromStacks perKey (dump.named symbol) numKeys, dump.named symbol⟩, ?_,
    rfl, ?_, ?_, rfl⟩
  · unfold collectHeapProfile
    simp only [hpath, h.content, parseStacks_text h.written, except_ok_bind, h.names, hnamed,
      h.plain.1, hcontent, hversion, hallocs, houtput, hkeys.not_ge, if_false, not_true, or_self]
    rfl
  · refine List.map_congr_left fun category _ => ?_
    rw [categoryBytes, tally_apply]
  · rw [← sum_named dump symbol]
    exact sum_tally (by decide) fun alloc _ => mem_categoryNames _

end Collected

/-! ## A small tree -/

def twoLeaves : Site := ⟨["0x1", "0x2"], 2, 96, " [0: 0]", ["  t0: 2: 96 [0: 0]"]⟩

def oneRoot : Site := ⟨["0x3"], 1, 16, " [0: 0]", []⟩

def smallDump : HeapDump :=
  ⟨524288, ["  t*: 3: 112 [0: 0]"], [twoLeaves, oneRoot], ["", "MAPPED_LIBRARIES:"]⟩

def smallSymbol : String → String
  | "0x1" => "zmalloc"
  | "0x2" => "leafNodeCreate"
  | "0x3" => "fbtreeCreate"
  | _ => "??"

def smallHost : HeapCommand → String
  | .newestDump => "/tmp/valkey-heap.7.heap\n"
  | .cat _ => smallDump.text
  | .addr2line _ addrs => addr2lineText smallSymbol (fun _ => "??:0") addrs

theorem small_printed : ∀ addr ∈ ["0x1", "0x2", "0x3"],
    Printed smallSymbol (fun _ => "??:0") addr := by
  intro addr haddr
  simp only [List.mem_cons, List.not_mem_nil, or_false] at haddr
  rcases haddr with rfl | rfl | rfl
  all_goals exact ⟨by decide, ⟨_, rfl, by decide⟩, by decide, ⟨_, rfl, by decide⟩⟩

theorem small_shows : Shows smallHost "/src/valkey-server" "/tmp/valkey-heap.7.heap" smallDump
    smallSymbol fun _ => "??:0" := by
  have hsmall : ∀ k n : ℕ, n < 10 ^ 2 → 2 ≤ k → n < 10 ^ k := fun k n hn hk =>
    hn.trans_le (Nat.pow_le_pow_right (by decide) hk)
  have hword : ∀ addr ∈ ["0x1", "0x2", "0x3"],
      addr.toList ≠ [] ∧ ∀ c ∈ addr.toList, isSpace c = false := by
    intro addr haddr
    simp only [List.mem_cons, List.not_mem_nil, or_false] at haddr
    rcases haddr with rfl | rfl | rfl <;> exact ⟨by decide, forall_mem_of_all (by decide)⟩
  have hleaves : twoLeaves.Written :=
    ⟨fun addr haddr => hword addr (List.mem_append_left ["0x3"] haddr),
      hsmall _ _ (by decide) (by decide), forall_head_of_all (by decide), by decide, by decide⟩
  have hroot : oneRoot.Written :=
    ⟨fun addr haddr => hword addr (List.mem_append_right ["0x1", "0x2"] haddr),
      hsmall _ _ (by decide) (by decide), forall_head_of_all (by decide), by decide, by decide⟩
  refine ⟨by decide, ⟨by decide, forall_mem_of_all (by decide)⟩, rfl,
    ⟨by decide, fun site hsite => ?_, by decide⟩, fun _ => rfl,
    fun site hsite addr haddr => small_printed addr ?_⟩
  · rcases List.mem_pair.mp hsite with rfl | rfl
    · exact hleaves
    · exact hroot
  · rcases List.mem_pair.mp hsite with rfl | rfl <;> revert addr <;> decide

theorem collected_breakdown_small : ∃ result,
    collectHeapProfile (fun bytes keys => (bytes : ℚ) / keys) smallHost "/src/valkey-server" 2 =
        .ok (some result) ∧
      result.rawStacks = [(["zmalloc", "leafNodeCreate"], 96), (["fbtreeCreate"], 16)] ∧
      result.breakdown.lookup .fbtree = some 56 := by
  obtain ⟨result, hresult, hfrom⟩ := @collected_breakdown ℚ (fun bytes keys => (bytes : ℚ) / keys)
    _ _ _ _ _ _ 2 small_shows ⟨twoLeaves, List.mem_cons_self, by decide⟩ (by decide)
  refine ⟨result, hresult, hfrom.kept.trans (by decide), ?_⟩
  rw [hfrom.breakdown]
  decide +kernel

end Conductress.HeapProfile
