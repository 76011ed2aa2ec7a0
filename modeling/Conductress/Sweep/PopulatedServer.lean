import Conductress.Sweep.Populator

/-!
# A server that is filled and read

`populate` and `touch` against a server: operations are queued in a pipeline, sent every
5,000 commands, and at the end. `touch` reads items by index, so that a table that is still
being rehashed is done with before memory is sampled.

The server and the client library are parameters, `ItemServer`, of which `Lawful` says what
their documentation does: a pipeline sends its commands in order, a write changes its item, a
lookup changes nothing.

* `batched_run` — where the pipeline is flushed makes no difference;
* `populated` — what the server holds is what the script of `_operations` leaves;
* `touch_reads_each` — after a fill every read finds its item, and every item is read once. After
  a churn the items that were added to it are not read at all.
-/

namespace Conductress.Sweep

open Lib

/-! ## The server -/

/-- A command in a pipeline. -/
inductive ServerCommand where
  | write (command : Command) (op : Op)
  | expire (key : String)
  | lookup (words : List String)

/-- The lookup of an item. -/
def Command.lookup : Command → String → List String
  | .set, key => ["EXISTS", key]
  | .sadd, member => ["SISMEMBER", "myset", member]
  | .hset, field => ["HEXISTS", "myhash", field]
  | .zadd, member => ["ZSCORE", "myzset", member]

/-- The name of an item of some size. -/
def IsItem (command : Command) (name : String) : Prop :=
  ∃ sizes idx, name = itemName command sizes idx

/-- A server, with the client's pipelines on it. -/
structure ItemServer (σ : Type) where
  /-- One command, or the error it is answered with. -/
  run     : σ → ServerCommand → Except PyError σ
  /-- `pipe.execute()`. -/
  execute : σ → List ServerCommand → Except PyError σ
  /-- An item is there: a string, or what is in `myset`, `myhash` or `myzset`. -/
  has     : σ → Command → String → Prop
  /-- A string has a time to live. -/
  expires : σ → String → Prop

namespace ItemServer

variable {σ : Type} (v : ItemServer σ)

/-- Two states of a server with the same items, of which the same expire. -/
def SameItems (s s' : σ) : Prop :=
  (∀ c name, IsItem c name → (v.has s' c name ↔ v.has s c name)) ∧
    ∀ key, IsItem .set key → (v.expires s' key ↔ v.expires s key)

/-- No item is there. -/
def Empty (s : σ) : Prop :=
  (∀ c name, IsItem c name → ¬ v.has s c name) ∧ ∀ key, IsItem .set key → ¬ v.expires s key

/-- What is documented of the server's commands, while no time to live is over, and of pipelines. -/
structure Lawful : Prop where
  /-- A pipeline runs what is pending in its order, and raises what a command is answered with. -/
  pipelined : ∀ {s s' commands}, v.execute s commands = .ok s' → commands.foldlM v.run s = .ok s'
  /-- `SET`, `SADD`, `HSET`, `ZADD`, and what they have for deletion, change one item. -/
  wrote : ∀ {s s' c op}, v.run s (.write c op) = .ok s' → IsItem c op.name →
    ∀ c' name, IsItem c' name →
      (v.has s' c' name ↔ if c' = c ∧ name = op.name then op.isAdd = true else v.has s c' name)
  /-- A string that is written or deleted loses its time to live. -/
  wroteOver : ∀ {s s' c op}, v.run s (.write c op) = .ok s' → IsItem c op.name →
    ∀ key, IsItem .set key → (v.expires s' key ↔ v.expires s key ∧ ¬ (c = .set ∧ key = op.name))
  /-- `EXPIRE` keeps the items. -/
  expiredKept : ∀ {s s' key}, v.run s (.expire key) = .ok s' → IsItem .set key →
    ∀ c name, IsItem c name → (v.has s' c name ↔ v.has s c name)
  /-- `EXPIRE` gives a string that is there a time to live. -/
  expired : ∀ {s s' key}, v.run s (.expire key) = .ok s' → IsItem .set key →
    ∀ key', IsItem .set key' →
      (v.expires s' key' ↔ v.expires s key' ∨ key' = key ∧ v.has s .set key)
  /-- A lookup changes nothing. -/
  looked : ∀ {s s' c name}, v.run s (.lookup (c.lookup name)) = .ok s' → IsItem c name →
    v.SameItems s s'

/-! ## The pipeline -/

/-- `BATCH_SIZE`. -/
def batchSize : ℕ := 5000

/-- The loop of `_execute_operations`, `_apply_expire` and `touch`: a flush every `batchSize`
commands, and one at the end. -/
def batched (pending : List ServerCommand) (issued : ℕ) (s : σ) :
    List ServerCommand → Except PyError σ
  | [] => v.execute s pending
  | command :: rest =>
    if (issued + 1) % batchSize = 0 then do
      let s ← v.execute s (pending ++ [command])
      batched [] (issued + 1) s rest
    else batched (pending ++ [command]) (issued + 1) s rest

variable {v} {s s' : σ}

/-- **Flushing** makes no difference. -/
theorem batched_run (hv : v.Lawful) {pending commands : List ServerCommand} {issued : ℕ}
    (h : v.batched pending issued s commands = .ok s') :
    (pending ++ commands).foldlM v.run s = .ok s' := by
  induction commands generalizing pending issued s with
  | nil =>
    rw [List.append_nil]
    exact hv.pipelined h
  | cons command rest ih =>
    have hassoc : pending ++ command :: rest = (pending ++ [command]) ++ rest := by
      rw [List.append_assoc]
      rfl
    rw [batched] at h
    rw [hassoc]
    split at h
    · -- what was pending has been run, and nothing is pending after it
      obtain ⟨t, ht, h⟩ := except_bind_ok.mp h
      rw [List.foldlM_append, hv.pipelined ht, except_ok_bind]
      exact ih h
    · exact ih h

theorem SameItems.refl (s : σ) : v.SameItems s s := ⟨fun _ _ _ => Iff.rfl, fun _ _ => Iff.rfl⟩

theorem SameItems.trans {t : σ} (h : v.SameItems s t) (h' : v.SameItems t s') : v.SameItems s s' :=
  ⟨fun c name hname => (h'.1 c name hname).trans (h.1 c name hname),
    fun key hkey => (h'.2 key hkey).trans (h.2 key hkey)⟩

end ItemServer

/-! ## The workload -/

/-- The fields of a `MemoryWorkload` that say what is filled in. -/
structure FillWorkload where
  command      : String
  itemCount    : ℤ
  sizes        : ItemSizes
  hasExpire    : Bool
  populateMode : String

namespace FillWorkload

variable {σ : Type} (v : ItemServer σ) (w : FillWorkload)

/-- `_apply_expire`. -/
def applyExpire (s : σ) : Except PyError σ :=
  -- expiration is for strings, and left out with a message for the others
  if w.command ≠ "set" then .ok s
  else do
    let keys ← (List.range w.itemCount.toNat).mapM fun i : ℕ => padToSize "key" i w.sizes.keySize
    v.batched [] 0 s (keys.map .expire)

/-- `populate`. What it raises when a size and the server are both at fault is not told apart:
the code has run some batches by the time it finds that a name does not fit. -/
def populate (rng : Rng) (s : σ) : Except PyError σ :=
  if w.populateMode = "churn" ∧ w.hasExpire then
    .error (.valueError ("populate_mode='churn' is incompatible with has_expire " ++
      "(churn changes which items exist)"))
  else do
    let ops ← operations rng w.command w.itemCount w.sizes w.populateMode
    match Command.ofText w.command with
    | none => .error (.valueError s!"Unsupported command: {w.command}")
    | some command => do
      let filled ← v.batched [] 0 s (ops.map (.write command))
      if w.hasExpire then w.applyExpire v filled else return filled

/-- `touch`: the number of reads it has issued. -/
def touch (s : σ) : Except PyError (ℕ × σ) := do
  let reads ← touchOps w.command w.itemCount w.sizes
  let touched ← v.batched [] 0 s (reads.map .lookup)
  return (reads.length, touched)

end FillWorkload

/-! ## What the commands do -/

section Commands

variable {σ : Type} {v : ItemServer σ} {command : Command} {s s' : σ}

theorem isItem_itemName (command : Command) (sizes : ItemSizes) (idx : ℕ) :
    IsItem command (itemName command sizes idx) := ⟨sizes, idx, rfl⟩

/-- What a write does to the items is what it does to the script. -/
theorem has_write (hv : v.Lawful) {op : Op} (h : v.run s (.write command op) = .ok s')
    (hop : IsItem command op.name) {present : Finset String}
    (hpresent : ∀ name, IsItem command name → (v.has s command name ↔ name ∈ present)) {name : String}
    (hname : IsItem command name) : v.has s' command name ↔ name ∈ Edit.apply present op.edit := by
  rw [hv.wrote h hop command name hname]
  cases op with
  | add added payload =>
    show (if command = command ∧ name = added then true = true else _) ↔ name ∈ insert added present
    by_cases heq : name = added <;> simp [heq, hpresent name hname]
  | del gone =>
    show (if command = command ∧ name = gone then false = true else _) ↔ name ∈ present.erase gone
    by_cases heq : name = gone <;> simp [heq, hpresent name hname]

/-- Writes go to the items of their command, and nowhere else. -/
theorem run_writes (hv : v.Lawful) {ops : List Op} (hnamed : ∀ op ∈ ops, IsItem command op.name)
    {present : Finset String}
    (hpresent : ∀ name, IsItem command name → (v.has s command name ↔ name ∈ present))
    (h : (ops.map (.write command)).foldlM v.run s = .ok s') :
    (∀ name, IsItem command name →
      (v.has s' command name ↔ name ∈ Edit.contents present (ops.map Op.edit))) ∧
    (∀ other, other ≠ command → ∀ name, IsItem other name →
      (v.has s' other name ↔ v.has s other name)) ∧
    ∀ key, IsItem .set key → v.expires s' key → v.expires s key := by
  induction ops generalizing s present with
  | nil =>
    cases h
    exact ⟨hpresent, fun _ _ _ _ => Iff.rfl, fun _ _ h => h⟩
  | cons op ops ih =>
    obtain ⟨hop, hops⟩ := List.forall_mem_cons.mp hnamed
    rw [List.map_cons, List.foldlM_cons] at h
    obtain ⟨t, ht, h⟩ := except_bind_ok.mp h
    obtain ⟨hhas, hother, hexpires⟩ := ih hops
      (fun name hname => has_write hv ht hop hpresent hname) h
    refine ⟨hhas, fun other hne name hname => ?_, fun key hkey hlater => ?_⟩
    · rw [hother other hne name hname, hv.wrote ht hop other name hname, if_neg fun h => hne h.1]
    · exact ((hv.wroteOver ht hop key hkey).mp (hexpires key hkey hlater)).1

/-- Lookups change nothing. -/
theorem run_lookups (hv : v.Lawful) {names : List String} (hnames : ∀ name ∈ names, IsItem command name)
    (h : ((names.map command.lookup).map .lookup).foldlM v.run s = .ok s') : v.SameItems s s' := by
  induction names generalizing s with
  | nil =>
    cases h
    exact .refl _
  | cons name names ih =>
    obtain ⟨hname, hrest⟩ := List.forall_mem_cons.mp hnames
    rw [List.map_cons, List.map_cons, List.foldlM_cons] at h
    obtain ⟨t, ht, h⟩ := except_bind_ok.mp h
    exact (hv.looked ht hname).trans (ih hrest h)

/-- Keys that are there expire. -/
theorem run_expires (hv : v.Lawful) {keys : List String} (hkeys : ∀ key ∈ keys, IsItem .set key)
    (h : (keys.map ServerCommand.expire).foldlM v.run s = .ok s') :
    (∀ c name, IsItem c name → (v.has s' c name ↔ v.has s c name)) ∧
      ∀ key, IsItem .set key →
        (v.expires s' key ↔ v.expires s key ∨ key ∈ keys ∧ v.has s .set key) := by
  induction keys generalizing s with
  | nil =>
    cases h
    exact ⟨fun _ _ _ => Iff.rfl, fun key _ => by simp⟩
  | cons first keys ih =>
    obtain ⟨hfirst, hrest⟩ := List.forall_mem_cons.mp hkeys
    rw [List.map_cons, List.foldlM_cons] at h
    obtain ⟨t, ht, h⟩ := except_bind_ok.mp h
    obtain ⟨hhas, hexpires⟩ := ih hrest h
    have hkept := hv.expiredKept ht hfirst
    refine ⟨fun c name hname => (hhas c name hname).trans (hkept c name hname), fun key hkey => ?_⟩
    rw [hexpires key hkey, hv.expired ht hfirst key hkey, hkept .set key hkey, List.mem_cons]
    constructor
    · rintro ((hold | ⟨rfl, hthere⟩) | ⟨hmem, hthere⟩)
      · exact .inl hold
      · exact .inr ⟨.inl rfl, hthere⟩
      · exact .inr ⟨.inr hmem, hthere⟩
    · rintro (hold | ⟨rfl | hmem, hthere⟩)
      · exact .inl (.inl hold)
      · exact .inl (.inr ⟨rfl, hthere⟩)
      · exact .inr ⟨hmem, hthere⟩

end Commands

/-! ## What is there after a fill -/

section Filled

variable {σ : Type} {v : ItemServer σ} {rng : Rng} {command : Command} {sizes : ItemSizes}
  {w : FillWorkload} {s₀ s s' : σ}

/-- Every operation of the rounds is on an item. -/
theorem named_churnRounds {rounds round nextIdx : ℕ} {live : List ℕ} {ops : List Op}
    (h : churnRounds rng command sizes rounds round live nextIdx = .ok ops) :
    ∀ op ∈ ops, ∃ idx, op.name = itemName command sizes idx := by
  induction rounds generalizing round live nextIdx ops with
  | zero =>
    cases h
    exact fun op hop => by cases hop
  | succ rounds ih =>
    rw [churnRounds] at h
    split at h
    · obtain ⟨op, hop, h⟩ := except_bind_ok.mp h
      obtain ⟨rest, hrest, h⟩ := except_bind_ok.mp h
      cases h
      obtain ⟨-, rfl⟩ := delOp_ok hop
      exact List.forall_mem_cons.mpr ⟨⟨_, rfl⟩, ih hrest⟩
    · obtain ⟨op, hop, h⟩ := except_bind_ok.mp h
      obtain ⟨rest, hrest, h⟩ := except_bind_ok.mp h
      cases h
      obtain ⟨-, payload, rfl⟩ := addOp_ok hop
      exact List.forall_mem_cons.mpr ⟨⟨_, rfl⟩, ih hrest⟩

/-- The operations are on items, and a fill adds those below the count, each once. -/
theorem operations_items {count : ℤ} {mode : String} {ops : List Op}
    (h : operations rng command.text count sizes mode = .ok ops) :
    (∀ idx < count.toNat, Fits command sizes idx) ∧
      (∀ op ∈ ops, ∃ idx, op.name = itemName command sizes idx) ∧
      (mode ≠ "churn" → ∃ order : List ℕ, order.Perm (List.range count.toNat) ∧
        ops.map Op.edit = (order.map (itemName command sizes)).map .add) := by
  unfold operations at h
  split at h
  · cases h
  · next m hm =>
    rw [Command.ofText_text] at h
    dsimp only at h
    have hperm := @fill_perm rng m count
    generalize (if m ≠ .sequential then rng.shuffle (List.range count.toNat)
      else List.range count.toNat) = order at h hperm
    obtain ⟨fill, hfill, h⟩ := except_bind_ok.mp h
    obtain ⟨hedits, -⟩ := edits_fill hfill
    have hnamed : ∀ op ∈ fill, ∃ idx, op.name = itemName command sizes idx := by
      intro op hop
      obtain ⟨idx, -, hidx⟩ := (except_mem_mapM hfill).mp hop
      obtain ⟨-, payload, rfl⟩ := addOp_ok hidx
      exact ⟨idx, rfl⟩
    have hfits : ∀ idx < count.toNat, Fits command sizes idx := by
      intro idx hidx
      have hmem := hperm.mem_iff.mpr (List.mem_range.mpr hidx)
      obtain ⟨op, hop⟩ := except_mapM_ok.mp ⟨fill, hfill⟩ idx hmem
      exact (addOp_ok hop).1
    by_cases hmode : m ≠ .churn
    · rw [if_pos hmode] at h
      cases h
      exact ⟨hfits, hnamed, fun _ => ⟨order, hperm, hedits⟩⟩
    · rw [if_neg hmode] at h
      obtain ⟨churn, hchurn, h⟩ := except_bind_ok.mp h
      cases h
      refine ⟨hfits, fun op hop => ?_, fun hother => ?_⟩
      · rcases List.mem_append.mp hop with hop | hop
        · exact hnamed op hop
        · exact named_churnRounds hchurn op hop
      · rw [← PopulateMode.ofText_some hm, not_not.mp hmode] at hother
        exact absurd rfl hother

/-- The reads, by the items they look up. -/
theorem touchOps_items {count : ℤ} {reads : List (List String)}
    (h : touchOps command.text count sizes = .ok reads) :
    reads = ((List.range count.toNat).map (itemName command sizes)).map command.lookup := by
  rw [List.map_map, ← List.map_id reads]
  refine except_map_of_mapM h fun idx words hwords => ?_
  rw [Command.ofText_text] at hwords
  have hread : ∀ {pre : String} {size : ℤ} {f : String → List String},
      (padToSize pre idx size).map f = .ok words → words = f (paddedName pre size idx) := by
    intro pre size f hmap
    obtain ⟨name, hname, rfl⟩ := except_map_ok.mp hmap
    rw [(padToSize_ok.mp hname).2]
  cases command with
  | set => rw [hread hwords]; rfl
  | sadd => rw [hread hwords]; rfl
  | hset => rw [hread hwords]; rfl
  | zadd => rw [hread hwords]; rfl

/-- The server when `populate` has returned. -/
structure Populated (v : ItemServer σ) (w : FillWorkload) (command : Command) (s : σ) : Prop where
  /-- Everything there is an item of the workload. -/
  named   : ∀ name, IsItem command name → v.has s command name →
    ∃ idx, name = itemName command w.sizes idx
  /-- A fill leaves the items below the count. -/
  filled  : w.populateMode ≠ "churn" → ∀ name, IsItem command name →
    (v.has s command name ↔ ∃ idx < w.itemCount.toNat, name = itemName command w.sizes idx)
  /-- There is nothing else. -/
  apart   : ∀ other, other ≠ command → ∀ name, IsItem other name → ¬ v.has s other name
  /-- Strings expire where they are to, and nothing else does. -/
  expires : ∀ key, IsItem .set key → (v.expires s key ↔
    (w.hasExpire = true ∧ command = .set) ∧
      ∃ idx < w.itemCount.toNat, key = itemName command w.sizes idx)
  /-- The sizes are enough for the items below the count. -/
  fits    : ∀ idx < w.itemCount.toNat, Fits command w.sizes idx

theorem Populated.applyExpire {filled : σ} (hv : v.Lawful)
    (hfilled : Populated v { w with hasExpire := false } command filled)
    (hexpire : w.hasExpire = true) (hmode : w.populateMode ≠ "churn")
    (htext : command.text = w.command) (h : w.applyExpire v filled = .ok s) :
    Populated v w command s := by
  have hnone : ∀ key, IsItem .set key → ¬ v.expires filled key := by
    intro key hkey hold
    exact Bool.false_ne_true ((hfilled.expires key hkey).mp hold).1.1
  unfold FillWorkload.applyExpire at h
  split at h
  · next hset =>
    cases h
    have hother : ¬ (w.hasExpire = true ∧ command = .set) := by
      rintro ⟨-, rfl⟩
      exact hset htext.symm
    exact ⟨hfilled.named, hfilled.filled, hfilled.apart,
      fun key hkey => iff_of_false (hnone key hkey) fun h => hother h.1, hfilled.fits⟩
  · next hset =>
    obtain ⟨keys, hkeys, h⟩ := except_bind_ok.mp h
    obtain rfl : command = .set := by
      have hofText := Command.ofText_text command
      rw [htext, not_not.mp hset] at hofText
      exact (Option.some_inj.mp hofText).symm
    -- the keys are those that were filled in
    have hitems : keys = (List.range w.itemCount.toNat).map (itemName .set w.sizes) := by
      rw [← List.map_id keys]
      exact except_map_of_mapM hkeys fun idx key hkey => (padToSize_ok.mp hkey).2
    have hmem : ∀ key, key ∈ keys ↔ ∃ idx < w.itemCount.toNat, key = itemName .set w.sizes idx := by
      intro key
      rw [hitems, List.mem_map]
      simp only [List.mem_range, eq_comm]
    have hnames : ∀ key ∈ keys, IsItem .set key := by
      intro key hkey
      obtain ⟨idx, -, rfl⟩ := (hmem key).mp hkey
      exact isItem_itemName _ _ _
    obtain ⟨hhas, hexpires⟩ := run_expires hv hnames (ItemServer.batched_run hv h)
    refine ⟨fun name hname hthere => ?_, fun hother name hname => ?_, fun other hother name hname => ?_,
      fun key hkey => ?_, hfilled.fits⟩
    · exact hfilled.named name hname ((hhas _ _ hname).mp hthere)
    · exact (hhas _ _ hname).trans (hfilled.filled hother name hname)
    · exact fun hthere => hfilled.apart other hother name hname ((hhas _ _ hname).mp hthere)
    · rw [hexpires key hkey, or_iff_right (hnone key hkey), hmem key,
        hfilled.filled hmode key hkey, and_self]
      exact (and_iff_right ⟨hexpire, rfl⟩).symm

/-- **After a fill** of an empty server. -/
theorem populated (hv : v.Lawful) (hempty : v.Empty s₀) (h : w.populate v rng s₀ = .ok s) :
    ∃ command, Command.ofText w.command = some command ∧ Populated v w command s := by
  unfold FillWorkload.populate at h
  split at h
  · cases h
  · next hcompatible =>
    obtain ⟨ops, hops, h⟩ := except_bind_ok.mp h
    cases hcommand : Command.ofText w.command with
    | none =>
      rw [hcommand] at h
      cases h
    | some command =>
      refine ⟨command, rfl, ?_⟩
      rw [hcommand] at h
      have htext : command.text = w.command := of_decide_eq_true (List.find?_some hcommand :)
      rw [← htext] at hops
      obtain ⟨hfits, hnamed, hfill⟩ := operations_items hops
      obtain ⟨filled, hwritten, h⟩ := except_bind_ok.mp h
      have hitems : ∀ op ∈ ops, IsItem command op.name := by
        intro op hop
        obtain ⟨idx, hidx⟩ := hnamed op hop
        exact ⟨w.sizes, idx, hidx⟩
      -- nothing is there at first, so that what is there after it is what the script leaves
      obtain ⟨hhas, hothers, hexpires⟩ := @run_writes _ v command s₀ filled hv ops hitems ∅
        (fun name hname => iff_of_false (hempty.1 command name hname) (Finset.notMem_empty _))
        (ItemServer.batched_run hv hwritten)
      have hfilled : Populated v { w with hasExpire := false } command filled := by
        refine ⟨fun name hname hthere => ?_, fun hother name hname => ?_,
          fun other hother name hname => ?_, fun key hkey => ?_, hfits⟩
        · rw [hhas name hname] at hthere
          rcases Edit.add_mem_of_mem_contents hthere with hnone | hadd
          · exact absurd hnone (Finset.notMem_empty _)
          · obtain ⟨op, hop, hedit⟩ := List.mem_map.mp hadd
            obtain ⟨idx, hidx⟩ := hnamed op hop
            refine ⟨idx, ?_⟩
            cases op with
            | add added payload =>
              cases hedit
              exact hidx
            | del gone => cases hedit
        · obtain ⟨order, hperm, hedits⟩ := hfill hother
          rw [hhas name hname, hedits, Edit.contents_adds, Finset.empty_union]
          simp only [List.mem_toFinset, List.mem_map, hperm.mem_iff, List.mem_range, eq_comm]
        · rw [hothers other hother name hname]
          exact hempty.1 other name hname
        · refine iff_of_false (fun hold => ?_) fun h => Bool.false_ne_true h.1.1
          exact hempty.2 key hkey (hexpires key hkey hold)
      split at h
      · next hexpire =>
        exact hfilled.applyExpire hv hexpire (fun hchurn => hcompatible ⟨hchurn, hexpire⟩) htext h
      · next hexpire =>
        cases h
        refine ⟨hfilled.named, hfilled.filled, hfilled.apart, fun key hkey => ?_, hfilled.fits⟩
        rw [hfilled.expires key hkey]
        exact iff_of_false (fun h => Bool.false_ne_true h.1.1) fun h => hexpire h.1.1

/-- The server when `touch` has returned, and the lookups it has sent. -/
structure Touched (v : ItemServer σ) (w : FillWorkload) (command : Command) (s s' : σ) (issued : ℕ)
    (reads : List (List String)) : Prop where
  /-- The lookups, one after another. -/
  sent   : (reads.map ServerCommand.lookup).foldlM v.run s = .ok s'
  /-- There is one for each index below the count. -/
  issued : issued = reads.length ∧ issued = w.itemCount.toNat
  /-- An item with such an index is looked up once, and no other one is. -/
  each   : ∀ idx, reads.count (command.lookup (itemName command w.sizes idx)) =
    if idx < w.itemCount.toNat then 1 else 0
  /-- Nothing has changed. -/
  kept   : v.SameItems s s'
  /-- Unless the fill has churned, that is every item, and every lookup finds one. -/
  found  : w.populateMode ≠ "churn" →
    (∀ name, IsItem command name → v.has s command name → reads.count (command.lookup name) = 1) ∧
    ∀ words ∈ reads, ∃ name, words = command.lookup name ∧ v.has s command name

theorem lookup_injective (command : Command) : Function.Injective command.lookup := by
  intro a b h
  cases command <;> simpa [Command.lookup] using h

/-- **A pass** over what was filled in. -/
theorem Populated.touched {issued : ℕ} (hv : v.Lawful) (hs : Populated v w command s)
    (htext : command.text = w.command) (htouch : w.touch v s = .ok (issued, s')) :
    ∃ reads, Touched v w command s s' issued reads := by
  unfold FillWorkload.touch at htouch
  obtain ⟨reads, hreads, htouch⟩ := except_bind_ok.mp htouch
  obtain ⟨touched, htouched, h⟩ := except_bind_ok.mp htouch
  cases h
  refine ⟨reads, ?_⟩
  rw [← htext] at hreads
  have hitems := touchOps_items hreads
  have hsent := ItemServer.batched_run hv htouched
  rw [List.nil_append] at hsent
  have hlength : reads.length = w.itemCount.toNat := by
    rw [hitems, List.length_map, List.length_map, List.length_range]
  have hnames : ∀ name ∈ (List.range w.itemCount.toNat).map (itemName command w.sizes),
      IsItem command name := by
    intro name hname
    obtain ⟨idx, -, rfl⟩ := List.mem_map.mp hname
    exact isItem_itemName _ _ _
  -- the lookup of an item is sent once for its index
  have hcount : ∀ idx, reads.count (command.lookup (itemName command w.sizes idx)) =
      if idx < w.itemCount.toNat then 1 else 0 := by
    intro idx
    rw [hitems, List.count_map_of_injective _ _ (lookup_injective command),
      List.count_map_of_injective _ _ itemName_injective, List.count_range]
  refine ⟨hsent, ⟨rfl, hlength⟩, hcount, run_lookups hv hnames (hitems ▸ hsent), fun hmode => ?_⟩
  have hfilled := hs.filled hmode
  constructor
  · intro name hname hthere
    obtain ⟨idx, hidx, rfl⟩ := (hfilled name hname).mp hthere
    exact (hcount idx).trans (if_pos hidx)
  · intro words hwords
    rw [hitems] at hwords
    obtain ⟨name, hname, rfl⟩ := List.mem_map.mp hwords
    obtain ⟨idx, hidx, rfl⟩ := List.mem_map.mp hname
    exact ⟨_, rfl, (hfilled _ (isItem_itemName _ _ _)).mpr ⟨idx, List.mem_range.mp hidx, rfl⟩⟩

/-- What a fill has left is there as long as the items are the same. -/
theorem Populated.same (hs : Populated v w command s) (hsame : v.SameItems s s') :
    Populated v w command s' where
  named name hname hthere := hs.named name hname ((hsame.1 _ _ hname).mp hthere)
  filled hmode name hname := (hsame.1 _ _ hname).trans (hs.filled hmode name hname)
  apart other hother name hname hthere :=
    hs.apart other hother name hname ((hsame.1 _ _ hname).mp hthere)
  expires key hkey := (hsame.2 key hkey).trans (hs.expires key hkey)
  fits := hs.fits

/-- **After a fill** every item that `touch` can name is read, and once. -/
theorem touch_reads_each {issued : ℕ} (hv : v.Lawful) (hempty : v.Empty s₀)
    (hfill : w.populate v rng s₀ = .ok s) (htouch : w.touch v s = .ok (issued, s')) :
    ∃ command reads, Command.ofText w.command = some command ∧ Populated v w command s ∧
      Touched v w command s s' issued reads := by
  obtain ⟨command, hcommand, hs⟩ := populated hv hempty hfill
  have htext : command.text = w.command := of_decide_eq_true (List.find?_some hcommand :)
  obtain ⟨reads, hreads⟩ := hs.touched hv htext htouch
  exact ⟨command, reads, hcommand, hs, hreads⟩

/-! ### A server of lists -/

/-- The items that are there, and the strings that expire. -/
structure Shelf where
  items    : List (Command × String)
  expiring : List String
  deriving DecidableEq

namespace Shelf

def run (s : Shelf) : ServerCommand → Except PyError Shelf
  | .write c (.add name _) => .ok
    { items    := (c, name) :: s.items
      expiring := s.expiring.filter fun key => !decide (c = .set ∧ key = name) }
  | .write c (.del name) => .ok
    { items    := s.items.filter fun item => !decide (item = (c, name))
      expiring := s.expiring.filter fun key => !decide (c = .set ∧ key = name) }
  | .expire key => .ok
    { s with expiring := if (.set, key) ∈ s.items then key :: s.expiring else s.expiring }
  | .lookup _ => .ok s

def server : ItemServer Shelf where
  run     := run
  execute := fun s commands => commands.foldlM run s
  has     := fun s c name => (c, name) ∈ s.items
  expires := fun s key => key ∈ s.expiring

theorem lawful : server.Lawful where
  pipelined := id
  wrote := by
    intro s s' c op h _ c' name _
    cases op with
    | add added payload =>
      cases h
      show (c', name) ∈ (c, added) :: s.items ↔ if c' = c ∧ name = added then true = true else _
      by_cases heq : c' = c ∧ name = added <;> simp [server, heq]
    | del gone =>
      cases h
      show (c', name) ∈ s.items.filter _ ↔ if c' = c ∧ name = gone then false = true else _
      by_cases heq : c' = c ∧ name = gone <;> simp [server, List.mem_filter, heq]
  wroteOver := by
    intro s s' c op h _ key _
    cases op with
    | add added payload =>
      cases h
      simp [server, Op.name, List.mem_filter, imp_iff_not_or]
    | del gone =>
      cases h
      simp [server, Op.name, List.mem_filter, imp_iff_not_or]
  expiredKept := by
    intro s s' key h _ c name _
    cases h
    exact Iff.rfl
  expired := by
    intro s s' key h _ key' _
    cases h
    show key' ∈ (if (Command.set, key) ∈ s.items then key :: s.expiring else s.expiring) ↔ _
    by_cases hthere : (Command.set, key) ∈ s.items <;> simp [server, hthere, or_comm]
  looked := by
    intro s s' c name h _
    cases h
    exact .refl _

theorem empty : server.Empty ⟨[], []⟩ := ⟨fun _ _ _ => List.not_mem_nil, fun _ _ => List.not_mem_nil⟩

end Shelf

/-- Three strings that expire; two members and one more, of which the first is deleted. -/
theorem touch_reads_three :
    (∃ s s' reads, Touched Shelf.server ⟨"set", 3, ⟨12, 1, 0⟩, true, "random"⟩ .set s s' 3 reads ∧
      s'.items.length = 3 ∧ s'.expiring.length = 3) ∧
    ∃ s s' reads, Touched Shelf.server ⟨"sadd", 2, ⟨0, 10, 0⟩, false, "churn"⟩ .sadd s s' 2 reads ∧
      s'.items = [(.sadd, "m:0000002:"), (.sadd, "m:0000001:")] := by
  constructor
  · obtain ⟨command, reads, hcommand, -, htouched⟩ := @touch_reads_each _ Shelf.server addsOnly
      ⟨"set", 3, ⟨12, 1, 0⟩, true, "random"⟩ ⟨[], []⟩ _ _ _ Shelf.lawful Shelf.empty rfl rfl
    cases hcommand
    exact ⟨_, _, reads, htouched, by decide, by decide⟩
  · obtain ⟨command, reads, hcommand, -, htouched⟩ := @touch_reads_each _ Shelf.server secondDeletes
      ⟨"sadd", 2, ⟨0, 10, 0⟩, false, "churn"⟩ ⟨[], []⟩ _ _ _ Shelf.lawful Shelf.empty rfl rfl
    cases hcommand
    exact ⟨_, _, reads, htouched, by decide⟩

end Filled

end Conductress.Sweep
