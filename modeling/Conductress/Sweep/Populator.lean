import Conductress.Base.DecimalText
import Conductress.Lib.Except
import Conductress.Lib.Script

/-!
# Filling a server with items of an exact size

`_operations` names its items by a prefix and an index, padded to a size. It adds
`count` items and, in the churn mode, adds and deletes them at random for `count`
rounds, with a list of its own of the indices that are there.

* `operations_script`: what it yields is a valid script, whatever the generator
  draws;
* `operations_ok_iff`: a size that is enough for `count` items is enough for churn
  if and only if it is for the indices that the rounds of its walk add.
-/

namespace Conductress.Sweep

open Lib

/-! ## Names -/

/-- `f"{index:07d}"`. -/
def indexText (index : ℤ) : String :=
  if index < 0 then "-" ++ zeroPad 6 index.natAbs else zeroPad 7 index.natAbs

/-- The prefix and the index, before the padding. -/
def baseName (pre : String) (index : ℤ) : String := pre ++ ":" ++ indexText index ++ ":"

/-- `_pad_to_size`. -/
def padToSize (pre : String) (index targetBytes : ℤ) : Except PyError String :=
  let base := baseName pre index
  if targetBytes < base.length then
    .error (.valueError s!"target_bytes={targetBytes} is too small for unique items (need at least {base.length} bytes for prefix='{pre}', index={index})")
  else .ok (base ++ String.ofList (List.replicate (targetBytes - base.length).toNat 'x'))

/-- `minimum_item_size`. -/
def minimumItemSize (pre : String) (count : ℤ) : ℕ := (baseName pre (count - 1)).length

/-! ## Operations -/

inductive Command where
  | set
  | sadd
  | hset
  | zadd
  deriving DecidableEq

inductive PopulateMode where
  | random
  | sequential
  | churn
  deriving DecidableEq

namespace Command

def text : Command → String
  | .set => "set"
  | .sadd => "sadd"
  | .hset => "hset"
  | .zadd => "zadd"

/-- The commands that are supported. -/
def ofText (command : String) : Option Command :=
  [.set, .sadd, .hset, .zadd].find? fun c => decide (c.text = command)

@[simp] theorem ofText_text (c : Command) : ofText c.text = some c := by
  cases c <;> decide

end Command

namespace PopulateMode

def text : PopulateMode → String
  | .random => "random"
  | .sequential => "sequential"
  | .churn => "churn"

/-- A mode of `POPULATE_MODES`. -/
def ofText (mode : String) : Option PopulateMode :=
  [.random, .sequential, .churn].find? fun m => decide (m.text = mode)

theorem ofText_some {mode : String} {m : PopulateMode} (h : ofText mode = some m) :
    m.text = mode :=
  of_decide_eq_true (List.find?_some h :)

@[simp] theorem ofText_text (m : PopulateMode) : ofText m.text = some m := by
  cases m <;> decide

end PopulateMode

/-- The sizes of a workload. -/
structure ItemSizes where
  keySize   : ℤ
  valueSize : ℤ
  fieldSize : ℤ

namespace Command

/-- The prefix of an item's name. -/
def itemPrefix : Command → String
  | .set => "key"
  | .sadd => "m"
  | .hset => "f"
  | .zadd => "m"

/-- The size of an item's name. -/
def itemSize (sizes : ItemSizes) : Command → ℤ
  | .set => sizes.keySize
  | .sadd => sizes.valueSize
  | .hset => sizes.fieldSize
  | .zadd => sizes.valueSize

end Command

/-- What is added with a name. -/
inductive Payload where
  | nothing
  | value (text : String)
  | score (n : ℕ)
  deriving DecidableEq

/-- An operation: `("add", ...)` or `("del", ...)`. -/
inductive Op where
  | add (name : String) (payload : Payload)
  | del (name : String)
  deriving DecidableEq

namespace Op

def name : Op → String
  | .add name _ => name
  | .del name => name

def isAdd : Op → Bool
  | .add _ _ => true
  | .del _ => false

/-- What an operation does to the items that are there. -/
def edit : Op → Edit String
  | .add name _ => .add name
  | .del name => .del name

end Op

/-- `MAX_SCORE`. -/
def maxScore : ℕ := 2 ^ 53

/-- What the generator draws in a run. Its seed is fixed, so that the runs of one
command, mode and count draw the same. -/
structure Rng where
  shuffle      : List ℕ → List ℕ
  shuffle_perm : ∀ order, (shuffle order).Perm order
  -- `randint(0, MAX_SCORE)` for an item
  score        : ℕ → Fin (maxScore + 1)
  -- `random() < 0.5` in a round
  coin         : ℕ → Bool
  -- `randrange` in a round
  randrange    : ℕ → ∀ n : ℕ, 0 < n → Fin n

section Operations

variable (rng : Rng) (command : Command) (sizes : ItemSizes)

/-- `add_op`. -/
def addOp (mode : PopulateMode) (idx : ℕ) : Except PyError Op :=
  let value := String.ofList (List.replicate sizes.valueSize.toNat 'v')
  match command with
  | .set => (padToSize "key" idx sizes.keySize).map fun key => .add key (.value value)
  | .sadd => (padToSize "m" idx sizes.valueSize).map fun member => .add member .nothing
  | .hset => (padToSize "f" idx sizes.fieldSize).map fun field => .add field (.value value)
  | .zadd =>
    let score := if mode = .sequential then idx else (rng.score idx).val
    (padToSize "m" idx sizes.valueSize).map fun member => .add member (.score score)

/-- `del_op`. -/
def delOp (idx : ℕ) : Except PyError Op :=
  (padToSize command.itemPrefix idx (command.itemSize sizes)).map .del

/-- The churn rounds from one on: `live` are the indices that are there, `nextIdx`
is the next one to add. -/
def churnRounds : (rounds : ℕ) → (round : ℕ) → (live : List ℕ) → (nextIdx : ℕ) →
    Except PyError (List Op)
  | 0, _, _, _ => .ok []
  | rounds + 1, round, live, nextIdx =>
    if h : live ≠ [] ∧ rng.coin round then do
      let pos := rng.randrange round live.length (List.length_pos_iff.mpr h.1)
      let op ← delOp command sizes (live.get pos)
      let ops ← churnRounds rounds (round + 1) (swapRemove live pos) nextIdx
      return op :: ops
    else do
      let op ← addOp rng command sizes .churn nextIdx
      let ops ← churnRounds rounds (round + 1) (live ++ [nextIdx]) (nextIdx + 1)
      return op :: ops

end Operations

/-- `_operations`; a negative count is no item. -/
def operations (rng : Rng) (command : String) (count : ℤ) (sizes : ItemSizes) (mode : String) :
    Except PyError (List Op) :=
  match PopulateMode.ofText mode with
  | none => .error (.valueError
      s!"Unknown populate_mode: '{mode}' (expected one of ('random', 'sequential', 'churn'))")
  | some mode =>
    match Command.ofText command with
    | none => .error (.valueError s!"Unsupported command: {command}")
    | some command => do
      let order := List.range count.toNat
      let order := if mode ≠ .sequential then rng.shuffle order else order
      let fill ← order.mapM (addOp rng command sizes mode)
      if mode ≠ .churn then return fill
      else
        let churn ← churnRounds rng command sizes count.toNat 0 (List.range count.toNat) count.toNat
        return fill ++ churn

/-- The read of an item in `_touch_ops`. -/
def touchOp (command : Command) (sizes : ItemSizes) (idx : ℕ) : Except PyError (List String) :=
  match command with
  | .set => (padToSize "key" idx sizes.keySize).map fun key => ["EXISTS", key]
  | .sadd => (padToSize "m" idx sizes.valueSize).map fun member => ["SISMEMBER", "myset", member]
  | .hset => (padToSize "f" idx sizes.fieldSize).map fun field => ["HEXISTS", "myhash", field]
  | .zadd => (padToSize "m" idx sizes.valueSize).map fun member => ["ZSCORE", "myzset", member]

/-- `_touch_ops`. -/
def touchOps (command : String) (count : ℤ) (sizes : ItemSizes) :
    Except PyError (List (List String)) :=
  (List.range count.toNat).mapM fun idx =>
    match Command.ofText command with
    | none => .error (.valueError s!"Unsupported command: {command}")
    | some command => touchOp command sizes idx

/-! ## Names are different -/

theorem indexText_natCast (n : ℕ) : indexText n = zeroPad 7 n := by
  rw [indexText, if_neg (Int.not_lt.mpr (Int.natCast_nonneg n)), Int.natAbs_natCast]

theorem zeroPad_value (width n : ℕ) : Nat.ofDigitChars 10 (zeroPad width n).toList 0 = n := by
  unfold zeroPad
  rw [String.toList_ofList, Nat.ofDigitChars_append, Nat.ofDigitChars_replicate_zero, Nat.mul_zero,
    Nat.ofDigitChars_ten_toDigits]

/-- A larger index is not written shorter. -/
theorem length_zeroPad_mono (width : ℕ) {m n : ℕ} (h : m ≤ n) :
    (zeroPad width m).length ≤ (zeroPad width n).length := by
  have hdigits : (Nat.toDigits 10 m).length ≤ (Nat.toDigits 10 n).length := by
    rw [Nat.length_toDigits_le_iff (by omega) Nat.length_toDigits_pos]
    exact h.trans_lt ((Nat.length_toDigits_le_iff (by omega) Nat.length_toDigits_pos).mp (le_refl _))
  unfold zeroPad
  simp only [String.length_ofList, List.length_append, List.length_replicate]
  omega

theorem length_baseName (pre : String) (n : ℕ) :
    (baseName pre n).length = pre.length + (zeroPad 7 n).length + 2 := by
  rw [baseName, indexText_natCast]
  simp only [String.length_append]
  have hcolon : (":" : String).length = 1 := rfl
  omega

theorem length_baseName_mono (pre : String) {m n : ℕ} (h : m ≤ n) :
    (baseName pre m).length ≤ (baseName pre n).length := by
  rw [length_baseName, length_baseName]
  have hpad := length_zeroPad_mono 7 h
  omega

/-- The name of an item that fits. -/
def paddedName (pre : String) (size : ℤ) (index : ℕ) : String :=
  baseName pre index ++ String.ofList (List.replicate (size - (baseName pre index).length).toNat 'x')

theorem padToSize_ok {pre : String} {size : ℤ} {index : ℕ} {name : String} :
    padToSize pre index size = .ok name ↔
      (baseName pre index).length ≤ size ∧ name = paddedName pre size index := by
  unfold padToSize
  dsimp only
  split
  · next h => exact iff_of_false nofun fun hfits => absurd hfits.1 (not_le.mpr h)
  · next h =>
    rw [Except.ok.injEq, eq_comm]
    exact (and_iff_right (not_lt.mp h)).symm

theorem length_paddedName {pre : String} {size : ℤ} {index : ℕ}
    (h : (baseName pre index).length ≤ size) : ((paddedName pre size index).length : ℤ) = size := by
  unfold paddedName
  rw [String.length_append, String.length_ofList, List.length_replicate]
  omega

/-- **Different indices have different names.** -/
theorem paddedName_injective (pre : String) (size : ℤ) : Function.Injective (paddedName pre size) := by
  intro m n h
  have hlists := congrArg String.toList h
  unfold paddedName baseName at hlists
  simp only [indexText_natCast, String.toList_append, List.append_assoc] at hlists
  -- after the prefix the digits go on up to the second colon
  have hdigits := congrArg (List.takeWhile PyText.isDigit)
    (List.append_cancel_left (List.append_cancel_left hlists))
  rw [List.takeWhile_append_of_pos PyText.isDigit_zeroPad,
    List.takeWhile_append_of_pos PyText.isDigit_zeroPad] at hdigits
  have htail : ∀ rest : List Char, (":".toList ++ rest).takeWhile PyText.isDigit = [] := fun _ => rfl
  rw [htail, htail, List.append_nil, List.append_nil] at hdigits
  rw [← zeroPad_value 7 m, hdigits, zeroPad_value]

/-! ## The operations of an item -/

/-- The name of an item of a command. -/
def itemName (command : Command) (sizes : ItemSizes) (idx : ℕ) : String :=
  paddedName command.itemPrefix (command.itemSize sizes) idx

/-- An index can be written in the size. -/
def Fits (command : Command) (sizes : ItemSizes) (idx : ℕ) : Prop :=
  (baseName command.itemPrefix idx).length ≤ command.itemSize sizes

section Ops

variable {rng : Rng} {command : Command} {sizes : ItemSizes} {mode : PopulateMode}

theorem Fits.mono {i j : ℕ} (h : Fits command sizes j) (hle : i ≤ j) : Fits command sizes i :=
  (Int.ofNat_le.mpr (length_baseName_mono _ hle)).trans h

theorem length_itemName {idx : ℕ} (h : Fits command sizes idx) :
    ((itemName command sizes idx).length : ℤ) = command.itemSize sizes :=
  length_paddedName h

theorem itemName_injective : Function.Injective (itemName command sizes) :=
  paddedName_injective _ _

variable (rng command sizes mode) in
/-- Every command names its items alike, to add and to delete them. -/
theorem addOp_eq (idx : ℕ) : ∃ payload, addOp rng command sizes mode idx =
    (padToSize command.itemPrefix idx (command.itemSize sizes)).map (.add · payload) := by
  cases command
  · exact ⟨_, rfl⟩
  · exact ⟨_, rfl⟩
  · exact ⟨_, rfl⟩
  · exact ⟨_, rfl⟩

theorem addOp_ok {idx : ℕ} {op : Op} (h : addOp rng command sizes mode idx = .ok op) :
    Fits command sizes idx ∧ ∃ payload, op = .add (itemName command sizes idx) payload := by
  obtain ⟨payload, hop⟩ := addOp_eq rng command sizes mode idx
  rw [hop] at h
  obtain ⟨name, hname, rfl⟩ := except_map_ok.mp h
  obtain ⟨hfits, rfl⟩ := padToSize_ok.mp hname
  exact ⟨hfits, payload, rfl⟩

theorem delOp_ok {idx : ℕ} {op : Op} (h : delOp command sizes idx = .ok op) :
    Fits command sizes idx ∧ op = .del (itemName command sizes idx) := by
  obtain ⟨name, hname, rfl⟩ := except_map_ok.mp h
  obtain ⟨hfits, rfl⟩ := padToSize_ok.mp hname
  exact ⟨hfits, rfl⟩

theorem Fits.addOp {idx : ℕ} (h : Fits command sizes idx) (rng : Rng) (mode : PopulateMode) :
    ∃ op, Sweep.addOp rng command sizes mode idx = .ok op := by
  obtain ⟨payload, hop⟩ := addOp_eq rng command sizes mode idx
  exact ⟨_, hop ▸ except_map_ok.mpr ⟨_, padToSize_ok.mpr ⟨h, rfl⟩, rfl⟩⟩

theorem Fits.delOp {idx : ℕ} (h : Fits command sizes idx) :
    ∃ op, Sweep.delOp command sizes idx = .ok op :=
  ⟨_, except_map_ok.mpr ⟨_, padToSize_ok.mpr ⟨h, rfl⟩, rfl⟩⟩

/-! ## The script is valid -/

/-- After an addition the items that are left are below the next new one. -/
theorem below_append {live : List ℕ} {nextIdx : ℕ} (h : ∀ i ∈ live, i < nextIdx) :
    ∀ i ∈ live ++ [nextIdx], i < nextIdx + 1 := by
  intro i hi
  rcases List.mem_append.mp hi with hi | hi
  · exact (h i hi).trans (Nat.lt_succ_self _)
  · rw [List.mem_singleton.mp hi]
    exact Nat.lt_succ_self _

/-- The fill adds the items of its order. -/
theorem edits_fill {order : List ℕ} {fill : List Op}
    (h : order.mapM (addOp rng command sizes mode) = .ok fill) :
    fill.map Op.edit = (order.map (itemName command sizes)).map .add ∧
      ∀ op ∈ fill, op.isAdd = true ∧ (op.name.length : ℤ) = command.itemSize sizes := by
  induction order generalizing fill with
  | nil =>
    cases h
    exact ⟨rfl, nofun⟩
  | cons idx order ih =>
    rw [List.mapM_cons] at h
    obtain ⟨op, hop, h⟩ := except_bind_ok.mp h
    obtain ⟨ops, hops, h⟩ := except_bind_ok.mp h
    cases h
    obtain ⟨hfits, payload, rfl⟩ := addOp_ok hop
    obtain ⟨hedits, hall⟩ := ih hops
    refine ⟨?_, List.forall_mem_cons.mpr ⟨⟨rfl, length_itemName hfits⟩, hall⟩⟩
    rw [List.map_cons, hedits]
    rfl

/-- Names of the indices that were added, and of those that are there. -/
theorem image_range_succ (n : ℕ) :
    (Finset.range (n + 1)).image (itemName command sizes) =
      insert (itemName command sizes n) ((Finset.range n).image (itemName command sizes)) := by
  rw [Finset.range_add_one, Finset.image_insert]

/-- **The churn rounds** keep the list of what is there: each adds an index that is
new, or deletes one of the list. -/
theorem edits_churnRounds {rounds round nextIdx : ℕ} {live : List ℕ} {ops : List Op}
    (hnodup : live.Nodup) (hlive : ∀ i ∈ live, i < nextIdx)
    (h : churnRounds rng command sizes rounds round live nextIdx = .ok ops) :
    Edit.ValidFrom ((Finset.range nextIdx).image (itemName command sizes))
        (live.toFinset.image (itemName command sizes)) (ops.map Op.edit) ∧
      ∀ op ∈ ops, (op.name.length : ℤ) = command.itemSize sizes := by
  -- on the rounds: `live` has each index once, and only those below `nextIdx`
  induction rounds generalizing round live nextIdx ops with
  | zero =>
    cases h
    exact ⟨trivial, nofun⟩
  | succ rounds ih =>
    rw [churnRounds] at h
    split at h
    · obtain ⟨op, hop, h⟩ := except_bind_ok.mp h
      obtain ⟨rest, hrest, h⟩ := except_bind_ok.mp h
      cases h
      obtain ⟨hfits, rfl⟩ := delOp_ok hop
      generalize rng.randrange _ _ _ = pos at hrest hfits ⊢
      have hperm := swapRemove_perm live pos
      obtain ⟨hgone, hkept⟩ := List.nodup_cons.mp (hperm.nodup_iff.mpr hnodup)
      obtain ⟨hvalid, hsized⟩ := ih hkept
        (fun i hi => hlive i (hperm.mem_iff.mp (List.mem_cons_of_mem _ hi))) hrest
      refine ⟨⟨Finset.mem_image_of_mem _ (List.mem_toFinset.mpr (live.get_mem pos)), ?_⟩,
        List.forall_mem_cons.mpr ⟨length_itemName hfits, hsized⟩⟩
      -- the swap moves another index into the place, and keeps all but the deleted one
      have hthere : live.toFinset.erase (live.get pos) = (swapRemove live pos).toFinset := by
        rw [← List.toFinset_eq_of_perm _ _ hperm, List.toFinset_cons,
          Finset.erase_insert (fun hmem => hgone (List.mem_toFinset.mp hmem))]
      rw [← Finset.image_erase itemName_injective, hthere]
      exact hvalid
    · obtain ⟨op, hop, h⟩ := except_bind_ok.mp h
      obtain ⟨rest, hrest, h⟩ := except_bind_ok.mp h
      cases h
      obtain ⟨hfits, payload, rfl⟩ := addOp_ok hop
      -- `nextIdx` has never been given out
      have hnew : nextIdx ∉ live := fun hmem => lt_irrefl _ (hlive nextIdx hmem)
      have hdistinct : (live ++ [nextIdx]).Nodup := by
        refine List.nodup_append.mpr ⟨hnodup, List.nodup_singleton _, ?_⟩
        rintro i hi _ hj rfl
        exact hnew (List.mem_singleton.mp hj ▸ hi)
      obtain ⟨hvalid, hsized⟩ := ih hdistinct (below_append hlive) hrest
      refine ⟨⟨?_, ?_⟩, List.forall_mem_cons.mpr ⟨length_itemName hfits, hsized⟩⟩
      · rw [itemName_injective.mem_finset_image, Finset.mem_range]
        exact lt_irrefl _
      · rw [image_range_succ, List.toFinset_append, Finset.image_union, List.toFinset_cons,
          List.toFinset_nil, insert_empty_eq, Finset.image_singleton, Finset.union_comm,
          ← Finset.insert_eq] at hvalid
        exact hvalid

theorem fill_perm {count : ℤ} :
    (if mode ≠ .sequential then rng.shuffle (List.range count.toNat)
      else List.range count.toNat).Perm (List.range count.toNat) := by
  split
  · exact rng.shuffle_perm _
  · exact .refl _

end Ops

/-- A script for the items of a workload: its edits are valid, its names have the
size, and the fill comes first. -/
structure PopulateScript (command : Command) (count : ℤ) (sizes : ItemSizes) (mode : String)
    (ops : List Op) : Prop where
  valid    : Edit.Valid (ops.map Op.edit)
  sized    : ∀ op ∈ ops, (op.name.length : ℤ) = command.itemSize sizes
  fill     : (ops.take count.toNat).length = count.toNat ∧
    ∀ op ∈ ops.take count.toNat, op.isAdd = true
  fillOnly : mode ≠ "churn" → ops.length = count.toNat
  present  : ∀ name, name ∈ Edit.contents ∅ (ops.map Op.edit) ↔
    Edit.add name ∈ ops.map Op.edit ∧ Edit.del name ∉ ops.map Op.edit

/-- **What `_operations` yields**, if it does not raise, is a script for the items
of the workload. -/
theorem operations_script {rng : Rng} {command : String} {count : ℤ} {sizes : ItemSizes}
    {mode : String} {ops : List Op} (h : operations rng command count sizes mode = .ok ops) :
    ∃ c, Command.ofText command = some c ∧ PopulateScript c count sizes mode ops := by
  unfold operations at h
  split at h
  · cases h
  · next m hm =>
    split at h
    · cases h
    · next c hc =>
      refine ⟨c, hc, ?_⟩
      dsimp only at h
      have hperm := @fill_perm rng m count
      generalize (if m ≠ .sequential then rng.shuffle (List.range count.toNat)
        else List.range count.toNat) = order at h hperm
      obtain ⟨fill, hfill, h⟩ := except_bind_ok.mp h
      obtain ⟨hedits, hall⟩ := edits_fill hfill
      have hlength : fill.length = count.toNat := by
        have hmap := congrArg List.length hedits
        rw [List.length_map, List.length_map, List.length_map, hperm.length_eq,
          List.length_range] at hmap
        exact hmap
      -- the items of the fill are those below the count
      have hitems : (order.map (itemName c sizes)).toFinset =
          (Finset.range count.toNat).image (itemName c sizes) := by
        ext name
        simp only [List.mem_toFinset, List.mem_map, hperm.mem_iff, List.mem_range, Finset.mem_image,
          Finset.mem_range]
      have hvalid : Edit.Valid (fill.map Op.edit) := by
        rw [hedits]
        exact Edit.validFrom_adds
          ((hperm.nodup_iff.mpr List.nodup_range).map itemName_injective) fun _ _ => Finset.notMem_empty _
      by_cases hmode : m ≠ .churn
      · rw [if_pos hmode] at h
        cases h
        exact ⟨hvalid, fun op hop => (hall op hop).2, by
          rw [← hlength, List.take_length]
          exact ⟨rfl, fun op hop => (hall op hop).1⟩, fun _ => hlength, fun name => by
          rw [Edit.mem_contents hvalid (le_refl _)]
          simp⟩
      · rw [if_neg hmode] at h
        obtain ⟨churn, hchurn, h⟩ := except_bind_ok.mp h
        cases h
        obtain ⟨hrounds, hsized⟩ := edits_churnRounds List.nodup_range
          (fun i hi => List.mem_range.mp hi) hchurn
        have hscript : Edit.Valid ((fill ++ churn).map Op.edit) := by
          rw [List.map_append]
          refine Edit.validFrom_append.mpr ⟨hvalid, ?_⟩
          rw [hedits, Edit.addedBy_adds, Edit.contents_adds, Finset.empty_union, hitems]
          rw [List.toFinset_range] at hrounds
          exact hrounds
        refine ⟨hscript, fun op hop => ?_, ?_, fun hother => ?_, fun name => ?_⟩
        · rcases List.mem_append.mp hop with hop | hop
          · exact (hall op hop).2
          · exact hsized op hop
        · rw [← hlength, List.take_left]
          exact ⟨rfl, fun op hop => (hall op hop).1⟩
        · rw [← PopulateMode.ofText_some hm, not_not.mp hmode] at hother
          exact absurd rfl hother
        · rw [Edit.mem_contents hscript (le_refl _)]
          simp

/-- A generator that keeps the order, and deletes in the second round. -/
def secondDeletes : Rng where
  shuffle order      := order
  shuffle_perm order := .refl order
  score _            := 0
  coin round         := decide (round = 1)
  randrange _ _ h    := ⟨0, h⟩

/-- Two members, one more and one less. -/
theorem script_of_two : ∃ c, Command.ofText "sadd" = some c ∧
    PopulateScript c 2 ⟨0, 10, 0⟩ "churn"
      [.add "m:0000000:" .nothing, .add "m:0000001:" .nothing, .add "m:0000002:" .nothing,
        .del "m:0000000:"] :=
  @operations_script secondDeletes _ _ _ _ _ (by decide)

/-! ## When a size is enough -/

section Enough

variable {command : Command} {sizes : ItemSizes} {mode : PopulateMode}

/-- The rounds that add, of those from one on: a round with nothing to delete does,
and one whose coin says so. -/
def walkAdds (rng : Rng) : (rounds : ℕ) → (round : ℕ) → (live : ℕ) → ℕ
  | 0, _, _ => 0
  | rounds + 1, round, live =>
    if live ≠ 0 ∧ rng.coin round then walkAdds rng rounds (round + 1) (live - 1)
    else walkAdds rng rounds (round + 1) (live + 1) + 1

/-- **The rounds run to the end** if and only if the indices they add fit. -/
theorem churnRounds_ok_iff {rng : Rng} {rounds round nextIdx : ℕ} {live : List ℕ}
    (hlive : ∀ i ∈ live, i < nextIdx) (hbelow : ∀ i < nextIdx, Fits command sizes i) :
    (∃ ops, churnRounds rng command sizes rounds round live nextIdx = .ok ops) ↔
      ∀ i < nextIdx + walkAdds rng rounds round live.length, Fits command sizes i := by
  induction rounds generalizing round live nextIdx with
  | zero => exact iff_of_true ⟨[], rfl⟩ hbelow
  | succ rounds ih =>
    rw [churnRounds, walkAdds]
    by_cases hdel : live ≠ [] ∧ rng.coin round
    · rw [dif_pos hdel, if_pos ⟨fun hnil => hdel.1 (List.length_eq_zero_iff.mp hnil), hdel.2⟩]
      generalize rng.randrange _ _ _ = pos
      have hperm := swapRemove_perm live pos
      have hkept : ∀ i ∈ swapRemove live pos, i < nextIdx := fun i hi =>
        hlive i (hperm.mem_iff.mp (List.mem_cons_of_mem _ hi))
      have hlength : (swapRemove live pos).length = live.length - 1 := by
        have hcons := hperm.length_eq
        rw [List.length_cons] at hcons
        omega
      have hrest := @ih (round + 1) _ _ hkept hbelow
      rw [hlength] at hrest
      rw [← hrest]
      -- what is deleted was added, so that its name fits
      obtain ⟨op, hop⟩ := (hbelow _ (hlive _ (live.get_mem pos))).delOp
      constructor
      · rintro ⟨ops, h⟩
        obtain ⟨_, -, h⟩ := except_bind_ok.mp h
        obtain ⟨rest, hops, -⟩ := except_bind_ok.mp h
        exact ⟨rest, hops⟩
      · rintro ⟨rest, hops⟩
        exact ⟨_, except_bind_ok.mpr ⟨op, hop, except_bind_ok.mpr ⟨rest, hops, rfl⟩⟩⟩
    · rw [dif_neg hdel, if_neg fun h => hdel ⟨fun hnil => h.1 (by rw [hnil]; rfl), h.2⟩]
      have hextended (hfits : Fits command sizes nextIdx) : ∀ i < nextIdx + 1, Fits command sizes i := by
        intro i hi
        exact hfits.mono (by omega)
      have hrest (hfits : Fits command sizes nextIdx) :=
        @ih (round + 1) _ _ (below_append hlive) (hextended hfits)
      simp only [List.length_append, List.length_singleton] at hrest
      constructor
      · rintro ⟨ops, h⟩
        obtain ⟨op, hop, h⟩ := except_bind_ok.mp h
        obtain ⟨rest, hops, -⟩ := except_bind_ok.mp h
        intro i hi
        exact (hrest (addOp_ok hop).1).mp ⟨rest, hops⟩ i (by omega)
      · intro h
        have hfits := h nextIdx (by omega)
        obtain ⟨op, hop⟩ := hfits.addOp rng .churn
        obtain ⟨rest, hops⟩ := (hrest hfits).mpr fun i hi => h i (by omega)
        exact ⟨_, except_bind_ok.mpr ⟨op, hop, except_bind_ok.mpr ⟨rest, hops, rfl⟩⟩⟩

/-- A generator whose rounds all add. -/
def addsOnly : Rng where
  shuffle order      := order
  shuffle_perm order := .refl order
  score _            := 0
  coin _             := false
  randrange _ _ h    := ⟨0, h⟩

theorem walkAdds_addsOnly (rounds round live : ℕ) : walkAdds addsOnly rounds round live = rounds := by
  induction rounds generalizing round live with
  | zero => rfl
  | succ rounds ih => rw [walkAdds, if_neg (fun h => Bool.false_ne_true h.2), ih]

theorem mapM_fill_ok {rng : Rng} {count : ℕ} :
    (∃ fill, (if mode ≠ .sequential then rng.shuffle (List.range (count : ℤ).toNat)
        else List.range (count : ℤ).toNat).mapM (addOp rng command sizes mode) = .ok fill) ↔
      ∀ i < count, Fits command sizes i := by
  rw [except_mapM_ok]
  constructor
  · intro h i hi
    obtain ⟨op, hop⟩ := h i (fill_perm.mem_iff.mpr (by simpa using hi))
    exact (addOp_ok hop).1
  · intro h i hi
    have hlt : i < count := by simpa using fill_perm.mem_iff.mp hi
    exact (h i hlt).addOp rng mode

/-- The indices a run needs: churn adds to the items those of its walk. -/
def neededItems (rng : Rng) (mode : PopulateMode) (count : ℕ) : ℕ :=
  if mode = .churn then count + walkAdds rng count 0 count else count

/-- **What `_operations` yields runs to the end** if and only if the indices fit. -/
theorem operations_ok {rng : Rng} {count : ℕ} :
    (∃ ops, operations rng command.text count sizes mode.text = .ok ops) ↔
      ∀ i < neededItems rng mode count, Fits command sizes i := by
  have hfill := @mapM_fill_ok command sizes mode rng count
  simp only [operations, PopulateMode.ofText_text, Command.ofText_text]
  unfold neededItems
  by_cases hmode : mode = .churn
  · rw [if_pos hmode]
    have hrounds (hbelow : ∀ i < count, Fits command sizes i) :=
      @churnRounds_ok_iff command sizes rng count 0 count (List.range count)
        (fun i => List.mem_range.mp) hbelow
    simp only [List.length_range] at hrounds
    constructor
    · rintro ⟨ops, h⟩
      obtain ⟨fill, hops, h⟩ := except_bind_ok.mp h
      rw [if_neg (not_not.mpr hmode)] at h
      obtain ⟨churn, hchurn, -⟩ := except_bind_ok.mp h
      exact (hrounds (hfill.mp ⟨fill, hops⟩)).mp ⟨churn, hchurn⟩
    · intro h
      have hbelow : ∀ i < count, Fits command sizes i := fun i hi => h i (by omega)
      obtain ⟨fill, hops⟩ := hfill.mpr hbelow
      obtain ⟨churn, hchurn⟩ := (hrounds hbelow).mpr h
      refine ⟨fill ++ churn, except_bind_ok.mpr ⟨fill, hops, ?_⟩⟩
      rw [if_neg (not_not.mpr hmode)]
      exact except_bind_ok.mpr ⟨churn, hchurn, rfl⟩
  · rw [if_neg hmode, ← hfill]
    constructor
    · rintro ⟨ops, h⟩
      obtain ⟨fill, hops, -⟩ := except_bind_ok.mp h
      exact ⟨fill, hops⟩
    · rintro ⟨fill, hops⟩
      refine ⟨fill, except_bind_ok.mpr ⟨fill, hops, ?_⟩⟩
      rw [if_pos hmode]
      rfl

theorem touchOps_of_fits {count : ℕ} (h : ∀ i < count, Fits command sizes i) :
    ∃ reads, touchOps command.text count sizes = .ok reads := by
  refine except_mapM_ok.mpr fun i hi => ?_
  have hfits := h i (by simpa using hi)
  rw [Command.ofText_text]
  cases command
  all_goals exact ⟨_, except_map_ok.mpr ⟨_, padToSize_ok.mpr ⟨hfits, rfl⟩, rfl⟩⟩

/-- Enough for the last index is enough for all. -/
theorem fits_below_iff {n : ℕ} (h : 0 < n) :
    (∀ i < n, Fits command sizes i) ↔
      (minimumItemSize command.itemPrefix n : ℤ) ≤ command.itemSize sizes := by
  have hlast : ((n : ℤ) - 1) = ((n - 1 : ℕ) : ℤ) := by omega
  rw [minimumItemSize, hlast]
  constructor
  · intro hall
    exact hall (n - 1) (by omega)
  · intro hfits i hi
    exact Fits.mono hfits (by omega)

/-- **When a size that is enough for the items is enough to fill the server**:
always without churn; churn needs a size that is enough for the indices its walk
adds too. -/
theorem operations_ok_iff {rng : Rng} {count : ℤ} (hcount : 1 ≤ count)
    (hsize : (minimumItemSize command.itemPrefix count : ℤ) ≤ command.itemSize sizes) :
    ((∃ ops, operations rng command.text count sizes mode.text = .ok ops) ∧
        ∃ reads, touchOps command.text count sizes = .ok reads) ↔
      (mode = .churn →
        (minimumItemSize command.itemPrefix (count + walkAdds rng count.toNat 0 count.toNat) : ℤ) ≤
          command.itemSize sizes) := by
  obtain ⟨n, rfl⟩ := Int.eq_ofNat_of_zero_le (by omega : 0 ≤ count)
  have hbelow := (fits_below_iff (by omega)).mpr hsize
  rw [and_iff_left (touchOps_of_fits hbelow), operations_ok, neededItems]
  by_cases hmode : mode = .churn
  · rw [if_pos hmode, fits_below_iff (by omega), Int.toNat_natCast]
    push_cast
    exact ⟨fun h _ => h, fun h => h hmode⟩
  · rw [if_neg hmode]
    exact iff_of_true hbelow fun h => absurd h hmode

/-- Ten bytes are enough for two members, and for the two of their churn. -/
theorem ten_bytes_enough :
    (∃ ops, operations addsOnly "sadd" 2 ⟨0, 10, 0⟩ "churn" = .ok ops) ∧
      ∃ reads, touchOps "sadd" 2 ⟨0, 10, 0⟩ = .ok reads :=
  (@operations_ok_iff .sadd ⟨0, 10, 0⟩ .churn addsOnly 2 (by decide) (by decide)).mpr fun _ => by
    decide

/-- Ten bytes are enough for ten million members, and not for a churn of them that
adds one. -/
theorem churn_outgrows_minimum :
    (minimumItemSize "m" 10000000 : ℤ) ≤ 10 ∧ 0 < walkAdds addsOnly 10000000 0 10000000 ∧
      ∀ rng, 0 < walkAdds rng 10000000 0 10000000 →
        ¬ ∃ ops, operations rng "sadd" 10000000 ⟨0, 10, 0⟩ "churn" = .ok ops := by
  refine ⟨by decide, by rw [walkAdds_addsOnly]; decide, fun rng hadds hops => ?_⟩
  have hneeded : 10000000 < neededItems rng .churn 10000000 := by
    rw [neededItems, if_pos rfl]
    omega
  have hfits : Fits .sadd ⟨0, 10, 0⟩ 10000000 :=
    (@operations_ok .sadd _ .churn rng 10000000).mp hops 10000000 hneeded
  revert hfits
  unfold Fits
  decide

end Enough

end Conductress.Sweep
