import Mathlib.Logic.Function.Basic
import Conductress.Lib.Prog

/-!
# A database file under DDL scripts

Tables with their constraints, the statements a migration is written in, and a
connection with SQLite's transactions: outside a transaction every statement
is durable by itself, inside one nothing is until the commit, and
`executescript` commits what is open and runs its statements one by one.

* `Statement.execute` — a statement on a catalogue; a statement that raises
  changes nothing;
* `Extends` — what `IF NOT EXISTS` statements can do to a catalogue: every
  table keeps its columns and rows, a new table is empty;
* `Ready` — a script of such statements all of which succeed;
* `forM_throughout`, `executescript_throughout` — stopped anywhere, a ready script leaves an
  extension.
-/

namespace Conductress.Lib

/-! ## Tables -/

inductive SqlValue where
  | null
  | integer (n : Int)
  | real (digits : String)
  | text (s : String)
  deriving DecidableEq

/-- The value of every column; a column the table does not have reads NULL. -/
abbrev SqlRow := String → SqlValue

structure SqlColumn where
  name    : String
  notNull : Bool
  /-- `CHECK (name IN (...))`. -/
  check   : Option (List SqlValue)

/-- A PRIMARY KEY, a UNIQUE constraint or a unique index; `only` is the
`WHERE column = value` of a partial one. -/
structure SqlKey where
  columns : List String
  only    : Option (String × SqlValue)

structure SqlTable where
  columns : List SqlColumn
  keys    : List SqlKey
  rows    : List SqlRow

/-- NULL passes a CHECK. -/
def SqlColumn.admits (c : SqlColumn) (v : SqlValue) : Bool :=
  if v = .null then !c.notNull else c.check.all fun vs => vs.contains v

/-- Whatever the first column takes, the second one does. -/
def SqlColumn.widens (c c' : SqlColumn) : Bool :=
  (c.notNull || !c'.notNull) &&
    c'.check.all fun vs' => c.check.any fun vs => vs.all fun v => vs'.contains v

theorem SqlColumn.admits_of_widens {c c' : SqlColumn} {v : SqlValue} (h : c.widens c' = true)
    (hv : c.admits v = true) : c'.admits v = true := by
  simp only [widens, Bool.and_eq_true, Bool.or_eq_true, Bool.not_eq_true'] at h
  obtain ⟨hnull, hcheck⟩ := h
  unfold admits at *
  by_cases hnone : v = .null
  · rw [if_pos hnone] at hv ⊢
    rcases hnull with hnotNull | hnullable
    · simp [hnotNull] at hv
    · simp [hnullable]
  · rw [if_neg hnone] at hv ⊢
    cases hvs' : c'.check with
    | none => rfl
    | some vs' =>
      rw [hvs', Option.all_some, Option.any_eq_true] at hcheck
      obtain ⟨vs, hvs, hall⟩ := hcheck
      rw [hvs, Option.all_some] at hv
      exact List.all_eq_true.mp hall v (List.contains_iff_mem.mp hv)

/-- The row is under the key. -/
def SqlKey.covers (k : SqlKey) (r : SqlRow) : Bool :=
  k.only.all (fun p => r p.1 == p.2) && k.columns.all fun c => r c != .null

/-- Two rows the key forbids together; NULLs are distinct. -/
def SqlKey.clash (k : SqlKey) (r r' : SqlRow) : Bool :=
  k.covers r && k.covers r' && k.columns.all fun c => r c == r' c

theorem SqlKey.clash_comm (k : SqlKey) (r r' : SqlRow) : k.clash r r' = k.clash r' r := by
  have hcolumns : (k.columns.all fun c => r c == r' c) = k.columns.all fun c => r' c == r c :=
    congrArg _ (funext fun c => BEq.comm)
  unfold SqlKey.clash
  rw [hcolumns, Bool.and_comm (k.covers r)]

namespace SqlTable

def names (t : SqlTable) : List String := t.columns.map (·.name)

def admits (t : SqlTable) (r : SqlRow) : Bool :=
  t.columns.all (fun c => c.admits (r c.name)) &&
    t.keys.all fun k => t.rows.all fun r' => !k.clash r r'

/-- The rows a table may hold. -/
structure Valid (t : SqlTable) : Prop where
  checked   : ∀ r ∈ t.rows, ∀ c ∈ t.columns, c.admits (r c.name) = true
  keyed     : ∀ k ∈ t.keys, t.rows.Pairwise fun r r' => k.clash r r' = false
  supported : ∀ r ∈ t.rows, ∀ name ∉ t.names, r name = .null

end SqlTable

inductive SqlError where
  | tableExists | noSuchTable | noSuchColumn | constraint | withinTransaction
  /-- Raised by the program itself. -/
  | runtime (message : String)
  deriving DecidableEq

namespace SqlTable

def insert (t : SqlTable) (r : SqlRow) : Except SqlError SqlTable :=
  if t.admits r then .ok { t with rows := t.rows ++ [r] } else .error .constraint

/-- Inserting rows one after another into a table that has none of them. -/
theorem foldlM_insert_ok {rs : List SqlRow} (t : SqlTable)
    (hchecked : ∀ r ∈ rs, ∀ c ∈ t.columns, c.admits (r c.name) = true)
    (hkeyed : ∀ k ∈ t.keys, (t.rows ++ rs).Pairwise fun r r' => k.clash r r' = false) :
    rs.foldlM insert t = .ok { t with rows := t.rows ++ rs } := by
  induction rs generalizing t with
  | nil => simp [pure, Except.pure]
  | cons r rs ih =>
    have hadmits : t.admits r = true := by
      simp only [admits, Bool.and_eq_true, List.all_eq_true, Bool.not_eq_true']
      refine ⟨hchecked r List.mem_cons_self, fun k hk r' hr' => ?_⟩
      rw [SqlKey.clash_comm]
      exact (List.pairwise_append.mp (hkeyed k hk)).2.2 r' hr' r List.mem_cons_self
    have hrest := ih { t with rows := t.rows ++ [r] }
      (fun r' hr' => hchecked r' (List.mem_cons_of_mem _ hr'))
      (by simpa [List.append_assoc] using hkeyed)
    simp only [List.foldlM_cons, insert, hadmits, if_true, bind, Except.bind]
    simpa [List.append_assoc] using hrest

end SqlTable

/-! ## Catalogues and statements -/

/-- The tables, and for every index the table it is on. -/
structure Catalogue (T I : Type) where
  tables  : T → Option SqlTable
  indexes : I → Option T

/-- A column of an `INSERT ... SELECT`: its name in the target, and the source
column it takes (`none` for NULL). -/
structure Copied where
  target : String
  source : Option String

inductive Statement (T I : Type) where
  | createTable (ifNotExists : Bool) (name : T) (columns : List SqlColumn) (keys : List SqlKey)
  | createIndex (name : I) (table : T) (columns : List String)
  | createUniqueIndex (name : I) (table : T) (key : SqlKey)
  | insertValues (table : T) (values : List (String × SqlValue))
  | insertSelect (table : T) (columns : List Copied) (source : T)
  | dropTable (name : T)
  | renameTable (name newName : T)

/-- The row of the values given, NULL elsewhere. -/
def rowOf (values : List (String × SqlValue)) : SqlRow :=
  fun name => (values.lookup name).getD .null

/-- The row an `INSERT ... SELECT` makes of a source row. -/
def Copied.row (columns : List Copied) (r : SqlRow) : SqlRow := fun name =>
  match columns.find? (·.target == name) with
  | some ⟨_, some source⟩ => r source
  | _ => .null

variable {T I : Type}

namespace Catalogue

def table (c : Catalogue T I) (name : T) : Except SqlError SqlTable :=
  match c.tables name with
  | some t => .ok t
  | none => .error .noSuchTable

/-- The rows of a table; an absent one has none. -/
def rows (c : Catalogue T I) (name : T) : List SqlRow := ((c.tables name).map (·.rows)).getD []

def setTable [DecidableEq T] (c : Catalogue T I) (name : T) (t : Option SqlTable) : Catalogue T I :=
  { c with tables := Function.update c.tables name t }

def setIndex [DecidableEq I] (c : Catalogue T I) (name : I) (table : Option T) : Catalogue T I :=
  { c with indexes := Function.update c.indexes name table }

@[simp] theorem setTable_tables [DecidableEq T] (c : Catalogue T I) (name : T) (t : Option SqlTable) :
    (c.setTable name t).tables = Function.update c.tables name t := rfl

@[simp] theorem setIndex_tables [DecidableEq I] (c : Catalogue T I) (name : I) (table : Option T) :
    (c.setIndex name table).tables = c.tables := rfl

/-- The table goes, and its indexes with it. -/
def drop [DecidableEq T] (c : Catalogue T I) (name : T) : Catalogue T I where
  tables := Function.update c.tables name none
  indexes i := if c.indexes i = some name then none else c.indexes i

/-- The table takes another name, and its indexes follow it. -/
def rename [DecidableEq T] (c : Catalogue T I) (name newName : T) (t : SqlTable) : Catalogue T I where
  tables := Function.update (Function.update c.tables name none) newName (some t)
  indexes i := if c.indexes i = some name then some newName else c.indexes i

@[simp] theorem drop_tables [DecidableEq T] (c : Catalogue T I) (name : T) :
    (c.drop name).tables = Function.update c.tables name none := rfl

@[simp] theorem rename_tables [DecidableEq T] (c : Catalogue T I) (name newName : T) (t : SqlTable) :
    (c.rename name newName t).tables =
      Function.update (Function.update c.tables name none) newName (some t) := rfl

/-- `IF NOT EXISTS` is looked up before the columns are. -/
def execute [DecidableEq T] [DecidableEq I] (c : Catalogue T I) : Statement T I → Except SqlError (Catalogue T I)
  | .createTable ifNotExists name columns keys =>
    match c.tables name with
    | some _ => if ifNotExists then .ok c else .error .tableExists
    | none => .ok (c.setTable name (some ⟨columns, keys, []⟩))
  | .createIndex name table columns => do
    let t ← c.table table
    if (c.indexes name).isSome then return c
    if columns ⊆ t.names then return c.setIndex name (some table)
    .error .noSuchColumn
  | .createUniqueIndex name table key => do
    let t ← c.table table
    if (c.indexes name).isSome then return c
    if ¬ key.columns ⊆ t.names then .error .noSuchColumn
    if t.rows.Pairwise fun r r' => key.clash r r' = false then
      return (c.setTable table (some { t with keys := t.keys ++ [key] })).setIndex name (some table)
    .error .constraint
  | .insertValues table values => do
    let t ← c.table table
    if ¬ values.map (·.1) ⊆ t.names then .error .noSuchColumn
    return c.setTable table (some (← t.insert (rowOf values)))
  | .insertSelect table columns source => do
    let t ← c.table table
    let s ← c.table source
    if ¬ columns.map (·.target) ⊆ t.names then .error .noSuchColumn
    if ¬ columns.filterMap (·.source) ⊆ s.names then .error .noSuchColumn
    return c.setTable table (some (← (s.rows.map (Copied.row columns)).foldlM SqlTable.insert t))
  | .dropTable name => do
    let _ ← c.table name
    return c.drop name
  | .renameTable name newName => do
    let t ← c.table name
    if (c.tables newName).isSome then .error .tableExists
    return c.rename name newName t

section Executes

variable [DecidableEq T] [DecidableEq I] {c : Catalogue T I} {name : T} {t t' : SqlTable}

theorem createTable_ok {ifNotExists : Bool} {columns : List SqlColumn} {keys : List SqlKey}
    (hnone : c.tables name = none) :
    c.execute (.createTable ifNotExists name columns keys) =
      .ok (c.setTable name (some ⟨columns, keys, []⟩)) := by
  simp only [execute, hnone]

theorem createTable_error {columns : List SqlColumn} {keys : List SqlKey} (ht : c.tables name = some t) :
    c.execute (.createTable false name columns keys) = .error .tableExists := by
  simp [execute, ht]

theorem insertValues_ok {values : List (String × SqlValue)} (ht : c.tables name = some t)
    (hnames : values.map (·.1) ⊆ t.names) (hinsert : t.insert (rowOf values) = .ok t') :
    c.execute (.insertValues name values) = .ok (c.setTable name (some t')) := by
  simp [execute, table, ht, hnames, hinsert, bind, Except.bind, pure, Except.pure]

theorem insertSelect_ok {columns : List Copied} {source : T} {s : SqlTable} (ht : c.tables name = some t)
    (hs : c.tables source = some s) (htargets : columns.map (·.target) ⊆ t.names)
    (hsources : columns.filterMap (·.source) ⊆ s.names)
    (hinsert : (s.rows.map (Copied.row columns)).foldlM SqlTable.insert t = .ok t') :
    c.execute (.insertSelect name columns source) = .ok (c.setTable name (some t')) := by
  simp [execute, table, ht, hs, htargets, hsources, hinsert, bind, Except.bind, pure, Except.pure]

theorem dropTable_ok (ht : c.tables name = some t) : c.execute (.dropTable name) = .ok (c.drop name) := by
  simp [execute, table, ht, bind, Except.bind, pure, Except.pure]

theorem renameTable_ok {newName : T} (ht : c.tables name = some t) (hnone : c.tables newName = none) :
    c.execute (.renameTable name newName) = .ok (c.rename name newName t) := by
  simp [execute, table, ht, hnone, bind, Except.bind, pure, Except.pure]

end Executes

end Catalogue

/-! ## What a script adds -/

namespace Statement

/-- The table a statement creates where it is missing. -/
def declares : Statement T I → List (T × List SqlColumn)
  | .createTable _ name columns _ => [(name, columns)]
  | _ => []

/-- The table a statement puts a unique index on. -/
def indexesUniquely : Statement T I → List T
  | .createUniqueIndex _ table _ => [table]
  | _ => []

end Statement

namespace Catalogue

/-- Every table keeps its columns and rows, and its keys but for new unique
indexes; a new table is one the script declares, and empty. -/
structure Extends (script : List (Statement T I)) (c c' : Catalogue T I) : Prop where
  kept  : ∀ name t, c.tables name = some t →
    ∃ t', c'.tables name = some t' ∧ t'.columns = t.columns ∧ t'.rows = t.rows ∧
      (name ∉ script.flatMap (·.indexesUniquely) → t'.keys = t.keys)
  fresh : ∀ name t', c'.tables name = some t' → c.tables name = none →
    (name, t'.columns) ∈ script.flatMap (·.declares) ∧ t'.rows = []

variable {script more : List (Statement T I)} {c c' c'' : Catalogue T I}

theorem Extends.refl (script : List (Statement T I)) (c : Catalogue T I) : c.Extends script c where
  kept _ t h := ⟨t, h, rfl, rfl, fun _ => rfl⟩
  fresh _ _ h hnone := by rw [hnone] at h; cases h

theorem Extends.trans (h : c.Extends script c') (h' : c'.Extends script c'') : c.Extends script c'' where
  kept name t ht := by
    obtain ⟨t', ht', hcolumns, hrows, hkeys⟩ := h.kept name t ht
    obtain ⟨t'', ht'', hcolumns', hrows', hkeys'⟩ := h'.kept name t' ht'
    exact ⟨t'', ht'', hcolumns'.trans hcolumns, hrows'.trans hrows,
      fun hname => (hkeys' hname).trans (hkeys hname)⟩
  fresh name t'' ht'' hnone := by
    cases hmid : c'.tables name with
    | none => exact h'.fresh name t'' ht'' hmid
    | some t' =>
      obtain ⟨u, hu, hcolumns, hrows, -⟩ := h'.kept name t' hmid
      obtain rfl : u = t'' := Option.some.inj (hu.symm.trans ht'')
      rw [hcolumns, hrows]
      exact h.fresh name t' hmid hnone

theorem Extends.mono (h : c.Extends script c') (hle : script ⊆ more) : c.Extends more c' where
  kept name t ht := by
    obtain ⟨t', ht', hcolumns, hrows, hkeys⟩ := h.kept name t ht
    refine ⟨t', ht', hcolumns, hrows, fun hname => hkeys fun hold => hname ?_⟩
    obtain ⟨s, hs, hindexed⟩ := List.mem_flatMap.mp hold
    exact List.mem_flatMap.mpr ⟨s, hle hs, hindexed⟩
  fresh name t' ht' hnone := by
    obtain ⟨hdeclared, hrows⟩ := h.fresh name t' ht' hnone
    obtain ⟨s, hs, hdeclares⟩ := List.mem_flatMap.mp hdeclared
    exact ⟨List.mem_flatMap.mpr ⟨s, hle hs, hdeclares⟩, hrows⟩

theorem Extends.rows (h : c.Extends script c') (name : T) : c'.rows name = c.rows name := by
  unfold Catalogue.rows
  cases hc : c.tables name with
  | some t =>
    obtain ⟨t', ht', -, hrows, -⟩ := h.kept name t hc
    simp [ht', hrows]
  | none =>
    cases hc' : c'.tables name with
    | none => rfl
    | some t' => simp [(h.fresh name t' hc' hc).2]

/-- A table that no script declares stays absent. -/
theorem Extends.absent (h : c.Extends script c') {name : T} (hnone : c.tables name = none)
    (hname : name ∉ (script.flatMap (·.declares)).map (·.1)) : c'.tables name = none := by
  cases hc' : c'.tables name with
  | none => rfl
  | some t' => exact absurd (List.mem_map_of_mem (h.fresh name t' hc' hnone).1) hname

/-- Every table has the columns scripts expect of it. -/
def Conforms (shape : T → List String) (c : Catalogue T I) : Prop :=
  ∀ name t, c.tables name = some t → shape name ⊆ t.names

/-- The tables are there. -/
def Known (c : Catalogue T I) (known : List T) : Prop := ∀ name ∈ known, ∃ t, c.tables name = some t

theorem Known.extends {known : List T} (h : c.Known known) (hext : c.Extends script c') :
    c'.Known known := by
  intro name hname
  obtain ⟨t, ht⟩ := h name hname
  obtain ⟨t', ht', -⟩ := hext.kept name t ht
  exact ⟨t', ht'⟩

theorem Conforms.extends {shape : T → List String} (h : c.Conforms shape) (hext : c.Extends script c')
    (hdeclared : ∀ k ∈ script.flatMap (·.declares), shape k.1 ⊆ k.2.map (·.name)) : c'.Conforms shape := by
  intro name t' ht'
  cases hc : c.tables name with
  | some t =>
    obtain ⟨u, hu, hcolumns, -⟩ := hext.kept name t hc
    obtain rfl : u = t' := Option.some.inj (hu.symm.trans ht')
    rw [SqlTable.names, hcolumns]
    exact h name t hc
  | none => exact hdeclared _ (hext.fresh name t' ht' hc).1

end Catalogue

namespace Statement

/-- An `IF NOT EXISTS` statement on the tables known so far. -/
def Repeatable (shape : T → List String) (known : List T) : Statement T I → Prop
  | .createTable ifNotExists name columns _ => ifNotExists = true ∧ shape name ⊆ columns.map (·.name)
  | .createIndex _ table columns => table ∈ known ∧ columns ⊆ shape table
  | .createUniqueIndex _ table key => table ∈ known ∧ key.columns ⊆ shape table
  | _ => False

theorem Repeatable.declares {shape : T → List String} {known : List T} {s : Statement T I}
    (h : s.Repeatable shape known) : ∀ k ∈ s.declares, shape k.1 ⊆ k.2.map (·.name) := by
  cases s with
  | createTable _ name columns keys =>
    intro k hk
    obtain rfl := List.mem_singleton.mp hk
    exact h.2
  | _ => simp [Statement.declares]

instance [DecidableEq T] (shape : T → List String) (known : List T) (s : Statement T I) :
    Decidable (s.Repeatable shape known) := by
  cases s <;> unfold Repeatable <;> infer_instance

/-- Only such statements, each index on a table created before it. -/
def Ready (shape : T → List String) : List T → List (Statement T I) → Prop
  | _, [] => True
  | known, s :: rest => s.Repeatable shape known ∧ Ready shape (known ++ s.declares.map (·.1)) rest

instance Ready.decidable [DecidableEq T] (shape : T → List String) :
    ∀ (known : List T) (script : List (Statement T I)), Decidable (Ready shape known script)
  | _, [] => isTrue trivial
  | known, s :: rest =>
    have := Ready.decidable shape (known ++ s.declares.map (·.1)) rest
    inferInstanceAs (Decidable (s.Repeatable shape known ∧ _))

end Statement

/-! ## Connections -/

/-- What the file holds, and inside a transaction what the connection sees. -/
structure Session (σ : Type) where
  durable : σ
  pending : Option σ

/-- A connection just opened; also what a rollback, or a death, leaves. -/
def Session.connected {σ : Type} (durable : σ) : Session σ := ⟨durable, none⟩

def Session.view {σ : Type} (s : Session σ) : σ := s.pending.getD s.durable

/-- What a program asks of its connection. -/
inductive SqlCall (T I : Type) : Type → Type
  | begin : SqlCall T I (Except SqlError Unit)
  | execute (s : Statement T I) : SqlCall T I (Except SqlError Unit)
  | select (table : T) : SqlCall T I (Except SqlError (List SqlRow))
  /-- A no-op outside a transaction. -/
  | commit : SqlCall T I (Except SqlError Unit)

variable [DecidableEq T] [DecidableEq I]

/-- SQLite's side: a statement outside a transaction is durable at once. -/
def SqlCall.exec {β : Type} : SqlCall T I β → Session (Catalogue T I) → β × Session (Catalogue T I)
  | .begin, s =>
    if s.pending.isSome then (.error .withinTransaction, s) else (.ok (), ⟨s.durable, some s.durable⟩)
  | .execute statement, s =>
    match s.view.execute statement with
    | .error e => (.error e, s)
    | .ok c => (.ok (), if s.pending.isSome then ⟨s.durable, some c⟩ else ⟨c, none⟩)
  | .select table, s => ((s.view.table table).map (·.rows), s)
  | .commit, s => (.ok (), .connected s.view)

/-- Nobody else writes to the file while it is migrated. -/
def sqlEffects : Effects (SqlCall T I) (Session (Catalogue T I)) Unit Empty where
  exec c _ s := c.exec s
  interfere e _ := nomatch e

namespace Sql
/-- One call, raising what it answers. -/
def perform {α : Type} (c : SqlCall T I (Except SqlError α)) : Prog (SqlCall T I) SqlError α :=
  Prog.run c >>= Prog.lift

/-- `connection.executescript`. -/
def executescript (script : List (Statement T I)) : Prog (SqlCall T I) SqlError Unit := do
  perform .commit
  script.forM fun s => perform (.execute s)

end Sql

/-! ## Scripts that can be rerun -/

namespace Catalogue

variable {c : Catalogue T I} {name table : T}

theorem createTable_extends (columns : List SqlColumn) (keys : List SqlKey) :
    ∃ c', c.execute (.createTable true name columns keys) = .ok c' ∧
      c.Extends [.createTable true name columns keys] c' ∧ c'.Known [name] := by
  cases hc : c.tables name with
  | some t =>
    refine ⟨c, by simp [execute, hc], .refl _ c, fun other hother => ?_⟩
    obtain rfl := List.mem_singleton.mp hother
    exact ⟨t, hc⟩
  | none =>
    refine ⟨c.setTable name (some ⟨columns, keys, []⟩), by simp only [execute, hc], ⟨fun other t ht => ?_,
      fun other t ht hnone => ?_⟩, fun other hother => ?_⟩
    · have hne : other ≠ name := by
        rintro rfl
        rw [hc] at ht
        cases ht
      exact ⟨t, by simpa [hne] using ht, rfl, rfl, fun _ => rfl⟩
    · by_cases hname : other = name
      · subst hname
        obtain rfl : ⟨columns, keys, []⟩ = t := by simpa using ht
        exact ⟨by simp [Statement.declares], rfl⟩
      · rw [setTable_tables, Function.update_of_ne hname, hnone] at ht
        cases ht
    · obtain rfl := List.mem_singleton.mp hother
      exact ⟨⟨columns, keys, []⟩, by simp⟩

theorem createIndex_extends {index : I} {names : List String} {t : SqlTable}
    (ht : c.tables table = some t) (hnames : names ⊆ t.names) :
    ∃ c', c.execute (.createIndex index table names) = .ok c' ∧
      c.Extends [.createIndex index table names] c' := by
  by_cases hindex : (c.indexes index).isSome = true
  · refine ⟨c, ?_, .refl _ c⟩
    simp [execute, Catalogue.table, ht, hindex, bind, Except.bind, pure, Except.pure]
  · refine ⟨c.setIndex index (some table), ?_, ⟨fun _ u hu => ⟨u, hu, rfl, rfl, fun _ => rfl⟩,
      fun _ u hu hnone => ?_⟩⟩
    · simp [execute, Catalogue.table, ht, hindex, hnames, bind, Except.bind, pure, Except.pure]
    · rw [setIndex_tables, hnone] at hu
      cases hu

theorem createUniqueIndex_extends {index : I} {key : SqlKey} {t : SqlTable}
    (ht : c.tables table = some t) (hnames : key.columns ⊆ t.names) (hempty : t.rows = []) :
    ∃ c', c.execute (.createUniqueIndex index table key) = .ok c' ∧
      c.Extends [.createUniqueIndex index table key] c' := by
  by_cases hindex : (c.indexes index).isSome = true
  · refine ⟨c, ?_, .refl _ c⟩
    simp [execute, Catalogue.table, ht, hindex, bind, Except.bind, pure, Except.pure]
  · refine ⟨(c.setTable table (some { t with keys := t.keys ++ [key] })).setIndex index (some table),
      ?_, ⟨fun other u hu => ?_, fun other u hu hnone => ?_⟩⟩
    · simp [execute, Catalogue.table, ht, hindex, hnames, hempty, bind, Except.bind, pure, Except.pure]
    · by_cases hother : other = table
      · subst hother
        obtain rfl : t = u := Option.some.inj (ht.symm.trans hu)
        refine ⟨{ t with keys := t.keys ++ [key] }, by simp, rfl, rfl, ?_⟩
        simp [Statement.indexesUniquely]
      · exact ⟨u, by simpa [hother] using hu, rfl, rfl, fun _ => rfl⟩
    · by_cases hother : other = table
      · subst hother
        rw [ht] at hnone
        cases hnone
      · rw [setIndex_tables, setTable_tables, Function.update_of_ne hother, hnone] at hu
        cases hu

/-- A repeatable statement does not raise, and extends the catalogue. -/
theorem repeatable_extends {shape : T → List String} {known : List T} {s : Statement T I}
    (hs : s.Repeatable shape known) (hconforms : c.Conforms shape) (hknown : c.Known known)
    (hempty : ∀ table ∈ s.indexesUniquely, c.rows table = []) :
    ∃ c', c.execute s = .ok c' ∧ c.Extends [s] c' ∧ c'.Known (s.declares.map (·.1)) := by
  cases s with
  | createTable ifNotExists name columns keys =>
    obtain ⟨rfl, -⟩ := hs
    exact createTable_extends columns keys
  | createIndex index table names =>
    obtain ⟨t, ht⟩ := hknown table hs.1
    obtain ⟨c', hok, hext⟩ : ∃ c', c.execute (.createIndex index table names) = .ok c' ∧
        c.Extends [.createIndex index table names] c' :=
      createIndex_extends ht (List.Subset.trans hs.2 (hconforms table t ht))
    exact ⟨c', hok, hext, by simp [Catalogue.Known, Statement.declares]⟩
  | createUniqueIndex index table key =>
    obtain ⟨t, ht⟩ := hknown table hs.1
    have hrows : t.rows = [] := by
      have := hempty table (by simp [Statement.indexesUniquely])
      simpa [Catalogue.rows, ht] using this
    obtain ⟨c', hok, hext⟩ : ∃ c', c.execute (.createUniqueIndex index table key) = .ok c' ∧
        c.Extends [.createUniqueIndex index table key] c' :=
      createUniqueIndex_extends ht (List.Subset.trans hs.2 (hconforms table t ht)) hrows
    exact ⟨c', hok, hext, by simp [Catalogue.Known, Statement.declares]⟩
  | _ => cases hs

end Catalogue

namespace Sql

variable {J : ℕ → Session (Catalogue T I) → Prop}
  {Q : Except SqlError Unit → ℕ → Session (Catalogue T I) → Prop}
  {n : ℕ} {c c' : Catalogue T I}

/-- A call that answers. -/
theorem perform_throughout {α : Type} {R : Except SqlError α → ℕ → Session (Catalogue T I) → Prop}
    {call : SqlCall T I (Except SqlError α)} {s s' : Session (Catalogue T I)} {a : α}
    (hexec : call.exec s = (.ok a, s')) (hJ : J n s) (hR : R (.ok a) (n + 1) s') :
    (perform call).Throughout sqlEffects () J R n s := by
  refine ⟨hJ, ?_⟩
  simp only [sqlEffects, hexec]
  exact hR

/-- A statement outside a transaction that does not raise. -/
theorem execute_throughout {statement : Statement T I} (hok : c.execute statement = .ok c')
    (hJ : J n (.connected c)) (hQ : Q (.ok ()) (n + 1) (.connected c')) :
    (perform (.execute statement)).Throughout sqlEffects () J Q n (.connected c) := by
  have hexec : (SqlCall.execute statement).exec (.connected c) = (.ok (), .connected c') := by
    simp [SqlCall.exec, Session.view, Session.connected, hok]
  exact perform_throughout hexec hJ hQ

/-- A statement outside a transaction that raises. -/
theorem execute_raises {statement : Statement T I} {e : SqlError} (herror : c.execute statement = .error e)
    (hJ : J n (.connected c)) (hQ : Q (.error e) (n + 1) (.connected c)) :
    (perform (.execute statement)).Throughout sqlEffects () J Q n (.connected c) := by
  have hexec : (SqlCall.execute statement).exec (.connected c) = (.error e, .connected c) := by
    simp [SqlCall.exec, Session.view, Session.connected, herror]
  refine ⟨hJ, ?_⟩
  simp only [sqlEffects, hexec]
  exact hQ

/-- A ready script runs to its end, and wherever it is stopped it has extended
the catalogue it found. -/
theorem forM_throughout {shape : T → List String} {known : List T} {script : List (Statement T I)}
    (hready : Statement.Ready shape known script) (hconforms : c.Conforms shape) (hknown : c.Known known)
    (hempty : ∀ table ∈ script.flatMap (·.indexesUniquely), c.rows table = [])
    (hJ : ∀ m c', n ≤ m → m < n + script.length →
      c.Extends script c' → J m (.connected c'))
    (hQ : ∀ c', c.Extends script c' →
      c'.Known ((script.flatMap (·.declares)).map (·.1)) →
        Q (.ok ()) (n + script.length) (.connected c')) :
    (script.forM fun s => perform (.execute s)).Throughout sqlEffects () J Q n (.connected c) := by
  induction script generalizing c n known with
  | nil => exact hQ c (.refl _ c) (by simp [Catalogue.Known])
  | cons s rest ih =>
    obtain ⟨hs, hrest⟩ := hready
    obtain ⟨c', hok, hext, hdeclared⟩ := Catalogue.repeatable_extends hs hconforms hknown
      fun table htable => hempty table (by simp [htable])
    -- what the rest does to the new catalogue, the whole script does to the old one
    have hlater : ∀ {c''}, c'.Extends rest c'' → c.Extends (s :: rest) c'' := fun h =>
      (hext.mono (by simp)).trans (h.mono (by simp))
    refine .bind (execute_throughout hok (hJ n c (Nat.le_refl n) (by simp) (.refl _ c)) ?_)
    refine ih hrest (hconforms.extends hext ?_) ?_ ?_ ?_ ?_
    · simpa using hs.declares
    · intro name hname
      rcases List.mem_append.mp hname with hname | hname
      · exact hknown.extends hext name hname
      · exact hdeclared name hname
    · intro table htable
      rw [hext.rows]
      exact hempty table (by simp only [List.flatMap_cons, List.mem_append]; exact .inr htable)
    · intro m c'' hle hlt hext'
      exact hJ m c'' (by omega) (by simp only [List.length_cons]; omega) (hlater hext')
    · intro c'' hext' hknown'
      have hlength : n + 1 + rest.length = n + (s :: rest).length := by simp only [List.length_cons]; omega
      rw [hlength]
      refine hQ c'' (hlater hext') fun name hname => ?_
      rw [List.flatMap_cons, List.map_append] at hname
      rcases List.mem_append.mp hname with hname | hname
      · exact hdeclared.extends hext' name hname
      · exact hknown' name hname

/-- The same of `executescript`, which first commits what is open. -/
theorem executescript_throughout {shape : T → List String} {script : List (Statement T I)}
    {s : Session (Catalogue T I)} (hready : Statement.Ready shape [] script)
    (hconforms : s.view.Conforms shape)
    (hempty : ∀ table ∈ script.flatMap (·.indexesUniquely), s.view.rows table = []) (hbefore : J n s)
    (hJ : ∀ m c', n < m → m < n + 1 + script.length → s.view.Extends script c' → J m (.connected c'))
    (hQ : ∀ c', s.view.Extends script c' → c'.Known ((script.flatMap (·.declares)).map (·.1)) →
      Q (.ok ()) (n + 1 + script.length) (.connected c')) :
    (executescript script).Throughout sqlEffects () J Q n s := by
  refine ⟨hbefore, ?_⟩
  exact forM_throughout hready hconforms (by simp [Catalogue.Known]) hempty
    (fun m c' hle hlt hext => hJ m c' (by omega) hlt hext) hQ

end Sql

end Conductress.Lib
