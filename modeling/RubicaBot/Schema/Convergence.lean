import RubicaBot.Schema

/-!
# RubicaBot.Schema.Convergence

`ensure_schema` from every database that it, or an older version of the schema, can
have left.

All of these have only tables and indexes of `INITIAL_SCHEMA`, as it defines them
(`Known`): the migrations create nothing else.  So no statement raises
(`runAll_initialSchema`), what is there is left as it is, and after the first part of
the session the migrations have nothing to do.
-/

namespace RubicaBot

namespace Schema

/-! ## one statement -/

/-- What the statement creates is there, as it defines it. -/
def Statement.Present : Statement → Database → Prop
  | .createTable name definition, db =>
      (db.tables.lookup name).map Table.definition = some definition
  | .createIndex name definition, db => db.indexes.lookup name = some definition

/-- Every table and index of `db` is in `db'`, with its rows. -/
structure Extends (db db' : Database) : Prop where
  tables : ∀ name table, db.tables.lookup name = some table → db'.tables.lookup name = some table
  indexes : ∀ name index, db.indexes.lookup name = some index →
    db'.indexes.lookup name = some index

/-- Every table and index is one of `INITIAL_SCHEMA`. -/
structure Known (db : Database) : Prop where
  tables : ∀ name table, db.tables.lookup name = some table →
    .createTable name table.definition ∈ initialSchema
  indexes : ∀ name index, db.indexes.lookup name = some index →
    .createIndex name index ∈ initialSchema

/-- A database extends itself. -/
theorem Extends.refl (db : Database) : Extends db db := ⟨fun _ _ h => h, fun _ _ h => h⟩

/-- What extends an extension extends. -/
theorem Extends.trans {db db' db'' : Database} (h : Extends db db') (h' : Extends db' db'') :
    Extends db db'' :=
  ⟨fun name table ht => h'.tables name table (h.tables name table ht),
    fun name index hi => h'.indexes name index (h.indexes name index hi)⟩

/-- There is nothing in an empty database. -/
theorem known_empty : Known {} := ⟨nofun, nofun⟩

/-- What a statement creates, and its name. -/
def Statement.label : Statement → Bool × String
  | .createTable name _ => (true, name)
  | .createIndex name _ => (false, name)

/-- `INITIAL_SCHEMA` defines each name once. -/
theorem eq_of_label_eq {s s' : Statement} (h : s ∈ initialSchema) (h' : s' ∈ initialSchema)
    (hlabel : s.label = s'.label) : s = s' := by
  have hall : ∀ s ∈ initialSchema, ∀ s' ∈ initialSchema, s.label = s'.label → s = s' := by
    decide
  exact hall s h s' h' hlabel

section Execute

variable {s : Statement} {db db' : Database}

section Equations

variable {name : String} {definition : TableDefinition} {index : IndexDefinition} {table : Table}

/-- The table is there already. -/
theorem execute_createTable_of_some (h : db.tables.lookup name = some table) :
    (Statement.createTable name definition).execute db = some db := by
  simp only [Statement.execute, h]

/-- It is not there yet. -/
theorem execute_createTable_of_none (h : db.tables.lookup name = none) :
    (Statement.createTable name definition).execute db =
      some { db with tables := db.tables.insert name { definition } } := by
  simp only [Statement.execute, h]

/-- The index is there already. -/
theorem execute_createIndex_of_some {index' : IndexDefinition}
    (h : db.indexes.lookup name = some index') :
    (Statement.createIndex name index).execute db = some db := by
  simp only [Statement.execute, h]

/-- It is not there yet, and its columns are. -/
theorem execute_createIndex_of_none (h : db.indexes.lookup name = none)
    (htable : db.tables.lookup index.table = some table)
    (hcolumns : ∀ column ∈ index.columns,
      column.name ∈ table.definition.columns.map Column.name) :
    (Statement.createIndex name index).execute db =
      some { db with indexes := db.indexes.insert name index } := by
  simp only [Statement.execute, h, htable, if_pos hcolumns]

/-- If it can be made, it is. -/
theorem execute_createIndex_of_none_eq (h : db.indexes.lookup name = none)
    (hdone : (Statement.createIndex name index).execute db = some db') :
    db' = { db with indexes := db.indexes.insert name index } := by
  simp only [Statement.execute, h] at hdone
  cases htable : db.tables.lookup index.table with
  | none =>
      rw [htable] at hdone
      cases hdone
  | some table =>
      rw [htable] at hdone
      by_cases hcolumns : ∀ column ∈ index.columns,
          column.name ∈ table.definition.columns.map Column.name
      · simp only [if_pos hcolumns, Option.some.injEq] at hdone
        exact hdone.symm
      · simp only [if_neg hcolumns] at hdone
        cases hdone

end Equations

/-- What is present stays so. -/
theorem Statement.Present.extends (h : s.Present db) (hext : Extends db db') : s.Present db' := by
  cases s with
  | createTable name definition =>
      obtain ⟨table, htable, hdefinition⟩ := Option.map_eq_some_iff.mp h
      exact Option.map_eq_some_iff.mpr ⟨table, hext.tables name table htable, hdefinition⟩
  | createIndex name definition => exact hext.indexes name definition h

/-- What is there is not created again. -/
theorem execute_of_present (h : s.Present db) : s.execute db = some db := by
  cases s with
  | createTable name definition =>
      obtain ⟨table, htable, -⟩ := Option.map_eq_some_iff.mp h
      exact execute_createTable_of_some htable
  | createIndex name definition => exact execute_createIndex_of_some h

/-- A new table takes nothing away. -/
theorem extends_insertTable {name : String} (h : db.tables.lookup name = none) (table : Table) :
    Extends db { db with tables := db.tables.insert name table } := by
  refine ⟨fun name' table' h' => ?_, fun _ _ h' => h'⟩
  have hne : name' ≠ name := fun heq => by
    rw [heq, h] at h'
    cases h'
  rw [AList.lookup_insert_ne hne]
  exact h'

/-- Nor does a new index. -/
theorem extends_insertIndex {name : String} (h : db.indexes.lookup name = none)
    (index : IndexDefinition) :
    Extends db { db with indexes := db.indexes.insert name index } := by
  refine ⟨fun _ _ h' => h', fun name' index' h' => ?_⟩
  have hne : name' ≠ name := fun heq => by
    rw [heq, h] at h'
    cases h'
  rw [AList.lookup_insert_ne hne]
  exact h'

/-- With one more of the tables. -/
theorem Known.insertTable {name : String} {table : Table} (h : Known db)
    (hs : .createTable name table.definition ∈ initialSchema) :
    Known { db with tables := db.tables.insert name table } := by
  refine ⟨fun name' table' h' => ?_, h.indexes⟩
  by_cases heq : name' = name
  · subst heq
    rw [AList.lookup_insert, Option.some.injEq] at h'
    rw [← h']
    exact hs
  · rw [AList.lookup_insert_ne heq] at h'
    exact h.tables name' table' h'

/-- With one more of the indexes. -/
theorem Known.insertIndex {name : String} {index : IndexDefinition} (h : Known db)
    (hs : .createIndex name index ∈ initialSchema) :
    Known { db with indexes := db.indexes.insert name index } := by
  refine ⟨h.tables, fun name' index' h' => ?_⟩
  by_cases heq : name' = name
  · subst heq
    rw [AList.lookup_insert, Option.some.injEq] at h'
    rw [← h']
    exact hs
  · rw [AList.lookup_insert_ne heq] at h'
    exact h.indexes name' index' h'

/-- What a table has, `INITIAL_SCHEMA` gave it. -/
theorem Known.present_createTable {name : String} {definition : TableDefinition} {table : Table}
    (h : Known db) (hs : .createTable name definition ∈ initialSchema)
    (htable : db.tables.lookup name = some table) : table.definition = definition := by
  have heq := eq_of_label_eq (h.tables name table htable) hs rfl
  cases heq
  rfl

/-- **One statement.**  What a statement of the schema does to a database with nothing
else in it. -/
theorem execute_spec (hs : s ∈ initialSchema) (hknown : Known db) (h : s.execute db = some db') :
    Extends db db' ∧ Known db' ∧ s.Present db' ∧
      db'.versionRows.getD [] = db.versionRows.getD [] := by
  cases s with
  | createTable name definition =>
      cases hlookup : db.tables.lookup name with
      | some table =>
          rw [execute_createTable_of_some hlookup, Option.some.injEq] at h
          subst h
          refine ⟨.refl db, hknown, ?_, rfl⟩
          exact Option.map_eq_some_iff.mpr ⟨table, hlookup, hknown.present_createTable hs hlookup⟩
      | none =>
          rw [execute_createTable_of_none hlookup, Option.some.injEq] at h
          subst h
          refine ⟨extends_insertTable hlookup _, hknown.insertTable hs, ?_, ?_⟩
          · exact Option.map_eq_some_iff.mpr ⟨_, AList.lookup_insert _, rfl⟩
          · unfold Database.versionRows
            by_cases heq : "schema_version" = name
            · subst heq
              rw [AList.lookup_insert, hlookup]
              rfl
            · rw [AList.lookup_insert_ne heq]
  | createIndex name index =>
      cases hlookup : db.indexes.lookup name with
      | some index' =>
          rw [execute_createIndex_of_some hlookup, Option.some.injEq] at h
          subst h
          have heq := eq_of_label_eq (hknown.indexes name index' hlookup) hs rfl
          cases heq
          exact ⟨.refl db, hknown, hlookup, rfl⟩
      | none =>
          obtain rfl := execute_createIndex_of_none_eq hlookup h
          exact ⟨extends_insertIndex hlookup _, hknown.insertIndex hs, AList.lookup_insert _, rfl⟩

end Execute

/-! ## the statements of the schema -/

/-- The statements, one after the other. -/
def runAll (statements : List Statement) (db : Database) : Option Database :=
  statements.foldlM (fun db s => s.execute db) db

/-- The first statement, and then the others. -/
theorem runAll_cons (s : Statement) (statements : List Statement) (db : Database) :
    runAll (s :: statements) db = (s.execute db).bind (runAll statements) := rfl

/-- What is there is not created again. -/
theorem runAll_of_present {statements : List Statement} {db : Database}
    (h : ∀ s ∈ statements, s.Present db) : runAll statements db = some db := by
  induction statements with
  | nil => rfl
  | cons s statements ih =>
      rw [runAll_cons, execute_of_present (h s List.mem_cons_self)]
      exact ih fun s' hs' => h s' (List.mem_cons_of_mem _ hs')

/-- Some statement before creates the table of an index, with its columns. -/
def suppliedBy (before : List Statement) : Statement → Bool
  | .createTable _ _ => true
  | .createIndex _ definition => before.any fun
      | .createTable name table => name = definition.table &&
          decide (∀ column ∈ definition.columns, column.name ∈ table.columns.map Column.name)
      | .createIndex _ _ => false

/-- Every index comes after its table. -/
def wellOrdered (before : List Statement) : List Statement → Bool
  | [] => true
  | s :: statements => suppliedBy before s && wellOrdered (before ++ [s]) statements

/-- A statement whose table is there does not raise. -/
theorem exists_execute {before : List Statement} {s : Statement} {db : Database}
    (hsupplied : suppliedBy before s) (hbefore : ∀ s ∈ before, s.Present db) :
    ∃ db', s.execute db = some db' := by
  cases s with
  | createTable name definition =>
      cases h : db.tables.lookup name with
      | some table => exact ⟨_, execute_createTable_of_some h⟩
      | none => exact ⟨_, execute_createTable_of_none h⟩
  | createIndex name definition =>
      cases h : db.indexes.lookup name with
      | some index => exact ⟨_, execute_createIndex_of_some h⟩
      | none =>
          obtain ⟨s, hs, hcreates⟩ := List.any_eq_true.mp hsupplied
          cases s with
          | createIndex _ _ => cases hcreates
          | createTable tableName table =>
              obtain ⟨hname, hcolumns⟩ := (Bool.and_eq_true _ _).mp hcreates
              have hname : tableName = definition.table := of_decide_eq_true hname
              have hcolumns := of_decide_eq_true hcolumns
              subst hname
              obtain ⟨found, hfound, hdefinition⟩ := Option.map_eq_some_iff.mp (hbefore _ hs)
              rw [← hdefinition] at hcolumns
              exact ⟨_, execute_createIndex_of_none h hfound hcolumns⟩

/-- **Nothing raises.**  By induction on the statements that are left, with those before
in place. -/
theorem exists_runAll {before statements : List Statement} {db : Database}
    (hordered : wellOrdered before statements) (hschema : ∀ s ∈ statements, s ∈ initialSchema)
    (hbefore : ∀ s ∈ before, s.Present db) (hknown : Known db) :
    ∃ db', runAll statements db = some db' ∧ Extends db db' ∧ Known db' ∧
      (∀ s ∈ statements, s.Present db') ∧
      db'.versionRows.getD [] = db.versionRows.getD [] := by
  induction statements generalizing before db with
  | nil => exact ⟨db, rfl, .refl db, hknown, nofun, rfl⟩
  | cons s statements ih =>
      obtain ⟨hsupplied, hrest⟩ := (Bool.and_eq_true _ _).mp hordered
      obtain ⟨db₁, hexecute⟩ := exists_execute hsupplied hbefore
      obtain ⟨hextends, hknown₁, hpresent, hrows⟩ :=
        execute_spec (hschema s List.mem_cons_self) hknown hexecute
      have hbefore₁ : ∀ s' ∈ before ++ [s], s'.Present db₁ := by
        intro s' hs'
        obtain hs' | hs' := List.mem_append.mp hs'
        · exact (hbefore s' hs').extends hextends
        · rw [List.mem_singleton.mp hs']
          exact hpresent
      obtain ⟨db', hrun, hextends', hknown', hall, hrows'⟩ :=
        ih hrest (fun s' hs' => hschema s' (List.mem_cons_of_mem _ hs')) hbefore₁ hknown₁
      refine ⟨db', ?_, hextends.trans hextends', hknown', fun s' hs' => ?_, hrows'.trans hrows⟩
      · rw [runAll_cons, hexecute]
        exact hrun
      · obtain rfl | hs' := List.mem_cons.mp hs'
        · exact hpresent.extends hextends'
        · exact hall s' hs'

/-- **The first part of a session.** -/
theorem runAll_initialSchema {db : Database} (hknown : Known db) :
    ∃ db', runAll initialSchema db = some db' ∧ Extends db db' ∧ Known db' ∧
      (∀ s ∈ initialSchema, s.Present db') ∧
      db'.versionRows.getD [] = db.versionRows.getD [] :=
  @exists_runAll [] initialSchema db (by decide) (fun _ h => h) nofun hknown

/-- The migrations create nothing that `INITIAL_SCHEMA` does not. -/
theorem mem_initialSchema_of_mem_migrations {version : Int} {s : Statement}
    (h : s ∈ migrations version) : s ∈ initialSchema := by
  have hall : ∀ version ∈ [2, 3, 4], ∀ s ∈ migrations version, s ∈ initialSchema := by decide
  by_cases hversion : version ∈ [2, 3, 4]
  · exact hall version hversion s h
  · simp only [List.mem_cons, List.not_mem_nil, or_false, not_or] at hversion
    rw [migrations, if_neg hversion.1, if_neg hversion.2.1, if_neg hversion.2.2] at h
    cases h

/-! ## the version -/

/-- The rows of `schema_version` are integers. -/
def Versioned (db : Database) : Prop := ∀ row ∈ db.versionRows.getD [], ∃ i, row = versionRow i

/-- The version in the first row. -/
def Database.version (db : Database) : Option Int :=
  (db.versionRows.getD []).head?.bind Row.version

section Version

variable {db db' : Database} {f : List Row → List Row}

/-- The version of a database that has one is read. -/
theorem fetchVersion_eq {rows : List Row} (hrows : db.versionRows = some rows)
    (h : Versioned db) : Connection.fetchVersion { committed := db } = some db.version := by
  have hversioned : ∀ row ∈ rows, ∃ i, row = versionRow i := by
    rw [Versioned, hrows] at h
    exact h
  unfold Connection.fetchVersion Database.version Connection.current
  simp only [Option.getD_none, hrows, Option.getD_some]
  cases rows with
  | nil => rfl
  | cons row rows =>
      obtain ⟨i, rfl⟩ := hversioned row List.mem_cons_self
      rfl

/-- Writing the rows of `schema_version` leaves everything else. -/
theorem mapVersionRows_spec (hknown : Known db) (h : db.mapVersionRows f = some db') :
    (∀ name, name ≠ "schema_version" → db'.tables.lookup name = db.tables.lookup name) ∧
      Known db' ∧ (∀ s : Statement, s.Present db → s.Present db') ∧
      db'.versionRows = db.versionRows.map f := by
  obtain ⟨table, htable, rfl⟩ := Option.map_eq_some_iff.mp h
  have hother : ∀ name, name ≠ "schema_version" →
      (db.tables.insert "schema_version" { table with rows := f table.rows }).lookup name =
        db.tables.lookup name := fun name hne => AList.lookup_insert_ne hne
  refine ⟨hother, hknown.insertTable (hknown.tables _ table htable), fun s hs => ?_, ?_⟩
  · cases s with
    | createTable name definition =>
        obtain ⟨found, hfound, hdefinition⟩ := Option.map_eq_some_iff.mp hs
        by_cases heq : name = "schema_version"
        · subst heq
          rw [htable, Option.some.injEq] at hfound
          refine Option.map_eq_some_iff.mpr ⟨_, AList.lookup_insert _, ?_⟩
          rw [← hdefinition, ← hfound]
        · exact Option.map_eq_some_iff.mpr ⟨found, (hother name heq).trans hfound, hdefinition⟩
    | createIndex name index => exact hs
  · unfold Database.versionRows
    rw [AList.lookup_insert, htable]
    rfl

end Version

/-! ## a whole session -/

/-- A list of statements is run to its end. -/
theorem complete_executeAll (statements : List Statement) (next : Session) (db : Database) :
    (executeAll statements next).complete { committed := db } =
      (runAll statements db).bind fun db' => next.complete { committed := db' } := by
  induction statements generalizing db with
  | nil => rfl
  | cons s statements ih =>
      rw [runAll_cons, Option.bind_assoc]
      show ((s.execute db).map fun db => Connection.mk db none).bind
        (executeAll statements next).complete = _
      cases s.execute db with
      | none => rfl
      | some db₁ => exact ih db₁

/-! ## what is left -/

/-- Only tables and indexes of `INITIAL_SCHEMA`, and only integers as versions. -/
structure Sound (db : Database) : Prop where
  known : Known db
  versioned : Versioned db

namespace Sound

variable {db db' : Database}

theorem empty : Sound {} := ⟨known_empty, nofun⟩

theorem execute {s : Statement} (h : Sound db) (hs : s ∈ initialSchema)
    (hdone : s.execute db = some db') : Sound db' := by
  obtain ⟨-, hknown, -, hrows⟩ := execute_spec hs h.known hdone
  refine ⟨hknown, ?_⟩
  rw [Versioned, hrows]
  exact h.versioned

/-- Writing versions into the rows. -/
theorem mapVersionRows {f : List Row → List Row} (h : Sound db)
    (hf : ∀ rows, (∀ row ∈ rows, ∃ i, row = versionRow i) → ∀ row ∈ f rows, ∃ i, row = versionRow i)
    (hdone : db.mapVersionRows f = some db') : Sound db' := by
  obtain ⟨-, hknown, -, hrows⟩ := mapVersionRows_spec h.known hdone
  refine ⟨hknown, ?_⟩
  have hversioned := h.versioned
  rw [Versioned] at hversioned ⊢
  rw [hrows]
  cases htable : db.versionRows with
  | none => exact nofun
  | some rows =>
      rw [htable] at hversioned
      exact hf rows hversioned

/-- A version is stored. -/
theorem insertVersion {version : Int} (h : Sound db)
    (hdone : db.insertVersion version = some db') : Sound db' := by
  refine h.mapVersionRows (fun rows hrows row hrow => ?_) hdone
  obtain hrow | hrow := List.mem_append.mp hrow
  · exact hrows row hrow
  · exact ⟨version, List.mem_singleton.mp hrow⟩

/-- A version is replaced. -/
theorem updateVersion {version : Int} (h : Sound db)
    (hdone : db.updateVersion version = some db') : Sound db' := by
  refine h.mapVersionRows (fun rows hrows row hrow => ?_) hdone
  obtain ⟨row', hrow', rfl⟩ := List.mem_map.mp hrow
  obtain ⟨i, rfl⟩ := hrows row' hrow'
  exact ⟨version, rfl⟩

end Sound

/-- Every statement of the session is one of `INITIAL_SCHEMA`. -/
def Session.Within : Session → Prop
  | .done => True
  | .execute statement next => statement ∈ initialSchema ∧ next.Within
  | .fetchVersion next => ∀ version, (next version).Within
  | .insertVersion _ next => next.Within
  | .updateVersion _ next => next.Within
  | .commit next => next.Within

/-- A list of statements of the schema. -/
theorem executeAll_within {statements : List Statement} {next : Session}
    (h : ∀ s ∈ statements, s ∈ initialSchema) (hnext : next.Within) :
    (executeAll statements next).Within := by
  induction statements with
  | nil => exact hnext
  | cons s statements ih =>
      exact ⟨h s List.mem_cons_self, ih fun s' hs' => h s' (List.mem_cons_of_mem _ hs')⟩

/-- An older database is migrated. -/
theorem afterVersion_of_lt {currentVersion : Int} (h : currentVersion < schemaVersion) :
    afterVersion (some currentVersion) =
      executeAll ((versionsAfter currentVersion).flatMap migrations)
        (.updateVersion schemaVersion (.commit .done)) := if_pos h

/-- One that is not older is left as it is. -/
theorem afterVersion_of_not_lt {currentVersion : Int} (h : ¬ currentVersion < schemaVersion) :
    afterVersion (some currentVersion) = .done := if_neg h

/-- `ensure_schema` executes statements of the schema only. -/
theorem ensureSchema_within : ensureSchema.Within := by
  refine executeAll_within (fun _ h => h) fun version => ?_
  cases version with
  | none => trivial
  | some currentVersion =>
      by_cases hold : currentVersion < schemaVersion
      · rw [afterVersion_of_lt hold]
        refine executeAll_within (fun s hs => ?_) trivial
        obtain ⟨version, -, hs⟩ := List.mem_flatMap.mp hs
        exact mem_initialSchema_of_mem_migrations hs
      · rw [afterVersion_of_not_lt hold]
        trivial

/-- A connection to a sound database, with sound rows to be committed. -/
structure Connection.Sound (c : Connection) : Prop where
  committed : Schema.Sound c.committed
  pending : ∀ db ∈ c.pending, Schema.Sound db

namespace Connection.Sound

variable {c : Connection}

theorem current (h : c.Sound) : Schema.Sound c.current := by
  unfold Connection.current
  cases hp : c.pending with
  | none => exact h.committed
  | some db => exact h.pending db hp

theorem execute (h : c.Sound) {s : Statement} (hs : s ∈ initialSchema) :
    ∀ c' ∈ c.execute s, c'.Sound := by
  intro c' hc'
  unfold Connection.execute at hc'
  cases hp : c.pending with
  | none =>
      rw [hp] at hc'
      obtain ⟨db, hdb, rfl⟩ := Option.map_eq_some_iff.mp hc'
      exact ⟨h.committed.execute hs hdb, nofun⟩
  | some pending =>
      rw [hp] at hc'
      obtain ⟨db, hdb, rfl⟩ := Option.map_eq_some_iff.mp hc'
      refine ⟨h.committed, fun db' hdb' => ?_⟩
      cases hdb'
      exact (h.pending pending hp).execute hs hdb

theorem write (h : c.Sound) {f : Database → Option Database}
    (hf : ∀ db, f c.current = some db → Schema.Sound db) : ∀ c' ∈ c.write f, c'.Sound := by
  intro c' hc'
  obtain ⟨db, hdb, rfl⟩ := Option.map_eq_some_iff.mp hc'
  refine ⟨h.committed, fun db' hdb' => ?_⟩
  cases hdb'
  exact hf db hdb

end Connection.Sound

/-- A statement that raises leaves what has been committed. -/
theorem sound_getD {c : Connection} (h : c.Sound) {left : Connection → Database}
    (hleft : ∀ c' : Connection, c'.Sound → Schema.Sound (left c')) {after : Option Connection}
    (hafter : ∀ c' ∈ after, c'.Sound) : Schema.Sound ((after.map left).getD c.committed) := by
  cases after with
  | none => exact h.committed
  | some c' => exact hleft c' (hafter c' rfl)

/-- **Wherever a session is cut off,** what it leaves is sound.  By induction on the
session. -/
theorem Session.interrupted_sound {session : Session} (hsession : session.Within) (n : Nat)
    {c : Connection} (h : c.Sound) : Schema.Sound (session.interrupted n c) := by
  induction session generalizing n c with
  | done =>
      cases n with
      | zero => exact h.committed
      | succ n => exact h.current
  | execute statement next ih =>
      cases n with
      | zero => exact h.committed
      | succ n => exact sound_getD h (fun _ => ih hsession.2 n) (h.execute hsession.1)
  | fetchVersion next ih =>
      cases n with
      | zero => exact h.committed
      | succ n =>
          show Schema.Sound ((c.fetchVersion.map fun version =>
            (next version).interrupted n c).getD c.committed)
          cases c.fetchVersion with
          | none => exact h.committed
          | some version => exact ih version (hsession version) n h
  | insertVersion version next ih =>
      cases n with
      | zero => exact h.committed
      | succ n =>
          exact sound_getD h (fun _ => ih hsession n) (h.write fun _ => h.current.insertVersion)
  | updateVersion version next ih =>
      cases n with
      | zero => exact h.committed
      | succ n =>
          exact sound_getD h (fun _ => ih hsession n) (h.write fun _ => h.current.updateVersion)
  | commit next ih =>
      cases n with
      | zero => exact h.committed
      | succ n => exact ih hsession n ⟨h.current, nofun⟩

/-- The tables and indexes are the same, whatever the rows. -/
structure SameSchema (db db' : Database) : Prop where
  tables : ∀ name, (db.tables.lookup name).map Table.definition =
    (db'.tables.lookup name).map Table.definition
  indexes : db.indexes = db'.indexes

/-- Rows do not matter, as long as the version is one. -/
theorem SameSchema.sound {db db' : Database} (h : SameSchema db' db) (hknown : Known db)
    (hversioned : Versioned db') : Sound db' := by
  refine ⟨⟨fun name table htable => ?_, fun name index hindex => ?_⟩, hversioned⟩
  · have hdefinition := h.tables name
    rw [htable] at hdefinition
    obtain ⟨table', htable', heq⟩ := Option.map_eq_some_iff.mp hdefinition.symm
    rw [← heq]
    exact hknown.tables name table' htable'
  · rw [h.indexes] at hindex
    exact hknown.indexes name index hindex

/-- What the schema was before there were migrations. -/
def firstSchema : List Statement :=
  initialSchema.filter fun s => decide (s ∉ migrations 2 ++ migrations 3 ++ migrations 4)

/-- The schema of a version: the first, and the migrations up to it. -/
def schemaAt (version : Int) : List Statement :=
  firstSchema ++ (List.range version.toNat).flatMap fun i => migrations (i + 1)

example : [1, 2, 3, 4].map (fun version =>
    (runAll (schemaAt version) {}).map fun db =>
      (db.tables.keys.length, db.indexes.keys.length)) =
    [some (6, 1), some (7, 1), some (8, 2), some (8, 3)] := by decide +kernel

/-- The databases that `ensure_schema` can find: none yet; one with the schema of a
version from 1 to 4; what a run leaves that is cut off after any of its statements; and
any of these with other rows. -/
inductive Left : Database → Prop
  | none : Left {}
  | version {v : Int} {built db : Database} : 1 ≤ v → v ≤ schemaVersion →
      runAll (schemaAt v) {} = some built → SameSchema db built → Versioned db → Left db
  | interrupted {db : Database} (n : Nat) : Left db →
      Left (ensureSchema.interrupted n { committed := db })
  | rows {db db' : Database} : Left db → SameSchema db' db → Versioned db' → Left db'

/-- The statements of the schema add what is known. -/
theorem runAll_known {statements : List Statement} {db db' : Database}
    (hschema : ∀ s ∈ statements, s ∈ initialSchema) (hknown : Known db)
    (h : runAll statements db = some db') : Known db' := by
  induction statements generalizing db with
  | nil =>
      cases h
      exact hknown
  | cons s statements ih =>
      rw [runAll_cons] at h
      obtain ⟨db₁, hexecute, hrest⟩ := Option.bind_eq_some_iff.mp h
      obtain ⟨-, hknown₁, -⟩ := execute_spec (hschema s List.mem_cons_self) hknown hexecute
      exact ih (fun s' hs' => hschema s' (List.mem_cons_of_mem _ hs')) hknown₁ hrest

/-- Every older schema is part of the present one. -/
theorem mem_initialSchema_of_mem_schemaAt {version : Int} {s : Statement}
    (h : s ∈ schemaAt version) : s ∈ initialSchema := by
  obtain h | h := List.mem_append.mp h
  · exact List.mem_of_mem_filter h
  · obtain ⟨i, -, hs⟩ := List.mem_flatMap.mp h
    exact mem_initialSchema_of_mem_migrations hs

/-- What another version of the program has left is sound. -/
theorem Left.sound {db : Database} (h : Left db) : Sound db := by
  induction h with
  | none => exact .empty
  | version _ _ hbuilt hsame hversioned =>
      have hknown := runAll_known (fun _ => mem_initialSchema_of_mem_schemaAt) known_empty hbuilt
      exact hsame.sound hknown hversioned
  | interrupted n _ ih => exact Session.interrupted_sound ensureSchema_within n ⟨ih, nofun⟩
  | rows _ hsame hversioned ih => exact hsame.sound ih.known hversioned

/-! ## convergence -/

/-- The version that a run reads. -/
def versionRead (db : Database) : Option (Option Int) :=
  (runAll initialSchema db).bind fun db' => Connection.fetchVersion { committed := db' }

section Converge

variable {db db' : Database}

/-- The session, from what its first part leads to. -/
theorem complete_ensureSchema (hrun : runAll initialSchema db = some db') {version : Option Int}
    (hversion : Connection.fetchVersion { committed := db' } = some version) :
    ensureSchema.complete { committed := db } =
      (afterVersion version).complete { committed := db' } := by
  rw [ensureSchema, complete_executeAll, hrun, Option.bind_some]
  show (Connection.fetchVersion { committed := db' }).bind _ = _
  rw [hversion]
  rfl

/-- A write, and its commit. -/
theorem complete_write (f : Database → Option Database) (db : Database) :
    (Connection.write f { committed := db }).bind (Session.commit .done).complete = f db := by
  unfold Connection.write Connection.current
  simp only [Option.getD_none]
  cases f db <;> rfl

/-- The version is in the first row. -/
theorem version_of_versionRows {rows : List Row} {i : Int}
    (hrows : db.versionRows = some (versionRow i :: rows)) : db.version = some i := by
  rw [Database.version, hrows]
  rfl

/-- And is read from there. -/
theorem fetchVersion_of_versionRows {rows : List Row} {i : Int}
    (hrows : db.versionRows = some (versionRow i :: rows)) :
    Connection.fetchVersion { committed := db } = some (some i) := by
  unfold Connection.fetchVersion Connection.current
  simp only [Option.getD_none, hrows]
  rfl

/-- The rows of `schema_version` are written. -/
theorem exists_mapVersionRows {rows : List Row} {f : List Row → List Row} (hknown : Known db)
    (hrows : db.versionRows = some rows) :
    ∃ db', db.mapVersionRows f = some db' ∧
      (∀ name, name ≠ "schema_version" → db'.tables.lookup name = db.tables.lookup name) ∧
      (∀ s : Statement, s.Present db → s.Present db') ∧ db'.versionRows = some (f rows) := by
  obtain ⟨table, htable, htableRows⟩ := Option.map_eq_some_iff.mp hrows
  have hdone : db.mapVersionRows f =
      some { db with
        tables := db.tables.insert "schema_version" { table with rows := f table.rows } } := by
    rw [Database.mapVersionRows, htable]
    rfl
  obtain ⟨hother, -, hpresent, hrows'⟩ := mapVersionRows_spec hknown hdone
  exact ⟨_, hdone, hother, hpresent, hrows'.trans (congrArg _ hrows)⟩

/-- What a run does once everything is there: it writes the version, if there is none or
an older one. -/
theorem complete_afterVersion {rows : List Row} (hsound : Sound db)
    (hpresent : ∀ s ∈ initialSchema, s.Present db) (hrows : db.versionRows = some rows) :
    ∃ db', (afterVersion db.version).complete { committed := db } = some db' ∧
      (∀ name, name ≠ "schema_version" → db'.tables.lookup name = db.tables.lookup name) ∧
      (∀ s ∈ initialSchema, s.Present db') ∧
      Connection.fetchVersion { committed := db' } =
        some (some (max (db.version.getD schemaVersion) schemaVersion)) := by
  have hversioned := hsound.versioned
  rw [Versioned, hrows] at hversioned
  cases rows with
  | nil =>
      have hnone : db.version = none := by
        rw [Database.version, hrows]
        rfl
      obtain ⟨db', hdone, hother, hkept, hrows'⟩ := @exists_mapVersionRows db _
        (fun rows => rows ++ [versionRow schemaVersion]) hsound.known hrows
      rw [hnone]
      exact ⟨db', (complete_write _ db).trans hdone, hother, fun s hs => hkept s (hpresent s hs),
        fetchVersion_of_versionRows hrows'⟩
  | cons row rows =>
      obtain ⟨i, rfl⟩ := hversioned row List.mem_cons_self
      have hsome := version_of_versionRows hrows
      rw [hsome]
      by_cases hold : i < schemaVersion
      · have hmigrated : runAll ((versionsAfter i).flatMap migrations) db = some db := by
          refine runAll_of_present fun s hs => ?_
          obtain ⟨version, -, hs⟩ := List.mem_flatMap.mp hs
          exact hpresent s (mem_initialSchema_of_mem_migrations hs)
        obtain ⟨db', hdone, hother, hkept, hrows'⟩ := @exists_mapVersionRows db _
          (fun rows => rows.map fun row => row.map fun entry =>
            if entry.1 = "version" then ("version", .integer schemaVersion) else entry)
          hsound.known hrows
        refine ⟨db', ?_, hother, fun s hs => hkept s (hpresent s hs), ?_⟩
        · rw [afterVersion_of_lt hold, complete_executeAll, hmigrated, Option.bind_some]
          exact (complete_write _ db).trans hdone
        · rw [fetchVersion_of_versionRows hrows', Option.getD_some, max_eq_right hold.le]
      · rw [afterVersion_of_not_lt hold]
        refine ⟨db, rfl, fun _ _ => rfl, hpresent, ?_⟩
        rw [fetchVersion_of_versionRows hrows, Option.getD_some, max_eq_left (not_lt.mp hold)]

/-- What the first part of a session finds and leaves. -/
theorem exists_first (hsound : Sound db) :
    ∃ db' rows, runAll initialSchema db = some db' ∧ Extends db db' ∧ Sound db' ∧
      (∀ s ∈ initialSchema, s.Present db') ∧ db'.versionRows = some rows ∧
      Connection.fetchVersion { committed := db' } = some db'.version := by
  obtain ⟨db', hrun, hextends, hknown, hpresent, hrows⟩ := runAll_initialSchema hsound.known
  have hversioned : Versioned db' := by
    rw [Versioned, hrows]
    exact hsound.versioned
  obtain ⟨table, htable, -⟩ := Option.map_eq_some_iff.mp (hpresent schemaVersionTable (by decide))
  have hrows' : db'.versionRows = some table.rows := Option.map_eq_some_iff.mpr ⟨table, htable, rfl⟩
  exact ⟨db', table.rows, hrun, hextends, ⟨hknown, hversioned⟩, hpresent, hrows',
    fetchVersion_eq hrows' hversioned⟩

end Converge

/-- **Schema setup converges and loses nothing.**  From every database that can have been
left, `ensure_schema` runs to its end; then every table and index of `INITIAL_SCHEMA` is
there, and every table but `schema_version` has the rows it had; the version that the
next run reads is the larger of the one that was there and `SCHEMA_VERSION`; and that
run changes nothing. -/
theorem ensureSchema_converges {db : Database} (h : Left db) :
    ∃ version db', versionRead db = some version ∧
      ensureSchema.complete { committed := db } = some db' ∧
      (∀ s ∈ initialSchema, s.Present db') ∧
      (∀ name table, name ≠ "schema_version" → db.tables.lookup name = some table →
        db'.tables.lookup name = some table) ∧
      versionRead db' = some (some (max (version.getD schemaVersion) schemaVersion)) ∧
      ensureSchema.complete { committed := db' } = some db' := by
  obtain ⟨db₁, rows, hrun, hextends, hsound, hpresent, hrows, hfetch⟩ := exists_first h.sound
  obtain ⟨db', hdone, hother, hpresent', hversion⟩ := complete_afterVersion hsound hpresent hrows
  have hread : versionRead db = some db₁.version := by
    rw [versionRead, hrun, Option.bind_some, hfetch]
  have hagain : runAll initialSchema db' = some db' := runAll_of_present hpresent'
  refine ⟨db₁.version, db', hread, (complete_ensureSchema hrun hfetch).trans hdone, hpresent',
    fun name table hne htable => ?_, ?_, ?_⟩
  · rw [hother name hne]
    exact hextends.tables name table htable
  · rw [versionRead, hagain, Option.bind_some, hversion]
  · rw [complete_ensureSchema hagain hversion,
      afterVersion_of_not_lt (not_lt.mpr (le_max_right _ _))]
    rfl

/-- A first run that is cut off after three statements is made up for. -/
theorem ensureSchema_converges_cutOff :
    ∃ db', ensureSchema.complete
        { committed := ensureSchema.interrupted 3 { committed := {} } } = some db' ∧
      (∀ s ∈ initialSchema, s.Present db') ∧ versionRead db' = some (some 4) := by
  obtain ⟨version, db', hversion, hdone, hpresent, -, hread, -⟩ :=
    ensureSchema_converges (.interrupted 3 .none)
  have hnone : versionRead (ensureSchema.interrupted 3 { committed := {} }) = some none := by
    decide +kernel
  rw [hnone, Option.some.injEq] at hversion
  subst hversion
  exact ⟨db', hdone, hpresent, hread⟩

end Schema

end RubicaBot
