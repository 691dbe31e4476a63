import RubicaBot.Dedup

/-!
# RubicaBot.Schema

`app/db/migrations.py`: the schema, the migrations and `ensure_schema`.

A database is its tables, each with its definition and its rows, and its indexes.
`ensure_schema` is a session of statements: `CREATE … IF NOT EXISTS` takes effect at
once, as long as no row has been written, and rows that have been written are on the
disk once they are committed.  So a session can be run to its end (`Session.complete`)
or be cut off after any number of its statements (`Session.interrupted`).
-/

namespace RubicaBot

namespace Schema

/-! ## tables and indexes -/

/-- A column, as it is declared. -/
structure Column where
  name : String
  type : String
  constraint : String := ""
  deriving DecidableEq

/-- A table as `CREATE TABLE` describes it. -/
structure TableDefinition where
  columns : List Column
  primaryKey : List String := []
  deriving DecidableEq

/-- A column of an index, and its direction. -/
structure IndexColumn where
  name : String
  descending : Bool := false
  deriving DecidableEq

/-- An index as `CREATE INDEX` describes it. -/
structure IndexDefinition where
  table : String
  columns : List IndexColumn
  deriving DecidableEq

/-- A value in a column. -/
inductive SqlValue where
  | null
  | integer (i : Int)
  | real (text : String)
  | text (s : String)
  deriving DecidableEq

/-- A row, by its columns. -/
abbrev Row := List (String × SqlValue)

/-- A table with its rows. -/
structure Table where
  definition : TableDefinition
  rows : List Row := []

/-- What the file holds. -/
structure Database where
  tables : Dict String Table := ∅
  indexes : Dict String IndexDefinition := ∅

/-- `CREATE TABLE IF NOT EXISTS` and `CREATE INDEX IF NOT EXISTS`. -/
inductive Statement where
  | createTable (name : String) (definition : TableDefinition)
  | createIndex (name : String) (definition : IndexDefinition)
  deriving DecidableEq

/-- What is there already is left as it is.  An index of columns that are not there
raises. -/
def Statement.execute : Statement → Database → Option Database
  | .createTable name definition, db =>
      match db.tables.lookup name with
      | some _ => some db
      | none => some { db with tables := db.tables.insert name { definition } }
  | .createIndex name definition, db =>
      match db.indexes.lookup name with
      | some _ => some db
      | none =>
          match db.tables.lookup definition.table with
          | none => none
          | some table =>
              if ∀ column ∈ definition.columns,
                  column.name ∈ table.definition.columns.map Column.name then
                some { db with indexes := db.indexes.insert name definition }
              else none

/-! ## the schema -/

/-- `SCHEMA_VERSION`. -/
def schemaVersion : Int := 4

/-- The table of the version. -/
def schemaVersionTable : Statement :=
  .createTable "schema_version" { columns := [⟨"version", "INTEGER", "NOT NULL"⟩] }

/-- `settings`, which the first schema and a migration both create. -/
def settingsTable : Statement :=
  .createTable "settings"
    { columns :=
        [⟨"key", "TEXT", "PRIMARY KEY"⟩, ⟨"value", "TEXT", "NOT NULL"⟩,
          ⟨"updated_at", "TEXT", "DEFAULT CURRENT_TIMESTAMP"⟩] }

/-- `incoming_updates`, likewise. -/
def incomingUpdatesTable : Statement :=
  .createTable "incoming_updates"
    { columns :=
        [⟨"id", "INTEGER", "PRIMARY KEY AUTOINCREMENT"⟩, ⟨"job_id", "TEXT", "NOT NULL"⟩,
          ⟨"received_at", "REAL", "NOT NULL"⟩, ⟨"chat_id", "TEXT", ""⟩, ⟨"message_id", "TEXT", ""⟩,
          ⟨"sender_id", "TEXT", ""⟩, ⟨"update_type", "TEXT", ""⟩, ⟨"text", "TEXT", ""⟩,
          ⟨"raw_payload", "TEXT", ""⟩, ⟨"created_at", "TEXT", "DEFAULT CURRENT_TIMESTAMP"⟩] }

/-- The index of the snapshots by their job. -/
def incomingUpdatesJobIndex : Statement :=
  .createIndex "idx_incoming_updates_job" ⟨"incoming_updates", [⟨"job_id", false⟩]⟩

/-- The index of the snapshots by their time. -/
def incomingUpdatesReceivedIndex : Statement :=
  .createIndex "idx_incoming_updates_received" ⟨"incoming_updates", [⟨"received_at", false⟩]⟩

/-- `INITIAL_SCHEMA`. -/
def initialSchema : List Statement :=
  [schemaVersionTable,
    .createTable "groups"
      { columns :=
          [⟨"chat_id", "TEXT", "PRIMARY KEY"⟩, ⟨"title", "TEXT", ""⟩,
            ⟨"anti_link", "INTEGER", "DEFAULT 1"⟩, ⟨"anti_flood", "INTEGER", "DEFAULT 0"⟩,
            ⟨"anti_spam", "INTEGER", "DEFAULT 0"⟩, ⟨"anti_badwords", "INTEGER", "DEFAULT 0"⟩,
            ⟨"anti_forward", "INTEGER", "DEFAULT 0"⟩, ⟨"flood_limit", "INTEGER", "DEFAULT 6"⟩,
            ⟨"created_at", "TEXT", "DEFAULT CURRENT_TIMESTAMP"⟩,
            ⟨"updated_at", "TEXT", "DEFAULT CURRENT_TIMESTAMP"⟩] },
    .createTable "admins"
      { columns :=
          [⟨"chat_id", "TEXT", "NOT NULL"⟩, ⟨"user_id", "TEXT", "NOT NULL"⟩,
            ⟨"role", "TEXT", "DEFAULT 'admin'"⟩],
        primaryKey := ["chat_id", "user_id"] },
    .createTable "filters"
      { columns :=
          [⟨"chat_id", "TEXT", "NOT NULL"⟩, ⟨"word", "TEXT", "NOT NULL"⟩,
            ⟨"is_whitelist", "INTEGER", "DEFAULT 0"⟩, ⟨"regex_enabled", "INTEGER", "DEFAULT 0"⟩,
            ⟨"created_at", "TEXT", "DEFAULT CURRENT_TIMESTAMP"⟩],
        primaryKey := ["chat_id", "word"] },
    .createTable "messages"
      { columns :=
          [⟨"id", "INTEGER", "PRIMARY KEY AUTOINCREMENT"⟩, ⟨"chat_id", "TEXT", "NOT NULL"⟩,
            ⟨"message_id", "TEXT", "NOT NULL"⟩, ⟨"sender_id", "TEXT", ""⟩, ⟨"text", "TEXT", ""⟩,
            ⟨"created_at", "TEXT", "DEFAULT CURRENT_TIMESTAMP"⟩] },
    .createIndex "idx_messages_chat_created"
      ⟨"messages", [⟨"chat_id", false⟩, ⟨"id", true⟩]⟩,
    .createTable "anti_state"
      { columns :=
          [⟨"chat_id", "TEXT", "NOT NULL"⟩, ⟨"key", "TEXT", "NOT NULL"⟩,
            ⟨"value", "TEXT", "NOT NULL"⟩, ⟨"updated_at", "TEXT", "DEFAULT CURRENT_TIMESTAMP"⟩],
        primaryKey := ["chat_id", "key"] },
    settingsTable, incomingUpdatesTable, incomingUpdatesJobIndex, incomingUpdatesReceivedIndex]

/-- `MIGRATIONS.get(version, [])`. -/
def migrations (version : Int) : List Statement :=
  if version = 2 then [settingsTable]
  else if version = 3 then [incomingUpdatesTable, incomingUpdatesJobIndex]
  else if version = 4 then [incomingUpdatesReceivedIndex]
  else []

/-! ## the rows of `schema_version` -/

/-- The rows of `schema_version`; `none` is no such table. -/
def Database.versionRows (db : Database) : Option (List Row) :=
  (db.tables.lookup "schema_version").map Table.rows

/-- A statement that changes the rows of `schema_version`, and raises if there is no
such table. -/
def Database.mapVersionRows (f : List Row → List Row) (db : Database) : Option Database :=
  (db.tables.lookup "schema_version").map fun table =>
    { db with tables := db.tables.insert "schema_version" { table with rows := f table.rows } }

/-- The row that says the version. -/
def versionRow (version : Int) : Row := [("version", .integer version)]

/-- `INSERT INTO schema_version (version) VALUES (?)`. -/
def Database.insertVersion (version : Int) : Database → Option Database :=
  Database.mapVersionRows fun rows => rows ++ [versionRow version]

/-- `UPDATE schema_version SET version = ?`. -/
def Database.updateVersion (version : Int) : Database → Option Database :=
  Database.mapVersionRows fun rows => rows.map fun row =>
    row.map fun entry => if entry.1 = "version" then ("version", .integer version) else entry

/-- `int(row["version"])`, of an integer. -/
def Row.version (row : Row) : Option Int :=
  match row.lookup "version" with
  | some (.integer i) => some i
  | _ => none

/-! ## sessions -/

/-- What a program does with a connection, statement by statement. -/
inductive Session where
  | done
  | execute (statement : Statement) (next : Session)
  /-- `SELECT version FROM schema_version LIMIT 1`. -/
  | fetchVersion (next : Option Int → Session)
  | insertVersion (version : Int) (next : Session)
  | updateVersion (version : Int) (next : Session)
  | commit (next : Session)

/-- The statements of a list, one after another. -/
def executeAll (statements : List Statement) (next : Session) : Session :=
  statements.foldr Session.execute next

/-- `range(current_version + 1, SCHEMA_VERSION + 1)`. -/
def versionsAfter (currentVersion : Int) : List Int :=
  (List.range (schemaVersion - currentVersion).toNat).map fun i => currentVersion + 1 + i

/-- What `ensure_schema` does about the version it has read, or about there being none. -/
def afterVersion : Option Int → Session
  | none => .insertVersion schemaVersion <| .commit .done
  | some currentVersion =>
      if currentVersion < schemaVersion then
        executeAll ((versionsAfter currentVersion).flatMap migrations) <|
          .updateVersion schemaVersion <| .commit .done
      else .done

/-- `ensure_schema`. -/
def ensureSchema : Session :=
  executeAll initialSchema <| .commit <| .fetchVersion afterVersion

/-- A connection: what is on the disk, and what will be once the rows that have been
written are committed. -/
structure Connection where
  committed : Database
  pending : Option Database := none

namespace Connection

/-- What the connection itself sees. -/
def current (c : Connection) : Database := c.pending.getD c.committed

/-- Without a transaction, the statement is committed at once. -/
def execute (statement : Statement) (c : Connection) : Option Connection :=
  match c.pending with
  | none => (statement.execute c.committed).map fun db => { committed := db }
  | some db => (statement.execute db).map fun db => { c with pending := some db }

/-- Writing rows opens a transaction. -/
def write (f : Database → Option Database) (c : Connection) : Option Connection :=
  (f c.current).map fun db => { c with pending := some db }

/-- `conn.commit()`. -/
def commit (c : Connection) : Connection := { committed := c.current }

/-- The version in the first row, if there is a row; raises without the table and on a
version that is no integer. -/
def fetchVersion (c : Connection) : Option (Option Int) := do
  let rows ← c.current.versionRows
  match rows with
  | [] => return none
  | row :: _ => return some (← row.version)

end Connection

namespace Session

/-- The database after the whole session, unless a statement raises. -/
def complete : Session → Connection → Option Database
  | .done, c => some c.current
  | .execute statement next, c => (c.execute statement).bind next.complete
  | .fetchVersion next, c => c.fetchVersion.bind fun version => (next version).complete c
  | .insertVersion version next, c => (c.write (Database.insertVersion version)).bind next.complete
  | .updateVersion version next, c => (c.write (Database.updateVersion version)).bind next.complete
  | .commit next, c => next.complete c.commit

/-- The database that is left when the session is cut off after some statements, or
raises: rows that have not been committed are not in it. -/
def interrupted : Session → Nat → Connection → Database
  | _, 0, c => c.committed
  | .done, _ + 1, c => c.current
  | .execute statement next, n + 1, c =>
      ((c.execute statement).map (next.interrupted n)).getD c.committed
  | .fetchVersion next, n + 1, c =>
      (c.fetchVersion.map fun version => (next version).interrupted n c).getD c.committed
  | .insertVersion version next, n + 1, c =>
      ((c.write (Database.insertVersion version)).map (next.interrupted n)).getD c.committed
  | .updateVersion version next, n + 1, c =>
      ((c.write (Database.updateVersion version)).map (next.interrupted n)).getD c.committed
  | .commit next, n + 1, c => next.interrupted n c.commit

end Session

end Schema

end RubicaBot
