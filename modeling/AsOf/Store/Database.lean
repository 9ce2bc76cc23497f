import AsOf.Store.Table

namespace AsOf

/-- How many variables a statement may have. It is enough for inserting an action, and for fetching
the actions of one asset. -/
structure VariableLimit where
  count : Nat
  rangeParams_lt : rangeParams < count

/-- The limit unless SQLite has been built with another. -/
def VariableLimit.builtIn : VariableLimit := ⟨32766, by decide⟩

structure Database where
  table? : Category → Option Table
  readOnly : Bool
  limit : VariableLimit

namespace Database

def empty : Database := ⟨fun _ => none, false, .builtIn⟩

def setTable (db : Database) (c : Category) (t : Table) : Database :=
  { db with table? := fun d => if d = c then some t else db.table? d }

def sealed (db : Database) : Database := { db with readOnly := true }

def isComplete (db : Database) : Bool :=
  Category.all.all fun c => (db.table? c).any (·.indexed)

/-- The table of a kind once all tables exist and are indexed. -/
def completed (db : Database) (c : Category) : Table :=
  match db.table? c with
  | some t => { t with indexed := true }
  | none => .empty

/-- Creates the tables that are missing and indexes all of them: whether that succeeds, and the
database afterwards. Rows are left alone; if there is nothing to do, that succeeds also on a
read-only database. -/
def createTables (db : Database) : Except DatabaseFault Unit × Database :=
  if db.isComplete then (.ok (), db)
  else if db.readOnly then (.error .readOnly, db)
  else (.ok (), { db with table? := fun c => some (db.completed c) })

def table (db : Database) (c : Category) : Except DatabaseFault Table :=
  (db.table? c).elim (.error (.noTable c)) .ok

end Database

/-- A transaction that inserts into a table: the database and the table as they were when it began,
and the rows inserted since, the newest first. -/
structure Transaction where
  database : Database
  category : Category
  table : Table
  inserted : List Row

namespace Transaction

def execute (x : Transaction) (a : Action) : Except DatabaseFault Transaction :=
  if x.database.readOnly then .error .readOnly
  else (x.table.encode x.category a).map fun r => { x with inserted := r :: x.inserted }

/-- Inserts actions one after the other, up to the first that is refused. -/
def executeAll (x : Transaction) : List Action → Except DatabaseFault Unit × Transaction
  | [] => (.ok (), x)
  | a :: rest =>
    match x.execute a with
    | .ok x => x.executeAll rest
    | .error e => (.error e, x)

def commit (x : Transaction) : Database :=
  x.database.setTable x.category { x.table with rows := x.table.rows ++ x.inserted.reverse }

/-- The database as it was when the transaction began. -/
def rollback (x : Transaction) : Database := x.database

/-- Ends a transaction: it is committed if all insertions have succeeded, and else rolled back. -/
def finish : Except DatabaseFault Unit × Transaction → Except DatabaseFault Unit × Database
  | (.ok _, x) => (.ok (), x.commit)
  | (.error e, x) => (.error e, x.rollback)

end Transaction

namespace Database

def begin (db : Database) (c : Category) : Except DatabaseFault Transaction :=
  (db.table c).map fun t => ⟨db, c, t, []⟩

/-- Inserts a batch of actions of one kind in a transaction: how that ends, and the database
afterwards. -/
def insert (db : Database) (c : Category) (actions : List Action) :
    Except DatabaseFault Unit × Database :=
  match db.begin c with
  | .error e => (.error e, db)
  | .ok x => Transaction.finish (x.executeAll actions)

def sids (db : Database) (c : Category) (span : Span) : Except DatabaseFault SidSet :=
  (db.table c).bind (·.sids span)

/-- The actions of a kind of given assets in a range. Without assets no statement is issued; the
variables of a statement are counted before its table is looked for. -/
def actions (db : Database) (c : Category) (sids : List Int) (span : Span) :
    Except DatabaseFault (List Action) :=
  if sids.isEmpty then .ok []
  else if db.limit.count < sids.length + rangeParams then
    .error (.tooManyVariables c sids.length db.limit.count)
  else (db.table c).bind (·.actions sids span)

def source (db : Database) (maxParams : Nat) : Source where
  maxParams := maxParams
  sids _ c span := (db.sids c span).mapError .database
  actions _ c sids span := (db.actions c sids span).mapError .database

theorem source_stateless (db : Database) (maxParams : Nat) : (db.source maxParams).Stateless :=
  fun _ _ => ⟨rfl, rfl⟩

end Database

/-- Batches of actions, one per kind, with which a database is filled. -/
structure Seed where
  splits : List Action
  mergers : List Action
  dividends : List Action

def Seed.batch (s : Seed) : Category → List Action
  | .split => s.splits
  | .merger => s.mergers
  | .dividend => s.dividends

inductive SeedFault where
  | tables (fault : DatabaseFault)
  | rows (category : Category) (fault : DatabaseFault)
  deriving DecidableEq

def SeedFault.message : SeedFault → String
  | .tables _ => "create adjustment tables"
  | .rows c _ => s!"seed {c.name} rows"

def SeedFault.causes : SeedFault → List String
  | .tables e | .rows _ e => (StoreFault.database e).message :: (StoreFault.database e).causes

def Seed.insertInto (s : Seed) (db : Database) : List Category → Except SeedFault Database
  | [] => .ok db
  | c :: rest =>
    match db.insert c (s.batch c) with
    | (.ok _, db) => s.insertInto db rest
    | (.error e, _) => .error (.rows c e)

/-- A writable database with all tables, filled with a seed. -/
def Seed.database (s : Seed) : Except SeedFault Database :=
  match Database.empty.createTables with
  | (.ok _, db) => s.insertInto db Category.all
  | (.error e, _) => .error (.tables e)

/-- Databases by the paths of their files, and the directories in which files may be made. -/
structure Disk where
  files : List (String × Database)
  directories : List String

def memoryPath : String := ":memory:"

def directoryOf (path : String) : String :=
  String.ofList ((path.toList.reverse.dropWhile (· ≠ '/')).drop 1).reverse

/-- Opens the database at a path. A missing file is an empty database if it may be written and its
directory is there. -/
def Disk.openFile (d : Disk) (path : String) (readOnly : Bool) : Except DatabaseFault Database :=
  if path = memoryPath then .ok .empty
  else match d.files.lookup path with
    | some db => .ok (if readOnly then db.sealed else db)
    | none =>
      if !readOnly && d.directories.contains (directoryOf path) then .ok .empty
      else .error (.cannotOpen path)

end AsOf
