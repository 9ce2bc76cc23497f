import AsOf.Event
import AsOf.SidSet

namespace AsOf

inductive Query where
  /-- The assets that have actions of a kind in a range. -/
  | distinct (category : Category) (span : Span)
  | fetch (category : Category) (sids : List Int) (span : Span)
  deriving DecidableEq

inductive ValueKind where
  | null
  | integer
  | real
  | text
  deriving DecidableEq

def ValueKind.name : ValueKind → String
  | .null => "Null"
  | .integer => "Integer"
  | .real => "Real"
  | .text => "Text"

inductive Column where
  | sid
  | ratio
  | effective
  deriving DecidableEq

def Column.name : Column → String
  | .sid => "sid"
  | .ratio => "ratio"
  | .effective => "effective_date"

def Column.index : Column → Nat
  | .sid => 0
  | .ratio => 1
  | .effective => 2

/-- The statement that asks for the actions of a number of assets in a range of dates. -/
def selectText (c : Category) (sids : Nat) : String :=
  let places := ",".intercalate (List.replicate sids "?")
  s!"SELECT sid, ratio, effective_date FROM {c.table} WHERE sid IN ({places}) " ++
    "AND effective_date >= ? AND effective_date <= ? ORDER BY sid ASC, effective_date ASC"

/-- Where the variable of a number, counted from 0, stands in a statement. -/
def variableOffset (n : Nat) : List Char → Nat
  | [] => 0
  | '?' :: rest =>
    match n with
    | 0 => 0
    | n + 1 => variableOffset n rest + 1
  | _ :: rest => variableOffset n rest + 1

inductive DatabaseFault where
  | noTable (category : Category)
  /-- A fetch of so many assets has more variables than a statement may have. -/
  | tooManyVariables (category : Category) (sids limit : Nat)
  | notNull (category : Category) (column : Column)
  | readOnly
  /-- A value read from a column is of a kind that the column's type does not admit. -/
  | columnType (kind : ValueKind) (column : Column)
  | cannotOpen (path : String)
  deriving DecidableEq

def DatabaseFault.message : DatabaseFault → String
  | .noTable c => s!"no such table: {c.table}"
  | .tooManyVariables c sids limit =>
    let sql := selectText c sids
    s!"too many SQL variables in {sql} at offset {variableOffset limit sql.toList}"
  | .notNull c column => s!"NOT NULL constraint failed: {c.table}.{column.name}"
  | .readOnly => "attempt to write a readonly database"
  | .columnType kind column =>
    s!"Invalid column type {kind.name} at index: {column.index}, name: {column.name}"
  | .cannotOpen path => s!"unable to open database file: {path}"

/-- The result code that lies under a fault, unless the fault is found only after the statement has
succeeded. -/
def DatabaseFault.code? : DatabaseFault → Option String
  | .noTable _ | .tooManyVariables .. => some "Error code 1: SQL error or missing database"
  | .notNull .. => some "Error code 1299: A NOT NULL constraint failed"
  | .readOnly => some "Error code 8: Attempt to write a readonly database"
  | .columnType .. => none
  | .cannotOpen _ => some "Error code 14: Unable to open the database file"

/-- The number of parameters that every fetch binds for the range of dates. -/
def rangeParams : Nat := 2

/-- The number of parameters that a database statement may bind, unless configured otherwise. -/
def defaultMaxParams : Nat := 999

inductive StoreFault where
  | database (fault : DatabaseFault)
  | backend (text : String)
  /-- A statement may bind so few parameters that there is no room for an asset. -/
  | parameterLimit (maxParams reserved : Nat)
  deriving DecidableEq

def StoreFault.message : StoreFault → String
  | .database e => s!"sqlite: {e.message}"
  | .backend text => s!"store backend: {text}"
  | .parameterLimit m reserved =>
    s!"max_bound_params={m} leaves no room for asset ids " ++
      s!"({reserved} reserved for the date range)"

def StoreFault.causes : StoreFault → List String
  | .database e => e.message :: e.code?.toList
  | _ => []

/-- A source of actions. Each answer may depend on the queries asked before, in order. -/
structure Source where
  /-- The number of parameters that one query may bind. It is asked for once per fetch, and taken to
  be the same throughout a load. -/
  maxParams : Nat
  sids : List Query → Category → Span → Except StoreFault SidSet
  actions : List Query → Category → List Int → Span → Except StoreFault (List Action)

/-- The answers depend on the query alone. -/
def Source.Stateless (s : Source) : Prop :=
  ∀ past past', s.sids past = s.sids past' ∧ s.actions past = s.actions past'

/-- What a run has asked and logged so far, in order. -/
structure Journal where
  asked : List Query
  events : List Event

def Journal.empty : Journal := ⟨[], []⟩

/-- A computation that asks a source and logs events, and may fail. -/
abbrev Run (ε α : Type) := ExceptT ε (StateM Journal) α

namespace Run

variable {ε α : Type}

def log (e : Event) : Run ε Unit :=
  ExceptT.mk fun j => (.ok (), { j with events := j.events ++ [e] })

def ofExcept (x : Except ε α) : Run ε α := ExceptT.mk fun j => (x, j)

/-- The result of a run that starts with a journal, and the journal after it. -/
def perform (x : Run ε α) (j : Journal) : Except ε α × Journal := ExceptT.run x j

end Run

def Source.askSids (s : Source) (c : Category) (span : Span) : Run StoreFault SidSet :=
  ExceptT.mk fun j => (s.sids j.asked c span, { j with asked := j.asked ++ [.distinct c span] })

def Source.askActions (s : Source) (c : Category) (sids : List Int) (span : Span) :
    Run StoreFault (List Action) :=
  ExceptT.mk fun j =>
    (s.actions j.asked c sids span, { j with asked := j.asked ++ [.fetch c sids span] })

end AsOf
